import AppendLog.Proofs.Running
import AppendLog.Storage.Folder

/-! Paths in a folder, and what is found at them.

What is at a path depends on the folders and the files of each name alone, and not on the order in which
they have been put there. The folder that a file is in exists, so that making it changes nothing.
-/

set_option autoImplicit false

namespace AppendLog

namespace Folder

variable {folder : Folder} {path : String} {content : Bytes}

/-! Following a path -/

def IsPlain (name : String) : Prop := name ≠ "" ∧ name ≠ "." ∧ name ≠ ".."

theorem step_cases (name : String) : isStill name = true ∨ name = ".." ∨ IsPlain name := by
  by_cases still : isStill name = true
  · exact .inl still
  · by_cases above : name = ".."
    · exact .inr (.inl above)
    · simp only [isStill, Bool.or_eq_true, beq_iff_eq, not_or] at still
      exact .inr (.inr ⟨still.1, still.2, above⟩)

theorem follow_still (folder : Folder) (here : List String) {name : String} (rest : List String)
    (still : isStill name = true) : folder.follow here (name :: rest) = folder.follow here rest := by
  simp only [isStill, Bool.or_eq_true, beq_iff_eq] at still
  rcases still with rfl | rfl <;> rfl

theorem follow_name (folder : Folder) (here : List String) {name : String} (rest : List String)
    (plain : IsPlain name) : folder.follow here (name :: rest) =
      if isTooLong name then .nowhere
      else if folder.folders.contains (here ++ [name]) then folder.follow (here ++ [name]) rest
      else
        match folder.files.lookup (here ++ [name]), rest with
        | some content, [] => .file (here ++ [name]) content
        | none, [] => .free (here ++ [name])
        | _, _ :: _ => .nowhere := by
  obtain ⟨nonempty, present, above⟩ := plain
  rw [follow.eq_def]
  split
  · simp_all
  · simp_all
  · simp_all
  · simp_all
  · case h_5 same =>
    cases same
    rfl

/-- The steps lead from a place through folders to the name of a file. -/
inductive LeadsTo (folder : Folder) : (here steps location : List String) → Prop where
  | still {here rest location : List String} {name : String} : isStill name = true →
      LeadsTo folder here rest location → LeadsTo folder here (name :: rest) location
  | up {here rest location : List String} : LeadsTo folder (up here) rest location →
      LeadsTo folder here (".." :: rest) location
  | into {here rest location : List String} {name : String} : IsPlain name →
      isTooLong name = false → folder.folders.contains (here ++ [name]) = true →
      LeadsTo folder (here ++ [name]) rest location → LeadsTo folder here (name :: rest) location
  | last {here : List String} {name : String} : IsPlain name → isTooLong name = false →
      folder.folders.contains (here ++ [name]) = false →
      LeadsTo folder here [name] (here ++ [name])

theorem follow_eq_file {here steps location : List String} :
    folder.follow here steps = .file location content ↔
      folder.LeadsTo here steps location ∧ folder.files.lookup location = some content := by
  constructor
  · intro found
    induction steps generalizing here with
    | nil => cases found
    | cons name rest ih =>
      rcases step_cases name with still | rfl | plain
      · rw [follow_still _ _ _ still] at found
        exact ⟨.still still (ih found).1, (ih found).2⟩
      · exact ⟨.up (ih found).1, (ih found).2⟩
      · rw [follow_name _ _ _ plain] at found
        cases long : isTooLong name with
        | true => simp [long] at found
        | false =>
          cases known : folder.folders.contains (here ++ [name]) with
          | true =>
            simp only [long, known, if_true, Bool.false_eq_true, if_false] at found
            exact ⟨.into plain long known (ih found).1, (ih found).2⟩
          | false =>
            simp only [long, known, Bool.false_eq_true, if_false] at found
            cases held : folder.files.lookup (here ++ [name]) with
            | none => cases rest <;> simp [held] at found
            | some bytes =>
              cases rest with
              | cons next rest => simp [held] at found
              | nil =>
                simp only [held, Place.file.injEq] at found
                obtain ⟨rfl, rfl⟩ := found
                exact ⟨.last plain long known, held⟩
  · rintro ⟨leads, held⟩
    induction leads with
    | still still _ ih => rw [follow_still _ _ _ still, ih held]
    | up _ ih => exact ih held
    | into plain long known _ ih => rw [follow_name _ _ _ plain, long, known]; exact ih held
    | last plain long known => rw [follow_name _ _ _ plain, long, known, held]; rfl

/-! What is put in a folder -/

theorem lookup_put (folder : Folder) (location : List String) (content : Bytes) (name : List String) :
    (folder.put location content).files.lookup name =
      if name = location then some content else folder.files.lookup name := by
  rw [put, List.lookup_cons]
  by_cases same : name = location
  · simp [same]
  · have other : (name == location) = false := by simpa using same
    simp only [other, same, if_false]
    induction folder.files with
    | nil => rfl
    | cons entry rest ih =>
      obtain ⟨key, held⟩ := entry
      by_cases removed : key = location
      · simp [removed, List.lookup_cons, ih, other]
      · simp [removed, List.lookup_cons, ih]

theorem content?_eq_some : folder.content? path = some content ↔
    ∃ location, folder.locate path = .file location content := by
  unfold content?
  split
  · case h_1 location held located => simp [located]
  · case h_2 other =>
    constructor
    · intro found
      cases found
    · rintro ⟨location, located⟩
      exact absurd located (other location content)

theorem hasPath_of_content (found : folder.content? path = some content) : folder.hasPath path = true := by
  obtain ⟨location, located⟩ := content?_eq_some.mp found
  rw [hasPath, located]

theorem follow_of_locate {place : Place} (located : folder.locate path = place) (led : place ≠ .nowhere) :
    objection? path = none ∧ folder.follow (origin path) (steps path) = place := by
  unfold locate at located
  split at located
  · exact absurd located.symm led
  · case isFalse allowed => exact ⟨Option.not_isSome_iff_eq_none.mp allowed, located⟩

/-! Folders in which the same is found -/

structure SameAs (first second : Folder) : Prop where
  folders : first.folders = second.folders
  files : ∀ name, first.files.lookup name = second.files.lookup name

theorem SameAs.refl (folder : Folder) : folder.SameAs folder := ⟨rfl, fun _ => rfl⟩

theorem SameAs.trans {first second third : Folder} (same : first.SameAs second)
    (next : second.SameAs third) : first.SameAs third :=
  ⟨same.folders.trans next.folders, fun name => (same.files name).trans (next.files name)⟩

theorem SameAs.follow {first second : Folder} (same : first.SameAs second) (here steps : List String) :
    first.follow here steps = second.follow here steps := by
  induction steps generalizing here with
  | nil => rfl
  | cons name rest ih =>
    rcases step_cases name with still | rfl | plain
    · rw [follow_still _ _ _ still, follow_still _ _ _ still, ih]
    · exact ih _
    · rw [follow_name _ _ _ plain, follow_name _ _ _ plain, same.folders, same.files, ih]

theorem SameAs.locate {first second : Folder} (same : first.SameAs second) (path : String) :
    first.locate path = second.locate path := by
  simp only [Folder.locate, same.follow]

theorem sameAs_put {here steps location : List String}
    (found : folder.follow here steps = .file location content) :
    (folder.put location content).SameAs folder := by
  refine ⟨rfl, fun name => ?_⟩
  rw [lookup_put]
  split
  · case isTrue same =>
    rw [same]
    exact (follow_eq_file.mp found).2.symm
  · rfl

theorem write_sameAs (found : folder.content? path = some content) :
    (folder.write path content).SameAs folder := by
  obtain ⟨location, located⟩ := content?_eq_some.mp found
  rw [write, located]
  exact sameAs_put (follow_of_locate located (by simp)).2

/-! Making folders that are there -/

theorem makeFolders_still (here : List String) {name : String} (rest : List String)
    (still : isStill name = true) : makeFolders here (name :: rest) = makeFolders here rest := by
  simp only [isStill, Bool.or_eq_true, beq_iff_eq] at still
  rcases still with rfl | rfl <;> rfl

theorem makeFolders_known {here : List String} {name : String} (rest : List String) (plain : IsPlain name)
    (known : folder.folders.contains (here ++ [name]) = true) :
    makeFolders here (name :: rest) folder = makeFolders (here ++ [name]) rest folder := by
  obtain ⟨nonempty, present, above⟩ := plain
  rw [makeFolders.eq_5 _ _ _ nonempty present above]
  simp only [bind, EStateM.bind, run_get, known, Bool.not_true, Bool.false_eq_true, if_false]

theorem LeadsTo.makeFolders {here front back location : List String} (more : back ≠ [])
    (leads : folder.LeadsTo here (front ++ back) location) :
    Folder.makeFolders here front folder = .ok () folder := by
  induction front generalizing here with
  | nil => rfl
  | cons name rest ih =>
    rw [List.cons_append] at leads
    generalize steps : rest ++ back = behind at leads
    cases leads with
    | still still leads =>
      rw [makeFolders_still _ _ still]
      exact ih (steps ▸ leads)
    | up leads => exact ih (steps ▸ leads)
    | into plain long known leads =>
      rw [makeFolders_known _ plain known]
      exact ih (steps ▸ leads)
    | last => simp [more] at steps

/-! The folder that a path names something in -/

theorem not_mem_of_mem_splitOn {text part : List Char} {separator : Char}
    (member : part ∈ text.splitOn separator) : separator ∉ part := by
  induction text generalizing part with
  | nil => simp_all
  | cons char rest ih =>
    rw [List.splitOn, List.splitOnP_cons_eq_if_modifyHead] at member
    split at member
    · rcases List.mem_cons.mp member with rfl | member
      · exact List.not_mem_nil
      · exact ih member
    · case isFalse differs =>
      obtain ⟨first, more, parts⟩ := List.exists_cons_of_ne_nil (List.splitOn_ne_nil separator rest)
      rw [← List.splitOn, parts, List.modifyHead_cons] at member
      rcases List.mem_cons.mp member with rfl | member
      · have other : separator ≠ char := by
          rintro rfl
          exact differs (beq_self_eq_true separator)
        exact List.not_mem_cons_of_ne_of_not_mem other (ih (parts ▸ List.mem_cons_self))
      · exact ih (parts ▸ List.mem_cons_of_mem first member)

theorem intercalate_steps (path : String) : "/".intercalate (steps path) = path := by
  rw [← String.toList_inj, String.toList_intercalate, steps, List.map_map]
  have same : String.toList ∘ String.ofList = id := by
    funext text
    exact String.toList_ofList
  rw [same, List.map_id]
  exact List.intercalate_splitOn '/'

theorem steps_intercalate {front : List String} (some : front ≠ [])
    (taken : ∀ step ∈ front, step ∈ steps path) : steps ("/".intercalate front) = front := by
  have parted : List.splitOn '/' (['/'].intercalate (front.map String.toList)) = front.map String.toList := by
    apply List.splitOn_intercalate
    · intro part member
      obtain ⟨step, fromFront, rfl⟩ := List.mem_map.mp member
      obtain ⟨text, ofPath, rfl⟩ := List.mem_map.mp (taken step fromFront)
      rw [String.toList_ofList]
      exact not_mem_of_mem_splitOn ofPath
    · simpa using some
  have same : String.ofList ∘ String.toList = id := by
    funext text
    exact String.ofList_toList
  rw [steps, String.toList_intercalate]
  show List.map String.ofList (List.splitOn '/' (['/'].intercalate (front.map String.toList))) = front
  rw [parted, List.map_map, same, List.map_id]

theorem trimmed_isPrefix (steps : List String) : trimmed steps <+: steps := by
  rw [← List.reverse_suffix, trimmed, List.reverse_reverse]
  exact List.dropWhile_suffix isStill

theorem exists_steps_eq (path : String) : ∃ front back, back ≠ [] ∧ steps path = front ++ back ∧
    parentPath path = "/".intercalate front := by
  obtain ⟨back, whole⟩ := ((trimmed_isPrefix _).trans (List.dropLast_prefix _)).trans (trimmed_isPrefix (steps path))
  refine ⟨_, back, ?_, whole.symm, rfl⟩
  rintro rfl
  have front := (trimmed_isPrefix (trimmed (steps path)).dropLast).length_le
  have length := congrArg List.length whole
  have short := (trimmed_isPrefix (steps path)).length_le
  have some : 0 < (steps path).length :=
    List.length_pos_iff.mpr (by simp [steps, List.splitOn_ne_nil])
  rw [List.append_nil] at length
  rw [List.length_dropLast] at front
  omega

theorem objection?_front {front back : String} (unobjected : objection? (front ++ back) = none)
    (nonempty : front.isEmpty = false) : objection? front = none := by
  unfold objection? at unobjected ⊢
  split at unobjected
  · cases unobjected
  · case isFalse clean =>
    split at unobjected
    · cases unobjected
    · case isFalse short =>
      have cleanFront : front.toList.contains '\x00' = false := by
        simp only [String.toList_append, List.contains_iff_mem, List.mem_append, not_or] at clean
        simpa using clean.1
      have shortFront : ¬ pathLimit ≤ front.utf8ByteSize := by
        simp only [Bool.or_eq_true, decide_eq_true_eq, not_or, String.utf8ByteSize_append] at short
        omega
      simp only [cleanFront, nonempty, shortFront, decide_false, Bool.or_self, Bool.false_eq_true, if_false]

theorem LeadsTo.makeParents {location : List String} (unobjected : objection? path = none)
    (leads : folder.LeadsTo (origin path) (steps path) location) :
    Folder.makeParents path folder = .ok () folder := by
  obtain ⟨front, back, more, whole, parent⟩ := exists_steps_eq path
  unfold Folder.makeParents
  rw [parent]
  cases nonempty : ("/".intercalate front).isEmpty with
  | true => rfl
  | false =>
    have some : front ≠ [] := by
      rintro rfl
      cases nonempty
    have path_eq := intercalate_steps path
    rw [whole, String.intercalate_append_of_ne_nil some more, String.append_assoc] at path_eq
    have unobjectedParent := objection?_front (path_eq ▸ unobjected) nonempty
    have taken : steps ("/".intercalate front) = front :=
      steps_intercalate some fun step member => whole ▸ List.mem_append_left back member
    simp only [unobjectedParent, taken]
    exact (whole ▸ leads).makeFolders more

end Folder

end AppendLog
