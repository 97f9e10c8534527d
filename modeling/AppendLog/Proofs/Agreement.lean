import Mathlib
import AppendLog.Proofs.Shaped

/-! Agreement of the decoders for a type and for its shape.

Both read the same bytes and come to the same value, up to its type. They also fail with the same
error at the same place, except that an array is read in two ways: as a row of as many items as
the type says, and as a sequence whose length is held against the input. On inputs that are
refused by only one of the two ways the other one fails as well, unless items that take no bytes
are too many for a sequence.
-/

set_option autoImplicit false

namespace AppendLog

namespace Decoding

variable {α β γ δ : Type} {sameErrors limited : Prop} {image : β → α}

/-- Two readings come to the same value, or both fail. Where the errors are the same ones, both
fail alike, and where limits are kept, the first one does not fail alone. -/
def Matches (sameErrors limited : Prop) (image : β → α) :
    EStateM.Result CodecError Cursor α → EStateM.Result CodecError Cursor β → Prop
  | .ok value after, .ok datum stop => value = image datum ∧ after = stop
  | .error error after, .error other stop => sameErrors → error = other ∧ after = stop
  | .error _ _, .ok _ _ => ¬ sameErrors ∧ ¬ limited
  | .ok _ _, .error _ _ => False

def Follows (sameErrors limited : Prop) (image : β → α) (first : Decoding α) (second : Decoding β) : Prop :=
  ∀ cursor, Matches sameErrors limited image (first cursor) (second cursor)

variable {first : Decoding α} {second : Decoding β}

theorem Follows.of_ok (follows : Follows sameErrors limited image first second) {cursor after : Cursor}
    {value : α} (read : first cursor = .ok value after) :
    ∃ datum, second cursor = .ok datum after ∧ image datum = value := by
  have matched := follows cursor
  rw [read] at matched
  cases ran : second cursor with
  | ok datum stop =>
    rw [ran] at matched
    obtain ⟨rfl, rfl⟩ := matched
    exact ⟨datum, rfl, rfl⟩
  | error error stop =>
    rw [ran] at matched
    exact matched.elim

theorem Follows.ok_of (follows : Follows sameErrors limited image first second) (keeps : limited)
    {cursor after : Cursor} {datum : β} (read : second cursor = .ok datum after) :
    first cursor = .ok (image datum) after := by
  have matched := follows cursor
  rw [read] at matched
  cases ran : first cursor with
  | ok value stop =>
    rw [ran] at matched
    obtain ⟨rfl, rfl⟩ := matched
    rfl
  | error error stop =>
    rw [ran] at matched
    exact absurd keeps matched.2

theorem Follows.error_iff (follows : Follows sameErrors limited image first second) (same : sameErrors)
    {cursor stop : Cursor} {error : CodecError} :
    first cursor = .error error stop ↔ second cursor = .error error stop := by
  have matched := follows cursor
  revert matched
  cases first cursor <;> cases second cursor <;> simp only [Matches]
  · simp
  · exact False.elim
  · exact fun refused => absurd same refused.1
  · intro alike
    obtain ⟨rfl, rfl⟩ := alike same
    simp

theorem Follows.mono {fewerErrors fewerLimits : Prop} (follows : Follows sameErrors limited image first second)
    (errors : fewerErrors → sameErrors) (limits : fewerLimits → limited) :
    Follows fewerErrors fewerLimits image first second := by
  intro cursor
  have matched := follows cursor
  revert matched
  cases first cursor <;> cases second cursor <;> simp only [Matches]
  · exact id
  · exact id
  · exact fun refused => ⟨mt errors refused.1, mt limits refused.2⟩
  · exact fun same few => same (errors few)

theorem follows_pure {value : α} {datum : β} (same : value = image datum) :
    Follows sameErrors limited image (pure value) (pure datum) :=
  fun _ => ⟨same, rfl⟩

theorem follows_throw (error : CodecError) :
    Follows sameErrors limited image (throw error : Decoding α) (throw error) :=
  fun _ _ => ⟨rfl, rfl⟩

theorem follows_image (decoder : Decoding β) :
    Follows sameErrors limited image (do return image (← decoder)) decoder := by
  intro cursor
  cases ran : decoder cursor with
  | ok value after =>
    rw [bind_of_ok ran]
    exact ⟨rfl, rfl⟩
  | error error stop =>
    rw [bind_of_error ran]
    exact fun _ => ⟨rfl, rfl⟩

theorem follows_self (decoder : Decoding α) : Follows sameErrors limited id decoder decoder := by
  have follows : Follows sameErrors limited id (do return id (← decoder)) decoder := follows_image decoder
  rwa [show (do return id (← decoder) : Decoding α) = decoder from bind_pure decoder] at follows

theorem Follows.bind {next : α → Decoding γ} {following : β → Decoding δ} {result : δ → γ}
    (follows : Follows sameErrors limited image first second)
    (rest : ∀ datum, Follows sameErrors limited result (next (image datum)) (following datum)) :
    Follows sameErrors limited result (first >>= next) (second >>= following) := by
  intro cursor
  have matched := follows cursor
  cases ran : first cursor with
  | ok value after =>
    cases ran' : second cursor with
    | ok datum stop =>
      simp only [ran, ran', Matches] at matched
      obtain ⟨rfl, rfl⟩ := matched
      rw [bind_of_ok ran, bind_of_ok ran']
      exact rest datum after
    | error => simp only [ran, ran', Matches] at matched
  | error error after =>
    rw [bind_of_error ran]
    cases ran' : second cursor with
    | ok datum stop =>
      simp only [ran, ran', Matches] at matched
      rw [bind_of_ok ran']
      cases following datum stop with
      | ok => exact matched
      | error => exact fun same => absurd same matched.1
    | error other stop =>
      simp only [ran, ran', Matches] at matched
      rw [bind_of_error ran']
      exact matched

theorem Follows.map {convert : α → γ} {other : β → δ} {result : δ → γ}
    (follows : Follows sameErrors limited image first second)
    (same : ∀ datum, convert (image datum) = result (other datum)) :
    Follows sameErrors limited result (do return convert (← first)) (do return other (← second)) :=
  follows.bind fun datum => follows_pure (same datum)

theorem Follows.convert {other : β → δ} {result : δ → α} (follows : Follows sameErrors limited image first second)
    (same : ∀ datum, image datum = result (other datum)) :
    Follows sameErrors limited result first (do return other (← second)) := by
  have mapped := follows.map (show ∀ datum, id (image datum) = result (other datum) from same)
  rwa [show (do return id (← first) : Decoding α) = first from bind_pure first] at mapped

theorem Follows.trans {third : Decoding γ} {otherErrors otherLimited : Prop} {other : γ → β}
    (follows : Follows sameErrors limited image first second)
    (next : Follows otherErrors otherLimited other second third) :
    Follows (sameErrors ∧ otherErrors) (limited ∧ otherLimited) (image ∘ other) first third := by
  intro cursor
  have matched := follows cursor
  have matchedNext := next cursor
  revert matched matchedNext
  cases first cursor <;> cases second cursor <;> cases third cursor <;> simp only [Matches]
  · rintro ⟨rfl, rfl⟩ ⟨rfl, rfl⟩
    exact ⟨rfl, rfl⟩
  all_goals grind

/-! Items in a row -/

variable {item : Decoding α} {other : Decoding β}

theorem repeated_succ (item : Decoding α) (count : Nat) (done : List α) :
    repeated item (count + 1) done = item >>= fun value => repeated item count (value :: done) := by
  funext cursor
  simp only [repeated, bind, EStateM.bind]
  cases item cursor <;> rfl

/-- The rest of a sequence, once its first item shows which limit holds. -/
def behindFirst (item : Decoding α) (more : Nat) (start : Cursor) (first : α) : Decoding (List α) :=
  fun next =>
    let limit := if next.position = start.position then emptyItemLimit else start.rest.length
    if limit < more + 1 then .error (.tooManyItems (more + 1) limit) next
    else repeated item more [first] next

theorem items_succ (item : Decoding α) (more : Nat) (cursor : Cursor) :
    items item (more + 1) cursor = (item >>= behindFirst item more cursor) cursor := by
  simp only [items, bind, EStateM.bind]
  cases item cursor <;> rfl

theorem Follows.repeated (follows : Follows sameErrors limited image item other) (count : Nat)
    (done : List β) : Follows sameErrors limited (List.map image)
      (repeated item count (done.map image)) (repeated other count done) := by
  induction count generalizing done with
  | zero => exact fun cursor => ⟨List.map_reverse.symm, rfl⟩
  | succ count ih =>
    rw [repeated_succ, repeated_succ]
    exact follows.bind fun datum => ih (datum :: done)

theorem Follows.items (follows : Follows sameErrors limited image item other) (count : Nat) :
    Follows sameErrors limited (List.map image) (items item count) (items other count) := by
  intro cursor
  cases count with
  | zero => exact ⟨rfl, rfl⟩
  | succ more =>
    rw [items_succ, items_succ]
    refine follows.bind (fun datum next => ?_) cursor
    simp only [behindFirst]
    generalize (if next.position = cursor.position then emptyItemLimit else cursor.rest.length) = limit
    split
    · exact fun _ => ⟨rfl, rfl⟩
    · exact follows.repeated more [datum] next

theorem Follows.seq (follows : Follows sameErrors limited image item other) :
    Follows sameErrors limited (List.map image) (seq item) (seq other) :=
  (follows_self length).bind follows.items

/-- Where items come as a row, a sequence of them is refused only if they take no bytes and are
too many. -/
theorem follows_repeated {spell : α → Bytes} {nothing : Prop}
    (reads : item.Reads spell fun value => spell value = [] ↔ nothing) (count : Nat) :
    Follows False (nothing → count ≤ emptyItemLimit) id (Decoding.items item count)
      (Decoding.repeated item count []) := by
  intro cursor
  cases ran : Decoding.items item count cursor with
  | ok values after =>
    rw [repeated_of_items ran]
    exact ⟨rfl, rfl⟩
  | error error stop =>
    cases row : Decoding.repeated item count [] cursor with
    | error => exact False.elim
    | ok values after =>
      refine ⟨not_false, fun few => ?_⟩
      obtain ⟨_, rfl, rfl, alike, start, -⟩ := reads.of_repeated row
      cases values with
      | nil => cases ran
      | cons head tail =>
        simp only [List.length_cons] at ran row few
        obtain ⟨first, next, ranFirst, -⟩ := bind_eq_ok.mp (repeated_succ item tail.length [] ▸ row)
        obtain ⟨same, -, moved⟩ := reads _ _ _ ranFirst
        -- The first item shows which limit holds, and either way the row is within it.
        have passed := items_of_ok tail.length ranFirst rfl
        rw [ran, row] at passed
        by_cases stays : next.position = cursor.position
        · have empty : spell first = [] := List.length_eq_zero_iff.mp (by omega)
          rw [if_pos stays, if_neg (Nat.not_lt.mpr (few (same.mp empty)))] at passed
          cases passed
        · have takesBytes : ¬ nothing := fun takesNone => stays (by simp [moved, same.mpr takesNone])
          have enough : tail.length + 1 ≤ cursor.rest.length := by
            rw [start, List.length_append]
            exact Nat.le_add_right_of_le (length_le_flatMap fun value member none =>
              takesBytes ((alike value member).mp none))
          rw [if_neg stays, if_neg (Nat.not_lt.mpr enough)] at passed
          cases passed

end Decoding

namespace Shape

mutual

def arrays : Shape → List (Shape × Nat)
  | seq item => item.arrays
  | array item length => (item, length) :: item.arrays
  | optional item => item.arrays
  | record fields => arraysFields fields
  | _ => []

def arraysFields : List (String × Shape) → List (Shape × Nat)
  | [] => []
  | (_, shape) :: rest => shape.arrays ++ arraysFields rest

end

def ArrayFree (shape : Shape) : Prop := shape.arrays = []

/-- No array of items that take no bytes is longer than a sequence of them could be. -/
def ArraysLimited (shape : Shape) : Prop :=
  ∀ array ∈ shape.arrays, array.1.takesNoBytes = true → array.2 ≤ emptyItemLimit

theorem arrays_subset_of_field {fields : List (String × Shape)} {shape : Shape}
    (member : shape ∈ fields.map Prod.snd) : shape.arrays ⊆ arraysFields fields := by
  induction fields with
  | nil => cases member
  | cons field fields ih =>
    rcases List.mem_cons.mp member with rfl | member
    · exact List.subset_append_left _ _
    · exact List.subset_append_of_subset_right _ (ih member)

theorem arrayFree_of_subset {part whole : Shape} (inside : part.arrays ⊆ whole.arrays)
    (free : whole.ArrayFree) : part.ArrayFree :=
  List.eq_nil_of_subset_nil (free ▸ inside)

theorem arraysLimited_of_subset {part whole : Shape} (inside : part.arrays ⊆ whole.arrays)
    (limited : whole.ArraysLimited) : part.ArraysLimited :=
  fun array member => limited array (inside member)

end Shape

namespace Ty

open Decoding

variable {ty item : Ty} {shape : Shape} {scope : Scope} {fields : List (String × Ty)}
  {shapes : List (String × Shape)} {sameErrors limited : Prop}

theorem follows_parts {parts : List Ty}
    (each : ∀ part ∈ parts, Follows sameErrors limited Datum.image (pure .unit) (decodeIn scope [] part)) :
    Follows sameErrors limited (fun _ => Value.unit) (pure .unit) (decodeParts scope [] parts) := by
  induction parts with
  | nil => exact follows_pure rfl
  | cons part parts ih =>
    obtain ⟨first, others⟩ := List.forall_mem_cons.mp each
    have row : Follows sameErrors limited (fun _ => Value.unit) (do let _ ← pure Value.unit; pure .unit)
        (decodeParts scope [] (part :: parts)) := first.bind fun _ => (ih others).convert fun _ => rfl
    exact row

theorem follows_fields (names : fields.map Prod.fst = shapes.map Prod.fst)
    (each : ∀ pair ∈ (fields.map Prod.snd).zip (shapes.map Prod.snd),
      Follows sameErrors limited Datum.image pair.2.decode (decodeIn scope [] pair.1)) :
    Follows sameErrors limited Datum.imageFields (Shape.decodeFields shapes)
      (decodeFields scope [] fields) := by
  induction fields, shapes, names using sameNames_induction with
  | nil => exact follows_pure rfl
  | cons name ty shape fields shapes names ih =>
    obtain ⟨first, others⟩ := List.forall_mem_cons.mp each
    exact first.bind fun _ => (ih others).map fun _ => rfl

theorem follows_option {item : Decoding Value} {other : Decoding Datum}
    (follows : Follows sameErrors limited Datum.image item other) :
    Follows sameErrors limited Datum.image (do if ← presence then item else return .null)
      (do if ← presence then return .present (← other) else return .absent) := by
  refine (follows_self presence).bind fun present => ?_
  cases present with
  | false => exact follows_pure rfl
  | true => exact follows.convert fun _ => rfl

theorem decodeIn_array (scope : Scope) (outer : List (Decoding Datum)) (item : Ty) (expected : Nat) :
    decodeIn scope outer (.array item expected) = (do
      let found ← length
      if found = expected then return .list (← repeated (decodeIn scope outer item) expected [])
      else throw (.lengthMismatch expected found)) := by
  rw [decodeIn, Decoding.array, bind_assoc]
  congr 1
  funext found
  split <;> rfl

theorem Shaped.follows_array (shaped : Shaped item shape) (expected : Nat)
    (follows : Follows sameErrors limited Datum.image shape.decode (decodeIn scope [] item)) :
    Follows False ((shape.takesNoBytes = true → expected ≤ emptyItemLimit) ∧ limited) Datum.image
      (Shape.array shape expected).decode (decodeIn scope [] (.array item expected)) := by
  rw [decodeIn_array]
  refine (follows_self length).bind fun found => ?_
  dsimp only [id]
  split
  · case isTrue counted =>
    subst counted
    have row := (follows.items found).trans (follows_repeated (shaped.reads scope) found)
    refine (row.map fun items => ?_).mono False.elim And.symm
    exact (Datum.image_list items).symm
  · exact follows_throw _

/-- The decoder for a type follows that for its shape. -/
theorem Shaped.follows (shaped : Shaped ty shape) (scope : Scope) :
    Follows shape.ArrayFree shape.ArraysLimited Datum.image shape.decode (decodeIn scope [] ty) := by
  induction shaped generalizing scope with
  | bool => exact (follows_self _).map fun _ => rfl
  | int kind => exact (follows_self _).map fun _ => rfl
  | float kind => exact (follows_image (Decoding.float kind)).map fun _ => rfl
  | complex kind =>
    exact (follows_image (Decoding.float kind)).bind fun _ =>
      (follows_image (Decoding.float kind)).map fun _ => rfl
  | text => exact (follows_self _).map fun _ => rfl
  | unit | transient => exact follows_pure rfl
  | tuple _ ih => exact (follows_parts fun part member => ih part member scope).convert fun _ => rfl
  | seq _ ih => exact (ih scope).seq.map fun items => (Datum.image_list items).symm
  | @array item shape length shaped ih =>
    refine (shaped.follows_array length (ih scope)).mono (fun free => by cases free) fun limits => ?_
    exact ⟨limits _ List.mem_cons_self, Shape.arraysLimited_of_subset (List.subset_cons_self _ _) limits⟩
  | option _ ih => exact follows_option (ih scope)
  | boxed _ ih => exact ih scope
  | @record fields shapes skipped own names shaped ih =>
    rw [decodeIn_record names shaped]
    refine (follows_fields names fun pair member => ?_).map fun _ => rfl
    have inside : pair.2.arrays ⊆ (Shape.record shapes).arrays :=
      Shape.arrays_subset_of_field (List.of_mem_zip member).2
    exact (ih pair member _).mono (Shape.arrayFree_of_subset inside) (Shape.arraysLimited_of_subset inside)

/-- The decoders for a type and for its shape accept the same inputs, and read the same values of
them, unless an array of items that take no bytes is too long for a sequence. Without arrays they
also fail alike. -/
theorem Shaped.agrees (shaped : Shaped ty shape) (cursor : Cursor) :
    (shape.ArraysLimited → ∀ value after, shape.decode cursor = .ok value after ↔
      ∃ datum, decode ty cursor = .ok datum after ∧ datum.image = value) ∧
    (shape.ArrayFree → ∀ error stop,
      shape.decode cursor = .error error stop ↔ decode ty cursor = .error error stop) := by
  have follows := shaped.follows []
  refine ⟨fun limited value after => ⟨follows.of_ok, ?_⟩, fun free error stop => follows.error_iff free⟩
  rintro ⟨datum, read, rfl⟩
  exact follows.ok_of limited read

theorem Shaped.agrees_of_nested :
    let ty : Ty := .derived [] [("id", .boxed (.int .u16)), ("hook", .option (.transient .text)),
      ("at", .float .f32), ("marks", .array (.seq (.tuple [.unit, .unit])) 2)] [("visits", .int .u32)]
    let shape : Shape := .record [("id", .int .u16), ("hook", .optional (.void .function)),
      ("at", .float .f32), ("marks", .array (.seq (.void .channel)) 2)]
    let datum : Datum := .record [("id", .int .u16 7), ("hook", .present (.transient (.text ""))),
      ("at", .float .f32 0x7f800001#32), ("marks", .list [.list [.tuple [.unit, .unit]], .list []])]
      [("visits", .int .u32 0)]
    let start : Cursor := ⟨[0, 7, 1, 127, 128, 0, 1, 0, 0, 0, 2, 0, 0, 0, 1, 0, 0, 0, 0, 9], 40⟩
    decode ty start = .ok datum ⟨[9], 59⟩ ∧ shape.decode start = .ok datum.image ⟨[9], 59⟩ ∧
      (Shape.seq (.optional .bool)).decode ⟨[0, 0, 0, 1, 2], 40⟩ = .error (.invalidPresence 2) ⟨[], 45⟩ := by
  intro ty shape datum start
  have parts : Shaped (.tuple [.unit, .unit]) (.void .channel) := .tuple (by simp [Shaped.unit])
  have shaped : Shaped ty shape := by
    refine .record _ _ rfl ?_
    simp only [List.map_cons, List.map_nil, List.zip_cons_cons, List.zip_nil_right, List.forall_mem_cons]
    exact ⟨.boxed (.int _), .option (.transient _ _), .float _, .array 2 (.seq parts), List.forall_mem_nil _⟩
  have limited : shape.ArraysLimited := by
    simp [Shape.ArraysLimited, shape, Shape.arrays, Shape.arraysFields, Shape.takesNoBytes]
  have read : decode ty start = .ok datum ⟨[9], 59⟩ := by
    simp only [ty, start, datum]
    cbv
  have flags : Shaped (.seq (.option .bool)) (.seq (.optional .bool)) := .seq (.option .bool)
  have failed : decode (.seq (.option .bool)) ⟨[0, 0, 0, 1, 2], 40⟩ =
      .error (.invalidPresence 2) ⟨[], 45⟩ := by cbv
  exact ⟨read, ((shaped.agrees start).1 limited _ _).mpr ⟨datum, read, rfl⟩,
    ((flags.agrees _).2 rfl _ _).mpr failed⟩

end Ty

end AppendLog
