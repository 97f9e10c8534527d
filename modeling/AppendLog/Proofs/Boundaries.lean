import AppendLog.Proofs.Parsing
import AppendLog.Proofs.Slicing

/-! Places between characters.

A parser that keeps the whole text and the number of bytes it has come past cuts its text at such places,
and may do so only where characters begin, or at the end. The parser of shapes is written here once more in
this way: it moves on by one byte past a character that it has seen to be in ASCII, by the length of the
character that it has expected, by what blanks take, and by the lengths of the names and numbers that it
finds. `outside` is what it comes to if it ever stands or cuts within a character, or behind the end.
-/

set_option autoImplicit false

namespace AppendLog

/-! Texts cut at places -/

namespace Text

def Boundary (text : String) (position : Nat) : Prop := String.Pos.Raw.IsValid text ⟨position⟩

instance (text : String) : DecidablePred (Boundary text) :=
  fun _ => decidable_of_iff _ String.Pos.Raw.isValid_eq_true_iff

theorem bytes_append (front back : String) : bytes (front ++ back) = bytes front ++ bytes back := by
  rw [bytes, String.toUTF8, String.toByteArray_append, ByteArray.toList_data_append]
  rfl

theorem length_bytes_ofList (chars : List Char) : (bytes (String.ofList chars)).length = utf8Length chars := by
  induction chars with
  | nil => rfl
  | cons c rest ih =>
    have single : (bytes (String.singleton c)).length = c.utf8Size := String.utf8ByteSize_singleton
    rw [String.ofList_cons, bytes_append, List.length_append, ih, single]
    rfl

theorem utf8Length_pos {chars : List Char} (nonempty : chars ≠ []) : 0 < utf8Length chars := by
  obtain ⟨c, rest, rfl⟩ := List.exists_cons_of_ne_nil nonempty
  exact Nat.add_pos_left c.utf8Size_pos _

theorem boundary_iff {text : String} {position : Nat} :
    Boundary text position ↔ ∃ front back, text = front ++ back ∧ position = (bytes front).length := by
  rw [Boundary, String.Pos.Raw.isValid_iff_exists_append]
  simp only [String.Pos.Raw.ext_iff]
  rfl

theorem Boundary.le {text : String} {position : Nat} (boundary : Boundary text position) :
    position ≤ (bytes text).length :=
  String.Pos.Raw.IsValid.le_utf8ByteSize boundary

end Text

namespace Shape

abbrev Stepping (α : Type) := EStateM (Breach ParseError) Nat α

namespace Stepping

/-! Parsing at places -/

def fail {α : Type} (error : ParseError) : Stepping α := throw (.failed error)

def cut (text : String) (start stop : Nat) : Stepping String :=
  if start ≤ stop ∧ Text.Boundary text start ∧ Text.Boundary text stop then
    match Text.ofBytes? (((Text.bytes text).take stop).drop start) with
    | some part => return part
    | none => throw .outside
  else throw .outside

variable (text : String)

def rest : Stepping String := do
  cut text (← get) (Text.bytes text).length

def advance (count : Nat) : Stepping Unit := do
  let position ← get
  if Text.Boundary text (position + count) then set (position + count) else throw .outside

def skipBlanks : Stepping Unit := do
  let rest ← rest text
  let trimmed := String.ofList (rest.toList.dropWhile Text.isBlank)
  advance text (← difference (Text.bytes rest).length (Text.bytes trimmed).length)

def peek : Stepping (Option Char) := do
  skipBlanks text
  return (← rest text).toList.head?

def expect (wanted : Char) : Stepping Unit := do
  let found ← peek text
  if found = some wanted then advance text wanted.utf8Size
  else fail (.malformed (← get) (.expected wanted found))

def runLength (stops : (offset : Nat) → Char → Bool) : (offset : Nat) → List Char → Nat
  | offset, [] => offset
  | offset, c :: rest => if stops offset c then offset else runLength stops (offset + c.utf8Size) rest

def stopsName (offset : Nat) (c : Char) : Bool :=
  !(c == '_' || c.isAlpha || (decide (0 < offset) && c.isDigit))

def identifier : Stepping String := do
  skipBlanks text
  let start ← get
  let count := runLength stopsName 0 (← rest text).toList
  if count = 0 then fail (.malformed start .typeName)
  else
    advance text count
    cut text start (start + count)

def arrayLength : Stepping Nat := do
  skipBlanks text
  let start ← get
  let rest ← rest text
  let count := runLength (fun _ c => !c.isDigit) 0 rest.toList
  advance text count
  let digits := (← cut rest 0 count).toList
  if digits = [] ∨ lengthLimit ≤ digitsValue digits then fail (.malformed start .arrayLength)
  else return digitsValue digits

mutual

def shape : (depth : Nat) → Stepping Shape
  | 0 => throw .outside
  | depth + 1 => do
    let found ← peek text
    if found = some '?' then
      advance text 1
      return .optional (← shape depth)
    else if found = some '[' then
      advance text 1
      let item ← shape depth
      if (← peek text) = some ';' then
        advance text 1
        let length ← arrayLength text
        expect text ']'
        return .array item length
      else
        expect text ']'
        return .seq item
    else if found = some '\x7b' then
      advance text 1
      let members ← fields depth
      expect text '\x7d'
      return .record members
    else
      let name ← identifier text
      match ofName? name with
      | some named => return named
      | none => fail (.unknownName name)

def fields : (depth : Nat) → Stepping (List (String × Shape))
  | 0 => throw .outside
  | depth + 1 => do
    if (← peek text) = some '\x7d' then return []
    else
      let name ← identifier text
      expect text ':'
      let member ← shape depth
      if (← peek text) = some ',' then
        advance text 1
        return (name, member) :: (← fields depth)
      else return [(name, member)]

end

/-- Every level of nesting takes a character. -/
def parse : Stepping Shape := do
  let parsed ← shape text (text.length + 1)
  skipBlanks text
  let position ← get
  if position = (Text.bytes text).length then return parsed
  else fail (.malformed position .trailingInput)

end Stepping

/-! Scans and places -/

namespace Scan

variable {text : String} {s : Scan} {run : List Char} {position : Nat}

/-- The scan has come past the front of the text, and what is behind that is left. -/
def Stands (text : String) (s : Scan) : Prop :=
  ∃ front, text = front ++ String.ofList s.rest ∧ s.position = (Text.bytes front).length

theorem stands_ofString (text : String) : Stands text (ofString text) := by
  refine ⟨"", ?_, rfl⟩
  rw [ofString, String.ofList_toList, String.empty_append]

theorem Stands.boundary (stands : Stands text s) : Text.Boundary text s.position := by
  obtain ⟨front, whole, position⟩ := stands
  exact Text.boundary_iff.mpr ⟨front, _, whole, position⟩

theorem Stands.past (stands : Stands text s) (front : run <+: s.rest) : Stands text (s.past run) := by
  obtain ⟨before, whole, position⟩ := stands
  obtain ⟨after, same⟩ := front
  refine ⟨before ++ String.ofList run, ?_, ?_⟩
  · rw [whole, Scan.past, ← same, List.drop_left, String.append_assoc, ← String.ofList_append]
  · rw [Scan.past, Text.bytes_append, List.length_append, position, Text.length_bytes_ofList]

theorem Stands.skipBlanks (stands : Stands text s) : Stands text s.skipBlanks :=
  stands.past (List.takeWhile_prefix _)

theorem Stands.length (stands : Stands text s) :
    (Text.bytes text).length = s.position + Text.utf8Length s.rest := by
  obtain ⟨front, whole, position⟩ := stands
  rw [whole, position, Text.bytes_append, List.length_append, Text.length_bytes_ofList]

theorem skipBlanks_skipBlanks (s : Scan) : s.skipBlanks.skipBlanks = s.skipBlanks := by
  have none : s.skipBlanks.rest.takeWhile Text.isBlank = [] := by
    have stopped := List.head?_dropWhile_not Text.isBlank s.rest
    rw [rest_skipBlanks]
    cases found : s.rest.dropWhile Text.isBlank with
    | nil => rfl
    | cons c after =>
      rw [found] at stopped
      exact List.takeWhile_cons_of_neg (by simpa using stopped)
  rw [skipBlanks, none]
  rfl

theorem position_le_skipBlanks (s : Scan) : s.position ≤ s.skipBlanks.position := Nat.le_add_right _ _

theorem le_skipBlanks_of_lt {least : Nat} (passed : least < s.position) : least ≤ s.skipBlanks.position :=
  Nat.le_trans (Nat.le_of_lt passed) s.position_le_skipBlanks

end Scan

/-! Steps at places -/

namespace Stepping

variable {text : String} {s : Scan} {run : List Char} {position : Nat}

theorem cut_eq (stands : s.Stands text) (front : run <+: s.rest) (state : Nat) :
    cut text s.position (s.position + Text.utf8Length run) state = .ok (String.ofList run) state := by
  have behind : Text.Boundary text (s.position + Text.utf8Length run) := (stands.past front).boundary
  rw [cut, if_pos ⟨Nat.le_add_right _ _, stands.boundary, behind⟩]
  obtain ⟨before, whole, start⟩ := stands
  obtain ⟨after, same⟩ := front
  have stop : s.position + Text.utf8Length run = (Text.bytes (before ++ String.ofList run)).length := by
    rw [Text.bytes_append, List.length_append, start, Text.length_bytes_ofList]
  have text_eq : text = (before ++ String.ofList run) ++ String.ofList after := by
    rw [whole, ← same, String.ofList_append, String.append_assoc]
  -- Both places are the lengths of fronts of the text, so what lies between them are the bytes of the run.
  rw [stop, start, text_eq, Text.bytes_append _ (String.ofList after), List.take_left, Text.bytes_append,
    List.drop_left, Text.ofBytes?_bytes]
  rfl

theorem cut_zero {chars : List Char} (front : run <+: chars) (state : Nat) :
    cut (String.ofList chars) 0 (Text.utf8Length run) state = .ok (String.ofList run) state := by
  have stands : Scan.Stands (String.ofList chars) ⟨chars, 0⟩ := ⟨"", String.empty_append.symm, rfl⟩
  have found := cut_eq stands front state
  rwa [Nat.zero_add] at found

theorem rest_eq (stands : s.Stands text) : rest text s.position = .ok (String.ofList s.rest) s.position := by
  rw [rest, bind_of_ok (run_get s.position), stands.length]
  exact cut_eq stands (List.prefix_refl _) s.position

theorem advance_eq (stands : s.Stands text) (front : run <+: s.rest) :
    advance text (Text.utf8Length run) s.position = .ok () (s.past run).position := by
  have boundary : Text.Boundary text (s.position + Text.utf8Length run) := (stands.past front).boundary
  rw [advance, bind_of_ok (run_get s.position), if_pos boundary]
  rfl

theorem skipBlanks_eq (stands : s.Stands text) : skipBlanks text s.position = .ok () s.skipBlanks.position := by
  have split : Text.utf8Length s.rest = Text.utf8Length (s.rest.takeWhile Text.isBlank) +
      Text.utf8Length (s.rest.dropWhile Text.isBlank) := by
    simp only [← Text.length_bytes_ofList]
    rw [← List.length_append, ← Text.bytes_append, ← String.ofList_append, List.takeWhile_append_dropWhile]
  rw [skipBlanks, bind_of_ok (rest_eq stands), String.toList_ofList, Text.length_bytes_ofList,
    Text.length_bytes_ofList, bind_of_ok (difference_of_le (by omega) s.position), split, Nat.add_sub_cancel]
  exact advance_eq stands (List.takeWhile_prefix _)

/-- Where a parser may stand that has come to a scan: the blanks behind it may have been skipped. The
next character is at `least` or behind it. -/
structure At (text : String) (least : Nat) (s : Scan) (position : Nat) : Prop where
  stands : s.Stands text
  place : position = s.position ∨ position = s.skipBlanks.position
  passed : least ≤ s.skipBlanks.position

namespace At

variable {least : Nat} (there : At text least s position)

include there

theorem boundary : Text.Boundary text position := by
  cases there.place with
  | inl same =>
    rw [same]
    exact there.stands.boundary
  | inr same =>
    rw [same]
    exact there.stands.skipBlanks.boundary

theorem position_le : s.position ≤ position := by
  have order := s.position_le_skipBlanks
  have place := there.place
  omega

theorem peeked : At text least s s.skipBlanks.position := ⟨there.stands, .inr rfl, there.passed⟩

theorem skipBlanks_eq : skipBlanks text position = .ok () s.skipBlanks.position := by
  cases there.place with
  | inl same =>
    rw [same]
    exact Stepping.skipBlanks_eq there.stands
  | inr same =>
    have again := Stepping.skipBlanks_eq there.stands.skipBlanks
    rw [Scan.skipBlanks_skipBlanks] at again
    rw [same]
    exact again

theorem peek_eq : peek text position = .ok s.peek s.skipBlanks.position := by
  rw [peek, bind_of_ok there.skipBlanks_eq, bind_of_ok (rest_eq there.stands.skipBlanks),
    String.toList_ofList]
  rfl

theorem past {run : List Char} (front : run <+: s.skipBlanks.rest) (nonempty : run ≠ []) :
    At text least (s.skipBlanks.past run) (s.skipBlanks.past run).position ∧
      least < (s.skipBlanks.past run).position := by
  have further : s.skipBlanks.position < (s.skipBlanks.past run).position :=
    Nat.lt_add_of_pos_right (Text.utf8Length_pos nonempty)
  have passed := Nat.lt_of_le_of_lt there.passed further
  exact ⟨⟨there.stands.skipBlanks.past front, .inl rfl, Scan.le_skipBlanks_of_lt passed⟩, passed⟩

theorem skip_eq {c : Char} (next : s.peek = some c) :
    advance text c.utf8Size s.skipBlanks.position = .ok () (s.skip c).position ∧
      At text least (s.skip c) (s.skip c).position ∧ least < (s.skip c).position := by
  obtain ⟨after, same⟩ := List.head?_eq_some_iff.mp next
  have front : [c] <+: s.skipBlanks.rest := ⟨after, same.symm⟩
  exact ⟨advance_eq there.stands.skipBlanks front, there.past front (List.cons_ne_nil _ _)⟩

theorem skip_ascii_eq {c : Char} (next : s.peek = some c) (ascii : c.utf8Size = 1) :
    advance text 1 s.skipBlanks.position = .ok () (s.skip c).position ∧
      At text least (s.skip c) (s.skip c).position ∧ least < (s.skip c).position := by
  rw [← ascii]
  exact there.skip_eq next

end At

end Stepping

/-! Parsers at places that follow others -/

def ParseError.Within (text : String) : ParseError → Prop
  | .malformed position _ => Text.Boundary text position
  | .unknownName _ => True

/-- At places the same has come out, behind the one named, and between two characters. -/
inductive Follows (text : String) (least : Nat) {α : Type} {limit : Nat} :
    EStateM.Result (Breach ParseError) Nat α → Except ParseError (Found α limit) → Prop where
  | ok (value : α) {after : Scan} {shorter : after.rest.length < limit} {stop : Nat} :
      Stepping.At text least after stop → least < after.position →
        Follows text least (.ok value stop) (.ok ⟨value, after, shorter⟩)
  | error (error : ParseError) {stop : Nat} : Text.Boundary text stop → error.Within text →
      Follows text least (.error (.failed error) stop) (.error error)

theorem Follows.bind {text : String} {α β : Type} {limit bound least position : Nat}
    {step : Stepping α} {next : α → Stepping β} {parsed : Except ParseError (Found α limit)}
    {nextParsed : Found α limit → Except ParseError (Found β bound)}
    (first : Follows text least (step position) parsed)
    (rest : ∀ (found : Found α limit) stop, Stepping.At text least found.after stop →
      least < found.after.position → Follows text least (next found.value stop) (nextParsed found)) :
    Follows text least ((step >>= next) position) (parsed >>= nextParsed) := by
  generalize ran : step position = result at first
  cases first with
  | ok value there passed =>
    rw [bind_of_ok ran]
    exact rest ⟨value, _, _⟩ _ there passed
  | error error boundary within =>
    rw [bind_of_error ran]
    exact .error error boundary within

theorem leadingName_prefix (chars : List Char) : leadingName chars <+: chars := by
  by_cases empty : leadingName chars = []
  · rw [empty]
    exact List.nil_prefix
  · rw [(leadingName_of_ne_nil empty).2]
    exact List.takeWhile_prefix _

namespace Stepping

variable {text : String} {s : Scan} {position : Nat}

/-! Runs -/

theorem runLength_eq {stops : Nat → Char → Bool} {p : Char → Bool} {offset : Nat} (chars : List Char)
    (same : ∀ later c, offset ≤ later → stops later c = !p c) :
    runLength stops offset chars = offset + Text.utf8Length (chars.takeWhile p) := by
  induction chars generalizing offset with
  | nil => rfl
  | cons c rest ih =>
    rw [runLength, same offset c (Nat.le_refl _)]
    cases part : p c with
    | false =>
      rw [List.takeWhile_cons_of_neg (by simp [part])]
      rfl
    | true =>
      rw [List.takeWhile_cons_of_pos part]
      have behind : ∀ later d, offset + c.utf8Size ≤ later → stops later d = !p d :=
        fun later d order => same later d (Nat.le_of_add_right_le order)
      exact (ih behind).trans (Nat.add_assoc _ _ _)

theorem stopsName_zero (c : Char) : stopsName 0 c = !isNameStart c := by
  rw [stopsName, decide_eq_false (Nat.lt_irrefl 0), Bool.false_and, Bool.or_false]
  rfl

theorem stopsName_of_pos {offset : Nat} (behind : 0 < offset) (c : Char) :
    stopsName offset c = !isNamePart c := by
  rw [stopsName, decide_eq_true behind, Bool.true_and]
  rfl

theorem runLength_stopsName (chars : List Char) :
    runLength stopsName 0 chars = Text.utf8Length (leadingName chars) := by
  cases chars with
  | nil => rfl
  | cons c rest =>
    rw [runLength, leadingName, stopsName_zero]
    cases isNameStart c with
    | false => rfl
    | true =>
      have behind : ∀ later d, 0 + c.utf8Size ≤ later → stopsName later d = !isNamePart d := by
        intro later d order
        have size := c.utf8Size_pos
        exact stopsName_of_pos (by omega) d
      refine (runLength_eq rest behind).trans ?_
      rw [Nat.zero_add]
      rfl

/-! Parsers

Each of them leaves the scan that the parser of scans leaves, and what it has read lies in front of that.
-/

section Parsers

variable {least : Nat}

theorem follows_expect (there : At text least s position) (wanted : Char) :
    Follows text least (expect text wanted position) (Shape.expect wanted s) := by
  rw [expect, bind_of_ok there.peek_eq]
  by_cases next : s.peek = some wanted
  · obtain ⟨moved, behind, passed⟩ := there.skip_eq next
    rw [Shape.expect, dif_pos next, if_pos next, moved]
    exact .ok _ behind passed
  · have boundary := there.stands.skipBlanks.boundary
    rw [Shape.expect, dif_neg next, if_neg next, bind_of_ok (run_get _)]
    exact .error _ boundary boundary

theorem follows_identifier (there : At text least s position) :
    Follows text least (identifier text position) (Shape.identifier s) := by
  have front := leadingName_prefix s.skipBlanks.rest
  have stands := there.stands.skipBlanks
  rw [identifier, bind_of_ok there.skipBlanks_eq, bind_of_ok (run_get _), bind_of_ok (rest_eq stands),
    String.toList_ofList, runLength_stopsName]
  by_cases empty : leadingName s.skipBlanks.rest = []
  · have nothing : Text.utf8Length (leadingName s.skipBlanks.rest) = 0 := by rw [empty]; rfl
    rw [if_pos nothing, Shape.identifier, dif_pos empty]
    exact .error _ stands.boundary stands.boundary
  · have some : Text.utf8Length (leadingName s.skipBlanks.rest) ≠ 0 :=
      Nat.ne_of_gt (Text.utf8Length_pos empty)
    obtain ⟨behind, passed⟩ := there.past front empty
    rw [if_neg some, Shape.identifier, dif_neg empty, bind_of_ok (advance_eq stands front),
      cut_eq stands front]
    exact .ok _ behind passed

theorem follows_arrayLength (there : At text least s position) :
    Follows text least (arrayLength text position) (Shape.arrayLength s) := by
  have front : s.skipBlanks.rest.takeWhile Char.isDigit <+: s.skipBlanks.rest := List.takeWhile_prefix _
  have stands := there.stands.skipBlanks
  have digits : runLength (fun _ c => !c.isDigit) 0 s.skipBlanks.rest =
      Text.utf8Length (s.skipBlanks.rest.takeWhile Char.isDigit) := by
    rw [runLength_eq _ fun _ _ _ => rfl, Nat.zero_add]
  rw [arrayLength, bind_of_ok there.skipBlanks_eq, bind_of_ok (run_get _), bind_of_ok (rest_eq stands)]
  simp only [String.toList_ofList, digits]
  rw [bind_of_ok (advance_eq stands front), bind_of_ok (cut_zero front _), String.toList_ofList]
  by_cases bad : s.skipBlanks.rest.takeWhile Char.isDigit = [] ∨
      lengthLimit ≤ digitsValue (s.skipBlanks.rest.takeWhile Char.isDigit)
  · rw [if_pos bad, Shape.arrayLength, dif_pos bad]
    exact .error _ (stands.past front).boundary stands.boundary
  · obtain ⟨behind, passed⟩ := there.past front (not_or.mp bad).1
    rw [if_neg bad, Shape.arrayLength, dif_neg bad]
    exact .ok _ behind passed

end Parsers

-- On the depth. A level of nesting starts behind a character of its own, so fewer characters are left there
-- than levels are allowed.
mutual

theorem follows_shape : ∀ (depth : Nat) {least : Nat} {s : Scan} {position : Nat},
    At text least s position → s.rest.length < depth →
      Follows text least (shape text depth position) (Shape.shape s)
  | depth + 1, least, s, position, there, deep => by
    rw [Shape.shape]
    split
    · case h_1 next =>
      have shorter := Scan.length_skip_lt next
      obtain ⟨moved, behind, -⟩ := there.skip_ascii_eq next rfl
      rw [shape, bind_of_ok there.peek_eq, if_pos next, bind_of_ok moved]
      refine (follows_shape depth behind (by omega)).bind fun item stop there passed => ?_
      exact .ok _ there passed
    · case h_2 next =>
      have shorter := Scan.length_skip_lt next
      obtain ⟨moved, behind, -⟩ := there.skip_ascii_eq next rfl
      rw [shape, bind_of_ok there.peek_eq, if_neg (by simp [next]), if_pos next, bind_of_ok moved]
      refine (follows_shape depth behind (by omega)).bind fun item stop there passed => ?_
      rw [bind_of_ok there.peek_eq]
      simp only
      by_cases more : item.after.peek = some ';'
      · obtain ⟨moved, behind, -⟩ := there.skip_ascii_eq more rfl
        rw [if_pos more, dif_pos more, bind_of_ok moved]
        refine (follows_arrayLength behind).bind fun length stop there passed => ?_
        refine (follows_expect there ']').bind fun closed stop there passed => ?_
        exact .ok _ there passed
      · rw [if_neg more, dif_neg more]
        refine (follows_expect there.peeked ']').bind fun closed stop there passed => ?_
        exact .ok _ there passed
    · case h_3 next =>
      have shorter := Scan.length_skip_lt next
      obtain ⟨moved, behind, passed⟩ := there.skip_ascii_eq next rfl
      rw [shape, bind_of_ok there.peek_eq, if_neg (by simp [next]), if_neg (by simp [next]), if_pos next,
        bind_of_ok moved]
      refine (follows_fields depth behind passed (by omega)).bind fun members stop there passed => ?_
      refine (follows_expect there '\x7d').bind fun closed stop there passed => ?_
      exact .ok _ there passed
    · case h_4 noOption noBracket noBrace =>
      rw [shape, bind_of_ok there.peek_eq, if_neg noOption, if_neg noBracket, if_neg noBrace]
      refine (follows_identifier there.peeked).bind fun name stop there passed => ?_
      simp only
      cases ofName? name.value with
      | some named => exact .ok _ there passed
      | none => exact .error _ there.boundary trivial

theorem follows_fields : ∀ (depth : Nat) {least : Nat} {s : Scan} {position : Nat},
    At text least s position → least < s.position → s.rest.length < depth →
      Follows text least (fields text depth position) (Shape.fields s)
  | depth + 1, least, s, position, there, passed, deep => by
    rw [fields, Shape.fields, bind_of_ok there.peek_eq]
    by_cases closed : s.peek = some '\x7d'
    · rw [if_pos closed, if_pos closed]
      exact .ok _ there.peeked passed
    · rw [if_neg closed, if_neg closed]
      refine (follows_identifier there.peeked).bind fun name stop there passed => ?_
      refine (follows_expect there ':').bind fun colon stop there passed => ?_
      have shorterName := name.shorter
      have shorterColon := colon.shorter
      refine (follows_shape depth there (by omega)).bind fun member stop there passed => ?_
      have shorterMember := member.shorter
      rw [bind_of_ok there.peek_eq]
      simp only
      by_cases more : member.after.peek = some ','
      · have shorter := Scan.length_skip_lt more
        obtain ⟨moved, behind, passed⟩ := there.skip_ascii_eq more rfl
        rw [if_pos more, dif_pos more, bind_of_ok moved]
        refine (follows_fields depth behind passed (by omega)).bind fun rest stop there passed => ?_
        exact .ok _ there passed
      · rw [if_neg more, dif_neg more]
        exact .ok _ there.peeked passed

end

end Stepping

/-! The whole parser -/

/-- A shape and what it is made of, down to single characters. -/
inductive Part : Type → Type where
  | shape : Part Shape
  | identifier : Part String
  | arrayLength : Part Nat
  | expect (wanted : Char) : Part Unit

namespace Part

variable {α : Type}

def parsed : Part α → (s : Scan) → Parsed α s
  | shape => Shape.shape
  | identifier => Shape.identifier
  | arrayLength => Shape.arrayLength
  | expect wanted => Shape.expect wanted

def step (text : String) : Part α → Stepping α
  | shape => Stepping.shape text (text.length + 1)
  | identifier => Stepping.identifier text
  | arrayLength => Stepping.arrayLength text
  | expect wanted => Stepping.expect text wanted

end Part

variable {text : String}

theorem Scan.Stands.length_rest_le {s : Scan} (stands : s.Stands text) : s.rest.length < text.length + 1 := by
  obtain ⟨front, whole, -⟩ := stands
  rw [whole, String.length_append, String.length_ofList]
  omega

theorem Part.follows {α : Type} (part : Part α) {s : Scan} (stands : s.Stands text) :
    Follows text s.position (part.step text s.position) (part.parsed s) := by
  have there : Stepping.At text s.position s s.position := ⟨stands, .inl rfl, s.position_le_skipBlanks⟩
  cases part with
  | shape => exact Stepping.follows_shape _ there stands.length_rest_le
  | identifier => exact Stepping.follows_identifier there
  | arrayLength => exact Stepping.follows_arrayLength there
  | expect wanted => exact Stepping.follows_expect there wanted

theorem Scan.Stands.position_eq_length {s : Scan} (stands : s.Stands text) :
    s.position = (Text.bytes text).length ↔ s.rest.isEmpty = true := by
  rw [stands.length, List.isEmpty_iff]
  constructor
  · intro same
    by_contra more
    have some := Text.utf8Length_pos more
    omega
  · intro nothing
    rw [nothing]
    rfl

/-- What has come out for the whole text is the same, and the parser has stopped between two characters. -/
inductive Concludes (text : String) :
    EStateM.Result (Breach ParseError) Nat Shape → Except ParseError Shape → Prop where
  | ok (found : Shape) {stop : Nat} : Text.Boundary text stop → Concludes text (.ok found stop) (.ok found)
  | error (error : ParseError) {stop : Nat} : Text.Boundary text stop → error.Within text →
      Concludes text (.error (.failed error) stop) (.error error)

theorem concludes_parse (text : String) : Concludes text (Stepping.parse text 0) (parse text) := by
  have first : Follows text 0 (Stepping.shape text (text.length + 1) 0) (shape (Scan.ofString text)) :=
    Part.shape.follows (Scan.stands_ofString text)
  rw [parse, Stepping.parse]
  generalize ran : Stepping.shape text (text.length + 1) 0 = result at first
  generalize shape (Scan.ofString text) = parsed at first ⊢
  cases first with
  | error error boundary within =>
    rw [bind_of_error ran]
    exact .error error boundary within
  | @ok found after _ _ there _ =>
    have stands := there.stands.skipBlanks
    rw [bind_of_ok ran, bind_of_ok there.skipBlanks_eq, bind_of_ok (run_get _)]
    show Concludes text _ (if after.skipBlanks.rest.isEmpty = true then .ok found
      else .error (.malformed after.skipBlanks.position .trailingInput))
    by_cases ended : after.skipBlanks.rest.isEmpty = true
    · rw [if_pos (stands.position_eq_length.mpr ended), if_pos ended]
      exact .ok found stands.boundary
    · rw [if_neg fun same => ended (stands.position_eq_length.mp same), if_neg ended]
      exact .error _ stands.boundary stands.boundary

/-- The parser of shapes never stands within a character, and cuts its text nowhere else than between two:
on places it comes to the same as on what is left of the text, and stops between two characters, at the
end at the latest. So does each of its parts wherever it starts, and if it succeeds it has moved on. What
an error points to is such a place, too. -/
theorem parser_stays_between_characters (text : String) :
    outcome (Stepping.parse text 0) = (parse text).mapError .failed ∧
      Text.Boundary text (afterwards (Stepping.parse text 0)) ∧
      (∀ position flaw, parse text = .error (.malformed position flaw) →
        position ≤ (Text.bytes text).length ∧ Text.Boundary text position) ∧
      ∀ front back, text = front ++ back → ∀ (α : Type) (part : Part α),
        let s : Scan := ⟨back.toList, (Text.bytes front).length⟩
        match part.step text s.position, part.parsed s with
        | .ok value stop, .ok found =>
          value = found.value ∧ s.position < found.after.position ∧ found.after.position ≤ stop ∧
            Text.Boundary text found.after.position ∧ Text.Boundary text stop
        | .error (.failed error) stop, .error reported =>
          error = reported ∧ error.Within text ∧ Text.Boundary text stop
        | _, _ => False := by
  have concludes := concludes_parse text
  generalize Stepping.parse text 0 = result at concludes ⊢
  generalize parse text = parsed at concludes ⊢
  refine ⟨?_, ?_, fun position flaw failed => ?_, fun front back whole α part => ?_⟩
  · cases concludes with
    | ok found boundary => rfl
    | error error boundary within => rfl
  · cases concludes with
    | ok found boundary => exact boundary
    | error error boundary within => exact boundary
  · subst failed
    cases concludes with
    | error error boundary within => exact ⟨Text.Boundary.le within, within⟩
  · have stands : Scan.Stands text ⟨back.toList, (Text.bytes front).length⟩ := by
      refine ⟨front, ?_, rfl⟩
      rw [whole, String.ofList_toList]
    have follows := part.follows stands
    intro s
    generalize part.step text s.position = result at follows ⊢
    generalize part.parsed s = parsed at follows ⊢
    cases follows with
    | ok value there passed =>
      exact ⟨rfl, passed, there.position_le, there.stands.boundary, there.boundary⟩
    | error error boundary within => exact ⟨rfl, within, boundary⟩

/-- The blank takes three bytes, and the letter that is no name is not cut into. -/
example : Stepping.parse "\u3000[é]" 0 = .error (.failed (.malformed 4 .typeName)) 4 := by cbv

example : Stepping.advance "é" 1 0 = .error .outside 0 := by cbv

end Shape

end AppendLog
