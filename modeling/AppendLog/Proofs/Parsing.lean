import Mathlib.Data.List.TakeWhile
import AppendLog.Proofs.Grammar

/-! Reading an expression follows the grammar.

What a reading step comes to is said by what it `Meets`: the text that it has read stands there, or
its error has a reason. In the other direction a step `Reads` what stands in front of the text.
-/

set_option autoImplicit false

namespace AppendLog.Shape

namespace Scan

variable {s : Scan} {run after : List Char} {c : Char}

theorem drop_length_takeWhile (chars : List Char) (p : Char → Bool) :
    chars.drop (chars.takeWhile p).length = chars.dropWhile p := by
  have split : (chars.takeWhile p ++ chars.dropWhile p).drop (chars.takeWhile p).length =
      chars.dropWhile p := List.drop_left
  rwa [List.takeWhile_append_dropWhile] at split

theorem rest_skipBlanks (s : Scan) : s.skipBlanks.rest = s.rest.dropWhile Text.isBlank :=
  drop_length_takeWhile _ _

theorem token_past (front : run <+: s.skipBlanks.rest) :
    Token run s.rest (s.skipBlanks.past run).rest := by
  obtain ⟨after, same⟩ := front
  refine token_of_dropWhile ?_
  rw [← rest_skipBlanks, past, ← same, List.drop_left]

theorem token_skip (next : s.peek = some c) : Token [c] s.rest (s.skip c).rest := by
  refine token_past ?_
  obtain ⟨rest, same⟩ := List.head?_eq_some_iff.mp next
  exact ⟨rest, same.symm⟩

theorem not_head_past_takeWhile (s : Scan) (p : Char → Bool) :
    ∀ c ∈ (s.past (s.rest.takeWhile p)).rest.head?, p c = false := by
  intro c first
  have stopped := List.head?_dropWhile_not p s.rest
  rwa [← drop_length_takeWhile, show (s.rest.drop _).head? = some c from first] at stopped

theorem skipBlanks_of_token (token : Token run s.rest after) (nonempty : run ≠ [])
    (solid : ∀ c ∈ run, Text.isBlank c = false) : s.skipBlanks.rest = run ++ after := by
  rw [rest_skipBlanks, token.dropWhile_eq nonempty solid]

theorem past_of_token (token : Token run s.rest after) (nonempty : run ≠ [])
    (solid : ∀ c ∈ run, Text.isBlank c = false) : (s.skipBlanks.past run).rest = after := by
  rw [past, skipBlanks_of_token token nonempty solid, List.drop_left]

theorem peek_of_token (token : Token (c :: run) s.rest after)
    (solid : ∀ d ∈ c :: run, Text.isBlank d = false) : s.peek = some c := by
  rw [peek, skipBlanks_of_token token (List.cons_ne_nil _ _) solid]
  rfl

theorem skip_of_token (token : Token [c] s.rest after) (solid : Text.isBlank c = false) :
    s.peek = some c ∧ (s.skip c).rest = after := by
  have each : ∀ d ∈ [c], Text.isBlank d = false := by simpa using solid
  exact ⟨peek_of_token token each, past_of_token token (List.cons_ne_nil _ _) each⟩

theorem peek_of_nameToken {name : String} (read : NameToken name s.rest after) :
    ∃ first, s.peek = some first ∧ isNameStart first = true := by
  obtain ⟨isName, token, -⟩ := read
  have solid := fun c member => not_isBlank_of_isNamePart (isName.isNamePart c member)
  generalize name.toList = run at isName token solid
  obtain ⟨start, -⟩ := isName
  exact ⟨_, peek_of_token token solid, start⟩

end Scan

/-! Steps that succeed have read what the grammar says -/

/-- The error names something that is no shape, or a place where an expression is malformed. -/
def ParseError.Justified : ParseError → Prop
  | .unknownName name => IsName name.toList ∧ ∀ shape, (name, shape) ∉ named
  | .malformed _ _ => True

theorem ofName?_of_mem : ∀ entry ∈ named, ofName? entry.1 = some entry.2 := by
  decide

theorem mem_named_iff {name : String} {shape : Shape} :
    (name, shape) ∈ named ↔ ofName? name = some shape := by
  constructor
  · exact ofName?_of_mem _
  · intro found
    obtain ⟨front, rest, same, -⟩ := List.lookup_eq_some_iff.mp found
    rw [same]
    exact List.mem_append_right _ List.mem_cons_self

theorem digitsValue_eq (digits : List Char) : digitsValue digits = Nat.ofDigitChars 10 digits 0 := by
  rw [Nat.ofDigitChars_eq_foldl, digitsValue]
  congr 1
  funext n digit
  rw [Nat.mul_comm]

section Meets

variable {α β : Type} {limit bound : Nat}

/-- What has been read stood in front of the text, or the error is justified. -/
def Meets (parsed : Except ParseError (Found α limit)) (reads : α → List Char → Prop) : Prop :=
  match parsed with
  | .ok found => reads found.value found.after.rest
  | .error error => error.Justified

theorem Meets.bind {parsed : Except ParseError (Found α limit)}
    {next : Found α limit → Except ParseError (Found β bound)} {reads : α → List Char → Prop}
    {wanted : β → List Char → Prop} (meets : Meets parsed reads)
    (rest : ∀ found, reads found.value found.after.rest → Meets (next found) wanted) :
    Meets (parsed >>= next) wanted := by
  cases parsed with
  | error error => exact meets
  | ok found => exact rest found meets

theorem meets_expect (s : Scan) (wanted : Char) :
    Meets (expect wanted s) fun _ after => Token [wanted] s.rest after := by
  by_cases next : s.peek = some wanted
  · rw [expect, dif_pos next]
    exact Scan.token_skip next
  · rw [expect, dif_neg next]
    trivial

theorem meets_identifier (s : Scan) :
    Meets (identifier s) fun name after => NameToken name s.rest after := by
  by_cases empty : leadingName s.skipBlanks.rest = []
  · simp only [identifier, empty]
    trivial
  · obtain ⟨isName, longest⟩ := leadingName_of_ne_nil empty
    simp only [identifier, empty]
    refine ⟨?_, ?_, ?_⟩
    · simpa using isName
    · simp only [String.toList_ofList, longest]
      exact Scan.token_past (List.takeWhile_prefix _)
    · simp only [longest]
      exact Scan.not_head_past_takeWhile _ _

theorem meets_arrayLength (s : Scan) : Meets (arrayLength s) fun length after => LengthToken length s.rest after := by
  by_cases bad : s.skipBlanks.rest.takeWhile Char.isDigit = [] ∨
      lengthLimit ≤ digitsValue (s.skipBlanks.rest.takeWhile Char.isDigit)
  · simp only [arrayLength, bad]
    trivial
  · simp only [arrayLength, bad]
    obtain ⟨nonempty, fits⟩ := not_or.mp bad
    rw [digitsValue_eq] at fits
    have read := LengthToken.mk nonempty (List.all_eq_true.mp List.all_takeWhile) (Nat.not_le.mp fits)
      (Scan.token_past (List.takeWhile_prefix _))
    rwa [← digitsValue_eq] at read

inductive Body : List (String × Shape) → List Char → List Char → Prop where
  | empty (text : List Char) : Body [] text text
  | fields {members : List (String × Shape)} {a b : List Char} : FieldList members a b →
      Body members a b
  | fieldsWithComma {members : List (String × Shape)} {a b c : List Char} : FieldList members a b →
      Token [','] b c → Body members a c

theorem Body.record {members : List (String × Shape)} {a b c d : List Char} (body : Body members b c)
    (opened : Token ['\x7b'] a b) (closed : Token ['\x7d'] c d) : Expression (.record members) a d := by
  cases body with
  | empty => exact .emptyRecord opened closed
  | fields fields => exact .record opened fields closed
  | fieldsWithComma fields comma => exact .recordWithComma opened fields comma closed

theorem Body.cons {name : String} {shape : Shape} {members : List (String × Shape)}
    {a b c d e f : List Char} (body : Body members e f) (readName : NameToken name a b)
    (colon : Token [':'] b c) (member : Expression shape c d) (comma : Token [','] d e) :
    Body ((name, shape) :: members) a f := by
  cases body with
  | empty => exact .fieldsWithComma (.last readName colon member) comma
  | fields fields => exact .fields (.more readName colon member comma fields)
  | fieldsWithComma fields last => exact .fieldsWithComma (.more readName colon member comma fields) last

mutual

theorem meets_shape (s : Scan) : Meets (shape s) fun found after => Expression found s.rest after := by
  rw [shape]
  split
  · case h_1 next =>
    have shorter := Scan.length_skip_lt next
    refine (meets_shape (s.skip '?')).bind fun item read => ?_
    exact .optional (Scan.token_skip next) read
  · case h_2 next =>
    have shorter := Scan.length_skip_lt next
    refine (meets_shape (s.skip '[')).bind fun item read => ?_
    simp only
    split
    · case isTrue more =>
      refine (meets_arrayLength _).bind fun length readLength => ?_
      refine (meets_expect _ _).bind fun _ closed => ?_
      exact .array (Scan.token_skip next) read (Scan.token_skip more) readLength closed
    · refine (meets_expect _ _).bind fun _ closed => ?_
      exact .seq (Scan.token_skip next) read closed
  · case h_3 next =>
    have shorter := Scan.length_skip_lt next
    refine (meets_fields (s.skip '\x7b')).bind fun members body => ?_
    refine (meets_expect _ _).bind fun _ closed => ?_
    exact body.record (Scan.token_skip next) closed
  · refine (meets_identifier s).bind fun name read => ?_
    simp only
    split
    · case h_1 shape found => exact .named (mem_named_iff.mpr found) read
    · case h_2 unknown => exact ⟨read.isName, fun shape known => by simp [mem_named_iff, unknown] at known⟩
termination_by s.rest.length

theorem meets_fields (s : Scan) : Meets (fields s) fun members after => Body members s.rest after := by
  rw [fields]
  split
  · exact .empty _
  · refine (meets_identifier s).bind fun name readName => ?_
    refine (meets_expect _ _).bind fun colon readColon => ?_
    have shorterName := name.shorter
    have shorterColon := colon.shorter
    refine (meets_shape _).bind fun member readMember => ?_
    have shorterMember := member.shorter
    simp only
    split
    · case isTrue more =>
      have shorter := Scan.length_skip_lt more
      refine (meets_fields _).bind fun rest body => ?_
      exact body.cons readName readColon readMember (Scan.token_skip more)
    · exact .fields (.last readName readColon readMember)
termination_by s.rest.length

end

end Meets

/-! What the grammar says is read -/

section Reads

variable {α β : Type} {limit bound : Nat} {s : Scan} {after : List Char}

def Reads (parsed : Except ParseError (Found α limit)) (value : α) (after : List Char) : Prop :=
  ∃ found, parsed = .ok found ∧ found.value = value ∧ found.after.rest = after

theorem Reads.bind {parsed : Except ParseError (Found α limit)}
    {next : Found α limit → Except ParseError (Found β bound)} {value : α} {wanted : β}
    {middle : List Char} (reads : Reads parsed value middle)
    (rest : ∀ found, found.value = value → found.after.rest = middle → Reads (next found) wanted after) :
    Reads (parsed >>= next) wanted after := by
  obtain ⟨found, rfl, same, left⟩ := reads
  exact rest found same left

theorem reads_expect {c : Char} (token : Token [c] s.rest after) (solid : Text.isBlank c = false) :
    Reads (expect c s) () after := by
  obtain ⟨next, left⟩ := Scan.skip_of_token token solid
  rw [expect, dif_pos next]
  exact ⟨_, rfl, rfl, left⟩

theorem reads_identifier {name : String} (read : NameToken name s.rest after) :
    Reads (identifier s) name after := by
  obtain ⟨isName, token, stop⟩ := read
  have solid := fun c member => not_isBlank_of_isNamePart (isName.isNamePart c member)
  have run : leadingName s.skipBlanks.rest = name.toList := by
    rw [Scan.skipBlanks_of_token token isName.ne_nil solid, leadingName_append isName stop]
  simp only [identifier, run, isName.ne_nil]
  exact ⟨_, rfl, String.ofList_toList, Scan.past_of_token token isName.ne_nil solid⟩

theorem reads_arrayLength {length : Nat} (read : LengthToken length s.rest after)
    (stop : ∀ c ∈ after.head?, c.isDigit = false) : Reads (arrayLength s) length after := by
  obtain @⟨run, _, _, nonempty, digits, fits, token⟩ := read
  have solid := fun c member => not_isBlank_of_isNamePart (isNamePart_of_isDigit (digits c member))
  have longest : s.skipBlanks.rest.takeWhile Char.isDigit = run := by
    rw [Scan.skipBlanks_of_token token nonempty solid, takeWhile_append_of_stop digits stop]
  have good : ¬ (run = [] ∨ lengthLimit ≤ digitsValue run) := by
    rw [digitsValue_eq]
    exact not_or.mpr ⟨nonempty, Nat.not_le.mpr fits⟩
  simp only [arrayLength, longest, good]
  exact ⟨_, rfl, digitsValue_eq run, Scan.past_of_token token nonempty solid⟩

/-! One lemma for each way in which reading a shape or the fields of a record goes on -/

variable {name : String} {item member : Shape} {members : List (String × Shape)}
  {middle next front : List Char}

theorem reads_named (known : (name, item) ∈ named) (read : NameToken name s.rest after) :
    Reads (shape s) item after := by
  obtain ⟨first, peeked, start⟩ := Scan.peek_of_nameToken read
  -- A mark is no letter, so the text is taken for a name.
  have other {mark : Char} (found : s.peek = some mark) (noStart : isNameStart mark = false) : False := by
    rw [peeked] at found
    cases found
    simp [start] at noStart
  rw [shape]
  split
  · case h_1 found => exact (other found (by decide)).elim
  · case h_2 found => exact (other found (by decide)).elim
  · case h_3 found => exact (other found (by decide)).elim
  · refine (reads_identifier read).bind fun found same left => ?_
    simp only [same, mem_named_iff.mp known]
    exact ⟨_, rfl, rfl, left⟩

theorem reads_optional (mark : s.peek = some '?') (read : Reads (shape (s.skip '?')) item after) :
    Reads (shape s) (.optional item) after := by
  rw [shape]
  split
  case h_1 =>
    refine read.bind fun found same left => ?_
    exact ⟨_, rfl, congrArg Shape.optional same, left⟩
  all_goals simp_all

theorem reads_seq (mark : s.peek = some '[') (read : Reads (shape (s.skip '[')) item middle)
    (closed : Token [']'] middle after) : Reads (shape s) (.seq item) after := by
  rw [shape]
  split
  case h_2 =>
    refine read.bind fun found same left => ?_
    rw [← left] at closed
    have last := (Scan.skip_of_token closed (by decide)).1
    simp only [last, Option.some.injEq, Char.reduceEq, ↓reduceDIte]
    refine (reads_expect closed (by decide)).bind fun _ _ left => ?_
    exact ⟨_, rfl, congrArg Shape.seq same, left⟩
  all_goals simp_all

theorem reads_array {length : Nat} (mark : s.peek = some '[')
    (read : Reads (shape (s.skip '[')) item middle) (semicolon : Token [';'] middle next)
    (readLength : LengthToken length next front) (closed : Token [']'] front after) :
    Reads (shape s) (.array item length) after := by
  rw [shape]
  split
  case h_2 =>
    refine read.bind fun found same left => ?_
    rw [← left] at semicolon
    obtain ⟨more, left⟩ := Scan.skip_of_token semicolon (by decide)
    rw [← left] at readLength
    simp only [more, ↓reduceDIte]
    refine (reads_arrayLength readLength ?_).bind fun found' same' left' => ?_
    · exact closed.not_head (by decide) fun _ => not_isDigit_of_isBlank
    · rw [← left'] at closed
      refine (reads_expect closed (by decide)).bind fun _ _ left => ?_
      exact ⟨_, rfl, by rw [same, same'], left⟩
  all_goals simp_all

theorem reads_record (mark : s.peek = some '\x7b') (read : Reads (fields (s.skip '\x7b')) members middle)
    (closed : Token ['\x7d'] middle after) : Reads (shape s) (.record members) after := by
  rw [shape]
  split
  case h_3 =>
    refine read.bind fun found same left => ?_
    rw [← left] at closed
    refine (reads_expect closed (by decide)).bind fun _ _ left => ?_
    exact ⟨_, rfl, congrArg Shape.record same, left⟩
  all_goals simp_all

theorem not_closing_of_nameToken (read : NameToken name s.rest after) : s.peek ≠ some '\x7d' := by
  obtain ⟨first, peeked, start⟩ := Scan.peek_of_nameToken read
  rw [peeked]
  rintro ⟨⟩
  exact absurd start (by decide)

theorem reads_noFields (closing : s.peek = some '\x7d') : Reads (fields s) [] s.rest := by
  rw [fields, if_pos closing]
  exact ⟨_, rfl, rfl, rfl⟩

theorem reads_lastField (readName : NameToken name s.rest front) (colon : Token [':'] front middle)
    (read : ∀ s : Scan, s.rest = middle → Reads (shape s) member after)
    (stop : ∀ s : Scan, s.rest = after → s.peek ≠ some ',') :
    Reads (fields s) [(name, member)] after := by
  rw [fields, if_neg (not_closing_of_nameToken readName)]
  refine (reads_identifier readName).bind fun t sameName left => ?_
  rw [← left] at colon
  refine (reads_expect colon (by decide)).bind fun u _ left => ?_
  refine (read u.after left).bind fun v sameMember left => ?_
  simp only [stop v.after left, ↓reduceDIte]
  exact ⟨_, rfl, by rw [sameName, sameMember], left⟩

theorem reads_moreFields (readName : NameToken name s.rest front) (colon : Token [':'] front middle)
    (read : ∀ s : Scan, s.rest = middle → Reads (shape s) member next) {behind : List Char}
    (comma : Token [','] next behind)
    (more : ∀ s : Scan, s.rest = behind → Reads (fields s) members after) :
    Reads (fields s) ((name, member) :: members) after := by
  rw [fields, if_neg (not_closing_of_nameToken readName)]
  refine (reads_identifier readName).bind fun t sameName left => ?_
  rw [← left] at colon
  refine (reads_expect colon (by decide)).bind fun u _ left => ?_
  refine (read u.after left).bind fun v sameMember left => ?_
  rw [← left] at comma
  obtain ⟨another, left⟩ := Scan.skip_of_token comma (by decide)
  simp only [another, ↓reduceDIte]
  refine (more _ left).bind fun w sameRest left => ?_
  exact ⟨_, rfl, by rw [sameName, sameMember, sameRest], left⟩

mutual

theorem reads_shape {found : Shape} {a b : List Char} (expression : Expression found a b) (s : Scan)
    (start : s.rest = a) : Reads (shape s) found b := by
  cases expression with
  | named known read => exact reads_named known (start ▸ read)
  | optional mark item =>
    obtain ⟨next, left⟩ := Scan.skip_of_token (start ▸ mark) (by decide)
    exact reads_optional next (reads_shape item _ left)
  | seq mark item closed =>
    obtain ⟨next, left⟩ := Scan.skip_of_token (start ▸ mark) (by decide)
    exact reads_seq next (reads_shape item _ left) closed
  | array mark item semicolon length closed =>
    obtain ⟨next, left⟩ := Scan.skip_of_token (start ▸ mark) (by decide)
    exact reads_array next (reads_shape item _ left) semicolon length closed
  | emptyRecord mark closed =>
    obtain ⟨next, left⟩ := Scan.skip_of_token (start ▸ mark) (by decide)
    have closing := (Scan.skip_of_token (left ▸ closed) (by decide)).1
    exact reads_record next (reads_noFields closing) (left ▸ closed)
  | record mark list closed =>
    obtain ⟨next, left⟩ := Scan.skip_of_token (start ▸ mark) (by decide)
    exact reads_record next (reads_fields list (.inl rfl) closed _ left) closed
  | recordWithComma mark list comma closed =>
    obtain ⟨next, left⟩ := Scan.skip_of_token (start ▸ mark) (by decide)
    exact reads_record next (reads_fields list (.inr comma) closed _ left) closed

/-- A comma behind the last field is taken with the fields, up to the closing brace. -/
theorem reads_fields {members : List (String × Shape)} {a b c d : List Char}
    (list : FieldList members a b) (comma : b = c ∨ Token [','] b c) (closed : Token ['\x7d'] c d)
    (s : Scan) (start : s.rest = a) : Reads (fields s) members c := by
  cases list with
  | last readName colon member =>
    rcases comma with rfl | comma
    · refine reads_lastField (start ▸ readName) colon (reads_shape member) fun v left => ?_
      rw [(Scan.skip_of_token (left ▸ closed) (by decide)).1]
      decide
    · refine reads_moreFields (start ▸ readName) colon (reads_shape member) comma fun v left => ?_
      have closing := (Scan.skip_of_token (left ▸ closed) (by decide)).1
      exact left ▸ reads_noFields closing
  | more readName colon member another rest =>
    exact reads_moreFields (start ▸ readName) colon (reads_shape member) another
      (reads_fields rest comma closed)

end

end Reads

/-! Whole texts -/

section Parse

variable {text : String}

theorem Scan.isEmpty_skipBlanks (s : Scan) :
    s.skipBlanks.rest.isEmpty = true ↔ ∀ c ∈ s.rest, Text.isBlank c = true := by
  rw [List.isEmpty_iff, rest_skipBlanks, List.dropWhile_eq_nil_iff]

/-- What has been read is an expression, and what has not been has a reason. -/
theorem meets_parse (text : String) :
    match parse text with
    | .ok found => Denotes text found
    | .error error => error.Justified := by
  have meets := meets_shape (.ofString text)
  unfold parse
  cases ran : shape (.ofString text) with
  | error error =>
    rw [ran] at meets
    exact meets
  | ok read =>
    rw [ran] at meets
    simp only [bind, Except.bind]
    by_cases empty : read.after.skipBlanks.rest.isEmpty = true
    · rw [if_pos empty]
      exact ⟨read.after.rest, meets, (Scan.isEmpty_skipBlanks _).mp empty⟩
    · rw [if_neg empty]
      trivial

theorem denotes_of_parse {found : Shape} (parsed : parse text = .ok found) : Denotes text found := by
  have meets := meets_parse text
  rwa [parsed] at meets

theorem parse_of_denotes {found : Shape} (denotes : Denotes text found) : parse text = .ok found := by
  obtain ⟨after, expression, blank⟩ := denotes
  obtain ⟨read, ran, rfl, rfl⟩ := reads_shape expression (.ofString text) rfl
  unfold parse
  rw [ran]
  simp only [bind, Except.bind, (Scan.isEmpty_skipBlanks _).mpr blank, if_true]
  rfl

/-- Exactly the expressions of the grammar are read, and as the shapes that they denote. Any other
text is turned down for a name that no shape has, or as malformed. -/
theorem parse_accepts_iff (text : String) :
    (∀ found, parse text = .ok found ↔ Denotes text found) ∧
      ((∃ found, Denotes text found) ∨
        (∃ name, parse text = .error (.unknownName name) ∧ IsName name.toList ∧
          ∀ shape, (name, shape) ∉ named) ∨
        ∃ position flaw, parse text = .error (.malformed position flaw)) := by
  refine ⟨fun found => ⟨denotes_of_parse, parse_of_denotes⟩, ?_⟩
  have meets := meets_parse text
  cases parsed : parse text with
  | ok found => exact .inl ⟨found, denotes_of_parse parsed⟩
  | error error =>
    rw [parsed] at meets
    cases error with
    | unknownName name => exact .inr (.inl ⟨name, rfl, meets⟩)
    | malformed position flaw => exact .inr (.inr ⟨position, flaw, rfl⟩)

/-- Blanks may stand around every token, and a comma behind the last field. -/
example : (parse "\u00A0\x7b id :u64,tags: [ ?str; 007 ] , \x7d\n").toOption =
    some (.record [("id", .int .u64), ("tags", .array (.optional .text) 7)]) := by
  decide +kernel

end Parse

end AppendLog.Shape
