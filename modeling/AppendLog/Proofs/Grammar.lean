import AppendLog.Shape.Parser

/-! The grammar of shape expressions.

A text is read token by token, and blanks may stand in front of every token. What a rule says of two
texts is that the second one is left of the first when something has been read off its front.
-/

set_option autoImplicit false

namespace AppendLog.Shape

def Token (run before after : List Char) : Prop :=
  ∃ blanks, (∀ c ∈ blanks, Text.isBlank c = true) ∧ before = blanks ++ (run ++ after)

inductive IsName : List Char → Prop where
  | mk {first : Char} {rest : List Char} : isNameStart first = true →
      (∀ c ∈ rest, isNamePart c = true) → IsName (first :: rest)

structure NameToken (name : String) (before after : List Char) : Prop where
  isName : IsName name.toList
  token : Token name.toList before after
  longest : ∀ c ∈ after.head?, isNamePart c = false

inductive LengthToken : Nat → List Char → List Char → Prop where
  | mk {digits before after : List Char} : digits ≠ [] → (∀ c ∈ digits, c.isDigit = true) →
      Nat.ofDigitChars 10 digits 0 < lengthLimit → Token digits before after →
      LengthToken (Nat.ofDigitChars 10 digits 0) before after

mutual

inductive Expression : Shape → List Char → List Char → Prop where
  | named {name : String} {shape : Shape} {a b : List Char} : (name, shape) ∈ named →
      NameToken name a b → Expression shape a b
  | optional {item : Shape} {a b c : List Char} : Token ['?'] a b → Expression item b c →
      Expression (.optional item) a c
  | seq {item : Shape} {a b c d : List Char} : Token ['['] a b → Expression item b c →
      Token [']'] c d → Expression (.seq item) a d
  | array {item : Shape} {length : Nat} {a b c d e f : List Char} : Token ['['] a b →
      Expression item b c → Token [';'] c d → LengthToken length d e → Token [']'] e f →
      Expression (.array item length) a f
  | emptyRecord {a b c : List Char} : Token ['\x7b'] a b → Token ['\x7d'] b c →
      Expression (.record []) a c
  | record {members : List (String × Shape)} {a b c d : List Char} : Token ['\x7b'] a b →
      FieldList members b c → Token ['\x7d'] c d → Expression (.record members) a d
  | recordWithComma {members : List (String × Shape)} {a b c d e : List Char} : Token ['\x7b'] a b →
      FieldList members b c → Token [','] c d → Token ['\x7d'] d e → Expression (.record members) a e

inductive FieldList : List (String × Shape) → List Char → List Char → Prop where
  | last {name : String} {shape : Shape} {a b c d : List Char} : NameToken name a b →
      Token [':'] b c → Expression shape c d → FieldList [(name, shape)] a d
  | more {name : String} {shape : Shape} {members : List (String × Shape)} {a b c d e f : List Char} :
      NameToken name a b → Token [':'] b c → Expression shape c d → Token [','] d e →
      FieldList members e f → FieldList ((name, shape) :: members) a f

end

/-- The text is an expression for the shape, and nothing but blanks stands behind it. -/
def Denotes (text : String) (shape : Shape) : Prop :=
  ∃ after, Expression shape text.toList after ∧ ∀ c ∈ after, Text.isBlank c = true

example : named.map Prod.fst = ["bool", "str", "i8", "i16", "i32", "i64", "i128", "isize", "u8", "u16",
    "u32", "u64", "u128", "usize", "f32", "f64", "c64", "c128", "chan", "func", "map"] := by decide

/-! Blanks and tokens -/

theorem not_isBlank {c : Char} (low : 0x21 ≤ c.toNat) (high : c.toNat ≤ 0x7E) :
    Text.isBlank c = false := by
  simp [Text.isBlank, Text.inRanges, Text.blanks]
  omega

theorem bounds_of_isNamePart {c : Char} (part : isNamePart c = true) :
    0x30 ≤ c.toNat ∧ c.toNat ≤ 0x7A := by
  have letter : c.isAlpha = (decide (65 ≤ c.toNat ∧ c.toNat ≤ 90) ||
      decide (97 ≤ c.toNat) && decide (c.toNat ≤ 122)) := rfl
  have digit : c.isDigit = (decide (48 ≤ c.toNat) && decide (c.toNat ≤ 57)) := rfl
  simp only [isNamePart, isNameStart, letter, digit, Bool.or_eq_true, Bool.and_eq_true, beq_iff_eq,
    decide_eq_true_eq] at part
  rcases part with (rfl | upper | lower) | digit
  · decide
  · omega
  · omega
  · omega

theorem not_isBlank_of_isNamePart {c : Char} (part : isNamePart c = true) : Text.isBlank c = false :=
  not_isBlank (Nat.le_trans (by decide) (bounds_of_isNamePart part).1)
    (Nat.le_trans (bounds_of_isNamePart part).2 (by decide))

theorem not_isNamePart_of_isBlank {c : Char} (blank : Text.isBlank c = true) : isNamePart c = false := by
  rw [← Bool.not_eq_true]
  intro part
  simp [not_isBlank_of_isNamePart part] at blank

theorem isNamePart_of_isDigit {c : Char} (digit : c.isDigit = true) : isNamePart c = true := by
  rw [isNamePart, digit, Bool.or_true]

theorem not_isDigit_of_isBlank {c : Char} (blank : Text.isBlank c = true) : c.isDigit = false := by
  have other := not_isNamePart_of_isBlank blank
  rw [isNamePart, Bool.or_eq_false_iff] at other
  exact other.2

theorem isNamePart_of_isNameStart {c : Char} (start : isNameStart c = true) : isNamePart c = true := by
  rw [isNamePart, start, Bool.true_or]

theorem IsName.isNamePart {run : List Char} (isName : IsName run) : ∀ c ∈ run, isNamePart c = true := by
  obtain ⟨start, parts⟩ := isName
  intro c member
  rcases List.mem_cons.mp member with rfl | member
  · exact isNamePart_of_isNameStart start
  · exact parts c member

theorem IsName.ne_nil {run : List Char} (isName : IsName run) : run ≠ [] := by
  cases isName
  exact List.cons_ne_nil _ _

theorem leadingName_of_ne_nil {chars : List Char} (nonempty : leadingName chars ≠ []) :
    IsName (leadingName chars) ∧ leadingName chars = chars.takeWhile isNamePart := by
  cases chars with
  | nil => exact absurd rfl nonempty
  | cons first rest =>
    by_cases start : isNameStart first = true
    · rw [leadingName, if_pos start, List.takeWhile_cons_of_pos (isNamePart_of_isNameStart start)]
      exact ⟨.mk start (List.all_eq_true.mp List.all_takeWhile), rfl⟩
    · rw [leadingName, if_neg start] at nonempty
      exact absurd rfl nonempty

theorem takeWhile_append_of_stop {p : Char → Bool} {run after : List Char}
    (inside : ∀ c ∈ run, p c = true) (stop : ∀ c ∈ after.head?, p c = false) :
    (run ++ after).takeWhile p = run := by
  rw [List.takeWhile_append_of_pos inside]
  cases after with
  | nil => rw [List.takeWhile_nil, List.append_nil]
  | cons c rest =>
    have stopped : ¬ p c = true := by simp [stop c rfl]
    rw [List.takeWhile_cons_of_neg stopped, List.append_nil]

theorem leadingName_append {run after : List Char} (isName : IsName run)
    (stop : ∀ c ∈ after.head?, isNamePart c = false) : leadingName (run ++ after) = run := by
  obtain @⟨first, rest, start, parts⟩ := isName
  rw [List.cons_append, leadingName, if_pos start, takeWhile_append_of_stop parts stop]

theorem isName_iff {run : List Char} : IsName run ↔ run ≠ [] ∧ leadingName run = run := by
  constructor
  · intro isName
    have whole : leadingName (run ++ []) = run := leadingName_append isName (by simp)
    rw [List.append_nil] at whole
    exact ⟨isName.ne_nil, whole⟩
  · rintro ⟨nonempty, whole⟩
    rw [← whole] at nonempty ⊢
    exact (leadingName_of_ne_nil nonempty).1

instance (run : List Char) : Decidable (IsName run) := decidable_of_iff _ isName_iff.symm

section Tokens

variable {run before after : List Char}

theorem Token.dropWhile_eq (token : Token run before after) (nonempty : run ≠ [])
    (solid : ∀ c ∈ run, Text.isBlank c = false) : before.dropWhile Text.isBlank = run ++ after := by
  obtain ⟨blanks, blank, rfl⟩ := token
  rw [List.dropWhile_append_of_pos blank]
  cases run with
  | nil => contradiction
  | cons first rest =>
    rw [List.cons_append, List.dropWhile_cons_of_neg (by simp [solid])]

theorem token_of_dropWhile (same : before.dropWhile Text.isBlank = run ++ after) :
    Token run before after := by
  refine ⟨before.takeWhile Text.isBlank, List.all_eq_true.mp List.all_takeWhile, ?_⟩
  rw [← same, List.takeWhile_append_dropWhile]

theorem Token.not_head {first : Char} (token : Token (first :: run) before after) {p : Char → Bool}
    (other : p first = false) (blank : ∀ c, Text.isBlank c = true → p c = false) :
    ∀ c ∈ before.head?, p c = false := by
  obtain ⟨blanks, allBlank, rfl⟩ := token
  cases blanks with
  | nil => simpa using other
  | cons c blanks => simpa using blank c (allBlank c List.mem_cons_self)

end Tokens

end AppendLog.Shape
