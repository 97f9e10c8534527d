import AppendLog.Shape.Basic
import AppendLog.Text.CharClass
import AppendLog.Text.Utf8

/-! Reading shape expressions such as `{id: u64, tags: [str], parent: ?u64}`.

Blanks may stand before every token. Each reading step returns what is left of the
input together with a proof that something was consumed, so reading terminates on
every input.
-/

set_option autoImplicit false

namespace AppendLog.Shape

inductive Flaw where
  | trailingInput
  | expected (wanted : Char) (found : Option Char)
  | typeName
  | arrayLength
  deriving DecidableEq, Repr

def Flaw.message : Flaw → String
  | .trailingInput => "unexpected trailing input"
  | .expected wanted (some found) => "expected '" ++ wanted.toString ++ "', found '" ++ found.toString ++ "'"
  | .expected wanted none => "expected '" ++ wanted.toString ++ "', found end of input"
  | .typeName => "expected a type name"
  | .arrayLength => "expected an array length"

inductive ParseError where
  | unknownName (name : String)
  | malformed (position : Nat) (flaw : Flaw)
  deriving DecidableEq, Repr

def ParseError.message : ParseError → String
  | .unknownName name => "unsupported type: " ++ name
  | .malformed position flaw =>
    "invalid shape at " ++ Nat.repr position ++ ": " ++ flaw.message

structure Scan where
  rest : List Char
  position : Nat
  deriving DecidableEq, Repr

namespace Scan

def ofString (text : String) : Scan := ⟨text.toList, 0⟩

def past (s : Scan) (run : List Char) : Scan :=
  ⟨s.rest.drop run.length, s.position + Text.utf8Length run⟩

def skipBlanks (s : Scan) : Scan := s.past (s.rest.takeWhile Text.isBlank)

def peek (s : Scan) : Option Char := s.skipBlanks.rest.head?

def skip (s : Scan) (c : Char) : Scan := s.skipBlanks.past [c]

theorem length_past_le (s : Scan) (run : List Char) : (s.past run).rest.length ≤ s.rest.length := by
  simp [past]

theorem length_skipBlanks_le (s : Scan) : s.skipBlanks.rest.length ≤ s.rest.length :=
  length_past_le s _

theorem length_token_lt {s : Scan} {run : List Char} (nonempty : run ≠ [])
    (fits : run.length ≤ s.skipBlanks.rest.length) :
    (s.skipBlanks.past run).rest.length < s.rest.length := by
  have := List.length_pos_iff.mpr nonempty
  have := s.length_skipBlanks_le
  rw [past, List.length_drop]
  omega

theorem length_skip_lt {s : Scan} {c : Char} (next : s.peek = some c) :
    (s.skip c).rest.length < s.rest.length := by
  apply length_token_lt (by simp)
  cases h : s.skipBlanks.rest with
  | nil => simp [peek, h] at next
  | cons => simp

end Scan

/-- What a reading step finds, and where it stops: short of `limit` characters from the end. -/
structure Found (α : Type) (limit : Nat) where
  value : α
  after : Scan
  shorter : after.rest.length < limit

abbrev Parsed (α : Type) (s : Scan) := Except ParseError (Found α s.rest.length)

def expect (wanted : Char) (s : Scan) : Parsed Unit s :=
  if next : s.peek = some wanted then .ok ⟨(), s.skip wanted, Scan.length_skip_lt next⟩
  else .error (.malformed s.skipBlanks.position (.expected wanted s.peek))

def isNameStart (c : Char) : Bool := c == '_' || c.isAlpha

def isNamePart (c : Char) : Bool := isNameStart c || c.isDigit

def leadingName : List Char → List Char
  | [] => []
  | c :: rest => if isNameStart c then c :: rest.takeWhile isNamePart else []

theorem length_leadingName_le (chars : List Char) : (leadingName chars).length ≤ chars.length := by
  cases chars with
  | nil => simp [leadingName]
  | cons c rest =>
    have := (List.takeWhile_prefix isNamePart (l := rest)).length_le
    simp only [leadingName]
    split
    · simpa using this
    · simp

def identifier (s : Scan) : Parsed String s :=
  let run := leadingName s.skipBlanks.rest
  if empty : run = [] then .error (.malformed s.skipBlanks.position .typeName)
  else
    .ok ⟨String.ofList run, s.skipBlanks.past run,
      Scan.length_token_lt empty (length_leadingName_le _)⟩

def digitsValue (digits : List Char) : Nat :=
  digits.foldl (fun n digit => n * 10 + (digit.toNat - '0'.toNat)) 0

def lengthLimit : Nat := 2 ^ 64

def arrayLength (s : Scan) : Parsed Nat s :=
  let run := s.skipBlanks.rest.takeWhile Char.isDigit
  if bad : run = [] ∨ lengthLimit ≤ digitsValue run then
    .error (.malformed s.skipBlanks.position .arrayLength)
  else
    .ok ⟨digitsValue run, s.skipBlanks.past run,
      Scan.length_token_lt (fun empty => bad (.inl empty)) (List.takeWhile_prefix _).length_le⟩

mutual

def shape (s : Scan) : Parsed Shape s :=
  match next : s.peek with
  | some '?' => do
    have shorter := Scan.length_skip_lt next
    let ⟨item, t, _⟩ ← shape (s.skip '?')
    return ⟨.optional item, t, by omega⟩
  | some '[' => do
    have shorter := Scan.length_skip_lt next
    let ⟨item, t, _⟩ ← shape (s.skip '[')
    if more : t.peek = some ';' then
      have shorter' := Scan.length_skip_lt more
      let ⟨length, u, _⟩ ← arrayLength (t.skip ';')
      let ⟨(), v, _⟩ ← expect ']' u
      return ⟨.array item length, v, by omega⟩
    else
      let ⟨(), u, _⟩ ← expect ']' t
      return ⟨.seq item, u, by omega⟩
  | some '\x7b' => do
    have shorter := Scan.length_skip_lt next
    let ⟨members, t, _⟩ ← fields (s.skip '\x7b')
    let ⟨(), u, _⟩ ← expect '\x7d' t
    return ⟨.record members, u, by omega⟩
  | _ => do
    let ⟨name, t, shorter⟩ ← identifier s
    match ofName? name with
    | some named => return ⟨named, t, shorter⟩
    | none => throw (.unknownName name)
termination_by s.rest.length

/-- Fields up to the closing brace; a comma may follow the last one. -/
def fields (s : Scan) :
    Except ParseError (Found (List (String × Shape)) (s.rest.length + 1)) :=
  if s.peek = some '\x7d' then .ok ⟨[], s, Nat.lt_succ_self _⟩
  else do
    let ⟨name, t, _⟩ ← identifier s
    let ⟨(), u, _⟩ ← expect ':' t
    let ⟨member, v, _⟩ ← shape u
    if more : v.peek = some ',' then
      have shorter := Scan.length_skip_lt more
      let ⟨rest, w, _⟩ ← fields (v.skip ',')
      return ⟨(name, member) :: rest, w, by omega⟩
    else return ⟨[(name, member)], v, by omega⟩
termination_by s.rest.length

end

def parse (text : String) : Except ParseError Shape := do
  let ⟨parsed, s, _⟩ ← shape (Scan.ofString text)
  let t := s.skipBlanks
  if t.rest.isEmpty then return parsed
  else throw (.malformed t.position .trailingInput)

end AppendLog.Shape
