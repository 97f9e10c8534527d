import AppendLog.Log.Error
import AppendLog.Log.Meta

/-! The footer behind the records: where each of them starts.

It is stored as the number of records and one word for each. A footer fits a header
if the records lie end to end from the header to the footer, each with room for its
meta.
-/

set_option autoImplicit false

namespace AppendLog

def Header.validate (header : Header) : Except LogError Unit :=
  if header.version ≠ Header.currentVersion then .error (.unsupportedVersion header.version)
  else if header.footerOffset < Header.width then
    .error (.invalidFormat (.footerInHeader header.footerOffset))
  else .ok ()

structure Footer where
  offsets : List Nat
  deriving DecidableEq, Repr

namespace Footer

def countWidth : Nat := 8

def entryWidth : Nat := 8

def wordLimit : Nat := 2 ^ 64

def empty : Footer := ⟨[]⟩

def length (footer : Footer) : Nat := footer.offsets.length

def get? (footer : Footer) (index : Nat) : Option Nat := footer.offsets[index]?

def push (footer : Footer) (offset : Nat) : Footer := ⟨footer.offsets ++ [offset]⟩

def encodedLength (footer : Footer) : Nat := countWidth + entryWidth * footer.length

def encode (footer : Footer) : Encoding :=
  .word footer.length ++ .concat (footer.offsets.map .word)

def bytes (footer : Footer) : Bytes := footer.encode.bytes

/-- Reads offsets, of which there must not be more than there is room for. The bytes that
an impossible number asks for are counted only as far as a word can count. -/
def decodeOffsets (count : Nat) : Decoding Footer := fun cursor =>
  let remaining := cursor.rest.length
  if remaining / entryWidth < count then
    .error (.unexpectedEnd (min (count * entryWidth) (wordLimit - 1)) remaining) cursor
  else (Footer.mk <$> Decoding.repeated Decoding.word count []) cursor

def decode : Decoding Footer := do decodeOffsets (← Decoding.word)

def fromBytes (bytes : Bytes) : Except CodecError Footer := Decoding.fromBytes decode bytes

/-- The number in front of the entries is the header's, and their length is a word. -/
def validateCount (count : Nat) (header : Header) : Except LogError Unit :=
  if count ≠ header.totalRecords then
    .error (.invalidFormat (.countMismatch count header.totalRecords))
  else if wordLimit ≤ count * entryWidth then .error (.invalidFormat (.countTooLarge count))
  else .ok ()

/-- Every record has room for its meta before the next boundary. -/
def validateSpans (index : Nat) (offsets : List Nat) (stop : Nat) : Except LogError Unit :=
  match offsets with
  | [] => .ok ()
  | offset :: rest =>
    let boundary := rest.headD stop
    if offset + Meta.width ≤ boundary then validateSpans (index + 1) rest stop
    else .error (.invalidFormat (.recordTooShort index offset boundary))

def validate (footer : Footer) (header : Header) : Except LogError Unit :=
  if footer.length ≠ header.totalRecords then
    .error (.invalidFormat (.countMismatch footer.length header.totalRecords))
  else
    match footer.offsets.head? with
    | some first =>
      if first = Header.width then validateSpans 0 footer.offsets header.footerOffset
      else .error (.invalidFormat (.firstRecordElsewhere first))
    | none => .ok ()

end Footer

end AppendLog
