import Mathlib
import AppendLog.Proofs.Encodings
import AppendLog.Ty.Wire

/-! Canonical encodings.

A decoder is canonical for an encoder if it reads a value from nothing but what the value
is encoded as. The decoders of numbers, flags and texts are, options, sequences and
records keep it, and with it a record that refers to itself. So whatever bytes are accepted
as data of a known type, they are those that the data are encoded in: `fromBytes_canonical`.
-/

set_option autoImplicit false

namespace AppendLog

namespace Decoding

variable {α β γ : Type}

/-- The decoder reads values from what they are encoded as, and from nothing else. -/
def Canonical (decoder : Decoding α) (encode : α → Encoding) : Prop :=
  ∀ cursor value after, decoder cursor = .ok value after →
    (encode value).error = none ∧ cursor.rest = (encode value).bytes ++ after.rest ∧
      after.position = cursor.position + (encode value).bytes.length

variable {decoder : Decoding α} {second : Decoding β} {encode : α → Encoding}

theorem Canonical.reads (canonical : decoder.Canonical encode) :
    decoder.Reads (fun value => (encode value).bytes) fun value => (encode value).error = none :=
  canonical

theorem Inverts.canonical {spell : α → Bytes} {range : α → Prop} (inverts : decoder.Inverts spell range)
    (encodes : ∀ value, range value → encode value = .ofBytes (spell value)) :
    decoder.Canonical encode := by
  intro cursor value after read
  obtain ⟨inside, start, moved⟩ := inverts.reads _ _ _ read
  rw [encodes value inside]
  exact ⟨rfl, start, moved⟩

theorem canonical_pure {value : α} (nothing : encode value = .empty) :
    (pure value : Decoding α).Canonical encode := by
  intro cursor found after read
  cases read
  rw [nothing]
  exact ⟨rfl, rfl, rfl⟩

theorem Canonical.map {encoding : β → Encoding} {convert : α → β} (canonical : decoder.Canonical encode)
    (same : ∀ value, encoding (convert value) = encode value) :
    (do return convert (← decoder) : Decoding β).Canonical encoding := by
  intro cursor result after read
  obtain ⟨value, middle, first, returned⟩ := bind_eq_ok.mp read
  cases returned
  rw [same]
  exact canonical _ _ _ first

theorem Canonical.pair {encodeSecond : β → Encoding} {encoding : γ → Encoding} {join : α → β → γ}
    (first : decoder.Canonical encode) (next : second.Canonical encodeSecond)
    (same : ∀ value other, encoding (join value other) = encode value ++ encodeSecond other) :
    (do return join (← decoder) (← second) : Decoding γ).Canonical encoding := by
  intro cursor result after read
  obtain ⟨value, middle, readFirst, read⟩ := bind_eq_ok.mp read
  obtain ⟨other, stop, readSecond, returned⟩ := bind_eq_ok.mp read
  cases returned
  obtain ⟨whole, start, moved⟩ := first _ _ _ readFirst
  obtain ⟨wholeNext, startNext, movedNext⟩ := next _ _ _ readSecond
  rw [same, Encoding.bytes_append whole, Encoding.error_append_of_whole whole]
  refine ⟨wholeNext, ?_, ?_⟩
  · rw [start, startNext, List.append_assoc]
  · rw [movedNext, moved, List.length_append, Nat.add_assoc]

theorem repeated_of_items {item : Decoding α} {count : Nat} {cursor after : Cursor} {values : List α}
    (read : items item count cursor = .ok values after) :
    repeated item count [] cursor = .ok values after := by
  cases count with
  | zero => exact read
  | succ more =>
    cases ran : item cursor with
    | error error stop =>
      simp only [items, ran] at read
      cases read
    | ok first next =>
      simp only [items, ran] at read
      simp only [repeated, ran]
      generalize (if next.position = cursor.position then emptyItemLimit else cursor.rest.length) = limit
        at read
      split at read
      · cases read
      · exact read

theorem Canonical.counted (canonical : decoder.Canonical encode) {reading : Nat → Decoding (List α)}
    (sound : ∀ count cursor values after, reading count cursor = .ok values after →
      repeated decoder count [] cursor = .ok values after) :
    (do reading (← length)).Canonical fun values => .seq (values.map encode) := by
  intro cursor values after read
  obtain ⟨count, middle, readLength, read⟩ := bind_eq_ok.mp read
  obtain ⟨fits, start, moved⟩ := inverts_length.reads _ _ _ readLength
  obtain ⟨_, rfl, rfl, whole, startItems, movedItems⟩ :=
    canonical.reads.of_repeated (sound _ _ _ _ read)
  dsimp only
  rw [Encoding.seq_map fits whole]
  refine ⟨rfl, ?_, ?_⟩
  · rw [start, startItems]
    exact (List.append_assoc _ _ _).symm
  · rw [movedItems, moved, Nat.add_assoc, ← List.length_append]
    rfl

theorem Canonical.seq (canonical : decoder.Canonical encode) :
    (seq decoder).Canonical fun values => .seq (values.map encode) :=
  canonical.counted fun _ _ _ _ => repeated_of_items

theorem Canonical.array (canonical : decoder.Canonical encode) (expected : Nat) :
    (array decoder expected).Canonical fun values => .seq (values.map encode) := by
  refine canonical.counted fun count cursor values after read => ?_
  split at read
  · case isTrue same =>
    rw [same]
    exact read
  · cases read

/-- What the body of a decoder tied to itself shows of its values, as long as it holds of those of the
decoder inside, holds of all of its values. -/
theorem recursive_induction {body : Decoding α → Decoding α} {motive : Cursor → α → Cursor → Prop}
    (keeps : ∀ self : Decoding α,
      (∀ cursor value after, self cursor = .ok value after → motive cursor value after) →
        ∀ cursor value after, body self cursor = .ok value after → motive cursor value after)
    (cursor : Cursor) (value : α) (after : Cursor) (read : recursive body cursor = .ok value after) :
    motive cursor value after := by
  -- On the length of the input, as inner readings take place on shorter ones.
  induction cursor using WellFounded.induction (measure fun cursor : Cursor => cursor.rest.length).wf
    generalizing value after with
  | _ cursor ih =>
    rw [Decoding.recursive] at read
    refine keeps _ (fun inner value after read => ?_) cursor value after read
    split at read
    · case isTrue shorter => exact ih inner shorter value after read
    · cases read

/-- A decoder tied to itself is canonical if its body is canonical around a canonical decoder. -/
theorem Canonical.recursive {body : Decoding α → Decoding α}
    (keeps : ∀ self : Decoding α, self.Canonical encode → (body self).Canonical encode) :
    Canonical (Decoding.recursive body) encode :=
  recursive_induction keeps

end Decoding

namespace Ty

open Decoding

variable {outer : List (Decoding Datum)}

theorem canonical_enclosing (enclosed : ∀ decoder ∈ outer, decoder.Canonical Datum.encode) (up : Nat) :
    (enclosing outer up).Canonical Datum.encode := by
  rw [enclosing, List.getD_eq_getElem?_getD]
  cases found : outer[up]? with
  | none => exact canonical_pure rfl
  | some decoder => exact enclosed decoder (List.mem_of_getElem? found)

theorem canonical_option {item : Decoding Datum} (canonical : item.Canonical Datum.encode) :
    (do if ← presence then return .present (← item) else return .absent : Decoding Datum).Canonical
      Datum.encode := by
  intro cursor datum after read
  obtain ⟨present, middle, readFlag, read⟩ := bind_eq_ok.mp read
  obtain ⟨-, start, moved⟩ := (inverts_flag _).reads _ _ _ readFlag
  cases present with
  | false =>
    cases read
    exact ⟨rfl, start, moved⟩
  | true =>
    obtain ⟨value, stop, readItem, returned⟩ := bind_eq_ok.mp read
    cases returned
    obtain ⟨whole, startItem, movedItem⟩ := canonical _ _ _ readItem
    rw [Datum.encode, Encoding.bytes_append rfl, Encoding.error_append_of_whole rfl]
    refine ⟨whole, ?_, ?_⟩
    · rw [start, startItem]
      rfl
    · rw [movedItem, moved, List.length_append, Nat.add_assoc]
      rfl

mutual

theorem canonical_decodeIn : ∀ (ty : Ty) {scope : Scope} {outer : List (Decoding Datum)},
    (∀ decoder ∈ outer, decoder.Canonical Datum.encode) → (decodeIn scope outer ty).Canonical Datum.encode
  | bool, _, _, _ => ((inverts_flag _).canonical fun _ _ => rfl).map fun _ => rfl
  | int kind, _, _, _ => ((inverts_int kind).canonical fun _ _ => rfl).map fun _ => rfl
  | float kind, _, _, _ => ((inverts_float kind).canonical fun _ _ => rfl).map fun _ => rfl
  | complex kind, _, _, _ =>
    ((inverts_float kind).canonical fun _ _ => rfl).pair
      ((inverts_float kind).canonical fun _ _ => rfl) fun _ _ => rfl
  | text, _, _, _ => (inverts_text.canonical fun _ => Encoding.text_of_fits).map fun _ => rfl
  | unit, _, _, _ => canonical_pure rfl
  | transient _, _, _, _ => canonical_pure rfl
  | seq item, _, _, enclosed => (canonical_decodeIn item enclosed).seq.map Datum.encode_list
  | array item length, _, _, enclosed =>
    ((canonical_decodeIn item enclosed).array length).map Datum.encode_list
  | option item, _, _, enclosed => canonical_option (canonical_decodeIn item enclosed)
  | boxed ty, _, _, enclosed => canonical_decodeIn ty enclosed
  | tuple parts, _, _, enclosed => (canonical_decodeParts parts enclosed).map fun _ => rfl
  | record fields _ _, _, outer, enclosed =>
    Canonical.recursive fun self canonical =>
      have around : ∀ decoder ∈ self :: outer, decoder.Canonical Datum.encode :=
        List.forall_mem_cons.mpr ⟨canonical, enclosed⟩
      (canonical_decodeFields fields around).map fun _ => rfl
  | ref up, _, _, enclosed => canonical_enclosing enclosed up

theorem canonical_decodeParts : ∀ (parts : List Ty) {scope : Scope} {outer : List (Decoding Datum)},
    (∀ decoder ∈ outer, decoder.Canonical Datum.encode) →
      (decodeParts scope outer parts).Canonical Datum.encodeAll
  | [], _, _, _ => canonical_pure rfl
  | ty :: rest, _, _, enclosed =>
    (canonical_decodeIn ty enclosed).pair (canonical_decodeParts rest enclosed) fun _ _ => rfl

theorem canonical_decodeFields : ∀ (fields : List (String × Ty)) {scope : Scope}
    {outer : List (Decoding Datum)}, (∀ decoder ∈ outer, decoder.Canonical Datum.encode) →
      (decodeFields scope outer fields).Canonical Datum.encodeFields
  | [], _, _, _ => canonical_pure rfl
  | (_, ty) :: rest, _, _, enclosed =>
    (canonical_decodeIn ty enclosed).pair (canonical_decodeFields rest enclosed) fun _ _ => rfl

end

/-- Bytes that are accepted as data of a type are what the data are encoded in, and so no others
are accepted as the same data. -/
theorem fromBytes_canonical {ty : Ty} {bytes : Bytes} {datum : Datum}
    (read : ty.fromBytes bytes = .ok datum) :
    datum.toBytes = .ok bytes ∧ ∀ other, ty.fromBytes other = .ok datum → other = bytes := by
  have spelled {bytes : Bytes} (read : ty.fromBytes bytes = .ok datum) :
      datum.encode.error = none ∧ datum.encode.bytes = bytes :=
    (canonical_decodeIn ty (List.forall_mem_nil _)).reads.fromBytes read
  refine ⟨Encoding.toBytes_eq_ok.mpr (spelled read), fun other readOther => ?_⟩
  rw [← (spelled readOther).2, ← (spelled read).2]

theorem fromBytes_canonical_of_nested :
    let user : Ty := .derived []
      [("id", .int .u16), ("name", .text), ("manager", .option (.boxed (.ref 0)))] [("visits", .int .u32)]
    let bytes : Bytes := [0, 7, 0, 0, 0, 1, 97, 1, 0, 9, 0, 0, 0, 2, 195, 169, 0]
    let manager : Datum := .record [("id", .int .u16 9), ("name", .text "é"), ("manager", .absent)]
      [("visits", .int .u32 0)]
    let datum : Datum := .record
      [("id", .int .u16 7), ("name", .text "a"), ("manager", .present manager)] [("visits", .int .u32 0)]
    user.fromBytes bytes = .ok datum ∧ datum.toBytes = .ok bytes ∧
      ∀ other, user.fromBytes other = .ok datum → other = bytes := by
  intro user bytes manager datum
  have read : user.fromBytes bytes = .ok datum := by cbv
  exact ⟨read, fromBytes_canonical read⟩

end Ty

end AppendLog
