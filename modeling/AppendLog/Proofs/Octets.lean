import AppendLog.Proofs.Sequences

/-! Texts and sequences of bytes.

A text is stored as its bytes are stored in a sequence. A text is read as a run of bytes of the length
in front of it, and a sequence one byte after another, within a limit that the first of them shows. As
every byte takes a byte, the limit keeps out nothing but sequences that are cut off, so both read the
same runs: `text_as_bytes`.
-/

set_option autoImplicit false

namespace AppendLog

open Decoding

def Datum.octet (byte : UInt8) : Datum := .int .u8 byte.toNat

def Datum.octets (bytes : Bytes) : Datum := .list (bytes.map octet)

/-! A single byte -/

theorem IntKind.ofBytes_byte (byte : UInt8) : u8.ofBytes [byte] = byte.toNat := by
  simp [IntKind.ofBytes, isSigned, Bytes.toNat]

theorem IntKind.bytes_byte (byte : UInt8) : u8.bytes byte.toNat = [byte] := by
  have full : [byte].length = u8.width := rfl
  rw [← ofBytes_byte, bytes_ofBytes full]

theorem recognizes_octet : (Ty.int .u8).decode.Recognizes fun datum spelling =>
    ∃ byte, Datum.octet byte = datum ∧ [byte] = spelling := by
  refine (inverts_int .u8).recognizes.map.congr fun datum spelling => ?_
  constructor
  · rintro ⟨n, ⟨holds, spelled⟩, rfl⟩
    have full : spelling.length = IntKind.u8.width := by rw [← spelled, IntKind.length_bytes]
    obtain ⟨byte, rfl⟩ := List.length_eq_one_iff.mp full
    refine ⟨byte, ?_, rfl⟩
    rw [Datum.octet, ← IntKind.ofBytes_byte, ← spelled, IntKind.ofBytes_bytes holds]
  · rintro ⟨byte, rfl, rfl⟩
    refine ⟨byte.toNat, ⟨?_, IntKind.bytes_byte byte⟩, rfl⟩
    rw [← IntKind.ofBytes_byte]
    exact IntKind.holds_ofBytes rfl

/-! Runs of bytes -/

def Decoding.octets : Decoding Bytes := do
  raw (← length)

theorem recognizes_run : octets.Recognizes fun bytes spelling =>
    bytes.length < 256 ^ lengthWidth ∧ Bytes.ofNat lengthWidth bytes.length ++ bytes = spelling := by
  refine (inverts_length.recognizes.bind fun count => (inverts_raw count).recognizes).congr
    fun bytes spelling => ?_
  constructor
  · rintro ⟨_, _, _, ⟨fits, rfl⟩, ⟨rfl, rfl⟩, rfl⟩
    exact ⟨fits, rfl⟩
  · rintro ⟨fits, rfl⟩
    exact ⟨_, _, _, ⟨fits, rfl⟩, ⟨rfl, rfl⟩, rfl⟩

theorem parts_of_octets {parts : List (Datum × Bytes)} :
    (∀ part ∈ parts, ∃ byte, Datum.octet byte = part.1 ∧ [byte] = part.2) ↔
      ∃ bytes : Bytes, bytes.map (fun byte => (Datum.octet byte, [byte])) = parts := by
  have ranges := Set.ext_iff.mp (Set.range_list_map fun byte => (Datum.octet byte, [byte])) parts
  simpa [Prod.ext_iff] using ranges.symm

theorem recognizes_octets : (Ty.seq (.int .u8)).decode.Recognizes fun datum spelling => ∃ bytes,
    (bytes.length < 256 ^ lengthWidth ∧ Bytes.ofNat lengthWidth bytes.length ++ bytes = spelling) ∧
      Datum.octets bytes = datum := by
  have takesBytes (datum : Datum) (spelling : Bytes)
      (byte : ∃ byte, Datum.octet byte = datum ∧ [byte] = spelling) : spelling = [] ↔ False := by
    obtain ⟨byte, -, rfl⟩ := byte
    exact iff_of_false (List.cons_ne_nil _ _) id
  have row := recognizes_items recognizes_octet takesBytes
  refine (inverts_length.recognizes.bind row).map.congr fun datum spelling => ?_
  constructor
  · rintro ⟨_, ⟨_, _, _, ⟨fits, rfl⟩, ⟨parts, rfl, -, each, rfl, rfl⟩, rfl⟩, rfl⟩
    obtain ⟨bytes, rfl⟩ := parts_of_octets.mp each
    rw [List.length_map] at fits
    refine ⟨bytes, ⟨fits, ?_⟩, ?_⟩
    · rw [List.length_map, List.flatMap_map, List.flatMap_singleton']
    · rw [Datum.octets, List.map_map]
      rfl
  · rintro ⟨bytes, ⟨fits, rfl⟩, rfl⟩
    let parts := bytes.map fun byte => (Datum.octet byte, [byte])
    have same : parts.map Prod.fst = bytes.map Datum.octet := by
      rw [List.map_map]
      rfl
    have spelled : parts.flatMap Prod.snd = bytes := by
      rw [List.flatMap_map, List.flatMap_singleton']
    refine ⟨_, ⟨_, _, _, ⟨fits, rfl⟩, ⟨parts, List.length_map _, ?_, parts_of_octets.mpr ⟨bytes, rfl⟩, same,
      spelled⟩, rfl⟩, rfl⟩
    -- No item takes no bytes, so they are within the limit on those that do.
    intro empty
    cases bytes with
    | nil => exact Nat.zero_le _
    | cons byte rest => exact absurd (empty [byte] List.mem_cons_self) (List.cons_ne_nil _ _)

theorem octets_eq_ok {cursor stop : Cursor} {datum : Datum} :
    (Ty.seq (.int .u8)).decode cursor = .ok datum stop ↔
      ∃ bytes, octets cursor = .ok bytes stop ∧ Datum.octets bytes = datum := by
  rw [recognizes_octets, ← recognizes_run.map, map_eq_ok]

theorem Datum.octets_injective : Function.Injective octets := by
  apply Function.Injective.comp (fun _ _ => Datum.list.inj)
  apply List.map_injective_iff.mpr
  intro byte other same
  apply UInt8.toNat_inj.mp
  exact Int.ofNat.inj (Datum.int.inj same).2

theorem seq_decode_eq_ok {cursor stop : Cursor} {bytes : Bytes} :
    (Ty.seq (.int .u8)).decode cursor = .ok (.octets bytes) stop ↔ octets cursor = .ok bytes stop := by
  simp only [octets_eq_ok, Datum.octets_injective.eq_iff, exists_eq_right]

/-! Texts -/

theorem text_eq : text = octets >>= fun spelling =>
    match Text.ofBytes? spelling with
    | some text => return text
    | none => throw .invalidText := by
  rw [octets, bind_assoc]
  rfl

theorem octets_eq_error {cursor stop : Cursor} {error : CodecError} (failed : octets cursor = .error error stop) :
    ∃ needed remaining, error = .unexpectedEnd needed remaining := by
  have cut {count : Nat} {cursor stop : Cursor} (failed : raw count cursor = .error error stop) :
      ∃ needed remaining, error = .unexpectedEnd needed remaining := by
    simp only [raw] at failed
    split at failed
    · cases failed
    · cases failed
      exact ⟨_, _, rfl⟩
  rcases bind_eq_error.mp failed with failed | ⟨count, middle, -, failed⟩
  · rcases bind_eq_error.mp failed with failed | ⟨_, _, -, failed⟩
    · exact cut failed
    · cases failed
  · exact cut failed

theorem text_eq_ok {cursor stop : Cursor} {value : String} :
    text cursor = .ok value stop ↔ ∃ bytes, octets cursor = .ok bytes stop ∧ Text.ofBytes? bytes = some value := by
  rw [text_eq, bind_eq_ok]
  apply exists_congr
  intro bytes
  cases Text.ofBytes? bytes <;> simp

theorem text_eq_invalid {cursor stop : Cursor} :
    text cursor = .error .invalidText stop ↔
      ∃ bytes, octets cursor = .ok bytes stop ∧ Text.ofBytes? bytes = none := by
  rw [text_eq, bind_eq_error, or_iff_right]
  · apply exists_congr
    intro bytes
    cases Text.ofBytes? bytes <;> simp
  · intro failed
    obtain ⟨needed, remaining, other⟩ := octets_eq_error failed
    cases other

theorem Datum.encode_octets (bytes : Bytes) :
    (octets bytes).encode = .length bytes.length ++ .ofBytes bytes := by
  have single (byte : UInt8) : (octet byte).encode = .ofBytes [byte] :=
    congrArg Encoding.ofBytes (IntKind.bytes_byte byte)
  have row : Encoding.concat (bytes.map fun byte => (octet byte).encode) = .ofBytes bytes := by
    rw [Encoding.concat_map fun byte _ => by rw [single]; rfl]
    simp only [single, Encoding.ofBytes, List.flatMap_singleton']
  rw [octets, encode_list, Encoding.seq, List.length_map, List.length_map, List.map_map]
  exact congrArg (_ ++ ·) row

/-- Texts and sequences of bytes are encoded alike, or fail alike. A text is read precisely where a
sequence of bytes is read that spells it, up to the same place, and reading it fails for its spelling
precisely where a sequence of bytes is read that spells no text. Nothing else than bytes is ever read as
a sequence of them. -/
theorem text_as_bytes :
    (∀ value, (Datum.text value).toBytes = (Datum.octets (Text.bytes value)).toBytes) ∧
    (∀ cursor value stop, Ty.text.decode cursor = .ok (.text value) stop ↔ ∃ bytes,
      (Ty.seq (.int .u8)).decode cursor = .ok (.octets bytes) stop ∧ Text.ofBytes? bytes = some value) ∧
    (∀ cursor stop, Ty.text.decode cursor = .error .invalidText stop ↔ ∃ bytes,
      (Ty.seq (.int .u8)).decode cursor = .ok (.octets bytes) stop ∧ Text.ofBytes? bytes = none) ∧
    ∀ cursor datum stop, (Ty.seq (.int .u8)).decode cursor = .ok datum stop →
      ∃ bytes, Datum.octets bytes = datum := by
  refine ⟨fun value => ?_, fun cursor value stop => ?_, fun cursor stop => ?_, fun cursor datum stop read => ?_⟩
  · rw [Datum.toBytes, Datum.toBytes, Datum.encode_octets]
    rfl
  · have decoded : Ty.text.decode cursor = .ok (.text value) stop ↔ text cursor = .ok value stop :=
      map_eq_ok.trans (by simp)
    simp only [decoded, text_eq_ok, seq_decode_eq_ok]
  · have decoded : Ty.text.decode cursor = .error .invalidText stop ↔
        text cursor = .error .invalidText stop := bind_eq_error.trans (by simp)
    simp only [decoded, text_eq_invalid, seq_decode_eq_ok]
  · obtain ⟨bytes, -, same⟩ := octets_eq_ok.mp read
    exact ⟨bytes, same⟩

/-- A run of bytes that is no text is passed by both decoders, and one that is cut off is passed by none. -/
example : Ty.text.decode (.ofBytes [0, 0, 0, 2, 255, 97, 5]) = .error .invalidText ⟨[5], 6⟩ ∧
    (Ty.seq (.int .u8)).decode (.ofBytes [0, 0, 0, 2, 255, 97, 5]) = .ok (.octets [255, 97]) ⟨[5], 6⟩ ∧
    Ty.text.decode (.ofBytes [0, 0, 0, 2, 97]) = .error (.unexpectedEnd 2 1) ⟨[97], 4⟩ ∧
    (Ty.seq (.int .u8)).decode (.ofBytes [0, 0, 0, 2, 97]) = .error (.tooManyItems 2 1) ⟨[], 5⟩ := by
  refine ⟨?_, ?_, ?_, ?_⟩ <;> rfl

end AppendLog
