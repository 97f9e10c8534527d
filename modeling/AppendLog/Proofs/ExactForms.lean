import AppendLog.Proofs.Accounting
import AppendLog.Proofs.Encodings

/-! The fixed forms of a log.

A header, a meta and a footer are each read from what they are written as, and from nothing else. The
bytes that are read at all can be told without a decoder: by their length, and for a meta by the byte
for its operation. A footer says its length itself, in a count that may be any word. So no count asks
for room that is not there, and none is read as a smaller one: `fixed_forms_exact`.
-/

set_option autoImplicit false

namespace AppendLog

variable {α : Type}

/-- Values in a range are read from what they are written as and from nothing else, and so all bytes
that are accepted are read. -/
structure Exact (read : Bytes → Except CodecError α) (write : α → Encoding) (range : α → Prop)
    (accepted : Bytes → Prop) : Prop where
  inverse : ∀ bytes value, read bytes = .ok value ↔ range value ∧ (write value).toBytes = .ok bytes
  succeeds : ∀ bytes, (∃ value, read bytes = .ok value) ↔ accepted bytes

theorem Decoding.Inverts.exact {decoder : Decoding α} {write : α → Encoding} {range : α → Prop}
    {accepted : Bytes → Prop} (inverts : decoder.Inverts (fun value => (write value).bytes) range)
    (whole : ∀ value, (write value).error = none)
    (written : ∀ value, range value → accepted (write value).bytes)
    (spells : ∀ bytes, accepted bytes → ∃ value, range value ∧ (write value).bytes = bytes) :
    Exact (fromBytes decoder) write range accepted where
  inverse bytes value := by
    rw [inverts.fromBytes_eq_ok, Encoding.toBytes_eq_ok, and_iff_right (whole value)]
  succeeds bytes := by
    simp only [inverts.fromBytes_eq_ok]
    constructor
    · rintro ⟨value, inside, rfl⟩
      exact written value inside
    · exact spells bytes

theorem Bytes.span_zero (bytes : Bytes) (length : Nat) : bytes.span 0 length = bytes.take length := rfl

theorem Header.exact : Exact fromBytes encode Bounded fun bytes => bytes.length = 17 := by
  refine inverts_decode.exact (fun _ => rfl) (fun header _ => header.length_bytes) fun bytes length => ?_
  obtain ⟨version, -, spelled⟩ := Bytes.header_of_length (Nat.le_of_eq length.symm)
  refine ⟨_, ⟨bytes.wordAt_lt 1, bytes.wordAt_lt 9⟩, spelled.trans ?_⟩
  rw [Bytes.span_zero, ← length, List.take_length]

theorem Meta.code_bytes (info : Meta) : info.bytes[12]? = some info.op.code := by
  have front : (IntKind.i64.bytes info.time ++ info.kind.bytes).length = 12 := by
    rw [List.length_append, IntKind.length_bytes]
    rfl
  rw [bytes_eq, List.getElem?_append_right (Nat.le_of_eq front), front]
  rfl

theorem Meta.exact : Exact fromBytes encode InRange fun bytes =>
    bytes.length = 13 ∧ ∃ code ∈ ([0, 1, 2, 4] : Bytes), bytes[12]? = some code := by
  refine inverts_decode.exact (fun _ => rfl) (fun info _ => ?_) ?_
  · have isOp : (Op.ofCode? info.op.code).isSome := by rw [Op.ofCode?_code]; rfl
    exact ⟨info.length_bytes, info.op.code, Op.isSome_ofCode?.mp isOp, info.code_bytes⟩
  · rintro bytes ⟨length, code, isOp, last⟩
    obtain ⟨op, found⟩ := Option.isSome_iff_exists.mp (Op.isSome_ofCode?.mpr isOp)
    have read := decode_eq last
    rw [found] at read
    obtain ⟨inside, spelled, -⟩ := inverts_decode.reads _ _ _ read
    have nothing : bytes.drop width = [] := List.drop_eq_nil_of_le (Nat.le_of_eq length)
    rw [nothing, List.append_nil] at spelled
    exact ⟨_, inside, spelled.symm⟩

theorem Footer.encode_whole (footer : Footer) : footer.encode.error = none := by
  rw [encode, Encoding.error_append, Option.or_eq_none_iff, Encoding.error_concat, List.forall_mem_map]
  exact ⟨rfl, fun _ _ => rfl⟩

theorem Footer.exact : Exact fromBytes encode Bounded fun bytes =>
    8 ≤ bytes.length ∧ bytes.length = 8 + 8 * Bytes.toNat (bytes.take 8) := by
  refine inverts_decode.exact encode_whole (fun footer bounded => ?_) ?_
  · have count : Bytes.toNat (footer.bytes.take 8) = footer.length := by
      rw [bytes_eq, List.take_left' (Bytes.length_ofNat 8 _), Bytes.toNat_ofNat bounded.1]
    have length : footer.bytes.length = 8 + 8 * footer.length := footer.length_bytes
    rw [show footer.encode.bytes = footer.bytes from rfl, count, length]
    exact ⟨Nat.le_add_right _ _, rfl⟩
  · rintro bytes ⟨long, length⟩
    rw [← Bytes.span_zero, ← Nat.zero_add 8, ← Bytes.wordAt, Nat.zero_add] at length
    have counted : Footer.length ⟨bytes.wordsAt 8 (bytes.wordAt 0)⟩ = bytes.wordAt 0 := Bytes.length_wordsAt
    refine ⟨⟨bytes.wordsAt 8 (bytes.wordAt 0)⟩, ⟨?_, fun _ => Bytes.wordsAt_lt⟩, ?_⟩
    · rw [counted]
      exact bytes.wordAt_lt 0
    · show Footer.bytes _ = bytes
      rw [bytes_eq, counted, Bytes.ofNat_wordAt long, Bytes.flatMap_wordsAt (Nat.le_of_eq length.symm),
        Bytes.span_append_span _ (Nat.zero_le _) (Nat.le_add_right _ _), Bytes.span_zero, ← length,
        List.take_length]

/-- Headers, metas and footers are read from the bytes that they are written as and from no others. They
are read from all bytes of the length that they have, which a footer says itself, and a footer has as
many as have been counted. -/
theorem fixed_forms_exact :
    Exact Header.fromBytes Header.encode Header.Bounded (fun bytes => bytes.length = 17) ∧
    Exact Meta.fromBytes Meta.encode Meta.InRange (fun bytes =>
      bytes.length = 13 ∧ ∃ code ∈ ([0, 1, 2, 4] : Bytes), bytes[12]? = some code) ∧
    Exact Footer.fromBytes Footer.encode Footer.Bounded (fun bytes =>
      8 ≤ bytes.length ∧ bytes.length = 8 + 8 * Bytes.toNat (bytes.take 8)) ∧
    ∀ footer : Footer, ∃ bytes, footer.encode.toBytes = .ok bytes ∧ bytes.length = footer.encodedLength :=
  ⟨Header.exact, Meta.exact, Footer.exact, fun footer =>
    ⟨footer.bytes, Encoding.toBytes_eq_ok.mpr ⟨footer.encode_whole, rfl⟩, footer.length_bytes⟩⟩

/-- The largest count is refused for the room it asks for, which is more than a word can count. -/
example : Footer.fromBytes (List.replicate 8 255 ++ Bytes.ofNat 8 17) =
    .error (.unexpectedEnd (Footer.wordLimit - 1) 8) := by
  rfl

end AppendLog
