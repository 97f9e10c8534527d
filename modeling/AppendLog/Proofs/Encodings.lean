import AppendLog.Proofs.Inversion
import AppendLog.Ty.Datum

/-! Encodings of single parts and of parts in a row.

The encoding of parts in a row is whole exactly if each of them is, and fails as the first of
them that fails. Single numbers, flags and texts are read back by inverse decoders.
-/

set_option autoImplicit false

namespace AppendLog

namespace Encoding

variable {first second : Encoding}

theorem error_append (first second : Encoding) :
    (first ++ second).error = first.error.or second.error := by
  simp only [HAppend.hAppend, Append.append, append]
  cases found : first.error with
  | none => rfl
  | some error => exact found

theorem append_of_whole (whole : first.error = none) :
    first ++ second = ⟨first.bytes ++ second.bytes, second.error⟩ := by
  simp only [HAppend.hAppend, Append.append, append, whole]

theorem error_append_of_whole (whole : first.error = none) : (first ++ second).error = second.error := by
  rw [append_of_whole whole]

theorem bytes_append (whole : first.error = none) :
    (first ++ second).bytes = first.bytes ++ second.bytes := by
  rw [append_of_whole whole]

theorem toBytes_eq_ok {encoding : Encoding} {bytes : Bytes} :
    encoding.toBytes = .ok bytes ↔ encoding.error = none ∧ encoding.bytes = bytes := by
  unfold toBytes
  cases encoding.error <;> simp

theorem toBytes_eq_error {encoding : Encoding} {error : CodecError} :
    encoding.toBytes = .error error ↔ encoding.error = some error := by
  unfold toBytes
  cases encoding.error <;> simp

theorem length_of_fits {n : Nat} (fits : n < 256 ^ lengthWidth) :
    length n = .ofBytes (Bytes.ofNat lengthWidth n) := if_pos fits

theorem text_of_fits {value : String} (fits : (Text.bytes value).length < 256 ^ lengthWidth) :
    text value = .ofBytes (Bytes.ofNat lengthWidth (Text.bytes value).length ++ Text.bytes value) := by
  rw [text, length_of_fits fits]
  rfl

theorem concat_cons (head : Encoding) (rest : List Encoding) :
    concat (head :: rest) = head ++ concat rest := rfl

theorem error_concat (parts : List Encoding) :
    (concat parts).error = none ↔ ∀ part ∈ parts, part.error = none := by
  induction parts with
  | nil => simp [concat, empty]
  | cons head rest ih =>
    rw [concat_cons, error_append, Option.or_eq_none_iff, ih, List.forall_mem_cons]

theorem concat_map {α : Type} {encode : α → Encoding} {values : List α}
    (whole : ∀ value ∈ values, (encode value).error = none) :
    concat (values.map encode) = .ofBytes (values.flatMap fun value => (encode value).bytes) := by
  induction values with
  | nil => rfl
  | cons head rest ih =>
    obtain ⟨first, others⟩ := List.forall_mem_cons.mp whole
    rw [List.map_cons, concat_cons, ih others, append_of_whole first, List.flatMap_cons]
    rfl

theorem error_length {n : Nat} : (length n).error = none ↔ n < 256 ^ lengthWidth := by
  rw [length]
  split
  · case isTrue fits => exact iff_of_true rfl fits
  · case isFalse fits => exact iff_of_false (Option.some_ne_none _) fits

theorem error_text {value : String} :
    (text value).error = none ↔ (Text.bytes value).length < 256 ^ lengthWidth := by
  rw [text, error_append, Option.or_eq_none_iff, error_length]
  exact and_iff_left rfl

theorem error_seq (parts : List Encoding) : (seq parts).error = none ↔
    parts.length < 256 ^ lengthWidth ∧ ∀ part ∈ parts, part.error = none := by
  rw [seq, error_append, Option.or_eq_none_iff, error_length, error_concat]

theorem seq_map {α : Type} {encode : α → Encoding} {values : List α}
    (fits : values.length < 256 ^ lengthWidth) (whole : ∀ value ∈ values, (encode value).error = none) :
    seq (values.map encode) = .ofBytes (Bytes.ofNat lengthWidth values.length ++
      values.flatMap fun value => (encode value).bytes) := by
  rw [seq, List.length_map, length_of_fits fits, concat_map whole]
  rfl

theorem eq_empty_iff {encoding : Encoding} :
    encoding = empty ↔ encoding.error = none ∧ encoding.bytes = [] := by
  cases encoding
  simp [empty, and_comm]

theorem append_eq_empty : first ++ second = empty ↔ first = empty ∧ second = empty := by
  simp only [eq_empty_iff]
  cases found : first.error with
  | none => simp [error_append_of_whole found, bytes_append found, and_left_comm]
  | some error => simp [error_append, found]

theorem concat_eq_empty {parts : List Encoding} : concat parts = empty ↔ ∀ part ∈ parts, part = empty := by
  induction parts with
  | nil => simp [concat]
  | cons head rest ih => rw [concat_cons, append_eq_empty, ih, List.forall_mem_cons]

theorem ofBytes_ne_empty {bytes : Bytes} (long : 0 < bytes.length) : ofBytes bytes ≠ empty := by
  intro nothing
  have short : bytes = [] := congrArg Encoding.bytes nothing
  simp [short] at long

theorem append_ne_empty (some : first ≠ empty) : first ++ second ≠ empty :=
  fun nothing => some (append_eq_empty.mp nothing).1

/-! Numbers, flags and lengths take bytes, unless they fail. -/

theorem int_ne_empty (kind : IntKind) (n : Int) : int kind n ≠ empty :=
  ofBytes_ne_empty (by rw [IntKind.length_bytes]; exact kind.width_pos)

theorem float_ne_empty (kind : FloatKind) (bits : kind.Bits) : float kind bits ≠ empty :=
  ofBytes_ne_empty (by rw [FloatKind.length_bytes]; exact kind.width_pos)

theorem bool_ne_empty (value : Bool) : bool value ≠ empty := ofBytes_ne_empty Nat.one_pos

theorem length_ne_empty (n : Nat) : length n ≠ empty := by
  rw [length]
  split
  · simp [ofBytes, empty, lengthWidth, Bytes.ofNat]
  · simp [fail, empty]

end Encoding

namespace Decoding

theorem inverts_float (kind : FloatKind) : (float kind).Inverts kind.bytes (fun _ => True) :=
  inverts_of_raw (fun _ full => ⟨trivial, FloatKind.bytes_ofBytes full⟩)
    fun bits _ => ⟨kind.length_bytes bits, kind.ofBytes_bytes bits⟩

theorem inverts_length : length.Inverts (Bytes.ofNat lengthWidth) (· < 256 ^ lengthWidth) :=
  inverts_number lengthWidth

theorem inverts_flag (error : UInt8 → CodecError) :
    (flag error).Inverts (fun value => [if value then 1 else 0]) (fun _ => True) := by
  refine (inverts_byte.bind (fun value : Bool => if value then 1 else 0) (fun _ => True)
    fun code _ => (?_ : Inverts _ (fun _ => []) _)).congr (by simp) (by simp)
  by_cases absent : code = 0
  · rw [if_pos absent]
    refine (inverts_pure false).congr (fun value => ?_) fun _ _ => rfl
    cases value <;> simp [absent]
  · by_cases present : code = 1
    · rw [if_neg absent, if_pos present]
      refine (inverts_pure true).congr (fun value => ?_) fun _ _ => rfl
      cases value <;> simp [present]
    · rw [if_neg absent, if_neg present]
      refine inverts_throw _ _ fun value => ?_
      cases value <;> simp [Ne.symm absent, Ne.symm present]

theorem inverts_text : text.Inverts
    (fun value => Bytes.ofNat lengthWidth (Text.bytes value).length ++ Text.bytes value)
    (fun value => (Text.bytes value).length < 256 ^ lengthWidth) := by
  refine (inverts_length.bind (fun value => (Text.bytes value).length) (fun _ => True)
    fun count _ => (?_ : Inverts _ Text.bytes _)).congr (by simp) fun _ _ => rfl
  refine ((inverts_raw count).bind Text.bytes (fun value => (Text.bytes value).length = count ∧ True)
    fun spelling full => (?_ : Inverts _ (fun _ => []) _)).congr (fun value => ?_) (by simp)
  · cases found : Text.ofBytes? spelling with
    | none =>
      refine inverts_throw _ _ ?_
      rintro value ⟨rfl, -⟩
      rw [Text.ofBytes?_bytes] at found
      cases found
    | some text =>
      refine (inverts_pure text).congr (fun value => ?_) fun _ _ => rfl
      have spelled := Text.bytes_of_ofBytes? found
      constructor
      · rintro rfl
        exact ⟨spelled, spelled ▸ full, trivial⟩
      · rintro ⟨rfl, -⟩
        rw [Text.ofBytes?_bytes] at found
        exact Option.some.inj found
  · simp

end Decoding

namespace Datum

theorem encodeAll_eq (data : List Datum) : encodeAll data = .concat (data.map encode) := by
  induction data with
  | nil => rfl
  | cons head rest ih => rw [encodeAll, ih]; rfl

theorem encodeFields_eq (fields : List (String × Datum)) :
    encodeFields fields = encodeAll (fields.map Prod.snd) := by
  induction fields with
  | nil => rfl
  | cons head rest ih => rw [encodeFields, ih]; rfl

theorem encode_list (items : List Datum) : (list items).encode = .seq (items.map encode) := by
  rw [encode, encodeAll_eq, Encoding.seq, List.length_map]

theorem encode_list_of_whole {items : List Datum} (whole : (list items).encode.error = none) :
    items.length < 256 ^ lengthWidth ∧ (∀ item ∈ items, item.encode.error = none) ∧
      (list items).encode = .ofBytes (Bytes.ofNat lengthWidth items.length ++
        items.flatMap fun item => item.encode.bytes) := by
  rw [encode_list, Encoding.error_seq, List.length_map, List.forall_mem_map] at whole
  rw [encode_list]
  exact ⟨whole.1, whole.2, Encoding.seq_map whole.1 whole.2⟩

end Datum

end AppendLog
