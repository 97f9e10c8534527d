import AppendLog.Proofs.Narrowing
import AppendLog.Proofs.RoundTrip
import AppendLog.Value.Wire

/-! Round trips of values that are laid out by a shape.

A value that can be written in a shape is admitted by a derivation that follows both. What is
read back is its normal form for the shape: what stands at a void shape is forgotten, and floats
are rounded to the width that they are stored in. The normal form is written in the same bytes,
and it is read unless a sequence of items that take no bytes is longer than the decoder lets pass.
-/

set_option autoImplicit false

namespace AppendLog

namespace Shape

/-- The value can be laid out by the shape, if all lengths in it can be stored. -/
inductive Admits : Shape → Value → Prop where
  | void (kind : VoidKind) (value : Value) : Admits (.void kind) value
  | bool (value : Bool) : Admits .bool (.bool value)
  | int {kind : IntKind} {n : Int} : kind.isSigned = true → kind.Holds n → Admits (.int kind) (.int n)
  | uint {kind : IntKind} {n : Nat} : kind.isSigned = false → kind.Holds n →
      Admits (.int kind) (.uint n)
  | float (kind : FloatKind) (bits : Binary64) : Admits (.float kind) (.float bits)
  | complex (kind : FloatKind) (re im : Binary64) : Admits (.complex kind) (.complex re im)
  | text (value : String) : Admits .text (.text value)
  | seq {item : Shape} {items : List Value} : (∀ value ∈ items, Admits item value) →
      Admits (.seq item) (.seq items)
  | array {item : Shape} {length : Nat} {items : List Value} : items.length = length →
      (∀ value ∈ items, Admits item value) → Admits (.array item length) (.seq items)
  | absent (item : Shape) : Admits (.optional item) .null
  | present {item : Shape} {value : Value} : value ≠ .null → Admits item value →
      Admits (.optional item) value
  | record {fields : List (String × Shape)} {values : List (String × Value)} :
      fields.map Prod.fst = values.map Prod.fst →
      (∀ pair ∈ (fields.map Prod.snd).zip (values.map Prod.snd), Admits pair.1 pair.2) →
      Admits (.record fields) (.record values)

mutual

def takesNoBytes : Shape → Bool
  | void _ => true
  | record fields => allTakeNoBytes fields
  | _ => false

def allTakeNoBytes : List (String × Shape) → Bool
  | [] => true
  | (_, shape) :: rest => shape.takesNoBytes && allTakeNoBytes rest

end

mutual

/-- What the encoding of a value in the shape keeps of it. -/
def normal : Shape → Value → Value
  | void _, _ => .unit
  | float kind, .float bits => .float (kind.widen (kind.narrow bits))
  | complex kind, .complex re im =>
    .complex (kind.widen (kind.narrow re)) (kind.widen (kind.narrow im))
  | seq item, .seq items => .seq (items.map (normal item))
  | array item _, .seq items => .seq (items.map (normal item))
  | optional _, .null => .null
  | optional item, value => normal item value
  | record fields, .record values => .record (normalFields fields values)
  | _, value => value

def normalFields : List (String × Shape) → List (String × Value) → List (String × Value)
  | (_, shape) :: fields, (name, value) :: values =>
    (name, normal shape value) :: normalFields fields values
  | _, values => values

end

def emptyRun (item : Shape) (length : Nat) : List Nat :=
  if item.takesNoBytes then [length] else []

mutual

/-- The lengths of all sequences and arrays in the value whose items take no bytes. -/
def emptyRuns : Shape → Value → List Nat
  | seq item, .seq items => emptyRun item items.length ++ items.flatMap (emptyRuns item)
  | array item _, .seq items => emptyRun item items.length ++ items.flatMap (emptyRuns item)
  | optional _, .null => []
  | optional item, value => emptyRuns item value
  | record fields, .record values => emptyRunsFields fields values
  | _, _ => []

def emptyRunsFields : List (String × Shape) → List (String × Value) → List Nat
  | (_, shape) :: fields, (_, value) :: values =>
    emptyRuns shape value ++ emptyRunsFields fields values
  | _, _ => []

end

variable {shape item : Shape} {value : Value} {items : List Value} {fields : List (String × Shape)}
  {values : List (String × Value)}

theorem encode_int {kind : IntKind} {n : Int} (signed : kind.isSigned = true) (holds : kind.Holds n) :
    encode (int kind) (.int n) = .int kind n := by
  rw [encode, if_pos signed, encodeInt, if_pos holds]

theorem encode_uint {kind : IntKind} {n : Nat} (unsigned : kind.isSigned = false)
    (holds : kind.Holds n) : encode (int kind) (.uint n) = .int kind n := by
  rw [encode, if_neg (by simp [unsigned]), encodeInt, if_pos holds]

theorem encode_array {length : Nat} (counted : items.length = length) :
    encode (array item length) (.seq items) = .seq (items.map (encode item)) := by
  rw [encode, if_pos counted]

theorem encode_present (present : value ≠ .null) :
    encode (optional item) value = .presence true ++ encode item value := by
  cases value <;> first | rfl | contradiction

theorem normal_present (present : value ≠ .null) : normal (optional item) value = normal item value := by
  cases value <;> first | rfl | contradiction

theorem emptyRuns_present (present : value ≠ .null) :
    emptyRuns (optional item) value = emptyRuns item value := by
  cases value <;> first | rfl | contradiction

theorem encode_record (names : fields.map Prod.fst = values.map Prod.fst) :
    encode (record fields) (.record values) = encodeFields fields values := by
  rw [encode, if_pos (by simpa using congrArg List.length names)]

mutual

/-- A value is encoded whole only in a shape that admits it. -/
theorem admits_of_whole (shape : Shape) (value : Value) (whole : (encode shape value).error = none) :
    shape.Admits value := by
  unfold encode at whole
  split at whole
  · exact .void _ _
  · exact .bool _
  · split at whole
    · case isTrue signed =>
      unfold encodeInt at whole
      split at whole
      · case isTrue holds => exact .int signed holds
      · cases whole
    · cases whole
  · split at whole
    · cases whole
    · case isFalse unsigned =>
      unfold encodeInt at whole
      split at whole
      · case isTrue holds => exact .uint (Bool.eq_false_iff.mpr unsigned) holds
      · cases whole
  · exact .float _ _
  · exact .complex _ _ _
  · exact .text _
  · rw [Encoding.error_seq, List.forall_mem_map] at whole
    exact .seq fun value member => admits_of_whole _ value (whole.2 value member)
  · split at whole
    · case isTrue counted =>
      rw [Encoding.error_seq, List.forall_mem_map] at whole
      exact .array counted fun value member => admits_of_whole _ value (whole.2 value member)
    · cases whole
  · exact .absent _
  · case _ present =>
    rw [Encoding.error_append_of_whole rfl] at whole
    exact .present present (admits_of_whole _ _ whole)
  · split at whole
    · case isTrue lengths =>
      obtain ⟨names, admits⟩ := admits_of_whole_fields _ _ lengths whole
      exact .record names admits
    · cases whole
  · cases whole
termination_by sizeOf shape

theorem admits_of_whole_fields (fields : List (String × Shape)) (values : List (String × Value))
    (lengths : fields.length = values.length) (whole : (encodeFields fields values).error = none) :
    fields.map Prod.fst = values.map Prod.fst ∧
      ∀ pair ∈ (fields.map Prod.snd).zip (values.map Prod.snd), Admits pair.1 pair.2 := by
  match fields, values with
  | [], [] => exact ⟨rfl, List.forall_mem_nil _⟩
  | (name, shape) :: fields, (name', value) :: values =>
    rw [encodeFields] at whole
    split at whole
    · case isTrue same =>
      rw [Encoding.error_append, Option.or_eq_none_iff] at whole
      obtain ⟨names, admits⟩ := admits_of_whole_fields fields values (Nat.succ.inj lengths) whole.2
      exact ⟨by simp [same, names],
        List.forall_mem_cons.mpr ⟨admits_of_whole shape value whole.1, admits⟩⟩
    · cases whole
termination_by sizeOf fields

end

theorem encodeFields_cons {name : String} (shape : Shape) (value : Value) :
    encodeFields ((name, shape) :: fields) ((name, value) :: values) =
      encode shape value ++ encodeFields fields values := by
  rw [encodeFields, if_pos rfl]

theorem encodeFields_eq_empty (names : fields.map Prod.fst = values.map Prod.fst)
    (each : ∀ pair ∈ (fields.map Prod.snd).zip (values.map Prod.snd),
      encode pair.1 pair.2 = .empty ↔ pair.1.takesNoBytes = true) :
    encodeFields fields values = .empty ↔ allTakeNoBytes fields = true := by
  induction fields, values, names using sameNames_induction with
  | nil => exact iff_of_true rfl rfl
  | cons name shape value fields values names ih =>
    obtain ⟨first, others⟩ := List.forall_mem_cons.mp each
    rw [encodeFields_cons, Encoding.append_eq_empty, first, ih others, allTakeNoBytes, Bool.and_eq_true]

theorem Admits.encode_eq_empty (admits : shape.Admits value) :
    encode shape value = .empty ↔ shape.takesNoBytes = true := by
  induction admits with
  | void kind value => exact iff_of_true rfl rfl
  | bool value => exact iff_of_false (Encoding.bool_ne_empty value) Bool.false_ne_true
  | int signed holds =>
    rw [encode_int signed holds]
    exact iff_of_false (Encoding.int_ne_empty _ _) Bool.false_ne_true
  | uint unsigned holds =>
    rw [encode_uint unsigned holds]
    exact iff_of_false (Encoding.int_ne_empty _ _) Bool.false_ne_true
  | float kind bits => exact iff_of_false (Encoding.float_ne_empty kind _) Bool.false_ne_true
  | complex kind re im =>
    exact iff_of_false (Encoding.append_ne_empty (Encoding.float_ne_empty kind _)) Bool.false_ne_true
  | text value => exact iff_of_false (Encoding.append_ne_empty (Encoding.length_ne_empty _)) Bool.false_ne_true
  | seq => exact iff_of_false (Encoding.append_ne_empty (Encoding.length_ne_empty _)) Bool.false_ne_true
  | array counted =>
    rw [encode_array counted]
    exact iff_of_false (Encoding.append_ne_empty (Encoding.length_ne_empty _)) Bool.false_ne_true
  | absent item => exact iff_of_false (Encoding.bool_ne_empty false) Bool.false_ne_true
  | present present =>
    rw [encode_present present]
    exact iff_of_false (Encoding.append_ne_empty (Encoding.bool_ne_empty true)) Bool.false_ne_true
  | record names _ ih =>
    rw [encode_record names, takesNoBytes]
    exact encodeFields_eq_empty names ih

theorem Admits.bytes_eq_nil (admits : shape.Admits value) (whole : (encode shape value).error = none) :
    (encode shape value).bytes = [] ↔ shape.takesNoBytes = true := by
  rw [← admits.encode_eq_empty, Encoding.eq_empty_iff, and_iff_right whole]

theorem Admits.normal_ne_null (admits : shape.Admits value) (present : value ≠ .null) :
    normal shape value ≠ .null := by
  induction admits with
  | absent item => exact absurd rfl present
  | present _ _ ih =>
    rw [normal_present present]
    exact ih present
  | _ => simp [normal]

theorem encodeFields_normalFields (names : fields.map Prod.fst = values.map Prod.fst)
    (each : ∀ pair ∈ (fields.map Prod.snd).zip (values.map Prod.snd),
      encode pair.1 (normal pair.1 pair.2) = encode pair.1 pair.2) :
    (normalFields fields values).map Prod.fst = values.map Prod.fst ∧
      encodeFields fields (normalFields fields values) = encodeFields fields values := by
  induction fields, values, names using sameNames_induction with
  | nil => exact ⟨rfl, rfl⟩
  | cons name shape value fields values names ih =>
    obtain ⟨first, others⟩ := List.forall_mem_cons.mp each
    obtain ⟨sameNames, same⟩ := ih others
    rw [normalFields, encodeFields_cons, encodeFields_cons, first, same]
    exact ⟨congrArg (name :: ·) sameNames, rfl⟩

theorem encodeFloat_normal (kind : FloatKind) (bits : Binary64) :
    encodeFloat kind (kind.widen (kind.narrow bits)) = encodeFloat kind bits := by
  rw [encodeFloat, FloatKind.narrow_widen_narrow, encodeFloat]

theorem map_encode_normal (each : ∀ value ∈ items, encode item (normal item value) = encode item value) :
    (items.map (normal item)).map (encode item) = items.map (encode item) := by
  rw [List.map_map]
  exact List.map_congr_left each

/-- The normal form is all that the encoding depends on. -/
theorem Admits.encode_normal (admits : shape.Admits value) :
    encode shape (normal shape value) = encode shape value := by
  induction admits with
  | float kind bits => exact encodeFloat_normal kind bits
  | complex kind re im =>
    rw [normal, encode, encode, encodeFloat_normal, encodeFloat_normal]
  | seq _ ih => rw [normal, encode, encode, map_encode_normal ih]
  | array counted _ ih =>
    rw [normal, encode_array (by rw [List.length_map, counted]), encode_array counted, map_encode_normal ih]
  | present present admits ih =>
    rw [normal_present present, encode_present (admits.normal_ne_null present), ih, encode_present present]
  | record names _ ih =>
    obtain ⟨sameNames, same⟩ := encodeFields_normalFields names ih
    rw [normal, encode_record (names.trans sameNames.symm), same, encode_record names]
  | _ => rfl

open Decoding

variable {more : Bytes}

theorem forall_emptyRun {length : Nat} {runs : List Nat} :
    (∀ n ∈ emptyRun item length ++ runs, n ≤ emptyItemLimit) ↔
      (item.takesNoBytes = true → length ≤ emptyItemLimit) ∧ ∀ n ∈ runs, n ≤ emptyItemLimit := by
  rw [List.forall_mem_append, emptyRun]
  refine and_congr ?_ Iff.rfl
  split <;> simp_all

/-- Items that are read as their normal forms are read in a row, if they are let pass. -/
theorem yields_normal_items (admits : ∀ value ∈ items, item.Admits value)
    (each : ∀ value ∈ items, ∀ more position, (encode item value).error = none →
      (decode item).Yields (encode item value).bytes (normal item value)
        (∀ n ∈ emptyRuns item value, n ≤ emptyItemLimit) more position)
    (whole : ∀ value ∈ items, (encode item value).error = none) (position : Nat) :
    (Decoding.items (decode item) items.length).Yields
      (items.flatMap fun value => (encode item value).bytes) (items.map (normal item))
      (∀ n ∈ emptyRun item items.length ++ items.flatMap (emptyRuns item), n ≤ emptyItemLimit)
      more position := by
  have alike (value : Value) (member : value ∈ items) :=
    (admits value member).bytes_eq_nil (whole value member)
  refine (yields_items (fun value member more position _ => each value member more position
    (whole value member)) alike _ (Nat.le_refl _)).congr ?_
  rw [forall_emptyRun]
  simp only [List.mem_flatMap, forall_exists_index, and_imp]
  exact and_congr Iff.rfl ⟨fun h n value member => h value member n, fun h value member n => h n value member⟩

theorem yields_fields (names : fields.map Prod.fst = values.map Prod.fst)
    (each : ∀ pair ∈ (fields.map Prod.snd).zip (values.map Prod.snd), ∀ more position,
      (encode pair.1 pair.2).error = none → (decode pair.1).Yields (encode pair.1 pair.2).bytes
        (normal pair.1 pair.2) (∀ n ∈ emptyRuns pair.1 pair.2, n ≤ emptyItemLimit) more position)
    (whole : (encodeFields fields values).error = none) (position : Nat) :
    (decodeFields fields).Yields (encodeFields fields values).bytes (normalFields fields values)
      (∀ n ∈ emptyRunsFields fields values, n ≤ emptyItemLimit) more position := by
  induction fields, values, names using sameNames_induction generalizing position with
  | nil => exact yields_pure.congr (by simp [emptyRunsFields])
  | cons name shape value fields values names ih =>
    obtain ⟨first, others⟩ := List.forall_mem_cons.mp each
    rw [encodeFields_cons, Encoding.error_append, Option.or_eq_none_iff] at whole
    rw [encodeFields_cons, Encoding.bytes_append whole.1]
    refine ((first _ position whole.1).bind (ih others whole.2 _).map).congr ?_
    rw [emptyRunsFields, List.forall_mem_append]

/-- What is encoded whole is read as its normal form, or refused for a sequence of too many items
that take no bytes. -/
theorem Admits.yields (admits : shape.Admits value) (whole : (encode shape value).error = none)
    (position : Nat) :
    (decode shape).Yields (encode shape value).bytes (normal shape value)
      (∀ n ∈ emptyRuns shape value, n ≤ emptyItemLimit) more position := by
  induction admits generalizing more position with
  | void kind value => exact yields_pure.congr (iff_of_true trivial (List.forall_mem_nil _))
  | bool value => exact ((inverts_flag _).yields trivial).map.congr (iff_of_true trivial (List.forall_mem_nil _))
  | @int kind n signed holds =>
    rw [encode_int signed holds]
    have read : (decodeInt kind).Yields (kind.bytes n)
        (if kind.isSigned then .int n else .uint n.toNat) True more position :=
      ((inverts_int kind).yields holds).map
    rw [if_pos signed] at read
    exact read.congr (iff_of_true trivial (List.forall_mem_nil _))
  | @uint kind n unsigned holds =>
    rw [encode_uint unsigned holds]
    have read : (decodeInt kind).Yields (kind.bytes n)
        (if kind.isSigned then .int n else .uint (n : Int).toNat) True more position :=
      ((inverts_int kind).yields holds).map
    rw [if_neg (Bool.eq_false_iff.mp unsigned)] at read
    exact read.congr (iff_of_true trivial (List.forall_mem_nil _))
  | float kind bits =>
    exact ((inverts_float kind).yields trivial).map.map.congr (iff_of_true trivial (List.forall_mem_nil _))
  | complex kind re im =>
    exact (((inverts_float kind).yields trivial).map.bind ((inverts_float kind).yields trivial).map.map).congr
      (iff_of_true ⟨trivial, trivial⟩ (List.forall_mem_nil _))
  | text value =>
    have fits := Encoding.error_text.mp whole
    rw [encode, Encoding.text_of_fits fits]
    exact (inverts_text.yields fits).map.congr (iff_of_true trivial (List.forall_mem_nil _))
  | @seq item items admits ih =>
    rw [encode, Encoding.error_seq, List.length_map, List.forall_mem_map] at whole
    rw [encode, Encoding.seq_map whole.1 whole.2]
    exact (yields_counted whole.1 (yields_normal_items admits (fun value member more position whole =>
      ih value member whole position) whole.2 _)).map
  | @array item length items counted admits ih =>
    rw [encode_array counted, Encoding.error_seq, List.length_map, List.forall_mem_map] at whole
    rw [encode_array counted, Encoding.seq_map whole.1 whole.2]
    refine yields_counted whole.1 ?_
    rw [if_pos counted]
    exact (yields_normal_items admits (fun value member more position whole =>
      ih value member whole position) whole.2 _).map
  | absent item =>
    exact Yields.congr (yields_flagged false yields_pure) (iff_of_true trivial (List.forall_mem_nil _))
  | @present item value present admits ih =>
    rw [encode_present present, Encoding.error_append_of_whole rfl] at whole
    rw [encode_present present, Encoding.bytes_append rfl, normal_present present, emptyRuns_present present]
    exact yields_flagged true (ih whole _)
  | record names _ ih =>
    rw [encode_record names] at whole ⊢
    exact (yields_fields names (fun pair member more position whole => ih pair member whole position)
      whole position).map

/-- A value that is encoded in a shape is decoded as its normal form, which is encoded in the same
bytes, exactly if its sequences of items that take no bytes are within the limit. -/
theorem decode_encode_normal {bytes : Bytes} (encoded : (encode shape value).toBytes = .ok bytes) :
    (∀ more position, decode shape ⟨bytes ++ more, position⟩ =
        .ok (normal shape value) ⟨more, position + bytes.length⟩ ↔
      ∀ n ∈ emptyRuns shape value, n ≤ emptyItemLimit) ∧
    (encode shape (normal shape value)).toBytes = .ok bytes := by
  obtain ⟨whole, rfl⟩ := Encoding.toBytes_eq_ok.mp encoded
  have admits := admits_of_whole shape value whole
  refine ⟨fun more position => ?_, by rw [admits.encode_normal, encoded]⟩
  rcases admits.yields whole position with ⟨inside, ran⟩ | ⟨outside, n, stop, many, refused⟩
  · exact iff_of_true ran inside
  · refine iff_of_false (fun ran => ?_) outside
    cases refused.symm.trans ran

theorem decode_encode_normal_of_nested :
    let shape : Shape := .record [("id", .int .u16), ("hook", .optional (.void .function)),
      ("marks", .seq (.record [("link", .void .channel)])), ("at", .complex .f32),
      ("names", .array (.optional .text) 2)]
    let valueOf (hook : Value) (links : List Value) (re im : Binary64) : Value := .record
      [("id", .uint 7), ("hook", hook), ("marks", .seq (links.map fun link => .record [("link", link)])),
        ("at", .complex re im), ("names", .seq [.null, .text "é"])]
    let value := valueOf (.text "f") [.null, .bool true] 0x3fb999999999999a#64 0x7ff0000020000000#64
    let kept := valueOf .unit [.unit, .unit] 0x3fb99999a0000000#64 0x7ff8000020000000#64
    let bytes : Bytes := [0, 7, 1, 0, 0, 0, 2, 61, 204, 204, 205, 127, 192, 0, 1,
      0, 0, 0, 2, 0, 1, 0, 0, 0, 2, 195, 169]
    (encode shape value).toBytes = .ok bytes ∧
      decode shape ⟨bytes ++ [255], 40⟩ = .ok kept ⟨[255], 67⟩ ∧ (encode shape kept).toBytes = .ok bytes := by
  intro shape valueOf value kept bytes
  have encoded : (encode shape value).toBytes = .ok bytes := by rfl
  have same : normal shape value = kept := by rfl
  have runs : emptyRuns shape value = [2] := by rfl
  have short : ∀ n ∈ emptyRuns shape value, n ≤ emptyItemLimit := by simp [runs, emptyItemLimit]
  obtain ⟨read, again⟩ := decode_encode_normal encoded
  rw [same] at read again
  exact ⟨encoded, (read [255] 40).mpr short, again⟩

end Shape

end AppendLog
