import AppendLog.Proofs.Agreement

/-! Encoding again what has been decoded by a shape.

A value does not tell a present option from what is in it. What is encoded again is therefore what
can be recalled of the datum that was read: options around something absent come back as absent
themselves, and a signalling NaN of single precision, which has been widened, as a quiet one. The
bytes that were read come back exactly if there was neither of the two, and they always do in
shapes that have no room for them.
-/

set_option autoImplicit false

namespace AppendLog

namespace Datum

def recalledOption : Datum → Datum
  | absent => .absent
  | value => .present value

mutual

/-- What can be told of the datum from its image. -/
def recalled : Datum → Datum
  | float kind bits => .float kind (kind.quiet bits)
  | complex kind re im => .complex kind (kind.quiet re) (kind.quiet im)
  | list items => .list (recalledAll items)
  | present value => recalledOption value.recalled
  | record fields skipped => .record (recalledFields fields) skipped
  | datum => datum

def recalledAll : List Datum → List Datum
  | [] => []
  | datum :: rest => datum.recalled :: recalledAll rest

def recalledFields : List (String × Datum) → List (String × Datum)
  | [] => []
  | (name, datum) :: rest => (name, datum.recalled) :: recalledFields rest

end

variable {datum : Datum}

theorem recalledOption_of_ne (some : datum ≠ .absent) : recalledOption datum = .present datum := by
  cases datum <;> first | rfl | contradiction

theorem recalledAll_eq (data : List Datum) : recalledAll data = data.map recalled := by
  induction data with
  | nil => rfl
  | cons head rest ih => rw [recalledAll, ih, List.map_cons]

theorem recalledAll_eq_self {data : List Datum} (each : ∀ datum ∈ data, datum.recalled = datum) :
    recalledAll data = data := by
  rw [recalledAll_eq]
  exact (List.map_congr_left each).trans (List.map_id data)

theorem recalledFields_eq_self {fields : List (String × Datum)}
    (each : ∀ datum ∈ fields.map Prod.snd, datum.recalled = datum) : recalledFields fields = fields := by
  induction fields with
  | nil => rfl
  | cons field fields ih =>
    obtain ⟨first, others⟩ := List.forall_mem_cons.mp each
    rw [recalledFields, first, ih others]

theorem image_eq_null : ∀ datum : Datum, datum.image = .null ↔ datum.recalled = .absent
  | bool _ | complex _ _ _ | float _ _ | text _ | unit | transient _ | list _ | tuple _ | record _ _ => by
    simp [image, recalled]
  | int kind value => by
    rw [image]
    split <;> simp [recalled]
  | absent => iff_of_true rfl rfl
  | present value => by
    rw [image, image_eq_null value, recalled]
    by_cases absent : value.recalled = .absent
    · simp [absent, recalledOption]
    · simp [absent, recalledOption_of_ne absent]

/-! No other data are encoded alike -/

/-- An encoding is whole and no longer than another one, and the same only if something holds. -/
def Tightens (kept whole : Encoding) (same : Prop) : Prop :=
  kept.error = none ∧ kept.bytes.length ≤ whole.bytes.length ∧ (kept.bytes = whole.bytes → same)

variable {kept whole kept' whole' : Encoding} {same same' wanted : Prop}

theorem Tightens.append (first : Tightens kept whole same) (second : Tightens kept' whole' same')
    (firstWhole : whole.error = none) : Tightens (kept ++ kept') (whole ++ whole') (same ∧ same') := by
  unfold Tightens
  rw [Encoding.error_append_of_whole first.1, Encoding.bytes_append first.1,
    Encoding.bytes_append firstWhole, List.length_append, List.length_append]
  refine ⟨second.1, Nat.add_le_add first.2.1 second.2.1, fun equal => ?_⟩
  -- As neither part is longer than its counterpart, both end at the same place.
  have lengths := congrArg List.length equal
  rw [List.length_append, List.length_append] at lengths
  have short := first.2.1
  have shortRest := second.2.1
  obtain ⟨front, back⟩ := List.append_inj equal (by omega)
  exact ⟨first.2.2 front, second.2.2 back⟩

theorem Tightens.imp (tightens : Tightens kept whole same) (follows : same → wanted) :
    Tightens kept whole wanted :=
  ⟨tightens.1, tightens.2.1, fun equal => follows (tightens.2.2 equal)⟩

theorem tightens_self (encoded : kept.error = none) : Tightens kept kept True :=
  ⟨encoded, Nat.le_refl _, fun _ => trivial⟩

theorem tightens_float (kind : FloatKind) (bits : kind.Bits) :
    Tightens (.float kind (kind.quiet bits)) (.float kind bits) (kind.quiet bits = bits) := by
  refine ⟨rfl, by simp [Encoding.float, Encoding.ofBytes], fun equal => ?_⟩
  have read := congrArg kind.ofBytes equal
  rwa [Encoding.float, Encoding.float, Encoding.ofBytes, Encoding.ofBytes, FloatKind.ofBytes_bytes,
    FloatKind.ofBytes_bytes] at read

mutual

/-- What is recalled of data is encoded whole where the data are, and in the same bytes only if
everything is recalled. -/
theorem tightens_recalled : ∀ datum : Datum, datum.encode.error = none →
    Tightens datum.recalled.encode datum.encode (datum.recalled = datum)
  | bool _, encoded | int _ _, encoded | text _, encoded | unit, encoded | transient _, encoded
  | absent, encoded | tuple _, encoded => (tightens_self encoded).imp fun _ => rfl
  | float kind bits, _ => (tightens_float kind bits).imp fun same => by rw [recalled, same]
  | complex kind re im, _ => by
    refine ((tightens_float kind re).append (tightens_float kind im) rfl).imp ?_
    rintro ⟨sameRe, sameIm⟩
    rw [recalled, sameRe, sameIm]
  | list items, encoded => by
    rw [encode, Encoding.error_append, Option.or_eq_none_iff] at encoded
    have tightens := (tightens_self encoded.1).append (tightens_recalledAll items encoded.2) encoded.1
    rw [recalled, encode, encode, recalledAll_eq, List.length_map, ← recalledAll_eq]
    exact tightens.imp fun same => by rw [same.2]
  | present value, encoded => by
    rw [encode, Encoding.error_append_of_whole rfl] at encoded
    have tightens := tightens_recalled value encoded
    rw [recalled]
    by_cases absent : value.recalled = .absent
    · rw [absent, encode]
      refine ⟨rfl, ?_, fun equal => ?_⟩
      · rw [Encoding.bytes_append rfl, List.length_append]
        exact Nat.le_add_right 1 _
      · rw [Encoding.bytes_append rfl] at equal
        cases equal
    · rw [recalledOption_of_ne absent, encode, encode]
      exact ((tightens_self rfl).append tightens rfl).imp fun same => by rw [same.2]
  | record fields skipped, encoded =>
    (tightens_recalledFields fields encoded).imp fun same => by rw [recalled, same]

theorem tightens_recalledAll : ∀ data : List Datum, (encodeAll data).error = none →
    Tightens (encodeAll (recalledAll data)) (encodeAll data) (recalledAll data = data)
  | [], _ => (tightens_self rfl).imp fun _ => rfl
  | datum :: rest, encoded => by
    rw [encodeAll, Encoding.error_append, Option.or_eq_none_iff] at encoded
    refine ((tightens_recalled datum encoded.1).append (tightens_recalledAll rest encoded.2) encoded.1).imp ?_
    rintro ⟨first, others⟩
    rw [recalledAll, first, others]

theorem tightens_recalledFields : ∀ fields : List (String × Datum), (encodeFields fields).error = none →
    Tightens (encodeFields (recalledFields fields)) (encodeFields fields) (recalledFields fields = fields)
  | [], _ => (tightens_self rfl).imp fun _ => rfl
  | (name, datum) :: rest, encoded => by
    rw [encodeFields, Encoding.error_append, Option.or_eq_none_iff] at encoded
    refine ((tightens_recalled datum encoded.1).append (tightens_recalledFields rest encoded.2) encoded.1).imp ?_
    rintro ⟨first, others⟩
    rw [recalledFields, first, others]

end

end Datum

namespace Shape

mutual

/-- The shape has no option right inside an option, and nothing of single precision. -/
def keepsAll : Shape → Bool
  | float kind | complex kind => kind == .f64
  | seq item => item.keepsAll
  | array item _ => item.keepsAll
  | optional (optional _) => false
  | optional item => item.keepsAll
  | record fields => allKeepAll fields
  | _ => true

def allKeepAll : List (String × Shape) → Bool
  | [] => true
  | (_, shape) :: rest => shape.keepsAll && allKeepAll rest

end

theorem keepsAll_optional {item : Shape} (keeps : (optional item).keepsAll = true) :
    (∀ inner, item ≠ .optional inner) ∧ item.keepsAll = true := by
  cases item <;> simp_all [keepsAll]

theorem keepsAll_of_field {fields : List (String × Shape)} {shape : Shape}
    (member : shape ∈ fields.map Prod.snd) (keeps : allKeepAll fields = true) : shape.keepsAll = true := by
  induction fields with
  | nil => cases member
  | cons field fields ih =>
    rw [allKeepAll, Bool.and_eq_true] at keeps
    rcases List.mem_cons.mp member with rfl | member
    · exact keeps.1
    · exact ih member keeps.2

end Shape

namespace Ty

open Datum

variable {ty : Ty} {shape : Shape} {scope : Scope} {datum : Datum} {fields : List (String × Ty)}
  {shapes : List (String × Shape)}

theorem encodeFields_imageFields (names : fields.map Prod.fst = shapes.map Prod.fst)
    {data : List (String × Datum)} (dataNames : fields.map Prod.fst = data.map Prod.fst)
    (typed : ∀ pair ∈ (fields.map Prod.snd).zip (data.map Prod.snd), Admits anyNumber scope pair.1 pair.2)
    (each : ∀ pair ∈ (fields.map Prod.snd).zip (shapes.map Prod.snd), ∀ {datum},
      Admits anyNumber scope pair.1 datum → pair.2.encode datum.image = datum.recalled.encode) :
    (imageFields data).map Prod.fst = shapes.map Prod.fst ∧
      Shape.encodeFields shapes (imageFields data) = encodeFields (recalledFields data) := by
  induction fields, shapes, names using sameNames_induction generalizing data with
  | nil =>
    cases List.map_eq_nil_iff.mp dataNames.symm
    exact ⟨rfl, rfl⟩
  | cons name ty shape fields shapes names ih =>
    cases data with
    | nil => cases dataNames
    | cons entry data =>
      obtain ⟨name', datum⟩ := entry
      obtain ⟨rfl, restNames⟩ := List.cons.inj dataNames
      obtain ⟨first, others⟩ := List.forall_mem_cons.mp each
      obtain ⟨admits, typed⟩ := List.forall_mem_cons.mp typed
      obtain ⟨sameNames, same⟩ := ih restNames typed others
      rw [imageFields, Shape.encodeFields_cons, first admits, same]
      exact ⟨congrArg (name :: ·) sameNames, rfl⟩

theorem map_encode_image {items : List Datum}
    (each : ∀ datum ∈ items, shape.encode datum.image = datum.recalled.encode) :
    (items.map image).map shape.encode = (recalledAll items).map encode := by
  rw [recalledAll_eq, List.map_map, List.map_map]
  exact List.map_congr_left each

/-- The image of a datum is encoded as what is recalled of it. -/
theorem Shaped.encode_image (shaped : Shaped ty shape) (admits : Admits anyNumber scope ty datum) :
    shape.encode datum.image = datum.recalled.encode := by
  induction shaped generalizing scope datum with
  | bool | text | unit | transient =>
    cases admits
    rfl
  | int kind =>
    cases admits with
    | @int _ _ value holds =>
      rw [image]
      split
      · case isTrue signed => exact Shape.encode_int signed holds
      · case isFalse unsigned =>
        have unsigned : kind.isSigned = false := Bool.eq_false_iff.mpr unsigned
        have positive : (value.toNat : Int) = value := by
          rw [IntKind.Holds, if_neg (Bool.eq_false_iff.mp unsigned)] at holds
          exact Int.toNat_of_nonneg holds.1
        rw [Shape.encode_uint unsigned (positive.symm ▸ holds), positive]
        rfl
  | float kind =>
    cases admits with
    | float _ bits => exact congrArg _ (kind.narrow_widen bits)
  | complex kind =>
    cases admits with
    | complex _ re im =>
      rw [image, Shape.encode, Shape.encodeFloat, Shape.encodeFloat, kind.narrow_widen, kind.narrow_widen]
      rfl
  | tuple shaped ih =>
    cases admits with
    | tuple lengths typed =>
      exact (((Shaped.tuple shaped).encode_eq_empty (.tuple lengths typed)).mpr rfl).symm
  | seq _ ih =>
    cases admits with
    | seq _ typed =>
      rw [image_list, Shape.encode, map_encode_image fun datum member => ih (typed datum member), recalled,
        encode_list]
  | array length _ ih =>
    cases admits with
    | array counted typed =>
      rw [image_list, Shape.encode_array (by rw [List.length_map, counted]),
        map_encode_image fun datum member => ih (typed datum member), recalled, encode_list]
  | option _ ih =>
    cases admits with
    | absent => rfl
    | @present _ _ value admits =>
      rw [image, recalled]
      by_cases absent : value.image = .null
      · rw [absent, (image_eq_null value).mp absent]
        rfl
      · rw [Shape.encode_present absent, ih admits,
          recalledOption_of_ne (mt (image_eq_null value).mpr absent)]
        rfl
  | boxed _ ih =>
    cases admits with
    | boxed admits => exact ih admits
  | record skipped own names _ ih =>
    cases admits with
    | record dataNames typed =>
      obtain ⟨sameNames, same⟩ := encodeFields_imageFields names dataNames typed fun pair member => ih pair member
      rw [image, Shape.encode_record sameNames.symm, same]
      rfl

theorem Shaped.optional_of_absent (shaped : Shaped ty shape) (admits : Admits anyNumber scope ty .absent) :
    ∃ item, shape = .optional item := by
  induction shaped generalizing scope with
  | option => exact ⟨_, rfl⟩
  | boxed _ ih =>
    cases admits with
    | boxed admits => exact ih admits
  | _ => cases admits

/-- Nothing is lost of data whose shape has no room for what cannot be recalled. -/
theorem Shaped.recalled_eq_self (shaped : Shaped ty shape) (admits : Admits anyNumber scope ty datum)
    (keeps : shape.keepsAll = true) : datum.recalled = datum := by
  induction shaped generalizing scope datum with
  | float kind =>
    cases beq_iff_eq.mp keeps
    cases admits
    rfl
  | complex kind =>
    cases beq_iff_eq.mp keeps
    cases admits
    rfl
  | seq _ ih =>
    cases admits with
    | seq _ typed => rw [recalled, recalledAll_eq_self fun datum member => ih (typed datum member) keeps]
  | array length _ ih =>
    cases admits with
    | array _ typed => rw [recalled, recalledAll_eq_self fun datum member => ih (typed datum member) keeps]
  | option shaped ih =>
    cases admits with
    | absent => rfl
    | present admits =>
      obtain ⟨single, keeps⟩ := Shape.keepsAll_optional keeps
      rw [recalled, ih admits keeps, recalledOption_of_ne]
      rintro rfl
      obtain ⟨item, nested⟩ := shaped.optional_of_absent admits
      exact single item nested
  | boxed _ ih =>
    cases admits with
    | boxed admits => exact ih admits keeps
  | record skipped own names _ ih =>
    cases admits with
    | record dataNames typed =>
      refine congrArg (Datum.record · _) (recalledFields_eq_self fun datum member => ?_)
      obtain ⟨part, pair⟩ := mem_values (length_eq_of_names dataNames) member
      obtain ⟨shape, shapePair⟩ := mem_parts (length_eq_of_names names) (List.of_mem_zip pair).1
      exact ih _ shapePair (typed _ pair) (Shape.keepsAll_of_field (List.of_mem_zip shapePair).2 keeps)
  | _ =>
    cases admits
    rfl

end Ty

namespace Shape

variable {shape : Shape} {cursor after : Cursor} {value : Value}

/-- What is decoded by a shape can be encoded again, and in the bytes that have been read exactly
if everything can be recalled of the datum that they hold. -/
theorem reencodes_iff (read : decode shape cursor = .ok value after) :
    ∃ datum consumed bytes, shape.ty.decode cursor = .ok datum after ∧ datum.image = value ∧
      cursor.rest = consumed ++ after.rest ∧ after.position = cursor.position + consumed.length ∧
      (encode shape value).toBytes = .ok bytes ∧ (bytes = consumed ↔ datum.recalled = datum) ∧
      (shape.keepsAll = true → bytes = consumed) := by
  obtain ⟨datum, readTy, rfl⟩ := ((shaped_ty shape).follows []).of_ok read
  have admits : Ty.Admits Ty.anyNumber [] shape.ty datum := (shaped_ty shape).admits_of_decode readTy
  obtain ⟨whole, start, moved⟩ := Ty.canonical_decodeIn shape.ty (List.forall_mem_nil _) _ _ _ readTy
  obtain ⟨encoded, -, same⟩ := datum.tightens_recalled whole
  rw [← (shaped_ty shape).encode_image admits] at encoded same
  have back (recalled : datum.recalled = datum) : (encode shape datum.image).bytes = datum.encode.bytes := by
    rw [(shaped_ty shape).encode_image admits, recalled]
  exact ⟨datum, datum.encode.bytes, (encode shape datum.image).bytes, readTy, rfl, start, moved,
    Encoding.toBytes_eq_ok.mpr ⟨encoded, rfl⟩, ⟨same, back⟩,
    fun keeps => back ((shaped_ty shape).recalled_eq_self admits keeps)⟩

theorem reencodes_iff_of_nested :
    let shape : Shape := .record [("level", .optional (.optional (.int .u8))), ("at", .float .f32)]
    let value : Value := .record [("level", .uint 7), ("at", .float 0x3ff8000000000000#64)]
    let bytes : Bytes := [1, 1, 7, 63, 192, 0, 0]
    decode shape ⟨bytes ++ [255], 40⟩ = .ok value ⟨[255], 47⟩ ∧ (encode shape value).toBytes = .ok bytes := by
  intro shape value bytes
  have read : decode shape ⟨bytes ++ [255], 40⟩ = .ok value ⟨[255], 47⟩ := by
    simp only [shape, value, bytes]
    cbv
  have readTy : shape.ty.decode ⟨bytes ++ [255], 40⟩ =
      .ok (.record [("level", .present (.present (.int .u8 7))), ("at", .float .f32 0x3fc00000#32)] [])
        ⟨[255], 47⟩ := by
    simp only [shape, bytes]
    cbv
  obtain ⟨datum, consumed, again, found, -, start, -, encoded, same, -⟩ := reencodes_iff read
  cases found.symm.trans readTy
  cases List.append_cancel_right start
  exact ⟨read, same.mpr rfl ▸ encoded⟩

/-- An option that holds an absent one is encoded again as absent, in fewer bytes, and a signalling
NaN as a quiet one. -/
theorem not_reencoded :
    (decode (.optional (.optional (.int .u8))) ⟨[1, 0], 0⟩ = .ok .null ⟨[], 2⟩ ∧
      (encode (.optional (.optional (.int .u8))) .null).toBytes = .ok [0]) ∧
    ∃ bits, decode (.float .f32) ⟨[127, 128, 0, 1], 0⟩ = .ok (.float bits) ⟨[], 4⟩ ∧
      (encode (.float .f32) (.float bits)).toBytes = .ok [127, 192, 0, 1] :=
  ⟨⟨rfl, rfl⟩, _, rfl, rfl⟩

end Shape

end AppendLog
