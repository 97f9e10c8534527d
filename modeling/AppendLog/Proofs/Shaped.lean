import AppendLog.Proofs.Canonical
import AppendLog.Proofs.NormalForm

/-! Types that have a shape.

A type without references is laid out by a shape: a record by those of its stored fields, a box
by that of what is in it, and what takes no bytes by a void shape. The image of a datum is what
it is as a value whose type is not known. What is decoded as data of such a type is of the type,
and whether it takes any bytes can be read off the shape.
-/

set_option autoImplicit false

namespace AppendLog

namespace Datum

mutual

/-- The datum without its type. Options leave no trace but for what is absent. -/
def image : Datum → Value
  | bool value => .bool value
  | int kind value => if kind.isSigned then .int value else .uint value.toNat
  | float kind bits => .float (kind.widen bits)
  | complex kind re im => .complex (kind.widen re) (kind.widen im)
  | text value => .text value
  | unit | transient _ | tuple _ => .unit
  | list items => .seq (imageAll items)
  | absent => .null
  | present value => value.image
  | record fields _ => .record (imageFields fields)

def imageAll : List Datum → List Value
  | [] => []
  | datum :: rest => datum.image :: imageAll rest

def imageFields : List (String × Datum) → List (String × Value)
  | [] => []
  | (name, datum) :: rest => (name, datum.image) :: imageFields rest

end

theorem imageAll_eq (data : List Datum) : imageAll data = data.map image := by
  induction data with
  | nil => rfl
  | cons head rest ih => rw [imageAll, ih, List.map_cons]

theorem image_list (items : List Datum) : (list items).image = .seq (items.map image) := by
  rw [image, imageAll_eq]

end Datum

namespace Ty

/-- Data of the type are laid out by the shape. -/
inductive Shaped : Ty → Shape → Prop where
  | bool : Shaped .bool .bool
  | int (kind : IntKind) : Shaped (.int kind) (.int kind)
  | float (kind : FloatKind) : Shaped (.float kind) (.float kind)
  | complex (kind : FloatKind) : Shaped (.complex kind) (.complex kind)
  | text : Shaped .text .text
  | unit (kind : VoidKind) : Shaped .unit (.void kind)
  | transient (ty : Ty) (kind : VoidKind) : Shaped (.transient ty) (.void kind)
  | tuple {parts : List Ty} {kind : VoidKind} : (∀ part ∈ parts, Shaped part (.void kind)) →
      Shaped (.tuple parts) (.void kind)
  | seq {item : Ty} {shape : Shape} : Shaped item shape → Shaped (.seq item) (.seq shape)
  | array {item : Ty} {shape : Shape} (length : Nat) : Shaped item shape →
      Shaped (.array item length) (.array shape length)
  | option {item : Ty} {shape : Shape} : Shaped item shape → Shaped (.option item) (.optional shape)
  | boxed {ty : Ty} {shape : Shape} : Shaped ty shape → Shaped (.boxed ty) shape
  | record {fields : List (String × Ty)} {shapes : List (String × Shape)} (skipped : List (String × Ty))
      (own : Datum) : fields.map Prod.fst = shapes.map Prod.fst →
      (∀ pair ∈ (fields.map Prod.snd).zip (shapes.map Prod.snd), Shaped pair.1 pair.2) →
      Shaped (.record fields skipped own) (.record shapes)

end Ty

namespace Shape

mutual

def ty : Shape → Ty
  | bool => .bool
  | int kind => .int kind
  | float kind => .float kind
  | complex kind => .complex kind
  | text => .text
  | seq item => .seq item.ty
  | array item length => .array item.ty length
  | optional item => .option item.ty
  | record fields => .derived [] (tyFields fields) []
  | void _ => .unit

def tyFields : List (String × Shape) → List (String × Ty)
  | [] => []
  | (name, shape) :: rest => (name, shape.ty) :: tyFields rest

end

mutual

theorem shaped_ty : ∀ shape : Shape, shape.ty.Shaped shape
  | bool => .bool
  | int kind => .int kind
  | float kind => .float kind
  | complex kind => .complex kind
  | text => .text
  | seq item => .seq (shaped_ty item)
  | array item length => .array length (shaped_ty item)
  | optional item => .option (shaped_ty item)
  | record fields => .record [] _ (shaped_tyFields fields).1 (shaped_tyFields fields).2
  | void kind => .unit kind

theorem shaped_tyFields : ∀ fields : List (String × Shape),
    (tyFields fields).map Prod.fst = fields.map Prod.fst ∧
      ∀ pair ∈ ((tyFields fields).map Prod.snd).zip (fields.map Prod.snd), Ty.Shaped pair.1 pair.2
  | [] => ⟨rfl, List.forall_mem_nil _⟩
  | (name, shape) :: rest => ⟨congrArg (name :: ·) (shaped_tyFields rest).1,
      List.forall_mem_cons.mpr ⟨shaped_ty shape, (shaped_tyFields rest).2⟩⟩

end

end Shape

namespace Ty

open Decoding

variable {ty item : Ty} {shape : Shape} {scope : Scope} {datum : Datum} {fields : List (String × Ty)}
  {shapes : List (String × Shape)} {cursor after : Cursor}

/-! Decoders that are independent of the records around them -/

theorem decodeParts_congr {outer : List (Decoding Datum)} {parts : List Ty}
    (each : ∀ part ∈ parts, decodeIn scope outer part = decodeIn scope [] part) :
    decodeParts scope outer parts = decodeParts scope [] parts := by
  induction parts with
  | nil => rfl
  | cons part parts ih =>
    obtain ⟨first, others⟩ := List.forall_mem_cons.mp each
    rw [decodeParts, decodeParts, first, ih others]

theorem decodeFields_congr {outer : List (Decoding Datum)}
    (each : ∀ part ∈ fields.map Prod.snd, decodeIn scope outer part = decodeIn scope [] part) :
    decodeFields scope outer fields = decodeFields scope [] fields := by
  rw [decodeFields_eq, decodeFields_eq, decodeParts_congr each]

theorem recursive_const {α : Type} (body : Decoding α) : Decoding.recursive (fun _ => body) = body := by
  funext cursor
  rw [Decoding.recursive]

/-- What is stored of types with a shape refers to no record. -/
theorem Shaped.decodeIn_eq (shaped : Shaped ty shape) (scope : Scope) (outer : List (Decoding Datum)) :
    decodeIn scope outer ty = decodeIn scope [] ty := by
  induction shaped generalizing scope outer with
  | tuple _ ih => rw [decodeIn, decodeIn, decodeParts_congr fun part member => ih part member scope outer]
  | seq _ ih => rw [decodeIn, decodeIn, ih]
  | array _ _ ih => rw [decodeIn, decodeIn, ih]
  | option _ ih => rw [decodeIn, decodeIn, ih]
  | boxed _ ih => rw [decodeIn, decodeIn, ih]
  | record skipped own names _ ih =>
    have inside (scope : Scope) (outer : List (Decoding Datum)) :
        decodeFields scope outer _ = decodeFields scope [] _ :=
      decodeFields_congr fun part member => by
        obtain ⟨shape, pair⟩ := mem_parts (length_eq_of_names names) member
        exact ih _ pair scope outer
    simp only [decodeIn, inside]
    rfl
  | _ => rfl

theorem Shaped.decodeIn_record {skipped : List (String × Ty)} {own : Datum}
    (names : fields.map Prod.fst = shapes.map Prod.fst)
    (shaped : ∀ pair ∈ (fields.map Prod.snd).zip (shapes.map Prod.snd), Shaped pair.1 pair.2) (scope : Scope) :
    let inside : Scope := ⟨fields, skipped, own⟩ :: scope
    decodeIn scope [] (.record fields skipped own) =
      do return .record (← decodeFields inside [] fields) (defaultFields inside skipped) := by
  intro inside
  have apart (self : Decoding Datum) : decodeFields inside [self] fields = decodeFields inside [] fields :=
    decodeFields_congr fun part member => by
      obtain ⟨shape, pair⟩ := mem_parts (length_eq_of_names names) member
      exact (shaped _ pair).decodeIn_eq _ _
  simp only [decodeIn, inside, apart, recursive_const]

/-! What is decoded -/

theorem reads_of_decode {kept : Datum → Prop}
    (each : ∀ {cursor datum after}, decodeIn scope [] item cursor = .ok datum after → kept datum) :
    (decodeIn scope [] item).Reads (fun datum => datum.encode.bytes) kept := fun _ _ _ read =>
  ⟨each read, (canonical_decodeIn item (List.forall_mem_nil _) _ _ _ read).2⟩

theorem admits_of_decodeParts {parts : List Ty} {data : List Datum}
    (each : ∀ part ∈ parts, ∀ {cursor datum after}, decodeIn scope [] part cursor = .ok datum after →
      Admits anyNumber scope part datum)
    (read : decodeParts scope [] parts cursor = .ok data after) :
    parts.length = data.length ∧ ∀ pair ∈ parts.zip data, Admits anyNumber scope pair.1 pair.2 := by
  induction parts generalizing data cursor after with
  | nil =>
    cases read
    exact ⟨rfl, List.forall_mem_nil _⟩
  | cons part parts ih =>
    obtain ⟨first, others⟩ := List.forall_mem_cons.mp each
    obtain ⟨datum, middle, readFirst, read⟩ := bind_eq_ok.mp read
    obtain ⟨rest, readRest, rfl⟩ := map_eq_ok.mp read
    obtain ⟨lengths, admits⟩ := ih others readRest
    exact ⟨congrArg (· + 1) lengths, List.forall_mem_cons.mpr ⟨first readFirst, admits⟩⟩

/-- What is decoded as data of a type is of the type. -/
theorem Shaped.admits_of_decode (shaped : Shaped ty shape)
    (read : decodeIn scope [] ty cursor = .ok datum after) :
    Admits anyNumber scope ty datum := by
  induction shaped generalizing scope cursor datum after with
  | bool =>
    obtain ⟨value, -, rfl⟩ := map_eq_ok.mp read
    exact .bool value
  | int kind =>
    obtain ⟨value, number, rfl⟩ := map_eq_ok.mp read
    exact .int ((inverts_int kind).reads _ _ _ number).1
  | float kind =>
    obtain ⟨bits, -, rfl⟩ := map_eq_ok.mp read
    exact .float kind bits
  | complex kind =>
    obtain ⟨re, _, -, second⟩ := bind_eq_ok.mp read
    obtain ⟨im, -, rfl⟩ := map_eq_ok.mp second
    exact .complex kind re im
  | text =>
    obtain ⟨value, -, rfl⟩ := map_eq_ok.mp read
    exact .text value
  | unit =>
    cases read
    exact .unit
  | transient ty =>
    cases read
    exact .transient ty _
  | tuple _ ih =>
    obtain ⟨data, inside, rfl⟩ := map_eq_ok.mp read
    obtain ⟨lengths, admits⟩ := admits_of_decodeParts (fun part member => ih part member) inside
    exact .tuple lengths admits
  | seq _ ih =>
    obtain ⟨items, counted, rfl⟩ := map_eq_ok.mp read
    obtain ⟨count, middle, -, inside⟩ := bind_eq_ok.mp counted
    obtain ⟨_, rfl, -, admits, -⟩ := (reads_of_decode ih).of_repeated (repeated_of_items inside)
    exact .seq trivial admits
  | array length _ ih =>
    obtain ⟨items, counted, rfl⟩ := map_eq_ok.mp read
    obtain ⟨count, middle, -, inside⟩ := bind_eq_ok.mp counted
    split at inside
    · obtain ⟨_, rfl, lengths, admits, -⟩ := (reads_of_decode ih).of_repeated inside
      exact .array lengths admits
    · cases inside
  | option _ ih =>
    obtain ⟨present, middle, -, inside⟩ := bind_eq_ok.mp read
    cases present with
    | false =>
      cases inside
      exact .absent _
    | true =>
      obtain ⟨value, item, rfl⟩ := map_eq_ok.mp inside
      exact .present (ih item)
  | boxed _ ih => exact .boxed (ih read)
  | @record fields shapes skipped own names shaped ih =>
    rw [decodeIn_record names shaped, decodeFields_eq] at read
    obtain ⟨entries, inside, rfl⟩ := map_eq_ok.mp read
    obtain ⟨data, row, rfl⟩ := map_eq_ok.mp inside
    let inside : Scope := ⟨fields, skipped, own⟩ :: scope
    have each : ∀ part ∈ fields.map Prod.snd, ∀ {cursor datum after},
        decodeIn inside [] part cursor = .ok datum after → Admits anyNumber inside part datum := by
      intro part member
      obtain ⟨shape, pair⟩ := mem_parts (length_eq_of_names names) member
      exact ih _ pair
    obtain ⟨lengths, admits⟩ := admits_of_decodeParts each row
    have short : (fields.map Prod.fst).length = data.length := by simpa using lengths
    refine .record (List.map_fst_zip (Nat.le_of_eq short)).symm ?_
    rw [List.map_snd_zip (Nat.le_of_eq short.symm)]
    exact admits

theorem encodeAll_eq_empty_iff (names : fields.map Prod.fst = shapes.map Prod.fst) {data : List Datum}
    (lengths : (fields.map Prod.snd).length = data.length)
    (typed : ∀ pair ∈ (fields.map Prod.snd).zip data, Admits anyNumber scope pair.1 pair.2)
    (each : ∀ pair ∈ (fields.map Prod.snd).zip (shapes.map Prod.snd), ∀ {datum},
      Admits anyNumber scope pair.1 datum → (datum.encode = .empty ↔ pair.2.takesNoBytes = true)) :
    Datum.encodeAll data = .empty ↔ Shape.allTakeNoBytes shapes = true := by
  induction fields, shapes, names using sameNames_induction generalizing data with
  | nil =>
    cases List.length_eq_zero_iff.mp lengths.symm
    exact iff_of_true rfl rfl
  | cons name ty shape fields shapes names ih =>
    cases data with
    | nil => cases lengths
    | cons datum data =>
      obtain ⟨first, others⟩ := List.forall_mem_cons.mp each
      obtain ⟨admits, typed⟩ := List.forall_mem_cons.mp typed
      rw [Datum.encodeAll, Encoding.append_eq_empty, first admits, ih (Nat.succ.inj lengths) typed others,
        Shape.allTakeNoBytes, Bool.and_eq_true]

/-- Whether data take any bytes can be read off the shape. -/
theorem Shaped.encode_eq_empty (shaped : Shaped ty shape) (admits : Admits anyNumber scope ty datum) :
    datum.encode = .empty ↔ shape.takesNoBytes = true := by
  induction shaped generalizing scope datum with
  | bool =>
    cases admits
    exact iff_of_false (Encoding.bool_ne_empty _) Bool.false_ne_true
  | int kind =>
    cases admits
    exact iff_of_false (Encoding.int_ne_empty kind _) Bool.false_ne_true
  | float kind =>
    cases admits
    exact iff_of_false (Encoding.float_ne_empty kind _) Bool.false_ne_true
  | complex kind =>
    cases admits
    exact iff_of_false (Encoding.append_ne_empty (Encoding.float_ne_empty kind _)) Bool.false_ne_true
  | text | seq | array =>
    cases admits
    exact iff_of_false (Encoding.append_ne_empty (Encoding.length_ne_empty _)) Bool.false_ne_true
  | unit | transient =>
    cases admits
    exact iff_of_true rfl rfl
  | tuple _ ih =>
    cases admits with
    | tuple lengths typed =>
      exact iff_of_true (encodeAll_eq_empty lengths typed fun part member =>
        takesNoBytes_iff.mpr fun _ admits => (ih part member admits).mpr rfl) rfl
  | option _ ih =>
    refine iff_of_false ?_ Bool.false_ne_true
    cases admits with
    | absent => exact Encoding.bool_ne_empty false
    | present => exact Encoding.append_ne_empty (Encoding.bool_ne_empty true)
  | boxed _ ih =>
    cases admits with
    | boxed admits => exact ih admits
  | record skipped own names _ ih =>
    cases admits with
    | record dataNames typed =>
      rw [Datum.encode, Datum.encodeFields_eq, Shape.takesNoBytes]
      exact encodeAll_eq_empty_iff names (length_eq_of_names dataNames) typed fun pair member => ih pair member

theorem Shaped.reads (shaped : Shaped ty shape) (scope : Scope) :
    (decodeIn scope [] ty).Reads (fun datum => datum.encode.bytes)
      fun datum => datum.encode.bytes = [] ↔ shape.takesNoBytes = true := by
  intro cursor datum after read
  obtain ⟨whole, spelled⟩ := canonical_decodeIn ty (List.forall_mem_nil _) _ _ _ read
  have admits : Admits anyNumber scope ty datum := shaped.admits_of_decode read
  refine ⟨?_, spelled⟩
  rw [← shaped.encode_eq_empty admits, Encoding.eq_empty_iff, and_iff_right whole]

end Ty

end AppendLog
