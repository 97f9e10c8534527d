import AppendLog.Proofs.Encodings
import AppendLog.Ty.Basic

/-! Data of a type.

References are resolved in a scope, which holds the records around a type, innermost first.
A datum is of a type by a derivation that follows the constructors of the type, and the
derivation can be asked to keep to a bound on the number of items of every stored sequence.
Two things are found by induction on it: whether data of a type take any bytes does not
depend on the datum, and a record that cannot do without a record of its own type has no data.

Of data with defaults for what is not stored, `reset`, the same is encoded, and data fail to be
encoded by nothing but the lengths in them.
-/

set_option autoImplicit false

namespace AppendLog

/-- Induction on two lists of fields that have the same names. -/
@[elab_as_elim]
theorem sameNames_induction {α β : Type}
    {motive : (fields : List (String × α)) → (entries : List (String × β)) →
      fields.map Prod.fst = entries.map Prod.fst → Prop}
    (nil : motive [] [] rfl)
    (cons : ∀ name first second fields entries (names : fields.map Prod.fst = entries.map Prod.fst),
      motive fields entries names →
        motive ((name, first) :: fields) ((name, second) :: entries) (congrArg (name :: ·) names))
    (fields : List (String × α)) (entries : List (String × β))
    (names : fields.map Prod.fst = entries.map Prod.fst) : motive fields entries names := by
  induction fields generalizing entries with
  | nil =>
    cases List.map_eq_nil_iff.mp names.symm
    exact nil
  | cons field fields ih =>
    obtain ⟨name, first⟩ := field
    cases entries with
    | nil => cases names
    | cons entry entries =>
      obtain ⟨name', second⟩ := entry
      obtain ⟨same, rest⟩ := List.cons.inj names
      cases same
      exact cons name first second fields entries rest (ih entries rest)

namespace Ty

/-- How many items a stored sequence of items of a type may have. -/
abbrev Bound := Scope → Ty → Nat → Prop

/-- The datum is of the type, and all its stored sequences of variable length keep to the bound.
What is transient or skipped may be anything, and nothing is asked of the defaults in the type. -/
inductive Admits (bound : Bound) : Scope → Ty → Datum → Prop where
  | bool {scope : Scope} (value : Bool) : Admits bound scope .bool (.bool value)
  | int {scope : Scope} {kind : IntKind} {value : Int} : kind.Holds value →
      Admits bound scope (.int kind) (.int kind value)
  | float {scope : Scope} (kind : FloatKind) (bits : kind.Bits) :
      Admits bound scope (.float kind) (.float kind bits)
  | complex {scope : Scope} (kind : FloatKind) (re im : kind.Bits) :
      Admits bound scope (.complex kind) (.complex kind re im)
  | text {scope : Scope} (value : String) : Admits bound scope .text (.text value)
  | unit {scope : Scope} : Admits bound scope .unit .unit
  | transient {scope : Scope} (ty : Ty) (value : Datum) :
      Admits bound scope (.transient ty) (.transient value)
  | seq {scope : Scope} {item : Ty} {items : List Datum} : bound scope item items.length →
      (∀ datum ∈ items, Admits bound scope item datum) → Admits bound scope (.seq item) (.list items)
  | array {scope : Scope} {item : Ty} {length : Nat} {items : List Datum} : items.length = length →
      (∀ datum ∈ items, Admits bound scope item datum) →
      Admits bound scope (.array item length) (.list items)
  | absent {scope : Scope} (item : Ty) : Admits bound scope (.option item) .absent
  | present {scope : Scope} {item : Ty} {value : Datum} : Admits bound scope item value →
      Admits bound scope (.option item) (.present value)
  | boxed {scope : Scope} {ty : Ty} {datum : Datum} : Admits bound scope ty datum →
      Admits bound scope (.boxed ty) datum
  | tuple {scope : Scope} {parts : List Ty} {data : List Datum} : parts.length = data.length →
      (∀ pair ∈ parts.zip data, Admits bound scope pair.1 pair.2) →
      Admits bound scope (.tuple parts) (.tuple data)
  | record {scope : Scope} {fields skipped : List (String × Ty)} {own : Datum}
      {data rest : List (String × Datum)} : fields.map Prod.fst = data.map Prod.fst →
      (∀ pair ∈ (fields.map Prod.snd).zip (data.map Prod.snd),
        Admits bound (⟨fields, skipped, own⟩ :: scope) pair.1 pair.2) →
      Admits bound scope (.record fields skipped own) (.record data rest)
  | ref {scope : Scope} {up : Nat} {layout : Layout} {datum : Datum} : scope[up]? = some layout →
      Admits bound (scope.drop (up + 1)) layout.ty datum → Admits bound scope (.ref up) datum

def anyNumber : Bound := fun _ _ _ => True

def TakesNoBytes (scope : Scope) (ty : Ty) : Prop :=
  ∀ datum, Admits anyNumber scope ty datum → datum.toBytes = .ok []

/-- Sequences are limited if their items take no bytes. -/
def emptyItemsLimited : Bound := fun scope item count => TakesNoBytes scope item → count ≤ emptyItemLimit

variable {bound other : Bound} {scope : Scope} {ty : Ty} {datum : Datum}

theorem Admits.unbounded (admits : Admits bound scope ty datum) : Admits anyNumber scope ty datum := by
  induction admits with
  | bool value => exact .bool value
  | int holds => exact .int holds
  | float kind bits => exact .float kind bits
  | complex kind re im => exact .complex kind re im
  | text value => exact .text value
  | unit => exact .unit
  | transient ty value => exact .transient ty value
  | seq _ _ ih => exact .seq trivial ih
  | array counted _ ih => exact .array counted ih
  | absent item => exact .absent item
  | present _ ih => exact .present ih
  | boxed _ ih => exact .boxed ih
  | tuple lengths _ ih => exact .tuple lengths ih
  | record names _ ih => exact .record names ih
  | ref found _ ih => exact .ref found ih

theorem mem_parts {α β : Type} {parts : List α} {data : List β} (lengths : parts.length = data.length)
    {part : α} (member : part ∈ parts) : ∃ value, (part, value) ∈ parts.zip data := by
  rw [← List.map_fst_zip (Nat.le_of_eq lengths), List.mem_map] at member
  obtain ⟨⟨_, value⟩, pair, rfl⟩ := member
  exact ⟨value, pair⟩

theorem mem_values {α β : Type} {parts : List α} {data : List β} (lengths : parts.length = data.length)
    {value : β} (member : value ∈ data) : ∃ part, (part, value) ∈ parts.zip data := by
  rw [← List.map_snd_zip (Nat.le_of_eq lengths.symm), List.mem_map] at member
  obtain ⟨⟨part, _⟩, pair, rfl⟩ := member
  exact ⟨part, pair⟩

theorem length_eq_of_names {α β : Type} {fields : List (String × α)} {data : List (String × β)}
    (names : fields.map Prod.fst = data.map Prod.fst) :
    (fields.map Prod.snd).length = (data.map Prod.snd).length := by
  simpa using congrArg List.length names

/-! Types of no bytes -/

theorem takesNoBytes_iff : TakesNoBytes scope ty ↔
    ∀ datum, Admits anyNumber scope ty datum → datum.encode = .empty := by
  simp only [TakesNoBytes, Datum.toBytes, Encoding.toBytes_eq_ok, Encoding.eq_empty_iff]

theorem encodeAll_eq_empty {parts : List Ty} {data : List Datum} (lengths : parts.length = data.length)
    (typed : ∀ pair ∈ parts.zip data, Admits anyNumber scope pair.1 pair.2)
    (nothing : ∀ part ∈ parts, TakesNoBytes scope part) : Datum.encodeAll data = .empty := by
  simp only [Datum.encodeAll_eq, Encoding.concat_eq_empty, List.forall_mem_map]
  intro value member
  obtain ⟨part, pair⟩ := mem_values lengths member
  exact takesNoBytes_iff.mp (nothing part (List.of_mem_zip pair).1) value (typed _ pair)

theorem takesNoBytes_of_parts {parts : List Ty} {data : List Datum} (lengths : parts.length = data.length)
    (each : ∀ pair ∈ parts.zip data, pair.2.encode = .empty → TakesNoBytes scope pair.1)
    (nothing : Datum.encodeAll data = .empty) : ∀ part ∈ parts, TakesNoBytes scope part := by
  simp only [Datum.encodeAll_eq, Encoding.concat_eq_empty, List.forall_mem_map] at nothing
  intro part member
  obtain ⟨value, pair⟩ := mem_parts lengths member
  exact each _ pair (nothing value (List.of_mem_zip pair).2)

/-- Whether data take any bytes depends on their type alone. -/
theorem Admits.takesNoBytes (admits : Admits anyNumber scope ty datum) (nothing : datum.encode = .empty) :
    TakesNoBytes scope ty := by
  induction admits with
  | bool value => exact absurd nothing (Encoding.bool_ne_empty value)
  | int => exact absurd nothing (Encoding.int_ne_empty _ _)
  | float kind bits => exact absurd nothing (Encoding.float_ne_empty kind bits)
  | complex kind re im => exact absurd nothing (Encoding.append_ne_empty (Encoding.float_ne_empty kind re))
  | text value => exact absurd nothing (Encoding.append_ne_empty (Encoding.length_ne_empty _))
  | unit =>
    rintro _ ⟨⟩
    rfl
  | transient ty value =>
    rintro _ ⟨⟩
    rfl
  | seq => exact absurd nothing (Encoding.append_ne_empty (Encoding.length_ne_empty _))
  | array => exact absurd nothing (Encoding.append_ne_empty (Encoding.length_ne_empty _))
  | absent item => exact absurd nothing (Encoding.bool_ne_empty false)
  | present => exact absurd nothing (Encoding.append_ne_empty (Encoding.bool_ne_empty true))
  | boxed _ ih =>
    intro other admits
    cases admits with
    | boxed admits => exact ih nothing _ admits
  | tuple lengths _ ih =>
    have nothing := takesNoBytes_of_parts lengths ih nothing
    rw [takesNoBytes_iff]
    intro other admits
    cases admits with
    | tuple lengths typed => exact encodeAll_eq_empty lengths typed nothing
  | record names _ ih =>
    rw [Datum.encode, Datum.encodeFields_eq] at nothing
    have nothing := takesNoBytes_of_parts (length_eq_of_names names) ih nothing
    rw [takesNoBytes_iff]
    intro other admits
    cases admits with
    | record names typed =>
      rw [Datum.encode, Datum.encodeFields_eq]
      exact encodeAll_eq_empty (length_eq_of_names names) typed nothing
  | ref found _ ih =>
    intro other admits
    cases admits with
    | ref foundOther admits =>
      cases found.symm.trans foundOther
      exact ih nothing _ admits

theorem Admits.bytes_eq_nil (admits : Admits anyNumber scope ty datum) (whole : datum.encode.error = none) :
    datum.encode.bytes = [] ↔ TakesNoBytes scope ty := by
  constructor
  · exact fun nothing => admits.takesNoBytes (Encoding.eq_empty_iff.mpr ⟨whole, nothing⟩)
  · exact fun nothing => (Encoding.eq_empty_iff.mp (takesNoBytes_iff.mp nothing _ admits)).2

/-! Records that need themselves -/

/-- Data of the type hold data of the record `up` records further out, with nothing in between that
could be absent. -/
inductive Needs : Nat → Ty → Prop where
  | ref (up : Nat) : Needs up (.ref up)
  | boxed {up : Nat} {ty : Ty} : Needs up ty → Needs up (.boxed ty)
  | tuple {up : Nat} {parts : List Ty} {part : Ty} : part ∈ parts → Needs up part →
      Needs up (.tuple parts)
  | record {up : Nat} {fields skipped : List (String × Ty)} {own : Datum} {ty : Ty} :
      ty ∈ fields.map Prod.snd → Needs (up + 1) ty → Needs up (.record fields skipped own)

theorem sizeOf_lt_of_field {data rest : List (String × Datum)} {value : Datum}
    (member : value ∈ data.map Prod.snd) : sizeOf value < sizeOf (Datum.record data rest) := by
  obtain ⟨⟨name, value⟩, field, rfl⟩ := List.mem_map.mp member
  have inside := List.sizeOf_lt_of_mem field
  simp only [Prod.mk.sizeOf_spec, Datum.record.sizeOf_spec] at inside ⊢
  omega

theorem Needs.descend {up : Nat} {layout : Layout} (needs : Needs up ty) (found : scope[up]? = some layout)
    (admits : Admits bound scope ty datum) :
    ∃ inner, Admits bound (scope.drop (up + 1)) layout.ty inner ∧ sizeOf inner ≤ sizeOf datum := by
  induction needs generalizing scope datum with
  | ref up =>
    cases admits with
    | ref foundToo admits =>
      cases found.symm.trans foundToo
      exact ⟨datum, admits, Nat.le_refl _⟩
  | boxed _ ih =>
    cases admits with
    | boxed admits => exact ih found admits
  | tuple member _ ih =>
    cases admits with
    | @tuple _ _ data lengths typed =>
      obtain ⟨value, pair⟩ := mem_parts lengths member
      obtain ⟨inner, innerAdmits, small⟩ := ih found (typed _ pair)
      have inside : sizeOf value < sizeOf data := List.sizeOf_lt_of_mem (List.of_mem_zip pair).2
      refine ⟨inner, innerAdmits, Nat.le_trans small ?_⟩
      simp only [Datum.tuple.sizeOf_spec]
      omega
  | record member _ ih =>
    cases admits with
    | record names typed =>
      obtain ⟨value, pair⟩ := mem_parts (length_eq_of_names names) member
      obtain ⟨inner, innerAdmits, small⟩ := ih found (typed _ pair)
      exact ⟨inner, innerAdmits,
        Nat.le_trans small (Nat.le_of_lt (sizeOf_lt_of_field (List.of_mem_zip pair).2))⟩

/-- A record of which there are data does not need itself. -/
theorem Admits.not_needs_self {fields skipped : List (String × Ty)} {own : Datum}
    (admits : Admits bound scope (.record fields skipped own) datum) {ty : Ty}
    (member : ty ∈ fields.map Prod.snd) : ¬ Needs 0 ty := by
  intro needs
  -- Each data of the record would hold smaller ones.
  induction size : sizeOf datum using Nat.strongRecOn generalizing datum with
  | _ n ih =>
    cases admits with
    | record names typed =>
      obtain ⟨value, pair⟩ := mem_parts (length_eq_of_names names) member
      obtain ⟨inner, innerAdmits, small⟩ := needs.descend rfl (typed _ pair)
      refine ih _ ?_ innerAdmits rfl
      rw [← size]
      exact Nat.lt_of_le_of_lt small (sizeOf_lt_of_field (List.of_mem_zip pair).2)

/-! Defaults -/

/-- All records that give their defaults to that of the type have ones of their own types. -/
inductive Defaulted (scope : Scope) : Ty → Prop where
  | bool : Defaulted scope .bool
  | int (kind : IntKind) : Defaulted scope (.int kind)
  | float (kind : FloatKind) : Defaulted scope (.float kind)
  | complex (kind : FloatKind) : Defaulted scope (.complex kind)
  | text : Defaulted scope .text
  | unit : Defaulted scope .unit
  | transient (ty : Ty) : Defaulted scope (.transient ty)
  | seq (item : Ty) : Defaulted scope (.seq item)
  | array {item : Ty} (length : Nat) : Defaulted scope item → Defaulted scope (.array item length)
  | option (item : Ty) : Defaulted scope (.option item)
  | boxed {ty : Ty} : Defaulted scope ty → Defaulted scope (.boxed ty)
  | tuple {parts : List Ty} : (∀ part ∈ parts, Defaulted scope part) → Defaulted scope (.tuple parts)
  | record {layout : Layout} : Admits anyNumber scope layout.ty layout.default → Defaulted scope layout.ty
  | ref {up : Nat} {layout : Layout} : scope[up]? = some layout →
      Admits anyNumber (scope.drop (up + 1)) layout.ty layout.default → Defaulted scope (.ref up)

theorem defaultParts_eq (scope : Scope) (parts : List Ty) :
    defaultParts scope parts = parts.map (default scope) := by
  induction parts with
  | nil => rfl
  | cons part parts ih => rw [defaultParts, ih, List.map_cons]

/-- What stands in for data of a type is of the type. -/
theorem Defaulted.admits_default (defaulted : Defaulted scope ty) :
    Admits anyNumber scope ty (ty.default scope) := by
  induction defaulted with
  | bool => exact .bool false
  | int kind => exact .int (by cases kind <;> decide)
  | float kind => exact .float kind 0
  | complex kind => exact .complex kind 0 0
  | text => exact .text ""
  | unit => exact .unit
  | transient ty => exact .transient ty _
  | seq item => exact .seq trivial (List.forall_mem_nil _)
  | array length _ ih =>
    refine .array List.length_replicate fun datum member => ?_
    rwa [(List.mem_replicate.mp member).2]
  | option item => exact .absent item
  | boxed _ ih => exact .boxed ih
  | tuple _ ih =>
    rw [default, defaultParts_eq]
    refine .tuple (by rw [List.length_map]) ?_
    rw [List.zip, List.zipWith_map_right, List.zipWith_self, List.forall_mem_map]
    exact ih
  | record own => exact own
  | ref found own =>
    rw [default, found]
    exact .ref found own

/-! What is stored of data -/

/-- The type that a type comes down to behind boxes and references, and where it stands. -/
def head : Scope → Ty → Scope × Ty
  | scope, boxed ty => head scope ty
  | scope, ref up =>
    match scope[up]? with
    | some layout => (scope.drop (up + 1), layout.ty)
    | none => (scope, ref up)
  | scope, ty => (scope, ty)

theorem head_ref {up : Nat} {layout : Layout} (found : scope[up]? = some layout) :
    head scope (ref up) = head (scope.drop (up + 1)) layout.ty := by
  simp only [head, found, Layout.ty]

end Ty

namespace Datum

open Ty (Scope Layout head)

mutual

/-- The datum with defaults for all that is not stored of it. -/
def reset (scope : Scope) (ty : Ty) (datum : Datum) : Datum :=
  match head scope ty, datum with
  | (scope, .transient ty), transient _ => transient (ty.default scope)
  | (scope, .seq item), list items => list (resetAll scope item items)
  | (scope, .array item _), list items => list (resetAll scope item items)
  | (scope, .option item), present value => present (reset scope item value)
  | (scope, .tuple parts), tuple data => tuple (resetParts scope parts data)
  | (scope, .record fields skipped own), record data _ =>
    let inside : Scope := ⟨fields, skipped, own⟩ :: scope
    record (resetFields inside fields data) (Ty.defaultFields inside skipped)
  | _, datum => datum
termination_by structural datum

def resetAll (scope : Scope) (item : Ty) : List Datum → List Datum
  | [] => []
  | datum :: rest => reset scope item datum :: resetAll scope item rest
termination_by structural data => data

def resetParts (scope : Scope) (parts : List Ty) (data : List Datum) : List Datum :=
  match parts, data with
  | ty :: parts, datum :: rest => reset scope ty datum :: resetParts scope parts rest
  | _, data => data
termination_by structural data

def resetFields (scope : Scope) (fields : List (String × Ty)) (data : List (String × Datum)) :
    List (String × Datum) :=
  match fields, data with
  | (_, ty) :: fields, (name, datum) :: rest =>
    (name, reset scope ty datum) :: resetFields scope fields rest
  | _, data => data
termination_by structural data

end

theorem reset_congr {scope other : Scope} {ty same : Ty} (heads : head scope ty = head other same)
    (datum : Datum) : reset scope ty datum = reset other same datum := by
  unfold reset
  rw [heads]

theorem resetAll_eq (scope : Scope) (item : Ty) (items : List Datum) :
    resetAll scope item items = items.map (reset scope item) := by
  induction items with
  | nil => rfl
  | cons head rest ih => rw [resetAll, ih, List.map_cons]

theorem resetFields_eq {scope : Scope} {fields : List (String × Ty)} {data : List (String × Datum)}
    (names : fields.map Prod.fst = data.map Prod.fst) : resetFields scope fields data =
      (fields.map Prod.fst).zip (resetParts scope (fields.map Prod.snd) (data.map Prod.snd)) := by
  induction fields, data, names using sameNames_induction with
  | nil => rfl
  | cons name ty datum fields data names ih =>
    simp only [resetFields, resetParts, List.map_cons, List.zip_cons_cons, ih]

theorem reset_boxed (scope : Scope) (ty : Ty) (datum : Datum) :
    datum.reset scope (.boxed ty) = datum.reset scope ty :=
  reset_congr (show head scope (.boxed ty) = head scope ty from rfl) datum

theorem reset_ref {scope : Scope} {up : Nat} {layout : Layout} (found : scope[up]? = some layout)
    (datum : Datum) : datum.reset scope (.ref up) = datum.reset (scope.drop (up + 1)) layout.ty :=
  reset_congr (Ty.head_ref found) datum

theorem reset_seq (scope : Scope) (item : Ty) (items : List Datum) :
    (list items).reset scope (.seq item) = list (items.map (reset scope item)) := by
  rw [← resetAll_eq]
  rfl

theorem reset_array (scope : Scope) (item : Ty) (length : Nat) (items : List Datum) :
    (list items).reset scope (.array item length) = list (items.map (reset scope item)) := by
  rw [← resetAll_eq]
  rfl

theorem reset_record {scope : Scope} {fields skipped : List (String × Ty)} {own : Datum}
    {data rest : List (String × Datum)} (names : fields.map Prod.fst = data.map Prod.fst) :
    let inside : Scope := ⟨fields, skipped, own⟩ :: scope
    (record data rest).reset scope (.record fields skipped own) =
      record ((fields.map Prod.fst).zip (resetParts inside (fields.map Prod.snd) (data.map Prod.snd)))
        (Ty.defaultFields inside skipped) := by
  intro inside
  rw [← resetFields_eq names]
  rfl

mutual

theorem encode_reset (scope : Scope) (ty : Ty) (datum : Datum) :
    (datum.reset scope ty).encode = datum.encode := by
  unfold reset
  split
  · rfl
  · rw [encode, encode, encodeAll_resetAll, resetAll_eq, List.length_map]
  · rw [encode, encode, encodeAll_resetAll, resetAll_eq, List.length_map]
  · rw [encode, encode, encode_reset]
  · rw [encode, encode, encodeAll_resetParts]
  · rw [encode, encode, encodeFields_resetFields]
  · rfl
termination_by sizeOf datum

theorem encodeAll_resetAll (scope : Scope) (item : Ty) (items : List Datum) :
    encodeAll (resetAll scope item items) = encodeAll items := by
  match items with
  | [] => rfl
  | datum :: rest => rw [resetAll, encodeAll, encodeAll, encode_reset, encodeAll_resetAll]
termination_by sizeOf items

theorem encodeAll_resetParts (scope : Scope) (parts : List Ty) (data : List Datum) :
    encodeAll (resetParts scope parts data) = encodeAll data := by
  match parts, data with
  | [], [] | [], _ :: _ | _ :: _, [] => rfl
  | ty :: parts, datum :: rest =>
    rw [resetParts, encodeAll, encodeAll, encode_reset, encodeAll_resetParts]
termination_by sizeOf data

theorem encodeFields_resetFields (scope : Scope) (fields : List (String × Ty))
    (data : List (String × Datum)) : encodeFields (resetFields scope fields data) = encodeFields data := by
  match fields, data with
  | [], [] | [], _ :: _ | _ :: _, [] => rfl
  | (_, ty) :: fields, (name, datum) :: rest =>
    rw [resetFields, encodeFields, encodeFields, encode_reset, encodeFields_resetFields]
termination_by sizeOf data

end

mutual

def lengths : Datum → List Nat
  | text value => [(Text.bytes value).length]
  | list items => items.length :: lengthsAll items
  | present value => value.lengths
  | tuple parts => lengthsAll parts
  | record fields _ => lengthsFields fields
  | _ => []

def lengthsAll : List Datum → List Nat
  | [] => []
  | datum :: rest => datum.lengths ++ lengthsAll rest

def lengthsFields : List (String × Datum) → List Nat
  | [] => []
  | (_, datum) :: rest => datum.lengths ++ lengthsFields rest

end

def overflow (lengths : List Nat) : Option CodecError :=
  (lengths.find? (256 ^ lengthWidth ≤ ·)).map .lengthOverflow

theorem overflow_eq_none {lengths : List Nat} :
    overflow lengths = none ↔ ∀ n ∈ lengths, n < 256 ^ lengthWidth := by
  simp [overflow]

theorem overflow_eq_some {lengths : List Nat} {error : CodecError} (found : overflow lengths = some error) :
    ∃ n ∈ lengths, 256 ^ lengthWidth ≤ n ∧ error = .lengthOverflow n := by
  obtain ⟨n, first, rfl⟩ := Option.map_eq_some_iff.mp found
  exact ⟨n, List.mem_of_find?_eq_some first, by simpa using List.find?_some first, rfl⟩

theorem overflow_append (first second : List Nat) :
    overflow (first ++ second) = (overflow first).or (overflow second) := by
  rw [overflow, List.find?_append, Option.map_or]
  rfl

theorem overflow_length (n : Nat) : (Encoding.length n).error = overflow [n] := by
  rw [Encoding.length, overflow, List.find?_singleton]
  split
  · case isTrue fits => rw [if_neg (by simpa using fits)]; rfl
  · case isFalse fits => rw [if_pos (by simpa using fits)]; rfl

mutual

/-- Data fail to be encoded by their lengths only, and by the first that is too large. -/
theorem error_encode : ∀ datum : Datum, datum.encode.error = overflow datum.lengths
  | bool _ | int _ _ | float _ _ | complex _ _ _ | unit | transient _ | absent => rfl
  | text value => by
    rw [encode, Encoding.text, Encoding.error_append, overflow_length]
    exact Option.or_none
  | list items => by
    rw [encode, Encoding.error_append, overflow_length, error_encodeAll items, ← overflow_append]
    rfl
  | present value => by
    rw [encode, Encoding.error_append_of_whole rfl, error_encode value]
    rfl
  | tuple parts => error_encodeAll parts
  | record fields _ => error_encodeFields fields

theorem error_encodeAll : ∀ data : List Datum, (encodeAll data).error = overflow (lengthsAll data)
  | [] => rfl
  | datum :: rest => by
    rw [encodeAll, Encoding.error_append, error_encode datum, error_encodeAll rest, ← overflow_append]
    rfl

theorem error_encodeFields : ∀ fields : List (String × Datum),
    (encodeFields fields).error = overflow (lengthsFields fields)
  | [] => rfl
  | (_, datum) :: rest => by
    rw [encodeFields, Encoding.error_append, error_encode datum, error_encodeFields rest, ← overflow_append]
    rfl

end

end Datum

end AppendLog
