import AppendLog.Proofs.WireForm

/-! The decoders of sequences.

Items of a type are read in three ways: into a sequence of the length that the input claims, into an
array of a known length, and over items that are there already. The last two do the same reading, and
differ in what is left of one that fails: `FailsOver` says which items have been replaced by then. A
sequence is limited by its first item and by the bytes that are left. As data of a type all take bytes
or all take none, this is in the way of nothing but items that take none: `sequence_decoders_agree`.
-/

set_option autoImplicit false

namespace AppendLog

namespace Decoding

variable {α β : Type} {item : Decoding α} {cursor next last stop : Cursor} {old done items left : List α}
  {count : Nat} {error : CodecError}

/-! Reading over existing items -/

def withoutSlots : Except CodecError Unit × List α × Cursor → EStateM.Result CodecError Cursor (List α)
  | (.ok _, items, stop) => .ok items stop
  | (.error error, _, stop) => .error error stop

theorem withoutSlots_eq_ok {result : Except CodecError Unit × List α × Cursor} :
    withoutSlots result = .ok items stop ↔ result = (.ok (), items, stop) := by
  obtain ⟨_ | _, _, _⟩ := result <;> simp [withoutSlots]

theorem withoutSlots_eq_error {result : Except CodecError Unit × List α × Cursor} :
    withoutSlots result = .error error stop ↔ ∃ left, result = (.error error, left, stop) := by
  obtain ⟨_ | _, _, _⟩ := result <;> simp [withoutSlots]

theorem withoutSlots_overwrite (item : Decoding α) (old done : List α) (cursor : Cursor) :
    withoutSlots (overwrite item old done cursor) = repeated item old.length done cursor := by
  induction old generalizing done cursor with
  | nil => rfl
  | cons head tail ih =>
    simp only [overwrite, repeated, List.length_cons]
    cases item cursor with
    | ok value next => exact ih (value :: done) next
    | error error stop => rfl

theorem withoutSlots_sliceInto (item : Decoding α) (old : List α) (cursor : Cursor) :
    withoutSlots (sliceInto item old cursor) = array item old.length cursor := by
  unfold sliceInto array
  cases ran : length cursor with
  | error error stop =>
    rw [bind_of_error ran]
    rfl
  | ok found next =>
    rw [bind_of_ok ran]
    dsimp only
    split
    · exact withoutSlots_overwrite item old [] next
    · rfl

theorem repeated_eq_error (failed : repeated item count done cursor = .error error stop) :
    ∃ k < count, ∃ items last, repeated item k done cursor = .ok items last ∧
      item last = .error error stop := by
  induction count generalizing done cursor with
  | zero => cases failed
  | succ count ih =>
    simp only [repeated] at failed
    cases ran : item cursor with
    | error found place =>
      rw [ran] at failed
      cases failed
      exact ⟨0, Nat.succ_pos count, done.reverse, cursor, rfl, ran⟩
    | ok value next =>
      rw [ran] at failed
      obtain ⟨k, few, items, last, read, fails⟩ := ih failed
      refine ⟨k + 1, Nat.succ_lt_succ few, items, last, ?_, fails⟩
      simp only [repeated, ran]
      exact read

theorem length_of_repeated (read : repeated item count done cursor = .ok items last) :
    items.length = done.length + count := by
  induction count generalizing done cursor with
  | zero =>
    cases read
    exact List.length_reverse
  | succ count ih =>
    simp only [repeated] at read
    split at read
    · rw [ih read, List.length_cons, Nat.add_right_comm, Nat.add_assoc]
    · cases read

/-- Behind the items that have been read, reading goes on over the others. -/
theorem overwrite_of_repeated (few : count ≤ old.length)
    (read : repeated item count done cursor = .ok items last) :
    overwrite item old done cursor = overwrite item (old.drop count) items.reverse last := by
  induction count generalizing old done cursor with
  | zero =>
    cases read
    rw [List.reverse_reverse, List.drop_zero]
  | succ count ih =>
    cases old with
    | nil => cases few
    | cons head tail =>
      simp only [repeated] at read
      split at read
      · case h_1 value next ran =>
        simp only [overwrite, ran, List.drop_succ_cons]
        exact ih (Nat.le_of_succ_le_succ few) read
      · cases read

theorem overwrite_of_failing (read : repeated item count [] cursor = .ok items last)
    (few : count < old.length) (fails : item last = .error error stop) :
    overwrite item old [] cursor = (.error error, items ++ old.drop count, stop) := by
  rw [overwrite_of_repeated (Nat.le_of_lt few) read, List.drop_eq_getElem_cons few]
  simp only [overwrite, fails, List.reverse_reverse]

/-- How reading over existing items fails, and what it leaves of them. -/
inductive FailsOver (item : Decoding α) (old : List α) (cursor : Cursor) :
    CodecError → List α → Cursor → Prop where
  /-- Before the number of items is known. -/
  | length {error : CodecError} {stop : Cursor} : length cursor = .error error stop →
      FailsOver item old cursor error old stop
  | mismatch {found : Nat} {next : Cursor} : Decoding.length cursor = .ok found next →
      found ≠ old.length → FailsOver item old cursor (.lengthMismatch old.length found) old next
  /-- At an item that comes behind those that are done. -/
  | item {next last stop : Cursor} {done : List α} {error : CodecError} :
      Decoding.length cursor = .ok old.length next → repeated item done.length [] next = .ok done last →
      done.length < old.length → item last = .error error stop →
      FailsOver item old cursor error (done ++ old.drop done.length) stop

theorem sliceInto_eq_error :
    sliceInto item old cursor = (.error error, left, stop) ↔ FailsOver item old cursor error left stop := by
  constructor
  · intro failed
    unfold sliceInto at failed
    cases ran : length cursor with
    | error found place =>
      rw [ran] at failed
      cases failed
      exact .length ran
    | ok found next =>
      rw [ran] at failed
      dsimp only at failed
      split at failed
      · case isTrue same =>
        subst same
        have row := withoutSlots_overwrite item old [] next
        rw [failed] at row
        obtain ⟨k, few, done, last, read, fails⟩ := repeated_eq_error row.symm
        obtain rfl : done.length = k := (length_of_repeated read).trans (Nat.zero_add k)
        rw [overwrite_of_failing read few fails] at failed
        cases failed
        exact .item ran read few fails
      · case isFalse differs =>
        cases failed
        exact .mismatch ran differs
  · intro fails
    unfold sliceInto
    cases fails with
    | length ran => rw [ran]
    | mismatch ran differs =>
      rw [ran]
      exact if_neg differs
    | item ran read few fails =>
      rw [ran]
      dsimp only
      rw [if_pos rfl]
      exact overwrite_of_failing read few fails

/-! Decoders that take bytes -/

def Consumes (decoder : Decoding α) : Prop :=
  ∀ cursor value after, decoder cursor = .ok value after → cursor.position < after.position

def Gives (decoder : Decoding α) (value : α) : Prop :=
  ∃ cursor after, decoder cursor = .ok value after

variable {decoder : Decoding α}

theorem Gives.of_bind {following : α → Decoding β} {result : β} (gives : (decoder >>= following).Gives result) :
    ∃ value, decoder.Gives value ∧ (following value).Gives result := by
  obtain ⟨cursor, after, read⟩ := gives
  obtain ⟨value, middle, first, rest⟩ := bind_eq_ok.mp read
  exact ⟨value, ⟨cursor, middle, first⟩, ⟨middle, after, rest⟩⟩

theorem Gives.of_map {convert : α → β} {result : β}
    (gives : (do return convert (← decoder) : Decoding β).Gives result) :
    ∃ value, decoder.Gives value ∧ convert value = result := by
  obtain ⟨value, given, _, _, returned⟩ := gives.of_bind
  cases returned
  exact ⟨value, given, rfl⟩

theorem items_iff_repeated {spell : α → Bytes} {nothing : Prop}
    (reads : item.Reads spell fun value => spell value = [] ↔ nothing) :
    Decoding.items item count cursor = .ok items stop ↔
      repeated item count [] cursor = .ok items stop ∧ (nothing → count ≤ emptyItemLimit) := by
  constructor
  · intro read
    refine ⟨repeated_of_items read, fun none => ?_⟩
    cases count with
    | zero => exact Nat.zero_le _
    | succ more =>
      obtain ⟨first, next, ran, few, -⟩ := items_eq_ok.mp read
      obtain ⟨same, -, moved⟩ := reads _ _ _ ran
      rwa [if_pos (by rw [moved, same.mpr none]; rfl)] at few
  · exact fun both => (follows_repeated reads count).ok_of both.2 both.1

/-- A sequence is read as an array of its length, unless its items take no bytes and are too many. -/
theorem seq_iff_array {spell : α → Bytes} {nothing : Prop}
    (reads : item.Reads spell fun value => spell value = [] ↔ nothing) (expected : Nat) :
    seq item cursor = .ok items stop ∧ items.length = expected ↔
      array item expected cursor = .ok items stop ∧ (nothing → expected ≤ emptyItemLimit) := by
  simp only [seq, array, bind_eq_ok]
  constructor
  · rintro ⟨⟨found, next, counted, read⟩, rfl⟩
    obtain ⟨row, few⟩ := (items_iff_repeated reads).mp read
    obtain rfl : items.length = found := (length_of_repeated row).trans (Nat.zero_add found)
    exact ⟨⟨items.length, next, counted, by rwa [if_pos rfl]⟩, few⟩
  · rintro ⟨⟨found, next, counted, read⟩, few⟩
    split at read
    · case isTrue same =>
      subst same
      exact ⟨⟨found, next, counted, (items_iff_repeated reads).mpr ⟨read, few⟩⟩,
        (length_of_repeated read).trans (Nat.zero_add found)⟩
    · cases read

end Decoding

namespace Ty

open Decoding

/-- Data of the type take bytes, inside of so many records. Within a record there are references to
it only behind some bytes of it. -/
inductive TakesBytes : Nat → Ty → Prop where
  | bool {depth : Nat} : TakesBytes depth .bool
  | int {depth : Nat} (kind : IntKind) : TakesBytes depth (.int kind)
  | float {depth : Nat} (kind : FloatKind) : TakesBytes depth (.float kind)
  | complex {depth : Nat} (kind : FloatKind) : TakesBytes depth (.complex kind)
  | text {depth : Nat} : TakesBytes depth .text
  | seq {depth : Nat} (item : Ty) : TakesBytes depth (.seq item)
  | array {depth : Nat} (item : Ty) (length : Nat) : TakesBytes depth (.array item length)
  | option {depth : Nat} (item : Ty) : TakesBytes depth (.option item)
  | boxed {depth : Nat} {ty : Ty} : TakesBytes depth ty → TakesBytes depth (.boxed ty)
  | tuple {depth : Nat} {parts : List Ty} {part : Ty} : part ∈ parts → TakesBytes depth part →
      TakesBytes depth (.tuple parts)
  | record {depth : Nat} {fields skipped : List (String × Ty)} {own : Datum} {ty : Ty} :
      ty ∈ fields.map Prod.snd → TakesBytes (depth + 1) ty → TakesBytes depth (.record fields skipped own)
  | ref {depth up : Nat} : up < depth → TakesBytes depth (.ref up)

variable {depth : Nat} {ty : Ty} {scope : Scope} {outer : List (Decoding Datum)} {datum : Datum}

theorem gives_of_parts {parts : List Ty} {data : List Datum}
    (gives : (decodeParts scope outer parts).Gives data) :
    parts.length = data.length ∧ ∀ pair ∈ parts.zip data, (decodeIn scope outer pair.1).Gives pair.2 := by
  induction parts generalizing data with
  | nil =>
    obtain ⟨_, _, read⟩ := gives
    cases read
    exact ⟨rfl, List.forall_mem_nil _⟩
  | cons part parts ih =>
    obtain ⟨datum, first, others⟩ := gives.of_bind
    obtain ⟨rest, given, rfl⟩ := others.of_map
    obtain ⟨lengths, each⟩ := ih given
    exact ⟨congrArg (· + 1) lengths, List.forall_mem_cons.mpr ⟨first, each⟩⟩

theorem gives_of_fields {fields : List (String × Ty)} {entries : List (String × Datum)}
    (gives : (decodeFields scope outer fields).Gives entries) :
    ∃ data, (decodeParts scope outer (fields.map Prod.snd)).Gives data ∧
      Datum.encodeFields entries = Datum.encodeAll data := by
  rw [decodeFields_eq] at gives
  obtain ⟨data, given, rfl⟩ := gives.of_map
  refine ⟨data, given, ?_⟩
  have lengths := (gives_of_parts given).1
  rw [Datum.encodeFields_eq, List.map_snd_zip (by simpa using Nat.le_of_eq lengths.symm)]

theorem encodeAll_ne_empty {parts : List Ty} {data : List Datum} {part : Ty}
    (gives : (decodeParts scope outer parts).Gives data) (member : part ∈ parts)
    (takes : ∀ datum, (decodeIn scope outer part).Gives datum → datum.encode ≠ .empty) :
    Datum.encodeAll data ≠ .empty := by
  obtain ⟨lengths, each⟩ := gives_of_parts gives
  obtain ⟨datum, pair⟩ := mem_parts lengths member
  rw [Datum.encodeAll_eq, ne_eq, Encoding.concat_eq_empty, List.forall_mem_map]
  exact fun nothing => takes datum (each _ pair) (nothing datum (List.of_mem_zip pair).2)

theorem encodeAll_eq_empty_of_parts {parts : List Ty} {data : List Datum}
    (gives : (decodeParts scope outer parts).Gives data)
    (nothing : ∀ part ∈ parts, ∀ datum, (decodeIn scope outer part).Gives datum → datum.encode = .empty) :
    Datum.encodeAll data = .empty := by
  obtain ⟨lengths, each⟩ := gives_of_parts gives
  rw [Datum.encodeAll_eq, Encoding.concat_eq_empty, List.forall_mem_map]
  intro datum member
  obtain ⟨part, pair⟩ := mem_values lengths member
  exact nothing part (List.of_mem_zip pair).1 datum (each _ pair)

theorem TakesBytes.encode_ne_empty (takes : TakesBytes depth ty) (around : outer.length = depth)
    (enclosed : ∀ decoder ∈ outer, ∀ datum, decoder.Gives datum → datum.encode ≠ .empty)
    (gives : (decodeIn scope outer ty).Gives datum) : datum.encode ≠ .empty := by
  induction takes generalizing scope outer datum with
  | bool =>
    obtain ⟨value, -, rfl⟩ := gives.of_map
    exact Encoding.bool_ne_empty value
  | int kind =>
    obtain ⟨value, -, rfl⟩ := gives.of_map
    exact Encoding.int_ne_empty kind value
  | float kind =>
    obtain ⟨bits, -, rfl⟩ := gives.of_map
    exact Encoding.float_ne_empty kind bits
  | complex kind =>
    obtain ⟨re, -, rest⟩ := gives.of_bind
    obtain ⟨im, -, rfl⟩ := rest.of_map
    exact Encoding.append_ne_empty (Encoding.float_ne_empty kind re)
  | text =>
    obtain ⟨value, -, rfl⟩ := gives.of_map
    exact Encoding.append_ne_empty (Encoding.length_ne_empty _)
  | seq | array =>
    obtain ⟨items, -, rfl⟩ := gives.of_map
    exact Encoding.append_ne_empty (Encoding.length_ne_empty _)
  | option item =>
    obtain ⟨present, -, rest⟩ := gives.of_bind
    cases present with
    | false =>
      obtain ⟨_, _, returned⟩ := rest
      cases returned
      exact Encoding.bool_ne_empty false
    | true =>
      obtain ⟨value, -, rfl⟩ := Gives.of_map rest
      exact Encoding.append_ne_empty (Encoding.bool_ne_empty true)
  | boxed _ ih => exact ih around enclosed gives
  | tuple member _ ih =>
    obtain ⟨data, given, rfl⟩ := gives.of_map
    exact encodeAll_ne_empty given member fun datum gives => ih around enclosed gives
  | record member _ ih =>
    obtain ⟨cursor, after, read⟩ := gives
    rw [decodeIn] at read
    refine recursive_induction (motive := fun _ datum _ => datum.encode ≠ .empty)
      (fun self takes cursor datum after read => ?_) cursor datum after read
    obtain ⟨entries, given, rfl⟩ := Gives.of_map ⟨cursor, after, read⟩
    obtain ⟨data, given, same⟩ := gives_of_fields given
    rw [Datum.encode, same]
    refine encodeAll_ne_empty given member fun datum gives => ih (congrArg (· + 1) around) ?_ gives
    refine List.forall_mem_cons.mpr ⟨fun datum gives => ?_, enclosed⟩
    obtain ⟨cursor, after, read⟩ := gives
    exact takes cursor datum after read
  | @ref depth up inside =>
    rw [← around] at inside
    rw [decodeIn, enclosing, List.getD_eq_getElem _ _ inside] at gives
    exact enclosed _ (List.getElem_mem inside) datum gives

/-- What no bytes are read for has no bytes. A record of this kind has no reference to itself, so its
decoder need not be followed into itself. -/
theorem encode_eq_empty : ∀ (ty : Ty) {scope : Scope} {outer : List (Decoding Datum)} {datum : Datum},
    ¬ TakesBytes outer.length ty → (decodeIn scope outer ty).Gives datum → datum.encode = .empty
  | bool, _, _, _, idle, _ => absurd .bool idle
  | int kind, _, _, _, idle, _ => absurd (.int kind) idle
  | float kind, _, _, _, idle, _ => absurd (.float kind) idle
  | complex kind, _, _, _, idle, _ => absurd (.complex kind) idle
  | text, _, _, _, idle, _ => absurd .text idle
  | seq item, _, _, _, idle, _ => absurd (.seq item) idle
  | array item length, _, _, _, idle, _ => absurd (.array item length) idle
  | option item, _, _, _, idle, _ => absurd (.option item) idle
  | unit, _, _, _, _, gives => by
    obtain ⟨_, _, returned⟩ := gives
    cases returned
    rfl
  | transient _, _, _, _, _, gives => by
    obtain ⟨_, _, returned⟩ := gives
    cases returned
    rfl
  | boxed ty, _, _, _, idle, gives => encode_eq_empty ty (mt .boxed idle) gives
  | tuple parts, _, _, _, idle, gives => by
    obtain ⟨data, given, rfl⟩ := gives.of_map
    exact encodeAll_eq_empty_of_parts given fun part member datum gives =>
      encode_eq_empty part (mt (.tuple member) idle) gives
  | record fields skipped own, _, outer, _, idle, gives => by
    obtain ⟨cursor, after, read⟩ := gives
    rw [decodeIn, Decoding.recursive] at read
    obtain ⟨entries, given, rfl⟩ := Gives.of_map ⟨cursor, after, read⟩
    obtain ⟨data, given, same⟩ := gives_of_fields given
    rw [Datum.encode, same]
    exact encodeAll_eq_empty_of_parts given fun ty member datum gives =>
      encode_eq_empty ty (mt (.record member) idle) gives
  | ref up, _, outer, _, idle, gives => by
    have outside : outer.length ≤ up := Nat.not_lt.mp (mt .ref idle)
    rw [decodeIn, enclosing, List.getD_eq_default _ _ outside] at gives
    obtain ⟨_, _, returned⟩ := gives
    cases returned
    rfl
termination_by ty => sizeOf ty
decreasing_by
  · simp
  · have inside := List.sizeOf_lt_of_mem member
    simp only [tuple.sizeOf_spec]
    omega
  · obtain ⟨⟨name, ty⟩, field, rfl⟩ := List.mem_map.mp member
    have inside := List.sizeOf_lt_of_mem field
    simp only [Prod.mk.sizeOf_spec, record.sizeOf_spec] at inside ⊢
    omega

/-- Data of a type all take bytes, or all take none. -/
theorem consumes_or_empty (ty : Ty) :
    ty.decode.Consumes ∨ ∀ datum, ty.decode.Gives datum → datum.encode = .empty := by
  by_cases takes : TakesBytes 0 ty
  · refine .inl fun cursor datum after read => ?_
    obtain ⟨whole, -, moved⟩ := canonical_decodeIn ty (List.forall_mem_nil _) _ _ _ read
    have some := takes.encode_ne_empty rfl (List.forall_mem_nil _) ⟨cursor, after, read⟩
    rw [ne_eq, Encoding.eq_empty_iff, not_and] at some
    rw [moved]
    exact Nat.lt_add_of_pos_right (List.length_pos_iff.mpr (some whole))
  · exact .inr fun datum => encode_eq_empty ty takes

theorem reads_decode (ty : Ty) : ty.decode.Reads (fun datum => datum.encode.bytes)
    fun datum => datum.encode.bytes = [] ↔ ¬ ty.decode.Consumes := by
  intro cursor datum after read
  obtain ⟨-, start, moved⟩ := canonical_decodeIn ty (List.forall_mem_nil _) _ _ _ read
  refine ⟨⟨fun none consumes => ?_, fun idle => ?_⟩, start, moved⟩
  · have further := consumes cursor datum after read
    rw [moved, none] at further
    exact Nat.lt_irrefl _ further
  · rw [(consumes_or_empty ty).resolve_left idle datum ⟨cursor, after, read⟩]
    rfl

theorem list_decode_eq_ok {decoder : Decoding (List Datum)} {cursor stop : Cursor} {items : List Datum} :
    (do return .list (← decoder) : Decoding Datum) cursor = .ok (.list items) stop ↔
      decoder cursor = .ok items stop := by
  rw [map_eq_ok]
  simp

theorem list_decode_eq_error {decoder : Decoding (List Datum)} {cursor stop : Cursor} {error : CodecError} :
    (do return .list (← decoder) : Decoding Datum) cursor = .error error stop ↔
      decoder cursor = .error error stop := by
  rw [bind_eq_error]
  simp [pure, EStateM.pure]

/-- Over as many items as an array has, a slice is read with the outcome that reading the array has, and
where that fails, the slice is left as `FailsOver` says. A sequence of as many items is read precisely
where the slice is, with the same items and up to the same place, unless the items take no bytes and are
too many. -/
theorem sequence_decoders_agree (ty : Ty) (old : List Datum) (cursor : Cursor) :
    let slice := sliceInto ty.decode old cursor
    (∀ items stop, (array ty old.length).decode cursor = .ok (.list items) stop ↔
      slice = (.ok (), items, stop)) ∧
    (∀ error stop, (array ty old.length).decode cursor = .error error stop ↔
      ∃ left, slice = (.error error, left, stop)) ∧
    (∀ error left stop, slice = (.error error, left, stop) ↔
      FailsOver ty.decode old cursor error left stop) ∧
    ∀ items stop, (seq ty).decode cursor = .ok (.list items) stop ∧ items.length = old.length ↔
      slice = (.ok (), items, stop) ∧ (ty.decode.Consumes ∨ old.length ≤ emptyItemLimit) := by
  intro slice
  have same : withoutSlots slice = Decoding.array ty.decode old.length cursor :=
    withoutSlots_sliceInto ty.decode old cursor
  have read (items : List Datum) (stop : Cursor) :
      slice = (.ok (), items, stop) ↔ Decoding.array ty.decode old.length cursor = .ok items stop := by
    rw [← same, withoutSlots_eq_ok]
  refine ⟨fun items stop => ?_, fun error stop => ?_, fun error left stop => sliceInto_eq_error,
    fun items stop => ?_⟩
  · rw [read]
    exact list_decode_eq_ok
  · rw [← withoutSlots_eq_error, same]
    exact list_decode_eq_error
  · rw [read, or_iff_not_imp_left, ← seq_iff_array (reads_decode ty)]
    exact and_congr_left' list_decode_eq_ok

/-- The second item fails, so the first one is replaced and two are kept. -/
example : sliceInto Ty.bool.decode [.bool true, .bool true, .bool true] (.ofBytes [0, 0, 0, 3, 0, 7, 1]) =
    (.error (.invalidBool 7), [.bool false, .bool true, .bool true], ⟨[1], 6⟩) := by
  rfl

end Ty

end AppendLog
