import AppendLog.Proofs.Typing
import AppendLog.Ty.Wire

/-! Round trips of data of a known type.

What is encoded is decoded again, whatever follows it, as long as no sequence of items that take
no bytes is longer than the decoder lets pass. The number of other items is never in the way, as
each of them takes a byte. By induction on the derivation of the data; on the way down, the
decoders of the records around are kept with the input on which they may be used.
-/

set_option autoImplicit false

namespace AppendLog

namespace Decoding

variable {α β : Type}

def Refuses (decoder : Decoding α) (cursor : Cursor) : Prop :=
  ∃ n stop, emptyItemLimit < n ∧ decoder cursor = .error (.tooManyItems n emptyItemLimit) stop

/-- In front of what follows, the bytes are read as the value if it fits, and else refused. -/
def Yields (decoder : Decoding α) (bytes : Bytes) (value : α) (fits : Prop) (more : Bytes)
    (position : Nat) : Prop :=
  (fits ∧ decoder ⟨bytes ++ more, position⟩ = .ok value ⟨more, position + bytes.length⟩) ∨
    (¬ fits ∧ decoder.Refuses ⟨bytes ++ more, position⟩)

variable {decoder : Decoding α} {bytes rest more : Bytes} {value : α} {fits fitsRest : Prop} {position : Nat}

theorem Yields.congr {wanted : Prop} (yields : decoder.Yields bytes value fits more position)
    (same : fits ↔ wanted) : decoder.Yields bytes value wanted more position := by
  rwa [← propext same]

theorem Yields.of_eq {other : Decoding α} (yields : decoder.Yields bytes value fits more position)
    (same : other ⟨bytes ++ more, position⟩ = decoder ⟨bytes ++ more, position⟩) :
    other.Yields bytes value fits more position := by
  unfold Yields Refuses
  rw [same]
  exact yields

theorem Inverts.yields {spell : α → Bytes} {range : α → Prop} (inverts : decoder.Inverts spell range)
    (inside : range value) : decoder.Yields (spell value) value True more position :=
  .inl ⟨trivial, (inverts _ _ _).mpr ⟨inside, rfl, rfl⟩⟩

theorem yields_pure : (pure value : Decoding α).Yields [] value True more position :=
  .inl ⟨trivial, rfl⟩

theorem Yields.bind {next : α → Decoding β} {result : β}
    (first : decoder.Yields bytes value fits (rest ++ more) position)
    (second : (next value).Yields rest result fitsRest more (position + bytes.length)) :
    (decoder >>= next).Yields (bytes ++ rest) result (fits ∧ fitsRest) more position := by
  unfold Yields Refuses
  rw [List.append_assoc, List.length_append, ← Nat.add_assoc]
  rcases first with ⟨inside, read⟩ | ⟨outside, n, stop, many, refused⟩
  · rw [bind_of_ok read]
    rcases second with ⟨insideRest, readRest⟩ | ⟨outsideRest, refused⟩
    · exact .inl ⟨⟨inside, insideRest⟩, readRest⟩
    · exact .inr ⟨fun both => outsideRest both.2, refused⟩
  · rw [bind_of_error refused]
    exact .inr ⟨fun both => outside both.1, n, stop, many, rfl⟩

theorem Yields.map {convert : α → β} (yields : decoder.Yields bytes value fits more position) :
    (do return convert (← decoder) : Decoding β).Yields bytes (convert value) fits more position := by
  rcases yields with ⟨inside, read⟩ | ⟨outside, n, stop, many, refused⟩
  · exact .inl ⟨inside, bind_of_ok read⟩
  · exact .inr ⟨outside, n, stop, many, bind_of_error refused⟩

section items

variable {γ : Type} {item : Decoding α} {spell : γ → Bytes} {read : γ → α} {fit : γ → Prop} {room : Nat}
  {values : List γ}

theorem yields_repeated
    (each : ∀ value ∈ values, ∀ more position, (spell value ++ more).length ≤ room →
      item.Yields (spell value) (read value) (fit value) more position)
    (done : List α) (position : Nat) (short : (values.flatMap spell ++ more).length ≤ room) :
    (repeated item values.length done).Yields (values.flatMap spell) (done.reverse ++ values.map read)
      (∀ value ∈ values, fit value) more position := by
  induction values generalizing done position with
  | nil => exact .inl ⟨List.forall_mem_nil _, by simp [repeated]⟩
  | cons head tail ih =>
    obtain ⟨first, others⟩ := List.forall_mem_cons.mp each
    simp only [List.flatMap_cons, List.append_assoc] at short
    have tailShort : (tail.flatMap spell ++ more).length ≤ room := by
      rw [List.length_append] at short
      exact Nat.le_trans (Nat.le_add_left _ _) short
    unfold Yields Refuses
    simp only [List.flatMap_cons, List.append_assoc, List.length_cons, repeated, List.forall_mem_cons]
    rcases first (tail.flatMap spell ++ more) position short with ⟨inside, ran⟩ | ⟨outside, n, stop, many, ran⟩
    · rw [ran]
      rcases ih others (read head :: done) (position + (spell head).length) tailShort with
        ⟨insideRest, ranRest⟩ | ⟨outsideRest, refused⟩
      · refine .inl ⟨⟨inside, insideRest⟩, ?_⟩
        simpa [Nat.add_assoc] using ranRest
      · exact .inr ⟨fun both => outsideRest both.2, refused⟩
    · rw [ran]
      exact .inr ⟨fun both => outside both.1, n, stop, many, rfl⟩

theorem length_le_flatMap (long : ∀ value ∈ values, spell value ≠ []) :
    values.length ≤ (values.flatMap spell).length := by
  induction values with
  | nil => exact Nat.le_refl 0
  | cons head tail ih =>
    obtain ⟨first, others⟩ := List.forall_mem_cons.mp long
    have one : 0 < (spell head).length := List.length_pos_iff.mpr first
    rw [List.flatMap_cons, List.length_append, List.length_cons]
    exact Nat.add_comm tail.length 1 ▸ Nat.add_le_add one (ih others)

theorem items_of_ok {limit : Nat} {cursor next : Cursor} {first : α} (count : Nat)
    (ran : item cursor = .ok first next)
    (shown : (if next.position = cursor.position then emptyItemLimit else cursor.rest.length) = limit) :
    items item (count + 1) cursor =
      if limit < count + 1 then .error (.tooManyItems (count + 1) limit) next
      else repeated item (count + 1) [] cursor := by
  simp only [items, repeated, ran, shown]

/-- Items of which all or none take bytes are let pass, unless they take none and are too many. -/
theorem yields_items {nothing : Prop}
    (each : ∀ value ∈ values, ∀ more position, (spell value ++ more).length ≤ room →
      item.Yields (spell value) (read value) (fit value) more position)
    (alike : ∀ value ∈ values, spell value = [] ↔ nothing)
    (position : Nat) (short : (values.flatMap spell ++ more).length ≤ room) :
    (items item values.length).Yields (values.flatMap spell) (values.map read)
      ((nothing → values.length ≤ emptyItemLimit) ∧ ∀ value ∈ values, fit value) more position := by
  cases values with
  | nil => exact .inl ⟨by simp, rfl⟩
  | cons head tail =>
    have row := yields_repeated each [] position short
    have member : head ∈ head :: tail := List.mem_cons_self
    have spelled : spell head ++ (tail.flatMap spell ++ more) = (head :: tail).flatMap spell ++ more := by
      rw [List.flatMap_cons, List.append_assoc]
    have first := each head member (tail.flatMap spell ++ more) position (spelled ▸ short)
    unfold Yields Refuses at first
    rw [spelled] at first
    rcases first with ⟨-, ran⟩ | ⟨outside, n, stop, many, ran⟩
    -- The first item is read, and with it the limit is known.
    · by_cases empty : spell head = []
      · have limited := items_of_ok tail.length ran (if_pos (by simp [empty]))
        by_cases many : emptyItemLimit < tail.length + 1
        · rw [if_pos many] at limited
          exact .inr ⟨fun both => Nat.not_le.mpr many (both.1 ((alike head member).mp empty)), _, _,
            many, limited⟩
        · rw [if_neg many] at limited
          exact (row.of_eq limited).congr ⟨fun fits => ⟨fun _ => Nat.not_lt.mp many, fits⟩, And.right⟩
      · have limited := items_of_ok tail.length ran (if_neg (by simpa using empty))
        have takesBytes : ¬ nothing := fun takesNone => empty ((alike head member).mpr takesNone)
        have long : ∀ value ∈ head :: tail, spell value ≠ [] :=
          fun value inside none => takesBytes ((alike value inside).mp none)
        have enough : tail.length + 1 ≤ ((head :: tail).flatMap spell ++ more).length := by
          rw [List.length_append]
          exact Nat.le_add_right_of_le (length_le_flatMap long)
        rw [if_neg (Nat.not_lt.mpr enough)] at limited
        exact (row.of_eq limited).congr ⟨fun fits => ⟨fun none => absurd none takesBytes, fits⟩, And.right⟩
    · refine .inr ⟨fun both => outside (both.2 head member), n, stop, many, ?_⟩
      simp only [List.length_cons, items, ran]

end items

theorem yields_counted {count : Nat} {reading : Nat → Decoding α} (fitting : count < 256 ^ lengthWidth)
    (yields : (reading count).Yields bytes value fits more (position + lengthWidth)) :
    (do reading (← length)).Yields (Bytes.ofNat lengthWidth count ++ bytes) value fits more position := by
  refine ((inverts_length.yields fitting).bind ?_).congr (iff_of_eq (true_and _))
  rwa [Bytes.length_ofNat]

theorem yields_flagged {error : UInt8 → CodecError} {next : Bool → Decoding α} (present : Bool)
    (yields : (next present).Yields bytes value fits more (position + 1)) :
    (do next (← flag error)).Yields ((if present then 1 else 0) :: bytes) value fits more position :=
  (((inverts_flag error).yields trivial).bind yields).congr (iff_of_eq (true_and _))

end Decoding

namespace Ty

open Decoding

/-- A record around the type that is decoded, its decoder, and how long the input was when its
decoding began: on shorter ones the decoder can be used again. -/
structure Frame where
  layout : Layout
  decoder : Decoding Datum
  limit : Nat

abbrev decodeWithin (frames : List Frame) (ty : Ty) : Decoding Datum :=
  decodeIn (frames.map Frame.layout) (frames.map Frame.decoder) ty

/-- Each decoder is that of its record, and the further out it is, the longer its input was. -/
def Linked : List Frame → Prop
  | [] => True
  | frame :: outer =>
    (∀ further ∈ outer, frame.limit ≤ further.limit) ∧
      (∀ cursor, cursor.rest.length < frame.limit →
        frame.decoder cursor = decodeWithin outer frame.layout.ty cursor) ∧
      Linked outer

/-- With so much input left, all that decoding the type may need of the records around can be used. -/
def Ready (frames : List Frame) (ty : Ty) (left : Nat) : Prop :=
  ∀ up frame, frames[up]? = some frame → left ≤ frame.limit ∧ (Needs up ty → left < frame.limit)

variable {frames : List Frame} {frame : Frame} {scope : Scope} {ty part : Ty} {datum : Datum}
  {left fewer up : Nat} {more : Bytes} {position : Nat}

theorem Linked.descend (linked : Linked frames) (found : frames[up]? = some frame) :
    (∀ further ∈ frames.drop (up + 1), frame.limit ≤ further.limit) ∧
      (∀ cursor, cursor.rest.length < frame.limit →
        frame.decoder cursor = decodeWithin (frames.drop (up + 1)) frame.layout.ty cursor) ∧
      Linked (frames.drop (up + 1)) := by
  induction frames generalizing up with
  | nil => cases found
  | cons first outer ih =>
    cases up with
    | zero =>
      cases found
      exact linked
    | succ up => exact ih linked.2.2 found

theorem Ready.of_le (ready : Ready frames ty left) (needs : ∀ up, Needs up part → Needs up ty)
    (less : fewer ≤ left) : Ready frames part fewer := fun up frame found =>
  ⟨Nat.le_trans less (ready up frame found).1,
    fun need => Nat.lt_of_le_of_lt less ((ready up frame found).2 (needs up need))⟩

theorem Ready.of_lt (ready : Ready frames ty left) (less : fewer < left) (part : Ty) :
    Ready frames part fewer := fun up frame found =>
  have short := Nat.lt_of_lt_of_le less (ready up frame found).1
  ⟨Nat.le_of_lt short, fun _ => short⟩

theorem Ready.behind_length {count : Nat} {bytes : Bytes}
    (ready : Ready frames ty (Bytes.ofNat lengthWidth count ++ bytes ++ more).length)
    (less : fewer ≤ (bytes ++ more).length) (part : Ty) : Ready frames part fewer := by
  refine ready.of_lt (Nat.lt_of_le_of_lt less ?_) part
  simp only [List.length_append, Bytes.length_ofNat, lengthWidth]
  omega

theorem Ready.of_frame (limits : ∀ further ∈ frames, frame.limit ≤ further.limit) (less : left < frame.limit)
    (ty : Ty) : Ready frames ty left := fun _ further found =>
  have short := Nat.lt_of_lt_of_le less (limits further (List.mem_of_getElem? found))
  ⟨Nat.le_of_lt short, fun _ => short⟩

def Frame.enter (frames : List Frame) (layout : Layout) (cursor : Cursor) : Frame where
  layout := layout
  decoder := fun inner =>
    if inner.rest.length < cursor.rest.length then decodeWithin frames layout.ty inner
    else .error (.unexpectedEnd (inner.rest.length + 1) inner.rest.length) inner
  limit := cursor.rest.length

theorem decodeIn_record (around : frames.map Frame.layout = scope) (layout : Layout) (cursor : Cursor) :
    decodeIn scope (frames.map Frame.decoder) layout.ty cursor =
      (do
        let entries ← decodeFields (layout :: scope)
          ((Frame.enter frames layout cursor :: frames).map Frame.decoder) layout.fields
        return .record entries (defaultFields (layout :: scope) layout.skipped) : Decoding Datum) cursor := by
  subst around
  rw [Layout.ty, decodeIn, Decoding.recursive]
  rfl

variable {layout : Layout} {cursor : Cursor}

theorem Linked.enter (linked : Linked frames) (ready : Ready frames ty cursor.rest.length) (layout : Layout) :
    Linked (.enter frames layout cursor :: frames) := by
  refine ⟨fun further member => ?_, fun inner less => if_pos less, linked⟩
  obtain ⟨up, found⟩ := List.getElem?_of_mem member
  exact (ready up further found).1

theorem Ready.enter (ready : Ready frames layout.ty cursor.rest.length)
    (member : part ∈ layout.fields.map Prod.snd) (needless : ¬ Needs 0 part)
    (less : fewer ≤ cursor.rest.length) : Ready (.enter frames layout cursor :: frames) part fewer := by
  intro up frame found
  cases up with
  | zero =>
    cases found
    exact ⟨less, fun need => absurd need needless⟩
  | succ up =>
    obtain ⟨room, strict⟩ := ready up frame found
    exact ⟨Nat.le_trans less room, fun need => Nat.lt_of_le_of_lt less (strict (.record member need))⟩

theorem decodeFields_eq (scope : Scope) (outer : List (Decoding Datum)) (fields : List (String × Ty)) :
    decodeFields scope outer fields =
      do return (fields.map Prod.fst).zip (← decodeParts scope outer (fields.map Prod.snd)) := by
  induction fields with
  | nil => rfl
  | cons field rest ih => simp [decodeFields, decodeParts, ih]

theorem yields_parts {outer : List (Decoding Datum)} {parts : List Ty} {data : List Datum} {room : Nat}
    {fit : Ty → Datum → Prop} (lengths : parts.length = data.length)
    (each : ∀ pair ∈ parts.zip data, ∀ more position, (pair.2.encode.bytes ++ more).length ≤ room →
      pair.2.encode.error = none → (decodeIn scope outer pair.1).Yields pair.2.encode.bytes
        (pair.2.reset scope pair.1) (fit pair.1 pair.2) more position)
    (whole : (Datum.encodeAll data).error = none) (position : Nat)
    (short : ((Datum.encodeAll data).bytes ++ more).length ≤ room) :
    (decodeParts scope outer parts).Yields (Datum.encodeAll data).bytes (Datum.resetParts scope parts data)
      (∀ pair ∈ parts.zip data, fit pair.1 pair.2) more position := by
  induction parts generalizing data position with
  | nil =>
    cases List.length_eq_zero_iff.mp lengths.symm
    exact yields_pure.congr (by simp)
  | cons part parts ih =>
    cases data with
    | nil => cases lengths
    | cons datum rest =>
      obtain ⟨first, others⟩ := List.forall_mem_cons.mp each
      rw [Datum.encodeAll, Encoding.error_append, Option.or_eq_none_iff] at whole
      rw [Datum.encodeAll, Encoding.bytes_append whole.1] at short ⊢
      rw [List.append_assoc] at short
      have restShort : ((Datum.encodeAll rest).bytes ++ more).length ≤ room := by
        rw [List.length_append] at short
        exact Nat.le_trans (Nat.le_add_left _ _) short
      have tail := ih (Nat.succ.inj lengths) others whole.2 (position + datum.encode.bytes.length) restShort
      refine ((first _ position short whole.1).bind tail.map).congr ?_
      rw [List.zip_cons_cons, List.forall_mem_cons]

/-- Data are read from what they are encoded in, but for what is not stored of them, exactly if they
keep to the limit on empty items. -/
theorem Admits.yields (admits : Admits anyNumber scope ty datum) (linked : Linked frames)
    (around : frames.map Frame.layout = scope) (whole : datum.encode.error = none) (position : Nat)
    (ready : Ready frames ty (datum.encode.bytes ++ more).length) :
    (decodeIn scope (frames.map Frame.decoder) ty).Yields datum.encode.bytes (datum.reset scope ty)
      (Admits emptyItemsLimited scope ty datum) more position := by
  -- On the derivation of the data. Behind a flag or a length every frame can be used again.
  induction admits generalizing frames more position with
  | bool value => exact ((inverts_flag _).yields trivial).map.congr (iff_of_true trivial (.bool value))
  | int holds => exact ((inverts_int _).yields holds).map.congr (iff_of_true trivial (.int holds))
  | float kind bits =>
    exact ((inverts_float kind).yields trivial).map.congr (iff_of_true trivial (.float kind bits))
  | complex kind re im =>
    exact (((inverts_float kind).yields trivial).bind ((inverts_float kind).yields trivial).map).congr
      (iff_of_true ⟨trivial, trivial⟩ (.complex kind re im))
  | text value =>
    have fits := Encoding.error_text.mp whole
    rw [Datum.encode, Encoding.text_of_fits fits]
    exact (inverts_text.yields fits).map.congr (iff_of_true trivial (.text value))
  | unit => exact yields_pure.congr (iff_of_true trivial .unit)
  | transient ty value => exact yields_pure.congr (iff_of_true trivial (.transient ty value))
  | @seq scope item items _ typed ih =>
    obtain ⟨fits, whole, spelled⟩ := Datum.encode_list_of_whole whole
    have alike (value : Datum) (member : value ∈ items) : value.encode.bytes = [] ↔ TakesNoBytes scope item :=
      (typed value member).bytes_eq_nil (whole value member)
    rw [spelled] at ready ⊢
    rw [Datum.reset_seq]
    refine (yields_counted fits (yields_items (fun value member more position less => ?_) alike _
      (Nat.le_refl _))).map.congr ⟨fun fits => .seq fits.1 fits.2, ?_⟩
    · exact ih value member linked around (whole value member) position (ready.behind_length less item)
    · rintro ⟨⟩
      exact ⟨‹_›, ‹_›⟩
  | @array scope item length items counted _ ih =>
    obtain ⟨fits, whole, spelled⟩ := Datum.encode_list_of_whole whole
    rw [spelled] at ready ⊢
    rw [Datum.reset_array]
    refine (yields_counted fits ?_).map.congr ⟨.array counted, ?_⟩
    · rw [if_pos counted, ← counted]
      exact yields_repeated (fun value member more position less => ih value member linked around
        (whole value member) position (ready.behind_length less item)) [] _ (Nat.le_refl _)
    · rintro ⟨⟩
      assumption
  | absent item =>
    exact Yields.congr (yields_flagged false yields_pure) (iff_of_true trivial (.absent item))
  | @present scope item value _ ih =>
    rw [Datum.encode, Encoding.error_append_of_whole rfl] at whole
    rw [Datum.encode, Encoding.bytes_append rfl] at ready ⊢
    have read := ih linked around whole (position + 1) (ready.of_lt (Nat.lt_succ_self _) item)
    refine Yields.congr (yields_flagged true read.map) ⟨.present, ?_⟩
    rintro ⟨⟩
    assumption
  | @boxed scope ty datum _ ih =>
    rw [Datum.reset_boxed]
    refine (ih linked around whole position (ready.of_le (fun _ => .boxed) (Nat.le_refl _))).congr ⟨.boxed, ?_⟩
    rintro ⟨⟩
    assumption
  | @tuple scope parts data lengths _ ih =>
    refine (yields_parts lengths (fun pair member more position less whole => ih pair member linked around
      whole position (ready.of_le (fun _ => .tuple (List.of_mem_zip member).1) less)) whole position
      (Nat.le_refl _)).map.congr ⟨.tuple lengths, ?_⟩
    rintro ⟨⟩
    assumption
  | @record scope fields skipped own data rest names typed ih =>
    let layout : Layout := ⟨fields, skipped, own⟩
    have admits : Admits anyNumber scope layout.ty (.record data rest) := .record names typed
    rw [Datum.encode, Datum.encodeFields_eq] at whole ready ⊢
    refine Yields.congr (Yields.of_eq ?_ (decodeIn_record around layout _)) ⟨.record names, ?_⟩
    · rw [Datum.reset_record names, decodeFields_eq]
      refine (yields_parts (length_eq_of_names names) (fun pair member more position less whole => ?_)
        whole position (Nat.le_refl _)).map.map
      -- The first field starts where the record does, so none may need the record at once.
      have part := (List.of_mem_zip member).1
      exact ih pair member (linked.enter ready _) (congrArg (layout :: ·) around) whole position
        (ready.enter part (admits.not_needs_self part) less)
    · rintro ⟨⟩
      assumption
  | @ref scope up layout datum found _ ih =>
    obtain ⟨frame, foundFrame, rfl⟩ : ∃ frame, frames[up]? = some frame ∧ frame.layout = layout := by
      rwa [← around, List.getElem?_map, Option.map_eq_some_iff] at found
    obtain ⟨limits, agrees, outer⟩ := linked.descend foundFrame
    have short := (ready up frame foundFrame).2 (.ref up)
    have further : (frames.drop (up + 1)).map Frame.layout = scope.drop (up + 1) := by
      rw [List.map_drop, around]
    have inner := ih outer further whole position (.of_frame limits short _)
    rw [decodeWithin, further] at agrees
    rw [Datum.reset_ref found]
    refine (inner.of_eq ?_).congr ⟨.ref found, ?_⟩
    · rw [decodeIn, enclosing, List.getD_eq_getElem?_getD, List.getElem?_map, foundFrame]
      exact agrees _ short
    · intro admits
      cases admits with
      | ref foundToo admits =>
        cases found.symm.trans foundToo
        exact admits

/-- Data are encoded exactly if all lengths in them fit, and then decoded with nothing but defaults
for what is not stored exactly if their sequences of empty items are within the limit. -/
theorem round_trip (admits : Admits anyNumber [] ty datum) :
    ((∃ bytes, datum.toBytes = .ok bytes) ↔ ∀ n ∈ datum.lengths, n < 256 ^ lengthWidth) ∧
    (∀ error, datum.toBytes = .error error →
      ∃ n ∈ datum.lengths, 256 ^ lengthWidth ≤ n ∧ error = .lengthOverflow n) ∧
    ∀ bytes, datum.toBytes = .ok bytes → ∀ more position,
      (ty.decode ⟨bytes ++ more, position⟩ = .ok (datum.reset [] ty) ⟨more, position + bytes.length⟩ ↔
        Admits emptyItemsLimited [] ty datum) ∧
      (¬ Admits emptyItemsLimited [] ty datum → ∃ n stop, emptyItemLimit < n ∧
        ty.decode ⟨bytes ++ more, position⟩ = .error (.tooManyItems n emptyItemLimit) stop) := by
  refine ⟨?_, fun error failed => ?_, fun bytes encoded more position => ?_⟩
  · simp only [Datum.toBytes, Encoding.toBytes_eq_ok, Datum.error_encode, exists_and_left, exists_eq',
      and_true, Datum.overflow_eq_none]
  · rw [Datum.toBytes, Encoding.toBytes_eq_error, Datum.error_encode] at failed
    exact Datum.overflow_eq_some failed
  · obtain ⟨whole, rfl⟩ := Encoding.toBytes_eq_ok.mp encoded
    have unlinked : Linked [] := trivial
    have read : ty.decode.Yields datum.encode.bytes (datum.reset [] ty) (Admits emptyItemsLimited [] ty datum)
        more position :=
      admits.yields unlinked rfl whole position fun _ _ found => absurd found (by simp)
    rcases read with ⟨inside, ran⟩ | ⟨outside, n, stop, many, refused⟩
    · exact ⟨iff_of_true ran inside, absurd inside⟩
    · refine ⟨iff_of_false (fun ran => ?_) outside, fun _ => ⟨n, stop, many, refused⟩⟩
      cases refused.symm.trans ran

/-- Records of one type within each other. The skipped origin has a default that is not made of those of
its fields, and so has the record that a proxy stands for. -/
theorem round_trip_of_nested :
    let originOf (offset : Int) : Datum := .record [("offset", .int .u8 offset)] []
    let userOf (id : Int) (manager proxy origin : Datum) : Datum := .record [("id", .int .u16 id),
      ("marks", .list [.unit, .unit]), ("score", .float .f32 0x7fc00001#32), ("manager", manager),
      ("proxy", proxy)] [("origin", origin)]
    let origin : Ty := .record [("offset", .int .u8)] [] (originOf 17)
    let nobody := userOf 1 .absent .absent (originOf 0)
    let user : Layout := ⟨[("id", .int .u16), ("marks", .seq .unit), ("score", .float .f32),
      ("manager", .option (.boxed (.ref 0))), ("proxy", .option (.transient (.boxed (.ref 0))))],
      [("origin", origin)], nobody⟩
    let another := userOf 4 .absent .absent (originOf 2)
    let datum := userOf 7 (.present (userOf 9 .absent (.present (.transient another)) (originOf 5))) .absent
      (originOf 3)
    let bytes : Bytes := [0, 7, 0, 0, 0, 2, 127, 192, 0, 1, 1, 0, 9, 0, 0, 0, 2, 127, 192, 0, 1, 0, 1, 0]
    datum.toBytes = .ok bytes ∧ user.ty.decode ⟨bytes ++ [255], 40⟩ =
      .ok (userOf 7 (.present (userOf 9 .absent (.present (.transient nobody)) (originOf 17))) .absent
        (originOf 17)) ⟨[255], 64⟩ := by
  intro originOf userOf origin nobody user another datum bytes
  have held {scope : Scope} {id : Int} {manager proxy origin : Datum} (number : IntKind.u16.Holds id)
      (inner : Admits emptyItemsLimited (user :: scope) (.option (.boxed (.ref 0))) manager)
      (other : Admits emptyItemsLimited (user :: scope) (.option (.transient (.boxed (.ref 0)))) proxy) :
      Admits emptyItemsLimited scope user.ty (userOf id manager proxy origin) := by
    have marks {scope : Scope} : Admits emptyItemsLimited scope (.seq .unit) (.list [.unit, .unit]) :=
      .seq (fun _ => by decide) (by simp [Admits.unit])
    refine .record rfl ?_
    simp only [user, List.map_cons, List.map_nil, List.zip_cons_cons, List.zip_nil_right, List.forall_mem_cons]
    exact ⟨.int number, marks, .float _ _, inner, other, List.forall_mem_nil _⟩
  have admits : Admits emptyItemsLimited [] user.ty datum :=
    held (by decide) (.present (.boxed (.ref rfl (held (by decide) (.absent _) (.present (.transient _ _))))))
      (.absent _)
  have encoded : datum.toBytes = .ok bytes := by rfl
  exact ⟨encoded, (((round_trip admits.unbounded).2.2 bytes encoded [255] 40).1).mpr admits⟩

/-- An announcement of one empty item too many is refused. -/
example : (Ty.seq .unit).fromBytes [0, 1, 0, 1] = .error (.tooManyItems 65537 emptyItemLimit) := by
  rfl

end Ty

end AppendLog
