import AppendLog.Proofs.Agreement

/-! Decoding in place.

A decoder keeps all of its data and the place that it has come to, and slices what it reads out of them.
It subtracts and slices without a check. All decoders are written here once more in this way, with
differences that may not be negative and slices that may not go past the end: `outside` is what no
decoder that stands on what is left of its data comes to. A decoder in place tracks another if it comes to
the same, and stops at a place in the data that is no further back: primitive decoders do, and what is
put together from others does if they do.
-/

set_option autoImplicit false

namespace AppendLog

/-- Data, and how many bytes of them have been read. -/
structure Tape where
  data : Bytes
  position : Nat
  deriving DecidableEq, Repr

/-- How a reading in place ends without a value. -/
inductive Breach (ε : Type) where
  | failed (error : ε)
  /-- A difference is negative, or a slice or an index is not within bounds. -/
  | outside
  deriving DecidableEq, Repr

def difference {ε σ : Type} (a b : Nat) : EStateM (Breach ε) σ Nat :=
  if b ≤ a then return a - b else throw .outside

theorem difference_of_le {ε σ : Type} {a b : Nat} (le : b ≤ a) (state : σ) :
    (difference a b : EStateM (Breach ε) σ Nat) state = .ok (a - b) state := by
  rw [difference, if_pos le]
  rfl

abbrev Slicing (α : Type) := EStateM (Breach CodecError) Tape α

namespace Tape

def cursor (tape : Tape) : Cursor := ⟨tape.data.drop tape.position, tape.position⟩

def left (tape : Tape) : Nat := tape.data.length - tape.position

end Tape

/-! Decoders -/

namespace Slicing

variable {α β : Type}

def fail (error : CodecError) : Slicing α := throw (.failed error)

def slice (start stop : Nat) : Slicing Bytes := do
  let tape ← get
  if start ≤ stop ∧ stop ≤ tape.data.length then return (tape.data.take stop).drop start
  else throw .outside

def attempt (slicing : Slicing α) : Slicing (Except CodecError α) := fun tape =>
  match slicing tape with
  | .ok value after => .ok (.ok value) after
  | .error (.failed error) stop => .ok (.error error) stop
  | .error .outside stop => .error .outside stop

def remaining : Slicing Bytes := do
  let tape ← get
  slice tape.position tape.data.length

def isEmpty : Slicing Bool := do
  let tape ← get
  return decide (tape.data.length ≤ tape.position)

def finish : Slicing Unit := do
  let tape ← get
  let left ← difference tape.data.length tape.position
  if left = 0 then return () else fail (.trailingBytes left)

def raw (count : Nat) : Slicing Bytes := do
  let tape ← get
  let left ← difference tape.data.length tape.position
  if left < count then fail (.unexpectedEnd count left)
  else
    let bytes ← slice tape.position (tape.position + count)
    set { tape with position := tape.position + count }
    return bytes

def word (width : Nat) : Slicing Bytes := do
  let bytes ← raw width
  if bytes.length = width then return bytes else throw .outside

def byte : Slicing UInt8 := do
  match (← word 1)[0]? with
  | some byte => return byte
  | none => throw .outside

def int (kind : IntKind) : Slicing Int := do
  return kind.ofBytes (← word kind.width)

def float (kind : FloatKind) : Slicing kind.Bits := do
  return kind.ofBytes (← word kind.width)

def flag (error : UInt8 → CodecError) : Slicing Bool := do
  let byte ← byte
  if byte = 0 then return false
  else if byte = 1 then return true
  else fail (error byte)

def bool : Slicing Bool := flag .invalidBool

def presence : Slicing Bool := flag .invalidPresence

def length : Slicing Nat := do
  return Bytes.toNat (← word lengthWidth)

def text : Slicing String := do
  let spelling ← raw (← length)
  match Text.ofBytes? spelling with
  | some text => return text
  | none => fail .invalidText

def repeated (item : Slicing α) : (count : Nat) → (done : List α) → Slicing (List α)
  | 0, done => return done.reverse
  | count + 1, done => do repeated item count ((← item) :: done)

def items (item : Slicing α) (length : Nat) : Slicing (List α) := do
  let available := (← remaining).length
  match length with
  | 0 => return []
  | more + 1 =>
    let start := (← get).position
    let first ← item
    let limit := if (← get).position = start then emptyItemLimit else available
    if limit < more + 1 then fail (.tooManyItems (more + 1) limit)
    else repeated item more [first]

def seq (item : Slicing α) : Slicing (List α) := do
  items item (← length)

def array (item : Slicing α) (expected : Nat) : Slicing (List α) := do
  let found ← length
  if found = expected then repeated item expected []
  else fail (.lengthMismatch expected found)

def overwrite (item : Slicing α) : (old : List α) → (done : List α) →
    Slicing (Except CodecError Unit × List α)
  | [], done => return (.ok (), done.reverse)
  | old :: more, done => do
    match ← attempt item with
    | .ok value => overwrite item more (value :: done)
    | .error error => return (.error error, done.reverse ++ old :: more)

def sliceInto (item : Slicing α) (old : List α) : Slicing (Except CodecError Unit × List α) := do
  match ← attempt length with
  | .error error => return (.error error, old)
  | .ok found =>
    if found = old.length then overwrite item old []
    else return (.error (.lengthMismatch old.length found), old)

def recursive (body : Slicing α → Slicing α) (tape : Tape) : EStateM.Result (Breach CodecError) Tape α :=
  body (fun inner =>
    if inner.left < tape.left then recursive body inner
    else .error (.failed (.unexpectedEnd (inner.left + 1) inner.left)) inner) tape
termination_by tape.left

end Slicing

namespace Ty

mutual

def slicingIn (scope : Scope) (outer : List (Slicing Datum)) : Ty → Slicing Datum
  | bool => return .bool (← Slicing.bool)
  | int kind => return .int kind (← Slicing.int kind)
  | float kind => return .float kind (← Slicing.float kind)
  | complex kind => return .complex kind (← Slicing.float kind) (← Slicing.float kind)
  | text => return .text (← Slicing.text)
  | unit => return .unit
  | transient ty => return .transient (ty.default scope)
  | seq item => return .list (← Slicing.seq (slicingIn scope outer item))
  | array item length => return .list (← Slicing.array (slicingIn scope outer item) length)
  | option item => do
    if ← Slicing.presence then return .present (← slicingIn scope outer item) else return .absent
  | boxed ty => slicingIn scope outer ty
  | tuple parts => return .tuple (← slicingParts scope outer parts)
  | record fields skipped own =>
    let inside : Scope := ⟨fields, skipped, own⟩ :: scope
    Slicing.recursive fun self =>
      return .record (← slicingFields inside (self :: outer) fields) (defaultFields inside skipped)
  | ref up => outer.getD up (pure .unit)

def slicingParts (scope : Scope) (outer : List (Slicing Datum)) : List Ty → Slicing (List Datum)
  | [] => return []
  | ty :: rest => return (← slicingIn scope outer ty) :: (← slicingParts scope outer rest)

def slicingFields (scope : Scope) (outer : List (Slicing Datum)) :
    List (String × Ty) → Slicing (List (String × Datum))
  | [] => return []
  | (name, ty) :: rest => return (name, ← slicingIn scope outer ty) :: (← slicingFields scope outer rest)

end

end Ty

namespace Shape

def slicingFloat (kind : FloatKind) : Slicing Binary64 := do
  return kind.widen (← Slicing.float kind)

def slicingInt (kind : IntKind) : Slicing Value := do
  let n ← Slicing.int kind
  return if kind.isSigned then .int n else .uint n.toNat

mutual

def slicing : Shape → Slicing Value
  | bool => return .bool (← Slicing.bool)
  | int kind => slicingInt kind
  | float kind => return .float (← slicingFloat kind)
  | complex kind => return .complex (← slicingFloat kind) (← slicingFloat kind)
  | text => return .text (← Slicing.text)
  | seq item => return .seq (← Slicing.seq (slicing item))
  | array item expected => do
    let found ← Slicing.length
    if found = expected then return .seq (← Slicing.items (slicing item) found)
    else Slicing.fail (.lengthMismatch expected found)
  | optional item => do
    if ← Slicing.presence then slicing item else return .null
  | record fields => return .record (← slicingFields fields)
  | void _ => return .unit

def slicingFields : List (String × Shape) → Slicing (List (String × Value))
  | [] => return []
  | (name, shape) :: rest => do
    let value ← slicing shape
    return (name, value) :: (← slicingFields rest)

end

end Shape

/-! Tracking -/

namespace Tape

def Inside (tape : Tape) : Prop := tape.position ≤ tape.data.length

/-- The same data, read further or as far, and not past their end. -/
structure Onward (tape after : Tape) : Prop where
  data : after.data = tape.data
  further : tape.position ≤ after.position
  inside : after.Inside

variable {tape next after : Tape}

theorem Inside.onward (inside : tape.Inside) : tape.Onward tape := ⟨rfl, Nat.le_refl _, inside⟩

theorem Onward.trans (first : tape.Onward next) (second : next.Onward after) : tape.Onward after :=
  ⟨second.data.trans first.data, Nat.le_trans first.further second.further, second.inside⟩

theorem length_rest (tape : Tape) : tape.cursor.rest.length = tape.left := List.length_drop

theorem position_cursor (tape : Tape) : tape.cursor.position = tape.position := rfl

theorem skip_cursor (tape : Tape) (count : Nat) :
    tape.cursor.skip count = Tape.cursor ⟨tape.data, tape.position + count⟩ := by
  rw [cursor, Cursor.skip, List.drop_drop]
  rfl

end Tape

section Tracks

variable {α β : Type} {tape next : Tape} {slicing : Slicing α} {decoder : Decoding α}
  {nextSlicing : α → Slicing β} {nextDecoder : α → Decoding β}

/-- In place the same has come out, and the place is where the decoder has stopped. -/
inductive Agrees (tape : Tape) :
    EStateM.Result (Breach CodecError) Tape α → EStateM.Result CodecError Cursor α → Prop where
  | ok (value : α) {after : Tape} : tape.Onward after →
      Agrees tape (.ok value after) (.ok value after.cursor)
  | error (error : CodecError) {stop : Tape} : tape.Onward stop →
      Agrees tape (.error (.failed error) stop) (.error error stop.cursor)

/-- Wherever it starts within the data, the decoder in place does as the other does there. -/
def Tracks (slicing : Slicing α) (decoder : Decoding α) : Prop :=
  ∀ tape, tape.Inside → Agrees tape (slicing tape) (decoder tape.cursor)

theorem Agrees.of_onward {result : EStateM.Result (Breach CodecError) Tape α}
    {decoded : EStateM.Result CodecError Cursor α} (agrees : Agrees next result decoded)
    (onward : tape.Onward next) : Agrees tape result decoded := by
  cases agrees with
  | ok value further => exact .ok value (onward.trans further)
  | error error further => exact .error error (onward.trans further)

/-- Behind a first decoder, what follows is to be compared only where that one has stopped. -/
theorem Agrees.bind (first : Agrees tape (slicing tape) (decoder tape.cursor))
    (rest : ∀ value next, tape.Onward next → decoder tape.cursor = .ok value next.cursor →
      Agrees next (nextSlicing value next) (nextDecoder value next.cursor)) :
    Agrees tape ((slicing >>= nextSlicing) tape) ((decoder >>= nextDecoder) tape.cursor) := by
  generalize ran : slicing tape = result at first
  generalize read : decoder tape.cursor = decoded at first
  cases first with
  | ok value onward =>
    rw [bind_of_ok ran, bind_of_ok read]
    exact (rest value _ onward read).of_onward onward
  | error error onward =>
    rw [bind_of_error ran, bind_of_error read]
    exact .error error onward

theorem tracks_pure (value : α) : Tracks (pure value) (pure value) :=
  fun _ inside => .ok value inside.onward

theorem tracks_fail (error : CodecError) : Tracks (Slicing.fail error : Slicing α) (throw error) :=
  fun _ inside => .error error inside.onward

theorem Tracks.bind (first : Tracks slicing decoder)
    (rest : ∀ value, Tracks (nextSlicing value) (nextDecoder value)) :
    Tracks (slicing >>= nextSlicing) (decoder >>= nextDecoder) :=
  fun tape inside => (first tape inside).bind fun value next onward _ => rest value next onward.inside

theorem Tracks.map {convert : α → β} (tracks : Tracks slicing decoder) :
    Tracks (do return convert (← slicing)) (do return convert (← decoder)) :=
  tracks.bind fun value => tracks_pure (convert value)

theorem Tracks.ite {other : Slicing α} {otherDecoder : Decoding α} (condition : Prop) [Decidable condition]
    (yes : Tracks slicing decoder) (no : Tracks other otherDecoder) :
    Tracks (if condition then slicing else other) (if condition then decoder else otherDecoder) := by
  split
  · exact yes
  · exact no

end Tracks

/-! Decoders in place that track others -/

namespace Slicing

variable {α : Type} {tape : Tape}

theorem attempt_of_ok {slicing : Slicing α} {value : α} {after : Tape} (ran : slicing tape = .ok value after) :
    attempt slicing tape = .ok (.ok value) after := by
  rw [attempt, ran]

theorem attempt_of_failed {slicing : Slicing α} {error : CodecError} {stop : Tape}
    (failed : slicing tape = .error (.failed error) stop) :
    attempt slicing tape = .ok (.error error) stop := by
  rw [attempt, failed]

theorem left_eq (inside : tape.Inside) :
    (difference tape.data.length tape.position : Slicing Nat) tape = .ok tape.left tape :=
  difference_of_le inside tape

theorem slice_eq {start stop : Nat} (order : start ≤ stop) (within : stop ≤ tape.data.length) :
    slice start stop tape = .ok ((tape.data.take stop).drop start) tape := by
  rw [slice, bind_of_ok (run_get tape), if_pos (And.intro order within)]
  rfl

theorem remaining_eq (inside : tape.Inside) : remaining tape = .ok tape.cursor.rest tape := by
  rw [remaining, bind_of_ok (run_get tape), slice_eq inside (Nat.le_refl _), List.take_length]
  rfl

theorem raw_eq (inside : tape.Inside) (count : Nat) :
    raw count tape = if tape.left < count then .error (.failed (.unexpectedEnd count tape.left)) tape
      else .ok (tape.cursor.rest.take count) ⟨tape.data, tape.position + count⟩ := by
  rw [raw, bind_of_ok (run_get tape), bind_of_ok (left_eq inside)]
  split
  · rfl
  · case isFalse enough =>
    have order : tape.position ≤ tape.data.length := inside
    have within : tape.position + count ≤ tape.data.length := by
      rw [Tape.left] at enough
      omega
    have same : (tape.data.take (tape.position + count)).drop tape.position =
        tape.cursor.rest.take count := by
      rw [List.drop_take, Nat.add_sub_cancel_left]
      rfl
    rw [bind_of_ok (slice_eq (Nat.le_add_right _ _) within), same]
    rfl

theorem tracks_raw (count : Nat) : Tracks (raw count) (Decoding.raw count) := by
  intro tape inside
  have front : (tape.cursor.rest.take count).length = min count tape.left := by
    rw [List.length_take, tape.length_rest]
  rw [raw_eq inside, Decoding.raw]
  split
  · case isTrue short =>
    rw [if_neg (by omega), tape.length_rest]
    exact .error _ inside.onward
  · case isFalse enough =>
    have order : tape.position ≤ tape.data.length := inside
    have onward : tape.Onward ⟨tape.data, tape.position + count⟩ := by
      refine ⟨rfl, Nat.le_add_right _ _, ?_⟩
      rw [Tape.left] at enough
      show tape.position + count ≤ tape.data.length
      omega
    rw [if_pos (by omega), tape.skip_cursor]
    exact .ok _ onward

theorem tracks_word (width : Nat) : Tracks (word width) (Decoding.raw width) := by
  intro tape inside
  rw [← bind_pure (Decoding.raw width)]
  refine (tracks_raw width tape inside).bind fun bytes next onward read => ?_
  have full : bytes.length = width := ((Decoding.inverts_raw width).reads _ _ _ read).1
  rw [if_pos full]
  exact .ok bytes onward.inside.onward

theorem tracks_byte : Tracks byte Decoding.byte := by
  intro tape inside
  refine (tracks_word 1 tape inside).bind fun bytes next onward read => ?_
  have full : bytes.length = 1 := ((Decoding.inverts_raw 1).reads _ _ _ read).1
  obtain ⟨byte, rfl⟩ := List.length_eq_one_iff.mp full
  exact .ok byte onward.inside.onward

theorem tracks_int (kind : IntKind) : Tracks (int kind) (Decoding.int kind) :=
  (tracks_word kind.width).map

theorem tracks_float (kind : FloatKind) : Tracks (float kind) (Decoding.float kind) :=
  (tracks_word kind.width).map

theorem tracks_flag (error : UInt8 → CodecError) : Tracks (flag error) (Decoding.flag error) :=
  tracks_byte.bind fun byte =>
    .ite (byte = 0) (tracks_pure false) (.ite (byte = 1) (tracks_pure true) (tracks_fail (error byte)))

theorem tracks_length : Tracks length Decoding.length := (tracks_word lengthWidth).map

theorem tracks_text : Tracks text Decoding.text := by
  refine tracks_length.bind fun count => (tracks_raw count).bind fun spelling => ?_
  cases Text.ofBytes? spelling with
  | none => exact tracks_fail .invalidText
  | some text => exact tracks_pure text

theorem tracks_remaining : Tracks remaining (do return (← get).rest) := by
  intro tape inside
  rw [remaining_eq inside]
  exact .ok _ inside.onward

theorem tracks_isEmpty : Tracks isEmpty (do return (← get).rest.isEmpty) := by
  intro tape inside
  have same : tape.cursor.rest.isEmpty = decide (tape.data.length ≤ tape.position) := by
    rw [Bool.eq_iff_iff, List.isEmpty_iff_length_eq_zero, tape.length_rest, decide_eq_true_iff]
    exact Nat.sub_eq_zero_iff_le
  show Agrees tape (.ok _ tape) (.ok tape.cursor.rest.isEmpty tape.cursor)
  rw [same]
  exact .ok _ inside.onward

theorem tracks_finish : Tracks finish Decoding.finish := by
  intro tape inside
  rw [finish, bind_of_ok (run_get tape), bind_of_ok (left_eq inside), Decoding.finish, tape.length_rest]
  by_cases nothing : tape.left = 0
  · have empty : tape.cursor.rest.isEmpty = true := by
      rw [List.isEmpty_iff_length_eq_zero, tape.length_rest, nothing]
    rw [if_pos nothing, if_pos empty]
    exact .ok () inside.onward
  · have more : ¬ tape.cursor.rest.isEmpty = true := by
      rwa [List.isEmpty_iff_length_eq_zero, tape.length_rest]
    rw [if_neg nothing, if_neg more]
    exact .error _ inside.onward

end Slicing

namespace Decoding

variable {α : Type} (item : Decoding α)

def attempt : Decoding (Except CodecError α) := fun cursor =>
  .ok (outcome (item cursor)) (afterwards (item cursor))

def withSlots (reading : Cursor → Except CodecError Unit × List α × Cursor) :
    Decoding (Except CodecError Unit × List α) := fun cursor =>
  let (answer, items, stop) := reading cursor
  .ok (answer, items) stop

end Decoding

namespace Slicing

section Items

variable {α : Type} {item : Slicing α} {decoder : Decoding α}

theorem tracks_repeated (tracks : Tracks item decoder) (count : Nat) (done : List α) :
    Tracks (repeated item count done) (Decoding.repeated decoder count done) := by
  induction count generalizing done with
  | zero => exact tracks_pure done.reverse
  | succ count ih =>
    rw [Decoding.repeated_succ]
    exact tracks.bind fun value => ih (value :: done)

/-- The number of bytes that are available is taken before the first item, the limit behind it. -/
theorem tracks_items (tracks : Tracks item decoder) (count : Nat) :
    Tracks (items item count) (Decoding.items decoder count) := by
  intro tape inside
  rw [items, bind_of_ok (remaining_eq inside)]
  cases count with
  | zero => exact .ok [] inside.onward
  | succ more =>
    rw [Decoding.items_succ]
    refine (tracks tape inside).bind fun first next onward _ => ?_
    rw [bind_of_ok (run_get next), Decoding.behindFirst, Tape.position_cursor, Tape.position_cursor]
    generalize (if next.position = tape.position then emptyItemLimit else tape.cursor.rest.length) = limit
    split
    · exact .error _ onward.inside.onward
    · exact tracks_repeated tracks more [first] next onward.inside

theorem tracks_seq (tracks : Tracks item decoder) : Tracks (seq item) (Decoding.seq decoder) :=
  tracks_length.bind fun count => tracks_items tracks count

theorem tracks_array (tracks : Tracks item decoder) (expected : Nat) :
    Tracks (array item expected) (Decoding.array decoder expected) :=
  tracks_length.bind fun found =>
    .ite (found = expected) (tracks_repeated tracks expected []) (tracks_fail _)

theorem tracks_attempt (tracks : Tracks item decoder) : Tracks (attempt item) (Decoding.attempt decoder) := by
  intro tape inside
  have agrees := tracks tape inside
  rw [Decoding.attempt]
  generalize ran : item tape = result at agrees
  generalize decoder tape.cursor = decoded at agrees ⊢
  cases agrees with
  | ok value onward =>
    rw [attempt_of_ok ran]
    exact .ok _ onward
  | error error onward =>
    rw [attempt_of_failed ran]
    exact .ok _ onward

/-- What is left of the old items is part of what comes out, so this never fails. -/
theorem tracks_overwrite (tracks : Tracks item decoder) (old done : List α) :
    Tracks (overwrite item old done) (Decoding.withSlots (Decoding.overwrite decoder old done)) := by
  induction old generalizing done with
  | nil => exact tracks_pure (Except.ok (), done.reverse)
  | cons head more ih =>
    intro tape inside
    have agrees := tracks tape inside
    rw [overwrite, Decoding.withSlots, Decoding.overwrite]
    generalize ran : item tape = result at agrees
    generalize decoder tape.cursor = decoded at agrees ⊢
    cases agrees with
    | ok value onward =>
      rw [bind_of_ok (attempt_of_ok ran)]
      exact (ih (value :: done) _ onward.inside).of_onward onward
    | error error onward =>
      rw [bind_of_ok (attempt_of_failed ran)]
      exact .ok _ onward

theorem tracks_sliceInto (tracks : Tracks item decoder) (old : List α) :
    Tracks (sliceInto item old) (Decoding.withSlots (Decoding.sliceInto decoder old)) := by
  intro tape inside
  have agrees := tracks_length tape inside
  rw [sliceInto, Decoding.withSlots, Decoding.sliceInto]
  generalize ran : length tape = result at agrees
  generalize Decoding.length tape.cursor = decoded at agrees ⊢
  cases agrees with
  | error error onward =>
    rw [bind_of_ok (attempt_of_failed ran)]
    exact .ok _ onward
  | ok found onward =>
    rw [bind_of_ok (attempt_of_ok ran)]
    dsimp only
    split
    · exact (tracks_overwrite tracks old [] _ onward.inside).of_onward onward
    · exact .ok _ onward

end Items

/-- Inner readings start at places with less left than there is at the outer one. -/
theorem tracks_recursive {α : Type} {body : Slicing α → Slicing α} {outline : Decoding α → Decoding α}
    (keeps : ∀ self decoder, Tracks self decoder → Tracks (body self) (outline decoder)) :
    Tracks (recursive body) (Decoding.recursive outline) := by
  intro tape inside
  induction tape using WellFounded.induction (measure Tape.left).wf with
  | _ tape ih =>
    rw [recursive, Decoding.recursive]
    -- Both refuse an inner reading that would not be on less, in the same words.
    refine keeps _ _ (fun inner within => ?_) tape inside
    simp only [Tape.length_rest]
    split
    · case isTrue shorter => exact ih inner shorter within
    · exact .error _ within.onward

end Slicing

namespace Ty

open Slicing

theorem tracks_enclosing {places : List (Slicing Datum)} {outer : List (Decoding Datum)}
    (enclosed : List.Forall₂ Tracks places outer) (up : Nat) :
    Tracks (places.getD up (pure .unit)) (enclosing outer up) := by
  induction enclosed generalizing up with
  | nil => exact tracks_pure Datum.unit
  | cons first rest ih =>
    cases up with
    | zero => exact first
    | succ up => exact ih up

mutual

theorem tracks_slicingIn : ∀ (ty : Ty) {scope : Scope} {places : List (Slicing Datum)}
    {outer : List (Decoding Datum)}, List.Forall₂ Tracks places outer →
      Tracks (slicingIn scope places ty) (decodeIn scope outer ty)
  | bool, _, _, _, _ => (tracks_flag _).map
  | int kind, _, _, _, _ => (tracks_int kind).map
  | float kind, _, _, _, _ => (tracks_float kind).map
  | complex kind, _, _, _, _ => (tracks_float kind).bind fun _ => (tracks_float kind).map
  | text, _, _, _, _ => tracks_text.map
  | unit, _, _, _, _ => tracks_pure Datum.unit
  | transient ty, scope, _, _, _ => tracks_pure (Datum.transient (ty.default scope))
  | seq item, _, _, _, enclosed => (tracks_seq (tracks_slicingIn item enclosed)).map
  | array item length, _, _, _, enclosed => (tracks_array (tracks_slicingIn item enclosed) length).map
  | option item, _, _, _, enclosed =>
    (tracks_flag _).bind fun present =>
      .ite (present = true) (tracks_slicingIn item enclosed).map (tracks_pure Datum.absent)
  | boxed ty, _, _, _, enclosed => tracks_slicingIn ty enclosed
  | tuple parts, _, _, _, enclosed => (tracks_slicingParts parts enclosed).map
  | record fields _ _, _, _, _, enclosed =>
    tracks_recursive fun _ _ tracks => (tracks_slicingFields fields (.cons tracks enclosed)).map
  | ref up, _, _, _, enclosed => tracks_enclosing enclosed up

theorem tracks_slicingParts : ∀ (parts : List Ty) {scope : Scope} {places : List (Slicing Datum)}
    {outer : List (Decoding Datum)}, List.Forall₂ Tracks places outer →
      Tracks (slicingParts scope places parts) (decodeParts scope outer parts)
  | [], _, _, _, _ => tracks_pure []
  | ty :: rest, _, _, _, enclosed =>
    (tracks_slicingIn ty enclosed).bind fun _ => (tracks_slicingParts rest enclosed).map

theorem tracks_slicingFields : ∀ (fields : List (String × Ty)) {scope : Scope} {places : List (Slicing Datum)}
    {outer : List (Decoding Datum)}, List.Forall₂ Tracks places outer →
      Tracks (slicingFields scope places fields) (decodeFields scope outer fields)
  | [], _, _, _, _ => tracks_pure []
  | (_, ty) :: rest, _, _, _, enclosed =>
    (tracks_slicingIn ty enclosed).bind fun _ => (tracks_slicingFields rest enclosed).map

end

end Ty

namespace Shape

open Slicing

theorem tracks_slicingFloat (kind : FloatKind) : Tracks (slicingFloat kind) (decodeFloat kind) :=
  (tracks_float kind).map

theorem tracks_slicingInt (kind : IntKind) : Tracks (slicingInt kind) (decodeInt kind) :=
  (tracks_int kind).map

mutual

theorem tracks_slicing : ∀ shape : Shape, Tracks shape.slicing shape.decode
  | bool => (tracks_flag _).map
  | int kind => tracks_slicingInt kind
  | float kind => (tracks_slicingFloat kind).map
  | complex kind => (tracks_slicingFloat kind).bind fun _ => (tracks_slicingFloat kind).map
  | text => tracks_text.map
  | seq item => (tracks_seq (tracks_slicing item)).map
  | array item expected =>
    tracks_length.bind fun found =>
      .ite (found = expected) (tracks_items (tracks_slicing item) found).map (tracks_fail _)
  | optional item =>
    (tracks_flag _).bind fun present =>
      .ite (present = true) (tracks_slicing item) (tracks_pure Value.null)
  | record fields => (tracks_slicingFields fields).map
  | void _ => tracks_pure Value.unit

theorem tracks_slicingFields : ∀ fields : List (String × Shape),
    Tracks (slicingFields fields) (decodeFields fields)
  | [] => tracks_pure []
  | (_, shape) :: rest => (tracks_slicing shape).bind fun _ => (tracks_slicingFields rest).map

end

end Shape

end AppendLog
