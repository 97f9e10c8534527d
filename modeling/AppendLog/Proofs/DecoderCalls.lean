import AppendLog.Proofs.Slicing

/-! Decoders in use.

Whoever holds a decoder may call it as often as they like, in any order, and go on behind a call that has
failed. In whatever place it has stopped by then, the bytes read and the bytes left are all of the data,
and no call goes outside of them.
-/

set_option autoImplicit false

namespace AppendLog

inductive FixedRead : Type → Type where
  | raw (count : Nat) : FixedRead Bytes
  | int (kind : IntKind) : FixedRead Int
  | float (kind : FloatKind) : FixedRead kind.Bits
  | bool : FixedRead Bool
  | presence : FixedRead Bool
  | length : FixedRead Nat

/-- What a decoder is called for. An item may be read by any call, also by several ones in a row, and
behind one that fails. -/
inductive DecoderCall : Type → Type 1 where
  | fixed {α : Type} (read : FixedRead α) : DecoderCall α
  | text : DecoderCall String
  | data (ty : Ty) : DecoderCall Datum
  | value (shape : Shape) : DecoderCall Value
  | seq {α : Type} (item : DecoderCall α) : DecoderCall (List α)
  | items {α : Type} (item : DecoderCall α) (count : Nat) : DecoderCall (List α)
  | sliceInto {α : Type} (item : DecoderCall α) (old : List α) :
      DecoderCall (Except CodecError Unit × List α)
  | remaining : DecoderCall Bytes
  | isEmpty : DecoderCall Bool
  | finish : DecoderCall Unit
  | give {α : Type} (result : α) : DecoderCall α
  | refuse {α : Type} (error : CodecError) : DecoderCall α
  | attempt {α : Type} (call : DecoderCall α) : DecoderCall (Except CodecError α)
  | inRow {α β : Type} (first : DecoderCall α) (next : α → DecoderCall β) : DecoderCall β

namespace FixedRead

variable {α : Type}

def width : FixedRead α → Nat
  | raw count => count
  | int kind => kind.width
  | float kind => kind.width
  | bool => 1
  | presence => 1
  | length => lengthWidth

def decoder : FixedRead α → Decoding α
  | raw count => Decoding.raw count
  | int kind => Decoding.int kind
  | float kind => Decoding.float kind
  | bool => Decoding.bool
  | presence => Decoding.presence
  | length => Decoding.length

def slicing : FixedRead α → Slicing α
  | raw count => Slicing.raw count
  | int kind => Slicing.int kind
  | float kind => Slicing.float kind
  | bool => Slicing.bool
  | presence => Slicing.presence
  | length => Slicing.length

end FixedRead

namespace DecoderCall

def decoder : {α : Type} → DecoderCall α → Decoding α
  | _, fixed read => read.decoder
  | _, text => Decoding.text
  | _, data ty => ty.decode
  | _, value shape => shape.decode
  | _, seq item => Decoding.seq item.decoder
  | _, items item count => Decoding.items item.decoder count
  | _, sliceInto item old => Decoding.withSlots (Decoding.sliceInto item.decoder old)
  | _, remaining => do return (← get).rest
  | _, isEmpty => do return (← get).rest.isEmpty
  | _, finish => Decoding.finish
  | _, give result => pure result
  | _, refuse error => throw error
  | _, attempt call => Decoding.attempt call.decoder
  | _, inRow first next => do (next (← first.decoder)).decoder

def slicing : {α : Type} → DecoderCall α → Slicing α
  | _, fixed read => read.slicing
  | _, text => Slicing.text
  | _, data ty => ty.slicingIn [] []
  | _, value shape => shape.slicing
  | _, seq item => Slicing.seq item.slicing
  | _, items item count => Slicing.items item.slicing count
  | _, sliceInto item old => Slicing.sliceInto item.slicing old
  | _, remaining => Slicing.remaining
  | _, isEmpty => Slicing.isEmpty
  | _, finish => Slicing.finish
  | _, give result => pure result
  | _, refuse error => Slicing.fail error
  | _, attempt call => Slicing.attempt call.slicing
  | _, inRow first next => do (next (← first.slicing)).slicing

end DecoderCall

def Cursor.behind (cursor : Cursor) : List (Sigma DecoderCall) → Cursor
  | [] => cursor
  | ⟨_, call⟩ :: rest => (afterwards (call.decoder cursor)).behind rest

def Slicing.inTurn : List (Sigma DecoderCall) → Slicing Unit
  | [] => return ()
  | ⟨_, call⟩ :: rest => do
    let _ ← attempt call.slicing
    inTurn rest

def placed {α : Type} (data : Bytes) :
    EStateM.Result CodecError Cursor α → EStateM.Result (Breach CodecError) Tape α
  | .ok value after => .ok value ⟨data, after.position⟩
  | .error error stop => .error (.failed error) ⟨data, stop.position⟩

/-! Every call tracks -/

theorem FixedRead.tracks {α : Type} (read : FixedRead α) : Tracks read.slicing read.decoder := by
  cases read with
  | raw count => exact Slicing.tracks_raw count
  | int kind => exact Slicing.tracks_int kind
  | float kind => exact Slicing.tracks_float kind
  | bool => exact Slicing.tracks_flag .invalidBool
  | presence => exact Slicing.tracks_flag .invalidPresence
  | length => exact Slicing.tracks_length

theorem DecoderCall.tracks {α : Type} (call : DecoderCall α) : Tracks call.slicing call.decoder := by
  induction call with
  | fixed read => exact read.tracks
  | text => exact Slicing.tracks_text
  | data ty => exact ty.tracks_slicingIn .nil
  | value shape => exact shape.tracks_slicing
  | seq item ih => exact Slicing.tracks_seq ih
  | items item count ih => exact Slicing.tracks_items ih count
  | sliceInto item old ih => exact Slicing.tracks_sliceInto ih old
  | remaining => exact Slicing.tracks_remaining
  | isEmpty => exact Slicing.tracks_isEmpty
  | finish => exact Slicing.tracks_finish
  | give result => exact tracks_pure result
  | refuse error => exact tracks_fail error
  | attempt call ih => exact Slicing.tracks_attempt ih
  | inRow first next ih ihNext => exact ih.bind ihNext

/-- Calls one behind another stay within the data, and come to where the decoder is by then. -/
theorem Slicing.inTurn_eq (calls : List (Sigma DecoderCall)) {tape : Tape} (inside : tape.Inside) :
    ∃ stop, tape.Onward stop ∧ inTurn calls tape = .ok () stop ∧ tape.cursor.behind calls = stop.cursor := by
  induction calls generalizing tape with
  | nil => exact ⟨tape, inside.onward, rfl, rfl⟩
  | cons head rest ih =>
    obtain ⟨α, call⟩ := head
    have agrees : Agrees tape (attempt call.slicing tape) (.ok _ (afterwards (call.decoder tape.cursor))) :=
      tracks_attempt call.tracks tape inside
    rw [inTurn, Cursor.behind]
    generalize ran : attempt call.slicing tape = result at agrees
    generalize afterwards (call.decoder tape.cursor) = next at agrees ⊢
    cases agrees with
    | ok value onward =>
      rw [bind_of_ok ran]
      obtain ⟨stop, further, ended, same⟩ := ih onward.inside
      exact ⟨stop, onward.trans further, ended, same⟩

/-! Reads that end short -/

/-- The read fails for want of bytes where fewer are left than it takes, and then it takes none. -/
def EndsShort {α : Type} (decoder : Decoding α) (width : Nat) : Prop :=
  ∀ cursor needed remaining stop, decoder cursor = .error (.unexpectedEnd needed remaining) stop ↔
    cursor.rest.length < width ∧ needed = width ∧ remaining = cursor.rest.length ∧ stop = cursor

theorem endsShort_raw (count : Nat) : EndsShort (Decoding.raw count) count := by
  intro cursor needed remaining stop
  have front : (cursor.rest.take count).length = min count cursor.rest.length := List.length_take
  rw [Decoding.raw]
  split
  · simp only [reduceCtorEq, false_iff]
    omega
  · have short : cursor.rest.length < count := by omega
    simp only [EStateM.Result.error.injEq, CodecError.unexpectedEnd.injEq, short, true_and, and_assoc]
    simp only [eq_comm]

theorem EndsShort.bind {α β : Type} {first : Decoding α} {next : α → Decoding β} {width : Nat}
    (ends : EndsShort first width)
    (never : ∀ value cursor needed remaining stop,
      next value cursor ≠ .error (.unexpectedEnd needed remaining) stop) :
    EndsShort (first >>= next) width := by
  intro cursor needed remaining stop
  rw [bind_eq_error, ends]
  apply or_iff_left
  rintro ⟨value, middle, -, failed⟩
  exact never value middle needed remaining stop failed

theorem EndsShort.map {α β : Type} {convert : α → β} {first : Decoding α} {width : Nat}
    (ends : EndsShort first width) : EndsShort (do return convert (← first)) width :=
  ends.bind fun _ _ _ _ _ impossible => by cases impossible

theorem endsShort_flag {error : UInt8 → CodecError}
    (other : ∀ byte needed remaining, error byte ≠ .unexpectedEnd needed remaining) :
    EndsShort (Decoding.flag error) 1 := by
  apply (endsShort_raw 1).map.bind
  intro byte cursor needed remaining stop failed
  split at failed
  · cases failed
  · split at failed
    · cases failed
    · exact other byte needed remaining (EStateM.Result.error.inj failed).1

theorem FixedRead.endsShort {α : Type} (read : FixedRead α) : EndsShort read.decoder read.width := by
  cases read with
  | raw count => exact endsShort_raw count
  | int kind => exact (endsShort_raw kind.width).map
  | float kind => exact (endsShort_raw kind.width).map
  | bool => exact endsShort_flag fun _ _ _ impossible => by cases impossible
  | presence => exact endsShort_flag fun _ _ _ impossible => by cases impossible
  | length => exact (endsShort_raw lengthWidth).map

/-! Any calls in any order -/

theorem Agrees.eq_placed {α : Type} {tape : Tape} {result : EStateM.Result (Breach CodecError) Tape α}
    {decoded : EStateM.Result CodecError Cursor α} (agrees : Agrees tape result decoded) :
    result = placed tape.data decoded ∧ tape.position ≤ (afterwards decoded).position := by
  cases agrees with
  | ok value onward =>
    refine ⟨?_, onward.further⟩
    rw [placed, ← onward.data]
    rfl
  | error error onward =>
    refine ⟨?_, onward.further⟩
    rw [placed, ← onward.data]
    rfl

/-- Behind any calls, of which some may have failed, the place is within the data, with all that has been
read in front of it and all that is left behind it. None of the calls has been outside of the data, and
none that may come next is: it does in place what it does on what is left, and does not go back. A read
that wants for bytes says how many it needs and how many there are, and takes none of them. -/
theorem decoder_stays_inside (data : Bytes) (calls : List (Sigma DecoderCall)) :
    let cursor := (Cursor.ofBytes data).behind calls
    let tape : Tape := ⟨data, cursor.position⟩
    cursor.position ≤ data.length ∧ data.take cursor.position ++ cursor.rest = data ∧
      Slicing.inTurn calls ⟨data, 0⟩ = .ok () tape ∧
      (∀ (α : Type) (call : DecoderCall α),
        call.slicing tape = placed data (call.decoder cursor) ∧
          cursor.position ≤ (afterwards (call.decoder cursor)).position) ∧
      ∀ (α : Type) (read : FixedRead α) (needed remaining : Nat) (stop : Cursor),
        read.decoder cursor = .error (.unexpectedEnd needed remaining) stop ↔
          remaining < needed ∧ needed = read.width ∧ remaining = data.length - cursor.position ∧
            stop = cursor := by
  have start : Tape.Inside ⟨data, 0⟩ := Nat.zero_le _
  obtain ⟨⟨kept, position⟩, ⟨whole, -, inside⟩, ran, same⟩ := Slicing.inTurn_eq calls start
  have whole : kept = data := whole
  subst whole
  have stands : (Cursor.ofBytes kept).behind calls = Tape.cursor ⟨kept, position⟩ := same
  rw [stands]
  intro cursor tape
  refine ⟨inside, List.take_append_drop position kept, ran, fun α call => ?_,
    fun α read needed remaining stop => ?_⟩
  · exact (call.tracks tape inside).eq_placed
  · have left : cursor.rest.length = kept.length - position := tape.length_rest
    rw [read.endsShort cursor, left]
    constructor
    · rintro ⟨short, rfl, rfl, same⟩
      exact ⟨short, rfl, rfl, same⟩
    · rintro ⟨short, rfl, rfl, same⟩
      exact ⟨short, rfl, rfl, same⟩

/-- The first item of the sequence is cut short behind its length, and the byte left is no flag. -/
example : (Cursor.ofBytes [0, 0, 0, 2, 5]).behind
    [⟨_, .seq (.fixed (.int .u16))⟩, ⟨_, .fixed .bool⟩] = ⟨[], 5⟩ := rfl

end AppendLog
