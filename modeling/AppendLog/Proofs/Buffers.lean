import AppendLog.Buffer
import AppendLog.Proofs.Canonical

/-! Runs on a buffer.

Values and plain bytes are written and read at one cursor, and what is behind it is sliced off without
a check. `Does` says what a call does to the contents and the cursor, in terms of these alone. Each call
does just that as long as the cursor is inside the contents, and no call moves it out of them, so this
holds in the midst of every run: `run_does`.
-/

set_option autoImplicit false

namespace AppendLog

namespace Decoding

variable {α : Type}

def Advances (decoder : Decoding α) : Prop :=
  ∀ cursor value after, decoder cursor = .ok value after →
    ∃ consumed, cursor.rest = consumed ++ after.rest ∧ after.position = cursor.position + consumed.length

variable {decoder : Decoding α}

theorem Reads.advances {spell : α → Bytes} {range : α → Prop} (reads : decoder.Reads spell range) :
    decoder.Advances :=
  fun cursor value after read => ⟨spell value, (reads cursor value after read).2⟩

end Decoding

namespace Buffer

/-- Something to read, by a decoder that is honest about what it has consumed. -/
structure Item where
  Carrier : Type
  decoder : Decoding Carrier
  advances : decoder.Advances

def Item.ofTy (ty : Ty) : Item :=
  ⟨Datum, ty.decode, (Ty.canonical_decodeIn ty (List.forall_mem_nil _)).reads.advances⟩

end Buffer

open Buffer (Item)

inductive BufferCall where
  | write (encoding : Encoding)
  | read (item : Item)
  | readInto (item : Item) (old : item.Carrier)
  | seek (place : SeekTarget)
  | reset
  | writeBytes (bytes : Bytes)
  | readBytes (count : Nat)
  | flush

/-- What a call gives. Reading into a value also says what has become of that value. -/
def BufferCall.Answer : BufferCall → Type
  | write _ => Except CodecError Nat
  | read item => Except CodecError item.Carrier
  | readInto item _ => Except CodecError Nat × item.Carrier
  | seek _ => Except SeekError Nat
  | reset => Unit
  | writeBytes _ => Nat
  | readBytes _ => Bytes
  | flush => Unit

namespace Buffer

def serve (buffer : Buffer) : (call : BufferCall) → call.Answer × Buffer
  | .write encoding => buffer.write encoding
  | .read item => buffer.read item.decoder
  | .readInto item old =>
    let (count, value, after) := buffer.readInto item.decoder old
    ((count, value), after)
  | .seek place => buffer.seek place
  | .reset => ((), buffer.reset)
  | .writeBytes bytes => (bytes.length, buffer.splice bytes)
  | .readBytes count => buffer.readBytes count
  | .flush => ((), buffer)

def run (buffer : Buffer) : List BufferCall → Buffer
  | [] => buffer
  | call :: rest => (buffer.serve call).2.run rest

def Inside (buffer : Buffer) : Prop := buffer.position ≤ buffer.length

def written (bytes : Bytes) : Buffer := ⟨bytes, bytes.length⟩

/-- What the calls to a buffer do, in terms of its contents and its cursor. -/
inductive Does (before : Buffer) : (call : BufferCall) → call.Answer → Buffer → Prop where
  | write {encoding : Encoding} {bytes : Bytes} : encoding.toBytes = .ok bytes →
      Does before (.write encoding) (.ok bytes.length)
        (written (before.bytes.take before.position ++ bytes))
  | writeFails {encoding : Encoding} {error : CodecError} : encoding.toBytes = .error error →
      Does before (.write encoding) (.error error) before
  | read {item : Item} {value : item.Carrier} {consumed more : Bytes} :
      before.rest = consumed ++ more →
      item.decoder (.ofBytes before.rest) = .ok value ⟨more, consumed.length⟩ →
      Does before (.read item) (.ok value) ⟨before.bytes, before.position + consumed.length⟩
  | readFails {item : Item} {error : CodecError} {stop : Cursor} :
      item.decoder (.ofBytes before.rest) = .error error stop →
      Does before (.read item) (.error error) before
  | readInto {item : Item} {old value : item.Carrier} {consumed more : Bytes} :
      before.rest = consumed ++ more →
      item.decoder (.ofBytes before.rest) = .ok value ⟨more, consumed.length⟩ →
      Does before (.readInto item old) (.ok consumed.length, value)
        ⟨before.bytes, before.position + consumed.length⟩
  | readIntoFails {item : Item} {old : item.Carrier} {error : CodecError} {stop : Cursor} :
      item.decoder (.ofBytes before.rest) = .error error stop →
      Does before (.readInto item old) (.error error, old) before
  | seek {place : SeekTarget} {position : Nat} : before.target place = position →
      position ≤ before.length → Does before (.seek place) (.ok position) ⟨before.bytes, position⟩
  | seekFails {place : SeekTarget} : before.target place < 0 ∨ before.length < before.target place →
      Does before (.seek place) (.error ⟨before.target place, before.length⟩) before
  | reset : Does before .reset () empty
  | writeBytes (bytes : Bytes) : Does before (.writeBytes bytes) bytes.length
      (written (before.bytes.take before.position ++ bytes))
  | readBytes {count : Nat} {front more : Bytes} : before.rest = front ++ more →
      front.length = min count before.rest.length →
      Does before (.readBytes count) front ⟨before.bytes, before.position + front.length⟩
  | flush : Does before .flush () before

variable {before after buffer : Buffer} {call : BufferCall} {answer : call.Answer}

theorem splice_of_inside (inside : before.Inside) (bytes : Bytes) :
    before.splice bytes = written (before.bytes.take before.position ++ bytes) := by
  rw [splice, written, List.length_append, List.length_take_of_le inside]

theorem length_rest_of_inside (inside : before.Inside) :
    before.position + before.rest.length = before.length := by
  rw [rest, List.length_drop]
  exact Nat.add_sub_of_le inside

theorem inside_of_rest (inside : before.Inside) {front more : Bytes} (start : before.rest = front ++ more) :
    Inside ⟨before.bytes, before.position + front.length⟩ := by
  have total := length_rest_of_inside inside
  rw [start, List.length_append] at total
  exact Nat.le_of_add_right_le (Nat.le_of_eq ((Nat.add_assoc ..).trans total))

theorem Does.inside (does : Does before call answer after) (inside : before.Inside) : after.Inside := by
  cases does with
  | write | writeBytes => exact Nat.le_refl _
  | writeFails | readFails | readIntoFails | seekFails | flush => exact inside
  | read start | readInto start | readBytes start => exact inside_of_rest inside start
  | seek _ short => exact short
  | reset => exact Nat.zero_le _

/-! What each call does -/

section read

variable {α : Type} {decoder : Decoding α}

theorem read_of_ok {value : α} {cursor : Cursor} (ran : decoder (.ofBytes before.rest) = .ok value cursor) :
    before.read decoder = (.ok value, ⟨before.bytes, before.position + cursor.position⟩) := by
  rw [read, ran]

theorem read_of_error {error : CodecError} {stop : Cursor}
    (ran : decoder (.ofBytes before.rest) = .error error stop) :
    before.read decoder = (.error error, before) := by
  rw [read, ran]

theorem readInto_of_ok {old value : α} {cursor : Cursor}
    (ran : decoder (.ofBytes before.rest) = .ok value cursor) :
    before.readInto decoder old =
      (.ok cursor.position, value, ⟨before.bytes, before.position + cursor.position⟩) := by
  rw [readInto, read_of_ok ran]
  exact congrArg (fun count => (Except.ok count, _)) (Nat.add_sub_cancel_left ..)

theorem readInto_of_error {old : α} {error : CodecError} {stop : Cursor}
    (ran : decoder (.ofBytes before.rest) = .error error stop) :
    before.readInto decoder old = (.error error, old, before) := by
  rw [readInto, read_of_error ran]

end read

theorem Item.decoder_at (item : Item) (buffer : Buffer) :
    (∃ value consumed more, buffer.rest = consumed ++ more ∧
      item.decoder (.ofBytes buffer.rest) = .ok value ⟨more, consumed.length⟩) ∨
    ∃ error stop, item.decoder (.ofBytes buffer.rest) = .error error stop := by
  cases ran : item.decoder (.ofBytes buffer.rest) with
  | error error stop => exact .inr ⟨error, stop, rfl⟩
  | ok value stop =>
    obtain ⟨consumed, start, moved⟩ := item.advances _ _ _ ran
    obtain ⟨more, position⟩ := stop
    obtain rfl : position = consumed.length := moved.trans (Nat.zero_add _)
    exact .inl ⟨value, consumed, more, start, rfl⟩

theorem seek_of_inside {place : SeekTarget} {position : Nat} (exactly : before.target place = position)
    (short : position ≤ before.length) :
    before.seek place = (.ok position, ⟨before.bytes, position⟩) := by
  rw [seek, exactly]
  exact if_pos ⟨Int.natCast_nonneg _, Int.ofNat_le.mpr short⟩

theorem seek_of_outside {place : SeekTarget}
    (outside : before.target place < 0 ∨ before.length < before.target place) :
    before.seek place = (.error ⟨before.target place, before.length⟩, before) := by
  refine if_neg fun both => ?_
  rcases outside with negative | long
  · exact Int.not_le.mpr negative both.1
  · exact Int.not_le.mpr long both.2

theorem readBytes_eq {front more : Bytes} {count : Nat} (start : before.rest = front ++ more)
    (counted : front.length = min count before.rest.length) :
    before.readBytes count = (front, ⟨before.bytes, before.position + front.length⟩) := by
  have same : before.rest.take count = front := by
    rw [List.take_eq_take_min, ← counted, start, List.take_left]
  rw [readBytes, same]

theorem does_serve (inside : before.Inside) (call : BufferCall) :
    Does before call (before.serve call).1 (before.serve call).2 := by
  cases call with
  | write encoding =>
    rw [serve, Buffer.write]
    cases encoded : encoding.toBytes with
    | error error => exact .writeFails encoded
    | ok bytes =>
      simp only [splice_of_inside inside]
      exact .write encoded
  | read item =>
    rw [serve]
    rcases item.decoder_at before with ⟨value, consumed, more, start, ran⟩ | ⟨error, stop, ran⟩
    · rw [read_of_ok ran]
      exact .read start ran
    · rw [read_of_error ran]
      exact .readFails ran
  | readInto item old =>
    rw [serve]
    rcases item.decoder_at before with ⟨value, consumed, more, start, ran⟩ | ⟨error, stop, ran⟩
    · rw [readInto_of_ok ran]
      exact .readInto start ran
    · rw [readInto_of_error ran]
      exact .readIntoFails ran
  | seek place =>
    rw [serve]
    by_cases outside : before.target place < 0 ∨ before.length < before.target place
    · rw [seek_of_outside outside]
      exact .seekFails outside
    · obtain ⟨nonnegative, short⟩ := not_or.mp outside
      obtain ⟨position, exactly⟩ := Int.eq_ofNat_of_zero_le (Int.not_lt.mp nonnegative)
      rw [exactly, Int.not_lt, Int.ofNat_le] at short
      rw [seek_of_inside exactly short]
      exact .seek exactly short
  | reset => exact .reset
  | writeBytes bytes =>
    rw [serve, splice_of_inside inside]
    exact .writeBytes bytes
  | readBytes count =>
    have start := (List.take_append_drop count before.rest).symm
    rw [serve, readBytes_eq start (List.length_take ..)]
    exact .readBytes start (List.length_take ..)
  | flush => exact .flush

/-- What is stated of a call is all that it does. -/
theorem Does.serve (does : Does before call answer after) (inside : before.Inside) :
    before.serve call = (answer, after) := by
  cases does with
  | write encoded =>
    rw [Buffer.serve, Buffer.write, encoded]
    exact congrArg (Prod.mk _) (splice_of_inside inside _)
  | writeFails encoded =>
    rw [Buffer.serve, Buffer.write, encoded]
    rfl
  | read _ ran => exact read_of_ok ran
  | readFails ran => exact read_of_error ran
  | readInto _ ran => rw [Buffer.serve, readInto_of_ok ran]
  | readIntoFails ran => rw [Buffer.serve, readInto_of_error ran]
  | seek exactly short => exact seek_of_inside exactly short
  | seekFails outside => exact seek_of_outside outside
  | reset => rfl
  | writeBytes bytes => exact congrArg (Prod.mk _) (splice_of_inside inside _)
  | readBytes start counted => exact readBytes_eq start counted
  | flush => rfl

/-! Runs -/

theorem inside_run (inside : buffer.Inside) (calls : List BufferCall) : (buffer.run calls).Inside := by
  induction calls generalizing buffer with
  | nil => exact inside
  | cons call rest ih => exact ih ((does_serve inside call).inside inside)

/-- Whatever has been done to a buffer, its cursor is inside the contents, and the next call does what is
stated of it and nothing else. -/
theorem run_does (content : Bytes) (calls : List BufferCall) :
    let before := (ofBytes content).run calls
    before.Inside ∧ ∀ (call : BufferCall) (answer : call.Answer) (after : Buffer),
      before.serve call = (answer, after) ↔ Does before call answer after := by
  intro before
  have inside : before.Inside := inside_run (Nat.zero_le _) calls
  refine ⟨inside, fun call answer after => ⟨fun served => ?_, fun does => does.serve inside⟩⟩
  have does := does_serve inside call
  rwa [served] at does

/-- A failed read stays where it is, and the write behind it drops what it did not read. -/
example : (ofBytes [0, 0, 0, 9, 7]).run [.readBytes 2, .read (.ofTy .text), .seek (.back 1),
    .seek (.ahead (-1)), .read (.ofTy (.int .u16)), .writeBytes [5]] = ⟨[0, 0, 0, 5], 4⟩ := by
  cbv

end Buffer

end AppendLog
