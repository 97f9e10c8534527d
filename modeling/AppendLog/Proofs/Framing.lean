import AppendLog.Proofs.Buffers
import AppendLog.Proofs.RoundTrip

/-! Framing in a buffer.

Data of any types are written one behind another, with nothing between them, and read back in the same
order. A read sees all that has been written behind its own data, and still stops where they end, so the
next one starts at its own. What has been in the buffer behind the cursor is dropped with the first
write; if nothing is written, it stays, and then the last read is not at the end.
-/

set_option autoImplicit false

namespace AppendLog

/-- In front of whatever follows, encoded data are read back but for what is not stored of them. -/
theorem Ty.Admits.decode_encode {ty : Ty} {datum : Datum} (admits : Admits emptyItemsLimited [] ty datum)
    (whole : datum.encode.error = none) (more : Bytes) (position : Nat) :
    ty.decode ⟨datum.encode.bytes ++ more, position⟩ =
      .ok (datum.reset [] ty) ⟨more, position + datum.encode.bytes.length⟩ := by
  have unlinked : Linked [] := trivial
  have read : ty.decode.Yields datum.encode.bytes (datum.reset [] ty) (Admits emptyItemsLimited [] ty datum)
      more position :=
    admits.unbounded.yields unlinked rfl whole position fun _ _ found => absurd found (by simp)
  rcases read with ⟨-, ran⟩ | ⟨outside, -⟩
  · exact ran
  · exact absurd admits outside

namespace Buffer

def writeEach (buffer : Buffer) : List Datum → List (Except CodecError Nat) × Buffer
  | [] => ([], buffer)
  | datum :: rest =>
    let (answer, next) := buffer.write datum.encode
    let (answers, last) := next.writeEach rest
    (answer :: answers, last)

def readEach (buffer : Buffer) : List Ty → List (Except CodecError Datum × Nat) × Buffer
  | [] => ([], buffer)
  | ty :: rest =>
    let (answer, next) := buffer.read ty.decode
    let (answers, last) := next.readEach rest
    ((answer, next.position - buffer.position) :: answers, last)

def readEachInto (buffer : Buffer) : List (Ty × Datum) → List (Except CodecError Nat × Datum) × Buffer
  | [] => ([], buffer)
  | (ty, old) :: rest =>
    let (answer, datum, next) := buffer.readInto ty.decode old
    let (answers, last) := next.readEachInto rest
    ((answer, datum) :: answers, last)

def framed (data : List Datum) : Bytes := data.flatMap fun datum => datum.encode.bytes

variable {buffer filled : Buffer} {data : List Datum}

/-! Writing -/

theorem write_of_whole (inside : buffer.Inside) {datum : Datum} (whole : datum.encode.error = none) :
    buffer.write datum.encode = (.ok datum.encode.bytes.length,
      written (buffer.bytes.take buffer.position ++ datum.encode.bytes)) := by
  have encoded : datum.encode.toBytes = .ok datum.encode.bytes := Encoding.toBytes_eq_ok.mpr ⟨whole, rfl⟩
  rw [write, encoded]
  exact congrArg (Prod.mk _) (splice_of_inside inside _)

theorem whole_of_write {datum : Datum} {count : Nat} (wrote : (buffer.write datum.encode).1 = .ok count) :
    datum.encode.error = none := by
  cases encoded : datum.encode.toBytes with
  | ok bytes => exact (Encoding.toBytes_eq_ok.mp encoded).1
  | error error =>
    rw [write, encoded] at wrote
    cases wrote

theorem whole_of_writeEach {counts : List Nat} (wrote : (buffer.writeEach data).1 = counts.map .ok) :
    ∀ datum ∈ data, datum.encode.error = none := by
  induction data generalizing buffer counts with
  | nil => exact List.forall_mem_nil _
  | cons datum rest ih =>
    cases counts with
    | nil => cases wrote
    | cons count counts =>
      obtain ⟨first, others⟩ := List.cons.inj wrote
      exact List.forall_mem_cons.mpr ⟨whole_of_write first, ih others⟩

theorem writeEach_written (contents : Bytes) (whole : ∀ datum ∈ data, datum.encode.error = none) :
    (written contents).writeEach data =
      (data.map fun datum => .ok datum.encode.bytes.length, written (contents ++ framed data)) := by
  induction data generalizing contents with
  | nil =>
    rw [framed, List.flatMap_nil, List.append_nil]
    rfl
  | cons datum rest ih =>
    obtain ⟨first, others⟩ := List.forall_mem_cons.mp whole
    have inside : (written contents).Inside := Nat.le_refl _
    have all : (written contents).bytes.take (written contents).position = contents := List.take_length
    simp only [writeEach, write_of_whole inside first, all, ih _ others]
    rw [framed, framed, List.flatMap_cons, List.append_assoc, List.map_cons]

theorem writeEach_cons (inside : buffer.Inside) {datum : Datum}
    (whole : ∀ other ∈ datum :: data, other.encode.error = none) :
    buffer.writeEach (datum :: data) = ((datum :: data).map fun datum => .ok datum.encode.bytes.length,
      written (buffer.bytes.take buffer.position ++ framed (datum :: data))) := by
  obtain ⟨first, others⟩ := List.forall_mem_cons.mp whole
  simp only [writeEach, write_of_whole inside first, writeEach_written _ others]
  rw [framed, framed, List.flatMap_cons, List.append_assoc, List.map_cons]

/-- What has been written stands behind what was in front of the cursor, and at the end of the buffer
unless it is nothing. -/
theorem writeEach_eq (inside : buffer.Inside) (whole : ∀ datum ∈ data, datum.encode.error = none) :
    ∃ after more, buffer.writeEach data = (data.map fun datum => .ok datum.encode.bytes.length, after) ∧
      after.bytes = buffer.bytes.take buffer.position ++ (framed data ++ more) ∧
      (data ≠ [] → more = []) := by
  cases data with
  | nil => exact ⟨buffer, buffer.rest, rfl, (List.take_append_drop _ _).symm, absurd rfl⟩
  | cons datum rest =>
    refine ⟨_, [], writeEach_cons inside whole, ?_, fun _ => rfl⟩
    rw [List.append_nil]
    rfl

/-! Reading -/

theorem rest_past {front more : Bytes} (start : buffer.rest = front ++ more) :
    Buffer.rest ⟨buffer.bytes, buffer.position + front.length⟩ = more := by
  have dropped : buffer.rest.drop front.length = more := by rw [start, List.drop_left]
  rwa [rest, List.drop_drop] at dropped

variable {frames : List (Ty × Datum)} {more : Bytes}

/-- Data of types, with no more items that take no bytes than are let pass, all of which can be
encoded. -/
def Readable (frames : List (Ty × Datum)) : Prop :=
  ∀ frame ∈ frames, Ty.Admits Ty.emptyItemsLimited [] frame.1 frame.2 ∧ frame.2.encode.error = none

theorem readEach_eq (readable : Readable frames)
    (start : buffer.rest = framed (frames.map Prod.snd) ++ more) :
    buffer.readEach (frames.map Prod.fst) =
      (frames.map fun frame => (.ok (frame.2.reset [] frame.1), frame.2.encode.bytes.length),
        ⟨buffer.bytes, buffer.position + (framed (frames.map Prod.snd)).length⟩) := by
  induction frames generalizing buffer with
  | nil => rfl
  | cons frame frames ih =>
    obtain ⟨ty, datum⟩ := frame
    obtain ⟨⟨admits, whole⟩, others⟩ := List.forall_mem_cons.mp readable
    simp only [framed, List.map_cons, List.flatMap_cons, List.append_assoc] at start ⊢
    have ran := admits.decode_encode whole (framed (frames.map Prod.snd) ++ more) 0
    rw [framed, ← start, Nat.zero_add] at ran
    have left := ih others (rest_past start)
    rw [framed] at left
    simp only [readEach, read_of_ok ran, left, Nat.add_sub_cancel_left, List.length_append, Nat.add_assoc]

theorem readEachInto_eq (readable : Readable frames) {olds : List Datum} (places : olds.length = frames.length)
    (start : buffer.rest = framed (frames.map Prod.snd) ++ more) :
    buffer.readEachInto ((frames.map Prod.fst).zip olds) =
      (frames.map fun frame => (.ok frame.2.encode.bytes.length, frame.2.reset [] frame.1),
        ⟨buffer.bytes, buffer.position + (framed (frames.map Prod.snd)).length⟩) := by
  induction frames generalizing buffer olds with
  | nil => rfl
  | cons frame frames ih =>
    cases olds with
    | nil => cases places
    | cons old olds =>
      obtain ⟨ty, datum⟩ := frame
      obtain ⟨⟨admits, whole⟩, others⟩ := List.forall_mem_cons.mp readable
      simp only [framed, List.map_cons, List.flatMap_cons, List.append_assoc] at start ⊢
      have ran := admits.decode_encode whole (framed (frames.map Prod.snd) ++ more) 0
      rw [framed, ← start, Nat.zero_add] at ran
      have left := ih others (Nat.succ.inj places) (rest_past start)
      rw [framed] at left
      simp only [List.zip_cons_cons, readEachInto, readInto_of_ok ran, left, List.length_append, Nat.add_assoc]

/-! There and back -/

/-- Whatever has been done to a buffer, data that are written at its cursor, one behind another, are read
back from there in the same order, as new data or over older ones, with defaults for what is not stored.
Each read passes as many bytes as the write of its data has reported. What was in front of the cursor is
still there, and the last read ends at the end of the buffer. If nothing is written at all, nothing is
dropped either, and the cursor stays where it has been. -/
theorem frames_read_back (content : Bytes) (calls : List BufferCall) :
    let buffer := (ofBytes content).run calls
    ∀ (frames : List (Ty × Datum)) (counts : List Nat) (filled : Buffer),
      (∀ frame ∈ frames, Ty.Admits Ty.emptyItemsLimited [] frame.1 frame.2) →
      buffer.writeEach (frames.map Prod.snd) = (counts.map .ok, filled) →
        let data := frames.map fun frame => frame.2.reset [] frame.1
        let start : Buffer := ⟨filled.bytes, buffer.position⟩
        let stop : Buffer := ⟨filled.bytes, buffer.position + counts.sum⟩
        filled.seek (.front buffer.position) = (.ok buffer.position, start) ∧
          start.readEach (frames.map Prod.fst) = ((data.map .ok).zip counts, stop) ∧
          (∀ olds : List Datum, olds.length = frames.length →
            start.readEachInto ((frames.map Prod.fst).zip olds) = ((counts.map .ok).zip data, stop)) ∧
          filled.bytes.take buffer.position = buffer.bytes.take buffer.position ∧
          (frames ≠ [] → stop.position = filled.length) ∧ (frames = [] → stop = buffer) := by
  intro buffer frames counts filled admits wrote data start stop
  have inside : buffer.Inside := inside_run (Nat.zero_le _) calls
  have whole : ∀ datum ∈ frames.map Prod.snd, datum.encode.error = none :=
    whole_of_writeEach (congrArg Prod.fst wrote)
  have readable : Readable frames := fun frame member =>
    ⟨admits frame member, whole _ (List.mem_map_of_mem member)⟩
  obtain ⟨after, more, reported, contents, atEnd⟩ := writeEach_eq inside whole
  obtain ⟨same, rfl⟩ := Prod.mk.inj (wrote.symm.trans reported)
  obtain rfl : counts = frames.map fun frame => frame.2.encode.bytes.length := by
    apply List.map_injective_iff.mpr fun _ _ => Except.ok.inj
    rw [same, List.map_map, List.map_map]
    rfl
  have front : (buffer.bytes.take buffer.position).length = buffer.position := List.length_take_of_le inside
  have framesAhead : start.rest = framed (frames.map Prod.snd) ++ more := by
    rw [rest, contents, List.drop_left' front]
  have short : buffer.position ≤ filled.length := by
    rw [length, contents, List.length_append, front]
    exact Nat.le_add_right _ _
  have passed : (framed (frames.map Prod.snd)).length =
      (frames.map fun frame => frame.2.encode.bytes.length).sum := by
    rw [framed, List.length_flatMap, List.map_map]
    rfl
  refine ⟨seek_of_inside rfl short, ?_, fun olds places => ?_, ?_, fun some => ?_, fun nothing => ?_⟩
  · rw [readEach_eq readable framesAhead, passed, List.map_map, List.zip_map']
    rfl
  · rw [readEachInto_eq readable places framesAhead, passed, List.map_map, List.zip_map']
    rfl
  · rw [contents, List.take_left' front]
  · have nothing : more = [] := atEnd fun none => some (List.map_eq_nil_iff.mp none)
    rw [length, contents, nothing, List.append_nil, List.length_append, front, passed]
  · subst nothing
    cases wrote
    rfl

/-- A cursor in the midst, a record that holds another, and a default that is not made of those of the
fields. -/
theorem frames_read_back_of_nested :
    let headerOf (offset : Int) : Datum := .record [("offset", .int .u8 offset)] []
    let userOf (id : Int) (peer : Datum) (offset : Int) : Datum :=
      .record [("id", .int .u16 id), ("marks", .list [.unit, .unit]), ("peer", peer)]
        [("origin", headerOf offset)]
    let header : Ty := .record [("offset", .int .u8)] [] (headerOf 17)
    let user : Ty.Layout := ⟨[("id", .int .u16), ("marks", .seq .unit), ("peer", .option (.boxed (.ref 0)))],
      [("origin", header)], userOf 1 .absent 0⟩
    let buffer := (ofBytes [9, 8, 7]).run [.seek (.front 1)]
    let filled := written [9, 0, 7, 0, 0, 0, 2, 1, 0, 5, 0, 0, 0, 2, 0, 0, 0, 0, 1, 97]
    let start : Buffer := ⟨filled.bytes, 1⟩
    buffer.writeEach [userOf 7 (.present (userOf 5 .absent 3)) 4, .transient (headerOf 2), .text "a"] =
        ([.ok 14, .ok 0, .ok 5], filled) ∧
      filled.seek (.front buffer.position) = (.ok 1, start) ∧
      start.readEach [user.ty, .transient header, .text] =
        ([(.ok (userOf 7 (.present (userOf 5 .absent 17)) 17), 14), (.ok (.transient (headerOf 17)), 0),
          (.ok (.text "a"), 5)], ⟨filled.bytes, 20⟩) := by
  intro headerOf userOf header user buffer filled start
  have held {scope : Ty.Scope} {id offset : Int} {peer : Datum} (number : IntKind.u16.Holds id)
      (inner : Ty.Admits Ty.emptyItemsLimited (user :: scope) (.option (.boxed (.ref 0))) peer) :
      Ty.Admits Ty.emptyItemsLimited scope user.ty (userOf id peer offset) := by
    have marks {scope : Ty.Scope} : Ty.Admits Ty.emptyItemsLimited scope (.seq .unit) (.list [.unit, .unit]) :=
      .seq (fun _ => by decide) (by simp [Ty.Admits.unit])
    refine .record rfl ?_
    simp only [user, List.map_cons, List.map_nil, List.zip_cons_cons, List.zip_nil_right, List.forall_mem_cons]
    exact ⟨.int number, marks, inner, List.forall_mem_nil _⟩
  let frames : List (Ty × Datum) := [(user.ty, userOf 7 (.present (userOf 5 .absent 3)) 4),
    (.transient header, .transient (headerOf 2)), (.text, .text "a")]
  have admits : ∀ frame ∈ frames, Ty.Admits Ty.emptyItemsLimited [] frame.1 frame.2 := by
    simp only [frames, List.forall_mem_cons]
    exact ⟨held (by decide) (.present (.boxed (.ref rfl (held (by decide) (.absent _))))), .transient _ _,
      .text _, List.forall_mem_nil _⟩
  have wrote : buffer.writeEach (frames.map Prod.snd) = ([14, 0, 5].map .ok, filled) := by rfl
  obtain ⟨seeks, reads, -⟩ :=
    frames_read_back [9, 8, 7] [.seek (.front 1)] frames [14, 0, 5] filled admits wrote
  exact ⟨wrote, seeks, reads⟩

/-- If nothing is written, nothing is dropped, and the cursor is not at the end of the buffer. -/
theorem no_frames_end_short :
    let buffer := ofBytes [1, 2]
    ∃ filled start stop, buffer.writeEach [] = ([], filled) ∧
      filled.seek (.front buffer.position) = (.ok buffer.position, start) ∧
      start.readEach [] = ([], stop) ∧ stop.position ≠ stop.length :=
  ⟨_, _, _, rfl, rfl, rfl, by decide⟩

end Buffer

end AppendLog
