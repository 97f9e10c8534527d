import AppendLog.Bytes

/-! Byte strings written over one another.

`overlay` is what a positioned write does to a byte string, and `span` the bytes
between two positions. A write changes no span that lies in front of it or behind it,
and two writes that meet are one write of both.
-/

set_option autoImplicit false

namespace AppendLog.Bytes

def overlay (bytes : Bytes) (offset : Nat) (data : Bytes) : Bytes :=
  bytes.take offset ++ data ++ bytes.drop (offset + data.length)

def span (bytes : Bytes) (start stop : Nat) : Bytes := (bytes.take stop).drop start

@[simp] theorem overlay_nil (bytes : Bytes) (offset : Nat) : overlay bytes offset [] = bytes := by
  simp [overlay]

theorem length_overlay {bytes : Bytes} {offset : Nat} (inside : offset ≤ bytes.length)
    (data : Bytes) : (overlay bytes offset data).length = max bytes.length (offset + data.length) := by
  simp only [overlay, List.length_append, List.length_take, List.length_drop]
  omega

theorem overlay_append {front : Bytes} {offset : Nat} (length : front.length = offset)
    (tail data : Bytes) :
    overlay (front ++ tail) offset data = front ++ data ++ tail.drop data.length := by
  subst length
  simp [overlay, List.drop_append]

theorem overlay_zero (bytes data : Bytes) : overlay bytes 0 data = data ++ bytes.drop data.length := by
  simp [overlay]

/-- A write changes the bytes of its own span and no others. -/
theorem getElem?_overlay {bytes : Bytes} {offset : Nat} (inside : offset ≤ bytes.length)
    (data : Bytes) (index : Nat) :
    (overlay bytes offset data)[index]? =
      if offset ≤ index ∧ index < offset + data.length then data[index - offset]?
      else bytes[index]? := by
  have front : (bytes.take offset).length = offset := List.length_take_of_le inside
  rw [overlay, List.append_assoc]
  by_cases before : index < offset
  · rw [List.getElem?_append_left (by omega), List.getElem?_take_of_lt before, if_neg (by omega)]
  · rw [List.getElem?_append_right (by omega), front]
    by_cases within : index < offset + data.length
    · rw [List.getElem?_append_left (by omega), if_pos (by omega)]
    · rw [List.getElem?_append_right (by omega), List.getElem?_drop, if_neg (by omega)]
      congr 1
      omega

theorem overlay_length (bytes data : Bytes) : overlay bytes bytes.length data = bytes ++ data := by
  simp [overlay]

theorem overlay_overlay {bytes first : Bytes} {offset : Nat} (inside : offset ≤ bytes.length)
    (second : Bytes) :
    overlay (overlay bytes offset first) (offset + first.length) second =
      overlay bytes offset (first ++ second) := by
  have front : (bytes.take offset ++ first).length = offset + first.length := by simp [inside]
  calc overlay (overlay bytes offset first) (offset + first.length) second
      = bytes.take offset ++ first ++ second
          ++ (bytes.drop (offset + first.length)).drop second.length := overlay_append front _ _
    _ = overlay bytes offset (first ++ second) := by simp [overlay, Nat.add_assoc]

theorem length_span {bytes : Bytes} {start stop : Nat} (inside : stop ≤ bytes.length) :
    (span bytes start stop).length = stop - start := by
  simp [span, inside]

theorem span_span (bytes : Bytes) {start stop low high : Nat} (inside : start + high ≤ stop) :
    span (span bytes start stop) low high = span bytes (start + low) (start + high) := by
  simp only [span, List.take_drop, List.drop_drop, List.take_take]
  rw [Nat.min_eq_left inside]

theorem span_eq_take_drop (bytes : Bytes) (start length : Nat) :
    span bytes start (start + length) = (bytes.drop start).take length := by
  rw [span, List.take_drop, List.drop_take, Nat.add_comm]

theorem span_append {front : Bytes} {start stop : Nat} (inside : stop ≤ front.length) (tail : Bytes) :
    span (front ++ tail) start stop = span front start stop := by
  rw [span, List.take_append_of_le_length inside, span]

theorem span_append_right (front : Bytes) {start : Nat} (behind : front.length ≤ start)
    (tail : Bytes) (stop : Nat) :
    span (front ++ tail) start stop = span tail (start - front.length) (stop - front.length) := by
  simp only [span, List.take_append, List.drop_append, List.length_take]
  rw [List.drop_eq_nil_of_le (by simp; omega), List.nil_append]
  by_cases short : stop ≤ front.length
  · simp [Nat.sub_eq_zero_of_le short]
  · rw [Nat.min_eq_right (by omega)]

theorem span_overlay_front (bytes : Bytes) {start stop offset : Nat} (inside : offset ≤ bytes.length)
    (front : stop ≤ offset) (data : Bytes) :
    span (overlay bytes offset data) start stop = span bytes start stop := by
  rw [overlay, List.append_assoc, span_append (by simp; omega)]
  rw [span, List.take_take, Nat.min_eq_left front, span]

theorem span_overlay_behind (bytes : Bytes) {start stop offset : Nat} (inside : offset ≤ bytes.length)
    (data : Bytes) (behind : offset + data.length ≤ start) :
    span (overlay bytes offset data) start stop = span bytes start stop := by
  have length : (bytes.take offset ++ data).length = offset + data.length := by simp [inside]
  by_cases empty : stop ≤ start
  · rw [span, span, List.drop_eq_nil_of_le (by simp; omega), List.drop_eq_nil_of_le (by simp; omega)]
  · rw [overlay, span_append_right _ (by omega), length, span, span, List.take_drop, List.drop_drop]
    rw [show offset + data.length + (stop - (offset + data.length)) = stop by omega,
      show offset + data.length + (start - (offset + data.length)) = start by omega]

theorem span_take (bytes : Bytes) {start stop cut : Nat} (inside : stop ≤ cut) :
    span (bytes.take cut) start stop = span bytes start stop := by
  rw [span, List.take_take, Nat.min_eq_left inside, span]

theorem span_append_span (bytes : Bytes) {start middle stop : Nat} (low : start ≤ middle)
    (high : middle ≤ stop) :
    span bytes start middle ++ span bytes middle stop = span bytes start stop := by
  obtain ⟨first, rfl⟩ := Nat.exists_eq_add_of_le low
  obtain ⟨second, rfl⟩ := Nat.exists_eq_add_of_le high
  rw [Nat.add_assoc, span_eq_take_drop, span_eq_take_drop, ← Nat.add_assoc, span_eq_take_drop,
    ← List.drop_drop, ← List.take_add]

theorem isPrefix_drop_iff {bytes data : Bytes} {offset : Nat} :
    data <+: bytes.drop offset ↔ span bytes offset (offset + data.length) = data := by
  rw [span_eq_take_drop, List.prefix_iff_eq_take, eq_comm]

theorem le_length_of_isPrefix_drop {bytes data : Bytes} {offset : Nat} (inside : offset ≤ bytes.length)
    (stands : data <+: bytes.drop offset) : offset + data.length ≤ bytes.length := by
  have length := stands.length_le
  rw [List.length_drop] at length
  omega

end AppendLog.Bytes
