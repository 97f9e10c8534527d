import AppendLog.Proofs.Overlay
import AppendLog.Storage.Medium

/-! Media as byte strings.

What a medium does is said by its bytes and by the size that it goes by: as long as it reaches as
far as it has to by both, both kinds of media read spans of the bytes, write over them and cut them
in the same way. A medium in memory goes by the number of its bytes, and a file by that number until
a call is torn.
-/

set_option autoImplicit false

namespace AppendLog.Medium

/-- What has been opened is not a folder. -/
def Plain : Medium → Prop
  | memory _ => True
  | file f => f.access ≠ .folder

def Changeable : Medium → Prop
  | memory _ => True
  | file f => f.access = .readWrite

/-- The medium has bytes up to the offset, and knows of them. -/
def Reaches (medium : Medium) (offset : Nat) : Prop :=
  offset ≤ medium.size ∧ offset ≤ medium.content.length

/-- The medium knows how many bytes it has, and they can be read. -/
def Readable (medium : Medium) : Prop := medium.size = medium.content.length ∧ medium.Plain

/-- The medium knows how many bytes it has, and they can be read and changed. -/
def Writable (medium : Medium) : Prop := medium.size = medium.content.length ∧ medium.Changeable

/-- The same medium with other bytes, and with that size to go by if it keeps one. -/
def knowing (size : Nat) (bytes : Bytes) : Medium → Medium
  | memory _ => memory ⟨bytes⟩
  | file f => file { f with content := bytes, size }

/-- The same medium with other bytes, all of which it knows of. -/
def holding (bytes : Bytes) (medium : Medium) : Medium := medium.knowing bytes.length bytes

/-- The two are the same medium, whatever is on it and whatever it knows of that. -/
def Akin (medium other : Medium) : Prop := ∃ size bytes, other = medium.knowing size bytes

/-- The bytes behind an offset, if the medium does not know that there are any. -/
def unseen (medium : Medium) (stop : Nat) : Bytes :=
  if stop < medium.size then [] else medium.content.drop stop

def reopened (readOnly : Bool) : Medium → Medium
  | memory m => memory m
  | file f => file (.ofContent f.content (if readOnly then .readOnly else .readWrite))

variable {medium other : Medium} {offset stop : Nat}

theorem Changeable.plain (changeable : medium.Changeable) : medium.Plain := by
  cases medium with
  | memory m => trivial
  | file f =>
    have access : f.access = .readWrite := changeable
    simp [Plain, access]

theorem Writable.readable (writable : medium.Writable) : medium.Readable :=
  ⟨writable.1, writable.2.plain⟩

theorem writable_memory (m : Memory) : (memory m).Writable := ⟨rfl, trivial⟩

theorem Readable.reaches (readable : medium.Readable) (inside : offset ≤ medium.content.length) :
    medium.Reaches offset :=
  ⟨readable.1.symm ▸ inside, inside⟩

theorem Reaches.of_le (reaches : medium.Reaches stop) (le : offset ≤ stop) : medium.Reaches offset :=
  ⟨Nat.le_trans le reaches.1, Nat.le_trans le reaches.2⟩

theorem reaches_zero (medium : Medium) : medium.Reaches 0 := ⟨Nat.zero_le _, Nat.zero_le _⟩

@[simp] theorem content_knowing (medium : Medium) (size : Nat) (bytes : Bytes) :
    (medium.knowing size bytes).content = bytes := by
  cases medium <;> rfl

@[simp] theorem knowing_knowing (medium : Medium) (first second : Nat) (bytes later : Bytes) :
    (medium.knowing first bytes).knowing second later = medium.knowing second later := by
  cases medium <;> rfl

theorem knowing_self (medium : Medium) : medium.knowing medium.size medium.content = medium := by
  cases medium <;> rfl

theorem withContent_eq (medium : Medium) (bytes : Bytes) :
    medium.withContent bytes = medium.knowing medium.size bytes := by
  cases medium <;> rfl

/-- Memory goes by the number of its bytes, whatever else it is said to know. -/
theorem size_knowing (medium : Medium) {size : Nat} {bytes : Bytes}
    (same : ∀ m, medium = memory m → bytes.length = size) : (medium.knowing size bytes).size = size := by
  cases medium with
  | memory m => exact same m rfl
  | file f => rfl

@[simp] theorem content_holding (medium : Medium) (bytes : Bytes) :
    (medium.holding bytes).content = bytes := content_knowing _ _ _

@[simp] theorem holding_holding (medium : Medium) (first second : Bytes) :
    (medium.holding first).holding second = medium.holding second := knowing_knowing _ _ _ _ _

theorem holding_content (readable : medium.Readable) : medium.holding medium.content = medium := by
  rw [holding, ← readable.1, knowing_self]

theorem akin_refl (medium : Medium) : medium.Akin medium := ⟨_, _, medium.knowing_self.symm⟩

theorem akin_knowing (medium : Medium) (size : Nat) (bytes : Bytes) :
    medium.Akin (medium.knowing size bytes) := ⟨_, _, rfl⟩

theorem Akin.knowing_eq (akin : medium.Akin other) (size : Nat) (bytes : Bytes) :
    other.knowing size bytes = medium.knowing size bytes := by
  obtain ⟨_, _, rfl⟩ := akin
  exact knowing_knowing _ _ _ _ _

theorem Akin.trans {third : Medium} (first : medium.Akin other) (second : other.Akin third) :
    medium.Akin third := by
  obtain ⟨size, bytes, rfl⟩ := second
  exact ⟨size, bytes, first.knowing_eq size bytes⟩

theorem Akin.changeable (akin : medium.Akin other) (changeable : medium.Changeable) : other.Changeable := by
  obtain ⟨_, _, rfl⟩ := akin
  cases medium <;> exact changeable

theorem Writable.holding (writable : medium.Writable) (bytes : Bytes) : (medium.holding bytes).Writable := by
  refine ⟨?_, (akin_knowing medium _ _).changeable writable.2⟩
  rw [content_holding, Medium.holding, size_knowing medium fun _ _ => rfl]

@[simp] theorem content_reopened (medium : Medium) (readOnly : Bool) :
    (medium.reopened readOnly).content = medium.content := by
  cases medium <;> rfl

theorem readable_reopened (medium : Medium) (readOnly : Bool) : (medium.reopened readOnly).Readable := by
  cases medium with
  | memory m => exact ⟨rfl, trivial⟩
  | file f => exact ⟨rfl, by cases readOnly <;> simp [reopened, Plain, OpenFile.ofContent]⟩

theorem writable_reopened (medium : Medium) : (medium.reopened false).Writable := by
  cases medium with
  | memory m => exact ⟨rfl, trivial⟩
  | file f => exact ⟨rfl, rfl⟩

theorem unseen_of_readable (readable : medium.Readable) (stop : Nat) : medium.unseen stop = [] := by
  unfold unseen
  split
  · rfl
  · case isFalse short => exact List.drop_eq_nil_of_le (readable.1 ▸ Nat.not_lt.mp short)

/-! Reading -/

theorem readAt_of_reaches (plain : medium.Plain) {length : Nat} (reaches : medium.Reaches (offset + length)) :
    medium.readAt offset length = .ok (medium.content.span offset (offset + length)) := by
  rw [Bytes.span_eq_take_drop]
  cases medium with
  | memory m => exact if_pos reaches.1
  | file f =>
    have known : ¬ f.size < offset + length := Nat.not_lt.mpr reaches.1
    have inside : offset + length ≤ f.content.length := reaches.2
    have access : f.access ≠ .folder := plain
    simp only [readAt, OpenFile.readAt, known, access, inside, content, if_true, if_false]
    split
    · case isTrue none => simp [none]
    · rfl

theorem readAt_eq (readable : medium.Readable) (offset length : Nat) :
    medium.readAt offset length =
      if offset + length ≤ medium.content.length then
        .ok (medium.content.span offset (offset + length))
      else .error (.readPastEnd offset length medium.content.length) := by
  split
  · case isTrue inside => exact readAt_of_reaches readable.2 (readable.reaches inside)
  · case isFalse outside =>
    rw [← readable.1] at outside ⊢
    cases medium with
    | memory m => exact if_neg outside
    | file f => exact if_pos (Nat.not_le.mp outside)

/-! Writing -/

theorem writeAt_of_reaches (changeable : medium.Changeable) (reaches : medium.Reaches offset) (data : Bytes) :
    medium.writeAt offset data = .ok (medium.knowing (max medium.size (offset + data.length))
      (medium.content.overlay offset data)) := by
  cases medium with
  | memory m =>
    have reached : offset ≤ m.size := reaches.1
    simp [writeAt, Memory.writeAt, reached, knowing, content, Bytes.overlay, bind, Except.bind, pure,
      Except.pure]
  | file f =>
    have known : ¬ f.size < offset := Nat.not_lt.mpr reaches.1
    have inside : offset ≤ f.content.length := reaches.2
    have access : f.access = .readWrite := changeable
    simp only [writeAt, OpenFile.writeAt, known, if_false]
    by_cases empty : data.isEmpty
    · have nothing : data = [] := List.isEmpty_iff.mp empty
      subst nothing
      have same : max f.size offset = f.size := Nat.max_eq_left reaches.1
      simp only [knowing, content, size, List.length_nil, Nat.add_zero, same, Bytes.overlay_nil]
      rfl
    · have resized : OpenFile.resized f.content offset = f.content.take offset := by
        simp [OpenFile.resized, Nat.sub_eq_zero_of_le inside]
      simp only [empty, access, if_true, bind, Except.bind, pure, Except.pure, knowing, content, size,
        OpenFile.patched, resized, Bool.false_eq_true, if_false]
      rfl

theorem writeAt_eq (writable : medium.Writable) (inside : offset ≤ medium.content.length) (data : Bytes) :
    medium.writeAt offset data = .ok (medium.holding (medium.content.overlay offset data)) := by
  rw [writeAt_of_reaches writable.2 (writable.readable.reaches inside), writable.1, holding,
    Bytes.length_overlay inside]

theorem writeAt_of_outside (readable : medium.Readable) (outside : medium.content.length < offset)
    (data : Bytes) :
    medium.writeAt offset data = .error (.writePastEnd offset medium.content.length) := by
  rw [← readable.1] at outside ⊢
  cases medium with
  | memory m =>
    have beyond : ¬ offset ≤ m.size := Nat.not_le.mpr outside
    simp only [writeAt, Memory.writeAt, beyond, if_false]
    rfl
  | file f =>
    have beyond : f.size < offset := outside
    simp only [writeAt, OpenFile.writeAt, beyond, if_true]
    rfl

/-! Cutting -/

theorem truncate_of_reaches (changeable : medium.Changeable) (reaches : medium.Reaches stop) :
    medium.truncate stop = .ok (medium.knowing stop (medium.content.take stop)) := by
  cases medium with
  | memory m =>
    have reached : stop ≤ m.size := reaches.1
    simp [truncate, Memory.truncate, reached, knowing, content, bind, Except.bind, pure, Except.pure]
  | file f =>
    have known : ¬ f.size < stop := Nat.not_lt.mpr reaches.1
    have inside : stop ≤ f.content.length := reaches.2
    have access : f.access = .readWrite := changeable
    simp [truncate, OpenFile.truncate, access, known, OpenFile.resized,
      Nat.sub_eq_zero_of_le inside, knowing, content, bind, Except.bind, pure, Except.pure]

theorem truncate_eq (writable : medium.Writable) (inside : stop ≤ medium.content.length) :
    medium.truncate stop = .ok (medium.holding (medium.content.take stop)) := by
  rw [truncate_of_reaches writable.2 (writable.readable.reaches inside), holding,
    List.length_take_of_le inside]

theorem truncate_of_outside (readable : medium.Readable) (outside : medium.content.length < stop) :
    medium.truncate stop = .error (.truncateBeyondEnd stop medium.content.length) := by
  rw [← readable.1] at outside ⊢
  cases medium with
  | memory m =>
    have beyond : ¬ stop ≤ m.size := Nat.not_le.mpr outside
    simp only [truncate, Memory.truncate, beyond, if_false]
    rfl
  | file f =>
    have beyond : f.size < stop := outside
    simp only [truncate, OpenFile.truncate, beyond, if_true]
    rfl

end AppendLog.Medium
