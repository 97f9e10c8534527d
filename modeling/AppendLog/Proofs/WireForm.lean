import AppendLog.Proofs.Agreement

/-! The wire form of values that are laid out by a shape.

Which bytes spell a value in a shape is said here without a decoder: what stands in front of the
items of a sequence, that fields follow one another, and what may be asked of the spellings of the
items that a sequence has. Decoding reads a value precisely where the bytes start with a spelling of
it, if no sequence of items that take no bytes is longer than the decoder lets pass. So it depends on
the bytes that it consumes alone, although the decoder of a sequence looks at how many are left, and
a value that is cut off is not read as another one: `decode_delimited`.
-/

set_option autoImplicit false

namespace AppendLog

namespace Decoding

variable {α β : Type}

/-- The decoder reads a value precisely where the bytes start with a spelling of it, and stops
behind that. A value may have several spellings. -/
def Recognizes (decoder : Decoding α) (spells : α → Bytes → Prop) : Prop :=
  ∀ cursor value after, decoder cursor = .ok value after ↔
    ∃ spelling, spells value spelling ∧ cursor.rest = spelling ++ after.rest ∧
      after.position = cursor.position + spelling.length

variable {decoder : Decoding α} {spells other : α → Bytes → Prop}

theorem Recognizes.read (recognizes : decoder.Recognizes spells) {value : α} {spelling : Bytes}
    (spelled : spells value spelling) (more : Bytes) (position : Nat) :
    decoder ⟨spelling ++ more, position⟩ = .ok value ⟨more, position + spelling.length⟩ :=
  (recognizes _ _ _).mpr ⟨spelling, spelled, rfl, rfl⟩

theorem Recognizes.congr (recognizes : decoder.Recognizes spells)
    (same : ∀ value spelling, spells value spelling ↔ other value spelling) : decoder.Recognizes other := by
  intro cursor value after
  rw [recognizes]
  simp only [same]

theorem Inverts.recognizes {spell : α → Bytes} {range : α → Prop} (inverts : decoder.Inverts spell range) :
    decoder.Recognizes fun value spelling => range value ∧ spell value = spelling := by
  intro cursor value after
  rw [inverts]
  constructor
  · rintro ⟨inside, start, moved⟩
    exact ⟨spell value, ⟨inside, rfl⟩, start, moved⟩
  · rintro ⟨_, ⟨inside, rfl⟩, start, moved⟩
    exact ⟨inside, start, moved⟩

theorem recognizes_pure (value : α) :
    (pure value : Decoding α).Recognizes fun found spelling => value = found ∧ spelling = [] := by
  refine (inverts_pure value).recognizes.congr fun found spelling => ?_
  rw [eq_comm, @eq_comm _ []]

theorem recognizes_throw (error : CodecError) :
    (throw error : Decoding α).Recognizes fun _ _ => False := by
  intro cursor value after
  constructor
  · intro impossible
    cases impossible
  · rintro ⟨_, impossible, -⟩
    exact impossible.elim

theorem Recognizes.bind {next : α → Decoding β} {following : α → β → Bytes → Prop}
    (recognizes : decoder.Recognizes spells) (rest : ∀ value, (next value).Recognizes (following value)) :
    (decoder >>= next).Recognizes fun result spelling => ∃ value front back,
      spells value front ∧ following value result back ∧ front ++ back = spelling := by
  intro cursor result after
  rw [bind_eq_ok]
  constructor
  · rintro ⟨value, middle, read, readRest⟩
    obtain ⟨front, spelled, start, moved⟩ := (recognizes _ _ _).mp read
    obtain ⟨back, spelledRest, startRest, movedRest⟩ := (rest value _ _ _).mp readRest
    refine ⟨front ++ back, ⟨value, front, back, spelled, spelledRest, rfl⟩, ?_, ?_⟩
    · rw [start, startRest, List.append_assoc]
    · rw [movedRest, moved, List.length_append, Nat.add_assoc]
  · rintro ⟨_, ⟨value, front, back, spelled, spelledRest, rfl⟩, start, moved⟩
    rw [List.append_assoc] at start
    rw [List.length_append, ← Nat.add_assoc] at moved
    exact ⟨value, ⟨back ++ after.rest, cursor.position + front.length⟩,
      (recognizes _ _ _).mpr ⟨front, spelled, start, rfl⟩,
      (rest value _ _ _).mpr ⟨back, spelledRest, rfl, moved⟩⟩

theorem Recognizes.map {convert : α → β} (recognizes : decoder.Recognizes spells) :
    (do return convert (← decoder) : Decoding β).Recognizes fun result spelling =>
      ∃ value, spells value spelling ∧ convert value = result := by
  refine (recognizes.bind fun value => recognizes_pure (convert value)).congr fun result spelling => ?_
  constructor
  · rintro ⟨value, front, _, spelled, ⟨same, rfl⟩, rfl⟩
    exact ⟨value, by rwa [List.append_nil], same⟩
  · rintro ⟨value, spelled, same⟩
    exact ⟨value, spelling, [], spelled, ⟨same, rfl⟩, List.append_nil spelling⟩

theorem Recognizes.guarded (recognizes : decoder.Recognizes spells) (condition : Prop) [Decidable condition]
    (error : CodecError) : (if condition then decoder else throw error : Decoding α).Recognizes
      fun value spelling => condition ∧ spells value spelling := by
  split
  · case isTrue holds => exact recognizes.congr fun _ _ => (and_iff_right holds).symm
  · case isFalse fails => exact (recognizes_throw error).congr fun _ _ => iff_of_false id fun both => fails both.1

/-- What a decoder has read does not depend on what follows, and nothing is read of a part of it. -/
theorem Recognizes.delimited (recognizes : decoder.Recognizes spells) {cursor after : Cursor} {value : α}
    (read : decoder cursor = .ok value after) :
    ∃ consumed, cursor.rest = consumed ++ after.rest ∧
      after.position = cursor.position + consumed.length ∧
      (∀ more position, decoder ⟨consumed ++ more, position⟩ =
        .ok value ⟨more, position + consumed.length⟩) ∧
      ∀ front position, front <+: consumed → front ≠ consumed →
        ∃ error stop, decoder ⟨front, position⟩ = .error error stop := by
  obtain ⟨consumed, spelled, start, moved⟩ := (recognizes _ _ _).mp read
  refine ⟨consumed, start, moved, recognizes.read spelled, ?_⟩
  rintro front position ⟨tail, rfl⟩ strict
  cases ran : decoder ⟨front, position⟩ with
  | error error stop => exact ⟨error, stop, rfl⟩
  | ok found stop =>
    -- What is read of the front is read of the whole as well, which leaves nothing behind it.
    obtain ⟨spelling, spelledFront, rfl, -⟩ := (recognizes _ _ _).mp ran
    have whole := recognizes.read spelled [] position
    rw [List.append_nil, List.append_assoc, recognizes.read spelledFront] at whole
    obtain ⟨-, rest⟩ := EStateM.Result.ok.inj whole
    have nothing : stop.rest ++ tail = [] := congrArg Cursor.rest rest
    rw [List.append_eq_nil_iff] at nothing
    rw [nothing.2, List.append_nil] at strict
    exact absurd rfl strict

/-! Items in a row -/

variable {item : Decoding α}

theorem recognizes_repeated (recognizes : item.Recognizes spells) (count : Nat) (done : List α) :
    (repeated item count done).Recognizes fun values spelling =>
      ∃ parts : List (α × Bytes), parts.length = count ∧ (∀ part ∈ parts, spells part.1 part.2) ∧
        done.reverse ++ parts.map Prod.fst = values ∧ parts.flatMap Prod.snd = spelling := by
  induction count generalizing done with
  | zero =>
    refine (recognizes_pure done.reverse).congr fun values spelling => ?_
    constructor
    · rintro ⟨rfl, rfl⟩
      exact ⟨[], rfl, List.forall_mem_nil _, List.append_nil _, rfl⟩
    · rintro ⟨parts, none, -, rfl, rfl⟩
      rw [List.length_eq_zero_iff.mp none]
      exact ⟨(List.append_nil _).symm, rfl⟩
  | succ count ih =>
    rw [repeated_succ]
    refine (recognizes.bind fun value => ih (value :: done)).congr fun values spelling => ?_
    constructor
    · rintro ⟨value, front, _, spelled, ⟨parts, rfl, each, rfl, rfl⟩, rfl⟩
      refine ⟨(value, front) :: parts, rfl, List.forall_mem_cons.mpr ⟨spelled, each⟩, ?_, rfl⟩
      rw [List.reverse_cons, List.append_assoc]
      rfl
    · rintro ⟨parts, counted, each, rfl, rfl⟩
      obtain ⟨⟨value, front⟩, parts, rfl⟩ := List.exists_cons_of_length_eq_add_one counted
      obtain ⟨spelled, each⟩ := List.forall_mem_cons.mp each
      refine ⟨value, front, _, spelled, ⟨parts, Nat.succ.inj counted, each, ?_, rfl⟩, rfl⟩
      rw [List.reverse_cons, List.append_assoc]
      rfl

theorem items_eq_ok {more : Nat} {cursor after : Cursor} {values : List α} :
    items item (more + 1) cursor = .ok values after ↔ ∃ first next, item cursor = .ok first next ∧
      more + 1 ≤ (if next.position = cursor.position then emptyItemLimit else cursor.rest.length) ∧
      repeated item (more + 1) [] cursor = .ok values after := by
  cases ran : item cursor with
  | error error stop => simp [items, ran]
  | ok first next =>
    have limited := items_of_ok more ran rfl
    by_cases few : more + 1 ≤ (if next.position = cursor.position then emptyItemLimit else cursor.rest.length)
    · rw [limited, if_neg (Nat.not_lt.mpr few)]
      constructor
      · exact fun read => ⟨first, next, rfl, few, read⟩
      · rintro ⟨_, _, -, -, read⟩
        exact read
    · rw [limited, if_pos (Nat.not_le.mp few)]
      constructor
      · intro impossible
        cases impossible
      · rintro ⟨_, _, same, fewer, -⟩
        cases same
        exact absurd fewer few

/-- No more items than the decoder lets pass, if they take no bytes. -/
def WithinLimit (spellings : List Bytes) : Prop :=
  (∀ spelling ∈ spellings, spelling = []) → spellings.length ≤ emptyItemLimit

/-- Where items are alike in taking bytes or not, what may be read of them is settled by their
spellings: the number of bytes that are left is never in the way. -/
theorem recognizes_items {nothing : Prop} (recognizes : item.Recognizes spells)
    (alike : ∀ value spelling, spells value spelling → (spelling = [] ↔ nothing)) (count : Nat) :
    (items item count).Recognizes fun values spelling =>
      ∃ parts : List (α × Bytes), parts.length = count ∧ WithinLimit (parts.map Prod.snd) ∧
        (∀ part ∈ parts, spells part.1 part.2) ∧ parts.map Prod.fst = values ∧
        parts.flatMap Prod.snd = spelling := by
  intro cursor values after
  cases count with
  | zero =>
    rw [show items item 0 cursor = repeated item 0 [] cursor from rfl, recognizes_repeated recognizes 0 []]
    refine exists_congr fun spelling => and_congr_left fun _ => exists_congr fun parts =>
      and_congr_right fun none => ?_
    rw [List.length_eq_zero_iff.mp none]
    exact (and_iff_right fun _ => Nat.zero_le _).symm
  | succ more =>
    have row := recognizes_repeated recognizes (more + 1) []
    -- Whether the first item moves shows whether the items take bytes.
    have stays {first : α} {next : Cursor} (read : item cursor = .ok first next) :
        next.position = cursor.position ↔ nothing := by
      obtain ⟨front, spelled, -, moved⟩ := (recognizes _ _ _).mp read
      rw [moved, ← alike first front spelled, Nat.add_eq_left, List.length_eq_zero_iff]
    rw [items_eq_ok]
    constructor
    · rintro ⟨first, next, readFirst, few, read⟩
      obtain ⟨_, ⟨parts, counted, each, same, rfl⟩, start, moved⟩ := (row _ _ _).mp read
      refine ⟨_, ⟨parts, counted, fun empty => ?_, each, same, rfl⟩, start, moved⟩
      obtain ⟨part, rest, rfl⟩ := List.exists_cons_of_length_eq_add_one counted
      have none : nothing := (alike _ _ (each part List.mem_cons_self)).mp
        (empty _ (List.mem_map_of_mem List.mem_cons_self))
      rw [if_pos ((stays readFirst).mpr none)] at few
      rwa [List.length_map, counted]
    · rintro ⟨_, ⟨parts, counted, limited, each, same, rfl⟩, start, moved⟩
      have read := (row _ _ _).mpr ⟨_, ⟨parts, counted, each, same, rfl⟩, start, moved⟩
      obtain ⟨first, next, readFirst, -⟩ := bind_eq_ok.mp (repeated_succ item more [] ▸ read)
      refine ⟨first, next, readFirst, ?_, read⟩
      rw [WithinLimit, List.length_map, counted] at limited
      by_cases none : nothing
      · rw [if_pos ((stays readFirst).mpr none)]
        refine limited (List.forall_mem_map.mpr fun part member => ?_)
        exact (alike _ _ (each part member)).mpr none
      · have long : parts.length ≤ (parts.flatMap Prod.snd).length :=
          length_le_flatMap fun part member empty => none ((alike _ _ (each part member)).mp empty)
        rw [if_neg (mt (stays readFirst).mp none), start, List.length_append, ← counted]
        exact Nat.le_add_right_of_le long

end Decoding

namespace Shape

open Decoding

/-- The bytes spell the value in the shape, and the spellings of the items of every sequence and array
in it are as allowed. -/
inductive Spells (allowed : List Bytes → Prop) : Shape → Value → Bytes → Prop where
  | void (kind : VoidKind) : Spells allowed (.void kind) .unit []
  | bool (value : Bool) : Spells allowed .bool (.bool value) [if value then 1 else 0]
  | int {kind : IntKind} {n : Int} : kind.Holds n →
      Spells allowed (.int kind) (if kind.isSigned then .int n else .uint n.toNat) (kind.bytes n)
  | float (kind : FloatKind) (bits : kind.Bits) :
      Spells allowed (.float kind) (.float (kind.widen bits)) (kind.bytes bits)
  | complex (kind : FloatKind) (re im : kind.Bits) :
      Spells allowed (.complex kind) (.complex (kind.widen re) (kind.widen im))
        (kind.bytes re ++ kind.bytes im)
  | text {value : String} : (Text.bytes value).length < 256 ^ lengthWidth →
      Spells allowed .text (.text value)
        (Bytes.ofNat lengthWidth (Text.bytes value).length ++ Text.bytes value)
  | seq {item : Shape} {parts : List (Value × Bytes)} : parts.length < 256 ^ lengthWidth →
      allowed (parts.map Prod.snd) → (∀ part ∈ parts, Spells allowed item part.1 part.2) →
      Spells allowed (.seq item) (.seq (parts.map Prod.fst))
        (Bytes.ofNat lengthWidth parts.length ++ parts.flatMap Prod.snd)
  | array {item : Shape} {parts : List (Value × Bytes)} : parts.length < 256 ^ lengthWidth →
      allowed (parts.map Prod.snd) → (∀ part ∈ parts, Spells allowed item part.1 part.2) →
      Spells allowed (.array item parts.length) (.seq (parts.map Prod.fst))
        (Bytes.ofNat lengthWidth parts.length ++ parts.flatMap Prod.snd)
  | absent (item : Shape) : Spells allowed (.optional item) .null [0]
  | present {item : Shape} {value : Value} {spelling : Bytes} : Spells allowed item value spelling →
      Spells allowed (.optional item) value (1 :: spelling)
  | noFields : Spells allowed (.record []) (.record []) []
  | field {name : String} {shape : Shape} {value : Value} {front back : Bytes}
      {fields : List (String × Shape)} {values : List (String × Value)} : Spells allowed shape value front →
      Spells allowed (.record fields) (.record values) back →
      Spells allowed (.record ((name, shape) :: fields)) (.record ((name, value) :: values)) (front ++ back)

variable {allowed : List Bytes → Prop} {shape item : Shape} {value : Value} {spelling : Bytes}

theorem Spells.eq_nil_iff (spells : Spells allowed shape value spelling) :
    spelling = [] ↔ shape.takesNoBytes = true := by
  induction spells with
  | void kind => exact iff_of_true rfl rfl
  | bool value => exact iff_of_false (List.cons_ne_nil _ _) Bool.false_ne_true
  | @int kind n holds =>
    refine iff_of_false (List.ne_nil_of_length_pos ?_) Bool.false_ne_true
    rw [kind.length_bytes]
    exact kind.width_pos
  | float kind bits =>
    refine iff_of_false (List.ne_nil_of_length_pos ?_) Bool.false_ne_true
    rw [kind.length_bytes]
    exact kind.width_pos
  | complex kind re im =>
    refine iff_of_false (List.ne_nil_of_length_pos ?_) Bool.false_ne_true
    rw [List.length_append, kind.length_bytes]
    exact Nat.add_pos_left kind.width_pos _
  | text | seq | array => exact iff_of_false (List.cons_ne_nil _ _) Bool.false_ne_true
  | absent | present => exact iff_of_false (List.cons_ne_nil _ _) Bool.false_ne_true
  | noFields => exact iff_of_true rfl rfl
  | field _ _ first others =>
    rw [takesNoBytes] at others
    rw [List.append_eq_nil_iff, first, others, takesNoBytes, allTakeNoBytes, Bool.and_eq_true]

theorem recognizes_sequence (recognizes : (decode item).Recognizes (Spells WithinLimit item)) (count : Nat) :
    (items (decode item) count).Recognizes fun values spelling => ∃ parts : List (Value × Bytes),
      parts.length = count ∧ WithinLimit (parts.map Prod.snd) ∧
        (∀ part ∈ parts, Spells WithinLimit item part.1 part.2) ∧ parts.map Prod.fst = values ∧
        parts.flatMap Prod.snd = spelling :=
  recognizes_items recognizes (fun _ _ spells => spells.eq_nil_iff) count

mutual

/-- The decoder of a shape reads the spellings in it, and nothing else. -/
theorem recognizes_decode : ∀ shape : Shape, (decode shape).Recognizes (Spells WithinLimit shape)
  | bool => by
    refine (inverts_flag _).recognizes.map.congr fun value spelling => ?_
    constructor
    · rintro ⟨value, ⟨-, rfl⟩, rfl⟩
      exact .bool value
    · rintro ⟨⟩
      exact ⟨_, ⟨trivial, rfl⟩, rfl⟩
  | int kind => by
    refine (inverts_int kind).recognizes.map.congr fun value spelling => ?_
    constructor
    · rintro ⟨n, ⟨holds, rfl⟩, rfl⟩
      exact .int holds
    · intro spells
      cases spells with
      | int holds => exact ⟨_, ⟨holds, rfl⟩, rfl⟩
  | float kind => by
    refine (inverts_float kind).recognizes.map.map.congr fun value spelling => ?_
    constructor
    · rintro ⟨_, ⟨bits, ⟨-, rfl⟩, rfl⟩, rfl⟩
      exact .float kind bits
    · intro spells
      cases spells with
      | float _ bits => exact ⟨_, ⟨bits, ⟨trivial, rfl⟩, rfl⟩, rfl⟩
  | complex kind => by
    have part : (decodeFloat kind).Recognizes _ := (inverts_float kind).recognizes.map
    refine (part.bind fun re => part.map).congr fun value spelling => ?_
    constructor
    · rintro ⟨_, _, _, ⟨re, ⟨-, rfl⟩, rfl⟩, ⟨_, ⟨im, ⟨-, rfl⟩, rfl⟩, rfl⟩, rfl⟩
      exact .complex kind re im
    · intro spells
      cases spells with
      | complex _ re im =>
        exact ⟨_, _, _, ⟨re, ⟨trivial, rfl⟩, rfl⟩, ⟨_, ⟨im, ⟨trivial, rfl⟩, rfl⟩, rfl⟩, rfl⟩
  | text => by
    refine inverts_text.recognizes.map.congr fun value spelling => ?_
    constructor
    · rintro ⟨value, ⟨fits, rfl⟩, rfl⟩
      exact .text fits
    · intro spells
      cases spells with
      | text fits => exact ⟨_, ⟨fits, rfl⟩, rfl⟩
  | seq item => by
    have row := recognizes_sequence (recognizes_decode item)
    refine (inverts_length.recognizes.bind row).map.congr fun value spelling => ?_
    constructor
    · rintro ⟨_, ⟨_, _, _, ⟨fits, rfl⟩, ⟨parts, rfl, limited, each, rfl, rfl⟩, rfl⟩, rfl⟩
      exact .seq fits limited each
    · intro spells
      cases spells with
      | seq fits limited each =>
        exact ⟨_, ⟨_, _, _, ⟨fits, rfl⟩, ⟨_, rfl, limited, each, rfl, rfl⟩, rfl⟩, rfl⟩
  | array item expected => by
    have row := recognizes_sequence (recognizes_decode item)
    refine (inverts_length.recognizes.bind fun found =>
      (row found).map.guarded (found = expected) (.lengthMismatch expected found)).congr
        fun value spelling => ?_
    constructor
    · rintro ⟨_, _, _, ⟨fits, rfl⟩, ⟨rfl, _, ⟨parts, rfl, limited, each, rfl, rfl⟩, rfl⟩, rfl⟩
      exact .array fits limited each
    · intro spells
      cases spells with
      | array fits limited each =>
        exact ⟨_, _, _, ⟨fits, rfl⟩, ⟨rfl, _, ⟨_, rfl, limited, each, rfl, rfl⟩, rfl⟩, rfl⟩
  | optional item => by
    have rest (present : Bool) : (if present then decode item else return .null : Decoding Value).Recognizes
        fun value spelling => if present then Spells WithinLimit item value spelling
          else .null = value ∧ spelling = [] := by
      cases present with
      | true => exact recognizes_decode item
      | false => exact recognizes_pure _
    refine ((inverts_flag _).recognizes.bind rest).congr fun value spelling => ?_
    constructor
    · rintro ⟨present, _, back, ⟨-, rfl⟩, spells, rfl⟩
      cases present with
      | true => exact .present spells
      | false =>
        obtain ⟨rfl, rfl⟩ := spells
        exact .absent item
    · intro spells
      cases spells with
      | absent => exact ⟨false, _, [], ⟨trivial, rfl⟩, ⟨rfl, rfl⟩, rfl⟩
      | present spells => exact ⟨true, _, _, ⟨trivial, rfl⟩, spells, rfl⟩
  | record fields => by
    refine (recognizes_decodeFields fields).map.congr fun value spelling => ?_
    constructor
    · rintro ⟨values, spells, rfl⟩
      exact spells
    · intro spells
      cases spells with
      | noFields => exact ⟨_, .noFields, rfl⟩
      | field first others => exact ⟨_, .field first others, rfl⟩
  | void kind => by
    refine (recognizes_pure Value.unit).congr fun value spelling => ?_
    constructor
    · rintro ⟨rfl, rfl⟩
      exact .void kind
    · rintro ⟨⟩
      exact ⟨rfl, rfl⟩

theorem recognizes_decodeFields : ∀ fields : List (String × Shape), (decodeFields fields).Recognizes
    fun values spelling => Spells WithinLimit (.record fields) (.record values) spelling
  | [] => by
    refine (recognizes_pure []).congr fun values spelling => ?_
    constructor
    · rintro ⟨rfl, rfl⟩
      exact .noFields
    · rintro ⟨⟩
      exact ⟨rfl, rfl⟩
  | (name, shape) :: rest => by
    refine ((recognizes_decode shape).bind fun value =>
      (recognizes_decodeFields rest).map).congr fun values spelling => ?_
    constructor
    · rintro ⟨value, front, back, first, ⟨more, others, rfl⟩, rfl⟩
      exact .field first others
    · intro spells
      cases spells with
      | field first others => exact ⟨_, _, _, first, ⟨_, others, rfl⟩, rfl⟩

end

/-- A value is read of the bytes that it consumes, whatever follows them, and of no fewer. -/
theorem decode_delimited {cursor after : Cursor} {value : Value}
    (read : decode shape cursor = .ok value after) :
    ∃ consumed, cursor.rest = consumed ++ after.rest ∧
      after.position = cursor.position + consumed.length ∧
      (∀ more position, decode shape ⟨consumed ++ more, position⟩ =
        .ok value ⟨more, position + consumed.length⟩) ∧
      ∀ front position, front <+: consumed → front ≠ consumed →
        ∃ error stop, decode shape ⟨front, position⟩ = .error error stop :=
  (recognizes_decode shape).delimited read

/-- Items that take no bytes stand last here, so the bytes left do not outnumber them. -/
theorem decode_delimited_of_nested :
    let shape : Shape := .record [("flags", .array (.optional .bool) 2), ("hooks", .seq (.seq (.void .function)))]
    let value : Value := .record [("flags", .seq [.null, .bool true]),
      ("hooks", .seq [.seq [.unit, .unit, .unit], .seq []])]
    let bytes : Bytes := [0, 0, 0, 2, 0, 1, 1, 0, 0, 0, 2, 0, 0, 0, 3, 0, 0, 0, 0]
    decode shape (.ofBytes bytes) = .ok value ⟨[], 19⟩ ∧
      decode shape ⟨bytes ++ [1, 2], 40⟩ = .ok value ⟨[1, 2], 59⟩ ∧
      ∃ error stop, decode shape (.ofBytes (bytes.take 18)) = .error error stop := by
  intro shape value bytes
  have read : decode shape (.ofBytes bytes) = .ok value ⟨[], 19⟩ := by
    simp only [shape, value, bytes]
    cbv
  obtain ⟨consumed, start, -, whole, part⟩ := decode_delimited read
  have same : bytes = consumed := start.trans (List.append_nil consumed)
  subst same
  exact ⟨read, whole [1, 2] 40, part _ 0 (List.take_prefix 18 bytes) (by simp [bytes])⟩

end Shape

end AppendLog
