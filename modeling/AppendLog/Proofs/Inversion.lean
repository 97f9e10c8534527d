import AppendLog.Log.Footer
import AppendLog.Proofs.Running

/-! Decoders that accept exactly what an encoder writes.

A decoder inverts a spelling if it reads a value precisely where the bytes start with
the spelling of that value, and stops behind it. Such decoders compose, and the headers,
footers and metas of a log are all decoded by one: `Header.fromBytes_eq_ok`,
`Footer.fromBytes_eq_ok`, `Meta.fromBytes_eq_ok`.
-/

set_option autoImplicit false

namespace AppendLog

variable {α β : Type}

namespace Decoding

/-- The decoder reads the spellings of the values in a range, and nothing else. -/
def Inverts (decoder : Decoding α) (spell : α → Bytes) (range : α → Prop) : Prop :=
  ∀ cursor value after, decoder cursor = .ok value after ↔
    range value ∧ cursor.rest = spell value ++ after.rest ∧
      after.position = cursor.position + (spell value).length

/-- What the decoder reads is spelled by the value that it gives. Not every value that could be
spelled has to be read. -/
def Reads (decoder : Decoding α) (spell : α → Bytes) (range : α → Prop) : Prop :=
  ∀ cursor value after, decoder cursor = .ok value after →
    range value ∧ cursor.rest = spell value ++ after.rest ∧
      after.position = cursor.position + (spell value).length

theorem Inverts.reads {decoder : Decoding α} {spell : α → Bytes} {range : α → Prop}
    (inverts : decoder.Inverts spell range) : decoder.Reads spell range :=
  fun cursor value after read => (inverts cursor value after).mp read

theorem Inverts.congr {decoder : Decoding α} {spell other : α → Bytes} {range wanted : α → Prop}
    (inverts : decoder.Inverts spell range) (same : ∀ value, range value ↔ wanted value)
    (spelled : ∀ value, wanted value → spell value = other value) :
    decoder.Inverts other wanted := by
  intro cursor value after
  rw [inverts, same]
  constructor
  · rintro ⟨inside, rest⟩
    exact ⟨inside, spelled value inside ▸ rest⟩
  · rintro ⟨inside, rest⟩
    exact ⟨inside, (spelled value inside).symm ▸ rest⟩

theorem inverts_pure (value : α) :
    (pure value : Decoding α).Inverts (fun _ => []) (fun other => other = value) := by
  rintro ⟨rest, position⟩ other ⟨rest', position'⟩
  simp only [pure, EStateM.pure, EStateM.Result.ok.injEq, Cursor.mk.injEq, List.nil_append,
    List.length_nil, Nat.add_zero]
  constructor
  · rintro ⟨rfl, rfl, rfl⟩
    exact ⟨rfl, rfl, rfl⟩
  · rintro ⟨rfl, rfl, rfl⟩
    exact ⟨rfl, rfl, rfl⟩

/-- Two decoders in a row, where the second one's value shows what the first one read. -/
theorem Inverts.bind {first : Decoding α} {second : α → Decoding β} {spell : α → Bytes}
    {range : α → Prop} {spellRest : β → Bytes} (part : β → α) (rangeRest : β → Prop)
    (inverts : first.Inverts spell range)
    (rest : ∀ value, range value → (second value).Inverts spellRest
      fun result => part result = value ∧ rangeRest result) :
    (first >>= second).Inverts (fun result => spell (part result) ++ spellRest result)
      fun result => range (part result) ∧ rangeRest result := by
  intro cursor result after
  rw [bind_eq_ok]
  -- The value that the first decoder has read is found again in the result, as its part.
  constructor
  · rintro ⟨value, middle, read, readRest⟩
    obtain ⟨inside, start, moved⟩ := (inverts cursor value middle).mp read
    obtain ⟨⟨rfl, insideRest⟩, startRest, movedRest⟩ := (rest value inside middle result after).mp readRest
    refine ⟨⟨inside, insideRest⟩, ?_, ?_⟩
    · rw [start, startRest, List.append_assoc]
    · rw [movedRest, moved, List.length_append, Nat.add_assoc]
  · rintro ⟨⟨inside, insideRest⟩, start, moved⟩
    refine ⟨part result, ⟨spellRest result ++ after.rest,
      cursor.position + (spell (part result)).length⟩, ?_, ?_⟩
    · exact (inverts _ _ _).mpr ⟨inside, by rw [start, List.append_assoc], rfl⟩
    · refine (rest _ inside _ _ _).mpr ⟨⟨rfl, insideRest⟩, rfl, ?_⟩
      rw [moved, List.length_append, Nat.add_assoc]

theorem fromBytes_eq_ok {decoder : Decoding α} {bytes : Bytes} {value : α} :
    fromBytes decoder bytes = .ok value ↔
      ∃ after, decoder (Cursor.ofBytes bytes) = .ok value after ∧ after.rest = [] := by
  unfold fromBytes
  cases ran : decoder (Cursor.ofBytes bytes) with
  | error error stop => simp [bind_of_error ran]
  | ok found after =>
    rw [bind_of_ok ran]
    by_cases empty : after.rest = []
    · have finished : finish after = .ok () after := by simp [finish, empty]
      rw [bind_of_ok finished]
      simp only [pure, EStateM.pure, Except.ok.injEq, EStateM.Result.ok.injEq]
      constructor
      · rintro rfl
        exact ⟨after, ⟨rfl, rfl⟩, empty⟩
      · rintro ⟨_, ⟨rfl, rfl⟩, _⟩
        rfl
    · have left : finish after = .error (.trailingBytes after.rest.length) after := by
        simp [finish, empty]
      rw [bind_of_error left]
      simp only [reduceCtorEq, EStateM.Result.ok.injEq, false_iff, not_exists]
      rintro _ ⟨⟨rfl, rfl⟩, nothing⟩
      exact empty nothing

theorem Reads.fromBytes {decoder : Decoding α} {spell : α → Bytes} {range : α → Prop}
    (reads : decoder.Reads spell range) {bytes : Bytes} {value : α}
    (read : fromBytes decoder bytes = .ok value) : range value ∧ spell value = bytes := by
  obtain ⟨after, read, empty⟩ := fromBytes_eq_ok.mp read
  obtain ⟨inside, start, -⟩ := reads _ _ _ read
  rw [empty, List.append_nil] at start
  exact ⟨inside, start.symm⟩

theorem Inverts.fromBytes_eq_ok {decoder : Decoding α} {spell : α → Bytes} {range : α → Prop}
    (inverts : decoder.Inverts spell range) {bytes : Bytes} {value : α} :
    fromBytes decoder bytes = .ok value ↔ range value ∧ spell value = bytes := by
  constructor
  · exact inverts.reads.fromBytes
  · rintro ⟨inside, rfl⟩
    exact Decoding.fromBytes_eq_ok.mpr ⟨⟨[], (spell value).length⟩,
      (inverts _ _ _).mpr ⟨inside, by simp [Cursor.ofBytes], by simp [Cursor.ofBytes]⟩, rfl⟩

theorem Inverts.injective {decoder : Decoding α} {spell : α → Bytes} {range : α → Prop}
    (inverts : decoder.Inverts spell range) {first second : α} (firstInside : range first)
    (secondInside : range second) (same : spell first = spell second) : first = second := by
  have one := inverts.fromBytes_eq_ok.mpr ⟨firstInside, same⟩
  have other := inverts.fromBytes_eq_ok.mpr ⟨secondInside, rfl⟩
  rw [one] at other
  exact Except.ok.inj other

theorem inverts_raw (count : Nat) : (raw count).Inverts id (fun bytes => bytes.length = count) := by
  rintro ⟨rest, position⟩ value ⟨rest', position'⟩
  simp only [raw, id]
  constructor
  · intro read
    split at read
    · case isTrue full =>
      cases read
      exact ⟨full, (List.take_append_drop count rest).symm, by rw [full]⟩
    · cases read
  · rintro ⟨rfl, rfl, rfl⟩
    simp [Cursor.skip]

theorem inverts_throw (error : CodecError) (spell : α → Bytes) {range : α → Prop}
    (nothing : ∀ value, ¬ range value) : (throw error : Decoding α).Inverts spell range := by
  intro cursor value after
  constructor
  · intro impossible
    cases impossible
  · rintro ⟨inside, _⟩
    exact absurd inside (nothing value)

theorem inverts_of_raw {width : Nat} {ofWord : Bytes → α} {spell : α → Bytes} {range : α → Prop}
    (read : ∀ word, word.length = width → range (ofWord word) ∧ spell (ofWord word) = word)
    (spelled : ∀ value, range value → (spell value).length = width ∧ ofWord (spell value) = value) :
    (do return ofWord (← raw width) : Decoding α).Inverts spell range := by
  refine ((inverts_raw width).bind spell range
    fun word full => (inverts_pure (ofWord word)).congr ?_ fun _ _ => rfl).congr
    (fun value => ⟨And.right, fun inside => ⟨(spelled value inside).1, inside⟩⟩) (by simp)
  intro value
  constructor
  · rintro rfl
    exact (read word full).symm
  · rintro ⟨rfl, inside⟩
    exact (spelled value inside).2.symm

theorem inverts_byte : byte.Inverts (fun value => [value]) (fun _ => True) := by
  refine inverts_of_raw (fun word full => ?_) fun value _ => ⟨rfl, rfl⟩
  obtain ⟨only, rfl⟩ := List.length_eq_one_iff.mp full
  exact ⟨trivial, rfl⟩

theorem inverts_number (width : Nat) : (do return Bytes.toNat (← raw width) : Decoding Nat).Inverts
    (Bytes.ofNat width) (· < 256 ^ width) := by
  refine inverts_of_raw (fun word full => ?_) fun n fits =>
    ⟨Bytes.length_ofNat width n, Bytes.toNat_ofNat fits⟩
  subst full
  exact ⟨Bytes.toNat_lt word, Bytes.ofNat_toNat word⟩

theorem inverts_word : word.Inverts (Bytes.ofNat 8) (· < Footer.wordLimit) := inverts_number 8

section repeated

variable {item : Decoding α} {spell : α → Bytes} {range : α → Prop}

/-- What is read in a row stands there behind what was read before. -/
theorem Reads.of_repeated (reads : item.Reads spell range) {count : Nat} {done all : List α}
    {cursor after : Cursor} (read : repeated item count done cursor = .ok all after) :
    ∃ values, all = done.reverse ++ values ∧ values.length = count ∧ (∀ value ∈ values, range value) ∧
      cursor.rest = values.flatMap spell ++ after.rest ∧
      after.position = cursor.position + (values.flatMap spell).length := by
  -- On the number of items that are still to be read. Those read before are kept in reverse.
  induction count generalizing done cursor with
  | zero =>
    cases read
    exact ⟨[], by simp⟩
  | succ count ih =>
    simp only [Decoding.repeated] at read
    split at read
    · case h_1 head middle ran =>
      obtain ⟨inside, start, moved⟩ := reads _ _ _ ran
      obtain ⟨values, rfl, length, insideRest, startRest, movedRest⟩ := ih read
      refine ⟨head :: values, by simp, by simp [length], ?_, ?_, ?_⟩
      · simpa using And.intro inside insideRest
      · rw [start, startRest, List.flatMap_cons, List.append_assoc]
      · rw [movedRest, moved, List.flatMap_cons, List.length_append, Nat.add_assoc]
    · cases read

variable (inverts : item.Inverts spell range)

include inverts

theorem Inverts.repeated {values : List α} (inside : ∀ value ∈ values, range value)
    (done : List α) (rest : Bytes) (position : Nat) :
    repeated item values.length done ⟨values.flatMap spell ++ rest, position⟩ =
      .ok (done.reverse ++ values) ⟨rest, position + (values.flatMap spell).length⟩ := by
  induction values generalizing done position with
  | nil => simp [Decoding.repeated]
  | cons head tail ih =>
    have first := (inverts ⟨spell head ++ (tail.flatMap spell ++ rest), position⟩ head
      ⟨tail.flatMap spell ++ rest, position + (spell head).length⟩).mpr
      ⟨inside head List.mem_cons_self, rfl, rfl⟩
    have more := ih (fun value member => inside value (List.mem_cons_of_mem _ member))
      (head :: done) (position + (spell head).length)
    simp only [List.length_cons, List.flatMap_cons, List.append_assoc, Decoding.repeated, first, more]
    simp [Nat.add_assoc]

theorem inverts_repeated (count : Nat) :
    (Decoding.repeated item count []).Inverts (fun values => values.flatMap spell)
      fun values => values.length = count ∧ ∀ value ∈ values, range value := by
  rintro ⟨rest, position⟩ values ⟨rest', position'⟩
  constructor
  · intro read
    obtain ⟨found, rfl, length, inside, start, moved⟩ := inverts.reads.of_repeated read
    exact ⟨⟨length, inside⟩, start, moved⟩
  · rintro ⟨⟨rfl, inside⟩, start, moved⟩
    simp only at start moved
    rw [start, moved]
    exact inverts.repeated inside [] rest' position

end repeated

end Decoding

namespace Header

def Bounded (header : Header) : Prop :=
  header.totalRecords < Footer.wordLimit ∧ header.footerOffset < Footer.wordLimit

theorem bytes_eq (header : Header) : header.bytes =
    header.version :: (Bytes.ofNat 8 header.totalRecords ++ Bytes.ofNat 8 header.footerOffset) := rfl

@[simp] theorem length_bytes (header : Header) : header.bytes.length = width := by
  simp [bytes_eq, width]

open Decoding in
theorem inverts_decode : decode.Inverts bytes Bounded := by
  -- From the last field to the first, each under the assumption that those in front of it are read.
  have last (v : UInt8) (t : Nat) : (do return Header.mk v t (← word)).Inverts
      (fun header => Bytes.ofNat 8 header.footerOffset ++ []) fun header =>
        header.footerOffset < Footer.wordLimit ∧ header.totalRecords = t ∧ header.version = v :=
    inverts_word.bind footerOffset _ fun f _ => (inverts_pure _).congr
      (by rintro ⟨v', t', f'⟩; simp only [Header.mk.injEq]; grind) fun _ _ => rfl
  have numbers (v : UInt8) : (do return Header.mk v (← word) (← word)).Inverts
      (fun header => Bytes.ofNat 8 header.totalRecords ++ (Bytes.ofNat 8 header.footerOffset ++ []))
      fun header => header.totalRecords < Footer.wordLimit ∧
        header.footerOffset < Footer.wordLimit ∧ header.version = v :=
    inverts_word.bind totalRecords _ fun t _ => (last v t).congr (by grind) fun _ _ => rfl
  have all : decode.Inverts
      (fun header => [header.version] ++
        (Bytes.ofNat 8 header.totalRecords ++ (Bytes.ofNat 8 header.footerOffset ++ [])))
      fun header => True ∧ header.Bounded :=
    inverts_byte.bind version _ fun v _ => (numbers v).congr (by grind [Bounded]) fun _ _ => rfl
  exact all.congr (by simp) (by simp [bytes_eq])

theorem fromBytes_eq_ok {bytes : Bytes} {header : Header} :
    fromBytes bytes = .ok header ↔ header.Bounded ∧ header.bytes = bytes :=
  inverts_decode.fromBytes_eq_ok

end Header

namespace Footer

def Bounded (footer : Footer) : Prop :=
  footer.length < wordLimit ∧ ∀ offset ∈ footer.offsets, offset < wordLimit

theorem bytes_eq (footer : Footer) : footer.bytes =
    Bytes.ofNat 8 footer.length ++ footer.offsets.flatMap (Bytes.ofNat 8) := by
  have parts (offsets : List Nat) : Encoding.concat (offsets.map Encoding.word) =
      ⟨offsets.flatMap (Bytes.ofNat 8), none⟩ := by
    induction offsets with
    | nil => rfl
    | cons offset rest ih =>
      simp only [Encoding.concat, List.map_cons, List.foldr_cons, List.flatMap_cons] at ih ⊢
      rw [ih]
      rfl
  rw [bytes, encode, parts]
  rfl

theorem length_words (offsets : List Nat) :
    (offsets.flatMap (Bytes.ofNat 8)).length = 8 * offsets.length := by
  induction offsets with
  | nil => rfl
  | cons offset rest ih =>
    rw [List.flatMap_cons, List.length_append, ih, Bytes.length_ofNat, List.length_cons]
    omega

@[simp] theorem length_bytes (footer : Footer) : footer.bytes.length = footer.encodedLength := by
  rw [bytes_eq, List.length_append, length_words, Bytes.length_ofNat]
  rfl

open Decoding in
theorem inverts_decode : decode.Inverts bytes Bounded := by
  have offsets (count : Nat) : (Footer.mk <$> repeated word count []).Inverts
      (fun footer => footer.offsets.flatMap (Bytes.ofNat 8) ++ []) fun footer =>
        (footer.offsets.length = count ∧ ∀ offset ∈ footer.offsets, offset < wordLimit) ∧ True :=
    (inverts_repeated inverts_word count).bind Footer.offsets _ fun offsets _ =>
      (inverts_pure (Footer.mk offsets)).congr (by rintro ⟨found⟩; simp) fun _ _ => rfl
  -- The room that is asked for up front is there whenever the offsets are.
  have roomy (count : Nat) : (decodeOffsets count).Inverts
      (fun footer => footer.offsets.flatMap (Bytes.ofNat 8)) fun footer =>
        footer.length = count ∧ ∀ offset ∈ footer.offsets, offset < wordLimit := by
    intro cursor footer after
    simp only [decodeOffsets]
    split
    · case isTrue short =>
      simp only [reduceCtorEq, false_iff]
      rintro ⟨⟨rfl, _⟩, start, _⟩
      rw [start, List.length_append, length_words, entryWidth, length] at short
      omega
    · simpa [length] using offsets count cursor footer after
  exact (inverts_word.bind length _ fun count _ => roomy count).congr (fun _ => Iff.rfl)
    fun footer _ => (bytes_eq footer).symm

theorem fromBytes_eq_ok {bytes : Bytes} {footer : Footer} :
    fromBytes bytes = .ok footer ↔ footer.Bounded ∧ footer.bytes = bytes :=
  inverts_decode.fromBytes_eq_ok

end Footer

theorem IntKind.holds_ofBytes {kind : IntKind} {word : Bytes} (full : word.length = kind.width) :
    kind.Holds (kind.ofBytes word) := by
  have bound := Bytes.toNat_lt word
  rw [full] at bound
  unfold Holds ofBytes
  split
  -- Half of the words of a signed kind stand for numbers below zero.
  · have positive : 0 < 256 ^ kind.width := Nat.pow_pos (by decide)
    have low := @Int.le_bmod (Bytes.toNat word) _ positive
    have high := @Int.bmod_lt (Bytes.toNat word) _ positive
    have even : 256 ^ kind.width % 2 = 0 := by
      obtain ⟨width, same⟩ := Nat.exists_eq_add_of_lt kind.width_pos
      rw [same, Nat.zero_add, Nat.pow_succ]
      omega
    rw [Bytes.toInt, full]
    omega
  · omega

theorem Decoding.inverts_int (kind : IntKind) : (Decoding.int kind).Inverts kind.bytes kind.Holds :=
  inverts_of_raw (fun _ full => ⟨IntKind.holds_ofBytes full, IntKind.bytes_ofBytes full⟩)
    fun n holds => ⟨kind.length_bytes n, IntKind.ofBytes_bytes holds⟩

theorem Kind.bytes_ofBytes {bytes : Bytes} (full : bytes.length = 4) :
    (ofBytes bytes).bytes = bytes := by
  match bytes, full with
  | [_, _, _, _], _ => rfl

namespace Meta

theorem bytes_eq (info : Meta) : info.bytes =
    IntKind.i64.bytes info.time ++ info.kind.bytes ++ [info.op.code] := rfl

@[simp] theorem length_bytes (info : Meta) : info.bytes.length = width := by
  simp [bytes_eq, Kind.bytes, IntKind.width, width]

def InRange (info : Meta) : Prop := IntKind.i64.Holds info.time

instance (info : Meta) : Decidable info.InRange :=
  inferInstanceAs (Decidable (IntKind.i64.Holds info.time))

open Decoding in
theorem inverts_decode : decode.Inverts bytes InRange := by
  unfold decode
  refine ((inverts_int .i64).bind Meta.time (fun _ => True) fun time _ => (?_ : Inverts _
    (fun info : Meta => info.kind.bytes ++ ([info.op.code] ++ [])) fun info => info.time = time ∧ True)).congr
      (by simp [InRange]) (by simp [bytes_eq])
  refine ((inverts_raw 4).bind (fun info => info.kind.bytes) (fun info => info.time = time)
    fun kind full => (?_ : Inverts _ (fun info : Meta => [info.op.code] ++ [])
      fun info => info.kind.bytes = kind ∧ info.time = time)).congr
        (by simp [Kind.bytes]) fun _ _ => rfl
  refine (inverts_byte.bind (fun info => info.op.code)
    (fun info => info.kind.bytes = kind ∧ info.time = time) fun code _ => (?_ : Inverts _ (fun _ : Meta => [])
      fun info => info.op.code = code ∧ info.kind.bytes = kind ∧ info.time = time)).congr
        (by simp) fun _ _ => rfl
  cases found : Op.ofCode? code with
  | none =>
    refine inverts_throw _ _ ?_
    rintro info ⟨rfl, _⟩
    simp [Op.ofCode?_code] at found
  | some op =>
    refine (inverts_pure _).congr ?_ fun _ _ => rfl
    intro info
    constructor
    · rintro rfl
      exact ⟨Op.code_of_ofCode? found, Kind.bytes_ofBytes full, rfl⟩
    · rintro ⟨rfl, rfl, rfl⟩
      rw [Op.ofCode?_code] at found
      cases found
      rfl

end Meta

end AppendLog
