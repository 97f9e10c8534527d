import AppendLog.Proofs.Handles

/-! Which bytes are opened as a log.

The numbers of a header and of a footer can be read off any bytes, whether they make sense or not.
A log is opened exactly if these numbers are those of records that lie one behind the other between
the header and the footer, and it is opened with them. Otherwise the bytes are turned down for what
they say or for where they end, and never because a part of them could not be decoded.
-/

set_option autoImplicit false

namespace AppendLog

namespace Bytes

def wordAt (bytes : Bytes) (offset : Nat) : Nat := toNat (bytes.span offset (offset + 8))

def wordsAt (bytes : Bytes) (offset count : Nat) : List Nat :=
  (List.range count).map fun index => bytes.wordAt (offset + 8 * index)

variable (bytes : Bytes)

theorem wordAt_lt (offset : Nat) : bytes.wordAt offset < Footer.wordLimit := by
  have short : (bytes.span offset (offset + 8)).length ≤ 8 := by
    rw [span_eq_take_drop]
    exact List.length_take_le _ _
  exact Nat.lt_of_lt_of_le (toNat_lt _) (Nat.pow_le_pow_right (by decide) short)

variable {bytes} {offset count : Nat}

theorem ofNat_wordAt (inside : offset + 8 ≤ bytes.length) :
    ofNat 8 (bytes.wordAt offset) = bytes.span offset (offset + 8) := by
  have full : (bytes.span offset (offset + 8)).length = 8 := by
    rw [length_span inside, Nat.add_sub_cancel_left]
  have spelled := ofNat_toNat (bytes.span offset (offset + 8))
  rwa [full] at spelled

theorem length_wordsAt : (bytes.wordsAt offset count).length = count := by
  rw [wordsAt, List.length_map, List.length_range]

theorem wordsAt_lt {word : Nat} (member : word ∈ bytes.wordsAt offset count) : word < Footer.wordLimit := by
  obtain ⟨index, -, rfl⟩ := List.mem_map.mp member
  exact bytes.wordAt_lt _

theorem flatMap_wordsAt (inside : offset + 8 * count ≤ bytes.length) :
    (bytes.wordsAt offset count).flatMap (ofNat 8) = bytes.span offset (offset + 8 * count) := by
  induction count with
  | zero => simp [wordsAt, span]
  | succ count ih =>
    rw [wordsAt, List.range_succ, List.map_append, List.flatMap_append, ← wordsAt, ih (by omega),
      List.map_singleton, List.flatMap_singleton, ofNat_wordAt (by omega),
      span_append_span bytes (Nat.le_add_right _ _) (Nat.le_add_right _ _)]
    rfl

end Bytes

theorem Footer.spaced_range (offset : Nat → Nat) (count stop : Nat) :
    Spaced ((List.range count).map offset) stop ↔
      (∀ i, i + 1 < count → offset i + Meta.width ≤ offset (i + 1)) ∧
        (0 < count → offset (count - 1) + Meta.width ≤ stop) := by
  induction count generalizing offset with
  | zero => simp [Spaced]
  | succ count ih =>
    rw [List.range_succ_eq_map, List.map_cons, List.map_map, Spaced, ih]
    cases count with
    | zero => simp
    | succ count =>
      simp only [List.range_succ_eq_map, List.map_cons, List.headD_cons, Function.comp]
      constructor
      · rintro ⟨first, others, last⟩
        refine ⟨fun i inside => ?_, fun _ => last (Nat.succ_pos _)⟩
        cases i with
        | zero => exact first
        | succ i => exact others i (Nat.lt_of_succ_lt_succ inside)
      · rintro ⟨each, last⟩
        exact ⟨each 0 (by omega), fun i inside => each (i + 1) (Nat.succ_lt_succ inside),
          fun _ => last (Nat.succ_pos _)⟩

namespace Bytes

abbrev total (bytes : Bytes) : Nat := bytes.wordAt 1

abbrev footerOffset (bytes : Bytes) : Nat := bytes.wordAt 9

def recordAt (bytes : Bytes) (index : Nat) : Nat := bytes.wordAt (bytes.footerOffset + 8 + 8 * index)

/-- The numbers in the bytes are those of a log: its records lie one behind the other, between the
header and a footer that is stored in full, and the first one right behind the header. -/
structure HoldLog (bytes : Bytes) : Prop where
  header : 17 ≤ bytes.length
  version : bytes[0]? = some 1
  room : 17 ≤ bytes.footerOffset
  inside : bytes.footerOffset + 8 + 8 * bytes.total ≤ bytes.length
  count : bytes.wordAt bytes.footerOffset = bytes.total
  first : 0 < bytes.total → bytes.recordAt 0 = 17
  spaced : ∀ i, i + 1 < bytes.total → bytes.recordAt i + 13 ≤ bytes.recordAt (i + 1)
  last : 0 < bytes.total → bytes.recordAt (bytes.total - 1) + 13 ≤ bytes.footerOffset

def ledger (bytes : Bytes) : Ledger :=
  ⟨⟨1, bytes.total, bytes.footerOffset⟩, ⟨(List.range bytes.total).map bytes.recordAt⟩⟩

theorem header_of_length {bytes : Bytes} (long : 17 ≤ bytes.length) :
    ∃ version, bytes[0]? = some version ∧
      (Header.mk version (bytes.wordAt 1) (bytes.wordAt 9)).bytes = bytes.span 0 17 := by
  match bytes, long with
  | version :: rest, long =>
    refine ⟨version, rfl, ?_⟩
    rw [Header.bytes_eq, ofNat_wordAt (by omega), ofNat_wordAt (by omega),
      span_append_span _ (by decide) (by decide)]
    rfl

/-! As many bytes as a header or a footer has can always be decoded. -/

theorem header_decoded {bytes : Bytes} (long : 17 ≤ bytes.length) :
    ∃ header, Header.fromBytes (bytes.span 0 17) = .ok header := by
  obtain ⟨version, -, spelled⟩ := header_of_length long
  exact ⟨_, Header.fromBytes_eq_ok.mpr ⟨⟨bytes.wordAt_lt 1, bytes.wordAt_lt 9⟩, spelled⟩⟩

theorem count_decoded {bytes : Bytes} {offset : Nat} (inside : offset + 8 ≤ bytes.length) :
    Decoding.fromBytes Decoding.word (bytes.span offset (offset + 8)) = .ok (bytes.wordAt offset) :=
  Decoding.inverts_word.fromBytes_eq_ok.mpr ⟨bytes.wordAt_lt offset, ofNat_wordAt inside⟩

theorem footer_decoded {bytes : Bytes} {offset : Nat}
    (inside : offset + 8 + bytes.wordAt offset * 8 ≤ bytes.length) :
    Footer.fromBytes (bytes.span offset (offset + 8) ++
      bytes.span (offset + 8) (offset + 8 + bytes.wordAt offset * 8)) =
        .ok ⟨bytes.wordsAt (offset + 8) (bytes.wordAt offset)⟩ := by
  have length : (Footer.mk (bytes.wordsAt (offset + 8) (bytes.wordAt offset))).length = bytes.wordAt offset :=
    length_wordsAt
  rw [Nat.mul_comm] at inside ⊢
  refine Footer.fromBytes_eq_ok.mpr ⟨⟨by rw [length]; exact bytes.wordAt_lt offset,
    fun _ => wordsAt_lt⟩, ?_⟩
  rw [Footer.bytes_eq, length, flatMap_wordsAt inside, ofNat_wordAt (by omega)]

end Bytes

namespace Ledger

variable {ledger : Ledger} {bytes : Bytes}

theorem LiesIn.eq_ledger (formed : ledger.WellFormed) (lies : ledger.LiesIn bytes) :
    bytes[0]? = some 1 ∧ ledger = bytes.ledger := by
  have front : ledger.header.bytes <+: bytes.drop 0 := lies.1
  have long : 17 ≤ bytes.length := by simpa [Header.width] using lies.1.length_le
  rw [Bytes.isPrefix_drop_iff, Header.length_bytes] at front
  obtain ⟨version, first, spelled⟩ := Bytes.header_of_length long
  have header : ledger.header = ⟨version, bytes.total, bytes.footerOffset⟩ :=
    Header.inverts_decode.injective formed.header_bounded ⟨bytes.wordAt_lt 1, bytes.wordAt_lt 9⟩
      (front.symm.trans spelled.symm)
  have current := formed.version
  obtain ⟨inside, -, entries⟩ := footer_isPrefix_iff.mp lies.2
  have below : ∀ offset ∈ ledger.footer.offsets, offset < Footer.wordLimit := fun offset member =>
    Nat.lt_of_le_of_lt (Nat.le_of_add_right_le (formed.offset_add_width_le member)) formed.offset_lt
  have length := formed.count
  rw [header] at current length inside entries
  cases current
  refine ⟨first, ?_⟩
  have same : ledger.footer.offsets.flatMap (Bytes.ofNat 8) =
      (bytes.wordsAt (bytes.footerOffset + 8) bytes.total).flatMap (Bytes.ofNat 8) := by
    rw [length, Footer.countWidth, Footer.entryWidth, Nat.mul_comm] at inside entries
    rw [Bytes.flatMap_wordsAt inside, entries]
  have offsets : ledger.footer.offsets = bytes.ledger.footer.offsets :=
    (Decoding.inverts_repeated Decoding.inverts_word bytes.total).injective ⟨length, below⟩
      ⟨Bytes.length_wordsAt, fun _ => Bytes.wordsAt_lt⟩ same
  obtain ⟨_, ⟨_⟩⟩ := ledger
  cases header
  cases offsets
  rfl

/-- A well-formed ledger lies in bytes exactly if they hold a log, and the numbers are its own. -/
theorem liesIn_iff (short : bytes.length < Footer.wordLimit) :
    ledger.WellFormed ∧ ledger.LiesIn bytes ↔ bytes.HoldLog ∧ ledger = bytes.ledger := by
  constructor
  · rintro ⟨formed, lies⟩
    obtain ⟨version, rfl⟩ := lies.eq_ledger formed
    have length : bytes.ledger.footer.length = bytes.total := formed.count
    obtain ⟨inside, counted, -⟩ := footer_isPrefix_iff.mp lies.2
    obtain ⟨spaced, last⟩ := (Footer.spaced_range _ _ _).mp formed.spaced
    rw [length, Footer.countWidth, Footer.entryWidth] at inside
    rw [length] at counted
    refine ⟨⟨by simpa [Header.width] using lies.1.length_le, version, formed.room,
      Nat.mul_comm 8 _ ▸ inside, ?_, fun some => ?_, spaced, last⟩, rfl⟩
    · rw [Bytes.wordAt]
      exact (congrArg Bytes.toNat counted).trans (Bytes.toNat_ofNat (bytes.wordAt_lt 1))
    · refine formed.first _ ?_
      obtain ⟨count, total⟩ := Nat.exists_eq_add_of_lt some
      simp [Bytes.ledger, total, List.range_succ_eq_map]
  · rintro ⟨holds, rfl⟩
    obtain ⟨version, first, spelled⟩ := Bytes.header_of_length holds.header
    cases first.symm.trans holds.version
    have length : bytes.ledger.footer.length = bytes.total := Bytes.length_wordsAt
    have few : bytes.total * 8 < Footer.wordLimit := by have := holds.inside; omega
    refine ⟨⟨⟨rfl, holds.room, length, ?_, ?_⟩, bytes.wordAt_lt 9, few⟩, ?_, ?_⟩
    · intro first found
      obtain ⟨index, start, rfl⟩ := Option.map_eq_some_iff.mp (List.head?_map ▸ found)
      rw [List.head?_range] at start
      split at start
      · cases start
      · case isFalse some =>
        cases start
        exact holds.first (Nat.pos_of_ne_zero some)
    · exact (Footer.spaced_range _ _ _).mpr ⟨holds.spaced, holds.last⟩
    · show bytes.ledger.header.bytes <+: bytes.drop 0
      rw [Bytes.isPrefix_drop_iff, Header.length_bytes]
      exact spelled.symm
    · refine footer_isPrefix_iff.mpr ?_
      rw [length, Footer.countWidth, Footer.entryWidth, Nat.mul_comm, ← holds.count,
        Bytes.ofNat_wordAt (by have := holds.inside; omega), holds.count]
      exact ⟨holds.inside, rfl, (Bytes.flatMap_wordsAt holds.inside).symm⟩

end Ledger

inductive LogError.TurnsDown : LogError → Prop where
  | io (step : Step) (source : StorageError) : TurnsDown (.io step source)
  | unsupportedVersion (found : UInt8) : TurnsDown (.unsupportedVersion found)
  | invalidFormat (flaw : FormatFlaw) : TurnsDown (.invalidFormat flaw)

section TurnsDown

variable {α : Type} {error : LogError} {device after : Device}

theorem Step.turnsDown_of_run {step : Step} {access : Access α}
    (failed : step.run access device = .error error after) : error.TurnsDown := by
  unfold Step.run at failed
  cases ran : access device with
  | ok value left =>
    rw [adaptExcept_of_ok ran] at failed
    cases failed
  | error source left =>
    rw [adaptExcept_of_error ran] at failed
    cases failed
    exact .io step source

theorem Ledger.turnsDown_of_ofValidated {validated : Except LogError Unit}
    (foreseen : ∀ error, validated = .error error → error.TurnsDown)
    (failed : ofValidated validated device = .error error after) : error.TurnsDown := by
  cases validated with
  | ok _ => cases failed
  | error found =>
    cases failed
    exact foreseen _ rfl

theorem Header.turnsDown_of_validate {header : Header} (failed : header.validate = .error error) :
    error.TurnsDown := by
  unfold validate at failed
  split at failed
  · cases failed
    exact .unsupportedVersion _
  · split at failed <;> cases failed
    exact .invalidFormat _

theorem Footer.turnsDown_of_validateCount {count : Nat} {header : Header}
    (failed : validateCount count header = .error error) : error.TurnsDown := by
  unfold validateCount at failed
  split at failed
  · cases failed
    exact .invalidFormat _
  · split at failed <;> cases failed
    exact .invalidFormat _

theorem Footer.turnsDown_of_validateSpans {index stop : Nat} {offsets : List Nat}
    (failed : validateSpans index offsets stop = .error error) : error.TurnsDown := by
  induction offsets generalizing index with
  | nil => cases failed
  | cons offset rest ih =>
    simp only [validateSpans] at failed
    split at failed
    · exact ih failed
    · cases failed
      exact .invalidFormat _

theorem Footer.turnsDown_of_validate {footer : Footer} {header : Header}
    (failed : footer.validate header = .error error) : error.TurnsDown := by
  unfold validate at failed
  split at failed
  · cases failed
    exact .invalidFormat _
  · split at failed
    · split at failed
      · exact turnsDown_of_validateSpans failed
      · cases failed
        exact .invalidFormat _
    · cases failed

namespace Ledger

theorem turnsDown_of_loadHeader (readable : device.medium.Readable)
    (failed : loadHeader device = .error error after) : error.TurnsDown := by
  rcases bind_eq_error.mp failed with failed | ⟨bytes, _, read, failed⟩
  · exact Step.turnsDown_of_run failed
  obtain ⟨-, inside, rfl, rfl⟩ := (Device.run_readAt_eq_ok readable).mp read
  obtain ⟨header, decoded⟩ := Bytes.header_decoded (Nat.zero_add 17 ▸ inside)
  rw [Nat.zero_add, Header.width, decoded] at failed
  rcases bind_eq_error.mp failed with failed | ⟨header, _, _, failed⟩
  · cases failed
  rcases bind_eq_error.mp failed with failed | ⟨_, _, _, failed⟩
  · exact turnsDown_of_ofValidated (fun _ => Header.turnsDown_of_validate) failed
  · cases failed

theorem turnsDown_of_loadFooter {header : Header} (readable : device.medium.Readable)
    (failed : loadFooter header device = .error error after) : error.TurnsDown := by
  have readableThen : (device.noting .read).medium.Readable := readable
  rcases bind_eq_error.mp failed with failed | ⟨countBytes, _, readCount, failed⟩
  · exact Step.turnsDown_of_run failed
  obtain ⟨-, insideCount, rfl, rfl⟩ := (Device.run_readAt_eq_ok readable).mp readCount
  rw [Footer.countWidth, Bytes.count_decoded insideCount] at failed
  rcases bind_eq_error.mp failed with failed | ⟨count, _, decodes, failed⟩
  · cases failed
  cases decodes
  rcases bind_eq_error.mp failed with failed | ⟨_, _, validates, failed⟩
  · exact turnsDown_of_ofValidated (fun _ => Footer.turnsDown_of_validateCount) failed
  obtain ⟨-, rfl⟩ := ofValidated_eq_ok.mp validates
  rcases bind_eq_error.mp failed with failed | ⟨entries, _, readEntries, failed⟩
  · exact Step.turnsDown_of_run failed
  obtain ⟨-, inside, rfl, rfl⟩ := (Device.run_readAt_eq_ok readableThen).mp readEntries
  rw [Device.bytes_noting, Footer.entryWidth, Bytes.footer_decoded inside] at failed
  rcases bind_eq_error.mp failed with failed | ⟨footer, _, _, failed⟩
  · cases failed
  rcases bind_eq_error.mp failed with failed | ⟨_, _, _, failed⟩
  · exact turnsDown_of_ofValidated (fun _ => Footer.turnsDown_of_validate) failed
  · cases failed

theorem turnsDown_of_load (readable : device.medium.Readable) (failed : load device = .error error after) :
    error.TurnsDown := by
  rcases bind_eq_error.mp failed with failed | ⟨header, middle, loaded, failed⟩
  · exact turnsDown_of_loadHeader readable failed
  obtain ⟨-, -, -, -, rfl⟩ := (loadHeader_eq_ok readable).mp loaded
  rcases bind_eq_error.mp failed with failed | ⟨footer, _, _, failed⟩
  · exact turnsDown_of_loadFooter (show (device.noting .read).medium.Readable from readable) failed
  rcases bind_eq_error.mp failed with failed | ⟨size, _, _, failed⟩
  · exact Step.turnsDown_of_run failed
  · cases failed

end Ledger

end TurnsDown

namespace Log

variable {config : Config} {device : Device}

theorem openLedger_of_sound (config : Config) (readable : device.medium.Readable)
    (sound : device.plan = .never) (nonempty : device.bytes ≠ []) :
    openLedger config device = Ledger.load (device.noting .size) := by
  have measured := (Device.run_size_eq_ok .readSize readable).mpr
    ⟨show device.fault? .size = none by rw [Device.fault?, sound]; rfl, rfl, rfl⟩
  rw [openLedger, bind_of_ok measured, if_neg (mt List.length_eq_zero_iff.mp nonempty)]

/-- A medium with bytes on it is opened exactly if the bytes hold a log, and as the log that they
hold. It stays as it is, also if its bytes are turned down. -/
theorem opens_iff (readable : device.medium.Readable) (sound : device.plan = .never)
    (nonempty : device.bytes ≠ []) (short : device.bytes.length < 2 ^ 64) :
    ((∃ ledger after, openLedger config device = .ok ledger after) ↔ device.bytes.HoldLog) ∧
    (∀ ledger after, openLedger config device = .ok ledger after →
      ledger = device.bytes.ledger ∧ after.medium = device.medium) ∧
    (∀ error after, openLedger config device = .error error after →
      error.TurnsDown ∧ after.medium = device.medium) := by
  have opened {ledger : Ledger} {after : Device} (ran : openLedger config device = .ok ledger after) :
      (device.bytes.HoldLog ∧ ledger = device.bytes.ledger) ∧ after.medium = device.medium := by
    obtain ⟨formed, lies, same, -⟩ := openLedger_of_nonempty readable nonempty ran
    exact ⟨(Ledger.liesIn_iff short).mp ⟨formed, lies⟩, same⟩
  refine ⟨⟨?_, fun holds => ?_⟩, fun ledger after ran => ?_, fun error after ran => ?_⟩
  · rintro ⟨ledger, after, ran⟩
    exact (opened ran).1.1
  · obtain ⟨formed, lies⟩ := (Ledger.liesIn_iff short).mpr ⟨holds, rfl⟩
    obtain ⟨calls, ran⟩ := openLedger_of_liesIn device config readable sound formed lies
    exact ⟨_, _, ran⟩
  · exact ⟨(opened ran).1.2, (opened ran).2⟩
  · rw [openLedger_of_sound config readable sound nonempty] at ran
    obtain ⟨calls, left⟩ := Ledger.inspects_load (device.noting .size)
    rw [ran, afterwards] at left
    exact ⟨Ledger.turnsDown_of_load (show (device.noting .size).medium.Readable from readable) ran, left ▸ rfl⟩

theorem opens_iff_of_one_record :
    let bytes : Bytes := [1, 0, 0, 0, 0, 0, 0, 0, 1, 0, 0, 0, 0, 0, 0, 0, 31,
      0, 0, 0, 0, 0, 0, 0, 5, 105, 116, 101, 109, 0, 7,
      0, 0, 0, 0, 0, 0, 0, 1, 0, 0, 0, 0, 0, 0, 0, 17, 255]
    let medium : Medium := .memory ⟨bytes⟩
    bytes.HoldLog ∧ ∃ after, openLedger .standard (.sound medium) = .ok ⟨⟨1, 1, 31⟩, ⟨[17]⟩⟩ after ∧
      after.medium = medium := by
  intro bytes medium
  have holds : bytes.HoldLog := {
    header := by decide
    version := rfl
    room := by decide
    inside := by decide
    count := by decide
    first := fun _ => by decide
    spaced := fun i inside => absurd (show i + 1 < 1 from inside) (by omega)
    last := fun _ => by decide }
  obtain ⟨accepts, opens, -⟩ := @opens_iff .standard (.sound medium)
    (Medium.writable_memory _).readable rfl (List.cons_ne_nil _ _) (by decide)
  obtain ⟨ledger, after, opened⟩ := accepts.mpr holds
  obtain ⟨rfl, same⟩ := opens ledger after opened
  exact ⟨holds, after, opened, same⟩

/-- A footer offset so large that the end of the footer is no word is no offset in the bytes. -/
example : openLedger .standard (.sound (.memory ⟨1 :: List.replicate 8 0 ++ List.replicate 8 255⟩)) =
    .error (.io .readFooter (.readPastEnd (2 ^ 64 - 1) 8 17))
      ⟨.memory ⟨1 :: List.replicate 8 0 ++ List.replicate 8 255⟩, .never, [.read, .read, .size]⟩ := by
  rfl

end Log

end AppendLog
