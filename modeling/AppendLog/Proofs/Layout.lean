import AppendLog.Proofs.Inversion
import AppendLog.Proofs.Script

/-! Which bytes are those of a log.

A ledger is well formed if its header and its footer fit each other, and lies in a byte
string if the header stands in front of it and the footer where the header says. Loading
accepts exactly the well-formed ledger that lies in the bytes, whatever else is stored
behind the footer: `load_eq_ok` and `load_of_liesIn`.
-/

set_option autoImplicit false

namespace AppendLog

def Footer.Spaced : (offsets : List Nat) → (stop : Nat) → Prop
  | [], _ => True
  | offset :: rest, stop => offset + Meta.width ≤ rest.headD stop ∧ Spaced rest stop

theorem Footer.Spaced.add_width_le {offsets : List Nat} {stop offset : Nat}
    (spaced : Spaced offsets stop) (member : offset ∈ offsets) : offset + Meta.width ≤ stop := by
  induction offsets generalizing offset with
  | nil => cases member
  | cons head rest ih =>
    obtain ⟨room, spacedRest⟩ := spaced
    -- The first offset is followed by the second one, or by the end.
    rcases List.mem_cons.mp member with rfl | member
    · refine Nat.le_trans room ?_
      cases rest with
      | nil => exact Nat.le_refl _
      | cons next rest => exact Nat.le_of_add_right_le (ih spacedRest List.mem_cons_self)
    · exact ih spacedRest member

theorem Footer.validateSpans_eq_ok {index stop : Nat} {offsets : List Nat} :
    validateSpans index offsets stop = .ok () ↔ Spaced offsets stop := by
  induction offsets generalizing index with
  | nil => simp [validateSpans, Spaced]
  | cons offset rest ih =>
    simp only [validateSpans, Spaced]
    split
    · case isTrue room => simp only [room, ih, true_and]
    · case isFalse short => simp only [short, false_and, reduceCtorEq]

theorem Header.validate_eq_ok {header : Header} :
    header.validate = .ok () ↔ header.version = currentVersion ∧ width ≤ header.footerOffset := by
  unfold validate
  split
  · case isTrue other => simp [other]
  · case isFalse current =>
    split
    · case isTrue inside => simp [Nat.not_le.mpr inside]
    · case isFalse behind => simp [Decidable.not_not.mp current, Nat.not_lt.mp behind]

theorem Footer.validate_eq_ok {footer : Footer} {header : Header} :
    footer.validate header = .ok () ↔ footer.length = header.totalRecords ∧
      (∀ first ∈ footer.offsets.head?, first = Header.width) ∧
      Spaced footer.offsets header.footerOffset := by
  unfold validate
  split
  · case isTrue differs => simp [differs]
  · case isFalse same =>
    cases offsets : footer.offsets with
    | nil => simp [Decidable.not_not.mp same, Spaced]
    | cons first rest =>
      simp only [List.head?_cons, Option.mem_some_iff]
      split
      · case isTrue start => simp [Decidable.not_not.mp same, start, validateSpans_eq_ok]
      · case isFalse elsewhere => simp [elsewhere]

namespace Device

variable {device after : Device}

theorem run_size_eq_ok_iff (step : Step) {size : Nat} :
    step.run Device.size device = .ok size after ↔
      device.fault? .size = none ∧ size = device.medium.size ∧ after = device.noting .size := by
  rw [Step.run, adaptExcept_eq_ok, size_eq]
  cases device.fault? .size <;> simp [eq_comm]

theorem run_size_eq_ok (step : Step) {size : Nat} (readable : device.medium.Readable) :
    step.run Device.size device = .ok size after ↔
      device.fault? .size = none ∧ size = device.bytes.length ∧ after = device.noting .size := by
  rw [run_size_eq_ok_iff, readable.1]
  rfl

theorem run_readAt_of_reaches {step : Step} {offset length : Nat} (plain : device.medium.Plain)
    (reaches : device.medium.Reaches (offset + length)) (sound : device.fault? .read = none) :
    step.run (Device.readAt offset length) device =
      .ok (device.bytes.span offset (offset + length)) (device.noting .read) := by
  apply adaptExcept_of_ok
  rw [readAt_eq plain reaches, sound]

theorem run_readAt_eq_ok {step : Step} {offset length : Nat} {found : Bytes}
    (readable : device.medium.Readable) :
    step.run (Device.readAt offset length) device = .ok found after ↔
      device.fault? .read = none ∧ offset + length ≤ device.bytes.length ∧
        found = device.bytes.span offset (offset + length) ∧ after = device.noting .read := by
  rw [Step.run, adaptExcept_eq_ok]
  by_cases inside : offset + length ≤ device.bytes.length
  · rw [readAt_eq readable.2 (readable.reaches inside)]
    cases device.fault? .read <;> simp [inside, eq_comm]
  · have refused : device.medium.readAt offset length =
        .error (.readPastEnd offset length device.bytes.length) := by
      rw [Medium.readAt_eq readable]
      exact if_neg inside
    simp only [readAt, calling, refused, inside, false_and, and_false, iff_false]
    cases device.fault? .read <;> simp [bind, Except.bind]

end Device

namespace Ledger

structure Fits (ledger : Ledger) : Prop where
  version : ledger.header.version = Header.currentVersion
  room : Header.width ≤ ledger.header.footerOffset
  count : ledger.footer.length = ledger.header.totalRecords
  first : ∀ first ∈ ledger.footer.offsets.head?, first = Header.width
  spaced : Footer.Spaced ledger.footer.offsets ledger.header.footerOffset

/-- The header and the footer fit each other, and the footer offset is a word, as is the length of the
entries. -/
structure WellFormed (ledger : Ledger) : Prop extends ledger.Fits where
  offset_lt : ledger.header.footerOffset < Footer.wordLimit
  entries_lt : ledger.header.totalRecords * Footer.entryWidth < Footer.wordLimit

/-- The header stands in front of the bytes, and the footer where the header says. -/
def LiesIn (ledger : Ledger) (bytes : Bytes) : Prop :=
  ledger.header.bytes <+: bytes ∧ ledger.footer.bytes <+: bytes.drop ledger.header.footerOffset

theorem ofDecoded_eq_ok {α : Type} {decoded : Except CodecError α} {value : α} {device after : Device} :
    ofDecoded decoded device = .ok value after ↔ decoded = .ok value ∧ device = after := by
  cases decoded <;> simp [ofDecoded]

theorem ofValidated_eq_ok {validated : Except LogError Unit} {device after : Device} :
    ofValidated validated device = .ok () after ↔ validated = .ok () ∧ device = after := by
  cases validated <;> simp [ofValidated]

theorem inspects_ofDecoded {α : Type} (decoded : Except CodecError α) : Inspects (ofDecoded decoded) := by
  cases decoded with
  | ok value => exact inspects_pure value
  | error error => exact inspects_throw _

theorem inspects_ofValidated (validated : Except LogError Unit) : Inspects (ofValidated validated) := by
  cases validated with
  | ok _ => exact inspects_pure ()
  | error error => exact inspects_throw error

/-! Loading changes nothing on the medium, also if it fails. -/

theorem inspects_loadHeader : Inspects loadHeader :=
  ((Device.inspects_readAt _ _).adaptExcept _).bind fun _ => (inspects_ofDecoded _).bind fun header =>
    (inspects_ofValidated header.validate).bind fun _ => inspects_pure header

theorem inspects_loadFooter (header : Header) : Inspects (loadFooter header) :=
  ((Device.inspects_readAt _ _).adaptExcept _).bind fun _ => (inspects_ofDecoded _).bind fun _ =>
    (inspects_ofValidated _).bind fun _ => ((Device.inspects_readAt _ _).adaptExcept _).bind fun _ =>
      (inspects_ofDecoded _).bind fun footer => (inspects_ofValidated _).bind fun _ => inspects_pure footer

theorem inspects_load : Inspects load :=
  inspects_loadHeader.bind fun header => (inspects_loadFooter header).bind fun _ =>
    (Device.inspects_size.adaptExcept _).bind fun _ => inspects_pure _

theorem loadHeader_eq_ok {header : Header} {device after : Device} (readable : device.medium.Readable) :
    loadHeader device = .ok header after ↔
      device.fault? .read = none ∧ header.Bounded ∧
        (header.version = Header.currentVersion ∧ Header.width ≤ header.footerOffset) ∧
        header.bytes <+: device.bytes ∧ after = device.noting .read := by
  have front : header.bytes <+: device.bytes ↔ header.bytes <+: device.bytes.drop 0 := Iff.rfl
  rw [front, Bytes.isPrefix_drop_iff, Header.length_bytes]
  constructor
  · intro loaded
    obtain ⟨bytes, _, read, loaded⟩ := bind_eq_ok.mp loaded
    obtain ⟨found, _, decodes, loaded⟩ := bind_eq_ok.mp loaded
    obtain ⟨_, _, validates, returned⟩ := bind_eq_ok.mp loaded
    obtain ⟨sound, -, rfl, rfl⟩ := (Device.run_readAt_eq_ok readable).mp read
    obtain ⟨decoded, rfl⟩ := ofDecoded_eq_ok.mp decodes
    obtain ⟨valid, rfl⟩ := ofValidated_eq_ok.mp validates
    cases returned
    obtain ⟨bounded, same⟩ := Header.fromBytes_eq_ok.mp decoded
    exact ⟨sound, bounded, Header.validate_eq_ok.mp valid, same.symm, rfl⟩
  · rintro ⟨sound, bounded, valid, stands, rfl⟩
    have inside := Bytes.le_length_of_isPrefix_drop (Nat.zero_le _)
      (Bytes.isPrefix_drop_iff.mpr (header.length_bytes.symm ▸ stands))
    rw [header.length_bytes] at inside
    refine bind_eq_ok.mpr ⟨_, _, (Device.run_readAt_eq_ok readable).mpr ⟨sound, inside, rfl, rfl⟩, ?_⟩
    rw [stands]
    refine bind_eq_ok.mpr ⟨header, _, ofDecoded_eq_ok.mpr
      ⟨Header.fromBytes_eq_ok.mpr ⟨bounded, rfl⟩, rfl⟩, ?_⟩
    exact bind_eq_ok.mpr ⟨(), _, ofValidated_eq_ok.mpr ⟨Header.validate_eq_ok.mpr valid, rfl⟩, rfl⟩

theorem footer_isPrefix_iff {footer : Footer} {bytes : Bytes} {offset : Nat} :
    footer.bytes <+: bytes.drop offset ↔
      offset + Footer.countWidth + footer.length * Footer.entryWidth ≤ bytes.length ∧
      bytes.span offset (offset + Footer.countWidth) = Bytes.ofNat 8 footer.length ∧
      bytes.span (offset + Footer.countWidth)
        (offset + Footer.countWidth + footer.length * Footer.entryWidth) =
          footer.offsets.flatMap (Bytes.ofNat 8) := by
  have width : offset + footer.encodedLength =
      offset + Footer.countWidth + footer.length * Footer.entryWidth := by
    rw [Footer.encodedLength, Nat.mul_comm, Nat.add_assoc]
  constructor
  · intro stands
    have room : offset + Footer.countWidth + footer.length * Footer.entryWidth ≤ bytes.length := by
      have length := stands.length_le
      rw [Footer.length_bytes, List.length_drop] at length
      have positive : 0 < footer.encodedLength := Nat.lt_of_lt_of_le (by decide) (Nat.le_add_right _ _)
      omega
    rw [Bytes.isPrefix_drop_iff, Footer.length_bytes, width, Footer.bytes_eq,
      ← Bytes.span_append_span bytes (Nat.le_add_right _ _) (Nat.le_add_right _ _)] at stands
    have lengths : (bytes.span offset (offset + Footer.countWidth)).length =
        (Bytes.ofNat 8 footer.length).length := by
      rw [Bytes.length_span (by omega), Bytes.length_ofNat, Nat.add_sub_cancel_left, Footer.countWidth]
    exact ⟨room, List.append_inj stands lengths⟩
  · rintro ⟨-, count, entries⟩
    rw [Bytes.isPrefix_drop_iff, Footer.length_bytes, width, Footer.bytes_eq,
      ← Bytes.span_append_span bytes (Nat.le_add_right _ _) (Nat.le_add_right _ _), count, entries]

theorem validateCount_eq_ok {count : Nat} {header : Header} :
    Footer.validateCount count header = .ok () ↔
      count = header.totalRecords ∧ count * Footer.entryWidth < Footer.wordLimit := by
  unfold Footer.validateCount
  split
  · case isTrue differs => simp [differs]
  · case isFalse same =>
    split
    · case isTrue large => simp [Nat.not_lt.mpr large]
    · case isFalse few => simp [← Decidable.not_not.mp same, Nat.not_le.mp few]

theorem loadFooter_of_isPrefix {header : Header} {footer : Footer} {device : Device}
    (readable : device.medium.Readable) (sound : device.fault? .read = none)
    (soundThen : (device.noting .read).fault? .read = none)
    (count : footer.length = header.totalRecords)
    (few : footer.length * Footer.entryWidth < Footer.wordLimit)
    (bounded : ∀ offset ∈ footer.offsets, offset < Footer.wordLimit)
    (stands : footer.bytes <+: device.bytes.drop header.footerOffset) :
    loadFooter header device = (do
      ofValidated (footer.validate header)
      return footer) ((device.noting .read).noting .read) := by
  have readableThen : (device.noting .read).medium.Readable := readable
  obtain ⟨inside, counted, entries⟩ := footer_isPrefix_iff.mp stands
  have fits : footer.length < Footer.wordLimit := by
    rw [Footer.entryWidth] at few
    omega
  have readCount : Step.readFooter.run (Device.readAt header.footerOffset Footer.countWidth) device =
      .ok (Bytes.ofNat 8 footer.length) (device.noting .read) :=
    (Device.run_readAt_eq_ok readable).mpr ⟨sound, Nat.le_of_add_right_le inside, counted.symm, rfl⟩
  have decodesCount : ofDecoded (Decoding.fromBytes Decoding.word (Bytes.ofNat 8 footer.length))
      (device.noting .read) = .ok footer.length (device.noting .read) :=
    ofDecoded_eq_ok.mpr ⟨Decoding.inverts_word.fromBytes_eq_ok.mpr ⟨fits, rfl⟩, rfl⟩
  have validCount : ofValidated (Footer.validateCount footer.length header) (device.noting .read) =
      .ok () (device.noting .read) :=
    ofValidated_eq_ok.mpr ⟨validateCount_eq_ok.mpr ⟨count, few⟩, rfl⟩
  have readEntries : Step.readFooter.run (Device.readAt (header.footerOffset + Footer.countWidth)
      (footer.length * Footer.entryWidth)) (device.noting .read) =
        .ok (footer.offsets.flatMap (Bytes.ofNat 8)) ((device.noting .read).noting .read) :=
    (Device.run_readAt_eq_ok readableThen).mpr ⟨soundThen, inside, entries.symm, rfl⟩
  have spelled : Footer.fromBytes (Bytes.ofNat 8 footer.length ++
      footer.offsets.flatMap (Bytes.ofNat 8)) = .ok footer :=
    Footer.fromBytes_eq_ok.mpr ⟨⟨fits, bounded⟩, footer.bytes_eq⟩
  rw [loadFooter, bind_of_ok readCount, bind_of_ok decodesCount, bind_of_ok validCount,
    bind_of_ok readEntries]
  exact bind_of_ok (ofDecoded_eq_ok.mpr ⟨spelled, rfl⟩)

theorem loadFooter_eq_ok {header : Header} {footer : Footer} {device after : Device}
    (readable : device.medium.Readable) :
    loadFooter header device = .ok footer after ↔
      device.fault? .read = none ∧ (device.noting .read).fault? .read = none ∧
        footer.length * Footer.entryWidth < Footer.wordLimit ∧
        (∀ offset ∈ footer.offsets, offset < Footer.wordLimit) ∧ footer.validate header = .ok () ∧
        footer.bytes <+: device.bytes.drop header.footerOffset ∧
        after = (device.noting .read).noting .read := by
  have readableThen : (device.noting .read).medium.Readable := readable
  constructor
  · intro loaded
    rw [footer_isPrefix_iff]
    obtain ⟨countBytes, _, readCount, loaded⟩ := bind_eq_ok.mp loaded
    obtain ⟨count, _, decodesCount, loaded⟩ := bind_eq_ok.mp loaded
    obtain ⟨_, _, validatesCount, loaded⟩ := bind_eq_ok.mp loaded
    obtain ⟨entries, _, readEntries, loaded⟩ := bind_eq_ok.mp loaded
    obtain ⟨found, _, decodes, loaded⟩ := bind_eq_ok.mp loaded
    obtain ⟨_, _, validates, returned⟩ := bind_eq_ok.mp loaded
    obtain ⟨sound, -, rfl, rfl⟩ := (Device.run_readAt_eq_ok readable).mp readCount
    obtain ⟨decodedCount, rfl⟩ := ofDecoded_eq_ok.mp decodesCount
    obtain ⟨validCount, rfl⟩ := ofValidated_eq_ok.mp validatesCount
    obtain ⟨soundThen, inside, rfl, rfl⟩ := (Device.run_readAt_eq_ok readableThen).mp readEntries
    obtain ⟨decoded, rfl⟩ := ofDecoded_eq_ok.mp decodes
    obtain ⟨valid, rfl⟩ := ofValidated_eq_ok.mp validates
    cases returned
    obtain ⟨-, countSpelled⟩ := Decoding.inverts_word.fromBytes_eq_ok.mp decodedCount
    obtain ⟨⟨-, bounded⟩, spelled⟩ := Footer.fromBytes_eq_ok.mp decoded
    obtain ⟨countSame, few⟩ := validateCount_eq_ok.mp validCount
    -- The count has been read twice, on its own and in front of the offsets.
    have length : footer.length = count := (Footer.validate_eq_ok.mp valid).1.trans countSame.symm
    subst length
    rw [Footer.bytes_eq, countSpelled] at spelled
    exact ⟨sound, soundThen, few, bounded, valid,
      ⟨inside, countSpelled.symm, (List.append_cancel_left spelled).symm⟩, rfl⟩
  · rintro ⟨sound, soundThen, few, bounded, valid, stands, rfl⟩
    rw [loadFooter_of_isPrefix readable sound soundThen (Footer.validate_eq_ok.mp valid).1 few bounded
      stands]
    exact bind_eq_ok.mpr ⟨(), _, ofValidated_eq_ok.mpr ⟨valid, rfl⟩, rfl⟩

theorem WellFormed.header_bounded {ledger : Ledger} (formed : ledger.WellFormed) :
    ledger.header.Bounded := by
  have entries := formed.entries_lt
  rw [Footer.entryWidth] at entries
  exact ⟨by omega, formed.offset_lt⟩

theorem WellFormed.offset_add_width_le {ledger : Ledger} (formed : ledger.WellFormed) {offset : Nat}
    (member : offset ∈ ledger.footer.offsets) : offset + Meta.width ≤ ledger.header.footerOffset :=
  formed.spaced.add_width_le member

theorem wellFormed_iff {ledger : Ledger} : ledger.WellFormed ↔
    ledger.header.Bounded ∧ (ledger.header.version = Header.currentVersion ∧
      Header.width ≤ ledger.header.footerOffset) ∧
    ledger.footer.length * Footer.entryWidth < Footer.wordLimit ∧
    (∀ offset ∈ ledger.footer.offsets, offset < Footer.wordLimit) ∧
    ledger.footer.validate ledger.header = .ok () := by
  rw [Footer.validate_eq_ok]
  constructor
  · intro formed
    refine ⟨formed.header_bounded, ⟨formed.version, formed.room⟩, formed.count ▸ formed.entries_lt,
      ?_, formed.count, formed.first, formed.spaced⟩
    intro offset member
    have below := formed.offset_add_width_le member
    exact Nat.lt_of_le_of_lt (Nat.le_of_add_right_le below) formed.offset_lt
  · rintro ⟨bounded, ⟨version, room⟩, few, -, count, first, spaced⟩
    exact ⟨⟨version, room, count, first, spaced⟩, bounded.2, count ▸ few⟩

/-- What has been loaded is well formed and lies in the bytes. -/
theorem load_eq_ok {ledger : Ledger} (device : Device) {after : Device} (readable : device.medium.Readable)
    (loaded : load device = .ok ledger after) :
    ledger.WellFormed ∧ ledger.LiesIn device.bytes ∧ after.medium = device.medium ∧
      after.plan = device.plan := by
  obtain ⟨header, _, headerLoaded, loaded⟩ := bind_eq_ok.mp loaded
  obtain ⟨footer, _, footerLoaded, loaded⟩ := bind_eq_ok.mp loaded
  obtain ⟨size, _, measured, returned⟩ := bind_eq_ok.mp loaded
  obtain ⟨-, bounded, valid, front, rfl⟩ := (loadHeader_eq_ok readable).mp headerLoaded
  obtain ⟨-, -, few, below, fits, behind, rfl⟩ :=
    (loadFooter_eq_ok (show (device.noting .read).medium.Readable from readable)).mp footerLoaded
  obtain ⟨-, -, rfl⟩ := (Device.run_size_eq_ok .readSize
    (show (((device.noting .read).noting .read).noting .read).medium.Readable from readable)).mp measured
  cases returned
  exact ⟨wellFormed_iff.mpr ⟨bounded, valid, few, below, fits⟩, ⟨front, behind⟩, rfl, rfl⟩

/-- A well-formed ledger that lies in the bytes is loaded from them. -/
theorem load_of_liesIn {ledger : Ledger} (device : Device) (readable : device.medium.Readable)
    (sound : device.plan = .never) (formed : ledger.WellFormed) (lies : ledger.LiesIn device.bytes) :
    ∃ calls, load device = .ok ledger ⟨device.medium, device.plan, calls⟩ := by
  obtain ⟨bounded, valid, few, below, fits⟩ := wellFormed_iff.mp formed
  -- Each of the three parts of loading succeeds, whatever has been called before it.
  have never (earlier : List Call) (call : Call) : device.plan earlier call = none := by
    rw [sound]
    rfl
  have first := (loadHeader_eq_ok readable).mpr ⟨never _ _, bounded, valid, lies.1, rfl⟩
  have second := (loadFooter_eq_ok (show (device.noting .read).medium.Readable from readable)).mpr
    ⟨never _ _, never _ _, few, below, fits, lies.2, rfl⟩
  have third : Step.readSize.run Device.size (((device.noting .read).noting .read).noting .read) =
      .ok device.bytes.length ((((device.noting .read).noting .read).noting .read).noting .size) :=
    (Device.run_size_eq_ok .readSize
      (show (((device.noting .read).noting .read).noting .read).medium.Readable from readable)).mpr
        ⟨never _ _, rfl, rfl⟩
  exact ⟨_, bind_eq_ok.mpr ⟨_, _, first, bind_eq_ok.mpr ⟨_, _, second, bind_eq_ok.mpr ⟨_, _, third, rfl⟩⟩⟩⟩

end Ledger

end AppendLog
