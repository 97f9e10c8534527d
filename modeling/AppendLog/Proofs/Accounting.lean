import AppendLog.Proofs.Acceptance
import AppendLog.Proofs.Reached

/-! What the records of an opened log are made of.

Each record is a meta and the rest of the bytes up to the next one. Once a log has been opened,
there is nothing left to go wrong with them but the byte for the operation, and laid one behind the
other they are all the bytes between the header and the footer.
-/

set_option autoImplicit false

namespace AppendLog

def Record.bytes (record : Record) : Bytes := record.info.bytes ++ record.data

theorem Decoding.raw_of_le {count : Nat} {cursor : Cursor} (enough : count ≤ cursor.rest.length) :
    raw count cursor = .ok (cursor.rest.take count) (cursor.skip count) :=
  if_pos (by rw [List.length_take, Nat.min_eq_left enough])

theorem Op.isSome_ofCode? {code : UInt8} : (ofCode? code).isSome ↔ code ∈ ([0, 1, 2, 4] : Bytes) := by
  show _ ↔ code ∈ all.map Op.code
  simp only [ofCode?, List.find?_isSome, List.mem_map, decide_eq_true_eq]

theorem Meta.decode_eq {window : Bytes} {code : UInt8} (last : window[12]? = some code) :
    decode (.ofBytes window) = match Op.ofCode? code with
      | some op => .ok ⟨IntKind.i64.ofBytes (window.take 8), .ofBytes ((window.drop 8).take 4), op⟩
          ⟨window.drop width, width⟩
      | none => .error (.invalidTag "Op" code) ⟨window.drop width, width⟩ := by
  have long : 12 < window.length := (List.getElem?_eq_some_iff.mp last).1
  have time : Decoding.int .i64 (.ofBytes window) =
      .ok (IntKind.i64.ofBytes (window.take 8)) ⟨window.drop 8, 8⟩ :=
    bind_of_ok (Decoding.raw_of_le (by simpa [Cursor.ofBytes, IntKind.width] using by omega))
  have kind : Decoding.raw 4 ⟨window.drop 8, 8⟩ = .ok ((window.drop 8).take 4) ⟨window.drop 12, 12⟩ := by
    rw [Decoding.raw_of_le (by simpa using by omega)]
    simp [Cursor.skip]
  have byte : Decoding.byte ⟨window.drop 12, 12⟩ = .ok code ⟨window.drop width, width⟩ := by
    rw [Decoding.byte, bind_of_ok (Decoding.raw_of_le (by simpa using by omega))]
    simp [Cursor.skip, width, List.head?_eq_getElem?, last]
  rw [decode, bind_of_ok time, bind_of_ok kind, bind_of_ok byte]
  cases Op.ofCode? code <;> rfl

namespace Ledger

variable {ledger : Ledger} {bytes : Bytes} {index : Nat}

def start (ledger : Ledger) (index : Nat) : Nat :=
  (ledger.footer.get? index).getD ledger.header.footerOffset

theorem start_of_get? {offset : Nat} (found : ledger.footer.get? index = some offset) :
    ledger.start index = offset := by
  rw [start, found, Option.getD_some]

theorem get?_eq_start (earlier : index < ledger.footer.length) :
    ledger.footer.get? index = some (ledger.start index) := by
  obtain ⟨offset, found⟩ : ∃ offset, ledger.footer.get? index = some offset :=
    ⟨_, List.getElem?_eq_getElem earlier⟩
  rw [start_of_get? found, found]

theorem Fits.start_zero (fits : ledger.Fits) (some : 0 < ledger.footer.length) :
    ledger.start 0 = Header.width :=
  fits.first _ (List.head?_eq_getElem? ▸ get?_eq_start some)

theorem start_length : ledger.start ledger.footer.length = ledger.header.footerOffset := by
  rw [start, Footer.get?, Footer.length, List.getElem?_eq_none (Nat.le_refl _), Option.getD_none]

theorem recordIn_of_length_le (behind : ledger.footer.length ≤ index) :
    ledger.recordIn bytes index = .error (.recordOutOfRange index ledger.header.totalRecords) := by
  have none : ledger.footer.get? index = .none := List.getElem?_eq_none behind
  simp only [recordIn, none]

theorem Fits.recordIn_eq (fits : ledger.Fits) (inside : ledger.header.footerOffset ≤ bytes.length)
    (earlier : index < ledger.footer.length) :
    ∃ code, bytes[ledger.start index + 12]? = some code ∧
      (code ∈ ([0, 1, 2, 4] : Bytes) → ∃ record, ledger.recordIn bytes index = .ok record) ∧
      (code ∉ ([0, 1, 2, 4] : Bytes) →
        ledger.recordIn bytes index = .error (.recordRead index (.codec (.invalidTag "Op" code)))) := by
  have found := get?_eq_start earlier
  obtain ⟨-, room, high⟩ := fits.record_inside found
  rw [Meta.width] at room
  have known : ledger.start index + 12 < bytes.length := by omega
  have last : (bytes.span (ledger.start index) (ledger.boundary index))[12]? =
      bytes[ledger.start index + 12]? := by
    rw [Bytes.span, List.getElem?_drop, List.getElem?_take_of_lt (by omega)]
  rw [List.getElem?_eq_getElem known] at last ⊢
  refine ⟨_, rfl, fun valid => ?_, fun invalid => ?_⟩
  · obtain ⟨op, isOp⟩ := Option.isSome_iff_exists.mp (Op.isSome_ofCode?.mpr valid)
    simp only [recordIn, found, Meta.decode_eq last, isOp]
    exact ⟨_, rfl⟩
  · have none := Option.not_isSome_iff_eq_none.mp (mt Op.isSome_ofCode?.mp invalid)
    simp only [recordIn, found, Meta.decode_eq last, none]

theorem bytes_of_recordIn {record : Record} (read : ledger.recordIn bytes index = .ok record) :
    ledger.footer.get? index = some record.offset ∧ record.index = index ∧
      record.bytes = bytes.span record.offset (ledger.boundary index) := by
  rw [recordIn] at read
  cases found : ledger.footer.get? index with
  | none => simp only [found] at read; cases read
  | some offset =>
    simp only [found] at read
    split at read
    · case h_1 info cursor decoded =>
      cases read
      exact ⟨rfl, rfl, ((Meta.inverts_decode _ _ _).mp decoded).2.1.symm⟩
    · cases read

theorem Fits.flatMap_records (fits : ledger.Fits) {records : List Record}
    (read : ∀ index record, records[index]? = some record → ledger.recordIn bytes index = .ok record)
    (some : 0 < ledger.footer.length) :
    records.flatMap Record.bytes = bytes.span Header.width (ledger.start records.length) := by
  induction records using List.reverseRecOn with
  | nil => simp [fits.start_zero some, Bytes.span]
  | append_singleton records last ih =>
    have earlier := ih fun index record found =>
      read index record (List.getElem?_append_left (List.getElem?_eq_some_iff.mp found).1 ▸ found)
    obtain ⟨found, -, spelled⟩ := bytes_of_recordIn (read _ last List.getElem?_concat_length)
    obtain ⟨low, room, -⟩ := fits.record_inside found
    rw [List.flatMap_append, List.flatMap_singleton, earlier, spelled, start_of_get? found,
      Bytes.span_append_span bytes low (Nat.le_of_add_right_le room), List.length_append]
    rfl

end Ledger

namespace Bytes

variable (bytes : Bytes)

theorem length_footer : bytes.ledger.footer.length = bytes.total := length_wordsAt

theorem start_ledger (index : Nat) : bytes.ledger.start index =
    if index < bytes.total then bytes.recordAt index else bytes.footerOffset := by
  rw [Ledger.start, Footer.get?, ledger, List.getElem?_map]
  split
  · case isTrue earlier =>
    rw [List.getElem?_range earlier]
    rfl
  · case isFalse none =>
    rw [List.getElem?_eq_none (by simpa using none)]
    rfl

end Bytes

namespace Log

/-- Of a log that has been opened, an index is out of range exactly if there are not so many records.
A record that there is can be read exactly if the byte for its operation is one, and fails on that
byte otherwise. It takes the bytes up to the next one, or up to the footer, and if all the records
can be read, they take all the bytes from the header to the footer. -/
theorem readRaw_accounts {medium : Medium} {path : Option String} {config : Config} {log : Log}
    {device : Device}
    (opens : openOn path config (.sound (medium.reopened config.readOnly)) = (.ok log, device)) :
    let bytes := log.device.bytes
    (medium.content ≠ [] → bytes = medium.content) ∧ log.ledger = some bytes.ledger ∧
    (∀ index, outcome (readRaw index log) = .error (.recordOutOfRange index bytes.total) ↔
      bytes.total ≤ index) ∧
    (∀ index, index < bytes.total → ∃ code, bytes[bytes.recordAt index + 12]? = some code ∧
      ((∃ record, outcome (readRaw index log) = .ok record) ↔ code ∈ ([0, 1, 2, 4] : Bytes)) ∧
      (code ∉ ([0, 1, 2, 4] : Bytes) →
        outcome (readRaw index log) = .error (.recordRead index (.codec (.invalidTag "Op" code))))) ∧
    (∀ index record, outcome (readRaw index log) = .ok record →
      record.index = index ∧ record.offset = bytes.recordAt index ∧
      record.bytes = bytes.span (bytes.recordAt index)
        (if index + 1 < bytes.total then bytes.recordAt (index + 1) else bytes.footerOffset)) ∧
    (0 < bytes.total → ∀ records : List Record,
      (List.range bytes.total).map (fun index => outcome (readRaw index log)) = records.map .ok →
        records.flatMap Record.bytes = bytes.span 17 bytes.footerOffset) := by
  obtain ⟨ledger, held, formed, lies, readable, sound, same⟩ := openOn_lies opens
  obtain ⟨-, rfl⟩ := lies.eq_ledger formed
  intro bytes
  have inside : bytes.footerOffset ≤ bytes.length := Nat.le_trans (Nat.le_add_right _ _) lies.stop_le
  have reads (index : Nat) : outcome (readRaw index log) = bytes.ledger.recordIn bytes index :=
    outcome_readRaw_of_fits held formed.toFits readable.2 (by rw [Device.fault?, sound]; rfl)
      (readable.reaches inside) index
  have length := bytes.length_footer
  have starts {index : Nat} (earlier : index < bytes.total) :
      bytes.ledger.start index = bytes.recordAt index := by rw [bytes.start_ledger, if_pos earlier]
  have behind {index : Nat} (none : bytes.total ≤ index) :
      bytes.ledger.recordIn bytes index = .error (.recordOutOfRange index bytes.total) :=
    Ledger.recordIn_of_length_le (length ▸ none)
  simp only [reads]
  refine ⟨same, held, fun index => ⟨fun refused => ?_, behind⟩, fun index earlier => ?_,
    fun index record read => ?_, fun some records read => ?_⟩
  · refine Nat.le_of_not_lt fun earlier => ?_
    obtain ⟨code, -, valid, invalid⟩ := formed.recordIn_eq inside (length ▸ earlier)
    by_cases isOp : code ∈ ([0, 1, 2, 4] : Bytes)
    · obtain ⟨record, read⟩ := valid isOp
      cases refused.symm.trans read
    · cases refused.symm.trans (invalid isOp)
  · obtain ⟨code, found, valid, invalid⟩ := formed.recordIn_eq inside (length ▸ earlier)
    refine ⟨code, starts earlier ▸ found, ⟨?_, valid⟩, invalid⟩
    rintro ⟨record, read⟩
    by_contra isNone
    cases read.symm.trans (invalid isNone)
  · have earlier : index < bytes.total := by
      by_contra none
      cases read.symm.trans (behind (Nat.le_of_not_lt none))
    obtain ⟨found, itself, spelled⟩ := Ledger.bytes_of_recordIn read
    rw [← Ledger.start_of_get? found, starts earlier, show bytes.ledger.boundary index = _ from
      bytes.start_ledger (index + 1)] at spelled
    exact ⟨itself, (Ledger.start_of_get? found).symm.trans (starts earlier), spelled⟩
  · have count : records.length = bytes.ledger.footer.length := by
      simpa [length] using (congrArg List.length read).symm
    have each (index : Nat) (record : Record) (found : records[index]? = .some record) :
        bytes.ledger.recordIn bytes index = .ok record := by
      have same := congrArg (·[index]?) read
      have known : index < bytes.total := length ▸ count ▸ (List.getElem?_eq_some_iff.mp found).1
      simpa [found, List.getElem?_range known] using same
    rw [formed.flatMap_records each (length ▸ some), count, Ledger.start_length]
    rfl

theorem readRaw_accounts_of_two_records :
    let ledger : Ledger := ⟨⟨1, 2, 44⟩, ⟨[17, 31]⟩⟩
    let bytes (code : UInt8) : Bytes := ledger.image
      [0, 0, 0, 0, 0, 0, 0, 5, 105, 116, 101, 109, 0, 7,
        0, 0, 0, 0, 0, 0, 0, 6, 105, 116, 101, 109, code] ++ [255]
    let log (code : UInt8) : Log := ⟨none, .standard, some ledger,
      ⟨.memory ⟨bytes code⟩, .never, [.size, .read, .read, .read, .size]⟩⟩
    let item : Kind := ⟨105, 116, 101, 109⟩
    (openOn none .standard (.sound (.memory ⟨bytes 4⟩)) = (.ok (log 4), (log 4).device) ∧
      [Record.mk 0 17 ⟨5, item, .insert⟩ [7], ⟨1, 31, ⟨6, item, .delete⟩, []⟩].flatMap Record.bytes =
        (bytes 4).span 17 44) ∧
    openOn none .standard (.sound (.memory ⟨bytes 9⟩)) = (.ok (log 9), (log 9).device) ∧
      outcome (readRaw 1 (log 9)) = .error (.recordRead 1 (.codec (.invalidTag "Op" 9))) ∧
      outcome (readRaw 2 (log 9)) = .error (.recordOutOfRange 2 2) := by
  -- With the abbreviations gone, both images are opened by computation.
  intro ledger bytes log item
  subst log bytes ledger item
  have opening {opens reads : Prop} (opened : opens) (read : opens → reads) : opens ∧ reads :=
    ⟨opened, read opened⟩
  refine ⟨opening rfl fun sound => ?_, opening rfl fun damaged => ?_⟩
  · obtain ⟨-, -, -, -, -, all⟩ := @readRaw_accounts (.memory _) _ _ _ _ sound
    exact all (by decide) _ rfl
  · obtain ⟨-, -, outside, inside, -⟩ := @readRaw_accounts (.memory _) _ _ _ _ damaged
    obtain ⟨code, found, -, invalid⟩ := inside 1 (by decide)
    cases found
    exact ⟨invalid (by decide), (outside 2).mpr (by decide)⟩

end Log

end AppendLog
