import AppendLog.Command.Inspect
import AppendLog.Proofs.Encodings
import AppendLog.Proofs.Handles
import AppendLog.Proofs.Operations

/-! The operations on a log, with their arithmetic done in words.

A word has eight bytes. Where an operation adds, multiplies or subtracts without a check of its own, it
is written here once more with a sum, a product or a difference that has to be a word, and that ends the
operation otherwise: `wrapped` is what no operation of numbers comes to. As long as a log lies within a
medium that is far from taking up all words, the two come to the same.
-/

set_option autoImplicit false

namespace AppendLog

inductive Trap where
  | failed (error : LogError)
  /-- A result is not a word. -/
  | wrapped
  deriving DecidableEq, Repr

def inWords {σ α : Type} (operation : EStateM LogError σ α) : EStateM Trap σ α :=
  EStateM.adaptExcept .failed operation

section inWords

variable {σ α β : Type} {operation : EStateM LogError σ α} {next : α → EStateM LogError σ β}
  {words : EStateM Trap σ α} {nextInWords : α → EStateM Trap σ β} {state : σ}

theorem inWords_bind (operation : EStateM LogError σ α) (next : α → EStateM LogError σ β) :
    inWords (operation >>= next) = inWords operation >>= fun value => inWords (next value) := by
  funext state
  simp only [inWords, bind, EStateM.bind, EStateM.adaptExcept]
  cases operation state <;> rfl

theorem inWords_of_ok {value : α} {after : σ} (ran : operation state = .ok value after) :
    inWords operation state = .ok value after := adaptExcept_of_ok ran

theorem inWords_of_error {error : LogError} {after : σ} (failed : operation state = .error error after) :
    inWords operation state = .error (.failed error) after := adaptExcept_of_error failed

/-- Operations in a row are the same in words if each is, with what those before it have come to. -/
theorem inWords_bind_of (first : words state = inWords operation state)
    (second : ∀ value after, operation state = .ok value after →
      nextInWords value after = inWords (next value) after) :
    (words >>= nextInWords) state = inWords (operation >>= next) state := by
  cases ran : operation state with
  | ok value after =>
    rw [inWords_of_ok ran] at first
    rw [bind_of_ok first, second value after ran, inWords_bind, bind_of_ok (inWords_of_ok ran)]
  | error error after =>
    rw [inWords_of_error ran] at first
    rw [bind_of_error first, inWords_of_error (bind_of_error ran)]

end inWords

/-! Arithmetic -/

namespace Word

variable {σ : Type} {a b : Nat}

def add (a b : Nat) : EStateM Trap σ Nat :=
  if a + b < Footer.wordLimit then return a + b else throw .wrapped

def mul (a b : Nat) : EStateM Trap σ Nat :=
  if a * b < Footer.wordLimit then return a * b else throw .wrapped

def sub (a b : Nat) : EStateM Trap σ Nat :=
  if b ≤ a then return a - b else throw .wrapped

theorem add_eq (fits : a + b < Footer.wordLimit) : (add a b : EStateM Trap σ Nat) = pure (a + b) :=
  if_pos fits

theorem mul_eq (fits : a * b < Footer.wordLimit) : (mul a b : EStateM Trap σ Nat) = pure (a * b) :=
  if_pos fits

theorem sub_eq (fits : b ≤ a) : (sub a b : EStateM Trap σ Nat) = pure (a - b) := if_pos fits

end Word

/-! Operations -/

def Footer.encodedLengthInWords {σ : Type} (footer : Footer) : EStateM Trap σ Nat := do
  Word.add countWidth (← Word.mul entryWidth footer.length)

namespace Ledger

section

variable {σ : Type} (ledger : Ledger)

def stopInWords : EStateM Trap σ Nat := do
  Word.add ledger.header.footerOffset (← ledger.footer.encodedLengthInWords)

def nextInWords (payload : Nat) : EStateM Trap σ Ledger := do
  let totalRecords ← Word.add ledger.header.totalRecords 1
  let dataOffset ← Word.add ledger.header.footerOffset Meta.width
  let footerOffset ← Word.add dataOffset payload
  return ⟨{ ledger.header with totalRecords, footerOffset }, ledger.footer.push ledger.header.footerOffset⟩

end

def loadFooterInWords (header : Header) : EStateM Trap Device Footer := do
  let countBytes ← inWords (Step.readFooter.run (Device.readAt header.footerOffset Footer.countWidth))
  let count ← inWords (ofDecoded (Decoding.fromBytes Decoding.word countBytes))
  inWords (ofValidated (Footer.validateCount count header))
  let entriesOffset ← Word.add header.footerOffset Footer.countWidth
  let entries ← inWords (Step.readFooter.run (Device.readAt entriesOffset (count * Footer.entryWidth)))
  let footer ← inWords (ofDecoded (Footer.fromBytes (countBytes ++ entries)))
  inWords (ofValidated (footer.validate header))
  return footer

def loadInWords : EStateM Trap Device Ledger := do
  let header ← inWords loadHeader
  let footer ← loadFooterInWords header
  let size ← inWords (Step.readSize.run Device.size)
  let stop ← Ledger.stopInWords ⟨header, footer⟩
  if stop < size then
    -- The number of orphaned bytes, for a message.
    let _ ← Word.sub size stop
  return ⟨header, footer⟩

def trimInWords (stop : Nat) : EStateM Trap Device Unit := do
  let size ← inWords (Step.readSize.run Device.size)
  if stop < size then
    let _ ← Word.sub size stop
    inWords (Step.trimTail.run (Device.truncate stop))

def writeRecordInWords (ledger after : Ledger) (info data : Bytes) : EStateM Trap Device Unit := do
  inWords (Step.writeMeta.run (Device.writeAt ledger.header.footerOffset info))
  let dataOffset ← Word.add ledger.header.footerOffset Meta.width
  inWords (Step.writeData.run (Device.writeAt dataOffset data))
  inWords (Step.writeFooter.run (Device.writeAt after.header.footerOffset after.footer.bytes))
  let stop ← Word.add after.header.footerOffset after.footer.bytes.length
  trimInWords stop
  inWords (Step.writeHeader.run (Device.writeAt 0 after.header.bytes))

def restoreInWords (ledger : Ledger) : EStateM Trap Device Unit := do
  inWords ledger.putBack
  let stop ← ledger.stopInWords
  inWords (trim stop)

def storeInWords (ledger after : Ledger) (info data : Bytes) : EStateM Trap Device Ledger := fun device =>
  match ledger.writeRecordInWords after info data device with
  | .ok _ left => .ok after left
  | .error .wrapped left => .error .wrapped left
  | .error (.failed error) left =>
    match ledger.restoreInWords left with
    | .error .wrapped left => .error .wrapped left
    | .ok _ left | .error (.failed _) left => .error (.failed error) left

def commitInWords (ledger : Ledger) (info data : Bytes) : EStateM Trap Device Ledger := do
  ledger.storeInWords (← ledger.nextInWords data.length) info data

def readRawInWords (ledger : Ledger) (index : Nat) : EStateM Trap Device Record :=
  match ledger.footer.get? index with
  | none => throw (.failed (.recordOutOfRange index ledger.header.totalRecords))
  | some offset => do
    let following ← Word.add index 1
    let boundary := (ledger.footer.get? following).getD ledger.header.footerOffset
    inWords (EStateM.adaptExcept (LogError.recordRead index) (loadRecord index offset boundary))

end Ledger

namespace Log

variable {α : Type}

def openLedgerInWords (config : Config) : EStateM Trap Device Ledger := do
  let size ← inWords (Step.readSize.run Device.size)
  if size = 0 then
    if config.readOnly then throw (.failed (.invalidFormat .noHeader))
    inWords Ledger.create
  else Ledger.loadInWords

def actInWords (action : EStateM Trap Device α) : EStateM Trap Log α := fun log =>
  match action log.device with
  | .ok value device => .ok value { log with device }
  | .error trap device => .error trap { log with device }

def writeInWords (now : Int) (info : Meta) (payload : Encoding) : EStateM Trap Log Nat := do
  if (← get).config.readOnly then throw (.failed .readOnly)
  let data ← match payload.toBytes with
    | .ok data => pure data
    | .error error => throw (.failed (.codec error))
  let ledger ← inWords opened
  let after ← actInWords (ledger.commitInWords (info.stamp now).bytes data)
  modify fun log => { log with ledger := some after }
  inWords (act (← get).config.secure)
  return ledger.header.totalRecords

def readRawInWords (index : Nat) : EStateM Trap Log Record := do
  actInWords ((← inWords opened).readRawInWords index)

def readInWords (decoder : Decoding α) (index : Nat) : EStateM Trap Log (Meta × α) := do
  let record ← readRawInWords index
  match Decoding.fromBytes decoder record.data with
  | .ok value => return (record.info, value)
  | .error error => throw (.failed (.recordRead index (.codec error)))

def readManyInWords (decoder : Decoding α) : (count : Nat) → (index : Nat) → EStateM Trap Log (List (Meta × α))
  | 0, _ => return []
  | count + 1, index => do
    let first ← readInWords decoder index
    return first :: (← readManyInWords decoder count (index + 1))

def readAllInWords (decoder : Decoding α) : EStateM Trap Log (List (Meta × α)) := do
  readManyInWords decoder (← inWords opened).header.totalRecords 0

def statsInWords : EStateM Trap Log Stats := do
  let ledger ← inWords opened
  let size ← inWords (act (Step.readSize.run Device.size))
  let footerSize ← ledger.footer.encodedLengthInWords
  let stop ← ledger.stopInWords
  return ⟨ledger.header, footerSize, size, size - stop⟩

end Log

namespace Walk

def advanceInWords (walk : Walk) (reading : Reading) (failed : Bool) :
    EStateM Trap Log (Option (Reading × Walk)) := do
  let next ← Word.add walk.next 1
  return some (reading, ⟨next, failed⟩)

def stepInWords (walk : Walk) : EStateM Trap Log (Option (Reading × Walk)) := fun log =>
  if walk.failed || walk.bound log == 0 then .ok none log
  else
    match Log.readRawInWords walk.next log with
    | .ok record after => walk.advanceInWords (.ok record) false after
    | .error (.failed error) after => walk.advanceInWords (.error error) true after
    | .error .wrapped after => .error .wrapped after

def takeInWords : (limit : Nat) → Walk → EStateM Trap Log (List Reading)
  | 0, _ => return []
  | limit + 1, walk => do
    match ← walk.stepInWords with
    | none => return []
    | some (reading, walk) => return reading :: (← takeInWords limit walk)

end Walk

namespace Log

def iterateInWords (start : Nat) (limit : Option Nat) : EStateM Trap Log (List Reading) := do
  let walk ← inWords (walk start)
  let bound := walk.bound (← get)
  walk.takeInWords (match limit with
    | some limit => min limit bound
    | none => bound)

end Log

def Operation.performInWords : {α : Type} → Operation α → EStateM Trap Log α
  | _, write now info payload => Log.writeInWords now info payload
  | _, readRaw index => Log.readRawInWords index
  | _, read decoder index => Log.readInWords decoder index
  | _, readAll decoder => Log.readAllInWords decoder
  | _, iterate start limit => Log.iterateInWords start limit
  | _, header => inWords Log.header
  | _, footer => inWords Log.footer
  | _, length => inWords Log.length
  | _, isEmpty => inWords Log.isEmpty
  | _, stats => Log.statsInWords
  | _, sync => inWords Log.sync
  | _, close => inWords Log.close

def Command.inspectInWords (showOffsets : Bool) : EStateM Trap Log (Inspection × Nat) := do
  let stats ← Log.statsInWords
  let offsets ← if showOffsets then pure (some (← inWords Log.footer).offsets) else pure none
  let inspection : Inspection := ⟨(← get).path.getD "<memory>", stats, offsets⟩
  return (inspection, ← Word.sub stats.header.footerOffset Header.width)

/-! Where the numbers are words -/

/-- The ledger fits together as far as its numbers go, and its log ends within so many bytes. -/
structure Ledger.Within (ledger : Ledger) (size : Nat) : Prop where
  count : ledger.footer.length = ledger.header.totalRecords
  room : Header.width ≤ ledger.header.footerOffset
  reaches : ledger.stop ≤ size

namespace Ledger

variable {σ : Type} {ledger : Ledger} {size : Nat}

theorem Within.length_le (within : ledger.Within size) : 8 * ledger.footer.length ≤ size := by
  have reaches := within.reaches
  rw [stop, Footer.encodedLength, Footer.countWidth, Footer.entryWidth] at reaches
  omega

theorem encodedLengthInWords_eq (within : ledger.Within size) (short : size < Footer.wordLimit) :
    (ledger.footer.encodedLengthInWords : EStateM Trap σ Nat) = pure ledger.footer.encodedLength := by
  have reaches := within.reaches
  rw [stop, Footer.encodedLength] at reaches
  rw [Footer.encodedLengthInWords, Word.mul_eq (by omega), pure_bind, Word.add_eq (by omega)]
  rfl

theorem stopInWords_eq (within : ledger.Within size) (short : size < Footer.wordLimit) :
    (ledger.stopInWords : EStateM Trap σ Nat) = pure ledger.stop := by
  have reaches := within.reaches
  rw [stop] at reaches
  rw [stopInWords, encodedLengthInWords_eq within short, pure_bind, Word.add_eq (by omega)]
  rfl

theorem stop_next (ledger : Ledger) (payload : Nat) :
    (ledger.next payload).stop = ledger.stop + payload + 21 := by
  simp only [stop, next, Footer.encodedLength, Footer.push, Footer.length, List.length_append,
    List.length_singleton, Footer.countWidth, Footer.entryWidth, Meta.width]
  omega

section commit

variable {payload : Nat} (within : ledger.Within size) (short : size + payload < 2 ^ 63)

include within short

theorem stop_next_lt : (ledger.next payload).stop < Footer.wordLimit := by
  have reaches := within.reaches
  rw [stop_next, Footer.wordLimit]
  omega

theorem nextInWords_eq : (ledger.nextInWords payload : EStateM Trap σ Ledger) = pure (ledger.next payload) := by
  have fits := stop_next_lt within short
  have few := within.length_le
  rw [stop] at fits
  have more : ledger.header.totalRecords + 1 < Footer.wordLimit := by
    rw [← within.count, Footer.wordLimit]
    omega
  have far : ledger.header.footerOffset + Meta.width + payload < Footer.wordLimit :=
    Nat.lt_of_le_of_lt (Nat.le_add_right _ _) fits
  rw [nextInWords, Word.add_eq more, pure_bind, Word.add_eq (Nat.lt_of_le_of_lt (Nat.le_add_right _ _) far),
    pure_bind, Word.add_eq far]
  rfl

end commit

theorem trimInWords_eq (stop : Nat) : trimInWords stop = inWords (trim stop) := by
  rw [trim, inWords_bind, trimInWords]
  congr 1
  funext size
  by_cases longer : stop < size
  · rw [if_pos longer, if_pos longer, Word.sub_eq (Nat.le_of_lt longer), pure_bind]
  · rw [if_neg longer, if_neg longer]
    rfl

theorem writeRecordInWords_eq {data : Bytes} (fits : (ledger.next data.length).stop < Footer.wordLimit)
    (info : Bytes) : ledger.writeRecordInWords (ledger.next data.length) info data =
      inWords (ledger.writeRecord info data) := by
  have far : ledger.header.footerOffset + Meta.width < Footer.wordLimit := by
    rw [stop_next, stop] at fits
    rw [Meta.width]
    omega
  simp only [writeRecordInWords, writeRecord, inWords_bind, Word.add_eq far, pure_bind, Footer.length_bytes,
    Word.add_eq fits, trimInWords_eq]
  rfl

theorem restoreInWords_eq (within : ledger.Within size) (short : size < Footer.wordLimit) :
    ledger.restoreInWords = inWords ledger.restore := by
  rw [restoreInWords, restore, inWords_bind, stopInWords_eq within short]
  rfl

theorem commitInWords_eq {data : Bytes} (within : ledger.Within size) (short : size + data.length < 2 ^ 63)
    (info : Bytes) : ledger.commitInWords info data = inWords (ledger.commit info data) := by
  have below : size < Footer.wordLimit := by
    rw [Footer.wordLimit]
    omega
  rw [commitInWords, nextInWords_eq within short, pure_bind]
  funext device
  simp only [storeInWords, writeRecordInWords_eq (stop_next_lt within short), restoreInWords_eq within below,
    commit, inWords, EStateM.adaptExcept]
  cases ledger.writeRecord info data device with
  | ok _ left => rfl
  | error error left =>
    simp only [rollBack]
    cases ledger.restore left <;> rfl

theorem readRawInWords_eq (within : ledger.Within size) (short : size < Footer.wordLimit) (index : Nat) :
    ledger.readRawInWords index = inWords (ledger.readRaw index) := by
  unfold readRawInWords readRaw
  cases found : ledger.footer.get? index with
  | none => rfl
  | some offset =>
    have inside : index < ledger.footer.length := (List.getElem?_eq_some_iff.mp found).1
    have few := within.length_le
    dsimp only
    rw [Word.add_eq (by omega), pure_bind]
    rfl

end Ledger

namespace Log

variable {α : Type} {log : Log}

def Backed (log : Log) : Prop :=
  ∀ ledger, log.ledger = some ledger → ledger.Within log.device.medium.size

/-- The log ends on its medium, which has not nearly as many bytes as there are words. -/
structure Short (log : Log) : Prop where
  backed : log.Backed
  below : log.device.medium.size < 2 ^ 63

theorem Short.below_limit (short : log.Short) : log.device.medium.size < Footer.wordLimit :=
  Nat.lt_trans short.below (by decide)

theorem Observed.short {after : Log} (observed : log.Observed after) (short : log.Short) : after.Short := by
  obtain ⟨calls, rfl⟩ := observed
  exact ⟨short.backed, short.below⟩

theorem actInWords_inWords (action : Action α) : actInWords (inWords action) = inWords (act action) := by
  funext log
  simp only [actInWords, inWords, act, EStateM.adaptExcept]
  cases action log.device <;> rfl

/-- On a log that is short enough the operation in words is the one that has been written for it. -/
def SameInWords (words : EStateM Trap Log α) (operation : LogOp α) : Prop :=
  ∀ log, log.Short → words log = inWords operation log

theorem sameInWords (operation : LogOp α) : SameInWords (inWords operation) operation := fun _ _ => rfl

theorem SameInWords.bind {β : Type} {words : EStateM Trap Log α} {operation : LogOp α}
    {nextInWords : α → EStateM Trap Log β} {next : α → LogOp β} (first : SameInWords words operation)
    (observes : Leaves Observed operation) (second : ∀ value, SameInWords (nextInWords value) (next value)) :
    SameInWords (words >>= nextInWords) (operation >>= next) := by
  intro log short
  refine inWords_bind_of (first log short) fun value after ran => ?_
  have left := observes log
  rw [ran] at left
  exact second value after (left.short short)

theorem sameInWords_opened {words : Ledger → EStateM Trap Log α} {operation : Ledger → LogOp α}
    (same : ∀ ledger log, log.Short → ledger.Within log.device.medium.size →
      words ledger log = inWords (operation ledger) log) :
    SameInWords (do words (← inWords opened)) (do operation (← opened)) := by
  intro log short
  refine inWords_bind_of rfl fun ledger after ran => ?_
  obtain ⟨held, rfl⟩ := opened_eq_ok.mp ran
  exact same ledger after short (short.backed ledger held)

theorem readRaw_sameInWords (index : Nat) : SameInWords (readRawInWords index) (readRaw index) :=
  sameInWords_opened fun ledger log short within => by
    rw [Ledger.readRawInWords_eq within short.below_limit, actInWords_inWords]

theorem read_sameInWords (decoder : Decoding α) (index : Nat) :
    SameInWords (readInWords decoder index) (read decoder index) := by
  refine (readRaw_sameInWords index).bind (readRaw_leaves_observed index) fun record => ?_
  cases Decoding.fromBytes decoder record.data with
  | ok value => exact sameInWords (pure (record.info, value))
  | error error => exact sameInWords (throw (.recordRead index (.codec error)))

theorem readMany_sameInWords (decoder : Decoding α) (count index : Nat) :
    SameInWords (readManyInWords decoder count index) (readMany decoder count index) := by
  induction count generalizing index with
  | zero => exact sameInWords (pure [])
  | succ count ih =>
    refine (read_sameInWords decoder index).bind ?_ fun first => ?_
    · exact compositional_observed.read readRaw_leaves_observed decoder index
    · refine (ih (index + 1)).bind ?_ fun rest => sameInWords (pure (first :: rest))
      exact compositional_observed.readMany readRaw_leaves_observed decoder count (index + 1)

theorem readAll_sameInWords (decoder : Decoding α) : SameInWords (readAllInWords decoder) (readAll decoder) :=
  (sameInWords opened).bind opened_leaves_observed fun _ => readMany_sameInWords decoder _ 0

theorem stats_sameInWords : SameInWords statsInWords stats :=
  sameInWords_opened fun ledger log short within => by
    rw [Ledger.encodedLengthInWords_eq within short.below_limit, Ledger.stopInWords_eq within short.below_limit]
    exact inWords_bind_of rfl fun size after ran => rfl

theorem writeInWords_eq (backed : log.Backed) {now : Int} {info : Meta} {payload : Encoding}
    (room : log.device.medium.size + payload.bytes.length < 2 ^ 63) :
    writeInWords now info payload log = inWords (write now info payload) log := by
  -- Nothing is computed before the payload has been encoded and the bookkeeping is at hand.
  cases readOnly : log.config.readOnly with
  | true =>
    rw [inWords_of_error (write_of_readOnly readOnly)]
    simp only [writeInWords, bind, EStateM.bind, run_get, readOnly, if_true, run_throw]
  | false =>
    cases encoded : payload.toBytes with
    | error error =>
      rw [inWords_of_error (write_of_not_encoded readOnly encoded)]
      simp only [writeInWords, bind, EStateM.bind, run_get, readOnly, Bool.false_eq_true, if_false, encoded,
        run_throw]
    | ok data =>
      cases held : log.ledger with
      | none =>
        rw [inWords_of_error (write_of_closed readOnly encoded held)]
        simp only [writeInWords, bind, EStateM.bind, run_get, readOnly, Bool.false_eq_true, if_false, encoded,
          run_pure, inWords_of_error (opened_of_closed held)]
      | some ledger =>
        obtain ⟨-, rfl⟩ := Encoding.toBytes_eq_ok.mp encoded
        have same := Ledger.commitInWords_eq (backed ledger held) room (info.stamp now).bytes
        simp only [writeInWords, bind, EStateM.bind, run_get, run_modify, readOnly, Bool.false_eq_true, if_false,
          encoded, run_pure, inWords_of_ok (opened_eq held), same, actInWords_inWords]
        simp only [inWords, EStateM.adaptExcept, write_eq held readOnly encoded, act]
        cases ledger.commit (info.stamp now).bytes payload.bytes log.device with
        | error error device => rfl
        | ok next device =>
          dsimp only
          cases log.config.secure device <;> rfl

end Log

namespace Walk

variable {log : Log}

theorem next_lt (walk : Walk) (short : log.Short) (more : walk.bound log ≠ 0) :
    walk.next + 1 < Footer.wordLimit := by
  rw [bound] at more
  cases held : log.ledger with
  | none => simp [held] at more
  | some ledger =>
    have within := short.backed ledger held
    have few := within.length_le
    have below := short.below_limit
    simp only [held, ← within.count] at more
    omega

theorem stepInWords_eq (walk : Walk) (short : log.Short) :
    walk.stepInWords log = .ok (walk.step log).1 (walk.step log).2 := by
  unfold stepInWords step
  split
  · rfl
  · case isFalse going =>
    have few : walk.next + 1 < Footer.wordLimit := next_lt walk short (by simp_all)
    rw [Log.readRaw_sameInWords walk.next log short]
    cases ran : Log.readRaw walk.next log with
    | ok record after =>
      rw [inWords_of_ok ran]
      dsimp only
      rw [advanceInWords, Word.add_eq few]
      rfl
    | error error after =>
      rw [inWords_of_error ran]
      dsimp only
      rw [advanceInWords, Word.add_eq few]
      rfl

theorem takeInWords_eq (limit : Nat) (walk : Walk) (short : log.Short) :
    walk.takeInWords limit log = .ok (walk.take limit log).1 (walk.take limit log).2 := by
  induction limit generalizing walk log with
  | zero => rfl
  | succ limit ih =>
    rw [takeInWords, take, bind_of_ok (stepInWords_eq walk short)]
    have left := (Log.observed_step walk log).short short
    rcases ran : walk.step log with ⟨_ | ⟨reading, next⟩, after⟩
    · rfl
    · rw [ran] at left
      exact bind_of_ok (ih next left)

end Walk

namespace Log

variable {α : Type} {log : Log}

theorem iterate_sameInWords (start : Nat) (limit : Option Nat) :
    SameInWords (iterateInWords start limit) (iterate start limit) := by
  refine (sameInWords (walk start)).bind (compositional_observed.walk opened_leaves_observed start)
    fun walk log short => ?_
  exact walk.takeInWords_eq _ short

theorem stats_eq_ok {stats : Stats} {after : Log} (ran : Log.stats log = .ok stats after) :
    ∃ ledger, log.ledger = some ledger ∧ stats.header = ledger.header := by
  obtain ⟨ledger, _, opens, ran⟩ := bind_eq_ok.mp ran
  obtain ⟨size, _, -, returned⟩ := bind_eq_ok.mp ran
  cases returned
  exact ⟨ledger, (opened_eq_ok.mp opens).1, rfl⟩

open Command in
theorem inspect_sameInWords (showOffsets : Bool) : SameInWords (inspectInWords showOffsets) (do
    let inspection ← inspect showOffsets
    return (inspection, inspection.recordBytes)) := by
  intro log short
  rw [inspect, bind_assoc]
  refine inWords_bind_of (stats_sameInWords log short) fun stats after ran => ?_
  obtain ⟨ledger, held, same⟩ := stats_eq_ok ran
  have room : Header.width ≤ stats.header.footerOffset := same ▸ (short.backed ledger held).room
  rw [Word.sub_eq room]
  cases showOffsets with
  | false => rfl
  | true =>
    simp only [if_true, bind_assoc, pure_bind]
    exact inWords_bind_of rfl fun footer after ran => rfl

end Log

def Operation.payloadLength {α : Type} : Operation α → Nat
  | write _ _ payload => payload.bytes.length
  | _ => 0

theorem Operation.performInWords_eq {α : Type} (operation : Operation α) {log : Log} (backed : log.Backed)
    (room : log.device.medium.size + operation.payloadLength < 2 ^ 63) :
    operation.performInWords log = inWords operation.perform log := by
  have short : log.Short := ⟨backed, Nat.lt_of_le_of_lt (Nat.le_add_right _ _) room⟩
  cases operation with
  | write now info payload => exact Log.writeInWords_eq backed room
  | readRaw index => exact Log.readRaw_sameInWords index log short
  | read decoder index => exact Log.read_sameInWords decoder index log short
  | readAll decoder => exact Log.readAll_sameInWords decoder log short
  | iterate start limit => exact Log.iterate_sameInWords start limit log short
  | stats => exact Log.stats_sameInWords log short
  | header | footer | length | isEmpty | sync | close => rfl

end AppendLog
