import AppendLog.Proofs.Operations
import AppendLog.Proofs.Reached

/-! The bookkeeping of a handle, whatever its storage does.

Nothing is assumed of the storage here: any call may fail, and the bytes may be anything. What a write
does to the bookkeeping is said by what it comes to alone, so after any run of operations the
bookkeeping is the one that was opened, and one record more for every write that has committed.
-/

set_option autoImplicit false

namespace AppendLog

/-- The action fails in nothing but one of the steps. -/
def FailsIn {α : Type} (steps : List Step) (action : Action α) : Prop :=
  ∀ ⦃device : Device⦄ ⦃error : LogError⦄ ⦃after : Device⦄, action device = .error error after →
    ∃ step ∈ steps, ∃ source, error = .io step source

section FailsIn

variable {α β : Type} {steps : List Step} {action : Action α} {next : α → Action β}

theorem failsIn_pure (value : α) : FailsIn steps (pure value : Action α) := by
  intro device error after failed
  cases failed

theorem failsIn_run {step : Step} (member : step ∈ steps) (access : Access α) :
    FailsIn steps (step.run access) := by
  intro device error after failed
  simp only [Step.run, EStateM.adaptExcept] at failed
  cases ran : access device with
  | ok value middle =>
    rw [ran] at failed
    cases failed
  | error source middle =>
    rw [ran] at failed
    cases failed
    exact ⟨step, member, source, rfl⟩

theorem FailsIn.bind (first : FailsIn steps action) (second : ∀ value, FailsIn steps (next value)) :
    FailsIn steps (action >>= next) := by
  intro device error after failed
  rcases bind_eq_error.mp failed with failed | ⟨value, middle, -, failed⟩
  · exact first failed
  · exact second value failed

end FailsIn

namespace Ledger

variable {ledger : Ledger} {device after : Device}

/-! Committing -/

def commitSteps : List Step := [.writeMeta, .writeData, .writeFooter, .readSize, .trimTail, .writeHeader]

theorem failsIn_trim (stop : Nat) : FailsIn commitSteps (trim stop) := by
  refine (failsIn_run (by decide) _).bind fun size => ?_
  split
  · exact failsIn_run (by decide) _
  · exact failsIn_pure _

theorem failsIn_writeRecord (ledger : Ledger) (info data : Bytes) :
    FailsIn commitSteps (ledger.writeRecord info data) :=
  (failsIn_run (by decide) _).bind fun _ => (failsIn_run (by decide) _).bind fun _ =>
    (failsIn_run (by decide) _).bind fun _ => (failsIn_trim _).bind fun _ => failsIn_run (by decide) _

theorem commit_cases (ledger : Ledger) (info data : Bytes) (device : Device) :
    (∃ after, ledger.commit info data device = .ok (ledger.next data.length) after) ∨
    ∃ step ∈ commitSteps, ∃ source after,
      ledger.commit info data device = .error (.io step source) after := by
  unfold commit
  cases written : ledger.writeRecord info data device with
  | ok value after => exact .inl ⟨after, rfl⟩
  | error error after =>
    obtain ⟨step, member, source, rfl⟩ := ledger.failsIn_writeRecord info data written
    exact .inr ⟨step, member, source, _, rfl⟩

def grown (ledger : Ledger) (lengths : List Nat) : Ledger := lengths.foldl next ledger

theorem Fits.grown (fits : ledger.Fits) (anchored : ledger.Anchored) (lengths : List Nat) :
    (ledger.grown lengths).Fits := by
  induction lengths generalizing ledger with
  | nil => exact fits
  | cons length rest ih => exact ih (fits.next anchored length) (anchored_next ledger length)

/-! Opening -/

theorem valid_of_loadHeader {header : Header} (loaded : loadHeader device = .ok header after) :
    header.validate = .ok () := by
  obtain ⟨_, _, -, loaded⟩ := bind_eq_ok.mp loaded
  obtain ⟨_, _, -, loaded⟩ := bind_eq_ok.mp loaded
  obtain ⟨_, _, valid, returned⟩ := bind_eq_ok.mp loaded
  cases returned
  exact (ofValidated_eq_ok.mp valid).1

theorem valid_of_loadFooter {header : Header} {footer : Footer}
    (loaded : loadFooter header device = .ok footer after) : footer.validate header = .ok () := by
  obtain ⟨_, _, -, loaded⟩ := bind_eq_ok.mp loaded
  obtain ⟨_, _, -, loaded⟩ := bind_eq_ok.mp loaded
  obtain ⟨_, _, -, loaded⟩ := bind_eq_ok.mp loaded
  obtain ⟨_, _, -, loaded⟩ := bind_eq_ok.mp loaded
  obtain ⟨_, _, -, loaded⟩ := bind_eq_ok.mp loaded
  obtain ⟨_, _, valid, returned⟩ := bind_eq_ok.mp loaded
  cases returned
  exact (ofValidated_eq_ok.mp valid).1

theorem fits_of_load (loaded : load device = .ok ledger after) : ledger.Fits := by
  obtain ⟨header, _, headerLoaded, loaded⟩ := bind_eq_ok.mp loaded
  obtain ⟨footer, _, footerLoaded, loaded⟩ := bind_eq_ok.mp loaded
  obtain ⟨_, _, -, returned⟩ := bind_eq_ok.mp loaded
  cases returned
  obtain ⟨version, room⟩ := Header.validate_eq_ok.mp (valid_of_loadHeader headerLoaded)
  obtain ⟨count, first, spaced⟩ := Footer.validate_eq_ok.mp (valid_of_loadFooter footerLoaded)
  exact ⟨version, room, count, first, spaced⟩

theorem eq_fresh_of_create (created : create device = .ok ledger after) : ledger = fresh := by
  obtain ⟨_, _, -, created⟩ := bind_eq_ok.mp created
  obtain ⟨_, _, -, created⟩ := bind_eq_ok.mp created
  obtain ⟨_, _, -, returned⟩ := bind_eq_ok.mp created
  cases returned
  rfl

theorem fits_fresh : fresh.Fits := Entries.fits []

end Ledger

namespace Log

/-- What has been opened on an empty medium, or with a record in it, is where a run can start. -/
theorem fits_of_openLedger {config : Config} {device after : Device} {ledger : Ledger}
    (opened : openLedger config device = .ok ledger after)
    (start : device.medium.size = 0 ∨ 0 < ledger.header.totalRecords) :
    ledger.Fits ∧ ledger.Anchored := by
  rcases openLedger_cases opened with ⟨-, created⟩ | ⟨some, loaded⟩
  · rw [Ledger.eq_fresh_of_create created]
    exact ⟨Ledger.fits_fresh, fun _ => rfl⟩
  · have fits := Ledger.fits_of_load loaded
    refine ⟨fits, fun none => absurd start ?_⟩
    rw [← fits.count, Footer.length, none]
    exact fun impossible => impossible.elim some (Nat.lt_irrefl 0)

/-! One write -/

/-- All that a write can come to, and all that it can leave. Nothing is said of the storage. -/
inductive WriteOutcome (log : Log) (payload : Encoding) : EStateM.Result LogError Log Nat → Prop where
  | readOnly : log.config.readOnly = true → WriteOutcome log payload (.error .readOnly log)
  | notEncoded {error : CodecError} : payload.toBytes = .error error →
      WriteOutcome log payload (.error (.codec error) log)
  | closed : log.ledger = none → WriteOutcome log payload (.error .closed log)
  | undone {ledger : Ledger} {step : Step} {source : StorageError} (device : Device) :
      log.ledger = some ledger → step ∈ Ledger.commitSteps →
      WriteOutcome log payload (.error (.io step source) { log with device })
  | acknowledged {ledger : Ledger} {data : Bytes} (device : Device) :
      log.ledger = some ledger → payload.toBytes = .ok data →
      WriteOutcome log payload
        (.ok ledger.header.totalRecords { log with ledger := some (ledger.next data.length), device })
  | unsecured {ledger : Ledger} {data : Bytes} {source : StorageError} (device : Device) :
      log.ledger = some ledger → payload.toBytes = .ok data →
      WriteOutcome log payload (.error (.io log.config.securing source)
        { log with ledger := some (ledger.next data.length), device })

theorem write_outcome (now : Int) (info : Meta) (payload : Encoding) (log : Log) :
    WriteOutcome log payload (write now info payload log) := by
  cases readOnly : log.config.readOnly with
  | true =>
    rw [write_of_readOnly readOnly]
    exact .readOnly readOnly
  | false =>
    cases encoded : payload.toBytes with
    | error error =>
      rw [write_of_not_encoded readOnly encoded]
      exact .notEncoded encoded
    | ok data =>
      cases opened : log.ledger with
      | none =>
        rw [write_of_closed readOnly encoded opened]
        exact .closed opened
      | some ledger =>
        rw [write_eq opened readOnly encoded]
        rcases ledger.commit_cases (info.stamp now).bytes data log.device with
          ⟨device, committed⟩ | ⟨step, member, source, device, failed⟩
        · rw [committed]
          rcases log.config.secure_cases device with ⟨calls, secured⟩ | ⟨source, calls, failed⟩
          · simp only [secured]
            exact .acknowledged _ opened encoded
          · simp only [failed]
            exact .unsecured _ opened encoded
        · rw [failed]
          exact .undone device opened member

/-- A write that came to this has committed its record: it has succeeded, or failed in nothing but
making the record durable. -/
def Commits : Except LogError Nat → Prop
  | .ok _ => True
  | .error error => error.step? = some .sync ∨ error.step? = some .flush

instance : DecidablePred Commits := fun
  | .ok _ => .isTrue trivial
  | .error _ => inferInstanceAs (Decidable (_ ∨ _))

theorem commits_securing (config : Config) (source : StorageError) :
    Commits (.error (.io config.securing source)) := by
  unfold Config.securing
  cases config.syncOnWrite with
  | true => exact .inl rfl
  | false => exact .inr rfl

theorem not_commits_of_step {step : Step} (member : step ∈ Ledger.commitSteps) (source : StorageError) :
    ¬ Commits (.error (.io step source)) := by
  rintro (impossible | impossible)
  · cases impossible
    exact absurd member (by decide)
  · cases impossible
    exact absurd member (by decide)

theorem ledger_of_write {now : Int} {info : Meta} {payload : Encoding} {log : Log} {ledger : Ledger}
    (held : log.ledger = some ledger) {result : EStateM.Result LogError Log Nat}
    (written : write now info payload log = result) :
    (Commits (outcome result) ∧ (∃ data, payload.toBytes = .ok data ∧
        (afterwards result).ledger = some (ledger.next data.length)) ∨
      ¬ Commits (outcome result) ∧ (afterwards result).ledger = some ledger) ∧
    ∀ index, outcome result = .ok index → index = ledger.header.totalRecords := by
  have possible := write_outcome now info payload log
  rw [written] at possible
  cases possible with
  | readOnly | notEncoded =>
    exact ⟨.inr ⟨by simp [outcome, Commits, LogError.step?], held⟩, fun _ impossible => by cases impossible⟩
  | closed none => simp [held] at none
  | undone device held' member =>
    exact ⟨.inr ⟨not_commits_of_step member _, held⟩, fun _ impossible => by cases impossible⟩
  | acknowledged device held' encoded =>
    cases held.symm.trans held'
    refine ⟨.inl ⟨trivial, _, encoded, rfl⟩, fun index same => ?_⟩
    cases same
    rfl
  | unsecured device held' encoded =>
    cases held.symm.trans held'
    exact ⟨.inl ⟨commits_securing _ _, _, encoded, rfl⟩, fun _ impossible => by cases impossible⟩

theorem write_untouched {now : Int} {info : Meta} {payload : Encoding} {log after : Log}
    {error : LogError} (failed : write now info payload log = .error error after)
    (refused : error = .readOnly ∨ error = .closed ∨ ∃ source, error = .codec source) : after = log := by
  have possible := write_outcome now info payload log
  rw [failed] at possible
  cases possible with
  | readOnly | notEncoded | closed => rfl
  | undone | unsecured => simp at refused

end Log

/-! Runs -/

/-- An operation, and what becomes of the storage before it: which of its calls will fail, and what
others do to the bytes. -/
structure Turn where
  Answer : Type
  operation : Operation Answer
  storage : Device → Device

structure Commit where
  length : Nat
  /-- The index, or the error with which the record could not be made durable. -/
  result : Except LogError Nat
  deriving DecidableEq

namespace Turn

def found (turn : Turn) (log : Log) : Log := { log with device := turn.storage log.device }

def run (turn : Turn) (log : Log) : EStateM.Result LogError Log turn.Answer :=
  turn.operation.perform (turn.found log)

def closes : Turn → Bool
  | ⟨_, .close, _⟩ => true
  | _ => false

def commit? (log : Log) : Turn → Option Commit
  | ⟨_, .write now info payload, storage⟩ =>
    let result := outcome (Log.write now info payload { log with device := storage log.device })
    match payload.toBytes with
    | .ok data => if Log.Commits result then some ⟨data.length, result⟩ else none
    | .error _ => none
  | _ => none

end Turn

def serve : List Turn → Log → Log
  | [], log => log
  | turn :: rest, log => serve rest (afterwards (turn.run log))

def commits : List Turn → Log → List Commit
  | [], _ => []
  | turn :: rest, log => (turn.commit? log).toList ++ commits rest (afterwards (turn.run log))

namespace Turn

variable {log : Log}

theorem ledger_of_closed {now : Int} {info : Meta} {payload : Encoding} (closed : log.ledger = none)
    {result : EStateM.Result LogError Log Nat} (written : Log.write now info payload log = result) :
    ¬ Log.Commits (outcome result) ∧ (afterwards result).ledger = none := by
  have possible := Log.write_outcome now info payload log
  rw [written] at possible
  cases possible with
  | readOnly | notEncoded | closed =>
    exact ⟨by simp [outcome, Log.Commits, LogError.step?], closed⟩
  | undone _ held | acknowledged _ held | unsecured _ held =>
    rw [closed] at held
    cases held

theorem map_grown_nil (ledger : Option Ledger) : ledger.map (·.grown []) = ledger := by
  cases ledger <;> rfl

theorem ledger_of_query {turn : Turn} (asks : turn.operation.IsQuery) :
    (afterwards (turn.run log)).ledger = log.ledger := by
  obtain ⟨calls, left⟩ := Log.query_leaves_observed asks (turn.found log)
  rw [run, left]
  rfl

/-- The bookkeeping after a turn is what it was before, with one record more if one has been
committed, until it is given up. -/
theorem ledger_run (turn : Turn) (log : Log) : (afterwards (turn.run log)).ledger =
    if turn.closes then none
    else log.ledger.map (·.grown ((turn.commit? log).toList.map Commit.length)) := by
  obtain ⟨Answer, operation, storage⟩ := turn
  cases operation with
  | write now info payload =>
    show (afterwards (Log.write now info payload { log with device := storage log.device })).ledger = _
    simp only [closes, commit?, Bool.false_eq_true, if_false]
    generalize written : Log.write now info payload { log with device := storage log.device } = result
    cases held : log.ledger with
    | none => exact (ledger_of_closed (by exact held) written).2
    | some ledger =>
      obtain ⟨⟨committed, data, encoded, grown⟩ | ⟨uncommitted, same⟩, -⟩ :=
        Log.ledger_of_write (by exact held) written
      · simp [encoded, committed, grown, Ledger.grown]
      · cases payload.toBytes <;> simp [uncommitted, same, Ledger.grown]
  | close =>
    obtain ⟨calls, left⟩ := Log.afterwards_close (found ⟨_, .close, storage⟩ log)
    exact congrArg Log.ledger left
  | sync =>
    obtain ⟨calls, left⟩ := Log.sync_leaves_observed (found ⟨_, .sync, storage⟩ log)
    exact (congrArg Log.ledger left).trans (map_grown_nil _).symm
  | readRaw | read | readAll | iterate | header | footer | length | isEmpty | stats =>
    exact (ledger_of_query (by exact trivial)).trans (map_grown_nil _).symm

theorem ledger_before {turn : Turn} {after : Ledger} (held : (afterwards (turn.run log)).ledger = some after) :
    ∃ ledger, log.ledger = some ledger ∧
      after = ledger.grown ((turn.commit? log).toList.map Commit.length) := by
  rw [ledger_run] at held
  cases closing : turn.closes with
  | true => simp [closing] at held
  | false =>
    simp only [closing, Bool.false_eq_true, if_false, Option.map_eq_some_iff] at held
    obtain ⟨ledger, found, rfl⟩ := held
    exact ⟨ledger, found, rfl⟩

theorem index_of_commit? {turn : Turn} {commit : Commit} (committed : turn.commit? log = some commit)
    {index : Nat} (acknowledged : commit.result = .ok index) :
    ∃ ledger, log.ledger = some ledger ∧ index = ledger.header.totalRecords := by
  obtain ⟨Answer, operation, storage⟩ := turn
  cases operation with
  | write now info payload =>
    simp only [commit?] at committed
    generalize written : Log.write now info payload { log with device := storage log.device } = result
      at committed
    cases encoded : payload.toBytes with
    | error error => simp [encoded] at committed
    | ok data =>
      simp only [encoded, Option.ite_none_right_eq_some, Option.some.injEq] at committed
      obtain ⟨done, rfl⟩ := committed
      cases held : log.ledger with
      | none => exact absurd done (ledger_of_closed (by exact held) written).1
      | some ledger =>
        exact ⟨ledger, rfl, (Log.ledger_of_write (by exact held) written).2 index acknowledged⟩
  | _ => simp [commit?] at committed

end Turn

namespace Ledger

@[simp] theorem grown_append (ledger : Ledger) (first second : List Nat) :
    ledger.grown (first ++ second) = (ledger.grown first).grown second := List.foldl_append

theorem totalRecords_grown (ledger : Ledger) (lengths : List Nat) :
    (ledger.grown lengths).header.totalRecords = ledger.header.totalRecords + lengths.length := by
  induction lengths generalizing ledger with
  | nil => rfl
  | cons length rest ih =>
    rw [grown, List.foldl_cons, ← grown, ih, List.length_cons]
    simp only [next]
    omega

end Ledger

theorem ledger_serve (turns : List Turn) (log : Log) : (serve turns log).ledger =
    if turns.any Turn.closes then none
    else log.ledger.map (·.grown ((commits turns log).map Commit.length)) := by
  induction turns generalizing log with
  | nil => exact (Turn.map_grown_nil _).symm
  | cons turn rest ih =>
    rw [serve, ih, turn.ledger_run, commits, List.any_cons]
    cases turn.closes <;> cases log.ledger <;> simp

theorem index_of_commits {turns : List Turn} {log : Log} {position : Nat} {commit : Commit}
    (found : (commits turns log)[position]? = some commit) {index : Nat}
    (acknowledged : commit.result = .ok index) :
    ∃ ledger, log.ledger = some ledger ∧ index = ledger.header.totalRecords + position := by
  induction turns generalizing log position with
  | nil => simp [commits] at found
  | cons turn rest ih =>
    have later {earlier : Nat} (front : (turn.commit? log).toList.length = earlier)
        {position : Nat} (found : (commits rest (afterwards (turn.run log)))[position]? = some commit) :
        ∃ ledger, log.ledger = some ledger ∧
          index = ledger.header.totalRecords + (earlier + position) := by
      obtain ⟨after, held, same⟩ := ih found
      obtain ⟨ledger, before, rfl⟩ := Turn.ledger_before held
      refine ⟨ledger, before, ?_⟩
      rw [same, Ledger.totalRecords_grown, List.length_map, front, Nat.add_assoc]
    rw [commits] at found
    cases committed : turn.commit? log with
    | none =>
      have front : (turn.commit? log).toList.length = 0 := by rw [committed]; rfl
      rw [committed, Option.toList_none, List.nil_append] at found
      simpa using later front found
    | some first =>
      have front : (turn.commit? log).toList.length = 1 := by rw [committed]; rfl
      rw [committed, Option.toList_some, List.singleton_append] at found
      cases position with
      | zero =>
        cases found
        exact Turn.index_of_commit? committed acknowledged
      | succ position =>
        rw [Nat.add_comm position 1]
        exact later front found

/-- The bookkeeping advances exactly with the commits, whatever the storage does. -/
theorem bookkeeping_follows_commits {path : Option String} {config : Config} {start device : Device}
    {log : Log} {first : Ledger} (opens : Log.openOn path config start = (.ok log, device))
    (held : log.ledger = some first)
    (fresh : start.medium.size = 0 ∨ 0 < first.header.totalRecords) (turns : List Turn) :
    let after := serve turns log
    let committed := commits turns log
    -- The bookkeeping is the first one and a record more for each commit, and fits together.
    (after.ledger = if turns.any Turn.closes then none
      else some (first.grown (committed.map Commit.length))) ∧
    (∀ ledger, after.ledger = some ledger →
      ledger.footer.length = ledger.header.totalRecords ∧ ledger.header.version = 1 ∧
      (∀ offset ∈ ledger.footer.offsets.head?, offset = 17) ∧
      ∀ index offset, ledger.footer.offsets[index]? = some offset →
        offset + 13 ≤ ledger.footer.offsets[index + 1]?.getD ledger.header.footerOffset) ∧
    -- The indices given are the places of the records among all that have been committed.
    (∀ position commit, committed[position]? = some commit → ∀ index, commit.result = .ok index →
      index = first.header.totalRecords + position) ∧
    -- A write commits its record exactly if it succeeds or fails in making it durable.
    (∀ now info payload (device : Device) ledger, after.ledger = some ledger →
      let result := Log.write now info payload { after with device }
      (Log.Commits (outcome result) ∧ (∃ data, payload.toBytes = .ok data ∧
          (afterwards result).ledger = some
            { header := { ledger.header with
                totalRecords := ledger.header.totalRecords + 1
                footerOffset := ledger.header.footerOffset + 13 + data.length }
              footer := ⟨ledger.footer.offsets ++ [ledger.header.footerOffset]⟩ }) ∨
        ¬ Log.Commits (outcome result) ∧ (afterwards result).ledger = some ledger) ∧
      ∀ index, outcome result = .ok index → index = ledger.footer.length) ∧
    -- One that is turned down leaves the log as it finds it, and has not called the storage.
    (∀ now info payload (device : Device) error stop,
      Log.write now info payload { after with device } = .error error stop →
      (error = .readOnly ∨ error = .closed ∨ ∃ source, error = .codec source) →
      stop = { after with device }) ∧
    ∀ turn : Turn, turn.operation.IsQuery ∨ (∃ storage, turn = ⟨Unit, .sync, storage⟩) →
      (afterwards (turn.run after)).ledger = after.ledger := by
  intro after committed
  obtain ⟨found, opened, same⟩ := Log.openOn_eq_ok_iff.mp opens
  obtain rfl : first = found := Option.some.inj (held.symm.trans (congrArg Log.ledger same))
  obtain ⟨fits, anchored⟩ := Log.fits_of_openLedger opened fresh
  have grown : after.ledger = if turns.any Turn.closes then none
      else some (first.grown (committed.map Commit.length)) := by
    rw [ledger_serve, held]
    rfl
  have stillFits {ledger : Ledger} (found : after.ledger = some ledger) : ledger.Fits := by
    rw [grown] at found
    split at found
    · cases found
    · cases found
      exact fits.grown anchored _
  refine ⟨grown, fun ledger found => ?_, fun position commit found index acknowledged => ?_, ?_, ?_, ?_⟩
  · have fits := stillFits found
    exact ⟨fits.count, fits.version, fits.first, fun index offset found => (fits.spaced.boundary_le found).1⟩
  · obtain ⟨ledger, before, same⟩ := index_of_commits found acknowledged
    cases held.symm.trans before
    exact same
  · intro now info payload device ledger found result
    rw [(stillFits found).count]
    exact Log.ledger_of_write (by exact found) rfl
  · intro now info payload device error stop failed refused
    exact Log.write_untouched failed refused
  · rintro turn (asks | ⟨storage, rfl⟩)
    · exact Turn.ledger_of_query asks
    · exact (Turn.ledger_run _ _).trans (Turn.map_grown_nil _)

/-- A write whose commit and rollback fail, one that cannot be made durable, and one that succeeds. -/
theorem bookkeeping_follows_commits_of_three_writes :
    let torn : FaultSettings := ⟨some 1, 9, true, true, true, true, true, true⟩
    let unsynced : FaultSettings := ⟨none, 0, false, false, true, false, false, false⟩
    let info : Meta := ⟨5, ⟨1, 2, 3, 4⟩, .replace⟩
    let log : Log := ⟨none, .standard, some .fresh, ⟨.memory ⟨Ledger.fresh.image []⟩, .never,
      [.sync, .write 8, .write 17, .size]⟩⟩
    let turns : List Turn := [⟨_, .write 0 info (.ofBytes [1, 2, 3, 4]), (·.underPlan torn.plan)⟩,
      ⟨_, .write 0 info (.ofBytes [7]), (·.underPlan unsynced.plan)⟩,
      ⟨_, .write 0 info (.ofBytes [8, 9]), (·.underPlan .never)⟩]
    Log.openOn none .standard (.sound (.memory ⟨[]⟩)) = (.ok log, log.device) ∧
    commits turns log = [⟨1, .error (.io .sync (.device (.broken "sync fault")))⟩, ⟨2, .ok 1⟩] ∧
    (serve turns log).ledger = some ⟨⟨1, 2, 46⟩, ⟨[17, 31]⟩⟩ := by
  intro torn unsynced info log turns
  have opens : Log.openOn none .standard (.sound (.memory ⟨[]⟩)) = (.ok log, log.device) := rfl
  have committed : commits turns log =
      [⟨1, .error (.io .sync (.device (.broken "sync fault")))⟩, ⟨2, .ok 1⟩] := by
    decide +kernel
  obtain ⟨grown, -⟩ := bookkeeping_follows_commits opens rfl (.inl rfl) turns
  rw [committed] at grown
  exact ⟨opens, committed, grown⟩

end AppendLog
