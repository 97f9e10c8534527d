import AppendLog.Command.Run
import AppendLog.Proofs.Mirrors
import AppendLog.Proofs.SingleFaults
import AppendLog.Proofs.Sites

/-! Handles for reading.

Any number of handles is held on the logs of a site, opened one after another and all for reading only.
Each step leaves the site as it was, and every handle with the ledger that lies in the bytes that it has
found, until it is closed. As at most one ledger lies in bytes, and logs with the same ledger on the same
bytes answer alike, such a handle cannot be told from one for writing.
-/

set_option autoImplicit false

namespace AppendLog

structure Reader where
  path : String
  log : Log

/-- What is done with handles for reading. A log is opened for reading whatever else its configuration
asks for, and an operation is served under a fault plan of its own. -/
inductive Errand where
  | open (path : String) (config : Config)
  | operate {Answer : Type} (number : Nat) (operation : Operation Answer) (plan : FaultPlan)

def Errand.Closes (number : Nat) : Errand → Prop
  | .open .. => False
  | .operate asked operation _ => asked = number ∧ operation.Closes

structure Visit where
  site : Site
  readers : List Reader

/-! Single operations -/

namespace Log

/-- Whatever is asked of a log for reading and whatever fails, it keeps its medium, and its bookkeeping
unless it is closed. -/
theorem afterwards_of_readOnly {Answer : Type} (operation : Operation Answer) {log : Log}
    (readOnly : log.config.readOnly = true) :
    ∃ ledger calls, afterwards (operation.perform log) =
      { log with ledger, device := ⟨log.device.medium, log.device.plan, calls⟩ } ∧
        (ledger = log.ledger ∨ ledger = none ∧ operation.Closes) := by
  have of_observed {after : Log} (observed : log.Observed after) : ∃ ledger calls,
      after = { log with ledger, device := ⟨log.device.medium, log.device.plan, calls⟩ } ∧
        (ledger = log.ledger ∨ ledger = none ∧ operation.Closes) := by
    obtain ⟨calls, rfl⟩ := observed
    exact ⟨log.ledger, calls, rfl, .inl rfl⟩
  cases operation with
  | write now info payload =>
    rw [Operation.perform, write_of_readOnly readOnly]
    exact of_observed (observed_refl log)
  | close =>
    obtain ⟨calls, left⟩ := log.afterwards_close
    exact ⟨none, calls, left, .inr ⟨rfl, trivial⟩⟩
  | sync => exact of_observed (sync_leaves_observed log)
  | readRaw | read | readAll | iterate | header | footer | length | isEmpty | stats =>
    exact of_observed (query_leaves_observed (by exact trivial) log)

/-- Logs with the same bookkeeping on the same bytes answer every query alike. -/
theorem answers_alike {Answer : Type} {query : Operation Answer} (asks : query.IsQuery) {first second : Log}
    (held : first.ledger = second.ledger) {medium : Medium} {one other : Bool}
    (onFirst : first.device.medium = medium.reopened one)
    (onSecond : second.device.medium = medium.reopened other) (plan : FaultPlan) :
    outcome (query.perform (first.underPlan plan)) = outcome (query.perform (second.underPlan plan)) := by
  have same : (first.underPlan plan).device.bytes = (second.underPlan plan).device.bytes := by
    show first.device.medium.content = second.device.medium.content
    rw [onFirst, onSecond, Medium.content_reopened, Medium.content_reopened]
  have mirrors : (first.underPlan plan).Mirrors (second.underPlan plan) :=
    ⟨held, Device.mirrors_of_bytes (onFirst ▸ Medium.readable_reopened medium one :)
      (onSecond ▸ Medium.readable_reopened medium other :) same rfl rfl⟩
  exact (query_respects_mirrors asks mirrors).1

end Log

/-! Steps and runs -/

namespace Visit

def step : Errand → Visit → Visit
  | .open path config, visit =>
    match visit.site.openLog path config.reading with
    | (.ok log, site) => ⟨site, visit.readers ++ [⟨path, log⟩]⟩
    | (.error _, site) => ⟨site, visit.readers⟩
  | .operate number operation plan, visit =>
    match visit.readers[number]? with
    | none => visit
    | some reader =>
      let log := afterwards (operation.perform (reader.log.underPlan plan))
      ⟨visit.site.keeping reader.path log.device.medium, visit.readers.set number ⟨reader.path, log⟩⟩

def run : List Errand → Visit → Visit
  | [], visit => visit
  | errand :: rest, visit => run rest (step errand visit)

end Visit

namespace Reader

/-- The handle is for reading, and on what is kept at its path with the bookkeeping that lies in it. -/
def Reads (site : Site) (reader : Reader) : Prop :=
  reader.log.config.readOnly = true ∧
    ∃ medium, site.medium? reader.path = some medium ∧ medium.content ≠ [] ∧
      reader.log.device.medium = medium.reopened true ∧
      ∀ ledger, reader.log.ledger = some ledger → ledger.WellFormed ∧ ledger.LiesIn medium.content

/-- As long as it is open, the handle answers as any other that is opened at its path. -/
theorem Reads.answers_as {site : Site} {reader : Reader} (reads : reader.Reads site)
    (opened : reader.log.ledger ≠ none) {config : Config} {twin : Log}
    (opens : (site.openLog reader.path config).1 = .ok twin) {Answer : Type} {query : Operation Answer}
    (asks : query.IsQuery) (plan : FaultPlan) : outcome (query.perform (reader.log.underPlan plan)) =
      outcome (query.perform (twin.underPlan plan)) := by
  obtain ⟨-, medium, there, nonempty, onMedium, lies⟩ := reads
  obtain ⟨ledger, held⟩ := Option.ne_none_iff_exists'.mp opened
  obtain ⟨formed, lies⟩ := lies ledger held
  obtain ⟨found, held', foundFormed, foundLies, onTwin⟩ := Site.openLog_eq_ok there nonempty opens
  -- Both ledgers lie in the same bytes.
  obtain rfl : found = ledger := formed.eq_of_liesIn lies foundFormed foundLies
  exact Log.answers_alike asks (held.trans held'.symm) onMedium onTwin plan

end Reader

namespace Visit

variable {site : Site} {visit : Visit}

/-- The site is as it was, and all handles read what is there. -/
structure Undisturbed (site : Site) (visit : Visit) : Prop where
  kept : visit.site.SameAs site
  reads : ∀ reader ∈ visit.readers, reader.Reads site

theorem step_open (path : String) (config : Config) (visit : Visit) :
    step (.open path config) visit =
      match visit.site.openLog path config.reading with
      | (.ok log, site) => ⟨site, visit.readers ++ [⟨path, log⟩]⟩
      | (.error _, site) => ⟨site, visit.readers⟩ := rfl

theorem step_operate {Answer : Type} {number : Nat} {reader : Reader}
    (held : visit.readers[number]? = some reader) (operation : Operation Answer) (plan : FaultPlan) :
    step (.operate number operation plan) visit =
      let log := afterwards (operation.perform (reader.log.underPlan plan))
      ⟨visit.site.keeping reader.path log.device.medium, visit.readers.set number ⟨reader.path, log⟩⟩ := by
  simp only [step, held]

theorem step_operate_of_none {Answer : Type} {number : Nat} (unheld : visit.readers[number]? = none)
    (operation : Operation Answer) (plan : FaultPlan) :
    step (.operate number operation plan) visit = visit := by
  simp only [step, unheld]

theorem Undisturbed.step (undisturbed : visit.Undisturbed site) (errand : Errand) :
    (step errand visit).Undisturbed site := by
  cases errand with
  | «open» path config =>
    have same := Site.openLog_sameAs config.readOnly_reading path visit.site
    rw [step_open]
    rcases opened : visit.site.openLog path config.reading with ⟨error | log, left⟩
    · rw [opened] at same
      exact ⟨same.trans undisturbed.kept, undisturbed.reads⟩
    · rw [opened] at same
      refine ⟨same.trans undisturbed.kept, fun reader member => ?_⟩
      rcases List.mem_append.mp member with member | member
      · exact undisturbed.reads reader member
      · obtain rfl := List.mem_singleton.mp member
        obtain ⟨medium, ledger, found, nonempty, onMedium, asked, held, formed, lies⟩ :=
          Site.openLog_readOnly_eq_ok config.readOnly_reading (congrArg Prod.fst opened)
        refine ⟨congrArg Config.readOnly asked, medium, ?_, nonempty, onMedium, fun other same => ?_⟩
        · exact (undisturbed.kept.medium? path).symm.trans found
        · cases held.symm.trans same
          exact ⟨formed, lies⟩
  | operate number operation plan =>
    cases asked : visit.readers[number]? with
    | none =>
      rw [step_operate_of_none asked]
      exact undisturbed
    | some reader =>
      obtain ⟨readOnly, medium, found, nonempty, onMedium, lies⟩ :=
        undisturbed.reads reader (List.mem_of_getElem? asked)
      obtain ⟨ledger, calls, left, kept⟩ := Log.afterwards_of_readOnly operation
        (show (reader.log.underPlan plan).config.readOnly = true from readOnly)
      rw [step_operate asked, left]
      refine ⟨?_, fun other member => ?_⟩
      · refine (Site.keeping_sameAs ((undisturbed.kept.medium? _).trans found) ?_).trans undisturbed.kept
        exact (congrArg Medium.content onMedium).trans (Medium.content_reopened _ _)
      · rcases List.mem_or_eq_of_mem_set member with member | rfl
        · exact undisturbed.reads other member
        · refine ⟨readOnly, medium, found, nonempty, onMedium, fun held same => ?_⟩
          rcases kept with rfl | ⟨rfl, -⟩
          · exact lies held same
          · cases same

theorem Undisturbed.run (undisturbed : visit.Undisturbed site) (errands : List Errand) :
    (run errands visit).Undisturbed site := by
  induction errands generalizing visit with
  | nil => exact undisturbed
  | cons errand rest ih => exact ih (undisturbed.step errand)

def Closed (number : Nat) (visit : Visit) : Prop :=
  ∃ reader, visit.readers[number]? = some reader ∧ reader.log.ledger = none

theorem Undisturbed.closed_of_step (undisturbed : visit.Undisturbed site) {errand : Errand} {number : Nat}
    (closed : (visit.step errand).Closed number) : visit.Closed number ∨ errand.Closes number := by
  obtain ⟨reader, found, closed⟩ := closed
  cases errand with
  | «open» path config =>
    rw [step_open] at found
    rcases opened : visit.site.openLog path config.reading with ⟨error | log, left⟩
    · rw [opened] at found
      exact .inl ⟨reader, found, closed⟩
    · rw [opened] at found
      by_cases inside : number < visit.readers.length
      · rw [List.getElem?_append_left inside] at found
        exact .inl ⟨reader, found, closed⟩
      · rw [List.getElem?_append_right (Nat.not_lt.mp inside)] at found
        obtain rfl := List.mem_singleton.mp (List.mem_of_getElem? found)
        obtain ⟨_, ledger, -, -, -, -, held, -⟩ :=
          Site.openLog_readOnly_eq_ok config.readOnly_reading (congrArg Prod.fst opened)
        cases closed.symm.trans held
  | operate asked operation plan =>
    cases held : visit.readers[asked]? with
    | none =>
      rw [step_operate_of_none held] at found
      exact .inl ⟨reader, found, closed⟩
    | some before =>
      rw [step_operate held, List.getElem?_set] at found
      by_cases same : asked = number
      · subst same
        have inside : asked < visit.readers.length := (List.getElem?_eq_some_iff.mp held).1
        rw [if_pos rfl, if_pos inside] at found
        cases found
        obtain ⟨readOnly, -⟩ := undisturbed.reads before (List.mem_of_getElem? held)
        obtain ⟨ledger, calls, left, kept⟩ := Log.afterwards_of_readOnly operation
          (show (before.log.underPlan plan).config.readOnly = true from readOnly)
        rw [left] at closed
        rcases kept with rfl | ⟨-, closes⟩
        · exact .inl ⟨before, held, closed⟩
        · exact .inr ⟨rfl, closes⟩
      · rw [if_neg same] at found
        exact .inl ⟨reader, found, closed⟩

theorem Undisturbed.closed_of_run (undisturbed : visit.Undisturbed site) {errands : List Errand} {number : Nat}
    (closed : (visit.run errands).Closed number) :
    visit.Closed number ∨ ∃ errand ∈ errands, errand.Closes number := by
  induction errands generalizing visit with
  | nil => exact .inl closed
  | cons errand rest ih =>
    rcases ih (undisturbed.step errand) closed with earlier | ⟨later, member, closes⟩
    · rcases undisturbed.closed_of_step earlier with before | closes
      · exact .inl before
      · exact .inr ⟨errand, List.mem_cons_self, closes⟩
    · exact .inr ⟨later, List.mem_cons_of_mem errand member, closes⟩

end Visit

/-! Commands -/

namespace Command

open Log

theorem inspect_leaves_observed (showOffsets : Bool) : Leaves Observed (inspect showOffsets) := by
  refine compositional_observed.bind stats_leaves_observed fun stats => ?_
  -- What is given back is made of the statistics and of the path, which the log keeps.
  cases showOffsets with
  | false => exact observed_refl
  | true =>
    refine compositional_observed.bind (query_leaves_observed (show Operation.footer.IsQuery from trivial))
      fun footer => ?_
    exact observed_refl

theorem verify_leaves_observed (shape : Option Shape) : Leaves Observed (verify shape) := by
  refine compositional_observed.bind (query_leaves_observed (show Operation.length.IsQuery from trivial))
    fun total => compositional_observed.bind stats_leaves_observed fun stats => ?_
  refine compositional_observed.bind (compositional_observed.walk opened_leaves_observed 0) fun walk log => ?_
  exact observed_readings none walk log

theorem collect_leaves_observed (shape : Option Shape) (start : Nat) (limit : Option Nat) :
    Leaves Observed (collect shape start limit) := by
  refine compositional_observed.bind (compositional_observed.walk opened_leaves_observed start)
    fun walk log => ?_
  have left := observed_readings limit walk log
  simp only [bind, EStateM.bind, run_get, run_set]
  -- Whether all readings went well is known when the walk is over.
  cases listAll shape (walk.readings limit log).1 <;> exact left

variable {folder : Folder}

theorem openIn_readOnly_sameAs (folder : Folder) (path : String) :
    (openIn folder path readOnlyConfig).2.SameAs folder := by
  have readOnly : readOnlyConfig.readOnly = true := rfl
  cases Site.openLog_sameAs readOnly path (.folder folder) with
  | folder same => exact same

theorem onLog_sameAs {α : Type} (path : String) (operation : LogOp α) (print : α → String) :
    (onLog folder path operation print).2.SameAs folder := by
  have same := openIn_readOnly_sameAs folder path
  unfold onLog
  rcases opened : openIn folder path readOnlyConfig with ⟨error | log, left⟩
  · rwa [opened] at same
  · rw [opened] at same
    dsimp only
    cases operation log <;> exact same

theorem runVerify_sameAs (request : Request) (path : String) :
    (runVerify request folder path).2.SameAs folder := by
  have same := openIn_readOnly_sameAs folder path
  unfold runVerify
  cases parseShape (request.text? "shape") with
  | error failure => exact .refl folder
  | ok shape =>
    rcases opened : openIn folder path readOnlyConfig with ⟨error | log, left⟩
    · rw [opened] at same
      cases error <;> exact same
    · rw [opened] at same
      dsimp only
      cases verify shape log <;> exact same

theorem runRequest_sameAs (request : Request) : (runRequest request folder).2.SameAs folder := by
  unfold runRequest
  split
  · exact .refl folder
  · exact .refl folder
  · exact onLog_sameAs ..
  · exact runVerify_sameAs ..
  · rw [runDump]
    cases parseShape (request.text? "shape") with
    | error failure => exact .refl folder
    | ok shape => exact onLog_sameAs ..

/-- Whatever a command is given, the folder is as it was. -/
theorem run_sameAs (arguments : List String) : (run folder arguments).2.SameAs folder := by
  unfold run
  split
  · exact .refl folder
  · exact .refl folder
  · exact .refl folder
  · exact runRequest_sameAs _

end Command

/-- A log for reading never touches what it is kept on, and reads as one for writing. -/
theorem readers_leave_site (site : Site) (errands : List Errand) :
    let after := Visit.run errands ⟨site, []⟩
    -- What is found at every path is what was found there.
    after.site.SameAs site ∧
    -- Exactly what has bytes and can be opened for writing is opened for reading.
    (∀ path (config : Config), (∃ log, (after.site.openLog path config.reading).1 = .ok log) ↔
      (∃ medium, site.medium? path = some medium ∧ medium.content ≠ []) ∧
        ∃ log, (site.openLog path config.writing).1 = .ok log) ∧
    (∀ number reader, after.readers[number]? = some reader →
      (∀ now info payload plan, Log.write now info payload (reader.log.underPlan plan) =
        .error .readOnly (reader.log.underPlan plan)) ∧
      (reader.log.ledger = none → ∃ errand ∈ errands, errand.Closes number) ∧
      -- Until it is closed, a handle answers as one for writing that is opened on what was there.
      (reader.log.ledger ≠ none → ∀ (config : Config) twin,
        (site.openLog reader.path config.writing).1 = .ok twin →
        ∀ {Answer : Type} (query : Operation Answer), query.IsQuery → ∀ plan,
          outcome (query.perform (reader.log.underPlan plan)) =
            outcome (query.perform (twin.underPlan plan)))) ∧
    -- Commands leave the folder as it was, and the log that they have opened.
    (∀ folder arguments, (Command.run folder arguments).2.SameAs folder) ∧
    (∀ offsets, Leaves Log.Observed (Command.inspect offsets)) ∧
    (∀ shape, Leaves Log.Observed (Command.verify shape)) ∧
    ∀ shape start limit, Leaves Log.Observed (Command.collect shape start limit) := by
  intro after
  have start : (⟨site, []⟩ : Visit).Undisturbed site :=
    ⟨.refl site, fun reader member => absurd member List.not_mem_nil⟩
  have undisturbed := start.run errands
  refine ⟨undisturbed.kept, fun path config => Site.openLog_reading_succeeds_iff undisturbed.kept,
    fun number reader found => ?_, fun folder arguments => Command.run_sameAs arguments,
    Command.inspect_leaves_observed, Command.verify_leaves_observed, Command.collect_leaves_observed⟩
  have reads := undisturbed.reads reader (List.mem_of_getElem? found)
  refine ⟨fun now info payload plan => Log.write_of_readOnly reads.1, fun closed => ?_,
    fun opened config twin opens Answer query asks plan => reads.answers_as opened opens asks plan⟩
  rcases start.closed_of_run ⟨reader, found, closed⟩ with ⟨_, before, -⟩ | closes
  · cases before
  · exact closes

/-- A handle that is refused a write and closed, none for a missing file, and one that is still open. -/
theorem readers_leave_site_of_folder :
    let ledger : Ledger := ⟨⟨1, 1, 32⟩, ⟨[17]⟩⟩
    let bytes : Bytes := ledger.image [0, 0, 0, 0, 0, 0, 0, 5, 105, 116, 101, 109, 0, 7, 8]
    let folder : Folder := ⟨[["logs"]], [(["logs", "items"], bytes)]⟩
    let errands : List Errand := [.open "logs/items" .standard,
      .operate 0 (.write 6 ⟨5, ⟨1, 2, 3, 4⟩, .replace⟩ (.ofBytes [9])) .never, .operate 0 .close .never,
      .open "logs/missing" .standard, .open "./logs//items" .standard]
    let after := Visit.run errands ⟨.folder folder, []⟩
    after.readers.map (·.log.ledger) = [none, some ledger] ∧ after.site.SameAs (.folder folder) ∧
    ¬ ∃ log, (after.site.openLog "logs/missing" Config.standard.reading).1 = .ok log := by
  intro ledger bytes folder errands after
  obtain ⟨same, opens, -⟩ := readers_leave_site (.folder folder) errands
  have missing : (Site.folder folder).medium? "logs/missing" = none := by decide +kernel
  refine ⟨by decide +kernel, same, fun opened => ?_⟩
  obtain ⟨⟨medium, found, -⟩, -⟩ := (opens "logs/missing" .standard).mp opened
  cases missing.symm.trans found

end AppendLog
