import AppendLog.Log.Walk
import AppendLog.Proofs.Session

/-! The operations on an open log, as data.

A property that is handed on from operations to what is put together from them holds of all queries
if it holds of the few that they are made of. One such property is that an operation only observes
the log: whatever fails, it leaves the log as it is, but for the calls to its storage.
-/

set_option autoImplicit false

namespace AppendLog

namespace Log

def iterate (start : Nat) (limit : Option Nat) : LogOp (List Reading) := do
  let walk ← walk start
  let (readings, after) := walk.readings limit (← get)
  set after
  return readings

end Log

inductive Operation : Type → Type 1 where
  | write (now : Int) (info : Meta) (payload : Encoding) : Operation Nat
  | readRaw (index : Nat) : Operation Record
  | read {α : Type} (decoder : Decoding α) (index : Nat) : Operation (Meta × α)
  | readAll {α : Type} (decoder : Decoding α) : Operation (List (Meta × α))
  | iterate (start : Nat) (limit : Option Nat) : Operation (List Reading)
  | header : Operation Header
  | footer : Operation Footer
  | length : Operation Nat
  | isEmpty : Operation Bool
  | stats : Operation Stats
  | sync : Operation Unit
  | close : Operation Unit

namespace Operation

def perform : {α : Type} → Operation α → LogOp α
  | _, write now info payload => Log.write now info payload
  | _, readRaw index => Log.readRaw index
  | _, read decoder index => Log.read decoder index
  | _, readAll decoder => Log.readAll decoder
  | _, iterate start limit => Log.iterate start limit
  | _, header => Log.header
  | _, footer => Log.footer
  | _, length => Log.length
  | _, isEmpty => Log.isEmpty
  | _, stats => Log.stats
  | _, sync => Log.sync
  | _, close => Log.close

/-- The operation asks for something and is not meant to change anything. -/
def IsQuery {α : Type} : Operation α → Prop
  | write .. | sync | close => False
  | readRaw _ | read .. | readAll _ | iterate .. | header | footer | length | isEmpty | stats => True

def Closes {α : Type} : Operation α → Prop
  | close => True
  | _ => False

end Operation

namespace Log

theorem opened_eq {log : Log} {ledger : Ledger} (held : log.ledger = some ledger) :
    opened log = .ok ledger log := by
  simp only [opened, bind, EStateM.bind, run_get, held, run_pure]

theorem opened_eq_ok {log after : Log} {ledger : Ledger} :
    opened log = .ok ledger after ↔ log.ledger = some ledger ∧ after = log := by
  cases held : log.ledger with
  | none => simp [opened, bind, EStateM.bind, held]
  | some found => simp [opened_eq held, eq_comm]

theorem opened_of_closed {log : Log} (closed : log.ledger = none) :
    opened log = .error .closed log := by
  simp only [opened, bind, EStateM.bind, run_get, closed, run_throw]

/-! Properties of operations -/

/-- What is put together from operations with the property has it as well. -/
structure Compositional (holds : {α : Type} → LogOp α → Prop) : Prop where
  pure : ∀ {α : Type} (value : α), holds (Pure.pure value : LogOp α)
  throw : ∀ {α : Type} (error : LogError), holds (MonadExcept.throw error : LogOp α)
  bind : ∀ {α β : Type} {operation : LogOp α} {next : α → LogOp β},
    holds operation → (∀ value, holds (next value)) → holds (operation >>= next)

namespace Compositional

variable {holds : {α : Type} → LogOp α → Prop} {α : Type} (rules : Compositional holds)

section Reading

variable (reads : ∀ index, holds (readRaw index)) (decoder : Decoding α)

include rules reads

theorem read (index : Nat) : holds (Log.read decoder index) := by
  refine rules.bind (reads index) fun record => ?_
  -- Whether a record can be decoded is a matter of its data alone.
  split
  · exact rules.pure _
  · exact rules.throw _

theorem readMany (count index : Nat) : holds (Log.readMany decoder count index) := by
  induction count generalizing index with
  | zero => exact rules.pure []
  | succ count ih =>
    exact rules.bind (rules.read reads decoder index) fun first =>
      rules.bind (ih (index + 1)) fun rest => rules.pure _

theorem readAll (opens : holds opened) : holds (Log.readAll decoder) :=
  rules.bind opens fun ledger => rules.readMany reads decoder ledger.header.totalRecords 0

end Reading

include rules

theorem walk (opens : holds opened) (index : Nat) : holds (Log.walk index) :=
  rules.bind opens fun _ => rules.pure _

theorem query (opens : holds opened) (reads : ∀ index, holds (readRaw index)) (counts : holds stats)
    (walks : ∀ start limit, holds (iterate start limit)) {operation : Operation α}
    (asks : operation.IsQuery) : holds operation.perform := by
  cases operation with
  | write | sync | close => cases asks
  | readRaw index => exact reads index
  | read decoder index => exact rules.read reads decoder index
  | readAll decoder => exact rules.readAll reads decoder opens
  | iterate start limit => exact walks start limit
  | header | footer | length => exact rules.bind opens fun _ => rules.pure _
  | isEmpty => exact rules.bind (rules.bind opens fun _ => rules.pure _) fun _ => rules.pure _
  | stats => exact counts

end Compositional

/-! Observing -/

/-- But for the calls to its storage, the log is left as it was. -/
def Observed (log after : Log) : Prop :=
  ∃ calls, after = { log with device := ⟨log.device.medium, log.device.plan, calls⟩ }

theorem observed_refl (log : Log) : log.Observed log := ⟨log.device.calls, rfl⟩

theorem Observed.trans {log middle after : Log} (first : log.Observed middle)
    (second : middle.Observed after) : log.Observed after := by
  obtain ⟨_, rfl⟩ := first
  obtain ⟨calls, rfl⟩ := second
  exact ⟨calls, rfl⟩

theorem compositional_observed : Compositional (Leaves Observed) where
  pure := leaves_pure observed_refl
  throw := leaves_throw observed_refl
  bind := Leaves.bind Observed.trans

theorem act_leaves_observed {α : Type} {action : Action α} (inspects : Inspects action) :
    Leaves Observed (act action) := by
  intro log
  obtain ⟨calls, left⟩ := inspects log.device
  refine ⟨calls, ?_⟩
  rw [← left]
  simp only [act]
  cases action log.device <;> rfl

theorem opened_leaves_observed : Leaves Observed opened := by
  intro log
  cases held : log.ledger with
  | none =>
    rw [opened_of_closed held]
    exact observed_refl log
  | some ledger =>
    rw [opened_eq held]
    exact observed_refl log

theorem stats_leaves_observed : Leaves Observed stats :=
  compositional_observed.bind opened_leaves_observed fun _ => compositional_observed.bind
    (act_leaves_observed (Device.inspects_size.adaptExcept _)) fun _ => compositional_observed.pure _

theorem observed_step (walk : Walk) (log : Log) : log.Observed (walk.step log).2 := by
  unfold Walk.step
  split
  · exact observed_refl log
  · have left := log.afterwards_readRaw walk.next
    cases ran : readRaw walk.next log <;> rwa [ran] at left

theorem observed_take (limit : Nat) (walk : Walk) (log : Log) : log.Observed (walk.take limit log).2 := by
  induction limit generalizing walk log with
  | zero => exact observed_refl log
  | succ limit ih =>
    have first := observed_step walk log
    rw [Walk.take]
    rcases ran : walk.step log with ⟨reading, middle⟩
    rw [ran] at first
    cases reading with
    | none => exact first
    | some reading => exact first.trans (ih reading.2 middle)

theorem observed_readings (limit : Option Nat) (walk : Walk) (log : Log) :
    log.Observed (walk.readings limit log).2 := observed_take _ walk log

theorem iterate_leaves_observed (start : Nat) (limit : Option Nat) :
    Leaves Observed (iterate start limit) := by
  refine compositional_observed.bind (compositional_observed.walk opened_leaves_observed start)
    fun walk log => ?_
  exact observed_readings limit walk log

theorem readRaw_leaves_observed (index : Nat) : Leaves Observed (readRaw index) :=
  fun log => log.afterwards_readRaw index

/-- Whatever fails, a query changes nothing. -/
theorem query_leaves_observed {α : Type} {operation : Operation α} (asks : operation.IsQuery) :
    Leaves Observed operation.perform :=
  compositional_observed.query opened_leaves_observed readRaw_leaves_observed stats_leaves_observed
    iterate_leaves_observed asks

theorem sync_leaves_observed : Leaves Observed sync := by
  refine compositional_observed.bind opened_leaves_observed fun _ log => ?_
  cases readOnly : log.config.readOnly with
  | true =>
    simp only [bind, EStateM.bind, run_get, readOnly]
    exact observed_refl log
  | false =>
    simp only [bind, EStateM.bind, run_get, readOnly]
    exact act_leaves_observed (Device.inspects_sync.adaptExcept _) log

end Log

end AppendLog
