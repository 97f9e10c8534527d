import AppendLog.Proofs.Operations

/-! Two runs of one operation.

An operation respects a relation between states if it comes to the same from related states and
leaves related states again, so that nothing it comes to can tell them apart. Whatever opens the
bookkeeping and reads single records in that way does everything else that reads in that way.
Devices mirror each other if their media answer alike and their plans treat further calls alike.
-/

set_option autoImplicit false

namespace AppendLog

/-- From related states the operation comes to the same, and it leaves them related. -/
def Respects {ε σ α : Type} (related : σ → σ → Prop) (operation : EStateM ε σ α) : Prop :=
  ∀ ⦃first second : σ⦄, related first second →
    outcome (operation first) = outcome (operation second) ∧
      related (afterwards (operation first)) (afterwards (operation second))

section Respects

variable {ε ε' σ α β : Type} {related : σ → σ → Prop} {operation : EStateM ε σ α}
  {next : α → EStateM ε σ β}

theorem respects_pure (value : α) : Respects related (pure value : EStateM ε σ α) :=
  fun _ _ alike => ⟨rfl, alike⟩

theorem respects_throw (error : ε) : Respects related (throw error : EStateM ε σ α) :=
  fun _ _ alike => ⟨rfl, alike⟩

theorem Respects.cases (respects : Respects related operation) {first second : σ}
    (alike : related first second) :
    (∃ value one other, operation first = .ok value one ∧ operation second = .ok value other ∧
      related one other) ∨
    ∃ error one other, operation first = .error error one ∧ operation second = .error error other ∧
      related one other := by
  obtain ⟨same, still⟩ := respects alike
  cases ran : operation first with
  | ok value one =>
    cases ran' : operation second with
    | ok value' other =>
      rw [ran, ran'] at same still
      cases same
      exact .inl ⟨value, one, other, rfl, rfl, still⟩
    | error error other =>
      rw [ran, ran'] at same
      cases same
  | error error one =>
    cases ran' : operation second with
    | ok value other =>
      rw [ran, ran'] at same
      cases same
    | error error' other =>
      rw [ran, ran'] at same still
      cases same
      exact .inr ⟨error, one, other, rfl, rfl, still⟩

theorem Respects.bind (first : Respects related operation)
    (second : ∀ value, Respects related (next value)) : Respects related (operation >>= next) := by
  intro one other alike
  -- Either the second operation runs on related states, or both have failed already.
  rcases first.cases alike with ⟨value, one', other', ran, ran', still⟩ | ⟨error, one', other', ran, ran', still⟩
  · rw [bind_of_ok ran, bind_of_ok ran']
    exact second value still
  · rw [bind_of_error ran, bind_of_error ran']
    exact ⟨rfl, still⟩

theorem Respects.adaptExcept (respects : Respects related operation) (rename : ε → ε') :
    Respects related (EStateM.adaptExcept rename operation) := by
  intro one other alike
  rcases respects.cases alike with ⟨value, one', other', ran, ran', still⟩ | ⟨error, one', other', ran, ran', still⟩
  · rw [adaptExcept_of_ok ran, adaptExcept_of_ok ran']
    exact ⟨rfl, still⟩
  · rw [adaptExcept_of_error ran, adaptExcept_of_error ran']
    exact ⟨rfl, still⟩

end Respects

/-! Everything that reads a log -/

namespace Log

variable {related : Log → Log → Prop}

theorem compositional_respects (related : Log → Log → Prop) : Compositional (Respects related) where
  pure := respects_pure
  throw := respects_throw
  bind := Respects.bind

section Bookkeeping

variable (opens : Respects related opened)

include opens

theorem ledger_eq_of_respects {first second : Log} (alike : related first second) :
    first.ledger = second.ledger := by
  obtain ⟨same, -⟩ := opens alike
  cases held : first.ledger with
  | none =>
    cases held' : second.ledger with
    | none => rfl
    | some ledger =>
      rw [opened_of_closed held, opened_eq held'] at same
      cases same
  | some ledger =>
    cases held' : second.ledger with
    | none =>
      rw [opened_eq held, opened_of_closed held'] at same
      cases same
    | some other =>
      rw [opened_eq held, opened_eq held'] at same
      cases same
      rfl

theorem bound_eq_of_respects {first second : Log} (alike : related first second) (walk : Walk) :
    walk.bound first = walk.bound second := by
  rw [Walk.bound, Walk.bound, ledger_eq_of_respects opens alike]

end Bookkeeping

section Walking

variable (opens : Respects related opened) (reads : ∀ index, Respects related (readRaw index))

include opens reads

theorem step_of_respects {first second : Log} (alike : related first second) (walk : Walk) :
    (walk.step first).1 = (walk.step second).1 ∧ related (walk.step first).2 (walk.step second).2 := by
  unfold Walk.step
  rw [bound_eq_of_respects opens alike]
  split
  · exact ⟨rfl, alike⟩
  · rcases (reads walk.next).cases alike with
      ⟨record, one, other, ran, ran', still⟩ | ⟨error, one, other, ran, ran', still⟩
    · simp only [ran, ran', true_and]
      exact still
    · simp only [ran, ran', true_and]
      exact still

theorem take_of_respects {first second : Log} (alike : related first second) (limit : Nat) (walk : Walk) :
    (walk.take limit first).1 = (walk.take limit second).1 ∧
      related (walk.take limit first).2 (walk.take limit second).2 := by
  induction limit generalizing walk first second with
  | zero => exact ⟨rfl, alike⟩
  | succ limit ih =>
    obtain ⟨same, still⟩ := step_of_respects opens reads alike walk
    rcases ran : walk.step first with ⟨reading, middle⟩
    rcases ran' : walk.step second with ⟨reading', middle'⟩
    rw [ran, ran'] at same still
    cases same
    simp only [Walk.take, ran, ran']
    cases reading with
    | none => exact ⟨rfl, still⟩
    | some reading =>
      obtain ⟨more, behind⟩ := ih still reading.2
      exact ⟨congrArg (reading.1 :: ·) more, behind⟩

theorem readings_of_respects {first second : Log} (alike : related first second)
    (limit : Option Nat) (walk : Walk) :
    (walk.readings limit first).1 = (walk.readings limit second).1 ∧
      related (walk.readings limit first).2 (walk.readings limit second).2 := by
  unfold Walk.readings
  rw [bound_eq_of_respects opens alike]
  exact take_of_respects opens reads alike _ walk

theorem respects_iterate (start : Nat) (limit : Option Nat) : Respects related (iterate start limit) := by
  refine ((compositional_respects related).walk opens start).bind fun walk first second alike => ?_
  obtain ⟨same, still⟩ := readings_of_respects opens reads alike limit walk
  exact ⟨congrArg Except.ok same, still⟩

end Walking

end Log

/-! Devices that answer alike -/

/-- Whether a call fails has nothing to do with the calls before it. -/
def FaultPlan.Steady (plan : FaultPlan) : Prop :=
  ∀ calls others call, plan calls call = plan others call

theorem FaultPlan.steady_of_never {plan : FaultPlan} (sound : plan = .never) : plan.Steady := by
  rw [sound]
  exact fun _ _ _ => rfl

/-- What the devices read and measure is the same, and their plans treat further calls alike. -/
structure Device.Mirrors (first second : Device) : Prop where
  reads : ∀ offset length, first.medium.readAt offset length = second.medium.readAt offset length
  sizes : first.medium.size = second.medium.size
  plans : ∀ later call, first.plan (later ++ first.calls) call = second.plan (later ++ second.calls) call

namespace Device

variable {first second : Device}

/-- Devices with the same bytes on them mirror each other under the same plan. -/
theorem mirrors_of_bytes (readable : first.medium.Readable) (readable' : second.medium.Readable)
    (same : first.bytes = second.bytes) (plans : first.plan = second.plan)
    (calls : first.calls = second.calls) : first.Mirrors second where
  reads offset length := by
    have content : first.medium.content = second.medium.content := same
    rw [Medium.readAt_eq readable, Medium.readAt_eq readable', content]
  sizes := by
    rw [readable.1, readable'.1]
    exact congrArg List.length same
  plans later call := by rw [plans, calls]

theorem mirrors_of_steady (steady : first.plan.Steady) (calls : List Call) :
    Mirrors ⟨first.medium, first.plan, calls⟩ first where
  reads _ _ := rfl
  sizes := rfl
  plans _ _ := steady _ _ _

theorem Mirrors.noting (mirrors : first.Mirrors second) (call : Call) :
    (first.noting call).Mirrors (second.noting call) where
  reads := mirrors.reads
  sizes := mirrors.sizes
  plans later next := by
    have same := mirrors.plans (later ++ [call]) next
    rwa [List.append_assoc, List.append_assoc] at same

theorem respects_calling {α : Type} {call : Call} {run : Medium → Except StorageError (α × Medium)}
    (answers : ∀ ⦃first second : Device⦄, first.Mirrors second →
      (run first.medium).map Prod.fst = (run second.medium).map Prod.fst)
    (same : ∀ medium value after, run medium = .ok (value, after) → after = medium) :
    Respects Mirrors (calling call run) := by
  intro first second mirrors
  have faults : first.fault? call = second.fault? call := mirrors.plans [] call
  have answered := answers mirrors
  simp only [calling, faults]
  cases second.fault? call with
  | some fault => exact ⟨rfl, mirrors.noting call⟩
  | none =>
    cases ran : run first.medium with
    | error error =>
      cases ran' : run second.medium with
      | error other =>
        rw [ran, ran'] at answered
        cases answered
        exact ⟨rfl, mirrors.noting call⟩
      | ok other =>
        rw [ran, ran'] at answered
        cases answered
    | ok result =>
      cases ran' : run second.medium with
      | error other =>
        rw [ran, ran'] at answered
        cases answered
      | ok other =>
        obtain ⟨value, after⟩ := result
        obtain ⟨value', after'⟩ := other
        rw [ran, ran'] at answered
        cases answered
        rw [same _ _ _ ran, same _ _ _ ran']
        exact ⟨rfl, mirrors.noting call⟩

theorem respects_readAt (offset length : Nat) : Respects Mirrors (readAt offset length) := by
  apply respects_calling
  · intro first second mirrors
    rw [mirrors.reads]
    cases second.medium.readAt offset length <;> rfl
  · exact fun _ _ _ => Medium.eq_of_reading

theorem respects_size : Respects Mirrors size := by
  apply respects_calling
  · intro first second mirrors
    rw [mirrors.sizes]
    rfl
  · intro medium value after ran
    cases ran
    rfl

end Device

namespace Ledger

theorem respects_run_readAt (step : Step) (offset length : Nat) :
    Respects Device.Mirrors (step.run (Device.readAt offset length)) :=
  (Device.respects_readAt offset length).adaptExcept _

theorem respects_run_size : Respects Device.Mirrors (Step.readSize.run Device.size) :=
  Device.respects_size.adaptExcept _

theorem respects_readRaw (ledger : Ledger) (index : Nat) :
    Respects Device.Mirrors (ledger.readRaw index) := by
  unfold readRaw
  split
  · exact respects_throw _
  · apply Respects.adaptExcept
    unfold loadRecord
    split
    · exact respects_throw _
    · refine (respects_run_readAt _ _ _).bind fun bytes => ?_
      split
      · exact respects_pure _
      · exact respects_throw _

end Ledger

namespace Log

/-- The same bookkeeping, on devices that answer alike. -/
def Mirrors (first second : Log) : Prop :=
  first.ledger = second.ledger ∧ first.device.Mirrors second.device

theorem respects_act {α : Type} {action : Action α} (respects : Respects Device.Mirrors action) :
    Respects Mirrors (act action) := by
  rintro first second ⟨held, mirrors⟩
  rcases respects.cases mirrors with ⟨value, one, other, ran, ran', still⟩ | ⟨error, one, other, ran, ran', still⟩
  · simp only [act, ran, ran']
    exact ⟨rfl, held, still⟩
  · simp only [act, ran, ran']
    exact ⟨rfl, held, still⟩

theorem opened_respects_mirrors : Respects Mirrors opened := by
  rintro first second ⟨held, mirrors⟩
  cases held' : second.ledger with
  | none =>
    rw [opened_of_closed (held.trans held'), opened_of_closed held']
    exact ⟨rfl, held, mirrors⟩
  | some ledger =>
    rw [opened_eq (held.trans held'), opened_eq held']
    exact ⟨rfl, held, mirrors⟩

theorem readRaw_respects_mirrors (index : Nat) : Respects Mirrors (readRaw index) :=
  opened_respects_mirrors.bind fun ledger => respects_act (ledger.respects_readRaw index)

theorem stats_respects_mirrors : Respects Mirrors stats :=
  opened_respects_mirrors.bind fun _ => (respects_act Ledger.respects_run_size).bind fun _ =>
    respects_pure _

/-- No query tells logs apart that mirror each other. -/
theorem query_respects_mirrors {α : Type} {operation : Operation α} (asks : operation.IsQuery) :
    Respects Mirrors operation.perform :=
  (compositional_respects Mirrors).query opened_respects_mirrors readRaw_respects_mirrors
    stats_respects_mirrors (respects_iterate opened_respects_mirrors readRaw_respects_mirrors) asks

end Log

end AppendLog
