import AppendLog.Proofs.CrashStates
import AppendLog.Proofs.Reached
import AppendLog.Proofs.Rollback

/-! What is left when one storage call fails.

A commit that fails has met the failing call, so the calls that undo it succeed, and the log is
on its medium again: `Ledger.commit_undone`. The creation of a log is not undone, and leaves a first
part of the log. Opening a log that is there, reading and closing leave the medium as it is.
-/

set_option autoImplicit false

namespace AppendLog

/-- Once a call has failed, all the later ones succeed. -/
def FaultPlan.FailsOnce (plan : FaultPlan) : Prop :=
  ∀ earlier call, plan earlier call ≠ none →
    ∀ between later, plan (between ++ call :: earlier) later = none

/-- One of the calls has failed. -/
def FaultPlan.Spent (plan : FaultPlan) (calls : List Call) : Prop :=
  ∃ between call earlier, calls = between ++ call :: earlier ∧ plan earlier call ≠ none

section FailsOnce

variable {plan : FaultPlan} {calls : List Call}

theorem FaultPlan.failsOnce_never : FaultPlan.never.FailsOnce := fun _ _ failed => absurd rfl failed

theorem FaultPlan.failsOnce_tearing (earlier kept : Nat) : (FaultPlan.tearing earlier kept).FailsOnce := by
  intro before call failed between later
  simp only [tearing, ne_eq, ite_eq_right_iff, reduceCtorEq, imp_false, Classical.not_not] at failed ⊢
  obtain ⟨isWrite, rfl⟩ := failed
  -- The torn write is among the earlier ones from then on.
  rintro ⟨-, same⟩
  rw [List.countP_append, List.countP_cons_of_pos isWrite] at same
  omega

theorem FaultPlan.Spent.cons (spent : plan.Spent calls) (call : Call) : plan.Spent (call :: calls) := by
  obtain ⟨between, failing, earlier, rfl, failed⟩ := spent
  exact ⟨call :: between, failing, earlier, rfl, failed⟩

theorem FaultPlan.FailsOnce.eq_none (once : plan.FailsOnce) (spent : plan.Spent calls) (call : Call) :
    plan calls call = none := by
  obtain ⟨between, failing, earlier, rfl, failed⟩ := spent
  exact once earlier failing failed between call

theorem Script.halt?_of_spent (once : plan.FailsOnce) (spent : plan.Spent calls) (script : Script) :
    script.halt? plan calls = none := by
  induction script generalizing calls with
  | nil => rfl
  | cons head rest ih =>
    obtain ⟨step, stroke⟩ := head
    rw [halt?, once.eq_none spent]
    exact ih (spent.cons stroke.call)

theorem Script.perform_eq_error {script : Script} {device after : Device} {error : LogError}
    {reach : Nat} (changeable : device.medium.Changeable) (inside : script.Inside reach)
    (reaches : device.medium.Reaches reach) (failed : script.perform device = .error error after) :
    device.plan.Spent after.calls := by
  induction script generalizing device reach with
  | nil => cases failed
  | cons head rest ih =>
    obtain ⟨step, stroke⟩ := head
    cases faulty : device.plan device.calls stroke.call with
    | some fault =>
      rw [perform, bind_of_error (Stroke.run_of_fault changeable step inside.1 reaches faulty)] at failed
      cases failed
      exact ⟨[], stroke.call, device.calls, rfl, by rw [faulty]; exact Option.some_ne_none _⟩
    | none =>
      rw [perform, bind_of_ok (Stroke.run_of_sound changeable step inside.1 reaches faulty)] at failed
      have spent := ih ((Medium.akin_knowing _ _ _).changeable changeable) inside.2
        (Stroke.reaches_effect inside.1 reaches) failed
      exact spent

theorem Script.Stops.mem {script : Script} {medium left : Medium} {step : Step} {fault : Fault}
    (stops : script.Stops medium step fault left) : step ∈ script.map Prod.fst := by
  induction stops with
  | here step stroke rest medium fault => exact List.mem_cons_self
  | later _ ih => exact List.mem_cons_of_mem _ ih

end FailsOnce

namespace Ledger

variable {ledger found : Ledger} {device after : Device} {info data bytes : Bytes}

/-- A commit in which only one call fails puts its log back onto the medium, and the error is that
of a step of the commit. -/
theorem commit_undone (once : device.plan.FailsOnce) (changeable : device.medium.Changeable)
    (room : Header.width ≤ ledger.header.footerOffset) (width : info.length = Meta.width) {body : Bytes}
    (carries : device.medium.Carries body ledger.header.footerOffset) {error : LogError}
    (failed : ledger.commit info data device = .error error after) :
    Log.FailedCommit error ∧ ∃ left calls, device.medium.Akin left ∧
      after = ⟨ledger.onto body left, device.plan, calls⟩ := by
  cases halts : (ledger.commitScript info data device.medium.size).halt? device.plan device.calls with
  | none =>
    obtain ⟨calls, committed⟩ := commit_of_sound data changeable room carries.reaches width halts
    rw [failed] at committed
    cases committed
  | some halt =>
    obtain ⟨step, fault⟩ := halt
    have inside := ledger.commitScript_inside data width device.medium.size
    obtain ⟨left, calls, stops, recorded, committed⟩ :=
      commit_of_halt changeable carries.reaches width halts
    rw [failed] at committed
    cases committed
    have uncommitted : step ≠ .sync ∧ step ≠ .flush := by
      have named := stops.mem
      simp only [commitScript, recordScript, trimScript, List.map_append, List.map_cons,
        List.map_nil] at named
      constructor <;> rintro rfl <;> split at named <;> simp at named
    refine ⟨by simpa [Log.FailedCommit, LogError.step?] using uncommitted, left, ?_⟩
    have kept := stops.keeps inside carries.reaches (ledger.commitScript_keeps info data _ body) carries
    have still := stops.akin.changeable changeable
    -- The one failing call has been met, so rolling back comes to its end.
    rw [writeRecord_eq changeable carries.reaches width] at recorded
    have spent := Script.perform_eq_error changeable inside carries.reaches recorded
    obtain ⟨calls, restored⟩ := Script.perform_of_sound ⟨left, device.plan, calls⟩ still
      (restoreScript_inside room _) kept.reaches (Script.halt?_of_spent once spent (ledger.restoreScript _))
    refine ⟨calls, stops.akin, ?_⟩
    rw [rollBack_eq, restore_eq still room kept.reaches, restored, afterwards,
      restoreScript_effect room kept.reaches, kept.records.same]

theorem WellFormed.eq_of_liesIn (formed : ledger.WellFormed) (lies : ledger.LiesIn bytes)
    (foundFormed : found.WellFormed) (foundLies : found.LiesIn bytes) : found = ledger := by
  have readable : (Device.sound (.memory ⟨bytes⟩)).medium.Readable :=
    (Medium.writable_memory ⟨bytes⟩).readable
  obtain ⟨_, one⟩ := load_of_liesIn (.sound (.memory ⟨bytes⟩)) readable rfl formed lies
  obtain ⟨_, other⟩ := load_of_liesIn (.sound (.memory ⟨bytes⟩)) readable rfl foundFormed foundLies
  rw [one] at other
  cases other
  rfl

theorem Fits.fresh_stop_le (fits : ledger.Fits) : fresh.stop ≤ ledger.stop :=
  Nat.add_le_add fits.room (Nat.le_add_right _ _)

/-- Whatever stops the creation of a log, what has been stored is a first part of the log. -/
theorem leaves_createScript_isPrefix (plan : FaultPlan) (calls : List Call) :
    createScript.leaves plan calls [] <+: fresh.image [] := by
  have header (fault : Fault) := fault.landed_isPrefix fresh.header.bytes
  have footer (fault : Fault) := fault.landed_isPrefix fresh.footer.bytes
  have behind (part : Bytes) : Bytes.overlay fresh.header.bytes fresh.header.footerOffset part =
      fresh.header.bytes ++ part := by
    have appended := Bytes.overlay_append fresh.header.length_bytes [] part
    rwa [List.append_nil, List.drop_nil, List.append_nil] at appended
  have image : fresh.image [] = fresh.header.bytes ++ fresh.footer.bytes := by
    rw [Ledger.image, List.append_nil]
  simp only [createScript, Script.leaves, Stroke.apply, Stroke.applyTorn, Bytes.overlay_zero,
    List.drop_nil, List.append_nil, behind, image]
  split
  · exact (header _).trans (List.prefix_append _ _)
  split
  · exact (List.prefix_append_right_inj _).mpr (footer _)
  split <;> exact List.prefix_rfl

theorem afterwards_create (writable : device.medium.Writable) (empty : device.bytes = []) :
    (afterwards (create device)).bytes <+: fresh.image [] := by
  obtain ⟨left, calls, content, stopped⟩ := Script.afterwards_perform device writable.2
    createScript_inside device.medium.reaches_zero
  -- What is returned when the script has come to its end changes nothing.
  have created : afterwards (create device) = afterwards (createScript.perform device) := by
    rw [create_eq]
    simp only [bind, EStateM.bind]
    cases createScript.perform device <;> rfl
  rw [created, stopped, Device.bytes, content, empty]
  exact leaves_createScript_isPrefix _ _

end Ledger

namespace Log

variable {config : Config} {device : Device}

theorem afterwards_openLedger (config : Config) (readable : device.medium.Readable)
    (nonempty : device.bytes ≠ []) :
    ∃ calls, afterwards (openLedger config device) = ⟨device.medium, device.plan, calls⟩ := by
  have loads : openLedger config device =
      (Step.readSize.run Device.size >>= fun _ => Ledger.load) device := by
    cases measured : Step.readSize.run Device.size device with
    | error error middle => rw [openLedger, bind_of_error measured, bind_of_error measured]
    | ok size middle =>
      obtain ⟨-, rfl, rfl⟩ := (Device.run_size_eq_ok .readSize readable).mp measured
      rw [openLedger, bind_of_ok measured, bind_of_ok measured,
        if_neg fun none => nonempty (List.length_eq_zero_iff.mp none)]
  rw [loads]
  exact ((Device.inspects_size.adaptExcept _).bind fun _ => Ledger.inspects_load) device

/-- Opening an empty medium leaves a first part of a log without records, whatever fails. -/
theorem afterwards_openLedger_of_empty (readable : device.medium.Readable)
    (writable : config.readOnly = false → device.medium.Writable) (empty : device.bytes = []) :
    (afterwards (openLedger config device)).bytes <+: Ledger.fresh.image [] := by
  have nothing : device.bytes <+: Ledger.fresh.image [] := empty ▸ List.nil_prefix
  cases measured : Step.readSize.run Device.size device with
  | error error middle =>
    obtain ⟨calls, left⟩ := Device.inspects_size.adaptExcept (LogError.io .readSize) device
    rw [show EStateM.adaptExcept (LogError.io .readSize) Device.size device = _ from measured,
      afterwards] at left
    rw [openLedger, bind_of_error measured, afterwards, left]
    exact nothing
  | ok size middle =>
    obtain ⟨-, rfl, rfl⟩ := (Device.run_size_eq_ok .readSize readable).mp measured
    rw [openLedger, bind_of_ok measured, empty]
    cases readOnly : config.readOnly with
    | true => exact nothing
    | false => exact Ledger.afterwards_create (writable readOnly) empty

end Log

end AppendLog
