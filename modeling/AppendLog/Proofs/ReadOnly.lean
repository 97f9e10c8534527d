import AppendLog.Proofs.Files

/-! Logs that are opened for reading only. -/

set_option autoImplicit false

namespace AppendLog

namespace Log

variable {config : Config}

/-- Whatever fails and whatever is found, opening for reading only changes nothing on the medium. -/
theorem inspects_openLedger (readOnly : config.readOnly = true) : Inspects (openLedger config) := by
  refine (Device.inspects_size.adaptExcept _).bind fun size => ?_
  by_cases empty : size = 0
  · simp only [empty, readOnly, if_true]
    exact fun device => ⟨device.calls, rfl⟩
  · simp only [empty, if_false]
    exact Ledger.inspects_load

theorem openOn_device (path : Option String) (device : Device) :
    (openOn path config device).2 = afterwards (openLedger config device) := by
  unfold openOn
  cases openLedger config device <;> rfl

theorem openOn_readOnly_eq_ok (readOnly : config.readOnly = true) {path : Option String}
    {device after : Device} {log : Log} (opens : openOn path config device = (.ok log, after)) :
    ∃ ledger calls, log = ⟨path, config, some ledger, ⟨device.medium, device.plan, calls⟩⟩ := by
  obtain ⟨ledger, loaded, rfl⟩ := openOn_eq_ok_iff.mp opens
  obtain ⟨calls, left⟩ := inspects_openLedger readOnly device
  rw [loaded] at left
  cases left
  exact ⟨ledger, calls, rfl⟩

theorem openOn_folder (path : Option String) (config : Config) :
    (openOn path config (.sound (.file .ofFolder))).1 = .error (.io .readHeader (.device .isFolder)) := rfl

variable {folder : Folder} {path : String}

theorem openIn_readOnly_of_missing (readOnly : config.readOnly = true) (missing : folder.content? path = none) :
    ∃ error, openIn folder path config = (.error error, folder) := by
  cases located : folder.locate path with
  | file location content =>
    rw [Folder.content?_eq_some.mpr ⟨location, located⟩] at missing
    cases missing
  | free | nowhere => exact ⟨.notFound path, by simp [openIn, Folder.hasPath, located, readOnly]⟩
  | folder =>
    cases exclusive : config.errorIfExists with
    | true => exact ⟨.alreadyExists path, by simp [openIn, Folder.hasPath, located, exclusive]⟩
    | false =>
      obtain ⟨unobjected, -⟩ := Folder.follow_of_locate located (by simp)
      have opened : openFile path config folder = .ok .ofFolder folder := by
        simp [openFile, readOnly, Folder.openReadOnly, unobjected, located, bind, EStateM.bind]
      have content : (openOn (some path) config (.sound (.file .ofFolder))).2.medium.content = [] := by
        obtain ⟨calls, left⟩ := inspects_openLedger readOnly (.sound (.file .ofFolder))
        rw [openOn_device, left]
        rfl
      have same : folder.write path [] = folder := by rw [Folder.write, located]
      exact ⟨.io .readHeader (.device .isFolder), by
        simp [openIn, Folder.hasPath, located, exclusive, opened, openOn_folder, content, same]⟩

theorem sound_of_openIn_readOnly (readOnly : config.readOnly = true) {log : Log}
    (opens : (openIn folder path config).1 = .ok log) :
    ∃ ledger, log.ledger = some ledger ∧ log.device.plan = .never := by
  cases found : folder.content? path with
  | none =>
    obtain ⟨error, refused⟩ := openIn_readOnly_of_missing readOnly found
    rw [refused] at opens
    cases opens
  | some content =>
    cases exclusive : config.errorIfExists with
    | true => simp [openIn, Folder.hasPath_of_content found, exclusive] at opens
    | false =>
      rw [openIn_eq found exclusive] at opens
      obtain ⟨ledger, calls, rfl⟩ := openOn_readOnly_eq_ok readOnly (Prod.ext opens rfl)
      exact ⟨ledger, rfl, rfl⟩

end Log

end AppendLog
