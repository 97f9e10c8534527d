import AppendLog.Proofs.ReadOnly

/-! The place where logs are kept.

A log is kept in a memory or in a file of a folder. In both, what is there is opened exactly if a ledger
lies in its bytes, for reading as for writing, and opening for reading leaves the place as it is.
-/

set_option autoImplicit false

namespace AppendLog

namespace Config

def reading (config : Config) : Config := { config with readOnly := true }

def writing (config : Config) : Config := { config with readOnly := false }

theorem readOnly_reading (config : Config) : config.reading.readOnly = true := rfl

end Config

/-- Where logs are kept: in a memory, which has the same log at every path, or in the files of a folder. -/
inductive Site where
  | memory (memory : Memory)
  | folder (folder : Folder)

namespace Site

def medium? (path : String) : Site → Option Medium
  | memory m => some (.memory m)
  | folder f => (f.content? path).map fun content => .file (.ofContent content .readWrite)

def keeping (path : String) (medium : Medium) : Site → Site
  | memory _ => memory ⟨medium.content⟩
  | folder f => folder (f.write path medium.content)

def openLog (path : String) (config : Config) : Site → Except LogError Log × Site
  | memory m =>
    let (result, device) := Log.openOn none config (.sound (.memory m))
    (result, memory ⟨device.medium.content⟩)
  | folder f =>
    let (result, after) := Log.openIn f path config
    (result, folder after)

/-- The same bytes are in memory, or the same is found at every path. -/
inductive SameAs : Site → Site → Prop where
  | memory (m : Memory) : SameAs (memory m) (memory m)
  | folder {first second : Folder} : first.SameAs second → SameAs (folder first) (folder second)

variable {site other third : Site} {path : String} {medium : Medium} {config : Config}

theorem SameAs.refl (site : Site) : site.SameAs site := by
  cases site with
  | memory m => exact .memory m
  | folder f => exact .folder (.refl f)

theorem SameAs.trans (first : site.SameAs other) (second : other.SameAs third) : site.SameAs third := by
  cases first with
  | memory m => exact second
  | folder first =>
    cases second with
    | folder second => exact .folder (first.trans second)

theorem SameAs.medium? (same : site.SameAs other) (path : String) : site.medium? path = other.medium? path := by
  cases same with
  | memory m => rfl
  | folder same => simp only [Site.medium?, Folder.content?, same.locate path]

theorem keeping_sameAs (found : site.medium? path = some medium) {left : Medium}
    (same : left.content = medium.content) : (site.keeping path left).SameAs site := by
  cases site with
  | memory m =>
    cases found
    rw [keeping, same]
    exact .memory m
  | folder f =>
    obtain ⟨content, held, rfl⟩ := Option.map_eq_some_iff.mp found
    rw [keeping, same]
    exact .folder (Folder.write_sameAs held)

/-! Opening -/

/-- No rule of the configuration is against opening what is there. -/
def Admits (config : Config) : Site → Prop
  | memory _ => True
  | folder _ => config.errorIfExists = false

theorem SameAs.admits_iff (same : site.SameAs other) :
    site.Admits config.reading ↔ other.Admits config.writing := by
  cases same <;> exact Iff.rfl

theorem openLog_eq (found : site.medium? path = some medium) (admits : site.Admits config) :
    ∃ name, site.openLog path config =
      ((Log.openOn name config (.sound (medium.reopened config.readOnly))).1, site.keeping path
        (Log.openOn name config (.sound (medium.reopened config.readOnly))).2.medium) := by
  cases site with
  | memory m =>
    cases found
    exact ⟨none, rfl⟩
  | folder f =>
    obtain ⟨content, held, rfl⟩ := Option.map_eq_some_iff.mp found
    exact ⟨some path, by rw [openLog, Log.openIn_eq held admits]; rfl⟩

theorem openLog_of_not_admits (found : site.medium? path = some medium) (forbidden : ¬ site.Admits config) :
    ∃ error, site.openLog path config = (.error error, site) := by
  cases site with
  | memory m => exact absurd trivial forbidden
  | folder f =>
    obtain ⟨content, held, -⟩ := Option.map_eq_some_iff.mp found
    have exclusive : config.errorIfExists = true := by simpa [Admits] using forbidden
    exact ⟨.alreadyExists path, by simp [openLog, Log.openIn, Folder.hasPath_of_content held, exclusive]⟩

theorem openLog_of_missing (missing : site.medium? path = none) (readOnly : config.readOnly = true) :
    ∃ error, site.openLog path config = (.error error, site) := by
  cases site with
  | memory m => cases missing
  | folder f =>
    have none : f.content? path = none := Option.map_eq_none_iff.mp missing
    obtain ⟨error, refused⟩ := Log.openIn_readOnly_of_missing readOnly none
    exact ⟨error, by rw [openLog, refused]⟩

theorem admits_of_openLog (found : site.medium? path = some medium) {log : Log}
    (opens : (site.openLog path config).1 = .ok log) : site.Admits config := by
  by_cases admits : site.Admits config
  · exact admits
  · obtain ⟨error, refused⟩ := openLog_of_not_admits found admits
    rw [refused] at opens
    cases opens

theorem openLog_eq_ok (found : site.medium? path = some medium) (nonempty : medium.content ≠ []) {log : Log}
    (opens : (site.openLog path config).1 = .ok log) :
    ∃ ledger, log.ledger = some ledger ∧ ledger.WellFormed ∧ ledger.LiesIn medium.content ∧
      log.device.medium = medium.reopened config.readOnly := by
  obtain ⟨name, opened⟩ := openLog_eq found (admits_of_openLog found opens)
  rw [opened] at opens
  obtain ⟨ledger, held, formed, lies, onMedium, -⟩ := Log.openOn_eq_ok nonempty (Prod.ext opens rfl)
  exact ⟨ledger, held, formed, lies, onMedium⟩

theorem openLog_succeeds_iff (found : site.medium? path = some medium) (nonempty : medium.content ≠ []) :
    (∃ log, (site.openLog path config).1 = .ok log) ↔
      site.Admits config ∧ ∃ ledger : Ledger, ledger.WellFormed ∧ ledger.LiesIn medium.content := by
  constructor
  · rintro ⟨log, opens⟩
    obtain ⟨ledger, -, formed, lies, -⟩ := openLog_eq_ok found nonempty opens
    exact ⟨admits_of_openLog found opens, ledger, formed, lies⟩
  · rintro ⟨admits, ledger, formed, lies⟩
    obtain ⟨name, opened⟩ := openLog_eq found admits
    obtain ⟨calls, opens⟩ := Log.openOn_of_liesIn name config medium formed lies
    rw [opened, opens]
    exact ⟨_, rfl⟩

theorem openLog_sameAs (readOnly : config.readOnly = true) (path : String) (site : Site) :
    (site.openLog path config).2.SameAs site := by
  cases found : site.medium? path with
  | none =>
    obtain ⟨error, refused⟩ := openLog_of_missing found readOnly
    rw [refused]
    exact .refl site
  | some medium =>
    by_cases admits : site.Admits config
    · obtain ⟨name, opened⟩ := openLog_eq found admits
      obtain ⟨calls, left⟩ := Log.inspects_openLedger readOnly (.sound (medium.reopened config.readOnly))
      rw [opened, Log.openOn_device, left]
      exact keeping_sameAs found (Medium.content_reopened _ _)
    · obtain ⟨error, refused⟩ := openLog_of_not_admits found admits
      rw [refused]
      exact .refl site

theorem openLog_readOnly_eq_ok (readOnly : config.readOnly = true) {log : Log}
    (opens : (site.openLog path config).1 = .ok log) :
    ∃ medium ledger, site.medium? path = some medium ∧ medium.content ≠ [] ∧
      log.device.medium = medium.reopened true ∧ log.config = config ∧ log.ledger = some ledger ∧
        ledger.WellFormed ∧ ledger.LiesIn medium.content := by
  cases found : site.medium? path with
  | none =>
    obtain ⟨error, refused⟩ := openLog_of_missing found readOnly
    rw [refused] at opens
    cases opens
  | some medium =>
    obtain ⟨name, opened⟩ := openLog_eq found (admits_of_openLog found opens)
    have nonempty : medium.content ≠ [] := by
      intro empty
      have refused := Log.openLedger_of_empty_readOnly (.sound (medium.reopened config.readOnly))
        (Medium.readable_reopened _ _) ((Medium.content_reopened _ _).trans empty) rfl readOnly
      rw [opened, Log.openOn, refused] at opens
      cases opens
    obtain ⟨ledger, held, formed, lies, onMedium⟩ := openLog_eq_ok found nonempty opens
    rw [opened] at opens
    obtain ⟨_, _, rfl⟩ := Log.openOn_readOnly_eq_ok readOnly (Prod.ext opens rfl)
    exact ⟨medium, ledger, rfl, nonempty, readOnly ▸ onMedium, rfl, held, formed, lies⟩

theorem openLog_reading_succeeds_iff (same : site.SameAs other) :
    (∃ log, (site.openLog path config.reading).1 = .ok log) ↔
      (∃ medium, other.medium? path = some medium ∧ medium.content ≠ []) ∧
        ∃ log, (other.openLog path config.writing).1 = .ok log := by
  constructor
  · rintro ⟨log, opens⟩
    obtain ⟨medium, ledger, found, nonempty, -, -, -, formed, lies⟩ :=
      openLog_readOnly_eq_ok config.readOnly_reading opens
    have there := (same.medium? path).symm.trans found
    refine ⟨⟨medium, there, nonempty⟩, (openLog_succeeds_iff there nonempty).mpr ⟨?_, ledger, formed, lies⟩⟩
    exact same.admits_iff.mp (admits_of_openLog found opens)
  · rintro ⟨⟨medium, there, nonempty⟩, opens⟩
    obtain ⟨admits, held⟩ := (openLog_succeeds_iff there nonempty).mp opens
    exact (openLog_succeeds_iff ((same.medium? path).trans there) nonempty).mpr
      ⟨same.admits_iff.mpr admits, held⟩

end Site

end AppendLog
