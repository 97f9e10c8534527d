import AppendLog.Proofs.ReadPaths
import AppendLog.Proofs.Verdicts

/-! Windows of a listing.

A window is listed on a walk that is cut off at the limit, and a walk ends by itself behind the first
record that cannot be read. Still a window is a slice of all that the log has to list: whether it can be
listed depends on the records in it and on no others, and what is listed of each of them is what a
window of that record alone lists.
-/

set_option autoImplicit false

namespace AppendLog

namespace Command

variable {shape : Option Shape} {log : Log} {ledger : Ledger}

/-! One entry -/

def entry (shape : Option Shape) (log : Log) (index : Nat) : Except LogError Listing :=
  (log.reading index).map (describe shape)

theorem entry_eq_error {index : Nat} {error : LogError} :
    entry shape log index = .error error ↔ log.reading index = .error error := by
  unfold entry
  cases log.reading index <;> simp [Except.map]

theorem exists_entry {index : Nat} : (∃ listing, entry shape log index = .ok listing) ↔
    ∃ record, log.reading index = .ok record := by
  unfold entry
  cases log.reading index <;> simp [Except.map]

theorem reading_of_entry {index : Nat} {listing : Listing}
    (listed : entry shape log index = .ok listing) :
    log.reading index = .ok listing.record ∧ listing.record.index = index := by
  unfold entry at listed
  cases read : log.reading index with
  | error error =>
    rw [read] at listed
    cases listed
  | ok record =>
    rw [read] at listed
    cases listed
    exact ⟨rfl, Log.index_of_reading read⟩

theorem entries_in_order {indices : List Nat} {listings : List Listing}
    (listed : indices.map (entry shape log) = listings.map .ok) :
    listings.map (·.record.index) = indices ∧
      ∀ listing ∈ listings, entry shape log listing.record.index = .ok listing := by
  induction indices generalizing listings with
  | nil =>
    cases listings with
    | nil => exact ⟨rfl, List.forall_mem_nil _⟩
    | cons => cases listed
  | cons index rest ih =>
    cases listings with
    | nil => cases listed
    | cons listing more =>
      obtain ⟨first, others⟩ := List.cons.inj listed
      have named := (reading_of_entry first).2
      obtain ⟨indices, each⟩ := ih others
      rw [← named] at first
      exact ⟨congrArg₂ List.cons named indices, List.forall_mem_cons.mpr ⟨first, each⟩⟩

/-! Windows -/

def windowStop (total start : Nat) : Option Nat → Nat
  | some limit => min (start + limit) total
  | none => total

theorem windowStop_le (total start : Nat) (limit : Option Nat) : windowStop total start limit ≤ total := by
  cases limit with
  | none => exact Nat.le_refl total
  | some limit => exact Nat.min_le_right _ _

theorem windowStop_sub (held : log.ledger = some ledger) (start : Nat) (limit : Option Nat) :
    windowStop ledger.header.totalRecords start limit - start = Walk.window log start limit := by
  have bound : (Walk.start start).bound log = ledger.header.totalRecords - start := by
    rw [Walk.bound, held]
    rfl
  cases limit with
  | none => exact bound.symm
  | some limit =>
    simp only [windowStop, Walk.window, bound]
    omega

theorem lt_add_windowStop_sub {total start index : Nat} {limit : Option Nat} (behind : start ≤ index) :
    index < start + (windowStop total start limit - start) ↔ index < windowStop total start limit := by
  omega

theorem listAll_map (reads : Nat → Reading) (indices : List Nat) :
    listAll shape (indices.map reads) = indices.mapM fun index => (reads index).map (describe shape) := by
  induction indices with
  | nil => rfl
  | cons index rest ih =>
    rw [List.map_cons, List.mapM_cons, ← ih]
    cases reads index <;> rfl

theorem outcome_collect_eq_mapM (held : log.ledger = some ledger) (steady : log.device.plan.Steady)
    (start : Nat) (limit : Option Nat) : outcome (collect shape start limit log) =
      (List.range' start (windowStop ledger.header.totalRecords start limit - start)).mapM
        (entry shape log) := by
  rw [outcome_collect held steady, listAll_map, windowStop_sub held]
  rfl

theorem outcome_collect_one (held : log.ledger = some ledger) (steady : log.device.plan.Steady)
    {index : Nat} (inside : index < ledger.header.totalRecords) :
    outcome (collect shape index (some 1) log) = (entry shape log index).map fun listing => [listing] := by
  have single : windowStop ledger.header.totalRecords index (some 1) - index = 1 := by
    simp only [windowStop]
    omega
  rw [outcome_collect_eq_mapM held steady, single, List.range'_one, List.mapM_cons, List.mapM_nil]
  cases entry shape log index <;> rfl

/-- What a window of a log of that many records lists. -/
structure ListsWindow (shape : Option Shape) (log : Log) (total start : Nat) (limit : Option Nat) :
    Prop where
  /-- The window can be listed if each record in it can be read, whatever the others are like. -/
  succeeds_iff : (∃ listings, outcome (collect shape start limit log) = .ok listings) ↔
    ∀ index, start ≤ index → index < windowStop total start limit →
      ∃ record, log.reading index = .ok record
  /-- Otherwise the first record in it that cannot be read tells why. -/
  fails_iff : ∀ error, outcome (collect shape start limit log) = .error error ↔
    ∃ index, start ≤ index ∧ index < windowStop total start limit ∧ log.reading index = .error error ∧
      ∀ earlier, start ≤ earlier → earlier < index → ∃ record, log.reading earlier = .ok record
  /-- There is one entry for each record in the window, in order. -/
  indices_eq : ∀ listings, outcome (collect shape start limit log) = .ok listings →
    listings.map (·.record.index) = List.range' start (windowStop total start limit - start)
  /-- Each entry lists the record that is read, and is all that the window of that record lists. -/
  entry_eq : ∀ listings, outcome (collect shape start limit log) = .ok listings →
    ∀ listing ∈ listings, log.reading listing.record.index = .ok listing.record ∧
      outcome (collect shape listing.record.index (some 1) log) = .ok [listing]
  /-- Of a log that can be listed as a whole, the window is cut out of that listing. -/
  slice_eq : ∀ all, outcome (collect shape 0 none log) = .ok all →
    outcome (collect shape start limit log) =
      .ok ((all.drop start).take (windowStop total start limit - start))

theorem lists_window_of_held (held : log.ledger = some ledger) (steady : log.device.plan.Steady)
    (shape : Option Shape) (start : Nat) (limit : Option Nat) :
    ListsWindow shape log ledger.header.totalRecords start limit := by
  have window : outcome (collect shape start limit log) = _ := outcome_collect_eq_mapM held steady start limit
  constructor
  case succeeds_iff =>
    rw [window, exists_mapM_eq_ok]
    simp only [exists_entry, List.mem_range'_1]
    constructor
    · intro each index behind inside
      exact each index ⟨behind, (lt_add_windowStop_sub behind).mpr inside⟩
    · intro each index ⟨behind, inside⟩
      exact each index behind ((lt_add_windowStop_sub behind).mp inside)
  case fails_iff =>
    intro error
    rw [window, mapM_range'_eq_error]
    simp only [entry_eq_error, exists_entry]
    apply exists_congr
    intro index
    apply and_congr_right
    intro behind
    rw [lt_add_windowStop_sub behind]
  case indices_eq =>
    intro listings listed
    rw [window, mapM_eq_ok] at listed
    exact (entries_in_order listed).1
  case entry_eq =>
    intro listings listed listing member
    rw [window, mapM_eq_ok] at listed
    obtain ⟨indices, each⟩ := entries_in_order listed
    have alone := each listing member
    have inside : listing.record.index < ledger.header.totalRecords := by
      have among : listing.record.index ∈ listings.map (·.record.index) := List.mem_map_of_mem member
      rw [indices, List.mem_range'_1, and_congr_right lt_add_windowStop_sub] at among
      exact Nat.lt_of_lt_of_le among.2 (windowStop_le _ _ _)
    rw [outcome_collect_one held steady inside, alone]
    exact ⟨(reading_of_entry alone).1, rfl⟩
  case slice_eq =>
    intro all listed
    rw [outcome_collect_eq_mapM held steady, windowStop, Nat.sub_zero, mapM_eq_ok] at listed
    have cut := congrArg (fun entries => (entries.drop start).take
      (windowStop ledger.header.totalRecords start limit - start)) listed
    simp only [← List.map_drop, ← List.map_take] at cut
    rw [window, mapM_eq_ok, ← cut, List.drop_range', List.take_range'_of_length_ge, Nat.zero_add,
      Nat.mul_one]
    exact Nat.sub_le_sub_right (windowStop_le _ _ _) _

/-- A window is a slice of the whole listing, for every log that opens and whatever has become of its
storage since, as long as the same call always fares the same. -/
theorem collect_lists_window {path : Option String} {config : Config} {start device : Device}
    (opens : Log.openOn path config start = (.ok log, device)) :
    ∃ ledger, log.ledger = some ledger ∧ ∀ storage : Device, storage.plan.Steady →
      ∀ shape start limit,
        ListsWindow shape { log with device := storage } ledger.header.totalRecords start limit := by
  obtain ⟨ledger, -, same⟩ := Log.openOn_eq_ok_iff.mp opens
  have held : log.ledger = some ledger := congrArg Log.ledger same
  refine ⟨ledger, held, fun storage steady shape start limit => ?_⟩
  have stillHeld : Log.ledger { log with device := storage } = some ledger := held
  exact lists_window_of_held stillHeld steady shape start limit

/-- Of three records the second one cannot be read. -/
theorem collect_lists_window_of_damaged :
    let ledger : Ledger := ⟨⟨1, 3, 58⟩, ⟨[17, 31, 44]⟩⟩
    let bytes : Bytes := ledger.image
      [0, 0, 0, 0, 0, 0, 0, 5, 105, 116, 101, 109, 0, 1,
        0, 0, 0, 0, 0, 0, 0, 6, 105, 116, 101, 109, 9,
        0, 0, 0, 0, 0, 0, 0, 7, 105, 116, 101, 109, 0, 1]
    let log : Log := ⟨none, .standard, some ledger,
      ⟨.memory ⟨bytes⟩, .never, [.size, .read, .read, .read, .size]⟩⟩
    Log.openOn none .standard (.sound (.memory ⟨bytes⟩)) = (.ok log, log.device) ∧
    outcome (collect none 0 none log) = .error (.recordRead 1 (.codec (.invalidTag "Op" 9))) ∧
    (∃ listings, outcome (collect none 0 (some 1) log) = .ok listings ∧
      listings.map (·.record.index) = [0]) ∧
    (∃ listings, outcome (collect none 2 (some 9) log) = .ok listings ∧
      listings.map (·.record.index) = [2]) ∧
    outcome (collect none (2 ^ 64 - 1) (some 3) log) = .ok [] := by
  intro ledger bytes log
  have opens : Log.openOn none .standard (.sound (.memory ⟨bytes⟩)) = (.ok log, log.device) := by
    subst log bytes ledger
    rfl
  obtain ⟨_, held, windows⟩ := collect_lists_window opens
  cases held
  have lists (start : Nat) (limit : Option Nat) : ListsWindow none log 3 start limit :=
    windows log.device (fun _ _ _ => rfl) none start limit
  have first : ∃ record, log.reading 0 = .ok record := ⟨_, by subst log bytes ledger; rfl⟩
  have second : log.reading 1 = .error (.recordRead 1 (.codec (.invalidTag "Op" 9))) := by
    subst log bytes ledger
    rfl
  have third : ∃ record, log.reading 2 = .ok record := ⟨_, by subst log bytes ledger; rfl⟩
  refine ⟨opens, ((lists 0 none).fails_iff _).mpr ⟨1, by decide, by decide, second, ?_⟩, ?_, ?_, ?_⟩
  · intro earlier _ before
    obtain rfl : earlier = 0 := Nat.lt_one_iff.mp before
    exact first
  · obtain ⟨listings, listed⟩ := (lists 0 (some 1)).succeeds_iff.mpr fun index _ inside => by
      obtain rfl : index = 0 := Nat.lt_one_iff.mp inside
      exact first
    exact ⟨listings, listed, (lists 0 (some 1)).indices_eq _ listed⟩
  · obtain ⟨listings, listed⟩ := (lists 2 (some 9)).succeeds_iff.mpr fun index behind inside => by
      obtain rfl : index = 2 := Nat.le_antisymm (Nat.le_of_lt_succ inside) behind
      exact third
    exact ⟨listings, listed, (lists 2 (some 9)).indices_eq _ listed⟩
  · obtain ⟨listings, listed⟩ := (lists (2 ^ 64 - 1) (some 3)).succeeds_iff.mpr fun index behind inside =>
      absurd (Nat.lt_of_le_of_lt behind inside) (by decide)
    have nothing := (lists (2 ^ 64 - 1) (some 3)).indices_eq _ listed
    obtain rfl : listings = [] := List.map_eq_nil_iff.mp nothing
    exact listed

end Command

end AppendLog
