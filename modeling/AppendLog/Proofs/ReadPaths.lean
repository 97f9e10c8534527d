import AppendLog.Proofs.Walking

/-! The ways to read the records of a log.

Records are read one by one, all at once, decoded or not, and on a walk. Each way deals with what it
cannot read by itself: a walk latches, and reading all records gives up. On a log whose storage is
steady they nevertheless agree on every record, since none of them changes what another one reads.
-/

set_option autoImplicit false

namespace AppendLog

/-! Lists of operations that may fail -/

section mapM

variable {ε α β : Type} {f : β → Except ε α}

theorem mapM_cons_eq_ok {item : β} {rest : List β} {values : List α} :
    (item :: rest).mapM f = .ok values ↔
      ∃ value more, f item = .ok value ∧ rest.mapM f = .ok more ∧ value :: more = values := by
  rw [List.mapM_cons]
  cases f item with
  | error error => simp [bind, Except.bind]
  | ok value => cases rest.mapM f <;> simp [bind, Except.bind, pure, Except.pure]

theorem mapM_cons_eq_error {item : β} {rest : List β} {error : ε} :
    (item :: rest).mapM f = .error error ↔
      f item = .error error ∨ (∃ value, f item = .ok value) ∧ rest.mapM f = .error error := by
  rw [List.mapM_cons]
  cases f item with
  | error error => simp [bind, Except.bind]
  | ok value => cases rest.mapM f <;> simp [bind, Except.bind, pure, Except.pure]

theorem mapM_eq_ok {items : List β} {values : List α} :
    items.mapM f = .ok values ↔ items.map f = values.map .ok := by
  induction items generalizing values with
  | nil => cases values <;> simp [pure, Except.pure]
  | cons item rest ih =>
    rw [mapM_cons_eq_ok]
    cases values with
    | nil => simp
    | cons value more => simp [ih]

theorem exists_mapM_eq_ok {items : List β} :
    (∃ values, items.mapM f = .ok values) ↔ ∀ item ∈ items, ∃ value, f item = .ok value := by
  induction items with
  | nil => exact iff_of_true ⟨[], rfl⟩ (List.forall_mem_nil _)
  | cons item rest ih =>
    rw [List.forall_mem_cons, ← ih]
    simp only [mapM_cons_eq_ok]
    constructor
    · intro ⟨_, value, more, first, others, _⟩
      exact ⟨⟨value, first⟩, more, others⟩
    · intro ⟨⟨value, first⟩, more, others⟩
      exact ⟨_, value, more, first, others, rfl⟩

theorem mapM_range'_eq_error {f : Nat → Except ε α} {error : ε} (start count : Nat) :
    (List.range' start count).mapM f = .error error ↔
      ∃ index, start ≤ index ∧ index < start + count ∧ f index = .error error ∧
        ∀ earlier, start ≤ earlier → earlier < index → ∃ value, f earlier = .ok value := by
  induction count generalizing start with
  | zero =>
    refine iff_of_false (fun impossible => by cases impossible) ?_
    rintro ⟨index, low, high, -⟩
    exact absurd high (Nat.not_lt.mpr low)
  | succ count ih =>
    rw [List.range'_succ, mapM_cons_eq_error, ih]
    constructor
    · rintro (first | ⟨first, index, low, high, fails, before⟩)
      · exact ⟨start, Nat.le_refl _, by omega, first, by omega⟩
      · refine ⟨index, by omega, by omega, fails, fun earlier low' high' => ?_⟩
        rcases Nat.eq_or_lt_of_le low' with rfl | behind
        · exact first
        · exact before earlier behind high'
    · rintro ⟨index, low, high, fails, before⟩
      rcases Nat.eq_or_lt_of_le low with rfl | behind
      · exact .inl fails
      · exact .inr ⟨before start (Nat.le_refl _) behind, index, behind, by omega, fails,
          fun earlier low' => before earlier (Nat.le_of_succ_le low')⟩

end mapM

/-! Walks -/

namespace Walk

theorem upToError_take (readings : List Reading) (limit : Nat) :
    upToError (readings.take limit) = (upToError readings).take limit := by
  induction readings generalizing limit with
  | nil => rw [List.take_nil, upToError, List.take_nil]
  | cons reading rest ih =>
    cases limit with
    | zero => rfl
    | succ limit =>
      cases reading with
      | error error => rw [List.take_succ_cons, upToError, upToError, List.take_succ_cons, List.take_nil]
      | ok record => rw [List.take_succ_cons, upToError, upToError, List.take_succ_cons, ih]

theorem take_eq_take_of_steady {log : Log} (steady : log.device.plan.Steady) (limit next : Nat) :
    ((start next).take limit log).1 =
      (upToError ((List.range' next ((start next).bound log)).map log.reading)).take limit := by
  rw [take_of_steady steady, ← upToError_take, ← List.map_take]
  rcases Nat.le_total limit ((start next).bound log) with short | long
  · rw [Nat.min_eq_left short, List.take_range'_of_length_ge short]
  · rw [Nat.min_eq_right long, List.take_range'_of_length_le long]

theorem next_of_step {walk next : Walk} {log after : Log} {reading : Reading}
    (stepped : walk.step log = (some (reading, next), after)) :
    walk.bound log ≠ 0 ∧ next.next = walk.next + 1 := by
  unfold step at stepped
  split at stepped
  · cases stepped
  · case isFalse going =>
    rw [Bool.or_eq_true, beq_iff_eq, not_or] at going
    refine ⟨going.2, ?_⟩
    cases ran : Log.readRaw walk.next log with
    | ok record stop =>
      rw [ran] at stepped
      cases stepped
      rfl
    | error error stop =>
      rw [ran] at stepped
      cases stepped
      rfl

theorem bound_of_step {walk next : Walk} {log after : Log} {reading : Reading}
    (stepped : walk.step log = (some (reading, next), after)) :
    next.bound after + 1 = walk.bound log := by
  obtain ⟨going, moved⟩ := next_of_step stepped
  obtain ⟨calls, left⟩ := Log.observed_step walk log
  rw [stepped] at left
  have same : next.bound after = (start next.next).bound log := by
    rw [show after = _ from left]
    rfl
  rw [same, moved, bound_succ]
  exact Nat.sub_add_cancel (Nat.pos_of_ne_zero going)

theorem length_take_le_bound (walk : Walk) (limit : Nat) (log : Log) :
    (walk.take limit log).1.length ≤ walk.bound log := by
  induction limit generalizing walk log with
  | zero => exact Nat.zero_le _
  | succ limit ih =>
    rw [take]
    rcases stepped : walk.step log with ⟨_ | ⟨reading, next⟩, after⟩
    · exact Nat.zero_le _
    · rw [← bound_of_step stepped]
      exact Nat.succ_le_succ (ih next after)

end Walk

/-! Single reads -/

namespace Log

variable {log : Log} {α : Type}

theorem outcome_read_eq_ok {decoder : Decoding α} {index : Nat} {info : Meta} {value : α} :
    outcome (read decoder index log) = .ok (info, value) ↔
      ∃ record, log.reading index = .ok record ∧ record.info = info ∧
        ∃ after, decoder (.ofBytes record.data) = .ok value after ∧ after.rest = [] := by
  rw [outcome_read, reading]
  cases outcome (readRaw index log) with
  | error error =>
    refine iff_of_false (fun impossible => by cases impossible) ?_
    rintro ⟨_, impossible, -⟩
    cases impossible
  | ok record =>
    simp only [← Decoding.fromBytes_eq_ok, Except.ok.injEq, exists_eq_left']
    cases Decoding.fromBytes decoder record.data <;> simp

/-! Reading all records -/

/-- Decoding one record after another comes to what decoding each of them by itself comes to. -/
theorem outcome_readMany (steady : log.device.plan.Steady) (decoder : Decoding α) (count index : Nat) :
    outcome (readMany decoder count index log) =
      (List.range' index count).mapM fun index => outcome (read decoder index log) := by
  induction count generalizing index with
  | zero => rfl
  | succ count ih =>
    rw [List.range'_succ, List.mapM_cons, ← ih, readMany]
    cases ran : read decoder index log with
    | error error stop =>
      rw [bind_of_error ran]
      rfl
    | ok first after =>
      rw [bind_of_ok ran]
      -- The records behind the first are read as if it had not been read.
      obtain ⟨calls, left⟩ := compositional_observed.read readRaw_leaves_observed decoder index log
      rw [ran] at left
      have respects := (compositional_respects Mirrors).readMany readRaw_respects_mirrors decoder
        count (index + 1)
      have same := (respects (mirrors_of_steady steady calls)).1
      rw [← show after = _ from left] at same
      rw [← same]
      cases rest : readMany decoder count (index + 1) after with
      | error error stop => rw [bind_of_error rest]; rfl
      | ok values stop => rw [bind_of_ok rest]; rfl

/-! All of them together -/

/-- How the ways to read agree on a log of that many records. -/
structure ReadsAgree (log : Log) (total : Nat) : Prop where
  /-- A walk gives the records from its start on, up to the first that cannot be read. -/
  walk_eq : ∀ start, walk start log = .ok (.start start) log ∧
    ∀ limit, ((Walk.start start).take limit log).1 =
      (Walk.upToError ((List.range' start (total - start)).map log.reading)).take limit
  /-- All records are read if each of them is. -/
  readAll_eq_ok : ∀ {α : Type} (decoder : Decoding α) values, outcome (readAll decoder log) = .ok values ↔
    (List.range total).map (fun index => outcome (read decoder index log)) = values.map .ok
  /-- Otherwise it is the first record that is not read which tells why. -/
  readAll_eq_error : ∀ {α : Type} (decoder : Decoding α) error,
    outcome (readAll decoder log) = .error error ↔
      ∃ index < total, outcome (read decoder index log) = .error error ∧
        ∀ earlier < index, ∃ value, outcome (read decoder earlier log) = .ok value
  /-- A record is decoded if it is read and its payload is one value, with nothing behind it. -/
  read_eq_ok : ∀ {α : Type} (decoder : Decoding α) index info value,
    outcome (read decoder index log) = .ok (info, value) ↔
      ∃ record, log.reading index = .ok record ∧ record.info = info ∧
        ∃ after, decoder (.ofBytes record.data) = .ok value after ∧ after.rest = []

theorem reads_agree_of_held {ledger : Ledger} (held : log.ledger = some ledger)
    (steady : log.device.plan.Steady) : log.ReadsAgree ledger.header.totalRecords where
  walk_eq start := by
    refine ⟨?_, fun limit => ?_⟩
    · rw [walk, bind_of_ok (opened_eq held)]
      rfl
    · have bound : (Walk.start start).bound log = ledger.header.totalRecords - start := by
        rw [Walk.bound, held]
        rfl
      rw [Walk.take_eq_take_of_steady steady, bound]
  readAll_eq_ok decoder values := by
    rw [readAll, bind_of_ok (opened_eq held), outcome_readMany steady, ← List.range_eq_range', mapM_eq_ok]
  readAll_eq_error decoder error := by
    rw [readAll, bind_of_ok (opened_eq held), outcome_readMany steady, mapM_range'_eq_error]
    simp
  read_eq_ok decoder index info value := outcome_read_eq_ok

/-- All ways to read agree on every record, whatever the bytes on the medium are, and a handle that has
been closed refuses all of them. At each moment of any walk there is no more to come than its bound
says. -/
theorem reads_agree (log : Log) (steady : log.device.plan.Steady) :
    (match log.ledger with
    | some ledger => log.ReadsAgree ledger.header.totalRecords
    | none => ∀ index, walk index log = .error .closed log ∧ readRaw index log = .error .closed log ∧
      ∀ {α : Type} (decoder : Decoding α), read decoder index log = .error .closed log ∧
        readAll decoder log = .error .closed log) ∧
    ∀ (walk : Walk) (moment : Log) (limit : Nat), (walk.take limit moment).1.length ≤ walk.bound moment := by
  refine ⟨?_, fun walk moment limit => walk.length_take_le_bound limit moment⟩
  cases held : log.ledger with
  | some ledger => exact reads_agree_of_held held steady
  | none =>
    intro index
    have refused := readRaw_of_closed held index
    have closed := opened_of_closed held
    exact ⟨bind_of_error closed, refused, fun decoder => ⟨bind_of_error refused, bind_of_error closed⟩⟩

/-- The second of three records has been damaged since the log was opened. -/
theorem reads_agree_of_damaged :
    let ledger : Ledger := ⟨⟨1, 3, 58⟩, ⟨[17, 31, 44]⟩⟩
    let log : Log := ⟨none, .standard, some ledger, ⟨.memory ⟨ledger.image
      [0, 0, 0, 0, 0, 0, 0, 5, 105, 116, 101, 109, 0, 1,
        0, 0, 0, 0, 0, 0, 0, 6, 105, 116, 101, 109, 9,
        0, 0, 0, 0, 0, 0, 0, 7, 105, 116, 101, 109, 0, 1]⟩, .never, []⟩⟩
    let item : Kind := ⟨105, 116, 101, 109⟩
    let damaged : LogError := .recordRead 1 (.codec (.invalidTag "Op" 9))
    ((Walk.start 0).take 9 log).1 = [.ok ⟨0, 17, ⟨5, item, .insert⟩, [1]⟩, .error damaged] ∧
      outcome (readAll Decoding.bool log) = .error damaged ∧
      outcome (read Decoding.bool 2 log) = .ok (⟨7, item, .insert⟩, true) := by
  intro ledger log item damaged
  have agree : log.ReadsAgree 3 := (reads_agree log fun _ _ _ => rfl).1
  have first : log.reading 0 = .ok ⟨0, 17, ⟨5, item, .insert⟩, [1]⟩ := by
    subst log ledger item
    rfl
  have second : log.reading 1 = .error damaged := by rfl
  have third : log.reading 2 = .ok ⟨2, 44, ⟨7, item, .insert⟩, [1]⟩ := by
    subst log ledger item
    rfl
  have flag : Decoding.bool (.ofBytes [1]) = .ok true ⟨[], 1⟩ := by rfl
  refine ⟨?_, (agree.readAll_eq_error _ _).mpr ⟨1, by decide, by rw [outcome_read, ← reading, second], ?_⟩,
    (agree.read_eq_ok _ _ _ _).mpr ⟨_, third, rfl, _, flag, rfl⟩⟩
  · rw [(agree.walk_eq 0).2 9]
    simp [List.range', Walk.upToError, first, second]
  · intro earlier before
    obtain rfl : earlier = 0 := Nat.lt_one_iff.mp before
    exact ⟨_, (agree.read_eq_ok _ _ _ _).mpr ⟨_, first, rfl, _, flag, rfl⟩⟩

end Log

end AppendLog
