import AppendLog.Proofs.Refinement
import AppendLog.Proofs.SingleFaults

/-! Runs in which every operation meets at most one failing storage call.

A commit that fails is undone. A creation that fails is not: when it has stored something and
not yet all of the new log, the medium is too short to be opened and not empty enough to be
started anew. Nothing else ever keeps a run from being recovered: `recovers_iff`.
-/

set_option autoImplicit false

namespace AppendLog

/-- The reply of a write that has committed its record: an index, or a failure in nothing but
making the record durable. -/
def Reply.Commits : Reply → Prop
  | .index _ => True
  | .refused error => ¬ Log.FailedCommit error
  | .done | .record _ | .noHandle => False

instance (error : LogError) : Decidable (Log.FailedCommit error) :=
  inferInstanceAs (Decidable (_ ∧ _))

instance : DecidablePred Reply.Commits := fun
  | .index _ => .isTrue trivial
  | .refused error => inferInstanceAs (Decidable (¬ Log.FailedCommit error))
  | .done | .record _ | .noHandle => .isFalse id

theorem Reply.commits_insecure (config : Config) (source : StorageError) :
    (Reply.refused (.io config.securing source)).Commits := by
  unfold Config.securing
  cases config.syncOnWrite with
  | true => exact fun uncommitted => uncommitted.1 rfl
  | false => exact fun uncommitted => uncommitted.2 rfl

def Request.committed (request : Request) (reply : Reply) : List Entry :=
  match request with
  | .write now info payload =>
    match payload.toBytes with
    | .ok data => if reply.Commits then [⟨info.stamp now, data⟩] else []
    | .error _ => []
  | .open .. | .readRaw _ | .close | .drop => []

theorem Request.committed_of_not_commits {reply : Reply} (uncommitted : ¬ reply.Commits)
    (request : Request) : request.committed reply = [] := by
  unfold committed
  split
  · split
    · exact if_neg uncommitted
    · rfl
  all_goals rfl

theorem Request.committed_of_commits {reply : Reply} (commits : reply.Commits) (now : Int) (info : Meta)
    {payload : Encoding} {data : Bytes} (encoded : payload.toBytes = .ok data) :
    (Request.write now info payload).committed reply = [⟨info.stamp now, data⟩] := by
  simp only [committed, encoded]
  exact if_pos commits

namespace Session

/-- Requests one after another, each of them under a fault plan of its own. -/
def serve : List (FaultPlan × Request) → Session → List Reply × Session
  | [], session => ([], session)
  | (plan, request) :: rest, session =>
    let (reply, middle) := session.step plan request
    let (replies, after) := serve rest middle
    (reply :: replies, after)

def committed (requests : List (FaultPlan × Request)) (replies : List Reply) : List Entry :=
  (requests.zip replies).flatMap fun ((_, request), reply) => request.committed reply

/-- Something is stored, but too little to be a log. -/
def Stunted : Session → Prop
  | stored medium => medium.content ≠ [] ∧ medium.content.length < Ledger.fresh.stop
  | held _ => False

/-- The creation of a log stops, in one of the requests, when a part of it has been stored. -/
inductive TearsCreation : List (FaultPlan × Request) → Session → Prop where
  | here {plan : FaultPlan} {path : Option String} {config : Config}
      {rest : List (FaultPlan × Request)} {session : Session} : session.medium.content = [] →
      (session.step plan (.open path config)).2.Stunted →
      TearsCreation ((plan, .open path config) :: rest) session
  | later {plan : FaultPlan} {request : Request} {rest : List (FaultPlan × Request)}
      {session : Session} : TearsCreation rest (session.step plan request).2 →
      TearsCreation ((plan, request) :: rest) session

/-- Without faults, the medium opens as the log of the entries. Only an empty one does not open
just to be read. -/
def Recovers (session : Session) (entries : List Entry) : Prop :=
  ∀ path config, session.medium.content ≠ [] ∨ config.readOnly = false → ∃ log device,
    Log.openOn path config (.sound (session.medium.reopened config.readOnly)) = (.ok log, device) ∧
      log.Shows entries

/-- The log of the entries is at the front of the medium, which knows of all of it. What may be
behind it is what a torn write has stored over the end of a file. -/
structure Retains (log : Log) (entries : List Entry) (handle : ListingHandle) : Prop where
  front : Entries.image entries <+: log.device.medium.content
  known : (Entries.ledger entries).stop ≤ log.device.medium.size
  changeable : handle.readOnly = false → log.device.medium.Changeable
  readOnly : log.config.readOnly = handle.readOnly
  ledger : log.ledger = if handle.closed then none else some (Entries.ledger entries)

/-- The store is empty, or has the log of the entries at its front. -/
inductive Stores : Session → List Entry → Prop where
  | empty {medium : Medium} : medium.content = [] → Stores (stored medium) []
  | stored {medium : Medium} {entries : List Entry} : Entries.image entries <+: medium.content →
      Stores (stored medium) entries
  | held {log : Log} {entries : List Entry} {handle : ListingHandle} : Retains log entries handle →
      Stores (held log) entries

variable {session : Session} {entries : List Entry} {log : Log} {handle : ListingHandle}
  {plan : FaultPlan} {request : Request} {requests : List (FaultPlan × Request)}

theorem Stores.not_stunted (stores : Stores session entries) : ¬ session.Stunted := by
  intro stunted
  cases stores with
  | empty content => exact stunted.1 content
  | stored front =>
    have long := (Entries.fits entries).fresh_stop_le
    rw [← Entries.length_image] at long
    exact absurd stunted.2 (Nat.not_lt.mpr (Nat.le_trans long front.length_le))
  | held retains => exact stunted

theorem Retains.underPlan (retains : Retains log entries handle) (plan : FaultPlan) :
    Retains (log.underPlan plan) entries handle :=
  ⟨retains.front, retains.known, retains.changeable, retains.readOnly, retains.ledger⟩

theorem Retains.carries (retains : Retains log entries handle) : log.device.medium.Carries
    (Entries.body entries) (Entries.ledger entries).header.footerOffset :=
  ⟨Nat.le_trans (Nat.le_add_right _ _) retains.known,
    Ledger.carries_of_isPrefix (Entries.width_add_length_body entries) retains.front⟩

/-- A handle retains the log as long as its medium stays the same. Its bookkeeping may be given up. -/
theorem Retains.unchanged (retains : Retains log entries handle) {after : Log}
    (medium : after.device.medium = log.device.medium) (config : after.config = log.config)
    (ledger : after.ledger = none ∨ after.ledger = log.ledger) : Stores (held after) entries := by
  have kept (closed : Bool) (same : after.ledger = if closed then none else some (Entries.ledger entries)) :
      Retains after entries ⟨handle.readOnly, closed⟩ :=
    ⟨medium ▸ retains.front, medium ▸ retains.known, fun writes => medium ▸ retains.changeable writes,
      config ▸ retains.readOnly, same⟩
  rcases ledger with none | same
  · exact .held (kept true none)
  · exact .held (kept handle.closed (same.trans retains.ledger))

theorem Retains.onto (retains : Retains log entries handle) (writes : handle.readOnly = false)
    {others : List Entry} {left : Medium} {after : Log} (akin : log.device.medium.Akin left)
    (config : after.config = log.config)
    (medium : after.device.medium = (Entries.ledger others).onto (Entries.body others) left)
    (ledger : after.ledger = some (Entries.ledger others)) : Stores (held after) others := by
  have kept := akin.trans (Ledger.akin_onto (Entries.ledger others) (Entries.body others) left)
  have changeable := kept.changeable (retains.changeable writes)
  have grown : Retains after others ⟨handle.readOnly, false⟩ := by
    refine ⟨?_, ?_, fun _ => medium ▸ changeable, config ▸ retains.readOnly, ledger⟩
    · rw [medium, Ledger.content_onto]
      exact List.prefix_append _ _
    · rw [medium]
      exact Ledger.stop_le_size_onto (Entries.width_add_length_body others) left
  exact .held grown

/-! Opening -/

def opening (session : Session) (plan : FaultPlan) (config : Config) : Device :=
  ⟨session.medium.reopened config.readOnly, plan, []⟩

section Opening

variable (session : Session) (plan : FaultPlan) (path : Option String) (config : Config)

theorem readable_opening : (session.opening plan config).medium.Readable :=
  session.medium.readable_reopened config.readOnly

theorem bytes_opening : (session.opening plan config).bytes = session.medium.content :=
  session.medium.content_reopened config.readOnly

theorem writable_opening (writes : config.readOnly = false) :
    (session.opening plan config).medium.Writable := by
  rw [opening, writes]
  exact session.medium.writable_reopened

theorem step_open : (session.step plan (.open path config)).2 =
    match Log.openLedger config (session.opening plan config) with
    | .ok ledger device => held ⟨path, config, some ledger, device⟩
    | .error _ device => stored device.medium := by
  simp only [step, Log.openOn, opening]
  cases Log.openLedger config ⟨session.medium.reopened config.readOnly, plan, []⟩ <;> rfl

end Opening

theorem retains_opening (path : Option String) (config : Config) (device : Device)
    (front : Entries.image entries <+: device.bytes) (readable : device.medium.Readable)
    (writable : config.readOnly = false → device.medium.Writable) :
    Stores (held ⟨path, config, some (Entries.ledger entries), device⟩) entries := by
  have known : (Entries.ledger entries).stop ≤ device.medium.size := by
    rw [readable.1, ← Entries.length_image]
    exact front.length_le
  have retains : Retains ⟨path, config, some (Entries.ledger entries), device⟩ entries
      ⟨config.readOnly, false⟩ := ⟨front, known, fun writes => (writable writes).2, rfl, rfl⟩
  exact .held retains

theorem open_of_image (front : Entries.image entries <+: session.medium.content)
    (formed : (Entries.ledger entries).WellFormed) (plan : FaultPlan) (path : Option String)
    (config : Config) : Stores (session.step plan (.open path config)).2 entries := by
  have readable := session.readable_opening plan config
  have bytes := session.bytes_opening plan config
  rw [← bytes] at front
  have nonempty : (session.opening plan config).bytes ≠ [] := by
    intro none
    have some := (Entries.fits entries).fresh_stop_le
    rw [← Entries.length_image] at some
    exact absurd (none ▸ Nat.le_trans some front.length_le) (by decide)
  obtain ⟨calls, left⟩ := Log.afterwards_openLedger config readable nonempty
  rw [step_open]
  cases ran : Log.openLedger config (session.opening plan config) with
  | error error device =>
    rw [ran, afterwards] at left
    exact .stored (left ▸ front)
  | ok ledger device =>
    rw [ran, afterwards] at left
    obtain ⟨foundFormed, foundLies, -⟩ := Log.openLedger_of_nonempty readable nonempty ran
    have lies := Ledger.liesIn_of_isPrefix (Entries.width_add_length_body entries) front
    have same := formed.eq_of_liesIn lies foundFormed foundLies
    subst same left
    exact retains_opening path config _ front readable (session.writable_opening plan config)

theorem open_of_empty (empty : session.medium.content = []) (plan : FaultPlan) (path : Option String)
    (config : Config) : Stores (session.step plan (.open path config)).2 [] ∨
      (session.step plan (.open path config)).2.Stunted := by
  have readable := session.readable_opening plan config
  have bytes := (session.bytes_opening plan config).trans empty
  rw [step_open]
  cases ran : Log.openLedger config (session.opening plan config) with
  | error error device =>
    have part := Log.afterwards_openLedger_of_empty readable (session.writable_opening plan config) bytes
    rw [ran, afterwards] at part
    by_cases nothing : device.bytes = []
    · exact .inl (.empty nothing)
    · by_cases short : device.bytes.length < Ledger.fresh.stop
      · exact .inr ⟨nothing, short⟩
      -- A creation that only fails to be made durable has stored the whole log.
      · have whole : device.medium.content = Entries.image [] :=
          part.eq_of_length_le (Nat.not_lt.mp short)
        exact .inl (.stored (whole ▸ List.prefix_rfl))
  | ok ledger device =>
    have writes : config.readOnly = false := by
      cases readOnly : config.readOnly with
      | false => rfl
      | true =>
        obtain ⟨_, _, measured, opened⟩ := bind_eq_ok.mp ran
        obtain ⟨-, rfl, rfl⟩ := (Device.run_size_eq_ok .readSize readable).mp measured
        simp [bytes, readOnly, bind, EStateM.bind] at opened
    have writable := session.writable_opening plan config writes
    obtain ⟨-, ⟨-, rfl, medium⟩ | ⟨some, -⟩⟩ := Log.openLedger_eq_ok writable ran
    · have still := writable.holding (Ledger.fresh.image [])
      have content : device.bytes = Entries.image [] := by
        rw [Device.bytes, medium, Medium.content_holding]
        rfl
      rw [← medium] at still
      have front : Entries.image [] <+: device.bytes := content ▸ List.prefix_rfl
      exact .inl (retains_opening path config device front still.readable fun _ => still)
    · exact absurd bytes some

theorem step_stored (medium : Medium) (plan : FaultPlan) (request : Request) :
    (∃ path config, request = .open path config) ∨
      ((stored medium).step plan request).2 = stored medium ∧
        request.committed ((stored medium).step plan request).1 = [] := by
  cases request with
  | «open» path config => exact .inl ⟨path, config, rfl⟩
  | write now info payload => exact .inr ⟨rfl, Request.committed_of_not_commits id _⟩
  | readRaw index => exact .inr ⟨rfl, rfl⟩
  | close => exact .inr ⟨rfl, rfl⟩
  | drop => exact .inr ⟨rfl, rfl⟩

theorem Stunted.step (stunted : session.Stunted) (plan : FaultPlan) (request : Request) :
    (session.step plan request).2.Stunted ∧ request.committed (session.step plan request).1 = [] := by
  cases session with
  | held log => exact stunted.elim
  | stored medium =>
    rcases step_stored medium plan request with ⟨path, config, rfl⟩ | ⟨same, nothing⟩
    · refine ⟨?_, rfl⟩
      have readable := (stored medium).readable_opening plan config
      have bytes := (stored medium).bytes_opening plan config
      have nonempty : ((stored medium).opening plan config).bytes ≠ [] := bytes.symm ▸ stunted.1
      obtain ⟨calls, left⟩ := Log.afterwards_openLedger config readable nonempty
      rw [step_open]
      cases ran : Log.openLedger config ((stored medium).opening plan config) with
      | error error device =>
        rw [ran, afterwards] at left
        have same : device.medium.content = medium.content := left ▸ bytes
        exact ⟨same.symm ▸ stunted.1, same.symm ▸ stunted.2⟩
      | ok ledger device =>
        obtain ⟨formed, lies, -⟩ := Log.openLedger_of_nonempty readable nonempty ran
        have long := Nat.le_trans formed.fresh_stop_le lies.stop_le
        rw [bytes] at long
        exact absurd stunted.2 (Nat.not_lt.mpr long)
    · exact ⟨same.symm ▸ stunted, nothing⟩

/-! Operations on a handle -/

theorem operate_held {α : Type} (plan : FaultPlan) (reply : α → Reply) (operation : LogOp α) (log : Log) :
    (operate plan reply operation (held log)).2 = held (afterwards (operation (log.underPlan plan))) := by
  simp only [operate]
  cases operation (log.underPlan plan) <;> rfl

/-- When only one call fails, a commit puts either the longer log onto the medium or the old one. -/
theorem Retains.commit_cases (retains : Retains log entries handle) (once : log.device.plan.FailsOnce)
    (writes : handle.readOnly = false) (info : Meta) (data : Bytes) :
    (∃ calls, (Entries.ledger entries).commit info.bytes data log.device =
      .ok (Entries.ledger (entries ++ [⟨info, data⟩]))
        ⟨(Entries.ledger (entries ++ [⟨info, data⟩])).onto (Entries.body (entries ++ [⟨info, data⟩]))
          log.device.medium, log.device.plan, calls⟩) ∨
    ∃ error left calls, Log.FailedCommit error ∧ log.device.medium.Akin left ∧
      (Entries.ledger entries).commit info.bytes data log.device =
        .error error ⟨(Entries.ledger entries).onto (Entries.body entries) left, log.device.plan, calls⟩ := by
  have changeable := retains.changeable writes
  have room := (Entries.fits entries).room
  have carries := retains.carries
  cases committed : (Entries.ledger entries).commit info.bytes data log.device with
  | ok next device =>
    obtain ⟨rfl, calls, rfl⟩ :=
      Ledger.commit_eq_ok changeable room carries.reaches info.length_bytes committed
    rw [Device.bytes, carries.records.same, Entries.ledger_append, Entries.body_append, List.append_assoc]
    exact .inl ⟨calls, rfl⟩
  | error error device =>
    obtain ⟨uncommitted, left, calls, akin, rfl⟩ :=
      Ledger.commit_undone once changeable room info.length_bytes carries committed
    exact .inr ⟨error, left, calls, uncommitted, akin, rfl⟩

theorem write_stores (retains : Retains log entries handle) (once : plan.FailsOnce) (now : Int)
    (info : Meta) (payload : Encoding) :
    Stores ((held log).step plan (.write now info payload)).2 (entries ++
      (Request.write now info payload).committed
        ((held log).step plan (.write now info payload)).1) := by
  have served := retains.underPlan plan
  have servedOnce : (log.underPlan plan).device.plan.FailsOnce := once
  have refused (error : LogError) (uncommitted : Log.FailedCommit error) :
      entries ++ (Request.write now info payload).committed (.refused error) = entries := by
    have kept : ¬ (Reply.refused error).Commits := fun commits => commits uncommitted
    rw [Request.committed_of_not_commits kept, List.append_nil]
  simp only [step, operate]
  generalize log.underPlan plan = log at served servedOnce ⊢
  cases readOnly : handle.readOnly with
  | true =>
    rw [Log.write_of_readOnly (served.readOnly.trans readOnly), refused .readOnly (by decide)]
    exact .held served
  | false =>
    have writes := served.readOnly.trans readOnly
    cases encoded : payload.toBytes with
    | error error =>
      rw [Log.write_of_not_encoded writes encoded,
        refused (.codec error) (by simp [Log.FailedCommit, LogError.step?])]
      exact .held served
    | ok data =>
      cases closed : handle.closed with
      | true =>
        have nothing : log.ledger = none := by rw [served.ledger, closed]; rfl
        rw [Log.write_of_closed writes encoded nothing, refused .closed (by decide)]
        exact .held served
      | false =>
        have opened : log.ledger = some (Entries.ledger entries) := by
          rw [served.ledger, closed]; rfl
        rw [Log.write_eq opened writes encoded]
        rcases served.commit_cases servedOnce readOnly (info.stamp now) data with
          ⟨calls, committed⟩ | ⟨error, left, calls, uncommitted, akin, undone⟩
        · rw [committed]
          -- Whether the record can be made durable makes no difference to the medium.
          rcases log.config.secure_cases ⟨(Entries.ledger (entries ++ [⟨info.stamp now, data⟩])).onto
              (Entries.body (entries ++ [⟨info.stamp now, data⟩])) log.device.medium,
              log.device.plan, calls⟩ with ⟨calls, secured⟩ | ⟨source, calls, insecure⟩
          · have commits : (Reply.index (Entries.ledger entries).header.totalRecords).Commits := trivial
            simp only [secured]
            rw [Request.committed_of_commits commits now info encoded]
            exact served.onto readOnly (Medium.akin_refl _) rfl rfl rfl
          · simp only [insecure]
            rw [Request.committed_of_commits (Reply.commits_insecure log.config source) now info encoded]
            exact served.onto readOnly (Medium.akin_refl _) rfl rfl rfl
        · rw [undone]
          simp only [refused error uncommitted]
          exact served.onto readOnly akin rfl rfl opened

/-! Runs -/

/-- One request: the store holds what it held and what the request has added, unless it was empty
and the creation of its log stops half-way. -/
theorem step_stores (stores : Stores session entries)
    (bounded : Listing.Bounded ⟨true, entries, none⟩) (once : plan.FailsOnce) (request : Request) :
    Stores (session.step plan request).2
        (entries ++ request.committed (session.step plan request).1) ∨
      ∃ path config, request = .open path config ∧ session.medium.content = [] ∧ entries = [] ∧
        (session.step plan request).2.Stunted := by
  cases stores with
  | @empty medium content =>
    rcases step_stored medium plan request with ⟨path, config, rfl⟩ | ⟨same, nothing⟩
    · have start : (stored medium).medium.content = [] := content
      rcases open_of_empty start plan path config with whole | stunted
      · exact .inl whole
      · exact .inr ⟨path, config, rfl, content, rfl, stunted⟩
    · rw [same, nothing]
      exact .inl (.empty content)
  | @stored medium entries front =>
    rcases step_stored medium plan request with ⟨path, config, rfl⟩ | ⟨same, nothing⟩
    · have start : Entries.image entries <+: (stored medium).medium.content := front
      rw [Request.committed, List.append_nil]
      exact .inl (open_of_image start bounded.wellFormed plan path config)
    · rw [same, nothing, List.append_nil]
      exact .inl (.stored front)
  | @held log entries handle retains =>
    refine .inl ?_
    have served := retains.underPlan plan
    cases request with
    | «open» path config =>
      have start : Entries.image entries <+: (held log).medium.content := retains.front
      rw [Request.committed, List.append_nil]
      exact open_of_image start bounded.wellFormed plan path config
    | write now info payload => exact write_stores retains once now info payload
    | readRaw index =>
      obtain ⟨calls, left⟩ := (log.underPlan plan).afterwards_readRaw index
      rw [Request.committed, List.append_nil, step, operate_held, left]
      exact served.unchanged rfl rfl (.inr rfl)
    | close =>
      obtain ⟨calls, left⟩ := (log.underPlan plan).afterwards_close
      rw [Request.committed, List.append_nil, step, operate_held, left]
      exact served.unchanged rfl rfl (.inl rfl)
    | drop =>
      rw [Request.committed, List.append_nil]
      exact .stored retains.front

theorem Stunted.serve (stunted : session.Stunted) (requests : List (FaultPlan × Request)) :
    (Session.serve requests session).2.Stunted ∧
      committed requests (Session.serve requests session).1 = [] := by
  induction requests generalizing session with
  | nil => exact ⟨stunted, rfl⟩
  | cons head rest ih =>
    obtain ⟨plan, request⟩ := head
    obtain ⟨still, nothing⟩ := stunted.step plan request
    obtain ⟨after, none⟩ := ih still
    refine ⟨after, ?_⟩
    rw [committed] at none
    simp only [Session.serve, committed, List.zip_cons_cons, List.flatMap_cons, nothing, none,
      List.append_nil]

/-- A run adds to the store what its requests add, unless the creation of a log is torn. -/
theorem serve_stores (stores : Stores session entries)
    (bounded : Listing.Bounded ⟨true, entries ++ committed requests (serve requests session).1, none⟩)
    (once : ∀ served ∈ requests, served.1.FailsOnce) :
    ¬ TearsCreation requests session ∧ Stores (serve requests session).2
        (entries ++ committed requests (serve requests session).1) ∨
      TearsCreation requests session ∧ (serve requests session).2.Stunted ∧
        entries ++ committed requests (serve requests session).1 = [] := by
  induction requests generalizing session entries with
  | nil =>
    refine .inl ⟨nofun, ?_⟩
    rw [show committed [] _ = [] from rfl, List.append_nil]
    exact stores
  | cons head rest ih =>
    obtain ⟨plan, request⟩ := head
    obtain ⟨first, others⟩ := List.forall_mem_cons.mp once
    have split : entries ++ committed ((plan, request) :: rest) (serve ((plan, request) :: rest) session).1 =
        (entries ++ request.committed (session.step plan request).1) ++
          committed rest (serve rest (session.step plan request).2).1 := by
      simp only [serve, committed, List.zip_cons_cons, List.flatMap_cons, List.append_assoc]
    rw [split] at bounded ⊢
    have before : Listing.Bounded ⟨true, entries, none⟩ :=
      bounded.of_isPrefix ((List.prefix_append _ _).trans (List.prefix_append _ _))
    rcases step_stores stores before first request with whole | ⟨path, config, rfl, empty, rfl, stunted⟩
    · rcases ih whole bounded others with ⟨sound, after⟩ | ⟨torn, after, nothing⟩
      · refine .inl ⟨fun torn => ?_, after⟩
        cases torn with
        | here _ stunted => exact whole.not_stunted stunted
        | later torn => exact sound torn
      · exact .inr ⟨.later torn, after, nothing⟩
    · obtain ⟨after, nothing⟩ := stunted.serve rest
      exact .inr ⟨.here empty stunted, after, by rw [nothing]; rfl⟩

theorem Stunted.refused (stunted : session.Stunted) (path : Option String) (config : Config) :
    ∃ error device, Log.openOn path config (.sound (session.medium.reopened config.readOnly)) =
      (.error error, device) := by
  have still := (stunted.step .never (.open path config)).1
  rw [step_open] at still
  simp only [Log.openOn, Device.sound]
  rw [opening] at still
  cases ran : Log.openLedger config ⟨session.medium.reopened config.readOnly, .never, []⟩ with
  | error error device => exact ⟨error, device, rfl⟩
  | ok ledger device =>
    rw [ran] at still
    exact still.elim

theorem Stores.recovers (stores : Stores session entries)
    (bounded : Listing.Bounded ⟨true, entries, none⟩) : session.Recovers entries := by
  intro path config some
  cases stores with
  | stored front =>
    obtain ⟨log, device, opens, -, shows⟩ := shows_of_image front bounded path config
    exact ⟨log, device, opens, shows⟩
  | held retains =>
    obtain ⟨log, device, opens, -, shows⟩ := shows_of_image retains.front bounded path config
    exact ⟨log, device, opens, shows⟩
  | @empty medium content =>
    have writes : config.readOnly = false := some.resolve_left (fun nonempty => nonempty content)
    have writable := (Session.stored medium).writable_opening .never config writes
    have bytes := ((Session.stored medium).bytes_opening .never config).trans content
    obtain ⟨calls, created⟩ := Log.openLedger_of_empty _ writable bytes rfl writes
    have still := writable.holding (Entries.image [])
    have holds : Holds ⟨path, config, Entries.ledger [],
        ⟨(medium.reopened config.readOnly).holding (Entries.image []), .never, calls⟩⟩ []
        ⟨config.readOnly, false⟩ :=
      ⟨Medium.content_holding _ _, still.readable, fun _ => still, rfl, rfl⟩
    have opens : Log.openOn path config (.sound (medium.reopened config.readOnly)) =
        (.ok ⟨path, config, Entries.ledger [],
          ⟨(medium.reopened config.readOnly).holding (Entries.image []), .never, calls⟩⟩,
          ⟨(medium.reopened config.readOnly).holding (Entries.image []), .never, calls⟩) := by
      rw [Log.openOn, show Log.openLedger config (.sound (medium.reopened config.readOnly)) = _ from created]
      rfl
    exact ⟨_, _, opens, holds.shows rfl rfl (List.forall_mem_nil _)⟩

/-- When every request of a run meets at most one failing call, the log with all that has been
committed is there again once nothing fails any more, unless the creation of a log has been torn.
Then nothing has ever been committed, and nothing can be: the medium is refused for good. -/
theorem recovers_iff (requests : List (FaultPlan × Request)) {medium : Medium}
    (empty : medium.content = []) (once : ∀ served ∈ requests, served.1.FailsOnce)
    (bounded : Listing.Bounded
      ⟨true, committed requests (serve requests (stored medium)).1, none⟩) :
    ((serve requests (stored medium)).2.Recovers (committed requests (serve requests (stored medium)).1) ↔
      ¬ TearsCreation requests (stored medium)) ∧
    (TearsCreation requests (stored medium) →
      committed requests (serve requests (stored medium)).1 = [] ∧
      ∀ path config, ∃ error device,
        Log.openOn path config
          (.sound ((serve requests (stored medium)).2.medium.reopened config.readOnly)) =
            (.error error, device)) := by
  have start : Stores (stored medium) [] := .empty empty
  rcases serve_stores start bounded once with ⟨sound, stores⟩ | ⟨torn, stunted, nothing⟩
  · exact ⟨⟨fun _ => sound, fun _ => stores.recovers bounded⟩, fun torn => absurd torn sound⟩
  · refine ⟨⟨fun recovers => ?_, fun sound => absurd torn sound⟩, fun _ => ⟨nothing, stunted.refused⟩⟩
    obtain ⟨_, _, opens, -⟩ := recovers none .standard (.inr rfl)
    obtain ⟨_, _, refused⟩ := stunted.refused none .standard
    rw [opens] at refused
    cases refused

theorem recovers_after_torn_data :
    let info : Meta := ⟨5, ⟨105, 116, 101, 109⟩, .update⟩
    let requests : List (FaultPlan × Request) := [(.tearing 0 0, .open none .standard),
      (.never, .open none .standard), (.tearing 1 2, .write 0 info (.ofBytes [1, 2, 3, 4])),
      (.never, .write 0 info (.ofBytes [9])), (.never, .close)]
    (∀ served ∈ requests, served.1.FailsOnce) ∧
      ¬ TearsCreation requests (stored (.memory ⟨[]⟩)) ∧
      (serve requests (stored (.memory ⟨[]⟩))).2.Recovers [⟨info, [9]⟩] := by
  intro info requests
  have once : ∀ served ∈ requests, served.1.FailsOnce := by
    simp only [requests, List.forall_mem_cons, List.not_mem_nil, false_implies, implies_true, and_true]
    exact ⟨FaultPlan.failsOnce_tearing _ _, FaultPlan.failsOnce_never, FaultPlan.failsOnce_tearing _ _,
      FaultPlan.failsOnce_never, FaultPlan.failsOnce_never⟩
  -- The first creation has stored nothing, and the second one all of the log.
  have whole : ¬ TearsCreation requests (stored (.memory ⟨[]⟩)) := by
    intro torn
    simp only [requests] at torn
    match torn with
    | .here _ stunted => exact stunted.1 rfl
    | .later (.here _ stunted) => exact stunted
  have added : committed requests (serve requests (stored (.memory ⟨[]⟩))).1 = [⟨info, [9]⟩] := by
    decide +kernel
  have recovers := recovers_iff requests rfl once (by rw [added]; exact ⟨by decide, by decide⟩)
  rw [added] at recovers
  exact ⟨once, whole, recovers.1.mpr whole⟩

/-- A creation that stops inside of its footer leaves a medium that does not open again. -/
theorem creation_not_recovered :
    let requests : List (FaultPlan × Request) := [(.tearing 1 4, .open none .standard)]
    (∀ served ∈ requests, served.1.FailsOnce) ∧
      committed requests (serve requests (stored (.memory ⟨[]⟩))).1 = [] ∧
      ¬ (serve requests (stored (.memory ⟨[]⟩))).2.Recovers [] := by
  intro requests
  refine ⟨?_, rfl, fun recovers => ?_⟩
  · rw [List.forall_mem_singleton]
    exact FaultPlan.failsOnce_tearing 1 4
  · obtain ⟨_, _, opens, -⟩ := recovers none .standard (.inr rfl)
    cases opens

end Session

end AppendLog
