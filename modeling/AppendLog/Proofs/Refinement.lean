import AppendLog.Proofs.Entries
import AppendLog.Proofs.Session

/-! The log as an append-only list.

A listing is a list of entries with a handle on it, and answers requests from the list
alone. A session on a store that starts out empty gives the same replies, and its medium
holds the image of the list at every point: `run_refines`.
-/

set_option autoImplicit false

namespace AppendLog

structure ListingHandle where
  readOnly : Bool
  closed : Bool
  deriving DecidableEq, Repr

structure Listing where
  /-- A log has been created; until then the store is empty. -/
  created : Bool
  entries : List Entry
  handle : Option ListingHandle

namespace Listing

def start : Listing := ⟨false, [], none⟩

def openWith (config : Config) (listing : Listing) : Reply × Listing :=
  if !listing.created && config.readOnly then
    (.refused (.invalidFormat .noHeader), { listing with handle := none })
  else (.done, { listing with created := true, handle := some ⟨config.readOnly, false⟩ })

def write (now : Int) (info : Meta) (payload : Encoding) (handle : ListingHandle)
    (listing : Listing) : Reply × Listing :=
  if handle.readOnly then (.refused .readOnly, listing)
  else
    match payload.toBytes with
    | .error error => (.refused (.codec error), listing)
    | .ok data =>
      if handle.closed then (.refused .closed, listing)
      else (.index listing.entries.length,
        { listing with entries := listing.entries ++ [⟨info.stamp now, data⟩] })

def readRaw (index : Nat) (handle : ListingHandle) (listing : Listing) : Reply :=
  if handle.closed then .refused .closed
  else
    match Entries.reading listing.entries index with
    | .ok record => .record record
    | .error error => .refused error

def step (request : Request) (listing : Listing) : Reply × Listing :=
  match request, listing.handle with
  | .open _ config, _ => listing.openWith config
  | .drop, _ => (.done, { listing with handle := none })
  | _, none => (.noHandle, listing)
  | .write now info payload, some handle => listing.write now info payload handle
  | .readRaw index, some handle => (listing.readRaw index handle, listing)
  | .close, some handle => (.done, { listing with handle := some { handle with closed := true } })

def run : List Request → Listing → List Reply × Listing
  | [], listing => ([], listing)
  | request :: rest, listing =>
    let (reply, middle) := listing.step request
    let (replies, after) := run rest middle
    (reply :: replies, after)

structure Bounded (listing : Listing) : Prop where
  inRange : ∀ entry ∈ listing.entries, entry.info.InRange
  below : (Entries.ledger listing.entries).stop < Footer.wordLimit

theorem stop_le_of_isPrefix {first second : List Entry} (front : first <+: second) :
    (Entries.ledger first).stop ≤ (Entries.ledger second).stop := by
  obtain ⟨rest, rfl⟩ := front
  rw [Ledger.stop, Ledger.stop, Footer.encodedLength, Footer.encodedLength, Entries.length_footer,
    Entries.length_footer, List.length_append]
  simp only [Entries.ledger, Entries.footerOffset, Entries.extent_append, Footer.entryWidth]
  omega

theorem Bounded.of_isPrefix {first second : Listing} (bounded : second.Bounded)
    (front : first.entries <+: second.entries) : first.Bounded where
  inRange entry member := bounded.inRange entry (front.subset member)
  below := Nat.lt_of_le_of_lt (stop_le_of_isPrefix front) bounded.below

theorem isPrefix_step (request : Request) (listing : Listing) :
    listing.entries <+: (listing.step request).2.entries := by
  have same : listing.entries <+: listing.entries := List.prefix_rfl
  unfold step
  split
  · unfold openWith
    split <;> exact same
  · exact same
  · exact same
  · unfold write
    split
    · exact same
    · split
      · exact same
      · split
        · exact same
        · exact List.prefix_append _ _
  · exact same
  · exact same

theorem isPrefix_run (requests : List Request) (listing : Listing) :
    listing.entries <+: (listing.run requests).2.entries := by
  induction requests generalizing listing with
  | nil => exact List.prefix_rfl
  | cons request rest ih => exact (isPrefix_step request listing).trans (ih _)

theorem Bounded.wellFormed {listing : Listing} (bounded : listing.Bounded) :
    (Entries.ledger listing.entries).WellFormed :=
  (Entries.fits _).wellFormed bounded.below

end Listing

/-- The log is that of the entries: its ledger, and all that is read through it. -/
structure Log.Shows (log : Log) (entries : List Entry) : Prop where
  ledger : log.ledger = some (Entries.ledger entries)
  readRaw (index : Nat) : outcome (Log.readRaw index log) = Entries.reading entries index
  read {α : Type} (decoder : Decoding α) (index : Nat) : outcome (Log.read decoder index log) =
    match Entries.reading entries index with
    | .error error => .error error
    | .ok record =>
      match Decoding.fromBytes decoder record.data with
      | .ok value => .ok (record.info, value)
      | .error error => .error (.recordRead index (.codec error))

/-- An open log shows the entries that its bytes carry, whatever lies in front of them and behind. -/
theorem Log.shows_of_carries {log : Log} {entries : List Entry}
    (opened : log.ledger = some (Entries.ledger entries)) (readable : log.device.medium.Readable)
    (sound : log.device.plan = .never) (inRange : ∀ entry ∈ entries, entry.info.InRange)
    (carries : Bytes.Carries (Entries.body entries) (Entries.footerOffset entries) log.device.bytes) :
    log.Shows entries := by
  have readRaw (index : Nat) : outcome (Log.readRaw index log) = Entries.reading entries index := by
    rw [Log.outcome_readRaw_of_fits opened (Entries.fits entries) readable.2
      (by rw [Device.fault?, sound]; rfl) (readable.reaches carries.reaches)]
    exact Entries.recordIn_eq inRange carries index
  refine ⟨opened, readRaw, fun decoder index => ?_⟩
  rw [Log.outcome_read, readRaw]
  cases Entries.reading entries index <;> rfl

namespace Session

/-- The log holds the entries, and can do what the handle on the listing can. -/
structure Holds (log : Log) (entries : List Entry) (handle : ListingHandle) : Prop where
  content : log.device.medium.content = Entries.image entries
  readable : log.device.medium.Readable
  writable : handle.readOnly = false → log.device.medium.Writable
  readOnly : log.config.readOnly = handle.readOnly
  ledger : log.ledger = if handle.closed then none else some (Entries.ledger entries)

inductive Simulates : Session → Listing → Prop where
  | empty {medium : Medium} : medium.content = [] → Simulates (.stored medium) Listing.start
  | stored {medium : Medium} {entries : List Entry} : medium.content = Entries.image entries →
      Simulates (.stored medium) ⟨true, entries, none⟩
  | held {log : Log} {entries : List Entry} {handle : ListingHandle} : Holds log entries handle →
      Simulates (.held log) ⟨true, entries, some handle⟩

variable {session : Session} {listing : Listing} {log : Log} {entries : List Entry}
  {handle : ListingHandle}

/-! Opening -/

theorem open_image (path : Option String) (config : Config)
    (content : session.medium.content = Entries.image entries)
    (formed : (Entries.ledger entries).WellFormed) :
    (session.step .never (.open path config)).1 = .done ∧
      Simulates (session.step .never (.open path config)).2
        ⟨true, entries, some ⟨config.readOnly, false⟩⟩ := by
  obtain ⟨calls, opened⟩ := Log.openOn_of_liesIn path config _ formed (content ▸ Entries.liesIn entries)
  rw [Device.sound] at opened
  simp only [step, opened]
  refine ⟨trivial, .held ⟨?_, Medium.readable_reopened _ _, ?_, rfl, rfl⟩⟩
  · exact (Medium.content_reopened _ _).trans content
  · intro writes
    rw [show config.readOnly = false from writes]
    exact Medium.writable_reopened _

theorem open_simulates (simulates : Simulates session listing) (bounded : listing.Bounded)
    (path : Option String) (config : Config) :
    (session.step .never (.open path config)).1 = (listing.openWith config).1 ∧
      Simulates (session.step .never (.open path config)).2 (listing.openWith config).2 := by
  cases simulates with
  | stored content => exact open_image path config content bounded.wellFormed
  | held holds => exact open_image path config holds.content bounded.wellFormed
  -- The store stays empty if the log is to be read only, and gets a log otherwise.
  | @empty medium content =>
    have bytes : (Device.sound (medium.reopened config.readOnly)).bytes = [] := by
      rw [Device.bytes, Device.sound, Medium.content_reopened, content]
    cases readOnly : config.readOnly with
    | true =>
      rw [readOnly] at bytes
      have refused := Log.openLedger_of_empty_readOnly (.sound (medium.reopened true))
        (Medium.readable_reopened _ _) bytes rfl readOnly
      rw [Device.sound] at refused
      simp only [step, Session.medium, Log.openOn, readOnly, refused, Listing.openWith, Listing.start]
      exact ⟨rfl, .empty bytes⟩
    | false =>
      rw [readOnly] at bytes
      obtain ⟨calls, created⟩ := Log.openLedger_of_empty (.sound (medium.reopened false))
        (Medium.writable_reopened _) bytes rfl readOnly
      rw [Device.sound] at created
      simp only [step, Session.medium, Log.openOn, readOnly, created, Listing.openWith, Listing.start]
      have writable := (Medium.writable_reopened medium).holding (Ledger.fresh.image [])
      exact ⟨rfl, .held ⟨by simp; rfl, writable.readable, fun _ => writable, readOnly, rfl⟩⟩

/-! Operations on a handle -/

theorem Holds.underPlan (holds : Holds log entries handle) (plan : FaultPlan) :
    Holds (log.underPlan plan) entries handle :=
  ⟨holds.content, holds.readable, holds.writable, holds.readOnly, holds.ledger⟩

theorem Simulates.holds (simulates : Simulates (.held log) listing) :
    ∃ handle, Holds log listing.entries handle := by
  cases simulates with
  | held holds => exact ⟨_, holds⟩

theorem Simulates.exists_held (simulates : Simulates session ⟨true, entries, some handle⟩) :
    ∃ log, session = .held log ∧ Holds log entries handle := by
  cases simulates with
  | held holds => exact ⟨_, rfl, holds⟩

theorem Holds.ledger_eq (holds : Holds log entries handle) {ledger : Ledger}
    (opened : log.ledger = some ledger) : ledger = Entries.ledger entries := by
  rw [holds.ledger] at opened
  cases closed : handle.closed with
  | true => simp [closed] at opened
  | false =>
    rw [closed] at opened
    exact (Option.some.inj opened).symm

theorem Holds.write (holds : Holds log entries handle) (now : Int) (info : Meta)
    (sound : log.device.plan = .never) (writes : handle.readOnly = false) (opened : handle.closed = false)
    {payload : Encoding} {data : Bytes} (encoded : payload.toBytes = .ok data) :
    ∃ after, Log.write now info payload log = .ok entries.length after ∧
      Holds after (entries ++ [⟨info.stamp now, data⟩]) handle := by
  have ledger : log.ledger = some (Entries.ledger entries) := by rw [holds.ledger, opened]; rfl
  obtain ⟨calls, written⟩ := Log.write_of_writable now info ledger
    (holds.readOnly.trans writes) encoded sound (holds.writable writes) (Entries.fits entries).room
    (holds.content ▸ Entries.carries entries)
  refine ⟨_, written, ?_⟩
  have writable := (holds.writable writes).holding
    (((Entries.ledger entries).next data.length).image
      (Entries.body entries ++ (info.stamp now).bytes ++ data))
  exact ⟨(Medium.content_holding _ _).trans (Entries.image_append entries ⟨info.stamp now, data⟩).symm,
    writable.readable, fun _ => writable, holds.readOnly,
    by rw [opened, Entries.ledger_append]; rfl⟩

theorem write_simulates (holds : Holds log entries handle) (now : Int) (info : Meta)
    (payload : Encoding) :
    ((held log).step .never (.write now info payload)).1 =
        (Listing.write now info payload handle ⟨true, entries, some handle⟩).1 ∧
      Simulates ((held log).step .never (.write now info payload)).2
        (Listing.write now info payload handle ⟨true, entries, some handle⟩).2 := by
  have served := holds.underPlan .never
  simp only [step, operate, Listing.write]
  cases readOnly : handle.readOnly with
  | true =>
    rw [Log.write_of_readOnly (served.readOnly.trans readOnly)]
    exact ⟨rfl, .held served⟩
  | false =>
    have writes := served.readOnly.trans readOnly
    cases encoded : payload.toBytes with
    | error error =>
      rw [Log.write_of_not_encoded writes encoded]
      exact ⟨rfl, .held served⟩
    | ok data =>
      cases closed : handle.closed with
      | true =>
        have nothing : (log.underPlan .never).ledger = none := by rw [served.ledger, closed]; rfl
        rw [Log.write_of_closed writes encoded nothing]
        exact ⟨rfl, .held served⟩
      | false =>
        obtain ⟨after, written, grown⟩ := served.write now info rfl readOnly closed encoded
        rw [written]
        exact ⟨rfl, .held grown⟩

theorem Holds.shows (holds : Holds log entries handle) (sound : log.device.plan = .never)
    (opened : handle.closed = false) (inRange : ∀ entry ∈ entries, entry.info.InRange) :
    log.Shows entries := by
  have ledger : log.ledger = some (Entries.ledger entries) := by rw [holds.ledger, opened]; rfl
  refine Log.shows_of_carries ledger holds.readable sound inRange ?_
  rw [Device.bytes, holds.content]
  exact Entries.carries entries

theorem readRaw_simulates (holds : Holds log entries handle)
    (inRange : ∀ entry ∈ entries, entry.info.InRange) (index : Nat) :
    ((held log).step .never (.readRaw index)).1 =
        Listing.readRaw index handle ⟨true, entries, some handle⟩ ∧
      Simulates ((held log).step .never (.readRaw index)).2 ⟨true, entries, some handle⟩ := by
  have served := holds.underPlan .never
  simp only [step, operate, Listing.readRaw]
  cases closed : handle.closed with
  | true =>
    have nothing : (log.underPlan .never).ledger = none := by rw [served.ledger, closed]; rfl
    rw [Log.readRaw_of_closed nothing]
    exact ⟨rfl, .held served⟩
  | false =>
    have ledger : (log.underPlan .never).ledger = some (Entries.ledger entries) := by
      rw [served.ledger, closed]; rfl
    have read := (served.shows rfl closed inRange).readRaw index
    obtain ⟨calls, left⟩ := (Entries.ledger entries).afterwards_readRaw index (log.underPlan .never).device
    rw [Log.outcome_readRaw ledger] at read
    rw [Log.readRaw_eq ledger, ← read]
    cases ran : (Entries.ledger entries).readRaw index (log.underPlan .never).device with
    | ok record device =>
      rw [ran, afterwards] at left
      subst left
      exact ⟨rfl, .held ⟨served.content, served.readable, served.writable, served.readOnly, served.ledger⟩⟩
    | error error device =>
      rw [ran, afterwards] at left
      subst left
      exact ⟨rfl, .held ⟨served.content, served.readable, served.writable, served.readOnly, served.ledger⟩⟩

theorem close_simulates (holds : Holds log entries handle) :
    ((held log).step .never .close).1 = .done ∧
      Simulates ((held log).step .never .close).2
        ⟨true, entries, some { handle with closed := true }⟩ := by
  have served := holds.underPlan .never
  simp only [step, operate]
  cases closed : handle.closed with
  | true =>
    have nothing : (log.underPlan .never).ledger = none := by rw [served.ledger, closed]; rfl
    rw [Log.close_eq_of_closed nothing]
    exact ⟨rfl, .held ⟨served.content, served.readable, served.writable, served.readOnly, nothing⟩⟩
  | false =>
    have ledger : (log.underPlan .never).ledger = some (Entries.ledger entries) := by
      rw [served.ledger, closed]; rfl
    obtain ⟨calls, done⟩ := Log.close_of_sound ledger rfl
    rw [done]
    exact ⟨rfl, .held ⟨served.content, served.readable, served.writable, served.readOnly, rfl⟩⟩

/-! Runs -/

/-- One request: the same reply, and the list is held again. -/
theorem step_simulates (simulates : Simulates session listing) (bounded : listing.Bounded)
    (request : Request) :
    (session.step .never request).1 = (listing.step request).1 ∧
      Simulates (session.step .never request).2 (listing.step request).2 := by
  cases request with
  | «open» path config => exact open_simulates simulates bounded path config
  | drop =>
    cases simulates with
    | empty content => exact ⟨rfl, .empty content⟩
    | stored content => exact ⟨rfl, .stored content⟩
    | held holds => exact ⟨rfl, .stored holds.content⟩
  | write now info payload =>
    cases simulates with
    | empty content => exact ⟨rfl, .empty content⟩
    | stored content => exact ⟨rfl, .stored content⟩
    | held holds => exact write_simulates holds now info payload
  | readRaw index =>
    cases simulates with
    | empty content => exact ⟨rfl, .empty content⟩
    | stored content => exact ⟨rfl, .stored content⟩
    | held holds => exact readRaw_simulates holds bounded.inRange index
  | close =>
    cases simulates with
    | empty content => exact ⟨rfl, .empty content⟩
    | stored content => exact ⟨rfl, .stored content⟩
    | held holds => exact close_simulates holds

theorem run_simulates (requests : List Request) (simulates : Simulates session listing)
    (bounded : (listing.run requests).2.Bounded) :
    (session.run requests).1 = (listing.run requests).1 ∧
      Simulates (session.run requests).2 (listing.run requests).2 := by
  -- The list at the end bounds all those before it, as nothing is taken from a list.
  induction requests generalizing session listing with
  | nil => exact ⟨rfl, simulates⟩
  | cons request rest ih =>
    obtain ⟨reply, middle⟩ := step_simulates simulates
      (bounded.of_isPrefix (Listing.isPrefix_run (request :: rest) listing)) request
    obtain ⟨replies, after⟩ := ih middle bounded
    exact ⟨by rw [run, Listing.run]; simp only [reply, replies], after⟩

/-- What is seen of a listing from outside: nothing until a log has been created; from then on
the bytes of the medium, and the list through an open handle and through every further one. -/
structure Shows (session : Session) (listing : Listing) : Prop where
  empty : listing.created = false → session.medium.content = []
  content : listing.created = true → session.medium.content = Entries.image listing.entries
  handle (log : Log) : session = .held log → log.ledger.isSome →
    (log.underPlan .never).Shows listing.entries
  reopened : listing.created = true → ∀ path config, ∃ log device,
    Log.openOn path config (.sound (session.medium.reopened config.readOnly)) = (.ok log, device) ∧
      device.medium.content = session.medium.content ∧ log.Shows listing.entries

theorem shows_of_image {medium : Medium} (front : Entries.image entries <+: medium.content)
    (bounded : Listing.Bounded ⟨true, entries, none⟩) (path : Option String) (config : Config) :
    ∃ log device,
      Log.openOn path config (.sound (medium.reopened config.readOnly)) = (.ok log, device) ∧
        device.medium.content = medium.content ∧ log.Shows entries := by
  have length := Entries.width_add_length_body entries
  obtain ⟨calls, opened⟩ := Log.openOn_of_liesIn path config medium bounded.wellFormed
    (Ledger.liesIn_of_isPrefix length front)
  refine ⟨_, _, opened, Medium.content_reopened _ _, Log.shows_of_carries rfl
    (Medium.readable_reopened _ _) rfl bounded.inRange ?_⟩
  rw [Device.bytes, Medium.content_reopened]
  exact Ledger.carries_of_isPrefix length front

theorem Simulates.shows (simulates : Simulates session listing) (bounded : listing.Bounded) :
    session.Shows listing := by
  cases simulates with
  | empty content =>
    exact ⟨fun _ => content, nofun, nofun, nofun⟩
  | stored content =>
    exact ⟨nofun, fun _ => content, nofun,
      fun _ => shows_of_image (content ▸ List.prefix_rfl) ⟨bounded.inRange, bounded.below⟩⟩
  | @held log entries handle holds =>
    refine ⟨nofun, fun _ => holds.content, ?_,
      fun _ => shows_of_image (holds.content ▸ List.prefix_rfl) ⟨bounded.inRange, bounded.below⟩⟩
    rintro _ ⟨⟩ opened
    have handleOpened : handle.closed = false := by
      cases closed : handle.closed with
      | false => rfl
      | true => simp [holds.ledger, closed] at opened
    exact (holds.underPlan .never).shows rfl handleOpened bounded.inRange

/-- The log refines an append-only list: a session on a store that starts out empty replies as
the list does, and shows the list at its end, whatever is requested in whatever order. -/
theorem run_refines (requests : List Request) {medium : Medium} (empty : medium.content = [])
    (bounded : (Listing.start.run requests).2.Bounded) :
    ((stored medium).run requests).1 = (Listing.start.run requests).1 ∧
      ((stored medium).run requests).2.Shows (Listing.start.run requests).2 := by
  obtain ⟨replies, simulates⟩ := run_simulates requests (.empty empty) bounded
  exact ⟨replies, simulates.shows bounded⟩

theorem run_refines_reopening :
    let info : Meta := ⟨5, ⟨105, 116, 101, 109⟩, .update⟩
    let requests : List Request := [.open none .standard, .write 0 info (.ofBytes [7]), .drop,
      .open none .standard, .write 0 info (.ofBytes []), .close, .readRaw 0, .open none .standard,
      .readRaw 1]
    ((stored (.memory ⟨[]⟩)).run requests).1 =
        [.done, .index 0, .done, .done, .index 1, .done, .refused .closed, .done,
          .record ⟨1, 31, info, []⟩] ∧
      ((stored (.memory ⟨[]⟩)).run requests).2.Shows
        ⟨true, [⟨info, [7]⟩, ⟨info, []⟩], some ⟨false, false⟩⟩ :=
  run_refines _ rfl ⟨by decide, by decide⟩

end Session

end AppendLog
