import AppendLog.Proofs.Mirrors
import AppendLog.Proofs.Reached
import AppendLog.Proofs.Rollback

/-! Bytes stored behind the footer.

They are no part of the log. Two logs are alike if they have the same records under the same ledger,
whatever lies behind the footer of either. Reading is blind to the difference: alike logs give the
same answers, and are still alike afterwards. A write leaves nothing of it, so that the bytes of
alike logs are the same ones from then on.
-/

set_option autoImplicit false

namespace AppendLog

namespace Log

/-- The ledger places those bytes between header and footer, and nothing fails to read them, nor to
change them unless the log is read-only. -/
structure Bears (log : Log) (ledger : Ledger) (body : Bytes) : Prop where
  opened : log.ledger = some ledger
  fits : ledger.Fits
  readable : log.device.medium.Readable
  writable : log.config.readOnly = false → log.device.medium.Writable
  sound : log.device.plan = .never
  carries : Bytes.Carries body ledger.header.footerOffset log.device.bytes

/-- The same records under the same ledger. -/
def Alike (first second : Log) : Prop :=
  ∃ ledger body, first.Bears ledger body ∧ second.Bears ledger body

/-- The operation does not tell alike logs apart, and leaves them alike. -/
def Blind {α : Type} (operation : LogOp α) : Prop :=
  ∀ ⦃first second : Log⦄, Alike first second →
    outcome (operation first) = outcome (operation second) ∧
      Alike (afterwards (operation first)) (afterwards (operation second))

variable {log first second : Log} {ledger : Ledger} {body : Bytes}

/-! Reading -/

theorem Bears.outcome_readRaw (bears : log.Bears ledger body) (index : Nat) :
    outcome (readRaw index log) = ledger.recordIn log.device.bytes index :=
  outcome_readRaw_of_fits bears.opened bears.fits bears.readable.2
    (by rw [Device.fault?, bears.sound]; rfl) (bears.readable.reaches bears.carries.reaches) index

theorem Bears.afterwards_readRaw (bears : log.Bears ledger body) (index : Nat) :
    (afterwards (readRaw index log)).Bears ledger body := by
  obtain ⟨calls, left⟩ := log.afterwards_readRaw index
  rw [left]
  exact ⟨bears.opened, bears.fits, bears.readable, bears.writable, bears.sound, bears.carries⟩

theorem blind_opened : Blind opened := by
  rintro first second ⟨ledger, body, one, other⟩
  rw [opened_eq one.opened, opened_eq other.opened]
  exact ⟨rfl, ledger, body, one, other⟩

theorem blind_readRaw (index : Nat) : Blind (readRaw index) := by
  rintro first second ⟨ledger, body, one, other⟩
  refine ⟨?_, ledger, body, one.afterwards_readRaw index, other.afterwards_readRaw index⟩
  rw [one.outcome_readRaw, other.outcome_readRaw]
  exact Ledger.recordIn_congr one.fits (one.carries.same.trans other.carries.same.symm) index

section Decoded

variable {α : Type} (decoder : Decoding α)

theorem blind_read (index : Nat) : Blind (read decoder index) :=
  (compositional_respects Alike).read blind_readRaw decoder index

theorem blind_readAll : Blind (readAll decoder) :=
  (compositional_respects Alike).readAll blind_readRaw decoder blind_opened

end Decoded

theorem blind_walk (index : Nat) : Blind (walk index) :=
  (compositional_respects Alike).walk blind_opened index

theorem Alike.readings (alike : Alike first second) (limit : Option Nat) (walk : Walk) :
    (walk.readings limit first).1 = (walk.readings limit second).1 :=
  (readings_of_respects blind_opened blind_readRaw alike limit walk).1

theorem stats_of_sound (opened : log.ledger = some ledger) (readable : log.device.medium.Readable)
    (sound : log.device.plan = .never) : outcome (stats log) =
      .ok ⟨ledger.header, ledger.footer.encodedLength, log.device.bytes.length,
        log.device.bytes.length - ledger.stop⟩ := by
  have measured := (Device.run_size_eq_ok .readSize readable).mpr
    ⟨show log.device.fault? .size = none by rw [Device.fault?, sound]; rfl, rfl, rfl⟩
  simp only [stats, Log.opened, bind, EStateM.bind, run_get, opened, run_pure, act, measured]
  rfl

/-! Writing -/

structure Trimmed (log : Log) (ledger : Ledger) (body : Bytes) : Prop where
  opened : log.ledger = some ledger
  readable : log.device.medium.Readable
  sound : log.device.plan = .never
  bytes : log.device.bytes = ledger.image body
  width : Header.width + body.length = ledger.header.footerOffset

theorem Trimmed.length (trimmed : log.Trimmed ledger body) : log.device.bytes.length = ledger.stop := by
  rw [trimmed.bytes, Ledger.length_image trimmed.width]

theorem Trimmed.stats (trimmed : log.Trimmed ledger body) : outcome (stats log) =
    .ok ⟨ledger.header, ledger.footer.encodedLength, ledger.stop, 0⟩ := by
  rw [stats_of_sound trimmed.opened trimmed.readable trimmed.sound, trimmed.length, Nat.sub_self]

variable {info : Meta} {payload : Encoding} {data : Bytes}

theorem Bears.write_trims (bears : log.Bears ledger body) (writes : log.config.readOnly = false)
    (encoded : payload.toBytes = .ok data) (now : Int) (info : Meta) :
    ∃ after, write now info payload log = .ok ledger.header.totalRecords after ∧
      after.Trimmed (ledger.next data.length) (body ++ (info.stamp now).bytes ++ data) := by
  have writable := bears.writable writes
  obtain ⟨calls, written⟩ := write_of_writable now info bears.opened writes encoded bears.sound writable
    bears.fits.room bears.carries
  exact ⟨_, written, rfl, (writable.holding _).readable, bears.sound, Medium.content_holding _ _,
    Ledger.width_add_length_next bears.fits.room bears.carries (info.stamp now) data⟩

theorem Bears.write_same (one : first.Bears ledger body) (other : second.Bears ledger body)
    (same : second.config = first.config) (isSet : info.isUnset = false) {now : Int} {index : Nat}
    {after : Log} (written : write now info payload first = .ok index after) (later : Int) :
    ∃ after' next body, write later info payload second = .ok index after' ∧
      after.Trimmed next body ∧ after'.Trimmed next body := by
  have stamp (now : Int) : info.stamp now = info := by simp [Meta.stamp, isSet]
  cases readOnly : first.config.readOnly with
  | true =>
    rw [write_of_readOnly readOnly] at written
    cases written
  | false =>
    obtain ⟨data, encoded, -, -, -, -⟩ :=
      write_eq_ok one.opened (one.writable readOnly).2 one.fits.room (one.readable.carries one.carries)
        written
    obtain ⟨_, written', trimmed⟩ := one.write_trims readOnly encoded now info
    cases written.symm.trans written'
    obtain ⟨after', written', trimmed'⟩ := other.write_trims (same ▸ readOnly) encoded later info
    rw [stamp] at trimmed trimmed'
    exact ⟨after', _, _, written', trimmed, trimmed'⟩

/-! Opening -/

theorem openOn_image_append (path : Option String) (config : Config) {medium : Medium} {strays : Bytes}
    (formed : ledger.WellFormed) (length : Header.width + body.length = ledger.header.footerOffset)
    (content : medium.content = ledger.image body ++ strays) :
    ∃ log device, openOn path config (.sound (medium.reopened config.readOnly)) = (.ok log, device) ∧
      log.config = config ∧ log.Bears ledger body ∧
      outcome (stats log) = .ok ⟨ledger.header, ledger.footer.encodedLength,
        ledger.stop + strays.length, strays.length⟩ := by
  have lies : ledger.LiesIn medium.content :=
    Ledger.liesIn_of_take_stop length (by rw [content, List.take_left' (Ledger.length_image length)])
  obtain ⟨calls, opened⟩ := openOn_of_liesIn path config medium formed lies
  have readable := medium.readable_reopened config.readOnly
  have bytes : (medium.reopened config.readOnly).content = ledger.image body ++ strays :=
    (Medium.content_reopened _ _).trans content
  have carries : Bytes.Carries body ledger.header.footerOffset (medium.reopened config.readOnly).content := by
    rw [bytes]
    exact Ledger.carries_of_isPrefix length (List.prefix_append _ _)
  refine ⟨_, _, opened, rfl, ⟨rfl, formed.toFits, readable,
    fun writes => writes ▸ medium.writable_reopened, rfl, carries⟩, ?_⟩
  rw [stats_of_sound rfl readable rfl, Device.bytes, bytes, List.length_append,
    Ledger.length_image length, Nat.add_sub_cancel_left]

/-- What is stored behind the footer of a log never shows. Whatever is put in its place, the log opens
as the same one and reads the same, and what has been put there is counted as orphaned. After the same
write nothing of it is left. -/
theorem stray_bytes_unseen {medium : Medium} {path : Option String} {config : Config} {log : Log}
    {device : Device}
    (opens : openOn path config (.sound (medium.reopened config.readOnly)) = (.ok log, device))
    (held : log.ledger = some ledger) (path' : Option String) (config' : Config)
    {one other : Medium} {here there : Bytes}
    (oneContent : one.content = log.device.bytes.take ledger.stop ++ here)
    (otherContent : other.content = log.device.bytes.take ledger.stop ++ there) :
    (medium.content ≠ [] → log.device.bytes = medium.content) ∧
    ∃ this that deviceThis deviceThat,
      openOn path' config' (.sound (one.reopened config'.readOnly)) = (.ok this, deviceThis) ∧
      openOn path' config' (.sound (other.reopened config'.readOnly)) = (.ok that, deviceThat) ∧
      this.ledger = some ledger ∧ that.ledger = some ledger ∧
      (∀ index, outcome (readRaw index this) = outcome (readRaw index that)) ∧
      (∀ {α : Type} (decoder : Decoding α),
        (∀ index, outcome (read decoder index this) = outcome (read decoder index that)) ∧
        outcome (readAll decoder this) = outcome (readAll decoder that)) ∧
      (∀ start limit, outcome (walk start this) = outcome (walk start that) ∧
        ((Walk.start start).readings limit this).1 = ((Walk.start start).readings limit that).1) ∧
      outcome (stats this) = .ok ⟨ledger.header, ledger.footer.encodedLength,
        ledger.stop + here.length, here.length⟩ ∧
      outcome (stats that) = .ok ⟨ledger.header, ledger.footer.encodedLength,
        ledger.stop + there.length, there.length⟩ ∧
      ∀ now later info payload index this', info.isUnset = false →
        write now info payload this = .ok index this' →
        ∃ that' next, write later info payload that = .ok index that' ∧
          this'.ledger = some next ∧ that'.ledger = some next ∧
          this'.device.bytes = that'.device.bytes ∧ this'.device.bytes.length = next.stop ∧
          outcome (stats this') = .ok ⟨next.header, next.footer.encodedLength, next.stop, 0⟩ ∧
          outcome (stats that') = .ok ⟨next.header, next.footer.encodedLength, next.stop, 0⟩ := by
  obtain ⟨_, held', formed, lies, -, -, content⟩ := openOn_lies opens
  cases held.symm.trans held'
  have carries : Bytes.Carries (log.device.bytes.span Header.width ledger.header.footerOffset)
      ledger.header.footerOffset log.device.bytes :=
    ⟨Nat.le_trans (Nat.le_add_right _ _) lies.stop_le, rfl⟩
  have length := carries.length formed.room
  rw [lies.take_stop formed.room] at oneContent otherContent
  obtain ⟨this, deviceThis, opensThis, configThis, bearsThis, statsThis⟩ :=
    openOn_image_append path' config' formed length oneContent
  obtain ⟨that, deviceThat, opensThat, configThat, bearsThat, statsThat⟩ :=
    openOn_image_append path' config' formed length otherContent
  have alike : Alike this that := ⟨ledger, _, bearsThis, bearsThat⟩
  refine ⟨content, this, that, deviceThis, deviceThat, opensThis, opensThat, bearsThis.opened,
    bearsThat.opened, fun index => (blind_readRaw index alike).1, fun decoder =>
      ⟨fun index => (blind_read decoder index alike).1, (blind_readAll decoder alike).1⟩,
    fun start limit => ⟨(blind_walk start alike).1, alike.readings limit _⟩, statsThis, statsThat, ?_⟩
  intro now later info payload index this' isSet written
  obtain ⟨that', next, body, written', trimmed, trimmed'⟩ :=
    bearsThis.write_same bearsThat (configThat.trans configThis.symm) isSet written later
  exact ⟨that', next, written', trimmed.opened, trimmed'.opened, trimmed.bytes.trans trimmed'.bytes.symm,
    trimmed.length, trimmed.stats, trimmed'.stats⟩

/-- A record that ends behind the one tail, and inside the other. -/
theorem stray_bytes_unseen_of_two_tails :
    let info : Meta := ⟨5, ⟨105, 116, 101, 109⟩, .insert⟩
    let opened (strays : Bytes) : Log := ⟨none, .standard, some .fresh,
      ⟨.memory ⟨Ledger.fresh.image [] ++ strays⟩, .never, [.size, .read, .read, .read, .size]⟩⟩
    (∀ index, outcome (readRaw index (opened [1, 2, 3])) =
      outcome (readRaw index (opened (List.replicate 40 9)))) ∧
    ∃ this that, write 0 info (.ofBytes [7]) (opened [1, 2, 3]) = .ok 0 this ∧
      write 8 info (.ofBytes [7]) (opened (List.replicate 40 9)) = .ok 0 that ∧
      this.device.bytes = that.device.bytes ∧ this.device.bytes.length = 47 := by
  intro info opened
  have opens (strays : Bytes) (few : strays = [] ∨ strays = [1, 2, 3] ∨ strays = List.replicate 40 9) :
      openOn none .standard (.sound (.memory ⟨Ledger.fresh.image [] ++ strays⟩)) =
        (.ok (opened strays), (opened strays).device) := by
    subst opened
    rcases few with rfl | rfl | rfl <;> rfl
  obtain ⟨-, this, that, _, _, opensThis, opensThat, -, -, reads, -, -, -, -, same⟩ :=
    @stray_bytes_unseen .fresh (.memory ⟨Ledger.fresh.image [] ++ []⟩) none .standard _ _
      (opens [] (.inl rfl)) rfl none .standard (.memory ⟨Ledger.fresh.image [] ++ [1, 2, 3]⟩)
      (.memory ⟨Ledger.fresh.image [] ++ List.replicate 40 9⟩) [1, 2, 3] (List.replicate 40 9) rfl rfl
  cases (opens _ (.inr (.inl rfl))).symm.trans opensThis
  cases (opens _ (.inr (.inr rfl))).symm.trans opensThat
  have records : Bytes.Carries [] Ledger.fresh.header.footerOffset (opened [1, 2, 3]).device.bytes :=
    ⟨by decide, rfl⟩
  obtain ⟨calls, written⟩ := write_of_writable 0 info
    (show (opened [1, 2, 3]).ledger = some .fresh from rfl) rfl
    (show (Encoding.ofBytes [7]).toBytes = .ok [7] from rfl) rfl (Medium.writable_memory _) (Nat.le_refl _)
    records
  obtain ⟨after, next, written', grown, -, equal, length, -⟩ := same 0 8 info _ 0 _ rfl written
  cases grown
  exact ⟨reads, _, after, written, written', equal, length⟩

end Log

end AppendLog
