import Mathlib.Data.List.Nodup
import AppendLog.Proofs.Entries
import AppendLog.Proofs.Session

/-! A commit that fails at one of its steps.

The write names the step, and the log in memory stays what it was. How much of the log
in the store comes back depends on how far rolling back gets: with the two writes that
put footer and header back everything up to the end of the footer, and with the cut
behind them every byte. The cut does not reach what a torn write has stored over the end
of a file, since the file does not know of it: `unseen_of_stops`.
-/

set_option autoImplicit false

namespace AppendLog

namespace Stroke

variable {stroke : Stroke} {fault : Fault} {medium : Medium} {position : Nat}

/-- The stroke is a write that has stored the byte at that position when it fails. -/
def Covers (stroke : Stroke) (fault : Fault) (position : Nat) : Prop :=
  ∃ offset data, stroke = write offset data ∧ offset ≤ position ∧
    position < offset + (fault.landed data).length

theorem covers_write {offset : Nat} {data : Bytes} : (write offset data).Covers fault position ↔
    offset ≤ position ∧ position < offset + (fault.landed data).length := by
  simp [Covers, and_assoc]

theorem unseen_wreck (writable : medium.Writable) (inside : stroke.Inside medium.content.length) :
    (stroke.wreck fault medium).unseen position ≠ [] ↔
      (∃ file, medium = .file file) ∧ medium.content.length ≤ position ∧
        ∃ offset data, stroke = write offset data ∧ position < offset + (fault.landed data).length := by
  cases medium with
  | memory m =>
    have nothing : (stroke.wreck fault (.memory m)).unseen position = [] :=
      Medium.unseen_of_readable (Medium.writable_memory _).readable _
    simp [nothing]
  | file f =>
    have known : f.size = f.content.length := writable.1
    have left : (stroke.wreck fault (.file f)).unseen position ≠ [] ↔ f.content.length ≤ position ∧
        position < (stroke.applyTorn fault f.content).length := by
      simp only [wreck, Medium.knowing, Medium.unseen, Medium.size, Medium.content, known]
      split
      · simp; omega
      · simp; omega
    rw [left]
    simp only [Medium.content, Medium.file.injEq, exists_eq', true_and, and_congr_right_iff]
    intro short
    -- Only a write makes the bytes longer.
    cases stroke with
    | write offset data =>
      have length := Bytes.length_overlay (show offset ≤ f.content.length from inside) (fault.landed data)
      simp only [applyTorn, length, write.injEq]
      constructor
      · intro long
        exact ⟨offset, data, ⟨rfl, rfl⟩, by omega⟩
      · rintro ⟨_, _, ⟨rfl, rfl⟩, long⟩
        omega
    | cut stop =>
      have shorter : (applyTorn (cut stop) fault f.content).length ≤ f.content.length := by
        cases fault with
        | fail _ => exact Nat.le_refl _
        | torn _ _ => exact List.length_take_le' _ _
      simp only [reduceCtorEq, false_and, exists_false, iff_false]
      omega
    | measure | sync =>
      simp only [applyTorn, reduceCtorEq, false_and, exists_false, iff_false]
      omega

end Stroke

namespace Ledger

variable {ledger : Ledger} {bytes body info data : Bytes} {medium left : Medium} {step : Step} {fault : Fault}

theorem liesIn_of_take_stop (length : Header.width + body.length = ledger.header.footerOffset)
    (front : bytes.take ledger.stop = ledger.image body) : ledger.LiesIn bytes :=
  liesIn_of_isPrefix length (front ▸ List.take_prefix _ _)

theorem trimScript_keeps (stop size : Nat) (front : Bytes) : ∀ entry ∈ trimScript stop size,
    entry.2.Keeps (fun medium => medium.content.take stop = front) := by
  intro entry member medium _ _ _ same
  have twice : (medium.content.take stop).take stop = front := by
    rw [List.take_take, Nat.min_self, same]
  simp only [Stroke.effect, Stroke.wreck, Medium.content_knowing]
  rcases List.mem_cons.mp member with rfl | cut
  · exact ⟨same, fun _ => same⟩
  · split at cut
    · rw [List.mem_singleton.mp cut]
      refine ⟨twice, fun fault => ?_⟩
      cases fault with
      | fail _ => exact same
      | torn _ _ => exact twice
    · cases cut

/-! What a commit leaves behind the end of the log -/

theorem commitScript_steps_nodup (ledger : Ledger) (info data : Bytes) (size : Nat) :
    ((ledger.commitScript info data size).map Prod.fst).Nodup := by
  simp only [commitScript, recordScript, trimScript]
  split <;> simp

theorem stop_lt_next (ledger : Ledger) (payload : Nat) : ledger.stop < (ledger.next payload).stop := by
  simp only [stop, next, Footer.push, Footer.encodedLength, Footer.length, Footer.entryWidth,
    List.length_append, List.length_singleton]
  omega

theorem lt_extend_of_tail {position size reach : Nat} {front rest : Script}
    (below : position < (ledger.next data.length).stop) (reaches : position < reach)
    (split : trimScript (ledger.next data.length).stop size ++
      [(.writeHeader, .write 0 (ledger.next data.length).header.bytes)] = front ++ rest) :
    position < front.extend reach := by
  have all : ∀ entry ∈ front, ∀ reach, position < reach → position < entry.2.extend reach := by
    intro entry member reach reaches
    have inside : entry ∈ trimScript (ledger.next data.length).stop size ++
        [(.writeHeader, .write 0 (ledger.next data.length).header.bytes)] :=
      split ▸ List.mem_append_left rest member
    simp only [trimScript, List.cons_append, List.mem_cons, List.mem_append, List.not_mem_nil,
      or_false] at inside
    rcases inside with rfl | cut | rfl
    · exact reaches
    · split at cut
      · rw [List.mem_singleton.mp cut]
        exact below
      · cases cut
    · exact Nat.lt_of_lt_of_le reaches (Nat.le_max_left _ _)
  clear split
  induction front generalizing reach with
  | nil => exact reaches
  | cons head front ih =>
    obtain ⟨first, others⟩ := List.forall_mem_cons.mp all
    exact ih (first reach reaches) others

theorem not_covers_of_tail {position size : Nat} (behind : Header.width ≤ position) {stroke : Stroke}
    (member : (step, stroke) ∈ trimScript (ledger.next data.length).stop size ++
      [(.writeHeader, .write 0 (ledger.next data.length).header.bytes)]) :
    ¬ stroke.Covers fault position := by
  rintro ⟨offset, bytes, rfl, -, covered⟩
  simp only [trimScript, List.cons_append, List.mem_cons, List.mem_append, List.not_mem_nil, or_false,
    Prod.mk.injEq, reduceCtorEq, and_false, false_or, Stroke.write.injEq] at member
  rcases member with cut | ⟨-, rfl, rfl⟩
  · split at cut <;> simp at cut
  · have landed := fault.length_landed_le (ledger.next data.length).header.bytes
    rw [Header.length_bytes] at landed
    omega

theorem extend_le_stop_iff {front rest : Script} {stroke : Stroke} {size : Nat}
    (room : Header.width ≤ ledger.header.footerOffset) (width : info.length = Meta.width)
    (long : ledger.stop ≤ size)
    (split : ledger.commitScript info data size = front ++ (step, stroke) :: rest) :
    (front.extend size ≤ ledger.stop ∧ ∃ offset bytes, stroke = .write offset bytes ∧
        ledger.stop < offset + (fault.landed bytes).length) ↔
      size = ledger.stop ∧ stroke.Covers fault ledger.stop := by
  have behind : ledger.header.footerOffset ≤ ledger.stop := Nat.le_add_right _ _
  simp only [commitScript, recordScript, List.cons_append, List.nil_append] at split
  have written {start reach : Nat} {bytes : Bytes}
      (bound : reach ≤ ledger.stop ↔ size = ledger.stop ∧ start ≤ ledger.stop) :
      (reach ≤ ledger.stop ∧ ∃ offset landed, Stroke.write start bytes = .write offset landed ∧
        ledger.stop < offset + (fault.landed landed).length) ↔
      size = ledger.stop ∧ (Stroke.write start bytes).Covers fault ledger.stop := by
    simp [Stroke.covers_write, bound, and_assoc]
  -- By the number of strokes that have been done.
  rcases front with _ | ⟨first, _ | ⟨second, _ | ⟨third, front⟩⟩⟩
  · obtain ⟨⟨rfl, rfl⟩, -⟩ := by simpa using split
    exact written (by simp only [Script.extend]; omega)
  · obtain ⟨rfl, ⟨rfl, rfl⟩, -⟩ := by simpa using split
    exact written (by simp only [Script.extend, Stroke.extend]; omega)
  · obtain ⟨rfl, rfl, ⟨rfl, rfl⟩, -⟩ := by simpa using split
    exact written (by simp only [Script.extend, Stroke.extend, next]; omega)
  · simp only [List.cons_append, List.cons.injEq] at split
    obtain ⟨rfl, rfl, rfl, tail⟩ := split
    constructor
    · rintro ⟨reached, -⟩
      simp only [Script.extend] at reached
      refine absurd reached (Nat.not_le.mpr (lt_extend_of_tail (ledger.stop_lt_next data.length) ?_ tail))
      simp only [Stroke.extend, Footer.length_bytes]
      exact Nat.lt_of_lt_of_le (ledger.stop_lt_next data.length) (Nat.le_max_right _ _)
    · rintro ⟨-, covers⟩
      have member : (step, stroke) ∈ trimScript (ledger.next data.length).stop size ++
          [(.writeHeader, .write 0 (ledger.next data.length).header.bytes)] := by
        rw [tail]
        exact List.mem_append_right _ List.mem_cons_self
      exact absurd covers (not_covers_of_tail (Nat.le_trans room behind) member)

/-- A commit that stops leaves bytes behind the end of the log without the medium knowing of them
if its medium is a file that has ended there, and the failing stroke has written over that end. -/
theorem unseen_of_stops (writable : medium.Writable) (room : Header.width ≤ ledger.header.footerOffset)
    (long : ledger.stop ≤ medium.content.length) (width : info.length = Meta.width)
    (stops : (ledger.commitScript info data medium.content.length).Stops medium step fault left) :
    left.unseen ledger.stop = [] ↔
      ¬ ((∃ file, medium = .file file) ∧ medium.content.length = ledger.stop ∧
        ∃ stroke, (step, stroke) ∈ ledger.commitScript info data medium.content.length ∧
          stroke.Covers fault ledger.stop) := by
  obtain ⟨front, stroke, rest, split, rfl⟩ := stops.exists_split
  have inside := (ledger.commitScript_inside data width medium.content.length).mono
    (Nat.le_trans (Nat.le_add_right _ _) long)
  rw [split] at inside
  obtain ⟨frontInside, strokeInside, -⟩ := Script.inside_append.mp inside
  have reaches := writable.readable.reaches (Nat.le_refl medium.content.length)
  have length := Script.length_apply frontInside (Nat.le_refl medium.content.length)
  rw [Script.effect_eq_holding frontInside reaches writable.1]
  generalize Script.apply front medium.content = bytes at length
  -- The failing stroke is the only one of its step.
  have named : (∃ other, (step, other) ∈ ledger.commitScript info data medium.content.length ∧
      other.Covers fault ledger.stop) ↔ stroke.Covers fault ledger.stop := by
    have member : (step, stroke) ∈ ledger.commitScript info data medium.content.length := by
      rw [split]
      exact List.mem_append_right _ List.mem_cons_self
    constructor
    · rintro ⟨other, otherMember, covers⟩
      have same := List.inj_on_of_nodup_map (ledger.commitScript_steps_nodup info data _) otherMember
        member rfl
      cases same
      exact covers
    · exact fun covers => ⟨stroke, member, covers⟩
  have sameKind : (∃ file, medium.holding bytes = .file file) ↔ ∃ file, medium = .file file := by
    cases medium <;> simp [Medium.holding, Medium.knowing]
  rw [← not_ne_iff, Stroke.unseen_wreck (writable.holding bytes) (by rwa [Medium.content_holding, length]),
    Medium.content_holding, length, sameKind, extend_le_stop_iff room width long split, named]

/-! Rolling back -/

variable {device : Device}

/-- The two writes of a rollback bring the log back, also if the cut behind them fails. -/
theorem rollBack_of_putBack (changeable : device.medium.Changeable)
    (room : Header.width ≤ ledger.header.footerOffset)
    (reaches : device.medium.Reaches ledger.header.footerOffset) {put : Device}
    (succeeds : ledger.putBack device = .ok () put) :
    ∃ left calls, left.content.take ledger.stop =
        ledger.image (device.bytes.span Header.width ledger.header.footerOffset) ∧
      ledger.rollBack device = ⟨left, device.plan, calls⟩ := by
  have whole : ledger.restore device = trim ledger.stop put := bind_of_ok succeeds
  rw [putBack_eq] at succeeds
  obtain ⟨earlier, rfl⟩ :=
    Script.perform_eq_ok _ changeable ledger.putBackScript_inside reaches succeeds
  have front : (ledger.putBackScript.effect device.medium).content.take ledger.stop =
      ledger.image (device.bytes.span Header.width ledger.header.footerOffset) := by
    have length := length_image (Bytes.width_add_length_span reaches.2 room)
    rw [Script.effect_eq, Medium.content_knowing, putBackScript_apply room reaches.2]
    exact List.take_left' length
  have wide := Script.reaches_effect ledger.putBackScript_inside reaches
  rw [putBackScript_extend room] at wide
  -- What remains is the trim, each stroke of which keeps the front.
  rw [trim_eq] at whole
  obtain ⟨left, calls, kept, -, done⟩ := Script.perform_keeps
    ⟨ledger.putBackScript.effect device.medium, device.plan, earlier⟩
    ((Script.akin_effect _ _).changeable changeable) (trimScript_inside (Nat.le_max_right _ _) _) wide
    (trimScript_keeps ledger.stop _ _) front
  exact ⟨left, calls, kept, by rw [rollBack_eq, whole, done]⟩

/-- A rollback that succeeds as a whole leaves nothing but the log, and what is not known of. -/
theorem rollBack_of_restore (changeable : device.medium.Changeable)
    (room : Header.width ≤ ledger.header.footerOffset)
    (reaches : device.medium.Reaches ledger.header.footerOffset) {done : Device}
    (succeeds : ledger.restore device = .ok () done) : (ledger.rollBack device).medium =
      ledger.onto (device.bytes.span Header.width ledger.header.footerOffset) device.medium := by
  rw [rollBack_eq, succeeds, afterwards]
  rw [restore_eq changeable room reaches] at succeeds
  obtain ⟨calls, rfl⟩ :=
    Script.perform_eq_ok _ changeable (restoreScript_inside room _) reaches succeeds
  exact restoreScript_effect room reaches

end Ledger

namespace Log

variable {log : Log} {ledger : Ledger} {payload : Encoding} {data : Bytes} {loaded : Device}

/-- A log whose bytes up to the end of its footer are back opens as itself, and reads as before. -/
theorem openOn_of_take_stop (opened : log.ledger = some ledger) (formed : ledger.WellFormed)
    (lies : ledger.LiesIn log.device.bytes) (readable : log.device.medium.Readable) {medium : Medium}
    (front : medium.content.take ledger.stop = log.device.bytes.take ledger.stop) (path : Option String)
    (config : Config) :
    ∃ reopened device,
      openOn path config (.sound (medium.reopened config.readOnly)) = (.ok reopened, device) ∧
      reopened.ledger = some ledger ∧
      ∀ index, outcome (readRaw index reopened) = outcome (readRaw index (log.underPlan .never)) := by
  have reaches : ledger.header.footerOffset ≤ log.device.bytes.length :=
    Nat.le_trans (Nat.le_add_right _ _) lies.stop_le
  have liesAgain : ledger.LiesIn medium.content := Ledger.liesIn_of_take_stop
    (Bytes.width_add_length_span reaches formed.room) (front.trans (lies.take_stop formed.room))
  obtain ⟨reopened, device, opens, same, read⟩ := openOn_reads path config medium formed liesAgain
  refine ⟨reopened, device, opens, same, fun index => ?_⟩
  rw [read, outcome_readRaw_of_fits (show (log.underPlan .never).ledger = some ledger from opened)
    formed.toFits readable.2 rfl (readable.reaches reaches)]
  -- The records lie in front of the footer, and so in the part that is back.
  apply Ledger.recordIn_congr formed.toFits
  have below : ledger.header.footerOffset ≤ ledger.stop := Nat.le_add_right _ _
  rw [← Bytes.span_take _ below, front, Bytes.span_take _ below]
  rfl

/-- The first step of the commit that the plan fails is the one that the write names. The ledger
stays, and the medium gets back as much as the rollback succeeds in. When all of it succeeds, the
medium is what it was up to the end of the log, unless it is a file that has ended there and the
failing write has stored the byte behind that end. -/
theorem write_rolls_back_iff (now : Int) (info : Meta) (opened : log.ledger = some ledger)
    (writes : log.config.readOnly = false) (writable : log.device.medium.Writable)
    (loads : Ledger.load (.sound log.device.medium) = .ok ledger loaded)
    (encoded : payload.toBytes = .ok data) {step : Step} {fault : Fault}
    (halts : (ledger.commitScript (info.stamp now).bytes data log.device.bytes.length).halt?
      log.device.plan log.device.calls = some (step, fault)) :
    ∃ failed,
      ledger.writeRecord (info.stamp now).bytes data log.device =
        .error (.io step (.device (.broken fault.reason))) failed ∧
      write now info payload log = .error (.io step (.device (.broken fault.reason)))
        { log with device := ledger.rollBack failed } ∧
      (∀ put, ledger.putBack failed = .ok () put →
        (ledger.rollBack failed).bytes.take ledger.stop = log.device.bytes.take ledger.stop ∧
        ∀ path config, ∃ reopened device,
          openOn path config (.sound ((ledger.rollBack failed).medium.reopened config.readOnly)) =
            (.ok reopened, device) ∧
          reopened.ledger = some ledger ∧
          ∀ index, outcome (readRaw index reopened) = outcome (readRaw index (log.underPlan .never))) ∧
      (∀ done, ledger.restore failed = .ok () done →
        (ledger.rollBack failed).bytes =
          log.device.bytes.take ledger.stop ++ failed.medium.unseen ledger.stop ∧
        ((ledger.rollBack failed).medium =
            log.device.medium.holding (log.device.bytes.take ledger.stop) ↔
          ¬ ((∃ file, log.device.medium = .file file) ∧ log.device.bytes.length = ledger.stop ∧
            ∃ stroke,
              (step, stroke) ∈
                ledger.commitScript (info.stamp now).bytes data log.device.bytes.length ∧
              stroke.Covers fault ledger.stop))) := by
  have readable := writable.readable
  obtain ⟨formed, (lies : ledger.LiesIn log.device.bytes), -, -⟩ :=
    Ledger.load_eq_ok (.sound log.device.medium) readable loads
  have width := (info.stamp now).length_bytes
  have carries : log.device.medium.Carries
      (log.device.bytes.span Header.width ledger.header.footerOffset) ledger.header.footerOffset :=
    readable.carries ⟨Nat.le_trans (Nat.le_add_right _ _) lies.stop_le, rfl⟩
  rw [Device.bytes, ← writable.1] at halts
  obtain ⟨left, calls, stops, recorded, committed⟩ :=
    Ledger.commit_of_halt writable.2 carries.reaches width halts
  -- Whatever the failed step has left behind, the records are where they were.
  have kept := stops.keeps (ledger.commitScript_inside data width _) carries.reaches
    (ledger.commitScript_keeps _ _ _ _) carries
  have changeable := stops.akin.changeable writable.2
  have image : ledger.image (left.content.span Header.width ledger.header.footerOffset) =
      log.device.bytes.take ledger.stop := by
    rw [kept.records.same]
    exact (lies.take_stop formed.room).symm
  refine ⟨_, recorded, by rw [write_eq opened writes encoded, committed], ?_, ?_⟩
  · intro put succeeds
    obtain ⟨rolled, calls, front, done⟩ :=
      Ledger.rollBack_of_putBack changeable formed.room kept.reaches succeeds
    rw [done]
    have same : rolled.content.take ledger.stop = log.device.bytes.take ledger.stop := front.trans image
    exact ⟨same, openOn_of_take_stop opened formed lies readable same⟩
  · intro done succeeds
    have rolled := Ledger.rollBack_of_restore changeable formed.room kept.reaches succeeds
    rw [Device.bytes, rolled, Ledger.content_onto]
    refine ⟨by rw [Device.bytes, image], ?_⟩
    have length := carries.records.length formed.room
    have before : log.device.medium.holding (log.device.bytes.take ledger.stop) =
        ledger.onto (left.content.span Header.width ledger.header.footerOffset) log.device.medium := by
      rw [kept.records.same, Ledger.onto_of_readable readable length, ← kept.records.same, image]
    rw [writable.1] at stops
    rw [before, Device.bytes]
    exact (Ledger.onto_eq_iff stops.akin readable _).trans
      (Ledger.unseen_of_stops writable formed.room lies.stop_le width stops)

theorem write_rolls_back_torn_data :
    let settings : FaultSettings := ⟨some 1, 1, true, false, false, false, false, false⟩
    let medium : Medium := .memory ⟨Ledger.fresh.image [] ++ [9, 9]⟩
    ∃ after, write 7 ⟨0, ⟨0, 0, 0, 0⟩, .insert⟩ (.ofBytes [1, 2, 3, 4])
        ⟨none, .standard, some .fresh, ⟨medium, settings.plan, []⟩⟩ =
          .error (.io .writeData (.device (.broken "disk full"))) after ∧
      after.ledger = some .fresh ∧ after.device.medium = .memory ⟨Ledger.fresh.image []⟩ := by
  intro settings medium
  obtain ⟨failed, recorded, written, -, restored⟩ := write_rolls_back_iff 7 ⟨0, ⟨0, 0, 0, 0⟩, .insert⟩
    (show (Log.mk none .standard (some .fresh) ⟨medium, settings.plan, []⟩).ledger = some .fresh from rfl)
    rfl (Medium.writable_memory _) rfl
    (show (Encoding.ofBytes [1, 2, 3, 4]).toBytes = .ok [1, 2, 3, 4] from rfl)
    (show _ = some (Step.writeData, Fault.torn 2 "disk full") from rfl)
  refine ⟨_, written, rfl, ?_⟩
  cases recorded
  exact (restored _ rfl).2.mpr nofun

/-- A record that is torn behind the end of a file stays there in part, although every call of the
rollback succeeds. -/
theorem write_not_rolled_back :
    let info : Meta := ⟨5, ⟨105, 116, 101, 109⟩, .insert⟩
    let settings : FaultSettings := ⟨some 1, 1, true, false, false, false, false, false⟩
    let ledger := Entries.ledger [⟨info, [7]⟩]
    let image := Entries.image [⟨info, [7]⟩]
    let log : Log :=
      ⟨none, .standard, some ledger, ⟨.file (.ofContent image .readWrite), settings.plan, []⟩⟩
    ∃ loaded failed done after,
      Ledger.load (.sound log.device.medium) = .ok ledger loaded ∧ image.length = ledger.stop ∧
      ledger.writeRecord info.bytes (List.replicate 20 9) log.device =
        .error (.io .writeData (.device (.broken "disk full"))) failed ∧
      ledger.restore failed = .ok () done ∧
      write 0 info (.ofBytes (List.replicate 20 9)) log =
        .error (.io .writeData (.device (.broken "disk full"))) after ∧
      after.device.bytes = image ++ List.replicate 7 9 := by
  intro info settings ledger image log
  have formed : ledger.WellFormed := (Entries.fits _).wellFormed (by decide)
  obtain ⟨_, loads⟩ :=
    Ledger.load_of_liesIn (.sound log.device.medium) ⟨rfl, nofun⟩ rfl formed (Entries.liesIn _)
  let failed := afterwards (ledger.writeRecord info.bytes (List.replicate 20 9) log.device)
  have changeable : failed.medium.Changeable := rfl
  have reaches : failed.medium.Reaches ledger.header.footerOffset :=
    ⟨by decide +kernel, by decide +kernel⟩
  obtain ⟨_, restored⟩ := Script.perform_of_sound failed changeable
    (Ledger.restoreScript_inside formed.room failed.medium.size) reaches (by decide +kernel)
  rw [← Ledger.restore_eq changeable formed.room reaches] at restored
  exact ⟨_, failed, _, afterwards (write 0 info (.ofBytes (List.replicate 20 9)) log), loads,
    Entries.length_image _, rfl, restored, rfl, by decide +kernel⟩

end Log

end AppendLog
