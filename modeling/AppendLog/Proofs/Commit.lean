import Mathlib.Data.List.Infix
import AppendLog.Log.Handle
import AppendLog.Proofs.Layout

/-! What creating, committing and restoring do to the bytes of a log.

Each of these is a script, and the bytes between the header and the footer offset are
carried through all of them, whichever of their steps fail. A commit that comes to its
end leaves the image of the next ledger, with the record behind the earlier ones. Behind
the footer it leaves nothing but what the medium does not know of, and that is nothing at
all unless a call on a file has been torn.
-/

set_option autoImplicit false

namespace AppendLog

/-- The bytes reach as far as the offset, and between the header and it they are the body. -/
structure Bytes.Carries (body : Bytes) (offset : Nat) (bytes : Bytes) : Prop where
  reaches : offset ≤ bytes.length
  same : bytes.span Header.width offset = body

theorem Bytes.carries_append {front body : Bytes} {offset : Nat} (width : front.length = Header.width)
    (length : Header.width + body.length = offset) (rest : Bytes) :
    Carries body offset (front ++ (body ++ rest)) := by
  have stop : (front ++ body).length = offset := by rw [List.length_append, width, length]
  rw [← List.append_assoc]
  constructor
  · rw [List.length_append, stop]
    exact Nat.le_add_right _ _
  · rw [Bytes.span_append (Nat.le_of_eq stop.symm), Bytes.span, ← stop, List.take_length, ← width,
      List.drop_left]

theorem Bytes.Carries.overlay {body bytes : Bytes} {offset : Nat} (carries : Carries body offset bytes)
    {start : Nat} {data : Bytes} (inside : start ≤ bytes.length)
    (beside : offset ≤ start ∨ start + data.length ≤ Header.width) :
    Carries body offset (bytes.overlay start data) := by
  constructor
  · rw [Bytes.length_overlay inside]
    exact Nat.le_trans carries.reaches (Nat.le_max_left _ _)
  · rw [← carries.same]
    rcases beside with behind | front
    · exact Bytes.span_overlay_front bytes inside behind data
    · exact Bytes.span_overlay_behind bytes inside data front

theorem Bytes.width_add_length_span {bytes : Bytes} {offset : Nat} (inside : offset ≤ bytes.length)
    (room : Header.width ≤ offset) : Header.width + (bytes.span Header.width offset).length = offset := by
  rw [Bytes.length_span inside]
  exact Nat.add_sub_cancel' room

theorem Bytes.Carries.length {body bytes : Bytes} {offset : Nat} (carries : Carries body offset bytes)
    (room : Header.width ≤ offset) : Header.width + body.length = offset := by
  rw [← carries.same, Bytes.width_add_length_span carries.reaches room]

theorem Bytes.Carries.split {body tail bytes : Bytes} {offset : Nat}
    (carries : Carries (body ++ tail) (offset + tail.length) bytes)
    (length : Header.width + body.length = offset) :
    Carries body offset bytes ∧ bytes.span offset (offset + tail.length) = tail := by
  obtain ⟨reaches, same⟩ := carries
  have start : Header.width ≤ offset := length ▸ Nat.le_add_right _ _
  rw [← Bytes.span_append_span bytes start (Nat.le_add_right _ _)] at same
  have front : (bytes.span Header.width offset).length = body.length := by
    rw [Bytes.length_span (Nat.le_of_add_right_le reaches), ← length, Nat.add_sub_cancel_left]
  obtain ⟨front, behind⟩ := List.append_inj same front
  exact ⟨⟨Nat.le_of_add_right_le reaches, front⟩, behind⟩

/-- The medium knows of bytes up to the offset, and between the header and there they are the body. -/
structure Medium.Carries (body : Bytes) (offset : Nat) (medium : Medium) : Prop where
  known : offset ≤ medium.size
  records : Bytes.Carries body offset medium.content

theorem Medium.Carries.reaches {body : Bytes} {offset : Nat} {medium : Medium}
    (carries : Carries body offset medium) : medium.Reaches offset :=
  ⟨carries.known, carries.records.reaches⟩

theorem Medium.carries_knowing (medium : Medium) {body bytes : Bytes} {offset size : Nat}
    (known : offset ≤ size) (records : Bytes.Carries body offset bytes) :
    Carries body offset (medium.knowing size bytes) := by
  refine ⟨?_, by rwa [Medium.content_knowing]⟩
  cases medium with
  | memory m => exact records.reaches
  | file f => exact known

theorem Medium.Readable.carries {medium : Medium} (readable : medium.Readable) {body : Bytes} {offset : Nat}
    (records : Bytes.Carries body offset medium.content) : Medium.Carries body offset medium :=
  ⟨(readable.reaches records.reaches).1, records⟩

namespace Stroke

def Beside (offset : Nat) : Stroke → Prop
  | write start data => offset ≤ start ∨ start + data.length ≤ Header.width
  | cut stop => offset ≤ stop
  | measure | sync => True

theorem Beside.keeps {stroke : Stroke} {offset : Nat} (beside : stroke.Beside offset) (body : Bytes) :
    stroke.Keeps (Medium.Carries body offset) := by
  intro medium reach reaches inside carries
  obtain ⟨known, records⟩ := carries
  cases stroke with
  | write start data =>
    have room : start ≤ medium.content.length := Nat.le_trans inside reaches.2
    refine ⟨medium.carries_knowing (Nat.le_trans known (Nat.le_max_left _ _))
      (records.overlay room beside), fun fault => medium.carries_knowing known (records.overlay room ?_)⟩
    -- A torn write stores no more than the whole one.
    have landed := fault.length_landed_le data
    rcases beside with behind | front
    · exact .inl behind
    · exact .inr (by omega)
  | cut stop =>
    have rest : Bytes.Carries body offset (medium.content.take stop) := by
      refine ⟨?_, ?_⟩
      · rw [List.length_take]
        exact Nat.le_min.mpr ⟨beside, records.reaches⟩
      · rw [Bytes.span_take _ beside, records.same]
    refine ⟨medium.carries_knowing beside rest, fun fault => medium.carries_knowing known ?_⟩
    cases fault with
    | fail _ => exact records
    | torn _ _ => exact rest
  | measure | sync =>
    exact ⟨medium.carries_knowing known records, fun _ => medium.carries_knowing known records⟩

end Stroke

namespace Ledger

variable {ledger : Ledger} {device : Device} {info data bytes : Bytes}

def image (ledger : Ledger) (body : Bytes) : Bytes :=
  ledger.header.bytes ++ body ++ ledger.footer.bytes

theorem image_liesIn {body : Bytes} (length : Header.width + body.length = ledger.header.footerOffset) :
    ledger.LiesIn (ledger.image body) := by
  have front : (ledger.header.bytes ++ body).length = ledger.header.footerOffset := by simp [length]
  have behind : (ledger.image body).drop ledger.header.footerOffset = ledger.footer.bytes := by
    rw [image, ← front, List.drop_left]
  constructor
  · rw [image, List.append_assoc]
    exact List.prefix_append _ _
  · exact behind ▸ List.prefix_rfl

theorem liesIn_of_isPrefix {body : Bytes}
    (length : Header.width + body.length = ledger.header.footerOffset)
    (start : ledger.image body <+: bytes) : ledger.LiesIn bytes := by
  obtain ⟨header, footer⟩ := image_liesIn length
  exact ⟨header.trans start, footer.trans (start.drop _)⟩

theorem carries_of_isPrefix {body : Bytes}
    (length : Header.width + body.length = ledger.header.footerOffset)
    (start : ledger.image body <+: bytes) : Bytes.Carries body ledger.header.footerOffset bytes := by
  obtain ⟨rest, rfl⟩ := start
  rw [image, List.append_assoc, List.append_assoc]
  exact Bytes.carries_append ledger.header.length_bytes length _

theorem image_carries {body : Bytes}
    (length : Header.width + body.length = ledger.header.footerOffset) :
    Bytes.Carries body ledger.header.footerOffset (ledger.image body) :=
  carries_of_isPrefix length List.prefix_rfl

theorem length_image {body : Bytes} (length : Header.width + body.length = ledger.header.footerOffset) :
    (ledger.image body).length = ledger.stop := by
  simp [image, stop, ← length, Nat.add_assoc]

/-- The medium with the log at its front. Behind it are the bytes that the medium does not know of. -/
def onto (ledger : Ledger) (body : Bytes) (medium : Medium) : Medium :=
  medium.knowing ledger.stop (ledger.image body ++ medium.unseen ledger.stop)

theorem onto_of_readable {medium : Medium} {body : Bytes} (readable : medium.Readable)
    (length : Header.width + body.length = ledger.header.footerOffset) :
    ledger.onto body medium = medium.holding (ledger.image body) := by
  rw [onto, Medium.unseen_of_readable readable, List.append_nil, Medium.holding, length_image length]

@[simp] theorem content_onto (ledger : Ledger) (body : Bytes) (medium : Medium) :
    (ledger.onto body medium).content = ledger.image body ++ medium.unseen ledger.stop :=
  Medium.content_knowing _ _ _

/-- Behind the same log stands what the one medium does not know of, where the other knows of all. -/
theorem content_onto_eq {medium : Medium} (readable : medium.Readable) (body : Bytes) (other : Medium) :
    (ledger.onto body other).content = (ledger.onto body medium).content ++ other.unseen ledger.stop := by
  rw [content_onto, content_onto, Medium.unseen_of_readable readable, List.append_nil]

theorem onto_eq_iff {medium other : Medium} (akin : medium.Akin other) (readable : medium.Readable)
    (body : Bytes) :
    ledger.onto body other = ledger.onto body medium ↔ other.unseen ledger.stop = [] := by
  constructor
  · intro same
    have bytes := congrArg Medium.content same
    rwa [content_onto, content_onto, Medium.unseen_of_readable readable, List.append_right_inj] at bytes
  · intro nothing
    rw [onto, onto, nothing, Medium.unseen_of_readable readable, akin.knowing_eq]

theorem akin_onto (ledger : Ledger) (body : Bytes) (medium : Medium) :
    medium.Akin (ledger.onto body medium) := medium.akin_knowing _ _

theorem stop_le_size_onto {body : Bytes}
    (length : Header.width + body.length = ledger.header.footerOffset) (medium : Medium) :
    ledger.stop ≤ (ledger.onto body medium).size := by
  cases medium with
  | memory m =>
    have long : ledger.stop ≤ (ledger.image body).length := Nat.le_of_eq (length_image length).symm
    exact Nat.le_trans long (List.prefix_append _ _).length_le
  | file f => exact Nat.le_refl _

theorem onto_carries {body : Bytes} (length : Header.width + body.length = ledger.header.footerOffset)
    (medium : Medium) : (ledger.onto body medium).Carries body ledger.header.footerOffset :=
  medium.carries_knowing (Nat.le_add_right _ _) (carries_of_isPrefix length (List.prefix_append _ _))

theorem LiesIn.take_stop (lies : ledger.LiesIn bytes) (room : Header.width ≤ ledger.header.footerOffset) :
    bytes.take ledger.stop = ledger.image (bytes.span Header.width ledger.header.footerOffset) := by
  obtain ⟨front, behind⟩ := lies
  have header : bytes.span 0 Header.width = ledger.header.bytes := by
    have spelled := Bytes.isPrefix_drop_iff.mp (show ledger.header.bytes <+: bytes.drop 0 from front)
    rwa [Header.length_bytes] at spelled
  have footer := Bytes.isPrefix_drop_iff.mp behind
  rw [Footer.length_bytes] at footer
  rw [image, ← header, Bytes.span_append_span bytes (Nat.zero_le _) room, ← footer,
    Bytes.span_append_span bytes (Nat.zero_le _) (Nat.le_add_right _ _)]
  rfl

theorem LiesIn.stop_le (lies : ledger.LiesIn bytes) : ledger.stop ≤ bytes.length := by
  have length := lies.2.length_le
  have some : 0 < ledger.footer.encodedLength :=
    Nat.lt_of_lt_of_le (by decide) (Nat.le_add_right _ _)
  rw [Footer.length_bytes, List.length_drop] at length
  rw [stop]
  omega

/-! Trimming -/

def trimScript (stop size : Nat) : Script :=
  (.readSize, .measure) :: if stop < size then [(.trimTail, .cut stop)] else []

theorem trim_eq (stop : Nat) (device : Device) :
    trim stop device = (trimScript stop device.medium.size).perform device := by
  -- The size is measured in both, but only trimming uses what it is.
  have measured : Step.readSize.run Stroke.measure.access =
      (do let _ ← Step.readSize.run Device.size) := by
    funext device
    simp only [Step.run, Stroke.access, EStateM.adaptExcept, bind, EStateM.bind]
    cases Device.size device <;> rfl
  unfold trim trimScript Script.perform
  rw [measured]
  cases faulty : device.fault? .size with
  | some fault =>
    have failed : Step.readSize.run Device.size device =
        .error (.io .readSize (.device (.broken fault.reason))) (device.noting .size) := by
      apply adaptExcept_of_error
      rw [Device.size_eq, faulty]
    rw [bind_assoc, bind_of_error failed, bind_of_error failed]
  | none =>
    have ran := (Device.run_size_eq_ok_iff .readSize).mpr ⟨faulty, rfl, rfl⟩
    rw [bind_assoc, bind_of_ok ran, bind_of_ok ran]
    split
    · simp only [Script.perform, bind_pure_comp, pure_bind]
      exact (congrFun (bind_pure_unit : _ = Step.trimTail.run (Device.truncate stop)) _).symm
    · rfl

theorem trimScript_max (stop size : Nat) : trimScript stop (max size stop) = trimScript stop size := by
  have same : stop < max size stop ↔ stop < size := by omega
  simp only [trimScript, same]

theorem trimScript_apply (stop size : Nat) (bytes : Bytes) :
    (trimScript stop size).apply bytes = bytes.take stop ++ if stop < size then [] else bytes.drop stop := by
  unfold trimScript
  split
  · rw [List.append_nil]
    rfl
  · exact (List.take_append_drop stop bytes).symm

theorem trimScript_extend (stop size : Nat) : (trimScript stop size).extend (max size stop) = stop := by
  unfold trimScript
  split
  · rfl
  · case isFalse short => exact Nat.max_eq_right (Nat.not_lt.mp short)

theorem trimScript_inside {stop reach : Nat} (le : stop ≤ reach) (size : Nat) :
    (trimScript stop size).Inside reach := by
  unfold trimScript
  split
  · exact ⟨trivial, le, trivial⟩
  · exact ⟨trivial, trivial⟩

theorem trimScript_beside {stop size offset : Nat} (behind : offset ≤ stop) {entry : Step × Stroke}
    (member : entry ∈ trimScript stop size) : entry.2.Beside offset := by
  rcases List.mem_cons.mp member with rfl | cut
  · trivial
  · split at cut
    · rw [List.mem_singleton.mp cut]
      exact behind
    · cases cut

/-- A script with a cut behind it, when it makes the medium reach at least as far as that. -/
theorem perform_trim_eq {reach stop : Nat} (changeable : device.medium.Changeable) {script : Script}
    (inside : script.Inside reach) (reaches : device.medium.Reaches reach)
    (grows : script.extend device.medium.size = max device.medium.size stop) :
    (script.perform >>= fun _ => trim stop) device =
      (script ++ trimScript stop device.medium.size).perform device := by
  rw [Script.perform_append]
  cases performed : script.perform device with
  | error error after => rw [bind_of_error performed, bind_of_error performed]
  | ok _ after =>
    rw [bind_of_ok performed, bind_of_ok performed]
    obtain ⟨calls, rfl⟩ := Script.perform_eq_ok _ changeable inside reaches performed
    rw [trim_eq, Script.size_effect inside reaches, grows, trimScript_max]

/-! Creating -/

def createScript : Script :=
  [(.writeHeader, .write 0 fresh.header.bytes),
    (.writeFooter, .write fresh.header.footerOffset fresh.footer.bytes), (.sync, .sync)]

theorem create_eq : create = do
    createScript.perform
    return fresh := by
  simp only [create, createScript, Script.perform, bind_assoc, pure_bind]
  rfl

theorem createScript_inside : createScript.Inside 0 :=
  ⟨Nat.zero_le _, show 17 ≤ 17 from Nat.le_refl _, trivial, trivial⟩

theorem createScript_apply : createScript.apply [] = fresh.image [] := by decide +kernel

theorem createScript_effect {medium : Medium} (writable : medium.Writable) (empty : medium.content = []) :
    createScript.effect medium = medium.holding (fresh.image []) := by
  rw [Script.effect_eq_holding createScript_inside medium.reaches_zero writable.1, empty,
    createScript_apply]

/-! Committing -/

def recordScript (ledger : Ledger) (info data : Bytes) : Script :=
  [(.writeMeta, .write ledger.header.footerOffset info),
    (.writeData, .write (ledger.header.footerOffset + Meta.width) data),
    (.writeFooter, .write (ledger.next data.length).header.footerOffset
      (ledger.next data.length).footer.bytes)]

def commitScript (ledger : Ledger) (info data : Bytes) (size : Nat) : Script :=
  ledger.recordScript info data ++ trimScript (ledger.next data.length).stop size ++
    [(.writeHeader, .write 0 (ledger.next data.length).header.bytes)]

theorem recordScript_apply (inside : ledger.header.footerOffset ≤ bytes.length)
    (width : info.length = Meta.width) : (ledger.recordScript info data).apply bytes =
      bytes.overlay ledger.header.footerOffset
        (info ++ data ++ (ledger.next data.length).footer.bytes) := by
  have offset : (ledger.next data.length).header.footerOffset =
      ledger.header.footerOffset + (info ++ data).length := by
    simp [next, width, Nat.add_assoc]
  simp only [recordScript, Script.apply, Stroke.apply, offset]
  rw [← width, Bytes.overlay_overlay inside, Bytes.overlay_overlay inside]

theorem recordScript_extend (ledger : Ledger) (data : Bytes) (width : info.length = Meta.width)
    (size : Nat) : (ledger.recordScript info data).extend size =
      max size (ledger.next data.length).stop := by
  simp only [recordScript, Script.extend, Stroke.extend, stop, next, Footer.length_bytes, width]
  omega

theorem recordScript_inside (ledger : Ledger) (data : Bytes) (width : info.length = Meta.width) :
    (ledger.recordScript info data).Inside ledger.header.footerOffset := by
  refine ⟨Nat.le_refl _, ?_, ?_, trivial⟩
  · simp only [Stroke.Inside, Stroke.extend, width]
    exact Nat.le_max_right _ _
  · exact Nat.le_max_right _ _

theorem commitScript_inside (ledger : Ledger) (data : Bytes) (width : info.length = Meta.width)
    (size : Nat) : (ledger.commitScript info data size).Inside ledger.header.footerOffset := by
  refine Script.inside_append.mpr ⟨Script.inside_append.mpr
    ⟨ledger.recordScript_inside data width, trimScript_inside ?_ _⟩, Nat.zero_le _, trivial⟩
  rw [recordScript_extend ledger data width]
  exact Nat.le_max_right _ _

theorem commitScript_extend (room : Header.width ≤ ledger.header.footerOffset) (data : Bytes)
    (width : info.length = Meta.width) (size : Nat) :
    (ledger.commitScript info data size).extend size = (ledger.next data.length).stop := by
  have headed : Header.width ≤ (ledger.next data.length).stop := by
    simp only [stop, next]
    omega
  rw [commitScript, Script.extend_append, Script.extend_append, recordScript_extend ledger data width,
    trimScript_extend]
  simp only [Script.extend, Stroke.extend, Header.length_bytes, Nat.zero_add]
  exact Nat.max_eq_left headed

theorem commitScript_apply (room : Header.width ≤ ledger.header.footerOffset)
    (inside : ledger.header.footerOffset ≤ bytes.length) (width : info.length = Meta.width) (size : Nat) :
    (ledger.commitScript info data size).apply bytes =
      (ledger.next data.length).image
          (bytes.span Header.width ledger.header.footerOffset ++ info ++ data) ++
        if (ledger.next data.length).stop < size then [] else bytes.drop (ledger.next data.length).stop := by
  let stored := info ++ data ++ (ledger.next data.length).footer.bytes
  have front : (bytes.take ledger.header.footerOffset ++ stored).length =
      (ledger.next data.length).stop := by
    simp [stored, stop, next, width, inside, Nat.add_assoc]
  have behind : ledger.header.footerOffset + stored.length = (ledger.next data.length).stop := by
    rwa [List.length_append, List.length_take_of_le inside] at front
  -- All in front of the header write is one write, which ends where the cut is made.
  have overlaid : bytes.overlay ledger.header.footerOffset stored =
      bytes.take ledger.header.footerOffset ++ stored ++ bytes.drop (ledger.next data.length).stop := by
    rw [Bytes.overlay, behind]
  rw [commitScript, Script.apply_append, Script.apply_append, trimScript_apply,
    recordScript_apply inside width, overlaid, ← front, List.take_left, List.drop_left]
  simp only [Script.apply, Stroke.apply, Bytes.overlay_zero, Header.length_bytes]
  rw [List.append_assoc, List.drop_append_of_le_length (by simp [inside, room])]
  simp [image, stored, Bytes.span]

theorem commitScript_effect {medium : Medium} (room : Header.width ≤ ledger.header.footerOffset)
    (reaches : medium.Reaches ledger.header.footerOffset) (width : info.length = Meta.width) :
    (ledger.commitScript info data medium.size).effect medium =
      (ledger.next data.length).onto
        (medium.content.span Header.width ledger.header.footerOffset ++ info ++ data) medium := by
  rw [Script.effect_eq, commitScript_extend room data width, commitScript_apply room reaches.2 width]
  rfl

theorem writeRecord_eq (changeable : device.medium.Changeable)
    (reaches : device.medium.Reaches ledger.header.footerOffset) (width : info.length = Meta.width) :
    ledger.writeRecord info data device =
      (ledger.commitScript info data device.medium.size).perform device := by
  have trimmed := perform_trim_eq changeable (ledger.recordScript_inside data width) reaches
    (ledger.recordScript_extend data width device.medium.size)
  -- The size is known only at the trim, so the three writes are taken together with it.
  have split : ledger.writeRecord info data = (do
      ((ledger.recordScript info data).perform >>= fun _ => trim (ledger.next data.length).stop)
      Script.perform [(.writeHeader, .write 0 (ledger.next data.length).header.bytes)]) := by
    simp only [writeRecord, recordScript, Script.perform, bind_assoc, pure_bind]
    simp only [bind_pure_unit]
    rfl
  rw [split, commitScript, Script.perform_append]
  simp only [bind, EStateM.bind] at trimmed ⊢
  rw [trimmed]

theorem commitScript_keeps (ledger : Ledger) (info data : Bytes) (size : Nat) (body : Bytes) :
    ∀ entry ∈ ledger.commitScript info data size,
      entry.2.Keeps (Medium.Carries body ledger.header.footerOffset) := by
  intro entry member
  apply Stroke.Beside.keeps
  have behind : ledger.header.footerOffset ≤ (ledger.next data.length).header.footerOffset :=
    Nat.le_trans (Nat.le_add_right _ _) (Nat.le_add_right _ _)
  simp only [commitScript, recordScript, List.mem_append, List.mem_cons, List.not_mem_nil,
    or_false] at member
  -- All but the header write lie behind the records.
  rcases member with ((rfl | rfl | rfl) | trims) | rfl
  · exact .inl (Nat.le_refl _)
  · exact .inl (Nat.le_add_right _ _)
  · exact .inl behind
  · exact trimScript_beside (Nat.le_trans behind (Nat.le_add_right _ _)) trims
  · exact .inr (by simp)

/-! Restoring -/

def putBackScript (ledger : Ledger) : Script :=
  [(.writeFooter, .write ledger.header.footerOffset ledger.footer.bytes),
    (.writeHeader, .write 0 ledger.header.bytes)]

def restoreScript (ledger : Ledger) (size : Nat) : Script :=
  ledger.putBackScript ++ trimScript ledger.stop size

theorem putBack_eq (ledger : Ledger) : ledger.putBack = ledger.putBackScript.perform := by
  simp only [putBack, putBackScript, Script.perform, bind_pure_unit]
  rfl

theorem putBackScript_inside (ledger : Ledger) :
    ledger.putBackScript.Inside ledger.header.footerOffset := ⟨Nat.le_refl _, Nat.zero_le _, trivial⟩

theorem putBackScript_extend (room : Header.width ≤ ledger.header.footerOffset) (size : Nat) :
    ledger.putBackScript.extend size = max size ledger.stop := by
  have headed : Header.width ≤ max size ledger.stop :=
    Nat.le_trans (Nat.le_trans room (Nat.le_add_right _ _)) (Nat.le_max_right _ _)
  simp only [putBackScript, Script.extend, Stroke.extend, Header.length_bytes, Footer.length_bytes,
    Nat.zero_add]
  exact Nat.max_eq_left headed

theorem putBackScript_apply (room : Header.width ≤ ledger.header.footerOffset)
    (inside : ledger.header.footerOffset ≤ bytes.length) : ledger.putBackScript.apply bytes =
      ledger.image (bytes.span Header.width ledger.header.footerOffset) ++ bytes.drop ledger.stop := by
  have footer : bytes.overlay ledger.header.footerOffset ledger.footer.bytes =
      bytes.take ledger.header.footerOffset ++ (ledger.footer.bytes ++ bytes.drop ledger.stop) := by
    rw [Bytes.overlay, Footer.length_bytes, List.append_assoc, stop]
  simp only [putBackScript, Script.apply, Stroke.apply, Bytes.overlay_zero, Header.length_bytes, footer]
  rw [List.drop_append_of_le_length (by simp [inside, room])]
  simp [image, Bytes.span]

theorem restore_eq (changeable : device.medium.Changeable) (room : Header.width ≤ ledger.header.footerOffset)
    (reaches : device.medium.Reaches ledger.header.footerOffset) :
    ledger.restore device = (ledger.restoreScript device.medium.size).perform device := by
  rw [restore, putBack_eq]
  exact perform_trim_eq changeable ledger.putBackScript_inside reaches (putBackScript_extend room _)

theorem restoreScript_inside (room : Header.width ≤ ledger.header.footerOffset) (size : Nat) :
    (ledger.restoreScript size).Inside ledger.header.footerOffset := by
  refine Script.inside_append.mpr ⟨ledger.putBackScript_inside, trimScript_inside ?_ _⟩
  rw [putBackScript_extend room]
  exact Nat.le_max_right _ _

theorem restoreScript_effect {medium : Medium} (room : Header.width ≤ ledger.header.footerOffset)
    (reaches : medium.Reaches ledger.header.footerOffset) :
    (ledger.restoreScript medium.size).effect medium =
      ledger.onto (medium.content.span Header.width ledger.header.footerOffset) medium := by
  have length : (ledger.image (medium.content.span Header.width ledger.header.footerOffset)).length =
      ledger.stop := length_image (Bytes.width_add_length_span reaches.2 room)
  rw [Script.effect_eq, restoreScript, Script.extend_append, Script.apply_append,
    putBackScript_extend room, trimScript_extend, putBackScript_apply room reaches.2, trimScript_apply,
    List.take_left' length, List.drop_left' length]
  rfl

theorem restoreScript_keeps (ledger : Ledger) (size : Nat) (body : Bytes) :
    ∀ entry ∈ ledger.restoreScript size,
      entry.2.Keeps (Medium.Carries body ledger.header.footerOffset) := by
  intro entry member
  apply Stroke.Beside.keeps
  simp only [restoreScript, putBackScript, List.mem_append, List.mem_cons, List.not_mem_nil,
    or_false] at member
  rcases member with (rfl | rfl) | trims
  · exact .inl (Nat.le_refl _)
  · exact .inr (by simp)
  · exact trimScript_beside (Nat.le_add_right _ _) trims

theorem rollBack_eq (ledger : Ledger) (device : Device) :
    ledger.rollBack device = afterwards (ledger.restore device) := by
  unfold rollBack
  cases ledger.restore device <;> rfl

/-- However far rolling back comes, the records stay. -/
theorem rollBack_carries (device : Device) (changeable : device.medium.Changeable)
    (room : Header.width ≤ ledger.header.footerOffset) {body : Bytes}
    (carries : device.medium.Carries body ledger.header.footerOffset) :
    ∃ left calls, left.Carries body ledger.header.footerOffset ∧ device.medium.Akin left ∧
      ledger.rollBack device = ⟨left, device.plan, calls⟩ := by
  rw [rollBack_eq, restore_eq changeable room carries.reaches]
  exact Script.perform_keeps _ changeable (restoreScript_inside room _) carries.reaches
    (ledger.restoreScript_keeps _ body) carries

theorem width_add_length_next (room : Header.width ≤ ledger.header.footerOffset) {body : Bytes}
    (records : Bytes.Carries body ledger.header.footerOffset bytes) (info : Meta) (data : Bytes) :
    Header.width + (body ++ info.bytes ++ data).length =
      (ledger.next data.length).header.footerOffset := by
  have length := records.length room
  simp only [List.length_append, Meta.length_bytes, next]
  omega

theorem commit_of_sound (data : Bytes) (changeable : device.medium.Changeable)
    (room : Header.width ≤ ledger.header.footerOffset)
    (reaches : device.medium.Reaches ledger.header.footerOffset) (width : info.length = Meta.width)
    (sound : (ledger.commitScript info data device.medium.size).halt? device.plan device.calls = none) :
    ∃ calls, ledger.commit info data device = .ok (ledger.next data.length)
      ⟨(ledger.next data.length).onto
        (device.bytes.span Header.width ledger.header.footerOffset ++ info ++ data) device.medium,
        device.plan, calls⟩ := by
  obtain ⟨calls, performed⟩ := Script.perform_of_sound _ changeable
    (ledger.commitScript_inside data width _) reaches sound
  rw [← writeRecord_eq changeable reaches width, commitScript_effect room reaches width] at performed
  exact ⟨calls, by rw [commit, performed]; rfl⟩

/-- A commit that is stopped at a step names the step and rolls back. -/
theorem commit_of_halt (changeable : device.medium.Changeable)
    (reaches : device.medium.Reaches ledger.header.footerOffset) (width : info.length = Meta.width)
    {step : Step} {fault : Fault}
    (halts : (ledger.commitScript info data device.medium.size).halt? device.plan device.calls =
      some (step, fault)) :
    ∃ left calls, (ledger.commitScript info data device.medium.size).Stops device.medium step fault left ∧
      ledger.writeRecord info data device = .error (.io step (.device (.broken fault.reason)))
        ⟨left, device.plan, calls⟩ ∧
      ledger.commit info data device = .error (.io step (.device (.broken fault.reason)))
        (ledger.rollBack ⟨left, device.plan, calls⟩) := by
  obtain ⟨left, calls, stops, performed⟩ := Script.perform_of_halt _ changeable
    (ledger.commitScript_inside data width _) reaches halts
  rw [← writeRecord_eq changeable reaches width] at performed
  exact ⟨left, calls, stops, performed, by rw [commit, performed]⟩

theorem commit_eq_ok {ledger' : Ledger} {after : Device} (changeable : device.medium.Changeable)
    (room : Header.width ≤ ledger.header.footerOffset)
    (reaches : device.medium.Reaches ledger.header.footerOffset) (width : info.length = Meta.width)
    (committed : ledger.commit info data device = .ok ledger' after) :
    ledger' = ledger.next data.length ∧ ∃ calls, after =
      ⟨(ledger.next data.length).onto
        (device.bytes.span Header.width ledger.header.footerOffset ++ info ++ data) device.medium,
        device.plan, calls⟩ := by
  cases halts : (ledger.commitScript info data device.medium.size).halt? device.plan device.calls with
  | none =>
    obtain ⟨calls, same⟩ := commit_of_sound data changeable room reaches width halts
    rw [committed] at same
    cases same
    exact ⟨rfl, calls, rfl⟩
  | some halt =>
    obtain ⟨left, calls, -, -, failed⟩ := commit_of_halt changeable reaches width halts
    rw [committed] at failed
    cases failed

/-- A failed commit leaves the records where they are. -/
theorem commit_eq_error {error : LogError} {after : Device} (changeable : device.medium.Changeable)
    (room : Header.width ≤ ledger.header.footerOffset) (width : info.length = Meta.width) {body : Bytes}
    (carries : device.medium.Carries body ledger.header.footerOffset)
    (failed : ledger.commit info data device = .error error after) :
    ∃ left calls, left.Carries body ledger.header.footerOffset ∧ device.medium.Akin left ∧
      after = ⟨left, device.plan, calls⟩ := by
  cases halts : (ledger.commitScript info data device.medium.size).halt? device.plan device.calls with
  | none =>
    obtain ⟨calls, committed⟩ := commit_of_sound data changeable room carries.reaches width halts
    rw [failed] at committed
    cases committed
  | some halt =>
    obtain ⟨left, calls, stops, -, same⟩ := commit_of_halt changeable carries.reaches width halts
    rw [failed] at same
    cases same
    have kept := stops.keeps (ledger.commitScript_inside data width _) carries.reaches
      (ledger.commitScript_keeps info data _ body) carries
    obtain ⟨rolled, calls, carries, akin, same⟩ := rollBack_carries ⟨left, device.plan, calls⟩
      (stops.akin.changeable changeable) room kept
    exact ⟨rolled, calls, carries, stops.akin.trans akin, same⟩

end Ledger

end AppendLog
