import AppendLog.Proofs.Commit

/-! What a crash inside a commit leaves.

A crash stops the commit at any of its storage calls, the last of them possibly torn, and
nothing is rolled back. Until the header is written, some first part of the record and of the
footer behind it lies over the old footer; then a first part of the new header lies over
the old one: `afterwards_writeRecord`. A crash can leave each of these: `exists_plan`.
-/

set_option autoImplicit false

namespace AppendLog

def FaultPlan.tearing (earlier kept : Nat) : FaultPlan := fun calls call =>
  if FaultSettings.isWrite call ∧ calls.countP FaultSettings.isWrite = earlier then
    some (.torn kept "crash")
  else none

section Tearing

variable {earlier kept offset : Nat} {step : Step} {data bytes : Bytes} {rest : Script}
  {calls : List Call}

theorem Script.leaves_torn (here : calls.countP FaultSettings.isWrite = earlier) :
    leaves (.tearing earlier kept) ((step, .write offset data) :: rest) calls bytes =
      bytes.overlay offset (data.take kept) := by
  simp [leaves, FaultPlan.tearing, Stroke.call, FaultSettings.isWrite, Stroke.applyTorn, Fault.landed,
    here]

theorem Script.leaves_whole (elsewhere : calls.countP FaultSettings.isWrite ≠ earlier) :
    leaves (.tearing earlier kept) ((step, .write offset data) :: rest) calls bytes =
      leaves (.tearing earlier kept) rest (.write data.length :: calls) (bytes.overlay offset data) := by
  simp [leaves, FaultPlan.tearing, Stroke.call, FaultSettings.isWrite, Stroke.apply, elsewhere]

theorem Script.leaves_measure :
    leaves (.tearing earlier kept) ((step, .measure) :: rest) calls bytes =
      leaves (.tearing earlier kept) rest (.size :: calls) bytes := by
  simp [leaves, FaultPlan.tearing, Stroke.call, FaultSettings.isWrite, Stroke.apply]

end Tearing

theorem Fault.landed_isPrefix (fault : Fault) (data : Bytes) : fault.landed data <+: data := by
  cases fault with
  | fail _ => exact List.nil_prefix
  | torn kept _ => exact List.take_prefix kept data

namespace Ledger

def stored (ledger : Ledger) (info : Meta) (data : Bytes) : Bytes :=
  info.bytes ++ data ++ (ledger.next data.length).footer.bytes

def underOldHeader (ledger : Ledger) (body part : Bytes) : Bytes :=
  ledger.header.bytes ++ body ++ (part ++ ledger.footer.bytes.drop part.length)

def underTornHeader (ledger : Ledger) (info : Meta) (data body part : Bytes) : Bytes :=
  part ++ ledger.header.bytes.drop part.length ++ (body ++ ledger.stored info data)

/-- What a crash can leave of the image of a log to which a record is added. -/
inductive CrashLeaves (ledger : Ledger) (info : Meta) (data body : Bytes) : Bytes → Prop where
  | oldHeader {part : Bytes} : part <+: ledger.stored info data →
      CrashLeaves ledger info data body (ledger.underOldHeader body part)
  | tornHeader {part : Bytes} : part <+: (ledger.next data.length).header.bytes →
      CrashLeaves ledger info data body (ledger.underTornHeader info data body part)

variable {ledger : Ledger} {info : Meta} {data body : Bytes}

theorem overlay_image (length : Header.width + body.length = ledger.header.footerOffset)
    (part : Bytes) :
    (ledger.image body).overlay ledger.header.footerOffset part = ledger.underOldHeader body part := by
  have front : (ledger.header.bytes ++ body).length = ledger.header.footerOffset := by simp [length]
  rw [image, Bytes.overlay_append front, underOldHeader, List.append_assoc]

theorem underOldHeader_stored (ledger : Ledger) (info : Meta) (data body : Bytes) :
    ledger.underOldHeader body (ledger.stored info data) =
      ledger.header.bytes ++ (body ++ ledger.stored info data) := by
  have covered : ledger.footer.bytes.length ≤ (ledger.stored info data).length := by
    simp only [stored, List.length_append, Footer.length_bytes, Footer.encodedLength, next, Footer.push,
      Footer.length, List.length_singleton]
    have := Nat.mul_le_mul_left Footer.entryWidth (Nat.le_add_right ledger.footer.offsets.length 1)
    omega
  rw [underOldHeader, List.drop_eq_nil_of_le covered, List.append_nil, List.append_assoc]

theorem overlay_header (part : Bytes) (inside : part.length ≤ Header.width) :
    (ledger.header.bytes ++ (body ++ ledger.stored info data)).overlay 0 part =
      ledger.underTornHeader info data body part := by
  rw [Bytes.overlay_zero, List.drop_append_of_le_length (by simpa using inside), underTornHeader,
    List.append_assoc]

theorem commitScript_image (length : Header.width + body.length = ledger.header.footerOffset) :
    ledger.commitScript info.bytes data (ledger.image body).length =
      [(.writeMeta, .write ledger.header.footerOffset info.bytes),
        (.writeData, .write (ledger.header.footerOffset + info.bytes.length) data),
        (.writeFooter, .write (ledger.header.footerOffset + (info.bytes ++ data).length)
          (ledger.next data.length).footer.bytes),
        (.readSize, .measure), (.writeHeader, .write 0 (ledger.next data.length).header.bytes)] := by
  have longer : ¬ (ledger.next data.length).stop < (ledger.image body).length := by
    rw [length_image length]
    simp only [stop, next, Footer.push, Footer.encodedLength, Footer.length, List.length_append]
    have := Nat.mul_le_mul_left Footer.entryWidth (Nat.le_add_right ledger.footer.offsets.length 1)
    simp only [List.length_singleton]
    omega
  rw [commitScript, trimScript, if_neg longer]
  simp [recordScript, next, Nat.add_assoc]

theorem image_reaches (length : Header.width + body.length = ledger.header.footerOffset) :
    ledger.header.footerOffset ≤ (ledger.image body).length := by
  rw [length_image length]
  exact Nat.le_add_right _ _

theorem underOldHeader_overlay (length : Header.width + body.length = ledger.header.footerOffset)
    (first second : Bytes) :
    (ledger.underOldHeader body first).overlay (ledger.header.footerOffset + first.length) second =
      ledger.underOldHeader body (first ++ second) := by
  rw [← overlay_image length, ← overlay_image length, Bytes.overlay_overlay (image_reaches length)]

/-- Whatever the plan, the commit leaves one of the states. -/
theorem leaves_commitScript (length : Header.width + body.length = ledger.header.footerOffset)
    (plan : FaultPlan) : ledger.CrashLeaves info data body
      ((ledger.commitScript info.bytes data (ledger.image body).length).leaves plan []
        (ledger.image body)) := by
  -- One case for each of the five calls that the plan can fail, and one for none of them.
  rw [commitScript_image length]
  simp only [Script.leaves, Stroke.call, Stroke.apply, Stroke.applyTorn, overlay_image length,
    underOldHeader_overlay length]
  split
  · case h_1 fault _ =>
    exact .oldHeader ((fault.landed_isPrefix _).trans
      ((List.prefix_append info.bytes data).trans (List.prefix_append _ _)))
  split
  · case h_1 fault _ =>
    refine .oldHeader (List.IsPrefix.trans ?_ (List.prefix_append (info.bytes ++ data) _))
    exact (List.prefix_append_right_inj info.bytes).mpr (fault.landed_isPrefix data)
  split
  · case h_1 fault _ =>
    exact .oldHeader ((List.prefix_append_right_inj (info.bytes ++ data)).mpr (fault.landed_isPrefix _))
  have whole : ledger.underOldHeader body
      (info.bytes ++ data ++ (ledger.next data.length).footer.bytes) =
        ledger.header.bytes ++ (body ++ ledger.stored info data) :=
    underOldHeader_stored ledger info data body
  split
  · exact .oldHeader List.prefix_rfl
  split
  · case h_1 fault _ =>
    have landed := fault.landed_isPrefix (ledger.next data.length).header.bytes
    rw [whole, overlay_header _ (by simpa using landed.length_le)]
    exact .tornHeader landed
  · rw [whole, overlay_header _ (by simp)]
    exact .tornHeader List.prefix_rfl

/-- Each of the states is left under a plan that tears one of the four writes. -/
theorem exists_plan (length : Header.width + body.length = ledger.header.footerOffset) {left : Bytes}
    (leaves : ledger.CrashLeaves info data body left) :
    ∃ plan, (ledger.commitScript info.bytes data (ledger.image body).length).leaves plan []
      (ledger.image body) = left := by
  rw [commitScript_image length]
  cases leaves with
  | @oldHeader part front =>
    have spelled := List.prefix_iff_eq_take.mp front
    rw [stored] at spelled
    -- How far the part reaches decides which of the three writes is torn.
    by_cases inMeta : part.length ≤ info.bytes.length
    · refine ⟨.tearing 0 part.length, ?_⟩
      rw [List.append_assoc, List.take_append_of_le_length inMeta] at spelled
      rw [Script.leaves_torn, overlay_image length, ← spelled]
      rfl
    · by_cases inData : part.length ≤ (info.bytes ++ data).length
      · refine ⟨.tearing 1 (part.length - info.bytes.length), ?_⟩
        rw [List.take_append_of_le_length inData, List.take_append,
          List.take_of_length_le (Nat.le_of_not_le inMeta)] at spelled
        rw [Script.leaves_whole, Script.leaves_torn, overlay_image length,
          underOldHeader_overlay length, ← spelled] <;> simp [FaultSettings.isWrite, List.countP_cons]
      · refine ⟨.tearing 2 (part.length - (info.bytes ++ data).length), ?_⟩
        rw [List.take_append, List.take_of_length_le (Nat.le_of_not_le inData)] at spelled
        rw [Script.leaves_whole, Script.leaves_whole, Script.leaves_torn, overlay_image length,
          underOldHeader_overlay length, underOldHeader_overlay length, ← spelled] <;>
            simp [FaultSettings.isWrite, List.countP_cons]
  | @tornHeader part front =>
    refine ⟨.tearing 3 part.length, ?_⟩
    have landed := front.length_le
    rw [Header.length_bytes] at landed
    rw [Script.leaves_whole, Script.leaves_whole, Script.leaves_whole, Script.leaves_measure,
      Script.leaves_torn, overlay_image length, underOldHeader_overlay length,
      underOldHeader_overlay length, ← stored, underOldHeader_stored,
      ← List.prefix_iff_eq_take.mp front, overlay_header part landed] <;>
        simp [FaultSettings.isWrite, List.countP_cons]

variable {device : Device}

theorem afterwards_writeRecord (writable : device.medium.Writable)
    (content : device.bytes = ledger.image body)
    (length : Header.width + body.length = ledger.header.footerOffset) (info : Meta) (data : Bytes) :
    ∃ left calls, left.content =
        (ledger.commitScript info.bytes data (ledger.image body).length).leaves device.plan
          device.calls (ledger.image body) ∧
      afterwards (ledger.writeRecord info.bytes data device) = ⟨left, device.plan, calls⟩ := by
  have reaches := writable.readable.reaches
    (show ledger.header.footerOffset ≤ device.bytes.length from content ▸ image_reaches length)
  rw [writeRecord_eq writable.2 reaches info.length_bytes, writable.1, ← content]
  exact Script.afterwards_perform device writable.2 (ledger.commitScript_inside data info.length_bytes _)
    reaches

end Ledger

end AppendLog
