import AppendLog.Log.Walk
import AppendLog.Proofs.Layout

/-! Records between the header and the footer.

A record reads as `recordIn` says, which depends on the ledger and on the bytes between
header and footer alone. A further record changes neither how the earlier ones read nor
where they are, and reads as what was added.
-/

set_option autoImplicit false

namespace AppendLog

namespace Footer

theorem Spaced.boundary_le {offsets : List Nat} {stop : Nat} (spaced : Spaced offsets stop)
    {index offset : Nat} (found : offsets[index]? = some offset) :
    offset + Meta.width ≤ offsets[index + 1]?.getD stop ∧ offsets[index + 1]?.getD stop ≤ stop := by
  -- Along the offsets, so that the offset behind a record is the head of what remains.
  induction offsets generalizing index with
  | nil => simp at found
  | cons head rest ih =>
    obtain ⟨room, spacedRest⟩ := spaced
    cases index with
    | zero =>
      cases found
      cases rest with
      | nil => exact ⟨room, Nat.le_refl _⟩
      | cons next rest =>
        exact ⟨room, Nat.le_of_add_right_le (spacedRest.add_width_le List.mem_cons_self)⟩
    | succ index => exact ih spacedRest found

theorem Spaced.head_le {first : Nat} {rest : List Nat} {stop : Nat} (spaced : Spaced (first :: rest) stop)
    {offset : Nat} (member : offset ∈ rest) : first ≤ offset := by
  induction rest generalizing first with
  | nil => cases member
  | cons next rest ih =>
    obtain ⟨room, spacedRest⟩ := spaced
    have step : first ≤ next := Nat.le_of_add_right_le room
    rcases List.mem_cons.mp member with rfl | member
    · exact step
    · exact Nat.le_trans step (ih spacedRest member)

theorem Spaced.append {offsets : List Nat} {stop stop' : Nat} (spaced : Spaced offsets stop)
    (room : stop + Meta.width ≤ stop') : Spaced (offsets ++ [stop]) stop' := by
  induction offsets with
  | nil => exact ⟨room, trivial⟩
  | cons head rest ih =>
    obtain ⟨space, spacedRest⟩ := spaced
    refine ⟨?_, ih spacedRest⟩
    cases rest with
    | nil => exact space
    | cons next rest => exact space

end Footer

namespace Ledger

variable {ledger : Ledger} {bytes : Bytes}

def recordIn (ledger : Ledger) (bytes : Bytes) (index : Nat) : Reading :=
  match ledger.footer.get? index with
  | none => .error (.recordOutOfRange index ledger.header.totalRecords)
  | some offset =>
    match Meta.decode (Cursor.ofBytes (bytes.span offset (ledger.boundary index))) with
    | .ok info cursor => .ok ⟨index, offset, info, cursor.rest⟩
    | .error error _ => .error (.recordRead index (.codec error))

theorem Fits.record_inside (fits : ledger.Fits) {index offset : Nat}
    (found : ledger.footer.get? index = some offset) :
    Header.width ≤ offset ∧ offset + Meta.width ≤ ledger.boundary index ∧
      ledger.boundary index ≤ ledger.header.footerOffset := by
  refine ⟨?_, fits.spaced.boundary_le found⟩
  have member : offset ∈ ledger.footer.offsets := List.mem_of_getElem? found
  have first := fits.first
  have spaced := fits.spaced
  cases offsets : ledger.footer.offsets with
  | nil => simp [offsets] at member
  | cons head rest =>
    rw [offsets] at member first spaced
    -- No record starts in front of the first one.
    have start : head = Header.width := first head rfl
    rcases List.mem_cons.mp member with rfl | member
    · exact Nat.le_of_eq start.symm
    · exact start ▸ spaced.head_le member

theorem recordIn_congr (fits : ledger.Fits) {other : Bytes}
    (same : bytes.span Header.width ledger.header.footerOffset =
      other.span Header.width ledger.header.footerOffset) (index : Nat) :
    ledger.recordIn bytes index = ledger.recordIn other index := by
  unfold recordIn
  cases found : ledger.footer.get? index with
  | none => rfl
  | some offset =>
    obtain ⟨low, room, high⟩ := fits.record_inside found
    -- A record is a span of the span between header and footer.
    have inner (bytes : Bytes) : bytes.span offset (ledger.boundary index) =
        (bytes.span Header.width ledger.header.footerOffset).span
          (offset - Header.width) (ledger.boundary index - Header.width) := by
      rw [Bytes.span_span _ (by omega)]
      congr 1 <;> omega
    simp only [inner, same]

/-- A readable log that holds its records reads each of them. -/
theorem outcome_readRaw {device : Device} (fits : ledger.Fits)
    (plain : device.medium.Plain) (sound : device.fault? .read = none)
    (reaches : device.medium.Reaches ledger.header.footerOffset) (index : Nat) :
    outcome (ledger.readRaw index device) = ledger.recordIn device.bytes index := by
  unfold readRaw recordIn
  cases found : ledger.footer.get? index with
  | none => rfl
  | some offset =>
    obtain ⟨-, room, high⟩ := fits.record_inside found
    have ordered : ¬ ledger.boundary index < offset := by omega
    have length : offset + (ledger.boundary index - offset) = ledger.boundary index := by omega
    have read : Step.readRecord.run (Device.readAt offset (ledger.boundary index - offset)) device =
        .ok (device.bytes.span offset (ledger.boundary index)) (device.noting .read) := by
      have ran : Step.readRecord.run _ device = _ :=
        Device.run_readAt_of_reaches plain (reaches.of_le (length.symm ▸ high)) sound
      rwa [length] at ran
    simp only [loadRecord, ordered, if_false, EStateM.adaptExcept, bind_of_ok read]
    cases Meta.decode (Cursor.ofBytes (device.bytes.span offset (ledger.boundary index))) <;> rfl

/-- A log without records has its footer right behind the header. Not every well-formed
ledger is like that, but every one that a log starts with. -/
def Anchored (ledger : Ledger) : Prop :=
  ledger.footer.offsets = [] → ledger.header.footerOffset = Header.width

theorem count_next (count : ledger.footer.length = ledger.header.totalRecords) (payload : Nat) :
    (ledger.next payload).footer.length = (ledger.next payload).header.totalRecords := by
  simp only [next, Footer.push, Footer.length, List.length_append, List.length_singleton, ← count]

theorem Fits.next (fits : ledger.Fits) (anchored : ledger.Anchored) (payload : Nat) :
    (ledger.next payload).Fits where
  version := fits.version
  room := Nat.le_trans fits.room (Nat.le_trans (Nat.le_add_right _ _) (Nat.le_add_right _ _))
  count := count_next fits.count payload
  first := by
    intro first head
    cases offsets : ledger.footer.offsets with
    | nil =>
      simp only [Ledger.next, Footer.push, offsets, List.nil_append, List.head?_cons,
        Option.mem_some_iff] at head
      exact head ▸ anchored offsets
    | cons start rest =>
      simp only [Ledger.next, Footer.push, offsets, List.cons_append, List.head?_cons] at head
      exact fits.first first (by rw [offsets]; exact head)
  spaced := fits.spaced.append (Nat.le_add_right _ _)

theorem Fits.wellFormed (fits : ledger.Fits) (below : ledger.stop < Footer.wordLimit) :
    ledger.WellFormed := by
  have count := fits.count
  rw [stop, Footer.encodedLength, Footer.entryWidth] at below
  refine ⟨fits, by omega, ?_⟩
  rw [Footer.entryWidth]
  omega

theorem anchored_next (ledger : Ledger) (payload : Nat) : (ledger.next payload).Anchored := by
  intro nothing
  simp [next, Footer.push] at nothing

theorem recordIn_next_of_lt {index : Nat} (earlier : index < ledger.footer.length) (payload : Nat) :
    (ledger.next payload).recordIn bytes index = ledger.recordIn bytes index := by
  have kept : (ledger.next payload).footer.get? index = ledger.footer.get? index :=
    List.getElem?_append_left earlier
  have boundary : (ledger.next payload).boundary index = ledger.boundary index := by
    simp only [Ledger.boundary, Footer.get?, Ledger.next, Footer.push]
    -- The last of the earlier records used to end at the footer, where the further one starts.
    by_cases last : index + 1 < ledger.footer.offsets.length
    · rw [List.getElem?_append_left last, List.getElem?_eq_getElem last]
      rfl
    · have here : index + 1 = ledger.footer.offsets.length :=
        Nat.le_antisymm earlier (Nat.not_lt.mp last)
      rw [here, List.getElem?_concat_length, List.getElem?_eq_none (Nat.le_refl _)]
      rfl
  have inside : index < ledger.footer.offsets.length := earlier
  simp only [recordIn, kept, boundary]
  rw [Footer.get?, List.getElem?_eq_getElem inside]

theorem recordIn_next_self (ledger : Ledger) {info : Meta} {data : Bytes} (inRange : info.InRange)
    (spelled : bytes.span ledger.header.footerOffset
      (ledger.header.footerOffset + Meta.width + data.length) = info.bytes ++ data) :
    (ledger.next data.length).recordIn bytes ledger.footer.length =
      .ok ⟨ledger.footer.length, ledger.header.footerOffset, info, data⟩ := by
  have found : (ledger.next data.length).footer.get? ledger.footer.length =
      some ledger.header.footerOffset := List.getElem?_concat_length
  have boundary : (ledger.next data.length).boundary ledger.footer.length =
      ledger.header.footerOffset + Meta.width + data.length := by
    have behind : (ledger.next data.length).footer.get? (ledger.footer.length + 1) = none :=
      List.getElem?_eq_none (by simp [Ledger.next, Footer.push, Footer.length])
    rw [Ledger.boundary, behind]
    rfl
  have decoded : Meta.decode (Cursor.ofBytes (info.bytes ++ data)) = .ok info ⟨data, Meta.width⟩ :=
    (Meta.inverts_decode _ _ _).mpr ⟨inRange, rfl, by simp [Cursor.ofBytes]⟩
  simp only [recordIn, found, boundary, spelled, decoded]

end Ledger

end AppendLog
