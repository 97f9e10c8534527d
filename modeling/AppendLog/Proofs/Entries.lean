import Mathlib.Data.List.Induction
import AppendLog.Proofs.Commit
import AppendLog.Proofs.Records

/-! The log of a list of entries.

The entries lie end to end behind the header. What the log of them is, its bytes and its
records, is said by recursion on the list alone, and an entry at the end of the list
is one record more: `ledger_append` and `image_append`.
-/

set_option autoImplicit false

namespace AppendLog

structure Entry where
  info : Meta
  data : Bytes
  deriving DecidableEq, Repr

namespace Entry

def bytes (entry : Entry) : Bytes := entry.info.bytes ++ entry.data

def size (entry : Entry) : Nat := Meta.width + entry.data.length

@[simp] theorem length_bytes (entry : Entry) : entry.bytes.length = entry.size := by
  simp [bytes, size]

end Entry

namespace Entries

def recordsFrom (index offset : Nat) : List Entry → List Record
  | [] => []
  | entry :: rest =>
    ⟨index, offset, entry.info, entry.data⟩ :: recordsFrom (index + 1) (offset + entry.size) rest

def records (entries : List Entry) : List Record := recordsFrom 0 Header.width entries

def reading (entries : List Entry) (index : Nat) : Reading :=
  match (records entries)[index]? with
  | some record => .ok record
  | none => .error (.recordOutOfRange index entries.length)

def body (entries : List Entry) : Bytes := entries.flatMap Entry.bytes

def extent : List Entry → Nat
  | [] => 0
  | entry :: rest => entry.size + extent rest

def footerOffset (entries : List Entry) : Nat := Header.width + extent entries

def ledger (entries : List Entry) : Ledger where
  header := ⟨Header.currentVersion, entries.length, footerOffset entries⟩
  footer := ⟨(records entries).map Record.offset⟩

def image (entries : List Entry) : Bytes := (ledger entries).image (body entries)

variable {entries : List Entry}

@[simp] theorem length_recordsFrom (index offset : Nat) (entries : List Entry) :
    (recordsFrom index offset entries).length = entries.length := by
  induction entries generalizing index offset with
  | nil => rfl
  | cons entry rest ih => simp [recordsFrom, ih]

theorem recordsFrom_append (index offset : Nat) (entries : List Entry) (last : Entry) :
    recordsFrom index offset (entries ++ [last]) = recordsFrom index offset entries ++
      [⟨index + entries.length, offset + extent entries, last.info, last.data⟩] := by
  induction entries generalizing index offset with
  | nil => rfl
  | cons entry rest ih =>
    simp only [List.cons_append, recordsFrom, ih, List.length_cons, extent]
    rw [Nat.add_assoc offset, Nat.add_assoc index, Nat.add_comm 1]

theorem records_append (entries : List Entry) (last : Entry) : records (entries ++ [last]) =
    records entries ++ [⟨entries.length, footerOffset entries, last.info, last.data⟩] := by
  rw [records, recordsFrom_append, Nat.zero_add, records, footerOffset]

theorem length_body (entries : List Entry) : (body entries).length = extent entries := by
  induction entries with
  | nil => rfl
  | cons entry rest ih =>
    rw [body, List.flatMap_cons, List.length_append, Entry.length_bytes, ← body, ih, extent]

theorem body_append (entries : List Entry) (last : Entry) :
    body (entries ++ [last]) = body entries ++ last.info.bytes ++ last.data := by
  simp [body, Entry.bytes]

theorem extent_append (first second : List Entry) :
    extent (first ++ second) = extent first + extent second := by
  induction first with
  | nil => simp [extent]
  | cons entry rest ih => rw [List.cons_append, extent, ih, extent, Nat.add_assoc]

theorem footerOffset_append (entries : List Entry) (last : Entry) :
    footerOffset (entries ++ [last]) = footerOffset entries + Meta.width + last.data.length := by
  simp only [footerOffset, extent_append, extent, Entry.size]
  omega

theorem ledger_append (entries : List Entry) (last : Entry) :
    ledger (entries ++ [last]) = (ledger entries).next last.data.length := by
  simp only [ledger, Ledger.next, Footer.push, records_append, footerOffset_append, List.length_append,
    List.length_singleton, List.map_append, List.map_cons, List.map_nil]

theorem image_append (entries : List Entry) (last : Entry) : image (entries ++ [last]) =
    ((ledger entries).next last.data.length).image
      (body entries ++ last.info.bytes ++ last.data) := by
  rw [image, ledger_append, body_append]

theorem width_add_length_body (entries : List Entry) :
    Header.width + (body entries).length = (ledger entries).header.footerOffset := by
  rw [length_body]
  rfl

theorem anchored (entries : List Entry) : (ledger entries).Anchored := by
  intro nothing
  cases entries with
  | nil => rfl
  | cons entry rest => simp [ledger, records, recordsFrom] at nothing

theorem fits (entries : List Entry) : (ledger entries).Fits := by
  induction entries using List.reverseRecOn with
  | nil => exact ⟨rfl, Nat.le_refl _, rfl, by simp [ledger, records, recordsFrom], trivial⟩
  | append_singleton entries last ih =>
    rw [ledger_append]
    exact ih.next (anchored entries) last.data.length

theorem liesIn (entries : List Entry) : (ledger entries).LiesIn (image entries) :=
  Ledger.image_liesIn (width_add_length_body entries)

theorem length_image (entries : List Entry) : (image entries).length = (ledger entries).stop :=
  Ledger.length_image (width_add_length_body entries)

theorem carries (entries : List Entry) :
    Bytes.Carries (body entries) (ledger entries).header.footerOffset (image entries) :=
  Ledger.image_carries (width_add_length_body entries)

@[simp] theorem length_records (entries : List Entry) : (records entries).length = entries.length :=
  length_recordsFrom _ _ _

theorem length_footer (entries : List Entry) : (ledger entries).footer.length = entries.length := by
  simp [ledger, Footer.length]

theorem carries_of_append {bytes : Bytes} {last : Entry}
    (carried : Bytes.Carries (body (entries ++ [last])) (footerOffset (entries ++ [last])) bytes) :
    Bytes.Carries (body entries) (footerOffset entries) bytes ∧
      bytes.span (footerOffset entries) (footerOffset entries + Meta.width + last.data.length) =
        last.info.bytes ++ last.data := by
  have tail : Meta.width + last.data.length = (last.info.bytes ++ last.data).length := by simp
  rw [footerOffset_append, body_append, Nat.add_assoc, List.append_assoc, tail] at carried
  rw [Nat.add_assoc, tail]
  exact carried.split (width_add_length_body entries)

/-- Wherever the entries lie behind a header, each of them is read back. -/
theorem recordIn_eq {bytes : Bytes} (inRange : ∀ entry ∈ entries, entry.info.InRange)
    (carried : Bytes.Carries (body entries) (footerOffset entries) bytes) (index : Nat) :
    (ledger entries).recordIn bytes index = reading entries index := by
  unfold reading
  -- From the end, as the log grows: a record is an earlier one, the last one, or none.
  induction entries using List.reverseRecOn generalizing index with
  | nil => rfl
  | append_singleton entries last ih =>
    obtain ⟨earlier, spelled⟩ := carries_of_append carried
    have length := length_footer entries
    rw [ledger_append, records_append]
    rcases Nat.lt_trichotomy index entries.length with before | rfl | behind
    · have known : index < (records entries).length := by rwa [length_records]
      rw [Ledger.recordIn_next_of_lt (by rwa [length]),
        ih (fun entry member => inRange entry (List.mem_append_left _ member)) earlier,
        List.getElem?_append_left known, List.getElem?_eq_getElem known]
    · have read := Ledger.recordIn_next_self (ledger entries)
        (inRange last (List.mem_append_right _ List.mem_cons_self)) spelled
      rw [length] at read
      rw [read, ← length_records entries, List.getElem?_concat_length, length_records]
      rfl
    · have missing : ((ledger entries).next last.data.length).footer.get? index = none := by
        rw [← ledger_append, Footer.get?, List.getElem?_eq_none]
        rw [← Footer.length, length_footer, List.length_append, List.length_singleton]
        exact behind
      rw [Ledger.recordIn, missing, List.getElem?_eq_none (by simpa using Nat.succ_le_of_lt behind)]
      simp [Ledger.next, ledger]

end Entries

end AppendLog
