import AppendLog.Proofs.WireForm

/-! How large a decoded value can be.

A count in front of a sequence costs four bytes whatever it says, and sequences nest. Even so the
items of all the sequences in a value together are paid for by the bytes that it was read of: an item
that takes bytes allows for one more item than there are in it, which is its own place in the sequence
around it, and the bytes of the count allow for the items that take none.
-/

set_option autoImplicit false

namespace AppendLog

namespace Value

mutual

def itemTotal : Value → Nat
  | seq items => items.length + itemTotalAll items
  | record fields => itemTotalFields fields
  | unit | null | bool _ | int _ | uint _ | float _ | complex .. | text _ => 0

def itemTotalAll : List Value → Nat
  | [] => 0
  | item :: rest => item.itemTotal + itemTotalAll rest

def itemTotalFields : List (String × Value) → Nat
  | [] => 0
  | (_, value) :: rest => value.itemTotal + itemTotalFields rest

end

end Value

namespace Shape

open Decoding Value

variable {allowed other : List Bytes → Prop} {shape item : Shape} {value : Value} {spelling : Bytes}
  {parts : List (Value × Bytes)}

/-- Items that take bytes do not outnumber these, and items that take none are limited outright. -/
def Proportionate (spellings : List Bytes) : Prop :=
  (∀ spelling ∈ spellings, spelling = []) ∧ spellings.length ≤ emptyItemLimit ∨
    (∀ spelling ∈ spellings, spelling ≠ []) ∧ spellings.length ≤ spellings.flatten.length

theorem Spells.imp (spells : Spells allowed shape value spelling)
    (follows : ∀ (item : Shape) (parts : List (Value × Bytes)),
      (∀ part ∈ parts, Spells other item part.1 part.2) → allowed (parts.map Prod.snd) →
      other (parts.map Prod.snd)) : Spells other shape value spelling := by
  induction spells with
  | void kind => exact .void kind
  | bool value => exact .bool value
  | int holds => exact .int holds
  | float kind bits => exact .float kind bits
  | complex kind re im => exact .complex kind re im
  | text fits => exact .text fits
  | seq fits limited _ each => exact .seq fits (follows _ _ each limited) each
  | array fits limited _ each => exact .array fits (follows _ _ each limited) each
  | absent item => exact .absent item
  | present _ inner => exact .present inner
  | noFields => exact .noFields
  | field _ _ first others => exact .field first others

theorem proportionate_of_limited (each : ∀ part ∈ parts, Spells allowed item part.1 part.2)
    (limited : WithinLimit (parts.map Prod.snd)) : Proportionate (parts.map Prod.snd) := by
  cases none : item.takesNoBytes with
  | true =>
    have empty : ∀ spelling ∈ parts.map Prod.snd, spelling = [] :=
      List.forall_mem_map.mpr fun part member => (each part member).eq_nil_iff.mpr none
    exact .inl ⟨empty, limited empty⟩
  | false =>
    have long : ∀ spelling ∈ parts.map Prod.snd, spelling ≠ [] :=
      List.forall_mem_map.mpr fun part member empty =>
        Bool.false_ne_true (none.symm.trans ((each part member).eq_nil_iff.mp empty))
    refine .inr ⟨long, ?_⟩
    have enough : (parts.map Prod.snd).length ≤ ((parts.map Prod.snd).flatMap id).length :=
      length_le_flatMap long
    rwa [List.flatMap_id] at enough

/-- Items that take bytes pay for themselves and for their places in the sequence. -/
theorem length_add_itemTotalAll_le
    (each : ∀ part ∈ parts, part.1.itemTotal < emptyItemLimit * part.2.length) :
    parts.length + itemTotalAll (parts.map Prod.fst) ≤
      emptyItemLimit * (parts.flatMap Prod.snd).length := by
  induction parts with
  | nil => exact Nat.zero_le _
  | cons part rest ih =>
    obtain ⟨first, others⟩ := List.forall_mem_cons.mp each
    have more := ih others
    rw [List.length_cons, List.map_cons, itemTotalAll, List.flatMap_cons, List.length_append, Nat.mul_add]
    omega

theorem itemTotalAll_eq_zero {values : List Value} (each : ∀ value ∈ values, value.itemTotal = 0) :
    itemTotalAll values = 0 := by
  induction values with
  | nil => rfl
  | cons value rest ih =>
    obtain ⟨first, others⟩ := List.forall_mem_cons.mp each
    rw [itemTotalAll, first, ih others]

theorem itemTotal_seq_le (count : Nat) (limited : Proportionate (parts.map Prod.snd))
    (each : ∀ part ∈ parts, part.1.itemTotal ≤ emptyItemLimit * part.2.length - 1) :
    (Value.seq (parts.map Prod.fst)).itemTotal ≤
      emptyItemLimit * (Bytes.ofNat lengthWidth count ++ parts.flatMap Prod.snd).length - 1 := by
  rw [itemTotal, List.length_map, List.length_append, Bytes.length_ofNat, Nat.mul_add]
  rcases limited with ⟨empty, few⟩ | ⟨long, -⟩
  · have none : itemTotalAll (parts.map Prod.fst) = 0 := by
      refine itemTotalAll_eq_zero (List.forall_mem_map.mpr fun part member => ?_)
      have paid := each part member
      rw [empty part.2 (List.mem_map_of_mem member)] at paid
      exact Nat.le_zero.mp paid
    rw [List.length_map] at few
    rw [none, emptyItemLimit, lengthWidth] at *
    omega
  · have paid := length_add_itemTotalAll_le fun part member =>
      Nat.lt_of_le_pred (Nat.mul_pos (Nat.succ_pos _)
        (List.length_pos_iff.mpr (long part.2 (List.mem_map_of_mem member)))) (each part member)
    rw [emptyItemLimit, lengthWidth] at *
    omega

/-- A value that takes bytes has fewer items in it than the limit allows for each of them. -/
theorem Spells.itemTotal_le (spells : Spells Proportionate shape value spelling) :
    value.itemTotal ≤ emptyItemLimit * spelling.length - 1 := by
  induction spells with
  | void | bool | float | complex | text | absent | noFields => exact Nat.zero_le _
  | @int kind n holds => cases kind.isSigned <;> exact Nat.zero_le _
  | seq _ limited _ each => exact itemTotal_seq_le _ limited each
  | array _ limited _ each => exact itemTotal_seq_le _ limited each
  | present _ inner =>
    rw [List.length_cons, Nat.mul_add]
    omega
  | field _ _ first others =>
    rw [itemTotal, itemTotalFields, List.length_append, Nat.mul_add]
    rw [itemTotal] at others
    omega

/-- However large the counts in the input, what is read of it has no more items than the bytes that
it consumes allow for: each sequence by itself, and all that are nested in the value together. -/
theorem decode_bounded {cursor after : Cursor} (read : decode shape cursor = .ok value after) :
    ∃ consumed, cursor.rest = consumed ++ after.rest ∧
      after.position = cursor.position + consumed.length ∧
      value.itemTotal ≤ emptyItemLimit * consumed.length ∧ Spells Proportionate shape value consumed := by
  obtain ⟨consumed, spells, start, moved⟩ := (recognizes_decode shape _ _ _).mp read
  have proportionate := spells.imp fun _ _ each => proportionate_of_limited each
  exact ⟨consumed, start, moved, Nat.le_trans proportionate.itemTotal_le (Nat.sub_le _ 1), proportionate⟩

theorem decode_bounded_of_nested :
    let shape : Shape := .record [("hooks", .seq (.seq (.void .function))), ("flags", .array .bool 2)]
    let value : Value := .record [("hooks", .seq [.seq [.unit, .unit, .unit], .seq []]),
      ("flags", .seq [.bool true, .bool false])]
    let bytes : Bytes := [0, 0, 0, 2, 0, 0, 0, 3, 0, 0, 0, 0, 0, 0, 0, 2, 1, 0]
    decode shape (.ofBytes (bytes ++ [7])) = .ok value ⟨[7], 18⟩ ∧ value.itemTotal = 7 ∧
      value.itemTotal ≤ emptyItemLimit * bytes.length ∧ Spells Proportionate shape value bytes := by
  intro shape value bytes
  have read : decode shape (.ofBytes (bytes ++ [7])) = .ok value ⟨[7], 18⟩ := by
    simp only [shape, value, bytes]
    cbv
  obtain ⟨consumed, start, -, total, spells⟩ := decode_bounded read
  have same : bytes = consumed := List.append_cancel_right start
  subst same
  exact ⟨read, rfl, total, spells⟩

end Shape

end AppendLog
