import AppendLog.Proofs.CrashStates
import AppendLog.Proofs.Refinement

/-! What opening makes of a crash inside a commit.

Loading trusts the header, and checks that the footer in the place where the header points
has the right number of entries, the right first one and room between them. Until the
new header has been written as a whole, the bytes in that place are those of the record, and a
record that spells a footer there is taken for one: `crash_detected_iff`.
-/

set_option autoImplicit false

namespace AppendLog

/-- The front of a word and the back of a smaller one make a word that is not smaller. -/
theorem Bytes.le_toNat_mixed {width low high : Nat} (le : low ≤ high) (fits : high < 256 ^ width)
    (split : Nat) : low ≤ toNat ((ofNat width high).take split ++ (ofNat width low).drop split) := by
  induction width generalizing low high split with
  | zero => simp at fits; omega
  | succ width ih =>
    cases split with
    | zero =>
      have value := toNat_ofNat (Nat.lt_of_le_of_lt le fits)
      rw [List.take_zero, List.drop_zero, List.nil_append]
      exact Nat.le_of_eq value.symm
    | succ split =>
      have positive : 0 < 256 ^ width := Nat.pow_pos (by decide)
      have length : ((ofNat width high).take split ++ (ofNat width low).drop split).length = width := by
        simp; omega
      have front : high / 256 ^ width < 256 := by
        rw [Nat.div_lt_iff_lt_mul positive, Nat.mul_comm, ← Nat.pow_succ]
        exact fits
      simp only [ofNat, List.take_succ_cons, List.drop_succ_cons, List.cons_append, toNat, length]
      rw [UInt8.toNat_ofNat', Nat.mod_eq_of_lt front]
      have lowSplit := Nat.div_add_mod low (256 ^ width)
      have lowRest := Nat.mod_lt low positive
      rcases Nat.lt_or_ge (low / 256 ^ width) (high / 256 ^ width) with below | above
      · -- The byte in front alone makes it larger.
        have step := Nat.mul_le_mul_right (256 ^ width) (Nat.succ_le_of_lt below)
        rw [Nat.succ_mul, Nat.mul_comm] at step
        omega
      · have same : low / 256 ^ width = high / 256 ^ width :=
          Nat.le_antisymm (Nat.div_le_div_right le) above
        have highSplit := Nat.div_add_mod high (256 ^ width)
        have rest := ih (show low % 256 ^ width ≤ high % 256 ^ width by
          rw [same] at lowSplit
          omega) (Nat.mod_lt _ positive) split
        rw [ofNat_mod width high (Nat.le_refl _), ofNat_mod width low (Nat.le_refl _)] at rest
        rw [same, Nat.mul_comm] at lowSplit
        omega

theorem Bytes.take_ofNat (width low n : Nat) :
    (ofNat (width + low) n).take width = ofNat width (n / 256 ^ low) := by
  induction width with
  | zero => simp [ofNat]
  | succ width ih =>
    rw [Nat.succ_add, ofNat, List.take_succ_cons, ih, ofNat, Nat.div_div_eq_div_mul, ← Nat.pow_add,
      Nat.add_comm low]

/-- Bytes that replace others in part do so in every window. -/
theorem Bytes.window_torn {fresh old : Bytes} (same : fresh.length = old.length)
    (kept start width : Nat) :
    ((fresh.take kept ++ old.drop kept).drop start).take width =
      ((fresh.drop start).take width).take (kept - start) ++
        ((old.drop start).take width).drop (kept - start) := by
  apply List.ext_getElem?
  intro index
  simp only [List.getElem?_take, List.getElem?_drop, List.getElem?_append, List.length_take,
    List.length_drop]
  grind

theorem Header.word_totalRecords (header : Header) :
    (header.bytes.drop 1).take 8 = Bytes.ofNat 8 header.totalRecords := by
  rw [Header.bytes_eq]
  exact List.take_left' (Bytes.length_ofNat 8 _)

theorem Header.word_footerOffset (header : Header) :
    (header.bytes.drop 9).take 8 = Bytes.ofNat 8 header.footerOffset := by
  rw [Header.bytes_eq, List.drop_succ_cons, List.drop_left' (Bytes.length_ofNat 8 _)]
  exact List.take_of_length_le (Nat.le_of_eq (Bytes.length_ofNat 8 _))

namespace Ledger

variable {ledger found : Ledger} {info : Meta} {data body part : Bytes}

/-- A footer other than the log's own that stands in its place once a part of a record has been
stored there. The meta of the record has to spell the number of records in front of the
first offset, and the first three bytes behind the meta the end of that offset. -/
structure ForgesFooter (ledger : Ledger) (info : Meta) (data : Bytes) (footer : Footer) (part : Bytes) :
    Prop where
  two_le : 2 ≤ ledger.header.totalRecords
  claimsCount : info = ⟨ledger.header.totalRecords, ⟨0, 0, 0, 0⟩, .insert⟩
  start : [0, 0, 17] <+: data ++ (ledger.next data.length).footer.bytes
  stored : part <+: ledger.stored info data
  formed : WellFormed ⟨ledger.header, footer⟩
  other : footer ≠ ledger.footer
  spelled : footer.bytes <+: part ++ ledger.footer.bytes.drop part.length

/-- A ledger other than the ones before and after whose header is a part of the new header in front
of the rest of the old one, and whose footer stands in what has been stored. -/
structure ForgesHeader (ledger : Ledger) (info : Meta) (data : Bytes) (forged : Ledger) (part : Bytes) :
    Prop where
  stored : part <+: (ledger.next data.length).header.bytes
  formed : forged.WellFormed
  notBefore : forged ≠ ledger
  notAfter : forged ≠ ledger.next data.length
  header : forged.header.bytes = part ++ ledger.header.bytes.drop part.length
  behind : ledger.header.footerOffset ≤ forged.header.footerOffset
  spelled : forged.footer.bytes <+:
    (ledger.stored info data).drop (forged.header.footerOffset - ledger.header.footerOffset)

/-- The condition on a record under which a crash while it is added may be taken for a log. -/
def Forgeable (ledger : Ledger) (info : Meta) (data : Bytes) : Prop :=
  ∃ part, (∃ footer, ledger.ForgesFooter info data footer part) ∨
    ∃ forged, ledger.ForgesHeader info data forged part

theorem WellFormed.footer_bounded (formed : ledger.WellFormed) : ledger.footer.Bounded := by
  obtain ⟨-, -, few, below, -⟩ := wellFormed_iff.mp formed
  rw [Footer.entryWidth] at few
  exact ⟨by omega, below⟩

theorem header_isPrefix_iff {header : Header} {front rest : Bytes} (length : front.length = Header.width) :
    header.bytes <+: front ++ rest ↔ header.bytes = front := by
  constructor
  · intro stands
    have taken := List.prefix_iff_eq_take.mp stands
    rwa [Header.length_bytes, ← length, List.take_left] at taken
  · rintro same
    rw [same]
    exact List.prefix_append _ _

theorem liesIn_underOldHeader (formed : ledger.WellFormed)
    (length : Header.width + body.length = ledger.header.footerOffset)
    (foundFormed : found.WellFormed) : found.LiesIn (ledger.underOldHeader body part) ↔
      found.header = ledger.header ∧
        found.footer.bytes <+: part ++ ledger.footer.bytes.drop part.length := by
  have front : (ledger.header.bytes ++ body).length = ledger.header.footerOffset := by simp [length]
  have behind : (ledger.underOldHeader body part).drop ledger.header.footerOffset =
      part ++ ledger.footer.bytes.drop part.length := by
    rw [underOldHeader, ← front, List.drop_left]
  rw [LiesIn]
  nth_rewrite 1 [underOldHeader]
  rw [List.append_assoc, header_isPrefix_iff ledger.header.length_bytes]
  constructor
  · rintro ⟨header, footer⟩
    have same : found.header = ledger.header := Header.inverts_decode.injective
      foundFormed.header_bounded formed.header_bounded header
    rw [same, behind] at footer
    exact ⟨same, footer⟩
  · rintro ⟨same, footer⟩
    rw [same, behind]
    exact ⟨rfl, footer⟩

/-! A header of which a part has been written -/

section Torn

variable (stored : part <+: (ledger.next data.length).header.bytes)
  (header : found.header.bytes = part ++ ledger.header.bytes.drop part.length)

include stored header

theorem torn_word (start : Nat) : (found.header.bytes.drop start).take 8 =
    (((ledger.next data.length).header.bytes.drop start).take 8).take (part.length - start) ++
      ((ledger.header.bytes.drop start).take 8).drop (part.length - start) := by
  rw [header]
  nth_rewrite 1 [List.prefix_iff_eq_take.mp stored]
  exact Bytes.window_torn (by simp) _ _ _

theorem totalRecords_le_of_torn (few : (ledger.next data.length).header.totalRecords < 256 ^ 8)
    (foundFew : found.header.totalRecords < 256 ^ 8) :
    ledger.header.totalRecords ≤ found.header.totalRecords := by
  have mixed := torn_word stored header 1
  simp only [Header.word_totalRecords] at mixed
  have value := Bytes.le_toNat_mixed (Nat.le_add_right ledger.header.totalRecords 1) few (part.length - 1)
  rwa [show ledger.header.totalRecords + 1 = (ledger.next data.length).header.totalRecords from rfl,
    ← mixed, Bytes.toNat_ofNat foundFew] at value

theorem offset_le_of_torn (below : (ledger.next data.length).header.footerOffset < 256 ^ 8)
    (foundBelow : found.header.footerOffset < 256 ^ 8) :
    ledger.header.footerOffset ≤ found.header.footerOffset := by
  have mixed := torn_word stored header 9
  simp only [Header.word_footerOffset] at mixed
  have le : ledger.header.footerOffset ≤ (ledger.next data.length).header.footerOffset :=
    Nat.le_trans (Nat.le_add_right _ _) (Nat.le_add_right _ _)
  have value := Bytes.le_toNat_mixed le below (part.length - 9)
  rwa [← mixed, Bytes.toNat_ofNat foundBelow] at value

/-- A torn header points to the old footer, unless the new offset differs in more than its last byte. -/
theorem offset_eq_of_torn (below : ledger.header.footerOffset < 256 ^ 8)
    (foundBelow : found.header.footerOffset < 256 ^ 8) (torn : part.length < Header.width)
    (page : (ledger.next data.length).header.footerOffset / 256 = ledger.header.footerOffset / 256) :
    found.header.footerOffset = ledger.header.footerOffset := by
  have mixed := torn_word stored header 9
  simp only [Header.word_footerOffset] at mixed
  have front : part.length - 9 ≤ 7 := by
    rw [Header.width] at torn
    omega
  have fronts (n : Nat) : (Bytes.ofNat 8 n).take (part.length - 9) =
      (Bytes.ofNat 7 (n / 256)).take (part.length - 9) := by
    rw [← Nat.pow_one 256, ← Bytes.take_ofNat 7 1 n, List.take_take, Nat.min_eq_left front]
  rw [fronts, page, ← fronts, List.take_append_drop] at mixed
  rw [← Bytes.toNat_ofNat foundBelow, mixed, Bytes.toNat_ofNat below]

end Torn

theorem liesIn_underTornHeader (length : Header.width + body.length = ledger.header.footerOffset)
    (stored : part <+: (ledger.next data.length).header.bytes)
    (behind : ledger.header.footerOffset ≤ found.header.footerOffset) :
    found.LiesIn (ledger.underTornHeader info data body part) ↔
      found.header.bytes = part ++ ledger.header.bytes.drop part.length ∧
        found.footer.bytes <+: (ledger.stored info data).drop
          (found.header.footerOffset - ledger.header.footerOffset) := by
  have short := stored.length_le
  rw [Header.length_bytes] at short
  have width : (part ++ ledger.header.bytes.drop part.length).length = Header.width := by
    simp [Nat.add_sub_cancel' short]
  have front : (part ++ ledger.header.bytes.drop part.length ++ body).length =
      ledger.header.footerOffset := by
    rw [List.length_append, width, length]
  have rest : (ledger.underTornHeader info data body part).drop found.header.footerOffset =
      (ledger.stored info data).drop (found.header.footerOffset - ledger.header.footerOffset) := by
    rw [underTornHeader, ← List.append_assoc, List.drop_append, front,
      List.drop_eq_nil_of_le (front ▸ behind), List.nil_append]
  rw [LiesIn, rest]
  nth_rewrite 1 [underTornHeader]
  rw [header_isPrefix_iff width]

theorem WellFormed.offsets_eq (formed : ledger.WellFormed) (some : ledger.header.totalRecords ≠ 0) :
    ∃ rest, ledger.footer.offsets = Header.width :: rest := by
  have count := formed.count
  have first := formed.first
  cases offsets : ledger.footer.offsets with
  | nil =>
    rw [Footer.length, offsets] at count
    exact absurd count.symm some
  | cons offset rest =>
    rw [offsets] at first
    exact ⟨rest, by rw [first offset rfl]⟩

/-- The first sixteen bytes of a footer are the same in all logs with that many records. -/
theorem WellFormed.footer_bytes_eq (formed : ledger.WellFormed)
    (some : ledger.header.totalRecords ≠ 0) :
    ∃ rest, ledger.footer.bytes = Bytes.ofNat 8 ledger.header.totalRecords ++
      Bytes.ofNat 8 Header.width ++ rest := by
  obtain ⟨rest, offsets⟩ := formed.offsets_eq some
  refine ⟨rest.flatMap (Bytes.ofNat 8), ?_⟩
  rw [Footer.bytes_eq, formed.count, offsets, List.flatMap_cons, List.append_assoc]

theorem WellFormed.two_le_of_other {footer : Footer} (formed : ledger.WellFormed)
    (otherFormed : WellFormed ⟨ledger.header, footer⟩) (other : footer ≠ ledger.footer) :
    2 ≤ ledger.header.totalRecords := by
  have differs : footer.offsets ≠ ledger.footer.offsets := fun same =>
    other (congrArg Footer.mk same)
  have count : ledger.footer.offsets.length = ledger.header.totalRecords := formed.count
  have otherCount : footer.offsets.length = ledger.header.totalRecords := otherFormed.count
  refine Nat.le_of_not_lt fun few => differs ?_
  by_cases none : ledger.header.totalRecords = 0
  · rw [none] at count otherCount
    rw [List.length_eq_zero_iff.mp count, List.length_eq_zero_iff.mp otherCount]
  · obtain ⟨rest, offsets⟩ := formed.offsets_eq none
    obtain ⟨rest', offsets'⟩ := otherFormed.offsets_eq none
    rw [offsets, List.length_cons] at count
    rw [show footer.offsets = _ from offsets', List.length_cons] at otherCount
    have empty : rest = [] := List.length_eq_zero_iff.mp (by omega)
    have empty' : rest' = [] := List.length_eq_zero_iff.mp (by omega)
    rw [offsets, show footer.offsets = _ from offsets', empty, empty']

theorem landed_of_other {footer : Footer} (formed : ledger.WellFormed)
    (otherFormed : WellFormed ⟨ledger.header, footer⟩) (other : footer ≠ ledger.footer)
    (spelled : footer.bytes <+: part ++ ledger.footer.bytes.drop part.length) :
    Bytes.ofNat 8 ledger.header.totalRecords ++ Bytes.ofNat 8 Header.width <+: part := by
  have some : ledger.header.totalRecords ≠ 0 :=
    Nat.ne_of_gt (Nat.lt_of_lt_of_le (by decide) (formed.two_le_of_other otherFormed other))
  obtain ⟨rest, bytes⟩ := formed.footer_bytes_eq some
  obtain ⟨rest', (bytes' : footer.bytes = Bytes.ofNat 8 ledger.header.totalRecords ++
    Bytes.ofNat 8 Header.width ++ rest')⟩ := otherFormed.footer_bytes_eq some
  generalize Bytes.ofNat 8 ledger.header.totalRecords ++ Bytes.ofNat 8 Header.width = start
    at bytes bytes' ⊢
  have front : start <+: footer.bytes := bytes' ▸ List.prefix_append _ _
  refine List.prefix_of_prefix_length_le (front.trans spelled) (List.prefix_append _ _) ?_
  -- Otherwise what stands behind the part is the rest of the old footer, and so is the whole.
  refine Nat.le_of_not_lt fun short => other ?_
  have lengths : footer.bytes.length = ledger.footer.bytes.length := by
    rw [Footer.length_bytes, Footer.length_bytes, Footer.encodedLength, Footer.encodedLength, formed.count,
      show footer.length = _ from otherFormed.count]
  have whole : footer.bytes = part ++ ledger.footer.bytes.drop part.length := by
    apply spelled.eq_of_length
    rw [List.length_append, List.length_drop, lengths, bytes, List.length_append]
    omega
  have tail : ledger.footer.bytes.drop part.length = start.drop part.length ++ rest := by
    rw [bytes, List.drop_append_of_le_length (Nat.le_of_lt short)]
  rw [tail, ← List.append_assoc, bytes'] at whole
  have tails : rest'.length = rest.length := by
    rw [bytes', bytes, List.length_append, List.length_append] at lengths
    exact Nat.add_left_cancel lengths
  apply Footer.inverts_decode.injective otherFormed.footer_bounded formed.footer_bounded
  rw [bytes', bytes, (List.append_inj' whole tails).2]

theorem WellFormed.eq_of_none (foundFormed : found.WellFormed) (formed : ledger.WellFormed)
    (foundNone : found.header.totalRecords = 0) (none : ledger.header.totalRecords = 0)
    (offset : found.header.footerOffset = ledger.header.footerOffset) : found = ledger := by
  have version : found.header.version = ledger.header.version :=
    foundFormed.version.trans formed.version.symm
  have foundOffsets := List.length_eq_zero_iff.mp (foundFormed.count.trans foundNone)
  have offsets := List.length_eq_zero_iff.mp (formed.count.trans none)
  obtain ⟨⟨_, _, _⟩, ⟨_⟩⟩ := found
  obtain ⟨⟨_, _, _⟩, ⟨_⟩⟩ := ledger
  simp only at version foundNone none offset foundOffsets offsets
  rw [version, foundNone, none, offset, foundOffsets, offsets]

/-- Under a header, one footer at most stands in front of bytes. -/
theorem WellFormed.eq_of_isPrefix (foundFormed : found.WellFormed) (formed : ledger.WellFormed)
    (header : found.header = ledger.header) (front : found.footer.bytes <+: ledger.footer.bytes) :
    found = ledger := by
  have lengths : found.footer.bytes.length = ledger.footer.bytes.length := by
    rw [Footer.length_bytes, Footer.length_bytes, Footer.encodedLength, Footer.encodedLength,
      foundFormed.count, formed.count, header]
  have footer : found.footer = ledger.footer := Footer.inverts_decode.injective
    foundFormed.footer_bounded formed.footer_bounded (front.eq_of_length lengths)
  obtain ⟨_, _⟩ := found
  obtain ⟨_, _⟩ := ledger
  exact congrArg₂ Ledger.mk header footer

/-- What starts as a footer does is the meta that spells its first sixteen bytes. -/
theorem spells_count {count : Nat} (few : count * Footer.entryWidth < Footer.wordLimit)
    (inRange : info.InRange)
    (landed : Bytes.ofNat 8 count ++ Bytes.ofNat 8 Header.width <+: ledger.stored info data) :
    info = ⟨count, ⟨0, 0, 0, 0⟩, .insert⟩ ∧
      [0, 0, 17] <+: data ++ (ledger.next data.length).footer.bytes := by
  let spelling : Meta := ⟨count, ⟨0, 0, 0, 0⟩, .insert⟩
  have spellingRange : spelling.InRange := by
    rw [Footer.entryWidth, Footer.wordLimit] at few
    show IntKind.i64.Holds _
    simp [IntKind.Holds, IntKind.isSigned, IntKind.width, spelling]
    omega
  have start : Bytes.ofNat 8 count ++ Bytes.ofNat 8 Header.width = spelling.bytes ++ [0, 0, 17] := by
    have time : IntKind.i64.bytes spelling.time = Bytes.ofNat 8 count := by
      rw [IntKind.bytes, Bytes.ofInt, ← Int.natCast_emod, Int.toNat_natCast]
      exact Bytes.ofNat_mod 8 _ (Nat.le_refl _)
    have width : Bytes.ofNat 8 Header.width = [0, 0, 0, 0, 0, 0, 0, 17] := by decide
    rw [Meta.bytes_eq, time, width]
    simp [spelling, Kind.bytes, Op.code]
  obtain ⟨rest, whole⟩ := landed
  rw [start, Ledger.stored, List.append_assoc, List.append_assoc] at whole
  obtain ⟨metas, behind⟩ := List.append_inj whole (by simp)
  exact ⟨(Meta.inverts_decode.injective spellingRange inRange metas).symm, ⟨rest, behind⟩⟩

/-- Only a record that spells a footer puts another one under the old header. -/
theorem forgesFooter {footer : Footer} (formed : ledger.WellFormed) (inRange : info.InRange)
    (otherFormed : WellFormed ⟨ledger.header, footer⟩) (other : footer ≠ ledger.footer)
    (stored : part <+: ledger.stored info data)
    (spelled : footer.bytes <+: part ++ ledger.footer.bytes.drop part.length) :
    ledger.ForgesFooter info data footer part := by
  have landed := (landed_of_other formed otherFormed other spelled).trans stored
  obtain ⟨claimsCount, start⟩ := spells_count formed.entries_lt inRange landed
  exact ⟨formed.two_le_of_other otherFormed other, claimsCount, start, stored, otherFormed, other, spelled⟩

/-- A record of some other kind than zero is not taken for anything else, unless it carries the
footer offset over a multiple of 256. -/
theorem not_forgeable (formed : ledger.WellFormed) (nextFormed : (ledger.next data.length).WellFormed)
    (inRange : info.InRange) (kind : info.kind ≠ ⟨0, 0, 0, 0⟩)
    (page : (ledger.next data.length).header.footerOffset / 256 = ledger.header.footerOffset / 256) :
    ¬ ledger.Forgeable info data := by
  rintro ⟨part, ⟨footer, forges⟩ | ⟨forged, forges⟩⟩
  · exact kind (congrArg Meta.kind forges.claimsCount)
  rcases Nat.lt_or_ge part.length Header.width with torn | whole
  -- A torn header still points to the old footer, where the meta of the record stands now.
  · have offset := offset_eq_of_torn forges.stored forges.header formed.offset_lt forges.formed.offset_lt
      torn page
    have spelled := forges.spelled
    rw [offset, Nat.sub_self, List.drop_zero] at spelled
    by_cases none : forged.header.totalRecords = 0
    · have le := totalRecords_le_of_torn forges.stored forges.header nextFormed.header_bounded.1
        forges.formed.header_bounded.1
      exact forges.notBefore (forges.formed.eq_of_none formed none (by omega) offset)
    · obtain ⟨rest, bytes⟩ := forges.formed.footer_bytes_eq none
      have landed := (bytes ▸ List.prefix_append _ _ : _ <+: forged.footer.bytes).trans spelled
      exact kind (congrArg Meta.kind (spells_count forges.formed.entries_lt inRange landed).1)
  -- A whole one points to the new footer.
  · have landed : part = (ledger.next data.length).header.bytes :=
      forges.stored.eq_of_length_le (by rwa [Header.length_bytes])
    have spelled : forged.header.bytes = (ledger.next data.length).header.bytes := by
      rw [forges.header, landed, List.drop_eq_nil_of_le (by simp), List.append_nil]
    have header := Header.inverts_decode.injective forges.formed.header_bounded nextFormed.header_bounded
      spelled
    refine forges.notAfter (forges.formed.eq_of_isPrefix nextFormed header ?_)
    have behind : forged.header.footerOffset - ledger.header.footerOffset =
        (info.bytes ++ data).length := by
      simp [header, next, Nat.add_assoc]
    have footer := forges.spelled
    rwa [behind, Ledger.stored, List.drop_left] at footer

theorem CrashLeaves.ne_nil {left : Bytes} (leaves : ledger.CrashLeaves info data body left) :
    left ≠ [] := by
  intro none
  have length := congrArg List.length none
  cases leaves with
  | oldHeader _ => simp [underOldHeader, Header.width] at length
  | tornHeader stored =>
    have short := stored.length_le
    simp only [underTornHeader, List.length_append, List.length_drop, Header.length_bytes,
      List.length_nil, Header.width] at length short
    omega

/-- A ledger that lies in what a crash leaves is the one before or after, or a forged one. -/
theorem CrashLeaves.liesIn_cases {left : Bytes} (leaves : ledger.CrashLeaves info data body left)
    (formed : ledger.WellFormed) (length : Header.width + body.length = ledger.header.footerOffset)
    (inRange : info.InRange) (below : (ledger.next data.length).stop < Footer.wordLimit)
    (foundFormed : found.WellFormed) (lies : found.LiesIn left) :
    found = ledger ∨ found = ledger.next data.length ∨ ledger.Forgeable info data := by
  cases leaves with
  | @oldHeader part stored =>
    obtain ⟨header, spelled⟩ := (liesIn_underOldHeader formed length foundFormed).mp lies
    obtain ⟨_, footer⟩ := found
    obtain rfl : _ = ledger.header := header
    -- The header is the old one, so only the footer may differ.
    by_cases same : footer = ledger.footer
    · exact .inl (same ▸ rfl)
    · exact .inr (.inr ⟨part, .inl ⟨footer, forgesFooter formed inRange foundFormed same stored spelled⟩⟩)
  | @tornHeader part stored =>
    by_cases before : found = ledger
    · exact .inl before
    by_cases after : found = ledger.next data.length
    · exact .inr (.inl after)
    have width : (part ++ ledger.header.bytes.drop part.length).length = Header.width := by
      have short := stored.length_le
      rw [Header.length_bytes] at short
      simp [Nat.add_sub_cancel' short]
    have header : found.header.bytes = part ++ ledger.header.bytes.drop part.length :=
      (header_isPrefix_iff width).mp lies.1
    have offset_lt := Nat.lt_of_le_of_lt (Nat.le_add_right _ _) below
    have behind := offset_le_of_torn stored header offset_lt foundFormed.offset_lt
    obtain ⟨-, spelled⟩ := (liesIn_underTornHeader length stored behind).mp lies
    exact .inr (.inr ⟨part, .inr ⟨found, stored, foundFormed, before, after, header, behind, spelled⟩⟩)

theorem Forgeable.exists_crashLeaves (forgeable : ledger.Forgeable info data)
    (formed : ledger.WellFormed) (length : Header.width + body.length = ledger.header.footerOffset) :
    ∃ left found, ledger.CrashLeaves info data body left ∧ found.WellFormed ∧ found.LiesIn left ∧
      found ≠ ledger ∧ found ≠ ledger.next data.length := by
  obtain ⟨part, ⟨footer, forges⟩ | ⟨forged, forges⟩⟩ := forgeable
  · refine ⟨ledger.underOldHeader body part, ⟨ledger.header, footer⟩, .oldHeader forges.stored,
      forges.formed, (liesIn_underOldHeader formed length forges.formed).mpr ⟨rfl, forges.spelled⟩, ?_, ?_⟩
    · exact fun same => forges.other (congrArg Ledger.footer same)
    · intro same
      have count := congrArg (fun other : Ledger => other.header.totalRecords) same
      exact absurd count (Nat.ne_of_lt (Nat.lt_succ_self _))
  · exact ⟨ledger.underTornHeader info data body part, forged, .tornHeader forges.stored, forges.formed,
      (liesIn_underTornHeader length forges.stored forges.behind).mpr ⟨forges.header, forges.spelled⟩,
      forges.notBefore, forges.notAfter⟩

theorem CrashLeaves.carries {left : Bytes} (leaves : ledger.CrashLeaves info data body left)
    (length : Header.width + body.length = ledger.header.footerOffset) :
    Bytes.Carries body ledger.header.footerOffset left := by
  cases leaves with
  | oldHeader _ =>
    rw [underOldHeader, List.append_assoc]
    exact Bytes.carries_append ledger.header.length_bytes length _
  | tornHeader stored =>
    have short := stored.length_le
    rw [Header.length_bytes] at short
    exact Bytes.carries_append (by simp [Nat.add_sub_cancel' short]) length _

theorem CrashLeaves.carries_next {left : Bytes} (leaves : ledger.CrashLeaves info data body left)
    (formed : ledger.WellFormed) (length : Header.width + body.length = ledger.header.footerOffset)
    (nextFormed : (ledger.next data.length).WellFormed) (lies : (ledger.next data.length).LiesIn left) :
    Bytes.Carries (body ++ info.bytes ++ data) (ledger.next data.length).header.footerOffset left := by
  cases leaves with
  | oldHeader _ =>
    obtain ⟨header, -⟩ := (liesIn_underOldHeader formed length nextFormed).mp lies
    have count := congrArg Header.totalRecords header
    exact absurd count (Nat.succ_ne_self _)
  | tornHeader stored =>
    have short := stored.length_le
    rw [Header.length_bytes] at short
    rw [underTornHeader, Ledger.stored, List.append_assoc info.bytes, ← List.append_assoc body,
      ← List.append_assoc (body ++ info.bytes)]
    refine Bytes.carries_append (by simp [Nat.add_sub_cancel' short]) ?_ _
    simp [next, ← length, Nat.add_assoc]

end Ledger

/-- The medium that a crash inside the commit of a record leaves. The plan says where the crash
comes, and nothing is rolled back. -/
def Log.crashed (log : Log) (ledger : Ledger) (info : Meta) (data : Bytes) (plan : FaultPlan) : Medium :=
  (afterwards (ledger.writeRecord info.bytes data (log.device.underPlan plan))).medium

namespace Session

variable {log : Log} {entries : List Entry} {handle : ListingHandle} {info : Meta} {data : Bytes}

theorem Holds.content_crashed (holds : Holds log entries handle) (writes : handle.readOnly = false)
    (info : Meta) (data : Bytes) (plan : FaultPlan) :
    (log.crashed (Entries.ledger entries) info data plan).content =
      ((Entries.ledger entries).commitScript info.bytes data (Entries.image entries).length).leaves plan []
        (Entries.image entries) := by
  have served := holds.underPlan plan
  obtain ⟨left, calls, content, stopped⟩ := Ledger.afterwards_writeRecord (served.writable writes)
    served.content (Entries.width_add_length_body entries) info data
  rw [Log.underPlan] at stopped
  rw [Log.crashed, stopped]
  exact content

theorem Holds.crashLeaves (holds : Holds log entries handle) (writes : handle.readOnly = false)
    (info : Meta) (data : Bytes) (plan : FaultPlan) :
    (Entries.ledger entries).CrashLeaves info data (Entries.body entries)
      (log.crashed (Entries.ledger entries) info data plan).content := by
  rw [holds.content_crashed writes]
  exact Ledger.leaves_commitScript (Entries.width_add_length_body entries) plan

/-- What lies in a state that a crash can leave is opened after some crash. -/
theorem Holds.exists_crashed (holds : Holds log entries handle) (writes : handle.readOnly = false)
    {left : Bytes} {found : Ledger} (formed : found.WellFormed) (lies : found.LiesIn left)
    (leaves : (Entries.ledger entries).CrashLeaves info data (Entries.body entries) left)
    (path : Option String) (config : Config) :
    ∃ plan reopened device, Log.openOn path config (.sound
      ((log.crashed (Entries.ledger entries) info data plan).reopened config.readOnly)) =
        (.ok reopened, device) ∧ reopened.ledger = some found := by
  obtain ⟨plan, left⟩ := Ledger.exists_plan (Entries.width_add_length_body entries) leaves
  have content := (holds.content_crashed writes info data plan).trans left
  rw [← content] at lies
  obtain ⟨reopened, device, opens, same, -⟩ := Log.openOn_reads path config _ formed lies
  exact ⟨plan, reopened, device, opens, same⟩

/-- Without a forgery, a log that is opened after a crash shows the entries from before or after. -/
theorem Holds.shows_crashed (holds : Holds log entries handle) (writes : handle.readOnly = false)
    (bounded : Listing.Bounded ⟨true, entries ++ [⟨info, data⟩], none⟩)
    (unforgeable : ¬ (Entries.ledger entries).Forgeable info data) {plan : FaultPlan}
    {path : Option String} {config : Config} {reopened : Log} {device : Device}
    (opens : Log.openOn path config (.sound
      ((log.crashed (Entries.ledger entries) info data plan).reopened config.readOnly)) =
        (.ok reopened, device)) :
    reopened.Shows entries ∨ reopened.Shows (entries ++ [⟨info, data⟩]) := by
  have length := Entries.width_add_length_body entries
  have earlier : Listing.Bounded ⟨true, entries, none⟩ := bounded.of_isPrefix (List.prefix_append _ _)
  have formed : (Entries.ledger entries).WellFormed := earlier.wellFormed
  have grown := Entries.ledger_append entries ⟨info, data⟩
  have inRange : info.InRange := bounded.inRange ⟨info, data⟩ (by simp)
  have leaves := holds.crashLeaves writes info data plan
  obtain ⟨found, same, foundFormed, lies, kept, sound⟩ := Log.openOn_eq_ok leaves.ne_nil opens
  have readable : reopened.device.medium.Readable := kept ▸ Medium.readable_reopened _ _
  have bytes : reopened.device.bytes = (log.crashed (Entries.ledger entries) info data plan).content := by
    rw [Device.bytes, kept, Medium.content_reopened]
  rcases leaves.liesIn_cases formed length inRange (grown ▸ bounded.below) foundFormed lies with
    rfl | rfl | forgeable
  · exact .inl (Log.shows_of_carries same readable sound earlier.inRange (bytes ▸ leaves.carries length))
  · have carries := leaves.carries_next formed length foundFormed lies
    refine .inr (Log.shows_of_carries (grown ▸ same) readable sound bounded.inRange ?_)
    rw [bytes, Entries.body_append, Entries.footerOffset_append]
    exact carries
  · exact absurd forgeable unforgeable

/-- A crash while a record is added to a log is detected unless the record can be taken for a
header or a footer: whatever is opened afterwards shows the entries from before or from after. -/
theorem crash_detected_iff (requests : List Request) {medium : Medium} (empty : medium.content = [])
    (held : ((stored medium).run requests).2 = .held log) {ledger : Ledger}
    (opened : log.ledger = some ledger) (writes : log.config.readOnly = false)
    (listed : (Listing.start.run requests).2.entries = entries)
    (bounded : Listing.Bounded ⟨true, entries ++ [⟨info, data⟩], none⟩) :
    (∀ plan path config reopened device, Log.openOn path config
      (.sound ((log.crashed ledger info data plan).reopened config.readOnly)) = (.ok reopened, device) →
        reopened.Shows entries ∨ reopened.Shows (entries ++ [⟨info, data⟩])) ↔
      ¬ ledger.Forgeable info data := by
  have earlier : (Listing.start.run requests).2.Bounded :=
    bounded.of_isPrefix (listed ▸ List.prefix_append _ _)
  obtain ⟨-, simulates⟩ := run_simulates requests (.empty empty) earlier
  rw [held] at simulates
  obtain ⟨handle, holds⟩ := simulates.holds
  rw [listed] at holds
  obtain rfl := holds.ledger_eq opened
  have unlocked : handle.readOnly = false := holds.readOnly.symm.trans writes
  constructor
  · rintro detected forgeable
    obtain ⟨left, found, leaves, formed, lies, notBefore, notAfter⟩ :=
      forgeable.exists_crashLeaves (listed ▸ earlier.wellFormed) (Entries.width_add_length_body entries)
    obtain ⟨plan, reopened, device, opens, same⟩ :=
      holds.exists_crashed unlocked formed lies leaves none .standard
    rcases detected plan none .standard reopened device opens with before | after
    · exact notBefore (Option.some.inj (same.symm.trans before.ledger))
    · rw [Log.Shows.ledger after, Entries.ledger_append] at same
      exact notAfter (Option.some.inj same).symm
  · intro unforgeable plan path config reopened device opens
    exact holds.shows_crashed unlocked bounded unforgeable opens

/-- A record of a printable kind is added as the first one, and no crash is misread. -/
theorem crash_detected_first :
    let info : Meta := ⟨5, ⟨105, 116, 101, 109⟩, .update⟩
    ∃ log, ((stored (.memory ⟨[]⟩)).run [.open none .standard]).2 = .held log ∧
      log.ledger = some Ledger.fresh ∧ log.config.readOnly = false ∧
      ∀ plan path config reopened device, Log.openOn path config
        (.sound ((log.crashed Ledger.fresh info [7] plan).reopened config.readOnly)) =
          (.ok reopened, device) → reopened.Shows [] ∨ reopened.Shows [⟨info, [7]⟩] := by
  intro info
  have simulates : Simulates ((stored (.memory ⟨[]⟩)).run [.open none .standard]).2
      ⟨true, [], some ⟨false, false⟩⟩ :=
    (run_simulates [.open none .standard] (.empty rfl) ⟨by decide, by decide⟩).2
  obtain ⟨log, held, holds⟩ := simulates.exists_held
  refine ⟨log, held, holds.ledger, holds.readOnly, ?_⟩
  refine (crash_detected_iff [.open none .standard] rfl held holds.ledger holds.readOnly rfl
    ⟨by decide, by decide⟩).mpr ?_
  exact Ledger.not_forgeable ((Entries.fits []).wellFormed (by decide))
    ((Entries.fits [⟨info, [7]⟩]).wellFormed (by decide)) (by decide) (by decide) (by decide)

/-- The data of the third record goes on as the footer of two does, with another second offset.
After a crash in front of the footer, the log opens with that footer. -/
theorem crash_misread :
    let item : Meta := ⟨1, ⟨105, 116, 101, 109⟩, .insert⟩
    let requests : List Request := [.open none .standard,
      .write 0 item (.ofBytes [0, 0, 0, 0, 0, 0, 0, 7]), .write 0 item (.ofBytes [0, 0, 0, 0, 0, 0, 0, 8])]
    let ledger : Ledger := ⟨⟨1, 2, 59⟩, ⟨[17, 38]⟩⟩
    let info : Meta := ⟨2, ⟨0, 0, 0, 0⟩, .insert⟩
    let data : Bytes := [0, 0, 17, 0, 0, 0, 0, 0, 0, 0, 39]
    ∃ log, ((stored (.memory ⟨[]⟩)).run requests).2 = .held log ∧
      log.ledger = some ledger ∧ log.config.readOnly = false ∧
      ∃ plan reopened device, Log.openOn none .standard
        (.sound ((log.crashed ledger info data plan).reopened false)) = (.ok reopened, device) ∧
          reopened.ledger = some ⟨⟨1, 2, 59⟩, ⟨[17, 39]⟩⟩ := by
  intro item requests ledger info data
  let entries : List Entry := [⟨item, [0, 0, 0, 0, 0, 0, 0, 7]⟩, ⟨item, [0, 0, 0, 0, 0, 0, 0, 8]⟩]
  have simulates : Simulates ((stored (.memory ⟨[]⟩)).run requests).2
      ⟨true, entries, some ⟨false, false⟩⟩ :=
    (run_simulates requests (.empty rfl) ⟨by decide, by decide⟩).2
  obtain ⟨log, held, holds⟩ := simulates.exists_held
  have forged : Ledger.LiesIn ⟨⟨1, 2, 59⟩, ⟨[17, 39]⟩⟩
      (ledger.underOldHeader (Entries.body entries) (info.bytes ++ data)) := by
    constructor <;> decide
  have formed : Ledger.WellFormed ⟨⟨1, 2, 59⟩, ⟨[17, 39]⟩⟩ := Ledger.wellFormed_iff.mpr
    ⟨⟨by decide, by decide⟩, ⟨rfl, by decide⟩, by decide, by decide, rfl⟩
  refine ⟨log, held, holds.ledger, holds.readOnly, ?_⟩
  exact holds.exists_crashed rfl formed forged (.oldHeader (List.prefix_append _ _)) none .standard

end Session

end AppendLog
