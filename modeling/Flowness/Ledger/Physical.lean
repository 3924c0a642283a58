import Flowness.Ledger.Framing
import Flowness.Ledger.SegmentOrder

/-!
The physical order of the records on a disk. When sequence numbers increase from line to line and
from segment to segment, the reverse scan finds the largest one and a write keeps the order.
-/

namespace Flowness.Ledger

open Option List Library Schemas

variable {content : Bytes} {disk : Disk} {path : SegmentPath}

namespace Disk

def recordsAt (disk : Disk) (path : SegmentPath) : List EventRecord :=
  if path.listed then segmentRecords ((disk.read path).getD []) else []

theorem recordsAt_of_read
    (h : disk.read path = some content) (hlisted : path.listed = true) :
    disk.recordsAt path = segmentRecords content := by
  rw [recordsAt, if_pos hlisted, h, getD_some]

theorem recordsAt_write_self (disk : Disk) (content : Bytes)
    (hlisted : path.listed = true) :
    (disk.write path content).recordsAt path = segmentRecords content :=
  recordsAt_of_read (read_write_self disk path content) hlisted

theorem recordsAt_write_of_ne (disk : Disk) {p q : SegmentPath} (content : Bytes) (h : q ≠ p) :
    (disk.write p content).recordsAt q = disk.recordsAt q := by
  rw [recordsAt, recordsAt, read_write_of_ne disk content h]

theorem recordsAt_remove_self (disk : Disk) (number : Nat) :
    (disk.remove number).recordsAt (.hot number) = [] := by
  rw [recordsAt, read_remove_self, getD_none, segmentRecords_nil, ite_self]

def physicalRecords (disk : Disk) : List EventRecord :=
  disk.orderedSegments.flatMap fun segment => segmentRecords segment.2

theorem mem_physicalRecords {record : EventRecord} :
    record ∈ disk.physicalRecords ↔ ∃ path, record ∈ disk.recordsAt path := by
  unfold physicalRecords
  rw [mem_flatMap]
  constructor
  · rintro ⟨⟨path, content⟩, hsegment, hrecord⟩
    obtain ⟨hread, hlisted⟩ := mem_orderedSegments.mp hsegment
    exact ⟨path, by rw [recordsAt_of_read hread hlisted]; exact hrecord⟩
  · rintro ⟨path, hrecord⟩
    unfold recordsAt at hrecord
    split at hrecord
    next hlisted =>
      cases hread : disk.read path with
      | none => simp [hread] at hrecord
      | some content =>
        rw [hread] at hrecord
        exact ⟨(path, content), mem_orderedSegments.mpr ⟨hread, hlisted⟩, hrecord⟩
    · simp at hrecord

end Disk

/-- The listed segments are framed and sequence numbers increase in reading order. -/
structure Physical (disk : Disk) : Prop where
  framed : ∀ path content, disk.read path = some content → path.listed = true → Framed content
  within : ∀ path, ((disk.recordsAt path).map EventRecord.sequenceNumber).Pairwise (· < ·)
  across : ∀ p q, p.rank < q.rank → ∀ left ∈ disk.recordsAt p, ∀ right ∈ disk.recordsAt q,
    left.sequenceNumber < right.sequenceNumber

private theorem Physical.pairwise_across (h : Physical disk) :
    disk.orderedSegments.Pairwise (fun first second => ∀ left ∈ segmentRecords first.2,
      ∀ right ∈ segmentRecords second.2, left.sequenceNumber < right.sequenceNumber) := by
  apply disk.orderedSegments_sorted.imp_of_mem
  intro first second hfirst hsecond hrank left hleft right hright
  obtain ⟨hreadFirst, hlistedFirst⟩ := Disk.mem_orderedSegments.mp hfirst
  obtain ⟨hreadSecond, hlistedSecond⟩ := Disk.mem_orderedSegments.mp hsecond
  apply h.across _ _ hrank
  · rw [Disk.recordsAt_of_read hreadFirst hlistedFirst]
    exact hleft
  · rw [Disk.recordsAt_of_read hreadSecond hlistedSecond]
    exact hright

theorem Physical.increasing (h : Physical disk) :
    (disk.physicalRecords.map EventRecord.sequenceNumber).Pairwise (· < ·) := by
  unfold Disk.physicalRecords
  rw [pairwise_map, pairwise_flatMap]
  constructor
  · intro segment hsegment
    obtain ⟨hread, hlisted⟩ := Disk.mem_orderedSegments.mp hsegment
    have hwithin := h.within segment.1
    rw [Disk.recordsAt_of_read hread hlisted, pairwise_map] at hwithin
    exact hwithin
  · exact h.pairwise_across

def maxSequence (records : List EventRecord) : Int :=
  (records.map (fun record => (record.sequenceNumber : Int))).foldl max (-1)

private theorem foldl_max_spec (numbers : List Int) (start : Int) :
    start ≤ numbers.foldl max start ∧ (∀ n ∈ numbers, n ≤ numbers.foldl max start) ∧
      (numbers.foldl max start = start ∨ numbers.foldl max start ∈ numbers) := by
  induction numbers generalizing start with
  | nil => simp
  | cons number numbers ih =>
    obtain ⟨hstart, hall, hmem⟩ := ih (max start number)
    rw [foldl_cons]
    refine ⟨le_trans (le_max_left _ _) hstart, ?_, ?_⟩
    · intro n hn
      rcases mem_cons.mp hn with rfl | hn
      · exact le_trans (le_max_right _ _) hstart
      · exact hall n hn
    · rcases hmem with heq | hmem
      · rw [heq]
        rcases le_total start number with h | h
        · rw [max_eq_right h]
          exact .inr mem_cons_self
        · exact .inl (max_eq_left h)
      · exact .inr (mem_cons_of_mem _ hmem)

variable {records : List EventRecord}

theorem le_maxSequence {record : EventRecord}
    (h : record ∈ records) : (record.sequenceNumber : Int) ≤ maxSequence records :=
  (foldl_max_spec _ _).2.1 _ (mem_map.mpr ⟨record, h, rfl⟩)

theorem maxSequence_mem (h : 0 ≤ maxSequence records) :
    ∃ record ∈ records, maxSequence records = record.sequenceNumber := by
  rcases (foldl_max_spec (records.map (fun record => (record.sequenceNumber : Int))) (-1)).2.2 with
    heq | hmem
  · have hneg : maxSequence records = -1 := heq
    omega
  · obtain ⟨record, hrecord, heq⟩ := mem_map.mp hmem
    exact ⟨record, hrecord, heq.symm⟩

private theorem maxSequence_append {front : List EventRecord}
    (hlt : ∀ left ∈ front, ∀ right ∈ records, left.sequenceNumber < right.sequenceNumber) :
    maxSequence (front ++ records) =
      if 0 ≤ maxSequence records then maxSequence records else maxSequence front := by
  split
  next hpos =>
    obtain ⟨last, hlast, heq⟩ := maxSequence_mem hpos
    have hle := le_maxSequence (mem_append_right front hlast)
    have htopPos : 0 ≤ maxSequence (front ++ records) := by omega
    obtain ⟨top, htop, htopEq⟩ := maxSequence_mem htopPos
    rcases mem_append.mp htop with hmem | hmem
    · have hbefore := hlt top hmem last hlast
      omega
    · have hafter := le_maxSequence hmem
      omega
  next hnone =>
    have hnil : records = [] := by
      cases records with
      | nil => rfl
      | cons record records =>
        have hle := le_maxSequence (mem_cons_self : record ∈ record :: records)
        omega
    rw [hnil, append_nil]

private theorem segmentMax_framed (h : Framed content) :
    ∃ lines, readLines content = some lines ∧
      segmentMax lines = maxSequence (segmentRecords content) := by
  obtain ⟨lines, rest, hlegible⟩ := h.legible
  refine ⟨lines, hlegible.read, ?_⟩
  unfold segmentMax maxSequence
  rw [hlegible.sequences]

theorem readMaxSeqIn_recordLines (records : List EventRecord) (earlier : List Bytes) :
    readMaxSeqIn (recordLines records :: earlier) =
      if 0 ≤ maxSequence records then .ok (maxSequence records) else readMaxSeqIn earlier := by
  obtain ⟨lines, hread, hmax⟩ := segmentMax_framed (framed_recordLines records)
  rw [segmentRecords_recordLines] at hmax
  rw [readMaxSeqIn, hread]
  simp only [hmax]

theorem nextBase_of_last {last : Nat}
    (hsegments : (disk.orderedSegments.map Prod.snd).reverse = recordLines records :: earlier)
    (hmax : maxSequence records = (last : Int)) : nextBase disk = .ok (last + 1) := by
  have hscan : readMaxSeqOnDisk disk = .ok (last : Int) := by
    unfold readMaxSeqOnDisk
    rw [hsegments, readMaxSeqIn_recordLines, hmax, if_pos (Int.natCast_nonneg last)]
  unfold nextBase
  rw [hscan]
  rfl

private theorem readMaxSeqIn_eq (contents : List Bytes) (hframed : ∀ content ∈ contents, Framed content)
    (hacross : contents.Pairwise (fun c d => ∀ left ∈ segmentRecords c, ∀ right ∈ segmentRecords d,
      left.sequenceNumber < right.sequenceNumber)) :
    readMaxSeqIn contents.reverse = .ok (maxSequence (contents.flatMap segmentRecords)) := by
  induction contents using List.reverseRecOn with
  | nil => rfl
  | append_singleton front content ih =>
    obtain ⟨hfront, -, hcross⟩ := pairwise_append.mp hacross
    have hlt : ∀ left ∈ front.flatMap segmentRecords, ∀ right ∈ segmentRecords content,
        left.sequenceNumber < right.sequenceNumber := by
      intro left hleft right hright
      obtain ⟨c, hc, hmem⟩ := mem_flatMap.mp hleft
      exact hcross c hc content (mem_singleton_self _) left hmem right hright
    obtain ⟨lines, hread, hmax⟩ := segmentMax_framed (hframed content (by simp))
    rw [reverse_append, reverse_singleton, singleton_append, readMaxSeqIn, hread,
      flatMap_append, flatMap_singleton, maxSequence_append hlt]
    simp only [hmax]
    split
    · rfl
    · exact ih (fun c hc => hframed c (mem_append_left _ hc)) hfront

section

variable (h : Physical disk)
include h

theorem Physical.readMaxSeqOnDisk_eq :
    readMaxSeqOnDisk disk = .ok (maxSequence disk.physicalRecords) := by
  have hrecords : disk.physicalRecords =
      (disk.orderedSegments.map Prod.snd).flatMap segmentRecords := by
    rw [flatMap_map]
    rfl
  rw [hrecords]
  apply readMaxSeqIn_eq
  · intro content hcontent
    obtain ⟨⟨path, bytes⟩, hsegment, rfl⟩ := mem_map.mp hcontent
    obtain ⟨hread, hlisted⟩ := Disk.mem_orderedSegments.mp hsegment
    exact h.framed path bytes hread hlisted
  · rw [pairwise_map]
    exact h.pairwise_across

theorem Physical.lt_nextBase {base : Nat} (hbase : nextBase disk = .ok base) :
    ∀ path, ∀ record ∈ disk.recordsAt path, record.sequenceNumber < base := by
  intro path record hrecord
  unfold nextBase at hbase
  rw [h.readMaxSeqOnDisk_eq] at hbase
  have heq : (maxSequence disk.physicalRecords + 1).toNat = base := Except.ok.inj hbase
  have hle := le_maxSequence (Disk.mem_physicalRecords.mpr ⟨path, hrecord⟩)
  omega

theorem Physical.write (hframed : Framed content)
    (hwithin : ((segmentRecords content).map EventRecord.sequenceNumber).Pairwise (· < ·))
    (hbelow : ∀ q, q.rank < path.rank → ∀ left ∈ disk.recordsAt q, ∀ right ∈ segmentRecords content,
      left.sequenceNumber < right.sequenceNumber)
    (habove : ∀ q, path.rank < q.rank → ∀ left ∈ segmentRecords content, ∀ right ∈ disk.recordsAt q,
      left.sequenceNumber < right.sequenceNumber) : Physical (disk.write path content) := by
  have hself : ∀ record, record ∈ (disk.write path content).recordsAt path →
      record ∈ segmentRecords content := by
    intro record hrecord
    unfold Disk.recordsAt at hrecord
    rw [Disk.read_write_self] at hrecord
    split at hrecord
    · exact hrecord
    · simp at hrecord
  refine ⟨?_, ?_, ?_⟩
  · intro p c hread hlisted
    by_cases hp : p = path
    · subst hp
      rw [Disk.read_write_self] at hread
      exact some.inj hread ▸ hframed
    · rw [Disk.read_write_of_ne disk content hp] at hread
      exact h.framed p c hread hlisted
  · intro p
    by_cases hp : p = path
    · subst hp
      unfold Disk.recordsAt
      rw [Disk.read_write_self]
      split
      · exact hwithin
      · exact List.Pairwise.nil
    · rw [Disk.recordsAt_write_of_ne disk content hp]
      exact h.within p
  · intro p q hrank left hleft right hright
    by_cases hp : p = path
    · subst hp
      have hq : q ≠ p := by
        rintro rfl
        exact lt_irrefl _ hrank
      rw [Disk.recordsAt_write_of_ne disk content hq] at hright
      exact habove q hrank left (hself left hleft) right hright
    · rw [Disk.recordsAt_write_of_ne disk content hp] at hleft
      by_cases hq : q = path
      · subst hq
        exact hbelow p hrank left hleft right (hself right hright)
      · rw [Disk.recordsAt_write_of_ne disk content hq] at hright
        exact h.across p q hrank left hleft right hright

theorem Physical.write_sublist (hframed : Framed content)
    (hsub : (segmentRecords content).Sublist (disk.recordsAt path)) :
    Physical (disk.write path content) := by
  apply h.write hframed
  · exact (h.within path).sublist (hsub.map _)
  · exact fun q hq left hleft right hright => h.across q path hq left hleft right (hsub.subset hright)
  · exact fun q hq left hleft right hright => h.across path q hq left (hsub.subset hleft) right hright

theorem Physical.recoverAt (log : EventLog) (path : SegmentPath) (hlisted : path.listed = true) :
    Physical (recoverAt log disk path).1 ∧
      (recoverAt log disk path).1.recordsAt path = settledPrefix (disk.recordsAt path) ∧
      ∀ q, q ≠ path → (recoverAt log disk path).1.recordsAt q = disk.recordsAt q := by
  unfold Flowness.Ledger.recoverAt
  cases hread : disk.read path with
  | none =>
    refine ⟨h, ?_, fun _ _ => rfl⟩
    rw [Disk.recordsAt, hread, getD_none, segmentRecords_nil, ite_self]
    rfl
  | some content =>
    have hrecords := Disk.recordsAt_of_read hread hlisted
    obtain ⟨hframed, hkept⟩ := framed_recover (h.framed path content hread hlisted)
    dsimp only
    split
    next hwhole =>
      refine ⟨h, ?_, fun _ _ => rfl⟩
      rw [hrecords, ← hkept]
      rcases hwhole with hnil | hend
      · rw [hnil, take_nil]
      · rw [hend, take_length]
    · refine ⟨?_, ?_, fun q hq => Disk.recordsAt_write_of_ne disk _ hq⟩
      · apply h.write_sublist hframed
        obtain ⟨pending, hsplit, -⟩ := settledPrefix_spec (segmentRecords content)
        rw [hkept, hrecords]
        conv_rhs => rw [hsplit]
        exact sublist_append_left _ _
      · rw [Disk.recordsAt_write_self disk _ hlisted, hkept, hrecords]

end

end Flowness.Ledger
