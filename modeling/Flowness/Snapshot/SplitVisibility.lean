import Flowness.Snapshot.Archival

/-!
The split of a segment keeps what a scan can see. A batch stays or goes as a whole, with the sentinel
that makes it visible.
-/

namespace Flowness.Snapshot

open List Library Schemas Ledger

/-- The records of a segment in which every batch ends in its sentinel, as a reader of known versions
finds them; path-B records and batches interleave. -/
structure BatchComplete (records : List EventRecord) : Prop where
  known : ∀ record ∈ records, record.isKnown = true
  settled : ∀ front record rest batchId, records = front ++ record :: rest →
    record.batchId = some batchId → record.isSentinel = false →
      ∃ sentinel ∈ rest, sentinel.batchId = some batchId ∧ sentinel.isSentinel = true

def Sorted (buffer : Buffer) : Prop :=
  ∀ batchId, ∀ record ∈ buffer.pending batchId, record.batchId = some batchId

section

variable {buffer next final : Buffer} {record : EventRecord} {records out : List EventRecord}

/-- What one step of the scan does to every batch: its records come out or wait, in their order. -/
structure Passes (buffer : Buffer) (records out : List EventRecord) (final : Buffer) : Prop where
  direct : out.filter (·.batchId = none) = records.filter (·.batchId = none)
  batch : ∀ batchId, out.filter (·.batchId = some batchId) ++ final.pending batchId =
    buffer.pending batchId ++ records.filter (·.batchId = some batchId)

theorem passes_visit (hsorted : Sorted buffer) (hknown : record.isKnown = true) :
    ∃ out next, visit buffer record = .ok (out, next) ∧ Passes buffer [record] out next ∧
      Sorted next := by
  rw [visit_known hknown]
  cases hbatch : record.batchId with
  | none =>
    refine ⟨_, _, rfl, ⟨rfl, fun batchId => ?_⟩, hsorted⟩
    simp [hbatch]
  | some batchId =>
    have hother : ∀ other, other ≠ batchId →
        (buffer.pending batchId).filter (·.batchId = some other) = [] := by
      intro other hne
      refine filter_eq_nil_iff.mpr fun waiting hwaiting => ?_
      simpa [hsorted batchId waiting hwaiting] using Ne.symm hne
    have hdirect : (buffer.pending batchId).filter (·.batchId = none) = [] := by
      refine filter_eq_nil_iff.mpr fun waiting hwaiting => ?_
      simp [hsorted batchId waiting hwaiting]
    have hall : (buffer.pending batchId).filter (·.batchId = some batchId) =
        buffer.pending batchId := by
      refine filter_eq_self.mpr fun waiting hwaiting => ?_
      simp [hsorted batchId waiting hwaiting]
    by_cases hsentinel : record.isSentinel = true
    · refine ⟨buffer.pending batchId ++ [record], Dict.erase buffer batchId,
        by simp only [hsentinel, if_true], ⟨?_, fun other => ?_⟩, fun other waiting hmem => ?_⟩
      · simp [hdirect, hbatch]
      · rw [filter_append, Buffer.pending_erase]
        by_cases heq : other = batchId
        · subst heq
          simp [hall]
        · simp [hother other heq, heq, hbatch, Ne.symm heq]
      · rw [Buffer.pending_erase] at hmem
        split at hmem
        · contradiction
        · exact hsorted other waiting hmem
    · refine ⟨[], buffer.push batchId record,
        by simp only [hsentinel, if_false, Bool.false_eq_true], ⟨?_, fun other => ?_⟩,
        fun other waiting hmem => ?_⟩
      · simp [hbatch]
      · rw [Buffer.pending_push]
        by_cases heq : other = batchId
        · subst heq
          simp [hbatch]
        · simp [heq, hbatch, Ne.symm heq]
      · rw [Buffer.pending_push] at hmem
        split at hmem
        next heq =>
          rcases mem_append.mp hmem with hold | hnew
          · exact heq ▸ hsorted batchId waiting hold
          · rw [mem_singleton.mp hnew, hbatch, heq]
        · exact hsorted other waiting hmem

theorem Passes.append (h : Passes buffer records out next) (h' : Passes next more later final) :
    Passes buffer (records ++ more) (out ++ later) final where
  direct := by rw [filter_append, filter_append, h.direct, h'.direct]
  batch batchId := by
    rw [filter_append, append_assoc, h'.batch, ← append_assoc, h.batch,
      append_assoc, ← filter_append]

theorem passes_visitAll (hknown : ∀ record ∈ records, record.isKnown = true)
    (hsorted : Sorted buffer) : ∃ out final, visitAll buffer records = .ok (out, final) ∧
      Passes buffer records out final ∧ Sorted final := by
  induction records generalizing buffer with
  | nil => exact ⟨[], buffer, rfl, ⟨rfl, fun _ => by simp⟩, hsorted⟩
  | cons record records ih =>
    obtain ⟨out, next, hvisit, hpasses, hnext⟩ :=
      passes_visit hsorted (hknown record mem_cons_self)
    obtain ⟨later, final, hrest, hlater, hfinal⟩ :=
      ih (fun other hmem => hknown other (mem_cons_of_mem _ hmem)) hnext
    refine ⟨out ++ later, final, ?_, hpasses.append hlater, hfinal⟩
    simp only [visitAll, bind, Except.bind, pure, Except.pure, hvisit, hrest]

theorem pending_final (hknown : ∀ record ∈ records, record.isKnown = true)
    (hwaits : ∀ batchId, buffer.pending batchId ≠ [] →
      ∃ sentinel ∈ records, sentinel.batchId = some batchId ∧ sentinel.isSentinel = true)
    (hsettled : ∀ front record rest batchId, records = front ++ record :: rest →
      record.batchId = some batchId → record.isSentinel = false →
        ∃ sentinel ∈ rest, sentinel.batchId = some batchId ∧ sentinel.isSentinel = true)
    (hscan : visitAll buffer records = .ok (out, final)) (batchId : String) :
    final.pending batchId = [] := by
  induction records generalizing buffer out with
  | nil =>
    cases hscan
    by_contra hne
    obtain ⟨_, hmem, -⟩ := hwaits batchId hne
    contradiction
  | cons record records ih =>
    simp only [visitAll, bind, Except.bind, pure, Except.pure,
      visit_known (hknown record mem_cons_self)] at hscan
    split at hscan
    · contradiction
    next result hrest =>
      cases hscan
      refine ih (fun other hmem => hknown other (mem_cons_of_mem _ hmem)) ?_
        (fun front other rest id hsplit => hsettled (record :: front) other rest id (by
          rw [hsplit, cons_append])) hrest
      intro other hpending
      cases hbatch : record.batchId with
      | none =>
        rw [hbatch] at hpending
        obtain ⟨sentinel, hmem, hother, hsentinel⟩ := hwaits other hpending
        rcases mem_cons.mp hmem with rfl | hmem
        · rw [hbatch] at hother
          contradiction
        · exact ⟨sentinel, hmem, hother, hsentinel⟩
      | some own =>
        rw [hbatch] at hpending
        by_cases hsentinel : record.isSentinel = true
        · simp only [hsentinel, if_true, Buffer.pending_erase] at hpending
          split at hpending
          · contradiction
          next hne =>
            obtain ⟨sentinel, hmem, hother, hlast⟩ := hwaits other hpending
            rcases mem_cons.mp hmem with rfl | hmem
            · rw [hbatch] at hother
              exact absurd (Option.some.inj hother).symm hne
            · exact ⟨sentinel, hmem, hother, hlast⟩
        · rw [Bool.not_eq_true] at hsentinel
          by_cases heq : other = own
          · subst heq
            exact hsettled [] record records other rfl hbatch hsentinel
          · simp only [hsentinel, Bool.false_eq_true, if_false, Buffer.pending_push, if_neg heq] at hpending
            obtain ⟨sentinel, hmem, hother, hlast⟩ := hwaits other hpending
            rcases mem_cons.mp hmem with rfl | hmem
            · rw [hsentinel] at hlast
              contradiction
            · exact ⟨sentinel, hmem, hother, hlast⟩

theorem perm_of_filters (hdirect : out.filter (·.batchId = none) = records.filter (·.batchId = none))
    (hbatch : ∀ batchId, out.filter (·.batchId = some batchId) =
      records.filter (·.batchId = some batchId)) : out.Perm records := by
  refine perm_iff_count.mpr fun record => ?_
  have hsame : out.filter (·.batchId = record.batchId) = records.filter (·.batchId = record.batchId) := by
    cases hid : record.batchId with
    | none => exact hdirect
    | some batchId => exact hbatch batchId
  have hcount : ∀ list : List EventRecord,
      (list.filter (·.batchId = record.batchId)).count record = list.count record :=
    fun list => count_filter (by simp)
  rw [← hcount out, hsame, hcount records]

theorem BatchComplete.scan (h : BatchComplete records) :
    ∃ out, iterCommittedRecordsFromLines (records.map EventRecord.dumpJson) = .ok out ∧
      out.Perm records := by
  have hempty : Sorted [] := by
    intro batchId record hmem
    exact absurd hmem not_mem_nil
  obtain ⟨out, final, hscan, hpasses, -⟩ := passes_visitAll h.known hempty
  refine ⟨out, ?_, perm_of_filters hpasses.direct fun batchId => ?_⟩
  · rw [iterCommittedRecordsFromLines, parsedRecords_dump, hscan]
    rfl
  · have hnone := pending_final h.known (fun _ hne => absurd rfl hne) h.settled hscan batchId
    have hall := hpasses.batch batchId
    rwa [hnone, append_nil] at hall

theorem BatchComplete.filter (h : BatchComplete records)
    (htogether : ∀ left right batchId, left.batchId = some batchId → right.batchId = some batchId →
      keeps left = keeps right) : BatchComplete (records.filter keeps) where
  known record hmem := h.known record (mem_of_mem_filter hmem)
  settled front record rest batchId hsplit hbatch hopen := by
    obtain ⟨before, after, rfl, -, hafter⟩ := filter_eq_append_iff.mp hsplit
    obtain ⟨skipped, last, rfl, -, hkeeps, hrest⟩ := filter_eq_cons_iff.mp hafter
    obtain ⟨sentinel, hmem, hsame, hsentinel⟩ :=
      h.settled (before ++ skipped) record last batchId (by simp) hbatch hopen
    refine ⟨sentinel, ?_, hsame, hsentinel⟩
    rw [← hrest]
    exact mem_filter.mpr ⟨hmem, (htogether record sentinel batchId hbatch hsame).symm.trans hkeeps⟩

end

theorem isPinned_together (records : List EventRecord) (reachable : List String)
    (hleft : left.batchId = some batchId) (hright : right.batchId = some batchId) :
    isPinned records reachable left = isPinned records reachable right := by
  unfold isPinned
  rw [hleft, hright]

/-- Both parts of a split are as visible as the segment was. -/
theorem split_keeps_visibility (records : List EventRecord) (reachable : List String)
    (h : BatchComplete records) :
    (splitPinnedMovable records reachable).1.Sublist records ∧
      (splitPinnedMovable records reachable).2.Sublist records ∧
      ((splitPinnedMovable records reachable).1 ++ (splitPinnedMovable records reachable).2).Perm
        records ∧
      (∀ record ∈ records, record.eventId.val ∈ reachable →
        record ∈ (splitPinnedMovable records reachable).1) ∧
      (∃ out, iterCommittedRecordsFromLines
          ((splitPinnedMovable records reachable).1.map EventRecord.dumpJson) = .ok out ∧
        out.Perm (splitPinnedMovable records reachable).1) ∧
      ∃ out, iterCommittedRecordsFromLines
          ((splitPinnedMovable records reachable).2.map EventRecord.dumpJson) = .ok out ∧
        out.Perm (splitPinnedMovable records reachable).2 := by
  unfold splitPinnedMovable
  rw [partition_eq_filter_filter]
  refine ⟨filter_sublist, filter_sublist, filter_append_perm _ _, ?_, ?_, ?_⟩
  · exact fun record hmem hreachable =>
      mem_filter.mpr ⟨hmem, isPinned_of_reachable hmem hreachable⟩
  · exact (h.filter fun _ _ _ hleft hright => isPinned_together records reachable hleft hright).scan
  · refine (h.filter fun _ _ _ hleft hright => ?_).scan
    exact congrArg not (isPinned_together records reachable hleft hright)

def batchedRecord (eventType : EventType) (eventId : EventId) (sequenceNumber : Nat) : EventRecord :=
  { sampleRecord with
    eventType, eventId, sequenceNumber
    batch := some { transactionId := "tx-1", batchId := "batch-1", batchPosition := sequenceNumber } }

def interleavedSegment : List EventRecord :=
  [batchedRecord .nodeTouched secondId 0, sampleRecord, batchedRecord .commitAccepted thirdId 2]

theorem batchComplete_interleaved : BatchComplete interleavedSegment where
  known := by decide +kernel
  settled front record rest batchId hsplit hbatch hopen := by
    unfold interleavedSegment at hsplit
    rcases front with _ | ⟨first, _ | ⟨second, _ | ⟨third, front⟩⟩⟩
    · obtain ⟨rfl, rfl⟩ := List.cons.inj hsplit
      obtain rfl : "batch-1" = batchId := Option.some.inj hbatch
      exact ⟨batchedRecord .commitAccepted thirdId 2, by simp, rfl, rfl⟩
    · obtain ⟨-, hsplit⟩ := List.cons.inj hsplit
      obtain ⟨rfl, -⟩ := List.cons.inj hsplit
      contradiction
    · obtain ⟨-, hsplit⟩ := List.cons.inj hsplit
      obtain ⟨-, hsplit⟩ := List.cons.inj hsplit
      obtain ⟨rfl, -⟩ := List.cons.inj hsplit
      contradiction
    · have hlength := congrArg List.length hsplit
      simp at hlength

/-- The reachable domain event takes its sentinel with it. -/
theorem sentinel_pinned : ∃ out, iterCommittedRecordsFromLines
    ((splitPinnedMovable interleavedSegment ["evt-2"]).1.map EventRecord.dumpJson) = .ok out ∧
      out.Perm (splitPinnedMovable interleavedSegment ["evt-2"]).1 :=
  (split_keeps_visibility interleavedSegment ["evt-2"] batchComplete_interleaved).2.2.2.2.1

end Flowness.Snapshot
