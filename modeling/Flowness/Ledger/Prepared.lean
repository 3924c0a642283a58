import Flowness.Ledger.Physical

/-!
What the writers prepare under the lock: consecutive sequence numbers above everything on the
disk, for the active segment or the one after it.
-/

namespace Flowness.Ledger

open List Library Schemas

structure Prepared (log : EventLog) (disk : Disk) (write : PendingWrite) : Prop where
  base : nextBase disk = .ok write.base
  target : writeTarget log disk write.records.length = .ok write.target
  numbered : write.records.map EventRecord.sequenceNumber =
    List.range' write.base write.records.length

section

variable (env : WriterEnv)

@[simp] theorem reseq_sequenceNumber (record : EventRecord) (newSeq : Nat) :
    (reseq env record newSeq).sequenceNumber = newSeq := by
  unfold reseq
  split
  next h =>
    exact h
  · rfl

theorem reseq_eq (record : EventRecord) (newSeq : Nat) :
    ∃ recordHash, reseq env record newSeq = { record with sequenceNumber := newSeq, recordHash } := by
  unfold reseq
  split
  next h =>
    subst h
    exact ⟨record.recordHash, rfl⟩
  · exact ⟨_, rfl⟩

theorem reseqFrom_numbered (base : Nat) (records : List EventRecord) :
    (reseqFrom env base records).map EventRecord.sequenceNumber =
      List.range' base (reseqFrom env base records).length := by
  induction records generalizing base with
  | nil => rfl
  | cons record records ih =>
    rw [reseqFrom, map_cons, reseq_sequenceNumber, ih, length_cons, List.range'_succ]

theorem length_reseqFrom (base : Nat) (records : List EventRecord) :
    (reseqFrom env base records).length = records.length := by
  induction records generalizing base with
  | nil => rfl
  | cons record records ih => rw [reseqFrom, length_cons, length_cons, ih]

theorem map_reseqFrom {α : Type} (field : EventRecord → α)
    (hfield : ∀ record newSeq, field (reseq env record newSeq) = field record) (base : Nat)
    (records : List EventRecord) : (reseqFrom env base records).map field = records.map field := by
  induction records generalizing base with
  | nil => rfl
  | cons record records ih => rw [reseqFrom, map_cons, map_cons, hfield, ih]

section

variable (record : EventRecord) (newSeq : Nat)

theorem reseq_batch : (reseq env record newSeq).batch = record.batch := by
  obtain ⟨recordHash, heq⟩ := reseq_eq env record newSeq
  rw [heq]

theorem reseq_eventType : (reseq env record newSeq).eventType = record.eventType := by
  obtain ⟨recordHash, heq⟩ := reseq_eq env record newSeq
  rw [heq]

theorem reseq_schemaVersion : (reseq env record newSeq).schemaVersion = record.schemaVersion := by
  obtain ⟨recordHash, heq⟩ := reseq_eq env record newSeq
  rw [heq]

theorem reseq_eventId : (reseq env record newSeq).eventId = record.eventId := by
  obtain ⟨recordHash, heq⟩ := reseq_eq env record newSeq
  rw [heq]

end

variable {disk : Disk} {log : EventLog} {records : List EventRecord}

theorem writeTarget_cases (h : writeTarget log disk incoming = .ok target) :
    target = disk.activeSegmentPath ∨
      (target = disk.nextSegmentPath ∧ ∃ count, activeSegmentEventCount disk = .ok (count + 1)) := by
  obtain ⟨count, hcount, h⟩ := bind_ok.mp h
  dsimp only at h
  split at h
  · exact .inl (Except.ok.inj h).symm
  next hpos =>
    split at h
    · refine .inr ⟨(Except.ok.inj h).symm, count - 1, ?_⟩
      rw [Nat.sub_add_cancel (by omega), hcount]
    · exact .inl (Except.ok.inj h).symm

section

variable (h : disk.read disk.activeSegmentPath = some (recordLines records))
include h

theorem activeSegmentEventCount_eq : activeSegmentEventCount disk = .ok records.length := by
  unfold activeSegmentEventCount
  rw [h]
  simp only [readLines_recordLines, length_map]

theorem writeTarget_rotates (hne : records ≠ [])
    (hlong : log.segmentMaxEvents < records.length + incoming) :
    writeTarget log disk incoming = .ok disk.nextSegmentPath := by
  unfold writeTarget
  rw [activeSegmentEventCount_eq h]
  have hpos : records.length ≠ 0 := fun hzero => hne (length_eq_zero_iff.mp hzero)
  simp only [bind, Except.bind, pure, Except.pure]
  rw [if_neg hpos, if_pos (.inl hlong)]

end

private theorem scanning_ok {α : Type} {x : Except ScanError α} {a : α} (h : scanning x = .ok a) :
    x = .ok a := by
  cases x with
  | error e => simp [scanning] at h
  | ok b => rw [Except.ok.inj h]

theorem prepareBatch_spec {batch : TransactionBatch} {write : PendingWrite}
    (h : prepareBatch env log disk batch = .ok write) :
    Prepared log disk write ∧ write.records = reseqFrom env write.base batch.events := by
  obtain ⟨base, hbase, h⟩ := bind_ok.mp h
  obtain ⟨_, -, h⟩ := bind_ok.mp h
  obtain ⟨target, htarget, h⟩ := bind_ok.mp h
  cases h
  exact ⟨⟨hbase, scanning_ok htarget, reseqFrom_numbered env base _⟩, rfl⟩

section

theorem prepareDirect_spec {write : PendingWrite}
    (h : prepareDirect env log disk intent eventId timestamp = .ok write) :
    Prepared log disk write ∧ write.records = [stamp env intent eventId timestamp write.base none] := by
  obtain ⟨_, -, h⟩ := bind_ok.mp h
  obtain ⟨base, hbase, h⟩ := bind_ok.mp h
  obtain ⟨_, -, h⟩ := bind_ok.mp h
  obtain ⟨_, -, h⟩ := bind_ok.mp h
  obtain ⟨target, htarget, h⟩ := bind_ok.mp h
  cases h
  exact ⟨⟨hbase, scanning_ok htarget, rfl⟩, rfl⟩

theorem writeDirect_ok
    (h : writeDirect env log disk intent eventId timestamp = .ok (log', disk', records)) :
    ∃ write, prepareDirect env log disk intent eventId timestamp = .ok write ∧
      disk' = write.commit disk ∧ records = write.records := by
  unfold writeDirect appendDirectRecord at h
  split at h
  · obtain ⟨write, hprepare, h⟩ := bind_ok.mp h
    cases h
    exact ⟨write, hprepare, rfl, rfl⟩
  · cases h

end

theorem appendTransactionBatch_ok
    (h : appendTransactionBatch env log disk batch = .ok (log', disk', records)) :
    ∃ write, prepareBatch env log disk batch = .ok write ∧
      disk' = write.commit disk ∧ records = write.records := by
  obtain ⟨write, hprepare, h⟩ := bind_ok.mp h
  cases h
  exact ⟨write, hprepare, rfl, rfl⟩

theorem mergeForeignEvents_ok {foreign : List EventRecord} {result : LedgerMergeResult}
    (h : mergeForeignEvents env log disk foreign = .ok (log', disk', result)) :
    ((selectForeign log.eventIdSet foreign).1 = [] ∧ disk' = disk ∧ log' = log) ∨
      ∃ write, Prepared log disk write ∧ disk' = write.commit disk ∧
        write.records = reseqFrom env write.base (selectForeign log.eventIdSet foreign).1 ∧
        result.baseSequence = write.base ∧
        log' = { log with
          nextSequence := write.base + write.records.length
          eventIdSet := write.records.map (·.eventId.val) ++ log.eventIdSet } := by
  obtain ⟨base, hbase, h⟩ := bind_ok.mp h
  dsimp only at h
  split at h
  next hnone =>
    cases h
    have hlength := length_reseqFrom env base (selectForeign log.eventIdSet foreign).1
    rw [hnone] at hlength
    exact .inl ⟨length_eq_zero_iff.mp hlength.symm, rfl, rfl⟩
  · obtain ⟨target, htarget, h⟩ := bind_ok.mp h
    cases h
    exact .inr ⟨{ base, target, records := reseqFrom env base _ },
      ⟨hbase, scanning_ok htarget, reseqFrom_numbered env base _⟩, rfl, rfl, rfl, rfl⟩

theorem mergeForeignEvents_eq {foreign fresh written : List EventRecord} {skipped : List String}
    (hbase : nextBase disk = .ok base)
    (hselect : selectForeign log.eventIdSet foreign = (fresh, skipped))
    (hrecords : reseqFrom env base fresh = written) (hne : written ≠ [])
    (htarget : writeTarget log disk written.length = .ok target) :
    mergeForeignEvents env log disk foreign =
      .ok ({ log with
          nextSequence := base + written.length
          eventIdSet := written.map (·.eventId.val) ++ log.eventIdSet },
        disk.append target (recordLines written),
        { mergedEventIds := written.map (·.eventId.val), skippedDuplicateEventIds := skipped,
          baseSequence := base, appendedCount := written.length }) := by
  unfold mergeForeignEvents
  simp only [hbase, hselect, hrecords, if_neg hne, htarget, scanning, bind, Except.bind, pure,
    Except.pure]
  rfl

end

section

variable {log : EventLog} {disk : Disk} {write : PendingWrite}

theorem Prepared.active_le (h : Prepared log disk write) :
    disk.activeSegmentPath.rank ≤ write.target.rank := by
  rcases writeTarget_cases h.target with htarget | ⟨htarget, -⟩
  · rw [htarget]
  · rw [htarget]
    exact le_of_lt disk.active_lt_next

private theorem rank_le_target (h : Prepared log disk write) {record : EventRecord}
    (hrecord : record ∈ disk.recordsAt path) : path.rank ≤ write.target.rank := by
  have hpath : ∃ content, disk.read path = some content ∧ path.listed = true := by
    unfold Disk.recordsAt at hrecord
    split at hrecord
    next hlisted =>
      cases hread : disk.read path with
      | none => simp [hread] at hrecord
      | some content => exact ⟨content, rfl, hlisted⟩
    · simp at hrecord
  obtain ⟨content, hread, hlisted⟩ := hpath
  exact le_trans (Disk.rank_le_active hread hlisted) h.active_le

theorem Prepared.base_le (h : Prepared log disk write) {record : EventRecord} (hrecord :
    record ∈ write.records) : write.base ≤ record.sequenceNumber := by
  have hmem := mem_map_of_mem (f := EventRecord.sequenceNumber) hrecord
  rw [h.numbered, mem_range'_1] at hmem
  exact hmem.1

section

variable (h : Physical disk) (hprepared : Prepared log disk write)
    (hlisted : write.target.listed = true) (hends : EndsLine ((disk.read write.target).getD []))
include h hprepared hlisted hends

theorem Physical.append (hpre : bytes <+: write.bytes)
    (htext : ∃ text, decodeText bytes = some text) :
    Physical (disk.append write.target bytes) ∧ segmentRecords bytes <+: write.records ∧
      (disk.append write.target bytes).recordsAt write.target =
        disk.recordsAt write.target ++ segmentRecords bytes ∧
      ∀ q, q ≠ write.target → (disk.append write.target bytes).recordsAt q = disk.recordsAt q := by
  have hframed : Framed ((disk.read write.target).getD []) := by
    cases hread : disk.read write.target with
    | none => exact framed_recordLines []
    | some content => exact h.framed _ content hread hlisted
  obtain ⟨hbytes, hlanded⟩ := framed_prefix hpre htext
  obtain ⟨hafter, hrecords⟩ := hframed.append hends hbytes
  have hold : disk.recordsAt write.target = segmentRecords ((disk.read write.target).getD []) := by
    rw [Disk.recordsAt, if_pos hlisted]
  rw [← hold] at hrecords
  have hnew : ∀ path, ∀ left ∈ disk.recordsAt path, ∀ right ∈ segmentRecords bytes,
      left.sequenceNumber < right.sequenceNumber := by
    intro path left hleft right hright
    have hlt := h.lt_nextBase hprepared.base path left hleft
    have hle := hprepared.base_le (hlanded.subset hright)
    omega
  have hincreasing : ((segmentRecords bytes).map EventRecord.sequenceNumber).Pairwise (· < ·) := by
    have hwhole : (write.records.map EventRecord.sequenceNumber).Pairwise (· < ·) := by
      rw [hprepared.numbered]
      exact pairwise_lt_range'
    exact hwhole.sublist (hlanded.sublist.map _)
  refine ⟨?_, hlanded, ?_, fun q hq => Disk.recordsAt_write_of_ne disk _ hq⟩
  · apply h.write hafter
    · rw [hrecords, map_append, pairwise_append]
      refine ⟨h.within _, hincreasing, ?_⟩
      intro a ha b hb
      obtain ⟨left, hleft, rfl⟩ := mem_map.mp ha
      obtain ⟨right, hright, rfl⟩ := mem_map.mp hb
      exact hnew _ left hleft right hright
    · intro q hq left hleft right hright
      rw [hrecords] at hright
      rcases mem_append.mp hright with hright | hright
      · exact h.across q _ hq left hleft right hright
      · exact hnew q left hleft right hright
    · intro q hq left hleft right hright
      have hle := rank_le_target hprepared hright
      omega
  · rw [Disk.append, Disk.recordsAt_write_self disk _ hlisted, hrecords]

theorem Physical.commit : Physical (write.commit disk) ∧
      (write.commit disk).recordsAt write.target = disk.recordsAt write.target ++ write.records ∧
      ∀ q, q ≠ write.target → (write.commit disk).recordsAt q = disk.recordsAt q := by
  obtain ⟨text, htext⟩ := recordLines_eq_encodeText write.records
  have hdecode : ∃ text, decodeText write.bytes = some text :=
    ⟨text, by rw [PendingWrite.bytes, htext, decodeText_encodeText]⟩
  have hrecords : segmentRecords write.bytes = write.records := segmentRecords_recordLines _
  obtain ⟨hphysical, -, hself, hothers⟩ :=
    h.append hprepared hlisted hends prefix_rfl hdecode
  rw [hrecords] at hself
  exact ⟨hphysical, hself, hothers⟩

end

end

end Flowness.Ledger
