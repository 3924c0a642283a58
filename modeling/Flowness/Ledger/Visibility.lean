import Flowness.Ledger.Prepared

/-!
What a committed scan yields: the records of a whole write, and no record more often than it
stands on the disk. `batchRuns` finds the writes in a list of records.
-/

namespace Flowness.Ledger

open List Option Library Schemas

inductive WriteUnit : List EventRecord → Prop
  | direct (record : EventRecord) : record.batch = none → WriteUnit [record]
  | batch (records : List EventRecord) (sentinel : EventRecord) (batchId : String) :
      sentinel.isSentinel = true →
      (∀ record ∈ records ++ [sentinel], record.batchId = some batchId) →
      WriteUnit (records ++ [sentinel])

variable {buffer : Buffer} {disk : Disk} {record : EventRecord} {records : List EventRecord}

theorem WriteUnit.settled (h : WriteUnit unit) :
    ∃ last, unit.getLast? = some last ∧ settles last = true := by
  cases h with
  | direct record hbatch => exact ⟨record, rfl, by simp [settles, hbatch]⟩
  | batch records sentinel _ hsentinel _ =>
    exact ⟨sentinel, List.getLast?_concat .., by simp [settles, hsentinel]⟩

section

theorem writeUnit_direct (h : prepareDirect env log disk intent eventId timestamp = .ok write) :
    WriteUnit write.records := by
  rw [(prepareDirect_spec env h).2]
  exact WriteUnit.direct _ rfl

theorem writeUnit_batch (h : prepareBatch env log disk batch = .ok write) :
    WriteUnit write.records := by
  obtain ⟨-, hrecords⟩ := prepareBatch_spec env h
  have hbatches := map_reseqFrom env EventRecord.batch (reseq_batch env) write.base batch.events
  have htypes := map_reseqFrom env EventRecord.eventType (reseq_eventType env) write.base batch.events
  rw [← hrecords] at hbatches htypes
  have hid : ∀ record ∈ write.records, record.batchId = some batch.batchId.val := by
    intro record hrecord
    have hmem := mem_map_of_mem (f := EventRecord.batch) hrecord
    rw [hbatches] at hmem
    obtain ⟨event, hevent, heq⟩ := mem_map.mp hmem
    obtain ⟨position, hslot⟩ := batch.slots event hevent
    rw [EventRecord.batchId, ← heq, hslot]
    rfl
  have hlast : write.records.getLast?.map EventRecord.eventType = some batch.status.sentinel := by
    rw [← List.getLast?_map, htypes, List.getLast?_map]
    exact batch.sentinelLast
  rcases eq_nil_or_concat write.records with hnil | ⟨front, sentinel, hconcat⟩
  · rw [hnil] at hlast
    simp at hlast
  · rw [concat_eq_append] at hconcat
    rw [hconcat] at hlast hid ⊢
    rw [List.getLast?_concat, map_some, some.injEq] at hlast
    apply WriteUnit.batch front sentinel batch.batchId.val
    · unfold EventRecord.isSentinel EventRecord.isSentinelType
      rw [hlast]
      cases batch.status with
      | committed => rfl
      | rejected => rfl
    · exact hid

end

theorem visitAll_ok (buffer : Buffer) (h : ∀ record ∈ records, record.failsReplay = false) :
    ∃ out final, visitAll buffer records = .ok (out, final) := by
  induction records generalizing buffer with
  | nil => exact ⟨[], buffer, rfl⟩
  | cons record records ih =>
    have hvisit : ∃ out next, visit buffer record = .ok (out, next) := by
      unfold visit
      rw [if_neg (by simp [h record mem_cons_self])]
      split
      · exact ⟨_, _, rfl⟩
      · split
        · exact ⟨_, _, rfl⟩
        · split
          · exact ⟨_, _, rfl⟩
          · exact ⟨_, _, rfl⟩
    obtain ⟨out, next, hvisit⟩ := hvisit
    obtain ⟨rest, final, hrest⟩ := ih next (fun r hr => h r (mem_cons_of_mem _ hr))
    refine ⟨out ++ rest, final, ?_⟩
    simp [visitAll, hvisit, hrest, bind, Except.bind, pure, Except.pure]

theorem failsReplay_of_isKnown (h : record.isKnown = true) : record.failsReplay = false := by
  unfold EventRecord.failsReplay
  unfold EventRecord.isKnown at h
  rw [h]
  rfl

theorem visit_known (h : record.isKnown = true) (buffer : Buffer) :
    visit buffer record = .ok (match record.batchId with
      | none => ([record], buffer)
      | some batchId =>
        if record.isSentinel then (buffer.pending batchId ++ [record], Dict.erase buffer batchId)
        else ([], buffer.push batchId record)) := by
  unfold visit
  rw [if_neg (by simp [failsReplay_of_isKnown h]), if_neg (by simp [h])]
  cases record.batchId with
  | none => rfl
  | some batchId =>
    by_cases hsentinel : record.isSentinel = true
    · simp only [hsentinel, if_true]
    · simp [hsentinel]

private theorem visit_batch (hbatch : record.batchId = some batchId)
    (hknown : record.isKnown = true) : visit buffer record = .ok (if record.isSentinel then
      (buffer.pending batchId ++ [record], Dict.erase buffer batchId)
      else ([], buffer.push batchId record)) := by
  unfold visit
  rw [if_neg (by simp [failsReplay_of_isKnown hknown]), if_neg (by simp [hknown])]
  simp only [hbatch]
  split
  · rfl
  · rfl

private theorem visitAll_batch
    (hbatch : ∀ record ∈ records, record.batchId = some batchId ∧ record.isKnown = true)
    (h : visitAll buffer records = .ok (out, final)) :
    ∀ record ∈ buffer.pending batchId ++ records, record ∈ out ∨ record ∈ final.pending batchId := by
  induction records generalizing buffer out with
  | nil =>
    cases h
    intro record hrecord
    rw [append_nil] at hrecord
    exact .inr hrecord
  | cons first records ih =>
    obtain ⟨hid, hknown⟩ := hbatch first mem_cons_self
    simp only [visitAll, visit_batch hid hknown, bind, Except.bind, pure] at h
    cases hrest : visitAll (if first.isSentinel then
        (buffer.pending batchId ++ [first], Dict.erase buffer batchId)
        else ([], buffer.push batchId first)).2 records with
    | error e => simp [hrest] at h
    | ok pair =>
      rw [hrest] at h
      cases h
      have hlater := ih (fun r hr => hbatch r (mem_cons_of_mem _ hr)) hrest
      intro record hrecord
      split at hlater
      next hsentinel =>
        rw [if_pos hsentinel]
        rw [append_cons, mem_append] at hrecord
        rcases hrecord with hrecord | hrecord
        · exact .inl (mem_append_left _ hrecord)
        · rcases hlater record (mem_append_right _ hrecord) with hout | hpending
          · exact .inl (mem_append_right _ hout)
          · exact .inr hpending
      next hsentinel =>
        rw [if_neg hsentinel]
        have hpush : (buffer.push batchId first).pending batchId =
            buffer.pending batchId ++ [first] := by
          unfold Buffer.push
          rw [Buffer.pending, Dict.get_set_self]
          rfl
        rw [hpush, append_assoc] at hlater
        exact hlater record hrecord

theorem WriteUnit.yielded (hunit : WriteUnit unit) (hknown : ∀ record ∈ unit, record.isKnown = true)
    (hwithin : unit <:+: records) (h : visitAll buffer records = .ok (out, final)) :
    ∀ record ∈ unit, record ∈ out := by
  obtain ⟨front, back, rfl⟩ := hwithin
  obtain ⟨first, middle, rest, hfirst, -, rfl⟩ := visitAll_ok_append h
  obtain ⟨_, before, out, -, hout, rfl⟩ := visitAll_ok_append hfirst
  have hyield : ∀ record ∈ unit, record ∈ out := by
    cases hunit with
    | direct record hbatch =>
      have hrecord := hknown record (mem_singleton_self record)
      have hvisit : visit before record = .ok ([record], before) := by
        unfold visit
        rw [if_neg (by simp [failsReplay_of_isKnown hrecord]), if_neg (by simp [hrecord])]
        simp [EventRecord.batchId, hbatch]
      simp only [visitAll, hvisit, bind, Except.bind, pure, Except.pure, Except.ok.injEq,
        Prod.mk.injEq, append_nil] at hout
      rw [← hout.1]
      exact fun r hr => hr
    | batch records sentinel batchId hsentinel hbatch =>
      obtain ⟨early, waiting, late, hearly, hlate, rfl⟩ := visitAll_ok_append hout
      have hid := hbatch sentinel (by simp)
      have hlast := hknown sentinel (by simp)
      have hwait := visitAll_batch (fun r hr => ⟨hbatch r (mem_append_left _ hr),
        hknown r (mem_append_left _ hr)⟩) hearly
      simp only [visitAll, visit_batch hid hlast, hsentinel, if_true, bind, Except.bind, pure,
        Except.pure, Except.ok.injEq, Prod.mk.injEq, append_nil] at hlate
      intro record hrecord
      rw [← hlate.1]
      rcases mem_append.mp hrecord with hrecord | hrecord
      · rcases hwait record (mem_append_right _ hrecord) with hmem | hmem
        · exact mem_append_left _ hmem
        · exact mem_append_right _ (mem_append_left _ hmem)
      · exact mem_append_right _ (mem_append_right _ hrecord)
  intro record hrecord
  exact mem_append_left _ (mem_append_right _ (hyield record hrecord))

def Buffer.waiting (buffer : Buffer) : List EventRecord := buffer.flatMap Prod.snd

private theorem waiting_cons (key : String) (records : List EventRecord) (rest : Buffer) :
    Buffer.waiting ((key, records) :: rest) = records ++ rest.waiting := rfl

private theorem pending_cons (key batchId : String) (records : List EventRecord) (rest : Buffer) :
    Buffer.pending ((key, records) :: rest) batchId =
      if key = batchId then records else rest.pending batchId := by
  unfold Buffer.pending
  rw [Dict.get_cons]
  split
  · rfl
  · rfl

private theorem count_waiting_erase (buffer : Buffer) (batchId : String) (record : EventRecord) :
    (buffer.pending batchId).count record + (Buffer.waiting (Dict.erase buffer batchId)).count record
      ≤ buffer.waiting.count record := by
  induction buffer with
  | nil => simp [Buffer.pending, Buffer.waiting, Dict.erase]
  | cons entry rest ih =>
    obtain ⟨key, records⟩ := entry
    unfold Dict.erase at ih ⊢
    rw [pending_cons, waiting_cons, count_append]
    by_cases hkey : key = batchId
    · rw [if_pos hkey, filter_cons_of_neg (by simpa using hkey)]
      omega
    · rw [if_neg hkey, filter_cons_of_pos (by simpa using hkey), waiting_cons,
        count_append]
      omega

private theorem count_waiting_set (buffer : Buffer) (batchId : String) (new : List EventRecord)
    (record : EventRecord) :
    (Buffer.waiting (Dict.set buffer batchId new)).count record + (buffer.pending batchId).count record
      = buffer.waiting.count record + new.count record := by
  induction buffer with
  | nil => simp [Buffer.pending, Buffer.waiting, Dict.set]
  | cons entry rest ih =>
    obtain ⟨key, records⟩ := entry
    rw [pending_cons, waiting_cons, count_append, Dict.set]
    by_cases hkey : key = batchId
    · rw [if_pos hkey, if_pos hkey, waiting_cons, count_append]
      omega
    · rw [if_neg hkey, if_neg hkey, waiting_cons, count_append]
      omega

theorem count_visit_le {next : Buffer} (h : visit buffer record = .ok (out, next)) (r : EventRecord) :
    out.count r + next.waiting.count r ≤ buffer.waiting.count r + [record].count r := by
  unfold visit at h
  split at h
  · simp at h
  · split at h
    · cases h
      simp
    · split at h
      · cases h
        omega
      · split at h
        · cases h
          rename_i batchId _ _
          have hle := count_waiting_erase buffer batchId r
          rw [count_append]
          omega
        · cases h
          rename_i batchId _ _
          have heq := count_waiting_set buffer batchId (buffer.pending batchId ++ [record]) r
          rw [count_append] at heq
          unfold Buffer.push
          rw [count_nil]
          omega

theorem count_visitAll_le (h : visitAll buffer records = .ok (out, final)) (record : EventRecord) :
    out.count record + final.waiting.count record ≤
      buffer.waiting.count record + records.count record := by
  induction records generalizing buffer out with
  | nil =>
    cases h
    simp
  | cons first records ih =>
    obtain ⟨early, next, late, hvisit, hrest, rfl⟩ := visitAll_cons_ok h
    have hfirst := count_visit_le hvisit record
    have hlater := ih hrest
    rw [count_append, ← singleton_append, count_append]
    omega

def Disk.AllFramed (disk : Disk) : Prop :=
  ∀ path content, disk.read path = some content → path.listed = true → Framed content

theorem Disk.AllFramed.iterCommittedRecords_eq (h : disk.AllFramed) :
    iterCommittedRecords disk = (visitAll [] disk.physicalRecords).map Prod.fst := by
  have hread : ∀ segments : List (SegmentPath × Bytes),
      (∀ segment ∈ segments, Framed segment.2) →
      ∃ lines, readSegments (segments.map Prod.snd) = .ok lines ∧
        parsedRecords lines = segments.flatMap fun segment => segmentRecords segment.2 := by
    intro segments hframed
    induction segments with
    | nil => exact ⟨[], rfl, rfl⟩
    | cons segment segments ih =>
      obtain ⟨lines, rest, hlegible⟩ := (hframed segment mem_cons_self).legible
      obtain ⟨more, hmore, hparsed⟩ := ih (fun s hs => hframed s (mem_cons_of_mem _ hs))
      refine ⟨lines ++ more, ?_, ?_⟩
      · rw [map_cons, readSegments, hlegible.read, hmore]
        rfl
      · rw [parsedRecords_append, hlegible.parsed, hparsed, flatMap_cons]
  obtain ⟨lines, hlines, hparsed⟩ := hread disk.orderedSegments (fun segment hsegment => by
    obtain ⟨hread, hlisted⟩ := Disk.mem_orderedSegments.mp hsegment
    exact h segment.1 segment.2 hread hlisted)
  unfold iterCommittedRecords iterRawEventLines
  rw [hlines]
  have hrecords : parsedRecords lines = disk.physicalRecords := hparsed
  show iterCommittedRecordsFromLines lines = _
  rw [iterCommittedRecordsFromLines, hrecords]

theorem Physical.iterCommittedRecords_eq (h : Physical disk) :
    iterCommittedRecords disk = (visitAll [] disk.physicalRecords).map Prod.fst :=
  Disk.AllFramed.iterCommittedRecords_eq h.framed

theorem Physical.scan (h : Physical disk)
    (hreplays : ∀ record ∈ disk.physicalRecords, record.failsReplay = false) :
    ∃ out final, iterCommittedRecords disk = .ok out ∧
      visitAll [] disk.physicalRecords = .ok (out, final) := by
  obtain ⟨out, final, hvisit⟩ := visitAll_ok [] hreplays
  refine ⟨out, final, ?_, hvisit⟩
  rw [h.iterCommittedRecords_eq, hvisit]
  rfl

theorem Disk.AllFramed.yields_physical (h : disk.AllFramed)
    (hscan : iterCommittedRecords disk = .ok records) :
    ∀ record ∈ records, record ∈ disk.physicalRecords := by
  intro record hrecord
  rw [h.iterCommittedRecords_eq] at hscan
  obtain ⟨⟨out, final⟩, hvisit, rfl⟩ := map_ok.mp hscan
  have hle := count_visitAll_le hvisit record
  have hpos : 0 < out.count record := count_pos_iff.mpr hrecord
  have hempty : Buffer.waiting ([] : Buffer) = [] := rfl
  rw [hempty, count_nil] at hle
  exact count_pos_iff.mp (by omega)

theorem Physical.yields_physical (h : Physical disk)
    (hscan : iterCommittedRecords disk = .ok records) :
    ∀ record ∈ records, record ∈ disk.physicalRecords :=
  Disk.AllFramed.yields_physical h.framed hscan

theorem Physical.nodup (h : Physical disk) : disk.physicalRecords.Nodup := by
  have hincreasing := h.increasing
  rw [pairwise_map] at hincreasing
  apply hincreasing.imp
  rintro left right hlt rfl
  exact lt_irrefl _ hlt

theorem Disk.recordsAt_infix (disk : Disk) (path : SegmentPath) :
    disk.recordsAt path <:+: disk.physicalRecords := by
  unfold Disk.recordsAt
  split
  next hlisted =>
    cases hread : disk.read path with
    | none =>
      rw [getD_none, segmentRecords_nil]
      exact nil_infix
    | some content =>
      rw [getD_some]
      obtain ⟨front, back, hsplit⟩ :=
        append_of_mem (Disk.mem_orderedSegments.mpr ⟨hread, hlisted⟩)
      refine ⟨front.flatMap fun s => segmentRecords s.2, back.flatMap fun s => segmentRecords s.2, ?_⟩
      unfold Disk.physicalRecords
      rw [hsplit, flatMap_append, flatMap_cons, append_assoc]
  · exact nil_infix

theorem Physical.yields_once (h : Physical disk)
    (hreplays : ∀ record ∈ disk.physicalRecords, record.failsReplay = false)
    (hunit : WriteUnit unit) (hknown : ∀ record ∈ unit, record.isKnown = true)
    (hwithin : unit <:+: disk.recordsAt path) :
    ∀ record ∈ unit, ∃ records, iterCommittedRecords disk = .ok records ∧
      records.count record = 1 := by
  obtain ⟨out, final, hscan, hvisit⟩ := h.scan hreplays
  intro record hrecord
  refine ⟨out, hscan, ?_⟩
  have hmem := hunit.yielded hknown (hwithin.trans (disk.recordsAt_infix path)) hvisit record hrecord
  have hpos : 0 < out.count record := count_pos_iff.mpr hmem
  have hle := count_visitAll_le hvisit record
  have hone : disk.physicalRecords.count record ≤ 1 := nodup_iff_count_le_one.mp h.nodup record
  have hempty : Buffer.waiting ([] : Buffer) = [] := rfl
  rw [hempty, count_nil] at hle
  omega

def batchIdOf (unit : List EventRecord) : Option String := unit.head?.bind EventRecord.batchId

def batchRuns : List EventRecord → List (List EventRecord)
  | [] => []
  | record :: records =>
    match batchRuns records with
    | [] => [[record]]
    | unit :: units =>
      if record.batchId.isSome ∧ batchIdOf unit = record.batchId then (record :: unit) :: units
      else [record] :: unit :: units

def DistinctBatches (units : List (List EventRecord)) : Prop :=
  units.Pairwise (fun left right => ∀ batchId, batchIdOf left = some batchId →
    batchIdOf right ≠ some batchId)

@[simp] theorem flatten_batchRuns (records : List EventRecord) :
    (batchRuns records).flatten = records := by
  induction records with
  | nil => rfl
  | cons record records ih =>
    unfold batchRuns
    split
    next hnil =>
      rw [hnil] at ih
      rw [← ih]
      rfl
    next unit units hruns =>
      rw [hruns] at ih
      split
      · rw [← ih]
        rfl
      · rw [← ih]
        rfl

theorem WriteUnit.ne_nil (h : WriteUnit unit) : unit ≠ [] := by
  cases h with
  | direct record _ => simp
  | batch records sentinel _ _ _ => simp

theorem WriteUnit.batchId (h : WriteUnit unit) (hrecord : record ∈ unit) :
    record.batchId = batchIdOf unit := by
  cases h with
  | direct first hbatch =>
    rw [mem_singleton.mp hrecord]
    rfl
  | batch records sentinel batchId _ hid =>
    have hhead : batchIdOf (records ++ [sentinel]) = some batchId := by
      cases records with
      | nil => exact hid sentinel (by simp)
      | cons first rest => exact hid first (by simp)
    rw [hhead]
    exact hid record hrecord

def shape (record : EventRecord) : Option BatchSlot × EventType := (record.batch, record.eventType)

private theorem batchId_of_shape {left right : EventRecord} (h : shape left = shape right) :
    left.batchId = right.batchId := by
  unfold EventRecord.batchId
  rw [(Prod.mk.inj h).1]

private theorem isSentinel_of_shape {left right : EventRecord} (h : shape left = shape right) :
    left.isSentinel = right.isSentinel := by
  unfold EventRecord.isSentinel
  rw [(Prod.mk.inj h).2]

section

variable {left right : List EventRecord} (h : left.map shape = right.map shape)
include h

theorem batchIdOf_of_shape : batchIdOf left = batchIdOf right := by
  cases left with
  | nil => rw [map_eq_nil_iff.mp h.symm]
  | cons first rest =>
    cases right with
    | nil => simp at h
    | cons other more =>
      simp only [map_cons, List.cons.injEq] at h
      exact batchId_of_shape h.1

theorem writeUnit_of_shape (hunit : WriteUnit left) : WriteUnit right := by
  cases hunit with
  | direct record hbatch =>
    cases right with
    | nil => simp at h
    | cons other more =>
      simp only [map_cons, map_nil, List.cons.injEq] at h
      obtain rfl : more = [] := map_eq_nil_iff.mp h.2.symm
      apply WriteUnit.direct
      rw [← (Prod.mk.inj h.1).1]
      exact hbatch
  | batch records sentinel batchId hsentinel hid =>
    rw [map_append] at h
    obtain ⟨front, back, rfl, hfront, hback⟩ := append_eq_map_iff.mp h
    cases back with
    | nil => simp at hback
    | cons last more =>
      simp only [map_cons, map_nil, List.cons.injEq] at hback
      obtain rfl : more = [] := map_eq_nil_iff.mp hback.2
      apply WriteUnit.batch front last batchId
      · rw [isSentinel_of_shape hback.1]
        exact hsentinel
      · intro record hrecord
        rcases mem_append.mp hrecord with hmem | hmem
        · have hshape := mem_map_of_mem (f := shape) hmem
          rw [hfront] at hshape
          obtain ⟨other, hother, heq⟩ := mem_map.mp hshape
          rw [← batchId_of_shape heq]
          exact hid other (mem_append_left _ hother)
        · rw [mem_singleton.mp hmem, batchId_of_shape hback.1]
          exact hid sentinel (by simp)

theorem batchRuns_of_shape :
    (batchRuns left).map (List.map shape) = (batchRuns right).map (List.map shape) := by
  induction left generalizing right with
  | nil => rw [map_eq_nil_iff.mp h.symm]
  | cons record records ih =>
    cases right with
    | nil => simp at h
    | cons other others =>
      simp only [map_cons, List.cons.injEq] at h
      have hrest := ih h.2
      have hid := batchId_of_shape h.1
      unfold batchRuns
      cases hleft : batchRuns records with
      | nil =>
        rw [hleft] at hrest
        rw [map_eq_nil_iff.mp hrest.symm]
        simp [h.1]
      | cons unit units =>
        cases hright : batchRuns others with
        | nil => simp [hleft, hright] at hrest
        | cons unit' units' =>
          rw [hleft, hright] at hrest
          simp only [map_cons, List.cons.injEq] at hrest
          dsimp only
          rw [hid, batchIdOf_of_shape hrest.1]
          split
          · simp [h.1, hrest]
          · simp [h.1, hrest]

end

theorem shape_reseqFrom (env : WriterEnv) (base : Nat) (records : List EventRecord) :
    (reseqFrom env base records).map shape = records.map shape := by
  apply map_reseqFrom
  intro record newSeq
  unfold shape
  rw [reseq_batch, reseq_eventType]

end Flowness.Ledger
