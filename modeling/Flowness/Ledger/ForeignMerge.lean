import Flowness.Ledger.BatchAtomicity
import Flowness.Ledger.Visibility
import Flowness.Ledger.EventIndex
import Flowness.Library.Transition

/-!
Merges of foreign logs. Every instance drops the foreign events whose ids it knows and appends the
others renumbered; what it knows is what the log had when it was opened and what it wrote since.
-/

namespace Flowness.Ledger

open List Option Library Schemas Dict
open Ledger.EventIndex (idsOf)

def scanLog (disk : Disk) : Except ScanError (List EventRecord × Buffer) := do
  let lines ← iterRawEventLines disk
  visitAll [] (parsedRecords lines)

theorem iterCommittedRecords_of_scanLog {disk : Disk} {hot : List EventRecord} {buffer : Buffer}
    (h : scanLog disk = .ok (hot, buffer)) : iterCommittedRecords disk = .ok hot := by
  obtain ⟨lines, hlines, hvisit⟩ := bind_ok.mp h
  exact iterCommittedRecords_ok.mpr ⟨lines, buffer, hlines, hvisit⟩

theorem scanLog_of_iterCommittedRecords {disk : Disk} {hot : List EventRecord}
    (h : iterCommittedRecords disk = .ok hot) : ∃ buffer, scanLog disk = .ok (hot, buffer) := by
  obtain ⟨lines, buffer, hlines, hvisit⟩ := iterCommittedRecords_ok.mp h
  exact ⟨buffer, bind_ok.mpr ⟨lines, hlines, hvisit⟩⟩

private theorem nonBlankLines_openLine {text : Text} (h : isBlank text = true) :
    nonBlankLines (openLine text) = [] := by
  have hstrip : strip (openLine text) = [] := by
    have hdrop : (openLine text).dropWhile isSpace = [] :=
      List.dropWhile_eq_nil_iff.mpr (List.all_eq_true.mp h)
    rw [strip, hdrop]
    rfl
  have hunbroken : ∀ c ∈ openLine text, isLineBreak c = false := by
    intro c hc
    have hkept := mem_rtakeWhile_imp hc
    simpa using hkept
  rw [nonBlankLines_unbroken hunbroken, hstrip]
  rfl

/-- A file that a record can be appended to without sharing a line. -/
def BlankEnd (disk : Disk) (target : SegmentPath) : Prop :=
  ∃ text, decodeText ((disk.read target).getD []) = some text ∧ isBlank text = true

theorem Prepared.scanLog_commit {log : EventLog} {disk : Disk} {write : PendingWrite}
    (h : Prepared log disk write) (hlisted : write.target.listed = true)
    (hblank : BlankEnd disk write.target) (hne : write.records ≠ []) {hot more : List EventRecord}
    {buffer final : Buffer} (hscan : scanLog disk = .ok (hot, buffer))
    (hvisit : visitAll buffer write.records = .ok (more, final)) :
    scanLog (write.commit disk) = .ok (hot ++ more, final) := by
  obtain ⟨segments, hdisk, hwrite⟩ := h.orderedSegments_write hlisted
  obtain ⟨text, htext, hblank⟩ := hblank
  obtain ⟨lines, hread, hparsed⟩ := readLines_append_write htext hne
  have hfront : ∃ front, readSegments (segments.map Prod.snd) = .ok front ∧
      visitAll [] (parsedRecords (front ++ nonBlankLines (closedLines text))) = .ok (hot, buffer) := by
    unfold scanLog iterRawEventLines at hscan
    rw [hdisk] at hscan
    have hlines : nonBlankLines text = nonBlankLines (closedLines text) := by
      have hsplit := nonBlankLines_closedLines_append text (openLine text)
      rwa [closedLines_append_openLine, nonBlankLines_openLine hblank, append_nil] at hsplit
    cases hcontent : disk.read write.target with
    | none =>
      rw [hcontent] at hscan htext
      obtain rfl : [] = text := some.inj htext
      have hnil : nonBlankLines (closedLines []) = [] := by decide
      rw [toList_none, map_nil, append_nil] at hscan
      obtain ⟨front, hfront, hscan⟩ := bind_ok.mp hscan
      refine ⟨front, hfront, ?_⟩
      rw [hnil, append_nil]
      exact hscan
    | some content =>
      rw [hcontent] at hscan htext
      have hreadOld : readLines content = some (nonBlankLines (closedLines text)) := by
        rw [getD_some] at htext
        rw [readLines, htext, map_some, hlines]
      rw [toList_some, map_singleton, readSegments_snoc _ _ _ hreadOld] at hscan
      obtain ⟨_, hlines, hscan⟩ := bind_ok.mp hscan
      obtain ⟨front, hfront, rfl⟩ := map_ok.mp hlines
      exact ⟨front, hfront, hscan⟩
  obtain ⟨front, hsegments, hold⟩ := hfront
  have hlanded : landed text write.records = write.records := if_pos hblank
  have hsnoc : readSegments ((segments ++ [(write.target,
      (disk.read write.target).getD [] ++ recordLines write.records)]).map Prod.snd) =
        .ok (front ++ lines) := by
    rw [readSegments_snoc _ _ _ hread, hsegments]
    rfl
  unfold scanLog iterRawEventLines PendingWrite.commit PendingWrite.bytes Disk.append
  rw [hwrite, hsnoc]
  show visitAll [] (parsedRecords (front ++ lines)) = _
  rw [parsedRecords_append, hparsed, hlanded, ← append_assoc, ← parsedRecords_append]
  exact visitAll_append_ok hold hvisit

private theorem visitAll_of_batch {buffer : Buffer} {records : List EventRecord} {batchId : String}
    (hbatch : ∀ record ∈ records, record.batchId = some batchId)
    (hknown : ∀ record ∈ records, record.isKnown = true) :
    ∃ out final, visitAll buffer records = .ok (out, final) ∧
      out ++ final.pending batchId = buffer.pending batchId ++ records ∧
      ∀ other, other ≠ batchId → final.pending other = buffer.pending other := by
  obtain ⟨out, final, hvisit⟩ := visitAll_ok buffer fun record hrecord =>
    failsReplay_of_isKnown (hknown record hrecord)
  refine ⟨out, final, hvisit, ?_⟩
  induction records generalizing buffer out with
  | nil =>
    cases hvisit
    exact ⟨by simp, fun _ _ => rfl⟩
  | cons first records ih =>
    obtain ⟨early, next, late, hfirst, hrest, rfl⟩ := visitAll_cons_ok hvisit
    obtain ⟨hlate, hothers⟩ := ih (fun r hr => hbatch r (mem_cons_of_mem _ hr))
      (fun r hr => hknown r (mem_cons_of_mem _ hr)) late hrest
    have hid := hbatch first mem_cons_self
    rcases (visit_cases hfirst).2 with ⟨hunknown, -⟩ | ⟨-, ⟨hnone, -⟩ | ⟨other, hother, hcases⟩⟩
    · rw [hknown first mem_cons_self] at hunknown
      cases hunknown
    · rw [hid] at hnone
      cases hnone
    · obtain rfl : batchId = other := some.inj (hid.symm.trans hother)
      rcases hcases with ⟨-, rfl, rfl⟩ | ⟨-, rfl, rfl⟩
      · have herased : Buffer.pending (Dict.erase buffer batchId) batchId = [] := by
          rw [Buffer.pending, get_erase_self]
          rfl
        refine ⟨?_, fun other hne => ?_⟩
        · rw [append_assoc, hlate, herased, nil_append, append_assoc]
          rfl
        · rw [hothers other hne, Buffer.pending, get_erase_of_ne _ hne]
          rfl
      · have hpushed : (buffer.push batchId first).pending batchId =
            buffer.pending batchId ++ [first] := by
          rw [Buffer.push, Buffer.pending, get_set_self]
          rfl
        refine ⟨?_, fun other hne => ?_⟩
        · rw [nil_append, hlate, hpushed, append_assoc]
          rfl
        · rw [hothers other hne, Buffer.push, Buffer.pending, get_set_of_ne _ _ hne]
          rfl

theorem visitAll_direct {records : List EventRecord} (hbatch : ∀ record ∈ records, record.batch = none)
    (hknown : ∀ record ∈ records, record.isKnown = true) (buffer : Buffer) :
    visitAll buffer records = .ok (records, buffer) := by
  induction records with
  | nil => rfl
  | cons first records ih =>
    have hfirst := hknown first mem_cons_self
    have hvisit : visit buffer first = .ok ([first], buffer) := by
      unfold visit
      rw [if_neg (by simp [failsReplay_of_isKnown hfirst]), if_neg (by simp [hfirst])]
      simp [EventRecord.batchId, hbatch first mem_cons_self]
    have hrest := ih (fun r hr => hbatch r (mem_cons_of_mem _ hr))
      (fun r hr => hknown r (mem_cons_of_mem _ hr))
    simp [visitAll, hvisit, hrest, bind, Except.bind, pure, Except.pure]

section

variable {unit : List EventRecord} (hunit : WriteUnit unit)
    (hknown : ∀ record ∈ unit, record.isKnown = true)
include hunit hknown

theorem WriteUnit.visitAll_pending (buffer : Buffer) :
    ∃ final, Ledger.visitAll buffer unit = .ok ((batchIdOf unit).elim [] buffer.pending ++ unit, final) ∧
      ∀ batchId, final.pending batchId = [] ∨ final.pending batchId = buffer.pending batchId := by
  cases hunit with
  | direct record hbatch =>
    have hnone : batchIdOf [record] = none := by simp [batchIdOf, EventRecord.batchId, hbatch]
    rw [hnone]
    refine ⟨buffer, visitAll_direct (fun r hr => ?_) hknown buffer, fun _ => .inr rfl⟩
    rw [List.mem_singleton.mp hr]
    exact hbatch
  | batch records sentinel batchId hsentinel hbatch =>
    have hhead : batchIdOf (records ++ [sentinel]) = some batchId := by
      cases records with
      | nil => exact hbatch sentinel (by simp)
      | cons first rest => exact hbatch first (by simp)
    rw [hhead]
    obtain ⟨out, final, hvisit, hout, hothers⟩ := @visitAll_of_batch buffer _ _ hbatch hknown
    obtain ⟨early, next, late, hearly, hlast, rfl⟩ := visitAll_ok_append hvisit
    -- the sentinel leaves nothing waiting
    have hempty : final.pending batchId = [] := by
      obtain ⟨_, after, _, hfirst, hrest, -⟩ := visitAll_cons_ok hlast
      cases hrest
      have hid := hbatch sentinel (by simp)
      rcases (visit_cases hfirst).2 with ⟨hunknown, -⟩ | ⟨-, ⟨hnone, -⟩ | ⟨other, hother, hcases⟩⟩
      · rw [hknown sentinel (by simp)] at hunknown
        cases hunknown
      · rw [hid] at hnone
        cases hnone
      · obtain rfl : batchId = other := some.inj (hid.symm.trans hother)
        rcases hcases with ⟨-, -, rfl⟩ | ⟨hopen, -⟩
        · rw [Buffer.pending, get_erase_self]
          rfl
        · rw [hsentinel] at hopen
          cases hopen
    rw [hempty, append_nil] at hout
    refine ⟨final, by rw [hvisit, hout]; rfl, fun other => ?_⟩
    by_cases heq : other = batchId
    · exact .inl (heq ▸ hempty)
    · exact .inr (hothers other heq)

theorem WriteUnit.visitAll {buffer : Buffer}
    (hclosed : ∀ batchId, batchIdOf unit = some batchId → buffer.pending batchId = []) :
    ∃ final, Ledger.visitAll buffer unit = .ok (unit, final) ∧
      ∀ batchId, buffer.pending batchId = [] → final.pending batchId = [] := by
  obtain ⟨final, hvisit, hothers⟩ := hunit.visitAll_pending hknown buffer
  have hnothing : (batchIdOf unit).elim [] buffer.pending = [] := by
    cases hid : batchIdOf unit with
    | none => rfl
    | some batchId => exact hclosed batchId hid
  rw [hnothing] at hvisit
  refine ⟨final, hvisit, fun batchId hempty => ?_⟩
  rcases hothers batchId with h | h
  · exact h
  · rw [h, hempty]

end

theorem visitAll_units {units : List (List EventRecord)} (hunits : ∀ unit ∈ units, WriteUnit unit)
    (hknown : ∀ record ∈ units.flatten, record.isKnown = true) {buffer : Buffer}
    (hclosed : ∀ record ∈ units.flatten, ∀ batchId, record.batchId = some batchId →
      buffer.pending batchId = []) :
    ∃ final, visitAll buffer units.flatten = .ok (units.flatten, final) := by
  induction units generalizing buffer with
  | nil => exact ⟨buffer, rfl⟩
  | cons unit units ih =>
    rw [flatten_cons] at hknown hclosed ⊢
    have hfirst := hunits unit mem_cons_self
    have hhead : ∀ batchId, batchIdOf unit = some batchId → buffer.pending batchId = [] := by
      intro batchId hid
      obtain ⟨record, rest, rfl⟩ := exists_cons_of_ne_nil hfirst.ne_nil
      exact hclosed record (by simp) batchId hid
    obtain ⟨next, hvisit, hkept⟩ :=
      hfirst.visitAll (fun r hr => hknown r (mem_append_left _ hr)) hhead
    obtain ⟨final, hrest⟩ := @ih (fun u hu => hunits u (mem_cons_of_mem _ hu))
      (fun r hr => hknown r (mem_append_right _ hr)) next
      (fun r hr batchId hid => hkept batchId (hclosed r (mem_append_right _ hr) batchId hid))
    exact ⟨final, visitAll_append_ok hvisit hrest⟩

theorem selectForeign_spec (known : List String) (foreign : List EventRecord) :
    (selectForeign known foreign).1.Sublist foreign ∧
      (idsOf (selectForeign known foreign).1).Nodup ∧
      (∀ record ∈ (selectForeign known foreign).1, record.eventId.val ∉ known) ∧
      ∀ record ∈ foreign, record.eventId.val ∈ known ∨
        record.eventId.val ∈ idsOf (selectForeign known foreign).1 := by
  induction foreign generalizing known with
  | nil => simp [selectForeign, EventIndex.idsOf]
  | cons first foreign ih =>
    unfold selectForeign
    split
    next hfirst =>
      obtain ⟨hsub, hnodup, hnew, hcover⟩ := ih known
      refine ⟨hsub.cons first, hnodup, hnew, fun record hrecord => ?_⟩
      rcases List.mem_cons.mp hrecord with rfl | hmem
      · exact .inl hfirst
      · exact hcover record hmem
    next hfirst =>
      obtain ⟨hsub, hnodup, hnew, hcover⟩ := ih (first.eventId.val :: known)
      have hout : ∀ record ∈ (selectForeign (first.eventId.val :: known) foreign).1,
          record.eventId.val ≠ first.eventId.val ∧ record.eventId.val ∉ known := by
        intro record hrecord
        have hmem := hnew record hrecord
        rw [mem_cons, not_or] at hmem
        exact hmem
      refine ⟨hsub.cons_cons first, ?_, ?_, ?_⟩
      · rw [EventIndex.idsOf, map_cons, nodup_cons]
        refine ⟨fun hmem => ?_, hnodup⟩
        obtain ⟨record, hrecord, heq⟩ := List.mem_map.mp hmem
        exact (hout record hrecord).1 heq
      · intro record hrecord
        rcases List.mem_cons.mp hrecord with rfl | hmem
        · exact hfirst
        · exact (hout record hmem).2
      · intro record hrecord
        rcases List.mem_cons.mp hrecord with rfl | hmem
        · exact .inr mem_cons_self
        · rcases hcover record hmem with hknown | hids
          · rcases List.mem_cons.mp hknown with heq | hknown
            · rw [heq]
              exact .inr mem_cons_self
            · exact .inl hknown
          · exact .inr (mem_cons_of_mem _ hids)

def Renumbered (record other : EventRecord) : Prop :=
  ∃ sequenceNumber recordHash, other = { record with sequenceNumber, recordHash }

theorem Renumbered.trans {first second third : EventRecord} (h : Renumbered first second)
    (h' : Renumbered second third) : Renumbered first third := by
  obtain ⟨_, _, rfl⟩ := h
  obtain ⟨sequenceNumber, recordHash, rfl⟩ := h'
  exact ⟨sequenceNumber, recordHash, rfl⟩

section

variable (env : WriterEnv)

def HashValid (record : EventRecord) : Prop :=
  record.recordHash = env.computeRecordHash (hashInputFor record)

theorem hashValid_reseq {record : EventRecord} (h : HashValid env record) (newSeq : Nat) :
    HashValid env (reseq env record newSeq) := by
  unfold reseq
  split
  · exact h
  · rfl

theorem mem_reseqFrom {base : Nat} {records : List EventRecord} {record : EventRecord}
    (h : record ∈ reseqFrom env base records) :
    ∃ source ∈ records, ∃ newSeq, record = reseq env source newSeq := by
  induction records generalizing base with
  | nil => cases h
  | cons first records ih =>
    rcases List.mem_cons.mp h with rfl | hmem
    · exact ⟨first, mem_cons_self, base, rfl⟩
    · obtain ⟨source, hsource, newSeq, heq⟩ := ih hmem
      exact ⟨source, mem_cons_of_mem _ hsource, newSeq, heq⟩

theorem renumbered_reseq (record : EventRecord) (newSeq : Nat) :
    Renumbered record (reseq env record newSeq) := by
  obtain ⟨recordHash, heq⟩ := reseq_eq env record newSeq
  exact ⟨newSeq, recordHash, heq⟩

theorem mem_reseqFrom_of_mem {records : List EventRecord} {record : EventRecord}
    (h : record ∈ records) (base : Nat) : ∃ newSeq, reseq env record newSeq ∈ reseqFrom env base records := by
  induction records generalizing base with
  | nil => cases h
  | cons first records ih =>
    rcases List.mem_cons.mp h with rfl | hmem
    · exact ⟨base, mem_cons_self⟩
    · obtain ⟨newSeq, hnew⟩ := ih hmem (base + 1)
      exact ⟨newSeq, mem_cons_of_mem _ hnew⟩

end

/-- The hot files, the committed records that cold storage has, the open instances, and the foreign
records whose merge returned. -/
structure MergeState where
  disk : Disk
  cold : List EventRecord := []
  logs : List EventLog := []
  merged : List EventRecord := []

namespace MergeState

/-- An instance is opened with the guards its index or its startup scan gave it; `merge` is
`merge_ledger_from`; `archive` is what a compaction or a cold move leaves, as the readers see it. -/
inductive Action where
  | openLog (log : EventLog)
  | merge (i : Nat) (foreign : Disk)
  | archive (disk : Disk) (moved : List EventRecord)

variable (env : WriterEnv)

def step (state : MergeState) : Action → Option MergeState
  | .openLog log => some { state with logs := state.logs ++ [log] }
  | .merge i foreign => do
    let log ← state.logs[i]?
    match iterCommittedRecords foreign with
    | .error _ => some state
    | .ok records =>
      match mergeForeignEvents env log state.disk records with
      | .error _ => some state
      | .ok (log, disk, _) =>
        some { state with disk, logs := state.logs.set i log, merged := state.merged ++ records }
  | .archive disk moved => some { state with disk, cold := state.cold ++ moved }

/-- The condition on a merge: the instance knows exactly the foreign ids that are canonical, an id
stands for one event, and what is new comes as whole batches of which the log has no open part, for
a file that ends in a blank line. -/
structure CleanMerge (state : MergeState) (log : EventLog) (records : List EventRecord) : Prop where
  agrees : ∀ hot, iterCommittedRecords state.disk = .ok hot → ∀ record ∈ records,
    (record.eventId.val ∈ log.eventIdSet ↔ record.eventId.val ∈ idsOf (hot ++ state.cold))
  same : ∀ hot, iterCommittedRecords state.disk = .ok hot → ∀ record ∈ records,
    ∀ other ∈ hot ++ state.cold ++ records, other.eventId.val = record.eventId.val →
      Renumbered record other
  hashed : ∀ record ∈ records, HashValid env record
  whole : ∀ unit ∈ batchRuns (selectForeign log.eventIdSet records).1, WriteUnit unit
  closed : ∀ hot buffer, scanLog state.disk = .ok (hot, buffer) →
    ∀ record ∈ (selectForeign log.eventIdSet records).1, ∀ batchId,
      record.batchId = some batchId → buffer.pending batchId = []
  file : ∀ target, writeTarget log state.disk (selectForeign log.eventIdSet records).1.length =
    .ok target → target.listed = true ∧ BlankEnd state.disk target

def CleanStep (state : MergeState) : Action → Prop
  | .openLog _ => True
  | .merge i foreign => ∀ log records, state.logs[i]? = some log →
      iterCommittedRecords foreign = .ok records → CleanMerge env state log records
  | .archive disk moved => ∀ hot, iterCommittedRecords state.disk = .ok hot →
      ∃ left, iterCommittedRecords disk = .ok left ∧ (left ++ moved).Perm hot

/-- The canonical log is what it was and some new events with valid hashes; no id stands twice, and
every foreign event is there. -/
structure Lossless (before : List EventRecord) (state : MergeState) (hot : List EventRecord) : Prop where
  scan : iterCommittedRecords state.disk = .ok hot
  grown : ∃ added, (hot ++ state.cold).Perm (before ++ added) ∧
    ∀ record ∈ added, HashValid env record
  nodup : (idsOf (hot ++ state.cold)).Nodup
  present : ∀ record ∈ state.merged, ∃ kept ∈ hot ++ state.cold, Renumbered record kept

variable {env} {before hot : List EventRecord} {state next : MergeState}

theorem isKnown_of_scan {disk : Disk} {records : List EventRecord}
    (h : iterCommittedRecords disk = .ok records) : ∀ record ∈ records, record.isKnown = true := by
  obtain ⟨lines, buffer, -, hvisit⟩ := iterCommittedRecords_ok.mp h
  exact visitAll_yields hvisit (by simp [Buffer.waiting]) fun _ _ hknown => hknown

theorem scan_merged {log : EventLog} {disk : Disk} {write : PendingWrite}
    {records fresh : List EventRecord} {buffer : Buffer} (hprepared : Prepared log disk write)
    (hwrite : write.records = reseqFrom env write.base fresh) (hne : fresh ≠ [])
    (hknown : ∀ record ∈ fresh, record.isKnown = true)
    (hwhole : ∀ unit ∈ batchRuns fresh, WriteUnit unit) (hscan : scanLog disk = .ok (records, buffer))
    (hclosed : ∀ record ∈ fresh, ∀ batchId, record.batchId = some batchId →
      buffer.pending batchId = [])
    (hlisted : write.target.listed = true) (hblank : BlankEnd disk write.target) :
    iterCommittedRecords (write.commit disk) = .ok (records ++ write.records) := by
  have hrecords : write.records ≠ [] := by
    intro hnil
    have hlength := length_reseqFrom env write.base fresh
    rw [← hwrite, hnil, length_nil] at hlength
    exact hne (List.length_eq_zero_iff.mp hlength.symm)
  have hunits : ∀ unit ∈ batchRuns write.records, WriteUnit unit := by
    have hshape : (batchRuns fresh).map (List.map shape) =
        (batchRuns write.records).map (List.map shape) := by
      rw [hwrite]
      exact batchRuns_of_shape (shape_reseqFrom env write.base fresh).symm
    intro unit hunit
    have hmem := mem_map_of_mem (f := List.map shape) hunit
    rw [← hshape] at hmem
    obtain ⟨other, hother, heq⟩ := List.mem_map.mp hmem
    exact writeUnit_of_shape heq (hwhole other hother)
  have hsource : ∀ record ∈ write.records, ∃ source ∈ fresh, ∃ newSeq,
      record = reseq env source newSeq := by
    rw [hwrite]
    exact fun record hrecord => mem_reseqFrom env hrecord
  have hread : ∀ record ∈ write.records, record.isKnown = true ∧
      ∀ batchId, record.batchId = some batchId → buffer.pending batchId = [] := by
    intro record hrecord
    obtain ⟨source, hmem, newSeq, rfl⟩ := hsource record hrecord
    refine ⟨?_, fun batchId hid => hclosed source hmem batchId ?_⟩
    · rw [EventRecord.isKnown, reseq_schemaVersion]
      exact hknown source hmem
    · rwa [EventRecord.batchId, reseq_batch] at hid
  have hflatten := flatten_batchRuns write.records
  obtain ⟨final, hvisit⟩ := @visitAll_units (batchRuns write.records) hunits
    (by rw [hflatten]; exact fun record hrecord => (hread record hrecord).1) buffer
    (by rw [hflatten]; exact fun record hrecord => (hread record hrecord).2)
  rw [hflatten] at hvisit
  exact iterCommittedRecords_of_scanLog
    (hprepared.scanLog_commit hlisted hblank hrecords hscan hvisit)

theorem idsOf_reseqFrom (base : Nat) (records : List EventRecord) :
    idsOf (reseqFrom env base records) = idsOf records := by
  apply map_reseqFrom
  intro record newSeq
  rw [reseq_eventId]

theorem idsOf_append (left right : List EventRecord) : idsOf (left ++ right) = idsOf left ++ idsOf right :=
  map_append

theorem disk_of_nothing_new {log log' : EventLog} {disk disk' : Disk} {records : List EventRecord}
    {result : LedgerMergeResult} (hnone : (selectForeign log.eventIdSet records).1 = [])
    (h : mergeForeignEvents env log disk records = .ok (log', disk', result)) : disk' = disk := by
  obtain ⟨base, -, h⟩ := bind_ok.mp h
  simp only [hnone, reseqFrom, if_true] at h
  cases h
  rfl

theorem Lossless.merge (h : Lossless env before state hot) {log log' : EventLog} {disk : Disk}
    {records : List EventRecord} {result : LedgerMergeResult}
    (hknown : ∀ record ∈ records, record.isKnown = true) (hclean : CleanMerge env state log records)
    (hmerge : mergeForeignEvents env log state.disk records = .ok (log', disk, result))
    (logs : List EventLog) :
    ∃ hot, Lossless env before { state with disk, logs, merged := state.merged ++ records } hot := by
  obtain ⟨hsub, hfresh, hnew, hcover⟩ := selectForeign_spec log.eventIdSet records
  have hagrees := hclean.agrees hot h.scan
  have hsame := hclean.same hot h.scan
  -- a foreign event that the instance knows is canonical already
  have hold : ∀ record ∈ records, record.eventId.val ∈ log.eventIdSet →
      ∃ kept ∈ hot ++ state.cold, Renumbered record kept := by
    intro record hrecord hid
    obtain ⟨kept, hkept, heq⟩ := List.mem_map.mp ((hagrees record hrecord).mp hid)
    exact ⟨kept, hkept, hsame record hrecord kept (mem_append_left _ hkept) heq⟩
  by_cases hne : (selectForeign log.eventIdSet records).1 = []
  · obtain rfl := disk_of_nothing_new hne hmerge
    refine ⟨hot, h.scan, h.grown, h.nodup, fun record hrecord => ?_⟩
    rcases List.mem_append.mp hrecord with hmem | hmem
    · exact h.present record hmem
    · rcases hcover record hmem with hid | hid
      · exact hold record hmem hid
      · rw [hne] at hid
        cases hid
  · rcases mergeForeignEvents_ok env hmerge with ⟨hnone, -⟩ | ⟨write, hprepared, rfl, hwrite, -, -⟩
    · exact absurd hnone hne
    · obtain ⟨buffer, hscan⟩ := scanLog_of_iterCommittedRecords h.scan
      have hlength : write.records.length = (selectForeign log.eventIdSet records).1.length := by
        rw [hwrite, length_reseqFrom]
      have htarget := hprepared.target
      rw [hlength] at htarget
      obtain ⟨hlisted, hblank⟩ := hclean.file write.target htarget
      have hnext := scan_merged hprepared hwrite hne
        (fun record hrecord => hknown record (hsub.subset hrecord)) hclean.whole hscan
        (hclean.closed hot buffer hscan) hlisted hblank
      have hperm : (hot ++ write.records ++ state.cold).Perm (hot ++ state.cold ++ write.records) := by
        rw [append_assoc, append_assoc]
        exact List.perm_append_comm.append_left hot
      refine ⟨hot ++ write.records, hnext, ?_, ?_, ?_⟩
      · obtain ⟨added, hgrown, hhashes⟩ := h.grown
        refine ⟨added ++ write.records, ?_, fun record hrecord => ?_⟩
        · rw [← append_assoc]
          exact hperm.trans (hgrown.append_right _)
        · rcases List.mem_append.mp hrecord with hmem | hmem
          · exact hhashes record hmem
          · rw [hwrite] at hmem
            obtain ⟨source, hsource, newSeq, rfl⟩ := mem_reseqFrom env hmem
            exact hashValid_reseq env (hclean.hashed source (hsub.subset hsource)) newSeq
      · have hids := hperm.map fun record : EventRecord => record.eventId.val
        refine hids.nodup_iff.mpr ?_
        show (idsOf (hot ++ state.cold ++ write.records)).Nodup
        rw [idsOf_append, hwrite, idsOf_reseqFrom]
        refine List.Nodup.append h.nodup hfresh ?_
        intro eventId hcanonical hid
        obtain ⟨record, hrecord, rfl⟩ := List.mem_map.mp hid
        exact hnew record hrecord ((hagrees record (hsub.subset hrecord)).mpr hcanonical)
      · have hkeeps : ∀ kept ∈ hot ++ state.cold, kept ∈ hot ++ write.records ++ state.cold :=
          fun kept hkept => hperm.symm.subset (mem_append_left _ hkept)
        intro record hrecord
        rcases List.mem_append.mp hrecord with hmem | hmem
        · obtain ⟨kept, hkept, hsame⟩ := h.present record hmem
          exact ⟨kept, hkeeps kept hkept, hsame⟩
        · rcases hcover record hmem with hid | hid
          · obtain ⟨kept, hkept, hsame⟩ := hold record hmem hid
            exact ⟨kept, hkeeps kept hkept, hsame⟩
          · obtain ⟨source, hsource, heq⟩ := List.mem_map.mp hid
            obtain ⟨newSeq, hnew⟩ := mem_reseqFrom_of_mem env hsource write.base
            rw [← hwrite] at hnew
            refine ⟨_, hperm.symm.subset (mem_append_right _ hnew), ?_⟩
            have hrenumbered := hsame record hmem source
              (mem_append_right _ (hsub.subset hsource)) heq
            exact hrenumbered.trans (renumbered_reseq env source newSeq)

theorem Lossless.archive (h : Lossless env before state hot) {disk : Disk}
    {left moved : List EventRecord} (hscan : iterCommittedRecords disk = .ok left)
    (hperm : (left ++ moved).Perm hot) :
    Lossless env before { state with disk, cold := state.cold ++ moved } left := by
  have hsame : (left ++ (state.cold ++ moved)).Perm (hot ++ state.cold) := by
    have hmoved : (left ++ (state.cold ++ moved)).Perm (left ++ moved ++ state.cold) := by
      rw [append_assoc]
      exact List.perm_append_comm.append_left left
    exact hmoved.trans (hperm.append_right _)
  obtain ⟨added, hgrown, hhashes⟩ := h.grown
  refine ⟨hscan, ⟨added, hsame.trans hgrown, hhashes⟩, ?_, fun record hrecord => ?_⟩
  · exact (hsame.map fun record : EventRecord => record.eventId.val).nodup_iff.mpr h.nodup
  · obtain ⟨kept, hkept, hrenumbered⟩ := h.present record hrecord
    exact ⟨kept, hsame.symm.subset hkept, hrenumbered⟩

theorem Lossless.step (h : ∃ hot, Lossless env before state hot) {action : Action}
    (hclean : CleanStep env state action) (hstep : step env state action = some next) :
    ∃ hot, Lossless env before next hot := by
  obtain ⟨hot, h⟩ := h
  cases action with
  | openLog log =>
    cases hstep
    exact ⟨hot, h.scan, h.grown, h.nodup, h.present⟩
  | merge i foreign =>
    obtain ⟨log, hlog, hresult⟩ := bind_eq_some_iff.mp hstep
    split at hresult
    · cases hresult
      exact ⟨hot, h⟩
    next records hrecords =>
      split at hresult
      · cases hresult
        exact ⟨hot, h⟩
      next log' disk result hmerge =>
        cases hresult
        exact h.merge (isKnown_of_scan hrecords) (hclean log records hlog hrecords) hmerge _
  | archive disk moved =>
    cases hstep
    obtain ⟨left, hleft, hperm⟩ := hclean hot h.scan
    exact ⟨left, h.archive hleft hperm⟩

/-- In every run of such merges, whatever is archived in between, the canonical log keeps what it
had and takes every foreign event in once. -/
theorem merges_lossless {start : MergeState} {old : List EventRecord} {actions : List Action}
    (hstart : iterCommittedRecords start.disk = .ok old) (hnodup : (idsOf (old ++ start.cold)).Nodup)
    (hmerged : start.merged = []) (hrun : Run (step env) (CleanStep env) start actions state) :
    ∃ hot, Lossless env (old ++ start.cold) state hot := by
  refine hrun.invariant (I := fun state => ∃ hot, Lossless env (old ++ start.cold) state hot) ?_
    fun _ _ _ h hclean hstep => Lossless.step h hclean hstep
  refine ⟨old, hstart, ⟨[], by simp, by simp⟩, hnodup, ?_⟩
  rw [hmerged]
  exact fun record hrecord => absurd hrecord List.not_mem_nil

def tinyLog : EventLog := { segmentMaxEvents := 1 }

def knowingLog : EventLog := { tinyLog with nextSequence := 1, eventIdSet := [sampleId.val] }

def foreignDisk : Disk := { Disk.empty with base := some (recordLines [sampleRecord]) }

def emptyState : MergeState := { disk := Disk.empty }

def secondCopy : EventRecord := reseq sampleEnv sampleRecord 1

def mergedOnce : MergeState :=
  { disk := foreignDisk
    logs := [knowingLog, tinyLog]
    merged := [sampleRecord] }

def mergedTwice : MergeState :=
  { disk :=
      { foreignDisk with hot := [(1, recordLines [secondCopy])], sorted := by decide }
    logs := [knowingLog, { knowingLog with nextSequence := 2 }]
    merged := [sampleRecord, sampleRecord] }

section

variable {disk : Disk} {segments : List (List EventRecord)}
    (h : disk.orderedSegments.map Prod.snd = segments.map recordLines)
include h

private theorem scanLog_segments : scanLog disk = visitAll [] segments.flatten := by
  have hread : ∀ segments : List (List EventRecord),
      readSegments (segments.map recordLines) = .ok (segments.flatten.map EventRecord.dumpJson) := by
    intro segments
    induction segments with
    | nil => rfl
    | cons records segments ih =>
      rw [map_cons, readSegments, readLines_recordLines, ih, flatten_cons, map_append]
      rfl
  unfold scanLog iterRawEventLines
  rw [h, hread]
  show visitAll [] (parsedRecords (segments.flatten.map EventRecord.dumpJson)) = _
  rw [parsedRecords_dump]

private theorem scan_direct
    (hcopies : ∀ record ∈ segments.flatten, ∃ newSeq, record =
      reseq sampleEnv sampleRecord newSeq) : scanLog disk = .ok (segments.flatten, []) := by
  rw [scanLog_segments h]
  refine visitAll_direct (fun record hrecord => ?_) (fun record hrecord => ?_) []
  · obtain ⟨newSeq, rfl⟩ := hcopies record hrecord
    rw [reseq_batch]
    rfl
  · obtain ⟨newSeq, rfl⟩ := hcopies record hrecord
    rw [EventRecord.isKnown, reseq_schemaVersion]
    decide

end

private theorem scan_foreignDisk : scanLog foreignDisk = .ok ([sampleRecord], []) := by
  have hsegments : foreignDisk.orderedSegments.map Prod.snd = [[sampleRecord]].map recordLines := rfl
  refine scan_direct hsegments fun record hrecord => ⟨0, ?_⟩
  rw [List.mem_singleton.mp hrecord]
  rfl

private theorem scan_mergedTwice :
    scanLog mergedTwice.disk = .ok ([sampleRecord, secondCopy], []) := by
  have hsegments : mergedTwice.disk.orderedSegments.map Prod.snd =
      [[sampleRecord], [secondCopy]].map recordLines := rfl
  refine scan_direct hsegments fun record hrecord => ?_
  rcases List.mem_cons.mp hrecord with rfl | hrecord
  · exact ⟨0, rfl⟩
  · exact ⟨1, List.mem_singleton.mp hrecord⟩

private theorem merge_first : ∃ result,
    mergeForeignEvents sampleEnv tinyLog Disk.empty [sampleRecord] =
      .ok (knowingLog, foreignDisk, result) := by
  have hbase : nextBase Disk.empty = .ok 0 := rfl
  have hselect : selectForeign tinyLog.eventIdSet [sampleRecord] = ([sampleRecord], []) := rfl
  have hrecords : reseqFrom sampleEnv 0 [sampleRecord] = [sampleRecord] := rfl
  exact ⟨_, mergeForeignEvents_eq sampleEnv hbase hselect hrecords (cons_ne_nil _ _) rfl⟩

private theorem merge_second : ∃ result,
    mergeForeignEvents sampleEnv tinyLog foreignDisk [sampleRecord] =
      .ok ({ knowingLog with nextSequence := 2 }, mergedTwice.disk, result) := by
  have hsegments : (foreignDisk.orderedSegments.map Prod.snd).reverse =
      [recordLines [sampleRecord]] := rfl
  have hactive : foreignDisk.read foreignDisk.activeSegmentPath =
      some (recordLines [sampleRecord]) := rfl
  have htarget : writeTarget tinyLog foreignDisk [secondCopy].length = .ok (.hot 1) :=
    writeTarget_rotates hactive (by simp) (by decide)
  have hrecords : reseqFrom sampleEnv 1 [sampleRecord] = [secondCopy] := rfl
  have hselect : selectForeign tinyLog.eventIdSet [sampleRecord] = ([sampleRecord], []) := rfl
  exact ⟨_, mergeForeignEvents_eq sampleEnv (nextBase_of_last hsegments rfl) hselect hrecords
    (cons_ne_nil _ _) htarget⟩

private theorem step_merge {state : MergeState} {i : Nat} {log log' : EventLog} {disk : Disk}
    {result : LedgerMergeResult} (hlog : state.logs[i]? = some log)
    (hmerge : mergeForeignEvents sampleEnv log state.disk [sampleRecord] = .ok (log', disk, result)) :
    step sampleEnv state (.merge i foreignDisk) = some { state with
      disk, logs := state.logs.set i log', merged := state.merged ++ [sampleRecord] } := by
  have hforeign := iterCommittedRecords_of_scanLog scan_foreignDisk
  simp [step, hlog, hforeign, hmerge]

private theorem cleanMerge_empty {state : MergeState} {log : EventLog} (hdisk : state.disk = Disk.empty)
    (hcold : state.cold ⊆ [sampleRecord]) (hids : log.eventIdSet = idsOf state.cold) :
    CleanMerge sampleEnv state log [sampleRecord] := by
  have hempty : iterCommittedRecords Disk.empty = .ok [] := rfl
  have hhot : ∀ hot, iterCommittedRecords state.disk = .ok hot → hot = [] := by
    intro hot hscan
    rw [hdisk] at hscan
    exact Except.ok.inj (hscan.symm.trans hempty)
  have hfresh := List.sublist_singleton.mp (selectForeign_spec log.eventIdSet [sampleRecord]).1
  refine ⟨fun hot hscan => ?_, fun hot hscan record hrecord other hother _ => ?_, ?_, ?_, ?_, ?_⟩
  · obtain rfl := hhot hot hscan
    simp [hids]
  · obtain rfl := hhot hot hscan
    have hsame : other = sampleRecord := by
      rcases List.mem_append.mp hother with hmem | hmem
      · exact List.mem_singleton.mp (hcold hmem)
      · exact List.mem_singleton.mp hmem
    rw [List.mem_singleton.mp hrecord, hsame]
    exact ⟨_, _, rfl⟩
  · exact List.forall_mem_singleton.mpr rfl
  · intro unit hunit
    rcases hfresh with hnone | hnew
    · rw [hnone] at hunit
      cases hunit
    · rw [hnew] at hunit
      obtain rfl : unit = [sampleRecord] := List.mem_singleton.mp hunit
      exact WriteUnit.direct _ rfl
  · intro hot buffer _ record hrecord batchId hid
    rcases hfresh with hnone | hnew
    · rw [hnone] at hrecord
      cases hrecord
    · rw [hnew] at hrecord
      obtain rfl := List.mem_singleton.mp hrecord
      cases hid
  · intro target htarget
    rw [hdisk] at htarget ⊢
    rcases writeTarget_cases htarget with rfl | ⟨-, count, hcount⟩
    · exact ⟨rfl, [], rfl, rfl⟩
    · cases hcount

def mergedThrice : MergeState :=
  { disk := Disk.empty
    cold := [sampleRecord]
    logs := [knowingLog, knowingLog]
    merged := [sampleRecord, sampleRecord, sampleRecord] }

/-- The first merge brings the event in. Another instance is opened, the event is archived, and both
instances merge again. -/
theorem repeated_merge_lossless : ∃ hot, Lossless sampleEnv [] mergedThrice hot := by
  have hforeign := iterCommittedRecords_of_scanLog scan_foreignDisk
  have hclean : ∀ {state : MergeState} {i : Nat}, state.disk = Disk.empty →
      state.cold ⊆ [sampleRecord] → (∀ log ∈ state.logs, log.eventIdSet = idsOf state.cold) →
        CleanStep sampleEnv state (.merge i foreignDisk) := by
    intro state i hdisk hcold hids log records hlog hrecords
    cases hforeign.symm.trans hrecords
    exact cleanMerge_empty hdisk hcold (hids log (mem_of_getElem? hlog))
  have hfirst : step sampleEnv { emptyState with logs := [tinyLog] } (.merge 0 foreignDisk) =
      some { disk := foreignDisk, logs := [knowingLog], merged := [sampleRecord] } := by
    obtain ⟨result, hresult⟩ := merge_first
    exact step_merge rfl hresult
  have harchived : CleanStep sampleEnv
      { disk := foreignDisk, logs := [knowingLog, knowingLog], merged := [sampleRecord] }
      (.archive Disk.empty [sampleRecord]) := by
    intro hot hscan
    cases hforeign.symm.trans hscan
    exact ⟨[], rfl, List.Perm.refl _⟩
  have hknown : mergeForeignEvents sampleEnv knowingLog Disk.empty [sampleRecord] =
      .ok (knowingLog, Disk.empty, { skippedDuplicateEventIds := [sampleId.val] }) := rfl
  have hsecond : step sampleEnv { mergedThrice with merged := [sampleRecord] }
      (.merge 1 foreignDisk) = some { mergedThrice with merged := [sampleRecord, sampleRecord] } :=
    step_merge rfl hknown
  have hthird : step sampleEnv { mergedThrice with merged := [sampleRecord, sampleRecord] }
      (.merge 0 foreignDisk) = some mergedThrice := step_merge rfl hknown
  have hids : ∀ log ∈ mergedThrice.logs, log.eventIdSet = idsOf mergedThrice.cold := by decide
  have hempty : iterCommittedRecords emptyState.disk = .ok [] := rfl
  have hrun : Run (step sampleEnv) (CleanStep sampleEnv) emptyState
      [.openLog tinyLog, .merge 0 foreignDisk, .openLog knowingLog,
        .archive Disk.empty [sampleRecord], .merge 1 foreignDisk, .merge 0 foreignDisk] mergedThrice :=
    Run.cons trivial rfl (Run.cons (hclean rfl (nil_subset _) (by decide)) hfirst
      (Run.cons trivial rfl (Run.cons harchived rfl
        (Run.cons (hclean rfl (List.Subset.refl _) hids) hsecond
          (Run.cons (hclean rfl (List.Subset.refl _) hids) hthird Run.nil)))))
  exact merges_lossless hempty List.nodup_nil rfl hrun

/-- Two instances that were opened on the empty log merge the same worktree; the event is canonical
twice. -/
theorem stale_instance_merges_again : ∃ actions, ∃ hot,
    Run (step sampleEnv) (fun _ _ => True) emptyState actions mergedTwice ∧
      iterCommittedRecords mergedTwice.disk = .ok hot ∧
      (idsOf (hot ++ mergedTwice.cold)).count sampleId.val = 2 := by
  have hopen : ∀ logs, step sampleEnv { emptyState with logs } (.openLog tinyLog) =
      some { emptyState with logs := logs ++ [tinyLog] } := fun _ => rfl
  have hfirst : step sampleEnv { emptyState with logs := [tinyLog, tinyLog] }
      (.merge 0 foreignDisk) = some mergedOnce := by
    obtain ⟨result, hresult⟩ := merge_first
    exact step_merge rfl hresult
  have hsecond : step sampleEnv mergedOnce (.merge 1 foreignDisk) = some mergedTwice := by
    obtain ⟨result, hresult⟩ := merge_second
    exact step_merge rfl hresult
  refine ⟨_, [sampleRecord, secondCopy], Run.cons trivial (hopen []) (Run.cons trivial
    (hopen [tinyLog]) (Run.cons trivial hfirst (Run.cons trivial hsecond Run.nil))),
    iterCommittedRecords_of_scanLog scan_mergedTwice, ?_⟩
  decide +kernel

end MergeState

end Flowness.Ledger
