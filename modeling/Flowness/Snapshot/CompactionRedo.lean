import Flowness.Snapshot.ArchiveRuns

/-!
Recovery looks at every compaction again. It leaves a segment that holds just the pinned records
alone, and rewrites any other from the archive.
-/

namespace Flowness.Snapshot

open List Library Schemas Ledger
open Ledger.EventIndex (idsOf)

/-- Every line of `event_id.idx` reads back as a record. -/
def Readable (dir : IndexDir) : Prop :=
  ∀ content, dir.eventIds = some content → ∃ records, indexedRecords content = some records

def SameIds (left right : List String) : Prop := left ⊆ right ∧ right ⊆ left

section

variable {sha256 : Bytes → String} {dir left : IndexDir} {removed : List String} {count : Nat}

theorem Readable.prune_total (h : Readable dir) (sha256 : Bytes → String) (removed : List String) :
    ∃ pruned, pruneEventIds sha256 dir removed = some pruned := by
  unfold pruneEventIds
  cases hindex : dir.eventIds with
  | none => exact ⟨_, rfl⟩
  | some content =>
    obtain ⟨indexed, hindexed⟩ := h content hindex
    simp only [hindexed]
    exact ⟨_, rfl⟩

def Persisted (dir : IndexDir) : Prop :=
  dir.eventIds = none ∨ ∃ records, dir.eventIds = some (eventIdLines records)

theorem Persisted.prune (h : Persisted dir)
    (hprune : pruneEventIds sha256 dir removed = some (left, count)) : Persisted left := by
  rcases h with hnone | ⟨records, hdir⟩
  · rw [pruneEventIds, hnone] at hprune
    rw [← (Prod.mk.inj (Option.some.inj hprune)).1]
    exact .inl hnone
  · exact .inr ⟨_, pruneEventIds_eq hdir hprune⟩

theorem Readable.prune (h : Readable dir) (hpersisted : Persisted dir)
    (hprune : pruneEventIds sha256 dir removed = some (left, count)) : Readable left := by
  rcases hpersisted with hnone | ⟨records, hdir⟩
  · rw [pruneEventIds, hnone] at hprune
    rw [← (Prod.mk.inj (Option.some.inj hprune)).1]
    exact h
  · obtain ⟨out, hout⟩ := h _ hdir
    have hunbroken := (indexedRecords_eq_unbroken hout).2
    intro content hcontent
    rw [pruneEventIds_eq hdir hprune] at hcontent
    rw [← Option.some.inj hcontent]
    exact ⟨_, indexedRecords_eventIdLines fun record hrecord =>
      hunbroken record (mem_of_mem_filter hrecord)⟩

theorem prune_spec {records : List EventRecord} (hdir : dir.eventIds = some (eventIdLines records))
    (hprune : pruneEventIds sha256 dir removed = some (left, count)) :
    let survivors := records.filter (fun record => record.eventId.val ∉ removed)
    Unbroken records ∧
      left = if survivors.length = records.length then dir else persist sha256 dir survivors := by
  simp only [pruneEventIds, hdir] at hprune
  obtain ⟨out, hout, hpruned⟩ := Option.map_eq_some_iff.mp hprune
  obtain ⟨rfl, hunbroken⟩ := indexedRecords_eq_unbroken hout
  refine ⟨hunbroken, ?_⟩
  split at hpruned
  next hsame =>
    rw [if_pos hsame]
    exact (Prod.mk.inj hpruned).1.symm
  next hfewer =>
    rw [if_neg hfewer]
    exact (Prod.mk.inj hpruned).1.symm

theorem readable_of_prune (hpersisted : Persisted dir)
    (hprune : pruneEventIds sha256 dir removed = some (left, count)) : Readable dir := by
  intro content hcontent
  rcases hpersisted with hnone | ⟨records, hdir⟩
  · rw [hnone] at hcontent
    contradiction
  · cases hdir.symm.trans hcontent
    exact ⟨records, indexedRecords_eventIdLines (prune_spec hdir hprune).1⟩

theorem prune_append (hpersisted : Persisted dir)
    (hfirst : pruneEventIds sha256 dir removed = some (left, count))
    (hsecond : pruneEventIds sha256 left more = some (last, n)) :
    ∃ total, pruneEventIds sha256 dir (removed ++ more) = some (last, total) := by
  rcases hpersisted with hnone | ⟨records, hdir⟩
  · rw [pruneEventIds, hnone] at hfirst
    cases hfirst
    rw [pruneEventIds, hnone] at hsecond
    cases hsecond
    exact ⟨0, by rw [pruneEventIds, hnone]⟩
  have hleft := pruneEventIds_eq hdir hfirst
  have hreadable := readable_of_prune (.inr ⟨records, hdir⟩) hfirst
  obtain ⟨-, hfirst⟩ := prune_spec hdir hfirst
  obtain ⟨-, hsecond⟩ := prune_spec hleft hsecond
  have hboth : (records.filter fun record => record.eventId.val ∉ removed).filter
      (fun record => record.eventId.val ∉ more) =
      records.filter fun record => record.eventId.val ∉ removed ++ more := by
    rw [filter_filter]
    apply filter_congr
    intro record _
    simp [Bool.and_comm]
  obtain ⟨⟨pruned, total⟩, htotal⟩ := hreadable.prune_total sha256 (removed ++ more)
  obtain ⟨-, hpruned⟩ := prune_spec hdir htotal
  rw [hboth] at hsecond
  refine ⟨total, ?_⟩
  rw [htotal]
  congr 2
  have hle := length_filter_le (fun record => record.eventId.val ∉ removed) records
  have hshort := length_filter_le (fun record => record.eventId.val ∉ more)
    (records.filter fun record => record.eventId.val ∉ removed)
  have hsame : ((records.filter fun record => record.eventId.val ∉ removed).filter
      fun record => record.eventId.val ∉ more).length =
        (records.filter fun record => record.eventId.val ∉ removed).length →
      (records.filter fun record => record.eventId.val ∉ removed).filter
        (fun record => record.eventId.val ∉ more) =
          records.filter fun record => record.eventId.val ∉ removed := fun heq =>
    filter_eq_self.mpr (length_filter_eq_length_iff.mp heq)
  rw [hboth] at hsame hshort
  by_cases hall : (records.filter fun record => record.eventId.val ∉ removed).length =
      records.length
  · rw [if_pos hall] at hfirst
    rw [hpruned, hsecond, hfirst, hall]
  · rw [if_neg hall] at hfirst
    rw [hpruned, if_neg (by omega), hsecond, hfirst]
    split
    next heq =>
      rw [hsame heq]
    · exact persist_congr _ _ _ _

theorem prune_congr (hpersisted : Persisted dir)
    (hsame : ∀ records, dir.eventIds = some (eventIdLines records) → ∀ record ∈ records,
      record.eventId.val ∈ removed ↔ record.eventId.val ∈ other)
    (hprune : pruneEventIds sha256 dir removed = some (left, count)) :
    pruneEventIds sha256 dir other = some (left, count) := by
  rcases hpersisted with hnone | ⟨records, hdir⟩
  · rw [pruneEventIds, hnone] at hprune ⊢
    exact hprune
  · simp only [pruneEventIds, hdir] at hprune ⊢
    obtain ⟨out, hout, hpruned⟩ := Option.map_eq_some_iff.mp hprune
    obtain rfl := indexedRecords_eq hout
    have hfilter : out.filter (fun record => record.eventId.val ∉ other) =
        out.filter (fun record => record.eventId.val ∉ removed) := by
      apply filter_congr
      intro record hrecord
      rw [decide_eq_decide, hsame out hdir record hrecord]
    rw [hout, Option.map_some, hfilter, ← hpruned]

theorem prune_absent {records : List EventRecord} (hdir : dir.eventIds = some (eventIdLines records))
    (habsent : ∀ record ∈ records, record.eventId.val ∉ removed)
    (hprune : pruneEventIds sha256 dir removed = some (left, count)) : left = dir := by
  simp only [pruneEventIds, hdir] at hprune
  obtain ⟨out, hout, hpruned⟩ := Option.map_eq_some_iff.mp hprune
  rw [indexedRecords_eq hout, filter_eq_self.mpr (by simpa using habsent), if_pos rfl] at hpruned
  exact (Prod.mk.inj hpruned).1.symm

end

section

variable {records held : List EventRecord} {pinnedIds : List String}

def pinnedOf (records : List EventRecord) (pinnedIds : List String) : List EventRecord :=
  records.filter (fun record => record.eventId.val ∈ pinnedIds)

def movableOf (records : List EventRecord) (pinnedIds : List String) : List EventRecord :=
  records.filter (fun record => record.eventId.val ∉ pinnedIds)

theorem segmentIsThin_recordLines (h : Unbroken records) (pinnedIds : List String) :
    ∃ thin, segmentIsThin (recordLines records) pinnedIds = some thin ∧
      (thin = true ↔ SameIds (idsOf records) pinnedIds) := by
  have hids : (records.map EventRecord.dumpJson).mapM
      (fun line => (Json.parse line).bind (·.get "event_id")) =
        some ((idsOf records).map Json.str) := by
    clear h
    induction records with
    | nil => rfl
    | cons record records ih =>
      have hid : record.toJson.get "event_id" = some (.str record.eventId.val) := rfl
      rw [map_cons, mapM_cons, EventRecord.parse_dumpJson, Option.bind_some, ih]
      rfl
  have heq : segmentIsThin (recordLines records) pinnedIds =
      some (((idsOf records).map Json.str).all (· ∈ pinnedIds.map Json.str) &&
        pinnedIds.all (fun eventId => Json.str eventId ∈ (idsOf records).map Json.str)) := by
    rw [segmentIsThin, decodeText_recordLines, Option.bind_some, nonEmptyLines_dump,
      flatMap_recordPieces h, hids, Option.map_some]
  have hmem : ∀ (ids : List String) (eventId : String),
      Json.str eventId ∈ ids.map Json.str ↔ eventId ∈ ids := by
    intro ids eventId
    simp
  refine ⟨_, heq, ?_⟩
  rw [Bool.and_eq_true, all_eq_true, all_eq_true]
  simp only [hmem, decide_eq_true_eq, forall_mem_map]
  rfl

theorem eq_pinnedOf (hnodup : (idsOf records).Nodup) (hsub : held.Sublist records)
    (hsame : SameIds (idsOf held) pinnedIds) : held = pinnedOf records pinnedIds := by
  rw [← filter_mem_idsOf hnodup hsub]
  apply filter_congr
  intro record _
  rw [decide_eq_decide]
  exact ⟨fun h => hsame.1 h, fun h => hsame.2 h⟩

end

/-- The archive of a segment reads back as `records`. -/
structure InArchive (state : ArchiveState) (segment : Nat) (records : List EventRecord) : Prop where
  archive : ∃ copy, state.cold.archives.get segment = some copy ∧ archiveRecords copy = some records
  nonempty : records ≠ []
  nodup : (idsOf records).Nodup
  unbroken : Unbroken records

section

variable {sha256 : Bytes → String} {state : ArchiveState} {move : ArchiveMove}
  {pinnedIds : List String} {records held : List EventRecord}

theorem Unbroken.sublist (h : Unbroken records) (hsub : held.Sublist records) : Unbroken held :=
  fun record hrecord => h record (hsub.subset hrecord)

theorem runSteps_redoCompaction
    (hprune : pruneEventIds sha256 state.index (idsOf (movableOf records pinnedIds)) =
      some pruned) : runSteps sha256 state (redoCompaction move pinnedIds records) = some
      { disk := state.disk.write (.hot move.segment) (recordLines (pinnedOf records pinnedIds))
        cold := state.cold.updateIndex (idsOf (movableOf records pinnedIds)) move.segment
        index := pruned.1
        finalizeLog := recordFinalizeCompleted state.finalizeLog move.key } := by
  have hsteps : runSteps sha256 state (redoCompaction move pinnedIds records) =
      ((pruneEventIds sha256 state.index (idsOf (movableOf records pinnedIds))).map
        fun pruned => { state with
          disk := state.disk.write (.hot move.segment) (recordLines (pinnedOf records pinnedIds))
          cold := state.cold.updateIndex (idsOf (movableOf records pinnedIds)) move.segment
          index := pruned.1 }).bind fun state => some { state with
            finalizeLog := recordFinalizeCompleted state.finalizeLog move.key } := rfl
  rw [hsteps, hprune]
  rfl

theorem InArchive.redo (h : InArchive (renameIfMissing state move.segment) move.segment records)
    (hmove : move.pinnedIds = some pinnedIds)
    (hcompacted : isCompacted state move pinnedIds = some false)
    (hprune : pruneEventIds sha256 state.index (idsOf (movableOf records pinnedIds)) =
      some pruned) : recoverCompaction sha256 state move = some
      { disk := state.disk.write (.hot move.segment) (recordLines (pinnedOf records pinnedIds))
        cold := (renameIfMissing state move.segment).cold.updateIndex
          (idsOf (movableOf records pinnedIds)) move.segment
        index := pruned.1
        finalizeLog := recordFinalizeCompleted state.finalizeLog move.key } := by
  obtain ⟨copy, hcopy, hrecords⟩ := h.archive
  obtain ⟨hdisk, hindex, hlog⟩ : (renameIfMissing state move.segment).disk = state.disk ∧
      (renameIfMissing state move.segment).index = state.index ∧
      (renameIfMissing state move.segment).finalizeLog = state.finalizeLog := by
    unfold renameIfMissing
    split <;> exact ⟨rfl, rfl, rfl⟩
  unfold recoverCompaction
  rw [hmove]
  simp only [hcompacted, Option.bind_some, Bool.false_eq_true, if_false, hcopy, hrecords,
    if_neg h.nonempty]
  rw [← hindex] at hprune
  rw [runSteps_redoCompaction hprune, hdisk, hlog]

theorem InArchive.renameIfMissing_eq {segment : Nat} (h : InArchive state segment records) :
    renameIfMissing state segment = state := by
  obtain ⟨copy, hcopy, -⟩ := h.archive
  exact if_pos (Option.isSome_of_eq_some hcopy)

theorem InArchive.recoverCompaction_eq (h : InArchive state move.segment records)
    (sha256 : Bytes → String) (hmove : move.pinnedIds = some pinnedIds) (hkey : move.key ∈ state.finalizeLog)
    (hhot : state.disk.read (.hot move.segment) = some (recordLines held))
    (hsub : held.Sublist records)
    (hready : SameIds (idsOf held) pinnedIds ∨ Readable state.index) :
    (held = pinnedOf records pinnedIds ∧ recoverCompaction sha256 state move = some state) ∨
      ∃ pruned, pruneEventIds sha256 state.index (idsOf (movableOf records pinnedIds)) = some pruned ∧
        recoverCompaction sha256 state move = some
          { disk := state.disk.write (.hot move.segment) (recordLines (pinnedOf records pinnedIds))
            cold := state.cold.updateIndex (idsOf (movableOf records pinnedIds)) move.segment
            index := pruned.1
            finalizeLog := state.finalizeLog } := by
  obtain ⟨thin, hthin, hiff⟩ := segmentIsThin_recordLines (h.unbroken.sublist hsub) pinnedIds
  have hcompacted : isCompacted state move pinnedIds = some thin := by
    unfold isCompacted ArchiveState.isFinalizeCompleted
    rw [if_pos (by simpa using hkey), hhot]
    exact hthin
  cases thin with
  | true =>
    left
    refine ⟨eq_pinnedOf h.nodup hsub (hiff.mp rfl), ?_⟩
    unfold recoverCompaction
    rw [hmove]
    simp [hcompacted]
  | false =>
    right
    have hreadable : Readable state.index :=
      hready.resolve_left (fun hsame => Bool.false_ne_true (hiff.mpr hsame))
    obtain ⟨pruned, hpruned⟩ := hreadable.prune_total sha256 (idsOf (movableOf records pinnedIds))
    refine ⟨pruned, hpruned, ?_⟩
    have hlog : recordFinalizeCompleted state.finalizeLog move.key = state.finalizeLog := by
      rw [recordFinalizeCompleted, if_pos hkey]
    have hsame := h.renameIfMissing_eq
    have hrenamed : InArchive (renameIfMissing state move.segment) move.segment records := by
      rw [hsame]
      exact h
    rw [hrenamed.redo hmove hcompacted hpruned, hlog, hsame]

end

def hotRecords (state : ArchiveState) (segment : Nat) : List EventRecord :=
  segmentRecords ((state.disk.read (.hot segment)).getD [])

def archivedRecords (state : ArchiveState) (segment : Nat) : List EventRecord :=
  ((state.cold.archives.get segment).bind archiveRecords).getD []

/-- What recovery finds of a finalized compaction in the state it starts from. The segment of a
move that was interrupted is open: there the compaction may route and prune ids of `openIds`.
Elsewhere it finds its movable records routed and out of the index. -/
structure Revisited (start : ArchiveState) (openSegment : Option Nat) (openIds : List String)
    (move : ArchiveMove) (pinnedIds : List String) : Prop where
  finalized : move.key ∈ start.finalizeLog
  archived : InArchive start move.segment (archivedRecords start move.segment)
  hot : start.disk.read (.hot move.segment) = some (recordLines (hotRecords start move.segment))
  held : (hotRecords start move.segment).Sublist (archivedRecords start move.segment)
  opened : openSegment = some move.segment →
    idsOf (movableOf (archivedRecords start move.segment) pinnedIds) ⊆ openIds ∧
      Readable start.index
  retained : openSegment ≠ some move.segment → idsOf (hotRecords start move.segment) ⊆ pinnedIds
  ready : openSegment ≠ some move.segment →
    pinnedIds ⊆ idsOf (hotRecords start move.segment) ∨ Readable start.index
  settled : openSegment ≠ some move.segment →
    ∀ record ∈ archivedRecords start move.segment, record ∉ hotRecords start move.segment →
      start.cold.index.get record.eventId.val = some move.segment ∧ ∀ indexed,
        start.index.eventIds = some (eventIdLines indexed) → record.eventId.val ∉ idsOf indexed
  apart : openSegment ≠ some move.segment →
    ∀ record ∈ archivedRecords start move.segment, record.eventId.val ∉ openIds

/-- How far a state is from the start while the compactions of `rest` are still to come. -/
structure Redone (sha256 : Bytes → String) (start : ArchiveState) (openSegment : Option Nat)
    (openIds : List String) (rest : List ArchiveMove) (state : ArchiveState) : Prop where
  archives : state.cold.archives = start.cold.archives
  staging : state.cold.staging = start.cold.staging
  finalizeLog : state.finalizeLog = start.finalizeLog
  routes : ∀ eventId, eventId ∉ openIds →
    state.cold.index.get eventId = start.cold.index.get eventId
  cold : openSegment = none → state.cold = start.cold
  index : state.index = start.index ∨ ∃ removed count, removed ⊆ openIds ∧
    openSegment.isSome ∧ pruneEventIds sha256 start.index removed = some (state.index, count)
  files : ∀ path, (∀ move ∈ rest, move.pinnedIds.isSome → path ≠ .hot move.segment) →
    (∀ segment, openSegment = some segment → path ≠ .hot segment) →
      state.disk.read path = start.disk.read path
  thin : ∀ move ∈ rest, move.pinnedIds.isSome → ∃ held,
    state.disk.read (.hot move.segment) = some (recordLines held) ∧
      held.Sublist (archivedRecords start move.segment) ∧
      (held = hotRecords start move.segment ∨ Readable start.index)

section

variable {sha256 : Bytes → String} {start state : ArchiveState} {openSegment : Option Nat}
  {openIds pinnedIds : List String} {move : ArchiveMove} {rest : List ArchiveMove}

theorem InArchive.congr {segment : Nat} {records : List EventRecord}
    (h : InArchive start segment records) (harchives : state.cold.archives = start.cold.archives) :
    InArchive state segment records := by
  refine ⟨?_, h.nonempty, h.nodup, h.unbroken⟩
  rw [harchives]
  exact h.archive

section

variable (h : Redone sha256 start openSegment openIds (move :: rest) state)
  (hpersisted : Persisted start.index)

include h hpersisted

private theorem Redone.visit (hmove : move.pinnedIds = some pinnedIds)
    (hrevisited : Revisited start openSegment openIds move pinnedIds) :
    ∃ next, recoverCompaction sha256 state move = some next ∧
      next.disk.read (.hot move.segment) =
        some (recordLines (pinnedOf (archivedRecords start move.segment) pinnedIds)) ∧
      (∀ path, path ≠ .hot move.segment → next.disk.read path = state.disk.read path) ∧
      next.finalizeLog = state.finalizeLog ∧
      ((next.cold = state.cold ∧ next.index = state.index) ∨
        next.cold = state.cold.updateIndex
          (idsOf (movableOf (archivedRecords start move.segment) pinnedIds)) move.segment ∧
        ∃ count, pruneEventIds sha256 state.index
          (idsOf (movableOf (archivedRecords start move.segment) pinnedIds)) =
            some (next.index, count)) := by
  obtain ⟨held, hhot, hsub, hheld⟩ := h.thin move mem_cons_self (by rw [hmove]; rfl)
  have hreadable : Readable start.index → Readable state.index := by
    intro hstart
    rcases h.index with heq | ⟨removed, count, -, -, hprune⟩
    · rw [heq]
      exact hstart
    · exact hstart.prune hpersisted hprune
  have hready : SameIds (idsOf held) pinnedIds ∨ Readable state.index := by
    by_cases hopen : openSegment = some move.segment
    · exact .inr (hreadable (hrevisited.opened hopen).2)
    · rcases hheld with rfl | hstart
      · exact (hrevisited.ready hopen).imp (fun hsub => ⟨hrevisited.retained hopen, hsub⟩) hreadable
      · exact .inr (hreadable hstart)
  have hkey : move.key ∈ state.finalizeLog := by
    rw [h.finalizeLog]
    exact hrevisited.finalized
  rcases (hrevisited.archived.congr h.archives).recoverCompaction_eq sha256 hmove hkey hhot
    hsub hready with ⟨rfl, heq⟩ | ⟨pruned, hprune, heq⟩
  · exact ⟨state, heq, hhot, fun _ _ => rfl, rfl, .inl ⟨rfl, rfl⟩⟩
  · have hself := Disk.read_write_self state.disk (.hot move.segment)
      (recordLines (pinnedOf (archivedRecords start move.segment) pinnedIds))
    exact ⟨_, heq, hself, fun path hpath => Disk.read_write_of_ne _ _ hpath, rfl,
      .inr ⟨rfl, pruned.2, hprune⟩⟩

private theorem Redone.settled (hrevisited : Revisited start openSegment openIds move pinnedIds)
    (hshut : openSegment ≠ some move.segment) {dir : IndexDir} {count : Nat}
    (hprune : pruneEventIds sha256 state.index
      (idsOf (movableOf (archivedRecords start move.segment) pinnedIds)) = some (dir, count)) :
    state.cold.updateIndex (idsOf (movableOf (archivedRecords start move.segment) pinnedIds))
      move.segment = state.cold ∧ dir = state.index := by
  have hmoved : ∀ eventId ∈ idsOf (movableOf (archivedRecords start move.segment) pinnedIds),
      ∃ record ∈ archivedRecords start move.segment, record.eventId.val = eventId ∧
        record ∉ hotRecords start move.segment := by
    intro eventId hid
    obtain ⟨record, hrecord, rfl⟩ := mem_map.mp hid
    obtain ⟨hmem, hout⟩ := mem_filter.mp hrecord
    refine ⟨record, hmem, rfl, fun hhot => ?_⟩
    exact of_decide_eq_true hout (hrevisited.retained hshut (mem_idsOf hhot))
  constructor
  · apply ColdStore.updateIndex_of_routed
    intro eventId hid
    obtain ⟨record, hrecord, rfl, hout⟩ := hmoved eventId hid
    rw [h.routes _ (hrevisited.apart hshut record hrecord)]
    exact (hrevisited.settled hshut record hrecord hout).1
  · rcases hpersisted with hnone | ⟨records, hdir⟩
    · have hstate : state.index.eventIds = none := by
        rcases h.index with heq | ⟨removed, n, -, -, hpruned⟩
        · rw [heq, hnone]
        · rw [pruneEventIds, hnone] at hpruned
          rw [← (Prod.mk.inj (Option.some.inj hpruned)).1, hnone]
      rw [pruneEventIds, hstate] at hprune
      exact (Prod.mk.inj (Option.some.inj hprune)).1.symm
    · obtain ⟨indexed, hindexed, hsub⟩ : ∃ indexed,
          state.index.eventIds = some (eventIdLines indexed) ∧ indexed ⊆ records := by
        rcases h.index with heq | ⟨removed, n, -, -, hpruned⟩
        · exact ⟨records, by rw [heq, hdir], fun _ => id⟩
        · exact ⟨_, pruneEventIds_eq hdir hpruned, fun _ hr => mem_of_mem_filter hr⟩
      apply prune_absent hindexed _ hprune
      intro other hother hid
      obtain ⟨record, hrecord, heq, hout⟩ := hmoved _ hid
      have habsent := (hrevisited.settled hshut record hrecord hout).2 records hdir
      rw [heq] at habsent
      exact habsent (mem_idsOf (hsub hother))

theorem Redone.step
    (hrevisited : ∀ ids, move.pinnedIds = some ids → Revisited start openSegment openIds move ids)
    (hlast : ∀ ids, move.pinnedIds = some ids → openSegment ≠ some move.segment →
      (∀ later ∈ rest, later.pinnedIds.isSome → later.segment ≠ move.segment) →
      ids ⊆ idsOf (hotRecords start move.segment)) :
    ∃ next, recoverCompaction sha256 state move = some next ∧
      Redone sha256 start openSegment openIds rest next := by
  cases hmove : move.pinnedIds with
  | none =>
    refine ⟨state, by rw [recoverCompaction, hmove], ?_⟩
    refine { h with
      files := fun path hpath => h.files path fun m hm hsome => ?_
      thin := fun m hm => h.thin m (mem_cons_of_mem _ hm) }
    rcases mem_cons.mp hm with rfl | hm
    · rw [hmove] at hsome
      contradiction
    · exact hpath m hm hsome
  | some pinnedIds =>
    have hrev := hrevisited pinnedIds hmove
    obtain ⟨next, hnext, hhot, hothers, hlog, heffect⟩ := h.visit hpersisted hmove hrev
    refine ⟨next, hnext, ?_⟩
    have hthin : (pinnedOf (archivedRecords start move.segment) pinnedIds).Sublist
        (archivedRecords start move.segment) := filter_sublist
    have hback : openSegment ≠ some move.segment → pinnedIds ⊆ idsOf (hotRecords start move.segment) →
        pinnedOf (archivedRecords start move.segment) pinnedIds = hotRecords start move.segment :=
      fun hshut hsub => (eq_pinnedOf hrev.archived.nodup hrev.held
        ⟨hrev.retained hshut, hsub⟩).symm
    have hfiles : ∀ path, (∀ m ∈ rest, m.pinnedIds.isSome → path ≠ .hot m.segment) →
        (∀ segment, openSegment = some segment → path ≠ .hot segment) →
          next.disk.read path = start.disk.read path := by
      intro path hpath hopen
      by_cases hself : path = .hot move.segment
      · subst hself
        have hshut : openSegment ≠ some move.segment := fun heq => hopen _ heq rfl
        have hsub := hlast pinnedIds hmove hshut fun later hlater hsome heq =>
          hpath later hlater hsome (by rw [heq])
        rw [hhot, hback hshut hsub, hrev.hot]
      · rw [hothers path hself]
        apply h.files path _ hopen
        intro m hm hsome
        rcases mem_cons.mp hm with rfl | hm
        · exact hself
        · exact hpath m hm hsome
    have hkept : ∀ m ∈ rest, m.pinnedIds.isSome → ∃ held,
        next.disk.read (.hot m.segment) = some (recordLines held) ∧
          held.Sublist (archivedRecords start m.segment) ∧
          (held = hotRecords start m.segment ∨ Readable start.index) := by
      intro m hm hsome
      by_cases hself : m.segment = move.segment
      · rw [hself]
        refine ⟨_, hhot, hthin, ?_⟩
        by_cases hopen : openSegment = some move.segment
        · exact .inr (hrev.opened hopen).2
        · exact (hrev.ready hopen).imp (hback hopen) id
      · rw [hothers _ (fun heq => hself (SegmentPath.hot.inj heq))]
        exact h.thin m (mem_cons_of_mem _ hm) hsome
    have hsame : next.cold = state.cold ∧ next.index = state.index ∨
        openSegment = some move.segment ∧ next.cold = state.cold.updateIndex
          (idsOf (movableOf (archivedRecords start move.segment) pinnedIds)) move.segment ∧
        ∃ count, pruneEventIds sha256 state.index
          (idsOf (movableOf (archivedRecords start move.segment) pinnedIds)) =
            some (next.index, count) := by
      rcases heffect with hnothing | ⟨hcold, count, hprune⟩
      · exact .inl hnothing
      · by_cases hopen : openSegment = some move.segment
        · exact .inr ⟨hopen, hcold, count, hprune⟩
        · obtain ⟨hrouted, hindex⟩ := h.settled hpersisted hrev hopen hprune
          exact .inl ⟨hcold.trans hrouted, hindex⟩
    rcases hsame with ⟨hcold, hindex⟩ | ⟨hopen, hcold, count, hprune⟩
    · refine ⟨by rw [hcold, h.archives], by rw [hcold, h.staging], by rw [hlog, h.finalizeLog],
        fun eventId hid => by rw [hcold, h.routes eventId hid], fun hnone => by rw [hcold, h.cold hnone],
        ?_, hfiles, hkept⟩
      rw [hindex]
      exact h.index
    · have hmoved := (hrev.opened hopen).1
      refine ⟨by rw [hcold]; exact h.archives, by rw [hcold]; exact h.staging,
        by rw [hlog, h.finalizeLog], ?_, fun hnone => ?_, .inr ?_, hfiles, hkept⟩
      · intro eventId hid
        rw [hcold, ColdStore.get_updateIndex, if_neg (fun hmem => hid (hmoved hmem)),
          h.routes eventId hid]
      · rw [hnone] at hopen
        contradiction
      · have hsome : openSegment.isSome := by rw [hopen]; rfl
        rcases h.index with heq | ⟨removed, n, hremoved, -, hpruned⟩
        · rw [heq] at hprune
          exact ⟨_, count, hmoved, hsome, hprune⟩
        · obtain ⟨total, htotal⟩ := prune_append hpersisted hpruned hprune
          exact ⟨_, total, append_subset.mpr ⟨hremoved, hmoved⟩, hsome, htotal⟩

end

theorem Redone.loop (h : Redone sha256 start openSegment openIds moves state)
    (hpersisted : Persisted start.index)
    (hrevisited : ∀ move ∈ moves, ∀ ids, move.pinnedIds = some ids →
      Revisited start openSegment openIds move ids)
    (hlast : ∀ front move back ids, moves = front ++ move :: back → move.pinnedIds = some ids →
      openSegment ≠ some move.segment → (∀ later ∈ back, later.pinnedIds.isSome →
      later.segment ≠ move.segment) → ids ⊆ idsOf (hotRecords start move.segment)) :
    ∃ next, moves.foldlM (recoverCompaction sha256) state = some next ∧
      Redone sha256 start openSegment openIds [] next := by
  induction moves generalizing state with
  | nil => exact ⟨state, rfl, h⟩
  | cons move rest ih =>
    obtain ⟨next, hnext, hredone⟩ := h.step hpersisted (hrevisited move mem_cons_self)
      (fun ids => hlast [] move rest ids rfl)
    obtain ⟨final, hfinal, hdone⟩ := ih hredone
      (fun m hm => hrevisited m (mem_cons_of_mem _ hm))
      (fun front m back ids hsplit => hlast (move :: front) m back ids (by rw [hsplit]; rfl))
    refine ⟨final, ?_, hdone⟩
    rw [foldlM_cons, hnext]
    exact hfinal

end

end Flowness.Snapshot
