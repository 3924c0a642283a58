import Flowness.Snapshot.CompactionRedo

/-!
Recovery after operations that all completed. It compares each compaction it finds with the hot
file of today, so it tells a torn finalize from a later operation only while the segment holds what
its last compaction pinned.
-/

namespace Flowness.Snapshot

open Option List Library Schemas Ledger Disk
open Ledger.EventIndex (idsOf)

def lastPinned (moves : List ArchiveMove) (segment : Nat) : Option (List String) :=
  ((moves.filter (fun move => move.segment = segment)).filterMap ArchiveMove.pinnedIds).getLast?

/-- The last operation on the segment of a compaction is a compaction, the last that is found. What
it pins was pinned before, and if it pins less, the index has to read back for pruning it again. -/
def Retained (archive : Archive) (moves : List ArchiveMove) (move : ArchiveMove)
    (pinnedIds : List String) : Prop :=
  ∃ last kept, lastOp archive.history move.segment = some (.moved last) ∧
    last.pinnedIds = some kept ∧ lastPinned moves move.segment = some kept ∧
    kept ⊆ pinnedIds ∧ (pinnedIds ⊆ kept ∨ Readable archive.index)

/-- The instance that recovers finds accepted moves and does not rebuild an index of older content,
and every compaction that it finds is retained. -/
structure Settled (sha256 : Bytes → String) (archive : Archive) (view : RecoveryView) : Prop where
  found : view.moves ⊆ archive.accepted
  current : view.loaded = true ∨
    rebuildIndex sha256 archive.toArchiveState = some archive.toArchiveState
  compacted : ∀ move ∈ view.moves, ∀ pinnedIds, move.pinnedIds = some pinnedIds →
    Retained archive view.moves move pinnedIds

variable {state : ArchiveState}

section

variable {owner : String → SegmentPath} {archive : Archive} {segment : Nat}

theorem ArchiveState.Sound.inArchive (h : state.Sound owner)
    (hcontains : state.cold.archives.contains segment = true)
    (hread : state.disk.read (.hot segment) = some content) :
    InArchive state segment (archivedRecords state segment) ∧
      state.disk.read (.hot segment) = some (recordLines (hotRecords state segment)) ∧
      (hotRecords state segment).Sublist (archivedRecords state segment) ∧
      (∀ record ∈ archivedRecords state segment, owner record.eventId.val = .hot segment) ∧
      ∀ record ∈ archivedRecords state segment, record ∉ hotRecords state segment →
        state.cold.index.get record.eventId.val = some segment ∧ ∀ indexed,
          state.index.eventIds = some (eventIdLines indexed) →
            record.eventId.val ∉ idsOf indexed := by
  obtain ⟨copy, hcopy⟩ := isSome_iff_exists.mp hcontains
  obtain ⟨records, hshelved⟩ := h.archives segment copy hcopy
  have hrecords := hshelved.readable content hread
  have harchived : archivedRecords state segment = records := by
    rw [archivedRecords, hcopy, bind_some, hrecords, getD_some]
  have hhot : hotRecords state segment = segmentRecords content := by
    rw [hotRecords, hread, getD_some]
  rw [harchived, hhot]
  refine ⟨⟨⟨copy, hcopy, hrecords⟩, hshelved.nonempty, hshelved.owned.nodup,
    (archiveRecords_prepare_unbroken hshelved.copied hrecords).2⟩, ?_, hshelved.kept content hread,
    hshelved.owned.owned, ?_⟩
  · rw [hread, ← h.whole _ content hread]
  · intro record hrecord hout
    refine ⟨hshelved.routed content hread record hrecord hout, fun indexed hindexed hmem => ?_⟩
    rcases h.indexed with hnone | ⟨persisted, hpersisted, hplaced⟩
    · rw [hnone] at hindexed
      contradiction
    obtain rfl := eventIdLines_injective (some.inj (hpersisted.symm.trans hindexed))
    obtain ⟨other, hother, hid⟩ := mem_map.mp hmem
    have heq : other.eventId.val = record.eventId.val := hid
    have howner := hshelved.owned.owned record hrecord
    rcases hplaced other hother with ⟨bytes, hbytes, hline⟩ | ⟨number, hnumber, hgone, -⟩
    · rw [heq, howner, hread] at hbytes
      rw [← some.inj hbytes] at hline
      have hsame := eq_of_eventId hshelved.owned.nodup
        ((hshelved.kept content hread).subset hline) hrecord heq
      rw [hsame] at hline
      exact hout hline
    · rw [heq, howner] at hnumber
      rw [← SegmentPath.hot.inj hnumber, hread] at hgone
      contradiction

theorem Archive.Sound.persisted (h : archive.Sound owner) : Persisted archive.index := by
  rcases h.files.indexed with hnone | ⟨records, hrecords, -⟩
  · exact .inl hnone
  · exact .inr ⟨records, hrecords⟩

section

variable {sha256 : Bytes → String} {view : RecoveryView}

variable {moves : List ArchiveMove}

theorem Retained.revisited (hretained : Retained archive moves move pinnedIds)
    (h : archive.Sound owner) (hmove : move ∈ archive.accepted) :
    Revisited archive.toArchiveState none [] move pinnedIds ∧
      lastPinned moves move.segment =
        some (idsOf (hotRecords archive.toArchiveState move.segment)) := by
  obtain ⟨last, kept, hlast, hkept, hpinnedLast, hsub, hready⟩ := hretained
  obtain ⟨hcontains, content, hread, hids⟩ := h.compacted _ last kept hlast hkept
  obtain ⟨harchive, hhot, hheld, -, hsettled⟩ := h.files.inArchive hcontains hread
  have hhotIds : idsOf (hotRecords archive.toArchiveState move.segment) = kept := by
    rw [hotRecords, hread, getD_some, hids]
  rw [hhotIds]
  refine ⟨⟨h.finalized move hmove, harchive, hhot, hheld, fun heq => ?_, fun _ => ?_,
    fun _ => ?_, fun _ => hsettled, fun _ _ _ => not_mem_nil⟩, hpinnedLast⟩
  · contradiction
  · rw [hhotIds]
    exact hsub
  · rw [hhotIds]
    exact hready

theorem lastPinned_of_split (hsplit : moves = front ++ move :: back)
    (hpinned : move.pinnedIds = some pinnedIds)
    (hlast : ∀ later ∈ back, later.pinnedIds.isSome → later.segment ≠ move.segment) :
    lastPinned moves move.segment = some pinnedIds := by
  have hback : (back.filter (fun later => later.segment = move.segment)).filterMap
      ArchiveMove.pinnedIds = [] := by
    rw [filterMap_eq_nil_iff]
    intro later hlater
    obtain ⟨hmem, hsegment⟩ := mem_filter.mp hlater
    by_contra hne
    exact hlast later hmem (isSome_iff_ne_none.mpr hne) (of_decide_eq_true hsegment)
  rw [lastPinned, hsplit, filter_append, filter_cons_of_pos (by simp),
    filterMap_append, filterMap_cons, hpinned]
  rw [hback, List.getLast?_concat]

section

variable (hfinalized : ∀ move ∈ moves, move.pinnedIds = none → move.key ∈ state.finalizeLog)
include hfinalized

theorem recoverMoves_finalized : moves.foldlM (recoverMove sha256) state = some state := by
  induction moves with
  | nil => rfl
  | cons move moves ih =>
    have hone : recoverMove sha256 state move = some state := by
      rw [recoverMove, if_pos]
      cases hpinned : move.pinnedIds with
      | none =>
        have hkey := hfinalized move mem_cons_self hpinned
        simpa [ArchiveState.isFinalizeCompleted] using hkey
      | some pinnedIds => rfl
    rw [foldlM_cons, hone]
    exact ih (fun m hm => hfinalized m (mem_cons_of_mem _ hm))

theorem recoverAfterCrash_finalized :
    recoverAfterCrash sha256 state moves = some (dropOrphanStaging state moves) := by
  rw [recoverAfterCrash, recoverMoves_finalized hfinalized, map_some]

end

theorem dropOrphanStaging_unstaged (hstaging : state.cold.staging = []) (moves : List ArchiveMove) :
    dropOrphanStaging state moves = state := by
  unfold dropOrphanStaging
  rw [hstaging, filter_nil, ← hstaging]

theorem recoverAll_bind (sha256 : Bytes → String) (view : RecoveryView) (state : ArchiveState) :
    recoverAll sha256 view state =
      (if view.loaded then some state else rebuildIndex sha256 state).bind fun state =>
        (recoverAfterCrash sha256 state view.moves).bind fun state =>
          recoverCompactionAfterCrash sha256 state view.moves := by
  unfold recoverAll
  cases view.loaded <;> rfl

theorem Settled.recoverCompactionAfterCrash_eq (hview : Settled sha256 archive view)
    (h : archive.Sound owner) :
    recoverCompactionAfterCrash sha256 archive.toArchiveState view.moves =
      some archive.toArchiveState := by
  have hstart : Redone sha256 archive.toArchiveState none [] view.moves archive.toArchiveState := by
    refine ⟨rfl, rfl, rfl, fun _ _ => rfl, fun _ => rfl, .inl rfl, fun _ _ _ => rfl, ?_⟩
    intro move hmove hsome
    obtain ⟨pinnedIds, hpinned⟩ := isSome_iff_exists.mp hsome
    have hrev := ((hview.compacted move hmove pinnedIds hpinned).revisited h (hview.found hmove)).1
    exact ⟨_, hrev.hot, hrev.held, .inl rfl⟩
  obtain ⟨next, hnext, hdone⟩ := hstart.loop h.persisted
    (fun move hmove ids hids => ((hview.compacted move hmove ids hids).revisited h
      (hview.found hmove)).1) (by
      intro front move back ids hsplit hids _ hlater
      have hmove : move ∈ view.moves := by
        rw [hsplit]
        simp
      have hlast := ((hview.compacted move hmove ids hids).revisited h (hview.found hmove)).2
      rw [lastPinned_of_split hsplit hids hlater] at hlast
      rw [some.inj hlast]
      exact fun _ => id)
  have hdisk : next.disk = archive.disk :=
    ext_of_read fun path => hdone.files path (by simp) (by simp)
  have hindex : next.index = archive.index := by
    rcases hdone.index with heq | ⟨_, _, _, hnone, _⟩
    · exact heq
    · contradiction
  have heq : next = archive.toArchiveState := by
    have hcold := hdone.cold rfl
    have hlog := hdone.finalizeLog
    obtain ⟨disk, cold, index, finalizeLog⟩ := next
    simp only at hdisk hcold hindex hlog ⊢
    rw [hdisk, hcold, hindex, hlog]
  rw [recoverCompactionAfterCrash, hnext, heq]

theorem Settled.recoverAll_eq (hview : Settled sha256 archive view) (h : archive.Sound owner) :
    recoverAll sha256 view archive.toArchiveState = some archive.toArchiveState := by
  have hload : (if view.loaded then some archive.toArchiveState
      else rebuildIndex sha256 archive.toArchiveState) = some archive.toArchiveState := by
    rcases hview.current with hloaded | hcurrent
    · rw [if_pos hloaded]
    · rw [hcurrent, ite_self]
  have hcrash : recoverAfterCrash sha256 archive.toArchiveState view.moves =
      some archive.toArchiveState := by
    rw [recoverAfterCrash_finalized fun move hmove _ => h.finalized move (hview.found hmove),
      dropOrphanStaging_unstaged h.files.unstaged]
  rw [recoverAll_bind, hload, bind_some, hcrash, bind_some,
    hview.recoverCompactionAfterCrash_eq h]

/-- Recovery changes nothing after a run of completed operations whose last ones on compacted
segments are compactions. -/
theorem settled_recovery_changes_nothing {sha256OfArchive : Bytes → String}
    {labels : List Archive.Action}
    (h : Run (Archive.step sha256 sha256OfArchive) (Archive.Regular owner) .fresh labels archive)
    (hview : Settled sha256 archive view) :
    recoverAll sha256 view archive.toArchiveState = some archive.toArchiveState :=
  hview.recoverAll_eq (Archive.Sound.run h)

end

end

def segmentOfSample (eventId : String) : SegmentPath :=
  if eventId = "evt-1" then .hot 1 else .hot 2

def sampleDigest (_ : Bytes) : String := ""

def twoSegments : Archive :=
  { Archive.fresh with
    disk := (Disk.empty.append (.hot 1) (recordLines [sampleRecord])).append (.hot 2)
      (recordLines [followingRecord]) }

theorem run_twoSegments :
    Run (Archive.step sampleDigest sampleDigest) (Archive.Regular segmentOfSample) .fresh
      [.write true [sampleRecord], .write true [followingRecord]] twoSegments := by
  have hwhole : ∀ record : EventRecord, record.batch = none → record.isKnown = true →
      WholeWrites [record] := by
    intro record hbatch hknown
    refine ⟨[[record]], rfl, fun unit hunit => ?_⟩
    rw [mem_singleton.mp hunit]
    exact ⟨WriteUnit.direct record hbatch, fun r hr => by rw [mem_singleton.mp hr, hknown]⟩
  have hnodup : ∀ record : EventRecord, (idsOf (segmentRecords [] ++ [record])).Nodup := by
    intro record
    exact nodup_singleton _
  refine Run.cons ⟨hwhole _ rfl rfl, ?_, hnodup _⟩ rfl (Run.cons ⟨hwhole _ rfl rfl, ?_, hnodup _⟩ rfl
    Run.nil)
  · decide
  · decide

private theorem unbroken_two : Unbroken [sampleRecord, followingRecord] := by
  decide +kernel

theorem unbroken_sample : Unbroken [sampleRecord] :=
  unbroken_two.sublist (sublist_append_left [sampleRecord] [followingRecord])

theorem segmentRecordsBy_sample (store : ColdStore) :
    segmentRecordsBy [sampleRecord] store (recordLines [sampleRecord]) = some [sampleRecord] := by
  refine (Verbatim.of_unbroken unbroken_sample).segment _ _ fun record hrecord => ?_
  rw [mem_singleton.mp hrecord]
  rfl

def sampleCompaction : ArchiveMove := { segment := 1, archiveHash := "", pinnedIds := some [] }

theorem acceptCompaction_single (hsealed : isSealed state.disk 1 = true)
    (hread : state.disk.read (.hot 1) = some content)
    (hrecords : segmentRecordsBy [record] state.cold content = some [record])
    (hadmits : admitsCompaction [record] 0 [] = true)
    (hcopy : prepareArchiveToCold content = some copy) :
    acceptCompaction sampleDigest state 1 [record] 0 [] =
      some ({ state with cold := state.cold.stage 1 copy },
        { move := sampleCompaction, steps := finalizeCompaction sampleCompaction [] [record] }) := by
  have hpinned : isPinned [record] [] record = false := by
    unfold isPinned
    cases record.batchId <;> simp [pinnedBatches]
  have hsplit : splitPinnedMovable [record] [] = ([], [record]) := by
    simp [splitPinnedMovable, hpinned]
  rw [acceptCompaction_of hsealed hread hrecords hadmits hcopy, hsplit]
  rfl

theorem accept_twoSegments : acceptCompaction sampleDigest twoSegments.toArchiveState 1
    [sampleRecord] 0 [] = some
      ({ twoSegments.toArchiveState with
          cold := ColdStore.empty.stage 1 (recordLines [sampleRecord]) },
        { move := sampleCompaction
          steps := finalizeCompaction sampleCompaction [] [sampleRecord] }) := by
  have hread : twoSegments.disk.read (.hot 1) = some (recordLines [sampleRecord]) := rfl
  have hsealed : isSealed twoSegments.disk 1 = true := by decide
  have hadmits : admitsCompaction [sampleRecord] 0 [] = true := by decide
  exact acceptCompaction_single hsealed hread (segmentRecordsBy_sample _) hadmits
    (prepareArchiveToCold_unbroken unbroken_sample)

theorem regular_twoSegments :
    twoSegments.Regular segmentOfSample (.compact 1 [sampleRecord] 0 []) := by
  intro content hcontent
  have hread : twoSegments.disk.read (.hot 1) = some (recordLines [sampleRecord]) := rfl
  cases hread.symm.trans hcontent
  rw [segmentRecords_recordLines]
  exact ⟨unbroken_sample, segmentRecordsBy_sample _⟩

def compactedSegment : Archive where
  disk := twoSegments.disk.write (.hot 1) (recordLines [])
  cold :=
    { archives := [(1, recordLines [sampleRecord])], staging := [], index := [("evt-1", 1)] }
  index := IndexDir.empty
  finalizeLog := [(1, "")]
  history := [.moved sampleCompaction]

theorem runSteps_compactedSegment : runSteps sampleDigest
    { twoSegments.toArchiveState with
      cold := ColdStore.empty.stage 1 (recordLines [sampleRecord]) }
    (finalizeCompaction sampleCompaction [] [sampleRecord]) = some compactedSegment.toArchiveState :=
  rfl

theorem run_compactedSegment :
    Run (Archive.step sampleDigest sampleDigest) (Archive.Regular segmentOfSample) .fresh
      [.write true [sampleRecord], .write true [followingRecord], .compact 1 [sampleRecord] 0 []]
      compactedSegment := by
  have hstep : Archive.step sampleDigest sampleDigest twoSegments (.compact 1 [sampleRecord] 0 []) =
      some compactedSegment :=
    Archive.step_compact accept_twoSegments runSteps_compactedSegment
  exact Run.snoc run_twoSegments regular_twoSegments hstep

/-- After the compaction recovery has nothing to do. -/
theorem compacted_recovery_changes_nothing :
    recoverAll sampleDigest ⟨[sampleCompaction], true⟩ compactedSegment.toArchiveState =
      some compactedSegment.toArchiveState := by
  refine settled_recovery_changes_nothing run_compactedSegment ⟨?_, Or.inl rfl, ?_⟩
  · exact fun move hmove => hmove
  · intro move hmove pinnedIds hpinned
    obtain rfl := mem_singleton.mp hmove
    exact ⟨sampleCompaction, [], rfl, rfl, rfl, nil_subset _, Or.inl
      (Option.some.inj hpinned ▸ List.Subset.refl _)⟩

private theorem step_uncompact {archive : Archive} (hcopy : archive.cold.archives.get 1 = some copy)
    (hrecords : archiveRecords copy = some [record])
    (hdisk : archive.disk.write (.hot 1) (recordLines [record]) = disk)
    (hscan : iterCommittedRecords disk = .ok scanned) :
    Archive.step sampleDigest sampleDigest archive (.uncompact 1) = some
      { disk
        cold := archive.cold.dropSegment 1
        index := persist sampleDigest archive.index scanned
        finalizeLog := archive.finalizeLog
        history := archive.history ++ [.restored 1] } := by
  refine map_eq_some_iff.mpr ⟨⟨disk, archive.cold.dropSegment 1,
    persist sampleDigest archive.index scanned, archive.finalizeLog⟩, ?_, rfl⟩
  refine bind_eq_some_iff.mpr ⟨copy, hcopy, bind_eq_some_iff.mpr ⟨_, hrecords, ?_⟩⟩
  refine bind_eq_some_iff.mpr ⟨(), if_pos (cons_ne_nil _ _), ?_⟩
  rw [hdisk, rebuildIndex, hscan]

def restoredSegment (scanned : List EventRecord) : Archive where
  disk := twoSegments.disk
  cold := compactedSegment.cold.dropSegment 1
  index := persist sampleDigest IndexDir.empty scanned
  finalizeLog := [(1, "")]
  history := [.moved sampleCompaction, .restored 1]

theorem run_restoredSegment : ∃ scanned, Readable (restoredSegment scanned).index ∧
    Run (Archive.step sampleDigest sampleDigest) (Archive.Regular segmentOfSample) .fresh
      [.write true [sampleRecord], .write true [followingRecord], .compact 1 [sampleRecord] 0 [],
        .uncompact 1] (restoredSegment scanned) := by
  have hsound := Archive.Sound.run run_twoSegments
  obtain ⟨scanned, hscan, hmem⟩ := hsound.files.scan
  have hrestored : compactedSegment.disk.write (.hot 1) (recordLines [sampleRecord]) =
      twoSegments.disk := rfl
  have hunbroken : Unbroken scanned := by
    intro record hrecord
    have hphysical : twoSegments.disk.physicalRecords = [sampleRecord, followingRecord] := by
      have hordered : twoSegments.disk.orderedSegments = [(.base, []),
          (.hot 1, recordLines [sampleRecord]), (.hot 2, recordLines [followingRecord])] := rfl
      simp only [Disk.physicalRecords, hordered, flatMap_cons, flatMap_nil,
        segmentRecords_recordLines, segmentRecords_nil]
      rfl
    have hin := (hmem record).mp hrecord
    rw [hphysical] at hin
    exact unbroken_two record hin
  have hstep : Archive.step sampleDigest sampleDigest compactedSegment (.uncompact 1) =
      some (restoredSegment scanned) :=
    step_uncompact rfl (archiveRecords_recordLines unbroken_sample) hrestored hscan
  have hregular : compactedSegment.Regular segmentOfSample (.uncompact 1) := trivial
  refine ⟨scanned, fun content hcontent => ?_, Run.snoc run_compactedSegment hregular hstep⟩
  have hdir := (persist_spec sampleDigest IndexDir.empty scanned).1
  cases hdir.symm.trans hcontent
  exact ⟨scanned, indexedRecords_eventIdLines hunbroken⟩

private theorem recoverAll_ne (harchive : InArchive state 1 [record])
    (hhot : state.disk.read (.hot 1) = some (recordLines [record]))
    (hkey : sampleCompaction.key ∈ state.finalizeLog) (hstaging : state.cold.staging = [])
    (hready : Readable state.index) :
    recoverAll sampleDigest ⟨[sampleCompaction], true⟩ state ≠ some state := by
  intro hsame
  have hcrash : recoverAfterCrash sampleDigest state [sampleCompaction] = some state := by
    rw [recoverAfterCrash_finalized fun move hmove _ => mem_singleton.mp hmove ▸ hkey,
      dropOrphanStaging_unstaged hstaging]
  have hone : recoverCompaction sampleDigest state sampleCompaction = some state := by
    rw [recoverAll_bind, if_pos rfl, bind_some, hcrash, bind_some] at hsame
    obtain ⟨next, hnext, hdone⟩ := bind_eq_some_iff.mp hsame
    rw [hnext]
    exact hdone
  have hempty : pinnedOf [record] [] = [] := rfl
  rcases harchive.recoverCompaction_eq sampleDigest rfl hkey hhot (List.Sublist.refl _)
    (.inr hready) with ⟨hheld, -⟩ | ⟨pruned, -, hredone⟩
  · exact cons_ne_nil _ _ (hheld.trans hempty)
  · have hstate := some.inj (hredone.symm.trans hone)
    have hself : (state.disk.write (.hot 1) (recordLines (pinnedOf [record] []))).read (.hot 1) =
      some (recordLines (pinnedOf [record] [])) := read_write_self _ _ _
    have hread := (congrArg (fun state => state.disk.read (.hot 1)) hstate).symm.trans hself
    have hrecords := congrArg segmentRecords (some.inj (hhot.symm.trans hread))
    rw [segmentRecords_recordLines, segmentRecords_recordLines, hempty] at hrecords
    exact cons_ne_nil _ _ hrecords

/-- The compaction is found again when the segment has been brought back. -/
theorem uncompacted_segment_thinned_again : ¬∀ labels archive,
    Run (Archive.step sampleDigest sampleDigest) (Archive.Regular segmentOfSample) .fresh labels
      archive → recoverAll sampleDigest ⟨archive.accepted, true⟩ archive.toArchiveState =
        some archive.toArchiveState := by
  intro hclaim
  obtain ⟨scanned, hready, hrun⟩ := run_restoredSegment
  exact recoverAll_ne ⟨⟨_, rfl, archiveRecords_recordLines unbroken_sample⟩, cons_ne_nil _ _,
    nodup_singleton _, unbroken_sample⟩ rfl (mem_singleton_self _) rfl hready
    (hclaim _ _ hrun)

end Flowness.Snapshot
