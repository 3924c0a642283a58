import Flowness.Snapshot.InterruptedMove

/-!
Archiving that stops after the event was accepted. At every stop the events of the segment are read
unchanged, and recovery ends where the uninterrupted run does, unless it redoes an older compaction
of the segment that pinned less or takes the move for one that was finalized before.
-/

namespace Flowness.Snapshot

open List Option Library Schemas Ledger Disk
open Ledger.EventIndex (idsOf)

/-- What holds at a stop: recovery brings the files to the final ones if it has its index loaded or
rebuilding leaves that as it is, a reader that scans the files covers the segment, and a reader that
covers it gets every event of it. -/
structure Converges (sha256 : Bytes → String) (moves : List ArchiveMove) (segment : Nat)
    (events : List EventRecord) (final torn : ArchiveState) : Prop where
  recovers : ∀ loaded, (loaded = true ∨ rebuildIndex sha256 torn = some torn) →
    ∃ recovered, recoverAll sha256 ⟨moves, loaded⟩ torn = some recovered ∧ recovered.Agrees final
  scans : ∃ scanned, iterCommittedRecords torn.disk = .ok scanned ∧
    Covers scanned torn segment events
  reads : ∀ warm, Covers warm torn segment events → ∀ record ∈ events,
    getEvent warm torn.cold record.eventId.val = some (some record)

section

variable {sha256 sha256OfArchive : Bytes → String} {owner : String → SegmentPath}
  {archive : Archive} {earlier : List ArchiveMove} {segment : Nat} {content : Bytes}
  {events : List EventRecord} {torn final : ArchiveState}

theorem ArchiveState.Agrees.refl (state : ArchiveState) : state.Agrees state :=
  ⟨rfl, rfl, fun _ => rfl, rfl, rfl⟩

theorem lastPinned_append_of_ne (hne : move.segment ≠ other) :
    lastPinned (earlier ++ [move]) other = lastPinned earlier other := by
  unfold lastPinned
  rw [filter_append, filter_cons_of_neg (by simpa using hne), filter_nil,
    append_nil]

theorem Interrupted.settled (hview : Interrupted archive earlier move) (next : Archive)
    (hhistory : next.history = archive.history ++ [.moved move])
    (hready : Readable archive.index → Readable next.index)
    (hkept : move.pinnedIds.isSome → Readable next.index) :
    Settled sha256 next ⟨earlier ++ [move], true⟩ := by
  have haccepted : next.accepted = archive.accepted ++ [move] := by
    rw [Archive.accepted, hhistory, filterMap_append]
    rfl
  refine ⟨?_, .inl rfl, ?_⟩
  · intro other hother
    rw [haccepted]
    rcases List.mem_append.mp hother with hmem | hmem
    · exact mem_append_left _ (hview.found hmem)
    · exact mem_append_right _ hmem
  · intro other hother pinnedIds hpinned
    by_cases hsegment : other.segment = move.segment
    · obtain ⟨kept, hkeptIds, hsub⟩ : ∃ kept, move.pinnedIds = some kept ∧ kept ⊆ pinnedIds := by
        rcases List.mem_append.mp hother with hmem | hmem
        · exact hview.same other hmem pinnedIds hpinned hsegment
        · rw [List.mem_singleton.mp hmem] at hpinned
          exact ⟨pinnedIds, hpinned, fun _ => id⟩
      refine ⟨move, kept, ?_, hkeptIds, ?_, hsub, .inr (hkept (by rw [hkeptIds]; rfl))⟩
      · rw [hhistory]
        exact (lastOp_append _ _ _).trans (if_pos hsegment.symm)
      · rw [hsegment]
        exact lastPinned_of_split rfl hkeptIds (by simp)
    · have hmem : other ∈ earlier := by
        rcases List.mem_append.mp hother with hmem | hmem
        · exact hmem
        · exact absurd (congrArg ArchiveMove.segment (List.mem_singleton.mp hmem)) hsegment
      obtain ⟨last, kept, hlast, hlastKept, hlastPinned, hsub, hindex⟩ :=
        hview.others other hmem pinnedIds hpinned hsegment
      refine ⟨last, kept, ?_, hlastKept, ?_, hsub, hindex.imp id hready⟩
      · rw [hhistory, ← hlast]
        exact (lastOp_append _ _ _).trans (if_neg fun heq => hsegment heq.symm)
      · rw [lastPinned_append_of_ne fun heq => hsegment heq.symm, hlastPinned]

theorem dropOrphanStaging_torn {routed : List String} (hsound : archive.Sound owner)
    (htorn : Torn archive.toArchiveState move.segment copy routed left pruned torn) :
    dropOrphanStaging torn (earlier ++ [move]) = torn := by
  have hstaging := ColdStore.staging_renameStagingToCold_stage hsound.files.unstaged move.segment copy
  rcases htorn.cold with hcold | hcold | hcold
  · have hstaged : torn.cold.staging = [(move.segment, copy)] := by
      rw [hcold, ColdStore.stage, hsound.files.unstaged]
      rfl
    unfold dropOrphanStaging
    rw [hstaged, filter_cons_of_pos (by simp), filter_nil, ← hstaged]
  · exact dropOrphanStaging_unstaged (by rw [hcold, hstaging]) _
  · exact dropOrphanStaging_unstaged (by rw [hcold]; exact hstaging) _

private theorem converges_of {routed : List String} (hstart : archive.toArchiveState.Sound owner)
    (hfinal : final.Sound owner)
    (hgathered : Gathered owner archive.toArchiveState segment copy held events)
    (hhot : hotRecords archive.toArchiveState segment = held)
    (hlisted : (SegmentPath.hot segment).listed = true)
    (htorn : Torn archive.toArchiveState segment copy routed final.disk pruned torn)
    (hleft : ∀ record ∈ held, record ∉ hotRecords final segment → record.eventId.val ∈ routed)
    (hkept : hotRecords final segment ⊆ held)
    (hrecovers : ∃ recovered, recoverAll sha256 ⟨moves, true⟩ torn = some recovered ∧
      recovered.Agrees final) : Converges sha256 moves segment events final torn := by
  refine ⟨fun loaded hloaded => ?_, ?_, fun warm hcovers record hrecord => ?_⟩
  · have hsame : recoverAll sha256 ⟨moves, loaded⟩ torn = recoverAll sha256 ⟨moves, true⟩ torn := by
      rcases hloaded with rfl | hcurrent
      · rfl
      · rw [recoverAll_bind, recoverAll_bind, hcurrent, ite_self, ite_self]
    rw [hsame]
    exact hrecovers
  · have hbefore := hstart.covers hlisted (hhot ▸ hgathered.kept.subset) hgathered.owned
    have hafter := hfinal.covers hlisted (fun _ hmem => hgathered.kept.subset (hkept hmem))
      hgathered.owned
    rcases htorn.disk with hdisk | ⟨hdisk, -⟩
    · obtain ⟨scanned, hscan, hcovers⟩ := hbefore
      refine ⟨scanned, by rw [hdisk, hscan], ?_, hcovers.own⟩
      rw [hotRecords, hdisk]
      exact hcovers.hot
    · obtain ⟨scanned, hscan, hcovers⟩ := hafter
      refine ⟨scanned, by rw [hdisk, hscan], ?_, hcovers.own⟩
      rw [hotRecords, hdisk]
      exact hcovers.hot
  · exact getEvent_eq hgathered.nodup hgathered.unbroken hcovers hrecord
      (hgathered.placed hstart.unstaged hhot htorn hleft hrecord)

section

variable {staged : ArchiveState} {accepted : AcceptedMove} {warm : List EventRecord} {bound : Int}
    {reachable : List String} (h : archive.Sound owner)
include h

theorem compaction_converges
    (haccept : acceptCompaction sha256OfArchive archive.toArchiveState segment warm bound reachable
      = some (staged, accepted))
    (hwhole : archive.FindsWhole (.compact segment warm bound reachable))
    (hview : Interrupted archive earlier accepted.move)
    (hrun : runSteps sha256 staged accepted.steps = some final) (done : Nat) :
    ∃ torn, runSteps sha256 staged (accepted.steps.take done) = some torn ∧
      Converges sha256 (earlier ++ [accepted.move]) segment
        (segmentEvents archive.toArchiveState segment) final torn := by
  have hstep : Archive.step sha256 sha256OfArchive archive (.compact segment warm bound reachable) =
      some { final with history := archive.history ++ [.moved accepted.move] } :=
    Archive.step_compact haccept hrun
  have hregular : archive.Regular owner (.compact segment warm bound reachable) := hwhole
  have hnext := h.step hregular hstep
  obtain ⟨content, records, copy, hsealed, hread, hrecords, hadmits, hcopy, rfl, hmove, hsteps⟩ :=
    acceptCompaction_eq haccept
  obtain ⟨hunbroken, hresolves⟩ := hwhole content hread
  obtain rfl : segmentRecords content = records := some.inj (hresolves.symm.trans hrecords)
  have hsegment : accepted.move.segment = segment := by rw [hmove]
  have hpinned : accepted.move.pinnedIds =
      some (idsOf (splitPinnedMovable (segmentRecords content) reachable).1) := by rw [hmove]
  have hgathered :=
    h.files.gathered hread hunbroken (admitsCompaction_iff.mp hadmits).1 hcopy
  have hhot : hotRecords archive.toArchiveState segment = segmentRecords content := by
    rw [hotRecords, hread, getD_some]
  rw [hsteps] at hrun ⊢
  obtain ⟨torn, htake, htorn, hdone⟩ := torn_compaction done hsegment hrun
  obtain ⟨⟨pruned, count⟩, hprune, hfinal⟩ := runSteps_finalizeCompaction hrun
  rw [hsegment] at hfinal
  have hdisk : final.disk = archive.disk.write (.hot segment)
      (recordLines (splitPinnedMovable (segmentRecords content) reachable).1) := by rw [hfinal]
  have hindex : final.index = pruned := by rw [hfinal]
  have hthin : hotRecords final segment =
      (splitPinnedMovable (segmentRecords content) reachable).1 := by
    rw [hotRecords, hdisk, read_write_self, getD_some, segmentRecords_recordLines]
  have hready := readable_of_prune h.persisted hprune
  have hreadyNext : Readable final.index := by
    rw [hindex]
    exact hready.prune h.persisted hprune
  refine ⟨torn, htake, converges_of h.files hnext.files hgathered hhot (listed_of_isSealed hsealed)
    (hdisk ▸ htorn) ?_ ?_ ?_⟩
  · intro record hrecord hout
    rw [hthin] at hout
    exact mem_idsOf (mem_movable.mpr ⟨hrecord, hout⟩)
  · rw [hthin]
    exact (pinned_sublist _ _).subset
  rcases hdone with rfl | hlog
  · have hsettled : Settled sha256 { torn with
        history := archive.history ++ [.moved accepted.move] } ⟨earlier ++ [accepted.move], true⟩ :=
      hview.settled _ rfl (fun _ => hreadyNext) (fun _ => hreadyNext)
    exact ⟨torn, hsettled.recoverAll_eq hnext, ArchiveState.Agrees.refl _⟩
  · have hstopped : StoppedCompaction sha256 owner archive segment copy (segmentRecords content)
        (segmentEvents archive.toArchiveState segment)
        (splitPinnedMovable (segmentRecords content) reachable).1
        (splitPinnedMovable (segmentRecords content) reachable).2 pruned torn :=
      { sound := h
        gathered := hgathered
        hot := by rw [hread, ← h.files.whole _ content hread]
        pins := pinned_sublist _ _
        moves := fun _ => mem_movable
        prunes := ⟨count, hprune⟩
        stopped := hindex ▸ htorn
        unfinalized := hlog }
    obtain ⟨recovered, hrecovered, hagrees⟩ := hstopped.recovered hsegment hpinned hview
    refine ⟨recovered, ?_, hfinal ▸ hagrees⟩
    have hskipped : ∀ other ∈ earlier ++ [accepted.move], other.pinnedIds = none →
        other.key ∈ torn.finalizeLog := by
      intro other hother hnone
      rcases List.mem_append.mp hother with hmem | hmem
      · rw [hlog]
        exact h.finalized other (hview.found hmem)
      · rw [List.mem_singleton.mp hmem, hpinned] at hnone
        contradiction
    rw [← hsegment] at htorn
    rw [recoverAll_bind, if_pos rfl, bind_some, recoverAfterCrash_finalized hskipped,
      bind_some, dropOrphanStaging_torn h htorn]
    exact hrecovered

theorem move_converges
    (haccept : acceptMove sha256OfArchive archive.toArchiveState segment warm bound reachable =
      some (staged, accepted))
    (hwhole : archive.FindsWhole (.moveToCold segment warm bound reachable))
    (hview : Interrupted archive earlier accepted.move)
    (hrun : runSteps sha256 staged accepted.steps = some final) (done : Nat) :
    ∃ torn, runSteps sha256 staged (accepted.steps.take done) = some torn ∧
      Converges sha256 (earlier ++ [accepted.move]) segment
        (segmentEvents archive.toArchiveState segment) final torn := by
  have hstep : Archive.step sha256 sha256OfArchive archive
      (.moveToCold segment warm bound reachable) =
        some { final with history := archive.history ++ [.moved accepted.move] } :=
    Archive.step_moveToCold haccept hrun
  obtain ⟨content, records, copy, hsealed, hread, hrecords, hadmits, hcopy, rfl, hmove, hsteps⟩ :=
    acceptMove_eq haccept
  obtain ⟨hunbroken, hresolves⟩ := hwhole content hread
  obtain rfl : segmentRecords content = records := some.inj (hresolves.symm.trans hrecords)
  have hlines := h.files.whole _ content hread
  have hregular : archive.Regular owner (.moveToCold segment warm bound reachable) := by
    intro bytes eventIds hbytes heventIds eventId hid
    cases hread.symm.trans hbytes
    rw [hlines, segmentEventIds_recordLines hunbroken] at heventIds
    rw [← some.inj heventIds] at hid
    obtain ⟨record, hrecord, rfl⟩ := List.mem_map.mp hid
    exact (h.files.owned _ content hread).owned record hrecord
  have hnext := h.step hregular hstep
  have hsegment : accepted.move.segment = segment := by rw [hmove]
  have hpinned : accepted.move.pinnedIds = none := by rw [hmove]
  have hgathered := h.files.gathered hread hunbroken (admitsMove_iff.mp hadmits).1 hcopy
  have hhot : hotRecords archive.toArchiveState segment = segmentRecords content := by
    rw [hotRecords, hread, getD_some]
  rw [hsteps] at hrun ⊢
  obtain ⟨torn, htake, htorn, hdone⟩ := torn_move done hsegment hrun
  rw [runSteps_finalizeArchive, hsegment] at hrun
  have hfinal := (some.inj hrun).symm
  have hdisk : final.disk = archive.disk.remove segment := by rw [hfinal]
  have hindex : final.index = archive.index := by rw [hfinal]
  have hempty : hotRecords final segment = [] := by
    rw [hotRecords, hdisk, read_remove_self, getD_none, segmentRecords_nil]
  have hsettled : Settled sha256 { final with
      history := archive.history ++ [.moved accepted.move] } ⟨earlier ++ [accepted.move], true⟩ := by
    refine hview.settled _ rfl (fun hready => ?_) fun hsome => ?_
    · show Readable final.index
      rw [hindex]
      exact hready
    · rw [hpinned] at hsome
      contradiction
  refine ⟨torn, htake, converges_of h.files hnext.files hgathered hhot (listed_of_isSealed hsealed)
    (hdisk ▸ htorn) (fun record hrecord _ => mem_idsOf hrecord) ?_
      ⟨final, ?_, ArchiveState.Agrees.refl _⟩⟩
  · rw [hempty]
    exact nil_subset _
  rcases hdone with rfl | hlog
  · exact hsettled.recoverAll_eq hnext
  · rw [hindex] at htorn
    have hearlier : earlier.foldlM (recoverMove sha256) torn = some torn := by
      refine recoverMoves_finalized fun other hother _ => ?_
      rw [hlog]
      exact h.finalized other (hview.found hother)
    have hlast : recoverMove sha256 torn accepted.move = some final := by
      rw [hfinal]
      exact recoverMove_stopped h hgathered (hlines ▸ hread) hsegment hpinned hview.unfinalized htorn
        hlog
    have hcrash : recoverAfterCrash sha256 torn (earlier ++ [accepted.move]) = some final := by
      rw [recoverAfterCrash, foldlM_concat hearlier hlast, map_some,
        dropOrphanStaging_unstaged hnext.files.unstaged]
    rw [recoverAll_bind, if_pos rfl, bind_some, hcrash]
    exact hsettled.recoverCompactionAfterCrash_eq hnext

end

/-- Archiving of a segment in a run whose steps meet the conditions, stopped after any of its steps
and recovered. -/
theorem interrupted_archiving_converges {labels : List Archive.Action} {action : Archive.Action}
    {staged : ArchiveState} {accepted : AcceptedMove}
    (h : Run (Archive.step sha256 sha256OfArchive) (Archive.Regular owner) .fresh labels archive)
    (haccept : archive.accept sha256OfArchive action = some (staged, accepted))
    (hwhole : archive.FindsWhole action) (hview : Interrupted archive earlier accepted.move)
    (hrun : runSteps sha256 staged accepted.steps = some final) (done : Nat) :
    ∃ torn, runSteps sha256 staged (accepted.steps.take done) = some torn ∧
      Converges sha256 (earlier ++ [accepted.move]) accepted.move.segment
        (segmentEvents archive.toArchiveState accepted.move.segment) final torn := by
  have hsound := Archive.Sound.run h
  cases action with
  | write | rebuildIndex | uncompact => contradiction
  | compact segment warm bound reachable =>
    obtain ⟨_, _, _, -, -, -, -, -, -, hmove, -⟩ := acceptCompaction_eq haccept
    have hsegment : accepted.move.segment = segment := by rw [hmove]
    rw [hsegment]
    exact compaction_converges hsound haccept hwhole hview hrun done
  | moveToCold segment warm bound reachable =>
    obtain ⟨_, _, _, -, -, -, -, -, -, hmove, -⟩ := acceptMove_eq haccept
    have hsegment : accepted.move.segment = segment := by rw [hmove]
    rw [hsegment]
    exact move_converges hsound haccept hwhole hview hrun done

end

/-- The compaction of the first of two segments stops before the hot file is thinned. -/
theorem stopped_compaction_converges : ∃ staged accepted torn,
    twoSegments.accept sampleDigest (.compact 1 [sampleRecord] 0 []) = some (staged, accepted) ∧
      runSteps sampleDigest staged (accepted.steps.take 2) = some torn ∧
      Converges sampleDigest [accepted.move] 1 (segmentEvents twoSegments.toArchiveState 1)
        compactedSegment.toArchiveState torn := by
  have hview : Interrupted twoSegments [] sampleCompaction :=
    ⟨List.nil_subset _, List.not_mem_nil, fun other hother => absurd hother List.not_mem_nil,
      fun other hother => absurd hother List.not_mem_nil⟩
  have haccept : twoSegments.accept sampleDigest (.compact 1 [sampleRecord] 0 []) = some (_, _) :=
    accept_twoSegments
  have hwhole : twoSegments.FindsWhole (.compact 1 [sampleRecord] 0 []) := regular_twoSegments
  obtain ⟨torn, htake, hconverges⟩ := interrupted_archiving_converges run_twoSegments haccept hwhole
    hview runSteps_compactedSegment 2
  exact ⟨_, _, torn, haccept, htake, hconverges⟩

private theorem recoverAll_writes_back {move : ArchiveMove} (harchive : InArchive state 1 [record])
    (hgone : state.disk.read (.hot 1) = none) (hkey : (1, "") ∈ state.finalizeLog)
    (hstaging : state.cold.staging = []) (hready : Readable state.index)
    (hmove : move.key = (1, "")) (hnone : move.pinnedIds = none) :
    ∃ recovered content, recoverAll sampleDigest ⟨[sampleCompaction, move], true⟩ state =
      some recovered ∧ recovered.disk.read (.hot 1) = some content := by
  have hcrash : recoverAfterCrash sampleDigest state [sampleCompaction, move] = some state := by
    rw [recoverAfterCrash_finalized, dropOrphanStaging_unstaged hstaging]
    intro other hother _
    rcases List.mem_cons.mp hother with rfl | hother
    · exact hkey
    · rw [List.mem_singleton.mp hother, hmove]
      exact hkey
  have hcompacted : isCompacted state sampleCompaction [] = some false := by
    unfold isCompacted
    have hread : state.disk.read (.hot sampleCompaction.segment) = none := hgone
    rw [hread, ite_self]
  obtain ⟨pruned, hprune⟩ := hready.prune_total sampleDigest (idsOf (movableOf [record] []))
  have hrenamed : InArchive (renameIfMissing state 1) 1 [record] := by
    rw [harchive.renameIfMissing_eq]
    exact harchive
  obtain ⟨next, hredo, hdisk⟩ : ∃ next, recoverCompaction sampleDigest state sampleCompaction =
      some next ∧ next.disk = state.disk.write (.hot 1) (recordLines (pinnedOf [record] [])) :=
    ⟨_, hrenamed.redo rfl hcompacted hprune, rfl⟩
  have hskip : recoverCompaction sampleDigest next move = some next := by
    rw [recoverCompaction, hnone]
  have hself : next.disk.read (.hot 1) = some (recordLines (pinnedOf [record] [])) := by
    rw [hdisk, read_write_self]
  have hfirst : [sampleCompaction].foldlM (recoverCompaction sampleDigest) state = some next := by
    rw [foldlM_cons, hredo]
    rfl
  refine ⟨next, _, ?_, hself⟩
  rw [recoverAll_bind, if_pos rfl, bind_some, hcrash, bind_some]
  exact foldlM_concat hfirst hskip

def sampleMove : ArchiveMove := { segment := 1, archiveHash := "" }

private theorem acceptMove_single {content copy : Bytes} (hsealed : isSealed state.disk 1 = true)
    (hread : state.disk.read (.hot 1) = some content)
    (hrecords : segmentRecordsBy [record] state.cold content = some [record])
    (hadmits : admitsMove [record] 0 [] = true) (hcopy : prepareArchiveToCold content = some copy) :
    acceptMove sampleDigest state 1 [record] 0 [] =
      some ({ state with cold := state.cold.stage 1 copy },
        { move := sampleMove, steps := finalizeArchive sampleMove (idsOf [record]) }) := by
  rw [acceptMove_of hsealed hread hrecords hadmits hcopy]
  rfl

private theorem not_converges {state torn : ArchiveState} {copy : Bytes} {events : List EventRecord}
    (hunbroken : Unbroken [record])
    (harchive : state.cold.archives.get 1 = some (recordLines [record]))
    (hstaging : state.cold.staging = []) (hkey : (1, "") ∈ state.finalizeLog)
    (hready : Readable state.index)
    (htorn : runSteps sampleDigest { state with
      cold := state.cold.stage 1 copy } ((finalizeArchive sampleMove (idsOf [record])).take 3) = some torn)
    {final : ArchiveState} (hfinal : final.disk.read (.hot 1) = none) :
    ¬Converges sampleDigest [sampleCompaction, sampleMove] 1 events final torn := by
  intro hconverges
  cases htorn
  have hget := ColdStore.get_archives_renameStagingToCold_stage hstaging 1 copy 1
  rw [if_pos rfl, harchive, getD_some] at hget
  have hin : InArchive ⟨state.disk.remove 1,
      ((state.cold.stage 1 copy).renameStagingToCold 1).updateIndex (idsOf [record]) 1, state.index,
      state.finalizeLog⟩ 1 [record] :=
    ⟨⟨_, hget, archiveRecords_recordLines hunbroken⟩, cons_ne_nil _ _, nodup_singleton _,
      hunbroken⟩
  obtain ⟨recovered, content, hrecovered, hread⟩ := recoverAll_writes_back hin
    (read_remove_self _ _) hkey (ColdStore.staging_renameStagingToCold_stage hstaging 1 copy)
    hready (rfl : sampleMove.key = _) rfl
  obtain ⟨other, hother, hagrees⟩ := hconverges.recovers true (.inl rfl)
  cases hrecovered.symm.trans hother
  rw [hagrees.disk, hfinal] at hread
  contradiction

/-- A segment that was compacted, brought back and moved to cold storage. -/
theorem moved_segment_written_back : ¬∀ labels archive action staged accepted final done,
    Run (Archive.step sampleDigest sampleDigest) (Archive.Regular segmentOfSample) .fresh labels
      archive → archive.accept sampleDigest action = some (staged, accepted) →
    archive.FindsWhole action → runSteps sampleDigest staged accepted.steps = some final →
    ∃ torn, runSteps sampleDigest staged (accepted.steps.take done) = some torn ∧
      Converges sampleDigest (archive.accepted ++ [accepted.move]) accepted.move.segment
        (segmentEvents archive.toArchiveState accepted.move.segment) final torn := by
  intro hclaim
  obtain ⟨scanned, hready, hrun⟩ := run_restoredSegment
  have hread : twoSegments.disk.read (.hot 1) = some (recordLines [sampleRecord]) := rfl
  have hsealed : isSealed twoSegments.disk 1 = true := by decide
  have hadmits : admitsMove [sampleRecord] 0 [] = true := by decide
  have haccept : (restoredSegment scanned).accept sampleDigest (.moveToCold 1 [sampleRecord] 0 []) =
      some (_, _) := acceptMove_single hsealed hread (segmentRecordsBy_sample _) hadmits
    (prepareArchiveToCold_unbroken unbroken_sample)
  have hwhole : (restoredSegment scanned).FindsWhole (.moveToCold 1 [sampleRecord] 0 []) := by
    intro content hcontent
    cases hread.symm.trans hcontent
    rw [segmentRecords_recordLines]
    exact ⟨unbroken_sample, segmentRecordsBy_sample _⟩
  obtain ⟨torn, htorn, hconverges⟩ := hclaim _ _ _ _ _ _ 3 hrun haccept hwhole
    (runSteps_finalizeArchive _ _ _)
  exact not_converges unbroken_sample rfl rfl (List.mem_singleton_self _) hready htorn
    (Disk.read_remove_self _ _) hconverges

end Flowness.Snapshot
