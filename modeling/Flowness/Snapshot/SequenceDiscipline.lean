import Mathlib.Data.List.ReduceOption
import Flowness.Snapshot.HotOrder

/-!
The sequence discipline of a log under writers and maintenance: what the archives, the staging
copies and the runs under way hold, and what every step keeps.
-/

namespace Flowness.Snapshot

open List Library Schemas Ledger

/-! ### The invariant of the maintenance runs -/

/-- A run is on a sealed segment; what it writes back went to that segment; and once its event is
on the log, a later segment has a record. -/
structure MoveHolds (disk : Disk) (written : List (SegmentPath × List EventRecord))
    (move : SegmentMove) : Prop where
  isSealed : (SegmentPath.hot move.segment).rank < disk.activeSegmentPath.rank
  pinned : ∀ records, move.pinned = some records → Holding written (.hot move.segment) records
  anchored : move.stage.isAccepted = true → Anchored disk move.segment

/-- An archive copy that reads back holds writes of its segment. -/
def CopyHolds (written : List (SegmentPath × List EventRecord)) (segment : Nat) (copy : Bytes) :
    Prop :=
  ∀ records, archiveRecords copy = some records → Holding written (.hot segment) records

structure Archived (disk : Disk) (written : List (SegmentPath × List EventRecord))
    (cold : ColdStore) (moves : List SegmentMove) : Prop where
  staging : ∀ entry ∈ cold.staging, CopyHolds written entry.1 entry.2
  archives : ∀ entry ∈ cold.archives, Anchored disk entry.1 ∧ CopyHolds written entry.1 entry.2
  moves : ∀ move ∈ moves, MoveHolds disk written move

structure Disciplined (store : Store) : Prop where
  ordered : Ordered store.disk store.written
  archived : Archived store.disk store.written store.cold store.moves

section

variable {disk later : Disk} {written : List (SegmentPath × List EventRecord)} {cold : ColdStore}
  {moves : List SegmentMove} {move : SegmentMove}

theorem MoveHolds.mono (h : MoveHolds disk written move) (hkeeps : Keeps disk later) :
    MoveHolds later (written ++ more) move :=
  ⟨lt_of_lt_of_le h.isSealed hkeeps.active, fun records hrecords => (h.pinned records hrecords).mono,
    fun haccepted => hkeeps.anchored _ (h.anchored haccepted)⟩

section

variable (h : Archived disk written cold moves)

include h

theorem Archived.mono (hkeeps : Keeps disk later) :
    Archived later (written ++ more) cold moves := by
  refine ⟨?_, ?_, ?_⟩
  · exact fun entry hentry records hrecords => (h.staging entry hentry records hrecords).mono
  · intro entry hentry
    obtain ⟨hanchored, hcopy⟩ := h.archives entry hentry
    exact ⟨hkeeps.anchored _ hanchored, fun records hrecords => (hcopy records hrecords).mono⟩
  · exact fun move hmove => (h.moves move hmove).mono hkeeps

theorem Archived.keeps (hkeeps : Keeps disk later) : Archived later written cold moves := by
  have hmono : Archived later (written ++ []) cold moves := h.mono hkeeps
  rwa [append_nil] at hmono

theorem Archived.setMove (j : Nat) (hmove : MoveHolds disk written move) :
    Archived disk written cold (moves.set j move) := by
  refine ⟨h.staging, h.archives, ?_⟩
  intro other hother
  rcases mem_or_eq_of_mem_set hother with hmem | rfl
  · exact h.moves other hmem
  · exact hmove

theorem Archived.addMove (hmove : MoveHolds disk written move) :
    Archived disk written cold (moves ++ [move]) := by
  refine ⟨h.staging, h.archives, ?_⟩
  intro other hother
  rcases List.mem_append.mp hother with hmem | hmem
  · exact h.moves other hmem
  · rw [List.mem_singleton.mp hmem]
    exact hmove

theorem Archived.dropMove (j : Nat) :
    Archived disk written cold (moves.eraseIdx j) :=
  ⟨h.staging, h.archives, fun other hother => h.moves other (mem_of_mem_eraseIdx hother)⟩

theorem Archived.rollback (segment : Nat) :
    Archived disk written (cold.rollbackPreparedArchive segment) moves :=
  ⟨fun entry hentry => h.staging entry (mem_of_mem_filter hentry), h.archives, h.moves⟩

theorem Archived.stage {segment : Nat} {copy : Bytes} (hcopy : CopyHolds written segment copy) :
    Archived disk written (cold.stage segment copy) moves := by
  refine ⟨?_, h.archives, h.moves⟩
  intro entry hentry
  rcases Dict.mem_or_eq_of_mem_set hentry with hmem | rfl
  · exact h.staging entry hmem
  · exact hcopy

theorem Archived.rename {segment : Nat} (hanchored : Anchored disk segment) :
    Archived disk written (cold.renameStagingToCold segment) moves := by
  unfold ColdStore.renameStagingToCold
  cases hstaging : cold.staging.get segment with
  | none => exact h
  | some copy =>
    have hcopy := h.staging _ (Dict.mem_of_get hstaging)
    have hrollback := h.rollback segment
    dsimp only
    split
    · exact hrollback
    · refine ⟨hrollback.staging, ?_, h.moves⟩
      intro entry hentry
      rcases Dict.mem_or_eq_of_mem_set hentry with hmem | rfl
      · exact h.archives entry hmem
      · exact ⟨hanchored, hcopy⟩

end

private theorem guard_stage {stage other : MoveStage} {done : Unit}
    (h : (guard (stage = other) : Option Unit) = some done) : stage = other := by
  by_contra hne
  simp [hne] at h

end

/-! ### What a compaction keeps -/

section

variable {store : Store} {records : List EventRecord}

private theorem reduceOption_own {α : Type} {f : α → Option (Option α)} {xs : List α}
    {found : List (Option α)} (hown : ∀ x ∈ xs, ∀ y, f x = some (some y) → y = x)
    (h : xs.mapM f = some found) :
    found.reduceOption = xs.filter (fun x => (f x).any Option.isSome) := by
  induction xs generalizing found with
  | nil =>
    obtain rfl : [] = found := Option.some.inj h
    rfl
  | cons x xs ih =>
    rw [mapM_cons] at h
    obtain ⟨first, hfirst, h⟩ := Option.bind_eq_some_iff.mp h
    obtain ⟨rest, hrest, h⟩ := Option.bind_eq_some_iff.mp h
    obtain rfl : first :: rest = found := Option.some.inj h
    have htail := ih (fun y hy => hown y (mem_cons_of_mem _ hy)) hrest
    cases first with
    | none =>
      rw [reduceOption_cons_of_none, htail, filter_cons_of_neg (by simp [hfirst])]
    | some y =>
      rw [hown x mem_cons_self y hfirst, reduceOption_cons_of_some, htail,
        filter_cons_of_pos (by simp [hfirst])]

private theorem exists_of_mapM {α β : Type} {f : α → Option β} {xs : List α} {ys : List β}
    (h : xs.mapM f = some ys) : ∀ x ∈ xs, ∃ y, f x = some y := by
  induction xs generalizing ys with
  | nil => simp
  | cons x xs ih =>
    rw [mapM_cons] at h
    obtain ⟨first, hfirst, h⟩ := Option.bind_eq_some_iff.mp h
    obtain ⟨rest, hrest, -⟩ := Option.bind_eq_some_iff.mp h
    intro z hz
    rcases List.mem_cons.mp hz with rfl | hz
    · exact ⟨first, hfirst⟩
    · exact ih hrest z hz

theorem Store.Resolves.segmentRecordsBy (h : store.Resolves warm records) {found : List EventRecord}
    (hfound : Snapshot.segmentRecordsBy warm store.cold (recordLines records) = some found) :
    (∀ record ∈ records, ∃ answer, getEvent warm store.cold record.eventId.val = some answer) ∧
      found = records.filter (fun record =>
        (getEvent warm store.cold record.eventId.val).any Option.isSome) := by
  rw [Snapshot.segmentRecordsBy, segmentEventIds_recordLines h.unbroken, Option.bind_some,
    mapM_map] at hfound
  obtain ⟨options, hoptions, rfl⟩ := Option.map_eq_some_iff.mp hfound
  exact ⟨exists_of_mapM hoptions, reduceOption_own h.own hoptions⟩

theorem Store.Resolves.pinned (h : store.Resolves warm records) (reachable : List String)
    (hunits : ∀ unit ∈ units, WriteUnit unit) (hflatten : units.flatten = records)
    (hfound : Snapshot.segmentRecordsBy warm store.cold (recordLines records) = some found) :
    ∃ kept : List (List EventRecord), kept.Sublist units ∧
      (splitPinnedMovable found reachable).1 = kept.flatten := by
  obtain ⟨hanswers, hfilter⟩ := h.segmentRecordsBy hfound
  have hpinned : (splitPinnedMovable found reachable).1 = records.filter (fun record =>
      isPinned found reachable record &&
        (getEvent warm store.cold record.eventId.val).any Option.isSome) := by
    rw [splitPinnedMovable, partition_eq_filter_filter]
    conv_lhs => rw [hfilter]
    rw [filter_filter]
    simp only [hfilter]
  rw [hpinned, ← hflatten]
  apply filter_flatten
  -- both tests look at the batch only, apart from path-B records, which stand alone
  intro unit hunit x hx y hy
  have hwrite := hunits unit hunit
  have hbatch : x.batchId = y.batchId := by rw [hwrite.batchId hx, hwrite.batchId hy]
  cases hid : x.batchId with
  | none =>
    cases hwrite with
    | direct record _ => rw [List.mem_singleton.mp hx, List.mem_singleton.mp hy]
    | batch front sentinel batchId _ hall =>
      rw [hall x hx] at hid
      contradiction
  | some batchId =>
    have hmemx : x ∈ records := by
      rw [← hflatten]
      exact List.mem_flatten.mpr ⟨unit, hunit, hx⟩
    have hmemy : y ∈ records := by
      rw [← hflatten]
      exact List.mem_flatten.mpr ⟨unit, hunit, hy⟩
    have hsame : isPinned found reachable x = isPinned found reachable y := by
      unfold isPinned
      rw [← hbatch, hid]
    have hnone : getEvent warm store.cold x.eventId.val = some none ↔
        getEvent warm store.cold y.eventId.val = some none := by
      refine ⟨h.batch x hmemx y hmemy hbatch (by rw [hid]; rfl), ?_⟩
      exact h.batch y hmemy x hmemx hbatch.symm (by rw [← hbatch, hid]; rfl)
    obtain ⟨found, hx⟩ := hanswers x hmemx
    obtain ⟨other, hy⟩ := hanswers y hmemy
    rw [hx, hy, Option.some.injEq, Option.some.injEq] at hnone
    simp only [hsame, hx, hy, Option.any_some]
    cases found with
    | none => rw [hnone.mp rfl]
    | some record =>
      cases other with
      | none => exact absurd (hnone.mpr rfl) (by simp)
      | some record' => rfl

end

/-! ### Steps -/

section

variable {env : ArchiveEnv} {store next : Store}

theorem disciplined_fresh : Disciplined Store.fresh := by
  have hnone : ∀ path, Store.fresh.disk.recordsAt path = [] := by
    intro path
    unfold Disk.recordsAt
    cases path with
    | base => exact segmentRecords_nil
    | hot number =>
      split
      · exact segmentRecords_nil
      · rfl
  constructor
  · refine ⟨?_, ?_, ?_, ?_, List.Pairwise.nil, ?_, ?_, List.Pairwise.nil⟩
    · intro path _
      rw [hnone]
      cases path with
      | base => rfl
      | hot number => rfl
    · intro path
      rw [hnone]
      exact Holding.nil
    all_goals
      intro entry hentry
      simp [Store.fresh] at hentry
  · refine ⟨?_, ?_, ?_⟩
    all_goals
      intro entry hentry
      simp [Store.fresh, ColdStore.empty] at hentry

private theorem placed_eq (hprepared : Prepared log store.disk write)
    (hflatten : units.flatten = write.records) :
    store.placed log units = placedAt write.target units := by
  unfold Store.placed
  rw [hflatten, hprepared.target]
  rfl

theorem Disciplined.returns (h : Disciplined store) (i : Nat) (log' : EventLog)
    (hprepared : Prepared log store.disk write) (hflatten : units.flatten = write.records)
    (hunits : ∀ unit ∈ units, WriteUnit unit) (hfresh : store.Fresh units) :
    Disciplined (store.returns i log log' (write.commit store.disk) units) := by
  unfold Store.returns
  rw [placed_eq hprepared hflatten]
  exact ⟨h.ordered.commit hprepared hflatten hunits hfresh,
    h.archived.mono (h.ordered.keeps_commit hprepared)⟩

/-- One write put the records on disk, as one unit under a batch id that is new. -/
def WritesUnit (store : Store) (log : EventLog) (disk : Disk) (records : List EventRecord) : Prop :=
  ∃ write, Prepared log store.disk write ∧ WriteUnit write.records ∧ store.Fresh [write.records] ∧
    disk = write.commit store.disk ∧ records = write.records

private theorem fresh_direct (h : record.batch = none) :
    DistinctBatches (store.written.map Prod.snd) → store.Fresh [[record]] := by
  intro hdistinct
  unfold Store.Fresh DistinctBatches
  rw [pairwise_append]
  refine ⟨hdistinct, pairwise_singleton _ _, ?_⟩
  intro unit _ other hother batchId _
  rw [List.mem_singleton.mp hother]
  simp [batchIdOf, EventRecord.batchId, h]

section

variable {right left : List (List EventRecord)}
  (h : left.map (List.map shape) = right.map (List.map shape))

include h

private theorem distinct_of_shape (hdistinct : DistinctBatches (front ++ left)) :
    DistinctBatches (front ++ right) := by
  have hids : left.map batchIdOf = right.map batchIdOf := by
    clear hdistinct
    induction left generalizing right with
    | nil => rw [List.map_eq_nil_iff.mp h.symm]
    | cons unit units ih =>
      cases right with
      | nil => simp at h
      | cons unit' units' =>
        simp only [map_cons, List.cons.injEq] at h ⊢
        exact ⟨batchIdOf_of_shape h.1, ih h.2⟩
  have hmap : ∀ units : List (List EventRecord), DistinctBatches units ↔
      (units.map batchIdOf).Pairwise (fun left right => ∀ batchId, left = some batchId →
        right ≠ some batchId) := by
    intro units
    rw [pairwise_map]
    rfl
  rw [hmap, map_append] at hdistinct ⊢
  rw [← hids]
  exact hdistinct

private theorem fresh_of_shape (hfresh : store.Fresh left) :
    store.Fresh right := distinct_of_shape h hfresh

private theorem writeUnits_of_shape (hunits : ∀ unit ∈ left, WriteUnit unit) :
    ∀ unit ∈ right, WriteUnit unit := by
  intro unit hunit
  have hmem := mem_map_of_mem (f := List.map shape) hunit
  rw [← h] at hmem
  obtain ⟨other, hother, heq⟩ := List.mem_map.mp hmem
  exact writeUnit_of_shape heq (hunits other hother)

end

section

variable {disk : Disk} {records : List EventRecord}

private theorem appendsBatch (hfresh : store.Fresh [batch.events])
    (hwrite : appendTransactionBatch env.toWriterEnv log store.disk batch =
      .ok (log', disk, records)) : WritesUnit store log disk records := by
  obtain ⟨write, hprepare, rfl, rfl⟩ := appendTransactionBatch_ok env.toWriterEnv hwrite
  obtain ⟨hprepared, hrecords⟩ := prepareBatch_spec env.toWriterEnv hprepare
  refine ⟨write, hprepared, writeUnit_batch hprepare, ?_, rfl, rfl⟩
  apply fresh_of_shape _ hfresh
  rw [hrecords]
  simp [shape_reseqFrom]

variable (h : Disciplined store)
include h

private theorem Disciplined.writesDirect
    (hwrite : Ledger.writeDirect env.toWriterEnv log store.disk intent eventId timestamp =
      .ok (log', disk, records)) : WritesUnit store log disk records := by
  obtain ⟨write, hprepare, rfl, rfl⟩ := writeDirect_ok env.toWriterEnv hwrite
  obtain ⟨hprepared, hrecords⟩ := prepareDirect_spec env.toWriterEnv hprepare
  refine ⟨write, hprepared, writeUnit_direct hprepare, ?_, rfl, rfl⟩
  rw [hrecords]
  exact fresh_direct rfl h.ordered.distinct

theorem Disciplined.returnsUnit (hwrites : WritesUnit store log disk records) (i : Nat)
    (log' : EventLog) : Disciplined (store.returns i log log' disk [records]) := by
  obtain ⟨write, hprepared, hunit, hfresh, rfl, rfl⟩ := hwrites
  exact h.returns i log' hprepared (by simp) (by simpa using hunit) hfresh

theorem Disciplined.accepts (hwrites : WritesUnit store log disk records) (i j : Nat)
    (log' : EventLog) {move : SegmentMove} (hmove : store.moves[j]? = some move) :
    Disciplined ((store.returns i log log' disk [records]).setMove j { move with stage }) := by
  have hmem := mem_of_getElem? hmove
  have hreturns := h.returnsUnit hwrites i log'
  obtain ⟨write, hprepared, hunit, -, rfl, rfl⟩ := hwrites
  have hold := h.archived.moves move hmem
  have hkept := hreturns.archived.moves move hmem
  refine ⟨hreturns.ordered, hreturns.archived.setMove j ⟨hkept.isSealed, hkept.pinned, fun _ => ?_⟩⟩
  exact h.ordered.anchored_commit hprepared hunit.ne_nil hold.isSealed

private theorem Disciplined.heldAt {move : SegmentMove} {j : Nat} (hmove : store.moves[j]? = some move)
    (hstage : (guard (move.stage = stage) : Option Unit) = some done)
    (haccepted : stage.isAccepted = true) :
    MoveHolds store.disk store.written move ∧ Anchored store.disk move.segment := by
  have hold := h.archived.moves move (mem_of_getElem? hmove)
  exact ⟨hold, hold.anchored (by rw [guard_stage hstage, haccepted])⟩

private theorem Disciplined.merge {foreign : List EventRecord}
    (hclean : store.CleanStep (.merge i foreign))
    (hstep : Store.step env store (.merge i foreign) = some next) : Disciplined next := by
  obtain ⟨log, hlog, hresult⟩ := Option.bind_eq_some_iff.mp hstep
  split at hresult
  · cases hresult
    exact h
  next log' disk result hmerge =>
    obtain ⟨hwhole, hfresh⟩ := hclean log hlog
    cases hresult
    rcases mergeForeignEvents_ok env.toWriterEnv hmerge with
      ⟨hnone, rfl, rfl⟩ | ⟨write, hprepared, rfl, hrecords, hbase, -⟩
    · -- nothing was new, so nothing was written
      have hplaced : store.placed log' [] = [] := by
        unfold Store.placed
        split
        · rfl
        · simp
      rw [hnone]
      refine ⟨?_, ?_⟩
      · show Ordered store.disk (store.written ++ store.placed log' [])
        rw [hplaced, append_nil]
        exact h.ordered
      · exact h.archived.mono (Keeps.refl _)
    · have hshape : (batchRuns (selectForeign log.eventIdSet foreign).1).map (List.map shape) =
          (batchRuns write.records).map (List.map shape) := by
        apply batchRuns_of_shape
        rw [hrecords, shape_reseqFrom]
      rw [hbase, Int.toNat_natCast, ← hrecords]
      exact h.returns i log' hprepared (flatten_batchRuns _) (writeUnits_of_shape hshape hwhole)
        (fresh_of_shape hshape hfresh)

private theorem Disciplined.plan {segment : Nat} (hsealed : isSealed store.disk segment = true)
    (eventIds : List String) (hstage : stage.isAccepted = false) :
    Disciplined { store with moves := store.moves ++ [{ segment, stage, eventIds }] } :=
  ⟨h.ordered, h.archived.addMove ⟨rank_lt_active_of_isSealed hsealed, by simp, by simp [hstage]⟩⟩

private theorem Disciplined.select (hclean : store.CleanStep (.select j warm reachable))
    (hstep : Store.step env store (.select j warm reachable) = some next) : Disciplined next := by
  obtain ⟨move, hmove, hresult⟩ := Option.bind_eq_some_iff.mp hstep
  obtain ⟨-, -, hresult⟩ := Option.bind_eq_some_iff.mp hresult
  split at hresult
  · cases hresult
    exact h
  · cases hresult
    exact h
  next found _ hfound =>
    have hold := h.archived.moves move (mem_of_getElem? hmove)
    obtain ⟨content, hread, hfound⟩ := Option.bind_eq_some_iff.mp hfound
    have hwhole := h.ordered.whole _ (listed_of_lt_active hold.isSealed)
    rw [hread, Option.getD_some] at hwhole
    obtain ⟨units, hsub, hflatten⟩ := h.ordered.held (.hot move.segment)
    have hunits : ∀ unit ∈ units, WriteUnit unit :=
      fun unit hunit => h.ordered.units _ (mem_unitsAt.mp (hsub.subset hunit))
    rw [hwhole] at hfound
    obtain ⟨kept, hkept, hpinned⟩ :=
      (hclean move hmove).pinned reachable hunits hflatten hfound
    cases hresult
    refine ⟨h.ordered, h.archived.setMove j ⟨hold.isSealed, ?_, by simp [MoveStage.isAccepted]⟩⟩
    intro records hrecords
    exact ⟨kept, hkept.trans hsub, hpinned.symm.trans (Option.some.inj hrecords)⟩

private theorem Disciplined.prepare (hstep : Store.step env store (.prepare j) = some next) :
    Disciplined next := by
  obtain ⟨move, hmove, hresult⟩ := Option.bind_eq_some_iff.mp hstep
  obtain ⟨-, -, hresult⟩ := Option.bind_eq_some_iff.mp hresult
  split at hresult
  · cases hresult
    exact h
  next content hread =>
    split at hresult
    · cases hresult
      exact h
    next copy hcopy =>
      have hold := h.archived.moves move (mem_of_getElem? hmove)
      have hwhole := h.ordered.whole _ (listed_of_lt_active hold.isSealed)
      rw [hread, Option.getD_some] at hwhole
      rw [hwhole] at hcopy
      have hholds : CopyHolds store.written move.segment copy := by
        intro records hrecords
        rw [archiveRecords_prepare hcopy hrecords]
        exact h.ordered.held _
      cases hresult
      exact ⟨h.ordered, (h.archived.stage hholds).setMove j
        ⟨hold.isSealed, hold.pinned, by simp [MoveStage.isAccepted]⟩⟩

private theorem Disciplined.commitMove {batch : TransactionBatch}
    (hfresh : store.Fresh [batch.events])
    (hstep : Store.step env store (.commitMove j i batch) = some next) : Disciplined next := by
  obtain ⟨move, hmove, hresult⟩ := Option.bind_eq_some_iff.mp hstep
  obtain ⟨log, hlog, hresult⟩ := Option.bind_eq_some_iff.mp hresult
  obtain ⟨-, -, hresult⟩ := Option.bind_eq_some_iff.mp hresult
  split at hresult
  · cases hresult
    exact h
  next log' disk records hwrite =>
    dsimp only at hresult
    split at hresult
    · cases hresult
      exact h.accepts (appendsBatch hfresh hwrite) i j log' hmove
    · have hreturns := h.returnsUnit (appendsBatch hfresh hwrite) i log'
      cases hresult
      exact ⟨hreturns.ordered, (hreturns.archived.rollback _).dropMove j⟩

private theorem Disciplined.finish (hstep : Store.step env store (.finish j) = some next) :
    Disciplined next := by
  obtain ⟨move, hmove, hresult⟩ := Option.bind_eq_some_iff.mp hstep
  obtain ⟨_, hstage, hresult⟩ := Option.bind_eq_some_iff.mp hresult
  obtain ⟨hold, hanchored⟩ := h.heldAt hmove hstage rfl
  have hfinish : Ordered (Store.finishHot store.disk move) store.written ∧
      Keeps store.disk (Store.finishHot store.disk move) := by
    unfold Store.finishHot
    cases hpinned : move.pinned with
    | none => exact h.ordered.unlink hanchored
    | some pinned => exact h.ordered.rewrite hanchored (hold.pinned pinned hpinned)
  cases hresult
  exact ⟨hfinish.1, (h.archived.keeps hfinish.2).dropMove j⟩

private theorem Disciplined.restore {segment : Nat}
    (hstep : Store.step env store (.restore segment) = some next) : Disciplined next := by
  simp only [Store.step] at hstep
  split at hstep
  · split at hstep
    · cases hstep
      exact h
    · cases hstep
      exact h
    next hcontains _ records _ hrecords =>
      have harchive : ∃ copy, (segment, copy) ∈ store.cold.archives ∧
          archiveRecords copy = some records := by
        unfold coldRecordsForSegment at hrecords
        cases hget : store.cold.archives.get segment with
        | none => simp [Dict.contains, hget] at hcontains
        | some copy =>
          rw [hget] at hrecords
          exact ⟨copy, Dict.mem_of_get hget, hrecords⟩
      obtain ⟨copy, hmem, hread⟩ := harchive
      obtain ⟨hanchored, hcopy⟩ := h.archived.archives _ hmem
      obtain ⟨hordered, hkeeps⟩ := h.ordered.rewrite hanchored (hcopy records hread)
      cases hstep
      exact ⟨hordered, h.archived.keeps hkeeps⟩
  · cases hstep
    exact h

theorem Disciplined.step {action : Store.Action} (hclean : store.CleanStep action)
    (hstep : Store.step env store action = some next) : Disciplined next := by
  cases action with
  | openLog log =>
    cases hstep
    exact ⟨h.ordered, h.archived⟩
  | writeDirect i intent eventId timestamp =>
    obtain ⟨log, hlog, hresult⟩ := Option.bind_eq_some_iff.mp hstep
    split at hresult
    · cases hresult
      exact h
    next log' disk records hwrite =>
      cases hresult
      exact h.returnsUnit (h.writesDirect hwrite) i log'
  | appendBatch i batch =>
    obtain ⟨log, hlog, hresult⟩ := Option.bind_eq_some_iff.mp hstep
    split at hresult
    · cases hresult
      exact h
    next log' disk records hwrite =>
      cases hresult
      exact h.returnsUnit (appendsBatch hclean hwrite) i log'
  | merge i foreign => exact h.merge hclean hstep
  | recover i active =>
    obtain ⟨log, hlog, hresult⟩ := Option.bind_eq_some_iff.mp hstep
    rw [h.ordered.recoverAt log active.property] at hresult
    cases hresult
    exact ⟨h.ordered, h.archived⟩
  | planCompaction segment warm bound reachable | planMove segment warm bound reachable =>
    simp only [Store.step] at hstep
    split at hstep
    · cases hstep
      exact h
    · split at hstep
      next hadmits =>
        cases hstep
        exact h.plan (Bool.and_eq_true_iff.mp hadmits).1 _ rfl
      · cases hstep
        exact h
  | select j warm reachable => exact h.select hclean hstep
  | tombstone j i intent eventId timestamp =>
    obtain ⟨move, hmove, hresult⟩ := Option.bind_eq_some_iff.mp hstep
    obtain ⟨log, hlog, hresult⟩ := Option.bind_eq_some_iff.mp hresult
    obtain ⟨-, -, hresult⟩ := Option.bind_eq_some_iff.mp hresult
    split at hresult
    · cases hresult
      exact h
    next log' disk records hwrite =>
      cases hresult
      exact h.accepts (h.writesDirect hwrite) i j log' hmove
  | prepare j => exact h.prepare hstep
  | commitMove j i batch => exact h.commitMove hclean hstep
  | verify j =>
    obtain ⟨move, hmove, hresult⟩ := Option.bind_eq_some_iff.mp hstep
    obtain ⟨_, hstage, hresult⟩ := Option.bind_eq_some_iff.mp hresult
    obtain ⟨hold, hanchored⟩ := h.heldAt hmove hstage rfl
    split at hresult
    · cases hresult
      exact ⟨h.ordered, h.archived.setMove j ⟨hold.isSealed, hold.pinned, fun _ => hanchored⟩⟩
    · cases hresult
      exact ⟨h.ordered, (h.archived.rollback _).dropMove j⟩
  | rename j =>
    obtain ⟨move, hmove, hresult⟩ := Option.bind_eq_some_iff.mp hstep
    obtain ⟨_, hstage, hresult⟩ := Option.bind_eq_some_iff.mp hresult
    obtain ⟨hold, hanchored⟩ := h.heldAt hmove hstage rfl
    cases hresult
    exact ⟨h.ordered, (h.archived.rename hanchored).setMove j
      ⟨hold.isSealed, hold.pinned, fun _ => hanchored⟩⟩
  | route j =>
    obtain ⟨move, hmove, hresult⟩ := Option.bind_eq_some_iff.mp hstep
    obtain ⟨_, hstage, hresult⟩ := Option.bind_eq_some_iff.mp hresult
    obtain ⟨hold, hanchored⟩ := h.heldAt hmove hstage rfl
    have harchived : Archived store.disk store.written
        (store.cold.updateIndex move.eventIds move.segment) store.moves :=
      ⟨h.archived.staging, h.archived.archives, h.archived.moves⟩
    cases hresult
    exact ⟨h.ordered, harchived.setMove j ⟨hold.isSealed, hold.pinned, fun _ => hanchored⟩⟩
  | finish j => exact h.finish hstep
  | restore segment => exact h.restore hstep
  | dropRouting segment =>
    cases hstep
    exact ⟨h.ordered, h.archived.staging, h.archived.archives, h.archived.moves⟩

end

end

/-! ### The discipline -/

section

variable {disk : Disk} {written : List (SegmentPath × List EventRecord)}

/-- The records of one batch stand together, in one segment, all of them or none. -/
structure Contiguous (disk : Disk) (written : List (SegmentPath × List EventRecord))
    (batchId : String) (path : SegmentPath) (run : List EventRecord) : Prop where
  elsewhere : ∀ q, q ≠ path → ∀ record ∈ disk.recordsAt q, record.batchId ≠ some batchId
  here : ∃ front back, disk.recordsAt path = front ++ run ++ back ∧
    ∀ record ∈ front ++ back, record.batchId ≠ some batchId
  members : ∀ record ∈ run, record.batchId = some batchId
  whole : run = [] ∨ (path, run) ∈ written

private theorem batchId_ne {units : List (List EventRecord)} {batchId : String} (hunits :
    ∀ other ∈ units, WriteUnit other ∧ batchIdOf other ≠ some batchId) :
    ∀ record ∈ units.flatten, record.batchId ≠ some batchId := by
  intro record hrecord
  obtain ⟨other, hother, hmem⟩ := List.mem_flatten.mp hrecord
  rw [(hunits other hother).1.batchId hmem]
  exact (hunits other hother).2

theorem Ordered.contiguous (h : Ordered disk written) (batchId : String) :
    ∃ path run, Contiguous disk written batchId path run := by
  by_cases hany : ∃ path, ∃ record ∈ disk.recordsAt path, record.batchId = some batchId
  · obtain ⟨path, record, hrecord, hid⟩ := hany
    obtain ⟨units, hsub, hflatten⟩ := h.held path
    rw [← hflatten] at hrecord
    obtain ⟨unit, hunit, hmem⟩ := List.mem_flatten.mp hrecord
    have hwrites : ∀ other ∈ units, (path, other) ∈ written :=
      fun other hother => mem_unitsAt.mp (hsub.subset hother)
    have hunitId : batchIdOf unit = some batchId := by
      rw [← (h.units _ (hwrites unit hunit)).batchId hmem]
      exact hid
    have hdistinct := h.distinct
    unfold DistinctBatches at hdistinct
    rw [pairwise_map] at hdistinct
    -- no other write carries the batch id
    obtain ⟨front, back, rfl⟩ := append_of_mem hunit
    have hpairs : (front ++ unit :: back).Pairwise (fun left right => ∀ batchId,
        batchIdOf left = some batchId → batchIdOf right ≠ some batchId) := by
      apply List.Pairwise.sublist hsub
      unfold unitsAt
      rw [pairwise_map]
      exact hdistinct.filter _
    rw [pairwise_append, pairwise_cons] at hpairs
    obtain ⟨-, ⟨hafter, -⟩, hbefore⟩ := hpairs
    have hothers : ∀ other ∈ front ++ back, WriteUnit other ∧ batchIdOf other ≠ some batchId := by
      intro other hother
      rcases List.mem_append.mp hother with hmem | hmem
      · refine ⟨h.units _ (hwrites other (mem_append_left _ hmem)), fun hsame => ?_⟩
        exact hbefore other hmem unit mem_cons_self batchId hsame hunitId
      · refine ⟨h.units _ (hwrites other (by simp [hmem])), fun hsame => ?_⟩
        exact hafter other hmem batchId hunitId hsame
    refine ⟨path, unit, ?_, ⟨front.flatten, back.flatten, ?_, ?_⟩, ?_, .inr (hwrites unit hunit)⟩
    · intro q hq other hother hsame
      obtain ⟨foreign, hforeign, hmemForeign⟩ := mem_of_recordsAt h hother
      have hne : (path, unit) ≠ (q, foreign) := fun heq => hq (Prod.mk.inj heq).1.symm
      have hforeignId : batchIdOf foreign = some batchId := by
        rw [← (h.units _ hforeign).batchId hmemForeign]
        exact hsame
      rcases related_of_ne hdistinct (hwrites unit hunit) hforeign hne with hdiff | hdiff
      · exact hdiff batchId hunitId hforeignId
      · exact hdiff batchId hforeignId hunitId
    · rw [← hflatten, flatten_append, flatten_cons, append_assoc]
    · rw [← flatten_append]
      exact batchId_ne hothers
    · intro other hother
      rw [(h.units _ (hwrites unit hunit)).batchId hother]
      exact hunitId
  · have hnone : ∀ path, ∀ record ∈ disk.recordsAt path, record.batchId ≠ some batchId :=
      fun path record hrecord hid => hany ⟨path, record, hrecord, hid⟩
    refine ⟨.base, [], fun q _ => hnone q, ⟨disk.recordsAt .base, [], by simp, ?_⟩, by simp,
      .inl rfl⟩
    rw [append_nil]
    exact hnone .base

theorem Ordered.yields_written (h : Ordered disk written) {records : List EventRecord}
    (hscan : iterCommittedRecords disk = .ok records) :
    ∀ record ∈ records, ∃ entry ∈ written, record ∈ entry.2 := by
  intro record hrecord
  obtain ⟨path, hmem⟩ := Disk.mem_physicalRecords.mp (h.physical.yields_physical hscan record hrecord)
  obtain ⟨unit, hunit, hin⟩ := mem_of_recordsAt h hmem
  exact ⟨_, hunit, hin⟩

end

/-- In every run of clean steps: sequence numbers increase in physical order, the reverse scan finds
the largest of them, the next write stays clear of every record that was ever visible, and the
records of a batch stand together in one segment. -/
theorem sequence_discipline {env : ArchiveEnv} {store : Store} {actions : List Store.Action}
    (hrun : Run (Store.step env) Store.CleanStep Store.fresh actions store) :
    (store.disk.physicalRecords.map EventRecord.sequenceNumber).Pairwise (· < ·) ∧
      readMaxSeqOnDisk store.disk = .ok (maxSequence store.disk.physicalRecords) ∧
      (∀ records, iterCommittedRecords store.disk = .ok records →
        ∀ record ∈ records, ∃ entry ∈ store.written, record ∈ entry.2) ∧
      (∀ base, nextBase store.disk = .ok base →
        ∀ entry ∈ store.written, ∀ record ∈ entry.2, record.sequenceNumber < base) ∧
      ∀ batchId, ∃ path run, Contiguous store.disk store.written batchId path run := by
  have h : Disciplined store :=
    hrun.invariant disciplined_fresh (fun _ _ _ h hclean hstep => h.step hclean hstep)
  refine ⟨h.ordered.physical.increasing, h.ordered.physical.readMaxSeqOnDisk_eq,
    fun records hscan => h.ordered.yields_written hscan, ?_, h.ordered.contiguous⟩
  intro base hbase entry hentry record hrecord
  obtain ⟨path, last, hlast, hle⟩ := h.ordered.top entry hentry record hrecord
  exact lt_of_le_of_lt hle (h.ordered.physical.lt_nextBase hbase path last hlast)

/-! ### Copies of one event -/

def sampleArchiveEnv : ArchiveEnv :=
  { sampleEnv with sha256OfFile := fun _ => "sha256", sha256OfArchive := fun _ => "sha256" }

def copyOf (eventId : EventId) (sequenceNumber : Nat) : EventRecord :=
  stamp sampleEnv sampleIntent eventId sampleTime sequenceNumber none

def otherId : EventId := secondId

def copiesAt (base : Nat) : List EventRecord := [copyOf sampleId base, copyOf otherId (base + 1)]

def smallLog : EventLog := { segmentMaxEvents := 2 }

private theorem copiesAt_eq (base : Nat) :
    reseqFrom sampleEnv base (copiesAt 0) = copiesAt base := by
  have hreseq : ∀ eventId old new, reseq sampleEnv (copyOf eventId old) new = copyOf eventId new := by
    intro eventId old new
    unfold reseq
    split
    next h =>
      rw [← h]
      rfl
    · rfl
  unfold copiesAt
  rw [reseqFrom, reseqFrom, reseqFrom, hreseq, hreseq]

private theorem selectForeign_copies : selectForeign [] (copiesAt 0) = (copiesAt 0, []) := by
  decide +kernel

private theorem batchRuns_copies (base : Nat) :
    batchRuns (copiesAt base) = [[copyOf sampleId base], [copyOf otherId (base + 1)]] := rfl

def rememberCopies (base : Nat) : EventLog :=
  { smallLog with
    nextSequence := base + 2, eventIdSet := (copiesAt base).map (·.eventId.val) ++ smallLog.eventIdSet }

private theorem merge_copies {disk : Disk} (hbase : nextBase disk = .ok base)
    (htarget : writeTarget smallLog disk 2 = .ok target) :
    mergeForeignEvents sampleEnv smallLog disk (copiesAt 0) =
      .ok (rememberCopies base, disk.append target (recordLines (copiesAt base)),
        { mergedEventIds := (copiesAt base).map (·.eventId.val), skippedDuplicateEventIds := [],
          baseSequence := base, appendedCount := 2 }) :=
  mergeForeignEvents_eq sampleEnv hbase selectForeign_copies (copiesAt_eq base) (cons_ne_nil _ _)
    htarget

private theorem maxSequence_copies (base : Nat) : maxSequence (copiesAt base) = (base : Int) + 1 := by
  show max (max (-1) (base : Int)) ((base + 1 : Nat) : Int) = (base : Int) + 1
  omega

def oneCopy : Disk :=
  { base := some (recordLines (copiesAt 0)), hot := [], sorted := ascending_nil }

def twoCopies : Disk := { oneCopy with hot := [(1, recordLines (copiesAt 2))], sorted := by decide }

def threeCopies : Disk :=
  { oneCopy with
    hot := [(1, recordLines (copiesAt 2)), (2, recordLines (copiesAt 4))], sorted := by decide }

def openStore : Store := { Store.fresh with logs := [smallLog, smallLog, smallLog] }

def mergeOnce : Store :=
  openStore.returns 0 smallLog (rememberCopies 0) oneCopy (batchRuns (copiesAt 0))

def mergeTwice : Store :=
  mergeOnce.returns 1 smallLog (rememberCopies 2) twoCopies (batchRuns (copiesAt 2))

def mergeThrice : Store :=
  mergeTwice.returns 2 smallLog (rememberCopies 4) threeCopies (batchRuns (copiesAt 4))

private theorem step_merge {store : Store} {i base : Nat} (target : SegmentPath)
    (hlog : store.logs[i]? = some smallLog) (hbase : nextBase store.disk = .ok base)
    (htarget : writeTarget smallLog store.disk 2 = .ok target) :
    Store.step sampleArchiveEnv store (.merge i (copiesAt 0)) =
      some (store.returns i smallLog (rememberCopies base)
        (store.disk.append target (recordLines (copiesAt base))) (batchRuns (copiesAt base))) := by
  have hmerge : mergeForeignEvents sampleArchiveEnv.toWriterEnv smallLog store.disk (copiesAt 0) =
      _ := merge_copies hbase htarget
  have hselect : selectForeign smallLog.eventIdSet (copiesAt 0) = (copiesAt 0, []) :=
    selectForeign_copies
  have hrecords : reseqFrom sampleArchiveEnv.toWriterEnv base (copiesAt 0) = copiesAt base :=
    copiesAt_eq base
  unfold Store.step
  simp [hlog, hmerge, hselect, hrecords]

private theorem step_mergeOnce :
    Store.step sampleArchiveEnv openStore (.merge 0 (copiesAt 0)) = some mergeOnce := by
  rfl

private theorem step_mergeTwice :
    Store.step sampleArchiveEnv mergeOnce (.merge 1 (copiesAt 0)) = some mergeTwice := by
  have hlast : (oneCopy.orderedSegments.map Prod.snd).reverse = [recordLines (copiesAt 0)] := rfl
  have hactive : oneCopy.read oneCopy.activeSegmentPath = some (recordLines (copiesAt 0)) := rfl
  exact step_merge (.hot 1) rfl (nextBase_of_last hlast (maxSequence_copies 0))
    (writeTarget_rotates hactive (by simp [copiesAt]) (by decide))

private theorem step_mergeThrice :
    Store.step sampleArchiveEnv mergeTwice (.merge 2 (copiesAt 0)) = some mergeThrice := by
  have hlast : (twoCopies.orderedSegments.map Prod.snd).reverse =
      [recordLines (copiesAt 2), recordLines (copiesAt 0)] := rfl
  have hactive : twoCopies.read twoCopies.activeSegmentPath = some (recordLines (copiesAt 2)) := rfl
  exact step_merge (.hot 2) rfl (nextBase_of_last hlast (maxSequence_copies 2))
    (writeTarget_rotates hactive (by simp [copiesAt]) (by decide))

/-- The discipline after one merge. -/
theorem merge_keeps_discipline :
    (mergeOnce.disk.physicalRecords.map EventRecord.sequenceNumber).Pairwise (· < ·) ∧
      readMaxSeqOnDisk mergeOnce.disk = .ok (maxSequence mergeOnce.disk.physicalRecords) ∧
      (∀ records, iterCommittedRecords mergeOnce.disk = .ok records →
        ∀ record ∈ records, ∃ entry ∈ mergeOnce.written, record ∈ entry.2) ∧
      (∀ base, nextBase mergeOnce.disk = .ok base →
        ∀ entry ∈ mergeOnce.written, ∀ record ∈ entry.2, record.sequenceNumber < base) ∧
      ∀ batchId, ∃ path run, Contiguous mergeOnce.disk mergeOnce.written batchId path run := by
  have hclean : openStore.CleanStep (.merge 0 (copiesAt 0)) := by
    intro log hlog
    obtain rfl : smallLog = log := Option.some.inj hlog
    have hfresh : (selectForeign smallLog.eventIdSet (copiesAt 0)).1 = copiesAt 0 :=
      congrArg Prod.fst selectForeign_copies
    rw [hfresh, batchRuns_copies]
    constructor
    · intro unit hunit
      rcases List.mem_cons.mp hunit with rfl | hunit
      · exact WriteUnit.direct _ rfl
      · rw [List.mem_singleton.mp hunit]
        exact WriteUnit.direct _ rfl
    · show DistinctBatches [[copyOf sampleId 0], [copyOf otherId 1]]
      apply List.pairwise_pair.mpr
      intro batchId hid
      have hnone : batchIdOf [copyOf sampleId 0] = none := rfl
      rw [hnone] at hid
      contradiction
  have hopen : ∀ store : Store, store.CleanStep (.openLog smallLog) := fun _ => trivial
  exact sequence_discipline (Run.cons (hopen _) rfl (Run.cons (hopen _) rfl
    (Run.cons (hopen _) rfl (Run.cons hclean step_mergeOnce Run.nil))))

/-- The batch that carries the `ArchiveSegmentMoved` event, down to its sentinel. -/
def closing (sequenceNumber : Nat) : EventRecord :=
  stamp sampleEnv { sampleIntent with eventType := .commitAccepted } thirdId sampleTime
    sequenceNumber (some { transactionId := "txn-1", batchId := "batch-1", batchPosition := 0 })

def closingBatch : TransactionBatch where
  batchId := sampleBatchId
  transactionId := ⟨"txn-1", by decide⟩
  status := .committed
  events := [closing 0]
  noEnvelope := by decide
  increasing := List.pairwise_singleton _ _
  slots := by
    intro event hevent
    rw [List.mem_singleton.mp hevent]
    exact ⟨0, rfl⟩
  sentinelLast := rfl

def warmCopies : List EventRecord := copiesAt 0 ++ copiesAt 2 ++ copiesAt 4

private theorem unbroken_copies : Unbroken (copiesAt 2) := by decide +kernel

private theorem segmentRecordsBy_copies :
    segmentRecordsBy warmCopies ColdStore.empty (recordLines (copiesAt 2)) = some (copiesAt 4) := by
  rw [segmentRecordsBy, segmentEventIds_recordLines unbroken_copies, Option.bind_some]
  decide +kernel

def thinMove : SegmentMove :=
  { segment := 1, stage := .selected, pinned := some [copyOf sampleId 4], eventIds := ["evt-2"] }

def copyLines : Bytes := frameLines ((copiesAt 2).flatMap recordPieces)

def preparedMove : SegmentMove :=
  { thinMove with stage := .prepared, sourceHash := "sha256", archiveHash := "sha256" }

def planned : Store := { mergeThrice with moves := [{ segment := 1, stage := .planned }] }

def selected : Store := planned.setMove 0 thinMove

def prepared : Store :=
  { selected with cold := selected.cold.stage 1 copyLines, moves := selected.moves.set 0 preparedMove }

def movedDisk : Disk :=
  { oneCopy with
    hot := [(1, recordLines (copiesAt 2)), (2, recordLines (copiesAt 4)),
      (3, recordLines [closing 6])]
    sorted := by decide }

def closingWrite : PendingWrite := { base := 6, target := .hot 3, records := [closing 6] }

def accepted : Store :=
  (prepared.returns 0 (rememberCopies 0) (remember (rememberCopies 0) closingWrite) movedDisk
    [[closing 6]]).setMove 0 { preparedMove with stage := .accepted }

def verified : Store := accepted.setMove 0 { preparedMove with stage := .verified }

def renamed : Store :=
  { verified with
    cold := verified.cold.renameStagingToCold 1
    moves := verified.moves.set 0 { preparedMove with stage := .renamed } }

def routed : Store :=
  { renamed with
    cold := renamed.cold.updateIndex ["evt-2"] 1
    moves := renamed.moves.set 0 { preparedMove with stage := .routed } }

def disordered : Store :=
  { routed with disk := routed.disk.write (.hot 1) (recordLines [copyOf sampleId 4]), moves := [] }

section

variable {env : ArchiveEnv} {store : Store} {records pinned : List EventRecord} {segment : Nat}
  {copy : Bytes} {move : SegmentMove}

private theorem step_planCompaction (hread : store.disk.read (.hot segment) = some content)
    (hfound : segmentRecordsBy warm store.cold content = some records)
    (hsealed : isSealed store.disk segment = true)
    (hadmits : admitsCompaction records bound reachable = true) :
    Store.step env store (.planCompaction segment warm bound reachable) =
      some { store with moves := store.moves ++ [{ segment, stage := .planned }] } := by
  simp [Store.step, hread, hfound, hsealed, hadmits]

private theorem step_select (hmove : store.moves[j]? = some move) (hstage : move.stage = .planned)
    (hread : store.disk.read (.hot move.segment) = some content)
    (hfound : segmentRecordsBy warm store.cold content = some records) (hne : records ≠ [])
    (hsplit : splitPinnedMovable records reachable = (pinned, movable)) :
    Store.step env store (.select j warm reachable) =
      some (store.setMove j { move with
        stage := .selected, pinned := some pinned, eventIds := movable.map (·.eventId.val) }) := by
  cases records with
  | nil => contradiction
  | cons first rest =>
    simp [Store.step, hmove, hstage, hread, hfound, hsplit]

private theorem step_prepare (hmove : store.moves[j]? = some move)
    (hstage : move.stage = .selected)
    (hread : store.disk.read (.hot move.segment) = some content)
    (hcopy : prepareArchiveToCold content = some copy) :
    Store.step env store (.prepare j) = some { store with
      cold := store.cold.stage move.segment copy
      moves := store.moves.set j { move with
        stage := .prepared
        sourceHash := env.sha256OfFile content
        archiveHash := env.sha256OfArchive copy } } := by
  simp [Store.step, hmove, hstage, hread, hcopy]

private theorem appendTransactionBatch_eq {disk : Disk} (hbase : nextBase disk = .ok base)
    (hcheck : checkBatchEvents env.toWriterEnv log base batch.events = .ok ())
    (hrecords : reseqFrom env.toWriterEnv base batch.events = records)
    (htarget : writeTarget log disk records.length = .ok target) :
    appendTransactionBatch env.toWriterEnv log disk batch =
      .ok (remember log { base, target, records },
        disk.append target (recordLines records), records) := by
  unfold appendTransactionBatch prepareBatch
  simp only [hbase, hcheck, hrecords, htarget, scanning, bind, Except.bind, pure, Except.pure]
  rfl

private theorem step_commitMove {disk : Disk} (hmove : store.moves[j]? = some move)
    (hlog : store.logs[i]? = some log) (hstage : move.stage = .prepared)
    (hwrite : appendTransactionBatch env.toWriterEnv log store.disk batch = .ok (log', disk, records))
    (hstatus : batch.status = .committed) :
    Store.step env store (.commitMove j i batch) =
      some ((store.returns i log log' disk [records]).setMove j { move with stage := .accepted }) := by
  simp [Store.step, hmove, hlog, hstage, hwrite, hstatus]

end

private theorem run_routed : Run (Store.step sampleArchiveEnv) (fun _ _ => True) Store.fresh
    [.openLog smallLog, .openLog smallLog, .openLog smallLog, .merge 0 (copiesAt 0),
      .merge 1 (copiesAt 0), .merge 2 (copiesAt 0), .planCompaction 1 warmCopies 5 ["evt-1"],
      .select 0 warmCopies ["evt-1"], .prepare 0, .commitMove 0 0 closingBatch, .verify 0, .rename 0,
      .route 0] routed := by
  have hplanned : Store.step sampleArchiveEnv mergeThrice
      (.planCompaction 1 warmCopies 5 ["evt-1"]) = some planned := by
    have hread : mergeThrice.disk.read (.hot 1) = some (recordLines (copiesAt 2)) := rfl
    exact step_planCompaction hread segmentRecordsBy_copies (by decide +kernel) (by decide +kernel)
  have hselected : Store.step sampleArchiveEnv planned (.select 0 warmCopies ["evt-1"]) =
      some selected := by
    have hmove : planned.moves[0]? = some { segment := 1, stage := .planned } := rfl
    have hread : planned.disk.read (.hot 1) = some (recordLines (copiesAt 2)) := rfl
    have hsplit : splitPinnedMovable (copiesAt 4) ["evt-1"] =
        ([copyOf sampleId 4], [copyOf otherId 5]) := by decide +kernel
    exact step_select hmove rfl hread segmentRecordsBy_copies (by simp [copiesAt]) hsplit
  have hprepared : Store.step sampleArchiveEnv selected (.prepare 0) = some prepared := by
    have hmove : selected.moves[0]? = some thinMove := rfl
    have hread : selected.disk.read (.hot 1) = some (recordLines (copiesAt 2)) := rfl
    exact step_prepare hmove rfl hread (prepareArchiveToCold_recordLines _)
  have haccepted : Store.step sampleArchiveEnv prepared (.commitMove 0 0 closingBatch) =
      some accepted := by
    have hmove : prepared.moves[0]? = some preparedMove := rfl
    have hlog : prepared.logs[0]? = some (rememberCopies 0) := rfl
    have hlast : (threeCopies.orderedSegments.map Prod.snd).reverse =
        [recordLines (copiesAt 4), recordLines (copiesAt 2), recordLines (copiesAt 0)] := rfl
    have hbase : nextBase threeCopies = .ok 6 := nextBase_of_last hlast (maxSequence_copies 4)
    have hactive : threeCopies.read threeCopies.activeSegmentPath = some (recordLines (copiesAt 4)) :=
      rfl
    have htarget : writeTarget (rememberCopies 0) threeCopies 1 = .ok (.hot 3) :=
      writeTarget_rotates hactive (by simp [copiesAt]) (by decide)
    have hcheck : checkBatchEvents sampleEnv (rememberCopies 0) 6 closingBatch.events = .ok () := by
      decide +kernel
    have hrecords : reseqFrom sampleEnv 6 closingBatch.events = [closing 6] := rfl
    have hwrite := @appendTransactionBatch_eq sampleArchiveEnv _ _ _ _ _ _ hbase hcheck hrecords htarget
    have hdisk : threeCopies.append (.hot 3) (recordLines [closing 6]) = movedDisk := rfl
    rw [hdisk] at hwrite
    exact step_commitMove hmove hlog rfl hwrite rfl
  have hverified : Store.step sampleArchiveEnv accepted (.verify 0) = some verified := rfl
  have hrenamed : Store.step sampleArchiveEnv verified (.rename 0) = some renamed := rfl
  have hrouted : Store.step sampleArchiveEnv renamed (.route 0) = some routed := rfl
  exact Run.cons trivial rfl (Run.cons trivial rfl
    (Run.cons trivial rfl (Run.cons trivial step_mergeOnce
    (Run.cons trivial step_mergeTwice (Run.cons trivial step_mergeThrice
    (Run.cons trivial hplanned (Run.cons trivial hselected (Run.cons trivial hprepared
    (Run.cons trivial haccepted (Run.cons trivial hverified (Run.cons trivial hrenamed
    (Run.cons trivial hrouted Run.nil))))))))))))

/-- Three instances merge the same two events; the compaction of the middle copy resolves the ids
on its lines to the last copy, and writes a record back below a smaller one. -/
theorem compaction_of_copies_disorders :
    (∃ actions, Run (Store.step sampleArchiveEnv) (fun _ _ => True) Store.fresh actions disordered) ∧
      disordered.disk.physicalRecords.map EventRecord.sequenceNumber = [0, 1, 4, 4, 5, 6] ∧
      ¬(disordered.disk.physicalRecords.map EventRecord.sequenceNumber).Pairwise (· < ·) := by
  have hfinish : Store.step sampleArchiveEnv routed (.finish 0) = some disordered := rfl
  have hrecords : disordered.disk.physicalRecords =
      copiesAt 0 ++ [copyOf sampleId 4] ++ copiesAt 4 ++ [closing 6] := by
    have hsegments : disordered.disk.orderedSegments.map Prod.snd = [recordLines (copiesAt 0),
        recordLines [copyOf sampleId 4], recordLines (copiesAt 4), recordLines [closing 6]] := rfl
    have hflat : disordered.disk.physicalRecords =
        (disordered.disk.orderedSegments.map Prod.snd).flatMap segmentRecords := by
      rw [List.flatMap_map]
      rfl
    rw [hflat, hsegments]
    simp
  refine ⟨⟨_, Run.snoc run_routed trivial hfinish⟩, ?_, ?_⟩
  · rw [hrecords]
    rfl
  · rw [hrecords]
    show ¬[0, 1, 4, 4, 5, 6].Pairwise (· < ·)
    decide

end Flowness.Snapshot
