import Flowness.Ledger.Visibility
import Flowness.Library.Transition
import Flowness.Snapshot.ColdStorage

/-!
One log shared by writers and by maintenance runs that compact a sealed segment, move it to cold
storage, discard it or bring it back. A locked section of the log is one step, and so is every
file operation of a maintenance run; the steps of different runs interleave freely.
-/

namespace Flowness.Snapshot

open Library Schemas Ledger

structure ArchiveEnv extends WriterEnv where
  sha256OfFile : Bytes → String
  sha256OfArchive : Bytes → String

def pinnedBatches (records : List EventRecord) (reachable : List String) : List String :=
  records.filterMap fun record =>
    if record.eventId.val ∈ reachable then record.batchId else none

def isPinned (records : List EventRecord) (reachable : List String) (record : EventRecord) : Bool :=
  match record.batchId with
  | some batchId => batchId ∈ pinnedBatches records reachable
  | none => record.eventId.val ∈ reachable

theorem isPinned_of_reachable {records : List EventRecord} {record : EventRecord}
    (hmem : record ∈ records) (hreachable : record.eventId.val ∈ reachable) :
    isPinned records reachable record = true := by
  unfold isPinned
  split
  next batchId hbatch =>
    refine decide_eq_true (List.mem_filterMap.mpr ⟨record, hmem, ?_⟩)
    rw [if_pos hreachable, hbatch]
  · exact decide_eq_true hreachable

/-- `_split_pinned_movable`: a batch stays whole when one of its records is reachable. -/
def splitPinnedMovable (records : List EventRecord) (reachable : List String) :
    List EventRecord × List EventRecord :=
  records.partition (isPinned records reachable)

/-- `_plan_segment` without a skip reason. -/
def admitsCompaction (records : List EventRecord) (bound : Int) (reachable : List String) : Bool :=
  records ≠ [] && records.all (fun record => (record.sequenceNumber : Int) ≤ bound) &&
    (splitPinnedMovable records reachable).2 ≠ []

/-- The segment-level test of `run_gc_cold_move`. -/
def admitsMove (records : List EventRecord) (bound : Int) (reachable : List String) : Bool :=
  records ≠ [] && records.all (fun record => (record.sequenceNumber : Int) ≤ bound) &&
    records.all (fun record => record.eventId.val ∉ reachable)

section

variable {records : List EventRecord} {bound : Int} {reachable : List String}

theorem admitsCompaction_iff : admitsCompaction records bound reachable = true ↔ records ≠ [] ∧
    (∀ record ∈ records, (record.sequenceNumber : Int) ≤ bound) ∧
      (splitPinnedMovable records reachable).2 ≠ [] := by
  simp [admitsCompaction, and_assoc]

theorem admitsMove_iff : admitsMove records bound reachable = true ↔ records ≠ [] ∧
    (∀ record ∈ records, (record.sequenceNumber : Int) ≤ bound) ∧
      ∀ record ∈ records, record.eventId.val ∉ reachable := by
  simp [admitsMove, and_assoc]

end

/-- `ordered_hot_segments(log_path)[:-1]`. -/
def isSealed (disk : Disk) (segment : Nat) : Bool :=
  segment ∈ disk.orderedHotSegments.dropLast.map Prod.fst

section

variable {disk : Disk} {segment : Nat} (h : isSealed disk segment = true)
include h

theorem listed_of_isSealed : (SegmentPath.hot segment).listed = true := by
  obtain ⟨entry, hmem, rfl⟩ := List.mem_map.mp (of_decide_eq_true h)
  exact (List.mem_filter.mp ((List.dropLast_sublist _).subset hmem)).2

theorem rank_lt_active_of_isSealed :
    (SegmentPath.hot segment).rank < disk.activeSegmentPath.rank := by
  unfold isSealed at h
  simp only [decide_eq_true_eq] at h
  obtain ⟨⟨number, content⟩, hmem, rfl⟩ := List.mem_map.mp h
  cases hlast : disk.orderedHotSegments.getLast? with
  | none =>
    rw [List.getLast?_eq_none_iff.mp hlast] at hmem
    simp at hmem
  | some last =>
    have hsorted : disk.orderedHotSegments.Pairwise (fun left right => left.1 < right.1) := by
      have hkeys := disk.sorted
      rw [List.pairwise_map] at hkeys
      exact hkeys.filter _
    have hsplit := List.dropLast_append_getLast? last hlast
    rw [← hsplit] at hsorted
    have hlt := (List.pairwise_append.mp hsorted).2.2 _ hmem last (by simp)
    unfold Disk.activeSegmentPath
    rw [hlast]
    simp only [SegmentPath.rank]
    omega

end

/-- A compaction goes through all stages; a discard skips from `selected` to `routed`. -/
inductive MoveStage where
  | planned | selected | prepared | accepted | verified | renamed | routed
deriving DecidableEq, Repr

/-- The `ArchiveSegmentMoved` event of the run is on the log. -/
def MoveStage.isAccepted : MoveStage → Bool
  | .planned | .selected | .prepared => false
  | .accepted | .verified | .renamed | .routed => true

/-- A maintenance run on one segment. `pinned` is what a compaction leaves in the hot file; a cold
move or a discard leaves no file. -/
structure SegmentMove where
  segment : Nat
  stage : MoveStage
  pinned : Option (List EventRecord) := none
  eventIds : List String := []
  sourceHash : String := ""
  archiveHash : String := ""

structure Store where
  disk : Disk
  cold : ColdStore
  logs : List EventLog
  moves : List SegmentMove
  written : List (SegmentPath × List EventRecord)

namespace Store

def fresh : Store :=
  { disk := Disk.empty, cold := ColdStore.empty, logs := [], moves := [], written := [] }

/-- `warm` are the records in the index of the instance that runs the maintenance. -/
inductive Action where
  | openLog (log : EventLog)
  | writeDirect (i : Nat) (intent : EventIntent) (eventId : EventId) (timestamp : Timestamp)
  | appendBatch (i : Nat) (batch : TransactionBatch)
  | merge (i : Nat) (foreign : List EventRecord)
  | recover (i : Nat) (active : { path : SegmentPath // path.listed = true })
  | planCompaction (segment : Nat) (warm : List EventRecord) (bound : Int) (reachable : List String)
  | planMove (segment : Nat) (warm : List EventRecord) (bound : Int) (reachable : List String)
  | select (j : Nat) (warm : List EventRecord) (reachable : List String)
  | tombstone (j i : Nat) (intent : EventIntent) (eventId : EventId) (timestamp : Timestamp)
  | prepare (j : Nat)
  | commitMove (j i : Nat) (batch : TransactionBatch)
  | verify (j : Nat)
  | rename (j : Nat)
  | route (j : Nat)
  | finish (j : Nat)
  | restore (segment : Nat)
  | dropRouting (segment : Nat)

def placed (store : Store) (log : EventLog) (units : List (List EventRecord)) :
    List (SegmentPath × List EventRecord) :=
  match writeTarget log store.disk units.flatten.length with
  | .error _ => []
  | .ok target => if target.listed then units.map (fun unit => (target, unit)) else []

/-- A write call that returned: instance `i` keeps its new guards. -/
def returns (store : Store) (i : Nat) (log log' : EventLog) (disk : Disk)
    (units : List (List EventRecord)) : Store :=
  { store with disk, logs := store.logs.set i log', written := store.written ++ store.placed log units }

def setMove (store : Store) (j : Nat) (move : SegmentMove) : Store :=
  { store with moves := store.moves.set j move }

def rollback (store : Store) (j : Nat) (move : SegmentMove) : Store :=
  { store with
    cold := store.cold.rollbackPreparedArchive move.segment
    moves := store.moves.eraseIdx j }

/-- `verify_prepared_archive`: the staging copy and the hot file are as they were prepared. -/
def verifies (env : ArchiveEnv) (store : Store) (move : SegmentMove) : Bool :=
  match store.cold.staging.get move.segment, store.disk.read (.hot move.segment) with
  | some copy, some content =>
    env.sha256OfArchive copy = move.archiveHash && env.sha256OfFile content = move.sourceHash
  | _, _ => false

def finishHot (disk : Disk) (move : SegmentMove) : Disk :=
  match move.pinned with
  | some pinned => disk.write (.hot move.segment) (recordLines pinned)
  | none => disk.remove move.segment

variable (env : ArchiveEnv)

def step (store : Store) : Action → Option Store
  | .openLog log => some { store with logs := store.logs ++ [log] }
  | .writeDirect i intent eventId timestamp => do
    let log ← store.logs[i]?
    match Ledger.writeDirect env.toWriterEnv log store.disk intent eventId timestamp with
    | .error _ => some store
    | .ok (log', disk, records) => some (store.returns i log log' disk [records])
  | .appendBatch i batch => do
    let log ← store.logs[i]?
    match appendTransactionBatch env.toWriterEnv log store.disk batch with
    | .error _ => some store
    | .ok (log', disk, records) => some (store.returns i log log' disk [records])
  | .merge i foreign => do
    let log ← store.logs[i]?
    match mergeForeignEvents env.toWriterEnv log store.disk foreign with
    | .error _ => some store
    | .ok (log', disk, result) =>
      let fresh := (selectForeign log.eventIdSet foreign).1
      let records := reseqFrom env.toWriterEnv result.baseSequence.toNat fresh
      some (store.returns i log log' disk (batchRuns records))
  | .recover i active => do
    let log ← store.logs[i]?
    let (disk, result) := recoverAt log store.disk active.val
    match result with
    | .error _ => some { store with disk }
    | .ok (log', _) => some { store with disk, logs := store.logs.set i log' }
  | .planCompaction segment warm bound reachable =>
    match (store.disk.read (.hot segment)).bind (segmentRecordsBy warm store.cold) with
    | none => some store
    | some records =>
      if isSealed store.disk segment && admitsCompaction records bound reachable then
        some { store with moves := store.moves ++ [{ segment, stage := .planned }] }
      else some store
  | .planMove segment warm bound reachable =>
    match (store.disk.read (.hot segment)).bind (segmentRecordsBy warm store.cold) with
    | none => some store
    | some records =>
      if isSealed store.disk segment && admitsMove records bound reachable then
        some { store with
          moves := store.moves ++
            [{ segment, stage := .selected, eventIds := records.map (·.eventId.val) }] }
      else some store
  | .select j warm reachable => do
    let move ← store.moves[j]?
    guard (move.stage = .planned)
    match (store.disk.read (.hot move.segment)).bind (segmentRecordsBy warm store.cold) with
    | none | some [] => some store
    | some records =>
      let (pinned, movable) := splitPinnedMovable records reachable
      some (store.setMove j { move with
        stage := .selected, pinned := some pinned, eventIds := movable.map (·.eventId.val) })
  | .tombstone j i intent eventId timestamp => do
    let move ← store.moves[j]?
    let log ← store.logs[i]?
    guard (move.stage = .selected ∧ move.pinned = none)
    match Ledger.writeDirect env.toWriterEnv log store.disk intent eventId timestamp with
    | .error _ => some store
    | .ok (log', disk, records) =>
      some ((store.returns i log log' disk [records]).setMove j { move with stage := .routed })
  | .prepare j => do
    let move ← store.moves[j]?
    guard (move.stage = .selected)
    match store.disk.read (.hot move.segment) with
    | none => some store
    | some content =>
      match prepareArchiveToCold content with
      | none => some store
      | some copy =>
        some { store with
          cold := store.cold.stage move.segment copy
          moves := store.moves.set j { move with
            stage := .prepared
            sourceHash := env.sha256OfFile content
            archiveHash := env.sha256OfArchive copy } }
  | .commitMove j i batch => do
    let move ← store.moves[j]?
    let log ← store.logs[i]?
    guard (move.stage = .prepared)
    match appendTransactionBatch env.toWriterEnv log store.disk batch with
    | .error _ => some store
    | .ok (log', disk, records) =>
      let store := store.returns i log log' disk [records]
      if batch.status = .committed then some (store.setMove j { move with stage := .accepted })
      else some (store.rollback j move)
  | .verify j => do
    let move ← store.moves[j]?
    guard (move.stage = .accepted)
    if verifies env store move then some (store.setMove j { move with stage := .verified })
    else some (store.rollback j move)
  | .rename j => do
    let move ← store.moves[j]?
    guard (move.stage = .verified)
    some { store with
      cold := store.cold.renameStagingToCold move.segment
      moves := store.moves.set j { move with stage := .renamed } }
  | .route j => do
    let move ← store.moves[j]?
    guard (move.stage = .renamed)
    some { store with
      cold := store.cold.updateIndex move.eventIds move.segment
      moves := store.moves.set j { move with stage := .routed } }
  | .finish j => do
    let move ← store.moves[j]?
    guard (move.stage = .routed)
    some { store with disk := finishHot store.disk move, moves := store.moves.eraseIdx j }
  | .restore segment =>
    if store.cold.archives.contains segment then
      match coldRecordsForSegment store.cold segment with
      | none | some [] => some store
      | some records =>
        some { store with disk := store.disk.write (.hot segment) (recordLines records) }
    else some store
  | .dropRouting segment => some { store with cold := store.cold.dropSegment segment }

/-- What an instance resolves the ids on the lines of a segment to: the record of the line or
nothing, and nothing for one record of a batch only if for all. -/
structure Resolves (store : Store) (warm : List EventRecord) (records : List EventRecord) : Prop where
  unbroken : Unbroken records
  own : ∀ record ∈ records, ∀ found,
    getEvent warm store.cold record.eventId.val = some (some found) → found = record
  batch : ∀ record ∈ records, ∀ other ∈ records, record.batchId = other.batchId →
    record.batchId.isSome → getEvent warm store.cold record.eventId.val = some none →
    getEvent warm store.cold other.eventId.val = some none

/-- The writes of `units` bring batch ids the log has not had. -/
def Fresh (store : Store) (units : List (List EventRecord)) : Prop :=
  DistinctBatches (store.written.map Prod.snd ++ units)

/-- Batches come with new ids, merges bring whole batches, and a compaction resolves the lines of
the segment to the records on them. -/
def CleanStep (store : Store) : Action → Prop
  | .appendBatch _ batch | .commitMove _ _ batch => store.Fresh [batch.events]
  | .merge i foreign => ∀ log, store.logs[i]? = some log →
      (∀ unit ∈ batchRuns (selectForeign log.eventIdSet foreign).1, WriteUnit unit) ∧
        store.Fresh (batchRuns (selectForeign log.eventIdSet foreign).1)
  | .select j warm _ => ∀ move, store.moves[j]? = some move →
      store.Resolves warm (store.disk.recordsAt (.hot move.segment))
  | _ => True

end Store

end Flowness.Snapshot
