import Flowness.Snapshot.Archival
import Flowness.Snapshot.ColdVerbatim

/-!
The finalize tail of an archived segment and the two recovery procedures that redo it. An accepted
`ArchiveSegmentMoved` either moves a segment to cold storage or compacts it to the records it pins.
-/

namespace Flowness.Snapshot

open Library Schemas Ledger
open Ledger.EventIndex (idsOf)

/-- What recovery reads of an accepted `ArchiveSegmentMoved` with an artifact; `pinnedIds` are the
ids a compaction retained. -/
structure ArchiveMove where
  segment : Nat
  archiveHash : String
  pinnedIds : Option (List String) := none
deriving DecidableEq, Repr

/-- `_finalize_key`. -/
def ArchiveMove.key (move : ArchiveMove) : Nat × String := (move.segment, move.archiveHash)

structure ArchiveState where
  disk : Disk
  cold : ColdStore
  index : IndexDir
  finalizeLog : List (Nat × String)

namespace ArchiveState

def empty : ArchiveState :=
  { disk := Disk.empty, cold := ColdStore.empty, index := IndexDir.empty, finalizeLog := [] }

def isFinalizeCompleted (state : ArchiveState) (move : ArchiveMove) : Bool :=
  move.key ∈ state.finalizeLog

end ArchiveState

inductive FinalizeStep where
  | rename (segment : Nat)
  | route (eventIds : List String) (segment : Nat)
  | writeThin (segment : Nat) (records : List EventRecord)
  | unlink (segment : Nat)
  | prune (eventIds : List String)
  | recordCompleted (key : Nat × String)

def recordFinalizeCompleted (log : List (Nat × String)) (key : Nat × String) :
    List (Nat × String) :=
  if key ∈ log then log else log ++ [key]

section

variable (sha256 : Bytes → String)

/-- `none` when the operation raises. -/
def FinalizeStep.apply (state : ArchiveState) : FinalizeStep → Option ArchiveState
  | .rename segment => some { state with cold := state.cold.renameStagingToCold segment }
  | .route eventIds segment => some { state with cold := state.cold.updateIndex eventIds segment }
  | .writeThin segment records =>
    some { state with disk := state.disk.write (.hot segment) (recordLines records) }
  | .unlink segment => some { state with disk := state.disk.remove segment }
  | .prune eventIds =>
    (pruneEventIds sha256 state.index eventIds).map fun pruned => { state with index := pruned.1 }
  | .recordCompleted key =>
    some { state with finalizeLog := recordFinalizeCompleted state.finalizeLog key }

def runSteps (state : ArchiveState) (steps : List FinalizeStep) : Option ArchiveState :=
  steps.foldlM (FinalizeStep.apply sha256) state

def finalizeArchive (move : ArchiveMove) (eventIds : List String) : List FinalizeStep :=
  [.rename move.segment, .route eventIds move.segment, .unlink move.segment,
    .recordCompleted move.key]

/-- The tail of `_compact_one_segment`. -/
def finalizeCompaction (move : ArchiveMove) (pinned movable : List EventRecord) :
    List FinalizeStep :=
  [.rename move.segment, .route (idsOf movable) move.segment, .writeThin move.segment pinned,
    .prune (idsOf movable), .recordCompleted move.key]

def eventIdsInJsonlText (text : Text) : List String :=
  (nonEmptyLines text).filterMap fun line => ((Json.parse line).bind (·.get "event_id")).bind Json.text?

/-- `_archived_event_ids`: from the hot file, or else the archive, or else the staging copy. -/
def archivedEventIds (state : ArchiveState) (segment : Nat) : Option (List String) :=
  match state.disk.read (.hot segment) with
  | some content => (decodeText content).map eventIdsInJsonlText
  | none =>
    match state.cold.archives.get segment with
    | some archive => (decodeText archive).map eventIdsInJsonlText
    | none =>
      match state.cold.staging.get segment with
      | some copy => (decodeText copy).map eventIdsInJsonlText
      | none => some []

/-- One accepted event in `recover_after_crash`; a compaction is left to the other procedure. -/
def recoverMove (state : ArchiveState) (move : ArchiveMove) : Option ArchiveState :=
  if move.pinnedIds.isSome || state.isFinalizeCompleted move then some state
  else if state.cold.staging.contains move.segment || state.cold.archives.contains move.segment then
    (archivedEventIds state move.segment).bind fun eventIds =>
      runSteps sha256 state (finalizeArchive move eventIds)
  else some state

def dropOrphanStaging (state : ArchiveState) (moves : List ArchiveMove) : ArchiveState :=
  { state with cold := { state.cold with
      staging := state.cold.staging.filter fun entry => entry.1 ∈ moves.map ArchiveMove.segment } }

/-- `recover_after_crash` on the accepted events that the instance finds. -/
def recoverAfterCrash (state : ArchiveState) (moves : List ArchiveMove) : Option ArchiveState :=
  (moves.foldlM (recoverMove sha256) state).map fun state => dropOrphanStaging state moves

/-- `_segment_is_thin`: the ids on the lines are the pinned ones; it raises on a line that is no
JSON object with an id. -/
def segmentIsThin (content : Bytes) (pinnedIds : List String) : Option Bool :=
  (decodeText content).bind fun text =>
    ((nonEmptyLines text).mapM fun line => (Json.parse line).bind (·.get "event_id")).map
      fun present => present.all (· ∈ pinnedIds.map Json.str) &&
        pinnedIds.all (fun eventId => Json.str eventId ∈ present)

def isCompacted (state : ArchiveState) (move : ArchiveMove) (pinnedIds : List String) :
    Option Bool :=
  if state.isFinalizeCompleted move then
    match state.disk.read (.hot move.segment) with
    | some content => segmentIsThin content pinnedIds
    | none => some false
  else some false

def redoCompaction (move : ArchiveMove) (pinnedIds : List String) (records : List EventRecord) :
    List FinalizeStep :=
  let movableIds := idsOf (records.filter (fun record => record.eventId.val ∉ pinnedIds))
  [.writeThin move.segment (records.filter (fun record => record.eventId.val ∈ pinnedIds)),
    .route movableIds move.segment, .prune movableIds, .recordCompleted move.key]

def renameIfMissing (state : ArchiveState) (segment : Nat) : ArchiveState :=
  if state.cold.archives.contains segment then state
  else { state with cold := state.cold.renameStagingToCold segment }

/-- One accepted event in `recover_compaction_after_crash`; an archive that is missing or empty is
a finding. -/
def recoverCompaction (state : ArchiveState) (move : ArchiveMove) : Option ArchiveState :=
  match move.pinnedIds with
  | none => some state
  | some pinnedIds =>
    (isCompacted state move pinnedIds).bind fun compacted =>
      if compacted then some state
      else
        let state := renameIfMissing state move.segment
        match state.cold.archives.get move.segment with
        | none => some state
        | some archive => (archiveRecords archive).bind fun records =>
          if records = [] then some state
          else runSteps sha256 state (redoCompaction move pinnedIds records)

def recoverCompactionAfterCrash (state : ArchiveState) (moves : List ArchiveMove) :
    Option ArchiveState :=
  moves.foldlM (recoverCompaction sha256) state

def rebuildIndex (state : ArchiveState) : Option ArchiveState :=
  match iterCommittedRecords state.disk with
  | .error _ => none
  | .ok records => some { state with index := persist sha256 state.index records }

/-- The accepted moves that `get_events_by_type` finds for the instance that recovers; it rebuilds
its index first when it has none loaded. -/
structure RecoveryView where
  moves : List ArchiveMove
  loaded : Bool

def recoverAll (view : RecoveryView) (state : ArchiveState) : Option ArchiveState := do
  let state ← if view.loaded then some state else rebuildIndex sha256 state
  let state ← recoverAfterCrash sha256 state view.moves
  recoverCompactionAfterCrash sha256 state view.moves

structure AcceptedMove where
  move : ArchiveMove
  steps : List FinalizeStep

variable (sha256OfArchive : Bytes → String)

/-- `_compact_one_segment` up to the accepted event; `warm` are the records in the index of the
instance. -/
def acceptCompaction (state : ArchiveState) (segment : Nat) (warm : List EventRecord) (bound : Int)
    (reachable : List String) : Option (ArchiveState × AcceptedMove) := do
  guard (isSealed state.disk segment)
  let content ← state.disk.read (.hot segment)
  let records ← segmentRecordsBy warm state.cold content
  guard (admitsCompaction records bound reachable)
  let copy ← prepareArchiveToCold content
  let (pinned, movable) := splitPinnedMovable records reachable
  let move : ArchiveMove :=
    { segment, archiveHash := sha256OfArchive copy, pinnedIds := some (idsOf pinned) }
  return ({ state with cold := state.cold.stage segment copy },
    { move, steps := finalizeCompaction move pinned movable })

/-- `_move_segment_to_cold` up to the accepted event. -/
def acceptMove (state : ArchiveState) (segment : Nat) (warm : List EventRecord) (bound : Int)
    (reachable : List String) : Option (ArchiveState × AcceptedMove) := do
  guard (isSealed state.disk segment)
  let content ← state.disk.read (.hot segment)
  let records ← segmentRecordsBy warm state.cold content
  guard (admitsMove records bound reachable)
  let copy ← prepareArchiveToCold content
  let move : ArchiveMove := { segment, archiveHash := sha256OfArchive copy }
  return ({ state with cold := state.cold.stage segment copy },
    { move, steps := finalizeArchive move (idsOf records) })

def uncompactSegment (state : ArchiveState) (segment : Nat) : Option ArchiveState := do
  let archive ← state.cold.archives.get segment
  let records ← archiveRecords archive
  guard (records ≠ [])
  rebuildIndex sha256 { state with
    disk := state.disk.write (.hot segment) (recordLines records)
    cold := state.cold.dropSegment segment }

inductive ArchiveOp where
  | moved (move : ArchiveMove)
  | restored (segment : Nat)
deriving DecidableEq, Repr

def ArchiveOp.segment : ArchiveOp → Nat
  | .moved move => move.segment
  | .restored segment => segment

def ArchiveOp.move? : ArchiveOp → Option ArchiveMove
  | .moved move => some move
  | .restored _ => none

structure Archive extends ArchiveState where
  history : List ArchiveOp

namespace Archive

def fresh : Archive := { ArchiveState.empty with history := [] }

/-- The accepted `ArchiveSegmentMoved` events, oldest first. -/
def accepted (archive : Archive) : List ArchiveMove := archive.history.filterMap ArchiveOp.move?

inductive Action where
  | write (rotates : Bool) (records : List EventRecord)
  | rebuildIndex
  | compact (segment : Nat) (warm : List EventRecord) (bound : Int) (reachable : List String)
  | moveToCold (segment : Nat) (warm : List EventRecord) (bound : Int) (reachable : List String)
  | uncompact (segment : Nat)

def writePath (disk : Disk) (rotates : Bool) : SegmentPath :=
  if rotates then disk.nextSegmentPath else disk.activeSegmentPath

def finalize (archive : Archive) (staged : ArchiveState) (accepted : AcceptedMove) :
    Option Archive :=
  (runSteps sha256 staged accepted.steps).map fun state =>
    { state with history := archive.history ++ [.moved accepted.move] }

def step (archive : Archive) : Action → Option Archive
  | .write rotates records =>
    some { archive with
      disk := archive.disk.append (writePath archive.disk rotates) (recordLines records) }
  | .rebuildIndex =>
    (Flowness.Snapshot.rebuildIndex sha256 archive.toArchiveState).map
      fun state => { state with history := archive.history }
  | .compact segment warm bound reachable => do
    let (staged, accepted) ←
      acceptCompaction sha256OfArchive archive.toArchiveState segment warm bound reachable
    archive.finalize sha256 staged accepted
  | .moveToCold segment warm bound reachable => do
    let (staged, accepted) ←
      acceptMove sha256OfArchive archive.toArchiveState segment warm bound reachable
    archive.finalize sha256 staged accepted
  | .uncompact segment =>
    (uncompactSegment sha256 archive.toArchiveState segment).map
      fun state => { state with history := archive.history ++ [.restored segment] }

end Archive

variable {sha256 sha256OfArchive} {state later staged : ArchiveState} {segment : Nat}
  {warm : List EventRecord} {bound : Int} {reachable : List String} {accepted : AcceptedMove}

theorem runSteps_finalizeArchive (state : ArchiveState) (move : ArchiveMove)
    (eventIds : List String) : runSteps sha256 state (finalizeArchive move eventIds) = some
      { disk := state.disk.remove move.segment
        cold := (state.cold.renameStagingToCold move.segment).updateIndex eventIds move.segment
        index := state.index
        finalizeLog := recordFinalizeCompleted state.finalizeLog move.key } := rfl

theorem runSteps_finalizeCompaction
    (h : runSteps sha256 state (finalizeCompaction move pinned movable) = some later) :
    ∃ pruned, pruneEventIds sha256 state.index (idsOf movable) = some pruned ∧
      later =
        { disk := state.disk.write (.hot move.segment) (recordLines pinned)
          cold := (state.cold.renameStagingToCold move.segment).updateIndex (idsOf movable)
            move.segment
          index := pruned.1
          finalizeLog := recordFinalizeCompleted state.finalizeLog move.key } := by
  obtain ⟨left, hleft, h⟩ := Option.bind_eq_some_iff.mp h
  obtain ⟨pruned, hpruned, rfl⟩ := Option.map_eq_some_iff.mp hleft
  exact ⟨pruned, hpruned, (Option.some.inj h).symm⟩

private theorem of_guard {p : Prop} [Decidable p] (h : (guard p : Option Unit) = some done) :
    p := by
  by_contra hne
  simp [hne] at h

theorem acceptCompaction_eq (h : acceptCompaction sha256OfArchive state segment warm bound reachable =
      some (staged, accepted)) : ∃ content records copy,
      isSealed state.disk segment = true ∧ state.disk.read (.hot segment) = some content ∧
      segmentRecordsBy warm state.cold content = some records ∧
      admitsCompaction records bound reachable = true ∧ prepareArchiveToCold content = some copy ∧
      staged = { state with cold := state.cold.stage segment copy } ∧
      accepted.move =
        { segment, archiveHash := sha256OfArchive copy
          pinnedIds := some (idsOf (splitPinnedMovable records reachable).1) } ∧
      accepted.steps = finalizeCompaction accepted.move (splitPinnedMovable records reachable).1
        (splitPinnedMovable records reachable).2 := by
  obtain ⟨_, hsealed, h⟩ := Option.bind_eq_some_iff.mp h
  obtain ⟨content, hread, h⟩ := Option.bind_eq_some_iff.mp h
  obtain ⟨records, hrecords, h⟩ := Option.bind_eq_some_iff.mp h
  obtain ⟨_, hadmits, h⟩ := Option.bind_eq_some_iff.mp h
  obtain ⟨copy, hcopy, h⟩ := Option.bind_eq_some_iff.mp h
  cases h
  exact ⟨content, records, copy, of_guard hsealed, hread, hrecords, of_guard hadmits, hcopy, rfl, rfl,
    rfl⟩

theorem acceptCompaction_of (hsealed : isSealed state.disk segment = true)
    (hread : state.disk.read (.hot segment) = some content)
    (hrecords : segmentRecordsBy warm state.cold content = some records)
    (hadmits : admitsCompaction records bound reachable = true)
    (hcopy : prepareArchiveToCold content = some copy) :
    acceptCompaction sha256OfArchive state segment warm bound reachable =
      let (pinned, movable) := splitPinnedMovable records reachable
      let move : ArchiveMove :=
        { segment, archiveHash := sha256OfArchive copy, pinnedIds := some (idsOf pinned) }
      some ({ state with cold := state.cold.stage segment copy },
        { move, steps := finalizeCompaction move pinned movable }) := by
  unfold acceptCompaction
  simp [hsealed, hread, hrecords, hadmits, hcopy]

theorem acceptMove_eq (h : acceptMove sha256OfArchive state segment warm bound reachable =
      some (staged, accepted)) : ∃ content records copy,
      isSealed state.disk segment = true ∧ state.disk.read (.hot segment) = some content ∧
      segmentRecordsBy warm state.cold content = some records ∧
      admitsMove records bound reachable = true ∧ prepareArchiveToCold content = some copy ∧
      staged = { state with cold := state.cold.stage segment copy } ∧
      accepted.move = { segment, archiveHash := sha256OfArchive copy } ∧
      accepted.steps = finalizeArchive accepted.move (idsOf records) := by
  obtain ⟨_, hsealed, h⟩ := Option.bind_eq_some_iff.mp h
  obtain ⟨content, hread, h⟩ := Option.bind_eq_some_iff.mp h
  obtain ⟨records, hrecords, h⟩ := Option.bind_eq_some_iff.mp h
  obtain ⟨_, hadmits, h⟩ := Option.bind_eq_some_iff.mp h
  obtain ⟨copy, hcopy, h⟩ := Option.bind_eq_some_iff.mp h
  cases h
  exact ⟨content, records, copy, of_guard hsealed, hread, hrecords, of_guard hadmits, hcopy, rfl, rfl,
    rfl⟩

theorem acceptMove_of (hsealed : isSealed state.disk segment = true)
    (hread : state.disk.read (.hot segment) = some content)
    (hrecords : segmentRecordsBy warm state.cold content = some records)
    (hadmits : admitsMove records bound reachable = true)
    (hcopy : prepareArchiveToCold content = some copy) :
    acceptMove sha256OfArchive state segment warm bound reachable =
      let move : ArchiveMove := { segment, archiveHash := sha256OfArchive copy }
      some ({ state with cold := state.cold.stage segment copy },
        { move, steps := finalizeArchive move (idsOf records) }) := by
  unfold acceptMove
  simp [hsealed, hread, hrecords, hadmits, hcopy]

theorem Archive.step_compact {archive : Archive} (haccept : acceptCompaction sha256OfArchive
      archive.toArchiveState segment warm bound reachable = some (staged, accepted))
    (hrun : runSteps sha256 staged accepted.steps = some later) :
    archive.step sha256 sha256OfArchive (.compact segment warm bound reachable) =
      some { later with history := archive.history ++ [.moved accepted.move] } :=
  Option.bind_eq_some_iff.mpr ⟨_, haccept, Option.map_eq_some_iff.mpr ⟨later, hrun, rfl⟩⟩

theorem Archive.step_moveToCold {archive : Archive} (haccept : acceptMove sha256OfArchive
      archive.toArchiveState segment warm bound reachable = some (staged, accepted))
    (hrun : runSteps sha256 staged accepted.steps = some later) :
    archive.step sha256 sha256OfArchive (.moveToCold segment warm bound reachable) =
      some { later with history := archive.history ++ [.moved accepted.move] } :=
  Option.bind_eq_some_iff.mpr ⟨_, haccept, Option.map_eq_some_iff.mpr ⟨later, hrun, rfl⟩⟩

theorem uncompactSegment_eq (h : uncompactSegment sha256 state segment = some later) :
    ∃ archive records, state.cold.archives.get segment = some archive ∧
      archiveRecords archive = some records ∧ records ≠ [] ∧
      rebuildIndex sha256 { state with
        disk := state.disk.write (.hot segment) (recordLines records)
        cold := state.cold.dropSegment segment } = some later := by
  obtain ⟨archive, harchive, h⟩ := Option.bind_eq_some_iff.mp h
  obtain ⟨records, hrecords, h⟩ := Option.bind_eq_some_iff.mp h
  obtain ⟨_, hguard, h⟩ := Option.bind_eq_some_iff.mp h
  exact ⟨archive, records, harchive, hrecords, of_guard hguard, h⟩

end

end Flowness.Snapshot
