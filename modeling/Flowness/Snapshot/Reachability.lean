import Mathlib.Data.List.Sort
import Flowness.Library.Worklist
import Flowness.Ledger.EventIndex
import Flowness.Ledger.Log
import Flowness.Schemas.PayloadAccess
import Flowness.Schemas.RecordJson

/-!
Which events garbage collection must keep: seven kinds of roots, the records after the oldest
retained snapshot, and what these refer to.
-/

namespace Flowness.Snapshot

open List Library Schemas Ledger
open Ledger.EventIndex (idsOf)

structure RetentionLease where
  minSeq : Option Nat := none
  eventIds : Option (List String) := none
  inputHashes : Option (List String) := none
deriving DecidableEq, Repr

/-- What a maintenance run sees of the log: the committed records in the hot files and those its
index lists. -/
structure LogView where
  allRecords : List EventRecord
  indexed : List EventRecord

namespace LogView

variable (log : LogView)

def eventsByType (eventType : EventType) : List EventRecord :=
  log.indexed.filter (·.eventType = eventType)

/-- `{rec.event_id: rec for rec in all_records()}`: the last record of an id. -/
def byId (eventId : String) : Option EventRecord :=
  (log.allRecords.filter (·.eventId.val = eventId)).getLast?

/-- `{rec.sequence_number: rec for rec in all_records()}`: the last record of a number. -/
def bySequence (sequenceNumber : Nat) : Option EventRecord :=
  (log.allRecords.filter (·.sequenceNumber = sequenceNumber)).getLast?

end LogView

/-- `startswith("evt-")`. -/
def looksLikeEventId (text : String) : Bool := "evt-".toList.isPrefixOf text.toList

def recentByType (log : LogView) (eventType : EventType) (window : Nat) : List EventRecord :=
  ((log.eventsByType eventType).insertionSort
    (fun a b => b.sequenceNumber ≤ a.sequenceNumber)).take window

def snapshotAnchorRoots (log : LogView) (window : Nat) : List String × Option Int :=
  let snapshots := recentByType log .snapshotCreated window
  (idsOf snapshots,
    (snapshots.filterMap fun record => (record.payload.get "event_offset").bind Json.asInt).min?)

def projectionRefFields : List String := ["last_state_change_event_id", "last_change_event_id"]

mutual

def harvestEventIds : Json → List String
  | .obj entries => harvestEntries entries
  | .arr items => harvestItems items
  | _ => []

def harvestItems : List Json → List String
  | [] => []
  | item :: items => harvestEventIds item ++ harvestItems items

def harvestEntries : List (String × Json) → List String
  | [] => []
  | (key, value) :: entries =>
    (match value with
      | .str text =>
        if key ∈ projectionRefFields ∧ looksLikeEventId text then [text] else []
      | value => harvestEventIds value) ++ harvestEntries entries

end

abbrev Projections := Dict String (List (String × Json))

def projectionReferenceRoots (projections : Projections) : List String :=
  projections.flatMap fun entry => harvestEntries entry.2

def nodeList (projections : Projections) (projection field : String) :
    List (List (String × Json)) :=
  match (Dict.get projections projection).bind (Dict.get · field) with
  | some (.arr items) => items.filterMap fun
    | .obj node => some node
    | _ => none
  | _ => []

def lastStateChange (node : List (String × Json)) : Option String :=
  match Dict.get node "last_state_change_event_id" with
  | some (.str text) => if looksLikeEventId text then some text else none
  | _ => none

def isTerminalFinding (node : List (String × Json)) : Bool :=
  let state := match Dict.get node "lifecycle_state" with
    | some value => if value.truthy then some value else Dict.get node "state"
    | none => Dict.get node "state"
  match state with
  | some (.str text) => text ∈ ["resolved", "dismissed", "closed", "fixed"]
  | _ => false

def inFlightEnvelopeRoots (log : LogView) : List String :=
  let resolved := (log.eventsByType .commitAccepted ++ log.eventsByType .commitRejected).filterMap
    fun record => (record.payload.get "envelope_event_id").bind Json.text?
  (idsOf (log.eventsByType .transactionEnvelopeSubmitted)).filter (· ∉ resolved)

def activeObjectRoots (log : LogView) (projections : Projections) : List String :=
  ((nodeList projections "obligation_lifecycle_state" "obligations").filter
      fun node => Dict.get node "canonical_state" = some (.str "active")).filterMap lastStateChange ++
    ((nodeList projections "finding_lifecycle" "findings").filter
      fun node => !isTerminalFinding node).filterMap lastStateChange ++
    inFlightEnvelopeRoots log

def protocolLevelAnchorRoots (log : LogView) (window : Nat) : List String :=
  idsOf ((log.eventsByType .obligationCaptured).filter
      fun record => record.payload.get "capture_source" = some (.str "system_bootstrap")) ++
    idsOf (recentByType log .retentionPolicyChanged window)

def natureAnchorRoots (log : LogView) (window : Nat) : List String :=
  idsOf (recentByType log .natureJudgmentCaptured window)

def resolveInputHashEvents (inputHashes : List String) (log : LogView) : List String :=
  idsOf ((log.eventsByType .resolverDecisionMade).filter fun record =>
    match record.payload.get "input_hash" with
    | some (.str inputHash) => inputHash ∈ inputHashes
    | _ => false)

def leaseRoots (log : LogView) (lease : RetentionLease) : List String :=
  lease.eventIds.getD [] ++
    (match lease.minSeq with
      | none => []
      | some minSeq => idsOf ((log.allRecords.filterMap fun record =>
          log.bySequence record.sequenceNumber).filter (minSeq ≤ ·.sequenceNumber))) ++
    resolveInputHashEvents (lease.inputHashes.getD []) log

def leaseProtectionRoots (leases : List RetentionLease) (log : LogView) : List String :=
  leases.flatMap (leaseRoots log)

def supersedeChainRoots (log : LogView) : List String :=
  log.allRecords.filterMap fun record => record.supersede.supersededEventId?

structure GcRoots where
  snapshotAnchors : List String
  projectionReferences : List String
  activeObjects : List String
  protocolLevelAnchors : List String
  natureAnchors : List String
  leaseProtection : List String
  supersedeChains : List String
  postSnapshotFloor : Option Int

def GcRoots.ids (roots : GcRoots) : List String :=
  roots.snapshotAnchors ++ roots.projectionReferences ++ roots.activeObjects ++
    roots.protocolLevelAnchors ++ roots.natureAnchors ++ roots.leaseProtection ++
    roots.supersedeChains

/-- `compute_gc_roots` with its default windows; without a lease store no lease protects. -/
def computeGcRoots (log : LogView) (projections : Projections)
    (leases : Option (List RetentionLease)) : GcRoots :=
  let (snapshotAnchors, postSnapshotFloor) := snapshotAnchorRoots log 5
  { snapshotAnchors
    projectionReferences := projectionReferenceRoots projections
    activeObjects := activeObjectRoots log projections
    protocolLevelAnchors := protocolLevelAnchorRoots log 1
    natureAnchors := natureAnchorRoots log 100
    leaseProtection := leaseProtectionRoots (leases.getD []) log
    supersedeChains := supersedeChainRoots log
    postSnapshotFloor }

def refsFrom (record : EventRecord) : List String :=
  record.provenance.causationEventId.toList ++ record.supersede.supersededEventId?.toList

def references (log : LogView) (eventId : String) : List String :=
  ((log.byId eventId).toList.flatMap refsFrom).filter (· ∈ idsOf log.allRecords)

def gcSeeds (log : LogView) (roots : GcRoots) : List String :=
  roots.ids.filter (· ∈ idsOf log.allRecords) ++
    (match roots.postSnapshotFloor with
      | none => []
      | some floor => idsOf ((log.allRecords.filterMap fun record =>
          log.byId record.eventId.val).filter (floor < ·.sequenceNumber)))

def computeGcReachable (log : LogView) (roots : GcRoots) : List String :=
  Worklist.closure (references log) (idsOf log.allRecords) (gcSeeds log roots)

theorem LogView.byId_some {log : LogView} (h : log.byId eventId = some record) :
    record ∈ log.allRecords ∧ record.eventId.val = eventId := by
  have hmem := mem_of_getLast? h
  simpa using hmem

theorem mem_gcSeeds (log : LogView) (roots : GcRoots) :
    ∀ eventId ∈ gcSeeds log roots, eventId ∈ idsOf log.allRecords := by
  intro eventId hseed
  rcases mem_append.mp hseed with hroot | hfloor
  · simpa using (mem_filter.mp hroot).2
  · split at hfloor
    · contradiction
    · obtain ⟨record, hrecord, rfl⟩ := mem_map.mp hfloor
      obtain ⟨other, -, hother⟩ := mem_filterMap.mp (mem_filter.mp hrecord).1
      exact mem_map_of_mem (LogView.byId_some hother).1

theorem mem_references {log : LogView} :
    ∀ ref ∈ references log eventId, ref ∈ idsOf log.allRecords := by
  intro ref href
  simpa using (mem_filter.mp href).2

theorem mem_computeGcReachable (log : LogView) (roots : GcRoots) (eventId : String) :
    eventId ∈ computeGcReachable log roots ↔ ∃ seed ∈ gcSeeds log roots,
      Relation.ReflTransGen (fun a b => b ∈ references log a) seed eventId :=
  Worklist.mem_closure (mem_gcSeeds log roots) (fun _ _ => mem_references) eventId

/-- A set of logged events with the roots in the log and the events above the floor, closed under
references to logged events. The event of an id is the last record with it. -/
structure GcClosed (log : LogView) (roots : GcRoots) (kept : Set String) : Prop where
  logged : ∀ eventId ∈ kept, eventId ∈ idsOf log.allRecords
  rooted : ∀ eventId ∈ roots.ids, eventId ∈ idsOf log.allRecords → eventId ∈ kept
  above : ∀ floor, roots.postSnapshotFloor = some floor → ∀ eventId record,
    log.byId eventId = some record → floor < record.sequenceNumber → eventId ∈ kept
  refs : ∀ eventId ∈ kept, ∀ record, log.byId eventId = some record → ∀ ref,
    (record.provenance.causationEventId = some ref ∨ record.supersede.supersededEventId? = some ref) →
      ref ∈ idsOf log.allRecords → ref ∈ kept

theorem mem_gcSeeds_iff {log : LogView} : eventId ∈ gcSeeds log roots ↔
    (eventId ∈ roots.ids ∧ eventId ∈ idsOf log.allRecords) ∨
      ∃ floor record, roots.postSnapshotFloor = some floor ∧ log.byId eventId = some record ∧
        floor < record.sequenceNumber := by
  unfold gcSeeds
  rw [mem_append, mem_filter, decide_eq_true_eq]
  apply or_congr_right
  cases roots.postSnapshotFloor with
  | none => simp
  | some floor =>
    constructor
    · intro hseed
      obtain ⟨record, hrecord, rfl⟩ := mem_map.mp hseed
      obtain ⟨hmem, habove⟩ := mem_filter.mp hrecord
      obtain ⟨other, -, hother⟩ := mem_filterMap.mp hmem
      have hid := (LogView.byId_some hother).2
      exact ⟨floor, record, rfl, hid ▸ hother, of_decide_eq_true habove⟩
    · rintro ⟨_, record, hfloor, hrecord, habove⟩
      cases hfloor
      obtain ⟨hmem, rfl⟩ := LogView.byId_some hrecord
      apply mem_map_of_mem
      exact mem_filter.mpr ⟨mem_filterMap.mpr ⟨record, hmem, hrecord⟩, decide_eq_true habove⟩

theorem mem_references_iff {log : LogView} : ref ∈ references log eventId ↔
    ref ∈ idsOf log.allRecords ∧ ∃ record, log.byId eventId = some record ∧
      (record.provenance.causationEventId = some ref ∨
        record.supersede.supersededEventId? = some ref) := by
  unfold references refsFrom
  simp only [mem_filter, mem_flatMap, Option.mem_toList, decide_eq_true_eq, mem_append]
  exact and_comm

theorem gcClosed_iff {log : LogView} {kept : Set String} :
    GcClosed log roots kept ↔ (∀ eventId ∈ kept, eventId ∈ idsOf log.allRecords) ∧
      (∀ eventId ∈ gcSeeds log roots, eventId ∈ kept) ∧
        ∀ eventId ∈ kept, ∀ ref ∈ references log eventId, ref ∈ kept := by
  simp only [mem_gcSeeds_iff, mem_references_iff]
  constructor
  · intro h
    refine ⟨h.logged, ?_, ?_⟩
    · rintro eventId (⟨hroot, hmem⟩ | ⟨floor, record, hfloor, hrecord, habove⟩)
      · exact h.rooted eventId hroot hmem
      · exact h.above floor hfloor eventId record hrecord habove
    · rintro eventId hkept ref ⟨hmem, record, hrecord, href⟩
      exact h.refs eventId hkept record hrecord ref href hmem
  · rintro ⟨hlogged, hseeds, hrefs⟩
    refine ⟨hlogged, fun eventId hroot hmem => hseeds eventId (Or.inl ⟨hroot, hmem⟩), ?_, ?_⟩
    · intro floor hfloor eventId record hrecord habove
      exact hseeds eventId (Or.inr ⟨floor, record, hfloor, hrecord, habove⟩)
    · intro eventId hkept record hrecord ref href hmem
      exact hrefs eventId hkept ref ⟨hmem, record, hrecord, href⟩

theorem computeGcReachable_closed (log : LogView) (roots : GcRoots) :
    IsLeast {kept | GcClosed log roots kept} {eventId | eventId ∈ computeGcReachable log roots} := by
  obtain ⟨hclosed, hleast⟩ := Worklist.closure_isLeast (mem_gcSeeds log roots) fun _ _ =>
    mem_references
  constructor
  · apply gcClosed_iff.mpr
    refine ⟨fun eventId hmem => ?_, hclosed⟩
    obtain ⟨seed, hseed, hpath⟩ := (mem_computeGcReachable log roots eventId).mp hmem
    cases hpath with
    | refl => exact mem_gcSeeds log roots _ hseed
    | tail _ hedge => exact mem_references _ hedge
  · exact fun kept hkept => hleast (gcClosed_iff.mp hkept).2

theorem computeGcReachable_mono {log : LogView} (hids : ∀ eventId ∈ roots.ids, eventId ∈ more.ids)
    (hfloor : ∀ floor, roots.postSnapshotFloor = some floor → ∃ lower, more.postSnapshotFloor =
      some lower ∧ lower ≤ floor) :
    ∀ eventId ∈ computeGcReachable log roots, eventId ∈ computeGcReachable log more := by
  have hmore := (computeGcReachable_closed log more).1
  apply (computeGcReachable_closed log roots).2
  constructor
  · exact hmore.logged
  · exact fun eventId hroot => hmore.rooted eventId (hids eventId hroot)
  · intro floor hsome eventId record hrecord habove
    obtain ⟨lower, hlower, hle⟩ := hfloor floor hsome
    exact hmore.above lower hlower eventId record hrecord (by omega)
  · exact hmore.refs

theorem computeGcReachable_least (log : LogView) (roots : GcRoots) :
    IsLeast {kept | GcClosed log roots kept} {eventId | eventId ∈ computeGcReachable log roots} ∧
      (∃ final, Relation.ReflTransGen (Worklist.Round (references log))
          (Worklist.enqueue { reached := [], queue := [] } (gcSeeds log roots)) final ∧
        final.queue = [] ∧ computeGcReachable log roots = final.reached) ∧
      ∀ more : GcRoots, (∀ eventId ∈ roots.ids, eventId ∈ more.ids) →
        (∀ floor, roots.postSnapshotFloor = some floor →
          ∃ lower, more.postSnapshotFloor = some lower ∧ lower ≤ floor) →
        ∀ eventId ∈ computeGcReachable log roots, eventId ∈ computeGcReachable log more := by
  refine ⟨computeGcReachable_closed log roots,
    Worklist.closure_drained (mem_gcSeeds log roots) fun _ _ => mem_references, ?_⟩
  exact fun _ hids hfloor => computeGcReachable_mono hids hfloor

/-- A leased event keeps its cause; the third event is garbage. -/
example :
    let caused : EventRecord := { followingRecord with
      provenance := { followingRecord.provenance with causationEventId := some "evt-1" } }
    let stray := stamp sampleEnv sampleIntent ⟨"evt-3", by decide⟩ sampleTime 2 none
    let log : LogView := { allRecords := [sampleRecord, caused, stray], indexed := [] }
    computeGcReachable log (computeGcRoots log [] (some [{ eventIds := some ["evt-2"] }])) =
      ["evt-2", "evt-1"] := by
  decide +kernel
end Flowness.Snapshot
