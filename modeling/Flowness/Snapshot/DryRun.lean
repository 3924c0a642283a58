import Flowness.Snapshot.Unconsumed

/-!
A dry run of the compaction against a real run. Both first bring the projections up to date. The
real run then puts its anchor snapshot on the log, which moves the archive bound and the window of
retained snapshots.
-/

namespace Flowness.Snapshot

open List Library Schemas Ledger
open Ledger.EventIndex (idsOf)

inductive SkipReason where
  | aboveBound (count : Nat) (bound : Int)
  | allPinned
deriving DecidableEq, Repr

structure SegmentCompactionPlan where
  segment : Nat
  startSeq : Nat
  endSeq : Nat
  totalEvents : Nat
  pinnedCount : Nat
  movableCount : Nat := 0
  movableNoiseCount : Nat := 0
  movableColdCount : Nat := 0
  hotBytesBefore : Nat
  hotBytesAfterEstimate : Nat
  skipReason : Option SkipReason := none
deriving DecidableEq, Repr

def planSegment (segment : Nat) (visit : SegmentVisit) (bound : Int) (reachable : List String) :
    Option SegmentCompactionPlan :=
  let records := visit.records
  let numbers := records.map (·.sequenceNumber)
  let above := records.filter fun record => bound < (record.sequenceNumber : Int)
  let (pinned, movable) := splitPinnedMovable records reachable
  let noise := movable.countP (·.baseClassification = .discardableNoise)
  let plan : SegmentCompactionPlan :=
    { segment
      startSeq := numbers.min?.getD 0
      endSeq := numbers.max?.getD 0
      totalEvents := records.length
      pinnedCount := records.length
      hotBytesBefore := visit.content.length
      hotBytesAfterEstimate := visit.content.length }
  if records = [] then none
  else if above ≠ [] then some { plan with skipReason := some (.aboveBound above.length bound) }
  else if movable = [] then some { plan with skipReason := some .allPinned }
  else
    some { plan with
      pinnedCount := pinned.length
      movableCount := movable.length
      movableNoiseCount := noise
      movableColdCount := movable.length - noise
      hotBytesAfterEstimate := (pinned.map fun record => record.dumpJson.length + 1).sum }

section

variable {segment : Nat} {visit : SegmentVisit} {bound watermark : Int} {kept reachable : List String}

theorem planSegment_eq_none :
    planSegment segment visit bound reachable = none ↔ visit.records = [] := by
  unfold planSegment
  dsimp only
  split_ifs <;> simp_all

section

variable {record : EventRecord} (hrecord : record ∈ visit.records)
  (habove : bound < (record.sequenceNumber : Int))
include hrecord habove

theorem planSegment_above : ∃ plan, (∀ reachable,
    planSegment segment visit bound reachable = some plan) ∧ plan.skipReason =
      some (.aboveBound (visit.records.filter fun record =>
        bound < (record.sequenceNumber : Int)).length bound) := by
  have hskip : visit.records.filter (fun record => bound < (record.sequenceNumber : Int)) ≠ [] :=
    ne_nil_of_mem (mem_filter.mpr ⟨hrecord, decide_eq_true habove⟩)
  unfold planSegment
  dsimp only
  simp only [if_neg (ne_nil_of_mem hrecord), if_pos hskip]
  exact ⟨_, fun _ => rfl, rfl⟩

end

section

variable (hne : visit.records ≠ [])
  (hbelow : ∀ record ∈ visit.records, (record.sequenceNumber : Int) ≤ bound)
include hne hbelow

theorem planSegment_below
    (hwatermark : ∀ record ∈ visit.records, (record.sequenceNumber : Int) ≤ watermark)
    (hpinned : ∀ record ∈ visit.records,
      isPinned visit.records reachable record = isPinned visit.records kept record) :
    planSegment segment visit watermark reachable = planSegment segment visit bound kept := by
  have hskip : ∀ limit : Int, (∀ record ∈ visit.records, (record.sequenceNumber : Int) ≤ limit) →
      ¬visit.records.filter (fun record => limit < (record.sequenceNumber : Int)) ≠ [] := by
    intro limit hle
    simpa using hle
  have hsplit : splitPinnedMovable visit.records reachable = splitPinnedMovable visit.records kept := by
    unfold splitPinnedMovable
    rw [partition_eq_filter_filter, partition_eq_filter_filter, filter_congr hpinned]
    congr 1
    apply filter_congr
    intro record hrecord
    rw [Function.comp_apply, hpinned record hrecord, Function.comp_apply]
  unfold planSegment
  dsimp only
  rw [hsplit, if_neg hne, if_neg (hskip bound hbelow), if_neg hne, if_neg (hskip watermark hwatermark)]

theorem pinnedCount_of_below (hplan : planSegment segment visit bound reachable = some plan) :
    plan.pinnedCount = (visit.records.filter (isPinned visit.records reachable)).length ∧
      ∀ count limit, plan.skipReason ≠ some (.aboveBound count limit) := by
  have hskip : ¬visit.records.filter (fun record => bound < (record.sequenceNumber : Int)) ≠ [] := by
    simpa using hbelow
  unfold planSegment splitPinnedMovable at hplan
  simp only [if_neg hne, if_neg hskip, partition_eq_filter_filter] at hplan
  split_ifs at hplan with hall
  · have hpinned : visit.records.filter (isPinned visit.records reachable) = visit.records := by
      simpa using hall
    cases hplan
    exact ⟨by rw [hpinned], by simp⟩
  · cases hplan
    exact ⟨rfl, by simp⟩

end

/-- The plans for two bounds and what is reachable then. A segment below both is planned by what it
keeps, another one by the bound itself. -/
theorem planSegment_eq_iff (hne : visit.records ≠ []) (hle : bound ≤ watermark)
    (hkept : ∀ record ∈ visit.records, isPinned visit.records kept record = true →
      isPinned visit.records reachable record = true) :
    planSegment segment visit watermark reachable = planSegment segment visit bound kept ↔
      (bound = watermark ∧ ∃ record ∈ visit.records, bound < (record.sequenceNumber : Int)) ∨
        (∀ record ∈ visit.records, (record.sequenceNumber : Int) ≤ bound) ∧
          ∀ record ∈ visit.records, isPinned visit.records reachable record = true →
            isPinned visit.records kept record = true := by
  by_cases hbelow : ∀ record ∈ visit.records, (record.sequenceNumber : Int) ≤ bound
  · have hwatermark : ∀ record ∈ visit.records, (record.sequenceNumber : Int) ≤ watermark :=
      fun record hrecord => (hbelow record hrecord).trans hle
    constructor
    · intro heq
      obtain ⟨plan, hplan⟩ := Option.ne_none_iff_exists'.mp (mt planSegment_eq_none.mp hne)
      have hcount := (pinnedCount_of_below hne hwatermark (heq.trans hplan)).1.symm.trans
        (pinnedCount_of_below hne hbelow hplan).1
      have hnarrow : (visit.records.filter (isPinned visit.records reachable)).filter
          (isPinned visit.records kept) = visit.records.filter (isPinned visit.records kept) := by
        rw [filter_filter]
        apply filter_congr
        intro record hrecord
        cases hpinned : isPinned visit.records kept record with
        | false => rfl
        | true => rw [hkept record hrecord hpinned, Bool.and_self]
      have hsame := (hnarrow ▸ filter_sublist).eq_of_length hcount.symm
      refine .inr ⟨hbelow, fun record hrecord hpinned => ?_⟩
      have hmem := mem_filter.mpr ⟨hrecord, hpinned⟩
      rw [← hsame] at hmem
      exact (mem_filter.mp hmem).2
    · rintro (⟨-, record, hrecord, habove⟩ | ⟨-, hpinned⟩)
      · exact absurd (hbelow record hrecord) (by omega)
      · exact planSegment_below hne hbelow hwatermark fun record hrecord =>
          Bool.eq_iff_iff.mpr ⟨hpinned record hrecord, hkept record hrecord⟩
  · push Not at hbelow
    obtain ⟨record, hrecord, habove⟩ := hbelow
    obtain ⟨plan, hplan, hskip⟩ := planSegment_above hrecord habove
    constructor
    · intro heq
      refine .inl ⟨?_, record, hrecord, habove⟩
      rw [hplan kept] at heq
      by_cases hwatermark : ∀ record ∈ visit.records, (record.sequenceNumber : Int) ≤ watermark
      · exact absurd hskip ((pinnedCount_of_below hne hwatermark heq).2 _ _)
      · push Not at hwatermark
        obtain ⟨other, hother, hover⟩ := hwatermark
        obtain ⟨dry, hdry, hdrySkip⟩ := planSegment_above hother hover
        cases (hdry reachable).symm.trans heq
        exact (SkipReason.aboveBound.inj (Option.some.inj (hskip.symm.trans hdrySkip))).2
    · rintro (⟨rfl, -⟩ | ⟨hall, -⟩)
      · rw [hplan, hplan]
      · exact absurd (hall record hrecord) (by omega)

end

namespace GcState

variable (state : GcState) (sealed : List (Nat × SegmentVisit))

/-- `run_segment_compaction(dry_run=True)`. -/
def dryRunPlans : List SegmentCompactionPlan :=
  sealed.filterMap fun (segment, visit) =>
    planSegment segment visit state.moveBound.consumerWatermark state.reachable

/-- The plans of the real run, with its anchor on the log. -/
def realRunPlans : List SegmentCompactionPlan :=
  if state.moveBound.bound ≤ 0 then []
  else sealed.filterMap fun (segment, visit) =>
    planSegment segment visit state.moveBound.bound state.reachable

def anchored (anchor : EventRecord) : GcState :=
  { state with
    log :=
      { allRecords := state.log.allRecords ++ [anchor]
        indexed := state.log.indexed ++ [anchor] } }

/-- The roots with the newest `window` snapshots retained. -/
def rootsWithin (window : Nat) : GcRoots :=
  let (snapshotAnchors, postSnapshotFloor) := snapshotAnchorRoots state.log window
  { computeGcRoots state.log state.projections (some state.leases) with
    snapshotAnchors, postSnapshotFloor }

def reachableWithin (window : Nat) : List String :=
  computeGcReachable state.log (state.rootsWithin window)

/-- The consumer watermark, lowered to the offset of every snapshot on the log. -/
def loweredBound : Int :=
  (retainedSnapshotOffsets state.log).foldl min state.moveBound.consumerWatermark

/-- What a snapshot keeps: its own event and those after its offset. -/
def Anchors (snapshot : EventRecord) (eventId : String) : Prop :=
  eventId = snapshot.eventId.val ∨ ∃ offset record,
    (snapshot.payload.get "event_offset").bind Json.asInt = some offset ∧
      state.log.byId eventId = some record ∧ offset < (record.sequenceNumber : Int)

/-- One logged event names the other as its cause or as what it supersedes. -/
def Refers (eventId ref : String) : Prop :=
  ref ∈ idsOf state.log.allRecords ∧ ∃ record, state.log.byId eventId = some record ∧
    (record.provenance.causationEventId = some ref ∨ record.supersede.supersededEventId? = some ref)

/-- References lead from a logged root to the record, or to another one of its batch. -/
def PinnedFrom (roots : String → Prop) (records : List EventRecord) (record : EventRecord) : Prop :=
  ∃ other ∈ records, (other = record ∨ record.batchId.isSome ∧ other.batchId = record.batchId) ∧
    ∃ root, roots root ∧ root ∈ idsOf state.log.allRecords ∧
      Relation.ReflTransGen state.Refers root other.eventId.val

/-- A root also when only the newest `window` snapshots are retained. -/
def RootWithin (window : Nat) (eventId : String) : Prop :=
  eventId ∈ (state.rootsWithin 0).ids ∨
    ∃ snapshot ∈ recentByType state.log .snapshotCreated window, state.Anchors snapshot eventId

/-- No snapshot hides events of the segment from the bound, and where the segment is below it, the
fifth newest snapshot pins none of them alone. -/
def Foreseen (records : List EventRecord) : Prop :=
  (state.loweredBound = state.moveBound.consumerWatermark ∧
      ∃ record ∈ records, state.loweredBound < (record.sequenceNumber : Int)) ∨
    (∀ record ∈ records, (record.sequenceNumber : Int) ≤ state.loweredBound) ∧
      ∀ fifth, (recentByType state.log .snapshotCreated 5)[4]? = some fifth →
        ∀ record ∈ records, state.PinnedFrom (state.Anchors fifth) records record →
          state.PinnedFrom (state.RootWithin 4) records record

/-- There is nothing to plan, or the real run has a bound and plans each segment as foreseen. -/
def Predicted : Prop :=
  (∀ entry ∈ sealed, entry.2.records = []) ∨
    0 < state.loweredBound ∧ ∀ entry ∈ sealed, state.Foreseen entry.2.records

/-- The record that `create_standalone_snapshot` writes at the head of a log that the projections
have caught up with, under a fresh id. -/
structure AnchoredBy (anchor : EventRecord) : Prop where
  type : anchor.eventType = .snapshotCreated
  offset : (anchor.payload.get "event_offset").bind Json.asInt =
    some (max 0 ((anchor.sequenceNumber : Int) - 1))
  uncaused : anchor.provenance.causationEventId = none
  supersedes : anchor.supersede.supersededEventId? = none
  newest : ∀ record ∈ state.log.allRecords, record.sequenceNumber < anchor.sequenceNumber
  ahead : ∀ record ∈ state.log.indexed, record.sequenceNumber < anchor.sequenceNumber
  fresh : anchor.eventId.val ∉ idsOf state.log.allRecords
  unleased : ∀ lease ∈ state.leases, anchor.eventId.val ∉ lease.eventIds.getD []
  unsealed : ∀ entry ∈ sealed, anchor.eventId.val ∉ idsOf entry.2.records
  caughtUp : state.projectionCursor ≤ anchor.sequenceNumber

variable {state sealed} {anchor : EventRecord}

theorem insertionSort_concat {r : EventRecord → EventRecord → Prop} [DecidableRel r]
    (h : ∀ record ∈ records, ¬r record anchor) :
    (records ++ [anchor]).insertionSort r = anchor :: records.insertionSort r := by
  induction records with
  | nil => rfl
  | cons record records ih =>
    rw [cons_append, insertionSort_cons, ih fun other hother =>
      h other (mem_cons_of_mem _ hother), orderedInsert_cons,
      if_neg (h record mem_cons_self), insertionSort_cons]

theorem byId_anchor : (state.anchored anchor).log.byId anchor.eventId.val = some anchor := by
  simp [anchored, LogView.byId]

theorem byId_anchored (hne : eventId ≠ anchor.eventId.val) :
    (state.anchored anchor).log.byId eventId = state.log.byId eventId := by
  simp [anchored, LogView.byId, hne.symm]

section

variable (h : state.AnchoredBy sealed anchor)
include h

theorem eventsByType_anchored (hne : eventType ≠ .snapshotCreated) :
    (state.anchored anchor).log.eventsByType eventType = state.log.eventsByType eventType := by
  have hother : anchor.eventType ≠ eventType := fun heq => hne (heq ▸ h.type)
  simp [anchored, LogView.eventsByType, hother]

theorem recentByType_anchored (hne : eventType ≠ .snapshotCreated) (window : Nat) :
    recentByType (state.anchored anchor).log eventType window =
      recentByType state.log eventType window := by
  rw [recentByType, eventsByType_anchored h hne, recentByType]

theorem recentSnapshots_anchored (window : Nat) :
    recentByType (state.anchored anchor).log .snapshotCreated (window + 1) =
      anchor :: recentByType state.log .snapshotCreated window := by
  have hevents : (state.anchored anchor).log.eventsByType .snapshotCreated =
      state.log.eventsByType .snapshotCreated ++ [anchor] := by
    simp [anchored, LogView.eventsByType, h.type]
  rw [recentByType, hevents, insertionSort_concat, take_succ_cons, recentByType]
  intro record hrecord hle
  have hlt := h.ahead record (mem_of_mem_filter hrecord)
  omega

theorem filterMap_bySequence_anchored :
    (state.anchored anchor).log.allRecords.filterMap
        (fun record => (state.anchored anchor).log.bySequence record.sequenceNumber) =
      state.log.allRecords.filterMap (fun record => state.log.bySequence record.sequenceNumber) ++
        [anchor] := by
  have hold : ∀ record ∈ state.log.allRecords, record.sequenceNumber ≠ anchor.sequenceNumber :=
    fun record hrecord => (h.newest record hrecord).ne
  unfold anchored LogView.bySequence
  rw [filterMap_append]
  congr 1
  · apply filterMap_congr
    intro record hrecord
    simp [(hold record hrecord).symm]
  · simp [filter_append]

theorem mem_leaseRoots_anchored (hne : eventId ≠ anchor.eventId.val) (lease : RetentionLease) :
    eventId ∈ leaseRoots (state.anchored anchor).log lease ↔
      eventId ∈ leaseRoots state.log lease := by
  unfold leaseRoots resolveInputHashEvents
  rw [eventsByType_anchored h (by decide)]
  cases lease.minSeq with
  | none => rfl
  | some minSeq =>
    simp only [filterMap_bySequence_anchored h, mem_append, filter_append, idsOf,
      map_append]
    have hnot : eventId ∉ ([anchor].filter (minSeq ≤ ·.sequenceNumber)).map (·.eventId.val) := by
      intro hmem
      obtain ⟨record, hrecord, rfl⟩ := mem_map.mp hmem
      rw [mem_singleton.mp (mem_of_mem_filter hrecord)] at hne
      exact hne rfl
    simp only [hnot, or_false]

theorem mem_ids_anchored (hne : eventId ≠ anchor.eventId.val) :
    eventId ∈ (computeGcRoots (state.anchored anchor).log state.projections
        (some state.leases)).ids ↔ eventId ∈ (state.rootsWithin 4).ids := by
  have hleases : eventId ∈ leaseProtectionRoots state.leases (state.anchored anchor).log ↔
      eventId ∈ leaseProtectionRoots state.leases state.log := by
    simp only [leaseProtectionRoots, mem_flatMap, mem_leaseRoots_anchored h hne]
  have hchains : supersedeChainRoots (state.anchored anchor).log = supersedeChainRoots state.log := by
    simp [supersedeChainRoots, anchored, h.supersedes]
  unfold GcRoots.ids rootsWithin computeGcRoots snapshotAnchorRoots
  simp (disch := decide) only [activeObjectRoots, inFlightEnvelopeRoots, protocolLevelAnchorRoots,
    natureAnchorRoots, eventsByType_anchored h, recentByType_anchored h,
    recentSnapshots_anchored h 4, idsOf, map_cons, mem_append, mem_cons, hne, false_or,
    Option.getD_some, hleases, hchains]

theorem above_floor_anchored (hlt : number < anchor.sequenceNumber) :
    (∃ floor, (computeGcRoots (state.anchored anchor).log state.projections
        (some state.leases)).postSnapshotFloor = some floor ∧ floor < (number : Int)) ↔
      ∃ floor, (state.rootsWithin 4).postSnapshotFloor = some floor ∧ floor < (number : Int) := by
  unfold computeGcRoots rootsWithin snapshotAnchorRoots
  simp only [recentSnapshots_anchored h 4, filterMap_cons, h.offset, List.min?_cons]
  cases ((recentByType state.log .snapshotCreated 4).filterMap fun record =>
    (record.payload.get "event_offset").bind Json.asInt).min? with
  | none =>
    simp only [Option.elim_none, Option.some.injEq, exists_eq_left', reduceCtorEq, false_and,
      exists_false, iff_false]
    omega
  | some floor =>
    simp only [Option.elim_some, Option.some.injEq, exists_eq_left']
    omega

/-- Of the older records the anchor keeps those that four snapshots keep. -/
theorem mem_reachable_anchored (hne : eventId ≠ anchor.eventId.val) :
    eventId ∈ (state.anchored anchor).reachable ↔ eventId ∈ state.reachableWithin 4 := by
  have hids : ∀ id, id ∈ idsOf (state.anchored anchor).log.allRecords ↔
      id ∈ idsOf state.log.allRecords ∨ id = anchor.eventId.val := by
    simp [anchored, idsOf]
  have hnew := computeGcReachable_closed (state.anchored anchor).log
    (computeGcRoots (state.anchored anchor).log state.projections (some state.leases))
  have hold := computeGcReachable_closed state.log (state.rootsWithin 4)
  constructor
  · intro hmem
    have hclosed : GcClosed (state.anchored anchor).log
        (computeGcRoots (state.anchored anchor).log state.projections (some state.leases))
        {id | id = anchor.eventId.val ∨ id ∈ state.reachableWithin 4} := by
      refine ⟨?_, ?_, ?_, ?_⟩
      · rintro id (rfl | hid)
        · exact (hids _).mpr (.inr rfl)
        · exact (hids _).mpr (.inl (hold.1.logged id hid))
      · intro id hroot hlogged
        by_cases heq : id = anchor.eventId.val
        · exact .inl heq
        · exact .inr (hold.1.rooted id ((mem_ids_anchored h heq).mp hroot)
            (((hids id).mp hlogged).resolve_right heq))
      · intro floor hfloor id record hrecord habove
        by_cases heq : id = anchor.eventId.val
        · exact .inl heq
        · rw [byId_anchored heq] at hrecord
          have hlt := h.newest record (LogView.byId_some hrecord).1
          obtain ⟨lower, hlower, hbelow⟩ := (above_floor_anchored h hlt).mp ⟨floor, hfloor, habove⟩
          exact .inr (hold.1.above lower hlower id record hrecord hbelow)
      · intro id hid record hrecord ref href hlogged
        by_cases heq : id = anchor.eventId.val
        · rw [heq, byId_anchor] at hrecord
          cases hrecord
          rw [h.uncaused, h.supersedes] at href
          rcases href with href | href <;> cases href
        · rw [byId_anchored heq] at hrecord
          rcases (hids ref).mp hlogged with hlogged | hself
          · exact .inr (hold.1.refs id (hid.resolve_left heq) record hrecord ref href hlogged)
          · exact .inl hself
    exact (hnew.2 hclosed hmem).resolve_left hne
  · intro hmem
    have hclosed : GcClosed state.log (state.rootsWithin 4) {id | id ∈ idsOf state.log.allRecords ∧
        id ∈ (state.anchored anchor).reachable} := by
      have hapart : ∀ id ∈ idsOf state.log.allRecords, id ≠ anchor.eventId.val :=
        fun id hid heq => h.fresh (heq ▸ hid)
      refine ⟨fun id hid => hid.1, ?_, ?_, ?_⟩
      · intro id hroot hlogged
        exact ⟨hlogged, hnew.1.rooted id ((mem_ids_anchored h (hapart id hlogged)).mpr hroot)
          ((hids id).mpr (.inl hlogged))⟩
      · intro floor hfloor id record hrecord habove
        obtain ⟨hmem, rfl⟩ := LogView.byId_some hrecord
        have hlogged : record.eventId.val ∈ idsOf state.log.allRecords := mem_map_of_mem hmem
        obtain ⟨lower, hlower, hbelow⟩ := (above_floor_anchored h (h.newest record
          hmem)).mpr ⟨floor, hfloor, habove⟩
        rw [← byId_anchored (hapart _ hlogged)] at hrecord
        exact ⟨hlogged, hnew.1.above lower hlower _ record hrecord hbelow⟩
      · rintro id ⟨hlogged, hid⟩ record hrecord ref href hreferred
        rw [← byId_anchored (hapart id hlogged)] at hrecord
        exact ⟨hreferred, hnew.1.refs id hid record hrecord ref href ((hids ref).mpr (.inl hreferred))⟩
    exact (hold.2 hclosed hmem).2

theorem consumerWatermark_anchored :
    (state.anchored anchor).moveBound.consumerWatermark = state.moveBound.consumerWatermark := by
  have hfloor : leaseWatermarkFloor state.leases (state.anchored anchor).log =
      leaseWatermarkFloor state.leases state.log := by
    unfold leaseWatermarkFloor
    congr 3
    apply flatMap_congr
    intro lease hlease
    congr 1
    apply filterMap_congr
    intro eventId hid
    rw [byId_anchored fun heq => h.unleased lease hlease (heq ▸ hid)]
  unfold moveBound computeArchiveSeqBound
  simp only [Option.bind_some, Option.map_none]
  exact congrArg _ hfloor

theorem bound_anchored : (state.anchored anchor).moveBound.bound = state.loweredBound := by
  have hoffsets : retainedSnapshotOffsets (state.anchored anchor).log =
      retainedSnapshotOffsets state.log ++ [max 0 ((anchor.sequenceNumber : Int) - 1)] := by
    simp [retainedSnapshotOffsets, LogView.eventsByType, anchored, h.type, h.offset]
  have hle : state.moveBound.consumerWatermark ≤ max 0 ((anchor.sequenceNumber : Int) - 1) := by
    have hcaughtUp := h.caughtUp
    have hprojected := state.moveBound_le.1
    unfold projectionWatermark at hprojected
    omega
  have hfold : ∀ (offsets : List Int) (watermark : Int),
      watermark ≤ max 0 ((anchor.sequenceNumber : Int) - 1) →
        min watermark ((offsets ++ [max 0 ((anchor.sequenceNumber : Int) - 1)]).min?.getD 0) =
          offsets.foldl min watermark := by
    intro offsets
    induction offsets with
    | nil => simp
    | cons offset offsets ih =>
      intro watermark hle
      rw [cons_append, List.min?_cons, foldl_cons, ← ih _ (by omega)]
      cases hmin : (offsets ++ [max 0 ((anchor.sequenceNumber : Int) - 1)]).min? with
      | none => simp at hmin
      | some least => simp [min_assoc]
  calc (state.anchored anchor).moveBound.bound
      = min (state.anchored anchor).moveBound.consumerWatermark
          ((retainedSnapshotOffsets (state.anchored anchor).log).min?.getD 0) := rfl
    _ = state.loweredBound := by
      rw [consumerWatermark_anchored h, hoffsets, hfold _ _ hle, loweredBound]

end

theorem exists_min?_lt {offsets : List Int} :
    (∃ floor, offsets.min? = some floor ∧ floor < number) ↔ ∃ offset ∈ offsets, offset < number := by
  constructor
  · rintro ⟨floor, hfloor, hlt⟩
    exact ⟨floor, (List.min?_eq_some_iff.mp hfloor).1, hlt⟩
  · rintro ⟨offset, hoffset, hlt⟩
    obtain ⟨floor, hfloor⟩ := Option.isSome_iff_exists.mp (isSome_min?_of_mem hoffset)
    exact ⟨floor, hfloor, lt_of_le_of_lt ((List.min?_eq_some_iff.mp hfloor).2 offset hoffset) hlt⟩

theorem mem_seedsWithin (window : Nat) : eventId ∈ gcSeeds state.log (state.rootsWithin window) ↔
    state.RootWithin window eventId ∧ eventId ∈ idsOf state.log.allRecords := by
  have hids : eventId ∈ (state.rootsWithin window).ids ↔
      eventId ∈ (state.rootsWithin 0).ids ∨
        eventId ∈ idsOf (recentByType state.log .snapshotCreated window) := by
    unfold GcRoots.ids rootsWithin snapshotAnchorRoots recentByType
    simp only [take_zero, idsOf, map_nil, nil_append, append_assoc, mem_append]
    exact or_comm
  have hfloor : (∃ floor record, (state.rootsWithin window).postSnapshotFloor = some floor ∧
      state.log.byId eventId = some record ∧ floor < (record.sequenceNumber : Int)) ↔
        ∃ snapshot ∈ recentByType state.log .snapshotCreated window, ∃ offset record,
          (snapshot.payload.get "event_offset").bind Json.asInt = some offset ∧
            state.log.byId eventId = some record ∧ offset < (record.sequenceNumber : Int) := by
    unfold rootsWithin snapshotAnchorRoots
    constructor
    · rintro ⟨floor, record, hmin, hrecord, hlt⟩
      obtain ⟨snapshot, hsnapshot, hoffset⟩ := mem_filterMap.mp (List.min?_eq_some_iff.mp hmin).1
      exact ⟨snapshot, hsnapshot, floor, record, hoffset, hrecord, hlt⟩
    · rintro ⟨snapshot, hsnapshot, offset, record, hoffset, hrecord, hlt⟩
      have hmem : offset ∈ (recentByType state.log .snapshotCreated window).filterMap fun record =>
          (record.payload.get "event_offset").bind Json.asInt :=
        mem_filterMap.mpr ⟨snapshot, hsnapshot, hoffset⟩
      obtain ⟨floor, hmin, hbelow⟩ := exists_min?_lt.mpr ⟨offset, hmem, hlt⟩
      exact ⟨floor, record, hmin, hrecord, hbelow⟩
  have hlogged : (∃ record, state.log.byId eventId = some record) → eventId ∈ idsOf state.log.allRecords := by
    rintro ⟨record, hrecord⟩
    obtain ⟨hmem, rfl⟩ := LogView.byId_some hrecord
    exact mem_map_of_mem hmem
  rw [mem_gcSeeds_iff, hids, hfloor]
  unfold RootWithin Anchors
  constructor
  · rintro (⟨hother | hown, hmem⟩ | ⟨snapshot, hsnapshot, offset, record, habove⟩)
    · exact ⟨Or.inl hother, hmem⟩
    · obtain ⟨snapshot, hsnapshot, rfl⟩ := mem_map.mp hown
      exact ⟨Or.inr ⟨snapshot, hsnapshot, Or.inl rfl⟩, hmem⟩
    · exact ⟨Or.inr ⟨snapshot, hsnapshot, Or.inr ⟨offset, record, habove⟩⟩,
        hlogged ⟨record, habove.2.1⟩⟩
  · rintro ⟨hother | ⟨snapshot, hsnapshot, rfl | habove⟩, hmem⟩
    · exact Or.inl ⟨Or.inl hother, hmem⟩
    · exact Or.inl ⟨Or.inr (mem_map_of_mem hsnapshot), hmem⟩
    · exact Or.inr ⟨snapshot, hsnapshot, habove⟩

theorem isPinned_within (window : Nat) (hrecord : record ∈ records) :
    isPinned records (state.reachableWithin window) record = true ↔
      state.PinnedFrom (state.RootWithin window) records record := by
  rw [isPinned_iff_mem hrecord]
  unfold PinnedFrom reachableWithin
  simp only [mem_computeGcReachable, mem_references_iff, mem_seedsWithin, and_assoc]
  rfl

/-- What the fifth newest snapshot adds to the pins of four. -/
theorem isPinned_reachable_iff (hrecord : record ∈ records) :
    isPinned records state.reachable record = true ↔
      isPinned records (state.reachableWithin 4) record = true ∨
        ∃ fifth, (recentByType state.log .snapshotCreated 5)[4]? = some fifth ∧
          state.PinnedFrom (state.Anchors fifth) records record := by
  have hfive : ∀ snapshot, snapshot ∈ recentByType state.log .snapshotCreated 5 ↔
      snapshot ∈ recentByType state.log .snapshotCreated 4 ∨
        (recentByType state.log .snapshotCreated 5)[4]? = some snapshot := by
    intro snapshot
    unfold recentByType
    rw [getElem?_take_of_lt (by decide), take_add_one, mem_append, Option.mem_toList]
  rw [show state.reachable = state.reachableWithin 5 from rfl, isPinned_within 5 hrecord,
    isPinned_within 4 hrecord]
  unfold PinnedFrom RootWithin
  simp only [hfive]
  constructor
  · rintro ⟨other, hother, hunit, root, hother' | ⟨snapshot, hold | hfifth, hanchors⟩, hpath⟩
    · exact Or.inl ⟨other, hother, hunit, root, Or.inl hother', hpath⟩
    · exact Or.inl ⟨other, hother, hunit, root, Or.inr ⟨snapshot, hold, hanchors⟩, hpath⟩
    · exact Or.inr ⟨snapshot, hfifth, other, hother, hunit, root, hanchors, hpath⟩
  · rintro (⟨other, hother, hunit, root, hroot | ⟨snapshot, hold, hanchors⟩, hpath⟩ |
      ⟨snapshot, hfifth, other, hother, hunit, root, hanchors, hpath⟩)
    · exact ⟨other, hother, hunit, root, Or.inl hroot, hpath⟩
    · exact ⟨other, hother, hunit, root, Or.inr ⟨snapshot, Or.inl hold, hanchors⟩, hpath⟩
    · exact ⟨other, hother, hunit, root, Or.inr ⟨snapshot, Or.inr hfifth, hanchors⟩, hpath⟩

theorem loweredBound_le (state : GcState) :
    state.loweredBound ≤ state.moveBound.consumerWatermark := by
  have hfold : ∀ (offsets : List Int) (watermark : Int), offsets.foldl min watermark ≤ watermark := by
    intro offsets
    induction offsets with
    | nil => exact fun _ => Int.le_refl _
    | cons offset offsets ih => exact fun watermark => (ih _).trans (Int.min_le_left _ _)
  exact hfold _ _

theorem filterMap_eq_filterMap_iff {α β : Type} {f g : α → Option β} {items : List α}
    (h : ∀ item ∈ items, f item = none ↔ g item = none) :
    items.filterMap f = items.filterMap g ↔ ∀ item ∈ items, f item = g item := by
  induction items with
  | nil => simp
  | cons item items ih =>
    have hitem := h item mem_cons_self
    rw [forall_mem_cons, ← ih fun other hother => h other (mem_cons_of_mem _ hother)]
    cases hf : f item with
    | none => rw [filterMap_cons_none hf, filterMap_cons_none (hitem.mp hf), hitem.mp hf]; simp
    | some value =>
      cases hg : g item with
      | none => exact absurd (hf.symm.trans (hitem.mpr hg)) (by simp)
      | some other => simp [hf, hg]

theorem isPinned_mono {kept more : List String}
    (h : ∀ record ∈ records, record.eventId.val ∈ kept → record.eventId.val ∈ more)
    {record : EventRecord} (hrecord : record ∈ records)
    (hpinned : isPinned records kept record = true) :
    isPinned records more record = true := by
  obtain ⟨other, hother, hunit, hkept⟩ := (isPinned_iff_mem hrecord).mp hpinned
  exact (isPinned_iff_mem hrecord).mpr ⟨other, hother, hunit, h other hother hkept⟩

theorem fifth_pins_iff :
    (∀ record ∈ records, isPinned records state.reachable record = true →
      isPinned records (state.reachableWithin 4) record = true) ↔
      ∀ fifth, (recentByType state.log .snapshotCreated 5)[4]? = some fifth →
        ∀ record ∈ records, state.PinnedFrom (state.Anchors fifth) records record →
          state.PinnedFrom (state.RootWithin 4) records record := by
  constructor
  · intro h fifth hfifth record hrecord hpinned
    apply (isPinned_within 4 hrecord).mp
    exact h record hrecord ((isPinned_reachable_iff hrecord).mpr (Or.inr ⟨fifth, hfifth, hpinned⟩))
  · intro h record hrecord hpinned
    rcases (isPinned_reachable_iff hrecord).mp hpinned with hfour | ⟨fifth, hfifth, hpinned⟩
    · exact hfour
    · exact (isPinned_within 4 hrecord).mpr (h fifth hfifth record hrecord hpinned)

theorem planSegment_anchored (h : state.AnchoredBy sealed anchor) (hentry : entry ∈ sealed) :
    planSegment entry.1 entry.2 state.moveBound.consumerWatermark state.reachable =
        planSegment entry.1 entry.2 state.loweredBound (state.anchored anchor).reachable ↔
      state.Foreseen entry.2.records := by
  have hapart : ∀ record ∈ entry.2.records, record.eventId.val ≠ anchor.eventId.val :=
    fun record hrecord heq => h.unsealed entry hentry (heq ▸ mem_map_of_mem hrecord)
  have hpinned : ∀ record ∈ entry.2.records,
      isPinned entry.2.records (state.anchored anchor).reachable record = true ↔
        isPinned entry.2.records (state.reachableWithin 4) record = true := by
    intro record hrecord
    constructor
    · exact isPinned_mono (fun other hother =>
        (mem_reachable_anchored h (hapart other hother)).mp) hrecord
    · exact isPinned_mono (fun other hother =>
        (mem_reachable_anchored h (hapart other hother)).mpr) hrecord
  by_cases hne : entry.2.records = []
  · rw [planSegment_eq_none.mpr hne, planSegment_eq_none.mpr hne, Foreseen, hne]
    simp
  · rw [planSegment_eq_iff hne state.loweredBound_le fun record hrecord hkept =>
      (isPinned_reachable_iff hrecord).mpr (Or.inl ((hpinned record hrecord).mp hkept))]
    rw [Foreseen, ← fifth_pins_iff]
    exact or_congr_right (and_congr_right fun _ => forall₂_congr fun record hrecord =>
      imp_congr_right fun _ => hpinned record hrecord)

theorem plans_eq_iff (h : state.AnchoredBy sealed anchor) :
    state.dryRunPlans sealed = (state.anchored anchor).realRunPlans sealed ↔
      state.Predicted sealed := by
  unfold dryRunPlans realRunPlans Predicted
  rw [bound_anchored h]
  split_ifs with hbound
  · rw [filterMap_eq_nil_iff]
    constructor
    · exact fun hnone => Or.inl fun entry hentry => planSegment_eq_none.mp (hnone entry hentry)
    · rintro (hnil | ⟨hpos, -⟩)
      · exact fun entry hentry => planSegment_eq_none.mpr (hnil entry hentry)
      · omega
  · rw [filterMap_eq_filterMap_iff fun _ _ => planSegment_eq_none.trans planSegment_eq_none.symm]
    constructor
    · exact fun heq => Or.inr ⟨by omega, fun entry hentry =>
        (planSegment_anchored h hentry).mp (heq entry hentry)⟩
    · rintro (hnil | ⟨-, hforeseen⟩) entry hentry
      · refine (planSegment_anchored h hentry).mpr (Or.inr ?_)
        rw [hnil entry hentry]
        simp
      · exact (planSegment_anchored h hentry).mpr (hforeseen entry hentry)

end GcState

/-- What a compaction is started on. `cold` has the committed records of the archives, once any
event is routed to cold storage. -/
structure CompactionStart where
  state : GcState
  nextSequence : Nat
  cold : Option (List (List EventRecord))
  sealed : List (Nat × SegmentVisit)

namespace CompactionStart

variable (start : CompactionStart) (reduce : LogView → Projections → EventRecord → Projections)

/-- `get_events_in_range` from the projection cursor on. What is hot overrides what is cold. -/
def pendingEvents : List EventRecord :=
  let inRange := fun records : List EventRecord => records.filter fun record =>
    start.state.projectionCursor ≤ record.sequenceNumber ∧ record.sequenceNumber < start.nextSequence
  let hot := inRange start.state.log.indexed
  match start.cold with
  | none => hot
  | some archives =>
    let cold := archives.flatMap fun records =>
      inRange (records.takeWhile (·.sequenceNumber < start.nextSequence))
    (EventIndex.comprehend ((cold ++ hot).map fun record => (record.eventId.val, record))).map Prod.snd

/-- `catchup`, with `reduce` for the reducers. -/
def catchup : CompactionStart :=
  let events := start.pendingEvents.insertionSort (·.sequenceNumber ≤ ·.sequenceNumber)
  match events.getLast? with
  | none => start
  | some last =>
    { start with
      state :=
        { start.state with
          projections := events.foldl (reduce start.state.log) start.state.projections
          projectionCursor := last.sequenceNumber + 1 } }

/-- `run_segment_compaction(dry_run=True)`: its plans, and the state it leaves. -/
def dryRun : List SegmentCompactionPlan × CompactionStart :=
  let ready := start.catchup reduce
  (ready.state.dryRunPlans ready.sealed, ready)

/-- The plans of the real run that writes the anchor. -/
def realRun (anchor : EventRecord) : List SegmentCompactionPlan :=
  let ready := start.catchup reduce
  (ready.state.anchored anchor).realRunPlans ready.sealed

/-- The dry run has the plans of the real run and changes nothing. -/
structure Predicts (anchor : EventRecord) : Prop where
  plans : (start.dryRun reduce).1 = start.realRun reduce anchor
  unchanged : (start.dryRun reduce).2 = start

variable {start reduce}

theorem mem_comprehend {ν : Type} {entries : List (String × ν)} {entry : String × ν}
    (h : entry ∈ EventIndex.comprehend entries) : entry ∈ entries := by
  induction entries using List.reverseRecOn with
  | nil => exact h
  | append_singleton entries last ih =>
    rw [EventIndex.comprehend, foldl_concat] at h
    rcases Dict.mem_or_eq_of_mem_set h with hmem | heq
    · exact mem_append_left _ (ih hmem)
    · exact mem_append_right _ (mem_singleton.mpr heq)

theorem le_of_pending (h : record ∈ start.pendingEvents) :
    start.state.projectionCursor ≤ record.sequenceNumber := by
  unfold pendingEvents at h
  cases hcold : start.cold with
  | none =>
    rw [hcold] at h
    exact (of_decide_eq_true (mem_filter.mp h).2).1
  | some archives =>
    rw [hcold] at h
    obtain ⟨entry, hentry, rfl⟩ := mem_map.mp h
    obtain ⟨other, hother, rfl⟩ := mem_map.mp (mem_comprehend hentry)
    rcases mem_append.mp hother with hmem | hmem
    · obtain ⟨records, -, hmem⟩ := mem_flatMap.mp hmem
      exact (of_decide_eq_true (mem_filter.mp hmem).2).1
    · exact (of_decide_eq_true (mem_filter.mp hmem).2).1

theorem catchup_eq_iff : start.catchup reduce = start ↔ start.pendingEvents = [] := by
  unfold catchup
  dsimp only
  cases hlast : (start.pendingEvents.insertionSort (·.sequenceNumber ≤ ·.sequenceNumber)).getLast? with
  | none =>
    have hsorted := getLast?_eq_none_iff.mp hlast
    exact iff_of_true rfl (perm_nil.mp (hsorted ▸ (perm_insertionSort _ _).symm))
  | some last =>
    have hmem : last ∈ start.pendingEvents :=
      (perm_insertionSort _ _).subset (mem_of_getLast? hlast)
    refine iff_of_false (fun h => ?_) (ne_nil_of_mem hmem)
    -- the cursor is past the last event
    have hcursor := congrArg (·.state.projectionCursor) h
    have hle := le_of_pending hmem
    simp only at hcursor
    omega

end CompactionStart

def unanchoredState : GcState :=
  { laggingState with
    log := { allRecords := [sampleRecord, followingRecord], indexed := [sampleRecord, followingRecord] }
    projectionCursor := 2 }

def caughtUpStart : CompactionStart where
  state := unanchoredState
  nextSequence := 2
  cold := none
  sealed := [(1, laggingVisit)]

def earlySnapshot : EventRecord :=
  stamp sampleEnv { sampleIntent with
    eventType := .snapshotCreated
    eventCategory := .snapshot
    payload := ⟨[("event_offset", .int 0)], by decide⟩ } secondId sampleTime 1 none

def snapshotState : GcState :=
  { laggingState with
    log := { allRecords := [sampleRecord, earlySnapshot], indexed := [sampleRecord, earlySnapshot] } }

def firstVisit : SegmentVisit where
  content := recordLines [sampleRecord]
  warm := [sampleRecord]
  cold := ColdStore.empty
  records := [sampleRecord]
  read := by
    have hunbroken : Unbroken [sampleRecord] := by decide +kernel
    exact (Verbatim.of_unbroken hunbroken).segment _ _ (by decide)

def snapshotStart : CompactionStart where
  state := snapshotState
  nextSequence := 2
  cold := none
  sealed := [(1, firstVisit)]

/-- The projections have not seen the second event. -/
def behindStart : CompactionStart :=
  { caughtUpStart with state := { unanchoredState with projectionCursor := 1 } }

end Flowness.Snapshot
