import Flowness.Snapshot.Archival
import Flowness.Snapshot.Reachability
import Mathlib.Data.List.MinMax

/-!
What the three collecting runs take from the hot log. An event goes when it lies below the archive
bound and nothing live refers to it; a segment goes, or is thinned, as a whole.
-/

namespace Flowness.Snapshot

open Library Schemas Ledger List
open Ledger.EventIndex (idsOf)

structure ConsumerCursor where
  consumerId : String
  lastDurableProcessedSeq : Nat
deriving DecidableEq, Repr

/-- `retention_watermark_with_default`. -/
def retentionWatermark (cursors : List ConsumerCursor) (default : Int) : Int :=
  ((cursors.map fun cursor => (cursor.lastDurableProcessedSeq : Int)).min?).getD default

/-- Below the lowest number that a lease protects by `min_seq` or by event id. -/
def leaseWatermarkFloor (leases : List RetentionLease) (log : LogView) : Option Int :=
  ((leases.flatMap fun lease => lease.minSeq.toList ++
    (lease.eventIds.getD []).filterMap fun eventId => (log.byId eventId).map (·.sequenceNumber)).map
      Int.ofNat).min?.map (· - 1)

def retainedSnapshotOffsets (log : LogView) : List Int :=
  (log.eventsByType .snapshotCreated).filterMap fun record =>
    (record.payload.get "event_offset").bind Json.asInt

structure ArchiveSeqBound where
  bound : Int
  consumerWatermark : Int
  hotReplayFloor : Int
deriving DecidableEq, Repr

def limited (watermark : Int) : Option Int → Int
  | none => watermark
  | some limit => max 0 (min watermark limit)

/-- `compute_archive_seq_bound`; without a store its part of the minimum is left out. -/
def computeArchiveSeqBound (log : LogView) (projectionCursor : Int)
    (leases : Option (List RetentionLease)) (cursors : Option (List ConsumerCursor)) :
    ArchiveSeqBound :=
  let projectionWatermark := max 0 (projectionCursor - 1)
  let registered := limited projectionWatermark
    (cursors.map (retentionWatermark · projectionWatermark))
  let consumerWatermark := limited registered (leases.bind (leaseWatermarkFloor · log))
  let hotReplayFloor := (retainedSnapshotOffsets log).min?.getD 0
  { bound := min consumerWatermark hotReplayFloor, consumerWatermark, hotReplayFloor }

@[simp] theorem limited_some (watermark limit : Int) :
    limited watermark (some limit) = max 0 (min watermark limit) := rfl

theorem limited_le (h : 0 ≤ watermark) (limit : Option Int) :
    limited watermark limit ≤ watermark := by
  cases limit with
  | none => exact Int.le_refl _
  | some limit =>
    rw [limited_some]
    omega

theorem limited_le_limit {watermark limit : Int} (h : 0 < limited watermark (some limit)) :
    limited watermark (some limit) ≤ limit := by
  rw [limited_some] at h ⊢
  omega

theorem limited_nonneg (h : 0 ≤ watermark) (limit : Option Int) : 0 ≤ limited watermark limit := by
  cases limit with
  | none => exact h
  | some limit =>
    rw [limited_some]
    omega

inductive RetentionAction where
  | keepHotForever | archiveToColdAfterGcUnreachable | digestThenArchive
  | discardAfterConsumersAdvance
deriving DecidableEq, Repr

def RetentionAction.value : RetentionAction → String
  | .keepHotForever => "keep_hot_forever"
  | .archiveToColdAfterGcUnreachable => "archive_to_cold_after_gc_unreachable"
  | .digestThenArchive => "digest_then_archive"
  | .discardAfterConsumersAdvance => "discard_after_consumers_advance"

instance : StrEnum RetentionAction where
  members :=
    [.keepHotForever, .archiveToColdAfterGcUnreachable, .digestThenArchive,
      .discardAfterConsumersAdvance]
  value := RetentionAction.value

def defaultRetentionAction : BaseClassification → RetentionAction
  | .immutableTruth => .archiveToColdAfterGcUnreachable
  | .abstractableProcess => .digestThenArchive
  | .discardableNoise => .discardAfterConsumersAdvance

/-- The first rule for the classification with a known action, else the default; immutable truth is
never discarded. -/
def resolveRetentionAction (classification : BaseClassification)
    (rules : List (List (String × Json))) : RetentionAction :=
  let resolved := (rules.findSome? fun rule =>
    if Dict.get rule "base_classification" = some (.str classification.value) then
      ((Dict.get rule "retention_action").bind Json.text?).bind StrEnum.ofValue
    else none).getD (defaultRetentionAction classification)
  if classification = .immutableTruth ∧ resolved = .discardAfterConsumersAdvance then
    .archiveToColdAfterGcUnreachable
  else resolved

/-- The rules of the newest `RetentionPolicyChanged`. -/
def loadActiveRetentionPolicy (log : LogView) : List (List (String × Json)) :=
  match (log.eventsByType .retentionPolicyChanged).argmax (·.sequenceNumber) with
  | none => []
  | some latest =>
    match latest.payload.get "after_state" with
    | some (.obj after) =>
      match Dict.get after "new_rules" with
      | some (.arr rules) => rules.filterMap fun
        | .obj rule => some rule
        | _ => none
      | _ => []
    | _ => []

/-- What a run finds once its projections have caught up and, unless it only reports, its anchor
snapshot is on the log. -/
structure GcState where
  log : LogView
  projections : Projections
  projectionCursor : Int
  leases : List RetentionLease
  cursors : List ConsumerCursor

namespace GcState

variable (state : GcState)

/-- `run_gc` takes the registered cursors into the bound. -/
def gcBound : ArchiveSeqBound :=
  computeArchiveSeqBound state.log state.projectionCursor (some state.leases) (some state.cursors)

/-- `run_gc_cold_move` and `run_segment_compaction` do not. -/
def moveBound : ArchiveSeqBound :=
  computeArchiveSeqBound state.log state.projectionCursor (some state.leases) none

def reachable : List String :=
  computeGcReachable state.log (computeGcRoots state.log state.projections (some state.leases))

/-- What `run_gc` reports as archivable. -/
def archivable : List EventRecord :=
  if 0 < state.gcBound.bound then
    state.log.allRecords.filter fun record =>
      (record.sequenceNumber : Int) ≤ state.gcBound.bound ∧
        resolveRetentionAction record.baseClassification (loadActiveRetentionPolicy state.log) =
          .discardAfterConsumersAdvance ∧
        record.eventId.val ∉ state.reachable
  else []

end GcState

/-- A sealed segment as a run comes to it: its bytes and the records that `_segment_records` makes
of them. -/
structure SegmentVisit where
  content : Bytes
  warm : List EventRecord
  cold : ColdStore
  records : List EventRecord
  read : segmentRecordsBy warm cold content = some records

/-- The loop over the sealed segments. One that is admitted is archived if its commit goes through,
at most `limit` of them. -/
def archiveSegments (admits : List EventRecord → Bool) :
    Option Nat → List (SegmentVisit × Bool) → List SegmentVisit
  | _, [] => []
  | some 0, _ => []
  | limit, (visit, committed) :: rest =>
    if admits visit.records && committed then
      visit :: archiveSegments admits (limit.map (· - 1)) rest
    else archiveSegments admits limit rest

namespace GcState

variable (state : GcState) (limit : Option Nat) (run : List (SegmentVisit × Bool))

/-- The segments `run_gc_cold_move` unlinks. -/
def runGcColdMove : List SegmentVisit :=
  if state.moveBound.bound ≤ 0 then []
  else archiveSegments (admitsMove · state.moveBound.bound state.reachable) limit run

/-- The segments `run_segment_compaction` thins to their pinned records. -/
def runSegmentCompaction : List SegmentVisit :=
  if state.moveBound.bound ≤ 0 then []
  else archiveSegments (admitsCompaction · state.moveBound.bound state.reachable) limit run

def planCompaction (visits : List SegmentVisit) : List SegmentVisit :=
  visits.filter fun visit =>
    admitsCompaction visit.records state.moveBound.consumerWatermark state.reachable

end GcState

namespace GcState

variable (state : GcState)

/-- The roots and the references hold the event: it is in every set that has the roots and the
events above the replay floor and is closed under references. -/
def Keeps (eventId : String) : Prop :=
  ∀ kept, GcClosed state.log (computeGcRoots state.log state.projections (some state.leases)) kept →
    eventId ∈ kept

/-- The state keeps the record, or another record of its batch on the segment. -/
def Pins (records : List EventRecord) (record : EventRecord) : Prop :=
  ∃ other ∈ records, (other = record ∨ record.batchId.isSome ∧ other.batchId = record.batchId) ∧
    state.Keeps other.eventId.val

theorem keeps_iff {state : GcState} : state.Keeps eventId ↔ eventId ∈ state.reachable := by
  obtain ⟨hclosed, hleast⟩ := computeGcReachable_closed state.log
    (computeGcRoots state.log state.projections (some state.leases))
  exact ⟨fun h => h _ hclosed, fun h kept hkept => hleast hkept h⟩

instance (eventId : String) : Decidable (state.Keeps eventId) := decidable_of_iff _ keeps_iff.symm

instance (records : List EventRecord) (record : EventRecord) : Decidable (state.Pins records record) :=
  inferInstanceAs (Decidable (∃ other ∈ records, _ ∧ _))

theorem isPinned_iff_mem {reachable : List String} (hrecord : record ∈ records) :
    isPinned records reachable record = true ↔ ∃ other ∈ records,
      (other = record ∨ record.batchId.isSome ∧ other.batchId = record.batchId) ∧
        other.eventId.val ∈ reachable := by
  unfold isPinned
  cases hbatch : record.batchId with
  | none =>
    simp only [decide_eq_true_eq, Option.isSome_none, Bool.false_eq_true, false_and, or_false]
    exact ⟨fun h => ⟨record, hrecord, rfl, h⟩, fun ⟨_, _, hsame, h⟩ => hsame ▸ h⟩
  | some batchId =>
    simp only [decide_eq_true_eq, pinnedBatches, mem_filterMap, Option.ite_none_right_eq_some,
      Option.isSome_some, true_and]
    constructor
    · rintro ⟨other, hother, hreachable, hsame⟩
      exact ⟨other, hother, Or.inr hsame, hreachable⟩
    · rintro ⟨other, hother, rfl | hsame, hreachable⟩
      · exact ⟨other, hother, hreachable, hbatch⟩
      · exact ⟨other, hother, hreachable, hsame⟩

theorem isPinned_iff {state : GcState} (hrecord : record ∈ records) :
    isPinned records state.reachable record = true ↔ state.Pins records record := by
  unfold Pins
  simp only [keeps_iff, isPinned_iff_mem hrecord]

end GcState

namespace SegmentVisit

variable (visit : SegmentVisit) (state : GcState)

def pinned : List EventRecord := (splitPinnedMovable visit.records state.reachable).1

def movable : List EventRecord := (splitPinnedMovable visit.records state.reachable).2

def Holds (record : EventRecord) : Prop :=
  record ∈ segmentRecords visit.content ∧ record ∈ state.log.allRecords

end SegmentVisit

theorem mem_archiveSegments {limit : Option Nat} {run : List (SegmentVisit × Bool)}
    {visit : SegmentVisit} (h : visit ∈ archiveSegments admits limit run) :
    visit ∈ run.map Prod.fst ∧ admits visit.records = true := by
  fun_induction archiveSegments admits limit run with
  | case1 => contradiction
  | case2 => contradiction
  | case3 limit _ committed rest _ hadmits ih =>
    rcases mem_cons.mp h with rfl | h
    · rw [Bool.and_eq_true] at hadmits
      exact ⟨mem_cons_self, hadmits.1⟩
    · exact ⟨mem_cons_of_mem _ (ih h).1, (ih h).2⟩
  | case4 limit _ committed rest _ _ ih => exact ⟨mem_cons_of_mem _ (ih h).1, (ih h).2⟩

theorem archiveSegments_all (admits : List EventRecord → Bool) (visits : List SegmentVisit) :
    archiveSegments admits none (visits.map (·, true)) = visits.filter (admits ·.records) := by
  induction visits with
  | nil => rfl
  | cons visit visits ih =>
    rw [map_cons, archiveSegments, Option.map_none, ih, filter_cons, Bool.and_true]
    simp

theorem not_mem_of_admitsMove {reachable : List String}
    (h : admitsMove records bound reachable = true) (hid : eventId ∈ reachable) :
    eventId ∉ idsOf records := by
  rintro hmem
  obtain ⟨record, hrecord, rfl⟩ := mem_map.mp hmem
  exact (admitsMove_iff.mp h).2.2 record hrecord hid

structure HotLog where
  sealed : List (List EventRecord)
  active : List EventRecord

namespace HotLog

variable (hot : HotLog)

def records : List EventRecord := hot.sealed.flatten ++ hot.active

def view : LogView := { allRecords := hot.records, indexed := hot.records }

def append (rotates : Bool) (added : List EventRecord) : HotLog :=
  if added ≠ [] ∧ hot.active ≠ [] ∧ rotates then { sealed := hot.sealed ++ [hot.active], active := added }
  else { hot with active := hot.active ++ added }

@[simp] theorem append_records (rotates : Bool) (added : List EventRecord) :
    (hot.append rotates added).records = hot.records ++ added := by
  unfold append
  split <;> simp [records]

end HotLog

inductive MaintenanceKind where
  | coldMove | compaction
deriving DecidableEq, Repr

/-- A run of `run_gc_cold_move` or of `run_segment_compaction` past its anchor snapshot, with the
state it found there. -/
structure MaintenanceRun where
  kind : MaintenanceKind
  start : GcState

def MaintenanceRun.bound (run : MaintenanceRun) : Int := run.start.moveBound.bound

def MaintenanceRun.reachable (run : MaintenanceRun) : List String := run.start.reachable

def startRun (hot : HotLog) (kind : MaintenanceKind) (projections : Projections)
    (projectionCursor : Int) (leases : List RetentionLease) : MaintenanceRun :=
  { kind, start := { log := hot.view, projections, projectionCursor, leases, cursors := [] } }

def MaintenanceRun.keeps (run : MaintenanceRun) (records : List EventRecord) :
    Option (List EventRecord) :=
  if run.bound ≤ 0 then none
  else
    match run.kind with
    | .coldMove => if admitsMove records run.bound run.reachable then some [] else none
    | .compaction =>
      if admitsCompaction records run.bound run.reachable then
        some (splitPinnedMovable records run.reachable).1
      else none

def HotLog.archive (hot : HotLog) (run : MaintenanceRun) (segment : Nat) : Option HotLog :=
  (hot.sealed[segment]?.bind run.keeps).map fun kept => { hot with sealed := hot.sealed.set segment kept }

theorem MaintenanceRun.keeps_sublist {run : MaintenanceRun} {records kept : List EventRecord}
    (h : run.keeps records = some kept) : kept.Sublist records := by
  unfold keeps at h
  split at h
  · cases h
  · split at h
    · obtain ⟨_, h⟩ := Option.ite_none_right_eq_some.mp h
      cases h
      exact nil_sublist _
    · obtain ⟨_, h⟩ := Option.ite_none_right_eq_some.mp h
      cases h
      unfold splitPinnedMovable
      rw [partition_eq_filter_filter]
      exact filter_sublist

private theorem flatten_set_sublist {segments : List (List EventRecord)} {segment : Nat}
    {records kept : List EventRecord} (hget : segments[segment]? = some records)
    (hsub : kept.Sublist records) : (segments.set segment kept).flatten.Sublist segments.flatten := by
  induction segments generalizing segment with
  | nil => cases hget
  | cons first rest ih =>
    cases segment with
    | zero =>
      obtain rfl : first = records := Option.some.inj hget
      exact hsub.append (List.Sublist.refl _)
    | succ segment => exact (List.Sublist.refl first).append (ih hget)

theorem HotLog.archive_sublist {hot later : HotLog} {run : MaintenanceRun} {segment : Nat}
    (h : hot.archive run segment = some later) : later.records.Sublist hot.records := by
  obtain ⟨kept, hkept, rfl⟩ := Option.map_eq_some_iff.mp h
  obtain ⟨records, hrecords, hkeeps⟩ := Option.bind_eq_some_iff.mp hkept
  exact (flatten_set_sublist hrecords (run.keeps_sublist hkeeps)).append (List.Sublist.refl _)

/-- The records of the hot log outside a sealed segment. -/
def HotLog.elsewhere (hot : HotLog) (segment : Nat) : List EventRecord :=
  (hot.sealed.eraseIdx segment).flatten ++ hot.active

theorem HotLog.mem_set {hot : HotLog} {segment : Nat} {records kept : List EventRecord}
    (hget : hot.sealed[segment]? = some records) (record : EventRecord) :
    record ∈ ({ hot with sealed := hot.sealed.set segment kept } : HotLog).records ↔
      record ∈ kept ∨ record ∈ hot.elsewhere segment := by
  unfold HotLog.records elsewhere
  have hlength := (List.getElem?_eq_some_iff.mp hget).1
  simp only [List.mem_append, List.mem_flatten, List.mem_eraseIdx_iff_getElem?,
    mem_iff_getElem? (l := hot.sealed.set segment kept)]
  rw [← or_assoc]
  apply or_congr_left
  constructor
  · rintro ⟨found, ⟨index, hfound⟩, hmem⟩
    rw [getElem?_set] at hfound
    split_ifs at hfound with hindex
    · cases hfound
      exact Or.inl hmem
    · exact Or.inr ⟨found, ⟨index, Ne.symm hindex, hfound⟩, hmem⟩
  · rintro (hmem | ⟨found, ⟨index, hindex, hfound⟩, hmem⟩)
    · exact ⟨kept, ⟨segment, by rw [List.getElem?_set_self hlength]⟩, hmem⟩
    · exact ⟨found, ⟨index, by rw [List.getElem?_set_ne (Ne.symm hindex), hfound]⟩, hmem⟩

theorem HotLog.mem_records {hot : HotLog} {segment : Nat} {records : List EventRecord}
    (hget : hot.sealed[segment]? = some records) (record : EventRecord) :
    record ∈ hot.records ↔ record ∈ records ∨ record ∈ hot.elsewhere segment := by
  obtain ⟨hlength, hrecords⟩ := List.getElem?_eq_some_iff.mp hget
  have hself : hot.sealed.set segment records = hot.sealed := by
    rw [← hrecords]
    exact List.set_getElem_self hlength
  have hset : record ∈ ({ hot with sealed := hot.sealed.set segment records } : HotLog).records ↔
      record ∈ records ∨ record ∈ hot.elsewhere segment := HotLog.mem_set hget record
  rwa [hself] at hset

/-- What a run leaves of a segment that it takes: the pinned records, which a cold move has none of. -/
theorem MaintenanceRun.keeps_eq {run : MaintenanceRun} {records kept : List EventRecord}
    (h : run.keeps records = some kept) :
    kept = records.filter fun record => run.start.Pins records record := by
  unfold keeps at h
  split at h
  · cases h
  · split at h
    · obtain ⟨hadmits, h⟩ := Option.ite_none_right_eq_some.mp h
      cases h
      symm
      rw [filter_eq_nil_iff]
      intro record _ hpins
      obtain ⟨other, hother, -, hkeeps⟩ := of_decide_eq_true hpins
      exact not_mem_of_admitsMove hadmits (GcState.keeps_iff.mp hkeeps) (mem_map_of_mem hother)
    · obtain ⟨-, h⟩ := Option.ite_none_right_eq_some.mp h
      cases h
      unfold splitPinnedMovable
      rw [partition_eq_filter_filter]
      apply filter_congr
      intro record hrecord
      rw [Bool.eq_iff_iff, decide_eq_true_eq]
      exact GcState.isPinned_iff hrecord

theorem HotLog.filter_set {hot : HotLog} {segment : Nat} {records kept : List EventRecord}
    (hget : hot.sealed[segment]? = some records) {p : EventRecord → Bool}
    (hsame : kept.filter p = records.filter p) :
    ({ hot with sealed := hot.sealed.set segment kept } : HotLog).records.filter p =
      hot.records.filter p := by
  obtain ⟨hlength, rfl⟩ := List.getElem?_eq_some_iff.mp hget
  unfold HotLog.records
  rw [List.filter_append, List.filter_append, List.filter_flatten, List.filter_flatten, List.map_set,
    hsame]
  congr 2
  apply ext_getElem?
  intro index
  rw [getElem?_set]
  split_ifs with hindex hbound
  · subst hindex
    rw [getElem?_map, hget]
    rfl
  · rw [length_map] at hbound
    exact absurd hlength hbound
  · rfl

end Flowness.Snapshot
