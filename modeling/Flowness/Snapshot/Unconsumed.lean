import Flowness.Snapshot.Collection
import Flowness.Snapshot.ColdVerbatim

/-!
Events that a consumer has still to process. `run_gc` keeps them; the runs that move and thin
segments compute their bound without the registered cursors.
-/

namespace Flowness.Snapshot

open List Library Schemas Ledger
open Ledger.EventIndex (idsOf)

namespace GcState

variable (state : GcState)

def projectionWatermark : Int := max 0 (state.projectionCursor - 1)

def hotReplayFloor : Int := (retainedSnapshotOffsets state.log).min?.getD 0

def Consumed (record : EventRecord) : Prop :=
  ∀ cursor ∈ state.cursors, record.sequenceNumber ≤ cursor.lastDurableProcessedSeq

/-- Every consumer and the projections are past the record, and no snapshot replays it. -/
structure Settled (record : EventRecord) : Prop where
  consumed : state.Consumed record
  projected : (record.sequenceNumber : Int) ≤ state.projectionWatermark
  replayed : (record.sequenceNumber : Int) ≤ state.hotReplayFloor

/-- What the two real runs take from the hot log, or thin from a segment, is settled. -/
structure RunsSettled (visits : List SegmentVisit) : Prop where
  moved : ∀ limit run, run.map Prod.fst = visits → ∀ visit ∈ state.runGcColdMove limit run,
    ∀ record, visit.Holds state record → state.Settled record
  compacted : ∀ limit run, run.map Prod.fst = visits →
    ∀ visit ∈ state.runSegmentCompaction limit run, ∀ record,
      record ∈ visit.movable state ∨ (visit.Holds state record ∧ record ∉ visit.pinned state) →
        state.Settled record

/-- What leaves the hot log, or is made or planned movable, in any run over the sealed segments is
settled. -/
structure OnlySettledLeaves (visits : List SegmentVisit) : Prop where
  reported : ∀ record ∈ state.archivable, state.Settled record
  ran : state.RunsSettled visits
  planned : ∀ visit ∈ state.planCompaction visits, ∀ record ∈ visit.movable state,
    state.Settled record

variable (record : EventRecord)

/-- Some registered consumer has still to process the record. -/
def Lags : Prop := ∃ cursor ∈ state.cursors, cursor.lastDurableProcessedSeq < record.sequenceNumber

/-- The projections have still to apply the record, or a lease names its number or an earlier one. -/
def HeldBack : Prop :=
  state.projectionCursor ≤ record.sequenceNumber ∨ ∃ lease ∈ state.leases,
    (∃ minSeq, lease.minSeq = some minSeq ∧ minSeq ≤ record.sequenceNumber) ∨
      ∃ eventId ∈ lease.eventIds.getD [], ∃ leased, state.log.byId eventId = some leased ∧
        leased.sequenceNumber ≤ record.sequenceNumber

/-- A retained snapshot starts its replay at `offset`. -/
def ReplaysFrom (offset : Int) : Prop :=
  ∃ snapshot ∈ state.log.indexed, snapshot.eventType = .snapshotCreated ∧
    (snapshot.payload.get "event_offset").bind Json.asInt = some offset

/-- Held back, or above a retained snapshot; without a snapshot no run takes anything. -/
def Held : Prop :=
  state.HeldBack record ∨
    (∃ offset, state.ReplaysFrom offset ∧ offset < record.sequenceNumber) ∨
      ∀ offset, ¬state.ReplaysFrom offset

/-- No consumer lags behind the record, nothing holds it and no root or reference keeps it. -/
structure Free : Prop where
  consumed : ¬state.Lags record
  unheld : ¬state.Held record
  unkept : ¬state.Keeps record.eventId.val

/-- What a consumer has still to process on a sealed segment is held by something else, and the
segment shows all its committed records. -/
structure LaggingHeld (visits : List SegmentVisit) : Prop where
  held : ∀ visit ∈ visits, ∀ record ∈ visit.records, state.Lags record → state.Held record
  seen : ∀ visit ∈ visits, ∀ record, visit.Holds state record → record ∈ visit.records

/-- A dry run leaves the snapshots out, so it needs the projections or a lease for these too. -/
def PlansHeld (visits : List SegmentVisit) : Prop :=
  ∀ visit ∈ visits, ∀ record ∈ visit.records,
    state.Lags record ∨ state.hotReplayFloor < record.sequenceNumber →
      0 < record.sequenceNumber ∧ state.HeldBack record

private theorem min?_getD_le {values : List Int} {value default : Int} (h : value ∈ values) :
    values.min?.getD default ≤ value := by
  cases hmin : values.min? with
  | none =>
    rw [List.min?_eq_none_iff] at hmin
    subst hmin
    contradiction
  | some least => exact (List.min?_eq_some_iff.mp hmin).2 value h

theorem retentionWatermark_le {cursors : List ConsumerCursor} {cursor : ConsumerCursor}
    (h : cursor ∈ cursors) (default : Int) :
    retentionWatermark cursors default ≤ cursor.lastDurableProcessedSeq :=
  min?_getD_le (mem_map_of_mem h)

theorem projectionWatermark_nonneg : 0 ≤ state.projectionWatermark :=
  Int.le_max_left _ _

theorem moveBound_le : state.moveBound.consumerWatermark ≤ state.projectionWatermark ∧
    state.moveBound.bound ≤ state.moveBound.consumerWatermark ∧
      state.moveBound.bound ≤ state.hotReplayFloor :=
  ⟨limited_le state.projectionWatermark_nonneg _, Int.min_le_left _ _, Int.min_le_right _ _⟩

theorem gcBound_le (h : 0 < state.gcBound.bound) :
    state.gcBound.bound ≤ state.projectionWatermark ∧ state.gcBound.bound ≤ state.hotReplayFloor ∧
      ∀ cursor ∈ state.cursors, state.gcBound.bound ≤ cursor.lastDurableProcessedSeq := by
  have hnonneg := state.projectionWatermark_nonneg
  have hregistered : limited state.projectionWatermark
      (some (retentionWatermark state.cursors state.projectionWatermark)) ≤
        state.projectionWatermark := limited_le hnonneg _
  have hwatermark : state.gcBound.consumerWatermark ≤ limited state.projectionWatermark
      (some (retentionWatermark state.cursors state.projectionWatermark)) :=
    limited_le (limited_nonneg hnonneg _) _
  have hbound : state.gcBound.bound ≤ state.gcBound.consumerWatermark := Int.min_le_left _ _
  refine ⟨by omega, Int.min_le_right _ _, ?_⟩
  intro cursor hmem
  have hpositive : 0 < limited state.projectionWatermark
      (some (retentionWatermark state.cursors state.projectionWatermark)) := by omega
  have hcursors := limited_le_limit hpositive
  have hcursor := retentionWatermark_le hmem state.projectionWatermark
  omega

variable {state record} {visits : List SegmentVisit} {records : List EventRecord}

theorem settled_of_archivable (h : record ∈ state.archivable) : state.Settled record := by
  unfold archivable at h
  split at h
  next hbound =>
    obtain ⟨hproj, hfloor, hcursors⟩ := state.gcBound_le hbound
    have hle : (record.sequenceNumber : Int) ≤ state.gcBound.bound := by
      have hall := (mem_filter.mp h).2
      simp only [decide_eq_true_eq] at hall
      exact hall.1
    exact ⟨fun cursor hmem => by have := hcursors cursor hmem; omega, by omega, by omega⟩
  · contradiction

theorem replaysFrom_iff {offset : Int} :
    state.ReplaysFrom offset ↔ offset ∈ retainedSnapshotOffsets state.log := by
  unfold ReplaysFrom retainedSnapshotOffsets LogView.eventsByType
  simp only [mem_filterMap, mem_filter, decide_eq_true_eq, and_assoc]

/-- The numbers that the leases protect. -/
def leasedNumbers (state : GcState) : List Nat :=
  state.leases.flatMap fun lease => lease.minSeq.toList ++
    (lease.eventIds.getD []).filterMap fun eventId =>
      (state.log.byId eventId).map (·.sequenceNumber)

theorem heldBack_iff : state.HeldBack record ↔ state.projectionCursor ≤ record.sequenceNumber ∨
    ∃ number ∈ state.leasedNumbers, number ≤ record.sequenceNumber := by
  apply or_congr_right
  constructor
  · rintro ⟨lease, hlease, ⟨minSeq, hmin, hle⟩ | ⟨eventId, heventId, leased, hleased, hle⟩⟩
    · refine ⟨minSeq, mem_flatMap.mpr ⟨lease, hlease, ?_⟩, hle⟩
      exact mem_append_left _ (Option.mem_toList.mpr hmin)
    · refine ⟨leased.sequenceNumber, mem_flatMap.mpr ⟨lease, hlease, ?_⟩, hle⟩
      refine mem_append_right _ (mem_filterMap.mpr ⟨eventId, heventId, ?_⟩)
      rw [hleased]
      rfl
  · rintro ⟨number, hnumber, hle⟩
    obtain ⟨lease, hlease, hnamed⟩ := mem_flatMap.mp hnumber
    refine ⟨lease, hlease, ?_⟩
    rcases mem_append.mp hnamed with hmin | hid
    · exact Or.inl ⟨number, Option.mem_toList.mp hmin, hle⟩
    · obtain ⟨eventId, heventId, hmap⟩ := mem_filterMap.mp hid
      obtain ⟨leased, hleased, rfl⟩ := Option.map_eq_some_iff.mp hmap
      exact Or.inr ⟨eventId, heventId, leased, hleased, hle⟩

instance : Decidable (state.Held record) :=
  decidable_of_iff ((state.projectionCursor ≤ record.sequenceNumber ∨
      ∃ number ∈ state.leasedNumbers, number ≤ record.sequenceNumber) ∨
    (∃ offset ∈ retainedSnapshotOffsets state.log, offset < record.sequenceNumber) ∨
      retainedSnapshotOffsets state.log = []) (by
    simp only [Held, heldBack_iff, replaysFrom_iff, eq_nil_iff_forall_not_mem])

instance : Decidable (state.Free record) :=
  decidable_of_iff ((¬∃ cursor ∈ state.cursors,
      cursor.lastDurableProcessedSeq < record.sequenceNumber) ∧ ¬state.Held record ∧
    ¬state.Keeps record.eventId.val) ⟨fun h => ⟨h.1, h.2.1, h.2.2⟩, fun h => ⟨h.1, h.2, h.3⟩⟩

/-- The watermark of the runs is the least of what the projections and the leases hold. -/
theorem consumerWatermark_lt_iff (hpositive : 0 < record.sequenceNumber) :
    state.moveBound.consumerWatermark < record.sequenceNumber ↔ state.HeldBack record := by
  rw [heldBack_iff]
  show limited (max 0 (state.projectionCursor - 1))
    ((state.leasedNumbers.map Int.ofNat).min?.map (· - 1)) < _ ↔ _
  cases hmin : (state.leasedNumbers.map Int.ofNat).min? with
  | none =>
    rw [List.min?_eq_none_iff, map_eq_nil_iff] at hmin
    simp only [hmin, not_mem_nil, false_and, exists_false, or_false]
    show max 0 (state.projectionCursor - 1) < _ ↔ _
    omega
  | some least =>
    obtain ⟨hleast, hall⟩ := List.min?_eq_some_iff.mp hmin
    obtain ⟨number, hnumber, rfl⟩ := mem_map.mp hleast
    have hbelow : (∃ number ∈ state.leasedNumbers, number ≤ record.sequenceNumber) ↔
        number ≤ record.sequenceNumber := by
      constructor
      · rintro ⟨other, hother, hle⟩
        have hleast := Int.ofNat_le.mp (hall _ (mem_map_of_mem hother))
        omega
      · exact fun hle => ⟨number, hnumber, hle⟩
    rw [hbelow]
    show max 0 (min _ ((number : Int) - 1)) < _ ↔ _
    omega

theorem bound_lt_of_held (hpositive : 0 < state.moveBound.bound)
    (hnumber : 0 < record.sequenceNumber) (h : state.Held record) :
    state.moveBound.bound < record.sequenceNumber := by
  obtain ⟨-, hbound, hfloor⟩ := state.moveBound_le
  rcases h with hback | ⟨offset, hreplays, hlt⟩ | hnone
  · have hlt := (consumerWatermark_lt_iff hnumber).mpr hback
    omega
  · have hleast : state.hotReplayFloor ≤ offset := min?_getD_le (replaysFrom_iff.mp hreplays)
    omega
  · have hempty : retainedSnapshotOffsets state.log = [] :=
      eq_nil_iff_forall_not_mem.mpr fun offset hmem => hnone offset (replaysFrom_iff.mpr hmem)
    have hzero : state.hotReplayFloor = 0 := by
      unfold hotReplayFloor
      rw [hempty]
      rfl
    exact absurd hpositive (by omega)

theorem hotReplayFloor_of_not_held (h : ¬state.Held record) :
    record.sequenceNumber ≤ state.hotReplayFloor := by
  simp only [Held, not_or, not_exists, not_and, not_forall, not_not, not_lt] at h
  obtain ⟨-, habove, offset, hreplays⟩ := h
  unfold hotReplayFloor
  cases hmin : (retainedSnapshotOffsets state.log).min? with
  | none =>
    rw [List.min?_eq_none_iff] at hmin
    exact absurd (hmin ▸ replaysFrom_iff.mp hreplays) not_mem_nil
  | some least =>
    exact habove least (replaysFrom_iff.mpr (List.min?_eq_some_iff.mp hmin).1)

theorem le_bound_of_not_held (hnumber : 0 < record.sequenceNumber) (h : ¬state.Held record) :
    record.sequenceNumber ≤ state.moveBound.bound := by
  have hfloor := hotReplayFloor_of_not_held h
  have hwatermark := (consumerWatermark_lt_iff hnumber).not.mpr fun hback => h (Or.inl hback)
  have hbound : state.moveBound.bound =
      min state.moveBound.consumerWatermark state.hotReplayFloor := rfl
  omega

theorem Free.le_gcBound (h : state.Free record) : record.sequenceNumber ≤ state.gcBound.bound := by
  obtain ⟨hconsumed, hunheld, -⟩ := h
  have hfloor : record.sequenceNumber ≤ state.hotReplayFloor := hotReplayFloor_of_not_held hunheld
  have hnonneg : 0 ≤ state.gcBound.consumerWatermark :=
    limited_nonneg (limited_nonneg state.projectionWatermark_nonneg _) _
  have hbound : state.gcBound.bound =
      min state.gcBound.consumerWatermark state.hotReplayFloor := rfl
  rcases Nat.eq_zero_or_pos record.sequenceNumber with hzero | hpositive
  · omega
  · have hwatermark : ¬state.moveBound.consumerWatermark < record.sequenceNumber :=
      (consumerWatermark_lt_iff hpositive).not.mpr fun hback => hunheld (Or.inl hback)
    have hcursors : (record.sequenceNumber : Int) ≤
        retentionWatermark state.cursors state.projectionWatermark := by
      unfold retentionWatermark
      cases hmin : (state.cursors.map fun cursor => (cursor.lastDurableProcessedSeq : Int)).min? with
      | none =>
        have hproj := state.moveBound_le.1
        exact Int.le_trans (Int.not_lt.mp hwatermark) hproj
      | some least =>
        obtain ⟨cursor, hcursor, rfl⟩ := mem_map.mp (List.min?_eq_some_iff.mp hmin).1
        by_contra hlag
        exact hconsumed ⟨cursor, hcursor, by simpa using hlag⟩
    have hle : record.sequenceNumber ≤ state.gcBound.consumerWatermark := by
      change (record.sequenceNumber : Int) ≤ limited (limited state.projectionWatermark
        (some (retentionWatermark state.cursors state.projectionWatermark)))
          (leaseWatermarkFloor state.leases state.log)
      change ¬limited state.projectionWatermark (leaseWatermarkFloor state.leases state.log) < _
        at hwatermark
      generalize leaseWatermarkFloor state.leases state.log = leased at hwatermark ⊢
      cases leased with
      | none =>
        change ¬state.projectionWatermark < _ at hwatermark
        change _ ≤ max 0 (min _ _)
        omega
      | some floor =>
        rw [limited_some] at hwatermark ⊢
        change _ ≤ max 0 (min (max 0 (min _ _)) floor)
        omega
    omega

/-- What a run has seen below its bound is settled where nothing that lags is left unheld. -/
theorem settled_of_le (hpositive : 0 < state.moveBound.bound)
    (hheld : state.Lags record → state.Held record)
    (hle : record.sequenceNumber ≤ state.moveBound.bound) : state.Settled record := by
  obtain ⟨hproj, hbound, hfloor⟩ := state.moveBound_le
  refine ⟨fun cursor hmem => ?_, by omega, by omega⟩
  by_contra hlag
  have hlt := bound_lt_of_held hpositive (by omega) (hheld ⟨cursor, hmem, by omega⟩)
  omega

private theorem movable_subset {visit : SegmentVisit} (h : record ∈ visit.movable state) :
    record ∈ visit.records := by
  unfold SegmentVisit.movable splitPinnedMovable at h
  rw [partition_eq_filter_filter] at h
  exact (mem_filter.mp h).1

theorem runsSettled_of_held (h : state.LaggingHeld visits) : state.RunsSettled visits := by
  constructor
  · rintro limit run rfl visit hvisit record hholds
    unfold runGcColdMove at hvisit
    split at hvisit
    · contradiction
    · obtain ⟨hmem, hadmits⟩ := mem_archiveSegments hvisit
      have hseen := h.seen visit hmem record hholds
      exact settled_of_le (by omega) (h.held visit hmem record hseen)
        ((admitsMove_iff.mp hadmits).2.1 record hseen)
  · rintro limit run rfl visit hvisit record hrecord
    unfold runSegmentCompaction at hvisit
    split at hvisit
    · contradiction
    · obtain ⟨hmem, hadmits⟩ := mem_archiveSegments hvisit
      have hseen : record ∈ visit.records :=
        hrecord.elim movable_subset fun hholds => h.seen visit hmem record hholds.1
      exact settled_of_le (by omega) (h.held visit hmem record hseen)
        ((admitsCompaction_iff.mp hadmits).2.1 record hseen)

theorem settled_of_planned (h : state.PlansHeld visits) {visit : SegmentVisit}
    (hvisit : visit ∈ state.planCompaction visits) (hrecord : record ∈ visit.movable state) :
    state.Settled record := by
  obtain ⟨hmem, hadmits⟩ := mem_filter.mp hvisit
  have hseen := movable_subset hrecord
  have hle := (admitsCompaction_iff.mp hadmits).2.1 record hseen
  obtain ⟨hproj, -, -⟩ := state.moveBound_le
  have hfree : ¬(state.Lags record ∨ state.hotReplayFloor < record.sequenceNumber) := by
    intro hheld
    obtain ⟨hnumber, hback⟩ := h visit hmem record hseen hheld
    have hlt := (consumerWatermark_lt_iff hnumber).mpr hback
    omega
  obtain ⟨hahead, hreplayed⟩ := not_or.mp hfree
  refine ⟨fun cursor hcursor => ?_, by omega, by omega⟩
  by_contra hlag
  exact hahead ⟨cursor, hcursor, by omega⟩

theorem not_runsSettled {visit : SegmentVisit} (hvisit : visit ∈ visits)
    (halone : visit.records = [record]) (hholds : visit.Holds state record)
    (hfree : record.eventId.val ∉ state.reachable) (hlags : state.Lags record)
    (hheld : ¬state.Held record) : ¬state.RunsSettled visits := by
  intro h
  obtain ⟨cursor, hcursor, hlt⟩ := hlags
  have hle := le_bound_of_not_held (by omega) hheld
  have hadmits : admitsMove visit.records state.moveBound.bound state.reachable = true := by
    rw [halone]
    simp [admitsMove_iff, hle, hfree]
  have hmoves : visit ∈ state.runGcColdMove none (visits.map (·, true)) := by
    unfold runGcColdMove
    rw [if_neg (by omega), archiveSegments_all]
    exact mem_filter.mpr ⟨hvisit, hadmits⟩
  have hrun : (visits.map (·, true)).map Prod.fst = visits := by
    rw [map_map]
    exact map_id _
  have hconsumed := (h.moved none _ hrun visit hmoves record hholds).consumed cursor hcursor
  omega

/-- `run_gc` reports only settled records; the other runs take and plan only settled ones where
what lags is held, and an unheld, unreachable record alone on its segment is taken. -/
theorem only_settled_leaves (state : GcState) (visits : List SegmentVisit) :
    (∀ record ∈ state.archivable, state.Settled record) ∧
      (state.LaggingHeld visits → state.RunsSettled visits) ∧
      (state.LaggingHeld visits → state.PlansHeld visits → state.OnlySettledLeaves visits) ∧
      ∀ visit ∈ visits, ∀ record, visit.records = [record] → visit.Holds state record →
        record.eventId.val ∉ state.reachable → state.Lags record → ¬state.Held record →
          ¬state.RunsSettled visits := by
  refine ⟨fun _ => settled_of_archivable, runsSettled_of_held, ?_, ?_⟩
  · exact fun hruns hplans => ⟨fun _ => settled_of_archivable, runsSettled_of_held hruns,
      fun _ hvisit _ hrecord => settled_of_planned hplans hvisit hrecord⟩
  · exact fun visit hvisit record halone hholds hfree hlags hheld =>
      not_runsSettled hvisit halone hholds hfree hlags hheld

end GcState

def anchorRecord : EventRecord :=
  stamp sampleEnv { sampleIntent with
    eventType := .snapshotCreated
    eventCategory := .snapshot
    payload := ⟨[("event_offset", .int 1)], by decide⟩ } thirdId sampleTime 2 none

def laggingLog : List EventRecord := [sampleRecord, followingRecord, anchorRecord]

def laggingState : GcState where
  log := { allRecords := laggingLog, indexed := laggingLog }
  projections := []
  projectionCursor := 2
  leases := []
  cursors := [{ consumerId := "drift-detector", lastDurableProcessedSeq := 0 }]

theorem unbroken_lagging : Unbroken [sampleRecord, followingRecord] := by
  decide +kernel

def laggingVisit : SegmentVisit where
  content := recordLines [sampleRecord, followingRecord]
  warm := laggingLog
  cold := ColdStore.empty
  records := [sampleRecord, followingRecord]
  read := by
    exact (Verbatim.of_unbroken unbroken_lagging).segment laggingLog ColdStore.empty (by decide)

theorem laggingVisit_lines : segmentRecords laggingVisit.content = [sampleRecord, followingRecord] :=
  segmentRecords_recordLines _

/-- The cold move takes the record that the consumer has still to process. -/
theorem cold_move_takes_unconsumed : ¬laggingState.OnlySettledLeaves [laggingVisit] := by
  intro h
  have hmoved : laggingVisit ∈ laggingState.runGcColdMove none [(laggingVisit, true)] := by
    have hbound : ¬laggingState.moveBound.bound ≤ 0 := by decide +kernel
    have hadmits : admitsMove laggingVisit.records laggingState.moveBound.bound
        laggingState.reachable = true := by decide +kernel
    unfold GcState.runGcColdMove
    rw [if_neg hbound]
    have hall := archiveSegments_all
      (admitsMove · laggingState.moveBound.bound laggingState.reachable) [laggingVisit]
    rw [map_singleton] at hall
    rw [hall]
    exact mem_filter.mpr ⟨mem_cons_self, hadmits⟩
  have hholds : laggingVisit.Holds laggingState followingRecord := by
    refine ⟨?_, mem_cons_of_mem _ mem_cons_self⟩
    rw [laggingVisit_lines]
    exact mem_cons_of_mem _ mem_cons_self
  have hsettled := h.ran.moved none [(laggingVisit, true)] rfl laggingVisit hmoved followingRecord hholds
  have hle := hsettled.consumed _ mem_cons_self
  exact absurd hle (by decide)

/-- The same log under a lease of the record that lags. -/
def heldState : GcState := { laggingState with leases := [{ minSeq := some 1 }] }

theorem held_stays : heldState.OnlySettledLeaves [laggingVisit] := by
  have hheld : heldState.HeldBack followingRecord :=
    Or.inr ⟨_, mem_cons_self, Or.inl ⟨1, rfl, Nat.le_refl 1⟩⟩
  have hfirst : ¬heldState.Lags sampleRecord := by
    rintro ⟨cursor, -, hlt⟩
    exact Nat.not_lt_zero _ hlt
  refine (GcState.only_settled_leaves heldState [laggingVisit]).2.2.1 ⟨?_, ?_⟩ ?_
  · intro visit hvisit record hrecord hlags
    rw [mem_singleton.mp hvisit] at hrecord
    rcases mem_cons.mp hrecord with rfl | hrecord
    · exact absurd hlags hfirst
    · rw [mem_singleton.mp hrecord]
      exact Or.inl hheld
  · intro visit hvisit record hholds
    rw [mem_singleton.mp hvisit] at hholds ⊢
    have hlines := hholds.1
    rwa [laggingVisit_lines] at hlines
  · intro visit hvisit record hrecord hlags
    rw [mem_singleton.mp hvisit] at hrecord
    rcases mem_cons.mp hrecord with rfl | hrecord
    · refine absurd hlags (not_or.mpr ⟨hfirst, ?_⟩)
      decide +kernel
    · rw [mem_singleton.mp hrecord]
      exact ⟨Nat.one_pos, hheld⟩

end Flowness.Snapshot
