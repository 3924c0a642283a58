import Flowness.Snapshot.Consolidation
import Flowness.Snapshot.SupersedeChains

/-!
Consolidations between writes and the other maintenance. A consolidation picks its segment by
classification alone, so what it takes lies within the limits only where the segment happens to.
-/

namespace Flowness.Snapshot

open Library Schemas Ledger
open GcStore (sampleEvent snapshotRecord chainState)

namespace ConsolidationWorld

variable {world next : ConsolidationWorld}

section

variable (h : world.Sound)
include h

theorem Sound.pick (hguard : world.LimitStep .pick) (hnext : world.step .pick = some next) :
    next.Sound := by
  simp only [step] at hnext
  split at hnext
  next state hrun =>
    split at hnext
    · cases hnext
      exact h.ended
    next segment hpick =>
      cases hnext
      obtain ⟨before, held, after, hsplit, hfits, hbefore⟩ := pick_spec hpick
      have hfree := hguard state hrun before segment held after hsplit hfits hbefore
      have hentry : (segment, held) ∈ world.store.hot.dropLast := by
        rw [hsplit]
        exact List.mem_append_right _ List.mem_cons_self
      have hget : Dict.get world.store.hot segment = some held :=
        (Dict.mem_iff_get (GcStore.nodup_of_ascending h.filed.ascending)).mp
          (List.dropLast_subset _ hentry)
      refine h.goesOn (.picked segment)
        ⟨GcStore.lt_of_mem_dropLast h.filed.ascending hentry, fun content hcontent => ?_⟩
      cases hget.symm.trans hcontent
      refine ⟨fun record hmem => ⟨(hfree record hmem).1.le_gcBound, ?_⟩,
        fun record hmem => (hfree record hmem).2, fun record hmem => ?_⟩
      · exact fun hreached => (hfree record hmem).1.unkept (GcState.keeps_iff.mpr hreached)
      · exact h.filed.hot_written record ((GcStore.mem_hotRecords h.filed.ascending).mpr
          (.inr ⟨segment, held, hget, hmem⟩))
  · contradiction

theorem Sound.read (hnext : world.step .read = some next) : next.Sound := by
  simp only [step] at hnext
  split at hnext
  next state segment hrun =>
    split at hnext
    · cases hnext
      exact h.ended
    next held hget =>
      split at hnext
      · cases hnext
        exact h.ended
      · cases hnext
        obtain ⟨hsealed, hwithin⟩ := h.running _ _ hrun
        refine h.goesOn (.read segment held) ⟨hsealed, hwithin held hget, fun content hcontent => ?_⟩
        cases hget.symm.trans hcontent
        exact ⟨fun _ hmem => hmem, fun _ hmem _ => .inl hmem⟩
  · contradiction

theorem Sound.prepare (hnext : world.step .prepare = some next) : next.Sound := by
  simp only [step] at hnext
  split at hnext
  next state segment held hrun =>
    split at hnext
    · cases hnext
      exact h.ended
    next content hget =>
      cases hnext
      obtain ⟨hsealed, hwithin, hread⟩ := h.running _ _ hrun
      exact h.goesOn (.prepared segment held content) ⟨hsealed, hwithin, hread content hget⟩
  · contradiction

theorem Sound.commit {othersPass : Bool} (hnext : world.step (.commit othersPass) = some next) :
    next.Sound := by
  simp only [step] at hnext
  split at hnext
  next state segment held content hrun =>
    split at hnext
    next hpassed =>
      cases hnext
      exact h.committed (h.running _ _ hrun) (Bool.and_eq_true_iff.mp hpassed).2
    · cases hnext
      exact h.ended
  · contradiction

theorem Sound.finalize {staged : Bool} (hnext : world.step (.finalize staged) = some next) :
    next.Sound := by
  simp only [step] at hnext
  split at hnext
  next state segment held content hrun =>
    split at hnext
    next hverified =>
      cases hnext
      exact h.finalized (h.running _ _ hrun) hverified.2
    · cases hnext
      exact h.ended
  · contradiction

theorem Sound.step {action : Action} (hguard : world.LimitStep action)
    (hnext : world.step action = some next) : next.Sound := by
  cases action with
  | maintain action =>
    obtain ⟨store, hstore, rfl⟩ := Option.map_eq_some_iff.mp hnext
    exact h.maintain hguard hstore
  | start state =>
    obtain ⟨-, hstart⟩ := Option.ite_none_right_eq_some.mp hnext
    cases hstart
    exact h.goesOn .started trivial
  | pick => exact h.pick hguard hnext
  | read => exact h.read hnext
  | prepare => exact h.prepare hnext
  | commit othersPass => exact h.commit hnext
  | finalize staged => exact h.finalize hnext

end

theorem sound_empty : ({} : ConsolidationWorld).Sound where
  filed := GcStore.filed_empty
  within := by simp
  referred := by simp
  counted := by simp
  running := by simp

/-- As long as nothing holds or keeps the records of the oldest segment without immutable truth and
nothing that a digest names is discarded, consolidations keep to the limits of garbage collection and
lose nothing. -/
theorem consolidated_of_run {actions : List Action}
    (h : Run ConsolidationWorld.step LimitStep ({} : ConsolidationWorld) actions world) :
    world.Consolidated :=
  (h.invariant sound_empty fun _ _ _ hsound hguard hnext => hsound.step hguard hnext).consolidated

def segmentWrites : List Action :=
  [.maintain (.write false [sampleRecord]),
    .maintain (.write true [sampleEvent secondId 1 .nodeTouched]),
    .maintain (.write true [sampleEvent thirdId 2 .nodeTouched]),
    .maintain (.write true [snapshotRecord fourthId 3 2])]

def segmentState (leases : List RetentionLease) : GcState :=
  { chainState [sampleRecord, sampleEvent secondId 1 .nodeTouched,
      sampleEvent thirdId 2 .nodeTouched, snapshotRecord fourthId 3 2] 3 with leases }

def consolidationBatch : List EventRecord :=
  [sampleEvent ⟨"evt-31", by decide⟩ 5 .transactionEnvelopeSubmitted,
    sampleEvent ⟨"evt-32", by decide⟩ 6 .crossRunConsolidationCommitted,
    sampleEvent ⟨"evt-33", by decide⟩ 7 .archiveSegmentMoved,
    sampleEvent ⟨"evt-34", by decide⟩ 8 .commitAccepted]

def consolidationRun (leases : List RetentionLease) : List Action :=
  [.start (segmentState leases), .pick, .read,
    .maintain (.write false [snapshotRecord ⟨"evt-30", by decide⟩ 4 3]), .prepare, .commit true,
    .maintain (.write false consolidationBatch), .finalize true]

def tookLeased (world : ConsolidationWorld) : Bool :=
  world.removed.any fun removal => removal.2.eventId.val ∈ removal.1.reachable

/-- A lease on an event does not keep its segment from being consolidated. -/
theorem leased_segment_consolidated : ∃ actions world,
    Run ConsolidationWorld.step (fun _ _ => True) ({} : ConsolidationWorld) actions world ∧
      ¬world.Consolidated := by
  have htook : ((segmentWrites ++ consolidationRun [{ eventIds := some ["evt-2"] }]).foldlM
      ConsolidationWorld.step ({} : ConsolidationWorld)).any tookLeased = true := by
    decide +kernel
  obtain ⟨world, hworld, htook⟩ := (Option.any_eq_true _ _).mp htook
  refine ⟨_, world, Run.of_steps hworld, fun hconsolidated => ?_⟩
  obtain ⟨removal, hremoval, hreached⟩ := List.any_eq_true.mp htook
  exact (hconsolidated.within removal hremoval).2 (of_decide_eq_true hreached)

def modest (world : ConsolidationWorld) : Action → Bool
  | .pick =>
    match world.run with
    | some (state, .started) => world.store.hot.dropLast.all fun entry => entry.2.all fun record =>
        state.Free record && legible record
    | _ => true
  | .maintain (.moveSegment _) => false
  | _ => true

theorem limitStep_of_modest (world : ConsolidationWorld) (action : Action)
    (h : modest world action = true) : world.LimitStep action := by
  cases action with
  | pick =>
    intro state hrun before segment held after hsplit _ _ record hrecord
    simp only [modest, hrun, hsplit, List.all_append, List.all_cons, Bool.and_eq_true] at h
    have hfree := List.all_eq_true.mp h.2.1 record hrecord
    simpa using hfree
  | maintain action =>
    cases action with
    | moveSegment segment => exact absurd h Bool.false_ne_true
    | write rotates records => trivial
    | begin state => trivial
    | compactSegment segment => trivial
    | finish => trivial
  | start state => trivial
  | read => trivial
  | prepare => trivial
  | commit othersPass => trivial
  | finalize staged => trivial

/-- Without the lease the segment goes, and the digest still leads to its event. -/
theorem consolidated_segment : ∃ world : ConsolidationWorld, world.removed ≠ [] ∧
    world.digests.map (·.provenanceRefs) = [["evt-2"]] ∧ world.Consolidated := by
  have htook : ((segmentWrites ++ consolidationRun []).foldlM (fun world action =>
      if modest world action then world.step action else none) ({} : ConsolidationWorld)).any
        (fun world => !world.removed.isEmpty &&
          world.digests.map (·.provenanceRefs) = [["evt-2"]]) = true := by
    decide +kernel
  obtain ⟨world, hworld, htook⟩ := (Option.any_eq_true _ _).mp htook
  simp only [Bool.and_eq_true, decide_eq_true_eq] at htook
  exact ⟨world, by simpa using htook.1, htook.2,
    consolidated_of_run (Run.of_checked limitStep_of_modest hworld)⟩

end ConsolidationWorld

end Flowness.Snapshot
