import Flowness.OssHarness.MergeLossless

/-!
When the merger says that an id occurs twice: only where a registry has it twice.
-/

namespace Flowness.OssHarness

open List Library Option

variable {state : MergeState}

def duplicateIdCodes : List String :=
  ["duplicate_run_id", "duplicate_unknown_id_in_run", "duplicate_drift_id_in_run",
    "duplicate_mechanism_id_in_run"]

def NoDuplicateIds (state : MergeState) : Prop :=
  ∀ blocker ∈ state.blockers, blocker.code ∉ duplicateIdCodes

theorem NoDuplicateIds.block (h : NoDuplicateIds state) (hcode : code ∉ duplicateIdCodes) :
    NoDuplicateIds (state.block ⟨code, runId, objectId, detail⟩) :=
  forall_mem_append.mpr ⟨h, forall_mem_singleton.mpr hcode⟩

theorem NoDuplicateIds.noteEvidence (h : NoDuplicateIds state) :
    NoDuplicateIds (noteEvidence env runId evidenceId definition state) := by
  unfold OssHarness.noteEvidence
  split
  case h_1 =>
    split
    case isTrue => exact h
    case isFalse => exact h.block (by decide)
  case h_2 => exact h

theorem NoDuplicateIds.trackItems {items : List PyItem} : ∀ {tracked : MergeState × List PyItem},
    NoDuplicateIds tracked.1 → NoDuplicateIds (items.foldl (trackItem env runId ownerId) tracked).1 := by
  induction items with
  | nil => exact id
  | cons item items ih =>
    refine fun {tracked} h => ih ?_
    unfold trackItem
    split
    case h_1 => exact h.block (by decide)
    case h_2 => exact h.noteEvidence

theorem NoDuplicateIds.trackAndRewriteEvidence (h : NoDuplicateIds state) {evidence : PyValue} :
    NoDuplicateIds (trackAndRewriteEvidence env runId ownerId state evidence).1 := by
  unfold OssHarness.trackAndRewriteEvidence
  split
  case h_1 => exact h.block (by decide)
  case h_2 => exact NoDuplicateIds.trackItems h

theorem NoDuplicateIds.foldl
    (hstep : ∀ progress item, (∀ id, item.id idField = some id → id ∉ progress.2) →
      NoDuplicateIds progress.1 → NoDuplicateIds (step progress item).1 ∧ (step progress item).2 =
      progress.2 ++ (item.id idField).toList)
    {items : List PyItem} : ∀ {progress : MergeState × List String},
    (progress.2 ++ items.filterMap (·.id idField)).Nodup → NoDuplicateIds progress.1 →
    NoDuplicateIds (items.foldl step progress).1 := by
  induction items with
  | nil => exact fun _ => id
  | cons item items ih =>
    intro progress hnodup h
    have hsplit : progress.2 ++ (item :: items).filterMap (·.id idField) =
        (progress.2 ++ (item.id idField).toList) ++ items.filterMap (·.id idField) := by
      rw [filterMap_cons]
      cases item.id idField with
      | none => rw [toList_none, append_nil]
      | some id => rw [toList_some, append_assoc, singleton_append]
    rw [hsplit] at hnodup
    have hfresh : ∀ id, item.id idField = some id → id ∉ progress.2 := by
      intro id hid hmem
      have hitem := List.Nodup.of_append_left hnodup
      rw [hid] at hitem
      exact disjoint_of_nodup_append hitem hmem (mem_singleton_self id)
    obtain ⟨hnext, hids⟩ := hstep progress item hfresh h
    exact ih (hids ▸ hnodup) hnext

theorem addUnknown_noDuplicateIds (progress : MergeState × List String) (record : PyItem)
    (hfresh : ∀ id, record.id "unknown_id" = some id → id ∉ progress.2)
    (h : NoDuplicateIds progress.1) :
    NoDuplicateIds (addUnknown env runId progress record).1 ∧
      (addUnknown env runId progress record).2 =
        progress.2 ++ (record.id "unknown_id").toList := by
  unfold addUnknown
  split
  case h_1 hnone => exact ⟨h.block (by decide), by rw [hnone, toList_none, append_nil]⟩
  case h_2 unknownId hid =>
    rw [if_neg (hfresh unknownId hid), hid]
    exact ⟨h.trackAndRewriteEvidence, rfl⟩

theorem collectDriftId_noDuplicateIds (progress : MergeState × List String) (finding : PyItem)
    (hfresh : ∀ id, finding.id "drift_id" = some id → id ∉ progress.2)
    (h : NoDuplicateIds progress.1) :
    NoDuplicateIds (collectDriftId runId progress finding).1 ∧
      (collectDriftId runId progress finding).2 =
        progress.2 ++ (finding.id "drift_id").toList := by
  unfold collectDriftId
  split
  case h_1 hnone => exact ⟨h.block (by decide), by rw [hnone, toList_none, append_nil]⟩
  case h_2 driftId hid =>
    rw [if_neg (hfresh driftId hid), hid]
    exact ⟨h, rfl⟩

theorem NoDuplicateIds.addDrifts {driftIds : List String} {findings : List PyItem} :
    ∀ {state : MergeState}, NoDuplicateIds state →
    NoDuplicateIds (findings.foldl (addDrift env runId driftIds) state) := by
  induction findings with
  | nil => exact id
  | cons finding findings ih =>
    refine fun {state} h => ih ?_
    unfold addDrift
    split
    case h_1 => exact h
    case h_2 =>
      split
      case isTrue => exact h.trackAndRewriteEvidence
      case isFalse => exact h

theorem NoDuplicateIds.rewriteReferences {driftIds references : List String} :
    ∀ {progress : MergeState × List String}, NoDuplicateIds progress.1 →
    NoDuplicateIds (references.foldl (rewriteReference runId driftIds) progress).1 := by
  induction references with
  | nil => exact id
  | cons reference references ih =>
    refine fun {progress} h => ih ?_
    unfold rewriteReference
    split
    case isTrue => exact h
    case isFalse =>
      split
      case isTrue => exact h.block (by decide)
      case isFalse => exact h

theorem NoDuplicateIds.readKnownDrift (h : NoDuplicateIds state) {mechanismId : String} :
    NoDuplicateIds (readKnownDrift runId mechanismId state mechanism).1 := by
  unfold OssHarness.readKnownDrift
  split
  case h_1 => exact h
  case h_2 => exact h.block (by decide)

theorem NoDuplicateIds.readSourceRoles (h : NoDuplicateIds state) {mechanismId : String} :
    NoDuplicateIds (readSourceRoles runId mechanismId state mechanism).1 := by
  unfold OssHarness.readSourceRoles
  split
  case h_1 => exact h
  case h_2 => exact h.block (by decide)

theorem addMechanism_noDuplicateIds {driftIds : List String} (progress : MergeState × List String)
    (mechanism : PyItem) (hfresh : ∀ id, mechanism.id "mechanism_id" = some id → id ∉ progress.2)
    (h : NoDuplicateIds progress.1) :
    NoDuplicateIds (addMechanism env runId driftIds progress mechanism).1 ∧
      (addMechanism env runId driftIds progress mechanism).2 =
        progress.2 ++ (mechanism.id "mechanism_id").toList := by
  unfold addMechanism
  split
  case h_1 hnone => exact ⟨h.block (by decide), by rw [hnone, toList_none, append_nil]⟩
  case h_2 id hid =>
    rw [if_neg (hfresh id hid), hid]
    have hreferences : NoDuplicateIds ((readKnownDrift runId id progress.1 mechanism).2.foldl
        (rewriteReference runId driftIds) ((readKnownDrift runId id progress.1 mechanism).1, [])).1 :=
      NoDuplicateIds.rewriteReferences h.readKnownDrift
    dsimp only
    split
    case isTrue => exact ⟨hreferences.block (by decide), rfl⟩
    case isFalse =>
      refine ⟨?_, rfl⟩
      rw [NoDuplicateIds, foldMechanism_blockers]
      exact hreferences.trackAndRewriteEvidence.readSourceRoles

theorem single_noDuplicateIds (hcode : code ∉ duplicateIdCodes) :
    ∀ blocker ∈ [(⟨code, runId, objectId, detail⟩ : Blocker)], blocker.code ∉ duplicateIdCodes :=
  forall_mem_singleton.mpr hcode

theorem unless_noDuplicateIds {holds : Prop} [Decidable holds] (hcode : code ∉ duplicateIdCodes) :
    ∀ blocker ∈ if holds then [] else [(⟨code, runId, objectId, detail⟩ : Blocker)],
      blocker.code ∉ duplicateIdCodes := by
  split
  case isTrue => exact fun _ hmem => absurd hmem not_mem_nil
  case isFalse => exact single_noDuplicateIds hcode

theorem bindingBlocker_noDuplicateIds (group : LoadedGroup) (registry : String × RegistryFile) :
    ∀ blocker ∈ bindingBlocker env group registry, blocker.code ∉ duplicateIdCodes := by
  unfold bindingBlocker
  extract_lets binding actual
  clear_value binding
  split
  case h_1 => exact unless_noDuplicateIds (by decide)
  case h_2 => exact single_noDuplicateIds (by decide)

theorem countsBlocker_noDuplicateIds (group : LoadedGroup) :
    ∀ blocker ∈ countsBlocker env group, blocker.code ∉ duplicateIdCodes := by
  exact unless_noDuplicateIds (by decide)

theorem reportBlockers_noDuplicateIds (group : LoadedGroup) :
    ∀ blocker ∈ reportBlockers env group, blocker.code ∉ duplicateIdCodes := by
  unfold reportBlockers
  simp only [forall_mem_append]
  refine ⟨⟨⟨⟨⟨unless_noDuplicateIds (by decide), unless_noDuplicateIds (by decide)⟩,
    unless_noDuplicateIds (by decide)⟩, ?_⟩, fun blocker hblocker => ?_⟩,
    countsBlocker_noDuplicateIds group⟩
  · split
    case h_1 => exact fun _ hmem => absurd hmem not_mem_nil
    case h_2 => exact single_noDuplicateIds (by decide)
  · obtain ⟨registry, -, hmem⟩ := mem_flatMap.mp hblocker
    exact bindingBlocker_noDuplicateIds group registry blocker hmem

theorem NoDuplicateIds.mergeGroup (h : NoDuplicateIds state) {group : LoadedGroup}
    (hrun : group.runId ∉ state.seenRuns)
    (hunknowns : (group.unknowns.items.filterMap (·.id "unknown_id")).Nodup)
    (hdrift : (group.driftFindings.items.filterMap (·.id "drift_id")).Nodup)
    (hmechanisms : (group.mechanisms.items.filterMap (·.id "mechanism_id")).Nodup) :
    NoDuplicateIds (mergeGroup env state group) := by
  have hchecked : NoDuplicateIds (checkReport env group state) := by
    rw [checkReport, if_neg hrun]
    exact forall_mem_append.mpr ⟨h, reportBlockers_noDuplicateIds group⟩
  rw [mergeGroup_eq]
  refine NoDuplicateIds.foldl addMechanism_noDuplicateIds (by simpa using hmechanisms) ?_
  refine NoDuplicateIds.addDrifts ?_
  refine NoDuplicateIds.foldl addUnknown_noDuplicateIds (by simpa using hunknowns) ?_
  exact NoDuplicateIds.foldl collectDriftId_noDuplicateIds (by simpa using hdrift) hchecked

theorem merge_single_noDuplicateIds
    (h : mergeReconciledRegistries env existing [group] = .ok report)
    (hunknowns : (group.unknowns.items.filterMap (·.id "unknown_id")).Nodup)
    (hdrift : (group.driftFindings.items.filterMap (·.id "drift_id")).Nodup)
    (hmechanisms : (group.mechanisms.items.filterMap (·.id "mechanism_id")).Nodup) :
    ∀ blocker ∈ report.blockers, blocker.code ∉ duplicateIdCodes := by
  obtain ⟨-, -, loaded, hloads, rfl⟩ := mergeReconciledRegistries_ok.mp h
  obtain ⟨entry, rest, ⟨rfl, -⟩, hnil, rfl⟩ := forall₂_cons_left_iff.mp hloads
  obtain rfl := forall₂_nil_left_iff.mp hnil
  have hstart : NoDuplicateIds .initial := fun _ hmem => absurd hmem not_mem_nil
  have hmerged : NoDuplicateIds (OssHarness.mergeGroup env .initial entry) :=
    hstart.mergeGroup not_mem_nil hunknowns hdrift hmechanisms
  intro blocker hblocker
  rw [finishMerge, mem_insertionSort, mem_dedup] at hblocker
  exact hmerged blocker hblocker

end Flowness.OssHarness
