import Flowness.OssHarness.RegistryMerge
import Mathlib.Data.List.Induction

/-!
A merge that reports "merged" has lost nothing: what each step does when it raises no blocker, the state
after any number of groups, and the registries that come of them in any order.
-/

namespace Flowness.OssHarness

open List Library Dict

variable {env : MergeEnv} {runId : String} {state : MergeState}

/-! ### Steps without a blocker -/

def mergedEvidence (runId : String) (evidence : PyItem) : PyItem :=
  rewriteEvidence runId ((evidence.id "evidence_id").getD "") evidence

def mergedFinding (kind : FindingKind) (runId : String) (finding : PyItem) : PyItem :=
  rewriteFinding kind runId ((finding.id kind.idField).getD "") finding
    (((finding.member "evidence").items.getD []).map (mergedEvidence runId))

def ReadableEvidence (evidence : PyValue) : Prop :=
  ∃ items, evidence.items = some items ∧ ∀ item ∈ items, (item.id "evidence_id").isSome

def ReadableFinding (kind : FindingKind) (finding : PyItem) : Prop :=
  (finding.id kind.idField).isSome ∧ ReadableEvidence (finding.member "evidence")

theorem block_blockers : (state.block blocker).blockers ≠ [] := by
  exact append_ne_nil_of_right_ne_nil _ (cons_ne_nil _ _)

theorem noteEvidence_clean (h : (noteEvidence env runId evidenceId definition state).blockers =
  []) : state.blockers = [] ∧ ∃ definitions, noteEvidence env runId evidenceId definition state =
      { state with evidenceDefinitions := definitions } := by
  unfold noteEvidence at h ⊢
  split at h
  case h_1 previousRun previous hget =>
    split at h
    case isTrue hsame => exact ⟨h, _, if_pos hsame⟩
    case isFalse => exact absurd h block_blockers
  case h_2 => exact ⟨h, _, rfl⟩

theorem trackItem_clean (h : (trackItem env runId ownerId tracked evidence).1.blockers = []) :
    tracked.1.blockers = [] ∧ (evidence.id "evidence_id").isSome ∧ ∃ definitions,
      trackItem env runId ownerId tracked evidence =
        ({ tracked.1 with evidenceDefinitions := definitions },
          tracked.2 ++ [mergedEvidence runId evidence]) := by
  unfold trackItem at h ⊢
  split at h
  case h_1 => exact absurd h block_blockers
  case h_2 evidenceId hid =>
    obtain ⟨hclean, definitions, hnote⟩ := noteEvidence_clean h
    rw [hnote, mergedEvidence, hid]
    exact ⟨hclean, rfl, definitions, rfl⟩

theorem trackItems_clean {items : List PyItem} : ∀ {tracked : MergeState × List PyItem},
    (items.foldl (trackItem env runId ownerId) tracked).1.blockers = [] →
    tracked.1.blockers = [] ∧ (∀ item ∈ items, (item.id "evidence_id").isSome) ∧ ∃ definitions,
      items.foldl (trackItem env runId ownerId) tracked =
        ({ tracked.1 with evidenceDefinitions := definitions },
          tracked.2 ++ items.map (mergedEvidence runId)) := by
  induction items with
  | nil =>
    intro tracked h
    exact ⟨h, fun _ hitem => absurd hitem not_mem_nil, tracked.1.evidenceDefinitions,
      by rw [map_nil, append_nil]; rfl⟩
  | cons item items ih =>
    intro tracked h
    obtain ⟨hclean, hids, definitions, hfold⟩ := ih h
    obtain ⟨hfirst, hid, _, hstep⟩ := trackItem_clean hclean
    refine ⟨hfirst, forall_mem_cons.mpr ⟨hid, hids⟩, definitions, ?_⟩
    rw [foldl_cons, hfold, hstep, map_cons, append_assoc, singleton_append]

theorem trackAndRewriteEvidence_clean {evidence : PyValue}
    (h : (trackAndRewriteEvidence env runId ownerId state evidence).1.blockers = []) :
    state.blockers = [] ∧ ReadableEvidence evidence ∧ ∃ definitions,
      trackAndRewriteEvidence env runId ownerId state evidence =
        ({ state with evidenceDefinitions := definitions },
          (evidence.items.getD []).map (mergedEvidence runId)) := by
  unfold trackAndRewriteEvidence at h ⊢
  split at h
  case h_1 => exact absurd h block_blockers
  case h_2 items hitems =>
    obtain ⟨hclean, hids, definitions, hfold⟩ := trackItems_clean h
    refine ⟨hclean, ⟨items, hitems, hids⟩, definitions, ?_⟩
    rw [hfold, hitems, Option.getD_some, nil_append]

def findingId (kind : FindingKind) (finding : PyItem) : String := (finding.id kind.idField).getD ""

variable {kind : FindingKind} {loaded : List LoadedGroup} {findings : List PyItem}
  {groups : List RegistryGroup} {group : LoadedGroup} {progress : MergeState × List String}
  {merged : MergedMechanism} {finding mechanism : PyItem} {id : String}

theorem id_eq_findingId (h : (finding.id kind.idField).isSome) :
    finding.id kind.idField = some (findingId kind finding) := by
  obtain ⟨findingId', hid⟩ := Option.isSome_iff_exists.mp h
  rw [findingId, hid, Option.getD_some]

theorem addUnknown_clean (h : (addUnknown env runId progress record).1.blockers = []) :
    progress.1.blockers = [] ∧ ReadableFinding unknownKind record ∧
    findingId unknownKind record ∉ progress.2 ∧ ∃ definitions,
      addUnknown env runId progress record =
        ({ progress.1 with
            evidenceDefinitions := definitions
            unknowns := progress.1.unknowns ++ [mergedFinding unknownKind runId record] },
          progress.2 ++ [findingId unknownKind record]) := by
  unfold addUnknown at h ⊢
  split at h
  case h_1 => exact absurd h block_blockers
  case h_2 unknownId hid =>
    have hfinding : findingId unknownKind record = unknownId := by rw [findingId, unknownKind, hid]; rfl
    split at h
    case isTrue => exact absurd h block_blockers
    case isFalse hfresh =>
      obtain ⟨hclean, hevidence, definitions, htrack⟩ := trackAndRewriteEvidence_clean h
      refine ⟨hclean, ⟨by rw [unknownKind, hid]; rfl, hevidence⟩, hfinding ▸ hfresh, definitions, ?_⟩
      rw [if_neg hfresh, htrack, mergedFinding, ← findingId, hfinding]

theorem addUnknowns_clean {records : List PyItem} : ∀ {progress : MergeState × List String},
    (records.foldl (addUnknown env runId) progress).1.blockers = [] →
    progress.1.blockers = [] ∧ (∀ record ∈ records, ReadableFinding unknownKind record) ∧
    (progress.2.Nodup → (progress.2 ++ records.map (findingId unknownKind)).Nodup) ∧ ∃ definitions,
      records.foldl (addUnknown env runId) progress =
        ({ progress.1 with
            evidenceDefinitions := definitions
            unknowns := progress.1.unknowns ++ records.map (mergedFinding unknownKind runId) },
          progress.2 ++ records.map (findingId unknownKind)) := by
  induction records with
  | nil =>
    intro progress h
    simp only [map_nil, append_nil]
    exact ⟨h, fun _ hrecord => absurd hrecord not_mem_nil, id,
      progress.1.evidenceDefinitions, rfl⟩
  | cons record records ih =>
    intro progress h
    obtain ⟨hclean, hreadable, hnodup, definitions, hfold⟩ := ih h
    obtain ⟨hfirst, hrecord, hfresh, _, hstep⟩ := addUnknown_clean hclean
    refine ⟨hfirst, forall_mem_cons.mpr ⟨hrecord, hreadable⟩, fun hids => ?_, definitions, ?_⟩
    · rw [hstep, append_assoc, singleton_append] at hnodup
      exact hnodup (nodup_middle.mpr (nodup_cons.mpr ⟨by simpa using hfresh, by simpa⟩))
    · rw [foldl_cons, hfold, hstep]
      simp

theorem collectDriftId_clean (h : (collectDriftId runId progress finding).1.blockers = []) :
    progress.1.blockers = [] ∧ (finding.id driftKind.idField).isSome ∧
    findingId driftKind finding ∉ progress.2 ∧
    collectDriftId runId progress finding =
      (progress.1, progress.2 ++ [findingId driftKind finding]) := by
  unfold collectDriftId at h ⊢
  split at h
  case h_1 => exact absurd h block_blockers
  case h_2 driftId hid =>
    have hfinding : findingId driftKind finding = driftId := by rw [findingId, driftKind, hid]; rfl
    split at h
    case isTrue => exact absurd h block_blockers
    case isFalse hfresh =>
      rw [if_neg hfresh, hfinding]
      exact ⟨h, by rw [driftKind, hid]; rfl, hfresh, rfl⟩

theorem collectDriftIds_clean : ∀ {progress : MergeState × List String},
    (findings.foldl (collectDriftId runId) progress).1.blockers = [] →
    progress.1.blockers = [] ∧ (∀ finding ∈ findings, (finding.id driftKind.idField).isSome) ∧
    (progress.2.Nodup → (progress.2 ++ findings.map (findingId driftKind)).Nodup) ∧
      findings.foldl (collectDriftId runId) progress =
        (progress.1, progress.2 ++ findings.map (findingId driftKind)) := by
  induction findings with
  | nil =>
    intro progress h
    simp only [map_nil, append_nil]
    exact ⟨h, fun _ hfinding => absurd hfinding not_mem_nil, id, rfl⟩
  | cons finding findings ih =>
    intro progress h
    obtain ⟨hclean, hreadable, hnodup, hfold⟩ := ih h
    obtain ⟨hfirst, hfinding, hfresh, hstep⟩ := collectDriftId_clean hclean
    refine ⟨hfirst, forall_mem_cons.mpr ⟨hfinding, hreadable⟩, fun hids => ?_, ?_⟩
    · rw [hstep, append_assoc, singleton_append] at hnodup
      exact hnodup (nodup_middle.mpr (nodup_cons.mpr ⟨by simpa using hfresh, by simpa⟩))
    · rw [foldl_cons, hfold, hstep, map_cons, append_assoc, singleton_append]

section

variable {driftIds : List String}

theorem addDrift_blockers (h : (addDrift env runId driftIds state finding).blockers = []) :
    state.blockers = [] := by
  unfold addDrift at h
  split at h
  case h_1 => exact h
  case h_2 driftId _ =>
    split at h
    case isTrue => exact (trackAndRewriteEvidence_clean h).1
    case isFalse => exact h

theorem addDrifts_blockers : ∀ {state : MergeState},
    (findings.foldl (addDrift env runId driftIds) state).blockers = [] → state.blockers = [] := by
  induction findings with
  | nil => exact id
  | cons finding findings ih => exact fun h => addDrift_blockers (ih h)

theorem addDrift_clean (hid : (finding.id driftKind.idField).isSome)
    (hmem : findingId driftKind finding ∈ driftIds)
    (h : (addDrift env runId driftIds state finding).blockers = []) :
    state.blockers = [] ∧ ReadableFinding driftKind finding ∧ ∃ definitions,
      addDrift env runId driftIds state finding =
        { state with
          evidenceDefinitions := definitions
          driftFindings := state.driftFindings ++ [mergedFinding driftKind runId finding] } := by
  have htext : finding.text "drift_id" = some (findingId driftKind finding) :=
    (PyItem.id_eq_some.mp (id_eq_findingId hid)).1
  unfold addDrift at h ⊢
  simp only [htext, if_pos hmem] at h ⊢
  obtain ⟨hclean, hevidence, definitions, htrack⟩ := trackAndRewriteEvidence_clean h
  refine ⟨hclean, ⟨hid, hevidence⟩, definitions, ?_⟩
  rw [htrack, mergedFinding, ← findingId]

theorem addDrifts_clean (hids : ∀ finding ∈ findings, (finding.id driftKind.idField).isSome)
    (hmem : ∀ finding ∈ findings, findingId driftKind finding ∈ driftIds) : ∀ {state : MergeState},
    (findings.foldl (addDrift env runId driftIds) state).blockers = [] →
    state.blockers = [] ∧ (∀ finding ∈ findings, ReadableFinding driftKind finding) ∧ ∃ definitions,
      findings.foldl (addDrift env runId driftIds) state =
        { state with
          evidenceDefinitions := definitions
          driftFindings := state.driftFindings ++ findings.map (mergedFinding driftKind runId) } := by
  induction findings with
  | nil =>
    intro state h
    simp only [map_nil, append_nil]
    exact ⟨h, fun _ hfinding => absurd hfinding not_mem_nil, state.evidenceDefinitions, rfl⟩
  | cons finding findings ih =>
    intro state h
    obtain ⟨hid, hids⟩ := forall_mem_cons.mp hids
    obtain ⟨hfirst, hmem⟩ := forall_mem_cons.mp hmem
    obtain ⟨hclean, hreadable, definitions, hfold⟩ := ih hids hmem h
    obtain ⟨hstart, hfinding, _, hstep⟩ := addDrift_clean hid hfirst hclean
    refine ⟨hstart, forall_mem_cons.mpr ⟨hfinding, hreadable⟩, definitions, ?_⟩
    rw [foldl_cons, hfold, hstep]
    simp

end

/-! ### Mechanisms without a blocker -/

def mergedReference (runId : String) (driftIds : List String) (reference : String) : String :=
  if reference ∈ driftIds then prefixedId runId reference else reference

theorem rewriteReferences_clean {driftIds references : List String} :
    ∀ {progress : MergeState × List String},
    (references.foldl (rewriteReference runId driftIds) progress).1.blockers = [] →
    progress.1.blockers = [] ∧
    (∀ reference ∈ references, reference ∈ driftIds ∨ isReference reference = false) ∧
      references.foldl (rewriteReference runId driftIds) progress =
        (progress.1, progress.2 ++ references.map (mergedReference runId driftIds)) := by
  induction references with
  | nil =>
    intro progress h
    exact ⟨h, fun _ hreference => absurd hreference not_mem_nil,
      by rw [map_nil, append_nil]; rfl⟩
  | cons reference references ih =>
    intro progress h
    obtain ⟨hclean, hknown, hfold⟩ := ih h
    rw [foldl_cons, hfold, forall_mem_cons, map_cons, ← singleton_append,
      ← append_assoc]
    unfold rewriteReference at hclean ⊢
    split at hclean
    case isTrue hmem =>
      exact ⟨hclean, ⟨.inl hmem, hknown⟩, by rw [mergedReference, if_pos hmem, if_pos hmem]⟩
    case isFalse hmem =>
      split at hclean
      case isTrue => exact absurd hclean block_blockers
      case isFalse hfree =>
        exact ⟨hclean, ⟨.inr (Bool.eq_false_iff.mpr hfree), hknown⟩,
          by rw [mergedReference, if_neg hmem, if_neg hmem, if_neg hfree]⟩

def mechanismId (mechanism : PyItem) : String := (mechanism.id "mechanism_id").getD ""

def contribution (runId : String) (driftIds : List String) (mechanism : PyItem) : Contribution where
  mechanism := mechanism
  knownDrift := ((mechanism.member "known_drift").texts.getD []).map (mergedReference runId driftIds)
  evidence := ((mechanism.member "evidence").items.getD []).map (mergedEvidence runId)
  sourceRoles := (mechanism.member "source_roles").texts.getD []

structure ReadableMechanism (driftIds : List String) (mechanism : PyItem) : Prop where
  id : (mechanism.id "mechanism_id").isSome
  knownDrift : ∃ references, (mechanism.member "known_drift").texts = some references ∧
    ∀ reference ∈ references, reference ∈ driftIds ∨ isReference reference = false
  evidence : ReadableEvidence (mechanism.member "evidence")
  sourceRoles : (mechanism.member "source_roles").texts.isSome

theorem readKnownDrift_clean (h : (readKnownDrift runId ownerId state mechanism).1.blockers = []) :
    state.blockers = [] ∧ ∃ references, (mechanism.member "known_drift").texts = some references ∧
      readKnownDrift runId ownerId state mechanism = (state, references) := by
  unfold readKnownDrift at h ⊢
  split at h
  case h_1 references hreferences => exact ⟨h, references, hreferences, rfl⟩
  case h_2 => exact absurd h block_blockers

theorem readSourceRoles_clean (h : (readSourceRoles runId ownerId state mechanism).1.blockers = []) :
    state.blockers = [] ∧ ∃ roles, (mechanism.member "source_roles").texts = some roles ∧
      readSourceRoles runId ownerId state mechanism = (state, roles) := by
  unfold readSourceRoles at h ⊢
  split at h
  case h_1 roles hroles => exact ⟨h, roles, hroles, rfl⟩
  case h_2 => exact absurd h block_blockers

theorem foldMechanism_blockers {mechanismId : String} :
    (foldMechanism runId mechanismId state added).blockers = state.blockers := by
  unfold foldMechanism
  split <;> rfl

theorem addMechanism_clean {driftIds : List String}
    (h : (addMechanism env runId driftIds progress mechanism).1.blockers = []) :
    progress.1.blockers = [] ∧ ReadableMechanism driftIds mechanism ∧
    mechanismId mechanism ∉ progress.2 ∧
    conflicts env progress.1 (mechanismId mechanism) mechanism = false ∧ ∃ definitions,
      addMechanism env runId driftIds progress mechanism =
        (foldMechanism runId (mechanismId mechanism)
            { progress.1 with evidenceDefinitions := definitions }
            (contribution runId driftIds mechanism),
          progress.2 ++ [mechanismId mechanism]) := by
  unfold addMechanism at h ⊢
  split at h
  case h_1 => exact absurd h block_blockers
  case h_2 id hid =>
    have hmechanism : mechanismId mechanism = id := by rw [mechanismId, hid]; rfl
    split at h
    case isTrue => exact absurd h block_blockers
    case isFalse hfresh =>
      rw [if_neg hfresh, hmechanism]
      -- The steps are taken apart from the last to the first: each leaves what it found.
      generalize hknown : readKnownDrift runId id progress.1 mechanism = known at h ⊢
      obtain ⟨knownState, references⟩ := known
      dsimp only at h ⊢
      generalize hfolded : references.foldl (rewriteReference runId driftIds) (knownState, []) =
        folded at h ⊢
      obtain ⟨foldedState, knownDrift⟩ := folded
      split at h
      case isTrue => exact absurd h block_blockers
      case isFalse hconflicts =>
        rw [if_neg hconflicts]
        generalize htracked : trackAndRewriteEvidence env runId id foldedState
          (mechanism.member "evidence") = tracked at h ⊢
        obtain ⟨trackedState, evidence⟩ := tracked
        generalize hread : readSourceRoles runId id trackedState mechanism = read at h ⊢
        obtain ⟨readState, sourceRoles⟩ := read
        rw [foldMechanism_blockers] at h
        have hreadRoles : (readSourceRoles runId id trackedState mechanism).1.blockers = [] := by
          rw [hread]
          exact h
        obtain ⟨hclean, _, hroles, hstep⟩ := readSourceRoles_clean hreadRoles
        obtain ⟨rfl, rfl⟩ := Prod.mk.inj (hread.symm.trans hstep)
        have hrewritten : (trackAndRewriteEvidence env runId id foldedState
            (mechanism.member "evidence")).1.blockers = [] := by
          rw [htracked]
          exact hclean
        obtain ⟨hclean, hevidence, definitions, hstep⟩ := trackAndRewriteEvidence_clean hrewritten
        obtain ⟨rfl, rfl⟩ := Prod.mk.inj (htracked.symm.trans hstep)
        have hrewrittenReferences : (references.foldl (rewriteReference runId driftIds)
            (knownState, [])).1.blockers = [] := by
          rw [hfolded]
          exact hclean
        obtain ⟨hclean, hreferences, hstep⟩ := rewriteReferences_clean hrewrittenReferences
        obtain ⟨rfl, rfl⟩ := Prod.mk.inj (hfolded.symm.trans hstep)
        have hknownDrift : (readKnownDrift runId id progress.1 mechanism).1.blockers = [] := by
          rw [hknown]
          exact hclean
        obtain ⟨hclean, _, htexts, hstep⟩ := readKnownDrift_clean hknownDrift
        obtain ⟨rfl, rfl⟩ := Prod.mk.inj (hknown.symm.trans hstep)
        refine ⟨hclean, ⟨by rw [hid]; rfl, ⟨references, htexts, hreferences⟩, hevidence,
          by rw [hroles]; rfl⟩, hfresh, Bool.eq_false_iff.mpr hconflicts, definitions, ?_⟩
        rw [contribution, htexts, hroles]
        rfl

structure MechanismEntry where
  runId : String
  mechanismId : String
  added : Contribution

/-- A merged mechanism has all that one of its mechanisms added. -/
structure Carries (env : MergeEnv) (merged : MergedMechanism) (entry : MechanismEntry) : Prop where
  definition : merged.definition = entry.added.mechanism ∨
    (mechanismSemantics merged.definition).same env.value (mechanismSemantics entry.added.mechanism)
  knownDrift : ∀ reference ∈ entry.added.knownDrift, reference ∈ merged.knownDrift
  evidence : ∀ item ∈ entry.added.evidence, item ∈ merged.evidence
  sourceRoles : ∀ role ∈ entry.added.sourceRoles, role ∈ merged.sourceRoles
  sourceRuns : entry.runId ∈ merged.sourceRuns
  provenance : ⟨entry.runId, sortedSet entry.added.sourceRoles⟩ ∈ merged.sourceProvenance

/-- Where a merged mechanism and its known drift come from. -/
structure Sourced (entries : List MechanismEntry) (id : String) (merged : MergedMechanism) : Prop where
  definition : ∃ entry ∈ entries, entry.mechanismId = id ∧ merged.definition = entry.added.mechanism
  knownDrift : ∀ reference ∈ merged.knownDrift, ∃ entry ∈ entries, reference ∈ entry.added.knownDrift

theorem Sourced.append (h : Sourced entries id merged) (more : List MechanismEntry) :
    Sourced (entries ++ more) id merged where
  definition := by
    obtain ⟨entry, hentry, hsource⟩ := h.definition
    exact ⟨entry, mem_append_left _ hentry, hsource⟩
  knownDrift reference hreference := by
    obtain ⟨entry, hentry, hsource⟩ := h.knownDrift reference hreference
    exact ⟨entry, mem_append_left _ hentry, hsource⟩

structure Folded (env : MergeEnv) (entries : List MechanismEntry) (state : MergeState) : Prop where
  nodup : (Dict.keys state.mechanisms).Nodup
  definitions : ∀ id, state.mechanismDefinitions.get id =
    (state.mechanisms.get id).map fun merged => mechanismSemantics merged.definition
  carries : ∀ entry ∈ entries, ∃ merged, state.mechanisms.get entry.mechanismId = some merged ∧
    Carries env merged entry
  sourced : ∀ id merged, state.mechanisms.get id = some merged → Sourced entries id merged

theorem Folded.initial : Folded env [] .initial where
  nodup := nodup_nil
  definitions _ := rfl
  carries _ hentry := absurd hentry not_mem_nil
  sourced _ _ hget := nomatch hget

theorem Carries.grow (h : Carries env merged entry) (added : Contribution) (run : String)
    (provenance : Provenance) : Carries env
      { merged with
        knownDrift := merged.knownDrift ++ added.knownDrift
        evidence := merged.evidence ++ added.evidence
        sourceRoles := merged.sourceRoles ++ added.sourceRoles
        sourceRuns := merged.sourceRuns ++ [run]
        sourceProvenance := merged.sourceProvenance ++ [provenance] } entry where
  definition := h.definition
  knownDrift reference hreference := mem_append_left _ (h.knownDrift reference hreference)
  evidence item hitem := mem_append_left _ (h.evidence item hitem)
  sourceRoles role hrole := mem_append_left _ (h.sourceRoles role hrole)
  sourceRuns := mem_append_left _ h.sourceRuns
  provenance := mem_append_left _ h.provenance

theorem Folded.snoc (h : Folded env entries state) (entry : MechanismEntry)
    (hconflicts : conflicts env state entry.mechanismId entry.added.mechanism = false) :
    Folded env (entries ++ [entry])
      (foldMechanism entry.runId entry.mechanismId state entry.added) := by
  unfold foldMechanism
  dsimp only
  cases hget : state.mechanisms.get entry.mechanismId with
  | none =>
    refine ⟨nodup_keys_set h.nodup _ _, fun id => ?_, fun other hother => ?_,
      fun id merged hmerged => ?_⟩
    · by_cases hid : id = entry.mechanismId
      · subst hid
        rw [get_set_self, get_set_self]
        rfl
      · rw [get_set_of_ne _ _ hid, get_set_of_ne _ _ hid]
        exact h.definitions id
    · rcases mem_append.mp hother with hold | hnew
      · obtain ⟨merged, hmerged, hcarries⟩ := h.carries other hold
        have hid : other.mechanismId ≠ entry.mechanismId := fun heq => by
          rw [heq, hget] at hmerged
          cases hmerged
        exact ⟨merged, (get_set_of_ne _ _ hid).trans hmerged, hcarries⟩
      · obtain rfl := mem_singleton.mp hnew
        exact ⟨_, get_set_self _ _ _, .inl rfl, fun _ => id, fun _ => id,
          fun _ => mem_sortedSet.mpr, mem_singleton_self _, mem_singleton_self _⟩
    · by_cases hid : id = entry.mechanismId
      · subst hid
        cases (get_set_self _ _ _).symm.trans hmerged
        have hmem : entry ∈ entries ++ [entry] := mem_append_right _ (mem_singleton_self _)
        exact ⟨⟨entry, hmem, rfl, rfl⟩, fun reference hreference => ⟨entry, hmem, hreference⟩⟩
      · exact (h.sourced id merged ((get_set_of_ne _ _ hid).symm.trans hmerged)).append _
  | some existing =>
    refine ⟨nodup_keys_set h.nodup _ _, fun id => ?_, fun other hother => ?_,
      fun id merged hmerged => ?_⟩
    · by_cases hid : id = entry.mechanismId
      · subst hid
        rw [h.definitions, hget, get_set_self]
        rfl
      · rw [get_set_of_ne _ _ hid]
        exact h.definitions id
    · rcases mem_append.mp hother with hold | hnew
      · obtain ⟨merged, hmerged, hcarries⟩ := h.carries other hold
        by_cases hid : other.mechanismId = entry.mechanismId
        · rw [hid, hget] at hmerged
          cases hmerged
          rw [hid]
          exact ⟨_, get_set_self _ _ _, hcarries.grow _ _ _⟩
        · exact ⟨merged, (get_set_of_ne _ _ hid).trans hmerged, hcarries⟩
      · obtain rfl := mem_singleton.mp hnew
        have hsame : (mechanismSemantics existing.definition).same env.value
            (mechanismSemantics other.added.mechanism) := by
          rw [conflicts, h.definitions, hget] at hconflicts
          simpa using hconflicts
        exact ⟨_, get_set_self _ _ _, .inr hsame, fun _ => mem_append_right _,
          fun _ => mem_append_right _, fun _ => mem_append_right _,
          mem_append_right _ (mem_singleton_self _),
          mem_append_right _ (mem_singleton_self _)⟩
    · by_cases hid : id = entry.mechanismId
      · subst hid
        cases (get_set_self _ _ _).symm.trans hmerged
        have hsourced := (h.sourced _ existing hget).append [entry]
        refine ⟨hsourced.definition, fun reference hreference => ?_⟩
        rcases mem_append.mp hreference with hold | hnew
        · exact hsourced.knownDrift reference hold
        · exact ⟨entry, mem_append_right _ (mem_singleton_self _), hnew⟩
      · exact (h.sourced id merged ((get_set_of_ne _ _ hid).symm.trans hmerged)).append _

def mechanismEntry (runId : String) (driftIds : List String) (mechanism : PyItem) : MechanismEntry :=
  ⟨runId, mechanismId mechanism, contribution runId driftIds mechanism⟩

structure MechanismsOnly (state next : MergeState) : Prop where
  seenRuns : next.seenRuns = state.seenRuns
  unknowns : next.unknowns = state.unknowns
  driftFindings : next.driftFindings = state.driftFindings

theorem foldMechanism_only {mechanismId : String} : MechanismsOnly state
      (foldMechanism runId mechanismId { state with evidenceDefinitions := definitions } added) := by
  unfold foldMechanism
  dsimp only
  split <;> exact ⟨rfl, rfl, rfl⟩

theorem addMechanisms_clean {driftIds : List String} {mechanisms : List PyItem} :
    ∀ {progress : MergeState × List String},
    (mechanisms.foldl (addMechanism env runId driftIds) progress).1.blockers = [] →
    (progress.1.blockers = [] ∧ ∀ mechanism ∈ mechanisms, ReadableMechanism driftIds mechanism) ∧
    (∀ entries, Folded env entries progress.1 →
      Folded env (entries ++ mechanisms.map (mechanismEntry runId driftIds))
        (mechanisms.foldl (addMechanism env runId driftIds) progress).1) ∧
    MechanismsOnly progress.1 (mechanisms.foldl (addMechanism env runId driftIds) progress).1 := by
  induction mechanisms with
  | nil =>
    intro progress h
    simp only [map_nil, append_nil]
    exact ⟨⟨h, fun _ hmechanism => absurd hmechanism not_mem_nil⟩, fun _ => id, rfl, rfl, rfl⟩
  | cons mechanism mechanisms ih =>
    intro progress h
    obtain ⟨⟨hclean, hreadable⟩, hfolded, honly⟩ := ih h
    obtain ⟨hfirst, hmechanism, _, hconflicts, definitions, hstep⟩ := addMechanism_clean hclean
    refine ⟨⟨hfirst, forall_mem_cons.mpr ⟨hmechanism, hreadable⟩⟩, fun entries hentries => ?_, ?_⟩
    · have hnext : Folded env (entries ++ [mechanismEntry runId driftIds mechanism])
          (addMechanism env runId driftIds progress mechanism).1 := by
        rw [hstep]
        have hstart : Folded env entries { progress.1 with evidenceDefinitions := definitions } :=
          ⟨hentries.nodup, hentries.definitions, hentries.carries, hentries.sourced⟩
        exact hstart.snoc (mechanismEntry runId driftIds mechanism) hconflicts
      have hrest := hfolded _ hnext
      rwa [append_assoc, singleton_append] at hrest
    · have hnext : MechanismsOnly progress.1
          (addMechanism env runId driftIds progress mechanism).1 := by
        rw [hstep]
        exact foldMechanism_only
      exact ⟨honly.seenRuns.trans hnext.seenRuns, honly.unknowns.trans hnext.unknowns,
        honly.driftFindings.trans hnext.driftFindings⟩

/-! ### Groups -/

def driftIds (group : LoadedGroup) : List String :=
  group.driftFindings.items.map (findingId driftKind)

structure ReadableGroup (group : LoadedGroup) : Prop where
  unknowns : ∀ record ∈ group.unknowns.items, ReadableFinding unknownKind record
  unknownIds : (group.unknowns.items.map (findingId unknownKind)).Nodup
  driftFindings : ∀ finding ∈ group.driftFindings.items, ReadableFinding driftKind finding
  nodup : (driftIds group).Nodup
  mechanisms : ∀ mechanism ∈ group.mechanisms.items, ReadableMechanism (driftIds group) mechanism

def mergedUnknowns (group : LoadedGroup) : List PyItem :=
  group.unknowns.items.map (mergedFinding unknownKind group.runId)

def mergedDrift (group : LoadedGroup) : List PyItem :=
  group.driftFindings.items.map (mergedFinding driftKind group.runId)

def mechanismEntries (group : LoadedGroup) : List MechanismEntry :=
  group.mechanisms.items.map (mechanismEntry group.runId (driftIds group))

structure Merged (env : MergeEnv) (groups : List LoadedGroup) (state : MergeState) : Prop where
  seenRuns : state.seenRuns = groups.map (·.runId)
  nodup : state.seenRuns.Nodup
  readable : ∀ group ∈ groups, ReadableGroup group
  unknowns : state.unknowns = groups.flatMap mergedUnknowns
  driftFindings : state.driftFindings = groups.flatMap mergedDrift
  mechanisms : Folded env (groups.flatMap mechanismEntries) state

theorem Merged.initial : Merged env [] .initial :=
  ⟨rfl, nodup_nil, fun _ hgroup => absurd hgroup not_mem_nil, rfl, rfl, .initial⟩

theorem checkReport_clean (h : (checkReport env group state).blockers = []) :
    state.blockers = [] ∧ group.runId ∉ state.seenRuns ∧
      checkReport env group state = { state with seenRuns := state.seenRuns ++ [group.runId] } := by
  rw [checkReport] at h ⊢
  obtain ⟨hclean, hnew⟩ := append_eq_nil_iff.mp h
  refine ⟨hclean, fun hmem => ?_, ?_⟩
  · rw [if_pos hmem] at hnew
    cases hnew
  · rw [hnew, append_nil]

theorem mergeGroup_eq :
    mergeGroup env state group =
      (group.mechanisms.items.foldl
        (addMechanism env group.runId
          (group.driftFindings.items.foldl (collectDriftId group.runId)
            (checkReport env group state, [])).2)
        (group.driftFindings.items.foldl
          (addDrift env group.runId
            (group.driftFindings.items.foldl (collectDriftId group.runId)
              (checkReport env group state, [])).2)
          (group.unknowns.items.foldl (addUnknown env group.runId)
            ((group.driftFindings.items.foldl (collectDriftId group.runId)
              (checkReport env group state, [])).1, [])).1, [])).1 := rfl

theorem mergeGroup_clean (h : (mergeGroup env state group).blockers = []) :
    state.blockers = [] ∧ ∀ groups, Merged env groups state →
      Merged env (groups ++ [group]) (mergeGroup env state group) := by
  rw [mergeGroup_eq] at h ⊢
  obtain ⟨⟨hdrifted, hmechanisms⟩, hfolded, honly⟩ := addMechanisms_clean h
  obtain ⟨hcollected, hunknowns, hunknownIds, evidence, hadded⟩ :=
    addUnknowns_clean (addDrifts_blockers hdrifted)
  obtain ⟨hchecked, hids, hnodup, hcollect⟩ := collectDriftIds_clean hcollected
  obtain ⟨hclean, hfresh, hcheck⟩ := checkReport_clean hchecked
  rw [hadded] at hdrifted hfolded honly ⊢
  rw [hcollect, hcheck] at hdrifted hfolded honly hmechanisms ⊢
  simp only [nil_append] at hdrifted hfolded honly hmechanisms hnodup hunknownIds ⊢
  obtain ⟨-, hfindings, evidence', hdrift⟩ := addDrifts_clean hids
    (fun finding hfinding => mem_map_of_mem hfinding) hdrifted
  rw [hdrift] at hfolded honly ⊢
  refine ⟨hclean, fun groups hmerged => ⟨?_, ?_, ?_, ?_, ?_, ?_⟩⟩
  · rw [honly.seenRuns, hmerged.seenRuns, map_append, map_singleton]
  · rw [honly.seenRuns]
    exact concat_eq_append ▸ List.Nodup.concat hfresh hmerged.nodup
  · intro other hother
    rcases mem_append.mp hother with hold | hnew
    · exact hmerged.readable other hold
    · obtain rfl := mem_singleton.mp hnew
      exact ⟨hunknowns, hunknownIds nodup_nil, hfindings, hnodup nodup_nil, hmechanisms⟩
  · rw [honly.unknowns, flatMap_append, flatMap_singleton, hmerged.unknowns, mergedUnknowns]
  · rw [honly.driftFindings, flatMap_append, flatMap_singleton, hmerged.driftFindings,
      mergedDrift]
  · rw [flatMap_append, flatMap_singleton]
    have hstart := hmerged.mechanisms
    exact hfolded _ ⟨hstart.nodup, hstart.definitions, hstart.carries, hstart.sourced⟩

theorem mergeGroups_clean {groups : List LoadedGroup} : ∀ {state : MergeState},
    (groups.foldl (mergeGroup env) state).blockers = [] →
    state.blockers = [] ∧ ∀ before, Merged env before state →
      Merged env (before ++ groups) (groups.foldl (mergeGroup env) state) := by
  induction groups with
  | nil =>
    intro state h
    simp only [append_nil]
    exact ⟨h, fun _ => id⟩
  | cons group groups ih =>
    intro state h
    obtain ⟨hclean, hrest⟩ := ih h
    obtain ⟨hfirst, hstep⟩ := mergeGroup_clean hclean
    refine ⟨hfirst, fun before hbefore => ?_⟩
    have hmerged := hrest _ (hstep before hbefore)
    rwa [append_assoc, singleton_append] at hmerged

/-! ### Ids -/

theorem not_mem_of_isSafeComponent (h : isSafeComponent runId = true) : ':' ∉ runId.toList := by
  intro hmem
  unfold isSafeComponent at h
  split at h
  case h_1 hnil => exact not_mem_nil (hnil ▸ hmem)
  case h_2 first rest hcons =>
    rw [Bool.and_eq_true, Bool.and_eq_true, all_eq_true] at h
    rw [hcons] at hmem
    rcases mem_cons.mp hmem with rfl | hrest
    · exact absurd h.1.1 (by decide)
    · exact absurd (h.2 ':' hrest) (by decide)

theorem takeWhile_colon (h : ':' ∉ run) : (run ++ ':' :: rest).takeWhile (· ≠ ':') = run := by
  have hne : ∀ c ∈ run, decide (c ≠ ':') = true := fun c hc =>
    decide_eq_true (ne_of_mem_of_not_mem hc h)
  rw [takeWhile_append_of_pos hne, takeWhile_cons_of_neg (by decide), append_nil]

theorem prefixedId_inj (hrun : ':' ∉ runId.toList) (hother : ':' ∉ other.toList)
    (h : prefixedId runId value = prefixedId other otherValue) :
    runId = other ∧ value = otherValue := by
  have hchars : runId.toList ++ ':' :: ':' :: value.toList =
      other.toList ++ ':' :: ':' :: otherValue.toList := by
    have hcolons : "::".toList = [':', ':'] := rfl
    have hlists := congrArg String.toList h
    simpa only [prefixedId, String.toList_append, append_assoc, hcolons, cons_append,
      nil_append] using hlists
  have hruns : runId.toList = other.toList := by
    rw [← takeWhile_colon hrun, hchars, takeWhile_colon hother]
  obtain rfl := String.toList_injective hruns
  have hvalues := append_cancel_left hchars
  simp only [List.cons.injEq, true_and] at hvalues
  exact ⟨rfl, String.toList_injective hvalues⟩

def FindingKind.Known (kind : FindingKind) : Prop := kind = unknownKind ∨ kind = driftKind

theorem unknownKind_known : unknownKind.Known := .inl rfl

theorem driftKind_known : driftKind.Known := .inr rfl

theorem text_mergedFinding (h : kind.Known) (finding : PyItem) :
    (mergedFinding kind runId finding).text kind.idField =
      some (prefixedId runId (findingId kind finding)) := by
  rw [mergedFinding, rewriteFinding]
  rcases h with rfl | rfl
  all_goals
    rw [PyItem.text_put_of_ne (by decide), PyItem.text_put_of_ne (by decide),
      PyItem.text_put_of_ne (by decide), PyItem.text_put_self]
    rfl

theorem nodup_mergedFindings (h : kind.Known) {findings : LoadedGroup → List PyItem}
    {groups : List LoadedGroup} (hruns : (groups.map (·.runId)).Nodup)
    (hsafe : ∀ group ∈ groups, ':' ∉ group.runId.toList)
    (hids : ∀ group ∈ groups, ((findings group).map (findingId kind)).Nodup) :
    ((groups.flatMap fun group => (findings group).map (mergedFinding kind group.runId)).map
      fun entry => entry.text kind.idField).Nodup := by
  have htexts (group : LoadedGroup) : ((findings group).map (mergedFinding kind group.runId)).map
      (fun entry => entry.text kind.idField) =
        (findings group).map fun finding => some (prefixedId group.runId (findingId kind finding)) := by
    rw [map_map]
    exact map_congr_left fun finding _ => text_mergedFinding h finding
  rw [map_flatMap, nodup_flatMap]
  simp only [htexts]
  constructor
  · intro group hgroup
    have hnodup := pairwise_map.mp (hids group hgroup)
    refine pairwise_map.mpr (hnodup.imp fun hne heq => hne ?_)
    exact (prefixedId_inj (hsafe group hgroup) (hsafe group hgroup) (Option.some.inj heq)).2
  · refine (pairwise_map.mp hruns).imp_of_mem fun {left right} hleft hright hne => ?_
    rintro text hfirst hsecond
    obtain ⟨finding, -, rfl⟩ := mem_map.mp hfirst
    obtain ⟨other, -, heq⟩ := mem_map.mp hsecond
    exact hne (prefixedId_inj (hsafe left hleft) (hsafe right hright) (Option.some.inj heq.symm)).1

theorem filter_eq_singleton {α β : Type} [DecidableEq β] {key : α → β} {items : List α} {item : α}
    (hnodup : (items.map key).Nodup) (hitem : item ∈ items) :
    items.filter (fun other => key other = key item) = [item] := by
  have hall : ∀ other ∈ items.filter (fun other => key other = key item), other = item := by
    intro other hother
    obtain ⟨hmem, hkey⟩ := mem_filter.mp hother
    exact inj_on_of_nodup_map hnodup hmem hitem (of_decide_eq_true hkey)
  have hmem : item ∈ items.filter (fun other => key other = key item) :=
    mem_filter.mpr ⟨hitem, decide_eq_true rfl⟩
  have hfiltered := (hnodup.of_map key).filter fun other => key other = key item
  rw [eq_replicate_of_mem hall] at hfiltered hmem ⊢
  have hle := nodup_replicate.mp hfiltered
  have hpos := length_pos_of_mem hmem
  rw [length_replicate] at hpos
  rw [Nat.le_antisymm hle hpos, replicate_one]

theorem getD_empty (h : id ≠ "") : text.getD "" = id ↔ text = some id := by
  cases text with
  | none => simpa using h.symm
  | some text => rw [Option.getD_some, Option.some.injEq]

theorem exists_mem_deduplicateById (hid : id ≠ "") : ∀ item ∈ items, item.text idField = some id →
      ∃ kept ∈ deduplicateById items idField, kept.text idField = some id := by
  have hcollect : ∀ item ∈ items, item.text idField = some id → ∃ kept,
      Dict.get (items.foldl (fun (byId : Dict String PyItem) item =>
        byId.set ((item.text idField).getD "") item) []) id = some kept ∧
      kept.text idField = some id := by
    induction items using List.reverseRecOn with
    | nil => exact fun _ hitem => absurd hitem not_mem_nil
    | append_singleton items last ih =>
      intro item hitem htext
      rw [foldl_append, foldl_cons, foldl_nil]
      by_cases hlast : last.text idField = some id
      · exact ⟨last, (getD_empty hid).mpr hlast ▸ get_set_self _ _ _, hlast⟩
      · rcases mem_append.mp hitem with hold | hnew
        · obtain ⟨kept, hget, hkept⟩ := ih item hold htext
          have hother : id ≠ (last.text idField).getD "" := fun heq =>
            hlast ((getD_empty hid).mp heq.symm)
          exact ⟨kept, (get_set_of_ne _ _ hother).trans hget, hkept⟩
        · exact absurd (mem_singleton.mp hnew ▸ htext) hlast
  intro item hitem htext
  obtain ⟨kept, hget, hkept⟩ := hcollect item hitem htext
  refine ⟨kept, ?_, hkept⟩
  rw [deduplicateById, mem_insertionSort]
  exact mem_map.mpr ⟨(id, kept), mem_of_get hget, rfl⟩

/-! ### The merge -/

theorem loadGroup_ok {loaded : LoadedGroup} :
    loadGroup entry = .ok loaded ↔ loaded.toRegistryGroup = entry.1 ∧
      entry.1.report.text "run_id" = some loaded.runId ∧ isSafeComponent loaded.runId := by
  unfold loadGroup
  split
  case h_1 run hrun =>
    split
    case isTrue hsafe =>
      rw [Except.ok.injEq, hrun]
      constructor
      · rintro rfl
        exact ⟨rfl, rfl, hsafe⟩
      · rintro ⟨hgroup, hsame, -⟩
        cases loaded
        cases hgroup
        cases hsame
        rfl
    case isFalse hunsafe =>
      simp only [reduceCtorEq, false_iff, hrun, Option.some.injEq]
      rintro ⟨-, rfl, hsafe⟩
      exact hunsafe hsafe
  case h_2 hnone =>
    simp [hnone]

def Loads (group : RegistryGroup) (loaded : LoadedGroup) : Prop :=
  loaded.toRegistryGroup = group ∧ group.report.text "run_id" = some loaded.runId ∧
    isSafeComponent loaded.runId

theorem mapM_loadGroup_ok : ∀ {start : Nat},
    (groups.zipIdx start).mapM loadGroup = .ok loaded ↔ List.Forall₂ Loads groups loaded := by
  induction groups generalizing loaded with
  | nil =>
    intro start
    rw [zipIdx_nil, mapM_nil, forall₂_nil_left_iff]
    exact ⟨fun h => (Except.ok.inj h).symm, fun h => h ▸ rfl⟩
  | cons group groups ih =>
    intro start
    rw [zipIdx_cons, mapM_cons, forall₂_cons_left_iff]
    simp only [bind_ok, loadGroup_ok, ih, pure, Except.pure, Except.ok.injEq]
    constructor
    · rintro ⟨first, hfirst, rest, hrest, rfl⟩
      exact ⟨first, rest, hfirst, hrest, rfl⟩
    · rintro ⟨first, rest, hfirst, hrest, rfl⟩
      exact ⟨first, hfirst, rest, hrest, rfl⟩

theorem exists_loaded {α β : Type} {loads : α → β → Prop} {groups : List α} {loaded : List β}
    (h : List.Forall₂ loads groups loaded) : ∀ group ∈ groups, ∃ entry ∈ loaded, loads group entry := by
  induction h with
  | nil => exact fun _ hgroup => absurd hgroup not_mem_nil
  | cons hload _ ih =>
    exact forall_mem_cons.mpr ⟨⟨_, mem_cons_self, hload⟩, fun group hgroup => by
      obtain ⟨entry, hentry, hload⟩ := ih group hgroup
      exact ⟨entry, mem_cons_of_mem _ hentry, hload⟩⟩

def mergedState (env : MergeEnv) (loaded : List LoadedGroup) : MergeState :=
  (loaded.insertionSort fun a b => groupKey a ≤ groupKey b).foldl (mergeGroup env) .initial

theorem mergeReconciledRegistries_ok : mergeReconciledRegistries env existing groups = .ok report ↔
      groups ≠ [] ∧ existing = [] ∧ ∃ loaded, List.Forall₂ Loads groups loaded ∧
        finishMerge (mergedState env loaded) = report := by
  simp only [mergeReconciledRegistries, bind_ok, require_ok, exists_const, mapM_loadGroup_ok,
    Except.ok.injEq, Bool.not_eq_true', isEmpty_eq_false_iff, List.isEmpty_iff, mergedState]

/-- What the merged registry of a kind has of a finding: one entry under its id. -/
def KeptFinding (kind : FindingKind) (runId : String) (registry : List PyItem) (finding : PyItem) :
    Prop :=
  ∃ id evidence, finding.id kind.idField = some id ∧
    (finding.member "evidence").items = some evidence ∧
    registry.filter (fun entry => entry.text kind.idField = some (prefixedId runId id)) =
      [rewriteFinding kind runId id finding (evidence.map (mergedEvidence runId))]

/-- What a merged mechanism has of a mechanism of one group. -/
structure KeptMechanism (env : MergeEnv) (runId : String) (driftIds : List String)
    (mechanism : PyItem) (merged : MergedMechanism) : Prop where
  definition : merged.definition = mechanism ∨
    (mechanismSemantics merged.definition).same env.value (mechanismSemantics mechanism)
  evidence : ∃ items, (mechanism.member "evidence").items = some items ∧ ∀ item ∈ items,
    ∃ id, item.id "evidence_id" = some id ∧
      ∃ kept ∈ merged.evidence, kept.text "evidence_id" = some (prefixedId runId id)
  knownDrift : ∃ references, (mechanism.member "known_drift").texts = some references ∧
    ∀ reference ∈ references, mergedReference runId driftIds reference ∈ merged.knownDrift
  sourceRoles : ∃ roles, (mechanism.member "source_roles").texts = some roles ∧
    (∀ role ∈ roles, role ∈ merged.sourceRoles) ∧
    ⟨runId, sortedSet roles⟩ ∈ merged.sourceProvenance
  sourceRuns : runId ∈ merged.sourceRuns

structure KeptGroup (env : MergeEnv) (report : MergeReport) (runId : String)
    (group : RegistryGroup) : Prop where
  unknowns : ∀ record ∈ group.unknowns.items, KeptFinding unknownKind runId report.unknowns record
  driftFindings : ∀ finding ∈ group.driftFindings.items,
    KeptFinding driftKind runId report.driftFindings finding
  mechanisms : ∀ mechanism ∈ group.mechanisms.items, ∃ id merged,
    mechanism.id "mechanism_id" = some id ∧ (id, merged) ∈ report.mechanisms ∧
    KeptMechanism env runId (group.driftFindings.items.map (findingId driftKind)) mechanism merged

/-- A reference of a merged mechanism names a merged drift finding, or is a text as a group has it that
is no reference. -/
def ReferenceSound (groups : List RegistryGroup) (report : MergeReport) (reference : String) : Prop :=
  (∃ entry ∈ report.driftFindings, entry.text "drift_id" = some reference) ∨
  (isReference reference = false ∧ ∃ group ∈ groups, ∃ mechanism ∈ group.mechanisms.items,
    ∃ references, (mechanism.member "known_drift").texts = some references ∧
      reference ∈ references)

structure Lossless (env : MergeEnv) (groups : List RegistryGroup) (report : MergeReport) : Prop where
  unknownIds : (report.unknowns.map fun entry => entry.text "unknown_id").Nodup
  driftIds : (report.driftFindings.map fun entry => entry.text "drift_id").Nodup
  mechanismIds : (report.mechanisms.map Prod.fst).Nodup
  named : ∀ entry ∈ report.mechanisms, entry.2.definition.id "mechanism_id" = some entry.1
  kept : ∀ group ∈ groups, ∃ runId, group.report.text "run_id" = some runId ∧
    KeptGroup env report runId group
  references : ∀ entry ∈ report.mechanisms, ∀ reference ∈ entry.2.knownDrift,
    ReferenceSound groups report reference

/-! ### What a clean state reports -/

theorem KeptFinding.of_mergedFindings (h : kind.Known) {registry : List PyItem}
    (hnodup : (registry.map fun entry => entry.text kind.idField).Nodup)
    (hreadable : ReadableFinding kind finding) (hmem : mergedFinding kind runId finding ∈ registry) :
    KeptFinding kind runId registry finding := by
  obtain ⟨hid, evidence, hevidence, -⟩ := hreadable
  refine ⟨findingId kind finding, evidence, id_eq_findingId hid, hevidence, ?_⟩
  have hfilter := filter_eq_singleton hnodup hmem
  simp only [text_mergedFinding h] at hfilter
  rw [hfilter, mergedFinding, hevidence, Option.getD_some, findingId]

theorem prefixedId_ne_empty : prefixedId runId value ≠ "" := by
  intro h
  have hchars := congrArg String.toList h
  have hcolons : "::".toList = [':', ':'] := rfl
  simp [prefixedId, hcolons] at hchars

theorem text_mergedEvidence (runId : String) (h : (evidence.id "evidence_id").isSome) :
    ∃ id, evidence.id "evidence_id" = some id ∧
      (mergedEvidence runId evidence).text "evidence_id" = some (prefixedId runId id) := by
  obtain ⟨id, hid⟩ := Option.isSome_iff_exists.mp h
  refine ⟨id, hid, ?_⟩
  rw [mergedEvidence, hid, rewriteEvidence, PyItem.text_put_of_ne (by decide),
    PyItem.text_put_of_ne (by decide), PyItem.text_put_self, Option.getD_some]

theorem Carries.kept {driftIds : List String}
    (h : Carries env merged (mechanismEntry runId driftIds mechanism))
    (hreadable : ReadableMechanism driftIds mechanism) :
    KeptMechanism env runId driftIds mechanism (finishMechanism merged) where
  definition := h.definition
  evidence := by
    obtain ⟨items, hitems, hids⟩ := hreadable.evidence
    refine ⟨items, hitems, fun item hitem => ?_⟩
    obtain ⟨id, hid, htext⟩ := text_mergedEvidence runId (hids item hitem)
    have hadded : mergedEvidence runId item ∈
        (contribution runId driftIds mechanism).evidence := by
      rw [contribution, hitems]
      exact mem_map_of_mem hitem
    exact ⟨id, hid, exists_mem_deduplicateById prefixedId_ne_empty _ (h.evidence _ hadded) htext⟩
  knownDrift := by
    obtain ⟨references, htexts, -⟩ := hreadable.knownDrift
    refine ⟨references, htexts, fun reference hreference => mem_sortedSet.mpr (h.knownDrift _ ?_)⟩
    rw [mechanismEntry, contribution, htexts]
    exact mem_map_of_mem hreference
  sourceRoles := by
    obtain ⟨roles, hroles⟩ := Option.isSome_iff_exists.mp hreadable.sourceRoles
    have hadded : (mechanismEntry runId driftIds mechanism).added.sourceRoles = roles := by
      rw [mechanismEntry, contribution, hroles]
      rfl
    refine ⟨roles, hroles, fun role hrole => mem_sortedSet.mpr (h.sourceRoles _ (hadded ▸ hrole)), ?_⟩
    exact (mem_insertionSort _).mpr (hadded ▸ h.provenance)
  sourceRuns := mem_sortedSet.mpr h.sourceRuns

theorem Merged.lossless (h : Merged env loaded state)
    (hloaded : ∀ group ∈ groups, ∃ entry ∈ loaded, Loads group entry)
    (hgroups : ∀ entry ∈ loaded, ∃ group ∈ groups, Loads group entry) :
    Lossless env groups (finishMerge state) := by
  have hruns : (loaded.map (·.runId)).Nodup := h.seenRuns ▸ h.nodup
  have hsafe : ∀ entry ∈ loaded, ':' ∉ entry.runId.toList := fun entry hentry => by
    obtain ⟨group, -, -, -, hsafe⟩ := hgroups entry hentry
    exact not_mem_of_isSafeComponent hsafe
  have hunknowns : (finishMerge state).unknowns.Perm (loaded.flatMap mergedUnknowns) :=
    h.unknowns ▸ perm_insertionSort _ _
  have hdrift : (finishMerge state).driftFindings.Perm (loaded.flatMap mergedDrift) :=
    h.driftFindings ▸ perm_insertionSort _ _
  have hunknownIds : ((finishMerge state).unknowns.map fun entry => entry.text "unknown_id").Nodup :=
    (hunknowns.map _).nodup_iff.mpr (nodup_mergedFindings unknownKind_known hruns hsafe
      fun entry hentry => (h.readable entry hentry).unknownIds)
  have hdriftIds : ((finishMerge state).driftFindings.map fun entry => entry.text "drift_id").Nodup :=
    (hdrift.map _).nodup_iff.mpr (nodup_mergedFindings driftKind_known hruns hsafe
      fun entry hentry => (h.readable entry hentry).nodup)
  have hmechanisms : ∀ id merged, (id, merged) ∈ (finishMerge state).mechanisms ↔
      ∃ found, state.mechanisms.get id = some found ∧ merged = finishMechanism found := by
    intro id merged
    rw [finishMerge]
    simp only [mem_map, mem_insertionSort, Prod.mk.injEq, Prod.exists,
      mem_iff_get h.mechanisms.nodup]
    constructor
    · rintro ⟨_, found, hget, rfl, rfl⟩
      exact ⟨found, hget, rfl⟩
    · rintro ⟨found, hget, rfl⟩
      exact ⟨id, found, hget, rfl, rfl⟩
  refine ⟨hunknownIds, hdriftIds, ?_, ?_, ?_, ?_⟩
  · have hkeys : (finishMerge state).mechanisms.map Prod.fst =
        (state.mechanisms.insertionSort fun a b => a.1 ≤ b.1).map Prod.fst := by
      rw [finishMerge, map_map]
      rfl
    rw [hkeys]
    exact ((perm_insertionSort _ _).map Prod.fst).nodup_iff.mpr h.mechanisms.nodup
  · rintro ⟨id, merged⟩ hentry
    obtain ⟨found, hget, rfl⟩ := (hmechanisms id merged).mp hentry
    obtain ⟨entry, hmem, rfl, hdefinition⟩ := (h.mechanisms.sourced id found hget).definition
    obtain ⟨group, hgroup, hmem⟩ := mem_flatMap.mp hmem
    obtain ⟨mechanism, hmechanism, rfl⟩ := mem_map.mp hmem
    obtain ⟨id, hid⟩ := Option.isSome_iff_exists.mp
      ((h.readable group hgroup).mechanisms mechanism hmechanism).id
    show found.definition.id "mechanism_id" = some (mechanismId mechanism)
    rw [hdefinition, mechanismId, hid]
    exact hid
  · intro group hgroup
    obtain ⟨entry, hentry, rfl, hrun, -⟩ := hloaded group hgroup
    have hreadable := h.readable entry hentry
    refine ⟨entry.runId, hrun, fun record hrecord => ?_, fun finding hfinding => ?_,
      fun mechanism hmechanism => ?_⟩
    · exact .of_mergedFindings unknownKind_known hunknownIds (hreadable.unknowns record hrecord)
        (hunknowns.mem_iff.mpr (mem_flatMap.mpr ⟨entry, hentry, mem_map_of_mem hrecord⟩))
    · exact .of_mergedFindings driftKind_known hdriftIds (hreadable.driftFindings finding hfinding)
        (hdrift.mem_iff.mpr (mem_flatMap.mpr ⟨entry, hentry, mem_map_of_mem hfinding⟩))
    · have hmem : mechanismEntry entry.runId (driftIds entry) mechanism ∈
          loaded.flatMap mechanismEntries :=
        mem_flatMap.mpr ⟨entry, hentry, mem_map_of_mem hmechanism⟩
      obtain ⟨found, hget, hcarries⟩ := h.mechanisms.carries _ hmem
      have hread := hreadable.mechanisms mechanism hmechanism
      obtain ⟨id, hid⟩ := Option.isSome_iff_exists.mp hread.id
      have hname : mechanismId mechanism = id := by rw [mechanismId, hid]; rfl
      exact ⟨id, finishMechanism found, hid, (hmechanisms _ _).mpr ⟨found, hname ▸ hget, rfl⟩,
        hcarries.kept hread⟩
  · rintro ⟨id, merged⟩ hentry reference hreference
    obtain ⟨found, hget, rfl⟩ := (hmechanisms id merged).mp hentry
    obtain ⟨added, hadded, hreference⟩ :=
      (h.mechanisms.sourced id found hget).knownDrift reference (mem_sortedSet.mp hreference)
    obtain ⟨entry, hentry, hadded⟩ := mem_flatMap.mp hadded
    obtain ⟨mechanism, hmechanism, rfl⟩ := mem_map.mp hadded
    obtain ⟨references, htexts, hknown⟩ :=
      ((h.readable entry hentry).mechanisms mechanism hmechanism).knownDrift
    rw [mechanismEntry, contribution, htexts] at hreference
    obtain ⟨written, hwritten, rfl⟩ := mem_map.mp hreference
    by_cases hdriftId : written ∈ driftIds entry
    · left
      obtain ⟨finding, hfinding, rfl⟩ := mem_map.mp hdriftId
      refine ⟨mergedFinding driftKind entry.runId finding, hdrift.mem_iff.mpr
        (mem_flatMap.mpr ⟨entry, hentry, mem_map_of_mem hfinding⟩), ?_⟩
      rw [mergedReference, if_pos hdriftId]
      exact text_mergedFinding driftKind_known finding
    · right
      obtain ⟨group, hgroup, rfl, -⟩ := hgroups entry hentry
      rw [mergedReference, if_neg hdriftId]
      exact ⟨(hknown written hwritten).resolve_left hdriftId, entry.toRegistryGroup, hgroup,
        mechanism, hmechanism, references, htexts, hwritten⟩

theorem mergedState_perm (h : loaded.Perm others) (hnodup : (loaded.map (·.runId)).Nodup) :
    mergedState env loaded = mergedState env others := by
  have hkeys : (loaded.map groupKey).Nodup := by
    refine pairwise_map.mpr ((pairwise_map.mp hnodup).imp fun hne heq => hne ?_)
    exact congrArg (fun key => (ofLex key).1) heq
  rw [mergedState, mergedState, insertionSort_key_congr h hkeys]

theorem merge_lossless_any_order {existing : List String} {groups : List RegistryGroup}
    {report : MergeReport} (h : mergeReconciledRegistries env existing groups = .ok report)
    (hmerged : report.state = "merged") :
    (∀ others, groups.Perm others →
      mergeReconciledRegistries env existing others = .ok report) ∧
    Lossless env groups report := by
  obtain ⟨hgroups, hexisting, loaded, hloads, rfl⟩ := mergeReconciledRegistries_ok.mp h
  have hclean : (mergedState env loaded).blockers = [] := by
    by_contra hblocked
    rw [finishMerge, if_neg hblocked] at hmerged
    exact absurd (show "blocked" = "merged" from hmerged) (by decide)
  have hstate := (mergeGroups_clean hclean).2 [] .initial
  rw [nil_append] at hstate
  have hsorted := perm_insertionSort (fun a b => groupKey a ≤ groupKey b) loaded
  have hnodup : (loaded.map (·.runId)).Nodup :=
    (hsorted.map _).nodup_iff.mp (hstate.seenRuns ▸ hstate.nodup)
  constructor
  · intro others hperm
    obtain ⟨reordered, hreordered, hloaded⟩ := perm_comp_forall₂ hperm.symm hloads
    refine mergeReconciledRegistries_ok.mpr ⟨fun hnil => hgroups ?_, hexisting, reordered,
      hreordered, ?_⟩
    · exact perm_nil.mp (hnil ▸ hperm)
    · rw [mergedState_perm hloaded.symm hnodup]
  · refine hstate.lossless (fun group hgroup => ?_) fun entry hentry => ?_
    · obtain ⟨entry, hentry, hload⟩ := exists_loaded hloads group hgroup
      exact ⟨entry, hsorted.mem_iff.mpr hentry, hload⟩
    · exact exists_loaded hloads.flip entry (hsorted.mem_iff.mp hentry)

def sampleMergeEnv : MergeEnv where
  value _ := 0
  canonicalHash
    | .list items => "list" ++ toString items.length
    | .dict entries => "dict" ++ toString entries.length
    | _ => ""
  repr _ := ""

def sampleFinding (idField id : String) : PyItem :=
  [(.str idField, .str id), (.str "evidence", .list [])]

def sampleMechanism : PyItem :=
  [(.str "mechanism_id", .str "retry"), (.str "known_drift", .list [.str "core::drift"]),
    (.str "source_roles", .list [.str "core"]),
    (.str "evidence", .list [.dict [(.str "evidence_id", .str "core::log")]])]

def sampleBinding (name : String) : PyKey × PyValue :=
  (.str name, .dict [(.str "filename", .str name), (.str "count", .int 1),
    (.str "content_hash", .str "list1"), (.str "file_sha256", .str "sha256:file")])

def sampleGroup (runId : String) : RegistryGroup where
  reportPath := runId
  reportFileHash := "file"
  report :=
    [(.str "run_id", .str runId), (.str "state", .str "reconciled"), (.str "blockers", .list []),
      (.str "warnings", .list []), (.str "roles", .list [.str "core"]),
      (.str "counts", .dict [(.str "mechanisms", .int 1), (.str "unknowns", .int 1),
        (.str "drift_findings", .int 1), (.str "blockers", .int 0), (.str "warnings", .int 0),
        (.str "roles", .int 1)]),
      (.str "outputs", .dict [sampleBinding "mechanisms", sampleBinding "unknowns",
        sampleBinding "drift_findings"]),
      (.str "report_hash", .str "dict7")]
  mechanisms := ⟨"mechanisms", "mechanisms", "file", [sampleMechanism]⟩
  unknowns := ⟨"unknowns", "unknowns", "file", [sampleFinding "unknown_id" "core::open"]⟩
  driftFindings := ⟨"drift", "drift_findings", "file", [sampleFinding "drift_id" "core::drift"]⟩

def sampleGroups : List RegistryGroup := [sampleGroup "run2", sampleGroup "run1"]

theorem merge_lossless_any_order_sample :
    ∃ report, mergeReconciledRegistries sampleMergeEnv [] sampleGroups = .ok report ∧
      report.state = "merged" ∧
      (∀ others, sampleGroups.Perm others →
        mergeReconciledRegistries sampleMergeEnv [] others = .ok report) ∧
      Lossless sampleMergeEnv sampleGroups report :=
  ⟨_, rfl, by decide +kernel, merge_lossless_any_order rfl (by decide +kernel)⟩

end Flowness.OssHarness
