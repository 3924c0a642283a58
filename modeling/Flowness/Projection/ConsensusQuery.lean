import Flowness.Projection.AtReferenceGraph

/-!
Three queries over the concept graph and the references. Each resolves a reference to its concept
and judges it with its own order of rules and its own defaults.
-/

namespace Flowness.Projection

open List Library

variable (graph : ConceptGraph) (refs : List AtReference)

def supersedeChain (node : ConceptNode) : List String :=
  (Dict.get graph.supersedeIndex node.conceptId).getD []

/-- `_node_last_event_id`. -/
def nodeLastEventId (node : ConceptNode) : String :=
  (supersedeChain graph node).getLastD node.createdAtEventId

def refTargetsConcept (ref : AtReference) (node : ConceptNode) : Bool :=
  (match ref.targetConceptName with
    | .str name => name ≠ "" && Json.str name == node.name
    | _ => false) ||
    ref.target.any fun target => target.entityId == .str node.conceptId

/-- `list_referers`; `none` is `CONCEPT_NOT_FOUND`. -/
def listReferers (conceptId : String) (refTypeFilter : Option String) : Option (List AtReference) :=
  (graph.nodes.find? fun node => node.conceptId = conceptId).map fun node =>
    refs.filter fun ref => ref.isActive && refTargetsConcept ref node &&
      refTypeFilter.all fun type => orElse ref.locatorType ref.referenceType == .str type

def resolveRefTargetNode (ref : AtReference) : Option ConceptNode :=
  (graph.nodes.find? fun node => node.name = ref.targetConceptName).or
    (graph.nodes.find? fun node => ref.target.any fun target => target.entityId == .str node.conceptId)

/-- `is_reference_current`; `none` is `REFERENCE_NOT_FOUND`. -/
def isReferenceCurrent (referenceId : String) : Option Bool :=
  (refs.find? fun ref => ref.referenceId = referenceId).map fun ref =>
    if ref.isStale then false
    else
      match resolveRefTargetNode graph ref with
      | none => false
      | some node =>
        if supersedeChain graph node = [] then true
        else ref.lockedEventId.truthy && ref.lockedEventId == .str (nodeLastEventId graph node)

inductive StalenessSeverity where
  | high | medium | low
deriving DecidableEq

def severityOf (ref : AtReference) : StalenessSeverity :=
  if ref.onTargetSupersedePolicy = .str "explicit_decision_required" then .high
  else if ref.onTargetSupersedePolicy = .str "pin_to_snapshot" then .low
  else .medium

/-- One entry of `list_stale_references`. -/
structure StaleReport where
  referenceId : String
  targetConceptName : Json
  oldLock : Json
  currentTargetEvent : Json
  severity : StalenessSeverity
  policy : Json
  stalenessStatus : Json

/-- The newest event of a superseded target, where the flag does not settle it. -/
def currentTargetEvent (ref : AtReference) : Option String :=
  if ref.isStale then none
  else
    (resolveRefTargetNode graph ref).bind fun node =>
      if supersedeChain graph node = [] then none else some (nodeLastEventId graph node)

def isListedStale (ref : AtReference) : Bool :=
  ref.isStale || (currentTargetEvent graph ref).any fun current =>
    ref.lockedEventId.truthy && current ≠ "" && ref.lockedEventId != .str current

def listStaleReferences (severityFilter : Option StalenessSeverity) : List StaleReport :=
  (refs.filter fun ref => ref.isActive && isListedStale graph ref &&
    severityFilter.all (severityOf ref == ·)).map fun ref =>
    { referenceId := ref.referenceId
      targetConceptName := ref.targetConceptName
      oldLock := ref.lockedEventId
      currentTargetEvent := orElse ref.targetSupersededAtEventId
        (((currentTargetEvent graph ref).map Json.str).getD .null)
      severity := severityOf ref
      policy := ref.onTargetSupersedePolicy
      stalenessStatus := ref.stalenessStatus }

/-- No flag, and a target that is not in the graph or a superseded one that there is no lock to
compare with. -/
def Unjudged (ref : AtReference) : Prop :=
  ref.isStale = false ∧ (resolveRefTargetNode graph ref = none ∨
    ∃ node, resolveRefTargetNode graph ref = some node ∧ supersedeChain graph node ≠ [] ∧
      (ref.lockedEventId.truthy = false ∨ nodeLastEventId graph node = ""))

/-- Named by a text, or by no name that a concept has, or by that of the concept its endpoint is. -/
def NamesTarget (ref : AtReference) : Prop :=
  (∃ name, ref.targetConceptName = .str name ∧ name ≠ "") ∨
    (∀ node ∈ graph.nodes, node.name ≠ ref.targetConceptName) ∨
      ∃ node target, (graph.nodes.find? fun node => node.name = ref.targetConceptName) = some node ∧
        ref.target = some target ∧ target.entityId = .str node.conceptId

/-- The current check and the stale list say the same of the reference, and the concept it resolves
to has it among its referers. -/
structure QueriesAgree (ref : AtReference) : Prop where
  staleness : isReferenceCurrent graph refs ref.referenceId = some false ↔
    ref.referenceId ∈ (listStaleReferences graph refs none).map StaleReport.referenceId
  referers : ∀ node, resolveRefTargetNode graph ref = some node →
    ∃ referers, listReferers graph refs node.conceptId none = some referers ∧ ref ∈ referers

variable {graph refs} {ref : AtReference}

theorem mem_listStaleReferences (hrefs : (refs.map AtReference.referenceId).Nodup)
    (href : ref ∈ refs) (hactive : ref.isActive = true) :
    ref.referenceId ∈ (listStaleReferences graph refs none).map StaleReport.referenceId ↔
      isListedStale graph ref = true := by
  unfold listStaleReferences
  rw [map_map, mem_map]
  constructor
  · rintro ⟨other, hother, hid⟩
    obtain ⟨hmem, hlisted⟩ := List.mem_filter.mp hother
    cases inj_on_of_nodup_map hrefs hmem href hid
    simp only [Bool.and_eq_true] at hlisted
    exact hlisted.1.2
  · intro hlisted
    exact ⟨ref, List.mem_filter.mpr ⟨href, by simp [hactive, hlisted]⟩, rfl⟩

theorem isReferenceCurrent_iff_isListedStale (hfind :
    (refs.find? fun other => other.referenceId = ref.referenceId) = some ref) :
    isReferenceCurrent graph refs ref.referenceId = some false ↔
      isListedStale graph ref = true ∨ Unjudged graph ref := by
  unfold isReferenceCurrent isListedStale currentTargetEvent Unjudged
  rw [hfind, Option.map_some]
  cases ref.isStale with
  | true => simp
  | false =>
    cases resolveRefTargetNode graph ref with
    | none => simp
    | some node =>
      by_cases hchain : supersedeChain graph node = []
      · simp [hchain]
      · cases hlocked : ref.lockedEventId.truthy with
        | false => simp [hchain]
        | true =>
          by_cases hempty : nodeLastEventId graph node = ""
          · have hne : ref.lockedEventId ≠ .str "" := by
              intro heq
              rw [heq] at hlocked
              cases hlocked
            simp [hchain, hempty, hne]
          · simp [hchain, hempty]

theorem not_isListedStale_of_unjudged (h : Unjudged graph ref) : isListedStale graph ref = false := by
  obtain ⟨hstale, hnone | ⟨node, hnode, hchain, hmissing⟩⟩ := h
  · simp [isListedStale, currentTargetEvent, hstale, hnone]
  · rcases hmissing with hlock | hempty
    · simp [isListedStale, currentTargetEvent, hstale, hnode, hchain, hlock]
    · simp [isListedStale, currentTargetEvent, hstale, hnode, hchain, hempty]

theorem mem_listReferers (hnodes : graph.conceptIds.Nodup) (href : ref ∈ refs)
    (hactive : ref.isActive = true) {node : ConceptNode} (hnode : node ∈ graph.nodes) :
    (∃ referers, listReferers graph refs node.conceptId none = some referers ∧ ref ∈ referers) ↔
      refTargetsConcept ref node = true := by
  unfold listReferers
  rw [Dict.find?_of_nodup hnodes hnode]
  simp [href, hactive]

theorem referers_iff (hnodes : graph.conceptIds.Nodup) (href : ref ∈ refs)
    (hactive : ref.isActive = true) :
    (∀ node, resolveRefTargetNode graph ref = some node →
      ∃ referers, listReferers graph refs node.conceptId none = some referers ∧ ref ∈ referers) ↔
      NamesTarget graph ref := by
  unfold resolveRefTargetNode NamesTarget
  cases hname : graph.nodes.find? fun node => node.name = ref.targetConceptName with
  | none =>
    -- resolved by the endpoint alone
    have hnone : ∀ node ∈ graph.nodes, node.name ≠ ref.targetConceptName := by
      simpa using List.find?_eq_none.mp hname
    refine iff_of_true (fun node hid => ?_) (Or.inr (Or.inl hnone))
    apply (mem_listReferers hnodes href hactive (mem_of_find?_eq_some hid)).mpr
    have htarget := List.find?_some hid
    simp only [refTargetsConcept, htarget, Bool.or_true]
  | some node =>
    have hmem := mem_of_find?_eq_some hname
    have heq : node.name = ref.targetConceptName := by simpa using List.find?_some hname
    simp only [Option.some_or, Option.some.injEq, forall_eq']
    rw [mem_listReferers hnodes href hactive hmem]
    constructor
    · intro htargets
      rcases Bool.or_eq_true_iff.mp htargets with hnamed | hendpoint
      · split at hnamed
        next name htext => exact Or.inl ⟨name, htext, by simp_all⟩
        · cases hnamed
      · obtain ⟨target, htarget, hid⟩ := (Option.any_eq_true _ _).mp hendpoint
        exact Or.inr (Or.inr ⟨node, target, rfl, htarget, eq_of_beq hid⟩)
    · rintro (⟨name, htext, hne⟩ | hnone | ⟨_, target, rfl, htarget, hid⟩)
      · simp [refTargetsConcept, heq, htext, hne]
      · exact absurd heq (hnone node hmem)
      · simp [refTargetsConcept, htarget, hid]

/-- The queries agree on exactly the active references that both can judge and that name their
target. -/
theorem referenceQueries_agree_iff (hnodes : graph.conceptIds.Nodup)
    (hrefs : (refs.map AtReference.referenceId).Nodup) (href : ref ∈ refs)
    (hactive : ref.isActive = true) :
    QueriesAgree graph refs ref ↔ ¬Unjudged graph ref ∧ NamesTarget graph ref := by
  have hcurrent : isReferenceCurrent graph refs ref.referenceId = some false ↔
      isListedStale graph ref = true ∨ Unjudged graph ref :=
    isReferenceCurrent_iff_isListedStale (Dict.find?_of_nodup hrefs href)
  have hlisted : ref.referenceId ∈ (listStaleReferences graph refs none).map
      StaleReport.referenceId ↔ isListedStale graph ref = true :=
    mem_listStaleReferences hrefs href hactive
  rw [← referers_iff hnodes href hactive]
  constructor
  · intro h
    refine ⟨fun hunjudged => ?_, h.referers⟩
    have hstale := hlisted.mp (h.staleness.mp (hcurrent.mpr (Or.inr hunjudged)))
    rw [not_isListedStale_of_unjudged hunjudged] at hstale
    cases hstale
  · rintro ⟨hjudged, hreferers⟩
    refine ⟨?_, hreferers⟩
    rw [hcurrent, hlisted]
    exact or_iff_left hjudged

/-- A concept that was superseded, a reference to it without a lock and one to no concept. -/
def supersededGraph : ConceptGraph where
  nodes :=
    [{ conceptId := "c-1"
       name := .str "one"
       definition := .null
       createdByStage := .null
       createdAtEventId := "e-1"
       seedOrigin := false
       sourceBriefId := .null }]
  supersedeIndex := [("c-1", ["e-4"])]

def unlockedRefs : List AtReference :=
  [{ referenceId := "r-1"
     target := some { entityId := .str "c-1" }
     createdAtEventId := "e-2" },
    { referenceId := "r-2"
      targetConceptName := .str "gone"
      lockedEventId := .str "e-3"
      createdAtEventId := "e-3" }]

/-- The same concept, by the name it has and under the lock it had. -/
def lockedRefs : List AtReference :=
  [{ referenceId := "r-3"
     targetConceptName := .str "one"
     lockedEventId := .str "e-2"
     createdAtEventId := "e-2" }]

theorem lockedRefs_agree : QueriesAgree supersededGraph lockedRefs lockedRefs[0] := by
  refine (referenceQueries_agree_iff (by decide) (by decide)
    (show lockedRefs[0] ∈ lockedRefs by simp) rfl).mpr ⟨?_, Or.inl ⟨"one", rfl, by decide⟩⟩
  rintro ⟨-, hnone | ⟨node, hnode, -, hmissing⟩⟩
  · exact absurd hnone (by decide)
  · have htarget : resolveRefTargetNode supersededGraph lockedRefs[0] =
        some supersededGraph.nodes[0] := rfl
    cases hnode
    exact absurd hmissing (by decide)

theorem referenceQueries_differ :
    isReferenceCurrent supersededGraph unlockedRefs "r-1" = some false ∧
      isReferenceCurrent supersededGraph unlockedRefs "r-2" = some false ∧
      (listStaleReferences supersededGraph unlockedRefs none).map StaleReport.referenceId = [] := by
  decide +kernel

end Flowness.Projection
