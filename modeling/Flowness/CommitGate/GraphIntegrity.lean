import Flowness.CommitGate.Batches
import Flowness.Projection.ConceptGraph

/-!
The edge check of the gate: the target of a new concept edge is a concept of the committed
records or of the batch, or an external anchor.
-/

namespace Flowness.CommitGate

open Library Schemas Projection

def isExternalAnchor (target : String) : Bool :=
  "http://".toList.isPrefixOf target.toList || "https://".toList.isPrefixOf target.toList ||
    target.toList.contains '/' || ".md".toList.isSuffixOf target.toList

def newConceptId (eventType : EventType) (payload : Payload) : Option String :=
  if eventType = .conceptCreated then Json.nonBlank (conceptSource payload) "concept_id" else none

/-- The identifiers of `existing_concepts_from_records(records, include_retired=True)`. -/
def existingConceptIds (records : List EventRecord) : List String :=
  records.filterMap fun record => newConceptId record.eventType record.payload

structure EdgeEnds where
  edgeId : String
  source : String
  target : String

def edgeEnds (eventType : EventType) (payload : Payload) : Option EdgeEnds :=
  if eventType = .conceptEdgeAdded then do
    let source ← Json.nonBlank payload.afterState "source_concept_id"
    let target ← Json.nonBlank payload.afterState "target_concept_id"
    return { edgeId := ((Json.lookup payload.afterState "edge_id").text?).getD "", source, target }
  else none

structure GraphEdgeIntegrityResult where
  passed : Bool
  applicable : Bool := false
  failureReason : Option String := none
  failureEvidence : Evidence := .empty
  notices : List String := []

def edgeResolvable (nodes : List String) (edge : EdgeEnds) : Bool :=
  nodes.contains edge.target || isExternalAnchor edge.target

def unresolvableDetail : String :=
  "ConceptEdgeAdded.target 既非图内节点 (既有概念 ∪ 同批 co-created) " ++
    "也非合法 external_anchor → 导航撞空 = 完整性破"

def checkGraphEdgeIntegrity (domain : List EventIntent) (records : List EventRecord) :
    GraphEdgeIntegrityResult :=
  let edges := domain.filterMap fun intent => edgeEnds intent.eventType intent.payload
  let coCreated := domain.filterMap fun intent => newConceptId intent.eventType intent.payload
  if edges.isEmpty then { passed := true }
  else
    match edges.find? fun edge => !edgeResolvable (existingConceptIds records ++ coCreated) edge with
    | some edge =>
      { passed := false, applicable := true
        failureReason := some "edge_target_unresolvable"
        failureEvidence :=
          ⟨[("edge_id", edge.edgeId), ("source_concept_id", edge.source),
            ("target_concept_id", edge.target), ("detail", unresolvableDetail)],
            by simp [Dict.keys]⟩ }
    | none =>
      { passed := true, applicable := true
        notices := ["graph_edge_integrity: " ++ toString edges.length ++
          " 条 ConceptEdgeAdded target 均可解析"] }

theorem resolvable_of_passed {domain : List EventIntent} {records : List EventRecord}
    (h : (checkGraphEdgeIntegrity domain records).passed = true) {intent : EventIntent}
    (hintent : intent ∈ domain) {edge : EdgeEnds}
    (hedge : edgeEnds intent.eventType intent.payload = some edge) :
    edge.target ∈ existingConceptIds records ∨
      (∃ other ∈ domain, newConceptId other.eventType other.payload = some edge.target) ∨
      isExternalAnchor edge.target = true := by
  have hmem : edge ∈ domain.filterMap fun intent => edgeEnds intent.eventType intent.payload :=
    List.mem_filterMap.mpr ⟨intent, hintent, hedge⟩
  unfold checkGraphEdgeIntegrity at h
  dsimp only at h
  split at h
  next hempty =>
    rw [List.isEmpty_iff.mp hempty] at hmem
    cases hmem
  · split at h
    · cases h
    next hnone =>
      have hresolved := List.find?_eq_none.mp hnone edge hmem
      simp only [edgeResolvable, Bool.not_eq_true', Bool.not_eq_false, Bool.or_eq_true,
        List.contains_eq_mem, decide_eq_true_eq, List.mem_append, List.mem_filterMap] at hresolved
      rcases hresolved with (hexisting | hcreated) | hanchor
      · exact .inl hexisting
      · exact .inr (.inl hcreated)
      · exact .inr (.inr hanchor)

end Flowness.CommitGate
