import Flowness.Schemas.PayloadAccess
import Mathlib.Data.List.Induction

/-!
The concept graph projection: concept nodes, edges between them and the supersede index. Nodes
are never removed, an edge is deactivated in place.
-/

namespace Flowness.Projection

open List Library Schemas

structure StateMachine where
  states : List (Dict String Json)
  transitions : List (Dict String Json)
  sagaPattern : Bool
  definedAtEventId : String

structure ConceptNode where
  conceptId : String
  name : Json
  definition : Json
  sagaState : Json := .null
  createdByStage : Json
  createdAtEventId : String
  seedOrigin : Bool
  sourceBriefId : Json
  stateMachine : Option StateMachine := none

structure ConceptEdge where
  edgeId : String
  sourceConceptId : Json
  targetConceptId : Json
  edgeType : Json
  direction : Json
  createdAtEventId : String
  isActive : Bool := true

structure ConceptGraph where
  nodes : List ConceptNode := []
  edges : List ConceptEdge := []
  supersedeIndex : Dict String (List String) := []

/-- `d.get(key, default)`. -/
def member (entries : Dict String Json) (key : String) (default : Json) : Json :=
  (Dict.get entries key).getD default

/-- `src = after if after else payload`: a seed has its fields at the top. -/
def conceptSource (payload : Payload) : Dict String Json :=
  if payload.afterState ≠ [] then payload.afterState else payload.entries

def conceptNode (event : EventRecord) (conceptId : String) : ConceptNode :=
  let source := conceptSource event.payload
  { conceptId
    name := member source "name" (member source "concept_name" (.str ""))
    definition := member source "definition" (.str "")
    createdByStage := member source "created_by_stage" (.str "")
    createdAtEventId := event.eventId.val
    seedOrigin := (member source "seed_origin" (.bool false)).truthy
    sourceBriefId := Json.lookup source "source_brief_id" }

def conceptEdge (event : EventRecord) (edgeId : String) : ConceptEdge :=
  let after := event.payload.afterState
  { edgeId
    sourceConceptId := member after "source_concept_id" (.str "")
    targetConceptId := member after "target_concept_id" (.str "")
    edgeType := member after "edge_type" (.str "")
    direction := member after "direction" (.str "")
    createdAtEventId := event.eventId.val }

def ConceptNode.amend (node : ConceptNode) (newValue : Dict String Json) : ConceptNode :=
  { node with
    name := member newValue "name" node.name
    definition := member newValue "definition" node.definition
    sagaState := member newValue "saga_state" node.sagaState }

/-- An update of the nodes of one concept; a `concept_id` that is no string is nobody's. -/
def updateConcept (nodes : List ConceptNode) (conceptId : Json)
    (update : ConceptNode → ConceptNode) : List ConceptNode :=
  nodes.map fun node => if .str node.conceptId = conceptId then update node else node

def ConceptEdge.deactivate (edgeId : Json) (edge : ConceptEdge) : ConceptEdge :=
  if Json.str edge.edgeId = edgeId then { edge with isActive := false } else edge

/-- One entry of `proposed_changes`. -/
def applyProposedChange (event : EventRecord) (graph : ConceptGraph)
    (change : Dict String Json) : ConceptGraph :=
  match (Json.lookup change "entity_id").text? with
  | none => graph
  | some entityId =>
    let recorded := (Dict.get graph.supersedeIndex entityId).getD []
    let recorded := if event.eventId.val ∈ recorded then recorded
      else recorded ++ [event.eventId.val]
    { graph with
      supersedeIndex := Dict.set graph.supersedeIndex entityId recorded
      nodes :=
        match Json.lookup change "new_value" with
        | .obj newValue => updateConcept graph.nodes (.str entityId) (·.amend newValue)
        | _ => graph.nodes }

def reduceConceptGraph (graph : ConceptGraph) (event : EventRecord) : ConceptGraph :=
  let after := event.payload.afterState
  match event.eventType with
  | .conceptCreated =>
    match (Json.lookup (conceptSource event.payload) "concept_id").text? with
    | some conceptId =>
      if conceptId ∈ graph.nodes.map ConceptNode.conceptId then graph
      else { graph with nodes := graph.nodes ++ [conceptNode event conceptId] }
    | none => graph
  | .conceptEdgeAdded =>
    match (Json.lookup after "edge_id").text? with
    | some edgeId =>
      if edgeId ∈ graph.edges.map ConceptEdge.edgeId then graph
      else { graph with edges := graph.edges ++ [conceptEdge event edgeId] }
    | none => graph
  | .conceptEdgeRemoved =>
    let edgeId := Json.lookup (event.payload.getD "before_state" .null).asDict "edge_id"
    { graph with edges := graph.edges.map (ConceptEdge.deactivate edgeId) }
  | .conceptStateTransition =>
    { graph with nodes := updateConcept graph.nodes (Json.lookup after "concept_id") fun node =>
        { node with sagaState := Json.lookup after "saga_state" } }
  | .conceptStateMachineDefined =>
    let machine : StateMachine :=
      { states := (Json.lookup after "states").asDicts
        transitions := (Json.lookup after "transitions").asDicts
        sagaPattern := (member after "saga_pattern" (.bool true)).truthy
        definedAtEventId := event.eventId.val }
    { graph with nodes := updateConcept graph.nodes (Json.lookup after "concept_id") fun node =>
        { node with stateMachine := some machine } }
  | .conceptGraphProposal =>
    (Json.lookup after "proposed_changes").asDicts.foldl (applyProposedChange event) graph
  | _ => graph

def conceptGraph (records : List EventRecord) : ConceptGraph :=
  records.foldl reduceConceptGraph {}

namespace ConceptGraph

def conceptIds (graph : ConceptGraph) : List String := graph.nodes.map ConceptNode.conceptId

end ConceptGraph

theorem conceptIds_updateConcept (nodes : List ConceptNode) (conceptId : Json)
    {update : ConceptNode → ConceptNode}
    (h : ∀ node, (update node).conceptId = node.conceptId) :
    (updateConcept nodes conceptId update).map ConceptNode.conceptId =
      nodes.map ConceptNode.conceptId := by
  rw [updateConcept, map_map]
  refine map_congr_left fun node _ => ?_
  simp only [Function.comp_apply]
  split
  · exact h node
  · rfl

theorem conceptIds_applyProposedChange (event : EventRecord) (graph : ConceptGraph)
    (change : Dict String Json) :
    (applyProposedChange event graph change).conceptIds = graph.conceptIds := by
  unfold applyProposedChange
  split
  · rfl
  · unfold ConceptGraph.conceptIds
    split
    · exact conceptIds_updateConcept _ _ fun _ => rfl
    · rfl

def createdConcept (event : EventRecord) : Option String :=
  if event.eventType = .conceptCreated then
    (Json.lookup (conceptSource event.payload) "concept_id").text?
  else none

theorem mem_conceptIds_reduceConceptGraph (graph : ConceptGraph) (event : EventRecord)
    (conceptId : String) :
    conceptId ∈ (reduceConceptGraph graph event).conceptIds ↔
      conceptId ∈ graph.conceptIds ∨ createdConcept event = some conceptId := by
  have hsame : ∀ {next : ConceptGraph}, next.conceptIds = graph.conceptIds →
      event.eventType ≠ .conceptCreated →
      (conceptId ∈ next.conceptIds ↔
        conceptId ∈ graph.conceptIds ∨ createdConcept event = some conceptId) := by
    intro next hids htype
    simp [hids, createdConcept, htype]
  unfold reduceConceptGraph
  dsimp only
  split
  next htype =>
    rw [createdConcept]
    split
    next created hcreated =>
      rw [hcreated]
      split
      next hmem =>
        constructor
        · exact Or.inl
        · rintro (h | h)
          · exact h
          · exact Option.some.inj h ▸ hmem
      · simp [ConceptGraph.conceptIds, conceptNode, eq_comm]
    next hnone =>
      simp [hnone]
  next htype =>
    split
    · split
      · exact hsame rfl (by simp [htype])
      · exact hsame rfl (by simp [htype])
    · exact hsame rfl (by simp [htype])
  next htype =>
    exact hsame rfl (by simp [htype])
  next htype =>
    exact hsame (conceptIds_updateConcept _ _ fun _ => rfl) (by simp [htype])
  next htype =>
    exact hsame (conceptIds_updateConcept _ _ fun _ => rfl) (by simp [htype])
  next htype =>
    refine hsame ?_ (by simp [htype])
    induction (Json.lookup event.payload.afterState "proposed_changes").asDicts
      using List.reverseRecOn with
    | nil => rfl
    | append_singleton changes change ih =>
      rw [foldl_append, foldl_cons, foldl_nil, conceptIds_applyProposedChange, ih]
  next htype _ _ _ _ _ =>
    exact hsame rfl htype

theorem mem_conceptIds_conceptGraph (records : List EventRecord) (conceptId : String) :
    conceptId ∈ (conceptGraph records).conceptIds ↔
      ∃ record ∈ records, createdConcept record = some conceptId := by
  induction records using List.reverseRecOn with
  | nil => simp [conceptGraph, ConceptGraph.conceptIds]
  | append_singleton records record ih =>
    rw [conceptGraph, foldl_append, foldl_cons, foldl_nil,
      mem_conceptIds_reduceConceptGraph]
    rw [conceptGraph] at ih
    rw [ih]
    simp [exists_or]

end Flowness.Projection
