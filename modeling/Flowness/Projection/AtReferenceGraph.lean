import Flowness.Projection.ConceptGraph

/-!
The projection of the references between concepts. An added reference comes in two shapes, keyed by
its id or by its locator; a reference is deactivated, relocked and flagged in place.
-/

namespace Flowness.Projection

open Library Schemas

/-- `_endpoint`. -/
structure Endpoint where
  entityType : Json := .null
  entityId : Json := .null
  fieldPath : Json := .null

/-- One reference; a key that its shape lacks is null. -/
structure AtReference where
  referenceId : String
  source : Option Endpoint := none
  target : Option Endpoint := none
  referenceType : Json := .null
  sourceConceptId : Json := .null
  targetConceptName : Json := .null
  locatorType : Json := .null
  fieldPath : Json := .null
  stateAnchor : Json := .null
  lockedEventId : Json := .null
  onTargetSupersedePolicy : Json := .null
  isActive : Bool := true
  isStale : Bool := false
  targetSupersededAtEventId : Json := .null
  stalenessStatus : Json := .null
  createdAtEventId : String

def endpoint (raw : Json) : Endpoint :=
  match raw with
  | .obj entries =>
    { entityType := member entries "type" (Json.lookup entries "entity_type")
      entityId := member entries "id" (Json.lookup entries "entity_id")
      fieldPath := Json.lookup entries "field_path" }
  | _ => {}

/-- `first or second`. -/
def orElse (first second : Json) : Json := if first.truthy then first else second

/-- The shape that is keyed by `reference_id`. -/
def endpointReference (event : EventRecord) (referenceId : String) : AtReference :=
  let after := event.payload.afterState
  { referenceId
    source := some (endpoint (Json.lookup after "source_entity"))
    target := some (endpoint (Json.lookup after "target_entity"))
    referenceType := member after "reference_type" (.str "")
    createdAtEventId := event.eventId.val }

/-- The shape that is keyed by its locator. -/
def locatorReference (event : EventRecord) (atReference : String) : AtReference :=
  let after := event.payload.afterState
  { referenceId := atReference
    sourceConceptId := member after "source_concept_id" (.str "")
    targetConceptName := member after "target_concept_name" (.str "")
    locatorType := member after "locator_type" (.str "")
    fieldPath := Json.lookup after "field_path"
    stateAnchor := Json.lookup after "state_anchor"
    lockedEventId := orElse (Json.lookup after "lock_event_id") (.str event.eventId.val)
    onTargetSupersedePolicy := Json.lookup after "on_target_supersede_policy"
    createdAtEventId := event.eventId.val }

/-- The reference an added event makes, whatever the graph holds. -/
def addedReference (event : EventRecord) : Option AtReference :=
  match Json.lookup event.payload.afterState "reference_id" with
  | .str referenceId => some (endpointReference event referenceId)
  | _ =>
    (Json.lookup event.payload.afterState "at_reference").text?.map (locatorReference event)

/-- An update of the references with one id. -/
def updateReference (refs : List AtReference) (referenceId : Json)
    (update : AtReference → AtReference) : List AtReference :=
  refs.map fun ref => if .str ref.referenceId = referenceId then update ref else ref

def AtReference.relock (lock : Json) (ref : AtReference) : AtReference :=
  { ref with lockedEventId := orElse lock ref.lockedEventId, isStale := false }

def AtReference.flag (after : Dict String Json) (ref : AtReference) : AtReference :=
  { ref with
    isStale := true
    targetSupersededAtEventId := Json.lookup after "new_target_event_id"
    stalenessStatus := Json.lookup after "status"
    targetConceptName :=
      match Json.nonBlank after "target_concept_name" with
      | some name => .str name
      | none => ref.targetConceptName }

def removedReferenceId (event : EventRecord) : Json :=
  orElse (Json.lookup event.payload.afterState "reference_id")
    (Json.lookup (event.payload.getD "before_state" .null).asDict "reference_id")

def reduceAtReferenceGraph (refs : List AtReference) (event : EventRecord) : List AtReference :=
  let after := event.payload.afterState
  match event.eventType with
  | .atReferenceAdded =>
    match addedReference event with
    | some ref =>
      if ref.referenceId ∈ refs.map AtReference.referenceId then refs else refs ++ [ref]
    | none => refs
  | .atReferenceRemoved =>
    updateReference refs (removedReferenceId event) fun ref => { ref with isActive := false }
  | .atReferenceAutoUpdated =>
    updateReference refs (Json.lookup after "reference_id")
      (AtReference.relock (Json.lookup after "new_lock_event_id"))
  | .atReferenceTargetSuperseded =>
    updateReference refs (Json.lookup after "reference_id") (AtReference.flag after)
  | _ => refs

def atReferenceGraph (records : List EventRecord) : List AtReference :=
  records.foldl reduceAtReferenceGraph []

/-- What an event makes of a reference in the graph. -/
def AtReference.touch (event : EventRecord) (ref : AtReference) : AtReference :=
  let after := event.payload.afterState
  match event.eventType with
  | .atReferenceRemoved =>
    if .str ref.referenceId = removedReferenceId event then { ref with isActive := false } else ref
  | .atReferenceAutoUpdated =>
    if .str ref.referenceId = Json.lookup after "reference_id" then
      ref.relock (Json.lookup after "new_lock_event_id")
    else ref
  | .atReferenceTargetSuperseded =>
    if .str ref.referenceId = Json.lookup after "reference_id" then ref.flag after else ref
  | _ => ref

def newReference (refs : List AtReference) (event : EventRecord) : Option AtReference :=
  if event.eventType = .atReferenceAdded then
    (addedReference event).filter (·.referenceId ∉ refs.map AtReference.referenceId)
  else none

theorem reduceAtReferenceGraph_eq (refs : List AtReference) (event : EventRecord) :
    reduceAtReferenceGraph refs event =
      refs.map (AtReference.touch event) ++ (newReference refs event).toList := by
  unfold reduceAtReferenceGraph AtReference.touch newReference updateReference
  cases event.eventType with
  | atReferenceAdded =>
    cases addedReference event with
    | none => simp
    | some ref =>
      simp only [List.map_id', if_true, Option.filter_some, decide_eq_true_eq]
      split_ifs <;> simp
  | _ => simp

theorem referenceId_touch (event : EventRecord) (ref : AtReference) :
    (ref.touch event).referenceId = ref.referenceId := by
  unfold AtReference.touch AtReference.relock AtReference.flag
  dsimp only
  split
  all_goals
    first
      | rfl
      | split_ifs <;> rfl

/-- No two references of the graph share an id. -/
theorem nodup_atReferenceGraph (records : List EventRecord) :
    ((atReferenceGraph records).map AtReference.referenceId).Nodup := by
  induction records using List.reverseRecOn with
  | nil => exact List.nodup_nil
  | append_singleton records event ih =>
    have hids : AtReference.referenceId ∘ AtReference.touch event = AtReference.referenceId :=
      funext (referenceId_touch event)
    rw [atReferenceGraph, List.foldl_concat, reduceAtReferenceGraph_eq, List.map_append,
      List.map_map, hids, List.nodup_append]
    refine ⟨ih, ?_, ?_⟩
    · cases newReference (records.foldl reduceAtReferenceGraph []) event <;> simp
    · rintro known hknown other hother rfl
      obtain ⟨ref, href, rfl⟩ := List.mem_map.mp hother
      unfold newReference at href
      split_ifs at href with hadded
      · exact absurd hknown (by simpa using (Option.filter_eq_some_iff.mp
        (Option.mem_toList.mp href)).2)
      · cases href

end Flowness.Projection
