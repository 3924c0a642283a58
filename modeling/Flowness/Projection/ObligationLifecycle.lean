import Flowness.Schemas.PayloadAccess

/-!
The obligation lifecycle projection: one node for each captured obligation. The first capture
builds the node; later events move its observed state, and its canonical state where the state
machine allows.
-/

namespace Flowness.Projection

open List Library Schemas

/-- `ObligationFieldsLifecycleState`. -/
inductive LifecycleState where
  | captured | activated | checked | violated | evolved | retired
deriving DecidableEq, Repr

/-- `ObligationCanonicalState`. -/
inductive CanonicalState where
  | active | superseded | retired
deriving DecidableEq, Repr

/-- `is_legal_canonical_transition`: staying, or leaving `active`. -/
def isLegalCanonicalTransition (current target : CanonicalState) : Bool :=
  current == target || (current, target) == (.active, .superseded) ||
    (current, target) == (.active, .retired)

structure ObligationNode where
  obligationId : String
  lifecycleState : LifecycleState
  lastObservedLifecycleEventType : LifecycleState
  canonicalState : CanonicalState
  attachedTo : List (Json × Json)
  scopeRule : Json
  scopeType : Json
  severity : Json
  nature : Json
  definition : Json
  createdAtEventId : String
  lastStateChangeEventId : String
  lastActivationEventId : Option String := none
  lastCheckEventId : Option String := none
  lastViolationEventId : Option String := none
  supersededBy : Option String := none
  scopeHint : Option (Dict String Json)

def buildObligationNodeFromCaptured (event : EventRecord) (obligationId : String) :
    ObligationNode where
  obligationId
  lifecycleState := .captured
  lastObservedLifecycleEventType := .captured
  canonicalState := .active
  attachedTo := (event.payload.getD "attached_to" (.arr [])).asDicts.map fun entry =>
    (Json.lookup entry "entity_type", Json.lookup entry "entity_id")
  scopeRule := event.payload.getD "scope_rule" (.str "")
  scopeType := event.payload.getD "scope_type" (.str "global")
  severity := event.payload.getD "severity" (.str "normal")
  nature := event.payload.getD "nature" (.str "invariant")
  definition := event.payload.getD "definition" (.str "")
  createdAtEventId := event.eventId.val
  lastStateChangeEventId := event.eventId.val
  scopeHint :=
    match event.payload.get "scope_hint" with
    | some (.obj entries) => some entries
    | _ => none

def applyCanonicalTransition (node : ObligationNode) (target : CanonicalState) : ObligationNode :=
  if isLegalCanonicalTransition node.canonicalState target then
    { node with canonicalState := target }
  else node

def observe (event : EventRecord) (node : ObligationNode) : ObligationNode :=
  match event.eventType with
  | .obligationActivated =>
    { node with lifecycleState := .activated, lastActivationEventId := some event.eventId.val }
  | .obligationChecked =>
    { node with lifecycleState := .checked, lastCheckEventId := some event.eventId.val }
  | .obligationViolated =>
    { node with lifecycleState := .violated, lastViolationEventId := some event.eventId.val }
  | .obligationEvolved => applyCanonicalTransition { node with lifecycleState := .evolved } .superseded
  | .obligationRetired => applyCanonicalTransition { node with lifecycleState := .retired } .retired
  | _ => node

def updateObligationNodeState (event : EventRecord) (node : ObligationNode) : ObligationNode :=
  let observed := observe event { node with lastStateChangeEventId := event.eventId.val }
  { observed with lastObservedLifecycleEventType := observed.lifecycleState }

def updateFirst (obligationId : String) (update : ObligationNode → ObligationNode) :
    List ObligationNode → List ObligationNode
  | [] => []
  | node :: nodes =>
    if node.obligationId = obligationId then update node :: nodes
    else node :: updateFirst obligationId update nodes

def obligationLifecycleEvents : List EventType :=
  [.obligationCaptured, .obligationActivated, .obligationChecked, .obligationViolated,
    .obligationEvolved, .obligationRetired]

/-- `_reduce_obligation_lifecycle` and its place in `_apply`. -/
def reduceObligationLifecycle (nodes : List ObligationNode) (event : EventRecord) :
    List ObligationNode :=
  if event.eventType ∈ obligationLifecycleEvents then
    match (event.payload.getD "obligation_id" .null).text? with
    | none => nodes
    | some obligationId =>
      if event.eventType = .obligationCaptured then
        if obligationId ∈ nodes.map ObligationNode.obligationId then nodes
        else nodes ++ [buildObligationNodeFromCaptured event obligationId]
      else updateFirst obligationId (updateObligationNodeState event) nodes
  else nodes

def obligationLifecycle (records : List EventRecord) : List ObligationNode :=
  records.foldl reduceObligationLifecycle []

/-- Neither the canonical nor the observed state of the obligation is `retired`. -/
def Standing (obligationId : String) (nodes : List ObligationNode) : Prop :=
  ∀ node ∈ nodes, node.obligationId = obligationId →
    node.canonicalState ≠ .retired ∧ node.lifecycleState ≠ .retired

def Retires (obligationId : String) (eventType : EventType) (payload : Payload) : Prop :=
  eventType = .obligationRetired ∧ payload.get "obligation_id" = some (.str obligationId)

variable {nodes : List ObligationNode} {node : ObligationNode} {obligationId : String}

theorem applyCanonicalTransition_superseded (h : node.canonicalState ≠ .retired) :
    (applyCanonicalTransition node .superseded).canonicalState ≠ .retired := by
  unfold applyCanonicalTransition
  split
  · simp
  · exact h

theorem lifecycleState_applyCanonicalTransition (node : ObligationNode) (target : CanonicalState) :
    (applyCanonicalTransition node target).lifecycleState = node.lifecycleState := by
  unfold applyCanonicalTransition
  split <;> rfl

theorem obligationId_updateObligationNodeState (event : EventRecord) (node : ObligationNode) :
    (updateObligationNodeState event node).obligationId = node.obligationId := by
  unfold updateObligationNodeState observe applyCanonicalTransition
  split
  all_goals first | rfl | (split <;> rfl)

theorem standing_updateObligationNodeState (htype : event.eventType ≠ .obligationRetired)
    (h : node.canonicalState ≠ .retired ∧ node.lifecycleState ≠ .retired) :
    (updateObligationNodeState event node).canonicalState ≠ .retired ∧
      (updateObligationNodeState event node).lifecycleState ≠ .retired := by
  unfold updateObligationNodeState observe
  split
  · exact ⟨h.1, by simp⟩
  · exact ⟨h.1, by simp⟩
  · exact ⟨h.1, by simp⟩
  · refine ⟨applyCanonicalTransition_superseded h.1, ?_⟩
    rw [lifecycleState_applyCanonicalTransition]
    simp
  next hretired =>
    exact absurd hretired htype
  · exact h

theorem mem_updateFirst (h : node ∈ updateFirst obligationId update nodes) :
    node ∈ nodes ∨ ∃ old ∈ nodes, old.obligationId = obligationId ∧ node = update old := by
  induction nodes with
  | nil => cases h
  | cons first nodes ih =>
    rw [updateFirst] at h
    split at h
    next hfirst =>
      rcases List.mem_cons.mp h with rfl | h
      · exact .inr ⟨first, mem_cons_self, hfirst, rfl⟩
      · exact .inl (mem_cons_of_mem _ h)
    · rcases List.mem_cons.mp h with rfl | h
      · exact .inl mem_cons_self
      · rcases ih h with h | ⟨old, hold, hid, rfl⟩
        · exact .inl (mem_cons_of_mem _ h)
        · exact .inr ⟨old, mem_cons_of_mem _ hold, hid, rfl⟩

theorem text_getD_iff {payload : Payload} :
    (payload.getD key .null).text? = some text ↔ payload.get key = some (.str text) := by
  unfold Payload.getD
  cases payload.get key with
  | none => simp [Json.text?]
  | some value => cases value <;> simp [Json.text?]

theorem Standing.reduce (h : Standing obligationId nodes) {event : EventRecord}
    (hother : ¬ Retires obligationId event.eventType event.payload) :
    Standing obligationId (reduceObligationLifecycle nodes event) := by
  unfold reduceObligationLifecycle
  split
  · split
    · exact h
    next eventObligation hid =>
      split
      · split
        · exact h
        · intro node hnode hnodeId
          rcases List.mem_append.mp hnode with hnode | hnode
          · exact h node hnode hnodeId
          · rw [List.mem_singleton.mp hnode]
            exact ⟨by simp [buildObligationNodeFromCaptured],
              by simp [buildObligationNodeFromCaptured]⟩
      · intro node hnode hnodeId
        rcases mem_updateFirst hnode with hold | ⟨old, hold, holdId, rfl⟩
        · exact h node hold hnodeId
        · rw [obligationId_updateObligationNodeState] at hnodeId
          refine standing_updateObligationNodeState (fun htype => hother ⟨htype, ?_⟩)
            (h old hold hnodeId)
          rw [← text_getD_iff, hid, ← holdId, hnodeId]
  · exact h

theorem Standing.foldl (h : Standing obligationId nodes) {events : List EventRecord}
    (hother : ∀ event ∈ events, ¬ Retires obligationId event.eventType event.payload) :
    Standing obligationId (events.foldl reduceObligationLifecycle nodes) := by
  induction events generalizing nodes with
  | nil => exact h
  | cons event events ih =>
    exact ih (h.reduce (hother event mem_cons_self))
      fun other hmem => hother other (mem_cons_of_mem _ hmem)

end Flowness.Projection
