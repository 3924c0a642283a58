import Flowness.Schemas.PayloadAccess
import Mathlib.Data.List.Induction

/-!
The ownership projection: which run holds the write lock of an entity. A claim sets locks, an
accepted commit releases those of its envelope's write set, `LockReleased` those it lists.
-/

namespace Flowness.Projection

open List Library Schemas

structure OwnershipNode where
  entityType : String
  entityId : String
  ownerTaskId : Json
  writeLocked : Bool
  lockHolderRunId : Option String

abbrev Entity := String × String

def OwnershipNode.entity (node : OwnershipNode) : Entity := (node.entityType, node.entityId)

def entityOf (entry : Dict String Json) : Option Entity := do
  let entityType ← (Json.lookup entry "entity_type").text?
  let entityId ← (Json.lookup entry "entity_id").text?
  return (entityType, entityId)

def entitiesOf (value : Json) : List Entity := value.asDicts.filterMap entityOf

/-- The node update of `_set_lock`. -/
def lockNode (entity : Entity) (ownerTaskId : Json) (runId : Option String) : OwnershipNode :=
  { entityType := entity.1, entityId := entity.2, ownerTaskId, writeLocked := true
    lockHolderRunId := runId }

/-- `_set_lock`: the first node of the entity is overwritten, or a new one appended. -/
def setLock (ownerTaskId : Json) (runId : Option String) :
    List OwnershipNode → Entity → List OwnershipNode
  | [], entity => [lockNode entity ownerTaskId runId]
  | node :: nodes, entity =>
    if node.entity = entity then lockNode entity ownerTaskId runId :: nodes
    else node :: setLock ownerTaskId runId nodes entity

def releaseLock (nodes : List OwnershipNode) (entity : Entity) : List OwnershipNode :=
  nodes.map fun node =>
    if node.entity = entity then { node with writeLocked := false, lockHolderRunId := none }
    else node

/-- The write set of the envelope a `CommitAccepted` names. -/
def committedWriteSet (getEvent : String → Option EventRecord) (payload : Payload) :
    List Entity :=
  match (payload.getD "envelope_event_id" .null).text?.bind getEvent with
  | some envelope => entitiesOf (envelope.payload.getD "write_set" .null)
  | none => []

/-- `_reduce_ownership`; `getEvent` is the log the projection is caught up against. -/
def reduceOwnership (getEvent : String → Option EventRecord) (nodes : List OwnershipNode)
    (event : EventRecord) : List OwnershipNode :=
  match event.eventType with
  | .taskWriteSetClaimed =>
    let after := event.payload.afterState
    (entitiesOf (Json.lookup after "write_set")).foldl
      (setLock (Json.lookup after "task_id") event.provenance.runId) nodes
  | .commitAccepted => (committedWriteSet getEvent event.payload).foldl releaseLock nodes
  | .lockReleased =>
    (entitiesOf (Json.lookup event.payload.afterState "entities")).foldl releaseLock nodes
  | _ => nodes

def ownership (getEvent : String → Option EventRecord) (records : List EventRecord) :
    List OwnershipNode :=
  records.foldl (reduceOwnership getEvent) []

def lockHolder (nodes : List OwnershipNode) (entity : Entity) : Option String :=
  (nodes.find? fun node => node.entity = entity).bind fun node =>
    if node.writeLocked then node.lockHolderRunId.filter (· ≠ "") else none

def touchedEntities (getEvent : String → Option EventRecord) (event : EventRecord) :
    List Entity :=
  match event.eventType with
  | .taskWriteSetClaimed => entitiesOf (Json.lookup event.payload.afterState "write_set")
  | .commitAccepted => committedWriteSet getEvent event.payload
  | .lockReleased => entitiesOf (Json.lookup event.payload.afterState "entities")
  | _ => []

variable {entity : Entity} {event : EventRecord} {nodes : List OwnershipNode}

theorem lockHolder_ne_empty {runId : String} (h : lockHolder nodes entity = some runId) :
    runId ≠ "" := by
  obtain ⟨node, -, h⟩ := Option.bind_eq_some_iff.mp h
  split at h
  · simpa using (Option.filter_eq_some_iff.mp h).2
  · cases h

theorem reduceOwnership_congr {getEvent other : String → Option EventRecord}
    (h : event.eventType = .commitAccepted → committedWriteSet getEvent event.payload =
      committedWriteSet other event.payload)
    (nodes : List OwnershipNode) :
    reduceOwnership getEvent nodes event = reduceOwnership other nodes event := by
  unfold reduceOwnership
  split
  · rfl
  next htype =>
    rw [h htype]
  · rfl
  · rfl

theorem ownership_append (getEvent : String → Option EventRecord) (records : List EventRecord)
    (event : EventRecord) : ownership getEvent (records ++ [event]) =
      reduceOwnership getEvent (ownership getEvent records) event := by
  rw [ownership, foldl_append]
  rfl

theorem lockHolder_setLock_of_ne {other : Entity} (ownerTaskId : Json) (runId : Option String)
    (h : other ≠ entity) :
    lockHolder (setLock ownerTaskId runId nodes entity) other = lockHolder nodes other := by
  induction nodes with
  | nil =>
    have hne : (lockNode entity ownerTaskId runId).entity ≠ other := fun heq => h heq.symm
    simp [setLock, lockHolder, hne]
  | cons node nodes ih =>
    rw [setLock]
    split
    next hnode =>
      have hold : node.entity ≠ other := fun heq => h (heq.symm.trans hnode)
      have hnew : (lockNode entity ownerTaskId runId).entity ≠ other := fun heq => h heq.symm
      simp [lockHolder, hold, hnew]
    · simp only [lockHolder, List.find?_cons] at ih ⊢
      split
      · rfl
      · exact ih

theorem lockHolder_setLock_self (nodes : List OwnershipNode) (entity : Entity)
    (ownerTaskId : Json) (runId : Option String) :
    lockHolder (setLock ownerTaskId runId nodes entity) entity = runId.filter (· ≠ "") := by
  induction nodes with
  | nil => simp [setLock, lockHolder, lockNode, OwnershipNode.entity]
  | cons node nodes ih =>
    rw [setLock]
    split
    · simp [lockHolder, lockNode, OwnershipNode.entity]
    next hnode =>
      simpa [lockHolder, hnode] using ih

theorem lockHolder_releaseLock_of_ne {other : Entity} (h : other ≠ entity) :
    lockHolder (releaseLock nodes entity) other = lockHolder nodes other := by
  induction nodes with
  | nil => rfl
  | cons node nodes ih =>
    simp only [releaseLock, lockHolder, map_cons, List.find?_cons] at ih ⊢
    by_cases hnode : node.entity = entity
    · have hother : node.entity ≠ other := fun heq => h (heq.symm.trans hnode)
      rw [if_pos hnode]
      have hreleased : ({ node with writeLocked := false, lockHolderRunId := none } :
          OwnershipNode).entity ≠ other := hother
      simpa [hother, hreleased] using ih
    · rw [if_neg hnode]
      split
      · rfl
      · exact ih

section

variable (getEvent : String → Option EventRecord) (nodes : List OwnershipNode)

theorem lockHolder_reduceOwnership (h : entity ∉ touchedEntities getEvent event) :
    lockHolder (reduceOwnership getEvent nodes event) entity = lockHolder nodes entity := by
  have hset : ∀ (entities : List Entity) (ownerTaskId : Json) (runId : Option String)
      (nodes : List OwnershipNode), entity ∉ entities →
      lockHolder (entities.foldl (setLock ownerTaskId runId) nodes) entity =
        lockHolder nodes entity := by
    intro entities ownerTaskId runId
    induction entities with
    | nil => exact fun _ _ => rfl
    | cons head entities ih =>
      intro nodes hmem
      rw [mem_cons, not_or] at hmem
      rw [foldl_cons, ih _ hmem.2, lockHolder_setLock_of_ne _ _ hmem.1]
  have hrelease : ∀ (entities : List Entity) (nodes : List OwnershipNode), entity ∉ entities →
      lockHolder (entities.foldl releaseLock nodes) entity = lockHolder nodes entity := by
    intro entities
    induction entities with
    | nil => exact fun _ _ => rfl
    | cons head entities ih =>
      intro nodes hmem
      rw [mem_cons, not_or] at hmem
      rw [foldl_cons, ih _ hmem.2, lockHolder_releaseLock_of_ne hmem.1]
  unfold reduceOwnership
  unfold touchedEntities at h
  split
  next htype =>
    simp only [htype] at h
    exact hset _ _ _ nodes h
  next htype =>
    simp only [htype] at h
    exact hrelease _ nodes h
  next htype =>
    simp only [htype] at h
    exact hrelease _ nodes h
  · rfl

theorem lockHolder_claimed (htype : event.eventType = .taskWriteSetClaimed)
    (h : entity ∈ touchedEntities getEvent event) :
    lockHolder (reduceOwnership getEvent nodes event) entity =
      event.provenance.runId.filter (· ≠ "") := by
  have hset : ∀ (entities : List Entity) (ownerTaskId : Json) (runId : Option String)
      (nodes : List OwnershipNode), entity ∈ entities →
      lockHolder (entities.foldl (setLock ownerTaskId runId) nodes) entity =
        runId.filter (· ≠ "") := by
    intro entities ownerTaskId runId
    induction entities using List.reverseRecOn with
    | nil => exact fun _ hmem => absurd hmem not_mem_nil
    | append_singleton entities last ih =>
      intro nodes hmem
      rw [foldl_append, foldl_cons, foldl_nil]
      by_cases hlast : entity = last
      · rw [hlast, lockHolder_setLock_self]
      · rw [lockHolder_setLock_of_ne _ _ hlast]
        have hmem : entity ∈ entities := by simpa [hlast] using hmem
        exact ih nodes hmem
  unfold reduceOwnership
  unfold touchedEntities at h
  simp only [htype] at h ⊢
  exact hset _ _ _ nodes h

end

theorem lockHolder_releaseLock_self (nodes : List OwnershipNode) (entity : Entity) :
    lockHolder (releaseLock nodes entity) entity = none := by
  induction nodes with
  | nil => rfl
  | cons node nodes ih =>
    simp only [releaseLock, lockHolder, map_cons] at ih ⊢
    by_cases hnode : node.entity = entity
    · have hreleased : ({ node with writeLocked := false, lockHolderRunId := none } :
          OwnershipNode).entity = entity := hnode
      rw [if_pos hnode]
      simp [hreleased]
    · rw [if_neg hnode]
      simpa [hnode] using ih

theorem lockHolder_released (getEvent : String → Option EventRecord) (nodes : List OwnershipNode)
    (htype : event.eventType ≠ .taskWriteSetClaimed) (h : entity ∈ touchedEntities getEvent event) :
    lockHolder (reduceOwnership getEvent nodes event) entity = none := by
  have hrelease : ∀ entities : List Entity, entity ∈ entities →
      lockHolder (entities.foldl releaseLock nodes) entity = none := by
    intro entities
    induction entities using List.reverseRecOn with
    | nil => exact fun hmem => absurd hmem not_mem_nil
    | append_singleton entities last ih =>
      intro hmem
      rw [foldl_append, foldl_cons, foldl_nil]
      by_cases hlast : entity = last
      · rw [hlast, lockHolder_releaseLock_self]
      · rw [lockHolder_releaseLock_of_ne hlast]
        exact ih (by simpa [hlast] using hmem)
  unfold reduceOwnership
  unfold touchedEntities at h
  split
  next hclaim =>
    exact absurd hclaim htype
  next haccepted =>
    simp only [haccepted] at h
    exact hrelease _ h
  next hreleased =>
    simp only [hreleased] at h
    exact hrelease _ h
  next hclaim haccepted hreleased =>
    split at h
    next heq =>
      exact absurd heq hclaim
    next heq =>
      exact absurd heq haccepted
    next heq =>
      exact absurd heq hreleased
    · cases h

end Flowness.Projection
