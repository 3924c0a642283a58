import Flowness.CommitGate.Batches
import Flowness.Projection.Ownership

/-! The write-lock conflict check against the ownership projection. -/

namespace Flowness.CommitGate

open List Library Schemas Projection

structure OwnershipConflictResult where
  passed : Bool
  skipped : Bool := false
  failureReason : Option String := none
  failureEvidence : Evidence := .empty
  notice : Option String := none

def locksOf (nodes : List OwnershipNode) : Dict Entity OwnershipNode :=
  nodes.foldl (fun locks node => if node.writeLocked then Dict.set locks node.entity node
    else locks) []

/-- The run and the owner task of a lock that `submitter` does not hold. -/
def foreignHolder (locks : Dict Entity OwnershipNode) (submitter : String) (entity : Entity) :
    Option (String × Json) := do
  let lock ← Dict.get locks entity
  let holder ← lock.lockHolderRunId
  if holder ≠ "" ∧ holder ≠ submitter then return (holder, lock.ownerTaskId) else none

def conflictAt (env : GateEnv) (locks : Dict Entity OwnershipNode) (submitter : String)
    (entity : Entity) : Option OwnershipConflictResult :=
  (foreignHolder locks submitter entity).map fun (holder, ownerTaskId) =>
    { passed := false, failureReason := some "write_conflict"
      failureEvidence :=
        ⟨[("locked_entity", entity.1 ++ ":" ++ entity.2), ("lock_holder_run_id", holder),
          ("lock_owner_task_id", env.str ownerTaskId), ("submitter_run_id", submitter)],
          by simp [Dict.keys]⟩ }

def checkOwnershipConflict (env : GateEnv) (projection : Option (List OwnershipNode))
    (writeSet : List Json) (submitterRunId : Option String) : OwnershipConflictResult :=
  match submitterRunId.filter (· ≠ "") with
  | none =>
    { passed := true, skipped := true
      notice := some ("ownership_conflict_skipped: envelope has no run_id (boundary-less — " ++
        "caller not on submit wrapper); no live-run identity to lock-check") }
  | some submitter =>
    if writeSet = [] then
      { passed := true, skipped := true
        notice := some "ownership_conflict_skipped: empty write_set" }
    else
      match projection.getD [] with
      | [] =>
        { passed := true, skipped := true
          notice := some "ownership_conflict_skipped: no ownership state" }
      | node :: nodes =>
        ((entitiesOf (.arr writeSet)).findSome?
          (conflictAt env (locksOf (node :: nodes)) submitter)).getD { passed := true }

theorem failureReason_of_conflict
    (h : (checkOwnershipConflict env projection writeSet submitterRunId).passed = false) :
    (checkOwnershipConflict env projection writeSet submitterRunId).failureReason =
      some "write_conflict" := by
  unfold checkOwnershipConflict at h ⊢
  split
  next hfilter =>
    simp only [hfilter] at h
    cases h
  next submitter hfilter =>
    simp only [hfilter] at h
    split
    next hempty =>
      simp only [if_pos hempty] at h
      cases h
    next hset =>
      simp only [if_neg hset] at h
      split
      next hnodes =>
        simp only [hnodes] at h
        cases h
      next node nodes hnodes =>
        simp only [hnodes] at h
        -- the entity that conflicts decides
        cases hscan : (entitiesOf (.arr writeSet)).findSome?
            (conflictAt env (locksOf (node :: nodes)) submitter) with
        | none =>
          rw [hscan] at h
          cases h
        | some result =>
          obtain ⟨entity, -, hentity⟩ := exists_of_findSome?_eq_some hscan
          obtain ⟨found, -, rfl⟩ := Option.map_eq_some_iff.mp hentity
          rfl

def Distinct (nodes : List OwnershipNode) : Prop := (nodes.map OwnershipNode.entity).Nodup

theorem entities_setLock (ownerTaskId : Json) (runId : Option String)
    (nodes : List OwnershipNode) (entity : Entity) :
    (setLock ownerTaskId runId nodes entity).map OwnershipNode.entity =
      if entity ∈ nodes.map OwnershipNode.entity then nodes.map OwnershipNode.entity
      else nodes.map OwnershipNode.entity ++ [entity] := by
  induction nodes with
  | nil => rfl
  | cons node nodes ih =>
    rw [setLock]
    split
    next hnode =>
      subst hnode
      simp [lockNode, OwnershipNode.entity]
    next hnode =>
      rw [map_cons, ih]
      have hne : entity ≠ node.entity := fun heq => hnode heq.symm
      by_cases hmem : entity ∈ nodes.map OwnershipNode.entity
      · rw [if_pos hmem, if_pos (by simpa using Or.inr (by simpa using hmem)), map_cons]
      · rw [if_neg hmem, if_neg (by simpa [hne] using hmem), map_cons, cons_append]

theorem entities_releaseLock (nodes : List OwnershipNode) (entity : Entity) :
    (releaseLock nodes entity).map OwnershipNode.entity = nodes.map OwnershipNode.entity := by
  rw [releaseLock, map_map]
  refine map_congr_left fun node _ => ?_
  simp only [Function.comp_apply]
  split <;> rfl

theorem Distinct.setLock (h : Distinct nodes) (ownerTaskId : Json) (runId : Option String)
    (entity : Entity) : Distinct (setLock ownerTaskId runId nodes entity) := by
  rw [Distinct, entities_setLock]
  split
  · exact h
  next hmem =>
    exact nodup_append.mpr ⟨h, nodup_singleton entity, fun a ha b hb => by
      rw [mem_singleton.mp hb]
      exact fun heq => hmem (heq ▸ ha)⟩

theorem Distinct.reduceOwnership (h : Distinct nodes) (getEvent : String → Option EventRecord)
    (event : EventRecord) : Distinct (reduceOwnership getEvent nodes event) := by
  have hrelease : ∀ entities : List Entity, Distinct (entities.foldl releaseLock nodes) := by
    intro entities
    induction entities using List.reverseRecOn with
    | nil => exact h
    | append_singleton entities last ih =>
      rw [foldl_append, foldl_cons, foldl_nil, Distinct, entities_releaseLock]
      exact ih
  have hset : ∀ (entities : List Entity) (ownerTaskId : Json) (runId : Option String),
      Distinct (entities.foldl (Projection.setLock ownerTaskId runId) nodes) := by
    intro entities ownerTaskId runId
    induction entities using List.reverseRecOn with
    | nil => exact h
    | append_singleton entities last ih =>
      rw [foldl_append, foldl_cons, foldl_nil]
      exact ih.setLock ownerTaskId runId last
  unfold Projection.reduceOwnership
  split
  · exact hset _ _ _
  · exact hrelease _
  · exact hrelease _
  · exact h

theorem distinct_ownership (getEvent : String → Option EventRecord)
    (records : List EventRecord) : Distinct (ownership getEvent records) := by
  have hfold : ∀ nodes, Distinct nodes →
      Distinct (records.foldl (reduceOwnership getEvent) nodes) := by
    induction records with
    | nil => exact fun _ h => h
    | cons record records ih => exact fun nodes h => ih _ (h.reduceOwnership getEvent record)
  exact hfold [] nodup_nil

theorem get_locksOf (h : Distinct nodes) (entity : Entity) : Dict.get (locksOf nodes) entity =
      (nodes.find? fun node => node.entity = entity).filter (·.writeLocked) := by
  have hfold : ∀ (nodes : List OwnershipNode) (locks : Dict Entity OwnershipNode), Distinct nodes →
      Dict.get (nodes.foldl (fun locks node => if node.writeLocked then
          Dict.set locks node.entity node else locks) locks) entity =
        match nodes.find? fun node => node.entity = entity with
        | some node => if node.writeLocked then some node else Dict.get locks entity
        | none => Dict.get locks entity := by
    intro nodes
    induction nodes with
    | nil => exact fun _ _ => rfl
    | cons node nodes ih =>
      intro locks hdistinct
      rw [Distinct, map_cons, nodup_cons] at hdistinct
      rw [foldl_cons, ih _ hdistinct.2, List.find?_cons]
      by_cases hnode : node.entity = entity
      · subst hnode
        have hrest : nodes.find? (fun other => other.entity = node.entity) = none := by
          rw [List.find?_eq_none]
          intro other hother heq
          exact hdistinct.1 (mem_map.mpr ⟨other, hother, by simpa using heq⟩)
        simp only [hrest, decide_true]
        split
        · exact Dict.get_set_self _ _ _
        · rfl
      · have hget : Dict.get (if node.writeLocked then Dict.set locks node.entity node else locks)
            entity = Dict.get locks entity := by
          split
          · exact Dict.get_set_of_ne _ _ fun heq => hnode heq.symm
          · rfl
        simp only [hnode, decide_false, hget]
  rw [locksOf, hfold nodes [] h]
  cases nodes.find? fun node => node.entity = entity with
  | none => rfl
  | some node =>
    simp only [Dict.get_nil, Option.filter_some]

theorem lockHolder_of_passed (hdistinct : Distinct nodes) (hrun : runId ≠ "")
    (h : (checkOwnershipConflict env (some nodes) writeSet (some runId)).passed = true)
    (hentity : entity ∈ entitiesOf (.arr writeSet))
    (hholder : lockHolder nodes entity = some holder) : holder = runId := by
  have hlocked := get_locksOf hdistinct entity
  obtain ⟨node, hfind, hholder⟩ := Option.bind_eq_some_iff.mp hholder
  rw [hfind] at hlocked
  split at hholder
  next hwrite =>
    rw [Option.filter_some, if_pos hwrite] at hlocked
    by_contra hne
    -- the table names another run, so the scan stops at this entity at the latest
    have hconflict : (conflictAt env (locksOf nodes) runId entity).isSome = true := by
      obtain ⟨hrunId, hblank⟩ := Option.filter_eq_some_iff.mp hholder
      have hblank : holder ≠ "" := by simpa using hblank
      simp [conflictAt, foreignHolder, hlocked, hrunId, hblank, hne]
    have hfails : (((entitiesOf (.arr writeSet)).findSome?
        (conflictAt env (locksOf nodes) runId)).getD { passed := true }).passed = false := by
      cases hscan : (entitiesOf (.arr writeSet)).findSome? (conflictAt env (locksOf nodes) runId) with
      | none =>
        rw [List.findSome?_eq_none_iff] at hscan
        rw [hscan entity hentity] at hconflict
        cases hconflict
      | some result =>
        obtain ⟨other, -, hother⟩ := exists_of_findSome?_eq_some hscan
        obtain ⟨found, -, rfl⟩ := Option.map_eq_some_iff.mp hother
        rfl
    cases nodes with
    | nil => cases hfind
    | cons first nodes =>
      have hset : writeSet ≠ [] := by
        rintro rfl
        cases hentity
      have hfilter : (some runId).filter (· ≠ "") = some runId := by simp [hrun]
      simp only [checkOwnershipConflict, hfilter, if_neg hset, Option.getD_some] at h
      rw [hfails] at h
      cases h
  · cases hholder

end Flowness.CommitGate
