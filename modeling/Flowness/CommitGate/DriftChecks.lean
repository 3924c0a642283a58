import Flowness.CommitGate.Batches
import Flowness.Projection.Ownership

/-!
The freshness check: no event behind the envelope's baseline changes a subject the envelope read,
writes or was given by its capsule.
-/

namespace Flowness.CommitGate

open List Library Schemas Projection

def invalidatingEventTypes : List EventType :=
  [.obligationCaptured, .obligationEvolved, .obligationRetired, .conceptCreated, .conceptEdgeAdded,
    .conceptEdgeRemoved, .conceptStateTransition, .conceptGraphProposal, .atReferenceAdded,
    .atReferenceRemoved, .semanticUpgradeDeclaration, .natureJudgmentCaptured]

def writingRoles : List SubjectRole := [.primary, .affected]

structure FreshnessDriftResult where
  passed : Bool
  skipped : Bool := false
  notice : Option String := none
  invalidatingEventIds : List String := []
  driftNodes : List Entity := []

/-- `_capsule_neighborhood_concept_ids`; an empty list is a scope of its own. -/
def capsuleNeighborhoodConceptIds (log : CommittedLog) (capsuleCompiledEventId : String) :
    Option (List String) :=
  match log.getEvent capsuleCompiledEventId with
  | some record =>
    if record.eventType = .capsuleCompiled then
      match record.payload.get "neighborhood_concept_ids" with
      | some (.arr items) => some ((items.filterMap Json.text?).filter (· ≠ ""))
      | _ => none
    else none
  | none => none

def relevantSubjectsFromPayload (payload : Payload) : List Entity :=
  ["read_set", "write_set"].flatMap fun key =>
    (payload.getD key .null).asDicts.filterMap fun entry => do
      let entityType ← Json.nonBlank entry "entity_type"
      let entityId ← Json.nonBlank entry "entity_id"
      return (entityType, entityId)

/-- `freshness_relevant_subjects`, with repetitions. -/
def freshnessRelevantSubjects (log : CommittedLog) (capsuleCompiledEventId : String)
    (payload : Payload) : List Entity :=
  relevantSubjectsFromPayload payload ++
    ((capsuleNeighborhoodConceptIds log capsuleCompiledEventId).getD []).map ("concept", ·)

def entityLe (left right : Entity) : Bool :=
  left.1 < right.1 || (left.1 == right.1 && (left.2 < right.2 || left.2 == right.2))

/-- `sorted` of a set. -/
def sortedEntities (entities : List Entity) : List Entity :=
  entities.eraseDups.insertionSort fun left right => entityLe left right = true

/-- `lookup_entity`: a record once for each subject that names the entity. -/
def CommittedLog.lookupEntity (log : CommittedLog) (entity : Entity) : List EventRecord :=
  log.records.flatMap fun record =>
    (record.subjects.val.filter fun subject =>
      (subject.entityType.value, subject.entityId.val) = entity).map fun _ => record

/-- `invalidates_capsule_context`: the three conditions on a record and a relevant subject. -/
def invalidates (asOfProjectionSeq : Int) (entity : Entity) (record : EventRecord) : Bool :=
  asOfProjectionSeq < record.sequenceNumber && record.eventType ∈ invalidatingEventTypes &&
    record.subjects.val.any fun subject =>
      (subject.entityType.value, subject.entityId.val) = entity && subject.role ∈ writingRoles

def invalidatingRecords (log : CommittedLog) (asOfProjectionSeq : Int) (entity : Entity) :
    List EventRecord :=
  (log.lookupEntity entity).filter (invalidates asOfProjectionSeq entity)

def checkFreshnessDrift (log : CommittedLog) (relevantSubjects : List Entity)
    (asOfProjectionSeq : Int) : FreshnessDriftResult :=
  if asOfProjectionSeq ≤ 0 then
    { passed := true, skipped := true
      notice := some ("freshness_drift_skipped: envelope as_of_projection_seq<=0 (no projection " ++
        "baseline — bootstrap or caller not on submit wrapper); no freshness window") }
  else if relevantSubjects = [] then
    { passed := true, skipped := true
      notice := some ("freshness_drift_skipped: envelope has no read_set/write_set entity refs " ++
        "(boundary-less stub); no relevant-subject set to scan") }
  else
    let hits := (sortedEntities relevantSubjects).map fun entity =>
      (entity, invalidatingRecords log asOfProjectionSeq entity)
    let invalidatingIds := ((hits.flatMap Prod.snd).map (·.eventId.val)).eraseDups
    if invalidatingIds = [] then { passed := true }
    else
      { passed := false, invalidatingEventIds := invalidatingIds
        driftNodes := (hits.filter fun hit => hit.2 ≠ []).map Prod.fst }

theorem mem_sortedEntities : entity ∈ sortedEntities entities ↔ entity ∈ entities := by
  rw [sortedEntities, (perm_insertionSort _ _).mem_iff, mem_eraseDups]

theorem mem_invalidatingRecords {asOfProjectionSeq : Int} :
    record ∈ invalidatingRecords log asOfProjectionSeq entity ↔
      record ∈ log.records ∧ invalidates asOfProjectionSeq entity record = true := by
  rw [invalidatingRecords, mem_filter, CommittedLog.lookupEntity, mem_flatMap]
  constructor
  · rintro ⟨⟨found, hfound, hmem⟩, hinvalidates⟩
    obtain ⟨subject, -, rfl⟩ := mem_map.mp hmem
    exact ⟨hfound, hinvalidates⟩
  · rintro ⟨hrecord, hinvalidates⟩
    refine ⟨⟨record, hrecord, ?_⟩, hinvalidates⟩
    have hsubject := hinvalidates
    rw [invalidates, Bool.and_eq_true, any_eq_true] at hsubject
    obtain ⟨subject, hmem, hnamed⟩ := hsubject.2
    exact mem_map.mpr ⟨subject, mem_filter.mpr
      ⟨hmem, (Bool.and_eq_true _ _ ▸ hnamed).1⟩, rfl⟩

theorem checkFreshnessDrift_passed {relevantSubjects : List Entity} {asOfProjectionSeq : Int} :
    (checkFreshnessDrift log relevantSubjects asOfProjectionSeq).passed = true ↔
      (0 < asOfProjectionSeq → ∀ entity ∈ relevantSubjects, ∀ record ∈ log.records,
        invalidates asOfProjectionSeq entity record = false) := by
  unfold checkFreshnessDrift
  split
  next hbaseline =>
    exact ⟨fun _ hpositive => absurd hpositive (by omega), fun _ => rfl⟩
  next hbaseline =>
    split
    next hempty =>
      subst hempty
      exact ⟨fun _ _ entity hentity => absurd hentity not_mem_nil, fun _ => rfl⟩
    · dsimp only
      split
      next hnone =>
        refine ⟨fun _ _ entity hentity record hrecord => ?_, fun _ => rfl⟩
        by_contra hinvalidates
        have hhit : record ∈ invalidatingRecords log asOfProjectionSeq entity :=
          mem_invalidatingRecords.mpr ⟨hrecord, by simpa using hinvalidates⟩
        have hid : record.eventId.val ∈ ([] : List String) := by
          rw [← hnone, mem_eraseDups]
          exact mem_map_of_mem (mem_flatMap.mpr
            ⟨_, mem_map_of_mem (mem_sortedEntities.mpr hentity), hhit⟩)
        cases hid
      next hsome =>
        refine ⟨fun h => absurd h Bool.false_ne_true, fun hnone => absurd ?_ hsome⟩
        rw [eq_nil_iff_forall_not_mem]
        intro eventId hid
        rw [mem_eraseDups] at hid
        obtain ⟨record, hrecord, -⟩ := mem_map.mp hid
        obtain ⟨_, hmem, hhit⟩ := mem_flatMap.mp hrecord
        obtain ⟨entity, hentity, rfl⟩ := mem_map.mp hmem
        obtain ⟨hlog, hinvalidates⟩ := mem_invalidatingRecords.mp hhit
        rw [hnone (by omega) entity (mem_sortedEntities.mp hentity) record hlog] at hinvalidates
        cases hinvalidates

/-- `isinstance(value, int)` holds of a `bool` too. -/
def asOfProjectionSeq (payload : Payload) : Int :=
  match payload.getD "as_of_projection_seq" (.int 0) with
  | .int value => value
  | .bool value => if value then 1 else 0
  | _ => 0

section

variable (env : GateEnv) (payload : Payload)

def capsuleRef : String :=
  let ref := payload.getD "capsule_compiled_event_id" .null
  if ref.truthy then env.str ref else "evt-no-capsule"

def relevantSubjects (log : CommittedLog) : List Entity :=
  freshnessRelevantSubjects log (capsuleRef env payload) payload

def freshnessDrift (log : CommittedLog) : FreshnessDriftResult :=
  checkFreshnessDrift log (relevantSubjects env payload log) (asOfProjectionSeq payload)

def recheckDrift (log : CommittedLog) : Option DriftInfo :=
  let drift := freshnessDrift env payload log
  if drift.passed then none
  else some
    { driftNodes := drift.driftNodes
      relevantSubjects := sortedEntities (relevantSubjects env payload log)
      invalidatingEventIds := drift.invalidatingEventIds
      capsuleCompiledEventId := capsuleRef env payload }

/-- A record that the check holds against the payload, for a subject. -/
def Drifts (entity : Entity) (record : EventRecord) : Prop :=
  0 < asOfProjectionSeq payload ∧ invalidates (asOfProjectionSeq payload) entity record = true

variable {env payload}

theorem freshnessDrift_passed : (freshnessDrift env payload log).passed = true ↔
      ∀ entity ∈ relevantSubjects env payload log, ∀ record ∈ log.records,
        ¬ Drifts payload entity record := by
  rw [freshnessDrift, checkFreshnessDrift_passed]
  constructor
  · rintro h entity hentity record hrecord ⟨hpositive, hinvalidates⟩
    rw [h hpositive entity hentity record hrecord] at hinvalidates
    cases hinvalidates
  · intro h hpositive entity hentity record hrecord
    by_contra hinvalidates
    exact h entity hentity record hrecord ⟨hpositive, by simpa using hinvalidates⟩

theorem relevantSubjects_mono {log next : CommittedLog}
    (h : ∀ record, log.getEvent (capsuleRef env payload) = some record →
      next.getEvent (capsuleRef env payload) = some record)
    (hentity : entity ∈ relevantSubjects env payload log) :
    entity ∈ relevantSubjects env payload next := by
  rcases mem_append.mp hentity with hown | hcapsule
  · exact mem_append_left _ hown
  · refine mem_append_right _ ?_
    unfold capsuleNeighborhoodConceptIds at hcapsule ⊢
    cases hget : log.getEvent (capsuleRef env payload) with
    | none =>
      rw [hget] at hcapsule
      cases hcapsule
    | some record =>
      rw [h _ hget]
      rwa [hget] at hcapsule

end

end Flowness.CommitGate
