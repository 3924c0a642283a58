import Flowness.CommitGate.ConceptMigration
import Flowness.Planning.PlanEvents
import Flowness.Projection.AtReferenceGraph

/-!
The responses to a superseded concept. They are planned from a scan of the raw lines and applied to
the projected references; the scan goes by locators, the projection by ids.
-/

namespace Flowness.CommitGate

open List Library Schemas Ledger Projection

inductive LockingPolicy where
  | pinToSnapshot | autoAcceptLatest | explicitDecisionRequired
deriving DecidableEq

/-- `_policy_of`. -/
def policyOf (stored : Json) : LockingPolicy :=
  if stored = .str "pin_to_snapshot" then .pinToSnapshot
  else if stored = .str "auto_accept_latest" then .autoAcceptLatest
  else .explicitDecisionRequired

variable (strOther : Json → String)

/-- One response of `plan_aux_events`. -/
def auxEvent (newStateHash : Json) (supersededConceptId supersedeEventId : String)
    (reference : Dict String Json) : EventType × Dict String Json :=
  let referenceId := Planning.str strOther ((Dict.get reference "at_reference").getD (.str ""))
  let oldLock := Planning.str strOther (orElse (orElse (Json.lookup reference "lock_event_id")
    (Json.lookup reference "_event_id")) (.str ""))
  let oldStateHash := Json.lookup reference "locked_at_state_hash"
  let superseded (status : String) (blocks : Bool) : EventType × Dict String Json :=
    (.atReferenceTargetSuperseded,
      [("reference_id", .str referenceId), ("old_lock_event_id", .str oldLock),
        ("new_target_event_id", .str supersedeEventId), ("locked_at_state_hash", oldStateHash),
        ("new_target_state_hash", newStateHash), ("target_concept_name", .str supersededConceptId),
        ("status", .str status), ("blocks_commit_for_referer", .bool blocks)])
  match policyOf (Json.lookup reference "on_target_supersede_policy") with
  | .autoAcceptLatest =>
    (.atReferenceAutoUpdated,
      [("reference_id", .str referenceId), ("old_lock_event_id", .str oldLock),
        ("new_lock_event_id", .str supersedeEventId), ("old_locked_at_state_hash", oldStateHash),
        ("locked_at_state_hash", newStateHash), ("target_concept_name", .str supersededConceptId)])
  | .pinToSnapshot => superseded "pinned_to_old" false
  | .explicitDecisionRequired => superseded "awaiting_decision" true

/-- `recordHashOf` is the record hash of a committed event, or null. -/
def planAuxEvents (recordHashOf : String → Json) (lines : List Json)
    (supersededConceptId supersedeEventId : String) : List (EventType × Dict String Json) :=
  (activeReferencesTo lines supersededConceptId).map
    (auxEvent strOther (recordHashOf supersedeEventId) supersededConceptId supersedeEventId)

structure StaleReference where
  referenceId : String
  sourceConceptId : Json
  targetConceptName : Json
  lockedEventId : Json
  targetSupersededAtEventId : Json
  stalenessStatus : Json
  onTargetSupersedePolicy : Json

def detectStaleReferences (refs : List AtReference) : List StaleReference :=
  (refs.filter fun ref => ref.isActive && ref.isStale).map fun ref =>
    { referenceId := ref.referenceId
      sourceConceptId := ref.sourceConceptId
      targetConceptName := ref.targetConceptName
      lockedEventId := ref.lockedEventId
      targetSupersededAtEventId := ref.targetSupersededAtEventId
      stalenessStatus := ref.stalenessStatus
      onTargetSupersedePolicy := ref.onTargetSupersedePolicy }

variable (conceptId : String)

/-- The target of either shape resolves to the concept. -/
def refersTo (ref : AtReference) : Bool :=
  resolvesToSuperseded ref.targetConceptName conceptId ||
    ref.target.any fun target => resolvesToSuperseded target.entityId conceptId

/-- The references that the graph holds active and whose target resolves to the concept. -/
def heldReferences (refs : List AtReference) : List AtReference :=
  refs.filter fun ref => ref.isActive && refersTo conceptId ref

def removedLocators (lines : List Json) : List String :=
  lines.filterMap fun line =>
    if lineType line = .str "AtReferenceRemoved" then
      (Json.lookup (lineAfter line) "at_reference").text?
    else none

/-- The event tells the scan what it tells the graph. A reference to the concept comes under a new
locator that no earlier line removes, a removal names it in both ways, and no flag retargets it. -/
def AlignedAt (front : List EventRecord) (event : EventRecord) : Prop :=
  let after := event.payload.afterState
  match event.eventType with
  | .atReferenceAdded =>
    (resolvesToSuperseded (Json.lookup after "target_concept_name") conceptId = true ∨
        (addedReference event).any (refersTo conceptId) = true) →
      ∃ locator, Json.lookup after "at_reference" = .str locator ∧
        addedReference event = some (locatorReference event locator) ∧
        locator ∉ (atReferenceGraph front).map AtReference.referenceId ∧
        locator ∉ removedLocators (front.map lineOf)
  | .atReferenceRemoved =>
    ∀ ref ∈ heldReferences conceptId (atReferenceGraph front),
      Json.lookup after "at_reference" = .str ref.referenceId ↔
        removedReferenceId event = .str ref.referenceId
  | .atReferenceTargetSuperseded =>
    ∀ ref ∈ atReferenceGraph front, Json.lookup after "reference_id" = .str ref.referenceId →
      ref.isActive = true → refersTo conceptId (ref.flag after) = refersTo conceptId ref
  | _ => True

variable {conceptId} {front : List EventRecord} {event : EventRecord}

/-- What the responses go by in a reference of the scan, and in one of the graph. -/
def scannedKey (reference : Dict String Json) : Json × Json :=
  (Json.lookup reference "at_reference", Json.lookup reference "on_target_supersede_policy")

def heldKey (ref : AtReference) : Json × Json := (.str ref.referenceId, ref.onTargetSupersedePolicy)

def unremoved (removed : List String) (key : Json × Json) : Bool :=
  match key.1 with
  | .str name => !removed.contains name
  | _ => true

def addedLine (conceptId : String) (line : Json) : Option (Dict String Json) :=
  if lineType line = .str "AtReferenceAdded" ∧
      resolvesToSuperseded (Json.lookup (lineAfter line) "target_concept_name") conceptId = true then
    some (Dict.set (lineAfter line) "_event_id" (Json.lookup line.asDict "event_id"))
  else none

theorem lineType_lineOf (type : EventType) :
    lineType (lineOf event) = .str (EventType.value type) ↔ event.eventType = type := by
  constructor
  · intro h
    exact StrEnum.value_inj (Json.str.inj h : EventType.value event.eventType = EventType.value type)
  · rintro rfl
    rfl

theorem activeReferencesTo_snoc (line : Json) (lines : List Json) :
    (activeReferencesTo (lines ++ [line]) conceptId).map scannedKey =
      ((activeReferencesTo lines conceptId).map scannedKey ++
        ((addedLine conceptId line).toList.map scannedKey).filter
          (unremoved (removedLocators lines))).filter (unremoved (removedLocators [line])) := by
  have hscan : ∀ lines, (activeReferencesTo lines conceptId).map scannedKey =
      ((lines.filterMap (addedLine conceptId)).map scannedKey).filter
        (unremoved (removedLocators lines)) := by
    intro lines
    rw [filter_map]
    rfl
  have hline : [line].filterMap (addedLine conceptId) = (addedLine conceptId line).toList := by
    cases hadded : addedLine conceptId line <;> simp [hadded]
  rw [hscan, hscan, filterMap_append, map_append, hline, ← filter_append,
    filter_filter]
  apply filter_congr
  intro key _
  have happend : removedLocators (lines ++ [line]) =
      removedLocators lines ++ removedLocators [line] := filterMap_append
  unfold unremoved
  rw [happend]
  cases key.1 with
  | str name => simp [Bool.and_comm]
  | _ => rfl

def holds (conceptId : String) (ref : AtReference) : Bool := ref.isActive && refersTo conceptId ref

def keeps (event : EventRecord) (ref : AtReference) : Bool :=
  !decide (event.eventType = .atReferenceRemoved ∧ removedReferenceId event = .str ref.referenceId)

theorem heldKey_touch (ref : AtReference) : heldKey (ref.touch event) = heldKey ref := by
  have hpolicy : (ref.touch event).onTargetSupersedePolicy = ref.onTargetSupersedePolicy := by
    unfold AtReference.touch AtReference.flag
    dsimp only
    split
    all_goals
      first
        | rfl
        | split_ifs <;> rfl
  unfold heldKey
  rw [referenceId_touch, hpolicy]

theorem holds_touch (h : AlignedAt conceptId front event) (href : ref ∈ atReferenceGraph front) :
    holds conceptId (ref.touch event) = (holds conceptId ref && keeps event ref) := by
  unfold AlignedAt at h
  unfold AtReference.touch holds keeps
  cases htype : event.eventType with
  | atReferenceRemoved =>
    dsimp only
    split_ifs with hid
    · simp [hid]
    · simp [Ne.symm hid]
  | atReferenceAutoUpdated =>
    dsimp only
    split_ifs <;> simp [AtReference.relock, refersTo]
  | atReferenceTargetSuperseded =>
    rw [htype] at h
    dsimp only at h ⊢
    split_ifs with hid
    · cases hactive : ref.isActive with
      | false => simp [AtReference.flag, hactive]
      | true =>
        rw [h ref href hid.symm hactive]
        simp [AtReference.flag, hactive]
    · simp
  | _ => simp

theorem removedLocators_lineOf : removedLocators [lineOf event] =
    if event.eventType = .atReferenceRemoved then
      (Json.lookup event.payload.afterState "at_reference").text?.toList
    else [] := by
  have hline : lineType (lineOf event) = .str "AtReferenceRemoved" ↔
      event.eventType = .atReferenceRemoved := lineType_lineOf .atReferenceRemoved
  have hafter : lineAfter (lineOf event) = event.payload.afterState := rfl
  unfold removedLocators
  rw [filterMap_cons, filterMap_nil, hafter]
  simp only [hline]
  split_ifs
  · cases (Json.lookup event.payload.afterState "at_reference").text? <;> rfl
  · rfl

theorem keeps_eq (h : AlignedAt conceptId front event)
    (href : ref ∈ heldReferences conceptId (atReferenceGraph front)) :
    keeps event ref = unremoved (removedLocators [lineOf event]) (heldKey ref) := by
  unfold AlignedAt at h
  unfold keeps unremoved heldKey
  rw [removedLocators_lineOf]
  by_cases htype : event.eventType = .atReferenceRemoved
  · rw [htype] at h
    have hnames := h ref href
    by_cases hid : removedReferenceId event = .str ref.referenceId
    · simp [htype, hid, hnames.mpr hid, Json.text?]
    · have hother : Json.lookup event.payload.afterState "at_reference" ≠ .str ref.referenceId :=
        fun heq => hid (hnames.mp heq)
      cases hname : Json.lookup event.payload.afterState "at_reference" with
      | str name =>
        have hne : ref.referenceId ≠ name := fun heq => hother (hname.trans (heq ▸ rfl))
        simp [hid, Json.text?, hne]
      | _ => simp [htype, hid, Json.text?]
  · simp [htype]

theorem refersTo_locatorReference (locator : String) :
    refersTo conceptId (locatorReference event locator) = resolvesToSuperseded
      (Json.lookup event.payload.afterState "target_concept_name") conceptId := by
  have hnone : resolvesToSuperseded (.str "") conceptId = resolvesToSuperseded .null conceptId := rfl
  unfold refersTo locatorReference
  dsimp only
  rw [Option.any_none, Bool.or_false, Projection.member, Json.lookup]
  cases Dict.get event.payload.afterState "target_concept_name" with
  | none => exact hnone
  | some value => rfl

/-- What an added event brings to the scan it brings to the graph. -/
theorem added_keys (h : AlignedAt conceptId front event) :
    (((addedLine conceptId (lineOf event)).toList.map scannedKey).filter
        (unremoved (removedLocators (front.map lineOf)))).filter
          (unremoved (removedLocators [lineOf event])) =
      ((newReference (atReferenceGraph front) event).toList.filter (holds conceptId)).map heldKey := by
  by_cases htype : event.eventType = .atReferenceAdded
  · have hline : lineType (lineOf event) = .str "AtReferenceAdded" :=
      (lineType_lineOf .atReferenceAdded).mpr htype
    unfold AlignedAt at h
    rw [htype] at h
    unfold newReference addedLine
    rw [if_pos htype, removedLocators_lineOf, htype, if_neg (by decide)]
    have hafter : lineAfter (lineOf event) = event.payload.afterState := rfl
    by_cases hnames : resolvesToSuperseded (Json.lookup event.payload.afterState "target_concept_name")
        conceptId = true ∨ (addedReference event).any (refersTo conceptId) = true
    · obtain ⟨locator, hlocator, hadded, hfresh, hunremoved⟩ := h hnames
      rw [hadded, Option.any_some, refersTo_locatorReference, or_self] at hnames
      have hrefers : holds conceptId (locatorReference event locator) = true := by
        unfold holds
        rw [refersTo_locatorReference, hnames]
        rfl
      have hid : (locatorReference event locator).referenceId = locator := rfl
      have hscanned : scannedKey (Dict.set event.payload.afterState "_event_id"
          (Json.lookup (lineOf event).asDict "event_id")) =
            heldKey (locatorReference event locator) := by
        unfold scannedKey heldKey Json.lookup
        rw [Dict.get_set_of_ne _ _ (by decide), Dict.get_set_of_ne _ _ (by decide)]
        exact Prod.ext hlocator rfl
      rw [hafter, if_pos ⟨hline, hnames⟩, hadded, Option.filter_some,
        if_pos (decide_eq_true (hid ▸ hfresh))]
      simp [hscanned, hrefers, unremoved, heldKey, hid, hunremoved]
    · obtain ⟨hscan, hrefers⟩ := not_or.mp hnames
      rw [hafter, if_neg fun hadded => hscan hadded.2]
      cases hadded : addedReference event with
      | none => rfl
      | some ref =>
        have hother : holds conceptId ref = false := by
          rw [hadded, Option.any_some] at hrefers
          simp [holds, hrefers]
        rw [Option.filter_some]
        split_ifs <;> simp [hother]
  · have hline : lineType (lineOf event) ≠ .str "AtReferenceAdded" :=
      fun heq => htype ((lineType_lineOf .atReferenceAdded).mp heq)
    simp [newReference, addedLine, htype, hline]

theorem keys_snoc (h : AlignedAt conceptId front event)
    (hkeys : (activeReferencesTo (front.map lineOf) conceptId).map scannedKey =
      (heldReferences conceptId (atReferenceGraph front)).map heldKey) :
    (activeReferencesTo ((front ++ [event]).map lineOf) conceptId).map scannedKey =
      (heldReferences conceptId (atReferenceGraph (front ++ [event]))).map heldKey := by
  have hgraph : atReferenceGraph (front ++ [event]) =
      (atReferenceGraph front).map (AtReference.touch event) ++
        (newReference (atReferenceGraph front) event).toList := by
    rw [atReferenceGraph, foldl_concat, reduceAtReferenceGraph_eq]
    rfl
  have hheld : (((atReferenceGraph front).map (AtReference.touch event)).filter
        (holds conceptId)).map heldKey =
      ((heldReferences conceptId (atReferenceGraph front)).map heldKey).filter
        (unremoved (removedLocators [lineOf event])) := by
    have hkey : heldKey ∘ AtReference.touch event = heldKey := funext heldKey_touch
    rw [filter_map, map_map, hkey, filter_map, heldReferences, filter_filter]
    congr 1
    apply filter_congr
    intro ref href
    rw [Function.comp_apply, holds_touch h href, Function.comp_apply]
    cases hholds : holds conceptId ref with
    | false => exact (Bool.and_eq_false_imp.mpr fun _ => hholds).symm
    | true =>
      rw [← keeps_eq h (mem_filter.mpr ⟨href, hholds⟩), Bool.true_and]
      exact (Bool.and_eq_left_iff_imp.mpr fun _ => hholds).symm
  rw [map_append, map_singleton, activeReferencesTo_snoc, filter_append, hkeys,
    added_keys h, ← hheld, hgraph, heldReferences, filter_append, map_append]
  rfl

/-- Every event of the log tells the scan and the graph the same about the concept. -/
def Aligned (conceptId : String) (records : List EventRecord) : Prop :=
  ∀ front event back, records = front ++ event :: back → AlignedAt conceptId front event

theorem Aligned.keys (h : Aligned conceptId records) :
    (activeReferencesTo (records.map lineOf) conceptId).map scannedKey =
      (heldReferences conceptId (atReferenceGraph records)).map heldKey := by
  induction records using List.reverseRecOn with
  | nil => rfl
  | append_singleton records event ih =>
    refine keys_snoc (h records event [] rfl) (ih fun front other back heq => ?_)
    exact h front other (back ++ [event]) (by rw [heq, append_assoc, cons_append])

/-- The response to a reference, by what the graph holds of it. -/
structure Answers (event : EventRecord) (ref : AtReference) : Prop where
  names : Json.lookup event.payload.afterState "reference_id" = .str ref.referenceId
  type : event.eventType =
    if policyOf ref.onTargetSupersedePolicy = .autoAcceptLatest then .atReferenceAutoUpdated
    else .atReferenceTargetSuperseded

variable {responses : List EventRecord} {refs : List AtReference}

theorem Answers.touch (h : Answers event ref) :
    (ref.touch event).isActive = ref.isActive ∧ ((ref.touch event).isStale = true ↔
      policyOf ref.onTargetSupersedePolicy ≠ .autoAcceptLatest) := by
  have htype := h.type
  unfold AtReference.touch
  split_ifs at htype with hauto
  · simp [htype, h.names, AtReference.relock, hauto]
  · simp [htype, h.names, AtReference.flag, hauto]

theorem Answers.touch_other {ref other : AtReference} (h : Answers event ref)
    (hne : other.referenceId ≠ ref.referenceId) : other.touch event = other := by
  have htype := h.type
  unfold AtReference.touch
  split_ifs at htype <;> simp [htype, h.names, hne]

section

variable (h : List.Forall₂ Answers responses refs)
include h

theorem touch_unanswered {ref : AtReference}
    (hnot : ref.referenceId ∉ refs.map AtReference.referenceId) :
    responses.foldl (fun ref event => ref.touch event) ref = ref := by
  induction h with
  | nil => rfl
  | cons hanswers _ ih =>
    rw [map_cons, mem_cons, not_or] at hnot
    rw [foldl_cons, hanswers.touch_other hnot.1, ih hnot.2]

theorem touch_answered (hnodup : (refs.map AtReference.referenceId).Nodup) {ref : AtReference}
    (href : ref ∈ refs) :
    let touched := responses.foldl (fun ref event => ref.touch event) ref
    touched.referenceId = ref.referenceId ∧ touched.isActive = ref.isActive ∧
      (touched.isStale = true ↔ policyOf ref.onTargetSupersedePolicy ≠ .autoAcceptLatest) := by
  induction h with
  | nil => cases href
  | @cons event first responses refs hanswers hrest ih =>
    rw [map_cons, nodup_cons] at hnodup
    rw [foldl_cons]
    rcases mem_cons.mp href with rfl | href
    · rw [touch_unanswered hrest (by rw [referenceId_touch]; exact hnodup.1)]
      exact ⟨referenceId_touch _ _, hanswers.touch⟩
    · rw [hanswers.touch_other fun heq => hnodup.1 (heq ▸ mem_map_of_mem href)]
      exact ih hnodup.2 href

theorem foldl_responses (graph : List AtReference) :
    responses.foldl reduceAtReferenceGraph graph =
      graph.map fun ref => responses.foldl (fun ref event => ref.touch event) ref := by
  induction h generalizing graph with
  | nil => simp
  | @cons event _ responses _ hanswers _ ih =>
    have hadded : newReference graph event = none := by
      have htype := hanswers.type
      unfold newReference
      split_ifs at htype <;> simp [htype]
    rw [foldl_cons, reduceAtReferenceGraph_eq, hadded, Option.toList_none, append_nil, ih,
      map_map]
    rfl

end

section

variable {newStateHash : Json} {supersedeEventId : String}

theorem answers_auxEvent (hkey : scannedKey reference = heldKey ref)
    (h : (event.eventType, event.payload.afterState) =
      auxEvent strOther newStateHash conceptId supersedeEventId reference) : Answers event ref := by
  obtain ⟨hname, hpolicy⟩ := Prod.mk.inj hkey
  have hid : Planning.str strOther ((Dict.get reference "at_reference").getD (.str "")) =
      ref.referenceId := by
    unfold Json.lookup at hname
    cases hget : Dict.get reference "at_reference" with
    | none =>
      rw [hget] at hname
      cases hname
    | some value =>
      rw [hget, Option.getD_some] at hname
      rw [hname]
      rfl
  unfold auxEvent at h
  rw [hid, hpolicy] at h
  cases hlocking : policyOf ref.onTargetSupersedePolicy with
  | autoAcceptLatest =>
    rw [hlocking] at h
    obtain ⟨htype, hafter⟩ := Prod.mk.inj h
    exact ⟨hafter ▸ rfl, by rw [htype, hlocking]; rfl⟩
  | _ =>
    rw [hlocking] at h
    obtain ⟨htype, hafter⟩ := Prod.mk.inj h
    exact ⟨hafter ▸ rfl, by rw [htype, hlocking]; rfl⟩

theorem answers_of_plan {scanned : List (Dict String Json)}
    (hkeys : scanned.map scannedKey = refs.map heldKey)
    (hplan : responses.map (fun event => (event.eventType, event.payload.afterState)) =
      scanned.map (auxEvent strOther newStateHash conceptId supersedeEventId)) :
    List.Forall₂ Answers responses refs := by
  induction scanned generalizing responses refs with
  | nil =>
    rw [map_eq_nil_iff.mp hplan, map_eq_nil_iff.mp hkeys.symm]
    exact .nil
  | cons reference scanned ih =>
    obtain ⟨event, responses, rfl, hevent, hplan⟩ := map_eq_cons_iff.mp hplan
    obtain ⟨ref, refs, rfl, href, hkeys⟩ := map_eq_cons_iff.mp hkeys.symm
    exact .cons (answers_auxEvent strOther href.symm hevent) (ih hkeys.symm hplan)

end

theorem mem_detectStaleReferences (hnodup : (refs.map AtReference.referenceId).Nodup)
    (href : ref ∈ refs) :
    ref.referenceId ∈ (detectStaleReferences refs).map StaleReference.referenceId ↔
      ref.isActive = true ∧ ref.isStale = true := by
  unfold detectStaleReferences
  rw [map_map, mem_map]
  constructor
  · rintro ⟨other, hother, hid⟩
    obtain ⟨hmem, hstale⟩ := mem_filter.mp hother
    cases inj_on_of_nodup_map hnodup hmem href hid
    simpa using hstale
  · intro hstale
    exact ⟨ref, mem_filter.mpr ⟨href, by simpa using hstale⟩, rfl⟩

theorem responses_reach_active {records : List EventRecord} (h : Aligned conceptId records) :
    (activeReferencesTo (records.map lineOf) conceptId).map (Json.lookup · "at_reference") =
        (heldReferences conceptId (atReferenceGraph records)).map (.str ·.referenceId) ∧
      ((activeReferencesTo (records.map lineOf) conceptId).map
        (Json.lookup · "at_reference")).Nodup ∧
      ∀ recordHashOf supersedeEventId, ∀ responses : List EventRecord,
        responses.map (fun event => (event.eventType, event.payload.afterState)) =
          planAuxEvents strOther recordHashOf (records.map lineOf) conceptId supersedeEventId →
        (∀ ref ∈ heldReferences conceptId (atReferenceGraph records),
          ref.referenceId ∈ (detectStaleReferences (atReferenceGraph (records ++ responses))).map
              StaleReference.referenceId ↔
            policyOf ref.onTargetSupersedePolicy ≠ .autoAcceptLatest) ∧
        ∀ ref ∈ atReferenceGraph records, ref ∉ heldReferences conceptId (atReferenceGraph records) →
          ref ∈ atReferenceGraph (records ++ responses) := by
  have hkeys := h.keys
  have hnames : (activeReferencesTo (records.map lineOf) conceptId).map
      (Json.lookup · "at_reference") =
        (heldReferences conceptId (atReferenceGraph records)).map (.str ·.referenceId) := by
    have hfirst := congrArg (List.map Prod.fst) hkeys
    rwa [map_map, map_map] at hfirst
  have hnodup := nodup_atReferenceGraph records
  have hheld : ((heldReferences conceptId (atReferenceGraph records)).map
      AtReference.referenceId).Nodup := hnodup.sublist (filter_sublist.map _)
  refine ⟨hnames, ?_, fun recordHashOf supersedeEventId responses hplan => ?_⟩
  · rw [hnames]
    have hstr := hheld.map (f := Json.str) fun _ _ => Json.str.inj
    rwa [map_map] at hstr
  · have hanswers := answers_of_plan strOther hkeys hplan
    have hgraph : atReferenceGraph (records ++ responses) = (atReferenceGraph records).map
        fun ref => responses.foldl (fun ref event => ref.touch event) ref := by
      rw [atReferenceGraph, foldl_append, foldl_responses hanswers]
      rfl
    constructor
    · intro ref href
      obtain ⟨hid, hactive, hstale⟩ := touch_answered hanswers hheld href
      obtain ⟨hmem, hholds⟩ := mem_filter.mp href
      have hafter := nodup_atReferenceGraph (records ++ responses)
      have hin : responses.foldl (fun ref event => ref.touch event) ref ∈
          atReferenceGraph (records ++ responses) := hgraph ▸ mem_map_of_mem hmem
      rw [← hid, mem_detectStaleReferences hafter hin, hactive, hstale]
      exact and_iff_right (Bool.and_eq_true_iff.mp hholds).1
    · intro ref href hnot
      rw [hgraph]
      refine mem_map.mpr ⟨ref, href, touch_unanswered hanswers fun hid => hnot ?_⟩
      obtain ⟨other, hother, hsame⟩ := mem_map.mp hid
      exact inj_on_of_nodup_map hnodup (mem_of_mem_filter hother) href hsame ▸ hother

def referenceEvent (number : Nat) (eventType : EventType) (after : Dict String Json) :
    Option EventRecord :=
  if h : (Json.obj [("after_state", .obj after)]).proper = true then
    some (stamp sampleEnv { sampleIntent with
      eventType, payload := ⟨[("after_state", .obj after)], h⟩ } (sampleDraw number).eventId
        sampleTime number none)
  else none

/-- A reference that accepts the latest version, and a third one that is removed. -/
def answeredLog : List EventRecord :=
  referringLog.records ++
    [referenceEvent 1 .atReferenceAdded [("at_reference", .str "@bills"),
        ("target_concept_name", .str "concept-users"),
        ("on_target_supersede_policy", .str "auto_accept_latest")],
      referenceEvent 2 .atReferenceAdded [("at_reference", .str "@carts"),
        ("target_concept_name", .str "concept-users")],
      referenceEvent 3 .atReferenceRemoved [("at_reference", .str "@carts"),
        ("reference_id", .str "@carts")]].reduceOption

def plannedResponses : List EventRecord :=
  (planAuxEvents (fun _ => "") (fun _ => .null) (answeredLog.map lineOf) "concept-users@v1"
    "evt-s").filterMap fun response => referenceEvent 4 response.1 response.2

theorem aligned_answeredLog : Aligned "concept-users@v1" answeredLog := by
  intro front event back heq
  rcases front with _ | ⟨_, _ | ⟨_, _ | ⟨_, _ | ⟨_, rest⟩⟩⟩⟩
  · cases heq
    exact fun _ => ⟨"@concept:concept-users@v1", rfl, rfl, by decide, by decide⟩
  · cases heq
    exact fun _ => ⟨"@bills", rfl, rfl, by decide, by decide⟩
  · cases heq
    exact fun _ => ⟨"@carts", rfl, rfl, by decide, by decide⟩
  · cases heq
    show ∀ ref ∈ _, _
    decide
  · cases rest <;> cases heq

theorem responses_reach_referring :
    (heldReferences "concept-users@v1" (atReferenceGraph answeredLog)).map AtReference.referenceId =
        ["@concept:concept-users@v1", "@bills"] ∧
      (activeReferencesTo (answeredLog.map lineOf) "concept-users@v1").map
          (Json.lookup · "at_reference") =
        (heldReferences "concept-users@v1" (atReferenceGraph answeredLog)).map
          (.str ·.referenceId) ∧
      ∀ ref ∈ heldReferences "concept-users@v1" (atReferenceGraph answeredLog),
        ref.referenceId ∈ (detectStaleReferences (atReferenceGraph
            (answeredLog ++ plannedResponses))).map StaleReference.referenceId ↔
          policyOf ref.onTargetSupersedePolicy ≠ .autoAcceptLatest := by
  have haligned := aligned_answeredLog
  obtain ⟨hnames, -, hanswered⟩ := responses_reach_active (fun _ => "") haligned
  exact ⟨by decide +kernel, hnames,
    (hanswered (fun _ => .null) "evt-s" plannedResponses (by decide +kernel)).1⟩

/-- Two concepts that use one locator. -/
def sharedLocator : List EventRecord :=
  referringLog.records ++ [stamp sampleEnv { sampleIntent with
    eventType := .atReferenceAdded
    payload := referencePayload "@concept:concept-users@v1" "concept-carts@v1" "concept-users" }
    (sampleDraw 1).eventId sampleTime 1 none]

theorem shared_locator_listed_twice :
    (activeReferencesTo (sharedLocator.map lineOf) "concept-users@v1").map
        (Json.lookup · "at_reference") ≠
      (heldReferences "concept-users@v1" (atReferenceGraph sharedLocator)).map
        (.str ·.referenceId) := by
  decide +kernel

end Flowness.CommitGate
