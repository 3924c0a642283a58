import Flowness.CommitGate.VerdictVeto
import Flowness.Ledger.Log
import Flowness.Library.Since
import Mathlib.Data.List.MinMax

/-!
The finding lifecycle projection, and the state of a finding that the verdict of a review is folded
from: two readings of the same events. The projection starts a finding anew when it is created
again, the fold only raises its severity.
-/

namespace Flowness.Projection

open Option List Library Schemas Ledger CommitGate

inductive FindingStage where
  | created | verified | disputed | resolved | accepted
deriving DecidableEq, Repr

/-- A key that a node does not have reads as `null`. -/
structure FindingNode where
  findingId : String
  lifecycleState : Option FindingStage := none
  severity : Json := .null
  riskSurface : Json := .null
  target : Json := .null
  reviewUnitId : Option String
  detectionMethod : Json := .null
  reviewDimension : Json := .null
  isPreexisting : Json := .null
  createdAtEventId : Option String := none
  lastStateChangeEventId : Option String := none
  relatedPatchEventId : Json := .null
  verificationState : Json := .null
  resolution : Json := .null
  closureState : Json := .null
  acceptedReason : Json := .null
  immutableBaseline : Json := .null
  acceptedSignature : Json := .null
  closureContractAmendedEventId : Option String := none
  closureContractAmendCount : Option Nat := none

def findingReviewUnit (event : EventRecord) : Option String :=
  let source := afterOrPayload event.payload
  match Json.nonBlank source "review_unit_id" with
  | some unit => some unit
  | none =>
    if Json.lookup (Json.lookup source "source").asDict "type" = .str "model_review" then
      event.provenance.sessionId.filter (· ≠ "")
    else none

def strayNode (event : EventRecord) (findingId : String) : FindingNode :=
  { findingId
    reviewUnitId := findingReviewUnit event
    createdAtEventId := some event.eventId.val }

def createNode (event : EventRecord) (findingId : String) (node : Option FindingNode) : FindingNode :=
  let source := afterOrPayload event.payload
  let known := node.getD { findingId, reviewUnitId := none }
  { known with
    findingId := findingId
    lifecycleState := some .created
    severity := Json.lookup source "severity"
    riskSurface := Json.lookup source "risk_surface"
    target := Json.lookup source "target"
    reviewUnitId := (findingReviewUnit event).or known.reviewUnitId
    detectionMethod := Json.lookup source "detection_method"
    reviewDimension := Json.lookup source "review_dimension"
    isPreexisting := Json.lookup source "is_preexisting"
    createdAtEventId := some event.eventId.val
    lastStateChangeEventId := some event.eventId.val
    relatedPatchEventId := Json.lookup source "related_patch_event_id"
    verificationState := .null
    resolution := .null
    closureState := .null }

def observeFinding (event : EventRecord) (findingId : String) (node : Option FindingNode) :
    FindingNode :=
  let source := afterOrPayload event.payload
  let known := node.getD (strayNode event findingId)
  match event.eventType with
  | .findingCreated => createNode event findingId node
  | .findingVerified =>
    { known with
      lifecycleState := some .verified
      verificationState := Json.lookup source "verification_state"
      lastStateChangeEventId := some event.eventId.val }
  | .findingDisputed =>
    { known with
      lifecycleState := some .disputed
      lastStateChangeEventId := some event.eventId.val }
  | .findingResolved =>
    { known with
      lifecycleState := some .resolved
      resolution := Json.lookup source "resolution"
      closureState :=
        match Json.lookup source "closure_verification" with
        | .obj closure => Json.lookup closure "closure_state"
        | _ => known.closureState
      lastStateChangeEventId := some event.eventId.val }
  | .findingAccepted =>
    { known with
      lifecycleState := some .accepted
      acceptedReason := Json.lookup source "accepted_reason"
      immutableBaseline := Json.lookup source "immutable_baseline"
      acceptedSignature := Json.lookup source "accepted_signature"
      lastStateChangeEventId := some event.eventId.val }
  | _ =>
    -- an amended closure contract is no change of state
    let known := node.getD { findingId, reviewUnitId := findingReviewUnit event }
    { known with
      closureContractAmendedEventId := some event.eventId.val
      closureContractAmendCount := some (known.closureContractAmendCount.getD 0 + 1) }

def findingLifecycleEvents : List EventType :=
  [.findingCreated, .findingVerified, .findingDisputed, .findingResolved, .findingAccepted,
    .findingClosureContractAmended]

def upsertFinding (findingId : String) (change : Option FindingNode → FindingNode) :
    List FindingNode → List FindingNode
  | [] => [change none]
  | node :: nodes =>
    if node.findingId = findingId then change (some node) :: nodes
    else node :: upsertFinding findingId change nodes

/-- `_reduce_finding_lifecycle` and its place in `_apply`. -/
def reduceFindingLifecycle (nodes : List FindingNode) (event : EventRecord) : List FindingNode :=
  if event.eventType ∈ findingLifecycleEvents then
    match Json.nonBlank (afterOrPayload event.payload) "finding_id" with
    | none => nodes
    | some findingId => upsertFinding findingId (observeFinding event findingId) nodes
  else nodes

def findingLifecycle (records : List EventRecord) : List FindingNode :=
  records.foldl reduceFindingLifecycle []

def findingNode (nodes : List FindingNode) (findingId : String) : Option FindingNode :=
  nodes.find? fun node => node.findingId = findingId

structure FindingMeaning where
  lifecycle : Option FindingStage := none
  verificationState : Json := .null
  severity : Json := .null

def projectedMeaning (records : List EventRecord) (findingId : String) : FindingMeaning :=
  match findingNode (findingLifecycle records) findingId with
  | none => {}
  | some node => { lifecycle := node.lifecycleState, verificationState := node.verificationState
                   severity := node.severity }

def findingEvent (record : EventRecord) : Option FindingEvent :=
  if record.eventType ∈ findingEventTypes then
    let source := afterOrPayload record.payload
    some
      { eventType := record.eventType
        findingId := Json.lookup source "finding_id"
        severity := Json.lookup source "severity"
        verificationState := Json.lookup source "verification_state"
        sequenceNumber := record.sequenceNumber }
  else none

def foldedStage : FindingLifecycle → FindingStage
  | .created => .created
  | .verified => .verified
  | .disputed => .disputed
  | .resolved => .resolved

def foldedMeaning (records : List EventRecord) (findingId : String) : FindingMeaning :=
  match Dict.get (foldStates (records.filterMap findingEvent)) findingId with
  | none => {}
  | some state => { lifecycle := some (foldedStage state.lifecycle)
                    verificationState := state.verificationState, severity := state.severity }

def About (eventType : EventType) (findingId : String) (record : EventRecord) : Prop :=
  record.eventType = eventType ∧
    Json.nonBlank (afterOrPayload record.payload) "finding_id" = some findingId

instance (eventType : EventType) (findingId : String) (record : EventRecord) :
    Decidable (About eventType findingId record) :=
  inferInstanceAs (Decidable (_ ∧ _))

def Accepted (findingId : String) (records : List EventRecord) : Prop :=
  ∃ record ∈ records, About .findingAccepted findingId record

instance (findingId : String) (records : List EventRecord) : Decidable (Accepted findingId records) :=
  inferInstanceAs (Decidable (∃ record ∈ records, _))

/-- The two readings agree on what was not accepted, and what was accepted stays so. -/
structure OneMeaning (records : List EventRecord) : Prop where
  agree : ∀ findingId, ¬Accepted findingId records →
    projectedMeaning records findingId = foldedMeaning records findingId
  stays : ∀ front rest findingId, records = front ++ rest → Accepted findingId front →
    (projectedMeaning front findingId).lifecycle = some .accepted

def Changes (findingId : String) (record : EventRecord) : Prop :=
  About .findingVerified findingId record ∨ About .findingDisputed findingId record ∨
    About .findingResolved findingId record

instance (findingId : String) (record : EventRecord) : Decidable (Changes findingId record) :=
  inferInstanceAs (Decidable (_ ∨ _ ∨ _))

def verificationStates (findingId : String) (records : List EventRecord) : List Json :=
  (records.filter (About .findingVerified findingId)).map fun record =>
    Json.lookup (afterOrPayload record.payload) "verification_state"

def createdSeverities (findingId : String) (records : List EventRecord) : List Json :=
  (records.filter (About .findingCreated findingId)).map fun record =>
    Json.lookup (afterOrPayload record.payload) "severity"

/-- A finding created again: its last creation is as severe as any, and comes before every other
event about it, or at least before its last verification with a state. -/
structure CreatedInOrder (findingId : String) (records : List EventRecord) : Prop where
  lifecycle : Since records (fun _ => About .findingCreated findingId) (Changes findingId) →
    ∀ record ∈ records, ¬Changes findingId record
  verification : Since records (fun _ => About .findingCreated findingId)
    (About .findingVerified findingId) → ∀ state ∈ (verificationStates findingId records).getLast?,
      state = .null
  severity : (createdSeverities findingId records).getLast?.getD .null =
    (((createdSeverities findingId records).filter (· ≠ .null)).argmax sevRank).getD .null

/-- No finding gets another event than its acceptance once it is accepted. -/
structure Orderly (records : List EventRecord) : Prop where
  created : ∀ findingId, ¬Accepted findingId records → CreatedInOrder findingId records
  accepted : ∀ front record rest findingId, records = front ++ record :: rest →
    Accepted findingId front → ¬(About .findingCreated findingId record ∨ Changes findingId record)

section

variable {records : List EventRecord} {record : EventRecord} {findingId : String}

theorem findingNode_upsertFinding (hnew : (change none).findingId = findingId)
    (hold : ∀ node, node.findingId = findingId → (change (some node)).findingId = findingId)
    (other : String) :
    findingNode (upsertFinding findingId change nodes) other =
      if other = findingId then some (change (findingNode nodes findingId))
      else findingNode nodes other := by
  unfold findingNode
  induction nodes with
  | nil =>
    rw [upsertFinding, List.find?_singleton, hnew]
    by_cases hother : other = findingId
    · simp [hother]
    · simp [hother, Ne.symm hother]
  | cons node nodes ih =>
    unfold upsertFinding
    by_cases hnode : node.findingId = findingId
    · have hchanged := hold node hnode
      rw [if_pos hnode, List.find?_cons, List.find?_cons, List.find?_cons, hchanged, hnode]
      by_cases hother : other = findingId
      · simp [hother]
      · simp [hother, Ne.symm hother]
    · rw [if_neg hnode, List.find?_cons, ih, List.find?_cons]
      by_cases hother : other = findingId
      · subst hother
        simp [hnode]
      · simp [hother, List.find?_cons]

def FindingMeaning.project (meaning : FindingMeaning) (record : EventRecord) : FindingMeaning :=
  let source := afterOrPayload record.payload
  match record.eventType with
  | .findingCreated =>
    { lifecycle := some .created, verificationState := .null
      severity := Json.lookup source "severity" }
  | .findingVerified =>
    { meaning with
      lifecycle := some .verified, verificationState := Json.lookup source "verification_state" }
  | .findingDisputed => { meaning with lifecycle := some .disputed }
  | .findingResolved => { meaning with lifecycle := some .resolved }
  | .findingAccepted => { meaning with lifecycle := some .accepted }
  | _ => meaning

def FindingNode.meaning (node : FindingNode) : FindingMeaning :=
  { lifecycle := node.lifecycleState, verificationState := node.verificationState
    severity := node.severity }

theorem projectedMeaning_eq (records : List EventRecord) (findingId : String) :
    projectedMeaning records findingId =
      ((findingNode (findingLifecycle records) findingId).map FindingNode.meaning).getD {} := by
  unfold projectedMeaning
  cases findingNode (findingLifecycle records) findingId with
  | none => rfl
  | some node => rfl

theorem findingId_observeFinding {node : Option FindingNode}
    (h : ∀ known ∈ node, known.findingId = findingId) :
    (observeFinding record findingId node).findingId = findingId := by
  have hknown : (node.getD (strayNode record findingId)).findingId = findingId := by
    cases node with
    | none => rfl
    | some known => exact h known rfl
  unfold observeFinding
  split
  · rfl
  · exact hknown
  · exact hknown
  · exact hknown
  · exact hknown
  · cases node with
    | none => rfl
    | some known => exact h known rfl

theorem meaning_observeFinding (node : Option FindingNode) :
    (observeFinding record findingId node).meaning =
      ((node.map FindingNode.meaning).getD {}).project record := by
  unfold observeFinding FindingMeaning.project
  cases node with
  | none => split <;> rfl
  | some known => split <;> rfl

theorem projectedMeaning_snoc (records : List EventRecord) (record : EventRecord) (findingId : String) :
    projectedMeaning (records ++ [record]) findingId =
      if Json.nonBlank (afterOrPayload record.payload) "finding_id" = some findingId then
        (projectedMeaning records findingId).project record
      else projectedMeaning records findingId := by
  rw [projectedMeaning_eq, projectedMeaning_eq, findingLifecycle, foldl_append, foldl_cons,
    foldl_nil, ← findingLifecycle]
  generalize findingLifecycle records = nodes
  unfold reduceFindingLifecycle
  by_cases hkind : record.eventType ∈ findingLifecycleEvents
  · rw [if_pos hkind]
    cases hnamed : Json.nonBlank (afterOrPayload record.payload) "finding_id" with
    | none => rfl
    | some other =>
      rw [findingNode_upsertFinding (findingId_observeFinding (by simp)) fun node hnode =>
        findingId_observeFinding (by simpa using hnode)]
      by_cases hother : findingId = other
      · subst hother
        rw [if_pos rfl, if_pos rfl, map_some, getD_some, meaning_observeFinding]
      · rw [if_neg hother, if_neg (fun heq => hother (some.inj heq).symm)]
  · rw [if_neg hkind]
    split
    · unfold FindingMeaning.project
      split
      all_goals first
        | rfl
        | (rename_i htype; rw [htype] at hkind; exact absurd (by decide) hkind)
    · rfl

def raisedSeverity (old new : Json) : Json :=
  if new ≠ .null ∧ (old = .null ∨ sevRank old < sevRank new) then new else old

def FindingMeaning.fold (meaning : FindingMeaning) (record : EventRecord) : FindingMeaning :=
  let source := afterOrPayload record.payload
  match record.eventType with
  | .findingCreated =>
    { meaning with
      lifecycle := meaning.lifecycle.or (some .created)
      severity := raisedSeverity meaning.severity (Json.lookup source "severity") }
  | .findingVerified =>
    { meaning with
      lifecycle := some .verified, verificationState := Json.lookup source "verification_state" }
  | .findingDisputed => { meaning with lifecycle := some .disputed }
  | .findingResolved => { meaning with lifecycle := some .resolved }
  | _ => meaning

def foldedStateMeaning (state : FindingState) : FindingMeaning :=
  { lifecycle := some (foldedStage state.lifecycle), verificationState := state.verificationState
    severity := state.severity }

theorem foldedMeaning_eq (records : List EventRecord) (findingId : String) :
    foldedMeaning records findingId =
      ((Dict.get (foldStates (records.filterMap findingEvent)) findingId).map
        foldedStateMeaning).getD {} := by
  unfold foldedMeaning
  cases Dict.get (foldStates (records.filterMap findingEvent)) findingId with
  | none => rfl
  | some state => rfl

theorem foldedMeaning_apply (hevent : findingEvent record = some event) :
    foldedStateMeaning (state.apply event) = (foldedStateMeaning state).fold record := by
  unfold findingEvent at hevent
  split at hevent
  · cases hevent
    unfold FindingState.apply FindingMeaning.fold
    dsimp only
    generalize record.eventType = kind
    split
    · split
      next hraises =>
        have hseverity : raisedSeverity state.severity
            (Json.lookup (afterOrPayload record.payload) "severity") =
              Json.lookup (afterOrPayload record.payload) "severity" := if_pos hraises
        simp [foldedStateMeaning, hseverity]
      next hkeeps =>
        have hseverity : raisedSeverity state.severity
            (Json.lookup (afterOrPayload record.payload) "severity") = state.severity := if_neg hkeeps
        simp [foldedStateMeaning, hseverity]
    · rfl
    · rfl
    · rfl
    · simp
  · cases hevent

theorem foldedMeaning_first (hevent : findingEvent record = some event) :
    foldedStateMeaning (({} : FindingState).apply event) = ({} : FindingMeaning).fold record := by
  unfold findingEvent at hevent
  split at hevent
  next hkind =>
    cases hevent
    unfold FindingState.apply FindingMeaning.fold
    dsimp only
    generalize record.eventType = kind at hkind
    split
    · by_cases hnull : Json.lookup (afterOrPayload record.payload) "severity" = .null
      · simp [foldedStateMeaning, raisedSeverity, hnull, foldedStage]
      · simp [foldedStateMeaning, raisedSeverity, hnull, foldedStage]
    · rfl
    · rfl
    · rfl
    · simp only [findingEventTypes, mem_cons, not_mem_nil, or_false] at hkind
      tauto
  · cases hevent

theorem foldedMeaning_snoc (records : List EventRecord) (record : EventRecord) (findingId : String) :
    foldedMeaning (records ++ [record]) findingId =
      if Json.nonBlank (afterOrPayload record.payload) "finding_id" = some findingId then
        (foldedMeaning records findingId).fold record
      else foldedMeaning records findingId := by
  rw [foldedMeaning_eq, foldedMeaning_eq, filterMap_append]
  cases hevent : findingEvent record with
  | none =>
    rw [filterMap_cons_none hevent, filterMap_nil, append_nil]
    split
    · unfold FindingMeaning.fold
      unfold findingEvent at hevent
      split at hevent
      · cases hevent
      next hkind =>
        split
        all_goals first
          | rfl
          | (rename_i htype; rw [htype] at hkind; exact absurd (by decide) hkind)
    · rfl
  | some event =>
    have hnames : event.names findingId ↔
        Json.nonBlank (afterOrPayload record.payload) "finding_id" = some findingId := by
      unfold findingEvent at hevent
      split at hevent
      · cases hevent
        rfl
      · cases hevent
    rw [filterMap_cons_some hevent, filterMap_nil, foldStates_append, foldl_cons,
      foldl_nil]
    split
    next hnamed =>
      rw [get_applyEvent_of_names (hnames.mpr hnamed)]
      cases Dict.get (foldStates (records.filterMap findingEvent)) findingId with
      | none => exact foldedMeaning_first hevent
      | some state => exact foldedMeaning_apply hevent
    next hnamed =>
      rw [get_applyEvent_of_not_names (fun h => hnamed (hnames.mp h))]

def lastChange (findingId : String) (records : List EventRecord) : Option FindingStage :=
  ((records.filter (Changes findingId)).getLast?).map fun record =>
    if record.eventType = .findingVerified then .verified
    else if record.eventType = .findingDisputed then .disputed else .resolved

section

variable (findingId : String) (records : List EventRecord)

theorem lastChange_snoc (record : EventRecord) : lastChange findingId (records ++ [record]) =
      if Changes findingId record then
        some (if record.eventType = .findingVerified then .verified
          else if record.eventType = .findingDisputed then .disputed else .resolved)
      else lastChange findingId records := by
  unfold lastChange
  rw [filter_append]
  by_cases h : Changes findingId record
  · rw [if_pos h, filter_cons_of_pos (by simpa using h)]
    simp
  · rw [if_neg h, filter_cons_of_neg (by simpa using h)]
    simp

private theorem map_filter_snoc (p : EventRecord → Prop) [DecidablePred p] (f : EventRecord → Json)
    (record : EventRecord) : ((records ++ [record]).filter p).map f =
      (records.filter p).map f ++ if p record then [f record] else [] := by
  by_cases h : p record <;> simp [h]

theorem verificationStates_snoc (record : EventRecord) :
    verificationStates findingId (records ++ [record]) = verificationStates findingId records ++
      if About .findingVerified findingId record then
        [Json.lookup (afterOrPayload record.payload) "verification_state"] else [] :=
  map_filter_snoc records _ _ record

theorem createdSeverities_snoc (record : EventRecord) :
    createdSeverities findingId (records ++ [record]) = createdSeverities findingId records ++
      if About .findingCreated findingId record then
        [Json.lookup (afterOrPayload record.payload) "severity"] else [] :=
  map_filter_snoc records _ _ record

theorem projected_severity : (projectedMeaning records findingId).severity =
      (createdSeverities findingId records).getLast?.getD .null := by
  induction records using List.reverseRecOn with
  | nil => rfl
  | append_singleton records record ih =>
    rw [projectedMeaning_snoc, createdSeverities_snoc]
    by_cases hnamed : Json.nonBlank (afterOrPayload record.payload) "finding_id" = some findingId
    · rw [if_pos hnamed]
      by_cases hcreated : record.eventType = .findingCreated
      · rw [if_pos ⟨hcreated, hnamed⟩, FindingMeaning.project, hcreated]
        simp
      · rw [if_neg fun h => hcreated h.1, append_nil, ← ih]
        unfold FindingMeaning.project
        split
        · exact absurd ‹_› hcreated
        all_goals rfl
    · rw [if_neg hnamed, if_neg fun h => hnamed h.2, append_nil, ih]

end

theorem raisedSeverity_argmax (severities : List Json) (new : Json) :
    raisedSeverity (((severities.filter (· ≠ .null)).argmax sevRank).getD .null) new =
      (((severities ++ [new]).filter (· ≠ .null)).argmax sevRank).getD .null := by
  unfold raisedSeverity
  by_cases hnull : new = .null
  · simp [hnull]
  · rw [filter_append, filter_cons_of_pos (by simpa using hnull), filter_nil,
      argmax_concat]
    cases hmax : (severities.filter (· ≠ .null)).argmax sevRank with
    | none => simp [hnull]
    | some most =>
      have hmost : most ≠ .null := by simpa using (mem_filter.mp (argmax_mem hmax)).2
      simp only [getD_some, hmost, false_or, hnull, ne_eq, not_false_eq_true, true_and]
      split
      · rfl
      · rfl

section

variable (findingId : String) (records : List EventRecord)

theorem folded_severity : (foldedMeaning records findingId).severity =
      (((createdSeverities findingId records).filter (· ≠ .null)).argmax sevRank).getD .null := by
  induction records using List.reverseRecOn with
  | nil => rfl
  | append_singleton records record ih =>
    rw [foldedMeaning_snoc, createdSeverities_snoc]
    by_cases hnamed : Json.nonBlank (afterOrPayload record.payload) "finding_id" = some findingId
    · rw [if_pos hnamed]
      by_cases hcreated : record.eventType = .findingCreated
      · rw [if_pos ⟨hcreated, hnamed⟩, ← raisedSeverity_argmax, ← ih, FindingMeaning.fold, hcreated]
      · rw [if_neg fun h => hcreated h.1, append_nil, ← ih]
        unfold FindingMeaning.fold
        split
        · exact absurd ‹_› hcreated
        all_goals rfl
    · rw [if_neg hnamed, if_neg fun h => hnamed h.2, append_nil, ih]

theorem folded_verificationState : (foldedMeaning records findingId).verificationState =
      (verificationStates findingId records).getLast?.getD .null := by
  induction records using List.reverseRecOn with
  | nil => rfl
  | append_singleton records record ih =>
    rw [foldedMeaning_snoc, verificationStates_snoc]
    by_cases hnamed : Json.nonBlank (afterOrPayload record.payload) "finding_id" = some findingId
    · rw [if_pos hnamed]
      by_cases hverified : record.eventType = .findingVerified
      · rw [if_pos ⟨hverified, hnamed⟩, FindingMeaning.fold, hverified]
        simp
      · rw [if_neg fun h => hverified h.1, append_nil, ← ih]
        unfold FindingMeaning.fold
        split
        · rfl
        · exact absurd ‹_› hverified
        all_goals rfl
    · rw [if_neg hnamed, if_neg fun h => hnamed h.2, append_nil, ih]

theorem projected_verificationState :
    (Since records (fun _ => About .findingCreated findingId) (About .findingVerified findingId) →
      (projectedMeaning records findingId).verificationState = .null) ∧
    (¬Since records (fun _ => About .findingCreated findingId) (About .findingVerified findingId) →
      (projectedMeaning records findingId).verificationState =
        (verificationStates findingId records).getLast?.getD .null) := by
  induction records using List.reverseRecOn with
  | nil => exact ⟨fun h => absurd h since_nil, fun _ => rfl⟩
  | append_singleton records record ih =>
    rw [projectedMeaning_snoc, verificationStates_snoc, since_snoc]
    by_cases hnamed : Json.nonBlank (afterOrPayload record.payload) "finding_id" = some findingId
    · rw [if_pos hnamed]
      by_cases hcreated : record.eventType = .findingCreated
      · have habout : About .findingCreated findingId record := ⟨hcreated, hnamed⟩
        rw [FindingMeaning.project, hcreated]
        exact ⟨fun _ => rfl, fun h => absurd (.inr habout) h⟩
      · have hnot : ¬About .findingCreated findingId record := fun h => hcreated h.1
        by_cases hverified : record.eventType = .findingVerified
        · have habout : About .findingVerified findingId record := ⟨hverified, hnamed⟩
          rw [FindingMeaning.project, hverified, if_pos habout]
          refine ⟨fun h => absurd habout ?_, fun _ => by simp⟩
          exact (h.resolve_right hnot).2
        · have hsame : ((projectedMeaning records findingId).project record).verificationState =
              (projectedMeaning records findingId).verificationState := by
            unfold FindingMeaning.project
            split
            · exact absurd ‹_› hcreated
            · exact absurd ‹_› hverified
            all_goals rfl
          have hnotVerified : ¬About .findingVerified findingId record := fun h => hverified h.1
          rw [if_neg hnotVerified, append_nil, hsame]
          simpa [hnot, hnotVerified] using ih
    · have hnot : ∀ eventType, ¬About eventType findingId record := fun _ h => hnamed h.2
      rw [if_neg hnamed, if_neg (hnot _), append_nil]
      simpa [hnot] using ih

theorem folded_lifecycle :
    (foldedMeaning records findingId).lifecycle = (lastChange findingId records).or
      (if createdSeverities findingId records = [] then none else some .created) := by
  induction records using List.reverseRecOn with
  | nil => rfl
  | append_singleton records record ih =>
    rw [foldedMeaning_snoc, lastChange_snoc, createdSeverities_snoc]
    by_cases hnamed : Json.nonBlank (afterOrPayload record.payload) "finding_id" = some findingId
    · rw [if_pos hnamed, FindingMeaning.fold]
      split
      next hkind =>
        have hchanges : ¬Changes findingId record := by simp [Changes, About, hkind]
        have habout : About .findingCreated findingId record := ⟨hkind, hnamed⟩
        rw [if_neg hchanges, ih]
        cases lastChange findingId records with
        | none =>
          by_cases hnone : createdSeverities findingId records = []
          · simp [hnone, habout]
          · simp [hnone]
        | some stage => rfl
      next hkind =>
        simp [Changes, About, hkind, hnamed]
      next hkind =>
        simp [Changes, About, hkind, hnamed]
      next hkind =>
        simp [Changes, About, hkind, hnamed]
      next hcreated hverified hdisputed hresolved =>
        have hchanges : ¬Changes findingId record := by
          rintro (h | h | h)
          · exact hverified h.1
          · exact hdisputed h.1
          · exact hresolved h.1
        have hnot : ¬About .findingCreated findingId record := fun h => hcreated h.1
        simp only [if_neg hchanges, if_neg hnot, append_nil, ih]
    · have hnot : ∀ eventType, ¬About eventType findingId record := fun _ h => hnamed h.2
      have hchanges : ¬Changes findingId record := by simp [Changes, hnot]
      simp only [if_neg hnamed, if_neg hchanges, if_neg (hnot _), append_nil, ih]

end

theorem projected_lifecycle {findingId : String} (records : List EventRecord)
    (haccepted : ¬Accepted findingId records) :
    (Since records (fun _ => About .findingCreated findingId) (Changes findingId) →
      (projectedMeaning records findingId).lifecycle = some .created) ∧
    (¬Since records (fun _ => About .findingCreated findingId) (Changes findingId) →
      (projectedMeaning records findingId).lifecycle = lastChange findingId records) := by
  induction records using List.reverseRecOn with
  | nil => exact ⟨fun h => absurd h since_nil, fun _ => rfl⟩
  | append_singleton records record ih =>
    have hbefore : ¬Accepted findingId records := by
      rintro ⟨other, hother, habout⟩
      exact haccepted ⟨other, mem_append_left _ hother, habout⟩
    have hlast : ¬About .findingAccepted findingId record := by
      intro habout
      exact haccepted ⟨record, by simp, habout⟩
    rw [projectedMeaning_snoc, lastChange_snoc, since_snoc]
    by_cases hnamed : Json.nonBlank (afterOrPayload record.payload) "finding_id" = some findingId
    · rw [if_pos hnamed, FindingMeaning.project]
      split
      next hkind =>
        have habout : About .findingCreated findingId record := ⟨hkind, hnamed⟩
        exact ⟨fun _ => rfl, fun h => absurd (.inr habout) h⟩
      next hkind =>
        simp [Changes, About, hkind, hnamed]
      next hkind =>
        simp [Changes, About, hkind, hnamed]
      next hkind =>
        simp [Changes, About, hkind, hnamed]
      next hkind =>
        exact absurd ⟨hkind, hnamed⟩ hlast
      next hcreated hverified hdisputed hresolved _ =>
        have hchanges : ¬Changes findingId record := by
          rintro (h | h | h)
          · exact hverified h.1
          · exact hdisputed h.1
          · exact hresolved h.1
        have hnot : ¬About .findingCreated findingId record := fun h => hcreated h.1
        simpa [hchanges, hnot] using ih hbefore
    · have hnot : ∀ eventType, ¬About eventType findingId record := fun _ h => hnamed h.2
      have hchanges : ¬Changes findingId record := by simp [Changes, hnot]
      rw [if_neg hnamed]
      simpa [hchanges, hnot] using ih hbefore

theorem lastChange_eq_none (findingId : String) (records : List EventRecord) :
    lastChange findingId records = none ↔ ∀ record ∈ records, ¬Changes findingId record := by
  unfold lastChange
  simp

theorem lastChange_ne_created (findingId : String) (records : List EventRecord) :
    lastChange findingId records ≠ some .created := by
  intro h
  obtain ⟨record, -, hstage⟩ := map_eq_some_iff.mp h
  split_ifs at hstage

theorem createdSeverities_ne_nil {findingId : String} {records : List EventRecord}
    (hrecord : record ∈ records) (hcreated : About .findingCreated findingId record) :
    createdSeverities findingId records ≠ [] := by
  unfold createdSeverities
  intro hnil
  have hmem : record ∈ records.filter (About .findingCreated findingId) :=
    mem_filter.mpr ⟨hrecord, by simpa using hcreated⟩
  rw [map_eq_nil_iff] at hnil
  rw [hnil] at hmem
  cases hmem

theorem lifecycle_agrees_iff (haccepted : ¬Accepted findingId records) :
    (projectedMeaning records findingId).lifecycle = (foldedMeaning records findingId).lifecycle ↔
      (Since records (fun _ => About .findingCreated findingId) (Changes findingId) →
        ∀ record ∈ records, ¬Changes findingId record) := by
  rw [folded_lifecycle, ← lastChange_eq_none]
  obtain ⟨hlast, hnot⟩ := projected_lifecycle records haccepted
  by_cases hsince : Since records (fun _ => About .findingCreated findingId) (Changes findingId)
  · obtain ⟨before, record, after, hsplit, hcreated, -⟩ := id hsince
    have hsome : createdSeverities findingId records ≠ [] :=
      createdSeverities_ne_nil (by simp [hsplit]) hcreated
    rw [hlast hsince, if_neg hsome]
    cases hchange : lastChange findingId records with
    | none => simp
    | some stage =>
      have hstage := lastChange_ne_created findingId records
      rw [hchange] at hstage
      simp [hsince, Ne.symm (fun h => hstage (congrArg some h) : stage ≠ .created)]
  · rw [hnot hsince]
    refine iff_of_true ?_ fun h => absurd h hsince
    cases hchange : lastChange findingId records with
    | some stage => rfl
    | none =>
      -- a finding that nothing changed was never created: else its creation came last
      have hnone : createdSeverities findingId records = [] := by
        by_contra hne
        obtain ⟨severity, hseverity⟩ := exists_mem_of_ne_nil _ hne
        obtain ⟨record, hrecord, -⟩ := mem_map.mp hseverity
        obtain ⟨hmem, habout⟩ := mem_filter.mp hrecord
        obtain ⟨before, after, hsplit⟩ := append_of_mem hmem
        apply hsince
        refine ⟨before, record, after, hsplit, by simpa using habout, fun later hlater => ?_⟩
        exact (lastChange_eq_none findingId records).mp hchange later (by simp [hsplit, hlater])
      rw [if_pos hnone]
      rfl

theorem verificationState_agrees_iff (findingId : String) (records : List EventRecord) :
    (projectedMeaning records findingId).verificationState =
        (foldedMeaning records findingId).verificationState ↔
      (Since records (fun _ => About .findingCreated findingId) (About .findingVerified findingId) →
        ∀ state ∈ (verificationStates findingId records).getLast?, state = .null) := by
  rw [folded_verificationState]
  obtain ⟨hlast, hnot⟩ := projected_verificationState findingId records
  by_cases hsince :
      Since records (fun _ => About .findingCreated findingId) (About .findingVerified findingId)
  · rw [hlast hsince]
    cases (verificationStates findingId records).getLast? with
    | none => simp
    | some state => simp [hsince, eq_comm]
  · rw [hnot hsince]
    exact iff_of_true rfl fun h => absurd h hsince

theorem meaning_agrees_iff (haccepted : ¬Accepted findingId records) :
    projectedMeaning records findingId = foldedMeaning records findingId ↔
      CreatedInOrder findingId records := by
  have hlifecycle := lifecycle_agrees_iff haccepted
  have hverification := verificationState_agrees_iff findingId records
  have hseverity := projected_severity findingId records
  have hfolded := folded_severity findingId records
  constructor
  · intro h
    rw [h] at hlifecycle hverification hseverity
    exact ⟨hlifecycle.mp rfl, hverification.mp rfl, hseverity.symm.trans hfolded⟩
  · intro h
    have hlife := hlifecycle.mpr h.lifecycle
    have hstate := hverification.mpr h.verification
    have hsame := hseverity.trans (h.severity.trans hfolded.symm)
    cases hprojected : projectedMeaning records findingId
    cases hfold : foldedMeaning records findingId
    rw [hprojected, hfold] at hlife hstate hsame
    dsimp only at hlife hstate hsame
    rw [hlife, hstate, hsame]

theorem accepted_snoc (findingId : String) (records : List EventRecord) (record : EventRecord)
    (h : (projectedMeaning records findingId).lifecycle = some .accepted) :
    (projectedMeaning (records ++ [record]) findingId).lifecycle = some .accepted ↔
      ¬(About .findingCreated findingId record ∨ Changes findingId record) := by
  rw [projectedMeaning_snoc]
  by_cases hnamed : Json.nonBlank (afterOrPayload record.payload) "finding_id" = some findingId
  · rw [if_pos hnamed, FindingMeaning.project]
    split
    next hkind =>
      simp [About, hkind, hnamed]
    next hkind =>
      simp [Changes, About, hkind, hnamed]
    next hkind =>
      simp [Changes, About, hkind, hnamed]
    next hkind =>
      simp [Changes, About, hkind, hnamed]
    next hkind =>
      simp [Changes, About, hkind]
    next hcreated hverified hdisputed hresolved _ =>
      refine iff_of_true h ?_
      rintro (h | h | h | h)
      · exact hcreated h.1
      · exact hverified h.1
      · exact hdisputed h.1
      · exact hresolved h.1
  · have hnot : ∀ eventType, ¬About eventType findingId record := fun _ h => hnamed h.2
    rw [if_neg hnamed]
    exact iff_of_true h (by simp [Changes, hnot])

end

theorem oneMeaning_iff (records : List EventRecord) : OneMeaning records ↔ Orderly records := by
  constructor
  · intro h
    refine ⟨fun findingId haccepted => ?_, ?_⟩
    · exact (meaning_agrees_iff haccepted).mp (h.agree findingId haccepted)
    · intro front record rest findingId hsplit haccepted
      have hbefore := h.stays front (record :: rest) findingId hsplit haccepted
      have hafter := h.stays (front ++ [record]) rest findingId (by simp [hsplit]) (by
        obtain ⟨other, hother, habout⟩ := haccepted
        exact ⟨other, mem_append_left _ hother, habout⟩)
      exact (accepted_snoc findingId front record hbefore).mp hafter
  · intro h
    refine ⟨fun findingId haccepted => ?_, ?_⟩
    · exact (meaning_agrees_iff haccepted).mpr (h.created findingId haccepted)
    · intro front rest findingId hsplit haccepted
      induction front using List.reverseRecOn generalizing rest with
      | nil =>
        obtain ⟨record, hrecord, -⟩ := haccepted
        cases hrecord
      | append_singleton front record ih =>
        have hsplit' : records = front ++ record :: rest := by simp [hsplit]
        by_cases hfront : Accepted findingId front
        · exact (accepted_snoc findingId front record (ih (record :: rest) hsplit' hfront)).mpr
            (h.accepted front record rest findingId hsplit' hfront)
        · -- the acceptance itself
          obtain ⟨other, hother, habout⟩ := haccepted
          rcases mem_append.mp hother with hother | hother
          · exact absurd ⟨other, hother, habout⟩ hfront
          · rw [mem_singleton.mp hother] at habout
            rw [projectedMeaning_snoc, if_pos habout.2, FindingMeaning.project, habout.1]

def createdAgain : List EventRecord :=
  [{ sampleRecord with
      eventType := .findingCreated
      payload := ⟨[("finding_id", .str "f-1"), ("severity", .str "major")], rfl⟩ },
    { sampleRecord with
      eventType := .findingVerified, sequenceNumber := 1
      payload := ⟨[("finding_id", .str "f-1"), ("verification_state", .str "verified")], rfl⟩ },
    { sampleRecord with
      eventType := .findingCreated, sequenceNumber := 2
      payload := ⟨[("finding_id", .str "f-1"), ("severity", .str "minor")], rfl⟩ }]

theorem created_again_reads_differently :
    projectedMeaning createdAgain "f-1" =
        { lifecycle := some .created, verificationState := .null, severity := .str "minor" } ∧
      foldedMeaning createdAgain "f-1" =
        { lifecycle := some .verified, verificationState := .str "verified"
          severity := .str "major" } ∧
      ¬OneMeaning createdAgain := by
  have hprojected : projectedMeaning createdAgain "f-1" =
      { lifecycle := some .created, verificationState := .null, severity := .str "minor" } := by
    rfl
  have hfolded : foldedMeaning createdAgain "f-1" =
      { lifecycle := some .verified, verificationState := .str "verified"
        severity := .str "major" } := by
    rfl
  refine ⟨hprojected, hfolded, fun h => ?_⟩
  have hagree := h.agree "f-1" (by decide)
  cases hagree

end Flowness.Projection
