import Flowness.CommitGate.Effects

/-!
Where concept edges point. The check reads native edges with both ends in `after_state`; of those
every accepted batch leaves a target behind that is a node of the concept graph or an anchor.
-/

namespace Flowness.CommitGate

open List Library Schemas Ledger Projection

def edgeTarget (eventType : EventType) (payload : Payload) : Option Json :=
  let (kind, entries) := effKindPayload eventType payload
  if kind = "ConceptEdgeAdded" then
    let after := (Json.lookup entries "after_state").asDict
    some (Json.lookup (if after ≠ [] then after else entries) "target_concept_id")
  else none

/-- The target is a node of the graph, active or retired, or an external anchor. -/
def PointsSomewhere (graph : ConceptGraph) (target : Json) : Prop :=
  ∃ conceptId, target = .str conceptId ∧
    (conceptId ∈ graph.conceptIds ∨ isExternalAnchor conceptId = true)

/-- `front` is the log up to the sentinel of the record's batch. -/
structure ThroughBatch (records : List EventRecord) (record : EventRecord)
    (front : List EventRecord) : Prop where
  earlier : front <+: records
  contains : record ∈ front
  closed : ∃ last, front.getLast? = some last ∧ last.isSentinel = true ∧
    last.batchId = record.batchId

/-- Every edge points somewhere in the graph at the end of its batch. -/
def EdgesPoint (log : CommittedLog) : Prop :=
  ∀ record ∈ log.records, ∀ target, edgeTarget record.eventType record.payload = some target →
    ∃ front, ThroughBatch log.records record front ∧ PointsSomewhere (conceptGraph front) target

def ReadsEdges (attempt : Attempt) : Prop :=
  ∀ intent ∈ attempt.intents, (edgeTarget intent.eventType intent.payload).isSome = true →
    (edgeEnds intent.eventType intent.payload).isSome = true

section

variable {left right : Payload} (h : SameMembers left right)
include h

theorem SameMembers.lookup_conceptSource (hsibling : key ≠ "sibling_event_id")
    (henvelope : key ≠ "envelope_event_id") (hafter : key ≠ "after_state") :
    Json.lookup (conceptSource left) key = Json.lookup (conceptSource right) key := by
  unfold conceptSource
  by_cases hempty : left.afterState = []
  · rw [if_neg (by simpa using hempty), if_neg (by simpa using h.empty.mp hempty), Json.lookup,
      h.top key hafter, Json.lookup]
  · rw [if_pos hempty, if_pos (fun hright => hempty (h.empty.mpr hright))]
    exact h.lookup_after hsibling henvelope

theorem SameMembers.newConceptId (eventType : EventType) :
    newConceptId eventType left = newConceptId eventType right := by
  unfold CommitGate.newConceptId Json.nonBlank
  rw [h.lookup_conceptSource (by decide) (by decide) (by decide)]

theorem SameMembers.edgeTarget (eventType : EventType) :
    edgeTarget eventType left = edgeTarget eventType right := by
  have hnative : ∀ payload : Payload,
      Json.lookup (if (Json.lookup payload.entries "after_state").asDict ≠ [] then
        (Json.lookup payload.entries "after_state").asDict else payload.entries)
          "target_concept_id" = Json.lookup (conceptSource payload) "target_concept_id" :=
    fun _ => rfl
  have hstub : effKindPayload eventType left = effKindPayload eventType right ∨
      (effKindPayload eventType left = (EventType.value eventType, left.entries) ∧
        effKindPayload eventType right = (EventType.value eventType, right.entries)) := by
    unfold effKindPayload
    have hkind : left.getD "kind" .null = right.getD "kind" .null := h.getD (by decide) _
    have horiginal : left.getD "stub_original_payload" .null =
        right.getD "stub_original_payload" .null := h.getD (by decide) _
    rw [hkind, horiginal]
    split
    · exact .inl rfl
    · exact .inr ⟨rfl, rfl⟩
  unfold CommitGate.edgeTarget
  rcases hstub with heq | ⟨hleft, hright⟩
  · rw [heq]
  · simp only [hleft, hright, hnative]
    rw [h.lookup_conceptSource (by decide) (by decide) (by decide)]

end

theorem eventType_of_edgeTarget (h : edgeTarget eventType payload = some target) :
    eventType = .nodeTouched ∨ eventType = .conceptEdgeAdded := by
  by_contra hplain
  obtain ⟨hstub, hedge⟩ := not_or.mp hplain
  have hkind : EventType.value eventType ≠ "ConceptEdgeAdded" := by
    intro hvalue
    exact hedge (StrEnum.value_inj (a := eventType) (b := .conceptEdgeAdded) hvalue)
  simp only [edgeTarget, effKindPayload_of_ne hstub, if_neg hkind] at h
  cases h

theorem edgeTarget_of_edgeEnds (h : edgeEnds eventType payload = some edge) :
    edgeTarget eventType payload = some (.str edge.target) := by
  unfold edgeEnds at h
  split at h
  next htype =>
    subst htype
    obtain ⟨source, hsource, h⟩ := Option.bind_eq_some_iff.mp h
    obtain ⟨target, htarget, h⟩ := Option.bind_eq_some_iff.mp h
    cases h
    have hafter : payload.afterState ≠ [] := by
      intro hempty
      rw [hempty] at hsource
      cases hsource
    have hnested : (Json.lookup payload.entries "after_state").asDict = payload.afterState := rfl
    have hkind : EventType.value .conceptEdgeAdded = "ConceptEdgeAdded" := rfl
    simp only [edgeTarget, effKindPayload_of_ne (by decide : EventType.conceptEdgeAdded ≠ _), hkind,
      if_true, hnested, if_pos hafter]
    rw [Json.lookup_of_nonBlank htarget]
  · cases h

theorem newConceptId_eq_createdConcept
    (h : newConceptId record.eventType record.payload = some conceptId) :
    createdConcept record = some conceptId := by
  unfold newConceptId at h
  unfold createdConcept
  split at h
  next htype =>
    rw [if_pos htype]
    exact (Option.filter_eq_some_iff.mp h).1
  · cases h

theorem pointsSomewhere_of_created (hrecord : record ∈ records)
    (h : newConceptId record.eventType record.payload = some conceptId) :
    PointsSomewhere (conceptGraph records) (.str conceptId) :=
  ⟨conceptId, rfl, .inl ((mem_conceptIds_conceptGraph records conceptId).mpr
    ⟨record, hrecord, newConceptId_eq_createdConcept h⟩)⟩

section

variable {env : GateEnv} {log next : CommittedLog} {attempt : Attempt} {conclusion : Conclusion}
  {written triggered : CommittedLog}

theorem ThroughBatch.extended (h : ThroughBatch records record front) :
    ThroughBatch (records ++ later) record front :=
  ⟨h.earlier.trans (prefix_append _ _), h.contains, h.closed⟩

theorem edgeCheck_of_accepted (h : AcceptedBy env log attempt conclusion written triggered) :
    (checkGraphEdgeIntegrity attempt.intents written.records).passed = true := by
  have hpassed : edgeRejection written attempt.intents = none :=
    runChecks_passed h.passed (by simp [verdicts])
  unfold edgeRejection at hpassed
  dsimp only at hpassed
  split at hpassed
  · assumption
  · cases hpassed

theorem pointsSomewhere_of_accepted (h : AcceptedBy env log attempt conclusion written triggered)
    (hintent : intent ∈ attempt.intents)
    (hedge : edgeEnds intent.eventType intent.payload = some edge) :
    PointsSomewhere (conceptGraph conclusion.log.records) (.str edge.target) := by
  obtain ⟨added, hadded⟩ := h.added
  rcases resolvable_of_passed (edgeCheck_of_accepted h) hintent hedge with
    hexisting | ⟨other, hother, hcreated⟩ | hanchor
  · obtain ⟨record, hrecord, hcreated⟩ := List.mem_filterMap.mp hexisting
    exact pointsSomewhere_of_created (h.written_subset hrecord) hcreated
  · obtain ⟨record, hrecord, hdomain⟩ := hadded.committed other hother
    have hwritten : record ∈ conclusion.log.records := by
      rw [hadded.records]
      exact mem_append_right _ hrecord
    refine pointsSomewhere_of_created hwritten ?_
    rw [hdomain.eventType, hdomain.payload.newConceptId, hcreated]
  · exact ⟨edge.target, rfl, .inr hanchor⟩

theorem edgesPoint_accepted (hpoint : EdgesPoint log) (hreads : ReadsEdges attempt)
    (h : AcceptedBy env log attempt conclusion written triggered) :
    EdgesPoint conclusion.log := by
  obtain ⟨added, hadded⟩ := h.added
  intro record hrecord target htarget
  rw [hadded.records, mem_append] at hrecord
  rcases hrecord with hold | hnew
  · obtain ⟨front, hfront, hsomewhere⟩ := hpoint record hold target htarget
    exact ⟨front, hadded.records ▸ hfront.extended, hsomewhere⟩
  · have hcarrier := eventType_of_edgeTarget htarget
    cases hadded.origin record hnew with
    | envelope hsame =>
      rw [hsame.eventType, h.eventType_envelope] at hcarrier
      simp at hcarrier
    | audit htype =>
      rcases hcarrier with heq | heq
      all_goals
        rw [heq] at htype
        exact absurd htype (by decide)
    | checked htype => simp [htype] at hcarrier
    | accepted htype hpayload => simp [htype] at hcarrier
    | domain intent hintent hrecord =>
      rw [hrecord.eventType, hrecord.payload.edgeTarget] at htarget
      obtain ⟨edge, hedge⟩ := Option.isSome_iff_exists.mp
        (hreads intent hintent (by rw [htarget]; rfl))
      rw [edgeTarget_of_edgeEnds hedge] at htarget
      cases htarget
      obtain ⟨last, hlast, hsentinel, hbatch⟩ := hadded.closed
      refine ⟨conclusion.log.records, ⟨prefix_rfl, ?_, last, ?_, hsentinel, ?_⟩,
        pointsSomewhere_of_accepted h hintent hedge⟩
      · rw [hadded.records]
        exact mem_append_right _ hnew
      · rw [hadded.records, List.getLast?_append, hlast, Option.some_or]
      · rw [hbatch, hrecord.batchId]

theorem edgesPoint_rejected (hpoint : EdgesPoint log)
    (h : RejectedBy env log attempt conclusion written triggered drift rejection) :
    EdgesPoint conclusion.log := by
  obtain ⟨added, hrecords, horigin⟩ := h.added
  intro record hrecord target htarget
  rw [hrecords, mem_append] at hrecord
  rcases hrecord with hold | hnew
  · obtain ⟨front, hfront, hsomewhere⟩ := hpoint record hold target htarget
    exact ⟨front, hrecords ▸ hfront.extended, hsomewhere⟩
  · have hcarrier := eventType_of_edgeTarget htarget
    cases horigin record hnew with
    | envelope hsame =>
      rw [hsame.eventType, h.eventType_envelope] at hcarrier
      simp at hcarrier
    | audit htype =>
      rcases hcarrier with heq | heq
      all_goals
        rw [heq] at htype
        exact absurd htype (by decide)
    | drift htype => simp [htype] at hcarrier
    | released hreleases htype hpayload => simp [htype] at hcarrier
    | violated htype => simp [htype] at hcarrier
    | rejected htype => simp [htype] at hcarrier

theorem edgesPoint_commitStep (hpoint : EdgesPoint log) (hreads : ReadsEdges attempt)
    (h : commitStep env log attempt = some next) : EdgesPoint next := by
  obtain ⟨conclusion, hattempt, rfl⟩ := Option.map_eq_some_iff.mp h
  rcases attemptCommit_cases hattempt with ⟨-, _, _, haccepted⟩ | ⟨-, _, _, _, _, hrejected⟩
  · exact edgesPoint_accepted hpoint hreads haccepted
  · exact edgesPoint_rejected hpoint hrejected

/-- Concept edges always point at something, in every log built by commits whose edges the check
reads. -/
theorem edges_point {attempts : List Attempt}
    (hrun : Run (commitStep env) (fun _ attempt => ReadsEdges attempt) CommittedLog.empty attempts
      log) : EdgesPoint log :=
  hrun.invariant (fun _ hrecord => absurd hrecord List.not_mem_nil)
    fun _ _ _ hpoint hreads hnext => edgesPoint_commitStep hpoint hreads hnext

end

def sampleConcept (conceptId : String) : EventIntent :=
  { sampleIntent with
    eventType := .conceptCreated, eventCategory := .stateTransition
    payload := ⟨[("after_state", .obj [("concept_id", .str conceptId)])], by
      simp [Json.proper, Json.properEntries, Dict.keys]⟩ }

def sampleEdge (ends : List (String × Json)) (h : (Json.obj ends).proper = true) : EventIntent :=
  { sampleIntent with
    eventType := .conceptEdgeAdded, eventCategory := .stateTransition
    payload := ⟨[("after_state", .obj ends)], by
      simp [Json.proper, Json.properEntries, Dict.keys] at h ⊢
      exact h⟩ }

def linkedConcept : Attempt :=
  sampleAttempt 0 emptyPayload [sampleConcept "c-2", sampleEdge [("edge_id", .str "e-1"),
    ("source_concept_id", .str "c-1"), ("target_concept_id", .str "c-2")] (by decide)]

def sourcelessEdge : Attempt :=
  sampleAttempt 0 emptyPayload
    [sampleEdge [("edge_id", .str "e-1"), ("target_concept_id", .str "nowhere")] (by decide)]

theorem linkedConcept_points :
    ∃ log, Run (commitStep sampleGateEnv) (fun _ attempt => ReadsEdges attempt) CommittedLog.empty
      [linkedConcept] log ∧ EdgesPoint log := by
  have hsome : ([linkedConcept].foldlM (commitStep sampleGateEnv) CommittedLog.empty).isSome =
      true := by decide +kernel
  obtain ⟨log, hlog⟩ := Option.isSome_iff_exists.mp hsome
  have hreads : ReadsEdges linkedConcept := by
    intro intent hintent
    revert intent
    decide +kernel
  have hrun : Run (commitStep sampleGateEnv) (fun _ attempt => ReadsEdges attempt)
      CommittedLog.empty [linkedConcept] log :=
    Run.of_foldlM (fun attempt hmem _ => List.mem_singleton.mp hmem ▸ hreads) hlog
  exact ⟨log, hrun, edges_point hrun⟩

/-- An edge the check skips points nowhere. -/
theorem sourcelessEdge_dangles :
    ¬ ∀ (attempts : List Attempt) (log : CommittedLog),
      Run (commitStep sampleGateEnv) (fun _ _ => True) CommittedLog.empty attempts log →
        EdgesPoint log := by
  intro hclaim
  have hlog : (([sourcelessEdge].foldlM (commitStep sampleGateEnv) CommittedLog.empty).map
      fun log => (log.records.any fun record =>
          edgeTarget record.eventType record.payload == some (.str "nowhere"),
        log.records.all fun record => createdConcept record != some "nowhere")) =
      some (true, true) := by decide +kernel
  obtain ⟨log, hlog, hfacts⟩ := Option.map_eq_some_iff.mp hlog
  obtain ⟨hany, hall⟩ := Prod.mk.inj hfacts
  obtain ⟨record, hrecord, htarget⟩ := List.any_eq_true.mp hany
  obtain ⟨front, hfront, conceptId, hid, hsomewhere⟩ :=
    hclaim [sourcelessEdge] log (Run.of_steps hlog) record hrecord _
      (eq_of_beq htarget)
  cases hid
  rcases hsomewhere with hnode | hanchor
  · obtain ⟨creator, hcreator, hcreated⟩ := (mem_conceptIds_conceptGraph front _).mp hnode
    have hother := List.all_eq_true.mp hall creator (hfront.earlier.subset hcreator)
    simp [hcreated] at hother
  · exact absurd hanchor (by decide)

end Flowness.CommitGate
