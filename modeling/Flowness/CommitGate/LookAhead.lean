import Flowness.CommitGate.BlockingFindings
import Flowness.CommitGate.Effects

/-!
The verdict that the gate looks ahead to, and the verdict of the log once the batch is in it. The
look-ahead gives all intents of the batch one number, so that it folds them by finding; the log has
them in the order of the batch.
-/

namespace Flowness.CommitGate

open List Library Schemas Ledger

section

variable (env : VerdictEnv) (gate : GateEnv)

/-- The verdict that `check_review_verdict_gated_completion` folds before the batch is appended. -/
def lookAheadVerdict (log : CommittedLog) (domain : List (EventIntent × Draw))
    (sessions : List String) : Verdict :=
  computeReviewVerdictOverSet env (foldEvents (domain.map Prod.fst) log.records) sessions

def batchAppended (log : CommittedLog) (ids : AttemptIds) (envelopeEventId : String)
    (domain : List (EventIntent × Draw)) : List EventRecord :=
  log.records ++ (stampFrom gate ids log.nextSequence 0 domain).map (backfilled envelopeEventId)

def verdictAfter (log : CommittedLog) (ids : AttemptIds) (envelopeEventId : String)
    (domain : List (EventIntent × Draw)) (sessions : List String) : Verdict :=
  computeReviewVerdictOverSet env
    ((batchAppended gate log ids envelopeEventId domain).map recordToFoldEvent) sessions

end

def committedFindings (log : CommittedLog) (sessions : List String) : List FindingEvent :=
  (log.records.map recordToFoldEvent).filterMap (RawEvent.foldInput sessions)

def batchFindings (domain : List (EventIntent × Draw)) (sessions : List String) :
    List FindingEvent :=
  (domain.map fun entry => intentToFoldEvent entry.1).filterMap (RawEvent.foldInput sessions)

def byFindingId (env : VerdictEnv) (events : List FindingEvent) : List FindingEvent :=
  events.insertionSort fun left right => env.str left.findingId ≤ env.str right.findingId

/-- The batch leaves a blocking or an open finding behind, or its last event meets a blocking one in
both orders or in neither. -/
def OrderIrrelevant (env : VerdictEnv) (log : CommittedLog) (domain : List (EventIntent × Draw))
    (sessions : List String) : Prop :=
  let committed := committedFindings log sessions
  let batch := batchFindings domain sessions
  (∃ findingId, Blocks (committed ++ batch) findingId) ∨ ¬AllSettled (committed ++ batch) ∨
    (BlockedBeforeLast (committed ++ batch) ↔
      BlockedBeforeLast (committed ++ byFindingId env batch))

instance (event : FindingEvent) (findingId : String) : Decidable (event.names findingId) :=
  inferInstanceAs (Decidable (_ = _))

section

variable {env : VerdictEnv} {events : List FindingEvent} {findingId : String}

theorem get_foldStates_filter (events : List FindingEvent) (findingId : String) :
    Dict.get (foldStates events) findingId =
      Dict.get (foldStates (events.filter (·.names findingId))) findingId := by
  induction events using List.reverseRecOn with
  | nil => rfl
  | append_singleton events event ih =>
    rw [foldStates_append, filter_append, foldl_cons, foldl_nil]
    by_cases hnames : event.names findingId
    · rw [filter_cons_of_pos (by simpa using hnames), filter_nil, foldStates_append,
        foldl_cons, foldl_nil, get_applyEvent_of_names hnames,
        get_applyEvent_of_names hnames, ih]
    · rw [filter_cons_of_neg (by simpa using hnames), filter_nil, append_nil,
        get_applyEvent_of_not_names hnames, ih]

theorem filter_byFindingId (env : VerdictEnv) (events : List FindingEvent) (findingId : String) :
    (byFindingId env events).filter (·.names findingId) = events.filter (·.names findingId) := by
  have hid : ∀ event ∈ events.filter (·.names findingId), event.findingId = .str findingId := by
    intro event hevent
    have hnames : event.names findingId := by simpa using (mem_filter.mp hevent).2
    have htext := (Option.filter_eq_some_iff.mp hnames).1
    cases hfinding : event.findingId with
    | str text =>
      rw [hfinding] at htext
      rw [show text = findingId from Option.some.inj htext]
    | _ =>
      rw [hfinding] at htext
      cases htext
  have hsame : (events.filter (·.names findingId)).Pairwise
      fun left right => env.str left.findingId ≤ env.str right.findingId := by
    apply pairwise_of_forall_mem_list
    intro left hleft right hright
    rw [hid left hleft, hid right hright]
  have hsub := (sublist_insertionSort hsame filter_sublist).filter (·.names findingId)
  rw [filter_filter] at hsub
  simp only [Bool.and_self] at hsub
  apply (hsub.eq_of_length _).symm
  exact ((perm_insertionSort _ events).filter _).length_eq.symm

section

variable (env : VerdictEnv) (committed batch : List FindingEvent)

theorem get_foldStates_byFindingId (findingId : String) :
    Dict.get (foldStates (committed ++ byFindingId env batch)) findingId =
      Dict.get (foldStates (committed ++ batch)) findingId := by
  rw [get_foldStates_filter, filter_append, filter_byFindingId, ← filter_append,
    ← get_foldStates_filter]

theorem vetoes_byFindingId (findingId : String) :
    Vetoes (committed ++ byFindingId env batch) findingId ↔ Vetoes (committed ++ batch) findingId := by
  unfold Vetoes
  rw [get_foldStates_byFindingId]

theorem allTerminal_byFindingId :
    AllTerminal (committed ++ byFindingId env batch) ↔ AllTerminal (committed ++ batch) := by
  unfold AllTerminal
  simp only [get_foldStates_byFindingId]

end

def FindingEvent.unnumbered (event : FindingEvent) : FindingEvent := { event with sequenceNumber := 0 }

theorem foldStates_unnumbered (events : List FindingEvent) :
    foldStates (events.map FindingEvent.unnumbered) = foldStates events := by
  unfold foldStates
  rw [foldl_map]
  rfl

theorem vetoes_unnumbered (events : List FindingEvent) (findingId : String) :
    Vetoes (events.map FindingEvent.unnumbered) findingId ↔ Vetoes events findingId := by
  unfold Vetoes
  rw [foldStates_unnumbered]

theorem Judged.of_unnumbered (h : Judged events verdict)
    (hsame : events.map FindingEvent.unnumbered = others.map FindingEvent.unnumbered) :
    Judged others verdict := by
  have hvetoes : ∀ findingId, Vetoes others findingId ↔ Vetoes events findingId := by
    intro findingId
    rw [← vetoes_unnumbered, ← hsame, vetoes_unnumbered]
  have hterminal : AllTerminal others ↔ AllTerminal events := by
    unfold AllTerminal
    rw [← foldStates_unnumbered others, ← hsame, foldStates_unnumbered]
  have hlast : VetoedBeforeLast others ↔ VetoedBeforeLast events := by
    unfold VetoedBeforeLast
    simp [← vetoes_unnumbered events.dropLast, ← vetoes_unnumbered others.dropLast, hsame]
  refine ⟨?_, ?_, ?_, ?_⟩
  · simp only [hvetoes]
    exact h.vetoed
  · simp only [hvetoes, hlast]
    exact h.lifted
  · simp only [hvetoes, hlast, hterminal]
    exact h.terminal
  · simp only [hvetoes, hlast, hterminal]
    exact h.unsettled

end

theorem foldInput_numbered {sessions : List String} {event : RawEvent}
    (h : event.foldInput sessions = some finding) :
    finding.sequenceNumber = event.sequenceNumber := by
  unfold RawEvent.foldInput at h
  split at h
  · cases h
    rfl
  · cases h

theorem computeReviewVerdictOverSet_eq (env : VerdictEnv) (events : List RawEvent)
    (sessions : List String) :
    computeReviewVerdictOverSet env events sessions =
      foldReviewVerdict env (events.filterMap (RawEvent.foldInput sessions)) := by
  unfold computeReviewVerdictOverSet
  split
  next hnone =>
    have hnothing : events.filterMap (RawEvent.foldInput sessions) = [] := by
      apply filterMap_eq_nil_iff.mpr
      intro event _
      apply if_neg
      rw [hnone]
      simp
    rw [hnothing]
    rfl
  · rfl

def foldedFields : List String := ["review_unit_id", "finding_id", "severity", "verification_state"]

theorem lookup_afterOrPayload_backfillRef
    (hfield : field = "sibling_event_id" ∨ field = "envelope_event_id") (hkey : key ∈ foldedFields)
    (envelopeEventId : String) (payload : Payload) :
    Json.lookup (afterOrPayload (backfillRef field envelopeEventId payload)) key =
      Json.lookup (afterOrPayload payload) key := by
  have hne : key ≠ field := by
    rcases hfield with rfl | rfl
    · rintro rfl
      exact absurd hkey (by decide)
    · rintro rfl
      exact absurd hkey (by decide)
  unfold backfillRef
  split
  next after hafter =>
    split
    · have hold : afterOrPayload payload = after := by
        simp [afterOrPayload, Payload.getD, hafter]
      rw [hold]
      simp [afterOrPayload, Payload.getD, Payload.get, Json.lookup, Dict.get_set_of_ne after _ hne]
    · rfl
  · rfl

theorem lookup_afterOrPayload_backfilled (hkey : key ∈ foldedFields) (envelopeEventId : String)
    (record : EventRecord) :
    Json.lookup (afterOrPayload (backfilled envelopeEventId record).payload) key =
      Json.lookup (afterOrPayload record.payload) key := by
  unfold backfilled backfillEnvelopeEventIdRef
  rw [lookup_afterOrPayload_backfillRef (.inr rfl) hkey]
  unfold backfillSemanticSiblingRef
  split
  · exact lookup_afterOrPayload_backfillRef (.inl rfl) hkey envelopeEventId record.payload
  · rfl

theorem foldInput_congr {left right : RawEvent} (htype : left.eventType = right.eventType)
    (hsession : left.sessionId = right.sessionId)
    (hlookup : ∀ key ∈ foldedFields, Json.lookup (afterOrPayload left.payload) key =
      Json.lookup (afterOrPayload right.payload) key) (sessions : List String) :
    (left.foldInput sessions).map FindingEvent.unnumbered =
      (right.foldInput sessions).map FindingEvent.unnumbered := by
  have hunit : left.reviewUnitId = right.reviewUnitId := by
    unfold RawEvent.reviewUnitId Json.nonBlank
    rw [hlookup "review_unit_id" (by decide), hsession]
  unfold RawEvent.foldInput
  dsimp only
  rw [hunit, htype, hlookup "finding_id" (by decide), hlookup "severity" (by decide),
    hlookup "verification_state" (by decide)]
  split
  · rfl
  · rfl

theorem foldInput_backfilled (env : WriterEnv) (envelopeEventId : String) (sessions : List String)
    (intent : EventIntent) (eventId : EventId) (timestamp : Timestamp) (sequenceNumber : Nat)
    (batch : Option BatchSlot) :
    ((recordToFoldEvent (backfilled envelopeEventId
      (stamp env intent eventId timestamp sequenceNumber batch))).foldInput sessions).map
        FindingEvent.unnumbered =
      ((intentToFoldEvent intent).foldInput sessions).map FindingEvent.unnumbered := by
  apply foldInput_congr
  · exact eventType_backfilled envelopeEventId _
  · exact congrArg (·.sessionId) (runId_backfilled envelopeEventId _)
  · intro key hkey
    exact lookup_afterOrPayload_backfilled hkey envelopeEventId _

theorem filterMap_batchAppended (gate : GateEnv) (ids : AttemptIds) (envelopeEventId : String)
    (sessions : List String) (base position : Nat) (domain : List (EventIntent × Draw)) :
    ((((stampFrom gate ids base position domain).map (backfilled envelopeEventId)).map
      recordToFoldEvent).filterMap (RawEvent.foldInput sessions)).map FindingEvent.unnumbered =
        (batchFindings domain sessions).map FindingEvent.unnumbered := by
  unfold batchFindings
  induction domain generalizing position with
  | nil => rfl
  | cons entry domain ih =>
    have hhead := foldInput_backfilled gate.toWriterEnv envelopeEventId sessions entry.1
      entry.2.eventId entry.2.timestamp (base + position)
      (some ⟨ids.transactionId, ids.batchId, position⟩)
    specialize ih (position + 1)
    rw [stampFrom, map_cons, map_cons, map_cons, filterMap_cons,
      filterMap_cons]
    generalize RawEvent.foldInput sessions (recordToFoldEvent _) = stamped at hhead ⊢
    generalize RawEvent.foldInput sessions (intentToFoldEvent entry.1) = read at hhead ⊢
    cases stamped with
    | none =>
      cases read with
      | none => exact ih
      | some _ => cases hhead
    | some event =>
      cases read with
      | none => cases hhead
      | some other =>
        rw [map_cons, map_cons, ih, Option.some.inj hhead]

section

variable {env : VerdictEnv}

theorem pairwise_foldInput {records : List EventRecord}
    (h : (records.map EventRecord.sequenceNumber).Pairwise (· < ·)) (sessions : List String) :
    ((records.map recordToFoldEvent).filterMap (RawEvent.foldInput sessions)).Pairwise
      (foldsBefore env) := by
  rw [pairwise_filterMap, pairwise_map]
  refine (pairwise_map.mp h).imp fun {left right} hlt => ?_
  intro first hfirst second hsecond
  apply Or.inl
  rw [foldInput_numbered hfirst, foldInput_numbered hsecond]
  exact hlt

theorem numbered_batchFindings {domain : List (EventIntent × Draw)} {sessions : List String}
    {event : FindingEvent} (h : event ∈ batchFindings domain sessions) :
    event.sequenceNumber = 2 ^ 62 := by
  obtain ⟨raw, hraw, hinput⟩ := mem_filterMap.mp h
  obtain ⟨entry, -, rfl⟩ := mem_map.mp hraw
  exact foldInput_numbered hinput

theorem insertionSort_of_numbered {events : List FindingEvent}
    (h : ∀ event ∈ events, event.sequenceNumber = number) :
    events.insertionSort (foldsBefore env) = byFindingId env events := by
  have hmap := map_insertionSort (foldsBefore env)
    (fun left right : FindingEvent => env.str left.findingId ≤ env.str right.findingId) id events ?_
  · rwa [map_id, map_id] at hmap
  · intro left hleft right hright
    unfold foldsBefore
    rw [h left hleft, h right hright]
    simp

theorem insertionSort_append_of_before {front back : List FindingEvent}
    (hfront : front.Pairwise (foldsBefore env))
    (hbefore : ∀ event ∈ front, ∀ other ∈ back, foldsBefore env event other) :
    (front ++ back).insertionSort (foldsBefore env) =
      front ++ back.insertionSort (foldsBefore env) := by
  induction front with
  | nil => rfl
  | cons event front ih =>
    have hfirst := pairwise_cons.mp hfront
    rw [cons_append, insertionSort_cons_of_forall_rel, ih hfirst.2, cons_append]
    · intro other hother
      exact hbefore other (mem_cons_of_mem _ hother)
    · intro other hother
      rcases mem_append.mp hother with hmem | hmem
      · exact hfirst.1 other hmem
      · exact hbefore event mem_cons_self other hmem

theorem sequenceNumbers_stampFrom (gate : GateEnv) (ids : AttemptIds) (base position : Nat)
    (domain : List (EventIntent × Draw)) :
    (stampFrom gate ids base position domain).map EventRecord.sequenceNumber =
      List.range' (base + position) domain.length := by
  induction domain generalizing position with
  | nil => rfl
  | cons entry domain ih =>
    rw [stampFrom, map_cons, ih, length_cons]
    rfl

theorem sequenceNumber_backfilled (envelopeEventId : String) (record : EventRecord) :
    (backfilled envelopeEventId record).sequenceNumber = record.sequenceNumber := by
  unfold backfilled backfillSemanticSiblingRef
  split <;> rfl

theorem increasing_batchAppended (gate : GateEnv) (log : CommittedLog) (ids : AttemptIds)
    (envelopeEventId : String) (domain : List (EventIntent × Draw)) :
    ((batchAppended gate log ids envelopeEventId domain).map EventRecord.sequenceNumber).Pairwise
      (· < ·) := by
  have hnumbers : ((stampFrom gate ids log.nextSequence 0 domain).map
      (backfilled envelopeEventId)).map EventRecord.sequenceNumber =
        List.range' log.nextSequence domain.length := by
    rw [map_map, ← Nat.add_zero log.nextSequence, ← sequenceNumbers_stampFrom gate ids]
    apply map_congr_left
    intro record _
    exact sequenceNumber_backfilled envelopeEventId record
  exact increasing_append log hnumbers

variable {log : CommittedLog} {domain : List (EventIntent × Draw)} {sessions : List String}

theorem filterMap_foldEvents (log : CommittedLog) (domain : List (EventIntent × Draw))
    (sessions : List String) :
    (foldEvents (domain.map Prod.fst) log.records).filterMap (RawEvent.foldInput sessions) =
      committedFindings log sessions ++ batchFindings domain sessions := by
  unfold foldEvents batchFindings
  rw [filterMap_append]
  congr 1
  induction domain with
  | nil => rfl
  | cons entry domain ih =>
    rw [map_cons, map_cons, filterMap_cons, ← ih]
    by_cases htype : entry.1.eventType ∈ findingEventTypes
    · rw [filter_cons_of_pos (by simpa using htype), map_cons, filterMap_cons]
    · have hnone : RawEvent.foldInput sessions (intentToFoldEvent entry.1) = none :=
        if_neg fun h => htype h.1
      rw [filter_cons_of_neg (by simpa using htype), hnone]

theorem judged_lookAhead (hbelow : ∀ record ∈ log.records, record.sequenceNumber < 2 ^ 62) :
    Judged (committedFindings log sessions ++ byFindingId env (batchFindings domain sessions))
      (lookAheadVerdict env log domain sessions) := by
  unfold lookAheadVerdict
  rw [computeReviewVerdictOverSet_eq, filterMap_foldEvents]
  have hsorted : (committedFindings log sessions ++ batchFindings domain sessions).insertionSort
      (foldsBefore env) =
        committedFindings log sessions ++ byFindingId env (batchFindings domain sessions) := by
    rw [insertionSort_append_of_before, insertionSort_of_numbered fun _ => numbered_batchFindings]
    · exact pairwise_foldInput log.increasing sessions
    · intro event hevent other hother
      obtain ⟨raw, hraw, hinput⟩ := mem_filterMap.mp hevent
      obtain ⟨record, hrecord, rfl⟩ := mem_map.mp hraw
      apply Or.inl
      rw [foldInput_numbered hinput, numbered_batchFindings hother]
      exact hbelow record hrecord
  rw [← hsorted]
  exact judged env _

theorem judged_after (gate : GateEnv) (ids : AttemptIds) (envelopeEventId : String) :
    Judged (committedFindings log sessions ++ batchFindings domain sessions)
      (verdictAfter env gate log ids envelopeEventId domain sessions) := by
  unfold verdictAfter
  rw [computeReviewVerdictOverSet_eq]
  have hordered := judged env (((batchAppended gate log ids envelopeEventId domain).map
    recordToFoldEvent).filterMap (RawEvent.foldInput sessions))
  rw [List.Pairwise.insertionSort_eq (pairwise_foldInput
    (increasing_batchAppended gate log ids envelopeEventId domain) sessions)] at hordered
  apply hordered.of_unnumbered
  unfold batchAppended committedFindings
  rw [map_append, filterMap_append, map_append, map_append,
    filterMap_batchAppended]

/-- Over a log whose numbers are below the common one, the verdict that the gate looks ahead to is that
of the log with the batch exactly when the order of the batch does not matter. -/
theorem lookAheadVerdict_eq_iff (gate : GateEnv) (ids : AttemptIds) (envelopeEventId : String)
    (hbelow : ∀ record ∈ log.records, record.sequenceNumber < 2 ^ 62) :
    lookAheadVerdict env log domain sessions =
        verdictAfter env gate log ids envelopeEventId domain sessions ↔
      OrderIrrelevant env log domain sessions := by
  unfold OrderIrrelevant
  simp only [← vetoes_iff, ← allTerminal_iff, ← vetoedBeforeLast_iff]
  apply (judged_lookAhead hbelow).eq_iff (judged_after gate ids envelopeEventId)
  · simp only [vetoes_byFindingId]
  · exact allTerminal_byFindingId env _ _

end

def reviewerIntent (eventType : EventType) (eventCategory : EventCategory) (payload : Payload) :
    EventIntent :=
  { sampleIntent with
    eventType, eventCategory, payload
    provenanceHint := { sampleIntent.provenanceHint with sessionId := some "sess-1" }
    subjects := ⟨[⟨.task, ⟨"review-1", by decide⟩, .primary⟩], by decide⟩ }

def findingIntent (eventType : EventType) (findingId severity verificationState : String) :
    EventIntent :=
  reviewerIntent eventType .finding
    ⟨[("finding_id", .str findingId), ("severity", .str severity),
      ("verification_state", .str verificationState)], by simp [Json.proper, Json.properEntries, Dict.keys]⟩

def reviewLog : CommittedLog where
  records := stampFrom sampleGateEnv sampleIds 0 0
    [(reviewerIntent .taskNodeCreated .stateTransition
        ⟨[("after_state", .obj [("task_id", .str "review-1"), ("task_type", .str "review")])], by decide⟩,
        sampleDraw 0),
      (findingIntent .findingCreated "f-a" "major" "unverified", sampleDraw 1),
      (findingIntent .findingVerified "f-a" "major" "verified", sampleDraw 2),
      (findingIntent .findingCreated "f-b" "major" "unverified", sampleDraw 3)]
  increasing := by decide +kernel
  distinct := by decide +kernel

def closingBatch : List (EventIntent × Draw) :=
  [(findingIntent .findingVerified "f-b" "major" "rejected_false_positive", sampleDraw 4),
    (findingIntent .findingResolved "f-a" "major" "verified", sampleDraw 5),
    (reviewerIntent .taskRunCompleted .stateTransition
      ⟨[("after_state", .obj [("task_id", .str "review-1"), ("outcome", .str "success")])], by decide⟩,
      sampleDraw 6)]

/-- Folded by finding the resolution comes first and the batch passes; in the order of the batch it
comes last, and the verdict of the log is pending. -/
theorem closing_batch_looks_passed :
    checkReviewVerdictGatedCompletion plainVerdictEnv (closingBatch.map Prod.fst)
        (EventIndex.build reviewLog.records) reviewLog.records = { passed := true } ∧
      (closingBatch.map fun entry => completedTask entry.1) = [none, none, some "review-1"] ∧
      resolveTaskType (EventIndex.build reviewLog.records) "review-1" = some "review" ∧
      lookAheadVerdict plainVerdictEnv reviewLog closingBatch ["sess-1"] = .passed ∧
      verdictAfter plainVerdictEnv sampleGateEnv reviewLog sampleIds "evt-0" closingBatch ["sess-1"] =
        .pending :=
  ⟨by decide +kernel, by decide +kernel, by decide +kernel, by decide +kernel, by decide +kernel⟩

theorem closing_batch_order_matters :
    OrderIrrelevant plainVerdictEnv reviewLog (closingBatch.drop 1) ["sess-1"] ∧
      ¬OrderIrrelevant plainVerdictEnv reviewLog closingBatch ["sess-1"] := by
  have hbelow : ∀ record ∈ reviewLog.records, record.sequenceNumber < 2 ^ 62 := by decide +kernel
  rw [← lookAheadVerdict_eq_iff sampleGateEnv sampleIds "evt-0" hbelow,
    ← lookAheadVerdict_eq_iff sampleGateEnv sampleIds "evt-0" hbelow]
  decide +kernel

end Flowness.CommitGate
