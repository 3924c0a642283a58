import Flowness.CommitGate.Effects
import Flowness.Projection.ObligationLifecycle

/-!
Red lines. The guard in front of an attempt reads the latest capture source of an obligation that
is to be retired; as long as that is the bootstrap's, no retirement of it is ever committed.
-/

namespace Flowness.CommitGate

open Library Schemas Ledger Projection

/-- The obligation was captured by the bootstrap and is not retired so far. -/
structure RedLine (log : CommittedLog) (obligationId : String) : Prop where
  captured : ∃ record ∈ log.records, record.eventType = .obligationCaptured ∧
    record.payload.get "obligation_id" = some (.str obligationId) ∧
    captureSource record.payload = some "system_bootstrap"
  standing : Standing obligationId (obligationLifecycle log.records)

/-- Where the attempt retires the obligation, the guard reads the bootstrap as its source. -/
def GuardedRetire (obligationId : String) (log : CommittedLog) (attempt : Attempt) : Prop :=
  (∃ intent ∈ attempt.intents, Retires obligationId intent.eventType intent.payload) →
    obligationId ≠ "" ∧ obligationCaptureSource log obligationId = some "system_bootstrap"

section

variable {env : GateEnv} {log next : CommittedLog} {attempt : Attempt} {conclusion : Conclusion}
  {written triggered : CommittedLog} {obligationId : String}

theorem not_retires_of_guarded (hguard : noProtocolInvariantRetire log attempt.intents = true)
    (hretire : GuardedRetire obligationId log attempt) (hintent : intent ∈ attempt.intents) :
    ¬ Retires obligationId intent.eventType intent.payload := by
  intro hretires
  obtain ⟨hne, hsource⟩ := hretire ⟨intent, hintent, hretires⟩
  have hretired : retiredObligation intent = some obligationId := by
    obtain ⟨htype, hid⟩ := hretires
    have hlookup : Json.lookup intent.payload.entries "obligation_id" = .str obligationId := by
      have hget : Dict.get intent.payload.entries "obligation_id" = some (.str obligationId) := hid
      rw [Json.lookup, hget, Option.getD_some]
    simp [retiredObligation, htype, Json.nonBlank, hlookup, Json.text?, hne]
  have hall := List.all_eq_true.mp hguard obligationId
    (List.mem_filterMap.mpr ⟨intent, hintent, hretired⟩)
  simp [hsource, retireAllowed] at hall

theorem not_retires_accepted (h : AcceptedBy env log attempt conclusion written triggered)
    (hretire : GuardedRetire obligationId log attempt)
    (horigin : AcceptedRecord attempt conclusion.envelope record) :
    ¬ Retires obligationId record.eventType record.payload := by
  rintro ⟨htype, hid⟩
  cases horigin with
  | envelope hsame => simp [hsame.eventType, h.eventType_envelope] at htype
  | audit haudit =>
    rw [htype] at haudit
    exact absurd haudit (by decide)
  | domain intent hintent hrecord =>
    refine not_retires_of_guarded h.guarded hretire hintent ⟨hrecord.eventType ▸ htype, ?_⟩
    rw [← hid]
    exact (hrecord.payload.top _ (by decide)).symm
  | checked hchecked => simp [hchecked] at htype
  | accepted haccepted => simp [haccepted] at htype

theorem not_retires_rejected
    (h : RejectedBy env log attempt conclusion written triggered drift rejection)
    (horigin : RejectedRecord env releasesLock releaseReason conclusion.envelope record) :
    ¬ Retires obligationId record.eventType record.payload := by
  rintro ⟨htype, -⟩
  cases horigin with
  | envelope hsame => simp [hsame.eventType, h.eventType_envelope] at htype
  | audit haudit =>
    rw [htype] at haudit
    exact absurd haudit (by decide)
  | drift hdrift => simp [hdrift] at htype
  | released _ hreleased => simp [hreleased] at htype
  | violated hviolated => simp [hviolated] at htype
  | rejected hrejected => simp [hrejected] at htype

theorem standing_commitStep (hstanding : Standing obligationId (obligationLifecycle log.records))
    (hretire : GuardedRetire obligationId log attempt)
    (h : commitStep env log attempt = some next) :
    Standing obligationId (obligationLifecycle next.records) := by
  obtain ⟨conclusion, hattempt, rfl⟩ := Option.map_eq_some_iff.mp h
  rcases attemptCommit_cases hattempt with ⟨-, written, triggered, haccepted⟩ |
    ⟨-, written, triggered, drift, rejection, hrejected⟩
  · obtain ⟨added, hadded⟩ := haccepted.added
    rw [hadded.records, obligationLifecycle, List.foldl_append]
    exact hstanding.foldl fun record hrecord =>
      not_retires_accepted haccepted hretire (hadded.origin record hrecord)
  · obtain ⟨added, hrecords, horigin⟩ := hrejected.added
    rw [hrecords, obligationLifecycle, List.foldl_append]
    exact hstanding.foldl fun record hrecord =>
      not_retires_rejected hrejected (horigin record hrecord)

/-- A red-line obligation is never retired while the guard reads the bootstrap as its source. -/
theorem red_line_never_retired {start : CommittedLog} (hstart : RedLine start obligationId)
    {attempts : List Attempt}
    (hrun : Run (commitStep env) (GuardedRetire obligationId) start attempts log) :
    Standing obligationId (obligationLifecycle log.records) :=
  hrun.invariant (I := fun log => Standing obligationId (obligationLifecycle log.records))
    hstart.standing fun _ _ _ hstanding hretire hnext => standing_commitStep hstanding hretire hnext

end

def obligationIntent (eventType : EventType) (entries : List (String × Json))
    (h : (Json.obj entries).proper = true) : EventIntent :=
  { sampleIntent with eventType, eventCategory := .obligation, payload := ⟨entries, h⟩ }

def bootstrapCapture : EventIntent :=
  obligationIntent .obligationCaptured
    [("obligation_id", .str "o-red"), ("capture_source", .str "system_bootstrap")] (by decide)

def recapture : EventIntent :=
  obligationIntent .obligationCaptured
    [("obligation_id", .str "o-red"), ("capture_source", .str "engineering_consensus"),
      ("source_event_refs", .arr [.str "evt-1"])] (by decide)

def retirement : EventIntent :=
  obligationIntent .obligationRetired
    [("obligation_id", .str "o-red"), ("retirement_reason", .str "outdated")] (by decide)

def bootstrapLog : CommittedLog where
  records := [stamp sampleGateEnv.toWriterEnv bootstrapCapture (sampleDraw 0).eventId sampleTime 0 none]
  increasing := List.pairwise_singleton _ _
  distinct := List.nodup_singleton _

theorem redLine_bootstrapLog : RedLine bootstrapLog "o-red" where
  captured := ⟨_, List.mem_singleton_self _, rfl, rfl, rfl⟩
  standing := by
    intro node hnode _
    rw [List.mem_singleton.mp (hnode : node ∈ [_])]
    exact ⟨by decide, by decide⟩

theorem recapture_leaves_standing :
    ∃ log, Run (commitStep sampleGateEnv) (GuardedRetire "o-red") bootstrapLog
      [sampleAttempt 1 emptyPayload [recapture]] log ∧
      Standing "o-red" (obligationLifecycle log.records) := by
  have hsome : ([sampleAttempt 1 emptyPayload [recapture]].foldlM (commitStep sampleGateEnv)
      bootstrapLog).isSome = true := by decide +kernel
  obtain ⟨log, hlog⟩ := Option.isSome_iff_exists.mp hsome
  have hguarded : ∀ state, GuardedRetire "o-red" state
      (sampleAttempt 1 emptyPayload [recapture]) := by
    rintro state ⟨intent, hintent, htype, -⟩
    rw [List.mem_singleton.mp (hintent : intent ∈ [_])] at htype
    cases htype
  have hrun := Run.of_foldlM
    (fun attempt hmem state => List.mem_singleton.mp hmem ▸ hguarded state) hlog
  exact ⟨log, hrun, red_line_never_retired redLine_bootstrapLog hrun⟩

/-- Captured again under another source, a red-line obligation can be retired. -/
theorem recapture_then_retirement :
    ¬ ∀ (start log : CommittedLog) (obligationId : String) (attempts : List Attempt),
      RedLine start obligationId →
      Run (commitStep sampleGateEnv) (fun _ _ => True) start attempts log →
        Standing obligationId (obligationLifecycle log.records) := by
  intro hclaim
  have hretired : (([sampleAttempt 1 emptyPayload [recapture],
      sampleAttempt 4 emptyPayload [retirement]].foldlM (commitStep sampleGateEnv)
        bootstrapLog).map fun log => (obligationLifecycle log.records).map fun node =>
          (node.obligationId, node.canonicalState)) = some [("o-red", .retired)] := by
    decide +kernel
  obtain ⟨log, hlog, hnodes⟩ := Option.map_eq_some_iff.mp hretired
  have hstanding := hclaim bootstrapLog log "o-red" _ redLine_bootstrapLog
    (Run.of_steps hlog)
  obtain ⟨node, hnode, heq⟩ : ∃ node ∈ obligationLifecycle log.records,
      (node.obligationId, node.canonicalState) = ("o-red", .retired) :=
    List.mem_map.mp (hnodes ▸ List.mem_singleton_self _)
  obtain ⟨hid, hstate⟩ := Prod.mk.inj heq
  exact (hstanding node hnode hid).1 hstate

end Flowness.CommitGate
