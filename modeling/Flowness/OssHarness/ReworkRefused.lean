import Flowness.OssHarness.ClosedPermits
import Flowness.OssHarness.ReworkLineage

/-!
What the lineage makes of a rework that an execution completed. The settlement of a completed role
asks for no retest, while the receipt of a rework has to ask for one.
-/

namespace Flowness.OssHarness

open Library

section

variable {hashes : ControlHashes} {authority : Authority} {id : String} {state : ControlState}
  {event : AttemptEvent} {binding : RunBinding} {launch : Launch} {receipt : TerminalReceipt}

theorem receipt_terminal (h : loadTerminalAttempt state.entries state.events id = .ok receipt) :
    receipt.terminalEvent ∈ terminals id state.events ∧
      receipt.terminalEvent.payload.outcome = some receipt.state := by
  obtain ⟨found, hfound, hevent, hended, -, htype⟩ := loadTerminalAttempt_ok h
  obtain ⟨states, hstates, hget⟩ := findState_ok hfound
  obtain ⟨hmem, prior, hlegal⟩ := attemptStates_event hstates hget hevent
  refine ⟨List.mem_filter.mpr ⟨hmem, by simpa using htype⟩, ?_⟩
  obtain ⟨outcome, houtcome, hnext, -⟩ := transition_terminal hlegal htype
  rw [hended] at hnext
  cases hnext
  exact houtcome

theorem UnderWay.no_receipt (h : UnderWay hashes policyHash id state) :
    loadTerminalAttempt state.entries state.events id ≠ .ok receipt := by
  intro hload
  obtain ⟨last, htrace, hflying⟩ := h.flying
  have hmem := (receipt_terminal hload).1
  simp [terminals_nil htrace hflying] at hmem

/-- The receipt of a rework that an execution completed is bound to no case, and no manifest is made
with it. -/
theorem completed_rework_refused {runId roleId claimed settled : String}
    {calls during later : List ControlCall} {middle last : ControlState}
    (hrun : Run (controlStep hashes) (CollisionFree hashes) ⟨[], []⟩ calls state)
    (hclaim : claimAttempt hashes (some authority) claimed state.entries state.events id binding =
      .ok event)
    (hduring : Run (controlStep hashes) (OtherCall hashes id)
      { state with events := state.events ++ [event] } during middle)
    (hlater : Run (controlStep hashes) (OtherCall hashes id)
      (settleExecution hashes authority settled id middle (executeRole runId roleId launch)) later last)
    (hload : loadTerminalAttempt last.entries last.events id = .ok receipt)
    (hcompleted : receipt.state = .completed) :
    (∀ case, bindReworkTerminalAttempt case receipt = .error .reworkTerminalBindingInvalid) ∧
      ∀ records caseFile successorFile snapshotFile reworkEvidence rippleInvalidations outputExists
        manifest, createReworkManifest records caseFile successorFile snapshotFile reworkEvidence
          rippleInvalidations (some receipt) outputExists ≠ .ok manifest := by
  have hmiddle := UnderWay.of_run hrun hclaim hduring
  have hretest : receipt.terminalEvent.payload.retestRequired = false := by
    cases hexecuted : executeRole runId roleId launch with
    | error raised => exact absurd hload (hmiddle.stranded settled hexecuted hlater).no_receipt
    | ok settlement =>
      obtain ⟨terminal, -, hterminal, houtcome⟩ := hmiddle.closed settled hexecuted hlater
      obtain ⟨hmem, hstate⟩ := receipt_terminal hload
      rw [hterminal, List.mem_singleton] at hmem
      rw [hmem, hcompleted] at hstate
      obtain ⟨hdone, hasks⟩ := houtcome hstate
      rw [hmem, hasks, executeRole_retestRequired hexecuted, hdone]
      rfl
  have hrefused : ∀ case, bindReworkTerminalAttempt case receipt =
      .error .reworkTerminalBindingInvalid := fun _ => bindReworkTerminalAttempt_no_retest hretest
  refine ⟨hrefused, ?_⟩
  intro records caseFile successorFile snapshotFile reworkEvidence rippleInvalidations outputExists
    manifest hmanifest
  obtain ⟨attempt, hattempt⟩ := createReworkManifest_bound hmanifest
  rw [hrefused] at hattempt
  cases hattempt

end

def sampleRecords : ReworkRecords where
  candidateId := fun _ => "candidate-a"
  signature := fun report => "signature of " ++ report.reportId
  check := fun check => "hash of " ++ check.checkId
  caseId := fun blockerId _ _ _ _ => "case of " ++ blockerId
  caseHash := fun _ => sampleRef.sha256
  manifestId := fun caseId _ _ => "rework of " ++ caseId
  manifestHash := fun body => "hash of " ++ body.reworkManifestId
  candidateSchema := fun _ => true
  reportSchema := fun _ => true
  caseSchema := fun _ => true
  manifestSchema := fun _ => true

def failedCheck : JuryCheck :=
  { checkId := "G2.replay", gateId := "G2", dimension := "truth", critical := true, verdict := .fail
    blockerId := some "BLK-replay", reproduction := some ⟨"make replay", "environment", 1⟩
    missingEvidence := [], expected := "equal", observed := "differs", remediation := "fix"
    retestCondition := "after the fix" }

def failedReport : Filed JuryReport :=
  ⟨{ reportId := "report-a", candidateId := "candidate-a", snapshotId := "snapshot-a"
     checks := [failedCheck], signature := "signature of report-a" }, "hash of report-a"⟩

def replayCase : Except ReworkError BlockerCase :=
  createBlockerCase sampleRecords ⟨⟨"candidate-a", "snapshot-a", []⟩, "hash of candidate-a"⟩
    ⟨⟨"evidence-snapshot/v1", "snapshot-a"⟩, "hash of snapshot-a"⟩ failedReport "BLK-replay" "G2.replay"
    [⟨"claim", "replayable", "failed"⟩] false

def repairCard : Card :=
  let caseArtifact : ArtifactRef := ⟨"blocker-case:case of BLK-replay", sampleRef.sha256⟩
  { judgeCard "repair" "truth" with
    immutableInputs := [sampleRef, caseArtifact]
    currentGateOrBlocker := "BLK-replay"
    blocker := some
      { components := sampleComponents, componentEvidence := none
        degradedPathImpossibleEvidence := [sampleRef], historicalLedgerImport := none
        newFingerprintAdjudication := some ⟨"owner", sampleRef⟩ }
    reworkBinding := some
      { blockerCaseId := "case of BLK-replay", blockerId := "BLK-replay", caseHash := sampleRef.sha256
        caseArtifact := caseArtifact
        original := ⟨"candidate-a", sampleRef.sha256, "report-a", "G2.replay"⟩ } }

def repairCalls : List ControlCall := [.admitWork (some sampleAuthority) "t0" repairCard]

def repairClaim : AttemptEvent :=
  (controlAfter (repairCalls ++ [.claimAttempt (some sampleAuthority) "t1" "admission repair"
    permitBinding])).events.getLast (by decide +kernel)

def repairedLedger : ControlState :=
  let state := controlAfter repairCalls
  settleExecution sampleControlHashes sampleAuthority "t2" "admission repair"
    { state with events := state.events ++ [repairClaim] }
    (executeRole "run" "judge.a" (writingLaunch [79, 75]))

def repairReceipt : Except ReworkError TerminalReceipt :=
  loadTerminalAttempt repairedLedger.entries repairedLedger.events "admission repair"

/-- A repair bound to its case completes, and its receipt is refused. -/
theorem completed_repair_refused :
    (do let case ← replayCase
        let receipt ← repairReceipt
        return (boundToCase case receipt.admission.card, receipt.state,
          bindReworkTerminalAttempt case receipt)) =
      .ok (true, Outcome.completed, .error .reworkTerminalBindingInvalid) := by decide +kernel

theorem completed_repair_unmanifested : ∃ receipt, repairReceipt = .ok receipt ∧
    (∀ case, bindReworkTerminalAttempt case receipt = .error .reworkTerminalBindingInvalid) ∧
    ∀ records caseFile successorFile snapshotFile reworkEvidence rippleInvalidations outputExists
      manifest, createReworkManifest records caseFile successorFile snapshotFile reworkEvidence
        rippleInvalidations (some receipt) outputExists ≠ .ok manifest := by
  have hchecked : ∀ state call, decide (CollisionFree sampleControlHashes state call) = true →
      CollisionFree sampleControlHashes state call := fun _ _ h => of_decide_eq_true h
  have hrun : Run (controlStep sampleControlHashes) (CollisionFree sampleControlHashes) ⟨[], []⟩
      repairCalls (controlAfter repairCalls) := Run.of_checked hchecked (by decide +kernel)
  have hclaim : claimAttempt sampleControlHashes (some sampleAuthority) "t1"
      (controlAfter repairCalls).entries (controlAfter repairCalls).events "admission repair"
        permitBinding = .ok repairClaim := by decide +kernel
  have hstate : repairReceipt.toOption.map TerminalReceipt.state = some .completed := by
    decide +kernel
  cases hreceipt : repairReceipt with
  | error error => simp [hreceipt, Except.toOption] at hstate
  | ok receipt =>
    have hcompleted : receipt.state = .completed := by
      simpa [hreceipt, Except.toOption] using hstate
    exact ⟨receipt, rfl, completed_rework_refused hrun hclaim Run.nil Run.nil hreceipt hcompleted⟩

end Flowness.OssHarness
