import Flowness.CommitGate.Batches

/-!
What guards the capture and the retirement of obligations: a runtime capture must name its
triggers, and an obligation captured by the system bootstrap may not be retired.
-/

namespace Flowness.CommitGate

open Library Schemas

/-- `str.isspace` of one character. -/
def isSpaceChar (c : Char) : Bool :=
  let n := c.toNat
  (9 ≤ n && n ≤ 13) || (28 ≤ n && n ≤ 32) || n == 0x85 || n == 0xa0 || n == 0x1680 ||
    (0x2000 ≤ n && n ≤ 0x200a) || n == 0x2028 || n == 0x2029 || n == 0x202f || n == 0x205f ||
    n == 0x3000

/-- `not text.strip()`. -/
def isBlank (text : String) : Bool := text.toList.all isSpaceChar

/-- `_capture_source`: the nested block before the flat field. -/
def captureSource (payload : Payload) : Option String :=
  (Json.nonBlank (payload.getD "capture_provenance" .null).asDict "capture_source").or
    (Json.nonBlank payload.entries "capture_source")

def triggers (value : Json) : List String :=
  (value.asItems.filterMap Json.text?).filter fun text => !isBlank text

/-- `_source_event_refs`: the nested list, when there is one, before the flat field. -/
def sourceEventRefs (payload : Payload) : List String :=
  match Json.lookup (payload.getD "capture_provenance" .null).asDict "source_event_refs" with
  | .arr refs => triggers (.arr refs)
  | _ => triggers (payload.getD "source_event_refs" .null)

def provenanceRule : String :=
  "M-0.6 §11 不变量5 / §4.1.1 — a runtime ObligationCaptured must carry " ++
    "capture_provenance.source_event_refs (≥1 upstream trigger event); empty " ++
    "provenance is only legitimate for the genesis system_bootstrap path."

def lacksProvenance (intent : EventIntent) : Bool :=
  intent.eventType == .obligationCaptured &&
    captureSource intent.payload ≠ some "system_bootstrap" && sourceEventRefs intent.payload == []

/-- The rejection of `check_obligation_capture_provenance`, if it fails. -/
def checkObligationCaptureProvenance (domain : List EventIntent) : Option Failure :=
  (domain.find? lacksProvenance).map fun intent =>
    ⟨{ rejectionType := some .obligationViolation
       failureReason := some "obligation_provenance_missing"
       failureEvidence :=
        ⟨[("obligation_id",
            ((intent.payload.getD "obligation_id" .null).text?).getD "<unknown>"),
          ("capture_source", (captureSource intent.payload).getD "<unset>"),
          ("rule", provenanceRule)], by simp [Dict.keys]⟩ }, rfl⟩

def capturedFrom (obligationId : String) (record : EventRecord) : Option String :=
  if record.payload.get "obligation_id" = some (.str obligationId) then
    (record.payload.getD "capture_source" .null).text?
  else none

/-- One record of the loop of `_obligation_capture_source`: the latest source so far, with its
sequence number. -/
def latestSource (obligationId : String) (best : Option (String × Nat)) (record : EventRecord) :
    Option (String × Nat) :=
  match capturedFrom obligationId record with
  | none => best
  | some source =>
    match best with
    | none => some (source, record.sequenceNumber)
    | some (_, bestSeq) =>
      if bestSeq < record.sequenceNumber then some (source, record.sequenceNumber) else best

def obligationCaptureSource (log : CommittedLog) (obligationId : String) : Option String :=
  ((log.getEventsByType .obligationCaptured).foldl (latestSource obligationId) none).map Prod.fst

def retiredObligation (intent : EventIntent) : Option String :=
  if intent.eventType = .obligationRetired then Json.nonBlank intent.payload.entries "obligation_id"
  else none

/-- `check_retire_allowed` does not raise. -/
def retireAllowed (captureSource : String) : Bool := captureSource ≠ "system_bootstrap"

/-- `_assert_no_protocol_invariant_retire` does not raise. -/
def noProtocolInvariantRetire (log : CommittedLog) (domain : List EventIntent) : Bool :=
  (domain.filterMap retiredObligation).all fun obligationId =>
    match obligationCaptureSource log obligationId with
    | none => true
    | some source => retireAllowed source

end Flowness.CommitGate
