import Flowness.CommitGate.Effects
import Flowness.CommitGate.ReviewVerdict
import Mathlib.Data.List.Infix

/-!
What an obligation says now. The gate reads its severity and its forbidden pattern from flat fields of the
lifecycle events; the tool that evolves it reads and writes `after_state`, which has no such field.
-/

namespace Flowness.CommitGate

open Library Schemas Ledger

inductive ObligationSeverity where
  | redLine | normal | hint
deriving DecidableEq, Repr

def ObligationSeverity.value : ObligationSeverity → String
  | .redLine => "red_line"
  | .normal => "normal"
  | .hint => "hint"

instance : StrEnum ObligationSeverity where
  members := [.redLine, .normal, .hint]
  value := ObligationSeverity.value

/-! ### The readers of the gate -/

/-- The value that `read` takes from the record with the highest number. -/
def latest {β : Type} (read : EventRecord → Option β) (best : Option (β × Nat)) (record : EventRecord) :
    Option (β × Nat) :=
  match read record with
  | none => best
  | some value =>
    match best with
    | none => some (value, record.sequenceNumber)
    | some (_, bestSeq) =>
      if bestSeq < record.sequenceNumber then some (value, record.sequenceNumber) else best

def definingEvents : List EventType := [.obligationCaptured, .obligationEvolved]

def declaredSeverity (record : EventRecord) : Option String :=
  if record.eventType ∈ definingEvents then (record.payload.getD "severity" .null).text? else none

def obligationSeverity (index : EventIndex) (obligationId : String) : Option String :=
  ((index.byObligation.lookup obligationId).foldl (latest declaredSeverity) none).map Prod.fst

def payloadPattern (payload : Payload) : Option (String × String) :=
  let metadata := (Json.lookup (payload.getD "obligation_definition" .null).asDict
    "checker_metadata").asDict
  ((Json.nonBlank metadata "forbidden_pattern").or
    (Json.nonBlank payload.entries "forbidden_pattern")).map fun pattern =>
      (pattern, (Json.nonBlank metadata "pattern_type").getD "text_match")

def declaredPattern (record : EventRecord) : Option (Option (String × String)) :=
  if record.eventType ∈ definingEvents then some (payloadPattern record.payload) else none

def obligationForbiddenPattern (index : EventIndex) (obligationId : String) : Option (String × String) :=
  (((index.byObligation.lookup obligationId).foldl (latest declaredPattern) none).map Prod.fst).join

inductive PatternMatch where
  | found | noMatch | uncheckable
deriving DecidableEq, Repr

/-- What the check takes from Python: `re.search`, `none` for a malformed pattern, and `repr`. -/
structure MatchEnv where
  search : String → String → Option Bool
  repr : String → String

def matchForbiddenPattern (env : MatchEnv) (pattern patternType content : String) : PatternMatch :=
  if pattern = "" ∨ content = "" then .noMatch
  else if patternType = "regex" then
    match env.search pattern content with
    | none => .uncheckable
    | some true => .found
    | some false => .noMatch
  else if patternType = "text_match" then
    if pattern.toList <:+: content.toList then .found else .noMatch
  else .uncheckable

/-! ### The check of the declarations -/

structure ObligationCheckResult where
  passed : Bool
  violations : List ObligationViolation := []
  notices : List String := []
  coverageGapCount : Option Int := none

def obligationDeclaration : Json → Option (String × Json)
  | .obj entries =>
    (Json.nonBlank entries "obligation_id").map fun obligationId =>
      (obligationId, Json.lookup entries "status")
  | _ => none

section

variable (env : MatchEnv) (index : EventIndex) (matchContent : String)

def checkNotApplicable (obligationId : String) : List ObligationViolation × List String :=
  match obligationSeverity index obligationId with
  | some "red_line" =>
    ([⟨obligationId, "red_line_obligation_not_applicable",
      "red_line obligation " ++ obligationId ++ " declared not_applicable"⟩], [])
  | some _ => ([], [])
  | none => ([], ["obligation_severity_unresolved: " ++ obligationId ++ " not_applicable but no " ++
      "ObligationCaptured found in index — cannot enforce red_line rule"])

def checkMaintained (obligationId : String) : List ObligationViolation × List String :=
  match obligationForbiddenPattern index obligationId with
  | none => ([], [])
  | some (pattern, patternType) =>
    match matchForbiddenPattern env pattern patternType matchContent with
    | .found =>
      ([⟨obligationId, "forbidden_pattern_matched",
        "obligation " ++ obligationId ++ " declared maintained but its forbidden_pattern " ++
          "(" ++ patternType ++ ":" ++ env.repr pattern ++
          ") physically matched the envelope content (§3.4.2)"⟩], [])
    | .uncheckable =>
      ([], ["obligation_forbidden_pattern_uncheckable: " ++ obligationId ++ " pattern_type=" ++
        patternType ++ " cannot be physically matched (ast/ malformed) → §3.4.2 audit-sampling path " ++
        "(daemon continuous sweep is daemon-gated debt, legit-future)"])
    | .noMatch => ([], [])

def checkDeclaration (declaration : String × Json) : List ObligationViolation × List String :=
  match declaration.2 with
  | .str "violated" =>
    ([⟨declaration.1, "self_reported_violation",
      "declaration self-reports obligation " ++ declaration.1 ++ " as violated"⟩], [])
  | .str "not_applicable" => checkNotApplicable index declaration.1
  | .str "maintained" => checkMaintained env index matchContent declaration.1
  | _ => ([], [])

/-- `_injected_obligation_ids`, with the repetitions a set drops. -/
def injectedObligationIds (capsuleCompiledEventId : String) : List String :=
  ((index.byCausation.lookup capsuleCompiledEventId).filter fun record =>
    record.eventType = .obligationActivated).filterMap fun record =>
      Json.nonBlank record.payload.entries "obligation_id"

def silentlyOmitted (obligationId : String) : ObligationViolation :=
  ⟨obligationId, "obligation_silently_omitted",
    "capsule injected obligation " ++ obligationId ++ " but the envelope's " ++
      "active_obligations_declared does not cover it (§3.4.1 silent omission)"⟩

def coverageGap (capsuleCompiledEventId : String) (declared : Nat) : Option (Int × Int) := do
  let capsule ← Dict.get index.byEventId capsuleCompiledEventId
  let count ← Json.asInt (Json.lookup (capsule.payload.getD "capsule_sections_summary" .null).asDict
    "obligation_count")
  if (declared : Int) < count then some (count - declared, count) else none

def checkObligations (capsuleCompiledEventId : String) (activeObligationsDeclared : List Json) :
    ObligationCheckResult :=
  let declarations := activeObligationsDeclared.filterMap obligationDeclaration
  let declaredIds := (declarations.map Prod.fst).dedup
  let outcomes := declarations.map (checkDeclaration env index matchContent)
  let injected := injectedObligationIds index capsuleCompiledEventId
  let omitted := (sortedTexts injected).filter (· ∉ declaredIds)
  let violations := outcomes.flatMap Prod.fst ++ omitted.map silentlyOmitted
  let gap := if injected = [] then coverageGap index capsuleCompiledEventId declaredIds.length else none
  { passed := violations.isEmpty
    violations
    notices := outcomes.flatMap Prod.snd ++ gap.toList.map fun (_, count) =>
      "obligation_coverage_gap: declared " ++ toString declaredIds.length ++ " < capsule injected " ++
        toString count ++ " (count floor; precise injected set unavailable — no " ++
        "causation-linked ObligationActivated, e.g. stub capsule)"
    coverageGapCount := gap.map Prod.fst }

end

/-! ### The tool that evolves an obligation -/

structure ObligationEvolvedBeforeAfter where
  scopeRule : String
  severity : ObligationSeverity
  definition : String

def ObligationEvolvedBeforeAfter.toJson (state : ObligationEvolvedBeforeAfter) : Json :=
  .obj [("scope_rule", .str state.scopeRule), ("severity", .str state.severity.value),
    ("definition", .str state.definition)]

inductive PatchNoveltyType where
  | newConstraint | newEvidence | newResolution | scopeChange | natureOverride
deriving DecidableEq, Repr

def PatchNoveltyType.value : PatchNoveltyType → String
  | .newConstraint => "new_constraint"
  | .newEvidence => "new_evidence"
  | .newResolution => "new_resolution"
  | .scopeChange => "scope_change"
  | .natureOverride => "nature_override"

/-- `_PATCH_TO_SUPERSEDE_NOVELTY`. -/
def PatchNoveltyType.supersede : PatchNoveltyType → SupersedeNoveltyType
  | .newConstraint => .scopeChange
  | .newEvidence => .newEvidence
  | .newResolution => .correctedError
  | .scopeChange => .scopeChange
  | .natureOverride => .natureOverride

def substantive (text : Option String) : Option String :=
  (text.map fun text => String.ofList (Library.strip text.toList)).filter (· ≠ "")

/-- `ObligationEvolvedNovelty`; a block that passes its validator has `no_new_information` false. -/
structure ObligationEvolvedNovelty where
  noveltyType : PatchNoveltyType
  newConstraint : Option String := none
  newEvidence : Option String := none
  newResolution : Option String := none
  scopeChange : Option Payload := none
  natureOverride : Option Payload := none
  substantial : ([newConstraint, newEvidence, newResolution].any fun text => (substantive text).isSome) ∨
    scopeChange.isSome ∨ natureOverride.isSome

def optionalObject : Option Payload → Json
  | some object => .obj object.entries
  | none => .null

def ObligationEvolvedNovelty.toJson (novelty : ObligationEvolvedNovelty) : Json :=
  .obj [("novelty_type", .str novelty.noveltyType.value), ("no_new_information", .bool false),
    ("new_constraint", optionalText novelty.newConstraint),
    ("new_evidence", optionalText novelty.newEvidence),
    ("new_resolution", optionalText novelty.newResolution),
    ("scope_change", optionalObject novelty.scopeChange),
    ("nature_override", optionalObject novelty.natureOverride)]

/-- A call of `evolve_obligation`, with the session it draws. -/
structure EvolveRequest where
  novelty : ObligationEvolvedNovelty
  evolvedByActorId : NonEmpty
  sessionId : String
  newDefinition : Option String := none
  newScopeRule : Option String := none
  newSeverity : Option ObligationSeverity := none
  supersedeReason : Option String := none

section

variable (env : GateEnv)

/-- What an event says the obligation is; `none` when the severity raises. -/
def definitionOf (fields : Dict String Json) : Option ObligationEvolvedBeforeAfter := do
  let severity ← ((Dict.get fields "severity").getD (.str "normal")).text?.bind StrEnum.ofValue
  return { severity
           scopeRule := env.str ((Dict.get fields "scope_rule").getD (.str ""))
           definition := env.str ((Dict.get fields "definition").getD (.str "")) }

def definingFields (obligationId : String) (record : EventRecord) : Option (Dict String Json) :=
  if record.payload.get "obligation_id" = some (.str obligationId) then
    if record.eventType = .obligationEvolved then
      match record.payload.get "after_state" with
      | some (.obj after) => some after
      | _ => none
    else some record.payload.entries
  else none

/-- A turn of a loop of `_current_obligation_definition`: the event, what it says and its number. -/
def latestDefinition (obligationId : String)
    (best : Option (String × ObligationEvolvedBeforeAfter × Nat)) (record : EventRecord) :
    Option (Option (String × ObligationEvolvedBeforeAfter × Nat)) :=
  match definingFields obligationId record with
  | none => some best
  | some fields =>
    if best.any (record.sequenceNumber ≤ ·.2.2) then some best
    else (definitionOf env fields).map fun state =>
      some (record.eventId.val, state, record.sequenceNumber)

def definingLoops (log : CommittedLog) (obligationId : String) :
    Option (Option (String × ObligationEvolvedBeforeAfter × Nat)) := do
  let best ← (log.getEventsByType .obligationCaptured).foldlM (latestDefinition env obligationId) none
  (log.getEventsByType .obligationEvolved).foldlM (latestDefinition env obligationId) best

/-- `_current_obligation_definition`; `none` when it raises. -/
def currentObligationDefinition (log : CommittedLog) (obligationId : String) :
    Option (String × ObligationEvolvedBeforeAfter) :=
  (definingLoops env log obligationId).join.map fun best => (best.1, best.2.1)

def noveltyText (novelty : ObligationEvolvedNovelty) : String :=
  match [novelty.newConstraint, novelty.newEvidence, novelty.newResolution].findSome? substantive with
  | some text => text
  | none =>
    match novelty.scopeChange, novelty.natureOverride with
    | some change, _ => "scope_change: " ++ env.str (.obj change.entries)
    | none, some override => "nature_override: " ++ env.str (.obj override.entries)
    | none, none => "evolve novelty (" ++ novelty.noveltyType.value ++ ")"

def EvolveRequest.apply (request : EvolveRequest) (before : ObligationEvolvedBeforeAfter) :
    ObligationEvolvedBeforeAfter where
  scopeRule := request.newScopeRule.getD before.scopeRule
  severity := request.newSeverity.getD before.severity
  definition := request.newDefinition.getD before.definition

/-- The dump of an `ObligationEvolvedPayload`. -/
def obligationEvolvedPayload (obligationId : NonEmpty) (before after : ObligationEvolvedBeforeAfter)
    (novelty : ObligationEvolvedNovelty) : Payload :=
  ⟨[("obligation_id", .str obligationId.val), ("obligation_lifecycle_state", .str "evolved"),
    ("before_state", before.toJson), ("after_state", after.toJson), ("novelty", novelty.toJson)], by
    have hobject : ∀ object, (optionalObject object).proper = true := by
      intro object
      cases object with
      | none => rfl
      | some object => exact object.property
    simp [Json.proper, Json.properEntries, Dict.keys, ObligationEvolvedBeforeAfter.toJson,
      ObligationEvolvedNovelty.toJson, proper_optionalText, hobject]⟩

/-- The intent that `evolve_obligation` submits; `none` when it raises. -/
def evolveObligation (log : CommittedLog) (obligationId : NonEmpty) (request : EvolveRequest)
    (draw : Draw) : Option EventIntent := do
  let (supersededEventId, before) ← currentObligationDefinition env log obligationId.val
  return {
    localIntentId := draw.localIntentId
    eventType := .obligationEvolved
    eventCategory := .obligation
    payload := obligationEvolvedPayload obligationId before (request.apply before) request.novelty
    provenanceHint :=
      { actorType := ⟨"system", by decide⟩
        actorId := request.evolvedByActorId
        sessionId := some request.sessionId
        boundary := rfl }
    baseClassification := .immutableTruth
    supersede := .supersedes supersededEventId
      ((substantive request.supersedeReason).getD (noveltyText env request.novelty))
      request.novelty.noveltyType.supersede
    subjects := ⟨[⟨.obligation, obligationId, .primary⟩], by simp⟩
    schemaVersion := SchemaVersion.current }

end

/-! ### Histories of an obligation -/

/-- The event defines the obligation, for the gate or for the tool. -/
def Defines (obligationId : String) (record : EventRecord) : Prop :=
  record.eventType ∈ definingEvents ∧
    (obligationId ∈ obligationKeys record ∨
      record.payload.get "obligation_id" = some (.str obligationId))

instance (obligationId : String) (record : EventRecord) : Decidable (Defines obligationId record) :=
  inferInstanceAs (Decidable (_ ∧ (_ ∨ _)))

inductive HistoryAction where
  /-- Any event that does not define the obligation. -/
  | other (record : EventRecord)
  | evolve (request : EvolveRequest) (draw : Draw) (batch : Option BatchSlot)

def HistoryAction.evolution : HistoryAction → Option EvolveRequest
  | .other _ => none
  | .evolve request _ _ => some request

def historyStep (env : GateEnv) (obligationId : NonEmpty) (log : CommittedLog) :
    HistoryAction → Option CommittedLog
  | .other record =>
    if Defines obligationId.val record then none else log.append env.toWriterEnv [record]
  | .evolve request draw batch => do
    let intent ← evolveObligation env log obligationId request draw
    log.append env.toWriterEnv
      [stamp env.toWriterEnv intent draw.eventId draw.timestamp log.nextSequence batch]

/-- The log has one event that defines the obligation, a capture with the fields its schema asks for. -/
structure CapturedBy (log : CommittedLog) (obligationId : String) (capture : EventRecord)
    (severity : ObligationSeverity) : Prop where
  only : log.records.filter (Defines obligationId) = [capture]
  eventType : capture.eventType = .obligationCaptured
  subject : obligationId ∈ obligationKeys capture
  named : capture.payload.get "obligation_id" = some (.str obligationId)
  severity : capture.payload.get "severity" = some (.str severity.value)

/-- The gate reads the severity of the current definition and the pattern of the capture. -/
structure EnforcesCurrent (env : GateEnv) (log : CommittedLog) (obligationId : String)
    (capture : EventRecord) : Prop where
  severity : obligationSeverity (EventIndex.build log.records) obligationId =
    (currentObligationDefinition env log obligationId).map fun current => current.2.severity.value
  pattern : obligationForbiddenPattern (EventIndex.build log.records) obligationId =
    payloadPattern capture.payload

def evolvedSeverity (captured : ObligationSeverity) (evolutions : List EvolveRequest) :
    ObligationSeverity :=
  ((evolutions.filterMap EvolveRequest.newSeverity).getLast?).getD captured

/-! ### The latest event of an increasing log -/

section

variable {β : Type} {read : EventRecord → Option β} {records : List EventRecord}

theorem latest_idem (read : EventRecord → Option β) (best : Option (β × Nat)) (record : EventRecord) :
    latest read (latest read best record) record = latest read best record := by
  unfold latest
  cases hread : read record with
  | none => rfl
  | some value =>
    cases best with
    | none => simp
    | some entry =>
      by_cases hbelow : entry.2 < record.sequenceNumber
      · simp [hbelow]
      · simp [hbelow]

theorem foldl_byObligation {σ : Type} {step : σ → EventRecord → σ}
    (hidem : ∀ state record, step (step state record) record = step state record)
    (records : List EventRecord) (obligationId : String) (state : σ) :
    ((EventIndex.build records).byObligation.lookup obligationId).foldl step state =
      (records.filter (obligationId ∈ obligationKeys ·)).foldl step state := by
  have hcopies : ∀ (keys : List String) (record : EventRecord) (state : σ), keys ≠ [] →
      (keys.map fun _ => record).foldl step state = step state record := by
    intro keys record
    induction keys with
    | nil => exact fun _ h => absurd rfl h
    | cons key keys ih =>
      intro state _
      rw [List.map_cons, List.foldl_cons]
      by_cases hkeys : keys = []
      · rw [hkeys]
        rfl
      · rw [ih _ hkeys, hidem]
  rw [EventIndex.lookup_byObligation_build]
  induction records generalizing state with
  | nil => rfl
  | cons record records ih =>
    rw [List.flatMap_cons, List.foldl_append, ih]
    by_cases hfiled : obligationId ∈ obligationKeys record
    · rw [List.filter_cons_of_pos (by simpa using hfiled), List.foldl_cons, hcopies]
      exact List.ne_nil_of_mem (List.mem_filter.mpr ⟨hfiled, by simp⟩)
    · have hnone : (obligationKeys record).filter (· = obligationId) = [] := by
        apply List.filter_eq_nil_iff.mpr
        intro key hkey
        simp only [decide_eq_true_eq]
        rintro rfl
        exact hfiled hkey
      rw [List.filter_cons_of_neg (by simpa using hfiled), hnone]
      rfl

theorem foldl_latest (hincreasing : (records.map EventRecord.sequenceNumber).Pairwise (· < ·)) :
    (records.foldl (latest read) none).map Prod.fst = (records.filterMap read).getLast? ∧
      ∀ best ∈ records.foldl (latest read) none, ∃ record ∈ records, record.sequenceNumber = best.2 := by
  induction records using List.reverseRecOn with
  | nil => exact ⟨rfl, fun best hbest => by cases hbest⟩
  | append_singleton records record ih =>
    rw [List.map_append, List.pairwise_append] at hincreasing
    obtain ⟨hvalue, hnumber⟩ := ih hincreasing.1
    have hbelow : ∀ other ∈ records, other.sequenceNumber < record.sequenceNumber := fun other hother =>
      hincreasing.2.2 _ (List.mem_map_of_mem hother) _ (by simp)
    rw [List.foldl_append, List.foldl_cons, List.filterMap_append]
    generalize records.foldl (latest read) none = best at hvalue hnumber ⊢
    cases hread : read record with
    | none =>
      have hkept : latest read best record = best := by
        unfold latest
        rw [hread]
      rw [List.filterMap_cons_none hread, List.filterMap_nil, List.append_nil, hkept]
      refine ⟨hvalue, fun entry hentry => ?_⟩
      obtain ⟨other, hother, hsame⟩ := hnumber entry hentry
      exact ⟨other, List.mem_append_left _ hother, hsame⟩
    | some value =>
      have htaken : latest read best record = some (value, record.sequenceNumber) := by
        unfold latest
        rw [hread]
        cases best with
        | none => rfl
        | some entry =>
          obtain ⟨other, hother, hsame⟩ := hnumber entry rfl
          have := hbelow other hother
          exact if_pos (hsame ▸ this)
      rw [List.filterMap_cons_some hread, List.filterMap_nil, List.getLast?_concat, htaken]
      refine ⟨rfl, fun entry hentry => ?_⟩
      cases hentry
      exact ⟨record, by simp, rfl⟩

end

section

variable {env : GateEnv} {log next : CommittedLog} {obligationId : String} {record : EventRecord}

theorem obligationSeverity_eq (log : CommittedLog) (obligationId : String) :
    obligationSeverity (EventIndex.build log.records) obligationId =
      ((log.records.filter (obligationId ∈ obligationKeys ·)).filterMap declaredSeverity).getLast? := by
  unfold obligationSeverity
  rw [foldl_byObligation (latest_idem declaredSeverity)]
  exact (foldl_latest (log.increasing.sublist (List.filter_sublist.map _))).1

theorem obligationForbiddenPattern_eq (log : CommittedLog) (obligationId : String) :
    obligationForbiddenPattern (EventIndex.build log.records) obligationId =
      (((log.records.filter (obligationId ∈ obligationKeys ·)).filterMap declaredPattern).getLast?).join := by
  unfold obligationForbiddenPattern
  rw [foldl_byObligation (latest_idem declaredPattern)]
  rw [(foldl_latest (log.increasing.sublist (List.filter_sublist.map _))).1]

theorem filterMap_defining {β : Type} {read : EventRecord → Option β}
    (hread : ∀ record, (read record).isSome = true → record.eventType ∈ definingEvents)
    (records : List EventRecord) (obligationId : String) :
    (records.filter (obligationId ∈ obligationKeys ·)).filterMap read =
      ((records.filter (Defines obligationId)).filter (obligationId ∈ obligationKeys ·)).filterMap read := by
  rw [List.filter_filter]
  induction records with
  | nil => rfl
  | cons record records ih =>
    by_cases hfiled : obligationId ∈ obligationKeys record
    · by_cases htype : record.eventType ∈ definingEvents
      · have hdefines : Defines obligationId record := ⟨htype, .inl hfiled⟩
        rw [List.filter_cons_of_pos (by simpa using hfiled),
          List.filter_cons_of_pos (by simp [hfiled, hdefines]), List.filterMap_cons, List.filterMap_cons, ih]
      · have hnone : read record = none := by
          by_contra hsome
          exact htype (hread record (Option.isSome_iff_ne_none.mpr hsome))
        have hdefines : ¬Defines obligationId record := fun h => htype h.1
        rw [List.filter_cons_of_pos (by simpa using hfiled), List.filterMap_cons_none hnone,
          List.filter_cons_of_neg (by simp [hdefines]), ih]
    · rw [List.filter_cons_of_neg (by simpa using hfiled), List.filter_cons_of_neg (by simp [hfiled]), ih]

theorem foldlM_latestDefinition (env : GateEnv) (obligationId : String) {records : List EventRecord}
    (htype : ∀ record ∈ records, record.eventType ∈ definingEvents)
    (best : Option (String × ObligationEvolvedBeforeAfter × Nat)) :
    records.foldlM (latestDefinition env obligationId) best =
      (records.filter (Defines obligationId)).foldlM (latestDefinition env obligationId) best := by
  induction records generalizing best with
  | nil => rfl
  | cons record records ih =>
    have hrest := ih fun other hother => htype other (List.mem_cons_of_mem _ hother)
    by_cases hdefines : Defines obligationId record
    · rw [List.filter_cons_of_pos (by simpa using hdefines), List.foldlM_cons, List.foldlM_cons]
      apply bind_congr
      intro state
      exact hrest state
    · have hskipped : latestDefinition env obligationId best record = some best := by
        have hnone : definingFields obligationId record = none :=
          if_neg fun hnamed => hdefines ⟨htype record List.mem_cons_self, .inr hnamed⟩
        unfold latestDefinition
        rw [hnone]
      rw [List.filter_cons_of_neg (by simpa using hdefines), List.foldlM_cons, hskipped]
      exact hrest best

theorem definingLoops_eq (env : GateEnv) (log : CommittedLog) (obligationId : String) :
    definingLoops env log obligationId =
      (((log.records.filter (Defines obligationId)).filter
        (·.eventType = .obligationCaptured)).foldlM (latestDefinition env obligationId) none).bind
          fun best => ((log.records.filter (Defines obligationId)).filter
            (·.eventType = .obligationEvolved)).foldlM (latestDefinition env obligationId) best := by
  have hloop : ∀ eventType ∈ definingEvents, ∀ best,
      (log.getEventsByType eventType).foldlM (latestDefinition env obligationId) best =
        ((log.records.filter (Defines obligationId)).filter (·.eventType = eventType)).foldlM
          (latestDefinition env obligationId) best := by
    intro eventType hmem best
    unfold CommittedLog.getEventsByType
    rw [foldlM_latestDefinition env obligationId, List.filter_comm]
    · simp only [beq_eq_decide]
    · intro record hrecord
      rw [beq_iff_eq.mp (List.mem_filter.mp hrecord).2]
      exact hmem
  unfold definingLoops
  rw [hloop _ (by decide)]
  apply Option.bind_congr
  intro best _
  exact hloop _ (by decide) best

/-! ### One step of a history -/

theorem append_singleton_records (h : log.append env.toWriterEnv [record] = some next) :
    next.records = log.records ++ [reseq env.toWriterEnv record log.nextSequence] ∧
      next.nextSequence = log.nextSequence + 1 := by
  have hrecords := CommittedLog.append_records h
  rw [reseqFrom, reseqFrom] at hrecords
  refine ⟨hrecords, ?_⟩
  have hnumber : (reseq env.toWriterEnv record log.nextSequence).sequenceNumber = log.nextSequence := by
    unfold reseq
    split
    · assumption
    · rfl
  have hnext : next.nextSequence =
      (reseq env.toWriterEnv record log.nextSequence).sequenceNumber + 1 := by
    rw [CommittedLog.nextSequence, hrecords, List.getLast?_concat]
    rfl
  rw [hnext, hnumber]

structure EvolvedRecord (obligationId : NonEmpty) (after : ObligationEvolvedBeforeAfter)
    (record : EventRecord) : Prop where
  eventType : record.eventType = .obligationEvolved
  subject : obligationKeys record = [obligationId.val]
  named : record.payload.get "obligation_id" = some (.str obligationId.val)
  state : record.payload.get "after_state" = some after.toJson
  noSeverity : (record.payload.getD "severity" .null).text? = none
  noPattern : payloadPattern record.payload = none

theorem evolvedRecord_stamp {id : NonEmpty}
    (hcurrent : currentObligationDefinition env log id.val = some (superseded, before))
    (h : evolveObligation env log id request draw = some intent) (sequenceNumber : Nat)
    (batch : Option BatchSlot) :
    EvolvedRecord id (request.apply before)
      (stamp env.toWriterEnv intent draw.eventId draw.timestamp sequenceNumber batch) := by
  unfold evolveObligation at h
  rw [hcurrent] at h
  cases h
  exact ⟨rfl, rfl, rfl, rfl, rfl, rfl⟩

theorem EvolvedRecord.defines {id : NonEmpty} (h : EvolvedRecord id after record) :
    Defines id.val record := by
  refine ⟨?_, .inl ?_⟩
  · rw [h.eventType]
    decide
  · rw [h.subject]
    exact List.mem_singleton_self _

theorem definitionOf_toJson (env : GateEnv) (state : ObligationEvolvedBeforeAfter) :
    definitionOf env state.toJson.asDict = some state := by
  have hseverity : (StrEnum.ofValue state.severity.value : Option ObligationSeverity) =
      some state.severity := StrEnum.ofValue_value state.severity
  have hfield : Dict.get state.toJson.asDict "severity" = some (.str state.severity.value) := rfl
  have hscope : Dict.get state.toJson.asDict "scope_rule" = some (.str state.scopeRule) := rfl
  have htext : Dict.get state.toJson.asDict "definition" = some (.str state.definition) := rfl
  simp [definitionOf, hfield, hscope, htext, Json.text?, hseverity, env.str_text]

/-- What the readers have after a capture and some evolutions. -/
structure Traced (env : GateEnv) (log : CommittedLog) (obligationId : String) (capture : EventRecord)
    (severity : ObligationSeverity) (evolutions : List EvolveRequest) : Prop where
  severities : ((log.records.filter (Defines obligationId)).filter
    (obligationId ∈ obligationKeys ·)).filterMap declaredSeverity = [severity.value]
  pattern : (((log.records.filter (Defines obligationId)).filter
    (obligationId ∈ obligationKeys ·)).filterMap declaredPattern).getLast? =
      some (if evolutions = [] then payloadPattern capture.payload else none)
  current : ∃ eventId state number, definingLoops env log obligationId = some (some (eventId, state, number)) ∧
    state.severity = evolvedSeverity severity evolutions ∧ number < log.nextSequence

variable {capture : EventRecord} {severity : ObligationSeverity} {evolutions : List EvolveRequest}

theorem CapturedBy.traced (env : GateEnv) (h : CapturedBy log obligationId capture severity) :
    Traced env log obligationId capture severity [] := by
  have htype : capture.eventType ∈ definingEvents := by
    rw [h.eventType]
    decide
  have hfiled : [capture].filter (obligationId ∈ obligationKeys ·) = [capture] :=
    List.filter_cons_of_pos (by simpa using h.subject)
  refine ⟨?_, ?_, ?_⟩
  · have hseverity : declaredSeverity capture = some severity.value := by
      unfold declaredSeverity Payload.getD
      rw [if_pos htype, h.severity]
      rfl
    rw [h.only, hfiled, List.filterMap_cons_some hseverity, List.filterMap_nil]
  · have hpattern : declaredPattern capture = some (payloadPattern capture.payload) := if_pos htype
    rw [h.only, hfiled, List.filterMap_cons_some hpattern, if_pos rfl]
    rfl
  · have hfields : definingFields obligationId capture = some capture.payload.entries := by
      unfold definingFields
      rw [if_pos h.named, h.eventType]
      rfl
    have hstate : ∃ state, definitionOf env capture.payload.entries = some state ∧
        state.severity = severity := by
      have hget : Dict.get capture.payload.entries "severity" = some (.str severity.value) := h.severity
      have hvalue : (StrEnum.ofValue severity.value : Option ObligationSeverity) = some severity :=
        StrEnum.ofValue_value severity
      refine ⟨⟨env.str ((Dict.get capture.payload.entries "scope_rule").getD (.str "")), severity,
        env.str ((Dict.get capture.payload.entries "definition").getD (.str ""))⟩, ?_, rfl⟩
      simp [definitionOf, hget, Json.text?, hvalue]
    obtain ⟨state, hstate, hseverity⟩ := hstate
    have hmem : capture ∈ log.records := by
      have hin : capture ∈ log.records.filter (Defines obligationId) := by
        rw [h.only]
        exact List.mem_singleton_self _
      exact (List.mem_filter.mp hin).1
    refine ⟨capture.eventId.val, state, capture.sequenceNumber, ?_, hseverity,
      CommittedLog.sequenceNumber_lt_next hmem⟩
    rw [definingLoops_eq, h.only, List.filter_cons_of_pos (by simpa using h.eventType), List.filter_nil,
      List.filter_cons_of_neg (by simp [h.eventType]), List.filter_nil]
    simp [latestDefinition, hfields, hstate]

theorem defines_reseq (env : GateEnv) (record : EventRecord) (newSeq : Nat) (obligationId : String) :
    Defines obligationId (reseq env.toWriterEnv record newSeq) ↔ Defines obligationId record := by
  obtain ⟨recordHash, heq⟩ := reseq_eq env.toWriterEnv record newSeq
  rw [heq]
  exact Iff.rfl

theorem Traced.other (h : Traced env log obligationId capture severity evolutions)
    (hother : ¬Defines obligationId record) (hnext : log.append env.toWriterEnv [record] = some next) :
    Traced env next obligationId capture severity evolutions := by
  obtain ⟨hrecords, hnumber⟩ := append_singleton_records hnext
  have hsame : next.records.filter (Defines obligationId) = log.records.filter (Defines obligationId) := by
    rw [hrecords, List.filter_append, List.filter_cons_of_neg (by simpa [defines_reseq] using hother),
      List.filter_nil, List.append_nil]
  obtain ⟨eventId, state, number, hloops, hseverity, hbelow⟩ := h.current
  refine ⟨?_, ?_, eventId, state, number, ?_, hseverity, ?_⟩
  · rw [hsame]
    exact h.severities
  · rw [hsame]
    exact h.pattern
  · rw [definingLoops_eq, hsame, ← definingLoops_eq]
    exact hloops
  · omega

theorem evolvedSeverity_snoc (captured : ObligationSeverity) (evolutions : List EvolveRequest)
    (request : EvolveRequest) :
    evolvedSeverity captured (evolutions ++ [request]) =
      request.newSeverity.getD (evolvedSeverity captured evolutions) := by
  unfold evolvedSeverity
  cases hnew : request.newSeverity with
  | none => simp [hnew]
  | some severity => simp [hnew]

theorem Traced.evolve {id : NonEmpty} (h : Traced env log id.val capture severity evolutions)
    (hintent : evolveObligation env log id request draw = some intent)
    (hnext : log.append env.toWriterEnv [stamp env.toWriterEnv intent draw.eventId draw.timestamp
      log.nextSequence batch] = some next) :
    Traced env next id.val capture severity (evolutions ++ [request]) := by
  obtain ⟨hrecords, hnumber⟩ := append_singleton_records hnext
  obtain ⟨eventId, state, number, hloops, hseverity, hbelow⟩ := h.current
  have hcurrent : currentObligationDefinition env log id.val = some (eventId, state) := by
    unfold currentObligationDefinition
    rw [hloops]
    rfl
  have hrecord := evolvedRecord_stamp hcurrent hintent log.nextSequence batch
  have hkept : reseq env.toWriterEnv (stamp env.toWriterEnv intent draw.eventId draw.timestamp
      log.nextSequence batch) log.nextSequence = stamp env.toWriterEnv intent draw.eventId draw.timestamp
        log.nextSequence batch := if_pos rfl
  have hseq : (stamp env.toWriterEnv intent draw.eventId draw.timestamp log.nextSequence
      batch).sequenceNumber = log.nextSequence := rfl
  rw [hkept] at hrecords
  generalize stamp env.toWriterEnv intent draw.eventId draw.timestamp log.nextSequence batch = stamped
    at hrecord hseq hrecords
  have hdefines : next.records.filter (Defines id.val) =
      log.records.filter (Defines id.val) ++ [stamped] := by
    rw [hrecords, List.filter_append, List.filter_cons_of_pos (by simpa using hrecord.defines),
      List.filter_nil]
  have hfiled : [stamped].filter (id.val ∈ obligationKeys ·) = [stamped] :=
    List.filter_cons_of_pos (by simp [hrecord.subject])
  have htype : stamped.eventType ∈ definingEvents := by
    rw [hrecord.eventType]
    decide
  refine ⟨?_, ?_, stamped.eventId.val, request.apply state, stamped.sequenceNumber, ?_, ?_, ?_⟩
  · have hnone : declaredSeverity stamped = none := by
      unfold declaredSeverity
      rw [if_pos htype, hrecord.noSeverity]
    rw [hdefines, List.filter_append, hfiled, List.filterMap_append, List.filterMap_cons_none hnone,
      List.filterMap_nil, List.append_nil]
    exact h.severities
  · have hpattern : declaredPattern stamped = some none := by
      unfold declaredPattern
      rw [if_pos htype, hrecord.noPattern]
    rw [hdefines, List.filter_append, hfiled, List.filterMap_append, List.filterMap_cons_some hpattern,
      List.filterMap_nil, List.getLast?_concat, if_neg (by simp)]
  · have hfields : definingFields id.val stamped = some (request.apply state).toJson.asDict := by
      unfold definingFields
      rw [if_pos hrecord.named, if_pos hrecord.eventType, hrecord.state]
      rfl
    have hlater : ¬stamped.sequenceNumber ≤ number := by omega
    rw [definingLoops_eq] at hloops
    rw [definingLoops_eq, hdefines, List.filter_append, List.filter_append,
      List.filter_cons_of_neg (by simp [hrecord.eventType]), List.filter_nil, List.append_nil,
      List.filter_cons_of_pos (by simp [hrecord.eventType]), List.filter_nil]
    obtain ⟨best, hbest, hlast⟩ := Option.bind_eq_some_iff.mp hloops
    rw [hbest, Option.bind_some, List.foldlM_append, hlast]
    simp [latestDefinition, hfields, definitionOf_toJson, hlater]
  · rw [evolvedSeverity_snoc, ← hseverity]
    rfl
  · omega

/-- A run of one capture and any evolutions leaves the readers with the captured severity, a pattern
only before the first evolution, and the definition of the last. -/
theorem traced_run {id : NonEmpty} (hstart : CapturedBy start id.val capture severity)
    (hrun : Run (historyStep env id) (fun _ _ => True) start actions log) :
    Traced env log id.val capture severity (actions.filterMap HistoryAction.evolution) := by
  induction hrun with
  | nil => exact hstart.traced env
  | @snoc actions state next action hbefore hguard hstep ih =>
    rw [List.filterMap_append]
    cases action with
    | other record =>
      unfold historyStep at hstep
      dsimp only at hstep
      split at hstep
      · cases hstep
      next hother =>
        rw [List.filterMap_cons_none rfl, List.filterMap_nil, List.append_nil]
        exact ih.other hother hstep
    | evolve request draw batch =>
      obtain ⟨intent, hintent, happend⟩ := Option.bind_eq_some_iff.mp hstep
      exact ih.evolve hintent happend

/-- In a history of one capture and any evolutions the gate enforces the current definition just when
nothing evolved, or no pattern was captured and the severity is the captured one again. -/
theorem enforcesCurrent_iff {id : NonEmpty} {start : CommittedLog} {actions : List HistoryAction}
    (hstart : CapturedBy start id.val capture severity)
    (hrun : Run (historyStep env id) (fun _ _ => True) start actions log) :
    EnforcesCurrent env log id.val capture ↔
      actions.filterMap HistoryAction.evolution = [] ∨
        (payloadPattern capture.payload = none ∧
          evolvedSeverity severity (actions.filterMap HistoryAction.evolution) = severity) := by
  have htraced := traced_run hstart hrun
  generalize actions.filterMap HistoryAction.evolution = evolutions at htraced
  obtain ⟨eventId, state, number, hloops, hseverity, -⟩ := htraced.current
  have hcurrent : currentObligationDefinition env log id.val = some (eventId, state) := by
    unfold currentObligationDefinition
    rw [hloops]
    rfl
  have hgate : obligationSeverity (EventIndex.build log.records) id.val = some severity.value := by
    rw [obligationSeverity_eq, filterMap_defining (by
      intro record hread
      unfold declaredSeverity at hread
      split at hread
      · assumption
      · cases hread), htraced.severities]
    rfl
  have hpattern : obligationForbiddenPattern (EventIndex.build log.records) id.val =
      if evolutions = [] then payloadPattern capture.payload else none := by
    rw [obligationForbiddenPattern_eq, filterMap_defining (by
      intro record hread
      unfold declaredPattern at hread
      split at hread
      · assumption
      · cases hread), htraced.pattern]
    rfl
  have hvalue : some severity.value = some state.severity.value ↔
      evolvedSeverity severity evolutions = severity := by
    rw [← hseverity, Option.some_inj]
    constructor
    · intro h
      exact (StrEnum.value_inj h).symm
    · intro h
      rw [h]
  constructor
  · intro h
    have hsame := h.severity
    have hkept := h.pattern
    rw [hgate, hcurrent, Option.map_some, hvalue] at hsame
    rw [hpattern] at hkept
    by_cases hnone : evolutions = []
    · exact Or.inl hnone
    · rw [if_neg hnone] at hkept
      exact Or.inr ⟨hkept.symm, hsame⟩
  · intro h
    rcases h with hnone | ⟨hfree, hsame⟩
    · refine ⟨?_, ?_⟩
      · rw [hgate, hcurrent, Option.map_some, hvalue, hnone]
        rfl
      · rw [hpattern, if_pos hnone]
    · refine ⟨?_, ?_⟩
      · rw [hgate, hcurrent, Option.map_some, hvalue]
        exact hsame
      · rw [hpattern, hfree, ite_self]

end

/-! ### An obligation that becomes a red line -/

def plainMatchEnv : MatchEnv where
  search _ _ := none
  repr text := text

def patternCapture : EventRecord :=
  stamp sampleGateEnv.toWriterEnv
    { sampleIntent with
      eventType := .obligationCaptured, eventCategory := .obligation
      payload := ⟨[("obligation_id", .str "o-1"), ("severity", .str "normal"),
        ("forbidden_pattern", .str "TODO")], by decide⟩
      subjects := ⟨[⟨.obligation, ⟨"o-1", by decide⟩, .primary⟩], by decide⟩ }
    (sampleDraw 0).eventId sampleTime 0 none

def patternLog : CommittedLog where
  records := [patternCapture]
  increasing := List.pairwise_singleton _ _
  distinct := List.nodup_singleton _

def toRedLine : EvolveRequest where
  novelty := { noveltyType := .newConstraint, newConstraint := some "never", substantial := by decide }
  evolvedByActorId := ⟨"nature", by decide⟩
  sessionId := "sess-1"
  newSeverity := some .redLine

def evolvedLog : Option CommittedLog :=
  historyStep sampleGateEnv ⟨"o-1", by decide⟩ patternLog (.evolve toRedLine (sampleDraw 1) none)

def declares (status : String) : Json := .obj [("obligation_id", .str "o-1"), ("status", .str status)]

def passesDeclaring (log : CommittedLog) (status : String) : Bool :=
  (checkObligations plainMatchEnv (EventIndex.build log.records) "TODO" "evt-c" [declares status]).passed

/-- After the evolution the obligation is a red line, and yet it may be declared not applicable; its
pattern was matched before and is not any more. -/
theorem evolved_obligation_unenforced :
    (evolvedLog.map fun log =>
      ((currentObligationDefinition sampleGateEnv log "o-1").map (·.2.severity),
        obligationSeverity (EventIndex.build log.records) "o-1", passesDeclaring log "not_applicable",
        passesDeclaring log "maintained")) = some (some .redLine, some "normal", true, true) ∧
      passesDeclaring patternLog "maintained" = false :=
  ⟨by decide +kernel, by decide +kernel⟩

theorem capturedBy_patternLog : CapturedBy patternLog "o-1" patternCapture .normal :=
  ⟨by decide +kernel, rfl, by decide, rfl, rfl⟩

theorem evolved_obligation_not_current :
    EnforcesCurrent sampleGateEnv patternLog "o-1" patternCapture ∧
      ∃ log, evolvedLog = some log ∧ ¬EnforcesCurrent sampleGateEnv log "o-1" patternCapture := by
  have hsome : evolvedLog.isSome = true := by decide +kernel
  obtain ⟨log, hlog⟩ := Option.isSome_iff_exists.mp hsome
  have hstart : Run (historyStep sampleGateEnv ⟨"o-1", by decide⟩) (fun _ _ => True) patternLog []
      patternLog := Run.nil
  have hrun := hstart.snoc trivial hlog
  refine ⟨?_, log, hlog, ?_⟩
  · rw [enforcesCurrent_iff capturedBy_patternLog hstart]
    decide +kernel
  · rw [enforcesCurrent_iff capturedBy_patternLog hrun]
    decide +kernel

end Flowness.CommitGate
