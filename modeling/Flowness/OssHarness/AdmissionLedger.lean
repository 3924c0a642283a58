import Flowness.OssHarness.WorkCard

/-!
The immutable admission ledger: sealed entries, the fold that replays them, and `admit_work`.
The digests are parameters.
-/

namespace Flowness.OssHarness

open Library

structure BudgetReservation where
  units : Nat
  chargedWaveId : String
deriving DecidableEq, Repr

structure EntryBlocker where
  fingerprintId : String
  components : Components
  importedUsage : Usage
deriving DecidableEq, Repr

/-- A ledger entry without its `entry_hash`. -/
structure EntryBody where
  programId : String
  sequence : Nat
  admissionId : String
  taskId : String
  admittedAt : String
  policyHash : String
  controllerVersion : String
  cardHash : String
  card : Card
  taskClass : TaskClass
  waveId : String
  lane : String
  roleId : String
  budgetReservation : BudgetReservation
  changeIntent : ChangeIntent
  blocker : Option EntryBlocker
  previousEntryHash : Option String
deriving DecidableEq, Repr

structure Entry extends EntryBody where
  entryHash : String
deriving DecidableEq, Repr

/-- `canonical_hash` of what the admission ledger hashes. -/
structure AdmissionHashes where
  card : Card → String
  /-- The digest of `{"policy_hash": .., "card": ..}` without its algorithm. -/
  admission : String → Card → String
  admission_ne : ∀ policyHash card, admission policyHash card ≠ ""
  fingerprint : Components → String
  entry : EntryBody → String

structure Authority where
  policy : Policy
  policyHash : String
deriving DecidableEq, Repr

def controllerVersion : String := "flowness-oss-harness/0.1.0"

structure Lineage where
  usage : Usage
  components : Components
deriving DecidableEq, Repr

structure FoldState where
  usedWaves : Dict String Nat
  usedLanes : Dict String Nat
  enablementUsed : Nat
  fingerprints : Dict String Lineage
  taskIds : Dict String String
deriving DecidableEq, Repr

def FoldState.usedTotal (state : FoldState) : Nat := (state.usedWaves.map Prod.snd).sum

def FoldState.initial (budget : BudgetPolicy) : FoldState :=
  { usedWaves := budget.waveUnits.map (fun wave => (wave.1, 0))
    usedLanes := budget.laneFloors.map (fun lane => (lane.1, 0))
    enablementUsed := 0, fingerprints := [], taskIds := [] }

/-- `counters[key] += units`. -/
def addUnits (counters : Dict String Nat) (key : String) (units : Nat) :
    Except LedgerError (Dict String Nat) :=
  match counters.get key with
  | none => .error .keyError
  | some used => .ok (counters.set key (used + units))

def Usage.add (usage : Usage) (intent : ChangeIntent) : Usage :=
  { attempts := usage.attempts + 1
    codeChanges := usage.codeChanges + intent.codeChanges
    deployments := usage.deployments + intent.deployments
    metaReviews := usage.metaReviews + intent.metaReviews }

def lineageOf (fingerprints : Dict String Lineage) (blocker : EntryBlocker) : Lineage :=
  (fingerprints.get blocker.fingerprintId).getD
    { usage := blocker.importedUsage, components := blocker.components }

def countBlocker (fingerprints : Dict String Lineage) (intent : ChangeIntent) :
    Option EntryBlocker → Dict String Lineage
  | none => fingerprints
  | some blocker =>
    let lineage := lineageOf fingerprints blocker
    fingerprints.set blocker.fingerprintId { lineage with usage := lineage.usage.add intent }

def chargeLane (usedLanes : Dict String Nat) (entry : Entry) :
    Except LedgerError (Dict String Nat) :=
  if entry.taskClass = .enablement then .ok usedLanes
  else addUnits usedLanes entry.lane entry.budgetReservation.units

def foldEntry (state : FoldState) (entry : Entry) : Except LedgerError FoldState := do
  let usedWaves ← addUnits state.usedWaves entry.budgetReservation.chargedWaveId
    entry.budgetReservation.units
  let usedLanes ← chargeLane state.usedLanes entry
  return { usedWaves := usedWaves
           usedLanes := usedLanes
           enablementUsed := if entry.taskClass = .enablement
             then state.enablementUsed + entry.budgetReservation.units else state.enablementUsed
           fingerprints := countBlocker state.fingerprints entry.changeIntent entry.blocker
           taskIds := state.taskIds.set entry.taskId entry.admissionId }

def fold (policy : Policy) (entries : List Entry) : Except LedgerError FoldState :=
  entries.foldlM foldEntry (.initial policy.budget)

def sharedComponents (left right : Components) : Nat :=
  (left.values.zip right.values).countP (fun pair => pair.1 == pair.2)

def fingerprintOf (hashes : AdmissionHashes) (blocker : CardBlocker) :
    Except LedgerError String := do
  require (blocker.components.values.all notBlank) .fingerprintComponentsRequired
  return hashes.fingerprint blocker.components

def overlapsOf (fingerprints : Dict String Lineage) (components : Components) : List String :=
  (fingerprints.filter
    (fun entry => decide (2 ≤ sharedComponents components entry.2.components))).map Prod.fst

def evidenced (card : Card) (evidence : ArtifactRef) : Bool :=
  isNonemptyArtifactRefs [evidence] && decide (evidence ∈ card.immutableInputs)

def openLineage (card : Card) (blocker : CardBlocker) : Except LedgerError Usage :=
  if card.taskClass ≠ .enablement ∨ card.waveId ≠ "FOUNDATION-001" then
    match blocker.newFingerprintAdjudication with
    | none => .error .fingerprintUnadjudicated
    | some adjudication => do
      require (adjudication.adjudicatorIdentity != card.roleId) .fingerprintUnadjudicated
      require (evidenced card adjudication.evidence) .fingerprintUnadjudicated
      return ⟨0, 0, 0, 0⟩
  else
    match blocker.historicalLedgerImport with
    | none => .error .foundationLedgerImportRequired
    | some historical => do
      require (evidenced card historical.evidence) .foundationLedgerImportRequired
      return historical.usage

def resolveBlocker (hashes : AdmissionHashes) (card : Card) (state : FoldState) :
    Except LedgerError (Option EntryBlocker) :=
  match card.blocker with
  | none => .ok none
  | some blocker => do
    let ownId ← fingerprintOf hashes blocker
    match overlapsOf state.fingerprints blocker.components with
    | [] => do
      let imported ← openLineage card blocker
      return some { fingerprintId := ownId, components := blocker.components,
                    importedUsage := imported }
    | [existingId] => return some { fingerprintId := existingId, components := blocker.components,
                                    importedUsage := ⟨0, 0, 0, 0⟩ }
    | _ => .error .fingerprintAdjudicationRequired

def unmetFloors (laneFloors usedLanes : Dict String Nat) : Nat :=
  (usedLanes.map (fun lane => (laneFloors.get lane.1).getD 0 - lane.2)).sum

/-- The half of `_validate_budget` that depends on the task class. -/
def validateClassBudget (card : Card) (state : FoldState) (budget : BudgetPolicy) :
    Except LedgerError Unit :=
  let units := card.budget.units
  if card.taskClass = .enablement then
    require (decide (state.enablementUsed + units ≤ budget.enablementUnitsMax))
      .enablementBudgetExhausted
  else do
    let laneAfter ← addUnits state.usedLanes card.lane units
    require (decide (unmetFloors budget.laneFloors laneAfter ≤
        budget.totalUnits - state.usedTotal - units))
      .laneFloorsWouldBeStarved

def validateBudget (card : Card) (state : FoldState) (budget : BudgetPolicy) :
    Except LedgerError String := do
  let units := card.budget.units
  let chargedWave ← budgetWaveId card.waveId card.budget
  require (decide (state.usedTotal + units ≤ budget.totalUnits)) .budgetLedgerExhausted
  match state.usedWaves.get chargedWave, budget.waveUnits.get chargedWave with
  | some used, some limit => do
    require (decide (used + units ≤ limit)) .budgetWaveExhausted
    validateClassBudget card state budget
    return chargedWave
  | _, _ => .error .keyError

def limitsAllow (prior : Usage) (intent : ChangeIntent) (limits : AttemptPolicy) :
    Except LedgerError Unit := do
  require (decide (prior.attempts < limits.targetedAttemptsPerFingerprintLifetimeMax))
    .attemptLimitExhausted
  require (decide (prior.codeChanges + intent.codeChanges ≤
    limits.codeChangesPerFingerprintLifetimeMax)) .codeChangesLimitExhausted
  require (decide (prior.deployments + intent.deployments ≤
    limits.deploymentsPerFoundationLifetimeMax)) .deploymentsLimitExhausted
  require (decide (prior.metaReviews + intent.metaReviews ≤
    limits.metaReviewsPerFingerprintLifetimeMax)) .metaReviewsLimitExhausted

def blockerAllows (card : Card) (state : FoldState) (policy : Policy) :
    Option EntryBlocker → Except LedgerError Unit
  | some blocker => limitsAllow (lineageOf state.fingerprints blocker).usage card.changeIntent
      policy.attemptPolicy
  | none => require (card.changeIntent == ⟨0, 0, 0⟩) .changeIntentRequiresBlocker

def sealEntry (hashes : AdmissionHashes) (body : EntryBody) : Entry :=
  { body with entryHash := hashes.entry body }

/-- The entry that `admit_work` writes. -/
def newEntry (hashes : AdmissionHashes) (authority : Authority) (now : String) (card : Card)
    (entries : List Entry) (blocker : Option EntryBlocker) (chargedWave : String) : Entry :=
  sealEntry hashes
    { programId := authority.policy.programId
      sequence := entries.length + 1
      admissionId := hashes.admission authority.policyHash card
      taskId := card.taskId
      admittedAt := now
      policyHash := authority.policyHash
      controllerVersion := controllerVersion
      cardHash := hashes.card card
      card := card
      taskClass := card.taskClass
      waveId := card.waveId
      lane := card.lane
      roleId := card.roleId
      budgetReservation := { units := 1, chargedWaveId := chargedWave }
      changeIntent := card.changeIntent
      blocker := blocker
      previousEntryHash := entries.getLast?.map Entry.entryHash }

/-- What `admit_work` returns for: an entry that is there, or one that it writes. -/
inductive Admission where
  | prior (entry : Entry)
  | reserved (entry : Entry)
deriving DecidableEq, Repr

/-- `admit_work` over the entries that `_read_entries_locked` read. -/
def admitWork (hashes : AdmissionHashes) (authority : Authority) (now : String) (card : Card)
    (entries : List Entry) : Except LedgerError Admission := do
  validateCard card authority.policy
  require (entries.all (fun entry => entry.policyHash == authority.policyHash)) .policyHashMismatch
  let state ← fold authority.policy entries
  match (state.taskIds.get card.taskId).filter (· != "") with
  | some priorId =>
    match entries.find? (fun entry => entry.admissionId == priorId) with
    | none => .error .keyError
    | some existing => do
      require (existing.cardHash == hashes.card card) .taskIdReused
      return .prior existing
  | none => do
    let blocker ← resolveBlocker hashes card state
    blockerAllows card state authority.policy blocker
    let chargedWave ← validateBudget card state authority.policy.budget
    return .reserved (newEntry hashes authority now card entries blocker chargedWave)

/-- The call of `admit_work` in a run: when it comes and with which card. -/
structure AdmitCall where
  now : String
  card : Card
deriving DecidableEq, Repr

def admitStep (hashes : AdmissionHashes) (authority : Authority) (entries : List Entry)
    (call : AdmitCall) : Option (List Entry) :=
  match admitWork hashes authority call.now call.card entries with
  | .ok (.reserved entry) => some (entries ++ [entry])
  | _ => some entries

section

variable {hashes : AdmissionHashes} {authority : Authority} {now : String} {card : Card}
  {entries : List Entry} {state : FoldState} {blocker : Option EntryBlocker} {chargedWave : String}

/-- Everything `admit_work` checked before it wrote an entry. -/
structure Reservation (hashes : AdmissionHashes) (authority : Authority) (card : Card)
    (entries : List Entry) (state : FoldState) (blocker : Option EntryBlocker)
    (chargedWave : String) : Prop where
  valid : validateCard card authority.policy = .ok ()
  samePolicy : ∀ entry ∈ entries, entry.policyHash = authority.policyHash
  folded : fold authority.policy entries = .ok state
  newTask : (state.taskIds.get card.taskId).filter (· != "") = none
  resolved : resolveBlocker hashes card state = .ok blocker
  allowed : blockerAllows card state authority.policy blocker = .ok ()
  budgeted : validateBudget card state authority.policy.budget = .ok chargedWave

theorem admitWork_reserved (h : admitWork hashes authority now card entries =
  .ok (.reserved entry)) :
    ∃ state blocker chargedWave, Reservation hashes authority card entries state blocker chargedWave ∧
      entry = newEntry hashes authority now card entries blocker chargedWave := by
  simp only [admitWork, bind_ok, require_ok] at h
  obtain ⟨validated, hvalid, -, hsame, state, hfold, h⟩ := h
  split at h
  · split at h
    · cases h
    · simp only [bind_ok] at h
      obtain ⟨-, -, h⟩ := h
      cases h
  next hnew =>
    simp only [bind_ok] at h
    obtain ⟨blocker, hblocker, allowed, hallowed, wave, hwave, h⟩ := h
    refine ⟨state, blocker, wave, ⟨hvalid, ?_, hfold, hnew, hblocker, hallowed, hwave⟩, ?_⟩
    · intro entry hentry
      exact beq_iff_eq.mp (List.all_eq_true.mp hsame entry hentry)
    · cases h
      rfl

theorem admitStep_cases {next : List Entry}
    (h : admitStep hashes authority entries call = some next) :
    next = entries ∨ ∃ entry, admitWork hashes authority call.now call.card entries =
      .ok (.reserved entry) ∧ next = entries ++ [entry] := by
  unfold admitStep at h
  split at h
  next entry hentry =>
    exact .inr ⟨entry, hentry, (Option.some.inj h).symm⟩
  · exact .inl (Option.some.inj h).symm

theorem addUnits_ok : addUnits counters key units = .ok after ↔
      ∃ used, counters.get key = some used ∧ after = counters.set key (used + units) := by
  unfold addUnits
  cases hget : counters.get key with
  | none =>
    constructor
    · intro h
      cases h
    · rintro ⟨used, h, -⟩
      cases h
  | some used =>
    constructor
    · intro h
      cases h
      exact ⟨used, rfl, rfl⟩
    · rintro ⟨other, h, rfl⟩
      cases h
      rfl

theorem fold_append (h : fold policy entries = .ok state) (entry : Entry) :
    fold policy (entries ++ [entry]) = foldEntry state entry := by
  have hfold : entries.foldlM foldEntry (.initial policy.budget) = .ok state := h
  exact foldlM_snoc hfold

theorem fold_append_ok (h : fold policy (entries ++ [entry]) = .ok after) :
    ∃ before, fold policy entries = .ok before ∧ foldEntry before entry = .ok after :=
  foldlM_snoc_ok.mp h

/-- The budget of a card that `_validate_budget` let through, against the limits. -/
structure WithinBudget (budget : BudgetPolicy) (card : Card) (state : FoldState)
    (chargedWave : String) : Prop where
  total : state.usedTotal + 1 ≤ budget.totalUnits
  wave : ∃ used limit, state.usedWaves.get chargedWave = some used ∧
    budget.waveUnits.get chargedWave = some limit ∧ used + 1 ≤ limit
  enablement : card.taskClass = .enablement → state.enablementUsed + 1 ≤ budget.enablementUnitsMax
  lane : card.taskClass ≠ .enablement → ∃ used, state.usedLanes.get card.lane = some used ∧
    unmetFloors budget.laneFloors (state.usedLanes.set card.lane (used + 1)) ≤
      budget.totalUnits - state.usedTotal - 1

theorem validateBudget_ok (hunits : card.budget.units = 1)
    (h : validateBudget card state budget = .ok chargedWave) :
    WithinBudget budget card state chargedWave := by
  simp only [validateBudget, bind_ok, require_ok, decide_eq_true_eq, hunits] at h
  obtain ⟨wave, -, -, htotal, h⟩ := h
  split at h
  next used limit hused hlimit =>
    simp only [bind_ok, require_ok, decide_eq_true_eq] at h
    obtain ⟨-, hwave, done, hclass, h⟩ := h
    cases h
    refine ⟨htotal, ⟨used, limit, hused, hlimit, hwave⟩, ?_, ?_⟩
    · intro henablement
      simpa [validateClassBudget, henablement, hunits] using hclass
    · intro henablement
      simp only [validateClassBudget, if_neg henablement, hunits, bind_ok, require_ok,
        decide_eq_true_eq] at hclass
      obtain ⟨after, hafter, hfloors⟩ := hclass
      obtain ⟨lane, hlane, rfl⟩ := addUnits_ok.mp hafter
      exact ⟨lane, hlane, hfloors⟩
  · cases h

theorem Reservation.within
    (h : Reservation hashes authority card entries state blocker chargedWave) :
    WithinBudget authority.policy.budget card state chargedWave :=
  validateBudget_ok (charged_of_valid h.valid).1 h.budgeted

/-- The fold after the entry of a card: one unit more on its wave, and on its lane unless it is
enablement. -/
structure Charged (state : FoldState) (card : Card) (blocker : Option EntryBlocker)
    (chargedWave admissionId : String) (after : FoldState) : Prop where
  waves : ∃ used, state.usedWaves.get chargedWave = some used ∧
    after.usedWaves = state.usedWaves.set chargedWave (used + 1)
  enablement : card.taskClass = .enablement →
    after.usedLanes = state.usedLanes ∧ after.enablementUsed = state.enablementUsed + 1
  lane : card.taskClass ≠ .enablement → (∃ used, state.usedLanes.get card.lane = some used ∧
    after.usedLanes = state.usedLanes.set card.lane (used + 1)) ∧
    after.enablementUsed = state.enablementUsed
  fingerprints : after.fingerprints = countBlocker state.fingerprints card.changeIntent blocker
  taskIds : after.taskIds = state.taskIds.set card.taskId admissionId

private theorem foldEntry_eq
    (hwaves : addUnits state.usedWaves entry.budgetReservation.chargedWaveId
      entry.budgetReservation.units = .ok waves)
    (hlanes : chargeLane state.usedLanes entry = .ok lanes) :
    foldEntry state entry = .ok
      { usedWaves := waves
        usedLanes := lanes
        enablementUsed := if entry.taskClass = .enablement
          then state.enablementUsed + entry.budgetReservation.units else state.enablementUsed
        fingerprints := countBlocker state.fingerprints entry.changeIntent entry.blocker
        taskIds := state.taskIds.set entry.taskId entry.admissionId } := by
  unfold foldEntry
  rw [hwaves, hlanes]
  rfl

theorem Reservation.charged
    (h : Reservation hashes authority card entries state blocker chargedWave) (now : String) :
    ∃ after, fold authority.policy
        (entries ++ [newEntry hashes authority now card entries blocker chargedWave]) = .ok after ∧
      Charged state card blocker chargedWave (hashes.admission authority.policyHash card) after := by
  obtain ⟨used, -, hused, -, -⟩ := h.within.wave
  have hwaves : addUnits state.usedWaves chargedWave 1 =
      .ok (state.usedWaves.set chargedWave (used + 1)) := addUnits_ok.mpr ⟨used, hused, rfl⟩
  rw [fold_append h.folded]
  by_cases hclass : card.taskClass = .enablement
  · refine ⟨_, foldEntry_eq hwaves (if_pos hclass), ⟨used, hused, rfl⟩, ?_, ?_, rfl, rfl⟩
    · exact fun _ => ⟨rfl, if_pos hclass⟩
    · exact fun hne => absurd hclass hne
  · obtain ⟨lane, hlane, -⟩ := h.within.lane hclass
    have hlanes : addUnits state.usedLanes card.lane 1 =
        .ok (state.usedLanes.set card.lane (lane + 1)) := addUnits_ok.mpr ⟨lane, hlane, rfl⟩
    refine ⟨_, foldEntry_eq hwaves ((if_neg hclass).trans hlanes), ⟨used, hused, rfl⟩, ?_, ?_, rfl,
      rfl⟩
    · exact fun heq => absurd heq hclass
    · exact fun _ => ⟨⟨lane, hlane, rfl⟩, if_neg hclass⟩

end

/-- The budget and the lifetime limits that `execution-policy.schema.json` fixes; the texts are
samples. -/
def programPolicy : Policy :=
  { programId := "flowness-oss-v2"
    program := rfl
    requiredFields := ["task_id", "budget", "change_intent"]
    taskClasses := ["core", "enablement", "judge"]
    waves := ["W0", "FOUNDATION-001", "W1", "W2A", "W2B", "W2C", "W3", "W4", "W5A", "W6", "W5B", "W7",
      "W8", "W9", "W10", "RW", "G1", "W11", "G2", "W12", "G3"].map (fun id => ⟨id, [id ++ " report"]⟩)
    northStarArtifacts := ["atlas"]
    coreValueMetrics := ["coverage"]
    foundationId := "FOUNDATION-001"
    budget :=
      { totalUnits := 100
        enablementUnitsMax := 8
        waveUnits := [("W0", 4), ("W1", 5), ("W2", 20), ("W3", 7), ("W4", 6), ("W5A", 5), ("W6", 12),
          ("W5B", 3), ("W7", 7), ("W8", 6), ("W9", 5), ("W10", 15), ("reserve", 5)]
        laneFloors := [("truth", 42), ("oss_standard", 12), ("benchmark_and_proof", 15),
          ("architecture_and_dissemination", 13), ("independent_jury", 10)]
        lanesDistinct := by decide }
    attemptPolicy := ⟨2, 1, 1, 1⟩ }

def sampleAuthority : Authority := ⟨programPolicy, "sha256:policy"⟩

def sampleHashes : AdmissionHashes :=
  { card := fun card => "card " ++ card.taskId
    admission := fun _ card => "admission " ++ card.taskId
    admission_ne := fun _ card h => by simpa using congrArg String.length h
    fingerprint := fun components => String.intercalate "/" components.values
    entry := fun body => "entry " ++ body.admissionId }

def sampleRef : ArtifactRef :=
  ⟨"spec", "sha256:0000000000000000000000000000000000000000000000000000000000000000"⟩

/-- A judge's card of wave `W2A` without a blocker. -/
def judgeCard (taskId lane : String) : Card :=
  { taskId := taskId, taskClass := .judge, waveId := "W2A", lane := lane, roleId := "judge.a"
    immutableInputs := [sampleRef], primaryCoreArtifact := "", currentGateOrBlocker := "G1"
    expectedCoreValueDelta := [], authoritativeInputs := ["spec"], downstreamConsumer := "W3"
    budget := ⟨1, none⟩, changeIntent := ⟨0, 0, 0⟩, acceptance := ["verdict"]
    retestCondition := "drift", stopConditions := ["budget"], excludedScope := ["none"]
    ownerAuthority := "owner", rippleTargets := ["W3"], judgeIdentity := some "judge.a"
    judgeVerdictOrDelta := some "PASS", blocker := none, reworkBinding := none }

/-- An enablement card for the blocker, charged to wave `W1`. -/
def enablementCard (taskId : String) (components : Components) (imported : Usage) : Card :=
  { judgeCard taskId "truth" with
    taskClass := .enablement, waveId := "FOUNDATION-001", budget := ⟨1, some "W1"⟩
    blocker := some
      { components := components, componentEvidence := none
        degradedPathImpossibleEvidence := [sampleRef]
        historicalLedgerImport := some ⟨sampleRef, imported⟩
        newFingerprintAdjudication := none } }

def sampleComponents : Components := ⟨"timeout", "consumer", "E1", "entry"⟩

def ledgerAfter (calls : List AdmitCall) : List Entry :=
  (calls.foldlM (admitStep sampleHashes sampleAuthority) []).getD []

end Flowness.OssHarness
