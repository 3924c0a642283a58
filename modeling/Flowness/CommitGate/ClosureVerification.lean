import Flowness.CommitGate.LedgerEvidence
import Flowness.CommitGate.ObligationChecks
import Flowness.Library.Pool

/-!
The closure of a finding, decided by what the gate computes itself: every criterion, ripple target
and forbidden residual of the contract is met by a result item of its own, and the criteria and
residuals are run again under the contract's own patterns.
-/

namespace Flowness.ClosureVerification

open Library CommitGate

inductive ClosureResidualCheckMethod where
  | grep | schemaCheck | manualReasoning
deriving DecidableEq

inductive ClosureRippleSyncStatus where
  | synced | notApplicable | pending
deriving DecidableEq

inductive OccurrenceComparator where
  | eq | gte
deriving DecidableEq

inductive ReviewClosureState where
  | closed | fixInsufficient | rippleIncomplete | newUnrelatedFindingLogged
deriving DecidableEq

structure ClosureCriterion extends CommitGate.ClosureCriterion where
  condition : String
  verificationPattern : Option String := none
  expectedOccurrences : Option Nat := none
  occurrenceComparator : Option OccurrenceComparator := none
  searchScope : Option String := none
  testSelector : Option String := none

structure ClosureForbiddenResidual where
  pattern : String
  checkMethod : ClosureResidualCheckMethod
  searchScope : Option String := none

structure ClosureContract where
  closureCriteria : List ClosureCriterion
  rippleTargets : List String := []
  forbiddenResiduals : List ClosureForbiddenResidual := []

structure CriterionResult where
  criterion : String
  selfReportedPassed : Bool

structure RippleResult where
  artifact : String
  syncStatus : ClosureRippleSyncStatus
  evidence : Option String := none

structure ResidualCheckResult where
  pattern : String

structure ClosureResult where
  criteriaResults : List CriterionResult := []
  rippleResults : List RippleResult := []
  residualCheckResults : List ResidualCheckResult := []

/-- A count of matches, no answer, or `GateGrepTimeout`. -/
inductive GrepAnswer where
  | found (occurrences : Nat) | noAnswer | timeout

structure Runners (Path : Type) where
  grep : String → Path → GrepAnswer
  pytest : String → Path → Option Bool
  gitDiff : Option (Option (List String)) := none
  ledger : Option (ClosureCriterion → Option Bool) := none

structure Host (Path : Type) where
  join : Path → String → Path
  present : Path → Bool
  /-- `_find_project_root`. -/
  projectRoot : Path → Option Path
  relativeTo : Path → Path → Option String
  /-- `\w`. -/
  isWordChar : Char → Bool
  /-- `re.compile` and `search`; `none` is `re.error`. -/
  compile : String → Option (String → Bool)

variable {Path : Type} (host : Host Path)

/-- `search_scope_shape_defect`, as whether there is one. -/
def searchScopeShapeDefect (scope : String) : Bool :=
  let text := scope.toList
  text.contains '<' || text.contains '>' ||
    text.any isSpaceChar ||
    (match text with
      | '/' :: _ | '\\' :: _ => true
      | drive :: ':' :: slash :: _ => drive.isAlpha && (slash == '/' || slash == '\\')
      | _ => false) ||
    (text.splitOn '/').contains ['.', '.'] ||
    !(text ≠ [] && text.all fun c => host.isWordChar c || c == '.' || c == '-' || c == '/')

def resolveUnderBases (rel : String) (primary : Path) (extraBases : List Path) : Path :=
  match (primary :: extraBases).find? fun base => host.present (host.join base rel) with
  | some base => host.join base rel
  | none => host.join primary rel

/-- `_split_pytest_selector`: the file, and from the first `::` the node. -/
def splitPytestSelector : List Char → List Char × List Char
  | ':' :: ':' :: rest => ([], ':' :: ':' :: rest)
  | c :: rest => ((c :: (splitPytestSelector rest).1), (splitPytestSelector rest).2)
  | [] => ([], [])

def resolveTestTarget (selector : String) (primary : Path) (extraBases : List Path) :
    Path × String :=
  let (filePart, nodeSuffix) := splitPytestSelector selector.toList
  if filePart = [] then (primary, selector)
  else
    let target := resolveUnderBases host (String.ofList filePart) primary extraBases
    if host.present target then
      match host.projectRoot target with
      | none => (primary, selector)
      | some project =>
        match host.relativeTo target project with
        | none => (primary, selector)
        | some rel => (project, rel ++ String.ofList nodeSuffix)
    else (primary, selector)

/-- `_occurrence_passes`; no comparator means equality. -/
def occurrencePasses (occurrences expected : Nat) (comparator : Option OccurrenceComparator) : Bool :=
  if comparator = some .gte then decide (expected ≤ occurrences)
  else decide (occurrences = expected)

def underScope (scope : Option String) (paths : List String) : List String :=
  match scope.filter (· ≠ "") with
  | none => paths
  | some scope =>
    let stem := scope.toList.rdropWhile (· == '/')
    paths.filter fun path => path.toList == stem || (stem ++ ['/']).isPrefixOf path.toList

/-- What one criterion comes to: `None`, one of the two exceptions, or a verdict. -/
inductive Recomputed where
  | noAnswer | timeout | notRun | passed (holds : Bool)

variable (runners : Runners Path) (repoDir : Path) (extraBases : List Path)

def searchBase (scope : Option String) : Path :=
  match scope.filter (· ≠ "") with
  | some scope => resolveUnderBases host scope repoDir extraBases
  | none => repoDir

def recomputeGrep (crit : ClosureCriterion) : Recomputed :=
  match crit.verificationPattern.filter (· ≠ ""), crit.expectedOccurrences with
  | some pattern, some expected =>
    match runners.grep pattern (searchBase host repoDir extraBases crit.searchScope) with
    | .found occurrences =>
      .passed (occurrencePasses occurrences expected crit.occurrenceComparator)
    | .noAnswer => .noAnswer
    | .timeout => .timeout
  | _, _ => .noAnswer

def recomputeTest (crit : ClosureCriterion) : Recomputed :=
  match crit.testSelector.filter (· ≠ "") with
  | none => .noAnswer
  | some selector =>
    let (root, rel) := resolveTestTarget host selector repoDir extraBases
    match runners.pytest rel root with
    | none => .notRun
    | some passed => .passed passed

def recomputeGitDiff (crit : ClosureCriterion) : Recomputed :=
  match crit.verificationPattern.filter (· ≠ ""), crit.expectedOccurrences, runners.gitDiff with
  | some pattern, some expected, some changed =>
    match host.compile pattern, changed with
    | some search, some paths =>
      let hits := (underScope crit.searchScope paths).filter search
      .passed (occurrencePasses hits.length expected crit.occurrenceComparator)
    | _, _ => .noAnswer
  | _, _, _ => .noAnswer

def recomputeLedger (crit : ClosureCriterion) : Recomputed :=
  match crit.eventKind.filter (· ≠ ""), crit.minOccurrences, crit.scopeBinding, runners.ledger with
  | some _, some _, some _, some runner =>
    match runner crit with
    | none => .noAnswer
    | some passed => .passed passed
  | _, _, _, _ => .noAnswer

def recomputeCriterion (crit : ClosureCriterion) : Recomputed :=
  if crit.searchScope.any (searchScopeShapeDefect host) then .noAnswer
  else
    match crit.verificationMethod with
    | .grep => recomputeGrep host runners repoDir extraBases crit
    | .test => recomputeTest host runners repoDir extraBases crit
    | .gitDiff => recomputeGitDiff host runners crit
    | .ledgerEvent => recomputeLedger runners crit
    | _ => .noAnswer

def gateRecomputableVerificationMethods : List ClosureVerificationMethod :=
  [.grep, .test, .gitDiff, .ledgerEvent]

inductive ItemKind where
  | criterion | ripple | residual
deriving DecidableEq

inductive ItemStatus where
  | passed | failed | notRecomputable
deriving DecidableEq

structure ItemVerdict where
  item : String
  kind : ItemKind
  status : ItemStatus
  recomputedByGate : Bool

structure Tally where
  verdicts : List ItemVerdict := []
  anyFailed : Bool := false
  anyNotRecomputable : Bool := false

namespace Tally

variable (tally : Tally) (item : String) (kind : ItemKind)

def fail (recomputed : Bool) : Tally :=
  { tally with anyFailed := true, verdicts := tally.verdicts ++ [⟨item, kind, .failed, recomputed⟩] }

def downgrade : Tally :=
  { tally with
    anyNotRecomputable := true
    verdicts := tally.verdicts ++ [⟨item, kind, .notRecomputable, false⟩] }

def pass (recomputed : Bool) : Tally :=
  { tally with verdicts := tally.verdicts ++ [⟨item, kind, .passed, recomputed⟩] }

end Tally

def judgeCriterion (crit : ClosureCriterion) (found : Option CriterionResult) (tally : Tally) :
    Tally :=
  match found with
  | none => tally.fail crit.condition .criterion false
  | some result =>
    if crit.verificationMethod ∉ gateRecomputableVerificationMethods then
      tally.downgrade crit.condition .criterion
    else
      match recomputeCriterion host runners repoDir extraBases crit with
      | .timeout => tally.downgrade crit.condition .criterion
      | .notRun => tally.downgrade crit.condition .criterion
      | .noAnswer => tally.fail crit.condition .criterion true
      | .passed holds =>
        if holds ≠ result.selfReportedPassed then tally.fail crit.condition .criterion true
        else if !holds then tally.fail crit.condition .criterion true
        else tally.pass crit.condition .criterion true

def judgeRipple (artifact : String) (found : Option RippleResult) (tally : Tally) : Tally :=
  match found with
  | none => tally.fail artifact .ripple false
  | some result =>
    if result.syncStatus = .pending then tally.fail artifact .ripple false
    else if result.syncStatus = .notApplicable ∧ isBlank (result.evidence.getD "") then
      tally.fail artifact .ripple false
    else tally.pass artifact .ripple false

def judgeResidual (residual : ClosureForbiddenResidual) (found : Option ResidualCheckResult)
    (tally : Tally) : Tally :=
  match found with
  | none => tally.fail residual.pattern .residual false
  | some _ =>
    if residual.checkMethod ≠ .grep then tally.downgrade residual.pattern .residual
    else if residual.searchScope.any (searchScopeShapeDefect host) then
      tally.fail residual.pattern .residual false
    else
      let scope :=
        match residual.searchScope with
        | some scope => resolveUnderBases host scope repoDir extraBases
        | none => repoDir
      match runners.grep residual.pattern scope with
      | .timeout => tally.downgrade residual.pattern .residual
      | .noAnswer => tally.fail residual.pattern .residual true
      | .found occurrences =>
        if 0 < occurrences then tally.fail residual.pattern .residual true
        else tally.pass residual.pattern .residual true

structure ClosureVerificationOutcome where
  strongGatePassed : Bool
  downgradeRequired : Bool
  verdicts : List ItemVerdict

variable (contract : ClosureContract) (result : ClosureResult)

def closureTally : Tally :=
  let criteria := consume ClosureCriterion.condition CriterionResult.criterion
    (judgeCriterion host runners repoDir extraBases) contract.closureCriteria result.criteriaResults {}
  let ripples := consume id RippleResult.artifact judgeRipple contract.rippleTargets
    result.rippleResults criteria
  consume ClosureForbiddenResidual.pattern ResidualCheckResult.pattern
    (judgeResidual host runners repoDir extraBases) contract.forbiddenResiduals
    result.residualCheckResults ripples

def verifyClosureAgainstContract : ClosureVerificationOutcome :=
  let tally := closureTally host runners repoDir extraBases contract result
  { strongGatePassed := !tally.anyFailed && !tally.anyNotRecomputable
    downgradeRequired := !tally.anyFailed && tally.anyNotRecomputable
    verdicts := tally.verdicts }

def deriveClosureState (outcome : ClosureVerificationOutcome) (hasUnrelatedFindings : Bool) :
    ReviewClosureState :=
  let criterionFailed := outcome.verdicts.any fun v => v.kind = .criterion ∧ v.status = .failed
  let rippleOrResidualFailed := outcome.verdicts.any fun v =>
    (v.kind = .ripple ∨ v.kind = .residual) ∧ v.status = .failed
  if criterionFailed then .fixInsufficient
  else if outcome.downgradeRequired then .fixInsufficient
  else if rippleOrResidualFailed then .rippleIncomplete
  else if hasUnrelatedFindings then .newUnrelatedFindingLogged
  else .closed

def GrepHolds (crit : ClosureCriterion) : Prop :=
  ∃ pattern expected occurrences, crit.verificationPattern = some pattern ∧ pattern ≠ "" ∧
    crit.expectedOccurrences = some expected ∧
    runners.grep pattern (searchBase host repoDir extraBases crit.searchScope) = .found occurrences ∧
    occurrencePasses occurrences expected crit.occurrenceComparator = true

def TestHolds (crit : ClosureCriterion) : Prop :=
  ∃ selector, crit.testSelector = some selector ∧ selector ≠ "" ∧
    runners.pytest (resolveTestTarget host selector repoDir extraBases).2
      (resolveTestTarget host selector repoDir extraBases).1 = some true

def GitDiffHolds (crit : ClosureCriterion) : Prop :=
  ∃ pattern expected search paths, crit.verificationPattern = some pattern ∧ pattern ≠ "" ∧
    crit.expectedOccurrences = some expected ∧ host.compile pattern = some search ∧
    runners.gitDiff = some (some paths) ∧
    occurrencePasses (((underScope crit.searchScope paths).filter search).length) expected
      crit.occurrenceComparator = true

def LedgerHolds (crit : ClosureCriterion) : Prop :=
  ∃ kind runner, crit.eventKind = some kind ∧ kind ≠ "" ∧ crit.minOccurrences.isSome ∧
    crit.scopeBinding.isSome ∧ runners.ledger = some runner ∧ runner crit = some true

/-- A recomputable method with a complete spec that holds under the runners. -/
def CriterionHolds (crit : ClosureCriterion) : Prop :=
  (∀ scope, crit.searchScope = some scope → searchScopeShapeDefect host scope = false) ∧
    (crit.verificationMethod = .grep ∧ GrepHolds host runners repoDir extraBases crit ∨
      crit.verificationMethod = .test ∧ TestHolds host runners repoDir extraBases crit ∨
      crit.verificationMethod = .gitDiff ∧ GitDiffHolds host runners crit ∨
      crit.verificationMethod = .ledgerEvent ∧ LedgerHolds runners crit)

/-- A residual that the gate can look for and does not find. -/
def ResidualGone (residual : ClosureForbiddenResidual) : Prop :=
  residual.checkMethod = .grep ∧
    (∀ scope, residual.searchScope = some scope → searchScopeShapeDefect host scope = false) ∧
    runners.grep residual.pattern
      ((residual.searchScope.map fun scope => resolveUnderBases host scope repoDir extraBases).getD
        repoDir) = .found 0

/-- The contract's own conditions, whatever the result reports. -/
structure RunnersHold : Prop where
  criteria : ∀ crit ∈ contract.closureCriteria, CriterionHolds host runners repoDir extraBases crit
  residuals : ∀ residual ∈ contract.forbiddenResiduals,
    ResidualGone host runners repoDir extraBases residual

/-- Every item of the contract is met by a result item of its own. -/
structure CoversContract : Prop where
  criteria : Covers ClosureCriterion.condition CriterionResult.criterion contract.closureCriteria
    result.criteriaResults
  ripples : Covers id RippleResult.artifact contract.rippleTargets result.rippleResults
  residuals : Covers ClosureForbiddenResidual.pattern ResidualCheckResult.pattern
    contract.forbiddenResiduals result.residualCheckResults

/-- Passed on every criterion item and synced on every ripple item. -/
structure ReportsPassed : Prop where
  criteria : ∀ item ∈ result.criteriaResults, item.selfReportedPassed = true
  ripples : ∀ item ∈ result.rippleResults, item.syncStatus = .synced

variable {host runners repoDir extraBases contract result} {crit : ClosureCriterion}

theorem filter_nonempty {text : Option String} {value : String} :
    text.filter (· ≠ "") = some value ↔ text = some value ∧ value ≠ "" := by
  simp [Option.filter_eq_some_iff]

theorem recomputeGrep_iff : recomputeGrep host runners repoDir extraBases crit = .passed true ↔
    GrepHolds host runners repoDir extraBases crit := by
  unfold recomputeGrep
  constructor
  · intro h
    split at h
    next pattern expected hpattern hexpected =>
      obtain ⟨hpattern, hne⟩ := filter_nonempty.mp hpattern
      split at h
      next occurrences hfound =>
        exact ⟨pattern, expected, occurrences, hpattern, hne, hexpected, hfound,
          Recomputed.passed.inj h⟩
      all_goals cases h
    next => cases h
  · rintro ⟨pattern, expected, occurrences, hpattern, hne, hexpected, hfound, hpasses⟩
    rw [filter_nonempty.mpr ⟨hpattern, hne⟩, hexpected]
    simp only [hfound, hpasses]

theorem recomputeTest_iff : recomputeTest host runners repoDir extraBases crit = .passed true ↔
    TestHolds host runners repoDir extraBases crit := by
  unfold recomputeTest
  constructor
  · intro h
    split at h
    next => cases h
    next selector hselector =>
      obtain ⟨hselector, hne⟩ := filter_nonempty.mp hselector
      refine ⟨selector, hselector, hne, ?_⟩
      dsimp only at h
      split at h
      next => cases h
      next passed hpassed => rw [hpassed, Recomputed.passed.inj h]
  · rintro ⟨selector, hselector, hne, hpassed⟩
    rw [filter_nonempty.mpr ⟨hselector, hne⟩]
    simp only [hpassed]

theorem recomputeGitDiff_iff : recomputeGitDiff host runners crit = .passed true ↔
    GitDiffHolds host runners crit := by
  unfold recomputeGitDiff
  constructor
  · intro h
    split at h
    next pattern expected changed hpattern hexpected hchanged =>
      obtain ⟨hpattern, hne⟩ := filter_nonempty.mp hpattern
      split at h
      next search paths hsearch =>
        exact ⟨pattern, expected, search, paths, hpattern, hne, hexpected, hsearch, hchanged,
          Recomputed.passed.inj h⟩
      next => cases h
    next => cases h
  · rintro ⟨pattern, expected, search, paths, hpattern, hne, hexpected, hsearch, hchanged, hpasses⟩
    rw [filter_nonempty.mpr ⟨hpattern, hne⟩, hexpected, hchanged]
    simp only [hsearch, hpasses]

theorem recomputeLedger_iff : recomputeLedger runners crit = .passed true ↔
    LedgerHolds runners crit := by
  unfold recomputeLedger
  constructor
  · intro h
    split at h
    next kind least scope runner hkind hleast hscope hrunner =>
      obtain ⟨hkind, hne⟩ := filter_nonempty.mp hkind
      refine ⟨kind, runner, hkind, hne, by simp [hleast], by simp [hscope], hrunner, ?_⟩
      split at h
      next => cases h
      next passed hpassed => rw [hpassed, Recomputed.passed.inj h]
    next => cases h
  · rintro ⟨kind, runner, hkind, hne, hleast, hscope, hrunner, hpassed⟩
    obtain ⟨least, hleast⟩ := Option.isSome_iff_exists.mp hleast
    obtain ⟨scope, hscope⟩ := Option.isSome_iff_exists.mp hscope
    rw [filter_nonempty.mpr ⟨hkind, hne⟩, hleast, hscope, hrunner]
    simp only [hpassed]

theorem any_shapeDefect {scope : Option String} :
    scope.any (searchScopeShapeDefect host) = false ↔
      ∀ text, scope = some text → searchScopeShapeDefect host text = false := by
  cases scope <;> simp

theorem criterionHolds_iff : CriterionHolds host runners repoDir extraBases crit ↔
    crit.verificationMethod ∈ gateRecomputableVerificationMethods ∧
      recomputeCriterion host runners repoDir extraBases crit = .passed true := by
  unfold CriterionHolds recomputeCriterion
  rw [← any_shapeDefect, ← recomputeGrep_iff, ← recomputeTest_iff, ← recomputeGitDiff_iff,
    ← recomputeLedger_iff]
  cases hshape : crit.searchScope.any (searchScopeShapeDefect host) <;>
    cases crit.verificationMethod <;> simp [gateRecomputableVerificationMethods]

def Tally.Clean (tally : Tally) : Prop :=
  tally.anyFailed = false ∧ tally.anyNotRecomputable = false

variable {tally : Tally} {item : String} {kind : ItemKind} {recomputed : Bool}

@[simp] theorem not_clean_fail : ¬(tally.fail item kind recomputed).Clean := by
  simp [Tally.Clean, Tally.fail]

@[simp] theorem not_clean_downgrade : ¬(tally.downgrade item kind).Clean := by
  simp [Tally.Clean, Tally.downgrade]

@[simp] theorem clean_pass : (tally.pass item kind recomputed).Clean ↔ tally.Clean := Iff.rfl

theorem clean_judgeCriterion (crit : ClosureCriterion) (found : Option CriterionResult)
    (tally : Tally) : (judgeCriterion host runners repoDir extraBases crit found tally).Clean ↔
      tally.Clean ∧ ∃ result, found = some result ∧
        (CriterionHolds host runners repoDir extraBases crit ∧ result.selfReportedPassed = true) := by
  rw [criterionHolds_iff]
  unfold judgeCriterion
  cases found with
  | none => simp
  | some result =>
    by_cases hmethod : crit.verificationMethod ∈ gateRecomputableVerificationMethods
    · cases hrun : recomputeCriterion host runners repoDir extraBases crit with
      | passed holds => cases holds <;> cases hreport : result.selfReportedPassed <;> simp [hmethod, hreport]
      | _ => simp [hmethod]
    · simp [hmethod]

theorem clean_judgeRipple (artifact : String) (found : Option RippleResult) (tally : Tally) :
    (judgeRipple artifact found tally).Clean ↔ tally.Clean ∧ ∃ result, found = some result ∧
      (result.syncStatus ≠ .pending ∧
        ¬(result.syncStatus = .notApplicable ∧ isBlank (result.evidence.getD "") = true)) := by
  unfold judgeRipple
  cases found with
  | none => simp
  | some result =>
    cases hstatus : result.syncStatus <;> cases hblank : isBlank (result.evidence.getD "") <;>
      simp [hstatus, hblank]

theorem clean_judgeResidual (residual : ClosureForbiddenResidual)
    (found : Option ResidualCheckResult) (tally : Tally) :
    (judgeResidual host runners repoDir extraBases residual found tally).Clean ↔
      tally.Clean ∧ ∃ result, found = some result ∧
        ResidualGone host runners repoDir extraBases residual := by
  have hbase : (match residual.searchScope with
      | some scope => resolveUnderBases host scope repoDir extraBases
      | none => repoDir) =
      (residual.searchScope.map fun scope => resolveUnderBases host scope repoDir extraBases).getD
        repoDir := by
    cases residual.searchScope <;> rfl
  unfold judgeResidual ResidualGone
  rw [← any_shapeDefect, hbase]
  generalize (residual.searchScope.map fun scope =>
    resolveUnderBases host scope repoDir extraBases).getD repoDir = base
  cases found with
  | none => simp
  | some result =>
    by_cases hmethod : residual.checkMethod = .grep
    · cases hshape : residual.searchScope.any (searchScopeShapeDefect host) with
      | true => simp [hmethod]
      | false =>
        cases hrun : runners.grep residual.pattern base with
        | found occurrences => cases occurrences <;> simp [hmethod, hrun]
        | _ => simp [hmethod, hrun]
    · simp [hmethod]

/-- The failure flag is set exactly when a verdict says so. -/
def Tally.Agrees (tally : Tally) : Prop :=
  tally.anyFailed = true ↔ ∃ verdict ∈ tally.verdicts, verdict.status = .failed

theorem agrees_fail : (tally.fail item kind recomputed).Agrees := by
  simp [Tally.Agrees, Tally.fail]

theorem agrees_downgrade (h : tally.Agrees) : (tally.downgrade item kind).Agrees := by
  simpa [Tally.Agrees, Tally.downgrade, or_and_right, exists_or] using h

theorem agrees_pass (h : tally.Agrees) : (tally.pass item kind recomputed).Agrees := by
  simpa [Tally.Agrees, Tally.pass, or_and_right, exists_or] using h

theorem agrees_closureTally :
    (closureTally host runners repoDir extraBases contract result).Agrees := by
  apply consume_induct
  · intro residual found tally h
    unfold judgeResidual
    split
    next => exact agrees_fail
    next =>
      split_ifs
      · exact agrees_downgrade h
      · exact agrees_fail
      · dsimp only
        split
        next => exact agrees_downgrade h
        next => exact agrees_fail
        next =>
          split_ifs
          · exact agrees_fail
          · exact agrees_pass h
  apply consume_induct
  · intro artifact found tally h
    unfold judgeRipple
    split
    next => exact agrees_fail
    next =>
      split_ifs
      · exact agrees_fail
      · exact agrees_fail
      · exact agrees_pass h
  apply consume_induct
  · intro crit found tally h
    unfold judgeCriterion
    split
    next => exact agrees_fail
    next =>
      split_ifs
      · split
        next => exact agrees_downgrade h
        next => exact agrees_downgrade h
        next => exact agrees_fail
        next =>
          split_ifs
          · exact agrees_fail
          · exact agrees_fail
          · exact agrees_pass h
      · exact agrees_downgrade h
  simp [Tally.Agrees]

theorem strongGatePassed_iff : (verifyClosureAgainstContract host runners repoDir extraBases
    contract result).strongGatePassed = true ↔
      (closureTally host runners repoDir extraBases contract result).Clean := by
  simp [verifyClosureAgainstContract, Tally.Clean]

theorem deriveClosureState_closes (unrelated : Bool) :
    let outcome := verifyClosureAgainstContract host runners repoDir extraBases contract result
    (deriveClosureState outcome unrelated = .closed ∨
        deriveClosureState outcome unrelated = .newUnrelatedFindingLogged) ↔
      outcome.strongGatePassed = true := by
  intro outcome
  rw [strongGatePassed_iff]
  have hagrees : (closureTally host runners repoDir extraBases contract result).Agrees :=
    agrees_closureTally
  unfold outcome verifyClosureAgainstContract Tally.Clean
  generalize closureTally host runners repoDir extraBases contract result = tally at hagrees
  unfold deriveClosureState
  cases hfailed : tally.anyFailed with
  | true =>
    -- whatever the kind of the failed verdict, the state is not a closed one
    obtain ⟨verdict, hverdict, hstatus⟩ := hagrees.mp hfailed
    have hany : (tally.verdicts.any fun v => v.kind = .criterion ∧ v.status = .failed) = true ∨
        (tally.verdicts.any fun v =>
          (v.kind = .ripple ∨ v.kind = .residual) ∧ v.status = .failed) = true := by
      simp only [List.any_eq_true, decide_eq_true_eq]
      cases hkind : verdict.kind with
      | criterion => exact .inl ⟨verdict, hverdict, hkind, hstatus⟩
      | ripple => exact .inr ⟨verdict, hverdict, .inl hkind, hstatus⟩
      | residual => exact .inr ⟨verdict, hverdict, .inr hkind, hstatus⟩
    rcases hany with hany | hany
    · simp only [hany, ↓reduceIte, reduceCtorEq, or_self, false_iff]
      simp
    · simp only [hany, ↓reduceIte]
      split_ifs <;> simp
  | false =>
    have hnone : ∀ verdict ∈ tally.verdicts, verdict.status ≠ .failed := by
      intro verdict hverdict hstatus
      have hset := hagrees.mpr ⟨verdict, hverdict, hstatus⟩
      rw [hfailed] at hset
      cases hset
    have hcriterion : (tally.verdicts.any fun v => v.kind = .criterion ∧ v.status = .failed) =
        false := by
      simpa using fun verdict hverdict _ => hnone verdict hverdict
    have hother : (tally.verdicts.any fun v =>
        (v.kind = .ripple ∨ v.kind = .residual) ∧ v.status = .failed) = false := by
      simpa using fun verdict hverdict _ => hnone verdict hverdict
    rw [hcriterion, hother]
    by_cases hdowngrade : tally.anyNotRecomputable = true <;> cases unrelated <;>
      simp [hfailed, hdowngrade]

theorem verifyClosure_exact :
    let outcome := verifyClosureAgainstContract host runners repoDir extraBases contract result
    (outcome.strongGatePassed = true → CoversContract contract result ∧
        RunnersHold host runners repoDir extraBases contract) ∧
      (RunnersHold host runners repoDir extraBases contract → ReportsPassed result →
        CoversContract contract result → outcome.strongGatePassed = true) ∧
      ∀ unrelated, (deriveClosureState outcome unrelated = .closed ∨
          deriveClosureState outcome unrelated = .newUnrelatedFindingLogged) ↔
        outcome.strongGatePassed = true := by
  intro outcome
  refine ⟨?_, ?_, deriveClosureState_closes⟩
  · intro h
    obtain ⟨hclean, hresiduals, hgone⟩ :=
      of_clean_consume clean_judgeResidual (strongGatePassed_iff.mp h)
    obtain ⟨hclean, hripples, _⟩ := of_clean_consume clean_judgeRipple hclean
    obtain ⟨_, hcriteria, hholds⟩ := of_clean_consume clean_judgeCriterion hclean
    constructor
    · exact ⟨hcriteria, hripples, hresiduals⟩
    · constructor
      · intro crit hcrit
        obtain ⟨_, hcriterion, _⟩ := hholds crit hcrit
        exact hcriterion
      · intro residual hresidual
        obtain ⟨_, hresidual⟩ := hgone residual hresidual
        exact hresidual
  · intro hhold hreport hcover
    apply strongGatePassed_iff.mpr
    apply clean_consume clean_judgeResidual
    · apply clean_consume clean_judgeRipple
      · apply clean_consume clean_judgeCriterion
        · exact ⟨rfl, rfl⟩
        · exact hcover.criteria.names
        · intro crit hcrit item hitem
          exact ⟨hhold.criteria crit hcrit, hreport.criteria item hitem⟩
      · exact hcover.ripples.names
      · intro artifact _ item hitem
        simp [hreport.ripples item hitem]
    · exact hcover.residuals.names
    · intro residual hresidual item _
      exact hhold.residuals residual hresidual

/-- Two matches where one is expected: enough under `gte`, too many without it. -/
example :
    let host : Host String :=
      { join := (· ++ "/" ++ ·), present := fun _ => true, projectRoot := some
        relativeTo := fun _ _ => none, isWordChar := Char.isAlphanum, compile := fun _ => none }
    let runners : Runners String := { grep := fun _ _ => .found 2, pytest := fun _ _ => none }
    let gatePassed comparator := (verifyClosureAgainstContract host runners "repo" []
      { closureCriteria := [{ condition := "c-1", verificationMethod := .grep
                              verificationPattern := some "def run", expectedOccurrences := some 1
                              occurrenceComparator := comparator }] }
      { criteriaResults := [{ criterion := "c-1", selfReportedPassed := true }] }).strongGatePassed
    gatePassed (some .gte) = true ∧ gatePassed none = false := by
  decide
end Flowness.ClosureVerification
