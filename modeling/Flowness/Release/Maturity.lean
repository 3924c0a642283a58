import Flowness.Library.Dict
import Mathlib.Data.List.Induction
import Mathlib.Data.List.Sort
import Mathlib.Data.Set.Defs
import Mathlib.Order.Bounds.Defs

/-!
The candidate, policy and reports of a release evaluation, and its module part: the rows of the
candidate by their ids, the maturity that the evidence of a module supports, and the demands that
the profile of a stage makes on it.
-/

namespace Flowness.Release

open List Library Dict

structure Snapshot where
  snapshotId : String
  dirty : Bool

structure Evidence where
  evidenceId : String
  type : String
  snapshotId : String

structure Dependency where
  moduleId : String
  minMaturity : Nat

structure Module where
  moduleId : String
  layer : String
  critical : Bool
  declaredMaturity : Nat
  dependencies : List Dependency
  evidenceIds : List String

structure Claim where
  claimId : String
  evidenceIds : List String

structure Candidate where
  candidateId : String
  snapshot : Snapshot
  targetStage : String
  createdAt : String
  modules : List Module
  claims : List Claim
  evidence : List Evidence

structure Selector where
  layer : List String := []
  critical : Option Bool := none

inductive ModuleRequirement where
  | explicit (moduleId : String) (minMaturity : Nat)
  | selected (selector : Selector) (minMaturity : Nat)

def ModuleRequirement.minMaturity : ModuleRequirement → Nat
  | .explicit _ minMaturity => minMaturity
  | .selected _ minMaturity => minMaturity

structure StageProfile where
  moduleRequirements : List ModuleRequirement
  mandatoryGates : List String

inductive RoleKind where
  | builder | judge | adjudicator | owner
deriving DecidableEq

structure Role where
  roleId : String
  kind : RoleKind
  dimensions : List String
  gates : List String
  checks : List String

inductive RoleDemand where
  | role (roleId : String)
  | counted (roleId : String) (minCount : Int)

structure RequiredCheck where
  checkId : String
  dimension : String
  critical : Bool
  allowNa : Bool
  requiredRoles : List RoleDemand
  allowedRoles : List String

structure Gate where
  gateId : String
  requiredChecks : List RequiredCheck

structure Policy where
  policyVersion : Option String
  maturityLevels : List (Nat × List String)
  levels_nodup : (maturityLevels.map Prod.fst).Nodup
  stageProfiles : List (String × StageProfile)
  gates : List Gate
  roles : List Role
  judgesPerCheck : Int := 2

inductive Phase where
  | firstPass | retest | adjudication
deriving DecidableEq

inductive Verdict where
  | pass | fail | unknown | na
deriving DecidableEq

inductive Organization where
  | independent | internal
deriving DecidableEq

inductive Resolution where
  | upholdFail | clearAfterRetest
deriving DecidableEq

structure Reproduction where
  commandTemplate : String
  environmentHash : String
  attempts : Nat

structure Check where
  checkId : String
  gateId : String
  dimension : String
  critical : Bool
  verdict : Verdict
  evidenceIds : List String
  reproduction : Option Reproduction
  observed : String
  blockerId : Option String
  retestCondition : String

structure Attestations where
  blindFirstPass : Bool
  noSharedVerdicts : Bool
  notCandidateAuthor : Bool

structure Judge where
  roleId : String
  agentInstanceId : String
  organization : Organization
  conflicts : List String
  attestations : Attestations

structure Adjudication where
  disputedReportIds : List String
  resolution : Resolution

structure Report where
  reportId : String
  candidateId : String
  snapshotId : String
  policyVersion : Option String
  phase : Phase
  judge : Judge
  finishedAt : String
  checks : List Check
  adjudication : Option Adjudication

/-- `_system_blocker`. The blockers end as a sorted set, so one may be listed more than once. -/
def systemBlocker (suffix : String) : String := "SYSTEM-" ++ suffix

section Index

variable {α : Type} (field : String) (key : α → String)

def indexRow (indexed : Dict String α × List String) (row : α) : Dict String α × List String :=
  if key row = "" ∨ Dict.contains indexed.1 (key row) then
    (indexed.1, indexed.2 ++ [systemBlocker ("INVALID-" ++ field)])
  else (Dict.set indexed.1 (key row) row, indexed.2)

/-- `_index_unique`, given the key's name in upper case: a row without an id, or with that of a row
before it, is left out. -/
def indexUnique (rows : List α) : Dict String α × List String :=
  rows.foldl (indexRow field key) ([], [])

variable {field key}

theorem indexUnique_snoc (rows : List α) (row : α) :
    indexUnique field key (rows ++ [row]) = indexRow field key (indexUnique field key rows) row :=
  foldl_concat ..

theorem indexUnique_eq (h : (indexUnique field key rows).2 = []) :
    (indexUnique field key rows).1 = rows.map (fun row => (key row, row)) ∧
      (rows.map key).Nodup := by
  induction rows using List.reverseRecOn with
  | nil => exact ⟨rfl, nodup_nil⟩
  | append_singleton rows row ih =>
    rw [indexUnique_snoc, indexRow] at h ⊢
    split at h
    · simp at h
    next hrow =>
      obtain ⟨hindex, hnodup⟩ := ih h
      have hkeys : Dict.keys (indexUnique field key rows).1 = rows.map key := by
        rw [hindex, Dict.keys, map_map]
        rfl
      have hnew : key row ∉ rows.map key := by
        rw [← hkeys, ← get_eq_none_iff]
        simpa [Dict.contains] using (not_or.mp hrow).2
      rw [if_neg hrow]
      constructor
      · rw [set_of_not_mem (by rwa [hkeys]), hindex, map_append, map_singleton]
      · rw [map_append, map_singleton]
        exact nodup_append.mpr ⟨hnodup, nodup_singleton _, by
          intro other hother _ hrow heq
          rw [mem_singleton.mp hrow] at heq
          exact hnew (heq ▸ hother)⟩

structure Indexes (key : α → String) (rows : List α) (index : Dict String α) : Prop where
  nodup : index.keys.Nodup
  row : ∀ entry ∈ index, entry.1 = key entry.2 ∧ entry.2 ∈ rows

theorem indexUnique_indexes (rows : List α) :
    Indexes key rows (indexUnique field key rows).1 := by
  induction rows using List.reverseRecOn with
  | nil => exact ⟨nodup_nil, fun entry h => by cases h⟩
  | append_singleton rows row ih =>
    rw [indexUnique_snoc, indexRow]
    split
    · exact ⟨ih.nodup, fun entry h =>
        ⟨(ih.row entry h).1, mem_append_left _ (ih.row entry h).2⟩⟩
    · refine ⟨nodup_keys_set ih.nodup _ _, ?_⟩
      rintro ⟨id, found⟩ h
      rcases (mem_set ih.nodup).mp h with ⟨rfl, rfl⟩ | ⟨-, hold⟩
      · exact ⟨rfl, mem_append_right _ (mem_singleton_self _)⟩
      · exact ⟨(ih.row _ hold).1, mem_append_left _ (ih.row _ hold).2⟩

theorem get_indexUnique_iff (h : (indexUnique field key rows).2 = []) {id : String} :
    Dict.get (indexUnique field key rows).1 id = some row ↔ row ∈ rows ∧ key row = id := by
  rw [← mem_iff_get (indexUnique_indexes rows).nodup, (indexUnique_eq h).1, mem_map]
  constructor
  · rintro ⟨found, hfound, heq⟩
    cases heq
    exact ⟨hfound, rfl⟩
  · rintro ⟨hrow, rfl⟩
    exact ⟨row, hrow, rfl⟩

end Index

def Candidate.evidenceIndex (candidate : Candidate) : Dict String Evidence × List String :=
  indexUnique "EVIDENCE_ID" Evidence.evidenceId candidate.evidence

def Candidate.moduleIndex (candidate : Candidate) : Dict String Module × List String :=
  indexUnique "MODULE_ID" Module.moduleId candidate.modules

def Candidate.claimIndex (candidate : Candidate) : Dict String Claim × List String :=
  indexUnique "CLAIM_ID" Claim.claimId candidate.claims

def Policy.roleIndex (policy : Policy) : Dict String Role × List String :=
  indexUnique "ROLE_ID" Role.roleId policy.roles

def Policy.gateIndex (policy : Policy) : Dict String Gate × List String :=
  indexUnique "GATE_ID" Gate.gateId policy.gates

def Candidate.dangling (candidate : Candidate) (referenced : List String) : Prop :=
  ∃ evidenceId ∈ referenced, Dict.get candidate.evidenceIndex.1 evidenceId = none

def Candidate.stale (candidate : Candidate) (referenced : List String) : Prop :=
  ∃ evidenceId ∈ referenced, ∃ row ∈ Dict.get candidate.evidenceIndex.1 evidenceId,
    row.snapshotId ≠ candidate.snapshot.snapshotId

instance (candidate : Candidate) (referenced : List String) :
    Decidable (candidate.dangling referenced) := List.decidableBEx _ _

instance (candidate : Candidate) (referenced : List String) :
    Decidable (candidate.stale referenced) := List.decidableBEx _ _

def Candidate.evidenceBlockers (candidate : Candidate) (kind id : String)
    (referenced : List String) : List String :=
  (if candidate.dangling referenced then
    [systemBlocker ("DANGLING-" ++ kind ++ "EVIDENCE-" ++ id)] else []) ++
  (if candidate.stale referenced then
    [systemBlocker ("STALE-" ++ kind ++ "EVIDENCE-" ++ id)] else [])

def Candidate.claimBlockers (candidate : Candidate) : List String :=
  candidate.claimIndex.1.flatMap fun entry =>
    candidate.evidenceBlockers "CLAIM-" entry.1 entry.2.evidenceIds

/-- The loop of `_highest_maturity`, with the evidence types needed so far. -/
def climb (types : List String) : List (Nat × List String) → List String → Nat → Nat
  | [], _, highest => highest
  | (level, needed) :: levels, accumulated, highest =>
    if ∀ type ∈ accumulated ++ needed, type ∈ types then
      climb types levels (accumulated ++ needed) level
    else highest

def highestMaturity (types : List String) (levels : List (Nat × List String)) : Nat :=
  climb types (levels.insertionSort fun lower upper => lower.1 ≤ upper.1) [] 0

/-- The level is cumulatively supported: every level up to it has its evidence. -/
def Evidenced (levels : List (Nat × List String)) (supported : String → Prop) (level : Nat) : Prop :=
  level = 0 ∨ level ∈ levels.map Prod.fst ∧
    ∀ entry ∈ levels, entry.1 ≤ level → ∀ type ∈ entry.2, supported type

theorem climb_isGreatest (hsorted : levels.Pairwise fun lower upper => lower.1 < upper.1)
    (hbelow : ∀ entry ∈ levels, highest ≤ entry.1) (hheld : ∀ type ∈ accumulated, type ∈ types) :
    IsGreatest {level | level = highest ∨ level ∈ levels.map Prod.fst ∧
        ∀ entry ∈ levels, entry.1 ≤ level → ∀ type ∈ entry.2, type ∈ types}
      (climb types levels accumulated highest) := by
  induction levels generalizing accumulated highest with
  | nil =>
    refine ⟨.inl rfl, fun level hlevel => ?_⟩
    rcases hlevel with rfl | ⟨hmem, -⟩
    · exact le_refl _
    · cases hmem
  | cons entry levels ih =>
    obtain ⟨key, needed⟩ := entry
    obtain ⟨habove, hsorted⟩ := pairwise_cons.mp hsorted
    have hkey : highest ≤ key := hbelow (key, needed) mem_cons_self
    unfold climb
    split
    next hneeded =>
      obtain ⟨hmem, hupper⟩ := ih hsorted (fun entry h => (habove entry h).le) hneeded
      have hfirst : ∀ type ∈ needed, type ∈ types :=
        fun type h => hneeded type (mem_append_right _ h)
      have hkeyle := hupper (.inl rfl)
      constructor
      · rcases hmem with heq | ⟨hlater, hall⟩
        · rw [heq]
          refine .inr ⟨mem_cons_self, ?_⟩
          intro entry hentry hle
          rcases mem_cons.mp hentry with rfl | hrest
          · exact hfirst
          · exact absurd hle (not_le.mpr (habove entry hrest))
        · exact .inr ⟨mem_cons_of_mem _ hlater, forall_mem_cons.mpr
            ⟨fun _ => hfirst, hall⟩⟩
      · intro level hlevel
        rcases hlevel with rfl | ⟨hlevels, hall⟩
        · exact hkey.trans hkeyle
        · rcases mem_cons.mp hlevels with rfl | hrest
          · exact hkeyle
          · exact hupper (.inr ⟨hrest, (forall_mem_cons.mp hall).2⟩)
    next hneeded =>
      refine ⟨.inl rfl, fun level hlevel => ?_⟩
      rcases hlevel with rfl | ⟨hlevels, hall⟩
      · exact le_refl _
      · have hle : key ≤ level := by
          rcases mem_cons.mp hlevels with rfl | hrest
          · exact le_refl _
          · obtain ⟨other, hother, rfl⟩ := mem_map.mp hrest
            exact (habove other hother).le
        refine absurd (forall_mem_append.mpr ⟨hheld, ?_⟩) hneeded
        exact hall (key, needed) mem_cons_self hle

theorem highestMaturity_isGreatest (hnodup : (levels.map Prod.fst).Nodup) :
    IsGreatest {level | Evidenced levels (· ∈ types) level} (highestMaturity types levels) := by
  let order : Nat × List String → Nat × List String → Prop := fun lower upper => lower.1 ≤ upper.1
  have hperm := perm_insertionSort order levels
  have hsorted := pairwise_insertionSort order levels
  have hne : (levels.insertionSort order).Pairwise fun lower upper => lower.1 ≠ upper.1 :=
    pairwise_map.mp ((hperm.map Prod.fst).nodup_iff.mpr hnodup)
  have hstrict : (levels.insertionSort order).Pairwise fun lower upper => lower.1 < upper.1 :=
    (hsorted.and hne).imp fun h => lt_of_le_of_ne h.1 h.2
  have hgreatest : IsGreatest {level | Evidenced (levels.insertionSort order) (· ∈ types) level}
      (climb types (levels.insertionSort order) [] 0) :=
    climb_isGreatest hstrict (fun _ _ => Nat.zero_le _) (by simp)
  simp only [Evidenced, hperm.mem_iff, (hperm.map Prod.fst).mem_iff] at hgreatest
  exact hgreatest

def Candidate.evidenceTypes (candidate : Candidate) (module : Module) : List String :=
  ((module.evidenceIds.filterMap (Dict.get candidate.evidenceIndex.1)).filter
    (·.snapshotId = candidate.snapshot.snapshotId)).map (·.type)

def effectiveMaturity (candidate : Candidate) (policy : Policy) (module : Module) : Nat :=
  min module.declaredMaturity
    (highestMaturity (candidate.evidenceTypes module) policy.maturityLevels)

def Selector.matches (selector : Selector) (module : Module) : Bool :=
  (selector.layer = [] ∨ module.layer ∈ selector.layer) ∧
    ∀ critical ∈ selector.critical, module.critical = critical

def demand (modules : Dict String Module) (demands : Dict String Nat) :
    ModuleRequirement → Dict String Nat
  | .explicit moduleId minMaturity => Dict.set demands moduleId minMaturity
  | .selected selector minMaturity =>
    modules.foldl (fun demands entry =>
      if selector.matches entry.2 then
        Dict.set demands entry.1 (max ((Dict.get demands entry.1).getD 0) minMaturity)
      else demands) demands

def demandsOf (modules : Dict String Module) (requirements : List ModuleRequirement) :
    Dict String Nat :=
  requirements.foldl (demand modules) []

inductive Outcome where
  | pass | blocked
deriving DecidableEq

structure ModuleResult where
  moduleId : String
  declaredMaturity : Nat
  effectiveMaturity : Nat
  requiredMaturity : Nat
  dependencyPass : Bool
  missingEvidence : List String
  effectiveVerdict : Outcome
deriving DecidableEq

section Results

variable (candidate : Candidate) (policy : Policy) (requirements : List ModuleRequirement)

def dependencyFailure (dependency : Dependency) : Option String :=
  match Dict.get candidate.moduleIndex.1 dependency.moduleId with
  | none => some ("missing dependency " ++ dependency.moduleId)
  | some module =>
    if effectiveMaturity candidate policy module < dependency.minMaturity then
      some ("dependency maturity " ++ dependency.moduleId)
    else none

def dependencyPass (module : Module) : Prop :=
  module.dependencies.filterMap (dependencyFailure candidate policy) = []

instance (module : Module) : Decidable (dependencyPass candidate policy module) :=
  decidable_of_iff _ List.isEmpty_iff

def requiredMaturity (module : Module) : Nat :=
  (Dict.get (demandsOf candidate.moduleIndex.1 requirements) module.moduleId).getD 0

def modulePasses (module : Module) : Prop :=
  requiredMaturity candidate requirements module ≤ effectiveMaturity candidate policy module ∧
    dependencyPass candidate policy module

instance (module : Module) : Decidable (modulePasses candidate policy requirements module) :=
  inferInstanceAs (Decidable (_ ∧ _))

def moduleResult (module : Module) : ModuleResult :=
  { moduleId := module.moduleId
    declaredMaturity := module.declaredMaturity
    effectiveMaturity := effectiveMaturity candidate policy module
    requiredMaturity := requiredMaturity candidate requirements module
    dependencyPass := dependencyPass candidate policy module
    missingEvidence := module.dependencies.filterMap (dependencyFailure candidate policy)
    effectiveVerdict :=
      if modulePasses candidate policy requirements module then .pass else .blocked }

def moduleBlocked (module : Module) : Prop :=
  requiredMaturity candidate requirements module ≠ 0 ∧
    ¬ modulePasses candidate policy requirements module

instance (module : Module) : Decidable (moduleBlocked candidate policy requirements module) :=
  inferInstanceAs (Decidable (_ ∧ _))

def maturityBlockers : List String :=
  ((candidate.moduleIndex.1.map Prod.snd).filter
      (moduleBlocked candidate policy requirements ·)).map (fun module => "MATURITY-" ++ module.moduleId) ++
    ((demandsOf candidate.moduleIndex.1 requirements).keys.filter
      (Dict.contains candidate.moduleIndex.1 · = false)).map ("MISSING-MODULE-" ++ ·)

/-- `_module_results`: the results in the order of their ids, and the blockers. -/
def moduleResults : List ModuleResult × List String :=
  (((candidate.moduleIndex.1.map Prod.snd).map
      (moduleResult candidate policy requirements)).insertionSort (·.moduleId ≤ ·.moduleId),
    (candidate.moduleIndex.1.flatMap fun entry =>
      candidate.evidenceBlockers "" entry.1 entry.2.evidenceIds) ++
    maturityBlockers candidate policy requirements)

end Results

end Flowness.Release
