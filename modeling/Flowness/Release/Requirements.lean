import Mathlib.Logic.Relation
import Mathlib.Order.Bounds.Basic
import Flowness.Release.Passing

/-!
What the requirements of a stage come to: which entry of several on one module stands, when the
modules of a passed candidate meet them all, and when their order does not matter.
-/

namespace Flowness.Release

open List Library Dict

def ModuleRequirement.matches : ModuleRequirement → Module → Prop
  | .explicit moduleId _, module => moduleId = module.moduleId
  | .selected selector _, module => selector.matches module

/-- The entry is followed by no explicit one on its module. -/
def Standing (requirements : List ModuleRequirement) (module : Module)
    (requirement : ModuleRequirement) : Prop :=
  ∃ before after, requirements = before ++ requirement :: after ∧ requirement.matches module ∧
    ∀ minMaturity, .explicit module.moduleId minMaturity ∉ after

/-- The entry is followed by an explicit one on its module. -/
def Overridden (requirements : List ModuleRequirement) (module : Module)
    (requirement : ModuleRequirement) : Prop :=
  ∃ before after, requirements = before ++ requirement :: after ∧ requirement.matches module ∧
    ∃ minMaturity, .explicit module.moduleId minMaturity ∈ after

section Standing

variable {requirements : List ModuleRequirement} {module : Module}

theorem Standing.mem (h : Standing requirements module requirement) :
    requirement ∈ requirements ∧ requirement.matches module := by
  obtain ⟨before, after, rfl, hmatches, -⟩ := h
  exact ⟨by simp, hmatches⟩

theorem standing_or_overridden (hmem : requirement ∈ requirements)
    (hmatches : requirement.matches module) :
    Standing requirements module requirement ∨ Overridden requirements module requirement := by
  obtain ⟨before, after, rfl⟩ := append_of_mem hmem
  by_cases hexplicit : ∃ minMaturity, .explicit module.moduleId minMaturity ∈ after
  · exact .inr ⟨before, after, rfl, hmatches, hexplicit⟩
  · exact .inl ⟨before, after, rfl, hmatches, not_exists.mp hexplicit⟩

theorem standing_snoc : Standing (requirements ++ [last]) module requirement ↔
      requirement = last ∧ last.matches module ∨
        Standing requirements module requirement ∧
          ∀ minMaturity, last ≠ .explicit module.moduleId minMaturity := by
  constructor
  · rintro ⟨before, after, heq, hmatches, hnone⟩
    rcases eq_nil_or_concat' after with rfl | ⟨after, final, rfl⟩
    · obtain ⟨rfl, hlast⟩ := append_inj' heq rfl
      obtain rfl := (List.cons.inj hlast).1
      exact .inl ⟨rfl, hmatches⟩
    · rw [← cons_append, ← append_assoc] at heq
      obtain ⟨rfl, hlast⟩ := append_inj' heq rfl
      obtain rfl := (List.cons.inj hlast).1
      refine .inr ⟨⟨before, after, rfl, hmatches, fun minMaturity hmem => ?_⟩, ?_⟩
      · exact hnone minMaturity (mem_append_left _ hmem)
      · rintro minMaturity rfl
        exact hnone minMaturity (mem_append_right _ (mem_singleton_self _))
  · rintro (⟨rfl, hmatches⟩ | ⟨⟨before, after, rfl, hmatches, hnone⟩, hlast⟩)
    · exact ⟨requirements, [], rfl, hmatches, fun _ h => by cases h⟩
    · refine ⟨before, after ++ [last], by simp, hmatches, fun minMaturity hmem => ?_⟩
      rcases List.mem_append.mp hmem with hafter | hfinal
      · exact hnone minMaturity hafter
      · exact hlast minMaturity (List.mem_singleton.mp hfinal).symm

theorem exists_standing_explicit (h : ∃ minMaturity,
    .explicit module.moduleId minMaturity ∈ requirements) :
    ∃ minMaturity, Standing requirements module (.explicit module.moduleId minMaturity) := by
  induction requirements using List.reverseRecOn with
  | nil =>
    obtain ⟨minMaturity, hmem⟩ := h
    cases hmem
  | append_singleton requirements last ih =>
    by_cases hlast : ∃ minMaturity, last = .explicit module.moduleId minMaturity
    · obtain ⟨minMaturity, rfl⟩ := hlast
      exact ⟨minMaturity, standing_snoc.mpr (.inl ⟨rfl, rfl⟩)⟩
    · obtain ⟨minMaturity, hmem⟩ := h
      rcases List.mem_append.mp hmem with hbefore | hfinal
      · obtain ⟨standing, hstanding⟩ := ih ⟨minMaturity, hbefore⟩
        exact ⟨standing, standing_snoc.mpr (.inr ⟨hstanding, not_exists.mp hlast⟩)⟩
      · exact absurd ⟨minMaturity, (List.mem_singleton.mp hfinal).symm⟩ hlast

end Standing

section Demand

variable {candidate : Candidate} {requirements : List ModuleRequirement} {module : Module}

def Present (candidate : Candidate) (module : Module) : Prop :=
  (module.moduleId, module) ∈ candidate.moduleIndex.1

theorem moduleIndex_indexes (candidate : Candidate) :
    Indexes Module.moduleId candidate.modules candidate.moduleIndex.1 :=
  indexUnique_indexes candidate.modules

theorem demandsOf_snoc (modules : Dict String Module) (last : ModuleRequirement) :
    demandsOf modules (requirements ++ [last]) = demand modules (demandsOf modules requirements) last :=
  foldl_concat ..

/-- One entry more: an explicit one on the module replaces the demand, one by a selector raises it,
and one that is not about the module leaves it. -/
theorem requiredMaturity_snoc (hpresent : Present candidate module) (last : ModuleRequirement) :
    (∃ minMaturity, last = .explicit module.moduleId minMaturity ∧
      requiredMaturity candidate (requirements ++ [last]) module = minMaturity) ∨
    (∀ minMaturity, last ≠ .explicit module.moduleId minMaturity) ∧
      (last.matches module ∧ requiredMaturity candidate (requirements ++ [last]) module =
          max (requiredMaturity candidate requirements module) last.minMaturity ∨
        ¬ last.matches module ∧ requiredMaturity candidate (requirements ++ [last]) module =
          requiredMaturity candidate requirements module) := by
  unfold requiredMaturity
  rw [demandsOf_snoc]
  cases last with
  | explicit moduleId minMaturity =>
    by_cases hmatches : moduleId = module.moduleId
    · subst hmatches
      refine .inl ⟨minMaturity, rfl, ?_⟩
      rw [demand, get_set_self]
      rfl
    · refine .inr ⟨fun other heq => ?_, .inr ⟨hmatches, ?_⟩⟩
      · exact hmatches (ModuleRequirement.explicit.inj heq).1
      · rw [demand, get_set_of_ne _ _ (Ne.symm hmatches)]
  | selected selector minMaturity =>
    have hget := get_foldl_update (moduleIndex_indexes candidate).nodup selector.matches
      (fun old => max (old.getD 0) minMaturity)
      (demandsOf candidate.moduleIndex.1 requirements) hpresent
    refine .inr ⟨(by simp), ?_⟩
    by_cases hmatches : selector.matches module
    · rw [if_pos hmatches] at hget
      refine .inl ⟨hmatches, ?_⟩
      rw [demand, hget]
      rfl
    · rw [if_neg hmatches] at hget
      refine .inr ⟨hmatches, ?_⟩
      rw [demand, hget]

theorem le_requiredMaturity_iff (hpresent : Present candidate module) (hbound : 0 < bound) :
    bound ≤ requiredMaturity candidate requirements module ↔
      ∃ requirement, Standing requirements module requirement ∧ bound ≤ requirement.minMaturity := by
  induction requirements using List.reverseRecOn with
  | nil =>
    have hzero : requiredMaturity candidate [] module = 0 := rfl
    constructor
    · intro h
      omega
    · rintro ⟨requirement, ⟨before, after, heq, -⟩, -⟩
      simp at heq
  | append_singleton requirements last ih =>
    rcases requiredMaturity_snoc hpresent last with
      ⟨minMaturity, rfl, hreplaced⟩ | ⟨hne, ⟨hmatches, hraised⟩ | ⟨hother, hkept⟩⟩
    · rw [hreplaced]
      constructor
      · exact fun h => ⟨_, standing_snoc.mpr (.inl ⟨rfl, rfl⟩), h⟩
      · rintro ⟨requirement, hstanding, hle⟩
        rcases standing_snoc.mp hstanding with ⟨rfl, -⟩ | ⟨-, hne⟩
        · exact hle
        · exact absurd rfl (hne minMaturity)
    · rw [hraised, le_max_iff, ih]
      constructor
      · rintro (⟨requirement, hstanding, hle⟩ | hle)
        · exact ⟨requirement, standing_snoc.mpr (.inr ⟨hstanding, hne⟩), hle⟩
        · exact ⟨last, standing_snoc.mpr (.inl ⟨rfl, hmatches⟩), hle⟩
      · rintro ⟨requirement, hstanding, hle⟩
        rcases standing_snoc.mp hstanding with ⟨rfl, -⟩ | ⟨hstanding, -⟩
        · exact .inr hle
        · exact .inl ⟨requirement, hstanding, hle⟩
    · rw [hkept, ih]
      apply exists_congr
      intro requirement
      simp [standing_snoc, hother, hne]

theorem mem_keys_demandsOf (habsent : moduleId ∉ candidate.moduleIndex.1.keys) :
    moduleId ∈ (demandsOf candidate.moduleIndex.1 requirements).keys ↔
      ∃ minMaturity, .explicit moduleId minMaturity ∈ requirements := by
  induction requirements using List.reverseRecOn with
  | nil => simp [demandsOf, Dict.keys]
  | append_singleton requirements last ih =>
    rw [demandsOf_snoc]
    cases last with
    | explicit other minMaturity =>
      rw [demand, mem_keys_set, ih]
      simp [or_comm, exists_or]
    | selected selector minMaturity =>
      have hget := get_foldl_update_of_not_mem selector.matches
        (fun old => max (old.getD 0) minMaturity)
        (demandsOf candidate.moduleIndex.1 requirements) habsent
      have hkeys : moduleId ∈ (demand candidate.moduleIndex.1
          (demandsOf candidate.moduleIndex.1 requirements) (.selected selector minMaturity)).keys ↔
            moduleId ∈ (demandsOf candidate.moduleIndex.1 requirements).keys := by
        rw [← not_iff_not, ← get_eq_none_iff, ← get_eq_none_iff, demand, hget]
      rw [hkeys, ih]
      simp

end Demand

section Maturity

variable {candidate : Candidate} {policy : Policy} {module : Module}

/-- The candidate has evidence of the type for the module, and of its own snapshot. -/
def Evidences (candidate : Candidate) (module : Module) (type : String) : Prop :=
  ∃ row ∈ candidate.evidence, row.evidenceId ∈ module.evidenceIds ∧
    row.snapshotId = candidate.snapshot.snapshotId ∧ row.type = type

/-- The level is the highest one that the evidence cumulatively supports, capped by the declared
one. -/
def HasMaturity (candidate : Candidate) (policy : Policy) (module : Module) (level : Nat) : Prop :=
  ∃ highest, IsGreatest {level | Evidenced policy.maturityLevels (Evidences candidate module) level}
    highest ∧ level = min module.declaredMaturity highest

theorem mem_evidenceTypes (hevidence : candidate.evidenceIndex.2 = []) :
    type ∈ candidate.evidenceTypes module ↔ Evidences candidate module type := by
  simp only [Candidate.evidenceTypes, mem_map, mem_filter, mem_filterMap,
    decide_eq_true_eq, Candidate.evidenceIndex, get_indexUnique_iff hevidence]
  constructor
  · rintro ⟨row, ⟨⟨evidenceId, hreferenced, hrow, rfl⟩, hsnapshot⟩, rfl⟩
    exact ⟨row, hrow, hreferenced, hsnapshot, rfl⟩
  · rintro ⟨row, hrow, hreferenced, hsnapshot, rfl⟩
    exact ⟨row, ⟨⟨row.evidenceId, hreferenced, hrow, rfl⟩, hsnapshot⟩, rfl⟩

theorem hasMaturity_iff (hevidence : candidate.evidenceIndex.2 = []) :
    HasMaturity candidate policy module level ↔ level = effectiveMaturity candidate policy module := by
  have hgreatest : IsGreatest
      {level | Evidenced policy.maturityLevels (Evidences candidate module) level}
      (highestMaturity (candidate.evidenceTypes module) policy.maturityLevels) := by
    simpa only [mem_evidenceTypes hevidence] using
      @highestMaturity_isGreatest _ (candidate.evidenceTypes module) policy.levels_nodup
  constructor
  · rintro ⟨highest, hhighest, rfl⟩
    rw [effectiveMaturity, hhighest.unique hgreatest]
  · rintro rfl
    exact ⟨_, hgreatest, rfl⟩

def MatureAt (candidate : Candidate) (policy : Policy) (module : Module) (bound : Nat) : Prop :=
  ∃ level, HasMaturity candidate policy module level ∧ bound ≤ level

theorem matureAt_iff (hevidence : candidate.evidenceIndex.2 = []) :
    MatureAt candidate policy module bound ↔ bound ≤ effectiveMaturity candidate policy module := by
  simp [MatureAt, hasMaturity_iff hevidence]

/-- Every dependency of the module is there, and mature enough. -/
def DependenciesMet (candidate : Candidate) (policy : Policy) (module : Module) : Prop :=
  ∀ dependency ∈ module.dependencies, ∃ other ∈ candidate.modules,
    other.moduleId = dependency.moduleId ∧
      MatureAt candidate policy other dependency.minMaturity

theorem dependencyPass_iff (hevidence : candidate.evidenceIndex.2 = [])
    (hmodules : candidate.moduleIndex.2 = []) :
    dependencyPass candidate policy module ↔ DependenciesMet candidate policy module := by
  simp only [dependencyPass, DependenciesMet, filterMap_eq_nil_iff, matureAt_iff hevidence]
  apply forall₂_congr
  intro dependency _
  have hget : ∀ other, Dict.get candidate.moduleIndex.1 dependency.moduleId = some other ↔
      other ∈ candidate.modules ∧ other.moduleId = dependency.moduleId :=
    fun other => get_indexUnique_iff hmodules
  unfold dependencyFailure
  cases hother : Dict.get candidate.moduleIndex.1 dependency.moduleId with
  | none =>
    constructor
    · intro h
      cases h
    · rintro ⟨other, hmem, hid, -⟩
      rw [(hget other).mpr ⟨hmem, hid⟩] at hother
      cases hother
  | some other =>
    obtain ⟨hmem, hid⟩ := (hget other).mp hother
    simp only [ite_eq_right_iff, reduceCtorEq, imp_false, not_lt]
    constructor
    · exact fun hle => ⟨other, hmem, hid, hle⟩
    · rintro ⟨found, hfound, hfid, hle⟩
      have hsame := hother.symm.trans ((hget found).mpr ⟨hfound, hfid⟩)
      rwa [Option.some.inj hsame]

end Maturity

section Meets

variable {candidate : Candidate} {policy : Policy} {requirements : List ModuleRequirement}

def Required (requirements : List ModuleRequirement) (module : Module) : Prop :=
  ∃ requirement ∈ requirements, requirement.matches module

def RequiredDependency (candidate : Candidate) (requirements : List ModuleRequirement)
    (moduleId otherId : String) : Prop :=
  ∃ module ∈ candidate.modules, ∃ other ∈ candidate.modules, module.moduleId = moduleId ∧
    other.moduleId = otherId ∧ Required requirements module ∧ Required requirements other ∧
      ∃ dependency ∈ module.dependencies, dependency.moduleId = otherId

def Acyclic (candidate : Candidate) (requirements : List ModuleRequirement) : Prop :=
  ∀ moduleId, ¬ Relation.TransGen (RequiredDependency candidate requirements) moduleId moduleId

/-- The modules of a candidate meet the requirements of a stage. -/
structure Meets (candidate : Candidate) (policy : Policy)
    (requirements : List ModuleRequirement) : Prop where
  present : ∀ moduleId minMaturity, .explicit moduleId minMaturity ∈ requirements →
    ∃ module ∈ candidate.modules, module.moduleId = moduleId
  mature : ∀ module ∈ candidate.modules, ∀ requirement ∈ requirements,
    requirement.matches module → MatureAt candidate policy module requirement.minMaturity
  dependencies : ∀ module ∈ candidate.modules, Required requirements module →
    DependenciesMet candidate policy module
  acyclic : Acyclic candidate requirements

def OverridesNothing (candidate : Candidate) (policy : Policy)
    (requirements : List ModuleRequirement) : Prop :=
  ∀ module ∈ candidate.modules, ∀ requirement, Overridden requirements module requirement →
    requirement.minMaturity ≤ effectiveMaturity candidate policy module

/-- A required module of which the entries that stand demand nothing still has what it depends on. -/
def IdleDependenciesMet (candidate : Candidate) (policy : Policy)
    (requirements : List ModuleRequirement) : Prop :=
  ∀ module ∈ candidate.modules, Required requirements module →
    (∀ requirement, Standing requirements module requirement → requirement.minMaturity = 0) →
      DependenciesMet candidate policy module

theorem present_iff (hmodules : candidate.moduleIndex.2 = []) {module : Module} :
    Present candidate module ↔ module ∈ candidate.modules := by
  have hget : Dict.get candidate.moduleIndex.1 module.moduleId = some module ↔
      module ∈ candidate.modules ∧ module.moduleId = module.moduleId :=
    get_indexUnique_iff hmodules
  rw [Present, mem_iff_get (moduleIndex_indexes candidate).nodup, hget]
  simp

theorem mem_maturityBlockers : blocker ∈ maturityBlockers candidate policy requirements ↔
      (∃ module, Present candidate module ∧ moduleBlocked candidate policy requirements module ∧
        blocker = "MATURITY-" ++ module.moduleId) ∨
      ∃ moduleId minMaturity, .explicit moduleId minMaturity ∈ requirements ∧
        moduleId ∉ candidate.moduleIndex.1.keys ∧ blocker = "MISSING-MODULE-" ++ moduleId := by
  have hindexes := moduleIndex_indexes candidate
  have hpresent : ∀ module, module ∈ candidate.moduleIndex.1.map Prod.snd ↔
      Present candidate module := by
    intro module
    rw [mem_map, Present]
    constructor
    · rintro ⟨⟨moduleId, found⟩, hentry, rfl⟩
      rwa [← (hindexes.row _ hentry).1]
    · exact fun h => ⟨_, h, rfl⟩
  have habsent : ∀ moduleId, Dict.contains candidate.moduleIndex.1 moduleId = false ↔
      moduleId ∉ candidate.moduleIndex.1.keys := by
    intro moduleId
    rw [← get_eq_none_iff, Dict.contains, Option.isSome_eq_false_iff, Option.isNone_iff_eq_none]
  rw [maturityBlockers, mem_append, mem_map, mem_map]
  simp only [mem_filter, hpresent, decide_eq_true_eq, habsent]
  apply or_congr
  · apply exists_congr
    intro module
    rw [and_assoc, eq_comm]
  · constructor
    · rintro ⟨moduleId, ⟨hkey, hmissing⟩, rfl⟩
      obtain ⟨minMaturity, hmem⟩ := (mem_keys_demandsOf hmissing).mp hkey
      exact ⟨moduleId, minMaturity, hmem, hmissing, rfl⟩
    · rintro ⟨moduleId, minMaturity, hmem, hmissing, rfl⟩
      exact ⟨moduleId, ⟨(mem_keys_demandsOf hmissing).mpr ⟨minMaturity, hmem⟩, hmissing⟩, rfl⟩

theorem Passing.indexes (h : Passing candidate policy reports) :
    candidate.evidenceIndex.2 = [] ∧ candidate.moduleIndex.2 = [] := by
  have hunblocked := h.unblocked
  simp only [candidateBlockers, append_eq_nil_iff] at hunblocked
  exact ⟨by tauto, by tauto⟩

theorem Passing.maturityBlockers_eq (h : Passing candidate policy reports) :
    maturityBlockers candidate policy (profileOf candidate policy).moduleRequirements = [] := by
  have hunblocked := h.unblocked
  simp only [candidateBlockers, moduleResults, append_eq_nil_iff] at hunblocked
  tauto

theorem meets_iff_of_unblocked (hevidence : candidate.evidenceIndex.2 = [])
    (hmodules : candidate.moduleIndex.2 = [])
    (hunblocked : maturityBlockers candidate policy requirements = []) :
    Meets candidate policy requirements ↔ OverridesNothing candidate policy requirements ∧
      IdleDependenciesMet candidate policy requirements ∧ Acyclic candidate requirements := by
  have hnone : ∀ blocker, blocker ∉ maturityBlockers candidate policy requirements := by
    simp [hunblocked]
  constructor
  · intro h
    refine ⟨?_, fun module hmodule hrequired _ => h.dependencies module hmodule hrequired, h.acyclic⟩
    rintro module hmodule requirement ⟨before, after, rfl, hmatches, -⟩
    rw [← matureAt_iff hevidence]
    exact h.mature module hmodule requirement (by simp) hmatches
  · rintro ⟨hoverrides, hidle, hacyclic⟩
    have hpasses : ∀ module ∈ candidate.modules,
        requiredMaturity candidate requirements module ≠ 0 →
          modulePasses candidate policy requirements module := by
      intro module hmodule hdemand
      by_contra hfails
      exact hnone _ (mem_maturityBlockers.mpr (.inl
        ⟨module, (present_iff hmodules).mpr hmodule, ⟨hdemand, hfails⟩, rfl⟩))
    have hstanding : ∀ module ∈ candidate.modules, ∀ requirement,
        Standing requirements module requirement → 0 < requirement.minMaturity →
          requirement.minMaturity ≤ requiredMaturity candidate requirements module := by
      intro module hmodule requirement hstanding hpos
      exact (le_requiredMaturity_iff ((present_iff hmodules).mpr hmodule) hpos).mpr
        ⟨requirement, hstanding, le_refl _⟩
    refine ⟨?_, ?_, ?_, hacyclic⟩
    · intro moduleId minMaturity hmem
      by_contra habsent
      refine hnone _ (mem_maturityBlockers.mpr (.inr ⟨moduleId, minMaturity, hmem, ?_, rfl⟩))
      rw [← get_eq_none_iff, Option.eq_none_iff_forall_ne_some]
      intro module hget
      exact habsent ⟨module, (get_indexUnique_iff hmodules).mp hget⟩
    · intro module hmodule requirement hmem hmatches
      rw [matureAt_iff hevidence]
      rcases standing_or_overridden hmem hmatches with hstands | hoverridden
      · rcases Nat.eq_zero_or_pos requirement.minMaturity with hzero | hpos
        · omega
        · have hle := hstanding module hmodule requirement hstands hpos
          exact hle.trans (hpasses module hmodule (by omega)).1
      · exact hoverrides module hmodule requirement hoverridden
    · intro module hmodule hrequired
      by_cases hdemand : requiredMaturity candidate requirements module = 0
      · apply hidle module hmodule hrequired
        intro requirement hstands
        by_contra hne
        have hle := hstanding module hmodule requirement hstands (Nat.pos_of_ne_zero hne)
        omega
      · exact (dependencyPass_iff hevidence hmodules).mp (hpasses module hmodule hdemand).2

end Meets

section Order

variable {candidate : Candidate} {policy : Policy} {requirements : List ModuleRequirement}

def threshold (candidate : Candidate) (policy : Policy) (module : Module) : Nat :=
  if dependencyPass candidate policy module then effectiveMaturity candidate policy module + 1 else 1

theorem threshold_pos (candidate : Candidate) (policy : Policy) (module : Module) :
    0 < threshold candidate policy module := by
  unfold threshold
  split <;> omega

theorem moduleBlocked_iff {module : Module} :
    moduleBlocked candidate policy requirements module ↔
      threshold candidate policy module ≤ requiredMaturity candidate requirements module := by
  unfold moduleBlocked modulePasses threshold
  by_cases hdependencies : dependencyPass candidate policy module
  · simp only [hdependencies, and_true, if_true]
    omega
  · simp only [hdependencies, and_false, not_false_eq_true, if_false, and_true]
    omega

def OrderIndependent (candidate : Candidate) (policy : Policy)
    (requirements : List ModuleRequirement) : Prop :=
  ∀ order : List ModuleRequirement, order.Perm requirements → ∀ blocker,
    blocker ∈ maturityBlockers candidate policy order ↔
      blocker ∈ maturityBlockers candidate policy requirements

/-- Of every module either each explicit demand blocks it, or no demand does. -/
def UniformDemands (candidate : Candidate) (policy : Policy)
    (requirements : List ModuleRequirement) : Prop :=
  ∀ module, Present candidate module →
    (∀ minMaturity, .explicit module.moduleId minMaturity ∈ requirements →
      threshold candidate policy module ≤ minMaturity) ∨
    ∀ requirement ∈ requirements, requirement.matches module →
      requirement.minMaturity < threshold candidate policy module

theorem blocked_iff_exists {module : Module} (hpresent : Present candidate module)
    (h : ∀ minMaturity, .explicit module.moduleId minMaturity ∈ requirements →
      threshold candidate policy module ≤ minMaturity) :
    moduleBlocked candidate policy requirements module ↔
      ∃ requirement ∈ requirements, requirement.matches module ∧
        threshold candidate policy module ≤ requirement.minMaturity := by
  rw [moduleBlocked_iff, le_requiredMaturity_iff hpresent (threshold_pos ..)]
  constructor
  · rintro ⟨requirement, hstanding, hle⟩
    exact ⟨requirement, hstanding.mem.1, hstanding.mem.2, hle⟩
  · rintro ⟨requirement, hmem, hmatches, hle⟩
    rcases standing_or_overridden hmem hmatches with hstanding | hoverridden
    · exact ⟨requirement, hstanding, hle⟩
    · obtain ⟨before, after, rfl, -, minMaturity, hexplicit⟩ := hoverridden
      obtain ⟨standing, hstanding⟩ := exists_standing_explicit
        ⟨minMaturity, mem_append_right before (mem_cons_of_mem requirement hexplicit)⟩
      exact ⟨_, hstanding, h standing hstanding.mem.1⟩

theorem not_blocked_of_below {module : Module} (hpresent : Present candidate module)
    (h : ∀ requirement ∈ requirements, requirement.matches module →
      requirement.minMaturity < threshold candidate policy module) :
    ¬ moduleBlocked candidate policy requirements module := by
  rw [moduleBlocked_iff, le_requiredMaturity_iff hpresent (threshold_pos ..)]
  rintro ⟨requirement, hstanding, hle⟩
  have hless := h requirement hstanding.mem.1 hstanding.mem.2
  omega

theorem exists_order_ending (hmem : last ∈ requirements) :
    ∃ others, (others ++ [last]).Perm requirements := by
  obtain ⟨before, after, rfl⟩ := append_of_mem hmem
  refine ⟨before ++ after, ?_⟩
  rw [append_assoc]
  exact (perm_append_singleton last after).append_left before

theorem blocked_in_any_order_iff {module : Module} (hpresent : Present candidate module) :
    (∀ order : List ModuleRequirement, order.Perm requirements →
      (moduleBlocked candidate policy order module ↔
        moduleBlocked candidate policy requirements module)) ↔
    (∀ minMaturity, .explicit module.moduleId minMaturity ∈ requirements →
      threshold candidate policy module ≤ minMaturity) ∨
    ∀ requirement ∈ requirements, requirement.matches module →
      requirement.minMaturity < threshold candidate policy module := by
  constructor
  · intro hsame
    by_contra hmixed
    simp only [not_or, not_forall, not_le, not_lt, exists_prop] at hmixed
    obtain ⟨⟨minMaturity, hexplicit, hbelow⟩, requirement, hmem, hmatches, hle⟩ := hmixed
    obtain ⟨others, hfree⟩ := exists_order_ending hexplicit
    obtain ⟨others', hblocking⟩ := exists_order_ending hmem
    have hfreed : ¬ moduleBlocked candidate policy
        (others ++ [.explicit module.moduleId minMaturity]) module := by
      rw [moduleBlocked_iff, le_requiredMaturity_iff hpresent (threshold_pos ..)]
      rintro ⟨standing, hstanding, hle⟩
      rcases standing_snoc.mp hstanding with ⟨rfl, -⟩ | ⟨-, hne⟩
      · exact absurd hle (not_le.mpr hbelow)
      · exact hne minMaturity rfl
    have hblocked : moduleBlocked candidate policy (others' ++ [requirement]) module := by
      rw [moduleBlocked_iff, le_requiredMaturity_iff hpresent (threshold_pos ..)]
      exact ⟨requirement, standing_snoc.mpr (.inl ⟨rfl, hmatches⟩), hle⟩
    exact hfreed ((hsame _ hfree).mpr ((hsame _ hblocking).mp hblocked))
  · rintro (hexplicit | hbelow) order hperm
    · rw [blocked_iff_exists hpresent hexplicit, blocked_iff_exists hpresent fun minMaturity hmem =>
        hexplicit minMaturity (hperm.mem_iff.mp hmem)]
      simp only [hperm.mem_iff]
    · exact iff_of_false
        (not_blocked_of_below hpresent fun requirement hmem =>
          hbelow requirement (hperm.mem_iff.mp hmem))
        (not_blocked_of_below hpresent hbelow)

theorem append_left_injective {text left right : String} (h : text ++ left = text ++ right) :
    left = right := by
  have hlists := congrArg String.toList h
  simp only [String.toList_append] at hlists
  exact String.toList_injective (append_cancel_left hlists)

theorem maturity_ne_missing (moduleId other : String) :
    "MATURITY-" ++ moduleId ≠ "MISSING-MODULE-" ++ other := by
  intro h
  have hlists := congrArg String.toList h
  simp at hlists

theorem orderIndependent_iff :
    OrderIndependent candidate policy requirements ↔
      UniformDemands candidate policy requirements := by
  have hmaturity : ∀ {module : Module}, Present candidate module →
      ∀ order : List ModuleRequirement,
        ("MATURITY-" ++ module.moduleId ∈ maturityBlockers candidate policy order ↔
          moduleBlocked candidate policy order module) := by
    intro module hpresent order
    rw [mem_maturityBlockers]
    constructor
    · rintro (⟨other, hother, hblocked, htext⟩ | ⟨moduleId, minMaturity, -, -, htext⟩)
      · have hid := append_left_injective htext
        unfold Present at hpresent hother
        have hindexes := moduleIndex_indexes candidate
        rw [mem_iff_get hindexes.nodup] at hpresent hother
        rw [hid] at hpresent
        rw [Option.some.inj (hpresent.symm.trans hother)]
        exact hblocked
      · exact absurd htext (maturity_ne_missing _ _)
    · exact fun hblocked => .inl ⟨module, hpresent, hblocked, rfl⟩
  constructor
  · intro h module hpresent
    refine (blocked_in_any_order_iff hpresent).mp fun order hperm => ?_
    rw [← hmaturity hpresent order, ← hmaturity hpresent requirements]
    exact h order hperm _
  · intro h order hperm blocker
    simp only [mem_maturityBlockers, hperm.mem_iff]
    apply or_congr_left
    apply exists_congr
    intro module
    constructor
    · rintro ⟨hpresent, hblocked, htext⟩
      exact ⟨hpresent, ((blocked_in_any_order_iff hpresent).mpr (h module hpresent) order
        hperm).mp hblocked, htext⟩
    · rintro ⟨hpresent, hblocked, htext⟩
      exact ⟨hpresent, ((blocked_in_any_order_iff hpresent).mpr (h module hpresent) order
        hperm).mpr hblocked, htext⟩

end Order

/-- A candidate that passes meets the requirements of its stage exactly if no overridden entry
demands more than its module has, the required modules on which nothing is demanded any more have
their dependencies, and the required modules depend on each other in no circle. The blockers by
maturity are the same in every order of the entries exactly if the demands are uniform. -/
theorem requirements_met_iff (candidate : Candidate) (policy : Policy) (reports : List Report) :
    (engineVerdict candidate policy reports = .pass →
      (Meets candidate policy (profileOf candidate policy).moduleRequirements ↔
        OverridesNothing candidate policy (profileOf candidate policy).moduleRequirements ∧
        IdleDependenciesMet candidate policy (profileOf candidate policy).moduleRequirements ∧
        Acyclic candidate (profileOf candidate policy).moduleRequirements)) ∧
    (OrderIndependent candidate policy (profileOf candidate policy).moduleRequirements ↔
      UniformDemands candidate policy (profileOf candidate policy).moduleRequirements) := by
  refine ⟨fun hpass => ?_, orderIndependent_iff⟩
  have h := engineVerdict_eq_pass_iff.mp hpass
  exact meets_iff_of_unblocked h.indexes.1 h.indexes.2 h.maturityBlockers_eq

theorem sampleRequirements_met : Meets sampleCandidate samplePolicy [.explicit "core" 1] := by
  have hpass : engineVerdict sampleCandidate samplePolicy sampleReports = .pass := by
    decide +kernel
  have hnone : ∀ module ∈ sampleCandidate.modules, module.dependencies = [] := by decide
  have hmet : ∀ module ∈ sampleCandidate.modules,
      DependenciesMet sampleCandidate samplePolicy module := by
    intro module hmodule dependency hdependency
    rw [hnone module hmodule] at hdependency
    cases hdependency
  refine ((requirements_met_iff sampleCandidate samplePolicy sampleReports).1 hpass).mpr
    ⟨?_, fun module hmodule _ _ => hmet module hmodule, ?_⟩
  · rintro module hmodule requirement ⟨before, after, heq, -, minMaturity, hexplicit⟩
    have hlength := congrArg List.length heq
    simp [profileOf, Policy.profile, samplePolicy, sampleCandidate] at hlength
    have hpos := List.length_pos_of_mem hexplicit
    omega
  · intro moduleId hcycle
    obtain ⟨other, hedge, -⟩ := Relation.TransGen.head'_iff.mp hcycle
    obtain ⟨module, hmodule, -, -, -, -, -, -, dependency, hdependency, -⟩ := hedge
    rw [hnone module hmodule] at hdependency
    cases hdependency

def loweredPolicy : Policy :=
  { samplePolicy with
    stageProfiles :=
      [("alpha",
        { moduleRequirements := [.selected { critical := some true } 2, .explicit "core" 1]
          mandatoryGates := ["G0"] })] }

def circularCandidate : Candidate :=
  { sampleCandidate with
    modules :=
      [{ moduleId := "core", layer := "L0", critical := true, declaredMaturity := 2
         dependencies := [{ moduleId := "core", minMaturity := 1 }], evidenceIds := ["e1"] }] }

theorem unmet_requirements_pass :
    (engineVerdict sampleCandidate loweredPolicy sampleReports = .pass ∧
      ¬ Meets sampleCandidate loweredPolicy
        (profileOf sampleCandidate loweredPolicy).moduleRequirements) ∧
    engineVerdict circularCandidate samplePolicy sampleReports = .pass ∧
      ¬ Meets circularCandidate samplePolicy
        (profileOf circularCandidate samplePolicy).moduleRequirements := by
  refine ⟨⟨by decide +kernel, fun hmeets => ?_⟩, by decide +kernel, fun hmeets => ?_⟩
  · have hmature := hmeets.mature _ List.mem_cons_self (.selected { critical := some true } 2)
      List.mem_cons_self (by simp [ModuleRequirement.matches, Selector.matches])
    rw [matureAt_iff (by decide +kernel)] at hmature
    revert hmature
    decide +kernel
  · have hrequired : ∃ module ∈ circularCandidate.modules, module.moduleId = "core" ∧
        Required (profileOf circularCandidate samplePolicy).moduleRequirements module ∧
        ∃ dependency ∈ module.dependencies, dependency.moduleId = "core" :=
      ⟨_, List.mem_cons_self, rfl, ⟨_, List.mem_cons_self, rfl⟩, _, List.mem_cons_self, rfl⟩
    obtain ⟨module, hmodule, hid, hrequired, hdependency⟩ := hrequired
    exact hmeets.acyclic "core" (Relation.TransGen.single
      ⟨module, hmodule, module, hmodule, hid, hid, hrequired, hrequired, hdependency⟩)

end Flowness.Release
