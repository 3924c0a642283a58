import Flowness.Library.Transition
import Flowness.OssHarness.AdmissionLedger

/-!
Admission budgets. The three limits hold in every ledger; the unmet lane floors stay coverable as
long as enablement leaves them their units, which only the other branch of the check looks at.
-/

namespace Flowness.OssHarness

open Library Dict

/-- The unmet lane floors fit into the units that are left. -/
def FloorsReachable (budget : BudgetPolicy) (state : FoldState) : Prop :=
  unmetFloors budget.laneFloors state.usedLanes ≤ budget.totalUnits - state.usedTotal

/-- A unit for a lane below its floor passes the total and the lane-floor check. -/
def NotStarved (policy : Policy) (state : FoldState) : Prop :=
  ∀ (card : Card) (used floor : Nat), validateCard card policy = .ok () →
    card.taskClass ≠ .enablement → state.usedLanes.get card.lane = some used →
    policy.budget.laneFloors.get card.lane = some floor → used < floor →
    validateBudget card state policy.budget ≠ .error .budgetLedgerExhausted ∧
      validateBudget card state policy.budget ≠ .error .laneFloorsWouldBeStarved

structure WithinLimits (budget : BudgetPolicy) (state : FoldState) : Prop where
  total : state.usedTotal ≤ budget.totalUnits
  waves : ∀ wave used limit, state.usedWaves.get wave = some used →
    budget.waveUnits.get wave = some limit → used ≤ limit
  enablement : state.enablementUsed ≤ budget.enablementUnitsMax

structure BudgetSound (policy : Policy) (state : FoldState) : Prop where
  within : WithinLimits policy.budget state
  floorsReachable : FloorsReachable policy.budget state
  notStarved : NotStarved policy state

/-- An enablement card finds more units left than the unmet lane floors need. -/
def SparesFloors (policy : Policy) (entries : List Entry) (call : AdmitCall) : Prop :=
  call.card.taskClass = .enablement → ∀ state, fold policy entries = .ok state →
    state.usedTotal + unmetFloors policy.budget.laneFloors state.usedLanes < policy.budget.totalUnits

section

variable {hashes : AdmissionHashes} {authority : Authority} {card : Card} {entries : List Entry}
  {state after : FoldState} {blocker : Option EntryBlocker} {policy : Policy}
  {budget : BudgetPolicy}

theorem Charged.usedTotal (h : Charged state card blocker chargedWave admissionId after) :
    after.usedTotal = state.usedTotal + 1 := by
  obtain ⟨used, hused, hafter⟩ := h.waves
  have hsum := sum_map_set Prod.snd hused (used + 1)
  unfold FoldState.usedTotal
  rw [hafter]
  omega

theorem Charged.within (hwithin : WithinLimits budget state)
    (hbudget : WithinBudget budget card state chargedWave)
    (h : Charged state card blocker chargedWave admissionId after) : WithinLimits budget after := by
  have htotal := hbudget.total
  constructor
  · rw [h.usedTotal]
    exact htotal
  · intro wave used limit hused hlimit
    obtain ⟨before, hbefore, hset⟩ := h.waves
    rw [hset] at hused
    by_cases hwave : wave = chargedWave
    · subst hwave
      rw [get_set_self] at hused
      obtain ⟨found, bound, hfound, hbound, hle⟩ := hbudget.wave
      rw [hfound] at hbefore
      rw [hbound] at hlimit
      cases hused
      cases hbefore
      cases hlimit
      exact hle
    · rw [get_set_of_ne _ _ hwave] at hused
      exact hwithin.waves wave used limit hused hlimit
  · by_cases hclass : card.taskClass = .enablement
    · rw [(h.enablement hclass).2]
      exact hbudget.enablement hclass
    · rw [(h.lane hclass).2]
      exact hwithin.enablement

theorem Charged.floorsReachable (hclass : card.taskClass ≠ .enablement)
    (hbudget : WithinBudget budget card state chargedWave)
    (h : Charged state card blocker chargedWave admissionId after) :
    FloorsReachable budget after := by
  obtain ⟨⟨used, hused, hset⟩, -⟩ := h.lane hclass
  obtain ⟨found, hfound, hfloors⟩ := hbudget.lane hclass
  rw [hused] at hfound
  cases hfound
  unfold FloorsReachable
  rw [hset, h.usedTotal]
  omega

theorem Charged.floorsReachable_iff (hclass : card.taskClass = .enablement)
    (hbudget : WithinBudget budget card state chargedWave)
    (h : Charged state card blocker chargedWave admissionId after) :
    FloorsReachable budget after ↔
      state.usedTotal + unmetFloors budget.laneFloors state.usedLanes < budget.totalUnits := by
  have htotal := hbudget.total
  unfold FloorsReachable
  rw [(h.enablement hclass).1, h.usedTotal]
  omega

theorem unmetFloors_set (hused : usedLanes.get lane = some used)
    (hfloor : laneFloors.get lane = some floor) (hbelow : used < floor) :
    unmetFloors laneFloors (usedLanes.set lane (used + 1)) + 1 = unmetFloors laneFloors usedLanes := by
  have hsum := sum_map_set (fun lane : String × Nat => (laneFloors.get lane.1).getD 0 - lane.2)
    hused (used + 1)
  simp only [hfloor, Option.getD_some] at hsum
  unfold unmetFloors
  omega

private theorem validateBudget_error (hunits : card.budget.units = 1)
    (hwave : budgetWaveId card.waveId card.budget = .ok wave)
    (htotal : state.usedTotal + 1 ≤ budget.totalUnits)
    (hclass : validateClassBudget card state budget = .ok ())
    (h : validateBudget card state budget = .error error) :
    error = .budgetWaveExhausted ∨ error = .keyError := by
  simp only [validateBudget, hwave, hclass, hunits, require, decide_eq_true htotal, bind,
    Except.bind, if_pos] at h
  split at h
  · split at h
    next hrefused =>
      split at hrefused
      · cases hrefused
      · cases hrefused
        exact .inl (Except.error.inj h).symm
    · cases h
  · exact .inr (Except.error.inj h).symm

theorem notStarved_of_reachable (h : FloorsReachable policy.budget state) :
    NotStarved policy state := by
  intro card used floor hvalid hclass hused hfloor hbelow
  obtain ⟨hunits, -, wave, -, hwave⟩ := charged_of_valid hvalid
  have hset := unmetFloors_set hused hfloor hbelow
  unfold FloorsReachable at h
  have htotal : state.usedTotal + 1 ≤ policy.budget.totalUnits := by omega
  have hfloors : unmetFloors policy.budget.laneFloors (state.usedLanes.set card.lane (used + 1)) ≤
      policy.budget.totalUnits - state.usedTotal - 1 := by omega
  have hlane : addUnits state.usedLanes card.lane 1 =
      .ok (state.usedLanes.set card.lane (used + 1)) := addUnits_ok.mpr ⟨used, hused, rfl⟩
  have hunit : validateClassBudget card state policy.budget = .ok () := by
    unfold validateClassBudget
    rw [if_neg hclass, hunits, hlane]
    exact require_ok.mpr (decide_eq_true hfloors)
  refine ⟨fun herror => ?_, fun herror => ?_⟩
  · obtain h | h := validateBudget_error hunits hwave htotal hunit herror <;> cases h
  · obtain h | h := validateBudget_error hunits hwave htotal hunit herror <;> cases h

theorem get_zeroed (limits : Dict String Nat) (key : String)
    (h : Dict.get (limits.map (fun entry => (entry.1, 0))) key = some used) : used = 0 := by
  induction limits with
  | nil => simp at h
  | cons entry rest ih =>
    rw [List.map_cons, get_cons] at h
    split at h
    · exact (Option.some.inj h).symm
    · exact ih h

theorem unmetFloors_initial : unmetFloors budget.laneFloors
    (FoldState.initial budget).usedLanes = (budget.laneFloors.map Prod.snd).sum := by
  unfold unmetFloors FoldState.initial
  rw [List.map_map]
  congr 1
  apply List.map_congr_left
  rintro ⟨lane, floor⟩ hmem
  have hget := (mem_iff_get budget.lanesDistinct).mp hmem
  simp [hget]

theorem usedTotal_initial : (FoldState.initial budget).usedTotal = 0 := by
  unfold FoldState.usedTotal FoldState.initial
  rw [List.map_map]
  show (budget.waveUnits.map (fun _ => 0)).sum = 0
  rw [List.map_const', List.sum_replicate_nat, Nat.mul_zero]

theorem budgetSound_initial
    (hpolicy : (policy.budget.laneFloors.map Prod.snd).sum + policy.budget.enablementUnitsMax ≤
      policy.budget.totalUnits) : BudgetSound policy (.initial policy.budget) := by
  have hfloors : FloorsReachable policy.budget (.initial policy.budget) := by
    unfold FloorsReachable
    rw [unmetFloors_initial, usedTotal_initial]
    omega
  refine ⟨⟨?_, ?_, Nat.zero_le _⟩, hfloors, notStarved_of_reachable hfloors⟩
  · rw [usedTotal_initial]
    exact Nat.zero_le _
  · intro wave used limit hused hlimit
    rw [get_zeroed _ _ hused]
    exact Nat.zero_le _

def Budgeted (policy : Policy) (entries : List Entry) : Prop :=
  ∃ state, fold policy entries = .ok state ∧ BudgetSound policy state

theorem Budgeted.step {next : List Entry} (h : Budgeted authority.policy entries)
    (hspares : SparesFloors authority.policy entries call)
    (hstep : admitStep hashes authority entries call = some next) :
    Budgeted authority.policy next := by
  obtain rfl | ⟨entry, hentry, rfl⟩ := admitStep_cases hstep
  · exact h
  · obtain ⟨state, blocker, wave, hreserved, rfl⟩ := admitWork_reserved hentry
    obtain ⟨after, hfold, hcharged⟩ := hreserved.charged call.now
    obtain ⟨found, hfound, hsound⟩ := h
    rw [hreserved.folded] at hfound
    cases hfound
    have hfloors : FloorsReachable authority.policy.budget after := by
      by_cases hclass : call.card.taskClass = .enablement
      · exact (hcharged.floorsReachable_iff hclass hreserved.within).mpr
          (hspares hclass state hreserved.folded)
      · exact hcharged.floorsReachable hclass hreserved.within
    exact ⟨after, hfold, hcharged.within hsound.within hreserved.within, hfloors,
      notStarved_of_reachable hfloors⟩

/-- In every run whose enablement cards spare the lane floors the budgets are sound in every
ledger, and an admitted card leaves the floors reachable exactly when it spared them. -/
theorem budgets_hold
    (hpolicy : (authority.policy.budget.laneFloors.map Prod.snd).sum +
      authority.policy.budget.enablementUnitsMax ≤ authority.policy.budget.totalUnits)
    {calls : List AdmitCall}
    (h : Run (admitStep hashes authority) (SparesFloors authority.policy) [] calls entries) :
    (∃ state, fold authority.policy entries = .ok state ∧ BudgetSound authority.policy state) ∧
      ∀ (call : AdmitCall) (entry : Entry),
        admitWork hashes authority call.now call.card entries = .ok (.reserved entry) →
        ((∃ after, fold authority.policy (entries ++ [entry]) = .ok after ∧
            FloorsReachable authority.policy.budget after) ↔
          SparesFloors authority.policy entries call) := by
  have hrun : Budgeted authority.policy entries := by
    refine h.invariant ⟨_, rfl, budgetSound_initial hpolicy⟩ ?_
    exact fun _ _ _ hbudgeted hspares hstep => hbudgeted.step hspares hstep
  refine ⟨hrun, fun call entry hentry => ?_⟩
  obtain ⟨state, blocker, wave, hreserved, rfl⟩ := admitWork_reserved hentry
  obtain ⟨after, hfold, hcharged⟩ := hreserved.charged call.now
  constructor
  · rintro ⟨found, hfound, hfloors⟩ hclass folded hfolded
    rw [hfold] at hfound
    rw [hreserved.folded] at hfolded
    cases hfound
    cases hfolded
    exact (hcharged.floorsReachable_iff hclass hreserved.within).mp hfloors
  · intro hspares
    refine ⟨after, hfold, ?_⟩
    by_cases hclass : call.card.taskClass = .enablement
    · exact (hcharged.floorsReachable_iff hclass hreserved.within).mpr
        (hspares hclass state hreserved.folded)
    · exact hcharged.floorsReachable hclass hreserved.within

end

instance (budget : BudgetPolicy) (state : FoldState) : Decidable (FloorsReachable budget state) :=
  inferInstanceAs (Decidable (_ ≤ _))

/-- `SparesFloors` over a ledger whose fold is known. -/
def sparesFloors (policy : Policy) (entries : List Entry) (call : AdmitCall) : Bool :=
  decide (call.card.taskClass ≠ .enablement) || match fold policy entries with
    | .error _ => false
    | .ok state => decide (state.usedTotal + unmetFloors policy.budget.laneFloors state.usedLanes <
        policy.budget.totalUnits)

theorem sparesFloors_of {policy : Policy} {entries : List Entry}
    (h : sparesFloors policy entries call = true) : SparesFloors policy entries call := by
  intro hclass state hfold
  simpa [sparesFloors, hclass, hfold] using h

def juryCalls : List AdmitCall :=
  (List.range 18).map (fun i => ⟨"now", judgeCard ("jury" ++ String.ofList (List.replicate i 'i'))
    "independent_jury"⟩)

def enablementCall : AdmitCall :=
  ⟨"now", enablementCard "foundation" sampleComponents ⟨0, 0, 0, 0⟩⟩

theorem enablementFirst_sound :
    ∃ state, fold programPolicy (ledgerAfter (enablementCall :: juryCalls)) = .ok state ∧
      BudgetSound programPolicy state := by
  have hrun : Run (admitStep sampleHashes sampleAuthority) (SparesFloors programPolicy) []
      (enablementCall :: juryCalls) (ledgerAfter (enablementCall :: juryCalls)) :=
    Run.of_checked (fun _ _ h => sparesFloors_of h) (by decide +kernel)
  exact (budgets_hold (by decide) hrun).1

/-- After eighteen jury units one enablement unit is admitted, and from then on no lane below its
floor gets a unit. -/
theorem enablement_starves_floors :
    ((fold programPolicy (ledgerAfter (juryCalls ++ [enablementCall]))).toOption.any
      (fun state => state.usedTotal = 19 ∧ ¬ FloorsReachable programPolicy.budget state)) = true ∧
    admitWork sampleHashes sampleAuthority "now" (judgeCard "truth" "truth")
      (ledgerAfter (juryCalls ++ [enablementCall])) = .error .laneFloorsWouldBeStarved := by
  decide +kernel

end Flowness.OssHarness
