import Flowness.Planning.CriticalPath
import Flowness.Planning.ReplanHold
import Flowness.Planning.ReadyTasks
import Mathlib.Algebra.Order.BigOperators.Group.List
import Mathlib.Algebra.Order.Ring.Nat
import Mathlib.Data.Prod.Lex

/-!
The batch of tasks that a round of the dispatcher starts: the caps it keeps, tier by tier, and the
tasks that must not run side by side because many others read what they write.
-/

namespace Flowness.Planning

open List Library Dict

def highFanoutReaderThreshold : Nat := 3

structure ActiveTasks where
  byTier : Dict String Nat
  taskIds : List String
  distinct : byTier.keys.Nodup

/-- `by_tier.get(tier, 0)`. -/
def onTier (byTier : Dict String Nat) (tier : String) : Nat := (Dict.get byTier tier).getD 0

@[simp] theorem onTier_set_self (byTier : Dict String Nat) (tier : String) (count : Nat) :
    onTier (byTier.set tier count) tier = count := by
  simp [onTier]

theorem onTier_set_of_ne (byTier : Dict String Nat) (count : Nat) (h : other ≠ tier) :
    onTier (byTier.set tier count) other = onTier byTier other := by
  unfold onTier
  rw [get_set_of_ne _ _ h]

structure Caps where
  total : Int
  opus : Int
  sonnet : Int

/-- `tier_caps.get(tier, cap_opus)`. -/
def Caps.ofTier (caps : Caps) (tier : String) : Int :=
  if tier = "sonnet" then caps.sonnet else caps.opus

def pickTasks (caps : Caps) (tierOf : String → String) :
    Nat → Dict String Nat → List String → List (String × String)
  | _, _, [] => []
  | total, byTier, task :: tasks =>
    if caps.total ≤ total then []
    else if caps.ofTier (tierOf task) ≤ onTier byTier (tierOf task) then
      pickTasks caps tierOf total byTier tasks
    else
      (task, tierOf task) :: pickTasks caps tierOf (total + 1)
        (byTier.set (tierOf task) (onTier byTier (tierOf task) + 1)) tasks

section

variable (strOther : Json → String)

/-- `task_model_tiers`: the latest assignment of each task. -/
def taskModelTiers (events : List LogEvent) : Dict String String :=
  (events.filter fun event => eventType strOther event = "TaskModelTierAssigned").foldl
    (fun tiers event =>
      let fields := afterState strOther event
      let task := member strOther fields "task_id"
      let tier := member strOther fields "model_tier"
      if task ≠ "" ∧ tier ≠ "" then tiers.set task tier else tiers) []

def tierOf (tiers : Dict String String) (task : String) : String :=
  (Dict.get tiers task).getD "opus"

/-- `critical_path_task_ids`; a computation that fails names no task. -/
def criticalPathTaskIds (events : List LogEvent) (planId : String) : List String :=
  match computeCriticalPath strOther events planId with
  | none => []
  | some result => result.primaryPath ++ result.alternativePaths.flatten

def readerCounts (reads : Dict String (List String)) : Dict String Nat :=
  (reads.flatMap fun entry => entry.2.dedup).foldl
    (fun counts entity => counts.set entity ((Dict.get counts entity).getD 0 + 1)) []

def highFanoutBlocked (events : List LogEvent) (planId : String)
    (candidates activeTaskIds : List String) : List String :=
  if candidates = [] ∨ activeTaskIds = [] then []
  else
    let reads := planReadClaims strOther events planId
    let writes := planWriteClaims strOther events planId
    let readerCount := readerCounts reads
    let hot := activeTaskIds.flatMap fun active =>
      (writes.getList active).filter fun entity =>
        highFanoutReaderThreshold < (Dict.get readerCount entity).getD 0
    if hot = [] then []
    else candidates.filter fun candidate =>
      ∃ entity ∈ reads.getList candidate ++ writes.getList candidate, entity ∈ hot

def dispatchKey (critical : List String) (task : String) : Lex (Bool × String) :=
  toLex (decide (task ∉ critical), task)

def selectDispatchBatch (events : List LogEvent) (planId : String) (candidates : List String)
    (activeTotal : Nat) (active : ActiveTasks) (caps : Caps) : List (String × String) :=
  if candidates = [] then []
  else
    let blocked := highFanoutBlocked strOther events planId candidates active.taskIds
    let eligible := candidates.filter (· ∉ blocked)
    let critical := criticalPathTaskIds strOther events planId
    let tiers := taskModelTiers strOther events
    pickTasks caps (tierOf tiers) activeTotal active.byTier
      (eligible.insertionSort fun a b => dispatchKey critical a ≤ dispatchKey critical b)

end

section

variable {caps : Caps} {tierOf : String → String}

section

variable (total : Nat) (byTier : Dict String Nat) (tasks : List String)

theorem sublist_pickTasks :
    (pickTasks caps tierOf total byTier tasks).Sublist (tasks.map fun task => (task, tierOf task)) := by
  induction tasks generalizing total byTier with
  | nil => exact List.Sublist.slnil
  | cons task tasks ih =>
    unfold pickTasks
    split_ifs
    · exact nil_sublist _
    · exact (ih _ _).cons _
    · exact (ih _ _).cons_cons _

theorem length_pickTasks : (total + (pickTasks caps tierOf total byTier tasks).length : Int) ≤
      max (total : Int) caps.total := by
  induction tasks generalizing total byTier with
  | nil => simp [pickTasks]
  | cons task tasks ih =>
    unfold pickTasks
    split_ifs
    · simp
    · exact ih _ _
    · have hrest := ih (total + 1)
        (byTier.set (tierOf task) (onTier byTier (tierOf task) + 1))
      simp only [length_cons]
      omega

theorem countP_pickTasks (tier : String) : (onTier byTier tier +
      (pickTasks caps tierOf total byTier tasks).countP (fun pick => pick.2 = tier) : Int) ≤
        max (onTier byTier tier : Int) (caps.ofTier tier) := by
  induction tasks generalizing total byTier with
  | nil => simp [pickTasks]
  | cons task tasks ih =>
    unfold pickTasks
    split_ifs with htotal hfull
    · simp
    · exact ih _ _
    · have hrest := ih (total + 1)
        (byTier.set (tierOf task) (onTier byTier (tierOf task) + 1))
      by_cases htier : tier = tierOf task
      · subst htier
        rw [onTier_set_self] at hrest
        rw [countP_cons_of_pos (by simp)]
        omega
      · rw [onTier_set_of_ne _ _ htier] at hrest
        rw [countP_cons_of_neg (by simpa using Ne.symm htier)]
        exact hrest

end

section

variable {total : Nat} {byTier : Dict String Nat} {tasks : List String}
    (htotal : (total + tasks.length : Int) ≤ caps.total)
include htotal

theorem pickTasks_eq_map
    (htier : ∀ tier, (onTier byTier tier + tasks.length : Int) ≤ caps.ofTier tier) :
    pickTasks caps tierOf total byTier tasks = tasks.map fun task => (task, tierOf task) := by
  induction tasks generalizing total byTier with
  | nil => rfl
  | cons task tasks ih =>
    simp only [length_cons] at htotal htier
    have hroom := htier (tierOf task)
    unfold pickTasks
    rw [if_neg (by omega), if_neg (by omega), ih (by omega), map_cons]
    intro tier
    have htier' := htier tier
    by_cases heq : tier = tierOf task
    · subst heq
      rw [onTier_set_self]
      omega
    · rw [onTier_set_of_ne _ _ heq]
      omega

theorem exists_mem_pickTasks (htask : task ∈ tasks)
    (hroom : onTier byTier (tierOf task) < caps.ofTier (tierOf task)) :
    ∃ pick ∈ pickTasks caps tierOf total byTier tasks, pick.2 = tierOf task := by
  induction tasks generalizing total byTier with
  | nil => cases htask
  | cons first tasks ih =>
    simp only [length_cons] at htotal
    unfold pickTasks
    rw [if_neg (by omega)]
    by_cases htier : tierOf task = tierOf first
    · rw [← htier, if_neg (by omega)]
      exact ⟨(first, tierOf task), mem_cons_self, rfl⟩
    · have hrest : task ∈ tasks := by
        apply (mem_cons.mp htask).resolve_left
        intro heq
        exact htier (congrArg tierOf heq)
      split_ifs
      · exact ih (by omega) hrest hroom
      · have hroomRest : onTier (byTier.set (tierOf first) (onTier byTier (tierOf first) + 1))
            (tierOf task) < caps.ofTier (tierOf task) := by
          rw [onTier_set_of_ne _ _ htier]
          exact hroom
        obtain ⟨pick, hpick, hpickTier⟩ := @ih (total + 1) _ (by omega) hrest hroomRest
        exact ⟨pick, mem_cons_of_mem _ hpick, hpickTier⟩

end

end

section

variable (strOther : Json → String)

def latestClaim (kind field : String) (events : List LogEvent) (task : String) : List String :=
  match (events.filter fun event => eventType strOther event = kind ∧
      member strOther (afterState strOther event) "task_id" = task).getLast? with
  | none => []
  | some event => entityKeys strOther (Json.lookup (afterState strOther event) field)

def Writes (events : List LogEvent) (task entity : String) : Prop :=
  entity ∈ latestClaim strOther "TaskWriteSetClaimed" "write_set" events task

def Touches (events : List LogEvent) (task entity : String) : Prop :=
  entity ∈ latestClaim strOther "TaskReadSetClaimed" "read_set" events task ∨
    Writes strOther events task entity

/-- More tasks of the plan read the entity than may do so beside one that writes it. -/
def HighFanout (events : List LogEvent) (planId entity : String) : Prop :=
  highFanoutReaderThreshold <
    ((planReadClaims strOther events planId).filter fun entry => entity ∈ entry.2).length

end

section

variable {strOther : Json → String} {events : List LogEvent} {planId : String}

theorem latestClaim_snoc (kind field : String) (event : LogEvent) (task : String) :
    latestClaim strOther kind field (events ++ [event]) task =
      if eventType strOther event = kind ∧
          member strOther (afterState strOther event) "task_id" = task then
        entityKeys strOther (Json.lookup (afterState strOther event) field)
      else latestClaim strOther kind field events task := by
  unfold latestClaim
  rw [filter_append]
  by_cases h : eventType strOther event = kind ∧
      member strOther (afterState strOther event) "task_id" = task
  · rw [if_pos h, filter_cons_of_pos (by simpa using h)]
    simp
  · rw [if_neg h, filter_cons_of_neg (by simpa using h)]
    simp

theorem getList_planClaims (kind field : String) (task : String) :
    (planClaims strOther kind field events planId).getList task =
      if task ∈ planTaskIds strOther events planId then latestClaim strOther kind field events task
      else [] := by
  unfold planClaims
  generalize planTaskIds strOther events planId = ids
  induction events using List.reverseRecOn with
  | nil => simp [Dict.getList, latestClaim]
  | append_singleton events event ih =>
    rw [filter_append, foldl_append]
    generalize List.foldl _ [] (events.filter fun event => eventType strOther event = kind) = claims
      at ih ⊢
    by_cases hkind : eventType strOther event = kind
    · rw [filter_cons_of_pos (by simpa using hkind), filter_nil, foldl_cons,
        foldl_nil]
      dsimp only
      by_cases htask : member strOther (afterState strOther event) "task_id" = task
      · subst htask
        rw [latestClaim_snoc kind field event, if_pos (And.intro hkind rfl)]
        by_cases hmem : member strOther (afterState strOther event) "task_id" ∈ ids
        · rw [if_pos hmem, if_pos hmem, Dict.getList, get_set_self, Option.getD_some]
        · rw [if_neg hmem, if_neg hmem, ih, if_neg hmem]
      · have hlatest : latestClaim strOther kind field (events ++ [event]) task =
            latestClaim strOther kind field events task := by
          rw [latestClaim_snoc, if_neg (fun h => htask h.2)]
        rw [hlatest, ← ih]
        split
        · unfold Dict.getList
          rw [get_set_of_ne _ _ (Ne.symm htask)]
        · rfl
    · have hlatest : latestClaim strOther kind field (events ++ [event]) task =
          latestClaim strOther kind field events task := by
        rw [latestClaim_snoc, if_neg (fun h => hkind h.1)]
      rw [hlatest, ← ih, filter_cons_of_neg (by simpa using hkind), filter_nil,
        foldl_nil]

theorem getD_tally (counts : Dict String Nat) (keys : List String) (key : String) :
    (Dict.get (keys.foldl (fun counts key =>
      Dict.set counts key ((Dict.get counts key).getD 0 + 1)) counts) key).getD 0 =
        (Dict.get counts key).getD 0 + keys.count key := by
  induction keys generalizing counts with
  | nil => rfl
  | cons first keys ih =>
    rw [foldl_cons, ih]
    by_cases hkey : key = first
    · subst hkey
      rw [get_set_self, count_cons_self, Option.getD_some]
      omega
    · rw [get_set_of_ne _ _ hkey, count_cons_of_ne (Ne.symm hkey)]

theorem getD_readerCounts (reads : Dict String (List String)) (entity : String) :
    (Dict.get (readerCounts reads) entity).getD 0 =
      (reads.filter fun entry => entity ∈ entry.2).length := by
  unfold readerCounts
  rw [getD_tally, get_nil, Option.getD_none, Nat.zero_add]
  induction reads with
  | nil => rfl
  | cons entry reads ih =>
    rw [flatMap_cons, count_append, ih]
    by_cases hmem : entity ∈ entry.2
    · rw [filter_cons_of_pos (by simpa using hmem), length_cons,
        count_eq_one_of_mem (nodup_dedup _) (mem_dedup.mpr hmem), Nat.add_comm]
    · rw [filter_cons_of_neg (by simpa using hmem),
        count_eq_zero_of_not_mem (fun h => hmem (mem_dedup.mp h)), Nat.zero_add]

theorem mem_planClaims : entity ∈ (planClaims strOther kind field events planId).getList task ↔
      task ∈ planTaskIds strOther events planId ∧
        entity ∈ latestClaim strOther kind field events task := by
  rw [getList_planClaims]
  split
  next h =>
    simp [h]
  next h =>
    simp [h]

theorem mem_highFanoutBlocked (hplan : candidates ⊆ planTaskIds strOther events planId) :
    task ∈ highFanoutBlocked strOther events planId candidates activeTaskIds ↔
      task ∈ candidates ∧ ∃ entity, Touches strOther events task entity ∧
        HighFanout strOther events planId entity ∧ ∃ active ∈ activeTaskIds,
          active ∈ planTaskIds strOther events planId ∧ Writes strOther events active entity := by
  let hot := activeTaskIds.flatMap fun active =>
    ((planWriteClaims strOther events planId).getList active).filter fun entity =>
      highFanoutReaderThreshold <
        (Dict.get (readerCounts (planReadClaims strOther events planId)) entity).getD 0
  have hhot : ∀ entity, entity ∈ hot ↔ HighFanout strOther events planId entity ∧
      ∃ active ∈ activeTaskIds, active ∈ planTaskIds strOther events planId ∧
        Writes strOther events active entity := by
    intro entity
    simp only [hot, mem_flatMap, mem_filter, getD_readerCounts, decide_eq_true_eq,
      planWriteClaims, mem_planClaims, HighFanout, Writes]
    grind
  have htouch : task ∈ candidates → ∀ entity,
      entity ∈ (planReadClaims strOther events planId).getList task ++
          (planWriteClaims strOther events planId).getList task ↔
        Touches strOther events task entity := by
    intro htask entity
    rw [mem_append, planReadClaims, planWriteClaims, mem_planClaims, mem_planClaims]
    simp [hplan htask, Touches, Writes]
  have hblocked : task ∈ highFanoutBlocked strOther events planId candidates activeTaskIds ↔
      task ∈ candidates ∧ ∃ entity ∈ (planReadClaims strOther events planId).getList task ++
        (planWriteClaims strOther events planId).getList task, entity ∈ hot := by
    unfold highFanoutBlocked
    dsimp only
    split
    next hnone =>
      rcases hnone with hnone | hnone
      · simp [hnone]
      · simp [hot, hnone]
    · split
      next hempty =>
        simp [hot, hempty]
      · rw [mem_filter, decide_eq_true_eq]
  rw [hblocked]
  constructor
  · intro h
    obtain ⟨htask, entity, hentity, hmem⟩ := h
    exact ⟨htask, entity, (htouch htask entity).mp hentity, (hhot entity).mp hmem⟩
  · intro h
    obtain ⟨htask, entity, hentity, hmem⟩ := h
    exact ⟨htask, entity, (htouch htask entity).mpr hentity, (hhot entity).mpr hmem⟩

end

section

variable (strOther : Json → String)

def onOpus (byTier : Dict String Nat) : Nat :=
  (byTier.map fun entry => if entry.1 = "sonnet" then 0 else entry.2).sum

structure BatchSafe (events : List LogEvent) (planId : String) (candidates : List String)
    (activeTotal : Nat) (active : ActiveTasks) (caps : Caps) (batch : List (String × String)) :
    Prop where
  candidates : ∀ pick ∈ batch, pick.1 ∈ candidates
  distinct : (batch.map Prod.fst).Nodup
  total : (activeTotal + batch.length : Int) ≤ max (activeTotal : Int) caps.total
  sonnet : (onTier active.byTier "sonnet" + batch.countP (fun pick => pick.2 = "sonnet") : Int) ≤
    max (onTier active.byTier "sonnet" : Int) caps.sonnet
  opus : (onOpus active.byTier + batch.countP (fun pick => pick.2 ≠ "sonnet") : Int) ≤
    max (onOpus active.byTier : Int) caps.opus
  fanOut : ∀ pick ∈ batch, ∀ entity, Touches strOther events pick.1 entity →
    HighFanout strOther events planId entity →
      (∀ task ∈ active.taskIds, ¬Writes strOther events task entity) ∧
        ∀ other ∈ batch, other.1 ≠ pick.1 → ¬Writes strOther events other.1 entity

/-- A candidate that no active task of its own plan keeps back. -/
def Eligible (events : List LogEvent) (planId : String) (dispatched activeTaskIds : List String)
    (task : String) : Prop :=
  task ∈ readyExecutionTasksToDispatch strOther events planId dispatched ∧
    ∀ entity, Touches strOther events task entity → HighFanout strOther events planId entity →
      ∀ other ∈ activeTaskIds, other ∈ planTaskIds strOther events planId →
        ¬Writes strOther events other entity

/-- The tasks that may start may start together: each was created once, those on the tiers that
share the opus cap are on one tier, alone on it with its active tasks, and none touches what many
read and another of them, or an active task of another plan, writes. -/
structure StartTogether (events : List LogEvent) (planId : String) (dispatched : List String)
    (active : ActiveTasks) : Prop where
  createdOnce : ∀ task, Eligible strOther events planId dispatched active.taskIds task →
    (planTaskIds strOther events planId).count task = 1
  oneTier : ∀ task, Eligible strOther events planId dispatched active.taskIds task →
    tierOf (taskModelTiers strOther events) task ≠ "sonnet" → ∀ tier, tier ≠ "sonnet" →
      tier ≠ tierOf (taskModelTiers strOther events) task → onTier active.byTier tier = 0 ∧
        ∀ other, Eligible strOther events planId dispatched active.taskIds other →
          tierOf (taskModelTiers strOther events) other ≠ tier
  fanOut : ∀ task, Eligible strOther events planId dispatched active.taskIds task →
    ∀ entity, Touches strOther events task entity → HighFanout strOther events planId entity →
      (∀ other ∈ active.taskIds, other ∉ planTaskIds strOther events planId →
        ¬Writes strOther events other entity) ∧
      ∀ other, Eligible strOther events planId dispatched active.taskIds other → other ≠ task →
        ¬Writes strOther events other entity

end

section

variable {strOther : Json → String} {events : List LogEvent} {planId : String}
  {dispatched : List String} {active : ActiveTasks}

theorem exists_filter_candidates (strOther : Json → String) (events : List LogEvent)
    (planId : String) (dispatched : List String) :
    ∃ keep : String → Bool, readyExecutionTasksToDispatch strOther events planId dispatched =
      (planTaskIds strOther events planId).filter keep := by
  unfold readyExecutionTasksToDispatch readyTasksToDispatch computeReadyTasks
  rw [filter_filter, filter_filter]
  exact ⟨_, rfl⟩

/-- The tasks that may start, in the order the batch is picked from, each as often as it was
created. -/
structure PickOrder (strOther : Json → String) (events : List LogEvent) (planId : String)
    (dispatched : List String) (active : ActiveTasks) (order : List String) : Prop where
  mem : ∀ task, task ∈ order ↔ Eligible strOther events planId dispatched active.taskIds task
  count : ∀ task ∈ order, order.count task = (planTaskIds strOther events planId).count task
  batch : ∀ activeTotal caps, selectDispatchBatch strOther events planId
      (readyExecutionTasksToDispatch strOther events planId dispatched) activeTotal active caps =
    pickTasks caps (tierOf (taskModelTiers strOther events)) activeTotal active.byTier order

theorem exists_pickOrder (strOther : Json → String) (events : List LogEvent) (planId : String)
    (dispatched : List String) (active : ActiveTasks) :
    ∃ order, PickOrder strOther events planId dispatched active order := by
  let candidates := readyExecutionTasksToDispatch strOther events planId dispatched
  let blocked := highFanoutBlocked strOther events planId candidates active.taskIds
  let critical := criticalPathTaskIds strOther events planId
  have hperm := perm_insertionSort
    (fun a b => dispatchKey critical a ≤ dispatchKey critical b) (candidates.filter (· ∉ blocked))
  obtain ⟨keep, hkeep⟩ := exists_filter_candidates strOther events planId dispatched
  have hplan : candidates ⊆ planTaskIds strOther events planId := by
    intro task htask
    rw [show candidates = _ from hkeep] at htask
    exact mem_of_mem_filter htask
  refine ⟨(candidates.filter (· ∉ blocked)).insertionSort
    fun a b => dispatchKey critical a ≤ dispatchKey critical b,
    fun task => ?_, fun task htask => ?_, fun activeTotal caps => ?_⟩
  · rw [hperm.mem_iff, mem_filter, decide_eq_true_eq,
      show task ∈ blocked ↔ _ from mem_highFanoutBlocked hplan]
    constructor
    · intro h
      refine ⟨h.1, fun entity htouch hfanout other hother hin hwrites => ?_⟩
      exact h.2 ⟨h.1, entity, htouch, hfanout, other, hother, hin, hwrites⟩
    · intro h
      refine ⟨h.1, fun hblocked => ?_⟩
      obtain ⟨-, entity, htouch, hfanout, other, hother, hin, hwrites⟩ := hblocked
      exact h.2 entity htouch hfanout other hother hin hwrites
  · rw [hperm.count_eq]
    have hmem := hperm.mem_iff.mp htask
    obtain ⟨hcandidate, hfree⟩ := mem_filter.mp hmem
    have hcandidate' : task ∈ (planTaskIds strOther events planId).filter keep := by
      rw [← hkeep]
      exact hcandidate
    rw [count_filter (p := fun task => decide (task ∉ blocked)) hfree,
      show candidates = _ from hkeep, count_filter (mem_filter.mp hcandidate').2]
  · unfold selectDispatchBatch
    split
    next hnone =>
      simp [candidates, hnone, pickTasks]
    · rfl

theorem onOpus_set_zero (byTier : Dict String Nat) (h : tier ≠ "sonnet") :
    onOpus (byTier.set tier 0) + onTier byTier tier = onOpus byTier := by
  unfold onOpus onTier
  cases hget : Dict.get byTier tier with
  | none =>
    rw [set_of_not_mem (Dict.get_eq_none_iff.mp hget)]
    simp
  | some count =>
    have hsum := sum_map_set
      (fun entry : String × Nat => if entry.1 = "sonnet" then 0 else entry.2) hget 0
    simpa [h] using hsum

theorem onTier_add_le_onOpus (byTier : Dict String Nat) (htier : tier ≠ "sonnet")
    (hother : other ≠ "sonnet") (hne : other ≠ tier) :
    onTier byTier tier + onTier byTier other ≤ onOpus byTier := by
  have hfirst := onOpus_set_zero byTier htier
  have hsecond := onOpus_set_zero (byTier.set tier 0) hother
  rw [onTier_set_of_ne _ _ hne] at hsecond
  omega

theorem onOpus_eq_onTier {byTier : Dict String Nat} (hnodup : byTier.keys.Nodup)
    (htier : tier ≠ "sonnet")
    (hothers : ∀ other, other ≠ "sonnet" → other ≠ tier → onTier byTier other = 0) :
    onOpus byTier = onTier byTier tier := by
  have hzero : onOpus (byTier.set tier 0) = 0 := by
    apply sum_eq_zero
    intro count hcount
    obtain ⟨entry, hentry, rfl⟩ := mem_map.mp hcount
    split
    · rfl
    next hsonnet =>
      rw [mem_iff_get (nodup_keys_set hnodup tier 0)] at hentry
      by_cases heq : entry.1 = tier
      · rw [heq, get_set_self] at hentry
        exact (Option.some.inj hentry).symm
      · have hnone := hothers entry.1 hsonnet heq
        rw [get_set_of_ne _ _ heq] at hentry
        rw [onTier, hentry] at hnone
        exact hnone
  have hset := onOpus_set_zero byTier htier
  omega

theorem onTier_le_sum (byTier : Dict String Nat) (tier : String) :
    onTier byTier tier ≤ (byTier.map Prod.snd).sum := by
  unfold onTier
  cases hget : Dict.get byTier tier with
  | none => exact Nat.zero_le _
  | some count => exact le_sum_of_mem (mem_map_of_mem (mem_of_get hget))

section PickOrder

variable {order : List String}

section

variable (h : PickOrder strOther events planId dispatched active order)
include h

theorem PickOrder.eligible {caps : Caps}
    (hpick : pick ∈ pickTasks caps (tierOf (taskModelTiers strOther events)) activeTotal
      active.byTier order) :
    Eligible strOther events planId dispatched active.taskIds pick.1 ∧
      pick.2 = tierOf (taskModelTiers strOther events) pick.1 := by
  obtain ⟨task, htask, rfl⟩ := mem_map.mp ((sublist_pickTasks _ _ _).subset hpick)
  exact ⟨(h.mem task).mp htask, rfl⟩

theorem PickOrder.starts_all : ∃ caps, selectDispatchBatch strOther events planId
        (readyExecutionTasksToDispatch strOther events planId dispatched) 0 active caps =
      order.map fun task => (task, tierOf (taskModelTiers strOther events) task) := by
  let room : Int := (active.byTier.map Prod.snd).sum + order.length
  refine ⟨{ total := order.length, opus := room, sonnet := room }, ?_⟩
  rw [h.batch]
  apply pickTasks_eq_map (by simp)
  intro tier
  have hle := onTier_le_sum active.byTier tier
  unfold Caps.ofTier
  dsimp only
  split <;> omega

theorem PickOrder.safe (htogether : StartTogether strOther events planId dispatched active)
    (activeTotal : Nat) (caps : Caps) :
    BatchSafe strOther events planId (readyExecutionTasksToDispatch strOther events planId dispatched)
      activeTotal active caps (selectDispatchBatch strOther events planId
        (readyExecutionTasksToDispatch strOther events planId dispatched) activeTotal active caps) := by
  rw [h.batch]
  have hnodup : order.Nodup := by
    apply nodup_iff_count_le_one.mpr
    intro task
    by_cases htask : task ∈ order
    · rw [h.count task htask, htogether.createdOnce task ((h.mem task).mp htask)]
    · rw [count_eq_zero_of_not_mem htask]
      exact Nat.zero_le 1
  refine ⟨?_, ?_, length_pickTasks _ _ _, countP_pickTasks _ _ _ "sonnet", ?_, ?_⟩
  · intro pick hpick
    exact (h.eligible hpick).1.1
  · have hsub := (@sublist_pickTasks caps (tierOf (taskModelTiers strOther events)) activeTotal
      active.byTier order).map Prod.fst
    rw [map_map] at hsub
    have horder : order.map (Prod.fst ∘ fun task =>
        (task, tierOf (taskModelTiers strOther events) task)) = order := by
      simp [Function.comp_def]
    rw [horder] at hsub
    exact hsub.nodup hnodup
  · by_cases hnone : ∃ pick ∈ pickTasks caps (tierOf (taskModelTiers strOther events)) activeTotal
        active.byTier order, pick.2 ≠ "sonnet"
    · obtain ⟨pick, hpick, hsonnet⟩ := hnone
      obtain ⟨heligible, htier⟩ := h.eligible hpick
      have hone := htogether.oneTier pick.1 heligible (htier ▸ hsonnet)
      rw [← htier] at hone
      have hcount := @countP_pickTasks caps (tierOf (taskModelTiers strOther events)) activeTotal
        active.byTier order pick.2
      have hsame : (pickTasks caps (tierOf (taskModelTiers strOther events)) activeTotal
          active.byTier order).countP (fun other => other.2 ≠ "sonnet") =
            (pickTasks caps (tierOf (taskModelTiers strOther events)) activeTotal
              active.byTier order).countP (fun other => other.2 = pick.2) := by
        apply countP_congr
        intro other hother
        obtain ⟨helig, htierOther⟩ := h.eligible hother
        simp only [decide_eq_true_eq]
        constructor
        · intro hclass
          by_contra hne
          exact (hone other.2 hclass hne).2 other.1 helig htierOther.symm
        · intro heq
          rw [heq]
          exact hsonnet
      have hcap : caps.ofTier pick.2 = caps.opus := if_neg hsonnet
      rw [onOpus_eq_onTier active.distinct hsonnet fun other hclass hne => (hone other hclass hne).1,
        hsame, ← hcap]
      exact hcount
    · have hzero : (pickTasks caps (tierOf (taskModelTiers strOther events)) activeTotal
          active.byTier order).countP (fun other => other.2 ≠ "sonnet") = 0 := by
        apply countP_eq_zero.mpr
        intro pick hpick hclass
        exact hnone ⟨pick, hpick, by simpa using hclass⟩
      rw [hzero]
      omega
  · intro pick hpick entity htouch hfanout
    have heligible := (h.eligible hpick).1
    have hothers := htogether.fanOut pick.1 heligible entity htouch hfanout
    refine ⟨fun task htask => ?_, fun other hother hne => ?_⟩
    · by_cases hin : task ∈ planTaskIds strOther events planId
      · exact heligible.2 entity htouch hfanout task htask hin
      · exact hothers.1 task htask hin
    · exact hothers.2 other.1 (h.eligible hother).1 hne

end

def opusRoom (tasks : List String) (opus : Int) : Caps :=
  { total := tasks.length, opus := opus, sonnet := 0 }

theorem PickOrder.starts_tier (h : PickOrder strOther events planId dispatched active order)
    (htask : Eligible strOther events planId dispatched active.taskIds task)
    (htier : tierOf (taskModelTiers strOther events) task ≠ "sonnet") (opus : Int)
    (hroom : onTier active.byTier (tierOf (taskModelTiers strOther events) task) < opus) :
    ∃ pick ∈ selectDispatchBatch strOther events planId
        (readyExecutionTasksToDispatch strOther events planId dispatched) 0 active
        (opusRoom order opus),
      pick.2 = tierOf (taskModelTiers strOther events) task := by
  rw [h.batch]
  apply exists_mem_pickTasks (by simp [opusRoom]) ((h.mem task).mpr htask)
  unfold Caps.ofTier
  rw [if_neg htier]
  exact hroom

theorem PickOrder.startTogether (h : PickOrder strOther events planId dispatched active order)
    (hsafe : ∀ activeTotal caps, BatchSafe strOther events planId
      (readyExecutionTasksToDispatch strOther events planId dispatched) activeTotal active caps
      (selectDispatchBatch strOther events planId
        (readyExecutionTasksToDispatch strOther events planId dispatched) activeTotal active caps)) :
    StartTogether strOther events planId dispatched active := by
  obtain ⟨wide, hwide⟩ := h.starts_all
  have hall := hsafe 0 wide
  rw [hwide] at hall
  have hpick : ∀ task, Eligible strOther events planId dispatched active.taskIds task →
      (task, tierOf (taskModelTiers strOther events) task) ∈
        order.map fun task => (task, tierOf (taskModelTiers strOther events) task) :=
    fun task htask => mem_map_of_mem ((h.mem task).mpr htask)
  -- a second tier under the opus cap, with active tasks, leaves no room for a pick of the first
  have hidle : ∀ task, Eligible strOther events planId dispatched active.taskIds task →
      tierOf (taskModelTiers strOther events) task ≠ "sonnet" → ∀ tier, tier ≠ "sonnet" →
        tier ≠ tierOf (taskModelTiers strOther events) task → onTier active.byTier tier = 0 := by
    intro task htask htier tier hclass hne
    obtain ⟨pick, hmem, hpickTier⟩ := h.starts_tier htask htier
      (onTier active.byTier (tierOf (taskModelTiers strOther events) task) + 1) (by omega)
    have hopus := (hsafe 0 (opusRoom order
      (onTier active.byTier (tierOf (taskModelTiers strOther events) task) + 1))).opus
    have hcount := countP_pos_iff (p := fun pick => decide (pick.2 ≠ "sonnet")).mpr
      ⟨pick, hmem, by simpa [hpickTier] using htier⟩
    have hsum := onTier_add_le_onOpus active.byTier htier hclass hne
    simp only [opusRoom] at hopus hcount
    omega
  refine ⟨fun task htask => ?_, fun task htask htier tier hclass hne => ?_, ?_⟩
  · have hnodup : order.Nodup := by
      have hdistinct := hall.distinct
      rw [map_map] at hdistinct
      simpa [Function.comp_def] using hdistinct
    rw [← h.count task ((h.mem task).mpr htask)]
    exact count_eq_one_of_mem hnodup ((h.mem task).mpr htask)
  · refine ⟨hidle task htask htier tier hclass hne, fun other hother heq => ?_⟩
    have hclassOther : tierOf (taskModelTiers strOther events) other ≠ "sonnet" := heq ▸ hclass
    have hfirst := hidle other hother hclassOther _ htier (by rw [heq]; exact hne.symm)
    have hsecond := hidle task htask htier tier hclass hne
    obtain ⟨pick, hmem, hpickTier⟩ := h.starts_tier htask htier 1 (by omega)
    obtain ⟨second, hmemSecond, hsecondTier⟩ := h.starts_tier hother hclassOther 1
      (by rw [heq]; omega)
    have hopus := (hsafe 0 (opusRoom order 1)).opus
    have hdistinct : pick ≠ second := by
      intro hsame
      rw [hsame, hsecondTier, heq] at hpickTier
      exact hne hpickTier
    have htwo : 2 ≤ (selectDispatchBatch strOther events planId
        (readyExecutionTasksToDispatch strOther events planId dispatched) 0 active
        (opusRoom order 1)).countP (fun pick => pick.2 ≠ "sonnet") := by
      rw [countP_eq_length_filter]
      have hboth : [pick, second].Nodup := by simpa using hdistinct
      apply (subperm_of_subset hboth _).length_le
      intro found hfound
      apply mem_filter.mpr
      rcases mem_pair.mp hfound with rfl | rfl
      · exact ⟨hmem, by simpa [hpickTier] using htier⟩
      · exact ⟨hmemSecond, by simpa [hsecondTier] using hclassOther⟩
    simp only [opusRoom] at hopus htwo
    omega
  · intro task htask entity htouch hfanout
    have hothers := hall.fanOut _ (hpick task htask) entity htouch hfanout
    exact ⟨fun other hother _ => hothers.1 other hother,
      fun other hother hne => hothers.2 _ (hpick other hother) hne⟩

end PickOrder

end

theorem selectDispatchBatch_safe_iff (strOther : Json → String) (events : List LogEvent)
    (planId : String) (dispatched : List String) (active : ActiveTasks) :
    (∀ activeTotal caps, BatchSafe strOther events planId
      (readyExecutionTasksToDispatch strOther events planId dispatched) activeTotal active caps
      (selectDispatchBatch strOther events planId
        (readyExecutionTasksToDispatch strOther events planId dispatched) activeTotal active caps)) ↔
      StartTogether strOther events planId dispatched active := by
  obtain ⟨order, horder⟩ := exists_pickOrder strOther events planId dispatched active
  exact ⟨horder.startTogether, horder.safe⟩

def createdTwice : List LogEvent :=
  [taskNodeCreated "t-1" "plan-1", taskNodeCreated "t-1" "plan-1"]

def noneActive : ActiveTasks := { byTier := [], taskIds := [], distinct := List.nodup_nil }

def defaultCaps : Caps := { total := 6, opus := 4, sonnet := 6 }

theorem created_twice_starts_twice :
    selectDispatchBatch sampleStr createdTwice "plan-1"
        (readyExecutionTasksToDispatch sampleStr createdTwice "plan-1" []) 0 noneActive defaultCaps =
      [("t-1", "opus"), ("t-1", "opus")] ∧
    ¬BatchSafe sampleStr createdTwice "plan-1"
      (readyExecutionTasksToDispatch sampleStr createdTwice "plan-1" []) 0 noneActive defaultCaps
      (selectDispatchBatch sampleStr createdTwice "plan-1"
        (readyExecutionTasksToDispatch sampleStr createdTwice "plan-1" []) 0 noneActive
        defaultCaps) := by
  have hbatch : selectDispatchBatch sampleStr createdTwice "plan-1"
      (readyExecutionTasksToDispatch sampleStr createdTwice "plan-1" []) 0 noneActive defaultCaps =
        [("t-1", "opus"), ("t-1", "opus")] := rfl
  refine ⟨hbatch, fun h => ?_⟩
  have hdistinct := h.distinct
  rw [hbatch] at hdistinct
  exact absurd hdistinct (by decide)

end Flowness.Planning
