import Flowness.Library.LongestPath
import Flowness.Planning.ReadyTasks
import Mathlib.Data.String.Basic
import Mathlib.Order.Bounds.Basic

/-!
The critical path of a plan: the longest chains of its dependency graph, whatever the log repeats or
tells of other plans.
-/

namespace Flowness.Planning

open Option List Library Relation Dict

/-- `sorted(values)` without those that were seen before. -/
def sortedUnseen {α : Type} [LinearOrder α] (values : List α) : List α :=
  (values.insertionSort (· ≤ ·)).eraseDups

structure CriticalPathResult where
  primaryPath : List String
  alternativePaths : List (List String) := []
  makespan : Nat := 0
  bottlenecks : List String := []
deriving DecidableEq

section

variable (strOther : Json → String)

def bottleneckTasks (fanIn : Dict String Nat) : List String :=
  let maxFanIn := (fanIn.map Prod.snd).foldl max 0
  if 0 < maxFanIn then
    ((fanIn.filter fun entry => entry.2 = maxFanIn).map Prod.fst).insertionSort (· ≤ ·)
  else []

/-- `compute_critical_path`; `none` stands for a recursion without end and for an empty list of
chains. -/
def computeCriticalPath (events : List LogEvent) (planId : String) : Option CriticalPathResult :=
  let graph := planDepGraph strOther events planId
  if graph.taskIds = [] then some { primaryPath := [], makespan := 0 }
  else
    (LongestPath.search graph.adj.getList graph.taskIds).bind fun longest =>
      match sortedUnseen longest.paths with
      | [] => none
      | primary :: alternatives =>
        some { primaryPath := primary
               alternativePaths := alternatives
               makespan := longest.length
               bottlenecks := bottleneckTasks graph.fanIn }

/-- A chain of tasks of the plan, each of them depending on the one before. -/
structure DependencyChain (events : List LogEvent) (planId : String) (chain : List String) : Prop where
  tasks : ∀ task ∈ chain, task ∈ planTaskIds strOther events planId
  edges : chain.IsChain (Precedes strOther events planId)

def CriticalPathResult.paths (result : CriticalPathResult) : List (List String) :=
  result.primaryPath :: result.alternativePaths

/-- The result holds the longest chains of the plan, the least of them first. -/
structure ExactPaths (events : List LogEvent) (planId : String) (result : CriticalPathResult) :
    Prop where
  makespan : IsGreatest {length | ∃ chain, DependencyChain strOther events planId chain ∧
    chain.length = length} result.makespan
  primaryPath : IsLeast {chain | DependencyChain strOther events planId chain ∧
    chain.length = result.makespan} result.primaryPath
  alternativePaths : ∀ chain, chain ∈ result.alternativePaths ↔
    DependencyChain strOther events planId chain ∧ chain.length = result.makespan ∧
      chain ≠ result.primaryPath
  ascending : result.alternativePaths.Pairwise (· < ·)

/-- Further events that tell of no new task of the plan and of no new edge between its tasks:
repeated creations and edges, and what concerns other plans. -/
structure Redundant (events : List LogEvent) (planId : String) (extra : List LogEvent) : Prop where
  tasks : planTaskIds strOther extra planId ⊆ planTaskIds strOther events planId
  edges : ∀ edge ∈ addedEdges strOther extra, edge.1 ∈ planTaskIds strOther events planId →
    edge.2 ∈ planTaskIds strOther events planId → edge ∈ addedEdges strOther events

end

section

variable {α : Type} [LinearOrder α]

theorem pairwise_eraseDups {values : List α} (h : values.Pairwise (· ≤ ·)) :
    values.eraseDups.Pairwise (· < ·) := by
  induction hlength : values.length using Nat.strong_induction_on generalizing values with
  | _ length ih =>
    cases values with
    | nil => exact List.Pairwise.nil
    | cons first rest =>
      rw [eraseDups_cons]
      obtain ⟨hfirst, hrest⟩ := pairwise_cons.mp h
      have hshort : (rest.filter fun other => !other == first).length < length := by
        rw [← hlength]
        exact Nat.lt_succ_of_le (length_filter_le _ rest)
      refine pairwise_cons.mpr ⟨fun other hother => ?_, ih _ hshort (hrest.filter _) rfl⟩
      obtain ⟨hmem, hne⟩ := mem_filter.mp (mem_eraseDups.mp hother)
      have hother : other ≠ first := by simpa using hne
      exact lt_of_le_of_ne (hfirst other hmem) hother.symm

theorem pairwise_sortedUnseen (values : List α) : (sortedUnseen values).Pairwise (· < ·) :=
  pairwise_eraseDups (pairwise_insertionSort _ _)

theorem mem_sortedUnseen {value : α} : value ∈ sortedUnseen values ↔ value ∈ values := by
  unfold sortedUnseen
  rw [mem_eraseDups, mem_insertionSort]

end

section

variable {strOther : Json → String} {events : List LogEvent} {planId : String}

theorem taskIds_planDepGraph :
    (planDepGraph strOther events planId).taskIds = planTaskIds strOther events planId := rfl

theorem mem_adj_planTaskIds {task after : String}
    (h : after ∈ (planDepGraph strOther events planId).adj.getList task) :
    after ∈ planTaskIds strOther events planId :=
  (mem_adj.mp h).2.2

theorem adj_eq_precedes :
    (fun a b => b ∈ (planDepGraph strOther events planId).adj.getList a) =
      Precedes strOther events planId := by
  funext source target
  exact propext mem_adj

section

variable {task : String} (htask : task ∈ planTaskIds strOther events planId) {path : List String}
    (h : LongestPath.PathFrom (planDepGraph strOther events planId).adj.getList task path)
include htask h

theorem tasks_of_pathFrom : ∀ other ∈ path, other ∈ planTaskIds strOther events planId := by
  induction path generalizing task with
  | nil => simp
  | cons first rest ih =>
    intro other hother
    obtain hend | ⟨after, hafter, tail, heq, hrest⟩ := h.cases
    · rw [hend] at hother
      rw [mem_singleton.mp hother]
      exact htask
    · obtain ⟨rfl, rfl⟩ := List.cons.inj heq
      rcases mem_cons.mp hother with rfl | hother
      · exact htask
      · exact ih (mem_adj_planTaskIds hafter) hrest other hother

theorem dependencyChain_of_pathFrom : DependencyChain strOther events planId path := by
  refine ⟨tasks_of_pathFrom htask h, ?_⟩
  rw [← adj_eq_precedes]
  exact h.2

end

theorem pathFrom_of_dependencyChain (h : DependencyChain strOther events planId (first :: rest)) :
    LongestPath.PathFrom (planDepGraph strOther events planId).adj.getList first (first :: rest) := by
  refine ⟨rfl, ?_⟩
  rw [adj_eq_precedes]
  exact h.edges

theorem planDepGraph_closed :
    ∀ task ∈ (planDepGraph strOther events planId).taskIds,
      ∀ after ∈ (planDepGraph strOther events planId).adj.getList task,
        after ∈ (planDepGraph strOther events planId).taskIds :=
  fun _ _ _ hafter => mem_adj_planTaskIds hafter

theorem computeCriticalPath_follows (strOther : Json → String) (events : List LogEvent)
    (planId : String) :
    ∃ result, computeCriticalPath strOther events planId = some result ∧
      ∀ path ∈ result.paths, DependencyChain strOther events planId path := by
  unfold computeCriticalPath
  dsimp only
  split
  · refine ⟨_, rfl, fun path hpath => ?_⟩
    rw [mem_singleton.mp hpath]
    exact ⟨by simp, isChain_nil⟩
  next hne =>
    obtain ⟨longest, hsearch, hsome, hpaths⟩ := LongestPath.search_follows planDepGraph_closed
    rw [hsearch, bind_some]
    cases hunseen : sortedUnseen longest.paths with
    | nil =>
      obtain ⟨path, hpath⟩ := exists_mem_of_ne_nil _ (hsome hne)
      rw [← mem_sortedUnseen, hunseen] at hpath
      cases hpath
    | cons primary alternatives =>
      refine ⟨_, rfl, fun path hpath => ?_⟩
      have hmem : path ∈ longest.paths := by
        rw [← mem_sortedUnseen, hunseen]
        exact hpath
      obtain ⟨-, task, htask, hfrom⟩ := hpaths path hmem
      exact dependencyChain_of_pathFrom htask hfrom

theorem computeCriticalPath_exactPaths (hne : planTaskIds strOther events planId ≠ [])
    (hacyclic : ∀ task, ¬TransGen (Precedes strOther events planId) task task)
    {result : CriticalPathResult}
    (h : computeCriticalPath strOther events planId = some result) :
    ExactPaths strOther events planId result := by
  have hnext : ∀ task, ¬TransGen
      (fun a b => b ∈ (planDepGraph strOther events planId).adj.getList a) task task := by
    rw [adj_eq_precedes]
    exact hacyclic
  obtain ⟨longest, hsearch, hsome, hpaths⟩ :=
    LongestPath.search_follows (@planDepGraph_closed strOther events planId)
  obtain ⟨hupper, hall⟩ := LongestPath.search_exact planDepGraph_closed hnext hsearch
  have hchain : ∀ chain, chain ∈ sortedUnseen longest.paths ↔
      DependencyChain strOther events planId chain ∧ chain.length = longest.length := by
    intro chain
    rw [mem_sortedUnseen]
    constructor
    · intro hmem
      obtain ⟨hlength, task, htask, hfrom⟩ := hpaths chain hmem
      exact ⟨dependencyChain_of_pathFrom htask hfrom, hlength⟩
    · intro hdep
      cases chain with
      | nil =>
        obtain ⟨path, hpath⟩ := exists_mem_of_ne_nil _ (hsome hne)
        obtain ⟨hlength, task, htask, hfrom⟩ := hpaths path hpath
        have hpositive := length_pos_iff.mpr hfrom.ne_nil
        have hzero := hdep.2
        simp only [length_nil] at hzero
        omega
      | cons first rest =>
        have hfirst := hdep.1.tasks first mem_cons_self
        exact hall first hfirst _ (pathFrom_of_dependencyChain hdep.1) hdep.2
  have hbound : ∀ chain, DependencyChain strOther events planId chain →
      chain.length ≤ longest.length := by
    intro chain hdep
    cases chain with
    | nil => exact Nat.zero_le _
    | cons first rest =>
      exact hupper first (hdep.tasks first mem_cons_self) _ (pathFrom_of_dependencyChain hdep)
  unfold computeCriticalPath at h
  dsimp only at h
  rw [taskIds_planDepGraph, if_neg hne] at h
  rw [taskIds_planDepGraph] at hsearch
  rw [hsearch, bind_some] at h
  have hascending := pairwise_sortedUnseen longest.paths
  cases hunseen : sortedUnseen longest.paths with
  | nil =>
    rw [hunseen] at h
    cases h
  | cons primary alternatives =>
    rw [hunseen] at h hascending
    simp only [hunseen] at hchain
    cases h
    obtain ⟨hleast, hsorted⟩ := pairwise_cons.mp hascending
    have hprimary := (hchain primary).mp mem_cons_self
    refine ⟨⟨⟨primary, hprimary.1, hprimary.2⟩, ?_⟩, ⟨hprimary, ?_⟩, ?_, hsorted⟩
    · intro length hlength
      obtain ⟨chain, hdep, rfl⟩ := hlength
      exact hbound chain hdep
    · intro chain hdep
      rcases mem_cons.mp ((hchain chain).mpr hdep) with heq | hmem
      · exact heq.ge
      · exact (hleast chain hmem).le
    · intro chain
      rw [← and_assoc, ← hchain, mem_cons]
      constructor
      · exact fun hmem => ⟨.inr hmem, (hleast chain hmem).ne'⟩
      · exact fun hmem => hmem.1.resolve_left hmem.2

theorem ExactPaths.congr
    (hchain : ∀ chain, DependencyChain strOther others planId chain ↔
      DependencyChain strOther events planId chain)
    (h : ExactPaths strOther others planId result) : ExactPaths strOther events planId result := by
  obtain ⟨hmakespan, hprimary, halternatives, hascending⟩ := h
  simp only [hchain] at hmakespan hprimary halternatives
  exact ⟨hmakespan, hprimary, halternatives, hascending⟩

theorem ExactPaths.unique (h : ExactPaths strOther events planId result)
    (hother : ExactPaths strOther events planId other) :
    other = { result with bottlenecks := other.bottlenecks } := by
  have hmakespan : other.makespan = result.makespan := hother.makespan.unique h.makespan
  have hprimary : other.primaryPath = result.primaryPath := by
    apply hother.primaryPath.unique
    rw [hmakespan]
    exact h.primaryPath
  have halternatives : other.alternativePaths = result.alternativePaths := by
    have hperm : other.alternativePaths.Perm result.alternativePaths := by
      rw [perm_ext_iff_of_nodup (hother.ascending.imp fun hlt => hlt.ne)
        (h.ascending.imp fun hlt => hlt.ne)]
      intro chain
      rw [hother.alternativePaths, h.alternativePaths, hmakespan, hprimary]
    exact hperm.eq_of_pairwise (fun _ _ _ _ hlt hgt => absurd hlt hgt.not_gt) hother.ascending
      h.ascending
  rw [← hmakespan, ← hprimary, ← halternatives]

theorem planTaskIds_append (first second : List LogEvent) :
    planTaskIds strOther (first ++ second) planId =
      planTaskIds strOther first planId ++ planTaskIds strOther second planId := by
  unfold planTaskIds
  rw [filter_append, map_append]

theorem addedEdges_append (first second : List LogEvent) :
    addedEdges strOther (first ++ second) =
      addedEdges strOther first ++ addedEdges strOther second := by
  unfold addedEdges
  rw [filter_append, map_append]

section Redundant

variable {before extra after : List LogEvent}

section

variable (h : Redundant strOther (before ++ after) planId extra)
include h

theorem Redundant.mem_planTaskIds {task : String} :
    task ∈ planTaskIds strOther (before ++ extra ++ after) planId ↔
      task ∈ planTaskIds strOther (before ++ after) planId := by
  have htask := @h.tasks task
  simp only [planTaskIds_append, mem_append] at htask ⊢
  tauto

theorem Redundant.precedes : Precedes strOther (before ++ extra ++ after) planId =
      Precedes strOther (before ++ after) planId := by
  funext source target
  apply propext
  unfold Precedes
  rw [h.mem_planTaskIds, h.mem_planTaskIds]
  have hedge := h.edges (source, target)
  simp only [addedEdges_append, mem_append] at hedge ⊢
  tauto

theorem Redundant.dependencyChain (chain : List String) :
    DependencyChain strOther (before ++ extra ++ after) planId chain ↔
      DependencyChain strOther (before ++ after) planId chain := by
  constructor
  · intro hchain
    refine ⟨fun task htask => h.mem_planTaskIds.mp (hchain.tasks task htask), ?_⟩
    rw [← h.precedes]
    exact hchain.edges
  · intro hchain
    refine ⟨fun task htask => h.mem_planTaskIds.mpr (hchain.tasks task htask), ?_⟩
    rw [h.precedes]
    exact hchain.edges

end

end Redundant

theorem keys_countIncoming (hnodup : fanIn.keys.Nodup) (edges : List (String × String)) :
    (Dict.keys (edges.foldl (fun fanIn edge =>
      Dict.set fanIn edge.2 ((Dict.get fanIn edge.2).getD 0 + 1)) fanIn)).Nodup := by
  induction edges generalizing fanIn with
  | nil => exact hnodup
  | cons edge edges ih => exact ih (nodup_keys_set hnodup _ _)

theorem get_countIncoming {edges : List (String × String)}
    (hedges : ∀ edge ∈ edges, edge.2 ∈ fanIn.keys) (task : String) :
    Dict.get (edges.foldl (fun fanIn edge =>
      Dict.set fanIn edge.2 ((Dict.get fanIn edge.2).getD 0 + 1)) fanIn) task =
        (Dict.get fanIn task).map (· + edges.countP fun edge => edge.2 = task) := by
  induction edges generalizing fanIn with
  | nil => cases hget : Dict.get fanIn task <;> simp [hget]
  | cons edge edges ih =>
    rw [foldl_cons, ih (fun other hother =>
      Dict.mem_keys_set.mpr (.inr (hedges other (mem_cons_of_mem edge hother))))]
    by_cases htask : task = edge.2
    · have hkey := hedges edge mem_cons_self
      cases hget : Dict.get fanIn edge.2 with
      | none => exact absurd hkey (Dict.get_eq_none_iff.mp hget)
      | some count =>
        rw [htask, get_set_self, hget, countP_cons_of_pos (by simp)]
        simp only [getD_some, map_some, some.injEq]
        omega
    · rw [get_set_of_ne _ _ htask, countP_cons_of_neg (by simpa using Ne.symm htask)]

theorem get_fanIn (task : String) :
    Dict.get (planDepGraph strOther events planId).fanIn task =
      if task ∈ planTaskIds strOther events planId then
        some (((addedEdges strOther events).filter fun edge =>
          edge.1 ∈ planTaskIds strOther events planId ∧
            edge.2 ∈ planTaskIds strOther events planId).countP fun edge => edge.2 = task)
      else none := by
  unfold planDepGraph
  rw [get_countIncoming, get_foldl_set]
  · split <;> simp
  · intro edge hedge
    have htarget := (mem_filter.mp hedge).2
    simp only [decide_eq_true_eq] at htarget
    by_contra hkey
    rw [← get_eq_none_iff, get_foldl_set, if_pos htarget.2] at hkey
    cases hkey

theorem nodup_fanIn : (planDepGraph strOther events planId).fanIn.keys.Nodup := by
  have hempty : (Dict.keys ([] : Dict String Nat)).Nodup := nodup_nil
  exact keys_countIncoming (nodup_keys_foldl_set hempty _ _) _

theorem bottleneckTasks_congr (h : fanIn.Perm other) :
    bottleneckTasks fanIn = bottleneckTasks other := by
  have hmax : (fanIn.map Prod.snd).foldl max 0 = (other.map Prod.snd).foldl max 0 :=
    (h.map Prod.snd).foldl_eq 0
  unfold bottleneckTasks
  dsimp only
  rw [hmax]
  split
  · have hperm := ((h.filter fun entry => entry.2 = (other.map Prod.snd).foldl max 0).map Prod.fst)
    apply List.Perm.eq_of_pairwise (fun _ _ _ _ => le_antisymm) (pairwise_insertionSort _ _)
      (pairwise_insertionSort _ _)
    exact (perm_insertionSort _ _).trans (hperm.trans (perm_insertionSort _ _).symm)
  · rfl

theorem Redundant.bottleneckTasks {before extra after : List LogEvent}
    (h : Redundant strOther (before ++ after) planId extra)
    (hedges : ∀ edge ∈ addedEdges strOther extra,
      ¬(edge.1 ∈ planTaskIds strOther (before ++ after) planId ∧
        edge.2 ∈ planTaskIds strOther (before ++ after) planId)) :
    bottleneckTasks (planDepGraph strOther (before ++ extra ++ after) planId).fanIn =
      bottleneckTasks (planDepGraph strOther (before ++ after) planId).fanIn := by
  have hget : ∀ task, Dict.get (planDepGraph strOther (before ++ extra ++ after) planId).fanIn task =
      Dict.get (planDepGraph strOther (before ++ after) planId).fanIn task := by
    intro task
    have hextra : (addedEdges strOther extra).filter (fun edge =>
        edge.1 ∈ planTaskIds strOther (before ++ after) planId ∧
          edge.2 ∈ planTaskIds strOther (before ++ after) planId) = [] := by
      apply filter_eq_nil_iff.mpr
      intro edge hedge
      simpa using hedges edge hedge
    rw [get_fanIn, get_fanIn]
    simp only [h.mem_planTaskIds]
    rw [addedEdges_append, addedEdges_append, addedEdges_append, filter_append,
      filter_append, filter_append, hextra, append_nil]
  apply bottleneckTasks_congr
  rw [perm_ext_iff_of_nodup nodup_fanIn.of_map nodup_fanIn.of_map]
  intro entry
  rw [mem_iff_get nodup_fanIn, mem_iff_get nodup_fanIn, hget]

theorem bottlenecks_computeCriticalPath (hne : planTaskIds strOther events planId ≠ [])
    (h : computeCriticalPath strOther events planId = some result) :
    result.bottlenecks = bottleneckTasks (planDepGraph strOther events planId).fanIn := by
  unfold computeCriticalPath at h
  dsimp only at h
  rw [taskIds_planDepGraph, if_neg hne] at h
  obtain ⟨longest, -, h⟩ := bind_eq_some_iff.mp h
  split at h
  · cases h
  · rw [← some.inj h]

/-- What further events that are redundant change at most: the bottlenecks, and these only where an
edge of the plan is repeated. -/
structure Unmoved (events extra : List LogEvent) (planId : String) (result other : CriticalPathResult) :
    Prop where
  paths : other = { result with bottlenecks := other.bottlenecks }
  bottlenecks : (∀ edge ∈ addedEdges strOther extra, ¬(edge.1 ∈ planTaskIds strOther events planId ∧
    edge.2 ∈ planTaskIds strOther events planId)) → other = result

theorem computeCriticalPath_exact (strOther : Json → String) (events : List LogEvent)
    (planId : String) :
    ∃ result, computeCriticalPath strOther events planId = some result ∧
      (∀ path ∈ result.paths, DependencyChain strOther events planId path) ∧
      (planTaskIds strOther events planId ≠ [] →
        (∀ task, ¬TransGen (Precedes strOther events planId) task task) →
          ExactPaths strOther events planId result ∧
          ∀ before extra after, events = before ++ after →
            Redundant strOther events planId extra →
              ∃ other, computeCriticalPath strOther (before ++ extra ++ after) planId = some other ∧
                @Unmoved strOther events extra planId result other) := by
  obtain ⟨result, hresult, hfollows⟩ := computeCriticalPath_follows strOther events planId
  refine ⟨result, hresult, hfollows, fun hne hacyclic => ?_⟩
  have hexact := computeCriticalPath_exactPaths hne hacyclic hresult
  refine ⟨hexact, fun before extra after hevents hredundant => ?_⟩
  subst hevents
  obtain ⟨other, hother, -⟩ :=
    computeCriticalPath_follows strOther (before ++ extra ++ after) planId
  have hne' : planTaskIds strOther (before ++ extra ++ after) planId ≠ [] := by
    obtain ⟨task, htask⟩ := exists_mem_of_ne_nil _ hne
    exact ne_nil_of_mem (hredundant.mem_planTaskIds.mpr htask)
  have hacyclic' : ∀ task,
      ¬TransGen (Precedes strOther (before ++ extra ++ after) planId) task task := by
    rw [hredundant.precedes]
    exact hacyclic
  have hother' := (computeCriticalPath_exactPaths hne' hacyclic' hother).congr
    hredundant.dependencyChain
  have hpaths := hexact.unique hother'
  refine ⟨other, hother, hpaths, fun hedges => ?_⟩
  have hbottlenecks : other.bottlenecks = result.bottlenecks := by
    rw [bottlenecks_computeCriticalPath hne' hother, bottlenecks_computeCriticalPath hne hresult]
    exact hredundant.bottleneckTasks hedges
  rw [hpaths, hbottlenecks]

end

def forkedPlan : List LogEvent :=
  [taskNodeCreated "t-1" "plan-1", taskNodeCreated "t-2" "plan-1", taskNodeCreated "t-3" "plan-1",
    taskDependencyEdgeAdded "t-1" "t-2", taskDependencyEdgeAdded "t-1" "t-3"]

theorem forkedPlan_acyclic (task : String) :
    ¬TransGen (Precedes sampleStr forkedPlan "plan-1") task task := by
  have hedges : addedEdges sampleStr forkedPlan = [("t-1", "t-2"), ("t-1", "t-3")] := rfl
  have hends : ∀ source target, Precedes sampleStr forkedPlan "plan-1" source target →
      source = "t-1" ∧ target ≠ "t-1" := by
    intro source target h
    have hedge := h.1
    rw [hedges] at hedge
    simp only [mem_cons, not_mem_nil, or_false, Prod.mk.injEq] at hedge
    obtain ⟨rfl, rfl⟩ | ⟨rfl, rfl⟩ := hedge
    · decide
    · decide
  intro hcycle
  obtain ⟨first, hfirst, -⟩ := TransGen.head'_iff.mp hcycle
  obtain ⟨last, -, hlast⟩ := TransGen.tail'_iff.mp hcycle
  exact (hends last task hlast).2 (hends task first hfirst).1

/-- The edge counts twice among those that come into its target. -/
theorem repeated_edge_moves_bottleneck :
    (∀ task, ¬TransGen (Precedes sampleStr forkedPlan "plan-1") task task) ∧
      Redundant sampleStr forkedPlan "plan-1" [taskDependencyEdgeAdded "t-1" "t-2"] ∧
      computeCriticalPath sampleStr forkedPlan "plan-1" =
        some { primaryPath := ["t-1", "t-2"], alternativePaths := [["t-1", "t-3"]], makespan := 2,
               bottlenecks := ["t-2", "t-3"] } ∧
      computeCriticalPath sampleStr (forkedPlan ++ [taskDependencyEdgeAdded "t-1" "t-2"]) "plan-1" =
        some { primaryPath := ["t-1", "t-2"], alternativePaths := [["t-1", "t-3"]], makespan := 2,
               bottlenecks := ["t-2"] } := by
  refine ⟨forkedPlan_acyclic, ⟨?_, ?_⟩, ?_, ?_⟩
  · decide +kernel
  · decide +kernel
  · decide +kernel
  · decide +kernel

end Flowness.Planning
