import Flowness.Library.Since
import Flowness.Planning.DispatcherView
import Flowness.Planning.ReadyTasks
import Mathlib.Data.String.Basic

/-!
Tasks held back from dispatch until they are planned anew. The dispatcher compares the times that
requests and republications were stamped with; what the log says is the order of its events.
-/

namespace Flowness.Planning

open List Library Dict

section

variable (strOther : Json → String)

def readyTasksToDispatch (events : List LogEvent) (planId : String) (dispatched : List String) :
    List String :=
  (computeReadyTasks strOther events planId (completedSuccessTaskIds strOther events)).filter
    (· ∉ dispatched)

/-- `dispatch_target_for_task`: the skill, and the mode of a review. -/
def dispatchTargetForTask (task : String) (events : List LogEvent) : String × Option String :=
  if taskTypeFromEvents strOther task events = some "review" then ("review", some "author_time")
  else ("execution", none)

structure ReplanStamps where
  replanAt : Dict String String := []
  republishedAt : Dict String String := []

/-- `if ts >= stamps.get(tid, ""): stamps[tid] = ts`. -/
def noteStamp (stamps : Dict String String) (task timestamp : String) : Dict String String :=
  if (Dict.get stamps task).getD "" ≤ timestamp then stamps.set task timestamp else stamps

def replanStep (stamps : ReplanStamps) (event : LogEvent) : ReplanStamps :=
  let task := member strOther (afterState strOther event) "task_id"
  let timestamp := member strOther event "timestamp"
  if eventType strOther event = "RePlanTriggered" then
    if task ≠ "" then { stamps with replanAt := noteStamp stamps.replanAt task timestamp } else stamps
  else if eventType strOther event = "TaskPackagePublished" then
    if task ≠ "" then
      { stamps with republishedAt := noteStamp stamps.republishedAt task timestamp }
    else stamps
  else stamps

def tasksPendingReplan (events : List LogEvent) : List String :=
  let stamps := events.foldl (replanStep strOther) {}
  (stamps.replanAt.filter fun entry =>
    (Dict.get stamps.republishedAt entry.1).getD "" < entry.2).map Prod.fst

def readyExecutionTasksToDispatch (events : List LogEvent) (planId : String)
    (dispatched : List String) : List String :=
  let pending := tasksPendingReplan strOther events
  (readyTasksToDispatch strOther events planId dispatched).filter fun task =>
    (dispatchTargetForTask strOther task events).1 = "execution" ∧ task ∉ pending

def Names (kind task : String) (event : LogEvent) : Prop :=
  eventType strOther event = kind ∧ task ≠ "" ∧
    member strOther (afterState strOther event) "task_id" = task

instance (kind task : String) (event : LogEvent) : Decidable (Names strOther kind task event) :=
  inferInstanceAs (Decidable (_ ∧ _ ∧ _))

/-- A request to plan the task anew has no republication of the task after it. -/
def HeldForReplan (events : List LogEvent) (task : String) : Prop :=
  Since events (fun _ event => Names strOther "RePlanTriggered" task event)
    (Names strOther "TaskPackagePublished" task)

/-- What a run of the dispatcher on this log holds back and hands out. -/
structure HoldsExactly (events : List LogEvent) : Prop where
  pending : ∀ task, task ∈ tasksPendingReplan strOther events ↔ HeldForReplan strOther events task
  kept : ∀ planId dispatched task,
    task ∈ readyExecutionTasksToDispatch strOther events planId dispatched →
      ¬ HeldForReplan strOther events task
  released : ∀ planId dispatched task,
    task ∈ readyTasksToDispatch strOther events planId dispatched →
      (dispatchTargetForTask strOther task events).1 = "execution" →
        ¬ HeldForReplan strOther events task →
          task ∈ readyExecutionTasksToDispatch strOther events planId dispatched

def stampsOf (kind task : String) (events : List LogEvent) : List String :=
  (events.filter (Names strOther kind task)).map fun event => member strOther event "timestamp"

/-- The stamps of the log tell its order: a task whose request came last has a request stamped later
than every republication of it, and one that was republished last has none stamped so. -/
structure StampsInOrder (events : List LogEvent) : Prop where
  held : ∀ task, HeldForReplan strOther events task →
    ∃ requested ∈ stampsOf strOther "RePlanTriggered" task events, requested ≠ "" ∧
      ∀ republished ∈ stampsOf strOther "TaskPackagePublished" task events, republished < requested
  republished : ∀ task, ¬ HeldForReplan strOther events task →
    ∀ requested ∈ stampsOf strOther "RePlanTriggered" task events, requested ≠ "" →
      ∃ republished ∈ stampsOf strOther "TaskPackagePublished" task events, requested ≤ republished

end

section

variable {strOther : Json → String} {events : List LogEvent} {task : String}

def IsLatest (stamps : List String) : Option String → Prop
  | none => stamps = []
  | some latest => latest ∈ stamps ∧ ∀ stamp ∈ stamps, stamp ≤ latest

theorem empty_le (stamp : String) : "" ≤ stamp := by
  apply not_lt.mp
  exact not_lt_nil _

theorem IsLatest.noteStamp_self (h : IsLatest stamps (Dict.get latest task)) (stamp : String) :
    IsLatest (stamps ++ [stamp]) (Dict.get (noteStamp latest task stamp) task) := by
  unfold noteStamp
  cases hget : Dict.get latest task with
  | none =>
    rw [hget] at h
    have hempty : stamps = [] := h
    rw [Option.getD_none, if_pos (empty_le stamp), hempty]
    simp [IsLatest]
  | some before =>
    rw [hget] at h
    obtain ⟨hmem, hle⟩ := h
    split
    next hnew =>
      rw [get_set_self]
      refine ⟨by simp, fun other hother => ?_⟩
      rcases mem_append.mp hother with hother | hother
      · exact (hle other hother).trans hnew
      · exact (mem_singleton.mp hother).le
    next hold =>
      rw [hget]
      refine ⟨mem_append_left _ hmem, fun other hother => ?_⟩
      rcases mem_append.mp hother with hother | hother
      · exact hle other hother
      · rw [mem_singleton.mp hother]
        exact le_of_not_ge hold

theorem get_noteStamp_of_ne (latest : Dict String String) (h : task ≠ other) (stamp : String) :
    Dict.get (noteStamp latest other stamp) task = Dict.get latest task := by
  unfold noteStamp
  split
  · exact get_set_of_ne _ _ h
  · rfl

theorem nodup_keys_noteStamp (h : latest.keys.Nodup) (task stamp : String) :
    (noteStamp latest task stamp).keys.Nodup := by
  unfold noteStamp
  split
  · exact nodup_keys_set h _ _
  · exact h

theorem stampsOf_snoc (kind : String) (event : LogEvent) :
    stampsOf strOther kind task (events ++ [event]) = stampsOf strOther kind task events ++
      if Names strOther kind task event then [member strOther event "timestamp"] else [] := by
  unfold stampsOf
  by_cases hnames : Names strOther kind task event
  · simp [hnames]
  · simp [hnames]

structure StampsLatest (strOther : Json → String) (events : List LogEvent) (stamps : ReplanStamps) :
    Prop where
  replan : ∀ task, IsLatest (stampsOf strOther "RePlanTriggered" task events)
    (Dict.get stamps.replanAt task)
  republished : ∀ task, IsLatest (stampsOf strOther "TaskPackagePublished" task events)
    (Dict.get stamps.republishedAt task)
  nodup : stamps.replanAt.keys.Nodup

theorem isLatest_noteStamp
    (h : ∀ task, IsLatest (stampsOf strOther kind task events) (Dict.get latest task))
    (hkind : eventType strOther event = kind)
    (hnamed : member strOther (afterState strOther event) "task_id" ≠ "") (task : String) :
    IsLatest (stampsOf strOther kind task (events ++ [event])) (Dict.get (noteStamp latest
      (member strOther (afterState strOther event) "task_id") (member strOther event "timestamp"))
      task) := by
  rw [stampsOf_snoc]
  by_cases htask : task = member strOther (afterState strOther event) "task_id"
  · have hnames : Names strOther kind task event := ⟨hkind, htask ▸ hnamed, htask.symm⟩
    rw [if_pos hnames, ← htask]
    exact (h task).noteStamp_self _
  · have hnames : ¬Names strOther kind task event := fun hnames => htask hnames.2.2.symm
    rw [if_neg hnames, append_nil, get_noteStamp_of_ne _ htask]
    exact h task

theorem stampsOf_snoc_of_not
    (h : eventType strOther event ≠ kind ∨ member strOther (afterState strOther event) "task_id" =
      "")
    (task : String) :
    stampsOf strOther kind task (events ++ [event]) = stampsOf strOther kind task events := by
  have hnames : ¬Names strOther kind task event := by
    intro hnames
    rcases h with hkind | hblank
    · exact hkind hnames.1
    · exact hnames.2.1 (hnames.2.2.symm.trans hblank)
  rw [stampsOf_snoc, if_neg hnames, append_nil]

theorem StampsLatest.step (h : StampsLatest strOther events stamps) (event : LogEvent) :
    StampsLatest strOther (events ++ [event]) (replanStep strOther stamps event) := by
  unfold replanStep
  dsimp only
  split
  next hreplan =>
    have hother : eventType strOther event ≠ "TaskPackagePublished" := by
      rw [hreplan]
      decide
    split
    next hnamed =>
      refine ⟨isLatest_noteStamp h.replan hreplan hnamed, fun task => ?_, ?_⟩
      · rw [stampsOf_snoc_of_not (.inl hother)]
        exact h.republished task
      · exact nodup_keys_noteStamp h.nodup _ _
    next hblank =>
      refine ⟨fun task => ?_, fun task => ?_, h.nodup⟩
      · rw [stampsOf_snoc_of_not (.inr (not_not.mp hblank))]
        exact h.replan task
      · rw [stampsOf_snoc_of_not (.inl hother)]
        exact h.republished task
  next hreplan =>
    refine ⟨fun task => ?_, fun task => ?_, ?_⟩
    · rw [stampsOf_snoc_of_not (.inl hreplan)]
      split_ifs <;> exact h.replan task
    · split_ifs with hrepublished hnamed
      · exact isLatest_noteStamp h.republished hrepublished hnamed task
      · rw [stampsOf_snoc_of_not (.inr (not_not.mp hnamed))]
        exact h.republished task
      · rw [stampsOf_snoc_of_not (.inl hrepublished)]
        exact h.republished task
    · split_ifs <;> exact h.nodup

theorem stampsLatest (strOther : Json → String) (events : List LogEvent) :
    StampsLatest strOther events (events.foldl (replanStep strOther) {}) := by
  induction events using List.reverseRecOn with
  | nil => exact ⟨fun _ => rfl, fun _ => rfl, nodup_nil⟩
  | append_singleton events event ih =>
    rw [foldl_append]
    exact ih.step event

theorem mem_tasksPendingReplan :
    task ∈ tasksPendingReplan strOther events ↔
      ∃ requested ∈ stampsOf strOther "RePlanTriggered" task events, requested ≠ "" ∧
        ∀ republished ∈ stampsOf strOther "TaskPackagePublished" task events,
          republished < requested := by
  have hstamps := stampsLatest strOther events
  have hreplan := hstamps.replan task
  have hrepublished := hstamps.republished task
  have hmem : task ∈ tasksPendingReplan strOther events ↔
      ∃ latest, Dict.get (events.foldl (replanStep strOther) {}).replanAt task = some latest ∧
        (Dict.get (events.foldl (replanStep strOther) {}).republishedAt task).getD "" < latest := by
    simp [tasksPendingReplan, mem_iff_get hstamps.nodup]
  rw [hmem]
  constructor
  · intro h
    obtain ⟨latest, hget, hlt⟩ := h
    rw [hget] at hreplan
    refine ⟨latest, hreplan.1, ne_of_gt ((empty_le _).trans_lt hlt), fun republished hstamp => ?_⟩
    cases hlast : Dict.get (events.foldl (replanStep strOther) {}).republishedAt task with
    | none =>
      rw [hlast] at hrepublished
      rw [show stampsOf strOther "TaskPackagePublished" task events = [] from hrepublished] at hstamp
      cases hstamp
    | some last =>
      rw [hlast] at hrepublished hlt
      exact (hrepublished.2 republished hstamp).trans_lt hlt
  · intro h
    obtain ⟨requested, hstamp, hne, hlt⟩ := h
    cases hget : Dict.get (events.foldl (replanStep strOther) {}).replanAt task with
    | none =>
      rw [hget] at hreplan
      rw [show stampsOf strOther "RePlanTriggered" task events = [] from hreplan] at hstamp
      cases hstamp
    | some latest =>
      rw [hget] at hreplan
      refine ⟨latest, rfl, lt_of_lt_of_le ?_ (hreplan.2 requested hstamp)⟩
      cases hlast : Dict.get (events.foldl (replanStep strOther) {}).republishedAt task with
      | none => exact lt_of_le_of_ne (empty_le requested) hne.symm
      | some last =>
        rw [hlast] at hrepublished
        exact hlt last hrepublished.1

theorem holdsExactly_iff (strOther : Json → String) (events : List LogEvent) :
    HoldsExactly strOther events ↔ StampsInOrder strOther events := by
  constructor
  · intro h
    refine ⟨fun task hheld => mem_tasksPendingReplan.mp ((h.pending task).mpr hheld), ?_⟩
    intro task hfree requested hrequested hne
    by_contra hnone
    apply hfree
    apply (h.pending task).mp
    apply mem_tasksPendingReplan.mpr
    refine ⟨requested, hrequested, hne, fun republished hrepublished => ?_⟩
    apply lt_of_not_ge
    intro hle
    exact hnone ⟨republished, hrepublished, hle⟩
  · intro h
    have hpending : ∀ task,
        task ∈ tasksPendingReplan strOther events ↔ HeldForReplan strOther events task := by
      intro task
      rw [mem_tasksPendingReplan]
      refine ⟨fun hstamp => ?_, h.held task⟩
      obtain ⟨requested, hrequested, hne, hlt⟩ := hstamp
      by_contra hfree
      obtain ⟨republished, hrepublished, hle⟩ := h.republished task hfree requested hrequested hne
      exact absurd (hlt republished hrepublished) (not_lt.mpr hle)
    refine ⟨hpending, ?_, ?_⟩
    · intro planId dispatched task hmem hheld
      have hready := mem_filter.mp hmem
      simp only [decide_eq_true_eq] at hready
      exact hready.2.2 ((hpending task).mpr hheld)
    · intro planId dispatched task hready hexecution hfree
      apply mem_filter.mpr
      refine ⟨hready, ?_⟩
      simp only [decide_eq_true_eq]
      exact ⟨hexecution, fun hmem => hfree ((hpending task).mp hmem)⟩

end

def stampedEvent (eventType task timestamp : String) : LogEvent :=
  canonicalEvent eventType [("task_id", .str task)] ++ [("timestamp", .str timestamp)]

def skewedClocks : List LogEvent :=
  [taskNodeCreated "t-1" "plan-1",
    stampedEvent "TaskPackagePublished" "t-1" "2026-06-26T10:00:05Z",
    stampedEvent "RePlanTriggered" "t-1" "2026-06-26T10:00:03Z"]

theorem skewed_clocks_hide_request :
    HeldForReplan sampleStr skewedClocks "t-1" ∧
      "t-1" ∈ readyExecutionTasksToDispatch sampleStr skewedClocks "plan-1" [] ∧
        ¬HoldsExactly sampleStr skewedClocks := by
  have hheld : HeldForReplan sampleStr skewedClocks "t-1" := by
    refine ⟨[taskNodeCreated "t-1" "plan-1",
        stampedEvent "TaskPackagePublished" "t-1" "2026-06-26T10:00:05Z"],
      stampedEvent "RePlanTriggered" "t-1" "2026-06-26T10:00:03Z", [], rfl, ?_, by simp⟩
    decide +kernel
  have hready : "t-1" ∈ readyExecutionTasksToDispatch sampleStr skewedClocks "plan-1" [] := by
    decide +kernel
  exact ⟨hheld, hready, fun h => h.kept "plan-1" [] "t-1" hready hheld⟩

end Flowness.Planning
