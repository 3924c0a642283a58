import Flowness.Planning.DispatchProgress
import Flowness.Planning.ReadyTasks
import Mathlib.Data.List.Sort

/-!
The write conflicts within one plan: what the freeze gate looks for, and which tasks that write the
same entity the dispatcher hands out side by side all the same.
-/

namespace Flowness.Planning

open List Library

def pairs {α : Type} : List α → List (α × α)
  | [] => []
  | first :: rest => rest.map (fun second => (first, second)) ++ pairs rest

structure WriteConflict where
  first : String
  second : String
  shared : List String
deriving DecidableEq, Repr

section Check

variable (strOther : Json → String) (events : List LogEvent) (planId : String)

def canonicalEdges : List (String × String) :=
  let ids := planTaskIds strOther events planId
  let added := events.filter fun event => eventType strOther event = "TaskDependencyEdgeAdded"
  (added.map fun event =>
    let fields := afterState strOther event
    (member strOther fields "source_task_id", member strOther fields "target_task_id")).filter
      fun edge => edge.1 ∈ ids ∧ edge.2 ∈ ids

def overlap (sets : Dict String (List String)) (first second : String) : List String :=
  (sets.getList first).dedup.filter (· ∈ sets.getList second)

def Joined (edges : List (String × String)) (first second : String) : Prop :=
  (first, second) ∈ edges ∨ (second, first) ∈ edges

instance (edges : List (String × String)) (first second : String) :
    Decidable (Joined edges first second) :=
  inferInstanceAs (Decidable (_ ∨ _))

def planWriteSets : Dict String (List String) :=
  writeSets strOther (· ∈ planTaskIds strOther events planId) events

/-- `check_no_resource_conflict`: the number of tasks with claims that were compared. -/
def checkNoResourceConflict : Except WriteConflict Nat :=
  let sets := planWriteSets strOther events planId
  let ordered := canonicalEdges strOther events planId
  let tasks := (sets.keys.filter (· ∉ closedTaskIds strOther events)).insertionSort (· ≤ ·)
  match (pairs tasks).find? fun pair =>
      overlap sets pair.1 pair.2 ≠ [] ∧ ¬ Joined ordered pair.1 pair.2 with
  | some (first, second) =>
    .error { first, second, shared := ((overlap sets first second).insertionSort (· ≤ ·)).take 3 }
  | none => .ok tasks.length

end Check

theorem mem_pairs {α : Type} {items : List α} {first second : α} (hfirst : first ∈ items)
    (hsecond : second ∈ items) (hne : first ≠ second) :
    (first, second) ∈ pairs items ∨ (second, first) ∈ pairs items := by
  induction items with
  | nil => cases hfirst
  | cons item items ih =>
    rw [pairs, mem_append, mem_append]
    by_cases hhead : first = item
    · subst hhead
      have hrest := (List.mem_cons.mp hsecond).resolve_left (Ne.symm hne)
      exact .inl (.inl (List.mem_map.mpr ⟨second, hrest, rfl⟩))
    · have hrest := (List.mem_cons.mp hfirst).resolve_left hhead
      by_cases hhead' : second = item
      · subst hhead'
        exact .inr (.inl (List.mem_map.mpr ⟨first, hrest, rfl⟩))
      · have hrest' := (List.mem_cons.mp hsecond).resolve_left hhead'
        exact (ih hrest hrest').imp .inr .inr

section

variable {sets : Dict String (List String)} {first second : String}

theorem overlap_ne_nil : overlap sets first second ≠ [] ↔
      ∃ entity, entity ∈ sets.getList first ∧ entity ∈ sets.getList second := by
  unfold overlap
  simp

theorem overlap_symm (h : overlap sets first second ≠ []) : overlap sets second first ≠ [] := by
  obtain ⟨entity, hfirst, hsecond⟩ := overlap_ne_nil.mp h
  exact overlap_ne_nil.mpr ⟨entity, hsecond, hfirst⟩

end

variable {strOther : Json → String} {events : List LogEvent} {planId : String}

theorem joined_of_check {compared : Nat}
    (h : checkNoResourceConflict strOther events planId = .ok compared) {first second : String}
    (hne : first ≠ second)
    (hfirst : first ∉ closedTaskIds strOther events) (hsecond : second ∉ closedTaskIds strOther events)
    (hoverlap : overlap (planWriteSets strOther events planId) first second ≠ []) :
    Joined (canonicalEdges strOther events planId) first second := by
  have hkey : ∀ task other, overlap (planWriteSets strOther events planId) task other ≠ [] →
      task ∈ (planWriteSets strOther events planId).keys := by
    intro task other hshare
    obtain ⟨entity, hentity, -⟩ := overlap_ne_nil.mp hshare
    by_contra hmem
    rw [Dict.getList, Dict.get_eq_none_iff.mpr hmem] at hentity
    cases hentity
  have htask : ∀ task other, overlap (planWriteSets strOther events planId) task other ≠ [] →
      task ∉ closedTaskIds strOther events →
        task ∈ ((planWriteSets strOther events planId).keys.filter
          (· ∉ closedTaskIds strOther events)).insertionSort (· ≤ ·) := by
    intro task other hshare hopen
    rw [mem_insertionSort, mem_filter]
    exact ⟨hkey task other hshare, decide_eq_true hopen⟩
  unfold checkNoResourceConflict at h
  simp only at h
  split at h
  · cases h
  next hnone =>
    rw [List.find?_eq_none] at hnone
    by_contra hjoined
    rcases mem_pairs (htask first second hoverlap hfirst)
      (htask second first (overlap_symm hoverlap) hsecond) hne with hpair | hpair
    · exact hnone _ hpair (decide_eq_true ⟨hoverlap, hjoined⟩)
    · exact hnone _ hpair (decide_eq_true ⟨overlap_symm hoverlap, fun h => hjoined h.symm⟩)

section Together

variable (strOther : Json → String) (events : List LogEvent) (planId : String)

def CanStart (task : String) : Prop :=
  task ∈ planTaskIds strOther events planId ∧ Dispatchable strOther events planId task ∧
    ¬ Precedes strOther events planId task task

/-- Two tasks may write the same entity, as the write guard compares their latest claims. -/
def SharesTarget (first second : String) : Prop :=
  ∃ target, target ∈ guardTargets strOther events planId first ∧
    target ∈ guardTargets strOther events planId second

def Ordered (first second : String) : Prop :=
  Precedes strOther events planId first second ∨ Precedes strOther events planId second first

/-- Whichever tasks are completed, no task is ready together with another, or with another that was
ready before and is unfinished, when both may write the same entity. -/
def WritersExclude : Prop :=
  ∀ earlier completed : List String, earlier ⊆ completed → ∀ first second, first ≠ second →
    first ∈ computeReadyTasks strOther events planId completed →
    (second ∈ computeReadyTasks strOther events planId completed ∨
      (second ∈ computeReadyTasks strOther events planId earlier ∧
        ¬ Satisfied strOther events completed second)) →
    ¬ SharesTarget strOther events planId first second

end Together

theorem CanStart.of_ready (h : task ∈ computeReadyTasks strOther events planId completed) :
    CanStart strOther events planId task := by
  obtain ⟨hmem, hopen, hpreds, hcleared⟩ := mem_computeReadyTasks.mp h
  exact ⟨hmem, ⟨fun hclosed => hopen (.inr hclosed), hcleared⟩, fun hself => hopen (hpreds task hself)⟩

theorem ready_mono (hsub : earlier ⊆ completed)
    (h : task ∈ computeReadyTasks strOther events planId earlier)
    (hopen : ¬ Satisfied strOther events completed task) :
    task ∈ computeReadyTasks strOther events planId completed := by
  obtain ⟨hmem, -, hpreds, hcleared⟩ := mem_computeReadyTasks.mp h
  refine mem_computeReadyTasks.mpr ⟨hmem, hopen, fun source hsource => ?_, hcleared⟩
  exact (hpreds source hsource).imp_left fun hdone => hsub hdone

theorem CanStart.ready (h : CanStart strOther events planId task) {open' : List String}
    (hdone : ∀ other ∈ planTaskIds strOther events planId, other ∉ open' → other ∈ done)
    (htask : task ∉ done)
    (hfree : ∀ other ∈ open', other ≠ task → ¬ Precedes strOther events planId other task) :
    task ∈ computeReadyTasks strOther events planId done := by
  refine mem_computeReadyTasks.mpr ⟨h.1, fun hsat => hsat.elim htask h.2.1.1, ?_, h.2.1.2⟩
  intro source hsource
  by_cases hself : source = task
  · rw [hself] at hsource
    exact absurd hsource h.2.2
  · by_cases hmem : source ∈ open'
    · exact absurd hsource (hfree source hmem hself)
    · exact .inl (hdone source hsource.2.1 hmem)

theorem writersExclude_iff_ordered :
    WritersExclude strOther events planId ↔
      ∀ first second, first ≠ second → CanStart strOther events planId first →
        CanStart strOther events planId second → SharesTarget strOther events planId first second →
          Ordered strOther events planId first second := by
  constructor
  · intro h first second hne hfirst hsecond hshares
    by_contra hordered
    let done := (planTaskIds strOther events planId).filter fun task => task ∉ [first, second]
    have hmem : ∀ task, task ∈ done ↔
        task ∈ planTaskIds strOther events planId ∧ task ∉ [first, second] := by
      intro task
      simp [done]
    have hready : ∀ task other, task ∈ [first, second] → other ≠ task →
        CanStart strOther events planId task → ¬ Precedes strOther events planId other task →
          [first, second] ⊆ [task, other] → task ∈ computeReadyTasks strOther events planId done := by
      intro task other htask hother hstart hfree hsub
      refine hstart.ready (fun t ht hnot => (hmem t).mpr ⟨ht, hnot⟩)
        (fun hdone => ((hmem task).mp hdone).2 htask) (fun t ht hself => ?_)
      rcases List.mem_cons.mp (hsub ht) with heq | hlast
      · exact absurd heq hself
      · rw [List.mem_singleton.mp hlast]
        exact hfree
    refine h done done (fun _ h => h) first second hne ?_ (.inl ?_) hshares
    · exact hready first second (by simp) (Ne.symm hne) hfirst (fun hp => hordered (.inr hp)) (by simp)
    · exact hready second first (by simp) hne hsecond (fun hp => hordered (.inl hp)) (by simp)
  · intro h earlier completed hsub first second hne hfirst hsecond hshares
    have hready : second ∈ computeReadyTasks strOther events planId completed := by
      rcases hsecond with hready | hearlier
      · exact hready
      · exact ready_mono hsub hearlier.1 hearlier.2
    obtain ⟨-, hopen₁, hpreds₁, -⟩ := mem_computeReadyTasks.mp hfirst
    obtain ⟨-, hopen₂, hpreds₂, -⟩ := mem_computeReadyTasks.mp hready
    rcases h first second hne (CanStart.of_ready hfirst) (CanStart.of_ready hready) hshares with
      hbefore | hbefore
    · exact hopen₁ (hpreds₂ first hbefore)
    · exact hopen₂ (hpreds₁ second hbefore)

/-- On a plan the freeze gate accepts the writers exclude each other exactly when an edge that the
dispatcher reads orders every two of them whose claims share no key as the gate reads claims, and
every two of them joined by an edge as the gate reads edges. -/
theorem writersExclude_iff {compared : Nat}
    (hgate : checkNoResourceConflict strOther events planId = .ok compared) :
    WritersExclude strOther events planId ↔
      ∀ first second, first ≠ second → CanStart strOther events planId first →
        CanStart strOther events planId second → SharesTarget strOther events planId first second →
          (overlap (planWriteSets strOther events planId) first second = [] →
            Ordered strOther events planId first second) ∧
          (Joined (canonicalEdges strOther events planId) first second →
            Ordered strOther events planId first second) := by
  rw [writersExclude_iff_ordered]
  constructor
  · intro h first second hne hfirst hsecond hshares
    have hordered := h first second hne hfirst hsecond hshares
    exact ⟨fun _ => hordered, fun _ => hordered⟩
  · intro h first second hne hfirst hsecond hshares
    obtain ⟨hunseen, hjoined⟩ := h first second hne hfirst hsecond hshares
    by_cases hoverlap : overlap (planWriteSets strOther events planId) first second = []
    · exact hunseen hoverlap
    · exact hjoined (joined_of_check hgate hne hfirst.2.1.1 hsecond.2.1.1 hoverlap)

def taskWriteSetClaimed (task : String) (entries : List Json) : LogEvent :=
  canonicalEvent "TaskWriteSetClaimed" [("task_id", .str task), ("write_set", .arr entries)]

def fileEntry (path : String) : Json :=
  .obj [("entity_type", .str "file"), ("entity_id", .str path)]

def respelledClaims : List LogEvent :=
  [taskNodeCreated "t-a" "plan-1", taskNodeCreated "t-b" "plan-1",
    taskWriteSetClaimed "t-a" [fileEntry "harness/src/a.py"],
    taskWriteSetClaimed "t-b" [fileEntry "src/a.py"]]

def orderedClaims : List LogEvent := respelledClaims ++ [taskDependencyEdgeAdded "t-a" "t-b"]

theorem orderedClaims_writersExclude : WritersExclude sampleStr orderedClaims "plan-1" := by
  have hgate : checkNoResourceConflict sampleStr orderedClaims "plan-1" = .ok 2 := by decide +kernel
  have htasks : planTaskIds sampleStr orderedClaims "plan-1" = ["t-a", "t-b"] := by decide +kernel
  have hadded : addedEdges sampleStr orderedClaims = [("t-a", "t-b")] := by decide +kernel
  refine (writersExclude_iff hgate).mpr fun first second hne hfirst hsecond _ => ?_
  have hordered : Ordered sampleStr orderedClaims "plan-1" first second := by
    have hfirst := hfirst.1
    have hsecond := hsecond.1
    simp only [Ordered, Precedes, htasks, hadded, List.mem_cons, List.not_mem_nil, or_false,
      Prod.mk.injEq] at hfirst hsecond ⊢
    grind
  exact ⟨fun _ => hordered, fun _ => hordered⟩

/-- The gate accepts the plan, both tasks are ready at once, and the guard lets both write the
file. -/
theorem respelled_claims_collide :
    ¬ ∀ (strOther : Json → String) (events : List LogEvent) (planId : String) (compared : Nat),
      checkNoResourceConflict strOther events planId = .ok compared →
        WritersExclude strOther events planId := by
  intro h
  have hgate : checkNoResourceConflict sampleStr respelledClaims "plan-1" = .ok 2 := by decide +kernel
  have hready : computeReadyTasks sampleStr respelledClaims "plan-1" [] = ["t-a", "t-b"] := by
    decide +kernel
  have hfirst : "src/a.py" ∈ guardTargets sampleStr respelledClaims "plan-1" "t-a" := by
    decide +kernel
  have hsecond : "src/a.py" ∈ guardTargets sampleStr respelledClaims "plan-1" "t-b" := by
    decide +kernel
  refine h sampleStr respelledClaims "plan-1" 2 hgate [] [] (fun _ h => h) "t-a" "t-b" (by decide)
    ?_ (Or.inl ?_) ⟨"src/a.py", hfirst, hsecond⟩
  · simp [hready]
  · simp [hready]

end Flowness.Planning
