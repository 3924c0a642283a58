import Flowness.Projection.TolerantLoad

/-!
The drops of the tolerant load. Grouped by the list they drop items of, in the order of the first
error of each, they are right as long as a list loses its items after the lists inside it.
-/

namespace Flowness.Projection

open List Library JsonPath Json

def InnerFirst (targets : List (List Step × Nat)) : Prop :=
  targets.Pairwise fun earlier later => ∀ step rest, later.1 ≠ earlier.1 ++ step :: rest

section

variable {τ : Type} {typing : Typing τ} {type : τ}

theorem appendAt_append {path : List Step} (h : path ∉ Dict.keys parents) (i : Nat) :
    Dict.appendAt (parents ++ more) path i = parents ++ Dict.appendAt more path i := by
  induction parents with
  | nil => rfl
  | cons parent parents ih =>
    have hne : parent.1 ≠ path := fun heq => h (heq ▸ mem_cons_self)
    have hrest := ih fun hmem => h (mem_cons_of_mem _ hmem)
    unfold Dict.appendAt Dict.getList at hrest ⊢
    rw [cons_append, Dict.get_cons, if_neg hne, Dict.set, if_neg hne, hrest]
    rfl

theorem foldl_appendAt_append {targets : List (List Step × Nat)}
    (h : ∀ target ∈ targets, target.1 ∉ Dict.keys parents) :
    targets.foldl (fun found target => Dict.appendAt found target.1 target.2) (parents ++ more) =
      parents ++ targets.foldl (fun found target => Dict.appendAt found target.1 target.2) more := by
  induction targets generalizing more with
  | nil => rfl
  | cons target targets ih =>
    rw [foldl_cons, foldl_cons, appendAt_append (h target mem_cons_self),
      ih fun other hother => h other (mem_cons_of_mem _ hother)]

theorem mem_keys_dropItemsByParent (h : path ∈ Dict.keys (dropItemsByParent targets)) :
    path ∈ targets.map Prod.fst := by
  have hgo : ∀ parents : Dict (List Step) (List Nat),
      path ∈ Dict.keys (targets.foldl (fun found target => Dict.appendAt found target.1 target.2) parents) →
        path ∈ Dict.keys parents ∨ path ∈ targets.map Prod.fst := by
    clear h
    induction targets with
    | nil => exact fun parents hmem => .inl hmem
    | cons target targets ih =>
      intro parents hmem
      rw [map_cons, mem_cons]
      rcases ih _ hmem with hparents | hrest
      · have hset := Dict.mem_keys_set.mp hparents
        tauto
      · exact .inr (.inr hrest)
  exact (hgo [] h).resolve_left not_mem_nil

theorem dropUpdates_append {targets more : List (List Step × Nat)}
    (h : ∀ target ∈ targets, ∀ other ∈ more, target.1 ≠ other.1) :
    dropUpdates (targets ++ more) = dropUpdates targets ++ dropUpdates more := by
  have hkeys : ∀ other ∈ more, other.1 ∉ Dict.keys (dropItemsByParent targets) := by
    intro other hother hmem
    obtain ⟨target, htarget, heq⟩ := mem_map.mp (mem_keys_dropItemsByParent hmem)
    exact h target htarget other hother heq
  have hsplit := @foldl_appendAt_append (dropItemsByParent targets) [] more hkeys
  rw [append_nil] at hsplit
  rw [dropUpdates, dropItemsByParent, foldl_append, ← dropItemsByParent, hsplit,
    ← dropItemsByParent, map_append, dropUpdates, dropUpdates]

def targetsUnder (step : Step) (targets : List (List Step × Nat)) : List (List Step × Nat) :=
  targets.map fun target => (step :: target.1, target.2)

theorem dropUpdates_under (step : Step) (targets : List (List Step × Nat)) :
    dropUpdates (targetsUnder step targets) = under step (dropUpdates targets) := by
  have happend : ∀ (parents : Dict (List Step) (List Nat)) (path : List Step) (i : Nat),
      Dict.appendAt (parents.map fun parent => (step :: parent.1, parent.2)) (step :: path) i =
        (Dict.appendAt parents path i).map fun parent => (step :: parent.1, parent.2) := by
    intro parents path i
    induction parents with
    | nil => rfl
    | cons parent parents ih =>
      obtain ⟨own, idxs⟩ := parent
      unfold Dict.appendAt Dict.getList at ih ⊢
      by_cases heq : own = path
      · simp [Dict.get_cons, Dict.set, heq]
      · simp [Dict.get_cons, Dict.set, heq, ih]
  have hgo : ∀ parents : Dict (List Step) (List Nat),
      (targetsUnder step targets).foldl (fun found target => Dict.appendAt found target.1 target.2)
          (parents.map fun parent => (step :: parent.1, parent.2)) =
        (targets.foldl (fun found target => Dict.appendAt found target.1 target.2) parents).map
          fun parent => (step :: parent.1, parent.2) := by
    induction targets with
    | nil => exact fun parents => rfl
    | cons target targets ih =>
      intro parents
      rw [targetsUnder, map_cons, foldl_cons, foldl_cons, happend]
      exact ih _
  have hgroups := hgo []
  rw [map_nil] at hgroups
  rw [dropUpdates, dropItemsByParent, hgroups, dropUpdates, under, map_map, map_map]
  rfl

theorem nearest_index (h : nearestEnclosingListIndex loc = some position) :
    ∃ i, loc[position]? = some (.index i) := by
  induction loc generalizing position with
  | nil => contradiction
  | cons step loc ih =>
    unfold nearestEnclosingListIndex at h
    split at h
    next before hbefore =>
      cases h
      obtain ⟨i, hi⟩ := ih hbefore
      exact ⟨i, by simpa using hi⟩
    · cases h
      exact ⟨_, rfl⟩
    · contradiction

theorem nearest_key (name : String) (loc : List Step) :
    nearestEnclosingListIndex (.key name :: loc) = (nearestEnclosingListIndex loc).map (· + 1) := by
  cases hnearest : nearestEnclosingListIndex loc
  all_goals simp [nearestEnclosingListIndex, hnearest]

theorem nearest_under_index (i : Nat) (loc : List Step) :
    nearestEnclosingListIndex (.index i :: loc) =
      some (((nearestEnclosingListIndex loc).map (· + 1)).getD 0) := by
  cases hnearest : nearestEnclosingListIndex loc
  all_goals simp [nearestEnclosingListIndex, hnearest]

theorem dropTarget_key (name : String) (loc : List Step) :
    dropTarget (.key name :: loc) =
      (dropTarget loc).map fun target => (.key name :: target.1, target.2) := by
  unfold dropTarget
  rw [nearest_key]
  cases hnearest : nearestEnclosingListIndex loc with
  | none => rfl
  | some position =>
    obtain ⟨i, hi⟩ := nearest_index hnearest
    simp [hi]

theorem dropTarget_index (i : Nat) (loc : List Step) :
    dropTarget (.index i :: loc) = some (match dropTarget loc with
      | some target => (.index i :: target.1, target.2)
      | none => ([], i)) := by
  unfold dropTarget
  rw [nearest_under_index]
  cases hnearest : nearestEnclosingListIndex loc with
  | none => rfl
  | some position =>
    obtain ⟨j, hj⟩ := nearest_index hnearest
    simp [hj]

theorem dropTargets_append (errors more : List LocatedError) :
    dropTargets (errors ++ more) = dropTargets errors ++ dropTargets more := by
  simp [dropTargets]

theorem dropTargets_under (step : Step) (errors : List LocatedError) :
    dropTargets (errors.map (LocatedError.under step)) =
      (errors.filter (·.kind ≠ .extraForbidden)).filterMap fun error => dropTarget (step :: error.loc) := by
  have hfilter := filter_under step errors fun kind => kind ≠ .extraForbidden
  rw [dropTargets, hfilter, filterMap_map]
  rfl

theorem dropTargets_key (name : String) (errors : List LocatedError) :
    dropTargets (errors.map (LocatedError.under (.key name))) =
      targetsUnder (.key name) (dropTargets errors) := by
  rw [dropTargets_under, targetsUnder, dropTargets, map_filterMap]
  apply filterMap_congr
  intro error _
  exact dropTarget_key name error.loc

theorem inner_dropTargets (i : Nat) (errors : List LocatedError) :
    (dropTargets (errors.map (LocatedError.under (.index i)))).filter (·.1 ≠ []) =
      targetsUnder (.index i) (dropTargets errors) := by
  rw [dropTargets_under, targetsUnder, dropTargets]
  induction errors.filter (·.kind ≠ .extraForbidden) with
  | nil => rfl
  | cons error errors ih =>
    have hcons : (error :: errors).filterMap (fun error => dropTarget (.index i :: error.loc)) =
        (match dropTarget error.loc with
          | some target => (.index i :: target.1, target.2)
          | none => ([], i)) :: errors.filterMap fun error => dropTarget (.index i :: error.loc) :=
      filterMap_cons_some (dropTarget_index i error.loc)
    rw [hcons]
    cases htarget : dropTarget error.loc with
    | none => simpa [htarget] using ih
    | some target => simpa [htarget] using ih

theorem own_dropTargets (i j : Nat) (errors : List LocatedError) :
    ([], j) ∈ dropTargets (errors.map (LocatedError.under (.index i))) ↔
      j = i ∧ ∃ error ∈ errors, error.kind ≠ .extraForbidden ∧ dropTarget error.loc = none := by
  rw [dropTargets_under, mem_filterMap]
  constructor
  · intro h
    obtain ⟨error, herror, htarget⟩ := h
    obtain ⟨hmem, hkind⟩ := mem_filter.mp herror
    rw [dropTarget_index] at htarget
    split at htarget
    · simp at htarget
    next hnone =>
      simp only [Option.some.injEq, Prod.mk.injEq, true_and] at htarget
      exact ⟨htarget.symm, error, hmem, by simpa using hkind, hnone⟩
  · intro h
    obtain ⟨rfl, error, hmem, hkind, hnone⟩ := h
    refine ⟨error, mem_filter.mpr ⟨hmem, by simpa using hkind⟩, ?_⟩
    rw [dropTarget_index, hnone]

variable {entries : List (String × Json)}

theorem deadFields_iff
    (hall : ∀ entry ∈ entries, ∀ fieldType, dead typing fieldType entry.2 = true ↔
      ∃ error ∈ defects typing fieldType entry.2, error.kind ≠ .extraForbidden ∧
      dropTarget error.loc = none) :
    deadFields typing type entries = true ↔ ∃ error ∈ fieldDefects typing type entries,
      error.kind ≠ .extraForbidden ∧ dropTarget error.loc = none := by
  induction entries with
  | nil => simp [deadFields, fieldDefects]
  | cons entry entries ih =>
    have hrest := ih fun other hother => hall other (mem_cons_of_mem _ hother)
    have hhead := hall entry mem_cons_self
    simp only [deadFields, fieldDefects, Bool.or_eq_true, mem_append, or_and_right, exists_or, hrest]
    apply or_congr_left
    cases hfield : typing.field type entry.1 with
    | none => simp
    | some fieldType =>
      rw [hhead fieldType]
      constructor
      · intro h
        obtain ⟨error, herror, hkind, hnone⟩ := h
        refine ⟨error.under (.key entry.1), mem_map_of_mem herror, hkind, ?_⟩
        rw [LocatedError.under, dropTarget_key, hnone]
        rfl
      · intro h
        obtain ⟨error, herror, hkind, hnone⟩ := h
        obtain ⟨inner, hinner, rfl⟩ := mem_map.mp herror
        refine ⟨inner, hinner, hkind, ?_⟩
        rw [LocatedError.under, dropTarget_key] at hnone
        exact Option.map_eq_none_iff.mp hnone

theorem dead_iff (value : Json) (type : τ) :
    dead typing type value = true ↔ ∃ error ∈ defects typing type value,
      error.kind ≠ .extraForbidden ∧ dropTarget error.loc = none := by
  induction value using tree_induction generalizing type with
  | h value ih =>
    unfold dead defects
    cases hmembers : typing.members type with
    | some members =>
      by_cases hmem : value ∈ members
      · simp [hmem]
      · simp [hmem, dropTarget, nearestEnclosingListIndex]
    | none =>
      cases value
      case arr items =>
        simp only [Bool.false_eq_true, false_iff, not_exists, not_and]
        intro error herror _
        obtain ⟨j, rest, -, hloc⟩ := loc_cons_of_mem_items herror
        rw [hloc, dropTarget_index]
        simp
      case obj entries =>
        exact deadFields_iff fun entry hentry => ih entry.2 (mem_map_of_mem hentry)
      all_goals simp

theorem InnerFirst.of_under (h : InnerFirst (targetsUnder step targets)) : InnerFirst targets := by
  rw [InnerFirst, targetsUnder, pairwise_map] at h
  apply h.imp
  intro earlier later hapart next rest heq
  exact hapart next rest (by simp [heq])

theorem InnerFirst.split (h : InnerFirst targets) :
    targets = targets.filter (·.1 ≠ []) ++ targets.filter (·.1 = []) := by
  induction targets with
  | nil => rfl
  | cons target targets ih =>
    obtain ⟨hhead, hrest⟩ := pairwise_cons.mp h
    by_cases hown : target.1 = []
    · have hall : ∀ other ∈ targets, other.1 = [] := by
        intro other hother
        by_contra hne
        obtain ⟨step, rest, hpath⟩ := exists_cons_of_ne_nil hne
        apply hhead other hother step rest
        rw [hown, hpath]
        rfl
      have hnone : targets.filter (·.1 ≠ []) = [] := by
        apply filter_eq_nil_iff.mpr
        intro other hother
        simp [hall other hother]
      have hsome : targets.filter (·.1 = []) = targets := by
        apply filter_eq_self.mpr
        intro other hother
        simp [hall other hother]
      rw [filter_cons_of_neg (by simp [hown]), filter_cons_of_pos (by simp [hown]), hnone, hsome]
      rfl
    · rw [filter_cons_of_pos (by simp [hown]), filter_cons_of_neg (by simp [hown]),
        cons_append, ← ih hrest]

/-- The drops inside the items, from item `i` on. -/
def innerTargets (typing : Typing τ) (type : τ) : Nat → List Json → List (List Step × Nat)
  | _, [] => []
  | i, item :: items =>
    targetsUnder (.index i) (dropTargets (defects typing type item)) ++
      innerTargets typing type (i + 1) items

theorem inner_items (i : Nat) (items : List Json) :
    (dropTargets (itemDefects typing type i items)).filter (·.1 ≠ []) = innerTargets typing type i items := by
  induction items generalizing i with
  | nil => rfl
  | cons item items ih =>
    rw [itemDefects, dropTargets_append, filter_append, inner_dropTargets, ih, innerTargets]

theorem mem_innerTargets (h : target ∈ innerTargets typing type i items) :
    ∃ j rest, i ≤ j ∧ target.1 = .index j :: rest := by
  induction items generalizing i with
  | nil => contradiction
  | cons item items ih =>
    rw [innerTargets, mem_append] at h
    rcases h with hitem | hrest
    · obtain ⟨inner, -, rfl⟩ := mem_map.mp hitem
      exact ⟨i, inner.1, Nat.le_refl i, rfl⟩
    · obtain ⟨j, rest, hle, hpath⟩ := ih hrest
      exact ⟨j, rest, by omega, hpath⟩

theorem dropUpdates_inner (i : Nat) (items : List Json) :
    dropUpdates (innerTargets typing type i items) =
      itemUpdates (fun item => dropUpdates (dropTargets (defects typing type item))) i items := by
  induction items generalizing i with
  | nil => rfl
  | cons item items ih =>
    rw [innerTargets, dropUpdates_append, dropUpdates_under, ih, itemUpdates]
    intro target htarget other hother heq
    obtain ⟨inner, -, rfl⟩ := mem_map.mp htarget
    obtain ⟨j, rest, hle, hpath⟩ := mem_innerTargets hother
    rw [hpath] at heq
    simp only [List.cons.injEq, Step.index.injEq] at heq
    omega

theorem InnerFirst.item (h : InnerFirst (innerTargets typing type i items)) :
    ∀ item ∈ items, InnerFirst (dropTargets (defects typing type item)) := by
  induction items generalizing i with
  | nil => simp
  | cons item items ih =>
    rw [InnerFirst, innerTargets, pairwise_append] at h
    intro other hother
    rcases mem_cons.mp hother with rfl | hother
    · exact InnerFirst.of_under h.1
    · exact ih h.2.1 other hother

theorem own_items (i j : Nat) (items : List Json) :
    ([], j) ∈ dropTargets (itemDefects typing type i items) ↔
      ∃ n, j = i + n ∧ ∃ item, items[n]? = some item ∧ dead typing type item = true := by
  induction items generalizing i with
  | nil => simp [itemDefects, dropTargets]
  | cons item items ih =>
    rw [itemDefects, dropTargets_append, mem_append, own_dropTargets, ih, ← dead_iff]
    constructor
    · intro h
      rcases h with ⟨rfl, hdead⟩ | ⟨n, rfl, other, hother, hdead⟩
      · exact ⟨0, rfl, item, rfl, hdead⟩
      · exact ⟨n + 1, by omega, other, by simpa using hother, hdead⟩
    · intro h
      obtain ⟨n, rfl, other, hother, hdead⟩ := h
      cases n with
      | zero =>
        cases hother
        exact .inl ⟨rfl, hdead⟩
      | succ n => exact .inr ⟨n, by omega, other, by simpa using hother, hdead⟩

theorem dropItems_nil (items : List Json) : dropItems [] (.arr items) = .arr items := by
  simp [dropItems]

theorem run_own (h : ∀ target ∈ targets, target.1 = []) (items : List Json) :
    run (dropUpdates targets) (.arr items) = dropItems (targets.map Prod.snd) (.arr items) := by
  have hgo : ∀ idxs : List Nat,
      targets.foldl (fun found target => Dict.appendAt found target.1 target.2) [([], idxs)] =
        [([], idxs ++ targets.map Prod.snd)] := by
    induction targets with
    | nil => simp
    | cons target targets ih =>
      intro idxs
      have hone : Dict.appendAt [([], idxs)] target.1 target.2 = [([], idxs ++ [target.2])] := by
        rw [h target mem_cons_self]
        rfl
      rw [foldl_cons, hone, ih fun other hother => h other (mem_cons_of_mem _ hother)]
      simp
  cases targets with
  | nil => exact (dropItems_nil items).symm
  | cons target targets =>
    have hfirst : Dict.appendAt [] target.1 target.2 = [([], [target.2])] := by
      rw [h target mem_cons_self]
      rfl
    have hgroups := hgo []
    rw [foldl_cons] at hgroups
    have hsame : Dict.appendAt [([], [])] target.1 target.2 = [([], [target.2])] := by
      rw [h target mem_cons_self]
      rfl
    rw [hsame] at hgroups
    rw [dropUpdates, dropItemsByParent, foldl_cons, hfirst, hgroups]
    rfl

theorem dropItems_dead
    (h : ∀ n item, items[n]? = some item → (n ∈ idxs ↔ dead typing type item = true)) :
    dropItems idxs (.arr (items.map (prune typing type))) = .arr (pruneItems typing type items) := by
  have hgo : ∀ i, (∀ n item, items[n]? = some item → (i + n ∈ idxs ↔ dead typing type item = true)) →
      (((items.map (prune typing type)).zipIdx i).filter (·.2 ∉ idxs)).map Prod.fst =
        pruneItems typing type items := by
    clear h
    induction items with
    | nil => exact fun i _ => rfl
    | cons item items ih =>
      intro i h
      have hrest := ih (i + 1) fun n other hother => by
        have hnext := h (n + 1) other (by simpa using hother)
        rwa [show i + 1 + n = i + (n + 1) by omega]
      have hhead := h 0 item rfl
      rw [Nat.add_zero] at hhead
      rw [map_cons, zipIdx_cons, pruneItems]
      split
      next hdead =>
        rw [filter_cons_of_neg (by simp [hhead.mpr hdead]), hrest]
      next halive =>
        rw [filter_cons_of_pos (by simp [mt hhead.mp halive]), map_cons, hrest]
  have hzero := hgo 0 fun n item hitem => by
    rw [Nat.zero_add]
    exact h n item hitem
  rw [dropItems, hzero]

def pruneField (typing : Typing τ) (type : τ) (entry : String × Json) : String × Json :=
  (entry.1, match typing.field type entry.1 with
    | none => entry.2
    | some fieldType => prune typing fieldType entry.2)

theorem pruneFields_eq (entries : List (String × Json)) :
    pruneFields typing type entries = entries.flatMap fun entry => [pruneField typing type entry] := by
  induction entries with
  | nil => rfl
  | cons entry entries ih =>
    rw [pruneFields, ih]
    rfl

def fieldTargets (typing : Typing τ) (type : τ) (entry : String × Json) : List (List Step × Nat) :=
  match typing.field type entry.1 with
  | none => []
  | some fieldType => targetsUnder (.key entry.1) (dropTargets (defects typing fieldType entry.2))

theorem dropTargets_fields (entries : List (String × Json)) :
    dropTargets (fieldDefects typing type entries) = entries.flatMap (fieldTargets typing type) := by
  induction entries with
  | nil => rfl
  | cons entry entries ih =>
    rw [fieldDefects, dropTargets_append, flatMap_cons, ih, fieldTargets]
    cases hfield : typing.field type entry.1 with
    | none => rfl
    | some fieldType =>
      rw [dropTargets_key]

theorem mem_fieldTargets (h : target ∈ fieldTargets typing type entry) :
    ∃ rest, target.1 = .key entry.1 :: rest := by
  unfold fieldTargets at h
  split at h
  · contradiction
  · obtain ⟨inner, -, rfl⟩ := mem_map.mp h
    exact ⟨inner.1, rfl⟩

theorem dropUpdates_fields (hnodup : (entries.map Prod.fst).Nodup) :
    dropUpdates (entries.flatMap (fieldTargets typing type)) =
      entries.flatMap fun entry => dropUpdates (fieldTargets typing type entry) := by
  induction entries with
  | nil => rfl
  | cons entry entries ih =>
    rw [map_cons, nodup_cons] at hnodup
    rw [flatMap_cons, flatMap_cons, dropUpdates_append, ih hnodup.2]
    intro target htarget other hother heq
    obtain ⟨field, hfield, hmem⟩ := mem_flatMap.mp hother
    obtain ⟨rest, hpath⟩ := mem_fieldTargets htarget
    obtain ⟨rest', hpath'⟩ := mem_fieldTargets hmem
    rw [hpath, hpath'] at heq
    simp only [List.cons.injEq, Step.key.injEq] at heq
    exact hnodup.1 (heq.1 ▸ mem_map_of_mem hfield)

theorem run_dropUpdates (value : Json) (hproper : value.proper = true) (type : τ)
    (hinner : InnerFirst (dropTargets (defects typing type value))) :
    run (dropUpdates (dropTargets (defects typing type value))) value = prune typing type value := by
  induction value using tree_induction generalizing type with
  | h value ih =>
    have hchild : ∀ child ∈ value.children, ∀ type, InnerFirst (dropTargets (defects typing type child)) →
        run (dropUpdates (dropTargets (defects typing type child))) child = prune typing type child :=
      fun child hmem type => ih child hmem (proper_children hproper hmem) type
    unfold defects at hinner
    unfold defects prune
    cases hmembers : typing.members type with
    | some members =>
      dsimp only
      split
      · rfl
      · rfl
    | none =>
      rw [hmembers] at hinner
      cases value
      case arr items =>
        dsimp only at hinner ⊢
        have hitems : InnerFirst (innerTargets typing (typing.item type) 0 items) := by
          rw [← inner_items]
          exact hinner.sublist filter_sublist
        have hapart : ∀ target ∈ (dropTargets (itemDefects typing (typing.item type) 0 items)).filter
            (·.1 ≠ []), ∀ other ∈ (dropTargets (itemDefects typing (typing.item type) 0 items)).filter
              (·.1 = []), target.1 ≠ other.1 := by
          intro target htarget other hother heq
          have hne := (mem_filter.mp htarget).2
          have hown := (mem_filter.mp hother).2
          simp only [decide_eq_true_eq] at hne hown
          exact hne (heq.trans hown)
        have hmap : (items.map fun item =>
            run (dropUpdates (dropTargets (defects typing (typing.item type) item))) item) =
              items.map (prune typing (typing.item type)) :=
          map_congr_left fun item hitem => hchild item hitem _ (hitems.item item hitem)
        have hrun := run_itemUpdates
          (fun item => dropUpdates (dropTargets (defects typing (typing.item type) item))) items []
        rw [nil_append, nil_append, length_nil, hmap] at hrun
        rw [hinner.split, dropUpdates_append hapart, run_append, inner_items, dropUpdates_inner, hrun,
          run_own fun target htarget => by simpa using (mem_filter.mp htarget).2]
        apply dropItems_dead
        intro n item hitem
        have hdrop : n ∈ ((dropTargets (itemDefects typing (typing.item type) 0 items)).filter
            (·.1 = [])).map Prod.snd ↔
              ([], n) ∈ dropTargets (itemDefects typing (typing.item type) 0 items) := by
          simp [mem_map]
        rw [hdrop, own_items]
        simp [hitem]
      case obj entries =>
        dsimp only at hinner ⊢
        rw [dropTargets_fields] at hinner ⊢
        have hentries := (pairwise_flatMap.mp hinner).1
        have hnodup := nodup_keys_of_proper hproper
        rw [dropUpdates_fields hnodup, pruneFields_eq]
        refine run_fields hnodup _ _ ?_ ?_
        · intro entry out hout
          rw [mem_singleton.mp hout]
          rfl
        · intro entry hentry front rest hfront hrest
          have hinnerField := hentries entry hentry
          unfold fieldTargets at hinnerField ⊢
          unfold pruneField
          cases hfield : typing.field type entry.1 with
          | none => rfl
          | some fieldType =>
            rw [hfield] at hinnerField
            have hvalue := hchild entry.2 (mem_map_of_mem hentry) fieldType
              (InnerFirst.of_under hinnerField)
            dsimp only
            rw [dropUpdates_under, ← hvalue]
            exact run_field hfront hrest
      all_goals rfl

theorem itemDefects_pruneItems {type : τ}
    (hall : ∀ item ∈ items, (∀ error ∈ defects typing type item, error.kind ≠ .extraForbidden) →
      dead typing type item = false → defects typing type (prune typing type item) = [])
    (i j : Nat) (hkinds : ∀ error ∈ itemDefects typing type j items, error.kind ≠ .extraForbidden) :
    itemDefects typing type i (pruneItems typing type items) = [] := by
  induction items generalizing i j with
  | nil => rfl
  | cons item items ih =>
    have hrest := fun i => ih (fun other hother => hall other (mem_cons_of_mem _ hother)) i (j + 1)
      fun error herror => hkinds error (mem_append_right _ herror)
    rw [pruneItems]
    split
    · exact hrest i
    next hkept =>
      have hitem := hall item mem_cons_self
        (fun error herror => hkinds (error.under (.index j))
          (mem_append_left _ (mem_map_of_mem herror)))
        (by simpa using hkept)
      rw [itemDefects, hitem, hrest]
      rfl

theorem fieldDefects_pruneFields {type : τ}
    (hall : ∀ entry ∈ entries, ∀ fieldType, (∀ error ∈ defects typing fieldType entry.2,
      error.kind ≠ .extraForbidden) → dead typing fieldType entry.2 = false →
      defects typing fieldType (prune typing fieldType entry.2) = [])
    (hkinds : ∀ error ∈ fieldDefects typing type entries, error.kind ≠ .extraForbidden)
    (halive : deadFields typing type entries = false) :
    fieldDefects typing type (pruneFields typing type entries) = [] := by
  induction entries with
  | nil => rfl
  | cons entry entries ih =>
    obtain ⟨name, field⟩ := entry
    rw [fieldDefects] at hkinds
    rw [deadFields, Bool.or_eq_false_iff] at halive
    have hrest := ih (fun other hother => hall other (mem_cons_of_mem _ hother))
      (fun error herror => hkinds error (mem_append_right _ herror)) halive.2
    rw [pruneFields, fieldDefects, hrest, append_nil]
    cases hfield : typing.field type name with
    | none =>
      rw [hfield] at hkinds
      exact absurd rfl (hkinds ⟨.extraForbidden, [.key name]⟩ (by simp))
    | some fieldType =>
      rw [hfield] at hkinds halive
      have hvalue := hall (name, field) mem_cons_self fieldType
        (fun error herror => hkinds (error.under (.key name))
          (mem_append_left _ (mem_map_of_mem herror)))
        halive.1
      dsimp only at hvalue ⊢
      rw [hvalue]
      rfl

theorem defects_prune (value : Json) (type : τ)
    (hdrift : ∀ error ∈ defects typing type value, error.kind ≠ .extraForbidden)
    (halive : dead typing type value = false) :
    defects typing type (prune typing type value) = [] := by
  induction value using tree_induction generalizing type with
  | h value ih =>
    unfold defects at hdrift
    unfold dead at halive
    unfold prune
    cases hmembers : typing.members type with
    | some members =>
      rw [hmembers] at halive
      have hmember : value ∈ members := by simpa using halive
      unfold defects
      rw [hmembers]
      exact if_pos hmember
    | none =>
      rw [hmembers] at hdrift halive
      cases value
      case arr items =>
        simp only [defects, hmembers]
        exact itemDefects_pruneItems (fun item hitem => ih item hitem _) 0 0 hdrift
      case obj entries =>
        simp only [defects, hmembers]
        exact fieldDefects_pruneFields (fun entry hentry => ih entry.2 (mem_map_of_mem hentry))
          hdrift halive
      all_goals simp [defects, hmembers]

theorem stripFields_keys (entries : List (String × Json)) :
    ((stripFields typing type entries).map Prod.fst).Sublist (entries.map Prod.fst) := by
  induction entries with
  | nil => exact .slnil
  | cons entry entries ih =>
    rw [stripFields]
    split
    · exact ih.cons _
    · exact ih.cons_cons _

theorem properItems_stripItems {type : τ}
    (hall : ∀ item ∈ items, (strip typing type item).proper = true) :
    Json.properItems (stripItems typing type items) = true := by
  induction items with
  | nil => rfl
  | cons item items ih =>
    rw [stripItems, Json.properItems, hall item mem_cons_self,
      ih fun other hother => hall other (mem_cons_of_mem _ hother)]
    rfl

theorem properEntries_stripFields {type : τ}
    (hall : ∀ entry ∈ entries, ∀ fieldType, (strip typing fieldType entry.2).proper = true) :
    Json.properEntries (stripFields typing type entries) = true := by
  induction entries with
  | nil => rfl
  | cons entry entries ih =>
    have hrest := ih fun other hother => hall other (mem_cons_of_mem _ hother)
    rw [stripFields]
    split
    · exact hrest
    · rw [Json.properEntries, hall entry mem_cons_self, hrest]
      rfl

theorem proper_strip (value : Json) (h : value.proper = true) (type : τ) :
    (strip typing type value).proper = true := by
  induction value using tree_induction generalizing type with
  | h value ih =>
    unfold strip
    cases hmembers : typing.members type with
    | some members => exact h
    | none =>
      cases value
      case arr items =>
        exact properItems_stripItems fun item hitem => ih item hitem (proper_children h hitem) _
      case obj entries =>
        have hentries : Json.properEntries (stripFields typing type entries) = true :=
          properEntries_stripFields fun entry hentry fieldType =>
            ih entry.2 (mem_map_of_mem hentry)
              (proper_children h (mem_map_of_mem hentry)) fieldType
        rw [Json.proper, hentries, Bool.and_true, decide_eq_true_eq]
        exact (nodup_keys_of_proper h).sublist (stripFields_keys entries)
      all_goals exact h

theorem itemDefects_kind {type : τ}
    (hall : ∀ item ∈ items, ∀ error ∈ defects typing type item, error.kind ≠ .other) (i : Nat) :
    ∀ error ∈ itemDefects typing type i items, error.kind ≠ .other := by
  induction items generalizing i with
  | nil => simp [itemDefects]
  | cons item items ih =>
    intro error herror
    rw [itemDefects, mem_append] at herror
    rcases herror with hitem | hrest
    · obtain ⟨inner, hinner, rfl⟩ := mem_map.mp hitem
      exact hall item mem_cons_self inner hinner
    · exact ih (fun other hother => hall other (mem_cons_of_mem _ hother)) (i + 1) error hrest

theorem fieldDefects_kind {type : τ}
    (hall : ∀ entry ∈ entries, ∀ fieldType, ∀ error ∈ defects typing fieldType entry.2, error.kind ≠ .other) :
    ∀ error ∈ fieldDefects typing type entries, error.kind ≠ .other := by
  induction entries with
  | nil => simp [fieldDefects]
  | cons entry entries ih =>
    intro error herror
    rw [fieldDefects, mem_append] at herror
    rcases herror with hfield | hrest
    · split at hfield
      · rw [mem_singleton.mp hfield]
        simp
      · obtain ⟨inner, hinner, rfl⟩ := mem_map.mp hfield
        exact hall entry mem_cons_self _ inner hinner
    · exact ih (fun other hother => hall other (mem_cons_of_mem _ hother)) error hrest

theorem kind_ne_other (value : Json) (type : τ) :
    ∀ error ∈ defects typing type value, error.kind ≠ .other := by
  induction value using tree_induction generalizing type with
  | h value ih =>
    unfold defects
    cases hmembers : typing.members type with
    | some members =>
      dsimp only
      split
      · simp
      · simp
    | none =>
      cases value
      case arr items => exact itemDefects_kind (fun item hitem => ih item hitem _) 0
      case obj entries => exact fieldDefects_kind fun entry hentry => ih entry.2 (mem_map_of_mem hentry)
      all_goals simp

theorem healDrift_eq (hproper : data.proper = true)
    (hinner : InnerFirst (dropTargets (defects typing type data))) :
    healDrift data (defects typing type data) = prune typing type (strip typing type data) := by
  have hsame : dropTargets (defects typing type data) =
      dropTargets (defects typing type (strip typing type data)) := by
    rw [defects_strip, dropTargets, dropTargets]
    simp
  rw [hsame] at hinner
  rw [healDrift, run_stripKeys data hproper, hsame,
    run_dropUpdates _ (proper_strip data hproper type) type hinner]

/-- Where every dead value stands in a list, and no list loses an item before a list inside it does,
the load returns the model of the input without the extra keys and the dead items. -/
theorem loadProjectionTolerant_eq {μ : Type} {build : Json → μ} {root : τ}
    {modelValidate : Json → Except (List LocatedError) μ} (hreports : Reports typing root build modelValidate)
    {entries : List (String × Json)} (hproper : (Json.obj entries).proper = true)
    (hlisted : ∀ error ∈ defects typing root (.obj entries), error.kind = .enum →
      (dropTarget error.loc).isSome = true)
    (hinner : InnerFirst (dropTargets (defects typing root (.obj entries)))) :
    loadProjectionTolerant modelValidate (.obj entries) =
      .ok (build (prune typing root (strip typing root (.obj entries)))) := by
  have hheal := healDrift_eq hproper hinner
  have hclean : defects typing root (prune typing root (strip typing root (.obj entries))) = [] := by
    apply defects_prune
    · intro error herror
      rw [defects_strip, mem_filter] at herror
      simpa using herror.2
    · rw [Bool.eq_false_iff]
      intro hdead
      obtain ⟨error, herror, hkind, hnone⟩ := (dead_iff _ _).mp hdead
      rw [defects_strip, mem_filter] at herror
      have henum : error.kind = .enum := by
        have hother := kind_ne_other _ _ error herror.1
        cases hcases : error.kind
        · rfl
        · exact absurd hcases hkind
        · exact absurd hcases hother
      have hsome := hlisted error herror.1 henum
      rw [hnone] at hsome
      contradiction
  have hvalid : modelValidate (prune typing root (strip typing root (.obj entries))) =
      .ok (build (prune typing root (strip typing root (.obj entries)))) := by
    rw [hreports, if_pos hclean]
  unfold loadProjectionTolerant
  dsimp only
  rw [hreports]
  by_cases hnone : defects typing root (.obj entries) = []
  · have hsame : prune typing root (strip typing root (.obj entries)) = .obj entries := by
      rw [← hheal, hnone]
      rfl
    rw [if_pos hnone, hsame]
  · have hdrift : (defects typing root (.obj entries)).all (·.kind ≠ .other) = true := by
      apply all_eq_true.mpr
      intro error herror
      simpa using kind_ne_other _ _ error herror
    rw [if_neg hnone]
    dsimp only
    rw [if_pos hdrift, hheal, hvalid]

end

def nodeTyping : Typing String where
  members type := if type = "kind" then some [.str "live"] else none
  field _ name := if name ∈ ["nodes", "kind", "refs"] then some name else none
  item type := if type = "refs" then "kind" else "node"

def validateNodes (data : Json) : Except (List LocatedError) Json :=
  if defects nodeTyping "root" data = [] then .ok data else .error (defects nodeTyping "root" data)

def node (kind : String) (refs : List String) : Json :=
  .obj [("kind", .str kind), ("refs", .arr (refs.map Json.str))]

/-- A dead reference goes before the dead node after it, and the extra key goes too. -/
theorem dead_reference_and_node_dropped :
    loadProjectionTolerant validateNodes (.obj [("nodes", .arr [node "live" ["gone", "live"],
      node "gone" []]), ("stamp", .null)]) =
        .ok (prune nodeTyping "root" (strip nodeTyping "root" (.obj [("nodes", .arr
          [node "live" ["gone", "live"], node "gone" []]), ("stamp", .null)]))) :=
  loadProjectionTolerant_eq (fun _ => rfl) (by decide +kernel) (by decide +kernel) (by
    have htargets : dropTargets (defects nodeTyping "root" (.obj [("nodes", .arr
        [node "live" ["gone", "live"], node "gone" []]), ("stamp", .null)])) =
          [([.key "nodes", .index 0, .key "refs"], 0), ([.key "nodes"], 1)] := rfl
    rw [htargets]
    simp [InnerFirst])

/-- A dead node before a node with a dead reference: the reference of the node after that one is
dropped instead, and the input is rejected. -/
theorem dead_node_shifts_reference :
    loadProjectionTolerant validateNodes (.obj [("nodes", .arr [node "gone" [], node "live" ["gone"],
      node "live" ["live"]])]) ≠
        .ok (prune nodeTyping "root" (strip nodeTyping "root" (.obj [("nodes", .arr
          [node "gone" [], node "live" ["gone"], node "live" ["live"]])]))) := by
  decide +kernel

end Flowness.Projection
