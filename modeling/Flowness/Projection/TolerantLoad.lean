import Flowness.Library.JsonPath

/-!
The tolerant load of a projection: extra keys are stripped, list items with a dead enum value are
dropped, and the rest is validated again. The drops use the index paths of the first validation.
-/

namespace Flowness.Projection

open List Library JsonPath

inductive ErrorKind
  | enum
  | extraForbidden
  | other
deriving DecidableEq

/-- One entry of `errors()`. -/
structure LocatedError where
  kind : ErrorKind
  loc : List Step
deriving DecidableEq

/-- `_nearest_enclosing_list_index`: the last position of a list index. -/
def nearestEnclosingListIndex : List Step → Option Nat
  | [] => none
  | step :: loc =>
    match nearestEnclosingListIndex loc, step with
    | some position, _ => some (position + 1)
    | none, .index _ => some 0
    | none, .key _ => none

def dropTarget (loc : List Step) : Option (List Step × Nat) :=
  match nearestEnclosingListIndex loc with
  | none => none
  | some position =>
    match loc[position]? with
    | some (.index i) => some (loc.take position, i)
    | _ => none

def popKey : Option Step → Json → Json
  | some (.key name), .obj entries => .obj (entries.filter (·.1 ≠ name))
  | _, value => value

/-- `[x for i, x in enumerate(parent) if i not in idxs]`. -/
def dropItems (idxs : List Nat) : Json → Json
  | .arr items => .arr ((items.zipIdx.filter (·.2 ∉ idxs)).map Prod.fst)
  | value => value

/-- `strip_keys`, with the parent and the last step of each path. -/
def stripKeys (errors : List LocatedError) : List (List Step × (Json → Json)) :=
  (errors.filter (·.kind = .extraForbidden)).map fun error =>
    (error.loc.dropLast, popKey error.loc.getLast?)

def dropTargets (errors : List LocatedError) : List (List Step × Nat) :=
  (errors.filter (·.kind ≠ .extraForbidden)).filterMap fun error => dropTarget error.loc

def dropItemsByParent (targets : List (List Step × Nat)) : Dict (List Step) (List Nat) :=
  targets.foldl (fun parents target => Dict.appendAt parents target.1 target.2) []

def dropUpdates (targets : List (List Step × Nat)) : List (List Step × (Json → Json)) :=
  (dropItemsByParent targets).map fun parent => (parent.1, dropItems parent.2)

def healDrift (data : Json) (errors : List LocatedError) : Json :=
  run (dropUpdates (dropTargets errors)) (run (stripKeys errors) data)

/-- `load_projection_tolerant`; the error is that of a `ProjectionDriftError`. -/
def loadProjectionTolerant {μ : Type} (modelValidate : Json → Except (List LocatedError) μ) (raw : Json) :
    Except (List LocatedError) μ :=
  let data := match raw with
    | .obj entries => .obj entries
    | _ => .obj []
  match modelValidate data with
  | .ok model => .ok model
  | .error errors =>
    if errors.all (·.kind ≠ .other) then modelValidate (healDrift data errors) else .error errors

/-- What a strict model says of each place of a projection: the values of an enumeration, and the
fields and items elsewhere. A field that is not declared is forbidden. -/
structure Typing (τ : Type) where
  members : τ → Option (List Json)
  field : τ → String → Option τ
  item : τ → τ

section

variable {τ : Type} (typing : Typing τ)

def LocatedError.under (step : Step) (error : LocatedError) : LocatedError :=
  { error with loc := step :: error.loc }

mutual

def defects (type : τ) (value : Json) : List LocatedError :=
  match typing.members type with
  | some members => if value ∈ members then [] else [⟨.enum, []⟩]
  | none =>
    match value with
    | .arr items => itemDefects (typing.item type) 0 items
    | .obj entries => fieldDefects type entries
    | _ => []

def itemDefects (type : τ) (i : Nat) : List Json → List LocatedError
  | [] => []
  | item :: items =>
    (defects type item).map (LocatedError.under (.index i)) ++ itemDefects type (i + 1) items

def fieldDefects (type : τ) : List (String × Json) → List LocatedError
  | [] => []
  | (name, value) :: entries =>
    (match typing.field type name with
      | none => [⟨.extraForbidden, [.key name]⟩]
      | some type => (defects type value).map (LocatedError.under (.key name))) ++
    fieldDefects type entries

end

mutual

def strip (type : τ) (value : Json) : Json :=
  match typing.members type with
  | some _ => value
  | none =>
    match value with
    | .arr items => .arr (stripItems (typing.item type) items)
    | .obj entries => .obj (stripFields type entries)
    | value => value

def stripItems (type : τ) : List Json → List Json
  | [] => []
  | item :: items => strip type item :: stripItems type items

def stripFields (type : τ) : List (String × Json) → List (String × Json)
  | [] => []
  | (name, value) :: entries =>
    match typing.field type name with
    | none => stripFields type entries
    | some fieldType => (name, strip fieldType value) :: stripFields type entries

end

mutual

def dead (type : τ) (value : Json) : Bool :=
  match typing.members type with
  | some members => value ∉ members
  | none =>
    match value with
    | .obj entries => deadFields type entries
    | _ => false

def deadFields (type : τ) : List (String × Json) → Bool
  | [] => false
  | (name, value) :: entries =>
    (match typing.field type name with
      | none => false
      | some type => dead type value) || deadFields type entries

end

mutual

def prune (type : τ) (value : Json) : Json :=
  match typing.members type with
  | some _ => value
  | none =>
    match value with
    | .arr items => .arr (pruneItems (typing.item type) items)
    | .obj entries => .obj (pruneFields type entries)
    | value => value

def pruneItems (type : τ) : List Json → List Json
  | [] => []
  | item :: items =>
    if dead typing type item then pruneItems type items
    else prune type item :: pruneItems type items

def pruneFields (type : τ) : List (String × Json) → List (String × Json)
  | [] => []
  | (name, value) :: entries =>
    (name, match typing.field type name with
      | none => value
      | some fieldType => prune fieldType value) :: pruneFields type entries

end

/-- The validator reports the defects of every input, and builds the model of one without. -/
def Reports {μ : Type} (root : τ) (build : Json → μ)
    (modelValidate : Json → Except (List LocatedError) μ) : Prop :=
  ∀ data, modelValidate data =
    if defects typing root data = [] then .ok (build data) else .error (defects typing root data)

end

section

variable {τ : Type} {typing : Typing τ} {type : τ}

theorem filter_under (step : Step) (errors : List LocatedError) (keeps : ErrorKind → Bool) :
    (errors.map (LocatedError.under step)).filter (fun error => keeps error.kind) =
      (errors.filter fun error => keeps error.kind).map (LocatedError.under step) := by
  rw [filter_map]
  rfl

theorem loc_cons_of_mem_items (h : error ∈ itemDefects typing type i items) :
    ∃ j rest, i ≤ j ∧ error.loc = .index j :: rest := by
  induction items generalizing i with
  | nil => contradiction
  | cons item items ih =>
    rw [itemDefects, mem_append] at h
    rcases h with hitem | hrest
    · obtain ⟨inner, -, rfl⟩ := mem_map.mp hitem
      exact ⟨i, inner.loc, Nat.le_refl i, rfl⟩
    · obtain ⟨j, rest, hle, hloc⟩ := ih hrest
      exact ⟨j, rest, by omega, hloc⟩

theorem loc_ne_nil_of_mem_fields (h : error ∈ fieldDefects typing type entries) :
    error.loc ≠ [] := by
  induction entries with
  | nil => contradiction
  | cons entry entries ih =>
    rw [fieldDefects, mem_append] at h
    rcases h with hfield | hrest
    · split at hfield
      · rw [mem_singleton.mp hfield]
        simp
      · obtain ⟨inner, -, rfl⟩ := mem_map.mp hfield
        simp [LocatedError.under]
    · exact ih hrest

theorem loc_ne_nil (h : error ∈ defects typing type value) (hextra : error.kind = .extraForbidden) :
    error.loc ≠ [] := by
  unfold defects at h
  split at h
  · split at h
    · contradiction
    · rw [mem_singleton.mp h] at hextra
      contradiction
  · split at h
    · obtain ⟨j, rest, -, hloc⟩ := loc_cons_of_mem_items h
      simp [hloc]
    · exact loc_ne_nil_of_mem_fields h
    · contradiction

theorem stripKeys_append (errors more : List LocatedError) :
    stripKeys (errors ++ more) = stripKeys errors ++ stripKeys more := by
  simp [stripKeys]

theorem stripKeys_under (step : Step)
    (h : ∀ error ∈ errors, error.kind = .extraForbidden → error.loc ≠ []) :
    stripKeys (errors.map (LocatedError.under step)) = under step (stripKeys errors) := by
  have hfilter := filter_under step errors fun kind => kind = .extraForbidden
  rw [stripKeys, hfilter, stripKeys, under, map_map, map_map]
  apply map_congr_left
  intro error herror
  obtain ⟨hmem, hkind⟩ := mem_filter.mp herror
  obtain ⟨first, rest, hloc⟩ := exists_cons_of_ne_nil (h error hmem (by simpa using hkind))
  simp [LocatedError.under, hloc]

theorem stripKeys_items (i : Nat) (items : List Json) :
    stripKeys (itemDefects typing type i items) =
      itemUpdates (fun item => stripKeys (defects typing type item)) i items := by
  induction items generalizing i with
  | nil => rfl
  | cons item items ih =>
    rw [itemDefects, stripKeys_append, stripKeys_under _ fun error => loc_ne_nil, ih, itemUpdates]

theorem stripItems_eq (items : List Json) :
    stripItems typing type items = items.map (strip typing type) := by
  induction items with
  | nil => rfl
  | cons item items ih => rw [stripItems, ih, map_cons]

def stripField (typing : Typing τ) (type : τ) (entry : String × Json) : List (String × Json) :=
  match typing.field type entry.1 with
  | none => []
  | some fieldType => [(entry.1, strip typing fieldType entry.2)]

theorem stripFields_eq (entries : List (String × Json)) :
    stripFields typing type entries = entries.flatMap (stripField typing type) := by
  induction entries with
  | nil => rfl
  | cons entry entries ih =>
    rw [stripFields, flatMap_cons, ih, stripField]
    cases hfield : typing.field type entry.1 with
    | none => rfl
    | some fieldType => rfl

def fieldStrips (typing : Typing τ) (type : τ) (entry : String × Json) :
    List (List Step × (Json → Json)) :=
  match typing.field type entry.1 with
  | none => [([], popKey (some (.key entry.1)))]
  | some fieldType => under (.key entry.1) (stripKeys (defects typing fieldType entry.2))

theorem stripKeys_fields (entries : List (String × Json)) :
    stripKeys (fieldDefects typing type entries) = entries.flatMap (fieldStrips typing type) := by
  induction entries with
  | nil => rfl
  | cons entry entries ih =>
    rw [fieldDefects, stripKeys_append, flatMap_cons, ih, fieldStrips]
    cases hfield : typing.field type entry.1 with
    | none => rfl
    | some fieldType =>
      rw [stripKeys_under _ fun error => loc_ne_nil]

theorem nodup_keys_of_proper (h : (Json.obj entries).proper = true) :
    (entries.map Prod.fst).Nodup := by
  rw [Json.proper, Bool.and_eq_true, decide_eq_true_eq] at h
  exact h.1

theorem run_stripKeys (value : Json) (hproper : value.proper = true) (type : τ) :
    run (stripKeys (defects typing type value)) value = strip typing type value := by
  induction value using Json.tree_induction generalizing type with
  | h value ih =>
    have hchild : ∀ child ∈ value.children, ∀ type,
        run (stripKeys (defects typing type child)) child = strip typing type child :=
      fun child hmem type => ih child hmem (Json.proper_children hproper hmem) type
    unfold defects strip
    cases hmembers : typing.members type with
    | some members =>
      dsimp only
      split
      · rfl
      · rfl
    | none =>
      cases value
      case arr items =>
        have hrun := run_itemUpdates (fun item => stripKeys (defects typing (typing.item type) item)) items []
        dsimp only
        rw [stripKeys_items, stripItems_eq]
        refine hrun.trans ?_
        congr 1
        exact map_congr_left fun item hitem => hchild item hitem _
      case obj entries =>
        dsimp only
        rw [stripKeys_fields, stripFields_eq]
        refine run_fields (nodup_keys_of_proper hproper) _ _ ?_ ?_
        · intro entry out hout
          unfold stripField at hout
          split at hout
          · contradiction
          · rw [mem_singleton.mp hout]
        · intro entry hentry front rest hfront hrest
          unfold fieldStrips stripField
          cases hfield : typing.field type entry.1 with
          | none =>
            have hgone : ∀ others : List (String × Json), entry.1 ∉ others.map Prod.fst →
                others.filter (·.1 ≠ entry.1) = others := by
              intro others hothers
              apply filter_eq_self.mpr
              intro other hother
              simp only [decide_eq_true_eq]
              intro heq
              exact hothers (heq ▸ mem_map_of_mem hother)
            have hself : decide (entry.1 ≠ entry.1) = false := by simp
            simp only [run, foldl_cons, foldl_nil, modifyAt, popKey, filter_append,
              filter_cons, hself, hgone front hfront, hgone rest hrest]
            rfl
          | some fieldType =>
            have hvalue := hchild entry.2 (mem_map_of_mem hentry) fieldType
            rw [singleton_append, ← hvalue]
            exact run_field hfront hrest
      all_goals rfl

theorem filter_under_kept (step : Step) (errors : List LocatedError) :
    (errors.map (LocatedError.under step)).filter (·.kind ≠ .extraForbidden) =
      (errors.filter (·.kind ≠ .extraForbidden)).map (LocatedError.under step) :=
  filter_under step errors fun kind => kind ≠ .extraForbidden

theorem itemDefects_stripItems {type : τ}
    (hall : ∀ item ∈ items, defects typing type (strip typing type item) =
      (defects typing type item).filter (·.kind ≠ .extraForbidden))
    (i : Nat) : itemDefects typing type i (stripItems typing type items) =
      (itemDefects typing type i items).filter (·.kind ≠ .extraForbidden) := by
  induction items generalizing i with
  | nil => rfl
  | cons item items ih =>
    rw [stripItems, itemDefects, itemDefects, filter_append, filter_under_kept,
      hall item mem_cons_self, ih fun other hother => hall other (mem_cons_of_mem _ hother)]

theorem fieldDefects_stripFields {type : τ}
    (hall : ∀ entry ∈ entries, ∀ fieldType, defects typing fieldType
      (strip typing fieldType entry.2) = (defects typing fieldType entry.2).filter
      (·.kind ≠ .extraForbidden)) : fieldDefects typing type (stripFields typing type entries) =
      (fieldDefects typing type entries).filter (·.kind ≠ .extraForbidden) := by
  induction entries with
  | nil => rfl
  | cons entry entries ih =>
    have hrest := ih fun other hother => hall other (mem_cons_of_mem _ hother)
    obtain ⟨name, field⟩ := entry
    rw [stripFields, fieldDefects, filter_append]
    cases hfield : typing.field type name with
    | none =>
      rw [hrest]
      rfl
    | some fieldType =>
      rw [fieldDefects, hfield, hrest]
      dsimp only
      rw [filter_under_kept, hall _ mem_cons_self]

theorem defects_strip (value : Json) (type : τ) :
    defects typing type (strip typing type value) =
      (defects typing type value).filter (·.kind ≠ .extraForbidden) := by
  induction value using Json.tree_induction generalizing type with
  | h value ih =>
    unfold strip
    cases hmembers : typing.members type with
    | some members =>
      unfold defects
      rw [hmembers]
      dsimp only
      split
      · rfl
      · rfl
    | none =>
      cases value
      case arr items =>
        simp only [defects, hmembers]
        exact itemDefects_stripItems (fun item hitem => ih item hitem _) 0
      case obj entries =>
        simp only [defects, hmembers]
        exact fieldDefects_stripFields fun entry hentry => ih entry.2 (mem_map_of_mem hentry)
      all_goals simp [defects, hmembers]

end

end Flowness.Projection
