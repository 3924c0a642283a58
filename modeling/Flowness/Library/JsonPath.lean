import Flowness.Library.Json

/-!
Updates of a JSON tree at the end of a path. A path that leads nowhere changes nothing.
-/

namespace Flowness.Library

open List

namespace Json

/-- The items of an array, or the values of an object. -/
def children : Json → List Json
  | .arr items => items
  | .obj entries => entries.map Prod.snd
  | _ => []

theorem sizeOf_children {value child : Json} (h : child ∈ value.children) :
    sizeOf child < sizeOf value := by
  cases value
  case arr items =>
    have hlt : sizeOf child < sizeOf items := sizeOf_lt_of_mem h
    simp only [Json.arr.sizeOf_spec]
    omega
  case obj entries =>
    obtain ⟨entry, hmem, rfl⟩ := mem_map.mp h
    have hlt := sizeOf_lt_of_mem hmem
    have hpair : sizeOf entry = 1 + sizeOf entry.1 + sizeOf entry.2 := by
      cases entry
      simp
    simp only [Json.obj.sizeOf_spec]
    omega
  all_goals contradiction

/-- What holds of a value when it holds of its children holds of every value. -/
@[elab_as_elim]
theorem tree_induction {P : Json → Prop} (h : ∀ value, (∀ child ∈ value.children, P child) → P value)
    (value : Json) : P value :=
  h value fun child _ => tree_induction h child
termination_by sizeOf value
decreasing_by exact sizeOf_children ‹_›

theorem proper_children {value child : Json} (h : value.proper = true) (hchild : child ∈ value.children) :
    child.proper = true := by
  cases value
  case arr items => exact properItems_iff.mp h child hchild
  case obj entries =>
    obtain ⟨entry, hmem, rfl⟩ := mem_map.mp hchild
    rw [proper, Bool.and_eq_true] at h
    exact properEntries_iff.mp h.2 entry hmem
  all_goals contradiction

end Json

namespace JsonPath

/-- One step of a path: into a field or into an item. -/
inductive Step
  | key (name : String)
  | index (i : Nat)
deriving DecidableEq

def modifyAt : List Step → (Json → Json) → Json → Json
  | [], f, root => f root
  | .key name :: path, f, .obj entries =>
    .obj (entries.map fun entry => if entry.1 = name then (entry.1, modifyAt path f entry.2) else entry)
  | .index i :: path, f, .arr items => .arr (items.modify i (modifyAt path f))
  | _ :: _, _, root => root

/-- Updates one after another. -/
def run (updates : List (List Step × (Json → Json))) (root : Json) : Json :=
  updates.foldl (fun root update => modifyAt update.1 update.2 root) root

/-- The same updates one step further down. -/
def under (step : Step) (updates : List (List Step × (Json → Json))) :
    List (List Step × (Json → Json)) :=
  updates.map fun update => (step :: update.1, update.2)

variable {updates more : List (List Step × (Json → Json))}

theorem run_append (root : Json) : run (updates ++ more) root = run more (run updates root) := by
  simp [run]

theorem run_under_key (name : String) (entries : List (String × Json)) :
    run (under (.key name) updates) (.obj entries) =
      .obj (entries.map fun entry =>
        if entry.1 = name then (entry.1, run updates entry.2) else entry) := by
  induction updates generalizing entries with
  | nil => simp [run, under]
  | cons update updates ih =>
    simp only [under, run, map_cons, foldl_cons, modifyAt] at ih ⊢
    rw [ih, map_map]
    congr 1
    apply map_congr_left
    intro entry _
    by_cases heq : entry.1 = name
    · simp [heq]
    · simp [heq]

theorem run_under_index (i : Nat) (items : List Json) :
    run (under (.index i) updates) (.arr items) = .arr (items.modify i (run updates)) := by
  induction updates generalizing items with
  | nil =>
    have hid : run [] = id := rfl
    simp [run, under, hid]
  | cons update updates ih =>
    simp only [under, run, map_cons, foldl_cons, modifyAt] at ih ⊢
    rw [ih, modify_modify_eq]
    rfl

theorem run_field (hfront : name ∉ front.map Prod.fst) (hrest : name ∉ rest.map Prod.fst) :
    run (under (.key name) updates) (.obj (front ++ (name, value) :: rest)) =
      .obj (front ++ (name, run updates value) :: rest) := by
  have hother : ∀ entries : List (String × Json), name ∉ entries.map Prod.fst →
      entries.map (fun entry => if entry.1 = name then (entry.1, run updates entry.2) else entry) =
        entries := by
    intro entries hentries
    refine (map_congr_left fun entry hentry => ?_).trans (map_id entries)
    rw [if_neg, id]
    intro heq
    exact hentries (mem_map.mpr ⟨entry, hentry, heq⟩)
  rw [run_under_key, map_append, map_cons, hother front hfront, hother rest hrest]
  simp

theorem run_fields (hnodup : (entries.map Prod.fst).Nodup)
    (updates : String × Json → List (List Step × (Json → Json)))
    (result : String × Json → List (String × Json))
    (hkeys : ∀ entry, ∀ out ∈ result entry, out.1 = entry.1)
    (hfield : ∀ entry ∈ entries, ∀ front rest, entry.1 ∉ front.map Prod.fst →
      entry.1 ∉ rest.map Prod.fst → run (updates entry) (.obj (front ++ entry :: rest)) =
      .obj (front ++ (result entry ++ rest))) :
    run (entries.flatMap updates) (.obj entries) = .obj (entries.flatMap result) := by
  have hgo : ∀ front, (∀ entry ∈ entries, entry.1 ∉ front.map Prod.fst) →
      run (entries.flatMap updates) (.obj (front ++ entries)) =
        .obj (front ++ entries.flatMap result) := by
    induction entries with
    | nil => intro front _; rfl
    | cons entry entries ih =>
      intro front hfront
      rw [map_cons, nodup_cons] at hnodup
      rw [flatMap_cons, flatMap_cons, run_append,
        hfield entry mem_cons_self front entries (hfront entry mem_cons_self) hnodup.1,
        ← append_assoc,
        ih hnodup.2 (fun other hother => hfield other (mem_cons_of_mem _ hother)),
        append_assoc]
      intro other hother hmem
      rw [map_append, mem_append] at hmem
      rcases hmem with hmem | hmem
      · exact hfront other (mem_cons_of_mem _ hother) hmem
      · obtain ⟨out, hout, heq⟩ := mem_map.mp hmem
        apply hnodup.1
        rw [← hkeys entry out hout, heq]
        exact mem_map_of_mem hother
  simpa using hgo [] (by simp)

/-- The updates of each item, from item `i` on. -/
def itemUpdates (updates : Json → List (List Step × (Json → Json))) :
    Nat → List Json → List (List Step × (Json → Json))
  | _, [] => []
  | i, item :: items => under (.index i) (updates item) ++ itemUpdates updates (i + 1) items

theorem run_itemUpdates (updates : Json → List (List Step × (Json → Json))) (items : List Json)
    (front : List Json) :
    run (itemUpdates updates front.length items) (.arr (front ++ items)) =
      .arr (front ++ items.map fun item => run (updates item) item) := by
  induction items generalizing front with
  | nil => simp [itemUpdates, run]
  | cons item items ih =>
    have hitem : (front ++ item :: items).modify front.length (run (updates item)) =
        front ++ run (updates item) item :: items := by
      clear ih
      induction front with
      | nil => rfl
      | cons other front ih => exact congrArg (other :: ·) ih
    have hnext := ih (front ++ [run (updates item) item])
    rw [length_append, length_singleton, append_assoc, append_assoc,
      singleton_append, singleton_append] at hnext
    rw [itemUpdates, run_append, run_under_index, hitem, hnext, map_cons]

end JsonPath

end Flowness.Library
