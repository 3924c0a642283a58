import Flowness.Library.JsonParser
import Flowness.Library.PyJson

/-!
A text for every JSON tree that no other tree has, whatever its literals and keys are.
-/

namespace Flowness.Library

open List

namespace Json

mutual

/-- The tree with floats and objects spelled as arrays. -/
def retag : Json → Json
  | .null => .null
  | .bool flag => .bool flag
  | .int number => .int number
  | .str text => .str text
  | .float literal => .arr [.null, .str literal]
  | .arr items => .arr (.bool true :: retagItems items)
  | .obj entries => .arr (.bool false :: retagEntries entries)

def retagItems : List Json → List Json
  | [] => []
  | item :: items => item.retag :: retagItems items

def retagEntries : List (String × Json) → List Json
  | [] => []
  | (key, item) :: entries => .str key :: item.retag :: retagEntries entries

end

def code (tree : Json) : String := String.ofList tree.retag.render

theorem proper_retag (tree : Json) : tree.retag.proper = true := by
  induction tree using Json.induct with
  | harr items ih =>
    simp only [retag, proper, properItems]
    induction items with
    | nil => rfl
    | cons item items ihItems =>
      simp only [retagItems, properItems, ih item mem_cons_self]
      exact ihItems fun other hmem => ih other (mem_cons_of_mem _ hmem)
  | hobj entries ih =>
    simp only [retag, proper, properItems]
    induction entries with
    | nil => rfl
    | cons entry entries ihEntries =>
      simp only [retagEntries, properItems, proper, ih entry mem_cons_self]
      exact ihEntries fun other hmem => ih other (mem_cons_of_mem _ hmem)
  | _ => rfl

theorem retag_injective : Function.Injective retag := by
  intro tree
  induction tree using Json.induct with
  | harr items ih =>
    intro other h
    cases other with
    | arr others =>
      simp only [retag, Json.arr.injEq, List.cons.injEq, true_and] at h
      congr 1
      induction items generalizing others with
      | nil =>
        cases others with
        | nil => rfl
        | cons other others => cases h
      | cons item items ihItems =>
        cases others with
        | nil => cases h
        | cons other others =>
          obtain ⟨hhead, htail⟩ := List.cons.inj h
          rw [ih item mem_cons_self hhead,
            ihItems (fun other hmem => ih other (mem_cons_of_mem _ hmem)) others htail]
    | _ => simp [retag] at h
  | hobj entries ih =>
    intro other h
    cases other with
    | obj others =>
      simp only [retag, Json.arr.injEq, List.cons.injEq, true_and] at h
      congr 1
      induction entries generalizing others with
      | nil =>
        cases others with
        | nil => rfl
        | cons other others => cases h
      | cons entry entries ihEntries =>
        cases others with
        | nil => cases h
        | cons other others =>
          obtain ⟨hkey, hrest⟩ := List.cons.inj h
          obtain ⟨hitem, htail⟩ := List.cons.inj hrest
          rw [Prod.ext (Json.str.inj hkey) (ih entry mem_cons_self hitem),
            ihEntries (fun other hmem => ih other (mem_cons_of_mem _ hmem)) others htail]
    | _ => simp [retag] at h
  | _ =>
    intro other h
    cases other <;> simp_all [retag]

theorem code_injective : Function.Injective code := by
  intro a b h
  have htext : a.retag.render = b.retag.render := String.ofList_injective h
  have hparsed := parse_render (proper_retag a)
  rw [htext, parse_render (proper_retag b)] at hparsed
  exact retag_injective (Option.some.inj hparsed).symm

end Json

end Flowness.Library
