import Flowness.Library.PyValue

/-!
`json.dumps(…, sort_keys=True)` and `json.loads`, up to the syntax tree of the text: the order of
the members and the spelling of the numbers belong to the tree. Keys are sorted before they become
strings, and come back as strings.
-/

namespace Flowness.Library

open List Bool Json

section

variable (value : String → ℚ)

namespace PyValue

mutual

/-- `json.dumps(v, sort_keys=True)`, or none when two keys cannot be compared. -/
def dumps : PyValue → Option Json
  | .none => some .null
  | .bool flag => some (.bool flag)
  | .int number => some (.int number)
  | .float number => some (.float number.text)
  | .str text => some (.str text)
  | .list items => (dumpsItems items).map .arr
  | .tuple items => (dumpsItems items).map .arr
  | .dict entries =>
    ((dumpsEntries entries).bind (sortItems value)).map fun sorted =>
      .obj (sorted.map fun entry => (entry.1.text, entry.2))

def dumpsItems : List PyValue → Option (List Json)
  | [] => some []
  | item :: items =>
    match dumps item, dumpsItems items with
    | some head, some tail => some (head :: tail)
    | _, _ => Option.none

def dumpsEntries : List (PyKey × PyValue) → Option (List (PyKey × Json))
  | [] => some []
  | (key, item) :: entries =>
    match dumps item, dumpsEntries entries with
    | some head, some tail => some ((key, head) :: tail)
    | _, _ => Option.none

end

mutual

/-- In every mapping the keys that Python sorts are strictly ascending as texts. -/
def textOrdered : PyValue → Bool
  | .list items => textOrderedItems items
  | .tuple items => textOrderedItems items
  | .dict entries =>
    ((sortItems value (entries.map fun entry => (entry.1, ()))).any fun sorted =>
      decide ((sorted.map fun entry => entry.1.text).Pairwise (· < ·))) && textOrderedEntries entries
  | _ => true

def textOrderedItems : List PyValue → Bool
  | [] => true
  | item :: items => item.textOrdered && textOrderedItems items

def textOrderedEntries : List (PyKey × PyValue) → Bool
  | [] => true
  | (_, item) :: entries => item.textOrdered && textOrderedEntries entries

end

end PyValue

/-- The float that a literal or a constant of the text is read as. -/
def readFloat (text : String) : PyFloat :=
  if text = "NaN" then .nan
  else if text = "Infinity" then .infinity
  else if text = "-Infinity" then .negInfinity
  else .finite text

theorem text_readFloat (text : String) : (readFloat text).text = text := by
  unfold readFloat
  split
  next h =>
    rw [h]
    rfl
  split
  next h =>
    rw [h]
    rfl
  split
  next h =>
    rw [h]
    rfl
  · rfl

namespace Json

mutual

/-- `json.loads`; a repeated member keeps its first place and its last value. -/
def loads : Json → PyValue
  | .null => .none
  | .bool flag => .bool flag
  | .int number => .int number
  | .float text => .float (readFloat text)
  | .str text => .str text
  | .arr items => .list (loadsItems items)
  | .obj entries =>
    .dict ((loadsEntries entries).foldl (fun members entry => Dict.set members entry.1 entry.2) [])

def loadsItems : List Json → List PyValue
  | [] => []
  | item :: items => item.loads :: loadsItems items

def loadsEntries : List (String × Json) → List (PyKey × PyValue)
  | [] => []
  | (key, item) :: entries => (.str key, item.loads) :: loadsEntries entries

end

mutual

/-- In every object the members are strictly ascending. -/
def ascends : Json → Bool
  | .arr items => ascendsItems items
  | .obj entries => decide ((Dict.keys entries).Pairwise (· < ·)) && ascendsEntries entries
  | _ => true

def ascendsItems : List Json → Bool
  | [] => true
  | item :: items => item.ascends && ascendsItems items

def ascendsEntries : List (String × Json) → Bool
  | [] => true
  | (_, item) :: entries => item.ascends && ascendsEntries entries

end

theorem induct {P : Json → Prop} (hnull : P .null) (hbool : ∀ flag, P (.bool flag))
    (hint : ∀ number, P (.int number)) (hfloat : ∀ text, P (.float text))
    (hstr : ∀ text, P (.str text)) (harr : ∀ items, (∀ item ∈ items, P item) → P (.arr items))
    (hobj : ∀ entries, (∀ entry ∈ entries, P entry.2) → P (.obj entries)) (tree : Json) : P tree :=
  @Json.rec P (fun items => ∀ item ∈ items, P item) (fun entries => ∀ entry ∈ entries, P entry.2)
    (fun entry => P entry.2) hnull hbool hint hfloat hstr harr hobj
    (fun _ hmem => absurd hmem not_mem_nil)
    (fun _ _ hhead htail => forall_mem_cons.mpr ⟨hhead, htail⟩)
    (fun _ hmem => absurd hmem not_mem_nil)
    (fun _ _ hhead htail => forall_mem_cons.mpr ⟨hhead, htail⟩) (fun _ _ h => h) tree

theorem loadsItems_eq (items : List Json) : loadsItems items = items.map loads := by
  induction items with
  | nil => rfl
  | cons item items ih => rw [loadsItems, ih, map_cons]

theorem loadsEntries_eq (entries : List (String × Json)) :
    loadsEntries entries = entries.map fun entry => (.str entry.1, entry.2.loads) := by
  induction entries with
  | nil => rfl
  | cons entry entries ih => rw [loadsEntries, ih, map_cons]

theorem ascendsItems_iff {items : List Json} :
    ascendsItems items = true ↔ ∀ item ∈ items, item.ascends = true := by
  induction items with
  | nil => simp [ascendsItems]
  | cons item items ih => simp [ascendsItems, ih]

theorem ascendsEntries_iff {entries : List (String × Json)} :
    ascendsEntries entries = true ↔ ∀ entry ∈ entries, entry.2.ascends = true := by
  induction entries with
  | nil => simp [ascendsEntries]
  | cons entry entries ih => simp [ascendsEntries, ih]

end Json

variable {tree : Json} {members : List (PyKey × Json)} {entries : List (PyKey × PyValue)}
  {items : List PyValue} {a b : PyKey} {v w : PyValue}

namespace PyValue

theorem dumpsItems_iff : dumpsItems value items = some trees ↔
      List.Forall₂ (fun item tree => item.dumps value = some tree) items trees := by
  induction items generalizing trees with
  | nil =>
    constructor
    · intro h
      cases h
      exact .nil
    · intro h
      cases h
      rfl
  | cons item items ih =>
    rw [forall₂_cons_left_iff]
    constructor
    · intro h
      rw [dumpsItems] at h
      split at h
      next head tail hhead htail =>
        cases h
        exact ⟨head, tail, hhead, ih.mp htail, rfl⟩
      · cases h
    · rintro ⟨head, tail, hhead, htail, rfl⟩
      rw [dumpsItems, hhead, ih.mpr htail]

theorem dumpsEntries_iff :
    dumpsEntries value entries = some members ↔
      List.Forall₂ (fun entry member => entry.1 = member.1 ∧ entry.2.dumps value = some member.2)
        entries members := by
  induction entries generalizing members with
  | nil =>
    constructor
    · intro h
      cases h
      exact .nil
    · intro h
      cases h
      rfl
  | cons entry entries ih =>
    obtain ⟨key, item⟩ := entry
    rw [forall₂_cons_left_iff]
    constructor
    · intro h
      rw [dumpsEntries] at h
      split at h
      next head tail hhead htail =>
        cases h
        exact ⟨(key, head), tail, ⟨rfl, hhead⟩, ih.mp htail, rfl⟩
      · cases h
    · rintro ⟨⟨_, head⟩, tail, ⟨rfl, hhead⟩, htail, rfl⟩
      rw [dumpsEntries, hhead, ih.mpr htail]

theorem textOrderedItems_iff :
    textOrderedItems value items = true ↔ ∀ item ∈ items, item.textOrdered value = true := by
  induction items with
  | nil => simp [textOrderedItems]
  | cons item items ih => simp [textOrderedItems, ih]

theorem textOrderedEntries_iff :
    textOrderedEntries value entries = true ↔ ∀ entry ∈ entries, entry.2.textOrdered value = true := by
  induction entries with
  | nil => simp [textOrderedEntries]
  | cons entry entries ih => simp [textOrderedEntries, ih]

theorem wellFormedItems_iff :
    wellFormedItems value items = true ↔ ∀ item ∈ items, item.wellFormed value = true := by
  induction items with
  | nil => simp [wellFormedItems]
  | cons item items ih => simp [wellFormedItems, ih]

theorem wellFormedEntries_iff :
    wellFormedEntries value entries = true ↔ ∀ entry ∈ entries, entry.2.wellFormed value = true := by
  induction entries with
  | nil => simp [wellFormedEntries]
  | cons entry entries ih => simp [wellFormedEntries, ih]

theorem nativeItems_iff : nativeItems items = true ↔ ∀ item ∈ items, item.native = true := by
  induction items with
  | nil => simp [nativeItems]
  | cons item items ih => simp [nativeItems, ih]

theorem nativeEntries_iff :
    nativeEntries entries = true ↔ ∀ entry ∈ entries, entry.2.native = true := by
  induction entries with
  | nil => simp [nativeEntries]
  | cons entry entries ih => simp [nativeEntries, ih]

end PyValue

theorem sortItems_map {α β : Type} (f : α → β) (entries : List (PyKey × α)) :
    sortItems value (entries.map fun entry => (entry.1, f entry.2)) =
      (sortItems value entries).map fun sorted => sorted.map fun entry => (entry.1, f entry.2) := by
  unfold sortItems
  have hstr : ((entries.map fun entry => (entry.1, f entry.2)).all fun entry => entry.1.isStr) =
      entries.all fun entry => entry.1.isStr := by
    rw [all_map]
    rfl
  have hnumber : ((entries.map fun entry => (entry.1, f entry.2)).all
      fun entry => (entry.1.number? value).isSome) =
        entries.all fun entry => (entry.1.number? value).isSome := by
    rw [all_map]
    rfl
  rw [length_map, hstr, hnumber]
  split
  · rw [Option.map_some]
    congr 1
    exact (map_insertionSort (fun a b : PyKey × α => a.1.le value b.1 = true)
      (fun a b : PyKey × β => a.1.le value b.1 = true) _ entries (fun _ _ _ _ => Iff.rfl)).symm
  · rfl

theorem sortItems_perm {α : Type} {entries sorted : List (PyKey × α)}
    (h : sortItems value entries = some sorted) : sorted.Perm entries := by
  unfold sortItems at h
  split at h
  · cases h
    exact perm_insertionSort _ entries
  · cases h

theorem le_iff_of_isStr (ha : a.isStr = true) (hb : b.isStr = true) :
    a.le value b = true ↔ a.text ≤ b.text := by
  cases a <;> cases ha
  cases b <;> cases hb
  simp [PyKey.le, PyKey.text]

theorem isStr_text_inj (ha : a.isStr = true) (hb : b.isStr = true) (htext : a.text = b.text) :
    a = b := by
  cases a <;> cases ha
  cases b <;> cases hb
  exact congrArg PyKey.str htext

section

variable {α : Type} {entries : List (PyKey × α)} (hstr : ∀ entry ∈ entries, entry.1.isStr = true)
include hstr

theorem sortItems_str : ∃ sorted, sortItems value entries = some sorted ∧
      sorted.Pairwise fun a b => a.1.text ≤ b.1.text := by
  have hall : (entries.all fun entry => entry.1.isStr) = true := all_eq_true.mpr hstr
  have hsame : entries.insertionSort (fun a b => a.1.le value b.1 = true) =
      entries.insertionSort (fun a b => a.1.text ≤ b.1.text) := by
    have hmap := map_insertionSort (fun a b : PyKey × α => a.1.le value b.1 = true)
      (fun a b => a.1.text ≤ b.1.text) id entries
      (fun a ha b hb => le_iff_of_isStr value (hstr a ha) (hstr b hb))
    simpa using hmap
  refine ⟨_, if_pos (.inr (.inl hall)), ?_⟩
  rw [hsame]
  exact pairwise_insertionSort _ entries

theorem sortItems_sorted (hsorted : entries.Pairwise fun a b => a.1.text ≤ b.1.text) :
    sortItems value entries = some entries := by
  have hall : (entries.all fun entry => entry.1.isStr) = true := all_eq_true.mpr hstr
  have hle : entries.Pairwise fun a b => a.1.le value b.1 = true :=
    hsorted.imp_of_mem fun ha hb hab => (le_iff_of_isStr value (hstr _ ha) (hstr _ hb)).mpr hab
  rw [sortItems, if_pos (.inr (.inl hall)), hle.insertionSort_eq]

end

theorem pairwise_lt_of_le {α : Type} {items : List α} {text : α → String}
    (hle : items.Pairwise fun a b => text a ≤ text b) (hnodup : (items.map text).Nodup) :
    (items.map text).Pairwise (· < ·) := by
  rw [pairwise_map]
  have hne : items.Pairwise fun a b => text a ≠ text b := pairwise_map.mp hnodup
  exact hle.imp₂ (fun _ _ hab hne => lt_of_le_of_ne hab hne) hne

theorem forall₂_forall_iff {α β : Type} {R : α → β → Prop} {P : α → Prop} {Q : β → Prop}
    {left : List α} {right : List β} (h : List.Forall₂ R left right)
    (hiff : ∀ a ∈ left, ∀ b, R a b → (P a ↔ Q b)) : (∀ a ∈ left, P a) ↔ ∀ b ∈ right, Q b := by
  induction h with
  | nil => simp
  | @cons a b left right hab _ ih =>
    rw [forall_mem_cons, forall_mem_cons, hiff a mem_cons_self b hab,
      ih (fun a ha => hiff a (mem_cons_of_mem _ ha))]

/-- What `dumps` makes of a mapping. -/
theorem dumps_dict (h : (PyValue.dict entries).dumps value = some tree) :
    ∃ members sorted, List.Forall₂ (fun entry member => entry.1 = member.1 ∧
        entry.2.dumps value = some member.2) entries members ∧
      sortItems value members = some sorted ∧
      tree = .obj (sorted.map fun entry => (entry.1.text, entry.2)) := by
  obtain ⟨sorted, hsorted, rfl⟩ := Option.map_eq_some_iff.mp h
  obtain ⟨members, hmembers, hsorted⟩ := Option.bind_eq_some_iff.mp hsorted
  exact ⟨members, sorted, (PyValue.dumpsEntries_iff value).mp hmembers, hsorted, rfl⟩

theorem forall₂_map_eq {α β γ : Type} {R : α → β → Prop} {f : α → γ} {g : β → γ} {left : List α}
    {right : List β} (h : List.Forall₂ R left right) (heq : ∀ a b, R a b → f a = g b) :
    left.map f = right.map g := by
  induction h with
  | nil => rfl
  | cons hab _ ih => rw [map_cons, map_cons, heq _ _ hab, ih]

/-- The members of the text ascend where the sorted keys ascend as texts. -/
theorem ascends_iff_textOrdered (v : PyValue) (h : v.dumps value = some tree) :
    tree.ascends = true ↔ v.textOrdered value = true := by
  induction v using PyValue.induct generalizing tree with
  | hlist items ih | htuple items ih =>
    obtain ⟨trees, htrees, rfl⟩ := Option.map_eq_some_iff.mp h
    rw [Json.ascends, PyValue.textOrdered, ascendsItems_iff, PyValue.textOrderedItems_iff]
    have htrees := (PyValue.dumpsItems_iff value).mp htrees
    exact (forall₂_forall_iff htrees fun item hmem tree htree => (ih item hmem htree).symm).symm
  | hdict entries ih =>
    obtain ⟨members, sorted, hmembers, hsorted, rfl⟩ := dumps_dict value h
    have hkeys : sortItems value (entries.map fun entry => (entry.1, ())) =
        some (sorted.map fun entry => (entry.1, ())) := by
      have hunits : entries.map (fun entry => (entry.1, ())) =
          members.map fun member => (member.1, ()) :=
        forall₂_map_eq hmembers fun _ _ hboth => by rw [hboth.1]
      rw [hunits, sortItems_map value (fun _ => ()), hsorted]
      rfl
    have hvalues : (∀ entry ∈ entries, entry.2.textOrdered value = true) ↔
        ∀ member ∈ sorted, member.2.ascends = true := by
      rw [forall₂_forall_iff hmembers fun entry hmem member hboth => (ih entry hmem hboth.2).symm]
      exact ⟨fun h m hm => h m ((sortItems_perm value hsorted).mem_iff.mp hm),
        fun h m hm => h m ((sortItems_perm value hsorted).mem_iff.mpr hm)⟩
    rw [Json.ascends, PyValue.textOrdered, hkeys]
    simp only [and_eq_true, decide_eq_true_eq, Option.any_some, ascendsEntries_iff,
      PyValue.textOrderedEntries_iff, hvalues, Dict.keys, map_map, forall_mem_map]
    rfl
  | _ =>
    cases h
    rfl

section

variable {κ ν : Type} [DecidableEq κ] (front entries : List (κ × ν))

theorem foldl_set_of_nodup (hnodup : (Dict.keys (front ++ entries)).Nodup) :
    entries.foldl (fun members entry => Dict.set members entry.1 entry.2) front = front ++ entries := by
  induction entries generalizing front with
  | nil => rw [foldl_nil, append_nil]
  | cons entry entries ih =>
    obtain ⟨key, item⟩ := entry
    have hsplit : front ++ (key, item) :: entries = front ++ [(key, item)] ++ entries := by simp
    have hfresh : key ∉ Dict.keys front := by
      intro hmem
      rw [Dict.keys, map_append] at hnodup
      obtain ⟨-, -, hdisjoint⟩ := nodup_append.mp hnodup
      exact hdisjoint key hmem key mem_cons_self rfl
    rw [foldl_cons, Dict.set_of_not_mem hfresh, hsplit]
    exact ih _ (hsplit ▸ hnodup)

theorem foldl_set_keys (hfront : (Dict.keys front).Nodup) :
    (Dict.keys (entries.foldl (fun members entry => Dict.set members entry.1 entry.2) front)).Nodup ∧
      ∀ member ∈ entries.foldl (fun members entry => Dict.set members entry.1 entry.2) front,
        member ∈ front ∨ member ∈ entries := by
  induction entries generalizing front with
  | nil => exact ⟨hfront, fun member hmem => .inl hmem⟩
  | cons entry entries ih =>
    obtain ⟨hnodup, hmem⟩ := ih _ (Dict.nodup_keys_set hfront entry.1 entry.2)
    refine ⟨hnodup, fun member hmember => ?_⟩
    obtain hset | hlater := hmem member hmember
    · obtain ⟨hkey, hitem⟩ | ⟨-, hold⟩ := (Dict.mem_set hfront).mp hset
      · exact .inr (Prod.ext hkey hitem ▸ mem_cons_self)
      · exact .inl hold
    · exact .inr (mem_cons_of_mem _ hlater)

end

theorem loadsEntries_keys_nodup {entries : List (String × Json)} (h : (Dict.keys entries).Nodup) :
    (Dict.keys (Json.loadsEntries entries)).Nodup := by
  have hkeys : Dict.keys (Json.loadsEntries entries) = (Dict.keys entries).map .str := by
    rw [loadsEntries_eq, Dict.keys, Dict.keys, map_map, map_map]
    rfl
  rw [hkeys]
  exact h.map fun a b hab => PyKey.str.inj hab

theorem dumps_loads (h : tree.ascends = true) : tree.loads.dumps value = some tree := by
  induction tree using Json.induct with
  | harr items ih =>
    rw [Json.ascends, ascendsItems_iff] at h
    have hitems : PyValue.dumpsItems value (Json.loadsItems items) = some items := by
      rw [PyValue.dumpsItems_iff, loadsItems_eq, forall₂_map_left_iff, forall₂_same]
      exact fun item hmem => ih item hmem (h item hmem)
    rw [Json.loads, PyValue.dumps, hitems]
    rfl
  | hobj entries ih =>
    simp only [Json.ascends, and_eq_true, decide_eq_true_eq, ascendsEntries_iff] at h
    obtain ⟨hkeys, hvalues⟩ := h
    have hpairs : (Json.loadsEntries entries).foldl
        (fun members entry => Dict.set members entry.1 entry.2) [] = Json.loadsEntries entries :=
      foldl_set_of_nodup [] _ (loadsEntries_keys_nodup (hkeys.imp ne_of_lt))
    have hmembers : PyValue.dumpsEntries value (Json.loadsEntries entries) =
        some (entries.map fun entry => (.str entry.1, entry.2)) := by
      rw [PyValue.dumpsEntries_iff, loadsEntries_eq, forall₂_map_left_iff,
        forall₂_map_right_iff, forall₂_same]
      exact fun entry hmem => ⟨rfl, ih entry hmem (hvalues entry hmem)⟩
    have hsorted : sortItems value (entries.map fun entry => (PyKey.str entry.1, entry.2)) =
        some (entries.map fun entry => (.str entry.1, entry.2)) := by
      refine sortItems_sorted value (fun entry hmem => ?_) ?_
      · obtain ⟨entry, -, rfl⟩ := mem_map.mp hmem
        rfl
      · rw [pairwise_map]
        exact (pairwise_map.mp hkeys).imp le_of_lt
    rw [Json.loads, PyValue.dumps, hpairs, hmembers, Option.bind_some, hsorted, Option.map_some,
      map_map]
    congr 2
    exact map_id entries
  | hfloat text => rw [Json.loads, PyValue.dumps, text_readFloat]
  | _ => rfl

theorem ascends_of_dumps_loads {written : Json} (h : tree.loads.dumps value = some written) :
    written.ascends = true := by
  induction tree using Json.induct generalizing written with
  | harr items ih =>
    obtain ⟨trees, htrees, rfl⟩ := Option.map_eq_some_iff.mp h
    rw [PyValue.dumpsItems_iff, loadsItems_eq, forall₂_map_left_iff] at htrees
    rw [Json.ascends, ascendsItems_iff]
    refine (forall₂_forall_iff (P := fun _ => True) htrees fun item hmem other hother => ?_).mp
      (fun _ _ => trivial)
    exact iff_of_true trivial (ih item hmem hother)
  | hobj entries ih =>
    obtain ⟨members, sorted, hmembers, hsorted, rfl⟩ := dumps_dict value h
    obtain ⟨hnodup, hfrom⟩ := foldl_set_keys [] (Json.loadsEntries entries) nodup_nil
    have horigin : ∀ entry ∈ (Json.loadsEntries entries).foldl
        (fun members entry => Dict.set members entry.1 entry.2) [],
        ∃ source ∈ entries, entry = (.str source.1, source.2.loads) := by
      intro entry hmem
      obtain hmem | hmem := hfrom entry hmem
      · exact absurd hmem not_mem_nil
      · rw [loadsEntries_eq] at hmem
        obtain ⟨source, hsource, rfl⟩ := mem_map.mp hmem
        exact ⟨source, hsource, rfl⟩
    have hmembersOf : ∀ member ∈ members, member.1.isStr = true ∧ member.2.ascends = true := by
      refine (forall₂_forall_iff (P := fun _ => True) hmembers fun entry hmem member hboth => ?_).mp
        (fun _ _ => trivial)
      obtain ⟨source, hsource, rfl⟩ := horigin entry hmem
      exact iff_of_true trivial ⟨hboth.1 ▸ rfl, ih source hsource hboth.2⟩
    have hperm := sortItems_perm value hsorted
    obtain ⟨found, hfound, hle⟩ := sortItems_str value fun member hmem => (hmembersOf member hmem).1
    rw [hsorted] at hfound
    cases hfound
    have htexts : (sorted.map fun entry => entry.1.text).Nodup := by
      have hkeys : (sorted.map Prod.fst).Nodup := by
        rw [(hperm.map Prod.fst).nodup_iff, ← forall₂_map_eq hmembers fun _ _ hboth => hboth.1]
        exact hnodup
      rw [nodup_iff_pairwise_ne, pairwise_map] at hkeys ⊢
      refine hkeys.imp_of_mem fun {a b} ha hb hne htext => hne ?_
      have hastr := (hmembersOf a (hperm.mem_iff.mp ha)).1
      have hbstr := (hmembersOf b (hperm.mem_iff.mp hb)).1
      exact isStr_text_inj hastr hbstr htext
    have hlt := pairwise_lt_of_le hle htexts
    simp only [Json.ascends, and_eq_true, decide_eq_true_eq, ascendsEntries_iff, Dict.keys,
      map_map, forall_mem_map]
    exact ⟨hlt, fun member hmem => (hmembersOf member (hperm.mem_iff.mp hmem)).2⟩
  | _ =>
    cases h
    rfl

/-- Reading and writing again gives the same text exactly when the sorted keys of every mapping
ascend as texts. -/
theorem dumps_loads_iff (h : v.dumps value = some tree) :
    tree.loads.dumps value = some tree ↔ v.textOrdered value = true := by
  rw [← ascends_iff_textOrdered value v h]
  exact ⟨ascends_of_dumps_loads value, dumps_loads value⟩

theorem eqItems_iff : PyValue.eqItems value items others = true ↔
      List.Forall₂ (fun item other => item.eq value other = true) items others := by
  induction items generalizing others with
  | nil => cases others <;> simp [PyValue.eqItems]
  | cons item items ih => cases others <;> simp [PyValue.eqItems, ih]

theorem eqEntries_iff : PyValue.eqEntries value entries others = true ↔
      ∀ entry ∈ entries, ∃ other, others.find? (fun other => entry.1.eq value other.1) = some other ∧
        entry.2.eq value other.2 = true := by
  induction entries with
  | nil => simp [PyValue.eqEntries]
  | cons entry entries ih => simp [PyValue.eqEntries, ih, Option.any_eq_true]

theorem eq_list (h : (PyValue.list items).eq value w = true) :
    ∃ others, w = .list others ∧
      List.Forall₂ (fun item other => item.eq value other = true) items others := by
  cases w with
  | list others => exact ⟨others, rfl, (eqItems_iff value).mp h⟩
  | _ =>
    have hfalse : false = true := h
    cases hfalse

theorem eq_tuple (h : (PyValue.tuple items).eq value w = true) :
    ∃ others, w = .tuple others ∧
      List.Forall₂ (fun item other => item.eq value other = true) items others := by
  cases w with
  | tuple others => exact ⟨others, rfl, (eqItems_iff value).mp h⟩
  | _ =>
    have hfalse : false = true := h
    cases hfalse

theorem eq_dict (h : (PyValue.dict entries).eq value w = true) :
    ∃ others, w = .dict others ∧ entries.length = others.length ∧
      ∀ entry ∈ entries, ∃ other, others.find? (fun other => entry.1.eq value other.1) = some other ∧
        entry.2.eq value other.2 = true := by
  cases w with
  | dict others =>
    rw [PyValue.eq, and_eq_true, beq_iff_eq, eqEntries_iff] at h
    exact ⟨others, rfl, h⟩
  | _ =>
    have hfalse : false = true := h
    cases hfalse

theorem truthy_of_number (h : v.number? value = some number) :
    v.truthy value = decide (number ≠ .finite 0) := by
  cases v with
  | bool flag =>
    cases h
    cases flag <;> simp [PyValue.truthy]
  | int count =>
    cases h
    simp [PyValue.truthy]
  | float float =>
    cases h
    rfl
  | _ => cases h

theorem truthy_of_eq (h : v.eq value w = true) : v.truthy value = w.truthy value := by
  have hnumbers : ∀ {a : PyNumber}, v.number? value = some a →
      (w.number? value).any a.eq = true → v.truthy value = w.truthy value := by
    intro a ha hany
    obtain ⟨b, hb, hab⟩ := (Option.any_eq_true _ _).mp hany
    have hsame : a = b := by
      cases a <;> cases b <;> simp_all [PyNumber.eq]
    rw [truthy_of_number value ha, truthy_of_number value hb, hsame]
  cases v with
  | list items =>
    obtain ⟨others, rfl, hothers⟩ := eq_list value h
    cases hothers <;> rfl
  | tuple items =>
    obtain ⟨others, rfl, hothers⟩ := eq_tuple value h
    cases hothers <;> rfl
  | dict entries =>
    obtain ⟨others, rfl, hlength, -⟩ := eq_dict value h
    cases entries <;> cases others <;> first | rfl | cases hlength
  | bool flag => exact hnumbers rfl h
  | int number => exact hnumbers rfl h
  | float number => exact hnumbers rfl h
  | none =>
    cases w with
    | none => rfl
    | _ => cases h
  | str text =>
    cases w with
    | str other =>
      have htext : text = other := eq_of_beq h
      rw [htext]
    | _ => cases h

theorem eq_of_isStr (ha : a.isStr = true) (hb : b.isStr = true) :
    a.eq value b = decide (a.text = b.text) := by
  cases a <;> cases ha
  cases b <;> cases hb
  rfl

theorem texts_nodup {α : Type} {entries : List (PyKey × α)}
    (hstr : ∀ entry ∈ entries, entry.1.isStr = true)
    (hdistinct : entries.Pairwise fun a b => a.1.eq value b.1 = false) :
    (entries.map fun entry => entry.1.text).Nodup := by
  rw [nodup_iff_pairwise_ne, pairwise_map]
  refine hdistinct.imp_of_mem fun ha hb hne => ?_
  rw [eq_of_isStr value (hstr _ ha) (hstr _ hb)] at hne
  exact of_decide_eq_false hne

theorem native_textOrdered (hnative : v.native = true) (hformed : v.wellFormed value = true) :
    v.textOrdered value = true := by
  induction v using PyValue.induct with
  | hlist items ih =>
    rw [PyValue.native, PyValue.nativeItems_iff] at hnative
    rw [PyValue.wellFormed, PyValue.wellFormedItems_iff] at hformed
    rw [PyValue.textOrdered, PyValue.textOrderedItems_iff]
    exact fun item hmem => ih item hmem (hnative item hmem) (hformed item hmem)
  | htuple items ih => cases hnative
  | hdict entries ih =>
    simp only [PyValue.native, and_eq_true, all_eq_true, PyValue.nativeEntries_iff] at hnative
    simp only [PyValue.wellFormed, and_eq_true, decide_eq_true_eq,
      PyValue.wellFormedEntries_iff] at hformed
    obtain ⟨hstr, hnative⟩ := hnative
    obtain ⟨hdistinct, hformed⟩ := hformed
    have hunits : ∀ entry ∈ entries.map (fun entry => (entry.1, ())), entry.1.isStr = true := by
      intro entry hmem
      obtain ⟨source, hsource, rfl⟩ := mem_map.mp hmem
      exact hstr source hsource
    obtain ⟨sorted, hsorted, hle⟩ := sortItems_str value hunits
    have htexts : (sorted.map fun entry => entry.1.text).Nodup := by
      rw [((sortItems_perm value hsorted).map fun entry => entry.1.text).nodup_iff, map_map]
      exact texts_nodup value hstr hdistinct
    simp only [PyValue.textOrdered, hsorted, Option.any_some, and_eq_true, decide_eq_true_eq,
      PyValue.textOrderedEntries_iff]
    exact ⟨pairwise_lt_of_le hle htexts, fun entry hmem => ih entry hmem (hnative entry hmem)
      (hformed entry hmem)⟩
  | _ => rfl

theorem loads_keys {entries : List (String × Json)}
    (h : entry ∈ (Json.loadsEntries entries).foldl
      (fun members entry => Dict.set members entry.1 entry.2) []) : entry.1.isStr = true := by
  obtain hmem | hmem := (foldl_set_keys [] _ nodup_nil).2 entry h
  · exact absurd hmem not_mem_nil
  · rw [loadsEntries_eq] at hmem
    obtain ⟨source, -, rfl⟩ := mem_map.mp hmem
    rfl

/-- A mapping with distinct string keys comes back with the same keys, sorted. -/
theorem loads_sorted {sorted : List (PyKey × Json)}
    (hmembers : List.Forall₂ (fun entry member => entry.1 = member.1 ∧ entry.2.dumps value =
      some member.2) entries members)
    (hsorted : sortItems value members = some sorted)
    (hstr : ∀ entry ∈ entries, entry.1.isStr = true)
    (hdistinct : entries.Pairwise fun a b => a.1.eq value b.1 = false) :
    (Json.obj (sorted.map fun entry => (entry.1.text, entry.2))).loads =
      .dict (sorted.map fun member => (member.1, member.2.loads)) := by
  have hperm := sortItems_perm value hsorted
  have hkeys : (sorted.map fun member => member.1.text).Perm
      (entries.map fun entry => entry.1.text) := by
    rw [forall₂_map_eq hmembers fun _ _ hboth => congrArg PyKey.text hboth.1]
    exact hperm.map _
  have hstrs : ∀ member ∈ sorted, member.1.isStr = true := by
    intro member hmem
    have hall := (forall₂_forall_iff hmembers fun entry _ member hboth => by rw [hboth.1]).mp hstr
    exact hall member (hperm.mem_iff.mp hmem)
  rw [Json.loads, foldl_set_of_nodup [] _ ?_, nil_append, loadsEntries_eq, map_map]
  · congr 1
    refine map_congr_left fun member hmem => Prod.ext ?_ rfl
    exact isStr_text_inj rfl (hstrs member hmem) rfl
  · refine loadsEntries_keys_nodup ?_
    rw [Dict.keys, map_map]
    exact hkeys.nodup_iff.mpr (texts_nodup value hstr hdistinct)

theorem forall₂_both {α β : Type} {R : α → β → Prop} {S : β → α → Prop} {left : List α}
    {right : List β} (h : List.Forall₂ R left right) (h' : List.Forall₂ S right left) :
    ∀ a ∈ left, ∃ b, R a b ∧ S b a := by
  induction h with
  | nil => exact fun a hmem => absurd hmem not_mem_nil
  | @cons a b left right hab _ ih =>
    rw [forall₂_cons] at h'
    exact forall_mem_cons.mpr ⟨⟨b, hab, h'.1⟩, ih h'.2⟩

theorem forall₂_exists {α β : Type} {R : α → β → Prop} {left : List α} {right : List β}
    (h : List.Forall₂ R left right) : (∀ a ∈ left, ∃ b ∈ right, R a b) ∧ ∀ b ∈ right, ∃ a ∈ left, R a b := by
  induction h with
  | nil => simp
  | @cons a b left right hab _ ih =>
    refine ⟨forall_mem_cons.mpr ⟨⟨b, mem_cons_self, hab⟩, fun c hc => ?_⟩,
      forall_mem_cons.mpr ⟨⟨a, mem_cons_self, hab⟩, fun c hc => ?_⟩⟩
    · obtain ⟨d, hd, hcd⟩ := ih.1 c hc
      exact ⟨d, mem_cons_of_mem _ hd, hcd⟩
    · obtain ⟨d, hd, hcd⟩ := ih.2 c hc
      exact ⟨d, mem_cons_of_mem _ hd, hcd⟩

theorem find_own (hstr : ∀ entry ∈ entries, entry.1.isStr = true)
    (hdistinct : entries.Pairwise fun a b => a.1.eq value b.1 = false) (hmem : entry ∈ entries)
    (hfound : entries.find? (fun other => entry.1.eq value other.1) = some found) :
    found = entry := by
  have hin := mem_of_find?_eq_some hfound
  have hkey := List.find?_some hfound
  rw [eq_of_isStr value (hstr _ hmem) (hstr _ hin), decide_eq_true_eq] at hkey
  have hnodup := texts_nodup value hstr hdistinct
  exact (inj_on_of_nodup_map hnodup hmem hin hkey).symm

theorem isStr_of_eq_str (ha : a.isStr = true) (heq : a.eq value b = true) :
    b.isStr = true ∧ b.number? value = none := by
  cases a <;> cases ha
  cases b with
  | str text => exact ⟨rfl, rfl⟩
  | _ =>
    have hfalse : false = true := heq
    cases hfalse

/-- A mapping that equals one with string keys has string keys only, since it was sorted. -/
theorem isStr_of_eq_loads {sorted : List (PyKey × Json)}
    (hmembers : List.Forall₂ (fun entry member => entry.1 = member.1 ∧ entry.2.dumps value =
      some member.2) entries members)
    (hsorted : sortItems value members = some sorted)
    (heq : (Json.obj (sorted.map fun entry => (entry.1.text, entry.2))).loads.eq value (.dict entries) = true) :
    ∀ entry ∈ entries, entry.1.isStr = true := by
  rw [Json.loads, PyValue.eq, and_eq_true, eqEntries_iff, beq_iff_eq] at heq
  obtain ⟨hlength, hfound⟩ := heq
  intro entry hmem
  obtain ⟨member, hmember, hkey, -⟩ := (forall₂_exists hmembers).1 entry hmem
  -- some entry has a string key
  obtain ⟨loaded, hloaded⟩ := exists_mem_of_length_pos
    (hlength.symm ▸ length_pos_of_mem hmem)
  obtain ⟨other, hother, -⟩ := hfound loaded hloaded
  have hotherIn := mem_of_find?_eq_some hother
  have hotherKey : loaded.1.eq value other.1 = true := by simpa using List.find?_some hother
  obtain ⟨hotherStr, hotherNumber⟩ := isStr_of_eq_str value (loads_keys hloaded) hotherKey
  obtain ⟨second, hsecond, hsecondKey, -⟩ := (forall₂_exists hmembers).1 other hotherIn
  unfold sortItems at hsorted
  split at hsorted
  next hcomparable =>
    rw [hkey]
    obtain hone | hall | hnumbers := hcomparable
    · obtain ⟨only, honly⟩ : ∃ only, members = [only] :=
        length_eq_one_iff.mp (Nat.le_antisymm hone (length_pos_of_mem hmember))
      rw [honly, mem_singleton] at hmember hsecond
      rw [hmember, ← hsecond, ← hsecondKey]
      exact hotherStr
    · exact all_eq_true.mp hall member hmember
    · have hnumber := all_eq_true.mp hnumbers second hsecond
      rw [← hsecondKey, hotherNumber] at hnumber
      cases hnumber
  · cases hsorted

theorem native_of_eq_loads (h : v.dumps value = some tree) (hformed : v.wellFormed value = true)
    (heq : tree.loads.eq value v = true) : v.native = true := by
  induction v using PyValue.induct generalizing tree with
  | hfloat number =>
    cases number with
    | nan =>
      cases h
      simp [PyFloat.text, Json.loads, readFloat, PyValue.eq, PyValue.number?, PyFloat.number,
        PyNumber.eq] at heq
    | _ => rfl
  | hlist items ih =>
    obtain ⟨trees, htrees, rfl⟩ := Option.map_eq_some_iff.mp h
    rw [Json.loads, PyValue.eq, loadsItems_eq, eqItems_iff, forall₂_map_left_iff] at heq
    rw [PyValue.wellFormed, PyValue.wellFormedItems_iff] at hformed
    rw [PyValue.native, PyValue.nativeItems_iff]
    intro item hmem
    obtain ⟨tree, htree, hsame⟩ :=
      forall₂_both ((PyValue.dumpsItems_iff value).mp htrees) heq item hmem
    exact ih item hmem htree (hformed item hmem) hsame
  | htuple items ih =>
    obtain ⟨trees, htrees, rfl⟩ := Option.map_eq_some_iff.mp h
    have hfalse : false = true := heq
    cases hfalse
  | hdict entries ih =>
    obtain ⟨members, sorted, hmembers, hsorted, rfl⟩ := dumps_dict value h
    simp only [PyValue.wellFormed, and_eq_true, decide_eq_true_eq,
      PyValue.wellFormedEntries_iff] at hformed
    obtain ⟨hdistinct, hformed⟩ := hformed
    have hstr := isStr_of_eq_loads value hmembers hsorted heq
    rw [loads_sorted value hmembers hsorted hstr hdistinct, PyValue.eq, and_eq_true,
      eqEntries_iff] at heq
    simp only [PyValue.native, and_eq_true, all_eq_true, PyValue.nativeEntries_iff]
    refine ⟨hstr, fun entry hmem => ?_⟩
    obtain ⟨member, hmember, hkey, hdumps⟩ := (forall₂_exists hmembers).1 entry hmem
    have hloaded : (member.1, member.2.loads) ∈ sorted.map fun member => (member.1, member.2.loads) :=
      mem_map.mpr ⟨member, (sortItems_perm value hsorted).mem_iff.mpr hmember, rfl⟩
    obtain ⟨found, hfound, hsame⟩ := heq.2 _ hloaded
    rw [← hkey] at hfound
    rw [find_own value hstr hdistinct hmem hfound] at hsame
    exact ih entry hmem hdumps (hformed entry hmem) hsame
  | _ => rfl

theorem readFloat_text (h : (PyValue.float number).wellFormed value = true) :
    readFloat number.text = number := by
  cases number with
  | finite literal =>
    have hliteral : Json.isFloatLiteral literal.toList = true := h
    have hne : ∀ text : String, Json.isFloatLiteral text.toList = false → literal ≠ text := by
      rintro text htext rfl
      rw [hliteral] at htext
      cases htext
    simp only [PyFloat.text, readFloat, hne "NaN" (by decide), hne "Infinity" (by decide),
      hne "-Infinity" (by decide), if_false]
  | _ => rfl

theorem forall₂_comp {α β γ : Type} {R : α → β → Prop} {S : α → γ → Prop} {T : β → γ → Prop}
    {left : List α} {middle : List β} {right : List γ} (h : List.Forall₂ R left middle)
    (h' : List.Forall₂ S left right) (hcomp : ∀ a ∈ left, ∀ b c, R a b → S a c → T b c) :
    List.Forall₂ T middle right := by
  induction h generalizing right with
  | nil =>
    cases h'
    exact .nil
  | @cons a b left middle hab _ ih =>
    cases h' with
    | cons hac htail =>
      exact .cons (hcomp a mem_cons_self b _ hab hac)
        (ih htail fun a ha => hcomp a (mem_cons_of_mem _ ha))

/-- What is read from the text of a native value equals everything that the value equals. -/
theorem eq_loads_of_eq (h : v.dumps value = some tree) (hnative : v.native = true)
    (hformed : v.wellFormed value = true) (heq : v.eq value w = true) :
    tree.loads.eq value w = true := by
  induction v using PyValue.induct generalizing tree w with
  | hfloat number =>
    cases h
    rw [Json.loads, readFloat_text value hformed]
    exact heq
  | hlist items ih =>
    obtain ⟨trees, htrees, rfl⟩ := Option.map_eq_some_iff.mp h
    rw [PyValue.native, PyValue.nativeItems_iff] at hnative
    rw [PyValue.wellFormed, PyValue.wellFormedItems_iff] at hformed
    obtain ⟨others, rfl, hothers⟩ := eq_list value heq
    rw [Json.loads, PyValue.eq, loadsItems_eq, eqItems_iff, forall₂_map_left_iff]
    refine forall₂_comp ((PyValue.dumpsItems_iff value).mp htrees) hothers ?_
    exact fun item hmem tree other hdumps hsame =>
      ih item hmem hdumps (hnative item hmem) (hformed item hmem) hsame
  | htuple items ih => cases hnative
  | hdict entries ih =>
    obtain ⟨members, sorted, hmembers, hsorted, rfl⟩ := dumps_dict value h
    simp only [PyValue.native, and_eq_true, all_eq_true, PyValue.nativeEntries_iff] at hnative
    simp only [PyValue.wellFormed, and_eq_true, decide_eq_true_eq,
      PyValue.wellFormedEntries_iff] at hformed
    obtain ⟨others, rfl, hlength, hothers⟩ := eq_dict value heq
    rw [loads_sorted value hmembers hsorted hnative.1 hformed.1, PyValue.eq, and_eq_true,
      beq_iff_eq, eqEntries_iff, length_map, (sortItems_perm value hsorted).length_eq,
      ← hmembers.length_eq]
    refine ⟨hlength, forall_mem_map.mpr fun member hmember => ?_⟩
    obtain ⟨entry, hmem, hkey, hdumps⟩ :=
      (forall₂_exists hmembers).2 member ((sortItems_perm value hsorted).mem_iff.mp hmember)
    obtain ⟨other, hfound, hsame⟩ := hothers entry hmem
    refine ⟨other, hkey ▸ hfound, ?_⟩
    exact ih entry hmem hdumps (hnative.2 entry hmem) (hformed.2 entry hmem) hsame
  | _ =>
    cases h
    exact heq

theorem eq_self (hnative : v.native = true) (hformed : v.wellFormed value = true) :
    v.eq value v = true := by
  induction v using PyValue.induct with
  | hfloat number =>
    cases number with
    | nan => cases hnative
    | _ => simp [PyValue.eq, PyValue.number?, PyFloat.number, PyNumber.eq]
  | hlist items ih =>
    rw [PyValue.native, PyValue.nativeItems_iff] at hnative
    rw [PyValue.wellFormed, PyValue.wellFormedItems_iff] at hformed
    rw [PyValue.eq, eqItems_iff, forall₂_same]
    exact fun item hmem => ih item hmem (hnative item hmem) (hformed item hmem)
  | htuple items ih => cases hnative
  | hdict entries ih =>
    simp only [PyValue.native, and_eq_true, all_eq_true, PyValue.nativeEntries_iff] at hnative
    simp only [PyValue.wellFormed, and_eq_true, decide_eq_true_eq,
      PyValue.wellFormedEntries_iff] at hformed
    rw [PyValue.eq, and_eq_true, beq_self_eq_true, eqEntries_iff]
    refine ⟨rfl, fun entry hmem => ?_⟩
    have hown : entry.1.eq value entry.1 = true := by
      rw [eq_of_isStr value (hnative.1 entry hmem) (hnative.1 entry hmem)]
      exact decide_eq_true rfl
    obtain ⟨found, hfound⟩ := Option.isSome_iff_exists.mp
      (List.find?_isSome.mpr ⟨entry, hmem, hown⟩ :
        (entries.find? fun other => entry.1.eq value other.1).isSome = true)
    have hentry := find_own value hnative.1 hformed.1 hmem hfound
    rw [hentry] at hfound
    exact ⟨entry, hfound, ih entry hmem (hnative.2 entry hmem) (hformed.2 entry hmem)⟩
  | _ => simp [PyValue.eq, PyValue.number?, PyNumber.eq]

end

/-- A mapping by its entries. -/
abbrev PyItem := Dict PyKey PyValue

namespace PyItem

/-- `item.get(key)`; a missing member is None. -/
def member (item : PyItem) (key : String) : PyValue := (Dict.get item (.str key)).getD .none

/-- `{**item, key: value}`. -/
def put (item : PyItem) (key : String) (value : PyValue) : PyItem := Dict.set item (.str key) value

/-- A member that is a text. -/
def text (item : PyItem) (key : String) : Option String :=
  match item.member key with
  | .str text => some text
  | _ => none

/-- A member that is a text and not empty. -/
def id (item : PyItem) (key : String) : Option String := (item.text key).filter (· ≠ "")

/-- The item without some of its members. -/
def without (item : PyItem) (keys : List String) : PyItem :=
  item.filter fun entry => entry.1 ∉ keys.map PyKey.str

/-- `a == b`. -/
def same (value : String → ℚ) (a b : PyItem) : Bool := (PyValue.dict a).eq value (.dict b)

variable {item : PyItem} {key other : String} {value : PyValue}

@[simp] theorem member_put_self : (item.put key value).member key = value := by
  rw [member, put, Dict.get_set_self, Option.getD_some]

theorem member_put_of_ne (h : other ≠ key) : (item.put key value).member other = item.member other := by
  rw [member, put, Dict.get_set_of_ne _ _ fun heq => h (PyKey.str.inj heq), member]

@[simp] theorem text_put_self {text : String} : (item.put key (.str text)).text key = some text := by
  rw [PyItem.text, member_put_self]

theorem text_put_of_ne (h : other ≠ key) : (item.put key value).text other = item.text other := by
  rw [text, member_put_of_ne h, text]

theorem id_eq_some {text : String} :
    item.id key = some text ↔ item.text key = some text ∧ text ≠ "" := by
  rw [id, Option.filter_eq_some_iff]
  simp

end PyItem

namespace PyValue

/-- An array of objects. -/
def items : PyValue → Option (List PyItem)
  | .list values => values.mapM fun value =>
      match value with
      | .dict entries => some entries
      | _ => Option.none
  | _ => Option.none

/-- An array of texts that are not empty. -/
def texts : PyValue → Option (List String)
  | .list values => values.mapM fun value =>
      match value with
      | .str text => if text = "" then Option.none else some text
      | _ => Option.none
  | _ => Option.none

end PyValue

end Flowness.Library
