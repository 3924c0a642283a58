import Mathlib.Data.List.Nodup
import Mathlib.Data.List.Perm.Basic
import Mathlib.Algebra.GroupWithZero.Nat

/-!
Insertion-ordered dictionaries as association lists: assignment keeps the place of a present
key and appends a new one.
-/

namespace Flowness.Library

open List

abbrev Dict (κ ν : Type) := List (κ × ν)

namespace Dict

variable {κ ν : Type} [DecidableEq κ]

def get (d : Dict κ ν) (key : κ) : Option ν := List.lookup key d

def keys (d : Dict κ ν) : List κ := d.map Prod.fst

def contains (d : Dict κ ν) (key : κ) : Bool := (d.get key).isSome

/-- `d[key] = value`. -/
def set : Dict κ ν → κ → ν → Dict κ ν
  | [], key, value => [(key, value)]
  | (k, v) :: rest, key, value =>
    if k = key then (k, value) :: rest else (k, v) :: set rest key value

/-- `d.pop(key, None)`, the dictionary left behind. -/
def erase (d : Dict κ ν) (key : κ) : Dict κ ν := d.filter (fun entry => entry.1 ≠ key)

@[simp] theorem get_nil (key : κ) : get ([] : Dict κ ν) key = none := rfl

theorem get_cons (k : κ) (v : ν) (rest : Dict κ ν) (key : κ) :
    get ((k, v) :: rest) key = if k = key then some v else get rest key := by
  unfold get
  rw [lookup_cons]
  by_cases h : k = key
  · simp [h]
  · have hne : (key == k) = false := by simpa using fun heq : key = k => h heq.symm
    simp [h, hne]

section

variable {d : Dict κ ν} {key : κ}

theorem get_eq_none_iff : d.get key = none ↔ key ∉ d.keys := by
  induction d with
  | nil => simp [keys]
  | cons entry rest ih =>
    obtain ⟨k, v⟩ := entry
    rw [get_cons]
    by_cases h : k = key
    · simp [h, keys]
    · have hne : ¬ key = k := fun heq => h heq.symm
      simp only [h, if_false, ih, keys, map_cons, mem_cons, not_or]
      exact ⟨fun hr => ⟨hne, hr⟩, fun hr => hr.2⟩

theorem mem_keys_of_get (h : d.get key = some value) : key ∈ d.keys := by
  by_contra hmem
  rw [get_eq_none_iff.mpr hmem] at h
  contradiction

theorem mem_of_get (h : d.get key = some value) : (key, value) ∈ d := by
  induction d with
  | nil => cases h
  | cons entry rest ih =>
    obtain ⟨k, v⟩ := entry
    rw [get_cons] at h
    split at h
    next hk =>
      cases h
      rw [hk]
      exact mem_cons_self
    · exact mem_cons_of_mem _ (ih h)

end

@[simp] theorem get_set_self (d : Dict κ ν) (key : κ) (value : ν) :
    (d.set key value).get key = some value := by
  induction d with
  | nil => simp [set, get_cons]
  | cons entry rest ih =>
    unfold set
    split
    next h =>
      rw [get_cons, if_pos h]
    next h =>
      rw [get_cons, if_neg h, ih]

theorem get_set_of_ne (d : Dict κ ν) {key other : κ} (value : ν) (h : other ≠ key) :
    (d.set key value).get other = d.get other := by
  induction d with
  | nil => simp [set, get_cons, h.symm]
  | cons entry rest ih =>
    unfold set
    split
    next hk =>
      subst hk
      rw [get_cons, get_cons, if_neg h.symm, if_neg h.symm]
    · rw [get_cons, get_cons, ih]

theorem set_of_get {d : Dict κ ν} {key : κ} (h : d.get key = some value) : d.set key value = d := by
  induction d with
  | nil => contradiction
  | cons entry rest ih =>
    obtain ⟨k, v⟩ := entry
    rw [get_cons] at h
    unfold set
    split
    next hk =>
      rw [if_pos hk] at h
      rw [Option.some.inj h]
    next hk =>
      rw [if_neg hk] at h
      rw [ih h]

theorem get_filter_of_pos {d : Dict κ ν} {key : κ} (h : d.get key = some value)
    (hkeep : keep (key, value) = true) : Dict.get (d.filter keep) key = some value := by
  induction d with
  | nil => contradiction
  | cons entry rest ih =>
    obtain ⟨k, v⟩ := entry
    rw [get_cons] at h
    split at h
    next hk =>
      subst hk
      rw [Option.some.inj h, filter_cons_of_pos hkeep, get_cons, if_pos rfl]
    next hk =>
      rw [filter_cons]
      split
      · rw [get_cons, if_neg hk, ih h]
      · exact ih h

theorem get_filter_keys (d : Dict κ ν) (keep : κ → Bool) (key : κ) :
    Dict.get (d.filter fun entry => keep entry.1) key = if keep key then d.get key else none := by
  induction d with
  | nil => simp
  | cons entry rest ih =>
    obtain ⟨k, v⟩ := entry
    by_cases hk : k = key
    · subst hk
      cases hkeep : keep k with
      | true => simp [filter_cons_of_pos, hkeep, get_cons]
      | false =>
        rw [filter_cons_of_neg (by simp [hkeep]), ih, hkeep]
        rfl
    · rw [filter_cons]
      split
      · rw [get_cons, get_cons, if_neg hk, if_neg hk, ih]
      · rw [get_cons, if_neg hk, ih]

theorem get_erase_self (d : Dict κ ν) (key : κ) : (d.erase key).get key = none := by
  rw [get_eq_none_iff]
  unfold keys erase
  simp

theorem get_erase_of_ne (d : Dict κ ν) {key other : κ} (h : other ≠ key) :
    (d.erase key).get other = d.get other := by
  induction d with
  | nil => rfl
  | cons entry rest ih =>
    obtain ⟨k, v⟩ := entry
    unfold erase at ih ⊢
    by_cases hk : k = key
    · have hne : k ≠ other := fun heq => h (heq.symm.trans hk)
      rw [filter_cons_of_neg (by simp [hk]), ih, get_cons, if_neg hne]
    · rw [filter_cons_of_pos (by simp [hk]), get_cons, get_cons, ih]

section

variable {d : Dict κ ν}

theorem set_of_not_mem {key : κ} (h : key ∉ d.keys) (value : ν) :
    d.set key value = d ++ [(key, value)] := by
  induction d with
  | nil => rfl
  | cons entry rest ih =>
    simp only [keys, map_cons, mem_cons, not_or] at h
    unfold set
    rw [if_neg (fun heq => h.1 heq.symm), ih h.2]
    rfl

theorem keys_set_of_mem {key : κ} (h : key ∈ d.keys) (value : ν) :
    (d.set key value).keys = d.keys := by
  induction d with
  | nil => simp [keys] at h
  | cons entry rest ih =>
    unfold set
    split
    · rfl
    next hk =>
      have hrest : key ∈ keys rest := by
        simp only [keys, map_cons, mem_cons] at h
        rcases h with h | h
        · exact absurd h.symm hk
        · exact h
      have hkeys := ih hrest
      unfold keys at hkeys ⊢
      rw [map_cons, map_cons, hkeys]

theorem keys_set_of_not_mem {key : κ} (h : key ∉ d.keys) (value : ν) :
    (d.set key value).keys = d.keys ++ [key] := by
  rw [set_of_not_mem h]
  simp [keys]

theorem mem_keys_set {key other : κ} :
    other ∈ (d.set key value).keys ↔ other = key ∨ other ∈ d.keys := by
  by_cases h : key ∈ d.keys
  · rw [keys_set_of_mem h]
    exact ⟨.inr, fun hother => hother.elim (fun heq => heq ▸ h) id⟩
  · rw [keys_set_of_not_mem h, mem_append, mem_singleton, or_comm]

theorem nodup_keys_set (h : d.keys.Nodup) (key : κ) (value : ν) : (d.set key value).keys.Nodup := by
  by_cases hmem : key ∈ d.keys
  · rw [keys_set_of_mem hmem]
    exact h
  · rw [keys_set_of_not_mem hmem]
    exact List.Nodup.append h (nodup_singleton key) (by simpa using hmem)

end

theorem get_foldl_set (d : Dict κ ν) (keys : List κ) (value : ν) (key : κ) :
    Dict.get (keys.foldl (fun d key => d.set key value) d) key =
      if key ∈ keys then some value else d.get key := by
  induction keys generalizing d with
  | nil => rfl
  | cons first rest ih =>
    rw [foldl_cons, ih]
    by_cases hrest : key ∈ rest
    · rw [if_pos hrest, if_pos (mem_cons_of_mem _ hrest)]
    · rw [if_neg hrest]
      by_cases hfirst : key = first
      · rw [hfirst, get_set_self, if_pos mem_cons_self]
      · rw [get_set_of_ne _ _ hfirst, if_neg (by simp [hfirst, hrest])]

theorem get_foldl_update_of_not_mem {α : Type} {entries : Dict κ α} (keep : α → Bool)
    (update : Option ν → ν) (d : Dict κ ν) {key : κ} (h : key ∉ entries.keys) :
    Dict.get (entries.foldl (fun d entry =>
      if keep entry.2 then d.set entry.1 (update (d.get entry.1)) else d) d) key = d.get key := by
  induction entries generalizing d with
  | nil => rfl
  | cons entry rest ih =>
    simp only [keys, map_cons, mem_cons, not_or] at h
    rw [foldl_cons, ih _ h.2]
    split
    · exact get_set_of_ne _ _ h.1
    · rfl

theorem get_foldl_update {α : Type} {entries : Dict κ α} (hnodup : entries.keys.Nodup)
    (keep : α → Bool) (update : Option ν → ν) (d : Dict κ ν) {key : κ} {value : α}
    (h : (key, value) ∈ entries) :
    Dict.get (entries.foldl (fun d entry =>
      if keep entry.2 then d.set entry.1 (update (d.get entry.1)) else d) d) key =
        if keep value then some (update (d.get key)) else d.get key := by
  induction entries generalizing d with
  | nil => cases h
  | cons entry rest ih =>
    simp only [keys, map_cons, nodup_cons] at hnodup
    rw [foldl_cons]
    rcases mem_cons.mp h with rfl | hrest
    · rw [get_foldl_update_of_not_mem keep update _ hnodup.1]
      split
      · exact get_set_self d key _
      · rfl
    · have hne : key ≠ entry.1 := fun heq => hnodup.1 (heq ▸ mem_map_of_mem hrest)
      rw [ih hnodup.2 _ hrest]
      have hget : Dict.get (if keep entry.2 then d.set entry.1 (update (d.get entry.1)) else d) key =
          d.get key := by
        split
        · exact get_set_of_ne d _ hne
        · rfl
      rw [hget]

/-- Assignment to a present key changes a sum over the entries by that entry's weight. -/
theorem sum_map_set {d : Dict κ ν} {key : κ} (weight : κ × ν → Nat) (h : d.get key = some old)
    (value : ν) : ((d.set key value).map weight).sum + weight (key, old) =
      (d.map weight).sum + weight (key, value) := by
  induction d with
  | nil => simp at h
  | cons entry rest ih =>
    obtain ⟨k, v⟩ := entry
    rw [get_cons] at h
    by_cases hk : k = key
    · rw [if_pos hk] at h
      cases h
      subst hk
      simp only [set, if_pos, map_cons, sum_cons]
      omega
    · rw [if_neg hk] at h
      have hrest := ih h
      simp only [set, if_neg hk, map_cons, sum_cons]
      omega

theorem mem_iff_get {d : Dict κ ν} (h : d.keys.Nodup) {key : κ} :
    (key, value) ∈ d ↔ d.get key = some value := by
  induction d with
  | nil => simp
  | cons entry rest ih =>
    obtain ⟨k, v⟩ := entry
    simp only [keys, map_cons, nodup_cons] at h
    rw [get_cons, mem_cons]
    by_cases hk : k = key
    · subst hk
      have hrest : (k, value) ∉ rest := fun hmem => h.1 (mem_map_of_mem hmem)
      rw [if_pos rfl]
      constructor
      · rintro (heq | hmem)
        · rw [(Prod.mk.inj heq).2]
        · exact absurd hmem hrest
      · intro heq
        rw [Option.some.inj heq]
        exact .inl rfl
    · rw [if_neg hk, ← ih h.2]
      constructor
      · rintro (heq | hmem)
        · exact absurd (Prod.mk.inj heq).1.symm hk
        · exact hmem
      · exact .inr

theorem mem_set {d : Dict κ ν} (h : d.keys.Nodup) {key other : κ} :
    (other, found) ∈ d.set key value ↔
      other = key ∧ found = value ∨ other ≠ key ∧ (other, found) ∈ d := by
  rw [mem_iff_get (nodup_keys_set h key value), mem_iff_get h]
  by_cases hother : other = key
  · subst hother
    simp [eq_comm]
  · rw [get_set_of_ne _ _ hother]
    simp [hother]

theorem mem_or_eq_of_mem_set {d : Dict κ ν} {key : κ} (h : entry ∈ d.set key value) :
    entry ∈ d ∨ entry = (key, value) := by
  induction d with
  | nil => exact .inr (by simpa [set] using h)
  | cons first rest ih =>
    unfold set at h
    split at h
    next hk =>
      rcases mem_cons.mp h with heq | hmem
      · exact .inr (by rw [heq, hk])
      · exact .inl (mem_cons_of_mem _ hmem)
    · rcases mem_cons.mp h with heq | hmem
      · exact .inl (by rw [heq]; exact mem_cons_self)
      · exact (ih hmem).imp_left (mem_cons_of_mem _)

/-- `d.get(key, [])`. -/
def getList (d : Dict κ (List ν)) (key : κ) : List ν := (d.get key).getD []

/-- `d[key].append(value)`, an absent key standing for the empty list. -/
def appendAt (d : Dict κ (List ν)) (key : κ) (value : ν) : Dict κ (List ν) :=
  d.set key (d.getList key ++ [value])

theorem getList_of_get {d after : Dict κ (List ν)} {key : κ}
    (h : ∀ other, after.get other = if other = key then value else d.get other) (other : κ) :
    after.getList other = if other = key then value.getD [] else d.getList other := by
  rw [getList, h]
  split
  · rfl
  · rfl

theorem mem_getList_appendAt {d : Dict κ (List ν)} {k key : κ} :
    value ∈ (d.appendAt k v).getList key ↔ value ∈ d.getList key ∨ (k = key ∧ v = value) := by
  unfold appendAt getList
  by_cases hkey : key = k
  · subst hkey
    simp [eq_comm]
  · rw [get_set_of_ne d _ hkey]
    simp [Ne.symm hkey]

theorem mem_getList_foldl {d : Dict κ (List ν)} {entries : List (κ × ν)} {key : κ} {value : ν} :
    value ∈ getList (entries.foldl (fun d entry => d.appendAt entry.1 entry.2) d) key ↔
      value ∈ d.getList key ∨ (key, value) ∈ entries := by
  induction entries generalizing d with
  | nil => simp
  | cons entry entries ih =>
    rw [foldl_cons, ih, mem_getList_appendAt, mem_cons, or_assoc, Prod.ext_iff]
    simp [eq_comm]

theorem nodup_keys_foldl {d : Dict κ (List ν)} (h : d.keys.Nodup) (entries : List (κ × ν)) :
    (keys (entries.foldl (fun d entry => d.appendAt entry.1 entry.2) d)).Nodup := by
  induction entries generalizing d with
  | nil => exact h
  | cons entry entries ih => exact ih (nodup_keys_set h _ _)

theorem nodup_keys_foldl_set {d : Dict κ ν} (h : d.keys.Nodup) (keys : List κ) (value : ν) :
    (Dict.keys (keys.foldl (fun d key => Dict.set d key value) d)).Nodup := by
  induction keys generalizing d with
  | nil => exact h
  | cons key keys ih => exact ih (nodup_keys_set h _ _)

theorem mem_getList_iff {d : Dict κ (List ν)} (h : d.keys.Nodup) {key : κ} :
    value ∈ d.getList key ↔ ∃ values, (key, values) ∈ d ∧ value ∈ values := by
  unfold getList
  constructor
  · intro hvalue
    cases hget : d.get key with
    | none =>
      rw [hget] at hvalue
      cases hvalue
    | some values =>
      rw [hget] at hvalue
      exact ⟨values, (mem_iff_get h).mpr hget, hvalue⟩
  · intro hvalues
    obtain ⟨values, hmem, hvalue⟩ := hvalues
    rw [(mem_iff_get h).mp hmem]
    exact hvalue

/-- `{key: [] for key in keys}` and a fold of it alike list nothing. -/
theorem getList_foldl_set_nil (keys : List κ) (key : κ) :
    getList (keys.foldl (fun d key => Dict.set d key ([] : List ν)) []) key = [] := by
  unfold getList
  rw [get_foldl_set]
  split <;> rfl

theorem contains_iff {d : Dict κ ν} {key : κ} : d.contains key = true ↔ key ∈ d.keys := by
  rw [contains, Option.isSome_iff_ne_none, Ne, get_eq_none_iff, not_not]

/-- `{key(item): item for item in items}`. -/
def indexBy (key : ν → κ) (items : List ν) : Dict κ ν :=
  items.foldl (fun d item => d.set (key item) item) []

theorem mem_keys_foldl_index (key : ν → κ) (items : List ν) (d : Dict κ ν) (k : κ) :
    k ∈ keys (items.foldl (fun d item => d.set (key item) item) d) ↔
      k ∈ d.keys ∨ k ∈ items.map key := by
  induction items generalizing d with
  | nil => simp
  | cons item items ih =>
    rw [foldl_cons, ih, mem_keys_set, map_cons, mem_cons]
    tauto

@[simp]
theorem mem_keys_indexBy {key : ν → κ} {items : List ν} :
    k ∈ (indexBy key items).keys ↔ k ∈ items.map key := by
  rw [indexBy, mem_keys_foldl_index]
  simp [keys]

theorem nodup_keys_indexBy (key : ν → κ) (items : List ν) : (indexBy key items).keys.Nodup := by
  have hfold : ∀ d : Dict κ ν, d.keys.Nodup →
      (keys (items.foldl (fun d item => d.set (key item) item) d)).Nodup := by
    induction items with
    | nil => exact fun d hd => hd
    | cons item items ih => exact fun d hd => ih _ (nodup_keys_set hd _ _)
  exact hfold [] nodup_nil

theorem get_foldl_index_of_not_mem {key : ν → κ} {items : List ν} (h : k ∉ items.map key)
    (d : Dict κ ν) : get (items.foldl (fun d item => d.set (key item) item) d) k = d.get k := by
  induction items generalizing d with
  | nil => rfl
  | cons first rest ih =>
    rw [map_cons, mem_cons, not_or] at h
    rw [foldl_cons, ih h.2, get_set_of_ne _ _ h.1]

section

variable {key : ν → κ} {items : List ν} (h : (items.map key).Nodup)
include h

theorem get_foldl_index {d : Dict κ ν} :
    get (items.foldl (fun d item => d.set (key item) item) d) k = some item ↔
      (item ∈ items ∧ key item = k) ∨ (k ∉ items.map key ∧ d.get k = some item) := by
  induction items generalizing d with
  | nil => simp
  | cons first rest ih =>
    rw [map_cons, nodup_cons] at h
    rw [foldl_cons, ih h.2]
    by_cases hk : k = key first
    · subst hk
      rw [get_set_self]
      have hrest : ¬ (item ∈ rest ∧ key item = key first) :=
        fun ⟨hmem, hkey⟩ => h.1 (hkey ▸ mem_map_of_mem hmem)
      constructor
      · intro hfound
        rcases hfound with hfound | ⟨-, hfound⟩
        · exact absurd hfound hrest
        · cases hfound
          exact .inl ⟨mem_cons_self, rfl⟩
      · intro hfound
        rcases hfound with ⟨hmem, hkey⟩ | ⟨hnot, -⟩
        · rcases mem_cons.mp hmem with rfl | hmem
          · exact .inr ⟨h.1, rfl⟩
          · exact absurd ⟨hmem, hkey⟩ hrest
        · exact absurd (by simp) hnot
    · rw [get_set_of_ne _ _ hk, map_cons, mem_cons, mem_cons]
      have hfirst : ∀ found : ν, key found = k → found ≠ first := by
        intro found hfound heq
        exact hk (heq ▸ hfound.symm)
      constructor
      · intro hfound
        rcases hfound with ⟨hmem, hkey⟩ | ⟨hnot, hget⟩
        · exact .inl ⟨.inr hmem, hkey⟩
        · exact .inr ⟨fun hor => hor.elim hk hnot, hget⟩
      · intro hfound
        rcases hfound with ⟨hmem, hkey⟩ | ⟨hnot, hget⟩
        · exact .inl ⟨hmem.resolve_left (hfirst item hkey), hkey⟩
        · exact .inr ⟨fun hin => hnot (.inr hin), hget⟩

theorem find?_of_nodup (hmem : item ∈ items) :
    (items.find? fun other => key other = key item) = some item := by
  cases hfind : items.find? fun other => key other = key item with
  | none => simpa using List.find?_eq_none.mp hfind item hmem
  | some other =>
    have hkey : key other = key item := by simpa using List.find?_some hfind
    rw [inj_on_of_nodup_map h (mem_of_find?_eq_some hfind) hmem hkey]

/-- Where the keys are distinct, the dictionary holds each item under its key. -/
theorem get_indexBy : (indexBy key items).get k = some item ↔ item ∈ items ∧ key item = k := by
  rw [indexBy, get_foldl_index h]
  simp

end

end Dict

end Flowness.Library
