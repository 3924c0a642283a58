import Flowness.Library.Dict
import Mathlib.Logic.Basic

/-!
Checks that raise, and how a computation that returned is taken apart.
-/

namespace Flowness.Library

open List

variable {ε α β : Type}

/-- Raise `error` unless the check holds. -/
def require (holds : Bool) (error : ε) : Except ε Unit := if holds then .ok () else .error error

@[simp] theorem require_ok : require holds error = .ok done ↔ holds = true := by
  cases holds <;> simp [require]

theorem bind_ok {f : α → Except ε β} {result : β} :
    (x >>= f) = .ok result ↔ ∃ a, x = .ok a ∧ f a = .ok result := by
  cases x with
  | error e =>
    constructor
    · intro h
      cases h
    · rintro ⟨a, ha, -⟩
      cases ha
  | ok a =>
    constructor
    · exact fun h => ⟨a, rfl, h⟩
    · rintro ⟨b, h, hf⟩
      cases h
      exact hf

theorem map_ok {f : α → β} {x : Except ε α} {result : β} :
    x.map f = .ok result ↔ ∃ a, x = .ok a ∧ f a = result := by
  cases x <;> simp [Except.map]

theorem exists_ok {x : Except ε α} (h : x.isOk = true) : ∃ a, x = .ok a := by
  cases x with
  | error e => cases h
  | ok a => exact ⟨a, rfl⟩

section

variable {f : β → α → Except ε β} {items : List α} {item : α}

theorem foldlM_snoc {start middle : β} (h : items.foldlM f start = .ok middle) :
    (items ++ [item]).foldlM f start = f middle item := by
  rw [foldlM_append, h]
  show (f middle item >>= fun last => .ok last) = f middle item
  cases f middle item <;> rfl

theorem foldlM_snoc_ok {start last : β} : (items ++ [item]).foldlM f start = .ok last ↔
      ∃ middle, items.foldlM f start = .ok middle ∧ f middle item = .ok last := by
  constructor
  · intro h
    rw [foldlM_append, bind_ok] at h
    obtain ⟨middle, hmiddle, h⟩ := h
    rw [foldlM_cons, bind_ok] at h
    obtain ⟨found, hfound, h⟩ := h
    cases h
    exact ⟨middle, hmiddle, hfound⟩
  · rintro ⟨middle, hmiddle, hlast⟩
    rw [foldlM_snoc hmiddle, hlast]

end

theorem foldlM_set_ok {κ ν : Type} [DecidableEq κ] {step : Dict κ ν → α → Except ε (Dict κ ν)}
    (key : α → κ) (value : α → ν) (Good : α → Prop)
    (hstep : ∀ d item after, step d item = .ok after ↔
      Good item ∧ key item ∉ d.keys ∧ after = d.set (key item) (value item))
    {items : List α} {d after : Dict κ ν} :
    items.foldlM step d = .ok after ↔
      (∀ item ∈ items, Good item) ∧ (items.map key).Nodup ∧
      (∀ k ∈ items.map key, k ∉ d.keys) ∧
      after = items.foldl (fun d item => d.set (key item) (value item)) d := by
  induction items generalizing d with
  | nil =>
    constructor
    · intro h
      cases h
      simp
    · intro h
      rw [h.2.2.2]
      rfl
  | cons item items ih =>
    simp only [foldlM_cons, bind_ok, hstep, ih, forall_mem_cons, map_cons,
      nodup_cons, foldl_cons]
    constructor
    · intro h
      obtain ⟨middle, ⟨hitem, hfresh, rfl⟩, hitems, hnodup, hapart, hafter⟩ := h
      simp only [Dict.mem_keys_set, not_or] at hapart
      exact ⟨⟨hitem, hitems⟩, ⟨fun hmem => (hapart _ hmem).1 rfl, hnodup⟩,
        ⟨hfresh, fun k hmem => (hapart k hmem).2⟩, hafter⟩
    · intro h
      obtain ⟨⟨hitem, hitems⟩, ⟨hnew, hnodup⟩, ⟨hfresh, hapart⟩, hafter⟩ := h
      refine ⟨_, ⟨hitem, hfresh, rfl⟩, hitems, hnodup, ?_, hafter⟩
      intro k hmem
      rw [Dict.mem_keys_set, not_or]
      exact ⟨fun heq => hnew (heq ▸ hmem), hapart k hmem⟩

/-- A loop that never raises and in which each item adds what it adds to any list. -/
theorem foldlM_collect {step : List β → α → Except ε (List β)} (Adds : α → β → Prop)
    {items : List α} (hstep : ∀ item ∈ items, ∀ found, ∃ after,
      step found item = .ok after ∧ ∀ b, b ∈ after ↔ b ∈ found ∨ Adds item b) (start : List β) :
    ∃ after, items.foldlM step start = .ok after ∧
      ∀ b, b ∈ after ↔ b ∈ start ∨ ∃ item ∈ items, Adds item b := by
  induction items generalizing start with
  | nil => exact ⟨start, rfl, by simp⟩
  | cons item items ih =>
    obtain ⟨middle, hmiddle, hadds⟩ := hstep item mem_cons_self start
    obtain ⟨after, hafter, hall⟩ :=
      ih (fun item hitem => hstep item (mem_cons_of_mem _ hitem)) middle
    refine ⟨after, ?_, fun b => ?_⟩
    · rw [foldlM_cons, bind_ok]
      exact ⟨middle, hmiddle, hafter⟩
    · simp [hall, hadds, or_assoc]

end Flowness.Library
