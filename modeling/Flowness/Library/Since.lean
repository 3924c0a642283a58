import Flowness.Library.Dict
import Mathlib.Data.List.Induction

/-!
What was set by one event of a log and has not been cleared since, and the dictionary that events which
set and drop keys leave behind.
-/

namespace Flowness.Library

open List Dict

variable {ε : Type} {records : List ε} {added : List ε → ε → Prop} {removed : ε → Prop}

/-- Some event that meets `added` has no event that meets `removed` after it. -/
def Since (records : List ε) (added : List ε → ε → Prop) (removed : ε → Prop) : Prop :=
  ∃ before event after, records = before ++ event :: after ∧ added before event ∧
    ∀ later ∈ after, ¬removed later

theorem since_nil : ¬Since [] added removed := by
  intro h
  obtain ⟨before, event, after, hsplit, -⟩ := h
  simp at hsplit

theorem since_snoc :
    Since (records ++ [last]) added removed ↔
      Since records added removed ∧ ¬removed last ∨ added records last := by
  constructor
  · intro h
    obtain ⟨before, event, after, hsplit, hadded, hkept⟩ := h
    rcases eq_nil_or_concat after with rfl | ⟨rest, final, rfl⟩
    · obtain ⟨rfl, hevent⟩ := append_inj' hsplit rfl
      obtain rfl := singleton_inj.mp hevent
      exact .inr hadded
    · rw [concat_eq_append] at hsplit hkept
      rw [← cons_append, ← append_assoc] at hsplit
      obtain ⟨rfl, hlast⟩ := append_inj' hsplit rfl
      obtain rfl := singleton_inj.mp hlast
      refine .inl ⟨⟨before, event, rest, rfl, hadded, fun later hlater => ?_⟩, ?_⟩
      · exact hkept later (mem_append_left _ hlater)
      · exact hkept last (mem_append_right _ (mem_singleton_self _))
  · intro h
    rcases h with ⟨⟨before, event, after, rfl, hadded, hkept⟩, hlast⟩ | hadded
    · refine ⟨before, event, after ++ [last], by simp, hadded, fun later hlater => ?_⟩
      rcases mem_append.mp hlater with hlater | hlater
      · exact hkept later hlater
      · rw [mem_singleton.mp hlater]
        exact hlast
    · exact ⟨records, last, [], rfl, hadded, by simp⟩

section

variable {κ ν : Type} [DecidableEq κ] {change : ε → Option (κ × Option ν)}

/-- The key of a change gets its value, or is dropped. -/
def replayStep (change : ε → Option (κ × Option ν)) (entries : Dict κ ν) (event : ε) : Dict κ ν :=
  match change event with
  | none => entries
  | some (key, some value) => Dict.set entries key value
  | some (key, none) => Dict.erase entries key

def replay (change : ε → Option (κ × Option ν)) (records : List ε) : Dict κ ν :=
  records.foldl (replayStep change) []

section

variable (change : ε → Option (κ × Option ν)) (records : List ε)

theorem replay_snoc (last : ε) :
    replay change (records ++ [last]) = replayStep change (replay change records) last :=
  foldl_concat _ _ _ _

theorem nodup_replay : (replay change records).keys.Nodup := by
  induction records using List.reverseRecOn with
  | nil => exact nodup_nil
  | append_singleton records last ih =>
    rw [replay_snoc]
    unfold replayStep
    split
    · exact ih
    · exact nodup_keys_set ih _ _
    · exact ih.sublist (filter_sublist.map _)

end

theorem get_replay_iff {records : List ε} {key : κ} {value : ν} :
    Dict.get (replay change records) key = some value ↔
      Since records (fun _ event => change event = some (key, some value))
        fun event => ∃ other, change event = some (key, other) := by
  induction records using List.reverseRecOn with
  | nil =>
    apply iff_of_false
    · intro h
      cases h
    · exact since_nil
  | append_singleton records last ih =>
    rw [replay_snoc, since_snoc, ← ih]
    unfold replayStep
    cases hchange : change last with
    | none => simp
    | some entry =>
      obtain ⟨other, final⟩ := entry
      by_cases hother : other = key
      · subst hother
        cases final with
        | none => simp [get_erase_self]
        | some final => simp [get_set_self]
      · cases final with
        | none => simp [get_erase_of_ne _ (Ne.symm hother), hother]
        | some final => simp [get_set_of_ne _ _ (Ne.symm hother), hother]

theorem mem_replay_iff {records : List ε} {key : κ} {value : ν} :
    (key, value) ∈ replay change records ↔
      Since records (fun _ event => change event = some (key, some value))
        fun event => ∃ other, change event = some (key, other) := by
  rw [mem_iff_get (nodup_replay change records), get_replay_iff]

end

end Flowness.Library
