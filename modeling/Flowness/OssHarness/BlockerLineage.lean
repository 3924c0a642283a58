import Flowness.Library.Transition
import Flowness.OssHarness.AdmissionLedger
import Mathlib.Data.List.Zip

/-!
Blocker lineages. A lineage is recounted from the entries that name its fingerprint; recorded
lineages stay apart, an admitted card joins the recorded lineage it overlaps, and the lifetime
limits hold.
-/

namespace Flowness.OssHarness

open Library Dict

def onFingerprint (id : String) (entry : Entry) : Bool :=
  entry.blocker.any (fun blocker => blocker.fingerprintId == id)

def countedOn (id : String) (entries : List Entry) : List Entry :=
  entries.filter (onFingerprint id)

def originOf (id : String) (entries : List Entry) : Option EntryBlocker :=
  (countedOn id entries).head?.bind (fun entry => entry.blocker)

def spentOn (id : String) (entries : List Entry) : Usage :=
  let imported := ((originOf id entries).map EntryBlocker.importedUsage).getD ⟨0, 0, 0, 0⟩
  let intents := (countedOn id entries).map (fun entry => entry.changeIntent)
  { attempts := imported.attempts + intents.length
    codeChanges := imported.codeChanges + (intents.map ChangeIntent.codeChanges).sum
    deployments := imported.deployments + (intents.map ChangeIntent.deployments).sum
    metaReviews := imported.metaReviews + (intents.map ChangeIntent.metaReviews).sum }

def recount (id : String) (entries : List Entry) : Option Lineage :=
  (originOf id entries).map (fun origin => ⟨spentOn id entries, origin.components⟩)

structure WithinLifetime (limits : AttemptPolicy) (usage : Usage) : Prop where
  attempts : usage.attempts ≤ limits.targetedAttemptsPerFingerprintLifetimeMax
  codeChanges : usage.codeChanges ≤ limits.codeChangesPerFingerprintLifetimeMax
  deployments : usage.deployments ≤ limits.deploymentsPerFoundationLifetimeMax
  metaReviews : usage.metaReviews ≤ limits.metaReviewsPerFingerprintLifetimeMax

def Apart (fingerprints : Dict String Lineage) : Prop :=
  ∀ id other left right, fingerprints.get id = some left → fingerprints.get other = some right →
    id ≠ other → sharedComponents left.components right.components < 2

/-- A card that overlaps a fingerprint recorded before it is counted on that fingerprint. -/
def Joins (before : FoldState) (entry : Entry) : Prop :=
  ∀ blocker, entry.card.blocker = some blocker → ∀ id lineage,
    before.fingerprints.get id = some lineage →
    2 ≤ sharedComponents blocker.components lineage.components → onFingerprint id entry = true

section

variable {hashes : AdmissionHashes} {authority : Authority} {card : Card} {entries : List Entry}
  {state : FoldState} {blocker : Option EntryBlocker} {policy : Policy}
  {fingerprints : Dict String Lineage}

theorem countedOn_append (id : String) (entry : Entry) : countedOn id (entries ++ [entry]) =
    countedOn id entries ++ (if onFingerprint id entry then [entry] else []) := by
  unfold countedOn
  by_cases h : onFingerprint id entry <;> simp [h]

theorem recount_append_of_ne {id : String} (h : onFingerprint id entry = false) :
    recount id (entries ++ [entry]) = recount id entries := by
  have hcounted : countedOn id (entries ++ [entry]) = countedOn id entries := by
    rw [countedOn_append, h]
    simp
  unfold recount spentOn originOf
  rw [hcounted]

theorem recount_append_self {id : String} (hblocker : entry.blocker = some counted)
    (hid : counted.fingerprintId = id) : recount id (entries ++ [entry]) = some
      { usage := (((recount id entries).getD ⟨counted.importedUsage, counted.components⟩).usage).add
          entry.changeIntent
        components := ((recount id entries).getD
          ⟨counted.importedUsage, counted.components⟩).components } := by
  have hon : onFingerprint id entry = true := by simp [onFingerprint, hblocker, hid]
  have hcounted : countedOn id (entries ++ [entry]) = countedOn id entries ++ [entry] := by
    rw [countedOn_append, hon]
    rfl
  cases hfirst : countedOn id entries with
  | nil =>
    have horigin : originOf id (entries ++ [entry]) = some counted := by
      simp [originOf, hcounted, hfirst, hblocker]
    have hnone : recount id entries = none := by simp [recount, originOf, hfirst]
    have hspent : spentOn id (entries ++ [entry]) = counted.importedUsage.add entry.changeIntent := by
      simp [spentOn, horigin, hcounted, hfirst, Usage.add]
    rw [hnone]
    simp [recount, horigin, hspent]
  | cons first rest =>
    have hmem : first ∈ countedOn id entries := by simp [hfirst]
    obtain ⟨origin, horigin⟩ : ∃ origin, first.blocker = some origin := by
      have hany := (List.mem_filter.mp hmem).2
      cases hfirstBlocker : first.blocker with
      | none => simp [onFingerprint, hfirstBlocker] at hany
      | some origin => exact ⟨origin, rfl⟩
    have hbefore : originOf id entries = some origin := by simp [originOf, hfirst, horigin]
    have hafter : originOf id (entries ++ [entry]) = some origin := by
      simp [originOf, hcounted, hfirst, horigin]
    have hspent : spentOn id (entries ++ [entry]) =
        (spentOn id entries).add entry.changeIntent := by
      simp only [spentOn, hafter, hbefore, hcounted, Usage.add, List.map_append, List.map_cons,
        List.map_nil, List.length_append, List.length_singleton, List.sum_append, List.sum_singleton,
        Usage.mk.injEq]
      omega
    simp [recount, hbefore, hafter, hspent]

theorem foldEntry_fingerprints (h : foldEntry state entry = .ok after) :
    after.fingerprints = countBlocker state.fingerprints entry.changeIntent entry.blocker := by
  simp only [foldEntry, bind_ok] at h
  obtain ⟨waves, -, lanes, -, h⟩ := h
  cases h
  rfl

theorem fold_eq_recount (h : fold policy entries = .ok state) (id : String) :
    state.fingerprints.get id = recount id entries := by
  induction entries using List.reverseRecOn generalizing state with
  | nil =>
    cases h
    rfl
  | append_singleton entries entry ih =>
    obtain ⟨before, hbefore, hentry⟩ := fold_append_ok h
    rw [foldEntry_fingerprints hentry]
    cases hblocker : entry.blocker with
    | none =>
      rw [recount_append_of_ne (by simp [onFingerprint, hblocker])]
      exact ih hbefore
    | some counted =>
      by_cases hid : counted.fingerprintId = id
      · have hlineage : lineageOf before.fingerprints counted =
            (recount id entries).getD ⟨counted.importedUsage, counted.components⟩ := by
          rw [lineageOf, hid, ih hbefore]
        rw [recount_append_self hblocker hid, countBlocker, hlineage, hid, get_set_self]
      · have hne : id ≠ counted.fingerprintId := fun heq => hid heq.symm
        rw [recount_append_of_ne (by simp [onFingerprint, hblocker, hid]), countBlocker,
          get_set_of_ne _ _ hne]
        exact ih hbefore

theorem sharedComponents_comm (left right : Components) :
    sharedComponents left right = sharedComponents right left := by
  have hswap : right.values.zip left.values = (left.values.zip right.values).map Prod.swap :=
    (List.zip_swap left.values right.values).symm
  unfold sharedComponents
  rw [hswap, List.countP_map]
  congr 1
  funext pair
  exact BEq.comm

theorem mem_overlapsOf (hnodup : fingerprints.keys.Nodup) {id : String} :
    id ∈ overlapsOf fingerprints components ↔ ∃ lineage, fingerprints.get id = some lineage ∧
      2 ≤ sharedComponents components lineage.components := by
  simp only [overlapsOf, List.mem_map, List.mem_filter, decide_eq_true_eq]
  constructor
  · rintro ⟨⟨key, lineage⟩, ⟨hmem, hshared⟩, rfl⟩
    exact ⟨lineage, (mem_iff_get hnodup).mp hmem, hshared⟩
  · rintro ⟨lineage, hget, hshared⟩
    exact ⟨(id, lineage), ⟨(mem_iff_get hnodup).mpr hget, hshared⟩, rfl⟩

theorem resolveBlocker_ok (hcard : card.blocker = some carried)
    (h : resolveBlocker hashes card state = .ok blocker) :
    ∃ counted, blocker = some counted ∧ counted.components = carried.components ∧
      (overlapsOf state.fingerprints carried.components = [counted.fingerprintId] ∨
        overlapsOf state.fingerprints carried.components = []) := by
  simp only [resolveBlocker, hcard, bind_ok] at h
  obtain ⟨ownId, -, h⟩ := h
  split at h
  next hnone =>
    simp only [bind_ok] at h
    obtain ⟨imported, -, h⟩ := h
    cases h
    exact ⟨_, rfl, rfl, .inr hnone⟩
  next existingId hone =>
    cases h
    exact ⟨_, rfl, rfl, .inl hone⟩
  · cases h

theorem resolveBlocker_none (hcard : card.blocker = none)
    (h : resolveBlocker hashes card state = .ok blocker) : blocker = none := by
  simp only [resolveBlocker, hcard] at h
  exact (Except.ok.inj h).symm

theorem Reservation.joins (hnodup : state.fingerprints.keys.Nodup)
    (h : Reservation hashes authority card entries state blocker chargedWave) (now : String) :
    Joins state (newEntry hashes authority now card entries blocker chargedWave) := by
  intro carried hcarried id lineage hlineage hshared
  obtain ⟨counted, rfl, -, hone | hnone⟩ := resolveBlocker_ok hcarried h.resolved
  · have hmem := (mem_overlapsOf hnodup).mpr ⟨lineage, hlineage, hshared⟩
    rw [hone, List.mem_singleton] at hmem
    simp [onFingerprint, newEntry, sealEntry, hmem]
  · have hmem := (mem_overlapsOf hnodup).mpr ⟨lineage, hlineage, hshared⟩
    rw [hnone] at hmem
    exact absurd hmem List.not_mem_nil

theorem Reservation.apart (hnodup : state.fingerprints.keys.Nodup) (hapart : Apart state.fingerprints)
    (h : Reservation hashes authority card entries state blocker chargedWave) :
    Apart (countBlocker state.fingerprints card.changeIntent blocker) := by
  cases hcard : card.blocker with
  | none =>
    rw [resolveBlocker_none hcard h.resolved]
    exact hapart
  | some carried =>
    obtain ⟨counted, rfl, hcomponents, hoverlaps⟩ := resolveBlocker_ok hcard h.resolved
    -- what the fingerprint's lineage shares with the lineage of any other fingerprint
    have hself : ∀ other right, other ≠ counted.fingerprintId →
        state.fingerprints.get other = some right →
        sharedComponents (lineageOf state.fingerprints counted).components right.components < 2 := by
      intro other right hne hright
      cases hget : state.fingerprints.get counted.fingerprintId with
      | some left =>
        have hlineage : lineageOf state.fingerprints counted = left := by simp [lineageOf, hget]
        rw [hlineage]
        exact hapart _ _ _ _ hget hright (fun heq => hne heq.symm)
      | none =>
        have hlineage : (lineageOf state.fingerprints counted).components = carried.components := by
          simp [lineageOf, hget, hcomponents]
        rw [hlineage]
        by_contra hshared
        have hmem := (mem_overlapsOf hnodup).mpr ⟨right, hright, Nat.not_lt.mp hshared⟩
        obtain hone | hnone := hoverlaps
        · rw [hone, List.mem_singleton] at hmem
          exact hne hmem
        · rw [hnone] at hmem
          exact absurd hmem List.not_mem_nil
    intro id other left right hleft hright hne
    unfold countBlocker at hleft hright
    by_cases hid : id = counted.fingerprintId
    · subst hid
      rw [get_set_self] at hleft
      rw [get_set_of_ne _ _ (fun heq => hne heq.symm)] at hright
      cases hleft
      exact hself other right (fun heq => hne heq.symm) hright
    · rw [get_set_of_ne _ _ hid] at hleft
      by_cases hother : other = counted.fingerprintId
      · subst hother
        rw [get_set_self] at hright
        cases hright
        rw [sharedComponents_comm]
        exact hself id left hid hleft
      · rw [get_set_of_ne _ _ hother] at hright
        exact hapart _ _ _ _ hleft hright hne

theorem limitsAllow_ok (h : limitsAllow prior intent limits = .ok done) :
    WithinLifetime limits (prior.add intent) := by
  simp only [limitsAllow, bind_ok, require_ok, exists_const, decide_eq_true_eq] at h
  exact ⟨h.1, h.2.1, h.2.2.1, h.2.2.2⟩

theorem Reservation.withinLifetime
    (hwithin : ∀ id lineage, state.fingerprints.get id = some lineage →
      WithinLifetime authority.policy.attemptPolicy lineage.usage)
    (h : Reservation hashes authority card entries state blocker chargedWave) {id : String}
    (hget : (countBlocker state.fingerprints card.changeIntent blocker).get id = some lineage) :
    WithinLifetime authority.policy.attemptPolicy lineage.usage := by
  cases hblocker : blocker with
  | none =>
    rw [hblocker] at hget
    exact hwithin id lineage hget
  | some counted =>
    have hallowed := h.allowed
    rw [hblocker] at hget hallowed
    by_cases hid : id = counted.fingerprintId
    · subst hid
      rw [countBlocker, get_set_self] at hget
      cases hget
      exact limitsAllow_ok hallowed
    · rw [countBlocker, get_set_of_ne _ _ hid] at hget
      exact hwithin id lineage hget

structure LineagesSound (policy : Policy) (entries : List Entry) (state : FoldState) : Prop where
  folded : fold policy entries = .ok state
  nodup : state.fingerprints.keys.Nodup
  apart : Apart state.fingerprints
  within : ∀ id lineage, state.fingerprints.get id = some lineage →
    WithinLifetime policy.attemptPolicy lineage.usage
  joined : ∀ front entry back, entries = front ++ entry :: back →
    ∃ before, fold policy front = .ok before ∧ Joins before entry

theorem LineagesSound.admit (hsound : LineagesSound authority.policy entries state)
    (h : Reservation hashes authority card entries state blocker chargedWave) (now : String) :
    ∃ after, LineagesSound authority.policy
      (entries ++ [newEntry hashes authority now card entries blocker chargedWave]) after := by
  obtain ⟨after, hfold, hcharged⟩ := h.charged now
  have hfingerprints := hcharged.fingerprints
  refine ⟨after, hfold, ?_, ?_, ?_, ?_⟩
  · rw [hfingerprints]
    cases blocker with
    | none => exact hsound.nodup
    | some counted => exact nodup_keys_set hsound.nodup _ _
  · rw [hfingerprints]
    exact h.apart hsound.nodup hsound.apart
  · intro id lineage hget
    rw [hfingerprints] at hget
    exact h.withinLifetime hsound.within hget
  · intro front entry back hsplit
    obtain rfl | ⟨init, last, rfl⟩ := List.eq_nil_or_concat back
    · obtain ⟨rfl, hlast⟩ := List.append_inj' hsplit rfl
      cases hlast
      exact ⟨state, hsound.folded, h.joins hsound.nodup now⟩
    · have hshift : entries ++ [newEntry hashes authority now card entries blocker chargedWave] =
          (front ++ entry :: init) ++ [last] := by
        rw [hsplit]
        simp
      obtain ⟨hentries, -⟩ := List.append_inj' hshift rfl
      exact hsound.joined front entry init hentries

/-- In every ledger the recorded fingerprints share at most one component, every admitted card is
counted on the fingerprint recorded before it that it overlaps, and no lineage is over a limit. -/
theorem lineages_hold {calls : List AdmitCall}
    (h : Run (admitStep hashes authority) (fun _ _ => True) [] calls entries) :
    ∃ state, fold authority.policy entries = .ok state ∧ Apart state.fingerprints ∧
      (∀ front entry back, entries = front ++ entry :: back →
        ∃ before, fold authority.policy front = .ok before ∧ Joins before entry) ∧
      ∀ id, (state.fingerprints.get id).isSome →
        WithinLifetime authority.policy.attemptPolicy (spentOn id entries) := by
  have hrun : ∃ state, LineagesSound authority.policy entries state := by
    refine h.invariant (I := fun entries => ∃ state, LineagesSound authority.policy entries state)
      ⟨.initial authority.policy.budget, rfl, List.nodup_nil, ?_, ?_, ?_⟩ ?_
    · intro id other left right hleft
      cases hleft
    · intro id lineage hget
      cases hget
    · intro front entry back hsplit
      exact absurd hsplit.symm (by simp)
    · rintro entries call next ⟨state, hsound⟩ - hstep
      obtain rfl | ⟨entry, hentry, rfl⟩ := admitStep_cases hstep
      · exact ⟨state, hsound⟩
      · obtain ⟨found, blocker, wave, hreserved, rfl⟩ := admitWork_reserved hentry
        have hfound := hreserved.folded
        rw [hsound.folded] at hfound
        cases hfound
        exact hsound.admit hreserved call.now
  obtain ⟨state, hsound⟩ := hrun
  refine ⟨state, hsound.folded, hsound.apart, hsound.joined, fun id hrecorded => ?_⟩
  obtain ⟨lineage, hlineage⟩ := Option.isSome_iff_exists.mp hrecorded
  have hwithin := hsound.within id lineage hlineage
  rw [fold_eq_recount hsound.folded] at hlineage
  obtain ⟨origin, -, rfl⟩ := Option.map_eq_some_iff.mp hlineage
  exact hwithin

end

def countedWhereOverlapping (entries : List Entry) (state : FoldState) : Bool :=
  entries.all fun entry => entry.card.blocker.all fun blocker =>
    state.fingerprints.all fun recorded =>
      decide (sharedComponents blocker.components recorded.2.components < 2) ||
        onFingerprint recorded.1 entry

def adjudicatedCard (taskId : String) (components : Components) : Card :=
  { judgeCard taskId "truth" with
    blocker := some
      { components := components, componentEvidence := none
        degradedPathImpossibleEvidence := [sampleRef], historicalLedgerImport := none
        newFingerprintAdjudication := some ⟨"owner", sampleRef⟩ } }

def driftingCalls : List AdmitCall :=
  [⟨"now", enablementCard "foundation" sampleComponents ⟨0, 0, 0, 0⟩⟩,
    ⟨"now", adjudicatedCard "renamed" ⟨"timeout", "consumer", "E2", "exit"⟩⟩,
    ⟨"now", adjudicatedCard "moved" ⟨"deadlock", "publisher", "E2", "exit"⟩⟩]

theorem driftingLedger_lineages :
    ∃ state, fold programPolicy (ledgerAfter driftingCalls) = .ok state ∧
      Apart state.fingerprints ∧
      (∀ front entry back, ledgerAfter driftingCalls = front ++ entry :: back →
        ∃ before, fold programPolicy front = .ok before ∧ Joins before entry) ∧
      ∀ id, (state.fingerprints.get id).isSome →
        WithinLifetime programPolicy.attemptPolicy (spentOn id (ledgerAfter driftingCalls)) := by
  have hrun : Run (admitStep sampleHashes sampleAuthority) (fun _ _ => True) [] driftingCalls
      (ledgerAfter driftingCalls) := Run.of_steps (by decide +kernel)
  exact lineages_hold hrun

/-- The card in the middle overlaps the later lineage and counts on the earlier one. -/
theorem later_lineage_misses_card :
    (fold programPolicy (ledgerAfter driftingCalls)).toOption.map
      (fun state => (state.fingerprints.length,
        countedWhereOverlapping (ledgerAfter driftingCalls) state)) = some (2, false) := rfl

end Flowness.OssHarness
