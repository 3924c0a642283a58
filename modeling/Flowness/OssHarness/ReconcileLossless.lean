import Flowness.OssHarness.MergeDuplicates
import Flowness.OssHarness.Reconciliation

/-!
What a reconciliation that reports "reconciled" has kept of its results, and when its registries have no
id twice.
-/

namespace Flowness.OssHarness.Reconciliation

open List Library Dict

variable {env : ReconcileEnv} {result : ProducerResult} {state : ReconcileState}

/-! ### Evidence without a blocker -/

def normalizedOf (env : ReconcileEnv) (result : ProducerResult) (item : Evidence) :
    List NormalizedEvidence :=
  (normalizeEvidence env.toSourceEnv result.roleId (declaredSnapshots env result) item).toOption.getD []

def Readable (env : ReconcileEnv) (result : ProducerResult) (items : List Evidence) : Prop :=
  ∀ item ∈ items, ∃ normalized,
    normalizeEvidence env.toSourceEnv result.roleId (declaredSnapshots env result) item = .ok normalized

theorem cites_normalizedOf (h : Readable env result items) {item : Evidence} (hitem :
  item ∈ items) : Cites result.roleId item (normalizedOf env result item) := by
  obtain ⟨normalized, hok⟩ := h item hitem
  have hsettled : Settled result.roleId item (normalizeEvidence env.toSourceEnv result.roleId
    (declaredSnapshots env result) item) := normalizeEvidence_settled
  rw [hok] at hsettled
  rw [normalizedOf, hok]
  exact hsettled

def Extends (old new : Dict (String × String) NormalizedEvidence) : Prop :=
  ∀ key item, old.get key = some item → new.get key = some item

theorem Extends.refl (old : Dict (String × String) NormalizedEvidence) : Extends old old :=
  fun _ _ => id

theorem Extends.trans (h : Extends old middle) (h' : Extends middle new) : Extends old new :=
  fun key item hget => h' key item (h key item hget)

theorem block_clean (h : (state.block blockers).blockers = []) :
    state.blockers = [] ∧ blockers = [] ∧ state.block blockers = state := by
  obtain ⟨hstate, hblockers⟩ := append_eq_nil_iff.mp h
  subst hblockers
  refine ⟨hstate, rfl, ?_⟩
  rw [ReconcileState.block, append_nil]

variable {results : List ProducerResult} {files : List ResultFile} {item : NormalizedEvidence}
  {next : ReconcileState}

theorem noteDefinition_clean
    (h : (noteDefinition result.roleId objectId progress item).1.blockers = []) :
    progress.1.blockers = [] ∧ ∃ definitions,
      noteDefinition result.roleId objectId progress item =
        ({ progress.1 with evidenceDefinitions := definitions }, progress.2 ++ [item]) ∧
      Extends progress.1.evidenceDefinitions definitions ∧
      definitions.get (result.roleId, item.evidenceId) = some item := by
  have hextends (hprevious : ∀ previous, progress.1.evidenceDefinitions.get
      (result.roleId, item.evidenceId) = some previous → previous = item) :
      Extends progress.1.evidenceDefinitions
        (progress.1.evidenceDefinitions.set (result.roleId, item.evidenceId) item) := by
    intro key found hget
    by_cases hkey : key = (result.roleId, item.evidenceId)
    · subst hkey
      rw [get_set_self, hprevious found hget]
    · rw [get_set_of_ne _ _ hkey, hget]
  unfold noteDefinition at h ⊢
  split at h
  case h_1 previous hget =>
    split at h
    case isTrue hsame =>
      rw [if_pos hsame]
      exact ⟨h, _, rfl, hextends fun other hother =>
        (Option.some.inj (hother.symm.trans hget)).trans hsame, get_set_self _ _ _⟩
    case isFalse => cases (block_clean h).2.1
  case h_2 hnone =>
    exact ⟨h, _, rfl, hextends fun other hother => absurd (hother.symm.trans hnone) (by simp),
      get_set_self _ _ _⟩

theorem noteDefinitions_clean : ∀ {progress : ReconcileState × List NormalizedEvidence},
    (items.foldl (noteDefinition result.roleId objectId) progress).1.blockers = [] →
    progress.1.blockers = [] ∧ ∃ definitions,
      items.foldl (noteDefinition result.roleId objectId) progress =
        ({ progress.1 with evidenceDefinitions := definitions }, progress.2 ++ items) ∧
      Extends progress.1.evidenceDefinitions definitions ∧
      ∀ item ∈ items, definitions.get (result.roleId, item.evidenceId) = some item := by
  induction items with
  | nil =>
    intro progress h
    exact ⟨h, progress.1.evidenceDefinitions, by rw [append_nil]; rfl, .refl _,
      fun _ hitem => absurd hitem not_mem_nil⟩
  | cons item items ih =>
    intro progress h
    obtain ⟨hclean, definitions, hfold, hextends, hnoted⟩ := ih h
    obtain ⟨hfirst, _, hstep, hextends', hitem⟩ := noteDefinition_clean hclean
    rw [hstep] at hextends
    refine ⟨hfirst, definitions, ?_, hextends'.trans hextends, forall_mem_cons.mpr
      ⟨hextends _ _ hitem, hnoted⟩⟩
    rw [foldl_cons, hfold, hstep, append_assoc, singleton_append]

theorem cleanItem_clean {item : Evidence} (h : (cleanItem env result progress item).1.blockers =
  []) : progress.1.blockers = [] ∧ Readable env result [item] ∧ ∃ definitions,
      cleanItem env result progress item =
        ({ progress.1 with evidenceDefinitions := definitions },
          progress.2 ++ normalizedOf env result item) ∧
      Extends progress.1.evidenceDefinitions definitions ∧
      ∀ normalized ∈ normalizedOf env result item,
        definitions.get (result.roleId, normalized.evidenceId) = some normalized := by
  have hsettled : Settled result.roleId item (normalizeEvidence env.toSourceEnv result.roleId
    (declaredSnapshots env result) item) := normalizeEvidence_settled
  unfold cleanItem at h ⊢
  unfold normalizedOf
  split at h
  case h_1 blockers hblockers =>
    rw [hblockers] at hsettled
    exact absurd (block_clean h).2.1 hsettled
  case h_2 items hitems =>
    obtain ⟨hclean, hdefinitions⟩ := noteDefinitions_clean h
    rw [hitems]
    exact ⟨hclean, forall_mem_singleton.mpr ⟨items, hitems⟩, hdefinitions⟩

/-- A state that differs in the evidence that is noted, and has noted that of some items. -/
structure Cleaned (env : ReconcileEnv) (result : ProducerResult) (state : ReconcileState)
    (items : List Evidence) (next : ReconcileState) : Prop where
  clean : state.blockers = []
  readable : Readable env result items
  same : next = { state with evidenceDefinitions := next.evidenceDefinitions }
  growth : Extends state.evidenceDefinitions next.evidenceDefinitions
  noted : ∀ normalized ∈ items.flatMap (normalizedOf env result),
    next.evidenceDefinitions.get (result.roleId, normalized.evidenceId) = some normalized

theorem cleanItems_clean : ∀ {progress : ReconcileState × List NormalizedEvidence},
    (items.foldl (cleanItem env result) progress).1.blockers = [] →
    Cleaned env result progress.1 items (items.foldl (cleanItem env result) progress).1 ∧
    (items.foldl (cleanItem env result) progress).2 =
      progress.2 ++ items.flatMap (normalizedOf env result) := by
  induction items with
  | nil =>
    intro progress h
    exact ⟨⟨h, fun _ hitem => absurd hitem not_mem_nil, rfl, .refl _,
      fun _ hitem => absurd hitem not_mem_nil⟩, (append_nil _).symm⟩
  | cons item items ih =>
    intro progress h
    obtain ⟨hrest, hitems⟩ := ih h
    obtain ⟨hfirst, hreadable, definitions, hstep, hextends, hnoted⟩ := cleanItem_clean hrest.clean
    rw [foldl_cons]
    have hgrowth := hrest.growth
    have hsame := hrest.same
    rw [hstep] at hgrowth hsame hitems ⊢
    refine ⟨⟨hfirst, forall_mem_cons.mpr
      ⟨hreadable item (mem_singleton_self _), hrest.readable⟩, hsame, hextends.trans hgrowth, ?_⟩, ?_⟩
    · intro normalized hmem
      rcases mem_append.mp hmem with hnew | hold
      · exact hgrowth _ _ (hnoted normalized hnew)
      · have hget := hrest.noted normalized hold
        rwa [hstep] at hget
    · rw [hitems, flatMap_cons, append_assoc]

theorem cleanEvidenceList_clean (h : (cleanEvidenceList env result state items).1.blockers = []) :
    Cleaned env result state items (cleanEvidenceList env result state items).1 ∧
    (cleanEvidenceList env result state items).2 = items.flatMap (normalizedOf env result) :=
  cleanItems_clean h

/-! ### Mechanisms -/

/-- An item that has been noted under its role and id, and whose id names its role. -/
structure Noted (definitions : Dict (String × String) NormalizedEvidence) (item : NormalizedEvidence) :
    Prop where
  noted : definitions.get (item.sourceRoleId, item.evidenceId) = some item
  named : ∃ rest, item.evidenceId = namespacedId item.sourceRoleId rest
  safe : ':' ∉ item.sourceRoleId.toList

theorem Noted.unique (h : Noted definitions item) (h' : Noted definitions other)
    (hid : item.evidenceId = other.evidenceId) : item = other := by
  obtain ⟨rest, hrest⟩ := h.named
  obtain ⟨rest', hrest'⟩ := h'.named
  have hprefixed : prefixedId item.sourceRoleId rest = prefixedId other.sourceRoleId rest' :=
    hrest.symm.trans (hid.trans hrest')
  obtain ⟨hrole, -⟩ := prefixedId_inj h.safe h'.safe hprefixed
  have hget := h.noted
  rw [hrole, hid, h'.noted] at hget
  exact (Option.some.inj hget).symm

theorem Cleaned.of_mem (h : Cleaned env result state items next)
    (hsafe : ':' ∉ result.roleId.toList)
    (hmem : normalized ∈ items.flatMap (normalizedOf env result)) :
    Noted next.evidenceDefinitions normalized := by
  obtain ⟨item, hitem, hnormalized⟩ := mem_flatMap.mp hmem
  obtain ⟨hrole, -, hnamed⟩ := (cites_normalizedOf h.readable hitem).2 normalized hnormalized
  exact ⟨hrole ▸ h.noted normalized hmem, hrole ▸ hnamed, hrole ▸ hsafe⟩

/-- A reconciled mechanism has all that a mechanism of a result says of it. -/
structure Carries (env : ReconcileEnv) (result : ProducerResult) (mechanism : Mechanism)
    (merged : ReconciledMechanism) : Prop where
  definition : merged.rest = mechanism.rest ∨ merged.rest.same env.value mechanism.rest
  knownDrift : ∀ reference ∈ mechanism.knownDrift,
    normalizedDrift result reference ∈ merged.knownDrift
  evidence : ∀ item ∈ mechanism.evidence, normalizedOf env result item ≠ [] ∧
    ∀ normalized ∈ normalizedOf env result item, normalized ∈ merged.evidence
  sourceRoles : result.roleId ∈ merged.sourceRoles

structure Folded (env : ReconcileEnv) (entries : List (ProducerResult × Mechanism))
    (state : ReconcileState) : Prop where
  nodup : (Dict.keys state.mechanisms).Nodup
  named : ∀ id merged, state.mechanisms.get id = some merged → merged.mechanismId = id
  noted : ∀ id merged, state.mechanisms.get id = some merged →
    ∀ item ∈ merged.evidence, Noted state.evidenceDefinitions item
  carries : ∀ entry ∈ entries, ∃ merged,
    state.mechanisms.get entry.2.mechanismId = some merged ∧ Carries env entry.1 entry.2 merged

theorem Folded.of_growth (h : Folded env entries state)
    (hmechanisms : next.mechanisms = state.mechanisms)
    (hgrowth : Extends state.evidenceDefinitions next.evidenceDefinitions) :
    Folded env entries next where
  nodup := hmechanisms ▸ h.nodup
  named := hmechanisms ▸ h.named
  noted := by
    rw [hmechanisms]
    intro id merged hget item hitem
    obtain ⟨hnoted, hnamed, hsafe⟩ := h.noted id merged hget item hitem
    exact ⟨hgrowth _ _ hnoted, hnamed, hsafe⟩
  carries := hmechanisms ▸ h.carries

theorem Carries.grow {mechanism : Mechanism} (h : Carries env result mechanism merged)
    (roleId : String) (evidence : List NormalizedEvidence) (knownDrift : List String) :
    Carries env result mechanism
      { merged with
        sourceRoles := merged.sourceRoles ++ [roleId]
        evidence := merged.evidence ++ evidence
        knownDrift := merged.knownDrift ++ knownDrift } where
  definition := h.definition
  knownDrift reference hreference := mem_append_left _ (h.knownDrift reference hreference)
  evidence item hitem := ⟨(h.evidence item hitem).1, fun normalized hmem =>
    mem_append_left _ ((h.evidence item hitem).2 normalized hmem)⟩
  sourceRoles := mem_append_left _ h.sourceRoles

theorem Folded.snoc (h : Folded env entries state) {mechanism : Mechanism}
    {evidence : List NormalizedEvidence}
    (hevidence : evidence = mechanism.evidence.flatMap (normalizedOf env result))
    (hreadable : Readable env result mechanism.evidence)
    (hnoted : ∀ item ∈ evidence, Noted state.evidenceDefinitions item)
    (hclean : (foldMechanism env result.roleId state mechanism
      (mechanism.knownDrift.map (normalizedDrift result)) evidence).blockers = []) :
    Folded env (entries ++ [(result, mechanism)]) (foldMechanism env result.roleId state mechanism
      (mechanism.knownDrift.map (normalizedDrift result)) evidence) ∧
    state.blockers = [] := by
  have hcites (item : Evidence) (hitem : item ∈ mechanism.evidence) :
      normalizedOf env result item ≠ [] ∧
        ∀ normalized ∈ normalizedOf env result item, normalized ∈ evidence :=
    ⟨(cites_normalizedOf hreadable hitem).1, fun normalized hmem =>
      hevidence ▸ mem_flatMap.mpr ⟨item, hitem, hmem⟩⟩
  unfold foldMechanism at hclean ⊢
  cases hget : state.mechanisms.get mechanism.mechanismId with
  | none =>
    rw [hget] at hclean
    refine ⟨⟨nodup_keys_set h.nodup _ _, fun id merged hmerged => ?_,
      fun id merged hmerged => ?_, fun other hother => ?_⟩, hclean⟩
    · by_cases hid : id = mechanism.mechanismId
      · subst hid
        cases (get_set_self _ _ _).symm.trans hmerged
        rfl
      · exact h.named id merged ((get_set_of_ne _ _ hid).symm.trans hmerged)
    · by_cases hid : id = mechanism.mechanismId
      · subst hid
        cases (get_set_self _ _ _).symm.trans hmerged
        exact hnoted
      · exact h.noted id merged ((get_set_of_ne _ _ hid).symm.trans hmerged)
    · rcases mem_append.mp hother with hold | hnew
      · obtain ⟨merged, hmerged, hcarries⟩ := h.carries other hold
        have hid : other.2.mechanismId ≠ mechanism.mechanismId := fun heq => by
          rw [heq, hget] at hmerged
          cases hmerged
        exact ⟨merged, (get_set_of_ne _ _ hid).trans hmerged, hcarries⟩
      · obtain rfl := mem_singleton.mp hnew
        exact ⟨_, get_set_self _ _ _, .inl rfl, fun _ => mem_map_of_mem, hcites,
          mem_singleton_self _⟩
  | some existing =>
    rw [hget] at hclean
    dsimp only at hclean ⊢
    split at hclean
    case isFalse => cases (block_clean hclean).2.1
    case isTrue hsame =>
      rw [if_pos hsame]
      refine ⟨⟨nodup_keys_set h.nodup _ _, fun id merged hmerged => ?_,
        fun id merged hmerged => ?_, fun other hother => ?_⟩, hclean⟩
      · by_cases hid : id = mechanism.mechanismId
        · subst hid
          cases (get_set_self _ _ _).symm.trans hmerged
          exact h.named _ existing hget
        · exact h.named id merged ((get_set_of_ne _ _ hid).symm.trans hmerged)
      · by_cases hid : id = mechanism.mechanismId
        · subst hid
          cases (get_set_self _ _ _).symm.trans hmerged
          exact forall_mem_append.mpr ⟨h.noted _ existing hget, hnoted⟩
        · exact h.noted id merged ((get_set_of_ne _ _ hid).symm.trans hmerged)
      · rcases mem_append.mp hother with hold | hnew
        · obtain ⟨merged, hmerged, hcarries⟩ := h.carries other hold
          by_cases hid : other.2.mechanismId = mechanism.mechanismId
          · rw [hid, hget] at hmerged
            cases hmerged
            rw [hid]
            exact ⟨_, get_set_self _ _ _, hcarries.grow _ _ _⟩
          · exact ⟨merged, (get_set_of_ne _ _ hid).trans hmerged, hcarries⟩
        · obtain rfl := mem_singleton.mp hnew
          refine ⟨_, get_set_self _ _ _, .inr hsame, fun reference hreference => ?_,
            fun item hitem => ⟨(hcites item hitem).1, fun normalized hmem =>
              mem_append_right _ ((hcites item hitem).2 normalized hmem)⟩,
            mem_append_right _ (mem_singleton_self _)⟩
          exact mem_append_right _ (mem_map_of_mem hreference)

/-! ### Records without a blocker -/

section

variable {roleId : String} {mechanism : Mechanism} {knownDrift : List String}
    {evidence : List NormalizedEvidence}

theorem foldMechanism_clean
    (h : (foldMechanism env roleId state mechanism knownDrift evidence).blockers = []) :
    state.blockers = [] := by
  unfold foldMechanism at h
  split at h
  case h_1 => exact h
  case h_2 =>
    split at h
    case isTrue => exact h
    case isFalse => exact (block_clean h).1

theorem foldMechanism_findings :
    (foldMechanism env roleId state mechanism knownDrift evidence).unknowns = state.unknowns ∧
    (foldMechanism env roleId state mechanism knownDrift evidence).driftFindings =
      state.driftFindings := by
  unfold foldMechanism
  split
  case h_1 => exact ⟨rfl, rfl⟩
  case h_2 => split <;> exact ⟨rfl, rfl⟩

end

/-- A step that read the evidence of some records of a result, from a state without a blocker. -/
structure Step (env : ReconcileEnv) (result : ProducerResult) (evidence : List (List Evidence))
    (mechanisms : List Mechanism) (unknowns : List ReconciledUnknown) (drift : List ReconciledDrift)
    (state next : ReconcileState) : Prop where
  clean : state.blockers = []
  readable : ∀ items ∈ evidence, Readable env result items
  folded : ∀ entries, Folded env entries state →
    Folded env (entries ++ mechanisms.map fun mechanism => (result, mechanism)) next
  unknowns : next.unknowns = state.unknowns ++ unknowns
  driftFindings : next.driftFindings = state.driftFindings ++ drift

theorem Step.trans {evidence evidence' : List (List Evidence)}
    {unknowns unknowns' : List ReconciledUnknown} {drift drift' : List ReconciledDrift}
    {middle : ReconcileState} (h : Step env result evidence mechanisms unknowns drift state middle)
    (h' : Step env result evidence' mechanisms' unknowns' drift' middle next) :
    Step env result (evidence ++ evidence') (mechanisms ++ mechanisms') (unknowns ++ unknowns')
      (drift ++ drift') state next where
  clean := h.clean
  readable := forall_mem_append.mpr ⟨h.readable, h'.readable⟩
  folded entries hentries := by
    have hfolded := h'.folded _ (h.folded entries hentries)
    rwa [append_assoc, ← map_append] at hfolded
  unknowns := by rw [h'.unknowns, h.unknowns, append_assoc]
  driftFindings := by rw [h'.driftFindings, h.driftFindings, append_assoc]

theorem Step.refl (h : state.blockers = []) : Step env result [] [] [] [] state state where
  clean := h
  readable _ hitems := absurd hitems not_mem_nil
  folded entries hentries := by rwa [map_nil, append_nil]
  unknowns := (append_nil _).symm
  driftFindings := (append_nil _).symm

theorem foldl_steps {α : Type} {step : ReconcileState → α → ReconcileState}
    {evidence : α → List Evidence} {mechanisms : α → List Mechanism}
    {unknowns : α → List ReconciledUnknown} {drift : α → List ReconciledDrift}
    (hstep : ∀ state item, (step state item).blockers = [] → Step env result [evidence item]
      (mechanisms item) (unknowns item) (drift item) state (step state item))
    {items : List α} : ∀ {state : ReconcileState}, (items.foldl step state).blockers = [] →
      Step env result (items.map evidence) (items.flatMap mechanisms) (items.flatMap unknowns)
        (items.flatMap drift) state (items.foldl step state) := by
  induction items with
  | nil => exact fun h => .refl h
  | cons item items ih =>
    intro state h
    have hrest := ih h
    exact (hstep state item hrest.clean).trans hrest

theorem addMechanism_step (hsafe : ':' ∉ result.roleId.toList) (state : ReconcileState)
    (mechanism : Mechanism) (h : (addMechanism env result state mechanism).blockers = []) :
    Step env result [mechanism.evidence] [mechanism] [] [] state
      (addMechanism env result state mechanism) := by
  unfold addMechanism at h ⊢
  dsimp only at h ⊢
  obtain ⟨hcleaned, -, hblock⟩ := block_clean (foldMechanism_clean h)
  obtain ⟨hevidence, hitems⟩ := cleanEvidenceList_clean hcleaned
  rw [hblock] at h ⊢
  have hsame := hevidence.same
  have hfindings := @foldMechanism_findings env (cleanEvidenceList env result state
    mechanism.evidence).1 result.roleId mechanism (mechanism.knownDrift.map (normalizedDrift result))
    (cleanEvidenceList env result state mechanism.evidence).2
  refine ⟨hevidence.clean, forall_mem_singleton.mpr hevidence.readable,
    fun entries hentries => ?_, ?_, ?_⟩
  · have hmiddle := hentries.of_growth (by rw [hsame]) hevidence.growth
    exact (hmiddle.snoc hitems hevidence.readable
      (fun item hitem => hevidence.of_mem hsafe (hitems ▸ hitem)) h).1
  · rw [hfindings.1, hsame, append_nil]
  · rw [hfindings.2, hsame, append_nil]

def reconciledUnknown (env : ReconcileEnv) (result : ProducerResult) (unknown : Unknown) :
    ReconciledUnknown :=
  ⟨namespacedId result.roleId unknown.unknownId, unknown.unknownId, result.roleId,
    (normalizeSoftLocator env result.roleId unknown.locator).1,
    unknown.evidence.flatMap (normalizedOf env result), unknown.rest⟩

def reconciledDrift (env : ReconcileEnv) (result : ProducerResult) (finding : Drift) :
    ReconciledDrift :=
  ⟨namespacedId result.roleId finding.driftId, finding.driftId, result.roleId,
    finding.sourceLocators.map fun locator => (normalizeSoftLocator env result.roleId locator).1,
    finding.evidence.flatMap (normalizedOf env result), finding.rest⟩

theorem addUnknown_step (state : ReconcileState) (unknown : Unknown)
    (h : (addUnknown env result state unknown).blockers = []) :
    Step env result [unknown.evidence] [] [reconciledUnknown env result unknown] [] state
      (addUnknown env result state unknown) := by
  unfold addUnknown at h ⊢
  dsimp only at h ⊢
  obtain ⟨hcleaned, -, hblock⟩ := block_clean h
  obtain ⟨hevidence, hitems⟩ := cleanEvidenceList_clean hcleaned
  rw [hblock, hitems]
  have hsame := hevidence.same
  refine ⟨hevidence.clean, forall_mem_singleton.mpr hevidence.readable,
    fun entries hentries => ?_, ?_, ?_⟩
  · rw [map_nil, append_nil]
    exact hentries.of_growth (by rw [hsame]) hevidence.growth
  · rw [hsame]
    rfl
  · rw [hsame, append_nil]

theorem addDrift_step (state : ReconcileState) (finding : Drift)
    (h : (addDrift env result state finding).blockers = []) :
    Step env result [finding.evidence] [] [] [reconciledDrift env result finding] state
      (addDrift env result state finding) := by
  unfold addDrift at h ⊢
  dsimp only at h ⊢
  obtain ⟨hcleaned, -, hblock⟩ := block_clean h
  obtain ⟨hevidence, hitems⟩ := cleanEvidenceList_clean hcleaned
  rw [hblock, hitems]
  have hsame := hevidence.same
  refine ⟨hevidence.clean, forall_mem_singleton.mpr hevidence.readable,
    fun entries hentries => ?_, ?_, ?_⟩
  · rw [map_nil, append_nil]
    exact hentries.of_growth (by rw [hsame]) hevidence.growth
  · rw [hsame, append_nil]
  · rw [hsame, map_map]
    rfl

/-! ### Results -/

def recordEvidence (result : ProducerResult) : List (List Evidence) :=
  result.mechanisms.map Mechanism.evidence ++ result.unknowns.map Unknown.evidence ++
    result.driftFindings.map Drift.evidence

theorem reconcileResult_step (hsafe : ':' ∉ result.roleId.toList)
    (h : (reconcileResult env state result).blockers = []) :
    Step env result (recordEvidence result) result.mechanisms
      (result.unknowns.map (reconciledUnknown env result))
      (result.driftFindings.map (reconciledDrift env result)) state
      (reconcileResult env state result) := by
  unfold reconcileResult at h ⊢
  dsimp only at h ⊢
  have hdrift := foldl_steps addDrift_step h
  have hunknowns := foldl_steps addUnknown_step hdrift.clean
  have hmechanisms := foldl_steps (addMechanism_step hsafe) hunknowns.clean
  obtain ⟨hclean, -, hblock⟩ := block_clean hmechanisms.clean
  have hstep := (hmechanisms.trans hunknowns).trans hdrift
  have hnil {α β : Type} (items : List α) : items.flatMap (fun _ => ([] : List β)) = [] :=
    flatMap_eq_nil_iff.mpr fun _ _ => rfl
  rw [hblock] at hstep ⊢
  rw [recordEvidence]
  simpa only [hnil, ← map_eq_flatMap, append_nil, nil_append, map_id'] using hstep

structure Reconciled (env : ReconcileEnv) (results : List ProducerResult) (state : ReconcileState) :
    Prop where
  readable : ∀ result ∈ results, ∀ items ∈ recordEvidence result, Readable env result items
  folded : Folded env
    (results.flatMap fun result => result.mechanisms.map fun mechanism => (result, mechanism)) state
  unknowns : state.unknowns =
    results.flatMap fun result => result.unknowns.map (reconciledUnknown env result)
  driftFindings : state.driftFindings =
    results.flatMap fun result => result.driftFindings.map (reconciledDrift env result)

theorem reconcileResults_clean : ∀ {state : ReconcileState},
    (∀ result ∈ results, ':' ∉ result.roleId.toList) →
    (results.foldl (reconcileResult env) state).blockers = [] →
    state.blockers = [] ∧ ∀ before, Reconciled env before state →
      Reconciled env (before ++ results) (results.foldl (reconcileResult env) state) := by
  induction results with
  | nil =>
    intro state _ h
    simp only [append_nil]
    exact ⟨h, fun _ => id⟩
  | cons result results ih =>
    intro state hsafe h
    obtain ⟨hfirst, hsafe⟩ := forall_mem_cons.mp hsafe
    obtain ⟨hclean, hrest⟩ := ih hsafe h
    have hstep := reconcileResult_step hfirst hclean
    refine ⟨hstep.clean, fun before hbefore => ?_⟩
    have hnext : Reconciled env (before ++ [result]) (reconcileResult env state result) := by
      refine ⟨forall_mem_append.mpr ⟨hbefore.readable, forall_mem_singleton.mpr
        hstep.readable⟩, ?_, ?_, ?_⟩
      · rw [flatMap_append, flatMap_singleton]
        exact hstep.folded _ hbefore.folded
      · rw [hstep.unknowns, hbefore.unknowns, flatMap_append, flatMap_singleton]
      · rw [hstep.driftFindings, hbefore.driftFindings, flatMap_append, flatMap_singleton]
    have hall := hrest _ hnext
    rwa [append_assoc, singleton_append] at hall

/-! ### Admission -/

/-- A result path that is admitted, if no other is of its role. -/
structure Admits (env : ReconcileEnv) (file : ResultFile) (result : ProducerResult) : Prop where
  payload : file.payload = some result
  sealed : env.seals result.roleId = true
  path : file.grandparentName ≠ "producers" ∨ file.parentName = result.roleId

theorem admitResult_ok {admitted next : List ProducerResult} :
    admitResult env admitted file = .ok next ↔ ∃ result, Admits env file result ∧
      result.roleId ∉ admitted.map (·.roleId) ∧ next = admitted ++ [result] := by
  unfold admitResult
  split
  case h_1 hnone =>
    simp only [reduceCtorEq, false_iff]
    rintro ⟨result, hadmits, -⟩
    exact absurd (hadmits.payload.symm.trans hnone) (by simp)
  case h_2 result hresult =>
    simp only [bind_ok, require_ok, exists_const, Except.ok.injEq, decide_eq_true_eq, Bool.or_eq_true]
    constructor
    · rintro ⟨hsealed, hfresh, hpath, rfl⟩
      exact ⟨result, ⟨hresult, hsealed, hpath⟩, hfresh, rfl⟩
    · rintro ⟨other, ⟨hpayload, hsealed, hpath⟩, hfresh, rfl⟩
      cases hpayload.symm.trans hresult
      exact ⟨hsealed, hfresh, hpath, rfl⟩

theorem admitResults_ok : ∀ {before admitted : List ProducerResult},
    (before.map (·.roleId)).Nodup →
    (files.foldlM (admitResult env) before = .ok admitted ↔
      ∃ results, List.Forall₂ (Admits env) files results ∧ admitted = before ++ results ∧
        (admitted.map (·.roleId)).Nodup) := by
  induction files with
  | nil =>
    intro before admitted hnodup
    simp only [foldlM_nil, pure, Except.pure, Except.ok.injEq, forall₂_nil_left_iff,
      exists_eq_left, append_nil]
    constructor
    · rintro rfl
      exact ⟨rfl, hnodup⟩
    · exact fun h => h.1.symm
  | cons file files ih =>
    intro before admitted hnodup
    simp only [foldlM_cons, bind_ok, admitResult_ok, forall₂_cons_left_iff]
    have hsnoc {result : ProducerResult} (hfresh : result.roleId ∉ before.map (·.roleId)) :
        ((before ++ [result]).map (·.roleId)).Nodup := by
      rw [map_append, map_singleton, ← concat_eq_append]
      exact hnodup.concat hfresh
    constructor
    · rintro ⟨_, ⟨result, hadmits, hfresh, rfl⟩, hrest⟩
      obtain ⟨results, hresults, rfl, hall⟩ := (ih (hsnoc hfresh)).mp hrest
      exact ⟨result :: results, ⟨result, results, hadmits, hresults, rfl⟩, by
        rw [append_assoc, singleton_append], hall⟩
    · rintro ⟨_, ⟨result, results, hadmits, hresults, rfl⟩, rfl, hall⟩
      have hfresh : result.roleId ∉ before.map (·.roleId) := by
        rw [map_append, map_cons] at hall
        exact fun hmem => disjoint_of_nodup_append hall hmem mem_cons_self
      refine ⟨_, ⟨result, hadmits, hfresh, rfl⟩, (ih (hsnoc hfresh)).mpr ⟨results, hresults, ?_, hall⟩⟩
      rw [append_assoc, singleton_append]

def orderedResults (results : List ProducerResult) : List ProducerResult :=
  results.insertionSort fun a b => a.roleId ≤ b.roleId

theorem reconcileExcavation_ok : reconcileExcavation env existing files = .ok report ↔
      files ≠ [] ∧ existing = [] ∧ ∃ results, List.Forall₂ (Admits env) files results ∧
        (results.map (·.roleId)).Nodup ∧
        finishReconcile env (orderedResults results)
          ((orderedResults results).foldl (reconcileResult env) (.initial env)) = report := by
  have hadmit (admitted : List ProducerResult) :=
    @admitResults_ok env files [] admitted nodup_nil
  simp only [reconcileExcavation, bind_ok, require_ok, exists_const, Bool.not_eq_true',
    isEmpty_eq_false_iff, List.isEmpty_iff, Except.ok.injEq, hadmit, nil_append,
    orderedResults]
  constructor
  · rintro ⟨hfiles, hexisting, results, ⟨_, hresults, rfl, hnodup⟩, hreport⟩
    exact ⟨hfiles, hexisting, results, hresults, hnodup, hreport⟩
  · rintro ⟨hfiles, hexisting, results, hresults, hnodup, hreport⟩
    exact ⟨hfiles, hexisting, results, ⟨results, hresults, rfl, hnodup⟩, hreport⟩

/-! ### What the registries have -/

theorem mem_deduplicateEvidence
    (hunique : ∀ item ∈ items, ∀ other ∈ items, item.evidenceId = other.evidenceId → item = other)
    (hitem : item ∈ items) : item ∈ deduplicateEvidence items := by
  have hcollect : ∀ item ∈ items, Dict.get
      (items.foldl (fun (byId : Dict String NormalizedEvidence) item => byId.set item.evidenceId item)
        []) item.evidenceId = some item := by
    clear hitem
    induction items using List.reverseRecOn with
    | nil => exact fun _ hmem => absurd hmem not_mem_nil
    | append_singleton items last ih =>
      intro item hitem
      rw [foldl_append, foldl_cons, foldl_nil]
      have hlast : last ∈ items ++ [last] := mem_append_right _ (mem_singleton_self _)
      by_cases hid : item.evidenceId = last.evidenceId
      · rw [hid, get_set_self, hunique item hitem last hlast hid]
      · rw [get_set_of_ne _ _ hid]
        refine ih (fun a ha b hb => hunique a (mem_append_left _ ha) b
          (mem_append_left _ hb)) item ?_
        exact (mem_append.mp hitem).resolve_right fun hnew =>
          hid (congrArg (·.evidenceId) (mem_singleton.mp hnew))
  rw [deduplicateEvidence, mem_insertionSort]
  exact mem_map.mpr ⟨(item.evidenceId, item), mem_of_get (hcollect item hitem), rfl⟩

theorem Carries.finish {mechanism : Mechanism} (h : Carries env result mechanism merged)
    (hnoted : ∀ item ∈ merged.evidence, Noted state.evidenceDefinitions item) :
    Carries env result mechanism (finishMechanism merged) where
  definition := h.definition
  knownDrift reference hreference := mem_sortedSet.mpr (h.knownDrift reference hreference)
  evidence item hitem := ⟨(h.evidence item hitem).1, fun normalized hmem =>
    mem_deduplicateEvidence (fun a ha b hb => (hnoted a ha).unique (hnoted b hb))
      ((h.evidence item hitem).2 normalized hmem)⟩
  sourceRoles := mem_sortedSet.mpr h.sourceRoles

structure KeptResult (env : ReconcileEnv) (report : ReconcileReport) (result : ProducerResult) :
    Prop where
  readable : ∀ items ∈ recordEvidence result, ∀ item ∈ items, normalizedOf env result item ≠ []
  unknowns : ∀ unknown ∈ result.unknowns,
    report.unknowns.filter (·.unknownId = namespacedId result.roleId unknown.unknownId) =
      [reconciledUnknown env result unknown]
  driftFindings : ∀ finding ∈ result.driftFindings,
    report.driftFindings.filter (·.driftId = namespacedId result.roleId finding.driftId) =
      [reconciledDrift env result finding]
  mechanisms : ∀ mechanism ∈ result.mechanisms, ∃ merged ∈ report.mechanisms,
    merged.mechanismId = mechanism.mechanismId ∧ Carries env result mechanism merged

/-- Nothing of the results is lost, and no id stands for two records. -/
structure Lossless (env : ReconcileEnv) (results : List ProducerResult) (report : ReconcileReport) :
    Prop where
  unknownIds : (report.unknowns.map (·.unknownId)).Nodup
  driftIds : (report.driftFindings.map (·.driftId)).Nodup
  mechanismIds : (report.mechanisms.map (·.mechanismId)).Nodup
  kept : ∀ result ∈ results, KeptResult env report result

/-- A merge of the output alone never says that an id occurs twice. -/
def MergesAlone (report : ReconcileReport) : Prop :=
  ∀ (mergeEnv : MergeEnv) (existing : List String) (group : RegistryGroup) (merged : MergeReport),
    group.mechanisms.items = report.mechanisms.map (·.toItem) →
    group.unknowns.items = report.unknowns.map (·.toItem) →
    group.driftFindings.items = report.driftFindings.map (·.toItem) →
    mergeReconciledRegistries mergeEnv existing [group] = .ok merged →
    ∀ blocker ∈ merged.blockers, blocker.code ∉ duplicateIdCodes

theorem nodup_filterMap_id {α : Type} {toItem : α → PyItem} {idField : String} {idOf : α → String}
    (h : ∀ entry, (toItem entry).text idField = some (idOf entry)) {entries : List α}
    (hnodup : (entries.map idOf).Nodup) :
    ((entries.map toItem).filterMap (·.id idField)).Nodup := by
  have hid {entry : α} {id : String} (hentry : (toItem entry).id idField = some id) :
      id = idOf entry := Option.some.inj ((PyItem.id_eq_some.mp hentry).1.symm.trans (h entry))
  rw [filterMap_map]
  refine pairwise_filterMap.mpr ((pairwise_map.mp hnodup).imp fun hne id hfirst other
    hsecond heq => hne ?_)
  rw [← hid hfirst, ← hid hsecond, heq]

theorem Lossless.mergesAlone {report : ReconcileReport} (h : Lossless env results report) :
    MergesAlone report := by
  intro mergeEnv existing group merged hmechanisms hunknowns hdrift hmerge
  refine merge_single_noDuplicateIds hmerge ?_ ?_ ?_
  · rw [hunknowns]
    refine nodup_filterMap_id (fun entry => ?_) h.unknownIds
    rw [ReconciledUnknown.toItem, PyItem.text_put_of_ne (by decide),
      PyItem.text_put_of_ne (by decide), PyItem.text_put_of_ne (by decide),
      PyItem.text_put_of_ne (by decide), PyItem.text_put_self]
  · rw [hdrift]
    refine nodup_filterMap_id (fun entry => ?_) h.driftIds
    rw [ReconciledDrift.toItem, PyItem.text_put_of_ne (by decide),
      PyItem.text_put_of_ne (by decide), PyItem.text_put_of_ne (by decide),
      PyItem.text_put_of_ne (by decide), PyItem.text_put_self]
  · rw [hmechanisms]
    refine nodup_filterMap_id (fun entry => ?_) h.mechanismIds
    rw [ReconciledMechanism.toItem, PyItem.text_put_of_ne (by decide),
      PyItem.text_put_of_ne (by decide), PyItem.text_put_of_ne (by decide), PyItem.text_put_self]

/-- Within each result, no unknown id occurs twice, and no drift id. -/
def DistinctIds (result : ProducerResult) : Prop :=
  (result.unknowns.map (·.unknownId)).Nodup ∧ (result.driftFindings.map (·.driftId)).Nodup

theorem nodup_namespaced {α β : Type} {idOf : α → String} {findings : ProducerResult → List β}
    {reconciled : ProducerResult → β → α} {originalId : β → String}
    (hid : ∀ result finding, idOf (reconciled result finding) = namespacedId result.roleId (originalId finding))
    (hroles : (results.map (·.roleId)).Nodup)
    (hsafe : ∀ result ∈ results, ':' ∉ result.roleId.toList) :
    ((results.flatMap fun result => (findings result).map (reconciled result)).map idOf).Nodup ↔
      ∀ result ∈ results, ((findings result).map originalId).Nodup := by
  have hids (result : ProducerResult) : ((findings result).map (reconciled result)).map idOf =
      (findings result).map fun finding => prefixedId result.roleId (originalId finding) := by
    rw [map_map]
    exact map_congr_left fun finding _ => hid result finding
  rw [map_flatMap, nodup_flatMap]
  simp only [hids]
  constructor
  · intro h result hresult
    refine pairwise_map.mpr ((pairwise_map.mp (h.1 result hresult)).imp fun hne heq => ?_)
    exact hne (congrArg (prefixedId result.roleId) heq)
  · refine fun h => ⟨fun result hresult => ?_, ?_⟩
    · refine pairwise_map.mpr ((pairwise_map.mp (h result hresult)).imp fun hne heq => ?_)
      exact hne (prefixedId_inj (hsafe result hresult) (hsafe result hresult) heq).2
    · refine (pairwise_map.mp hroles).imp_of_mem fun {left right} hleft hright hne => ?_
      rintro id hfirst hsecond
      obtain ⟨finding, -, rfl⟩ := mem_map.mp hfirst
      obtain ⟨other, -, heq⟩ := mem_map.mp hsecond
      exact hne (prefixedId_inj (hsafe left hleft) (hsafe right hright) heq.symm).1

section Report

variable {results : List ProducerResult}

section

variable (h : Reconciled env results state) (hroles : (results.map (·.roleId)).Nodup)
    (hsafe : ∀ result ∈ results, ':' ∉ result.roleId.toList)
include h hroles hsafe

theorem Reconciled.unknownIds_iff :
    ((finishReconcile env results state).unknowns.map (·.unknownId)).Nodup ↔
      ∀ result ∈ results, (result.unknowns.map (·.unknownId)).Nodup := by
  rw [finishReconcile, ((perm_insertionSort _ _).map _).nodup_iff, h.unknowns]
  exact nodup_namespaced (fun _ _ => rfl) hroles hsafe

theorem Reconciled.driftIds_iff :
    ((finishReconcile env results state).driftFindings.map (·.driftId)).Nodup ↔
      ∀ result ∈ results, (result.driftFindings.map (·.driftId)).Nodup := by
  rw [finishReconcile, ((perm_insertionSort _ _).map _).nodup_iff, h.driftFindings]
  exact nodup_namespaced (fun _ _ => rfl) hroles hsafe

end

theorem Reconciled.mechanismIds (h : Reconciled env results state) :
    ((finishReconcile env results state).mechanisms.map (·.mechanismId)).Nodup := by
  have hkeys : (state.mechanisms.map Prod.snd).map (·.mechanismId) = Dict.keys state.mechanisms := by
    rw [map_map, Dict.keys]
    refine map_congr_left fun entry hentry => ?_
    exact h.folded.named entry.1 entry.2 ((mem_iff_get h.folded.nodup).mp hentry)
  rw [finishReconcile, map_map]
  have hperm := (perm_insertionSort (fun a b : ReconciledMechanism =>
    a.mechanismId ≤ b.mechanismId) (state.mechanisms.map Prod.snd)).map (·.mechanismId)
  exact hperm.nodup_iff.mpr (hkeys ▸ h.folded.nodup)

theorem Reconciled.lossless (h : Reconciled env results state)
    (hroles : (results.map (·.roleId)).Nodup) (hsafe : ∀ result ∈ results, ':' ∉ result.roleId.toList)
    (hdistinct : ∀ result ∈ results, DistinctIds result) :
    Lossless env results (finishReconcile env results state) := by
  have hunknownIds := (h.unknownIds_iff hroles hsafe).mpr fun result hresult =>
    (hdistinct result hresult).1
  have hdriftIds := (h.driftIds_iff hroles hsafe).mpr fun result hresult =>
    (hdistinct result hresult).2
  refine ⟨hunknownIds, hdriftIds, h.mechanismIds, fun result hresult => ⟨fun items hitems item hitem =>
    (cites_normalizedOf (h.readable result hresult items hitems) hitem).1, fun unknown hunknown => ?_,
    fun finding hfinding => ?_, fun mechanism hmechanism => ?_⟩⟩
  · have hmem : reconciledUnknown env result unknown ∈ (finishReconcile env results state).unknowns := by
      rw [finishReconcile, mem_insertionSort, h.unknowns]
      exact mem_flatMap.mpr ⟨result, hresult, mem_map_of_mem hunknown⟩
    exact filter_eq_singleton hunknownIds hmem
  · have hmem : reconciledDrift env result finding ∈
        (finishReconcile env results state).driftFindings := by
      rw [finishReconcile, mem_insertionSort, h.driftFindings]
      exact mem_flatMap.mpr ⟨result, hresult, mem_map_of_mem hfinding⟩
    exact filter_eq_singleton hdriftIds hmem
  · have hentry : (result, mechanism) ∈ results.flatMap fun result =>
        result.mechanisms.map fun mechanism => (result, mechanism) :=
      mem_flatMap.mpr ⟨result, hresult, mem_map_of_mem hmechanism⟩
    obtain ⟨merged, hget, hcarries⟩ := h.folded.carries _ hentry
    refine ⟨finishMechanism merged, ?_, h.folded.named _ merged hget,
      hcarries.finish (h.folded.noted _ merged hget)⟩
    rw [finishReconcile]
    refine mem_map_of_mem ((mem_insertionSort _).mpr ?_)
    exact mem_map.mpr ⟨_, mem_of_get hget, rfl⟩

end Report

theorem not_mem_of_seals (h : env.seals result.roleId = true) : ':' ∉ result.roleId.toList := by
  obtain ⟨role, -, hrole⟩ := any_eq_true.mp h
  simp only [Bool.and_eq_true, decide_eq_true_eq] at hrole
  exact not_mem_of_isSafeComponent (hrole.1.1 ▸ role.safe)

theorem payloads_of_admits (h : List.Forall₂ (Admits env) files results) :
    files.filterMap (·.payload) = results := by
  induction h with
  | nil => rfl
  | cons hadmits _ ih => rw [filterMap_cons, hadmits.payload, ih]

theorem Reconciled.initial : Reconciled env [] (.initial env) where
  readable _ hresult := absurd hresult not_mem_nil
  folded := ⟨nodup_nil, nofun, nofun, fun _ hentry => absurd hentry not_mem_nil⟩
  unknowns := rfl
  driftFindings := rfl

theorem clean_of_reconciled (h : (finishReconcile env results state).state = "reconciled") :
    state.blockers = [] := by
  by_contra hblockers
  have hreported : (state.blockers.dedup.insertionSort fun a b => blockerKey a ≤ blockerKey b) ≠ [] := by
    obtain ⟨blocker, hblocker⟩ := exists_mem_of_ne_nil _ hblockers
    exact ne_nil_of_mem ((mem_insertionSort _).mpr (mem_dedup.mpr hblocker))
  rw [finishReconcile, if_neg hreported] at h
  exact absurd (show "blocked" = "reconciled" from h) (by decide)

/-- A reconciliation keeps its results apart exactly where no result has an id twice; the order of the
result paths is never seen. -/
theorem reconciled_lossless_iff {existing : List String} {files : List ResultFile}
    {report : ReconcileReport} (h : reconcileExcavation env existing files = .ok report)
    (hreconciled : report.state = "reconciled") :
    (Lossless env (files.filterMap (·.payload)) report ∧
      (∀ others, files.Perm others → reconcileExcavation env existing others = .ok report) ∧
      MergesAlone report) ↔
    ∀ result ∈ files.filterMap (·.payload), DistinctIds result := by
  obtain ⟨hfiles, hexisting, results, hadmits, hnodup, rfl⟩ := reconcileExcavation_ok.mp h
  rw [payloads_of_admits hadmits]
  have hperm : (orderedResults results).Perm results := perm_insertionSort _ results
  have hroles : ((orderedResults results).map (·.roleId)).Nodup := (hperm.map _).nodup_iff.mpr hnodup
  have hsafe : ∀ result ∈ orderedResults results, ':' ∉ result.roleId.toList := by
    intro result hresult
    obtain ⟨file, -, hadmitted⟩ := exists_loaded hadmits.flip result (hperm.subset hresult)
    exact not_mem_of_seals hadmitted.sealed
  have hstate := (reconcileResults_clean hsafe (clean_of_reconciled hreconciled)).2 [] .initial
  rw [nil_append] at hstate
  constructor
  · intro hproperty result hresult
    have hmem := hperm.symm.subset hresult
    exact ⟨(hstate.unknownIds_iff hroles hsafe).mp hproperty.1.unknownIds result hmem,
      (hstate.driftIds_iff hroles hsafe).mp hproperty.1.driftIds result hmem⟩
  · intro hdistinct
    have hlossless := hstate.lossless hroles hsafe fun result hresult =>
      hdistinct result (hperm.subset hresult)
    refine ⟨⟨hlossless.unknownIds, hlossless.driftIds, hlossless.mechanismIds, fun result hresult =>
      hlossless.kept result (hperm.symm.subset hresult)⟩, fun others hothers => ?_,
      hlossless.mergesAlone⟩
    obtain ⟨reordered, hreordered, hresults⟩ := perm_comp_forall₂ hothers.symm hadmits
    have hsame : orderedResults reordered = orderedResults results :=
      (insertionSort_key_congr hresults.symm hnodup).symm
    refine reconcileExcavation_ok.mpr ⟨fun hnil => hfiles ?_, hexisting, reordered, hreordered,
      (hresults.map _).nodup_iff.mpr hnodup, by rw [hsame]⟩
    exact perm_nil.mp (hnil ▸ hothers)

def sampleReconcileEnv : ReconcileEnv where
  aliases := [("src.zip", "sha256:src")]
  ambiguousAliases := []
  expectedSnapshotIds := ["sha256:src"]
  sealedSnapshots := []
  sourceArchiveSnapshotId := some "sha256:src"
  resolve locator := .ok locator
  resolveRanges locator := .ok (⟨"main.py", [97, 10]⟩, locator ++ ":1-1", [(1, 1)])
  splitLocatorRanges locator := (locator, [])
  isAbsolute _ := false
  sha256 bytes := "sha256:" ++ toString bytes.length
  runId := "run1"
  roles := [⟨"core", "producer", "mechanism-batch.schema.json", by decide⟩]
  schemaName := "mechanism-batch.schema.json"
  value _ := 0
  invalidMechanism _ _ _ := none
  invalidUnknown _ _ _ := none
  invalidDrift _ _ _ := none

def sampleEvidence : Evidence where
  evidenceId := "line"
  kind := "code"
  basis := "source_file"
  locator := "main.py"
  observedExcerpt := "a"
  hashScope := "exact_excerpt_utf8"
  sourceSnapshotId := "src.zip"
  contentHash := "sha256:2"
  capturedAt := "2026-01-01"
  independentGroup := "source"
  summary := "the line"

def sampleResult (unknownIds : List String) : ResultFile where
  path := "producers/core/result.json"
  parentName := "core"
  grandparentName := "producers"
  payload := some
    { roleId := "core"
      snapshotIds := ["src.zip"]
      archives := [⟨"src.zip", "sha256:src", true, ["main.py"], []⟩]
      mechanisms := [⟨"retry", ["late"], [sampleEvidence], []⟩]
      unknowns := unknownIds.map fun id => ⟨id, "main.py", [], []⟩
      driftFindings := [⟨"late", ["main.py"], [sampleEvidence], []⟩] }

theorem reconciled_lossless_iff_sample :
    ∃ report, reconcileExcavation sampleReconcileEnv [] [sampleResult ["who", "when"]] = .ok report ∧
      report.state = "reconciled" ∧
      ((Lossless sampleReconcileEnv ([sampleResult ["who", "when"]].filterMap (·.payload)) report ∧
        (∀ others, [sampleResult ["who", "when"]].Perm others →
          reconcileExcavation sampleReconcileEnv [] others = .ok report) ∧
        MergesAlone report) ↔
      ∀ result ∈ [sampleResult ["who", "when"]].filterMap (·.payload), DistinctIds result) :=
  ⟨_, rfl, by decide +kernel, reconciled_lossless_iff rfl (by decide +kernel)⟩

/-- Two unknowns of one id are reconciled, under one id. -/
theorem reconciled_unknown_id_twice :
    ∃ report, reconcileExcavation sampleReconcileEnv [] [sampleResult ["who", "who"]] = .ok report ∧
      report.state = "reconciled" ∧ ¬(report.unknowns.map (·.unknownId)).Nodup :=
  ⟨_, rfl, by decide +kernel, by decide +kernel⟩

end Flowness.OssHarness.Reconciliation
