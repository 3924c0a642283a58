import Flowness.CommitGate.ConceptRetire

/-!
What the retirement gate proves about the references to a retired concept. Its evidence is pooled
over the retirements of a batch and matched by name; where the names are a reference's own, so is
the evidence.
-/

namespace Flowness.CommitGate

open List Library Schemas Ledger

def lineOf (record : EventRecord) : Json :=
  .obj [("event_id", .str record.eventId.val),
    ("event_type", .str (EventType.value record.eventType)),
    ("payload", .obj record.payload.entries)]

def committedLines (log : CommittedLog) : List Json := log.records.map lineOf

section

variable (env : RetireEnv) (resolver : String → Option String)

def retirementsOf (intent : EventIntent) : List (String × String) :=
  if supersedesByCreation intent then
    (resolvedOld resolver intent).toList.map fun old =>
      (old, orElseText (env.str
        ((Dict.get intent.payload.afterState "concept_id").getD (.str ""))) old)
  else if supersedesByProposal env intent then
    let changes := proposalConceptChanges env intent.payload
    let named := changes.filterMap fun change =>
      (changedEntity env change).map fun entity => (entity, (replacementOf env change).getD entity)
    if named = [] then
      (conceptSubject intent).toList.map fun subject =>
        (subject, (changes.findSome? (replacementOf env)).getD subject)
    else named
  else []

def retirements (domain : List EventIntent) : List (String × String) :=
  domain.flatMap (retirementsOf env resolver)

def Retired (domain : List EventIntent) (conceptId : String) : Prop :=
  ∃ successor, (conceptId, successor) ∈ retirements env resolver domain

variable (domain : List EventIntent) (log : CommittedLog)

/-- What a target may call a concept: its id, or the id without the version and then `concept-`. -/
def PointsAt (target conceptId : String) : Prop :=
  target ≠ "" ∧ conceptId ≠ "" ∧ (target = conceptId ∨ target = versionless conceptId ∨
    target = withoutConceptPrefix (versionless conceptId))

instance (target conceptId : String) : Decidable (PointsAt target conceptId) :=
  inferInstanceAs (Decidable (_ ∧ _ ∧ (_ ∨ _ ∨ _)))

/-- The target names a new version of the concept and not the concept itself. -/
structure NewVersionOf (conceptId target : String) : Prop where
  successor : ∃ successor, (conceptId, successor) ∈ retirements env resolver domain ∧
    successor ≠ conceptId ∧ PointsAt target successor
  other : ¬PointsAt target conceptId

/-- The batch or a committed line points the source at the target. -/
def Added (source target : String) : Prop :=
  (∃ intent ∈ domain, addedByIntent env intent = some (source, target)) ∨
    ∃ line ∈ committedLines log, addedByLine env line = some (source, target)

/-- The reference's own evidence of having left the concept. -/
inductive OwnEvidence (conceptId : String) (reference : Dict String Json) : Prop
  | removedInBatch (intent : EventIntent) (hintent : intent ∈ domain)
    (hremoved : removedReference env intent = some (referenceIdOf env reference))
    (hid : referenceIdOf env reference ≠ "")
  | removedBefore (line : Json) (hline : line ∈ committedLines log)
    (htype : lineType line = .str "AtReferenceRemoved")
    (hremoved : referenceIdOf env (lineAfter line) = referenceIdOf env reference)
    (hid : referenceIdOf env reference ≠ "")
  | repointed (target : String) (hsource : sourceOf env reference ≠ "")
    (hnew : NewVersionOf env resolver domain conceptId target)
    (hadded : Added env domain log (sourceOf env reference) target)
  | sourceRetired (hsource : sourceOf env reference ≠ "")
    (hretired : Retired env resolver domain (sourceOf env reference))

/-- An active explicit-decision reference to a retired concept. -/
structure Dependent (conceptId : String) (reference : Dict String Json) : Prop where
  retired : Retired env resolver domain conceptId
  active : reference ∈ activeReferencesTo (committedLines log) conceptId
  blocks : blocks reference = true

/-- Every such reference has left its concept. -/
def AllMigrated : Prop :=
  ∀ conceptId reference, Dependent env resolver domain log conceptId reference →
    OwnEvidence env resolver domain log conceptId reference

def isReferenceLine (line : Json) : Bool :=
  lineType line = .str "AtReferenceAdded" || lineType line = .str "AtReferenceRemoved"

/-- The intent creates the concept, or names it in a proposal. -/
def Touches (intent : EventIntent) (conceptId : String) : Prop :=
  (intent.eventType = .conceptCreated ∧ conceptId ≠ "" ∧ conceptId =
    env.str ((Dict.get intent.payload.afterState "concept_id").getD (.str ""))) ∨
  (intent.eventType = .conceptGraphProposal ∧
    ∃ change ∈ proposalConceptChanges env intent.payload, changedEntity env change = some conceptId)

instance (intent : EventIntent) (conceptId : String) : Decidable (Touches env intent conceptId) :=
  inferInstanceAs (Decidable (_ ∧ _ ∨ _ ∧ _))

/-- Batch and log read as each reference's own evidence. A proposal retires one concept, the raw
lines hold the committed references, and each of these has a name. A source that still refers to a
retired concept is pointed at no new version but that concept's, under a name the old version does
not share, and the batch does not touch it without retiring it. -/
structure ReadsOwn (lines : List Json) : Prop where
  single : ∀ intent ∈ domain, supersedesByProposal env intent = true →
    (proposalConceptChanges env intent.payload).length ≤ 1
  scanned : lines.filter isReferenceLine = (committedLines log).filter isReferenceLine
  named : ∀ conceptId reference, Dependent env resolver domain log conceptId reference →
    sourceOf env reference ≠ "" ∨ referenceIdOf env reference ≠ ""
  pointed : ∀ conceptId reference, Dependent env resolver domain log conceptId reference →
    ∀ target, Added env domain log (sourceOf env reference) target →
      (∃ old successor, (old, successor) ∈ retirements env resolver domain ∧ successor ≠ old ∧
        PointsAt target successor) → NewVersionOf env resolver domain conceptId target
  touched : ∀ conceptId reference, Dependent env resolver domain log conceptId reference →
    ∀ intent ∈ domain, Touches env intent (sourceOf env reference) →
      Retired env resolver domain (sourceOf env reference)

end

section

variable {env : RetireEnv} {resolver : String → Option String} {domain : List EventIntent}
  {log : CommittedLog} {lines : List Json} {cisFor : String → List String}

theorem forall_dependent_iff {motive : String → Dict String Json → Prop} :
    (∀ conceptId reference, Dependent env resolver domain log conceptId reference →
      motive conceptId reference) ↔
        ∀ retirement ∈ retirements env resolver domain,
          ∀ reference ∈ activeReferencesTo (committedLines log) retirement.1,
            blocks reference = true → motive retirement.1 reference := by
  constructor
  · exact fun h retirement hmem reference hactive hblocks =>
      h _ reference ⟨⟨retirement.2, hmem⟩, hactive, hblocks⟩
  · rintro h conceptId reference ⟨⟨successor, hmem⟩, hactive, hblocks⟩
    exact h _ hmem reference hactive hblocks

/-- Where the batch and the log point a source. -/
def additions (env : RetireEnv) (domain : List EventIntent) (log : CommittedLog) :
    List (String × String) :=
  domain.filterMap (addedByIntent env) ++ (committedLines log).filterMap (addedByLine env)

theorem added_iff : Added env domain log source target ↔
    (source, target) ∈ additions env domain log := by
  simp [Added, additions]

instance : Decidable (Retired env resolver domain conceptId) :=
  decidable_of_iff (conceptId ∈ (retirements env resolver domain).map Prod.fst) (by simp [Retired])

instance : Decidable (NewVersionOf env resolver domain conceptId target) :=
  decidable_of_iff ((∃ retirement ∈ retirements env resolver domain, retirement.1 = conceptId ∧
      retirement.2 ≠ conceptId ∧ PointsAt target retirement.2) ∧ ¬PointsAt target conceptId) (by
    constructor
    · rintro ⟨⟨⟨_, successor⟩, hmem, rfl, hnew⟩, hother⟩
      exact ⟨⟨successor, hmem, hnew⟩, hother⟩
    · rintro ⟨⟨successor, hmem, hnew⟩, hother⟩
      exact ⟨⟨_, hmem, rfl, hnew⟩, hother⟩)

instance : Decidable (OwnEvidence env resolver domain log conceptId reference) :=
  decidable_of_iff (referenceIdOf env reference ≠ "" ∧
      ((∃ intent ∈ domain, removedReference env intent = some (referenceIdOf env reference)) ∨
        ∃ line ∈ committedLines log, lineType line = .str "AtReferenceRemoved" ∧
          referenceIdOf env (lineAfter line) = referenceIdOf env reference) ∨
      sourceOf env reference ≠ "" ∧
        ((∃ addition ∈ additions env domain log, addition.1 = sourceOf env reference ∧
          NewVersionOf env resolver domain conceptId addition.2) ∨
            Retired env resolver domain (sourceOf env reference))) (by
    constructor
    · rintro (⟨hid, ⟨intent, hintent, hremoved⟩ | ⟨line, hline, htype, hremoved⟩⟩ |
        ⟨hsource, ⟨⟨_, target⟩, hadded, rfl, hnew⟩ | hretired⟩)
      · exact .removedInBatch intent hintent hremoved hid
      · exact .removedBefore line hline htype hremoved hid
      · exact .repointed target hsource hnew (added_iff.mpr hadded)
      · exact .sourceRetired hsource hretired
    · rintro (⟨intent, hintent, hremoved, hid⟩ | ⟨line, hline, htype, hremoved, hid⟩ |
        ⟨target, hsource, hnew, hadded⟩ | ⟨hsource, hretired⟩)
      · exact Or.inl ⟨hid, Or.inl ⟨intent, hintent, hremoved⟩⟩
      · exact Or.inl ⟨hid, Or.inr ⟨line, hline, htype, hremoved⟩⟩
      · exact Or.inr ⟨hsource, Or.inl ⟨_, added_iff.mp hadded, rfl, hnew⟩⟩
      · exact Or.inr ⟨hsource, Or.inr hretired⟩)

instance : Decidable (AllMigrated env resolver domain log) :=
  decidable_of_iff _ forall_dependent_iff.symm

def gateBatch (env : RetireEnv) (resolver : String → Option String) (domain : List EventIntent) :
    BatchMigrations :=
  collectBatchMigrations env domain (newVersionIds (retiring env resolver domain))

theorem migrated_of_passed
    (h : (checkConceptRetireMigration env resolver lines cisFor domain).passed = true)
    (hconcept : concept ∈ retiring env resolver domain)
    (hreference : reference ∈ activeReferencesTo lines concept.oldConceptId)
    (hblocks : blocks reference = true)
    (hnamed : ¬ (sourceOf env reference = "" ∧ referenceIdOf env reference = "")) :
    (migrationStatus (sourceOf env reference) (referenceIdOf env reference) concept
      (gateBatch env resolver domain)
      (committedRepointedSources env lines
        (newVersionIds (retiring env resolver domain)))).1 = true := by
  have hsome : (retiring env resolver domain).isEmpty = false := by
    rw [isEmpty_eq_false_iff]
    exact ne_nil_of_mem hconcept
  unfold checkConceptRetireMigration at h
  simp only [hsome, Bool.false_and, Bool.false_eq_true, if_false] at h
  split at h
  · cases h
  · split at h
    next hnone =>
      by_contra hunmigrated
      -- the finding of this reference would be listed by its name
      have hfinding : findingOf env concept (gateBatch env resolver domain)
          (committedRepointedSources env lines (newVersionIds (retiring env resolver domain)))
          reference ∈ (((retiring env resolver domain).map fun concept =>
            (concept, findingsFor env lines (gateBatch env resolver domain)
              (committedRepointedSources env lines
                (newVersionIds (retiring env resolver domain))) concept)).flatMap
            Prod.snd).filter fun finding => !finding.migrated := by
        refine mem_filter.mpr ⟨mem_flatMap.mpr ⟨_, mem_map_of_mem hconcept, ?_⟩, ?_⟩
        · exact mem_map_of_mem (mem_filter.mpr ⟨hreference, hblocks⟩)
        · simpa [findingOf] using hunmigrated
      simp only [Bool.and_eq_true, List.isEmpty_iff, filter_eq_nil_iff, mem_map,
        decide_eq_true_eq, not_not, forall_exists_index, and_imp] at hnone
      refine hnamed ⟨hnone.1 _ _ hfinding rfl, hnone.2 _ _ hfinding rfl⟩
    · cases h

theorem resolvesTo_iff : resolvesTo target conceptId = true ↔ PointsAt target conceptId := by
  unfold resolvesTo PointsAt
  simp only [Bool.and_eq_true, decide_eq_true_eq, contains_iff_mem, mem_cons, not_mem_nil, or_false,
    and_assoc]

theorem touches_of_batchConcepts (h : conceptId ∈ batchConcepts env intent) :
    Touches env intent conceptId := by
  unfold batchConcepts at h
  split_ifs at h with hcreated hproposal
  · obtain ⟨hmem, hne⟩ := mem_filter.mp h
    exact Or.inl ⟨hcreated, of_decide_eq_true hne, mem_singleton.mp hmem⟩
  · obtain ⟨change, hchange, hentity⟩ := mem_filterMap.mp h
    exact Or.inr ⟨hproposal, change, hchange, hentity⟩
  · exact absurd h not_mem_nil

theorem filterMap_of_scanned {f : Json → Option α}
    (hscanned : lines.filter isReferenceLine = (committedLines log).filter isReferenceLine)
    (hf : ∀ line, isReferenceLine line = false → f line = none) :
    lines.filterMap f = (committedLines log).filterMap f := by
  have hkept : ∀ all : List Json, (all.filter isReferenceLine).filterMap f = all.filterMap f := by
    intro all
    rw [filterMap_filter]
    congr 1
    funext line
    split_ifs with hline
    · rfl
    · exact (hf line (by simpa using hline)).symm
  rw [← hkept, hscanned, hkept]

theorem activeReferencesTo_of_scanned
    (hscanned : lines.filter isReferenceLine = (committedLines log).filter isReferenceLine)
    (conceptId : String) :
    activeReferencesTo lines conceptId = activeReferencesTo (committedLines log) conceptId := by
  unfold activeReferencesTo
  rw [filterMap_of_scanned hscanned, filterMap_of_scanned hscanned]
  · intro line hline
    unfold isReferenceLine at hline
    simp only [Bool.or_eq_false_iff, decide_eq_false_iff_not] at hline
    rw [if_neg hline.2]
  · intro line hline
    unfold isReferenceLine at hline
    simp only [Bool.or_eq_false_iff, decide_eq_false_iff_not] at hline
    rw [if_neg fun hadded => hline.1 hadded.1]

theorem addedByLine_of_scanned
    (hscanned : lines.filter isReferenceLine = (committedLines log).filter isReferenceLine) :
    lines.filterMap (addedByLine env) = (committedLines log).filterMap (addedByLine env) := by
  apply filterMap_of_scanned hscanned
  intro line hline
  unfold isReferenceLine at hline
  simp only [Bool.or_eq_false_iff, decide_eq_false_iff_not] at hline
  unfold addedByLine
  rw [if_neg hline.1]

/-- What the gate extracts from an intent that retires one concept is that retirement. -/
theorem retirementsOf_single (intent : EventIntent)
    (hsingle : supersedesByProposal env intent = true →
      (proposalConceptChanges env intent.payload).length ≤ 1) :
    retirementsOf env resolver intent = match extractRetiringOf env resolver intent with
      | some (.ok concept) => [(concept.oldConceptId, concept.newConceptId)]
      | _ => [] := by
  unfold retirementsOf extractRetiringOf
  split_ifs with hcreation hproposal
  · cases resolvedOld resolver intent <;> rfl
  · have hlength := hsingle hproposal
    rcases hchanges : proposalConceptChanges env intent.payload with - | ⟨change, - | ⟨_, _⟩⟩
    · cases hsubject : conceptSubject intent <;> simp
    · cases hentity : changedEntity env change with
      | none => cases hsubject : conceptSubject intent <;> simp [hentity]
      | some entity =>
        cases hreplacement : replacementOf env change <;> simp [hentity, hreplacement]
    · rw [hchanges] at hlength
      simp at hlength
  · rfl

section

variable (h : ReadsOwn env resolver domain log lines)
include h

theorem ReadsOwn.mem_retirements {old successor : String} :
    (old, successor) ∈ retirements env resolver domain ↔ ∃ concept ∈ retiring env resolver domain,
      concept.oldConceptId = old ∧ concept.newConceptId = successor := by
  unfold retirements retiring
  simp only [mem_flatMap, mem_filterMap]
  constructor
  · rintro ⟨intent, hintent, hmem⟩
    rw [retirementsOf_single intent (h.single intent hintent)] at hmem
    split at hmem
    next concept hconcept =>
      obtain ⟨rfl, rfl⟩ := Prod.mk.inj (mem_singleton.mp hmem)
      exact ⟨concept, ⟨intent, hintent, by rw [hconcept]⟩, rfl, rfl⟩
    · exact absurd hmem not_mem_nil
  · rintro ⟨concept, ⟨intent, hintent, hextracted⟩, rfl, rfl⟩
    have hfound : extractRetiringOf env resolver intent = some (.ok concept) := by
      split at hextracted
      next found hfound =>
        cases hextracted
        exact hfound
      · cases hextracted
    refine ⟨intent, hintent, ?_⟩
    rw [retirementsOf_single intent (h.single intent hintent), hfound]
    exact mem_singleton_self _

/-- A source counted as repointed is pointed at a new version of the concept it refers to. -/
theorem ReadsOwn.repointed {conceptId : String} {reference : Dict String Json}
    (hdependent : Dependent env resolver domain log conceptId reference)
    {ends : List (String × String)}
    (hends : ∀ target, (sourceOf env reference, target) ∈ ends →
      Added env domain log (sourceOf env reference) target)
    (hsource : sourceOf env reference ≠ "")
    (hmem : sourceOf env reference ∈
      (ends.filter (repoints (newVersionIds (retiring env resolver domain)))).map Prod.fst) :
    OwnEvidence env resolver domain log conceptId reference := by
  obtain ⟨⟨_, target⟩, hcounted, rfl⟩ := mem_map.mp hmem
  obtain ⟨hadded, hrepoints⟩ := mem_filter.mp hcounted
  unfold repoints at hrepoints
  simp only [Bool.and_eq_true, List.any_eq_true] at hrepoints
  obtain ⟨successor, hnew, hresolves⟩ := hrepoints.2
  obtain ⟨concept, hconcept, rfl⟩ := mem_map.mp hnew
  obtain ⟨hretiring, hdiffers⟩ := mem_filter.mp hconcept
  simp only [Bool.and_eq_true, decide_eq_true_eq] at hdiffers
  have hadded := hends target hadded
  exact .repointed target hsource (h.pointed conceptId reference hdependent target hadded
    ⟨_, _, h.mem_retirements.mpr ⟨concept, hretiring, rfl, rfl⟩, hdiffers.2,
      resolvesTo_iff.mp hresolves⟩) hadded

theorem ReadsOwn.ownEvidence {conceptId : String} {reference : Dict String Json}
    (hdependent : Dependent env resolver domain log conceptId reference)
    (hmigrated : (migrationStatus (sourceOf env reference) (referenceIdOf env reference) concept
      (gateBatch env resolver domain)
      (committedRepointedSources env lines
        (newVersionIds (retiring env resolver domain)))).1 = true) :
    OwnEvidence env resolver domain log conceptId reference := by
  unfold migrationStatus at hmigrated
  split_ifs at hmigrated with hremoved hinBatch hcommitted htouched hdeclared
  · obtain ⟨hid, hmem⟩ := hremoved
    obtain ⟨intent, hintent, hsome⟩ := mem_filterMap.mp (mem_filter.mp hmem).1
    exact .removedInBatch intent hintent hsome hid
  · refine h.repointed hdependent (fun target hends => ?_) hinBatch.1 hinBatch.2
    exact Or.inl (mem_filterMap.mp hends)
  · refine h.repointed hdependent (fun target hends => ?_) hcommitted.1 hcommitted.2
    rw [addedByLine_of_scanned h.scanned] at hends
    exact Or.inr (mem_filterMap.mp hends)
  · obtain ⟨intent, hintent, hmem⟩ := mem_flatMap.mp htouched.2
    exact .sourceRetired htouched.1 (h.touched conceptId reference hdependent intent hintent
      (touches_of_batchConcepts hmem))

end

/-- A batch that passes the gate, on a log it reads as each reference's own evidence, leaves no
reference behind. -/
theorem concept_migrated (h : ReadsOwn env resolver domain log lines)
    (hpassed : (checkConceptRetireMigration env resolver lines cisFor domain).passed = true) :
    AllMigrated env resolver domain log := by
  intro conceptId reference hdependent
  obtain ⟨successor, hretired⟩ := hdependent.retired
  obtain ⟨concept, hconcept, rfl, -⟩ := h.mem_retirements.mp hretired
  have hactive : reference ∈ activeReferencesTo lines concept.oldConceptId := by
    rw [activeReferencesTo_of_scanned h.scanned]
    exact hdependent.active
  refine h.ownEvidence hdependent (migrated_of_passed hpassed hconcept hactive hdependent.blocks ?_)
  exact not_and_or.mpr (h.named _ reference hdependent)

end

def sampleRetireEnv : RetireEnv where
  str := fun value => value.text?.getD ""
  reprList := String.intercalate ", "

def upgrade (old new : String) : EventIntent :=
  { sampleIntent with
    eventType := .conceptGraphProposal, eventCategory := .stateTransition
    payload := ⟨[("transition_type", .str "superseded"), ("after_state", .obj
      [("proposed_changes", .arr [.obj [("entity_type", .str "concept"), ("entity_id", .str old),
        ("new_value", .obj [("replacement_concept_id", .str new)])]])])], by
      simp [Json.proper, Json.properEntries, Json.properItems, Dict.keys]⟩ }

def referencePayload (name source target : String) : Payload :=
  ⟨[("after_state", .obj [("at_reference", .str name), ("source_concept_id", .str source),
    ("target_concept_name", .str target)])], by
    simp [Json.proper, Json.properEntries, Dict.keys]⟩

def referringLog : CommittedLog where
  records := [stamp sampleEnv { sampleIntent with
    eventType := .atReferenceAdded
    payload := referencePayload "@concept:concept-users@v1" "concept-orders@v1" "concept-users" }
    (sampleDraw 0).eventId sampleTime 0 none]
  increasing := List.pairwise_singleton _ _
  distinct := List.nodup_singleton _

def repointedUpgrade : List EventIntent :=
  [upgrade "concept-users@v1" "concept-members@v1",
    { sampleIntent with
      eventType := .atReferenceAdded
      payload := referencePayload "@concept:concept-members@v1" "concept-orders@v1"
        "concept-members" }]

theorem repointedUpgrade_migrated :
    AllMigrated sampleRetireEnv (fun _ => none) repointedUpgrade referringLog := by
  have hpassed : (checkConceptRetireMigration sampleRetireEnv (fun _ => none)
      (committedLines referringLog) (fun _ => []) repointedUpgrade).passed = true := by
    decide +kernel
  refine concept_migrated ⟨by decide +kernel, rfl, ?_, ?_, ?_⟩ hpassed
  · exact forall_dependent_iff.mpr (by decide +kernel)
  · have hpointed : ∀ retirement ∈ retirements sampleRetireEnv (fun _ => none) repointedUpgrade,
        ∀ addition ∈ additions sampleRetireEnv repointedUpgrade referringLog,
          PointsAt addition.2 retirement.2 → NewVersionOf sampleRetireEnv (fun _ => none)
            repointedUpgrade "concept-users@v1" addition.2 := by decide +kernel
    refine forall_dependent_iff.mpr fun retirement hretirement reference _ _ => ?_
    rintro target hadded ⟨old, successor, hmem, -, hnames⟩
    have hconcept : ∀ retirement ∈ retirements sampleRetireEnv (fun _ => none) repointedUpgrade,
        retirement.1 = "concept-users@v1" := by decide +kernel
    rw [hconcept retirement hretirement]
    exact hpointed _ hmem _ (added_iff.mp hadded) hnames
  · exact forall_dependent_iff.mpr (by decide +kernel)

/-- An upgrade to the next version of a concept takes the reference to the old version for a
repoint. -/
theorem upgrade_leaves_reference :
    ¬ ∀ (domain : List EventIntent) (log : CommittedLog),
      (checkConceptRetireMigration sampleRetireEnv (fun _ => none) (committedLines log)
        (fun _ => []) domain).passed = true →
        AllMigrated sampleRetireEnv (fun _ => none) domain log := by
  intro hclaim
  have hall := hclaim [upgrade "concept-users@v1" "concept-users@v2"] referringLog
    (by decide +kernel)
  exact absurd hall (by decide +kernel)

end Flowness.CommitGate
