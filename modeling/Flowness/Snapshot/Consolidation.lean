import Flowness.Snapshot.FiledStore
import Flowness.Snapshot.Unconsumed

/-!
A consolidation folds a sealed segment into a digest and moves it to cold storage. Writes and the
other maintenance runs go on between its steps.
-/

namespace Flowness.Snapshot

open List Library Schemas Ledger
open Ledger.EventIndex (idsOf)

/-- A committed digest; `held` is what the segment had when it was read. -/
structure Digest where
  provenanceRefs : List String
  originalEventCount : Nat
  held : List EventRecord

/-- How far a run has come. `content` is the file as it was copied to staging. -/
inductive ConsolidationStage where
  | started
  | picked (segment : Nat)
  | read (segment : Nat) (held : List EventRecord)
  | prepared (segment : Nat) (held content : List EventRecord)
  | committed (segment : Nat) (held content : List EventRecord)

/-- `_pick_consolidatable_segment`: the oldest sealed segment with records and no immutable truth. -/
def pickConsolidatableSegment (sealed : Dict Nat (List EventRecord)) : Option Nat :=
  (sealed.find? fun entry =>
    let records := entry.2.filter legible
    records ≠ [] && records.all (·.baseClassification ≠ .immutableTruth)).map Prod.fst

/-- The provenance part of `verify_consolidation_invariants_full`: no immutable truth that is hot
lies in the range, and every reference is found. -/
def verifyProvenance (store : GcStore) (records : List EventRecord) : Bool :=
  let segStart := (records.map (·.sequenceNumber)).min?.getD 0
  let segEnd := (records.map (·.sequenceNumber)).max?.getD 0
  (store.hotRecords.all fun record =>
    !((segStart ≤ record.sequenceNumber ∧ record.sequenceNumber ≤ segEnd) ∧
      record.baseClassification = .immutableTruth)) &&
    (idsOf records).all fun eventId => (store.getEvent eventId).isSome

/-- The log, the consolidation that is going on with what it found when it started, the digests,
and every record that a consolidation took from the hot log with the start of that one. -/
structure ConsolidationWorld where
  store : GcStore := {}
  run : Option (GcState × ConsolidationStage) := none
  digests : List Digest := []
  removed : List (GcState × EventRecord) := []

namespace ConsolidationWorld

inductive Action where
  | maintain (action : GcStore.Action)
  | start (state : GcState)
  | pick
  | read
  | prepare
  | commit (othersPass : Bool)
  | finalize (staged : Bool)

variable (world : ConsolidationWorld)

def ended : ConsolidationWorld := { world with run := none }

def goesOn (state : GcState) (stage : ConsolidationStage) : ConsolidationWorld :=
  { world with run := some (state, stage) }

/-- `finalize_archive`: the staging copy becomes the archive unless there is one, the references are
routed to it, and the hot file goes. -/
def finalized (state : GcState) (segment : Nat) (held content : List EventRecord) :
    ConsolidationWorld where
  store := ((world.store.archive segment content).route segment
    (idsOf (held.filter legible))).unlink segment
  run := none
  digests := world.digests
  removed := world.removed ++ content.map (state, ·)

/-- `run_consolidation`. Its snapshot and its batch are writes of their own; `othersPass` is what the
checks of the gate on anything but provenance say, and `staged` whether the copy is still there. -/
def step : Action → Option ConsolidationWorld
  | .maintain action => (world.store.step action).map fun store => { world with store }
  | .start state =>
    if world.run.isNone ∧ state.log.allRecords = world.store.hotRecords then
      some (world.goesOn state .started)
    else none
  | .pick =>
    match world.run with
    | some (state, .started) =>
      match pickConsolidatableSegment world.store.hot.dropLast with
      | none => some world.ended
      | some segment => some (world.goesOn state (.picked segment))
    | _ => none
  | .read =>
    match world.run with
    | some (state, .picked segment) =>
      match Dict.get world.store.hot segment with
      | none => some world.ended
      | some held =>
        if held.filter legible = [] ∨
            archivePath world.store.hotRecords (held.filter legible) = .pureDiscard then
          some world.ended
        else some (world.goesOn state (.read segment held))
    | _ => none
  | .prepare =>
    match world.run with
    | some (state, .read segment held) =>
      match Dict.get world.store.hot segment with
      | none => some world.ended
      | some content => some (world.goesOn state (.prepared segment held content))
    | _ => none
  | .commit othersPass =>
    match world.run with
    | some (state, .prepared segment held content) =>
      let records := held.filter legible
      if othersPass && verifyProvenance world.store records then
        some { world.goesOn state (.committed segment held content) with
          digests := world.digests ++ [⟨idsOf records, records.length, held⟩] }
      else some world.ended
    | _ => none
  | .finalize staged =>
    match world.run with
    | some (state, .committed segment held content) =>
      if staged ∧ Dict.get world.store.hot segment = some content then
        some (world.finalized state segment held content)
      else some world.ended
    | _ => none

/-- Consolidations take nothing that garbage collection must keep, and the digests stand for
everything that was in their segments. -/
structure Consolidated : Prop where
  within : ∀ removal ∈ world.removed,
    (removal.2.sequenceNumber : Int) ≤ removal.1.gcBound.bound ∧
      removal.2.eventId.val ∉ removal.1.reachable
  retrievable : ∀ digest ∈ world.digests, ∀ eventId ∈ digest.provenanceRefs,
    ∃ record ∈ world.store.written, record.eventId.val = eventId ∧
      world.store.getEvent eventId = some record
  counted : ∀ digest ∈ world.digests, digest.originalEventCount = digest.held.length

/-- A segment has records, and none that is found is immutable truth. -/
def Consolidatable (held : List EventRecord) : Prop :=
  (∃ record ∈ held, legible record = true) ∧
    ∀ record ∈ held, legible record = true → record.baseClassification ≠ .immutableTruth

/-- Where a consolidation looks for its segment, the oldest sealed one without immutable truth has
only records that nothing held or kept when it started, and every line of it is found. A cold move
that discards a segment leaves the references of a digest that are not yet routed. -/
def LimitStep : Action → Prop
  | .pick => ∀ state, world.run = some (state, .started) → ∀ before segment held after,
      world.store.hot.dropLast = before ++ (segment, held) :: after → Consolidatable held →
        (∀ entry ∈ before, ¬Consolidatable entry.2) →
          ∀ record ∈ held, state.Free record ∧ legible record = true
  | .maintain (.moveSegment segment) => ∀ state records,
      world.store.visit segment = some (state, records) →
        archivePath world.store.hotRecords (records.filter legible) = .pureDiscard →
          ∀ record ∈ records, ∀ digest ∈ world.digests,
            record.eventId.val ∈ digest.provenanceRefs → world.store.Routed record
  | _ => True

/-- What is left in the file was there when it was read, and what was found and is gone is in the
archive of the segment. -/
structure ReadFrom (store : GcStore) (segment : Nat) (held content : List EventRecord) : Prop where
  left : ∀ record ∈ content, record ∈ held
  found : ∀ record ∈ held, legible record = true → record ∈ content ∨ store.Shelved segment record

/-- Written records that are found, as garbage collection could take them. -/
structure Within (store : GcStore) (state : GcState) (held : List EventRecord) : Prop where
  limits : ∀ record ∈ held, (record.sequenceNumber : Int) ≤ state.gcBound.bound ∧
    record.eventId.val ∉ state.reachable
  found : ∀ record ∈ held, legible record = true
  written : ∀ record ∈ held, record ∈ store.written

def StageSound (store : GcStore) (state : GcState) : ConsolidationStage → Prop
  | .started => True
  | .picked segment => store.Sealed segment ∧
      ∀ content, Dict.get store.hot segment = some content → Within store state content
  | .read segment held => store.Sealed segment ∧ Within store state held ∧
      ∀ content, Dict.get store.hot segment = some content → ReadFrom store segment held content
  | .prepared segment held content | .committed segment held content =>
    store.Sealed segment ∧ Within store state held ∧ ReadFrom store segment held content

def Referred (store : GcStore) (eventId : String) : Prop :=
  ∃ record ∈ store.written, record.eventId.val = eventId ∧ legible record = true ∧ store.Kept record

structure Sound : Prop where
  filed : world.store.Filed
  within : ∀ removal ∈ world.removed,
    (removal.2.sequenceNumber : Int) ≤ removal.1.gcBound.bound ∧
      removal.2.eventId.val ∉ removal.1.reachable
  referred : ∀ digest ∈ world.digests, ∀ eventId ∈ digest.provenanceRefs,
    Referred world.store eventId
  counted : ∀ digest ∈ world.digests, digest.originalEventCount = digest.held.length
  running : ∀ state stage, world.run = some (state, stage) → StageSound world.store state stage

variable {world : ConsolidationWorld}

theorem Sound.consolidated (h : world.Sound) : world.Consolidated where
  within := h.within
  retrievable digest hdigest eventId hid := by
    obtain ⟨record, hwritten, rfl, -, hkept⟩ := h.referred digest hdigest eventId hid
    exact ⟨record, hwritten, rfl, h.filed.getEvent_of_kept hwritten hkept⟩
  counted := h.counted

theorem Sound.ended (h : world.Sound) : world.ended.Sound :=
  ⟨h.filed, h.within, h.referred, h.counted, fun _ _ hrun => absurd hrun nofun⟩

variable {state : GcState} {next store : GcStore} {action : GcStore.Action}
  {content held : List EventRecord} {segment : Nat}

theorem Sound.goesOn (h : world.Sound) (stage : ConsolidationStage)
    (hstage : StageSound world.store state stage) : (world.goesOn state stage).Sound where
  filed := h.filed
  within := h.within
  referred := h.referred
  counted := h.counted
  running other stage' hrun := by
    cases hrun
    exact hstage

theorem ReadFrom.shrunk (h : ReadFrom store segment held content)
    (hshrunk : GcStore.Shrunk store next segment) (hrest : ∀ record ∈ rest, record ∈ content)
    (hgone : ∀ record ∈ content, legible record = true → record ∈ rest ∨
      next.Shelved segment record) : ReadFrom next segment held rest where
  left record hmem := h.left record (hrest record hmem)
  found record hmem hline := by
    rcases h.found record hmem hline with hcontent | hshelved
    · exact hgone record hcontent hline
    · exact .inr (hshrunk.shelved record hshelved)

theorem Within.step (hnext : store.step action = some next) (h : Within store state held)
    (hrest : ∀ record ∈ rest, record ∈ held) : Within next state rest where
  limits record hmem := h.limits record (hrest record hmem)
  found record hmem := h.found record (hrest record hmem)
  written record hmem := GcStore.written_step hnext record (h.written record (hrest record hmem))

theorem StageSound.step (hfiled : store.Filed) (hnext : store.step action = some next)
    (h : StageSound store state stage) : StageSound next state stage := by
  have hshrunk : ∀ {segment}, store.Sealed segment → GcStore.Shrunk store next segment :=
    fun hsealed => GcStore.Shrunk.step hfiled hsealed hnext
  have hprepared : ∀ {segment held content},
      store.Sealed segment ∧ Within store state held ∧ ReadFrom store segment held content →
        next.Sealed segment ∧ Within next state held ∧ ReadFrom next segment held content :=
    fun ⟨hsealed, hwithin, hread⟩ => ⟨(hshrunk hsealed).still_sealed,
      hwithin.step hnext fun _ hmem => hmem,
      hread.shrunk (hshrunk hsealed) (fun _ hmem => hmem) fun _ hmem _ => .inl hmem⟩
  cases stage with
  | started => trivial
  | picked segment =>
    obtain ⟨hsealed, hwithin⟩ := h
    refine ⟨(hshrunk hsealed).still_sealed, fun rest hrest => ?_⟩
    obtain ⟨content, hcontent, hleft, -⟩ := (hshrunk hsealed).rest rest hrest
    exact (hwithin content hcontent).step hnext hleft
  | read segment held =>
    obtain ⟨hsealed, hwithin, hread⟩ := h
    refine ⟨(hshrunk hsealed).still_sealed, hwithin.step hnext fun _ hmem => hmem, ?_⟩
    intro rest hrest
    obtain ⟨content, hcontent, hleft, hgone⟩ := (hshrunk hsealed).rest rest hrest
    exact (hread content hcontent).shrunk (hshrunk hsealed) hleft hgone
  | prepared segment held content => exact hprepared h
  | committed segment held content => exact hprepared h

theorem Referred.step (hfiled : store.Filed) (hnext : store.step action = some next)
    (hdiscard : ∀ segment state records, action = .moveSegment segment →
      store.visit segment = some (state, records) →
        archivePath store.hotRecords (records.filter legible) = .pureDiscard →
          ∀ record ∈ records, record.eventId.val = eventId → store.Routed record)
    (h : Referred store eventId) : Referred next eventId := by
  obtain ⟨record, hwritten, hid, hline, hkept⟩ := h
  refine ⟨record, GcStore.written_step hnext record hwritten, hid, hline, ?_⟩
  obtain ⟨rotates, records, -, -, rfl⟩ | ⟨_, -, -, rfl⟩ |
    ⟨segment, state, records, haction, hvisit, -, rfl⟩ | ⟨_, state, _, -, hvisit, -, rfl⟩ | ⟨-, rfl⟩ :=
    GcStore.step_cases hnext
  · exact hkept.append hfiled.ascending rotates records
  · exact hkept
  · exact hkept.moved hfiled hvisit hwritten (fun _ => hline) fun hpath hmem =>
      hdiscard segment state records haction hvisit hpath record hmem hid
  · exact hkept.compacted hfiled hvisit state.reachable hwritten fun _ => hline
  · exact hkept

theorem Sound.maintain (h : world.Sound) (hguard : world.LimitStep (.maintain action))
    (hnext : world.store.step action = some next) :
    ({ world with store := next } : ConsolidationWorld).Sound where
  filed := h.filed.step hnext
  within := h.within
  referred digest hdigest eventId hid := by
    refine (h.referred digest hdigest eventId hid).step h.filed hnext ?_
    rintro segment state records rfl hvisit hpath record hmem rfl
    exact hguard state records hvisit hpath record hmem digest hdigest hid
  counted := h.counted
  running state stage hrun := (h.running state stage hrun).step h.filed hnext

/-- The picked segment is the oldest sealed one without immutable truth. -/
theorem pick_spec {sealed : Dict Nat (List EventRecord)}
    (h : pickConsolidatableSegment sealed = some segment) :
    ∃ before held after, sealed = before ++ (segment, held) :: after ∧ Consolidatable held ∧
      ∀ entry ∈ before, ¬Consolidatable entry.2 := by
  have hpredicate : ∀ entry : Nat × List EventRecord,
      (entry.2.filter legible ≠ [] &&
        (entry.2.filter legible).all (·.baseClassification ≠ .immutableTruth)) = true ↔
        Consolidatable entry.2 := by
    intro entry
    unfold Consolidatable
    simp only [Bool.and_eq_true, decide_eq_true_eq, ne_eq, filter_eq_nil_iff, not_forall,
      not_not, all_eq_true, mem_filter, and_imp, exists_prop]
  obtain ⟨⟨_, held⟩, hfind, rfl⟩ := Option.map_eq_some_iff.mp h
  obtain ⟨hfits, before, after, hsplit, hbefore⟩ := List.find?_eq_some_iff_append.mp hfind
  refine ⟨before, held, after, hsplit, (hpredicate _).mp hfits, fun entry hentry hother => ?_⟩
  have hnot := hbefore entry hentry
  rw [(hpredicate entry).mpr hother] at hnot
  cases hnot

theorem referred_of_verify (hfiled : store.Filed)
    (hwritten : ∀ record ∈ held, record ∈ store.written)
    (hverify : verifyProvenance store (held.filter legible) = true) :
    ∀ eventId ∈ idsOf (held.filter legible), Referred store eventId := by
  intro eventId hid
  unfold verifyProvenance at hverify
  simp only [Bool.and_eq_true] at hverify
  obtain ⟨found, hfound⟩ := Option.isSome_iff_exists.mp (all_eq_true.mp hverify.2 eventId hid)
  obtain ⟨record, hrecord, rfl⟩ := mem_map.mp hid
  obtain ⟨hmem, hline⟩ := mem_filter.mp hrecord
  obtain ⟨hkept, hsame⟩ := GcStore.kept_of_getEvent hfound
  obtain rfl := hfiled.eq_of_id (hfiled.written_of_kept hkept) (hwritten record hmem) hsame
  exact ⟨found, hwritten found hmem, rfl, hline, hkept⟩

theorem Sound.committed (h : world.Sound)
    (hstage : StageSound world.store state (.prepared segment held content))
    (hverify : verifyProvenance world.store (held.filter legible) = true) :
    ({ world.goesOn state (.committed segment held content) with
      digests := world.digests ++
        [⟨idsOf (held.filter legible), (held.filter legible).length, held⟩] } :
      ConsolidationWorld).Sound where
  filed := h.filed
  within := h.within
  referred digest hdigest eventId hid := by
    rcases mem_append.mp hdigest with hold | hnew
    · exact h.referred digest hold eventId hid
    · obtain rfl := mem_singleton.mp hnew
      exact referred_of_verify h.filed hstage.2.1.written hverify eventId hid
  counted digest hdigest := by
    rcases mem_append.mp hdigest with hold | hnew
    · exact h.counted digest hold
    · obtain rfl := mem_singleton.mp hnew
      exact congrArg List.length (filter_eq_self.mpr hstage.2.1.found)
  running := (h.goesOn (.committed segment held content) hstage).running

theorem Sound.finalized (h : world.Sound)
    (hstage : StageSound world.store state (.committed segment held content))
    (hget : Dict.get world.store.hot segment = some content) :
    (world.finalized state segment held content).Sound := by
  obtain ⟨hsealed, hwithin, hread⟩ := hstage
  obtain ⟨archived, harchive, hcopied⟩ := h.filed.archived hget
  have hheld : ∀ record ∈ held, record ∈ archived := by
    intro record hmem
    rcases hread.found record hmem (hwithin.found record hmem) with hcontent | ⟨copy, hcopy, hin⟩
    · exact hcopied record hcontent (hwithin.found record hmem)
    · cases (GcStore.get_archives_archive hcopy).symm.trans harchive
      exact hin
  have hrouted : ∀ eventId ∈ idsOf (held.filter legible),
      ∃ record ∈ archived, record.eventId.val = eventId :=
    GcStore.exists_archived (fun record hmem _ => hheld record hmem) fun _ hmem => hmem
  refine ⟨h.filed.moveCold hget hsealed _, ?_, ?_, h.counted,
    fun _ _ hrun => absurd hrun nofun⟩
  · intro removal hremoval
    rcases mem_append.mp hremoval with hold | hnew
    · exact h.within removal hold
    · obtain ⟨record, hmem, rfl⟩ := mem_map.mp hnew
      exact hwithin.limits record (hread.left record hmem)
  · intro digest hdigest eventId hid
    obtain ⟨record, hwritten, hsame, hline, hkept⟩ := h.referred digest hdigest eventId hid
    refine ⟨record, ?_, hsame, hline, ?_⟩
    · exact (GcStore.written_archive segment content).symm ▸ hwritten
    · refine hkept.moveCold h.filed hget hsealed harchive hrouted hwritten ?_
      intro hmem
      have hin := hread.left record hmem
      exact ⟨mem_map_of_mem (mem_filter.mpr ⟨hin, hline⟩), hheld record hin⟩

end ConsolidationWorld

end Flowness.Snapshot
