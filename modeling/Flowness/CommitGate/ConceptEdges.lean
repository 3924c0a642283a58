import Flowness.Planning.PlanEvents
import Flowness.Projection.ImpactGraph

/-!
Three readings of the live edges between concepts: the concept graph projection, the freeze check that
asks which concepts the migration invariant governs, and the activation gate that asks which
capabilities the registry references.
-/

namespace Flowness.CommitGate

open List Library Schemas Ledger Projection Planning

def migrationInvariantConceptId : String := "migration-done-requires-old-path-removal@v1"

section

variable (strOther : Json → String)

/-- `str(value or "")`. -/
def orEmpty (value : Json) : String := if value.truthy then str strOther value else ""

def conceptEdgeEndpoints (event : LogEvent) : String × String :=
  let fields := afterState strOther event
  (aliasedMember strOther fields "source_concept_id" "from_concept",
    aliasedMember strOther fields "target_concept_id" "to_concept")

/-- What an event does to the active edges into the invariant: an edge id with its source, or an edge id
that is dropped. -/
def governanceChange (event : LogEvent) : Option (String × Option String) :=
  if Planning.eventType strOther event = "ConceptEdgeAdded" then
    let edgeId := orEmpty strOther (Json.lookup (afterState strOther event) "edge_id")
    let (source, target) := conceptEdgeEndpoints strOther event
    if edgeId ≠ "" ∧ target = migrationInvariantConceptId ∧ source ≠ "" ∧
        source ≠ migrationInvariantConceptId then
      some (edgeId, some source)
    else none
  else if Planning.eventType strOther event = "ConceptEdgeRemoved" then
    let edgeId := orEmpty strOther (Json.lookup (beforeState event) "edge_id")
    if edgeId ≠ "" then some (edgeId, none) else none
  else none

/-- `migration_concept_ids`, with repetitions. -/
def migrationConceptIds (events : List LogEvent) : List String :=
  (replay (governanceChange strOther) events).map Prod.snd

end

def registryConceptId : String := "harness-capability-registry@v1"

def isRegistryReference (fields : Dict String Json) : Prop :=
  Json.lookup fields "source_concept_id" = .str registryConceptId ∧
    Json.lookup fields "edge_type" = .str "reference"

instance (fields : Dict String Json) : Decidable (isRegistryReference fields) :=
  inferInstanceAs (Decidable (_ ∧ _))

def registryAdd (record : EventRecord) : Option (Option String × String) :=
  let (kind, payload) := effKindPayload record.eventType record.payload
  let after := (Json.lookup payload "after_state").asDict
  if kind = "ConceptEdgeAdded" ∧ isRegistryReference after then
    (Json.nonBlank after "target_concept_id").map fun target => (Json.nonBlank after "edge_id", target)
  else none

def registryRemoval (record : EventRecord) : Option String × Option String :=
  let (kind, payload) := effKindPayload record.eventType record.payload
  let before := (Json.lookup payload "before_state").asDict
  if kind = "ConceptEdgeRemoved" ∧ isRegistryReference before then
    (Json.nonBlank before "edge_id", Json.nonBlank before "target_concept_id")
  else (none, none)

structure RegistrySeen where
  added : Dict String String := []
  addedNoId : List String := []
  removedIds : List String := []
  removedTargets : List String := []

/-- One turn of the loop of `_registered_capabilities`. -/
def observeRegistry (seen : RegistrySeen) (record : EventRecord) : RegistrySeen :=
  match registryAdd record with
  | some (some edgeId, target) => { seen with added := Dict.set seen.added edgeId target }
  | some (none, target) => { seen with addedNoId := seen.addedNoId ++ [target] }
  | none =>
    { seen with
      removedIds := seen.removedIds ++ (registryRemoval record).1.toList
      removedTargets := seen.removedTargets ++ (registryRemoval record).2.toList }

/-- `_registered_capabilities`, with repetitions. -/
def registeredCapabilities (records : List EventRecord) : List String :=
  let seen := records.foldl observeRegistry {}
  (seen.added.filter (·.1 ∉ seen.removedIds)).map Prod.snd ++
    seen.addedNoId.filter (· ∉ seen.removedTargets)

section

variable (strOther : Json → String) (records : List EventRecord)

/-- The three readers have the same live edges: those that the projection marks active. -/
structure OneSetOfEdges : Prop where
  governed : ∀ concept : Json,
    (∃ text ∈ migrationConceptIds strOther (records.map EventRecord.toEntries), concept = .str text) ↔
      ∃ edge ∈ (conceptGraph records).edges, edge.isActive = true ∧
        edge.targetConceptId = .str migrationInvariantConceptId ∧ edge.sourceConceptId = concept
  registered : ∀ capability : Json,
    (∃ text ∈ registeredCapabilities records, capability = .str text) ↔
      ∃ edge ∈ (conceptGraph records).edges, edge.isActive = true ∧
        edge.sourceConceptId = .str registryConceptId ∧ edge.edgeType = .str "reference" ∧
          edge.targetConceptId = capability

/-- The last event about the edge id adds an edge from the concept into the invariant. -/
def GovernedVia (edgeId concept : String) : Prop :=
  Since records
    (fun _ record => governanceChange strOther record.toEntries = some (edgeId, some concept))
    fun record => ∃ change, governanceChange strOther record.toEntries = some (edgeId, change)

/-- The last reference added under the edge id is one to the capability, and no event, earlier or later,
removes a reference under this id. -/
def RegisteredVia (edgeId capability : String) : Prop :=
  Since records (fun _ record => registryAdd record = some (some edgeId, capability))
      (fun record => ∃ other, registryAdd record = some (some edgeId, other)) ∧
    ∀ record ∈ records, (registryRemoval record).1 ≠ some edgeId

/-- A reference without an edge id is added, and no event removes a reference to the capability. -/
def RegisteredNameless (capability : String) : Prop :=
  (∃ record ∈ records, registryAdd record = some (none, capability)) ∧
    ∀ record ∈ records, (registryRemoval record).2 ≠ some capability

/-- What one reader counts through some edge, the other counts through some edge of its own: live for the
projection is the first edge of an id, while no event removes the id after it. -/
structure CountedAlike : Prop where
  governs : ∀ edgeId concept, GovernedVia strOther records edgeId concept →
    ∃ edge, LiveConceptEdge records edge ∧
      edge.targetConceptId = .str migrationInvariantConceptId ∧ edge.sourceConceptId = .str concept
  governed : ∀ edge, LiveConceptEdge records edge →
    edge.targetConceptId = .str migrationInvariantConceptId →
      ∃ edgeId concept, GovernedVia strOther records edgeId concept ∧ edge.sourceConceptId = .str concept
  registers : ∀ capability,
    (∃ edgeId, RegisteredVia records edgeId capability) ∨ RegisteredNameless records capability →
      ∃ edge, LiveConceptEdge records edge ∧ edge.sourceConceptId = .str registryConceptId ∧
        edge.edgeType = .str "reference" ∧ edge.targetConceptId = .str capability
  registered : ∀ edge, LiveConceptEdge records edge → edge.sourceConceptId = .str registryConceptId →
    edge.edgeType = .str "reference" → ∃ capability, edge.targetConceptId = .str capability ∧
      ((∃ edgeId, RegisteredVia records edgeId capability) ∨ RegisteredNameless records capability)

end

section

variable {strOther : Json → String} {records : List EventRecord}

theorem mem_migrationConceptIds {concept : String} :
    concept ∈ migrationConceptIds strOther (records.map EventRecord.toEntries) ↔
      ∃ edgeId, GovernedVia strOther records edgeId concept := by
  have hreplay : replay (governanceChange strOther) (records.map EventRecord.toEntries) =
      replay (fun record : EventRecord => governanceChange strOther record.toEntries) records :=
    foldl_map
  unfold migrationConceptIds
  rw [hreplay]
  constructor
  · intro h
    obtain ⟨entry, hentry, rfl⟩ := mem_map.mp h
    exact ⟨entry.1, mem_replay_iff.mp hentry⟩
  · intro h
    obtain ⟨edgeId, hvia⟩ := h
    exact mem_map.mpr ⟨(edgeId, concept), mem_replay_iff.mpr hvia, rfl⟩

def registryChange (record : EventRecord) : Option (String × Option String) :=
  match registryAdd record with
  | some (some edgeId, target) => some (edgeId, some target)
  | _ => none

theorem registryRemoval_of_add {record : EventRecord} {entry : Option String × String}
    (h : registryAdd record = some entry) : registryRemoval record = (none, none) := by
  unfold registryAdd at h
  dsimp only at h
  split at h
  next hadds =>
    unfold registryRemoval
    dsimp only
    rw [if_neg fun hremoves => absurd (hadds.1.symm.trans hremoves.1) (by decide)]
  · cases h

theorem foldl_observeRegistry (records : List EventRecord) :
    (records.foldl observeRegistry {}).added = replay registryChange records ∧
      (∀ target, target ∈ (records.foldl observeRegistry {}).addedNoId ↔
        ∃ record ∈ records, registryAdd record = some (none, target)) ∧
      (∀ edgeId, edgeId ∈ (records.foldl observeRegistry {}).removedIds ↔
        ∃ record ∈ records, (registryRemoval record).1 = some edgeId) ∧
      ∀ target, target ∈ (records.foldl observeRegistry {}).removedTargets ↔
        ∃ record ∈ records, (registryRemoval record).2 = some target := by
  induction records using List.reverseRecOn with
  | nil => simp [replay]
  | append_singleton records record ih =>
    obtain ⟨hadded, hnoId, hids, htargets⟩ := ih
    simp only [foldl_append, foldl_cons, foldl_nil, replay_snoc, mem_append,
      mem_singleton, or_and_right, exists_or, exists_eq_left]
    generalize records.foldl observeRegistry {} = seen at hadded hnoId hids htargets ⊢
    rw [← hadded]
    unfold observeRegistry replayStep
    cases hadd : registryAdd record with
    | none =>
      have hchange : registryChange record = none := by
        unfold registryChange
        rw [hadd]
      simp [hchange, hnoId, hids, htargets]
    | some entry =>
      have hkept := registryRemoval_of_add hadd
      obtain ⟨edgeId, target⟩ := entry
      cases edgeId with
      | none =>
        have hchange : registryChange record = none := by
          unfold registryChange
          rw [hadd]
        simp [hchange, hnoId, hids, htargets, hkept, eq_comm]
      | some edgeId =>
        have hchange : registryChange record = some (edgeId, some target) := by
          unfold registryChange
          rw [hadd]
        simp [hchange, hnoId, hids, htargets, hkept]

theorem mem_registeredCapabilities {capability : String} :
    capability ∈ registeredCapabilities records ↔
      (∃ edgeId, RegisteredVia records edgeId capability) ∨ RegisteredNameless records capability := by
  have hchange : ∀ edgeId value (record : EventRecord),
      registryChange record = some (edgeId, value) ↔
        ∃ target, value = some target ∧ registryAdd record = some (some edgeId, target) := by
    intro edgeId value record
    unfold registryChange
    split
    next other target hadd =>
      rw [hadd]
      simp [and_comm, eq_comm]
    next hnone =>
      constructor
      · intro h
        cases h
      · intro h
        obtain ⟨target, -, hadd⟩ := h
        exact absurd hadd (hnone edgeId target)
  obtain ⟨hadded, hnoId, hids, htargets⟩ := foldl_observeRegistry records
  unfold registeredCapabilities
  rw [mem_append, mem_filter, hnoId, decide_eq_true_eq, htargets]
  apply or_congr
  · simp only [mem_map, mem_filter, decide_eq_true_eq, hids, Prod.exists, hadded,
      mem_replay_iff, hchange, exists_eq_right, RegisteredVia]
    simp
  · simp [RegisteredNameless]

/-- The readers have one set of live edges exactly when they count alike. -/
theorem oneSetOfEdges_iff (strOther : Json → String) (records : List EventRecord) :
    OneSetOfEdges strOther records ↔ CountedAlike strOther records := by
  have hlive := (holdsConceptEdges records).live
  constructor
  · intro h
    refine ⟨?_, ?_, ?_, ?_⟩
    · intro edgeId concept hvia
      obtain ⟨edge, hmem, hactive, htarget, hsource⟩ := (h.governed (.str concept)).mp
        ⟨concept, mem_migrationConceptIds.mpr ⟨edgeId, hvia⟩, rfl⟩
      exact ⟨edge, (hlive edge).mp ⟨hmem, hactive⟩, htarget, hsource⟩
    · intro edge hedge htarget
      obtain ⟨hmem, hactive⟩ := (hlive edge).mpr hedge
      obtain ⟨concept, hconcept, hsource⟩ := (h.governed edge.sourceConceptId).mpr
        ⟨edge, hmem, hactive, htarget, rfl⟩
      obtain ⟨edgeId, hvia⟩ := mem_migrationConceptIds.mp hconcept
      exact ⟨edgeId, concept, hvia, hsource⟩
    · intro capability hregistered
      obtain ⟨edge, hmem, hactive, hsource, htype, htarget⟩ := (h.registered (.str capability)).mp
        ⟨capability, mem_registeredCapabilities.mpr hregistered, rfl⟩
      exact ⟨edge, (hlive edge).mp ⟨hmem, hactive⟩, hsource, htype, htarget⟩
    · intro edge hedge hsource htype
      obtain ⟨hmem, hactive⟩ := (hlive edge).mpr hedge
      obtain ⟨capability, hcapability, htarget⟩ := (h.registered edge.targetConceptId).mpr
        ⟨edge, hmem, hactive, hsource, htype, rfl⟩
      exact ⟨capability, htarget, mem_registeredCapabilities.mp hcapability⟩
  · intro h
    constructor
    · intro concept
      constructor
      · intro hgoverned
        obtain ⟨text, htext, rfl⟩ := hgoverned
        obtain ⟨edgeId, hvia⟩ := mem_migrationConceptIds.mp htext
        obtain ⟨edge, hedge, htarget, hsource⟩ := h.governs edgeId text hvia
        obtain ⟨hmem, hactive⟩ := (hlive edge).mpr hedge
        exact ⟨edge, hmem, hactive, htarget, hsource⟩
      · intro hprojected
        obtain ⟨edge, hmem, hactive, htarget, rfl⟩ := hprojected
        obtain ⟨edgeId, text, hvia, hsource⟩ := h.governed edge ((hlive edge).mp ⟨hmem, hactive⟩) htarget
        exact ⟨text, mem_migrationConceptIds.mpr ⟨edgeId, hvia⟩, hsource⟩
    · intro capability
      constructor
      · intro hregistered
        obtain ⟨text, htext, rfl⟩ := hregistered
        obtain ⟨edge, hedge, hsource, htype, htarget⟩ :=
          h.registers text (mem_registeredCapabilities.mp htext)
        obtain ⟨hmem, hactive⟩ := (hlive edge).mpr hedge
        exact ⟨edge, hmem, hactive, hsource, htype, htarget⟩
      · intro hprojected
        obtain ⟨edge, hmem, hactive, hsource, htype, rfl⟩ := hprojected
        obtain ⟨text, htarget, hregistered⟩ :=
          h.registered edge ((hlive edge).mp ⟨hmem, hactive⟩) hsource htype
        exact ⟨text, mem_registeredCapabilities.mpr hregistered, htarget⟩

end

def edgeRecord (eventType : EventType) (key : String) (eventId : EventId) (sequenceNumber : Nat) :
    EventRecord :=
  stamp sampleEnv
    { sampleIntent with
      eventType
      payload := ⟨[(key, .obj [("edge_id", .str "e-1"), ("source_concept_id", .str "billing@v1"),
        ("target_concept_id", .str migrationInvariantConceptId), ("edge_type", .str "reference")])], by
        simp [Json.proper, Json.properEntries, Dict.keys]⟩ }
    eventId sampleTime sequenceNumber none

def readdedEdge : List EventRecord :=
  [edgeRecord .conceptEdgeAdded "after_state" sampleId 0,
    edgeRecord .conceptEdgeRemoved "before_state" secondId 1,
    edgeRecord .conceptEdgeAdded "after_state" thirdId 2]

/-- The freeze check takes the edge for live again, the projection does not. -/
theorem readded_edge_governs_inactive :
    migrationConceptIds sampleStr (readdedEdge.map EventRecord.toEntries) = ["billing@v1"] ∧
      ((conceptGraph readdedEdge).edges.map fun edge => (edge.edgeId, edge.isActive)) = [("e-1", false)] ∧
      ¬OneSetOfEdges sampleStr readdedEdge := by
  have hgoverned : migrationConceptIds sampleStr (readdedEdge.map EventRecord.toEntries) =
      ["billing@v1"] := by decide +kernel
  have hinactive : ((conceptGraph readdedEdge).edges.map fun edge => (edge.edgeId, edge.isActive)) =
      [("e-1", false)] := by decide +kernel
  refine ⟨hgoverned, hinactive, fun h => ?_⟩
  obtain ⟨edge, hmem, hactive, -⟩ := (h.governed (.str "billing@v1")).mp
    ⟨"billing@v1", by rw [hgoverned]; exact mem_singleton_self _, rfl⟩
  have hflag : (edge.edgeId, edge.isActive) ∈ [("e-1", false)] := by
    rw [← hinactive]
    exact mem_map_of_mem hmem
  rw [hactive] at hflag
  simp at hflag

end Flowness.CommitGate
