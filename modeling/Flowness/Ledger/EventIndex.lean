import Flowness.Schemas.EventRecord

/-!
The in-memory index over committed records. Every bucket is filled by `indexOne`, in a bulk build
and in an incremental one.
-/

namespace Flowness.Ledger

open Library Schemas

inductive KeyIndexName where
  | sequence | transaction | batch | type | category | actor | task | run | correlation | causation
  | supersede | obligation | entity | inputHash
deriving DecidableEq, Repr

namespace KeyIndexName

def all : List KeyIndexName :=
  [.sequence, .transaction, .batch, .type, .category, .actor, .task, .run, .correlation, .causation,
    .supersede, .obligation, .entity, .inputHash]

theorem mem_all (name : KeyIndexName) : name ∈ all := by
  cases name <;> decide

end KeyIndexName

/-- `defaultdict(list)` by key. -/
abbrev Buckets (κ : Type) := Dict κ (List EventRecord)

namespace Buckets

variable {κ : Type} [DecidableEq κ]

def lookup (buckets : Buckets κ) (key : κ) : List EventRecord := (Dict.get buckets key).getD []

/-- `buckets[key].append(record)`. -/
def file (buckets : Buckets κ) (record : EventRecord) (key : κ) : Buckets κ :=
  Dict.set buckets key (lookup buckets key ++ [record])

def fileSome (buckets : Buckets κ) (record : EventRecord) : Option κ → Buckets κ
  | none => buckets
  | some key => buckets.file record key

theorem lookup_file (buckets : Buckets κ) (record : EventRecord) (other key : κ) :
    (buckets.file record other).lookup key =
      buckets.lookup key ++ (([other].filter (· = key)).map fun _ => record) := by
  unfold lookup file
  by_cases hkey : other = key
  · subst hkey
    simp [lookup]
  · simp [Dict.get_set_of_ne _ _ (Ne.symm hkey), hkey]

theorem lookup_foldl_file (keys : EventRecord → List κ) (records : List EventRecord)
    (buckets : Buckets κ) (key : κ) :
    (records.foldl (fun buckets record => (keys record).foldl (fun buckets key => buckets.file record key)
        buckets) buckets).lookup key =
      buckets.lookup key ++
        records.flatMap fun record => ((keys record).filter (· = key)).map fun _ => record := by
  have hkeys : ∀ (record : EventRecord) (names : List κ) (buckets : Buckets κ),
      (names.foldl (fun buckets key => buckets.file record key) buckets).lookup key =
        buckets.lookup key ++ (names.filter (· = key)).map fun _ => record := by
    intro record names
    induction names with
    | nil => simp
    | cons first names ih =>
      intro buckets
      rw [List.foldl_cons, ih, lookup_file, List.append_assoc, ← List.map_append, ← List.filter_append]
      rfl
  induction records generalizing buckets with
  | nil => simp
  | cons record records ih =>
    rw [List.foldl_cons, ih, hkeys, List.flatMap_cons, List.append_assoc]

end Buckets

structure EventIndex where
  records : List EventRecord := []
  byEventId : Dict String EventRecord := []
  bySequence : Dict Nat EventRecord := []
  byTransaction : Buckets String := []
  byBatch : Buckets String := []
  byType : Buckets String := []
  byCategory : Buckets String := []
  byActor : Buckets String := []
  byTask : Buckets String := []
  byRun : Buckets String := []
  byCorrelation : Buckets String := []
  byCausation : Buckets String := []
  bySupersede : Buckets String := []
  byEntity : Buckets (String × String) := []
  byObligation : Buckets String := []
  byInputHash : Dict (String × String) EventRecord := []

def entityKeys (record : EventRecord) : List (String × String) :=
  record.subjects.val.map fun subject => (subject.entityType.value, subject.entityId.val)

def obligationKeys (record : EventRecord) : List String :=
  (record.subjects.val.filter fun subject => subject.entityType.value = "obligation").map
    fun subject => subject.entityId.val

/-- The resolver and the input hash of a `ResolverDecisionMade`. -/
def inputHashKey (record : EventRecord) : Option (String × String) :=
  if record.eventType.value = "ResolverDecisionMade" then
    match record.payload.get "after_state" with
    | some (.obj after) =>
      match Dict.get after "resolver_id", Dict.get after "input_hash" with
      | some (.str resolverId), some (.str inputHash) => some (resolverId, inputHash)
      | _, _ => none
    | _ => none
  else none

namespace EventIndex

def indexOne (index : EventIndex) (record : EventRecord) : EventIndex :=
  { index with
    byEventId := Dict.set index.byEventId record.eventId.val record
    bySequence := Dict.set index.bySequence record.sequenceNumber record
    byTransaction := index.byTransaction.fileSome record (record.batch.map BatchSlot.transactionId)
    byBatch := index.byBatch.fileSome record record.batchId
    byType := index.byType.file record record.eventType.value
    byCategory := index.byCategory.file record record.eventCategory.value
    byActor := index.byActor.file record record.provenance.actorId.val
    byTask := index.byTask.fileSome record record.provenance.taskId
    byRun := index.byRun.fileSome record record.provenance.runId
    byCorrelation := index.byCorrelation.fileSome record record.provenance.correlationId
    byCausation := index.byCausation.fileSome record record.provenance.causationEventId
    bySupersede := index.bySupersede.fileSome record record.supersede.supersededEventId?
    byEntity := (entityKeys record).foldl (fun buckets key => buckets.file record key) index.byEntity
    byObligation :=
      (obligationKeys record).foldl (fun buckets key => buckets.file record key) index.byObligation
    byInputHash := match inputHashKey record with
      | some key => Dict.set index.byInputHash key record
      | none => index.byInputHash }

def add (index : EventIndex) (record : EventRecord) : EventIndex :=
  { index.indexOne record with records := index.records ++ [record] }

/-- `EventIndex(records)`. -/
def build (records : List EventRecord) : EventIndex :=
  { records.foldl indexOne {} with records }

theorem lookup_byEntity_build (records : List EventRecord) (key : String × String) :
    (build records).byEntity.lookup key =
      records.flatMap fun record => ((entityKeys record).filter (· = key)).map fun _ => record := by
  have hfold : ∀ (records : List EventRecord) (index : EventIndex),
      (records.foldl indexOne index).byEntity = records.foldl (fun buckets record =>
        (entityKeys record).foldl (fun buckets key => buckets.file record key) buckets)
          index.byEntity := by
    intro records
    induction records with
    | nil => exact fun index => rfl
    | cons record records ih => exact fun index => ih (index.indexOne record)
  have hbuild : (build records).byEntity = (records.foldl indexOne {}).byEntity := rfl
  rw [hbuild, hfold, Buckets.lookup_foldl_file]
  rfl

theorem lookup_byObligation_build (records : List EventRecord) (obligationId : String) :
    (build records).byObligation.lookup obligationId =
      records.flatMap fun record =>
        ((obligationKeys record).filter (· = obligationId)).map fun _ => record := by
  have hfold : ∀ (records : List EventRecord) (index : EventIndex),
      (records.foldl indexOne index).byObligation = records.foldl (fun buckets record =>
        (obligationKeys record).foldl (fun buckets key => buckets.file record key) buckets)
          index.byObligation := by
    intro records
    induction records with
    | nil => exact fun index => rfl
    | cons record records ih => exact fun index => ih (index.indexOne record)
  have hbuild : (build records).byObligation = (records.foldl indexOne {}).byObligation := rfl
  rw [hbuild, hfold, Buckets.lookup_foldl_file]
  rfl

/-- The highest sequence number, `-1` if there is none. -/
def maxSequence (index : EventIndex) : Int :=
  (index.bySequence.keys.map Int.ofNat).foldl max (-1)

def eventIdSet (index : EventIndex) : List String := index.byEventId.keys

def sequenceSet (index : EventIndex) : List Int := index.bySequence.keys.map Int.ofNat

/-- `str(k)` of a sequence number. -/
def sequenceKey (sequenceNumber : Nat) : String := String.ofList (Json.renderInt sequenceNumber)

def joinKey (key : String × String) : String := key.1 ++ "\x00" ++ key.2

def comprehend {ν : Type} (entries : List (String × ν)) : Dict String ν :=
  entries.foldl (fun dict entry => Dict.set dict entry.1 entry.2) []

def idsOf (records : List EventRecord) : List String := records.map (·.eventId.val)

/-- `serializable_key_indexes()[name]`: each key with the event ids of its bucket. -/
def serializableKeyIndex (index : EventIndex) : KeyIndexName → Dict String (List String)
  | .sequence => index.bySequence.map fun entry => (sequenceKey entry.1, [entry.2.eventId.val])
  | .transaction => index.byTransaction.map (Prod.map id idsOf)
  | .batch => index.byBatch.map (Prod.map id idsOf)
  | .type => index.byType.map (Prod.map id idsOf)
  | .category => index.byCategory.map (Prod.map id idsOf)
  | .actor => index.byActor.map (Prod.map id idsOf)
  | .task => index.byTask.map (Prod.map id idsOf)
  | .run => index.byRun.map (Prod.map id idsOf)
  | .correlation => index.byCorrelation.map (Prod.map id idsOf)
  | .causation => index.byCausation.map (Prod.map id idsOf)
  | .supersede => index.bySupersede.map (Prod.map id idsOf)
  | .obligation => index.byObligation.map (Prod.map id idsOf)
  | .entity => comprehend (index.byEntity.map fun entry => (joinKey entry.1, idsOf entry.2))
  | .inputHash =>
    comprehend (index.byInputHash.map fun entry => (joinKey entry.1, [entry.2.eventId.val]))

end EventIndex

end Flowness.Ledger
