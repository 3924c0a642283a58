import Flowness.CommitGate.CompletionChecks

/-!
The evidence for a retired task: a finding that its premise is false, confirmed by another session than
the closer's. The check remembers one confirming session only, the last in the log.
-/

namespace Flowness.CommitGate

open Library Schemas Ledger EventIndex

def verdictSubjectsTask (record : EventRecord) (taskId : String) : Bool :=
  record.subjects.val.any fun subject =>
    subject.entityType.value = "task" && subject.entityId.val = taskId

def anchorsPremiseFalse (taskId : String) (record : EventRecord) : Bool :=
  let (kind, payload) := effKindPayload record.eventType record.payload
  kind = "FindingCreated" && Json.lookup payload "finding_kind" = .str "premise_false" &&
    verdictSubjectsTask record taskId

def confirmingSession (record : EventRecord) : Option String :=
  let (kind, payload) := effKindPayload record.eventType record.payload
  if kind = "FindingVerified" ∧ Json.lookup payload "verification_state" = .str "verified" then
    record.provenance.sessionId.filter (· ≠ "")
  else none

def observePremise (taskId : String) (seen : Bool × Option String) (record : EventRecord) :
    Bool × Option String :=
  (seen.1 || anchorsPremiseFalse taskId record, (confirmingSession record).or seen.2)

def notPremiseFalse (refId taskId : String) : String × List (String × String) :=
  ("closure_retired_finding_not_premise_false", [("task_id", taskId), ("ref_id", refId),
    ("reason", "superseded_by 指向的 finding 不是 premise_false FindingCreated," ++
      " 或其 subjects 未锚定被退役 task (防跨 task 复用一个 premise_false finding 去关无关 task)")])

def notVerifyConfirmed (refId taskId : String) : String × List (String × String) :=
  ("closure_retired_not_verify_confirmed", [("task_id", taskId), ("ref_id", refId),
    ("reason", "premise-false finding 无 verified 的 FindingVerified (未经 verify-step 证伪确认前提为假)")])

def selfVerified (taskId verifiedSession closedBy : String) : String × List (String × String) :=
  ("closure_retired_self_verified", [("task_id", taskId), ("verified_session", verifiedSession),
    ("closed_by", closedBy), ("reason", "verify-step 会话 == closer, 退役者自证前提为假, 违独立性")])

/-- `_retired_premise_false_verified`; no failure means that it holds. -/
def retiredPremiseFalseVerified (index : EventIndex) (refId taskId closedBy : String) :
    Option (String × List (String × String)) :=
  match (lookupEntity index "finding" refId).foldl (observePremise taskId) (false, none) with
  | (false, _) => some (notPremiseFalse refId taskId)
  | (true, none) => some (notVerifyConfirmed refId taskId)
  | (true, some verifiedSession) =>
    if verifiedSession = closedBy then some (selfVerified taskId verifiedSession closedBy) else none

def FiledUnder (refId : String) (record : EventRecord) : Prop := ("finding", refId) ∈ entityKeys record

instance (refId : String) (record : EventRecord) : Decidable (FiledUnder refId record) :=
  inferInstanceAs (Decidable (_ ∈ _))

def PremiseAnchored (records : List EventRecord) (refId taskId : String) : Prop :=
  ∃ record ∈ records, FiledUnder refId record ∧ anchorsPremiseFalse taskId record = true

instance (records : List EventRecord) (refId taskId : String) :
    Decidable (PremiseAnchored records refId taskId) :=
  inferInstanceAs (Decidable (∃ record ∈ records, _))

def ConfirmedIn (records : List EventRecord) (refId session : String) : Prop :=
  ∃ record ∈ records, FiledUnder refId record ∧ confirmingSession record = some session

def ConfirmedByOther (records : List EventRecord) (refId closedBy : String) : Prop :=
  ∃ session, session ≠ closedBy ∧ ConfirmedIn records refId session

def IsVerification (record : EventRecord) : Prop :=
  (effKindPayload record.eventType record.payload).1 = "FindingVerified"

/-- In every order of the events the check comes to the same, it accepts just what another session has
confirmed, and it accepts still when verifications follow what it accepts. -/
structure OrderFree (records : List EventRecord) (refId taskId closedBy : String) : Prop where
  exact : ∀ order, order.Perm records →
    (retiredPremiseFalseVerified (build order) refId taskId closedBy = none ↔
      PremiseAnchored records refId taskId ∧ ConfirmedByOther records refId closedBy)
  same : ∀ order, order.Perm records →
    retiredPremiseFalseVerified (build order) refId taskId closedBy =
      retiredPremiseFalseVerified (build records) refId taskId closedBy
  stays : ∀ front further, (front ++ further).Perm records → (∀ record ∈ further, IsVerification record) →
    retiredPremiseFalseVerified (build front) refId taskId closedBy = none →
      retiredPremiseFalseVerified (build (front ++ further)) refId taskId closedBy = none

section

variable {records order : List EventRecord} {refId taskId closedBy session : String}

theorem foldl_observePremise (taskId : String) (records : List EventRecord) (seen : Bool × Option String) :
    records.foldl (observePremise taskId) seen =
      (seen.1 || records.any (anchorsPremiseFalse taskId),
        (records.filterMap confirmingSession).getLast?.or seen.2) := by
  induction records using List.reverseRecOn with
  | nil => simp
  | append_singleton records record ih =>
    rw [List.foldl_append, List.foldl_cons, List.foldl_nil, ih, observePremise, List.any_append,
      List.any_cons, List.any_nil, Bool.or_false, Bool.or_assoc, List.filterMap_append,
      List.getLast?_append]
    cases hsession : confirmingSession record with
    | none => simp [hsession]
    | some session => simp [hsession]

theorem mem_lookupEntity_build (records : List EventRecord) (refId : String) (record : EventRecord) :
    record ∈ lookupEntity (build records) "finding" refId ↔
      record ∈ records ∧ FiledUnder refId record := by
  unfold lookupEntity
  rw [lookup_byEntity_build, List.mem_flatMap]
  constructor
  · intro h
    obtain ⟨other, hother, hmem⟩ := h
    obtain ⟨key, hkey, rfl⟩ := List.mem_map.mp hmem
    obtain ⟨hfiled, hsame⟩ := List.mem_filter.mp hkey
    rw [of_decide_eq_true hsame] at hfiled
    exact ⟨hother, hfiled⟩
  · intro h
    exact ⟨record, h.1, List.mem_map.mpr ⟨_, List.mem_filter.mpr ⟨h.2, by simp⟩, rfl⟩⟩

def rememberedSession (records : List EventRecord) (refId : String) : Option String :=
  ((lookupEntity (build records) "finding" refId).filterMap confirmingSession).getLast?

theorem confirmedIn_of_remembered (h : rememberedSession records refId = some session) :
    ConfirmedIn records refId session := by
  obtain ⟨record, hrecord, hsession⟩ := List.mem_filterMap.mp (List.mem_of_getLast? h)
  obtain ⟨hmem, hfiled⟩ := (mem_lookupEntity_build records refId record).mp hrecord
  exact ⟨record, hmem, hfiled, hsession⟩

theorem remembered_of_confirmedIn (h : ConfirmedIn records refId session) :
    ∃ last, rememberedSession records refId = some last := by
  obtain ⟨record, hmem, hfiled, hsession⟩ := h
  have hin : session ∈ (lookupEntity (build records) "finding" refId).filterMap
      confirmingSession :=
    List.mem_filterMap.mpr ⟨record, (mem_lookupEntity_build records refId record).mpr ⟨hmem, hfiled⟩,
      hsession⟩
  exact Option.isSome_iff_exists.mp (List.getLast?_isSome.mpr (List.ne_nil_of_mem hin))

theorem retiredPremise_eq (records : List EventRecord) (refId taskId closedBy : String) :
    retiredPremiseFalseVerified (build records) refId taskId closedBy =
      if PremiseAnchored records refId taskId then
        match rememberedSession records refId with
        | none => some (notVerifyConfirmed refId taskId)
        | some last => if last = closedBy then some (selfVerified taskId last closedBy) else none
      else some (notPremiseFalse refId taskId) := by
  have hanchored : (lookupEntity (build records) "finding" refId).any
      (anchorsPremiseFalse taskId) = true ↔ PremiseAnchored records refId taskId := by
    rw [List.any_eq_true]
    simp only [mem_lookupEntity_build, and_assoc, PremiseAnchored]
  unfold retiredPremiseFalseVerified
  rw [foldl_observePremise, Bool.false_or, ← rememberedSession]
  split_ifs with h
  · rw [hanchored.mpr h]
    cases rememberedSession records refId with
    | none => rfl
    | some last => rfl
  · rw [Bool.eq_false_iff.mpr fun hany => h (hanchored.mp hany)]

theorem retiredPremise_eq_none_iff :
    retiredPremiseFalseVerified (build records) refId taskId closedBy = none ↔
      PremiseAnchored records refId taskId ∧
        ∃ last, last ≠ closedBy ∧ rememberedSession records refId = some last := by
  rw [retiredPremise_eq]
  split_ifs with h
  · cases rememberedSession records refId with
    | none => simp
    | some last => simp [h]
  · simp [h]

theorem confirmedIn_perm (h : order.Perm records) :
    ConfirmedIn order refId session ↔ ConfirmedIn records refId session := by
  unfold ConfirmedIn
  simp only [h.mem_iff]

theorem premiseAnchored_perm (h : order.Perm records) :
    PremiseAnchored order refId taskId ↔ PremiseAnchored records refId taskId := by
  unfold PremiseAnchored
  simp only [h.mem_iff]

theorem remembered_snoc (hfiled : FiledUnder refId record)
    (hsession : confirmingSession record = some session) (front : List EventRecord) :
    rememberedSession (front ++ [record]) refId = some session := by
  have hcopies : ∀ last ∈ ((entityKeys record).filter (· = ("finding", refId))).map fun _ => record,
      last = record := by
    intro last hlast
    obtain ⟨key, -, hkey⟩ := List.mem_map.mp hlast
    exact hkey.symm
  have hsome : ((entityKeys record).filter (· = ("finding", refId))).map (fun _ => record) ≠ [] := by
    apply List.ne_nil_of_mem (a := record)
    exact List.mem_map.mpr ⟨_, List.mem_filter.mpr ⟨hfiled, by simp⟩, rfl⟩
  unfold rememberedSession lookupEntity
  rw [lookup_byEntity_build, List.flatMap_append, List.flatMap_cons, List.flatMap_nil, List.append_nil]
  generalize ((entityKeys record).filter (· = ("finding", refId))).map (fun _ => record) = copies
    at hcopies hsome
  obtain ⟨initial, last, rfl⟩ := (List.eq_nil_or_concat' copies).resolve_left hsome
  rw [hcopies last (by simp), ← List.append_assoc, List.filterMap_append,
    List.filterMap_cons_some hsession, List.filterMap_nil, List.getLast?_concat]

theorem exact_of_order (honce : ¬(PremiseAnchored records refId taskId ∧
      ConfirmedByOther records refId closedBy ∧ ConfirmedIn records refId closedBy))
    (hperm : order.Perm records) :
    retiredPremiseFalseVerified (build order) refId taskId closedBy = none ↔
      PremiseAnchored records refId taskId ∧ ConfirmedByOther records refId closedBy := by
  rw [retiredPremise_eq_none_iff, premiseAnchored_perm hperm]
  constructor
  · intro h
    obtain ⟨hanchored, last, hother, hlast⟩ := h
    exact ⟨hanchored, last, hother, (confirmedIn_perm hperm).mp (confirmedIn_of_remembered hlast)⟩
  · intro h
    obtain ⟨hanchored, session, hother, hconfirmed⟩ := h
    obtain ⟨last, hlast⟩ := remembered_of_confirmedIn ((confirmedIn_perm hperm).mpr hconfirmed)
    refine ⟨hanchored, last, ?_, hlast⟩
    rintro rfl
    exact honce ⟨hanchored, ⟨session, hother, hconfirmed⟩,
      (confirmedIn_perm hperm).mp (confirmedIn_of_remembered hlast)⟩

/-- The check is free of the order just when the closer has not confirmed what another session has
confirmed too. -/
theorem orderFree_iff (records : List EventRecord) (refId taskId closedBy : String) :
    OrderFree records refId taskId closedBy ↔
      ¬(PremiseAnchored records refId taskId ∧ ConfirmedByOther records refId closedBy ∧
        ConfirmedIn records refId closedBy) := by
  constructor
  · intro hfree hboth
    obtain ⟨hanchored, hother, record, hmem, hfiled, hsession⟩ := hboth
    -- the order that ends on the confirmation by the closer
    obtain ⟨front, rest, rfl⟩ := List.append_of_mem hmem
    have hperm : (front ++ rest ++ [record]).Perm (front ++ record :: rest) := by
      rw [List.append_assoc]
      exact (List.perm_append_singleton record rest).append_left front
    have haccepted := (hfree.exact _ hperm).mpr ⟨hanchored, hother⟩
    obtain ⟨-, last, hne, hlast⟩ := retiredPremise_eq_none_iff.mp haccepted
    rw [remembered_snoc hfiled hsession] at hlast
    exact hne (Option.some.inj hlast).symm
  · intro honce
    refine ⟨fun order hperm => exact_of_order honce hperm, fun order hperm => ?_,
      fun front further hperm _ haccepted => ?_⟩
    · have hexact := exact_of_order honce hperm
      have hsame := exact_of_order honce (List.Perm.refl records)
      by_cases haccepted : PremiseAnchored records refId taskId ∧ ConfirmedByOther records refId closedBy
      · rw [hexact.mpr haccepted, hsame.mpr haccepted]
      · simp only [retiredPremise_eq, premiseAnchored_perm hperm]
        split_ifs with hanchored
        · have hcloser : ∀ session, ConfirmedIn records refId session → session = closedBy := by
            intro session hconfirmed
            by_contra hne
            exact haccepted ⟨hanchored, session, hne, hconfirmed⟩
          cases hlast : rememberedSession records refId with
          | none =>
            cases hfirst : rememberedSession order refId with
            | none => rfl
            | some first =>
              obtain ⟨last, hsome⟩ := remembered_of_confirmedIn
                ((confirmedIn_perm hperm).mp (confirmedIn_of_remembered hfirst))
              rw [hlast] at hsome
              cases hsome
          | some last =>
            obtain ⟨first, hfirst⟩ := remembered_of_confirmedIn
              ((confirmedIn_perm hperm).mpr (confirmedIn_of_remembered hlast))
            have hlastCloser := hcloser last (confirmedIn_of_remembered hlast)
            have hfirstCloser := hcloser first
              ((confirmedIn_perm hperm).mp (confirmedIn_of_remembered hfirst))
            rw [hfirst, hlastCloser, hfirstCloser]
        · rfl
    · rw [exact_of_order honce hperm]
      obtain ⟨hanchored, last, hother, hlast⟩ := retiredPremise_eq_none_iff.mp haccepted
      have hmem : ∀ record ∈ front, record ∈ records := fun record h =>
        hperm.mem_iff.mp (List.mem_append_left _ h)
      constructor
      · obtain ⟨record, hrecord, hfiled, hanchors⟩ := hanchored
        exact ⟨record, hmem record hrecord, hfiled, hanchors⟩
      · obtain ⟨record, hrecord, hfiled, hsession⟩ := confirmedIn_of_remembered hlast
        exact ⟨last, hother, record, hmem record hrecord, hfiled, hsession⟩

end

def premiseIntent (eventType : EventType) (session : String) (entries : List (String × Json))
    (h : (Json.obj entries).proper = true) : EventIntent :=
  { sampleIntent with
    eventType, eventCategory := .finding, payload := ⟨entries, h⟩
    provenanceHint := { sampleIntent.provenanceHint with sessionId := some session }
    subjects := ⟨[⟨.finding, ⟨"f-3", by decide⟩, .primary⟩, ⟨.task, ⟨"task-3", by decide⟩, .related⟩],
      by decide⟩ }

def premiseFalse : EventRecord :=
  stamp sampleEnv (premiseIntent .findingCreated "sess-2"
    [("finding_id", .str "f-3"), ("finding_kind", .str "premise_false")] (by decide)) sampleId sampleTime 0 none

def confirmationBy (session : String) (eventId : EventId) : EventRecord :=
  stamp sampleEnv (premiseIntent .findingVerified session
    [("finding_id", .str "f-3"), ("verification_state", .str "verified")]
    (by simp [Json.proper, Json.properEntries, Dict.keys])) eventId sampleTime 1 none

/-- What a verifier has confirmed is accepted; a second confirmation, by the closer, has it rejected. -/
theorem second_confirmation_undoes_first :
    retiredPremiseFalseVerified (build [premiseFalse, confirmationBy "verifier" secondId])
        "f-3" "task-3" "closer" = none ∧
      retiredPremiseFalseVerified (build
          [premiseFalse, confirmationBy "verifier" secondId, confirmationBy "closer" thirdId])
        "f-3" "task-3" "closer" = some (selfVerified "task-3" "closer" "closer") ∧
      retiredPremiseFalseVerified (build
          [premiseFalse, confirmationBy "closer" thirdId, confirmationBy "verifier" secondId])
        "f-3" "task-3" "closer" = none := by decide

end Flowness.CommitGate
