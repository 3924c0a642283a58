import Flowness.PublicLedger.ReadBack
import Mathlib.Data.List.Induction

/-!
What `_index` keeps of a stream: the rows of each proposal, which is begun, gets its records and is
decided. A stream is indexed exactly as far as every row fits the history of its proposal.
-/

namespace Flowness.PublicLedger

open Option Library

def Proposal.rows (proposal : Proposal) : List Record :=
  proposal.begun :: (proposal.records ++ proposal.decision.toList)

/-- The rows of a proposal have the kinds that they are kept as. -/
structure Proposal.Kinds (proposal : Proposal) : Prop where
  begun : proposal.begun.kind = "proposal"
  records : ∀ row ∈ proposal.records, row.kind = "proposed_record"
  decision : ∀ row ∈ proposal.decision, row.kind = "decision" ∧
    (row.outcome = some "accepted" ∨ row.outcome = some "rejected")

def rowsOf (rows : List Record) (proposalId : String) : List Record :=
  rows.filter fun row => row.proposalId == proposalId

/-- The proposal is begun once, gets records, and is then decided at most once. -/
def OneHistory (rows : List Record) (proposalId : String) : Prop :=
  rowsOf rows proposalId = [] ∨
    ∃ proposal : Proposal, rowsOf rows proposalId = proposal.rows ∧ proposal.Kinds

def HasRow {π : Type} (rows : List (Row π)) (kind proposalId : String) : Prop :=
  ∃ row ∈ rows, row.kind = kind ∧ row.proposalId = proposalId

section

variable {rows : List Record} {row : Record} {proposals after : Proposals} {proposalId : String}

theorem indexRow_ok (h : indexRow proposals row = .ok after) :
    ∃ proposal, after = proposals.set row.proposalId proposal ∧
      proposal.rows = ((proposals.get row.proposalId).map Proposal.rows).getD [] ++ [row] ∧
      ((∀ before, proposals.get row.proposalId = some before → before.Kinds) → proposal.Kinds) := by
  unfold indexRow at h
  split at h
  next hkind =>
    split at h
    next hget =>
      cases h
      refine ⟨_, rfl, ?_, fun _ => ⟨hkind, ?_, ?_⟩⟩
      · rw [hget]
        rfl
      · exact fun _ hmem => absurd hmem List.not_mem_nil
      · exact fun _ hmem => absurd hmem (not_mem_none _)
    · cases h
  split at h
  next hkind =>
    split at h
    next begun records hget =>
      cases h
      refine ⟨_, rfl, ?_, fun hbefore => ?_⟩
      · simp [hget, Proposal.rows]
      · obtain ⟨hbegun, hrecords, -⟩ := hbefore _ hget
        refine ⟨hbegun, fun record hmem => ?_, fun _ hmem => absurd hmem (not_mem_none _)⟩
        obtain hmem | hmem := List.mem_append.mp hmem
        · exact hrecords record hmem
        · exact List.mem_singleton.mp hmem ▸ hkind
    · cases h
  split at h
  next hkind =>
    split at h
    next begun records hget =>
      split at h
      next houtcome =>
        cases h
        refine ⟨_, rfl, ?_, fun hbefore => ?_⟩
        · simp [hget, Proposal.rows]
        · obtain ⟨hbegun, hrecords, -⟩ := hbefore _ hget
          refine ⟨hbegun, hrecords, fun decision hmem => ?_⟩
          obtain rfl := mem_some.mp hmem
          exact ⟨hkind, houtcome⟩
      · cases h
    · cases h
  · cases h

theorem index_rowsOf (h : index rows = .ok proposals) :
    (∀ proposalId, rowsOf rows proposalId = ((proposals.get proposalId).map Proposal.rows).getD []) ∧
      ∀ proposalId proposal, proposals.get proposalId = some proposal → proposal.Kinds := by
  induction rows using List.reverseRecOn generalizing proposals with
  | nil =>
    cases h
    exact ⟨fun _ => rfl, fun _ _ hget => nomatch hget⟩
  | append_singleton rows row ih =>
    obtain ⟨before, hbefore, hrow⟩ := foldlM_snoc_ok.mp h
    obtain ⟨hrows, hkinds⟩ := ih hbefore
    obtain ⟨proposal, rfl, hproposal, hkind⟩ := indexRow_ok hrow
    constructor
    · intro proposalId
      by_cases hsame : row.proposalId = proposalId
      · subst hsame
        rw [Dict.get_set_self, map_some, hproposal, ← hrows]
        simp [rowsOf]
      · rw [Dict.get_set_of_ne _ _ (Ne.symm hsame), ← hrows]
        simp [rowsOf, hsame]
    · intro proposalId found hget
      by_cases hsame : proposalId = row.proposalId
      · subst hsame
        rw [Dict.get_set_self] at hget
        cases hget
        exact hkind (hkinds row.proposalId)
      · rw [Dict.get_set_of_ne _ _ hsame] at hget
        exact hkinds proposalId found hget

theorem index_oneHistory (h : index rows = .ok proposals) (proposalId : String) :
    OneHistory rows proposalId := by
  obtain ⟨hrows, hkinds⟩ := index_rowsOf h
  cases hget : proposals.get proposalId with
  | none =>
    left
    rw [hrows, hget]
    rfl
  | some proposal =>
    right
    refine ⟨proposal, ?_, hkinds proposalId proposal hget⟩
    rw [hrows, hget]
    rfl

theorem hasRow_iff_rowsOf {kind : String} :
    HasRow rows kind proposalId ↔ ∃ row ∈ rowsOf rows proposalId, row.kind = kind := by
  simp [HasRow, rowsOf, and_assoc, and_comm]

theorem index_begun (h : index rows = .ok proposals) :
    HasRow rows "proposal" proposalId ↔ ∃ proposal, proposals.get proposalId = some proposal := by
  obtain ⟨hrows, hkinds⟩ := index_rowsOf h
  rw [hasRow_iff_rowsOf, hrows]
  cases hget : proposals.get proposalId with
  | none => simp
  | some proposal =>
    have hbegun := (hkinds proposalId proposal hget).begun
    simp [Proposal.rows, hbegun]

theorem index_decided (h : index rows = .ok proposals) {decision : Record} :
    (∃ proposal, proposals.get proposalId = some proposal ∧ proposal.decision = some decision) ↔
      decision ∈ rows ∧ decision.kind = "decision" ∧ decision.proposalId = proposalId := by
  obtain ⟨hrows, hkinds⟩ := index_rowsOf h
  have hmem : (decision ∈ rows ∧ decision.kind = "decision" ∧ decision.proposalId = proposalId) ↔
      decision ∈ rowsOf rows proposalId ∧ decision.kind = "decision" := by
    simp [rowsOf, and_assoc, and_comm]
  rw [hmem, hrows]
  cases hget : proposals.get proposalId with
  | none => simp
  | some proposal =>
    obtain ⟨hbegun, hrecords, hdecision⟩ := hkinds proposalId proposal hget
    simp only [map_some, getD_some, Proposal.rows, List.mem_cons, List.mem_append,
      mem_toList, some.injEq, exists_eq_left']
    constructor
    · exact fun hfound => ⟨.inr (.inr hfound), (hdecision decision hfound).1⟩
    · rintro ⟨rfl | hrecord | hfound, hkind⟩
      · rw [hbegun] at hkind
        exact absurd hkind (by decide)
      · rw [hrecords decision hrecord] at hkind
        exact absurd hkind (by decide)
      · exact hfound

end

/-- A request of a known kind, for a proposal that is begun unless the request begins it. -/
def RequestSound {π : Type} (rows : List (Row π)) (request : AppendRequest) : Prop :=
  request.kind = "proposal" ∨ (HasRow rows "proposal" request.proposalId ∧
    (request.kind = "proposed_record" ∨ request.kind = "decision" ∧
      (request.outcome = some "accepted" ∨ request.outcome = some "rejected")))

/-- The proposal is not begun twice, and neither extended nor decided after its decision. -/
def Legal {π : Type} (rows : List (Row π)) (request : AppendRequest) : Prop :=
  (request.kind = "proposal" → ¬ HasRow rows "proposal" request.proposalId) ∧
    (request.kind ≠ "proposal" → ¬ HasRow rows "decision" request.proposalId)

section

variable {env : LedgerEnv} {file : LedgerFile} {rows : List Record} {row : Record}
  {proposals : Proposals} {request : AppendRequest} {requests : List AppendRequest}
  {call : ApiCall env.value} {kind proposalId : String}

theorem hasRow_loads :
    HasRow (lines.map fun line => line.loads) kind proposalId ↔ HasRow lines kind proposalId := by
  simp [HasRow, Row.loads]

theorem requestSound_loads :
    RequestSound (lines.map fun line => line.loads) request ↔ RequestSound lines request := by
  rw [RequestSound, RequestSound, hasRow_loads]

theorem legal_loads :
    Legal (lines.map fun line => line.loads) request ↔ Legal lines request := by
  rw [Legal, Legal, hasRow_loads, hasRow_loads]

section

variable {π : Type}

theorem HasRow.append (h : HasRow front kind proposalId) (back : List (Row π)) :
    HasRow (front ++ back) kind proposalId := by
  obtain ⟨row, hmem, hrow⟩ := h
  exact ⟨row, List.mem_append_left _ hmem, hrow⟩

theorem hasRow_snoc {last : Row π} : HasRow (front ++ [last]) kind proposalId ↔
      HasRow front kind proposalId ∨ last.kind = kind ∧ last.proposalId = proposalId := by
  simp [HasRow, or_and_right, exists_or]

theorem RequestSound.append (h : RequestSound front request) (back : List (Row π)) :
    RequestSound (front ++ back) request :=
  h.imp_right fun ⟨hbegun, hkind⟩ => ⟨hbegun.append back, hkind⟩

end

theorem indexRow_legal (h : index rows = .ok proposals) (hsound : RequestSound rows request)
    (hlegal : Legal rows request) (hkind : row.kind = request.kind)
    (hid : row.proposalId = request.proposalId) (houtcome : row.outcome = request.outcome) :
    ∃ after, indexRow proposals row = .ok after := by
  obtain hbegins | ⟨hbegun, hrest⟩ := hsound
  · have hnone : proposals.get request.proposalId = none := by
      by_contra hsome
      obtain ⟨proposal, hget⟩ := ne_none_iff_exists'.mp hsome
      exact hlegal.1 hbegins ((index_begun h).mpr ⟨proposal, hget⟩)
    exact ⟨_, by simp only [indexRow, hkind, hbegins, hid, hnone, if_true]; rfl⟩
  · obtain ⟨⟨begun, records, decision⟩, hget⟩ := (index_begun h).mp hbegun
    have hne : request.kind ≠ "proposal" := by
      obtain hrecord | ⟨hdecision, -⟩ := hrest
      · rw [hrecord]
        decide
      · rw [hdecision]
        decide
    have hpending : decision = none := by
      by_contra hsome
      obtain ⟨found, hfound⟩ := ne_none_iff_exists'.mp hsome
      obtain ⟨hmem, hdecides⟩ := (index_decided h).mp ⟨_, hget, hfound⟩
      exact hlegal.2 hne ⟨found, hmem, hdecides⟩
    subst hpending
    obtain hrecord | ⟨hdecision, hvalid⟩ := hrest
    · exact ⟨_, by simp only [indexRow, hkind, hrecord, hid, hget]; rfl⟩
    · exact ⟨_, by simp only [indexRow, hkind, hdecision, hid, hget, houtcome, hvalid, if_true]; rfl⟩

theorem appendProposed_appends {records : List PyValue}
    (h : appendProposed env file proposalId records = .ok (.appends requests)) :
    ∃ rows proposals proposal, load env file = .ok (rows, 0) ∧ index rows = .ok proposals ∧
      proposals.get proposalId = some proposal ∧ proposal.decision = none ∧
      requests = records.map fun record => ⟨"proposed_record", proposalId, record, none⟩ := by
  simp only [appendProposed, bind_ok, require_ok, exists_const, any_eq_true,
    isNone_iff_eq_none] at h
  obtain ⟨-, ⟨rows, proposals⟩, hread, ⟨proposal, hget, hpending⟩, h⟩ := h
  obtain ⟨hload, hindex⟩ := readProposals_ok.mp hread
  cases h
  exact ⟨rows, proposals, proposal, hload, hindex, hget, hpending, rfl⟩

/-- Requests that fit, of which only proposed records come several at a time. -/
structure RequestsFit {π : Type} (rows : List (Row π)) (requests : List AppendRequest) : Prop where
  sound : ∀ request ∈ requests, RequestSound rows request
  legal : ∀ request ∈ requests, Legal rows request
  several : requests.length ≤ 1 ∨ ∀ request ∈ requests, request.kind = "proposed_record"

theorem RequestsFit.loads (h : RequestsFit (lines.map fun line => line.loads) requests) :
    RequestsFit lines requests where
  sound := fun request hmem => requestSound_loads.mp (h.sound request hmem)
  legal := fun request hmem => legal_loads.mp (h.legal request hmem)
  several := h.several

theorem not_decided (h : index rows = .ok proposals) {proposal : Proposal}
    (hget : proposals.get proposalId = some proposal) (hpending : proposal.decision = none) :
    ¬ HasRow rows "decision" proposalId := by
  rintro ⟨row, hmem, hkind, hid⟩
  obtain ⟨found, hfound, hdecision⟩ := (index_decided h).mpr ⟨hmem, hkind, hid⟩
  rw [hget] at hfound
  cases hfound
  rw [hpending] at hdecision
  cases hdecision

theorem verdict_requestsFit (h : call.verdict env file = .ok (.appends requests)) :
    RequestsFit file.lines requests := by
  cases call with
  | beginProposal proposalId metadata evidenceRefs =>
    obtain ⟨rows, proposals, -, hload, hindex, hget, rfl⟩ := beginProposal_appends h
    refine RequestsFit.loads (load_rows hload ▸ ⟨?_, ?_, .inl (le_refl 1)⟩)
    · exact fun request hmem => .inl (List.mem_singleton.mp hmem ▸ rfl)
    · intro request hmem
      obtain rfl := List.mem_singleton.mp hmem
      refine ⟨fun _ hbegun => ?_, fun hne => absurd rfl hne⟩
      obtain ⟨proposal, hfound⟩ := (index_begun hindex).mp hbegun
      rw [hget] at hfound
      cases hfound
  | appendProposed proposalId records =>
    obtain ⟨rows, proposals, proposal, hload, hindex, hget, hpending, rfl⟩ := appendProposed_appends h
    have hbegun := (index_begun hindex).mpr ⟨proposal, hget⟩
    refine RequestsFit.loads (load_rows hload ▸ ⟨?_, ?_, .inr ?_⟩) <;> intro request hmem <;>
      obtain ⟨record, -, rfl⟩ := List.mem_map.mp hmem
    · exact .inr ⟨hbegun, .inl rfl⟩
    · exact ⟨fun hkind => absurd hkind (by simp), fun _ => not_decided hindex hget hpending⟩
    · rfl
  | decide proposalId outcome metadata evidenceRefs =>
    obtain ⟨rows, proposals, begun, records, hvalid, hload, hindex, hget, rfl⟩ :=
      decideProposal_appends h
    have hbegun := (index_begun hindex).mpr ⟨_, hget⟩
    refine RequestsFit.loads (load_rows hload ▸ ⟨?_, ?_, .inl (le_refl 1)⟩) <;>
      intro request hmem <;> obtain rfl := List.mem_singleton.mp hmem
    · refine .inr ⟨hbegun, .inr ⟨rfl, ?_⟩⟩
      simpa using hvalid
    · exact ⟨fun hkind => absurd hkind (by simp), fun _ => not_decided hindex hget rfl⟩

end

end Flowness.PublicLedger
