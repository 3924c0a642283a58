import Flowness.PublicLedger.Stream

/-!
What `_append` writes, read again: the hash is taken of the value in memory and checked of the
value read. A record reads back exactly when its sorted keys are sorted as texts, and a repeated
call finds it exactly when its payload is what JSON gives back.
-/

namespace Flowness.PublicLedger

open Library Option

def LedgerFile.add (file : LedgerFile) (line : Line) : LedgerFile :=
  { file with lines := file.lines ++ [line] }

def LedgerFile.ids (file : LedgerFile) : List String := file.lines.map fun line => line.recordId

/-- `_load` accepts the stream and its last row is `row` with a right hash and the same canonical
payload. -/
def ReadsBack (env : LedgerEnv) (file : LedgerFile) (row : Record) : Prop :=
  ∃ rows last incomplete, load env file = .ok (rows ++ [last], incomplete) ∧
    last.recordId = row.recordId ∧ (last.canonical env).map env.sha = some last.recordHash ∧
    last.payload.dumps env.value = row.payload.dumps env.value

/-- The very value, or one built apart that compares equal. -/
def SameValue (value : String → ℚ) (v w : PyValue) : Prop := w = v ∨ v.eq value w = true

def ApiCall.Repeatable {value : String → ℚ} : ApiCall value → Prop
  | .appendProposed _ _ => False
  | _ => True

def ApiCall.SameArguments {value : String → ℚ} : ApiCall value → ApiCall value → Prop
  | .beginProposal proposalId metadata evidenceRefs, .beginProposal proposalId' metadata' evidenceRefs' =>
    proposalId' = proposalId ∧ SameValue value metadata.val metadata'.val ∧
      SameValue value evidenceRefs.val evidenceRefs'.val
  | .decide proposalId outcome metadata evidenceRefs,
      .decide proposalId' outcome' metadata' evidenceRefs' =>
    proposalId' = proposalId ∧ outcome' = outcome ∧ SameValue value metadata.val metadata'.val ∧
      SameValue value evidenceRefs.val evidenceRefs'.val
  | _, _ => False

/-- Every call with equal arguments returns the last row of the stream. -/
def AnsweredAgain (env : LedgerEnv) (file : LedgerFile) (call : ApiCall env.value) : Prop :=
  ∀ again, call.SameArguments again → ∃ rows last incomplete,
    load env file = .ok (rows ++ [last], incomplete) ∧ again.verdict env file = .ok (.existing last)

section

variable {env : LedgerEnv} {file : LedgerFile} {rows : List Record} {row : Record} {line : Line}
  {request : AppendRequest} {draw : Draw}

/-- What the loop of `_load` asks of a line after `rows`. -/
def Accepted (env : LedgerEnv) (rows : List Record) (line : Line) : Prop :=
  line.format = FORMAT ∧ line.sequence = rows.length + 1 ∧
    line.previousRecordHash = rows.getLast?.map (fun last => last.recordHash) ∧
    (line.loads.canonical env).map env.sha = some line.recordHash

theorem loadRecord_ok {next : List Record} :
    loadRecord env rows line = .ok next ↔ Accepted env rows line ∧ next = rows ++ [line.loads] := by
  have hhash : ((line.loads.canonical env).any fun unsigned => line.loads.recordHash == env.sha unsigned)
      = true ↔ (line.loads.canonical env).map env.sha = some line.recordHash := by
    cases line.loads.canonical env with
    | none => simp
    | some unsigned =>
      simp only [any_some, beq_iff_eq, map_some, some.injEq]
      exact eq_comm
  simp only [loadRecord, bind_ok, require_ok, exists_const, Bool.and_eq_true, beq_iff_eq, hhash,
    and_assoc, Accepted, Except.ok.injEq]
  constructor
  · rintro ⟨hformat, hsequence, hprevious, hsha, hnext⟩
    exact ⟨hformat, hsequence, hprevious, hsha, hnext.symm⟩
  · rintro ⟨hformat, hsequence, hprevious, hsha, hnext⟩
    exact ⟨hformat, hsequence, hprevious, hsha, hnext.symm⟩

theorem load_ok : load env file = .ok (rows, incomplete) ↔
      file.lines.foldlM (loadRecord env) [] = .ok rows ∧
        (rows.map fun row => row.recordId).Nodup ∧ file.tail = incomplete := by
  simp only [load, bind_ok, require_ok, exists_const, decide_eq_true_eq, Except.ok.injEq,
    Prod.mk.injEq]
  constructor
  · rintro ⟨found, hfound, hnodup, rfl, htail⟩
    exact ⟨hfound, hnodup, htail⟩
  · rintro ⟨hfound, hnodup, htail⟩
    exact ⟨rows, hfound, hnodup, rfl, htail⟩

theorem loadRecords_eq {lines : List Line} (h : lines.foldlM (loadRecord env) acc = .ok rows) :
    rows = acc ++ lines.map fun line => line.loads := by
  induction lines generalizing acc with
  | nil =>
    cases h
    rw [List.map_nil, List.append_nil]
  | cons line lines ih =>
    rw [List.foldlM_cons, bind_ok] at h
    obtain ⟨next, hnext, h⟩ := h
    obtain ⟨-, rfl⟩ := loadRecord_ok.mp hnext
    rw [ih h, List.append_assoc, List.map_cons, List.singleton_append]

theorem load_rows {incomplete : Nat} (h : load env file = .ok (rows, incomplete)) :
    rows = file.lines.map fun line => line.loads :=
  loadRecords_eq (load_ok.mp h).1

theorem load_ids (h : load env file = .ok (rows, incomplete)) :
    (rows.map fun row => row.recordId) = file.ids := by
  rw [load_rows h, List.map_map]
  rfl

theorem load_add (h : load env file = .ok (rows, incomplete)) :
    load env (file.add line) = .ok (all, after) ↔
      Accepted env rows line ∧ line.recordId ∉ file.ids ∧ all = rows ++ [line.loads] ∧
        after = incomplete := by
  have hids := load_ids h
  obtain ⟨hloaded, hnodup, htail⟩ := load_ok.mp h
  have hfold : (file.add line).lines.foldlM (loadRecord env) [] = loadRecord env rows line :=
    foldlM_snoc hloaded
  have hnew : ((rows ++ [line.loads]).map fun row => row.recordId).Nodup ↔
      line.recordId ∉ file.ids := by
    rw [List.map_append, List.map_singleton, List.nodup_append, hids]
    refine ⟨fun hall hmem => hall.2.2 _ hmem _ List.mem_cons_self rfl, fun hnot => ⟨hids ▸ hnodup,
      List.nodup_singleton _, fun id hmem other hother heq => hnot ?_⟩⟩
    rw [List.mem_singleton] at hother
    subst hother
    exact heq ▸ hmem
  rw [load_ok, hfold, loadRecord_ok]
  constructor
  · rintro ⟨⟨haccepted, rfl⟩, hids', hafter⟩
    exact ⟨haccepted, hnew.mp hids', rfl, hafter.symm.trans htail⟩
  · rintro ⟨haccepted, hfresh, rfl, rfl⟩
    exact ⟨⟨haccepted, rfl⟩, hnew.mpr hfresh, htail⟩

theorem readProposals_ok {refusal : String} {proposals : Proposals} :
    readProposals env file refusal = .ok (rows, proposals) ↔
      load env file = .ok (rows, 0) ∧ index rows = .ok proposals := by
  simp only [readProposals, bind_ok, require_ok, exists_const, beq_iff_eq, Except.ok.injEq,
    Prod.mk.injEq]
  constructor
  · rintro ⟨⟨found, incomplete⟩, hload, rfl, indexed, hindex, rfl, rfl⟩
    exact ⟨hload, hindex⟩
  · rintro ⟨hload, hindex⟩
    exact ⟨(rows, 0), hload, rfl, proposals, hindex, rfl, rfl⟩

section

variable (h : append env file request draw = .ok (row, line))
include h

theorem append_ok :
    ∃ rows proposals tree, load env file = .ok (rows, 0) ∧ index rows = .ok proposals ∧
      request.payload.dumps env.value = some tree ∧
      row.toRowBody = newBody rows request draw ∧
      line.toRowBody = { newBody rows request draw with payload := tree } ∧
      row.recordHash = env.sha line.toRowBody ∧ line.recordHash = env.sha line.toRowBody := by
  simp only [append, bind_ok] at h
  obtain ⟨⟨rows, proposals⟩, hread, h⟩ := h
  obtain ⟨hload, hindex⟩ := readProposals_ok.mp hread
  split at h
  next unsigned hcanonical =>
    obtain ⟨tree, htree, rfl⟩ := Option.map_eq_some_iff.mp hcanonical
    cases h
    exact ⟨rows, proposals, tree, hload, hindex, htree, rfl, rfl, rfl, rfl⟩
  · cases h

theorem accepted_of_textOrdered (hload : load env file = .ok (rows, 0))
    (hordered : request.payload.textOrdered env.value = true) :
    Accepted env rows line := by
  obtain ⟨found, proposals, tree, hfound, -, htree, -, hline, -, hhash⟩ := append_ok h
  rw [hload] at hfound
  cases hfound
  have hagain : tree.loads.dumps env.value = some tree :=
    (dumps_loads_iff env.value htree).mpr hordered
  have hcanonical : line.loads.canonical env = some line.toRowBody := by
    simp [RowBody.canonical, Row.loads, hline, hagain]
  refine ⟨?_, ?_, ?_, ?_⟩
  · rw [hline]
    rfl
  · rw [hline]
    rfl
  · rw [hline]
    rfl
  · rw [hcanonical, hhash]
    rfl

theorem readsBack_iff : ReadsBack env (file.add line) row ↔
      draw.recordId ∉ file.ids ∧ request.payload.textOrdered env.value = true := by
  obtain ⟨rows, proposals, tree, hload, -, htree, hrow, hline, -, -⟩ := append_ok h
  have hid : line.recordId = draw.recordId := by
    rw [hline]
    rfl
  have hpayload : line.loads.payload = tree.loads := by
    simp [Row.loads, hline]
  have hdumps : row.payload.dumps env.value = some tree := by
    rw [hrow]
    exact htree
  constructor
  · rintro ⟨before, last, incomplete, hafter, -, -, hsame⟩
    obtain ⟨-, hfresh, heq, -⟩ := (load_add hload).mp hafter
    obtain ⟨-, hlast⟩ := List.append_inj' heq rfl
    cases hlast
    rw [hpayload, hdumps] at hsame
    exact ⟨hid ▸ hfresh, (dumps_loads_iff env.value htree).mp hsame⟩
  · rintro ⟨hfresh, hordered⟩
    have haccepted := accepted_of_textOrdered h hload hordered
    refine ⟨rows, line.loads, 0, (load_add hload).mpr ⟨haccepted, hid ▸ hfresh, rfl, rfl⟩, ?_,
      haccepted.2.2.2, ?_⟩
    · rw [hrow]
      exact hid
    · rw [hpayload, hdumps]
      exact (dumps_loads_iff env.value htree).mpr hordered

end

end

section

variable {env : LedgerEnv} {file : LedgerFile} {proposalId outcome : String}
  {metadata evidenceRefs : PyValue}

theorem beginProposal_appends
    (h : beginProposal env file proposalId metadata evidenceRefs = .ok (.appends requests)) :
    ∃ rows proposals, proposalId ≠ "" ∧ load env file = .ok (rows, 0) ∧ index rows = .ok proposals ∧
      proposals.get proposalId = none ∧
      requests = [⟨"proposal", proposalId, boundPayload env metadata evidenceRefs, none⟩] := by
  simp only [beginProposal, bind_ok, require_ok, exists_const, bne_iff_ne] at h
  obtain ⟨hid, ⟨rows, proposals⟩, hread, h⟩ := h
  obtain ⟨hload, hindex⟩ := readProposals_ok.mp hread
  split at h
  · split at h <;> cases h
  next hget =>
    cases h
    exact ⟨rows, proposals, hid, hload, hindex, hget, rfl⟩

theorem beginProposal_existing :
    beginProposal env file proposalId metadata evidenceRefs = .ok (.existing existing) ↔
      ∃ rows proposals proposal, proposalId ≠ "" ∧ load env file = .ok (rows, 0) ∧
        index rows = .ok proposals ∧ proposals.get proposalId = some proposal ∧
        proposal.begun = existing ∧
        existing.payload.eq env.value (boundPayload env metadata evidenceRefs) = true := by
  simp only [beginProposal, bind_ok, require_ok, exists_const, bne_iff_ne]
  constructor
  · rintro ⟨hid, ⟨rows, proposals⟩, hread, h⟩
    obtain ⟨hload, hindex⟩ := readProposals_ok.mp hread
    split at h
    next proposal hget =>
      split at h
      next hsame =>
        cases h
        exact ⟨rows, proposals, proposal, hid, hload, hindex, hget, rfl, hsame⟩
      · cases h
    · cases h
  · rintro ⟨rows, proposals, proposal, hid, hload, hindex, hget, rfl, hsame⟩
    refine ⟨hid, (rows, proposals), readProposals_ok.mpr ⟨hload, hindex⟩, ?_⟩
    simp only [hget, hsame, if_true]

theorem decideProposal_appends
    (h : decideProposal env file proposalId outcome metadata evidenceRefs = .ok (.appends requests)) :
    ∃ rows proposals begun records, (outcome = "accepted" ∨ outcome = "rejected") ∧
      load env file = .ok (rows, 0) ∧ index rows = .ok proposals ∧
      proposals.get proposalId = some ⟨begun, records, none⟩ ∧
      requests = [⟨"decision", proposalId, boundPayload env metadata evidenceRefs, some outcome⟩] := by
  simp only [decideProposal, bind_ok, require_ok, exists_const, Bool.or_eq_true, beq_iff_eq] at h
  obtain ⟨houtcome, ⟨rows, proposals⟩, hread, h⟩ := h
  obtain ⟨hload, hindex⟩ := readProposals_ok.mp hread
  split at h
  · cases h
  · split at h <;> cases h
  next begun records hget =>
    cases h
    exact ⟨rows, proposals, begun, records, houtcome, hload, hindex, hget, rfl⟩

theorem decideProposal_existing :
    decideProposal env file proposalId outcome metadata evidenceRefs = .ok (.existing existing) ↔
      ∃ rows proposals begun records, (outcome = "accepted" ∨ outcome = "rejected") ∧
        load env file = .ok (rows, 0) ∧ index rows = .ok proposals ∧
        proposals.get proposalId = some ⟨begun, records, some existing⟩ ∧
        existing.outcome = some outcome ∧
        existing.payload.eq env.value (boundPayload env metadata evidenceRefs) = true := by
  simp only [decideProposal, bind_ok, require_ok, exists_const, Bool.or_eq_true, beq_iff_eq]
  constructor
  · rintro ⟨houtcome, ⟨rows, proposals⟩, hread, h⟩
    obtain ⟨hload, hindex⟩ := readProposals_ok.mp hread
    split at h
    · cases h
    next begun records found hget =>
      split at h
      next hsame =>
        cases h
        exact ⟨rows, proposals, begun, records, houtcome, hload, hindex, hget, hsame⟩
      · cases h
    · cases h
  · rintro ⟨rows, proposals, begun, records, houtcome, hload, hindex, hget, hsame⟩
    refine ⟨houtcome, (rows, proposals), readProposals_ok.mpr ⟨hload, hindex⟩, ?_⟩
    simp only [hget, hsame, and_self, if_true]

theorem boundPayload_formed (hmetadata : metadata.wellFormed env.value = true)
    (hrefs : evidenceRefs.wellFormed env.value = true) :
    (boundPayload env metadata evidenceRefs).wellFormed env.value = true := by
  have hbound : (if evidenceRefs.truthy env.value then evidenceRefs else .list []).wellFormed env.value
      = true := by
    split
    · exact hrefs
    · rfl
  simp [boundPayload, PyValue.wellFormed, PyValue.wellFormedEntries, PyKey.eq, hmetadata, hbound]

theorem boundPayload_eq (hnative : (boundPayload env metadata evidenceRefs).native = true)
    (hformed : (boundPayload env metadata evidenceRefs).wellFormed env.value = true)
    (hmetadata : SameValue env.value metadata metadata')
    (hrefs : SameValue env.value evidenceRefs evidenceRefs') :
    (boundPayload env metadata evidenceRefs).eq env.value
      (boundPayload env metadata' evidenceRefs') = true := by
  simp only [boundPayload, PyValue.native, PyValue.nativeEntries, Bool.and_eq_true, and_true] at hnative
  simp only [boundPayload, PyValue.wellFormed, PyValue.wellFormedEntries, Bool.and_eq_true,
    and_true] at hformed
  obtain ⟨-, hmetadataNative, hrefsNative⟩ := hnative
  obtain ⟨-, hmetadataFormed, hrefsFormed⟩ := hformed
  have hsameMetadata : metadata.eq env.value metadata' = true := by
    obtain rfl | heq := hmetadata
    · exact eq_self env.value hmetadataNative hmetadataFormed
    · exact heq
  have hsameRefs : (if evidenceRefs.truthy env.value then evidenceRefs else .list []).eq env.value
      (if evidenceRefs'.truthy env.value then evidenceRefs' else .list []) = true := by
    obtain rfl | heq := hrefs
    · exact eq_self env.value hrefsNative hrefsFormed
    · rw [← truthy_of_eq env.value heq]
      split
      · exact heq
      · rfl
  have hentries : ∀ {refs refs' : PyValue}, refs.eq env.value refs' = true →
      PyValue.eq env.value (.dict [(.str "metadata", metadata), (.str "evidence_refs", refs)])
        (.dict [(.str "metadata", metadata'), (.str "evidence_refs", refs')]) = true := by
    intro refs refs' hsame
    simp [PyValue.eq, PyValue.eqEntries, PyKey.eq, hsameMetadata, hsame]
  exact hentries hsameRefs

end

section

variable {env : LedgerEnv} {file : LedgerFile} {rows : List Record} {row : Record} {line : Line}
  {request : AppendRequest} {draw : Draw} {call : ApiCall env.value}

theorem index_snoc (h : index rows = .ok proposals) :
    index (rows ++ [row]) = indexRow proposals row :=
  foldlM_snoc h

theorem append_line (h : append env file request draw = .ok (row, line)) :
    ∃ tree, request.payload.dumps env.value = some tree ∧ line.loads.payload = tree.loads ∧
      line.kind = request.kind ∧ line.proposalId = request.proposalId ∧
      line.outcome = request.outcome ∧ line.recordId = draw.recordId := by
  obtain ⟨rows, -, tree, -, -, htree, -, hline, -, -⟩ := append_ok h
  refine ⟨tree, htree, ?_, ?_, ?_, ?_, ?_⟩ <;> simp [Row.loads, hline, newBody]

theorem load_appended (h : append env file request draw = .ok (row, line))
    (hload : load env file = .ok (rows, 0)) (hfresh : draw.recordId ∉ file.ids)
    (hordered : request.payload.textOrdered env.value = true) :
    load env (file.add line) = .ok (rows ++ [line.loads], 0) := by
  have haccepted := accepted_of_textOrdered h hload hordered
  obtain ⟨tree, -, -, -, -, -, hid⟩ := append_line h
  exact (load_add hload).mpr ⟨haccepted, hid ▸ hfresh, rfl, rfl⟩

theorem payload_answers {metadata evidenceRefs metadata' evidenceRefs' : PyObject env.value}
    (htree : (boundPayload env metadata.val evidenceRefs.val).dumps env.value = some tree)
    (hnative : (boundPayload env metadata.val evidenceRefs.val).native = true)
    (hmetadata : SameValue env.value metadata.val metadata'.val)
    (hrefs : SameValue env.value evidenceRefs.val evidenceRefs'.val) :
    tree.loads.eq env.value (boundPayload env metadata'.val evidenceRefs'.val) = true := by
  have hformed := boundPayload_formed metadata.property evidenceRefs.property
  exact eq_loads_of_eq env.value htree hnative hformed
    (boundPayload_eq hnative hformed hmetadata hrefs)

theorem answeredAgain_of_native (hcalled : call.verdict env file = .ok (.appends [request]))
    (hreturned : append env file request draw = .ok (row, line))
    (hfresh : draw.recordId ∉ file.ids) (hnative : request.payload.native = true)
    (hordered : request.payload.textOrdered env.value = true) :
    AnsweredAgain env (file.add line) call := by
  intro again hagain
  obtain ⟨tree, htree, hpayload, hkind, hid, houtcome, -⟩ := append_line hreturned
  cases call with
  | beginProposal proposalId metadata evidenceRefs =>
    obtain ⟨rows, proposals, hnonEmpty, hload, hindex, hget, hrequest⟩ :=
      beginProposal_appends hcalled
    cases hrequest
    have hafter := load_appended hreturned hload hfresh hordered
    have hbegun : indexRow proposals line.loads =
        .ok (proposals.set proposalId ⟨line.loads, [], none⟩) := by
      simp [indexRow, Row.loads, hkind, hid, hget]
    cases again with
    | beginProposal other metadata' evidenceRefs' =>
      obtain ⟨rfl, hmetadata, hrefs⟩ := hagain
      refine ⟨rows, line.loads, 0, hafter, beginProposal_existing.mpr ?_⟩
      refine ⟨_, _, ⟨line.loads, [], none⟩, hnonEmpty, hafter, (index_snoc hindex).trans hbegun,
        Dict.get_set_self _ _ _, rfl, ?_⟩
      rw [hpayload]
      exact payload_answers htree hnative hmetadata hrefs
    | _ => cases hagain
  | appendProposed proposalId records => cases again <;> cases hagain
  | decide proposalId outcome metadata evidenceRefs =>
    obtain ⟨rows, proposals, begun, records, hvalid, hload, hindex, hget, hrequest⟩ :=
      decideProposal_appends hcalled
    cases hrequest
    have hafter := load_appended hreturned hload hfresh hordered
    have hdecided : indexRow proposals line.loads =
        .ok (proposals.set proposalId ⟨begun, records, some line.loads⟩) := by
      simp [indexRow, Row.loads, hkind, hid, houtcome, hget, hvalid]
    cases again with
    | decide other outcome' metadata' evidenceRefs' =>
      obtain ⟨rfl, rfl, hmetadata, hrefs⟩ := hagain
      refine ⟨rows, line.loads, 0, hafter, decideProposal_existing.mpr ?_⟩
      refine ⟨_, _, begun, records, hvalid, hafter, (index_snoc hindex).trans hdecided,
        Dict.get_set_self _ _ _, houtcome, ?_⟩
      rw [hpayload]
      exact payload_answers htree hnative hmetadata hrefs
    | _ => cases hagain

section

variable (hrepeatable : call.Repeatable)
    (hcalled : call.verdict env file = .ok (.appends [request]))
include hrepeatable hcalled

theorem native_of_answeredAgain (hreturned : append env file request draw = .ok (row, line))
    (hanswered : AnsweredAgain env (file.add line) call) : request.payload.native = true := by
  obtain ⟨tree, htree, hpayload, -⟩ := append_line hreturned
  obtain ⟨found, proposals, -, hload, -⟩ := append_ok hreturned
  have hlast : ∀ {rows : List Record} {last : Record} {incomplete : Nat},
      load env (file.add line) = .ok (rows ++ [last], incomplete) → last.payload = tree.loads := by
    intro rows last incomplete hafter
    obtain ⟨-, -, heq, -⟩ := (load_add hload).mp hafter
    obtain ⟨-, hlast⟩ := List.append_inj' heq rfl
    cases hlast
    exact hpayload
  cases call with
  | beginProposal proposalId metadata evidenceRefs =>
    obtain ⟨-, -, -, -, -, -, hrequest⟩ := beginProposal_appends hcalled
    cases hrequest
    obtain ⟨rows, last, incomplete, hafter, hverdict⟩ :=
      hanswered (.beginProposal proposalId metadata evidenceRefs) ⟨rfl, .inl rfl, .inl rfl⟩
    obtain ⟨-, -, -, -, -, -, -, -, hsame⟩ := beginProposal_existing.mp hverdict
    rw [hlast hafter] at hsame
    exact native_of_eq_loads env.value htree
      (boundPayload_formed metadata.property evidenceRefs.property) hsame
  | appendProposed proposalId records => cases hrepeatable
  | decide proposalId outcome metadata evidenceRefs =>
    obtain ⟨-, -, -, -, -, -, -, -, hrequest⟩ := decideProposal_appends hcalled
    cases hrequest
    obtain ⟨rows, last, incomplete, hafter, hverdict⟩ :=
      hanswered (.decide proposalId outcome metadata evidenceRefs) ⟨rfl, rfl, .inl rfl, .inl rfl⟩
    obtain ⟨-, -, -, -, -, -, -, -, -, hsame⟩ := decideProposal_existing.mp hverdict
    rw [hlast hafter] at hsame
    exact native_of_eq_loads env.value htree
      (boundPayload_formed metadata.property evidenceRefs.property) hsame

theorem request_formed : request.payload.wellFormed env.value = true := by
  cases call with
  | beginProposal proposalId metadata evidenceRefs =>
    obtain ⟨-, -, -, -, -, -, hrequest⟩ := beginProposal_appends hcalled
    cases hrequest
    exact boundPayload_formed metadata.property evidenceRefs.property
  | appendProposed proposalId records => cases hrepeatable
  | decide proposalId outcome metadata evidenceRefs =>
    obtain ⟨-, -, -, -, -, -, -, -, hrequest⟩ := decideProposal_appends hcalled
    cases hrequest
    exact boundPayload_formed metadata.property evidenceRefs.property

end

end

section

def Row.json (line : Line) : Json :=
  .obj [("format", .str line.format), ("kind", .str line.kind), ("occurred_at", .str line.occurredAt),
    ("outcome", optionalText line.outcome), ("payload", line.payload),
    ("previous_record_hash", optionalText line.previousRecordHash),
    ("proposal_id", .str line.proposalId), ("record_hash", .str line.recordHash),
    ("record_id", .str line.recordId), ("sequence", .int line.sequence)]

def textEnv : LedgerEnv where
  value := fun _ => 0
  sha := fun body => body.recordId ++ String.ofList body.payload.render
  size := fun line => line.json.render.length + 1

def emptyFile : LedgerFile := ⟨[], 0⟩

def noEvidence : PyObject textEnv.value := ⟨.list [], by decide⟩

/-- `{"case": "pending"}`. -/
def pendingCase : PyObject textEnv.value := ⟨.dict [(.str "case", .str "pending")], by decide⟩

/-- `{"sizes": {9: "a", 10: "b"}}`: the numbers are sorted as numbers and read as texts. -/
def numberedSizes : PyObject textEnv.value :=
  ⟨.dict [(.str "sizes", .dict [(.int 9, .str "a"), (.int 10, .str "b")])], by decide⟩

/-- `{"pair": (1, 2)}`: the tuple comes back as a list. -/
def tuplePair : PyObject textEnv.value :=
  ⟨.dict [(.str "pair", .tuple [.int 1, .int 2])], by decide⟩

theorem beginProposal_empty (metadata : PyObject textEnv.value) :
    (ApiCall.beginProposal "p" metadata noEvidence).verdict textEnv emptyFile = .ok (.appends
      [⟨"proposal", "p", boundPayload textEnv metadata.val noEvidence.val, none⟩]) := rfl

end

end Flowness.PublicLedger
