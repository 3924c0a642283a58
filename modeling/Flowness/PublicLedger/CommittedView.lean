import Flowness.PublicLedger.Interleaving

/-!
One process after another on one stream, dying inside any write. Between its look at the stream and
its append nobody else moves, so every request still fits; what an append returned stays as long as
no append returns from a write that was cut short.
-/

namespace Flowness.PublicLedger

open List Library Bool Function

def accepted (rows : List Record) (proposalId : String) : Bool :=
  rows.any fun row => row.kind == "decision" && row.proposalId == proposalId &&
    row.outcome == some "accepted"

/-- What the stream of a state shows once it is recovered: the committed view holds the proposed
records of the accepted proposals and of no other, and every returned record can be audited. -/
structure Views (env : LedgerEnv) (state : LedgerSystem) (rows committed : List Record)
    (report : RecoveryReport) : Prop where
  recovers : recover env state.file = (state.file.truncated, .ok report)
  audit : read env state.file.truncated "audit" = .ok rows
  reads : read env state.file.truncated "committed" = .ok committed
  exactly : committed = rows.filter fun row =>
    row.kind == "proposed_record" && accepted rows row.proposalId
  decided : ∀ row ∈ committed, ∀ decision ∈ rows, decision.kind = "decision" →
    decision.proposalId = row.proposalId → decision.outcome = some "accepted"
  returned : ∀ line ∈ state.returned, line.loads ∈ rows

/-- The process acts alone. A write that returns has written the whole record, and a record that is
written whole has a new id and a payload that reads back. -/
def WholeWrites (env : LedgerEnv) (process : Nat) (state : LedgerSystem)
    (action : LedgerAction env.value) : Prop :=
  action.process = process ∧
    match action with
    | .append process draw bytes returns => ∀ request rest row line,
      state.pending process = request :: rest → append env state.file request draw = .ok (row, line) →
        (returns = true → env.size line ≤ bytes) ∧ (env.size line ≤ bytes →
          draw.recordId ∉ state.file.ids ∧ request.payload.textOrdered env.value = true)
    | _ => True

section

variable {env : LedgerEnv} {state next later : LedgerSystem} {action : LedgerAction env.value}
  {file : LedgerFile} {rows : List Record} {row : Record} {line : Line} {proposals : Proposals}
  {request : AppendRequest} {rest : List AppendRequest} {process : Nat}

theorem committedRows_eq (h : index rows = .ok proposals) :
    committedRows rows proposals = rows.filter fun row =>
      row.kind == "proposed_record" && accepted rows row.proposalId := by
  refine filter_congr fun row _ => ?_
  congr 1
  rw [Bool.eq_iff_iff]
  simp only [accepted, Option.any_eq_true, any_eq_true, Bool.and_eq_true, beq_iff_eq]
  constructor
  · rintro ⟨proposal, hget, decision, hdecision, houtcome⟩
    obtain ⟨hmem, hkind, hid⟩ := (index_decided h).mp ⟨proposal, hget, hdecision⟩
    exact ⟨decision, hmem, ⟨hkind, hid⟩, houtcome⟩
  · rintro ⟨decision, hmem, ⟨hkind, hid⟩, houtcome⟩
    obtain ⟨proposal, hget, hdecision⟩ := (index_decided h).mpr ⟨hmem, hkind, hid⟩
    exact ⟨proposal, hget, decision, hdecision, houtcome⟩

theorem decided_of_accepted (h : index rows = .ok proposals)
    (haccepted : accepted rows proposalId = true) (hmem : decision ∈ rows)
    (hkind : decision.kind = "decision") (hid : decision.proposalId = proposalId) :
    decision.outcome = some "accepted" := by
  simp only [accepted, any_eq_true, and_eq_true, beq_iff_eq] at haccepted
  obtain ⟨accepting, hin, ⟨haccepting, hsame⟩, houtcome⟩ := haccepted
  obtain ⟨proposal, hget, hdecision⟩ := (index_decided h).mpr ⟨hmem, hkind, hid⟩
  obtain ⟨proposal', hget', hdecision'⟩ := (index_decided h).mpr ⟨hin, haccepting, hsame⟩
  rw [hget] at hget'
  cases hget'
  rw [hdecision] at hdecision'
  cases hdecision'
  exact houtcome

theorem committed_sublist (front back : List Record) :
    (front.filter fun row => row.kind == "proposed_record" && accepted front row.proposalId).Sublist
      ((front ++ back).filter fun row =>
        row.kind == "proposed_record" && accepted (front ++ back) row.proposalId) := by
  rw [filter_append]
  refine (monotone_filter_right front fun row hrow => ?_).trans (sublist_append_left _ _)
  simp only [and_eq_true] at hrow ⊢
  refine ⟨hrow.1, ?_⟩
  simp only [accepted, any_append, or_eq_true]
  exact .inl hrow.2

theorem watermark_le {fewer more : List Record} (h : fewer.Sublist more)
    (hascending : more.Pairwise fun a b => a.sequence < b.sequence) :
    (fewer.getLast?.map fun row => row.sequence).getD 0 ≤
      (more.getLast?.map fun row => row.sequence).getD 0 := by
  cases hlast : fewer.getLast? with
  | none => exact Nat.zero_le _
  | some last =>
    have hmem : last ∈ more := h.subset (mem_of_getLast? hlast)
    obtain ⟨front, final, rfl⟩ : ∃ front final, more = front ++ [final] :=
      eq_nil_or_concat' more |>.resolve_left (ne_nil_of_mem hmem)
    rw [List.getLast?_concat]
    obtain hfront | hfinal := mem_append.mp hmem
    · have hlt := (pairwise_append.mp hascending).2.2 last hfront final mem_cons_self
      exact hlt.le
    · exact (mem_singleton.mp hfinal) ▸ le_refl _

section

variable {lines : List Line} (h : lines.foldlM (loadRecord env) [] = .ok rows)
include h

theorem loadRecords_numbered : rows.map (fun row => row.sequence) = List.range' 1 rows.length := by
  induction lines using List.reverseRecOn generalizing rows with
  | nil =>
    cases h
    rfl
  | append_singleton lines line ih =>
    obtain ⟨before, hbefore, hline⟩ := foldlM_snoc_ok.mp h
    obtain ⟨⟨-, hsequence, -⟩, rfl⟩ := loadRecord_ok.mp hline
    have hloaded : line.loads.sequence = before.length + 1 := hsequence
    rw [map_append, ih hbefore, map_singleton, hloaded, length_append,
      length_singleton, List.range'_1_concat, Nat.add_comm 1]

theorem loadRecords_lastSequence :
    (rows.getLast?.map fun row => row.sequence).getD 0 = lines.length := by
  have hnumbered := loadRecords_numbered h
  have hlength : rows.length = lines.length := by
    rw [loadRecords_eq h, nil_append, length_map]
  rw [← List.getLast?_map, hnumbered, ← hlength]
  cases rows.length with
  | zero => rfl
  | succ count => rw [List.range'_1_concat, List.getLast?_concat, Option.getD_some, Nat.add_comm]

end

theorem load_ascending {incomplete : Nat} (h : load env file = .ok (rows, incomplete)) :
    rows.Pairwise fun a b => a.sequence < b.sequence := by
  have hnumbered := loadRecords_numbered (load_ok.mp h).1
  have hlt : (rows.map fun row => row.sequence).Pairwise (· < ·) := by
    rw [hnumbered]
    exact pairwise_lt_range'
  exact pairwise_map.mp hlt

theorem RequestsFit.afterFirst (h : RequestsFit lines (request :: rest))
    (hkind : line.kind = request.kind) : RequestsFit (lines ++ [line]) rest := by
  refine ⟨fun other hmem => (h.sound other (mem_cons_of_mem _ hmem)).append [line],
    fun other hmem => ?_, ?_⟩
  · obtain hone | hrecords := h.several
    · have hlength := length_pos_of_mem hmem
      rw [length_cons] at hone
      omega
    · have hrequest := hrecords request mem_cons_self
      have hother := hrecords other (mem_cons_of_mem _ hmem)
      refine ⟨fun hbegins => absurd (hother.symm.trans hbegins) (by decide), fun hne => ?_⟩
      rw [hasRow_snoc]
      rintro (hdecided | ⟨hdecision, -⟩)
      · exact (h.legal other (mem_cons_of_mem _ hmem)).2 hne hdecided
      · rw [hkind, hrequest] at hdecision
        exact absurd hdecision (by decide)
  · obtain hone | hrecords := h.several
    · exact .inl (by simp only [length_cons] at hone; omega)
    · exact .inr fun other hmem => hrecords other (mem_cons_of_mem _ hmem)

theorem requestsFit_nil (lines : List Line) : RequestsFit lines [] where
  sound := fun _ hmem => absurd hmem not_mem_nil
  legal := fun _ hmem => absurd hmem not_mem_nil
  several := .inl (Nat.zero_le 1)

theorem write_lines (env : LedgerEnv) (file : LedgerFile) (line : Line) (bytes : Nat) :
    ∃ back, (file.write env line bytes).lines = file.lines ++ back := by
  unfold LedgerFile.write
  split
  · exact ⟨[], (append_nil _).symm⟩
  · exact ⟨[line], rfl⟩

structure SoloSound (env : LedgerEnv) (process : Nat) (state : LedgerSystem) : Prop where
  system : SystemSound env state
  fits : RequestsFit state.file.lines (state.pending process)
  returned : ∀ line ∈ state.returned, line ∈ state.file.lines

theorem soloSound_initial : SoloSound env process .initial where
  system := systemSound_initial
  fits := requestsFit_nil []
  returned := fun _ hmem => absurd hmem not_mem_nil

section

variable (h : SoloSound env process state) (hwhole : WholeWrites env process state action)
include h hwhole

theorem SoloSound.undisturbed : Undisturbed env state action := by
  cases action with
  | append other draw bytes returns =>
    obtain ⟨rfl, hwrites⟩ := hwhole
    intro request rest row line hpending happend hbytes
    obtain ⟨hfresh, hordered⟩ := (hwrites request rest row line hpending happend).2 hbytes
    have hmem : request ∈ state.pending other := hpending ▸ mem_cons_self
    exact ⟨hfresh, hordered, h.fits.legal request hmem⟩
  | _ => trivial

theorem SoloSound.step (hstep : state.step env action = some next) :
    SoloSound env process next := by
  have hsystem := h.system.step (h.undisturbed hwhole) hstep
  refine ⟨hsystem, ?_, ?_⟩
  · cases step_move hstep with
    | requested other call requests hverdict =>
      obtain ⟨rfl, -⟩ := hwhole
      show RequestsFit state.file.lines (Function.update state.pending other requests other)
      rw [update_self]
      exact verdict_requestsFit hverdict
    | unchanged => exact h.fits
    | dropped =>
      obtain ⟨rfl, -⟩ := hwhole
      show RequestsFit state.file.lines (Function.update state.pending action.process [] action.process)
      rw [update_self]
      exact requestsFit_nil _
    | wrote other draw bytes returns request rest row line hpending happend hbytes =>
      obtain ⟨rfl, hwrites⟩ := hwhole
      obtain ⟨tree, -, -, hkind, -⟩ := append_line happend
      have hfits : RequestsFit state.file.lines (request :: rest) := hpending ▸ h.fits
      show RequestsFit (state.file.write env line bytes).lines
        (Function.update state.pending other (if returns then rest else []) other)
      rw [update_self]
      cases returns with
      | false => exact requestsFit_nil _
      | true =>
        have hsize := (hwrites request rest row line hpending happend).1 rfl
        obtain ⟨hshort, -⟩ | ⟨-, hfile⟩ := write_cases state.file hbytes
        · omega
        · rw [hfile]
          exact hfits.afterFirst hkind
    | recovered other =>
      rw [recover_lines]
      exact h.fits
  · cases step_move hstep with
    | wrote other draw bytes returns request rest row line hpending happend hbytes =>
      obtain ⟨rfl, hwrites⟩ := hwhole
      obtain ⟨back, hlines⟩ := write_lines env state.file line bytes
      have hkept : ∀ kept ∈ state.returned, kept ∈ (state.file.write env line bytes).lines :=
        fun kept hmem => hlines ▸ mem_append_left back (h.returned kept hmem)
      cases returns with
      | false => exact hkept
      | true =>
        have hsize := (hwrites request rest row line hpending happend).1 rfl
        have hadded : (state.file.write env line bytes).lines = state.file.lines ++ [line] := by
          rw [LedgerFile.write, if_neg (by omega)]
        intro kept hmem
        obtain hmem | hmem := mem_append.mp hmem
        · exact hkept kept hmem
        · show kept ∈ (state.file.write env line bytes).lines
          rw [hadded]
          exact mem_append_right _ hmem
    | recovered other =>
      intro kept hmem
      rw [recover_lines]
      exact h.returned kept hmem
    | _ => exact h.returned

end

theorem step_lines (hstep : state.step env action = some next) :
    state.file.lines <+: next.file.lines := by
  cases step_move hstep with
  | wrote other draw bytes returns request rest row line hpending happend hbytes =>
    obtain ⟨back, hlines⟩ := write_lines env state.file line bytes
    exact ⟨back, hlines.symm⟩
  | recovered other =>
    exact (recover_lines env state.file).symm ▸ prefix_refl _
  | _ => exact prefix_refl _

theorem SoloSound.views (h : SoloSound env process state) :
    ∃ rows committed report, Views env state rows committed report ∧
      rows = (state.file.lines.map fun line => line.loads) ∧
      (rows.Pairwise fun a b => a.sequence < b.sequence) ∧
      report.committedWatermark = (committed.getLast?.map fun row => row.sequence).getD 0 := by
  obtain ⟨rows, incomplete, proposals, hload, hindex⟩ := h.system.readable
  obtain ⟨action, hrecover⟩ := recover_ok hload hindex
  have hwhole := load_truncated.mpr ⟨incomplete, hload⟩
  have hrows := load_rows hload
  refine ⟨rows, committedRows rows proposals, _, ⟨hrecover, ?_, read_committed hwhole hindex,
    committedRows_eq hindex, ?_, ?_⟩, hrows, load_ascending hload, rfl⟩
  · simp only [read, bind_ok, require_ok, exists_const]
    exact ⟨by decide, (rows, proposals), readProposals_ok.mpr ⟨hwhole, hindex⟩, rfl⟩
  · intro row hmem decision hdecision hkind hid
    rw [committedRows_eq hindex] at hmem
    have haccepted := (mem_filter.mp hmem).2
    simp only [and_eq_true] at haccepted
    exact decided_of_accepted hindex haccepted.2 hdecision hkind hid
  · intro line hmem
    exact hrows ▸ mem_map.mpr ⟨line, h.returned line hmem, rfl⟩

end

section

/-- `WholeWrites`, computed. -/
def wholeWrites (env : LedgerEnv) (process : Nat) (state : LedgerSystem)
    (action : LedgerAction env.value) : Bool :=
  action.process == process &&
    match action with
    | .append process draw bytes returns =>
      match state.pending process with
      | [] => true
      | request :: _ =>
        match append env state.file request draw with
        | .error _ => true
        | .ok (_, line) => decide ((returns = true → env.size line ≤ bytes) ∧ (env.size line ≤ bytes →
            draw.recordId ∉ state.file.ids ∧ request.payload.textOrdered env.value = true))
    | _ => true

theorem wholeWrites_sound (env : LedgerEnv) (process : Nat) (state : LedgerSystem)
    (action : LedgerAction env.value) (h : wholeWrites env process state action = true) :
    WholeWrites env process state action := by
  simp only [wholeWrites, and_eq_true, beq_iff_eq] at h
  refine ⟨h.1, ?_⟩
  cases action with
  | append other draw bytes returns =>
    intro request rest row line hpending happend
    simpa only [hpending, happend, decide_eq_true_eq] using h.2
  | _ => trivial

def anotherProposal : List (LedgerAction textEnv.value) :=
  [.call 0 (.beginProposal "q" pendingCase noEvidence), .append 0 ⟨"r5", "t5"⟩ 361 true]

/-- The write of the beginning ends after 100 bytes without raising, and `recover` follows. -/
def shortWrite : List (LedgerAction textEnv.value) :=
  [.call 0 (.beginProposal "p" pendingCase noEvidence), .append 0 ⟨"r1", "t1"⟩ 100 true, .recover 0]

end

end Flowness.PublicLedger
