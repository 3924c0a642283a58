import Flowness.PublicLedger.Histories
import Flowness.Library.Transition
import Mathlib.Logic.Function.Basic

/-!
Any number of processes on one stream. A call reads the stream once without the lock and appends
under it; nothing but its own bytes binds what it appends to what it read.
-/

namespace Flowness.PublicLedger

open Library

/-- The stream, what each process has still to append, and the lines whose `_append` returned. -/
structure LedgerSystem where
  file : LedgerFile
  pending : Nat → List AppendRequest
  returned : List Line

def LedgerSystem.initial : LedgerSystem := ⟨⟨[], 0⟩, fun _ => [], []⟩

inductive LedgerAction (value : String → ℚ) where
  /-- `begin_proposal`, `append_proposed` or `decide` up to the lock. -/
  | call (process : Nat) (call : ApiCall value)
  /-- `_append` of the next record; the write ends after `bytes` bytes, by returning or in death. -/
  | append (process : Nat) (draw : Draw) (bytes : Nat) (returns : Bool)
  | die (process : Nat)
  | read (process : Nat) (view : String)
  | recover (process : Nat)

def LedgerAction.process {value : String → ℚ} : LedgerAction value → Nat
  | .call process _ | .append process _ _ _ | .die process | .read process _ | .recover process =>
    process

namespace LedgerSystem

variable (env : LedgerEnv) (state : LedgerSystem)

def setPending (process : Nat) (requests : List AppendRequest) : LedgerSystem :=
  { state with pending := Function.update state.pending process requests }

/-- The system after `bytes` bytes of the line that a process had to append. -/
def wrote (process : Nat) (rest : List AppendRequest) (line : Line) (bytes : Nat) (returns : Bool) :
    LedgerSystem where
  file := state.file.write env line bytes
  pending := Function.update state.pending process (if returns then rest else [])
  returned := if returns then state.returned ++ [line] else state.returned

def appendNext (process : Nat) (draw : Draw) (bytes : Nat) (returns : Bool) : Option LedgerSystem :=
  match state.pending process with
  | [] => none
  | request :: rest =>
    match append env state.file request draw with
    | .error _ => some (state.setPending process [])
    | .ok (_, line) =>
      if bytes ≤ env.size line then some (state.wrote env process rest line bytes returns) else none

def step : LedgerAction env.value → Option LedgerSystem
  | .call process call =>
    if (state.pending process).isEmpty then
      match call.verdict env state.file with
      | .ok (.appends requests) => some (state.setPending process requests)
      | _ => some state
    else none
  | .append process draw bytes returns => state.appendNext env process draw bytes returns
  | .die process => some (state.setPending process [])
  | .read process _ => if (state.pending process).isEmpty then some state else none
  | .recover process =>
    if (state.pending process).isEmpty then
      some { state with file := (PublicLedger.recover env state.file).1 }
    else none

end LedgerSystem

def LedgerFile.truncated (file : LedgerFile) : LedgerFile := { file with tail := 0 }

/-- One `recover` makes the stream whole: it is read, it is indexed, and each of its proposals has
one history. -/
def StaysReadable (env : LedgerEnv) (file : LedgerFile) : Prop :=
  ∃ report rows proposals, recover env file = (file.truncated, .ok report) ∧
    load env file.truncated = .ok (rows, 0) ∧ index rows = .ok proposals ∧
    ∀ proposalId, OneHistory rows proposalId

/-- A record that is written whole has a new id and a payload that reads back, and its proposal is
still as its call found it. -/
def Undisturbed (env : LedgerEnv) (state : LedgerSystem) : LedgerAction env.value → Prop
  | .append process draw bytes _ => ∀ request rest row line,
    state.pending process = request :: rest → append env state.file request draw = .ok (row, line) →
      env.size line ≤ bytes → draw.recordId ∉ state.file.ids ∧
        request.payload.textOrdered env.value = true ∧ Legal state.file.lines request
  | _ => True

inductive LedgerMove (env : LedgerEnv) (state : LedgerSystem) :
    LedgerAction env.value → LedgerSystem → Prop
  | requested (process : Nat) (call : ApiCall env.value) (requests : List AppendRequest)
      (hverdict : call.verdict env state.file = .ok (.appends requests)) :
      LedgerMove env state (.call process call) (state.setPending process requests)
  | unchanged (action : LedgerAction env.value) : LedgerMove env state action state
  | dropped (action : LedgerAction env.value) :
      LedgerMove env state action (state.setPending action.process [])
  | wrote (process : Nat) (draw : Draw) (bytes : Nat) (returns : Bool) (request : AppendRequest)
      (rest : List AppendRequest) (row : Record) (line : Line)
      (hpending : state.pending process = request :: rest)
      (happend : append env state.file request draw = .ok (row, line))
      (hbytes : bytes ≤ env.size line) :
      LedgerMove env state (.append process draw bytes returns)
        (state.wrote env process rest line bytes returns)
  | recovered (process : Nat) :
      LedgerMove env state (.recover process)
        { state with file := (PublicLedger.recover env state.file).1 }

section

variable {env : LedgerEnv} {state next : LedgerSystem} {action : LedgerAction env.value}
  {file : LedgerFile} {rows : List Record} {row : Record} {line : Line} {request : AppendRequest}
  {draw : Draw} {bytes : Nat}

theorem step_move (h : state.step env action = some next) : LedgerMove env state action next := by
  cases action with
  | call process call =>
    simp only [LedgerSystem.step] at h
    split at h
    · split at h
      next requests hverdict =>
        cases h
        exact .requested process call requests hverdict
      · cases h
        exact .unchanged _
    · cases h
  | append process draw bytes returns =>
    simp only [LedgerSystem.step, LedgerSystem.appendNext] at h
    split at h
    · cases h
    next request rest hpending =>
      split at h
      · cases h
        exact .dropped (.append process draw bytes returns)
      next row line happend =>
        split at h
        next hbytes =>
          cases h
          exact .wrote process draw bytes returns request rest row line hpending happend hbytes
        · cases h
  | die process =>
    cases h
    exact .dropped (.die process)
  | read process view =>
    simp only [LedgerSystem.step] at h
    split at h
    · cases h
      exact .unchanged _
    · cases h
  | recover process =>
    simp only [LedgerSystem.step] at h
    split at h
    · cases h
      exact .recovered process
    · cases h

theorem load_truncated :
    load env file.truncated = .ok (rows, 0) ↔ ∃ incomplete, load env file = .ok (rows, incomplete) := by
  simp [load_ok, LedgerFile.truncated]

theorem recover_lines (env : LedgerEnv) (file : LedgerFile) : (recover env file).1.lines = file.lines := by
  unfold recover
  split
  · rfl
  · split <;> rfl

section

variable {proposals : Proposals} (hload : load env file = .ok (rows, 0))
    (hindex : index rows = .ok proposals)
include hload hindex

theorem read_committed : read env file "committed" = .ok (committedRows rows proposals) := by
  simp only [read, bind_ok, require_ok, exists_const]
  exact ⟨by decide, (rows, proposals), readProposals_ok.mpr ⟨hload, hindex⟩, rfl⟩

theorem recoveryReport_ok (action : String) (affectedBytes : Nat) :
    recoveryReport env file action affectedBytes =
      .ok (summarize action affectedBytes rows proposals (committedRows rows proposals)) := by
  simp only [recoveryReport, bind_ok, require_ok, exists_const]
  exact ⟨(rows, 0), hload, beq_self_eq_true 0, proposals, hindex, _, read_committed hload hindex, rfl⟩

end

theorem recover_ok {proposals : Proposals} (hload : load env file = .ok (rows, incomplete))
    (hindex : index rows = .ok proposals) :
    ∃ action, recover env file = (file.truncated,
      .ok (summarize action incomplete rows proposals (committedRows rows proposals))) := by
  have htail : file.tail = incomplete := (load_ok.mp hload).2.2
  by_cases hzero : incomplete = 0
  · subst hzero
    have hsame : file.truncated = file := by
      rw [LedgerFile.truncated, ← htail]
    have hreport := recoveryReport_ok hload hindex "no_physical_tail_change" 0
    refine ⟨"no_physical_tail_change", ?_⟩
    simp only [recover, hload, if_true, hreport, hsame]
  · have hreport := recoveryReport_ok (load_truncated.mpr ⟨incomplete, hload⟩) hindex
      "truncated_incomplete_tail" incomplete
    rw [LedgerFile.truncated] at hreport
    refine ⟨"truncated_incomplete_tail", ?_⟩
    simp only [recover, hload, hzero, if_false, hreport, LedgerFile.truncated]

def Readable (env : LedgerEnv) (file : LedgerFile) : Prop :=
  ∃ rows incomplete proposals, load env file = .ok (rows, incomplete) ∧ index rows = .ok proposals

theorem Readable.staysReadable (h : Readable env file) : StaysReadable env file := by
  obtain ⟨rows, incomplete, proposals, hload, hindex⟩ := h
  obtain ⟨action, hreport⟩ := recover_ok hload hindex
  exact ⟨_, rows, proposals, hreport, load_truncated.mpr ⟨incomplete, hload⟩, hindex,
    index_oneHistory hindex⟩

theorem Readable.of_lines (h : Readable env file) (hlines : other.lines = file.lines) :
    Readable env other := by
  obtain ⟨rows, incomplete, proposals, hload, hindex⟩ := h
  obtain ⟨hloaded, hnodup, -⟩ := load_ok.mp hload
  exact ⟨rows, other.tail, proposals, load_ok.mpr ⟨hlines ▸ hloaded, hnodup, rfl⟩, hindex⟩

theorem Readable.add (happend : append env file request draw = .ok (row, line))
    (hfresh : draw.recordId ∉ file.ids) (hordered : request.payload.textOrdered env.value = true)
    (hsound : RequestSound file.lines request) (hlegal : Legal file.lines request) :
    Readable env (file.add line) := by
  obtain ⟨rows, proposals, -, hload, hindex, -⟩ := append_ok happend
  obtain ⟨tree, -, -, hkind, hid, houtcome, -⟩ := append_line happend
  have hrows := load_rows hload
  obtain ⟨after, hafter⟩ : ∃ after, indexRow proposals line.loads = .ok after :=
    indexRow_legal hindex (hrows ▸ requestSound_loads.mpr hsound) (hrows ▸ legal_loads.mpr hlegal)
      hkind hid houtcome
  exact ⟨rows ++ [line.loads], 0, after, load_appended happend hload hfresh hordered,
    (index_snoc hindex).trans hafter⟩

theorem write_cases (file : LedgerFile) (hbytes : bytes ≤ env.size line) :
    (bytes < env.size line ∧ (file.write env line bytes).lines = file.lines) ∨
      bytes = env.size line ∧ file.write env line bytes = file.add line := by
  by_cases hshort : bytes < env.size line
  · left
    exact ⟨hshort, by rw [LedgerFile.write, if_pos hshort]⟩
  · right
    exact ⟨by omega, by rw [LedgerFile.write, if_neg hshort, LedgerFile.add]⟩

structure SystemSound (env : LedgerEnv) (state : LedgerSystem) : Prop where
  readable : Readable env state.file
  sound : ∀ process, ∀ request ∈ state.pending process, RequestSound state.file.lines request

theorem systemSound_initial : SystemSound env .initial where
  readable := ⟨[], 0, [], rfl, rfl⟩
  sound := fun _ _ hmem => absurd hmem List.not_mem_nil

theorem SystemSound.pending (h : SystemSound env state) (back : List Line)
    (hlines : lines = state.file.lines ++ back)
    (hrequests : ∀ request ∈ requests, RequestSound lines request) (other : Nat)
    (request : AppendRequest)
    (hmem : request ∈ Function.update state.pending process requests other) :
    RequestSound lines request := by
  by_cases hsame : other = process
  · subst hsame
    rw [Function.update_self] at hmem
    exact hrequests request hmem
  · rw [Function.update_of_ne hsame] at hmem
    exact hlines ▸ (h.sound other request hmem).append back

theorem SystemSound.step (h : SystemSound env state) (hundisturbed : Undisturbed env state action)
    (hstep : state.step env action = some next) : SystemSound env next := by
  cases step_move hstep with
  | requested process call requests hverdict =>
    have hfit := (verdict_requestsFit hverdict).sound
    exact ⟨h.readable, h.pending [] (List.append_nil _).symm hfit⟩
  | unchanged => exact h
  | dropped =>
    exact ⟨h.readable, h.pending [] (List.append_nil _).symm fun _ hmem => absurd hmem List.not_mem_nil⟩
  | wrote process draw bytes returns request rest row line hpending happend hbytes =>
    have hsound := h.sound process request (hpending ▸ List.mem_cons_self)
    have hrest : ∀ other ∈ (if returns then rest else []), RequestSound state.file.lines other := by
      intro other hmem
      split at hmem
      · exact h.sound process other (hpending ▸ List.mem_cons_of_mem _ hmem)
      · exact absurd hmem List.not_mem_nil
    obtain ⟨-, hlines⟩ | ⟨hwhole, hfile⟩ := write_cases state.file hbytes
    · exact ⟨h.readable.of_lines hlines, h.pending [] (hlines.trans (List.append_nil _).symm)
        (hlines ▸ hrest)⟩
    · obtain ⟨hfresh, hordered, hlegal⟩ :=
        hundisturbed request rest row line hpending happend hwhole.ge
      have hlines : (state.file.write env line bytes).lines = state.file.lines ++ [line] := by
        rw [hfile, LedgerFile.add]
      refine ⟨?_, h.pending [line] hlines fun other hmem => ?_⟩
      · show Readable env (state.file.write env line bytes)
        rw [hfile]
        exact Readable.add happend hfresh hordered hsound hlegal
      · exact hlines ▸ (hrest other hmem).append [line]
  | recovered process =>
    have hlines := recover_lines env state.file
    exact ⟨h.readable.of_lines hlines, fun other request hmem => hlines ▸ h.sound other request hmem⟩

end

section

instance {π : Type} (rows : List (Row π)) (kind proposalId : String) :
    Decidable (HasRow rows kind proposalId) :=
  inferInstanceAs (Decidable (∃ row ∈ rows, row.kind = kind ∧ row.proposalId = proposalId))

instance {π : Type} (rows : List (Row π)) (request : AppendRequest) :
    Decidable (Legal rows request) :=
  inferInstanceAs (Decidable ((_ → ¬ _) ∧ (_ → ¬ _)))

/-- `Undisturbed`, computed. -/
def undisturbed (env : LedgerEnv) (state : LedgerSystem) : LedgerAction env.value → Bool
  | .append process draw bytes _ =>
    match state.pending process with
    | [] => true
    | request :: _ =>
      match append env state.file request draw with
      | .error _ => true
      | .ok (_, line) => decide (bytes < env.size line) ||
          decide (draw.recordId ∉ state.file.ids ∧ request.payload.textOrdered env.value = true ∧
            Legal state.file.lines request)
  | _ => true

theorem undisturbed_sound (env : LedgerEnv) (state : LedgerSystem) (action : LedgerAction env.value)
    (h : undisturbed env state action = true) : Undisturbed env state action := by
  cases action with
  | append process draw bytes returns =>
    intro request rest row line hpending happend hwhole
    simp only [undisturbed, hpending, happend, Bool.or_eq_true, decide_eq_true_eq] at h
    obtain hshort | hfits := h
    · omega
    · exact hfits
  | _ => trivial

/-- `{"change": "requested"}`. -/
def requestedChange : PyObject textEnv.value :=
  ⟨.dict [(.str "change", .str "requested")], by decide⟩

/-- Process 0 begins the proposal; the writer dies inside its first record, and after `recover` writes
it again; process 0 accepts the proposal. -/
def acceptedAfterDeath (writer : Nat) : List (LedgerAction textEnv.value) :=
  [.call 0 (.beginProposal "p" pendingCase noEvidence), .append 0 ⟨"r1", "t1"⟩ 303 true,
    .call writer (.appendProposed "p" [requestedChange]), .append writer ⟨"r2", "t2"⟩ 100 false,
    .recover 0, .call writer (.appendProposed "p" [requestedChange]), .append writer ⟨"r3", "t3"⟩ 308 true,
    .call 0 (.decide "p" "accepted" pendingCase noEvidence), .append 0 ⟨"r4", "t4"⟩ 335 true]

def begunTwice : List (LedgerAction textEnv.value) :=
  [.call 0 (.beginProposal "p" pendingCase noEvidence),
    .call 1 (.beginProposal "p" requestedChange noEvidence), .append 0 ⟨"r1", "t1"⟩ 303 true,
    .append 1 ⟨"r2", "t2"⟩ 369 true]

def endFrom (start : LedgerSystem) (labels : List (LedgerAction textEnv.value)) : LedgerSystem :=
  (labels.foldlM (fun (state : LedgerSystem) action => state.step textEnv action) start).getD start

def endOf (labels : List (LedgerAction textEnv.value)) : LedgerSystem := endFrom .initial labels

theorem run_endFrom {guard : LedgerSystem → LedgerAction textEnv.value → Prop}
    {check : LedgerSystem → LedgerAction textEnv.value → Bool} {start : LedgerSystem}
    {labels : List (LedgerAction textEnv.value)}
    (hcheck : ∀ state action, check state action = true → guard state action)
    (h : (labels.foldlM (fun (state : LedgerSystem) action =>
      if check state action then state.step textEnv action else none) start).isSome = true) :
    Run (fun state action => state.step textEnv action) guard start labels (endFrom start labels) :=
  Run.of_check_isSome hcheck h

end

end Flowness.PublicLedger
