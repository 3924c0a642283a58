import Mathlib.Data.List.Infix
import Flowness.PublicLedger.CommittedView

/-!
The projection of the committed view: its rebuilds read the stream twice and write through one
temporary file for each projection id, and its readers check the head that it was built at.
-/

namespace Flowness.PublicLedger

open Library Option

structure Watermark where
  sequence : Nat
  recordHash : Option String
deriving DecidableEq, Repr

structure UnsignedProjection where
  format : String
  projectionId : String
  watermark : Watermark
  committedTypeCounts : List (String × Nat)
deriving DecidableEq, Repr

structure TypeProjection extends UnsignedProjection where
  projectionHash : String
deriving DecidableEq, Repr

def PROJECTION_FORMAT : String := "flowness-ledger-core/projection/v1"

def head (env : LedgerEnv) (file : LedgerFile) : Except LedgerError Watermark := do
  let (rows, _) ← readProposals env file "projection refuses an incomplete ledger tail"
  .ok ⟨(rows.getLast?.map fun row => row.sequence).getD 0,
    rows.getLast?.map fun row => row.recordHash⟩

/-- `row["payload"].get("type")`, or none when it raises an AttributeError. -/
def payloadType : PyValue → Option (Option PyValue)
  | .dict entries => some ((entries.find? fun entry => entry.1 == .str "type").map fun entry => entry.2)
  | _ => none

def countType (counts : Dict String Nat) (row : Record) : Option (Dict String Nat) :=
  (payloadType row.payload).map fun value =>
    match value with
    | some (.str text) => counts.set text ((counts.get text).getD 0 + 1)
    | _ => counts

def typeCounts (rows : List Record) : Option (List (String × Nat)) :=
  (rows.foldlM countType []).map fun counts => counts.insertionSort fun a b => a.1 ≤ b.1

def isSafeId (projectionId : String) : Bool :=
  projectionId != "" && '/' ∉ projectionId.toList && !decide (['.', '.'] <:+: projectionId.toList)

def projectionOf (hash : UnsignedProjection → String) (projectionId : String)
    (watermark : Watermark) (counts : List (String × Nat)) : TypeProjection :=
  let unsigned : UnsignedProjection := ⟨PROJECTION_FORMAT, projectionId, watermark, counts⟩
  ⟨unsigned, hash unsigned⟩

/-- What `read_fresh_type_projection` does with the payload it has read. -/
def checkFresh (hash : UnsignedProjection → String) (env : LedgerEnv) (file : LedgerFile)
    (payload : TypeProjection) : Except LedgerError TypeProjection := do
  require (payload.format == PROJECTION_FORMAT &&
    payload.projectionHash == hash payload.toUnsignedProjection)
    (.ledger "projection hash is invalid")
  let watermark ← head env file
  require (payload.watermark == watermark) (.ledger "projection is stale; rebuild required")
  .ok payload

inductive Rebuild where
  | headRead (projectionId : String) (watermark : Watermark)
  | counted (payload : TypeProjection)
  | written (payload : TypeProjection)
deriving Repr

/-- The ledger, the files of the projection directory by projection id, the rebuilds under way, and
the payloads that readers have read. -/
structure ProjectionSystem where
  ledger : LedgerSystem
  stored : String → Option TypeProjection
  temporary : String → Option TypeProjection
  rebuilds : Nat → Option Rebuild
  reading : Nat → Option TypeProjection

def ProjectionSystem.start (ledger : LedgerSystem) : ProjectionSystem :=
  ⟨ledger, fun _ => none, fun _ => none, fun _ => none, fun _ => none⟩

inductive ProjectionAction (value : String → ℚ) where
  | ledger (action : LedgerAction value)
  | readHead (process : Nat) (projectionId : String)
  | readCommitted (process : Nat)
  | writeTemporary (process : Nat)
  | replace (process : Nat)
  /-- The reader's `path.read_bytes`. -/
  | readPayload (process : Nat) (projectionId : String)

namespace ProjectionSystem

variable (hash : UnsignedProjection → String) (env : LedgerEnv) (state : ProjectionSystem)

def setRebuild (process : Nat) (rebuild : Option Rebuild) : ProjectionSystem :=
  { state with rebuilds := Function.update state.rebuilds process rebuild }

def readHead (process : Nat) (projectionId : String) : ProjectionSystem :=
  if isSafeId projectionId then
    match head env state.ledger.file with
    | .ok watermark => state.setRebuild process (some (.headRead projectionId watermark))
    | .error _ => state
  else state

def readCommitted (process : Nat) (projectionId : String) (watermark : Watermark) :
    ProjectionSystem :=
  match read env state.ledger.file "committed" with
  | .ok rows =>
    state.setRebuild process ((typeCounts rows).map fun counts =>
      .counted (projectionOf hash projectionId watermark counts))
  | .error _ => state.setRebuild process none

/-- `os.replace`, which raises when another rebuild has moved the file away. -/
def replace (process : Nat) (payload : TypeProjection) : ProjectionSystem :=
  match state.temporary payload.projectionId with
  | none => state.setRebuild process none
  | some written =>
    { state.setRebuild process none with
      stored := Function.update state.stored payload.projectionId (some written)
      temporary := Function.update state.temporary payload.projectionId none }

def step : ProjectionAction env.value → Option ProjectionSystem
  | .ledger action => (state.ledger.step env action).map fun ledger => { state with ledger := ledger }
  | .readHead process projectionId =>
    if (state.rebuilds process).isNone then some (state.readHead env process projectionId) else none
  | .readCommitted process =>
    match state.rebuilds process with
    | some (.headRead projectionId watermark) =>
      some (state.readCommitted hash env process projectionId watermark)
    | _ => none
  | .writeTemporary process =>
    match state.rebuilds process with
    | some (.counted payload) =>
      some { state.setRebuild process (some (.written payload)) with
        temporary := Function.update state.temporary payload.projectionId (some payload) }
    | _ => none
  | .replace process =>
    match state.rebuilds process with
    | some (.written payload) => some (state.replace process payload)
    | _ => none
  | .readPayload process projectionId =>
    some { state with reading := Function.update state.reading process (state.stored projectionId) }

end ProjectionSystem

/-- The head was read when the stream was no longer than it is. -/
def Watermark.Passed (watermark : Watermark) (lines : List Line) : Prop :=
  watermark.sequence ≤ lines.length

/-- While the stream is as long as the watermark says, its committed rows are the ones counted. -/
structure TypeProjection.Sound (payload : TypeProjection) (lines : List Line) : Prop where
  passed : payload.watermark.Passed lines
  counts : payload.watermark.sequence = lines.length →
    ∀ proposals, index (lines.map fun line => line.loads) = .ok proposals →
      typeCounts (committedRows (lines.map fun line => line.loads) proposals) =
        some payload.committedTypeCounts

section

variable {hash : UnsignedProjection → String} {env : LedgerEnv} {file : LedgerFile}
  {lines : List Line} {payload : TypeProjection} {watermark : Watermark}

theorem TypeProjection.Sound.append (h : payload.Sound lines) (hbegins : lines <+: later) :
    payload.Sound later := by
  refine ⟨h.passed.trans hbegins.length_le, fun hlength => ?_⟩
  have hsame : lines = later :=
    hbegins.eq_of_length_le (hlength ▸ h.passed)
  exact hsame ▸ h.counts (hsame ▸ hlength)

theorem head_ok (h : head env file = .ok watermark) :
    ∃ rows proposals, load env file = .ok (rows, 0) ∧ index rows = .ok proposals ∧
      rows = (file.lines.map fun line => line.loads) ∧
      watermark.sequence = file.lines.length := by
  simp only [head, bind_ok] at h
  obtain ⟨⟨rows, proposals⟩, hread, hwatermark⟩ := h
  obtain ⟨hload, hindex⟩ := readProposals_ok.mp hread
  have hrows := load_rows hload
  refine ⟨rows, proposals, hload, hindex, hrows, ?_⟩
  cases hwatermark
  exact loadRecords_lastSequence (load_ok.mp hload).1

theorem readCommitted_ok (h : read env file "committed" = .ok rows) :
    ∃ proposals, index (file.lines.map fun line => line.loads) = .ok proposals ∧
      rows = committedRows (file.lines.map fun line => line.loads) proposals := by
  simp only [read, bind_ok, require_ok, exists_const] at h
  obtain ⟨-, ⟨all, proposals⟩, hread, hrows⟩ := h
  obtain ⟨hload, hindex⟩ := readProposals_ok.mp hread
  rw [load_rows hload] at hindex hrows
  exact ⟨proposals, hindex, (Except.ok.inj hrows).symm⟩

theorem sound_of_counted (hpassed : watermark.Passed file.lines)
    (hread : read env file "committed" = .ok rows) (hcounts : typeCounts rows = some counts) :
    (projectionOf hash projectionId watermark counts).Sound file.lines := by
  refine ⟨hpassed, fun _ proposals hindex => ?_⟩
  obtain ⟨found, hfound, rfl⟩ := readCommitted_ok hread
  rw [hindex] at hfound
  cases hfound
  exact hcounts

theorem TypeProjection.Sound.fresh (h : payload.Sound file.lines)
    (hfresh : checkFresh hash env file payload = .ok returned) :
    ∃ rows, read env file "committed" = .ok rows ∧
      typeCounts rows = some returned.committedTypeCounts := by
  simp only [checkFresh, bind_ok, require_ok, exists_const, Except.ok.injEq, beq_iff_eq] at hfresh
  obtain ⟨-, watermark, hhead, hmatches, rfl⟩ := hfresh
  obtain ⟨rows, proposals, hload, hindex, rfl, hsequence⟩ := head_ok hhead
  exact ⟨_, read_committed hload hindex, h.counts (hmatches ▸ hsequence) proposals hindex⟩

end

def Rebuild.Sound (lines : List Line) : Rebuild → Prop
  | .headRead _ watermark => watermark.Passed lines
  | .counted payload | .written payload => payload.Sound lines

theorem Rebuild.Sound.append {lines later : List Line} {rebuild : Rebuild}
    (h : rebuild.Sound lines) (hbegins : lines <+: later) : rebuild.Sound later := by
  cases rebuild with
  | headRead projectionId watermark => exact h.trans hbegins.length_le
  | counted payload => exact TypeProjection.Sound.append h hbegins
  | written payload => exact TypeProjection.Sound.append h hbegins

/-- Whatever a function that is partly defined holds meets the condition. -/
def Holds {κ ν : Type} (P : ν → Prop) (f : κ → Option ν) : Prop :=
  ∀ key value, f key = some value → P value

theorem holds_none {κ ν : Type} {P : ν → Prop} : Holds P fun _ : κ => none := by
  intro key value hvalue
  cases hvalue

theorem Holds.update {κ ν : Type} [DecidableEq κ] {P : ν → Prop} {f : κ → Option ν} {key : κ}
    {entry : Option ν} (h : Holds P f) (hentry : ∀ value, entry = some value → P value) :
    Holds P (Function.update f key entry) := by
  intro other value hvalue
  by_cases hsame : other = key
  · rw [hsame, Function.update_self] at hvalue
    exact hentry value hvalue
  · rw [Function.update_of_ne hsame] at hvalue
    exact h other value hvalue

theorem Holds.imp {κ ν : Type} {P Q : ν → Prop} {f : κ → Option ν} (h : Holds P f)
    (hPQ : ∀ value, P value → Q value) : Holds Q f :=
  fun key value hvalue => hPQ value (h key value hvalue)

structure ProjectionsSound (state : ProjectionSystem) : Prop where
  stored : Holds (TypeProjection.Sound · state.ledger.file.lines) state.stored
  temporary : Holds (TypeProjection.Sound · state.ledger.file.lines) state.temporary
  rebuilds : Holds (Rebuild.Sound state.ledger.file.lines) state.rebuilds
  reading : Holds (TypeProjection.Sound · state.ledger.file.lines) state.reading

section

variable {hash : UnsignedProjection → String} {env : LedgerEnv} {state next : ProjectionSystem}
  {action : ProjectionAction env.value}

theorem projectionsSound_start (ledger : LedgerSystem) :
    ProjectionsSound (ProjectionSystem.start ledger) :=
  ⟨holds_none, holds_none, holds_none, holds_none⟩

theorem ProjectionsSound.setRebuild (h : ProjectionsSound state) {process : Nat}
    {rebuild : Option Rebuild}
    (hrebuild : ∀ value, rebuild = some value → value.Sound state.ledger.file.lines) :
    ProjectionsSound (state.setRebuild process rebuild) :=
  ⟨h.stored, h.temporary, h.rebuilds.update hrebuild, h.reading⟩

theorem ProjectionsSound.step (h : ProjectionsSound state)
    (hstep : state.step hash env action = some next) : ProjectionsSound next := by
  have hnone : ∀ value, (none : Option Rebuild) = some value →
      value.Sound state.ledger.file.lines := fun _ hvalue => absurd hvalue (by simp)
  cases action with
  | ledger action =>
    obtain ⟨ledger, hledger, rfl⟩ := Option.map_eq_some_iff.mp hstep
    have hbegins := step_lines hledger
    exact ⟨h.stored.imp fun _ hsound => hsound.append hbegins,
      h.temporary.imp fun _ hsound => hsound.append hbegins,
      h.rebuilds.imp fun _ hsound => hsound.append hbegins,
      h.reading.imp fun _ hsound => hsound.append hbegins⟩
  | readHead process projectionId =>
    obtain ⟨-, hstep⟩ := Option.ite_none_right_eq_some.mp hstep
    cases hstep
    unfold ProjectionSystem.readHead
    split
    · split
      next watermark hhead =>
        refine h.setRebuild fun value hvalue => ?_
        cases hvalue
        obtain ⟨_, _, -, -, -, hsequence⟩ := head_ok hhead
        exact hsequence.le
      · exact h
    · exact h
  | readCommitted process =>
    simp only [ProjectionSystem.step] at hstep
    split at hstep
    next projectionId watermark hrebuild =>
      cases hstep
      unfold ProjectionSystem.readCommitted
      split
      next rows hread =>
        refine h.setRebuild fun value hvalue => ?_
        obtain ⟨counts, hcounts, rfl⟩ := Option.map_eq_some_iff.mp hvalue
        exact sound_of_counted (h.rebuilds _ _ hrebuild) hread hcounts
      · exact h.setRebuild hnone
    · cases hstep
  | writeTemporary process =>
    simp only [ProjectionSystem.step] at hstep
    split at hstep
    next payload hrebuild =>
      cases hstep
      have hpayload : payload.Sound state.ledger.file.lines := h.rebuilds _ _ hrebuild
      have hset : ProjectionsSound (state.setRebuild process (some (.written payload))) :=
        h.setRebuild fun value hvalue => some.inj hvalue ▸ hpayload
      exact ⟨hset.stored, h.temporary.update fun value hvalue => some.inj hvalue ▸ hpayload,
        hset.rebuilds, hset.reading⟩
    · cases hstep
  | replace process =>
    simp only [ProjectionSystem.step] at hstep
    split at hstep
    next payload hrebuild =>
      cases hstep
      have hset : ProjectionsSound (state.setRebuild process none) := h.setRebuild hnone
      unfold ProjectionSystem.replace
      split
      · exact hset
      next written htemporary =>
        have hwritten := h.temporary _ _ htemporary
        exact ⟨h.stored.update fun value hvalue => some.inj hvalue ▸ hwritten,
          h.temporary.update fun _ hvalue => absurd hvalue (by simp), hset.rebuilds, hset.reading⟩
    · cases hstep
  | readPayload process projectionId =>
    cases hstep
    exact ⟨h.stored, h.temporary, h.rebuilds, h.reading.update fun value => h.stored _ value⟩

/-- Whatever a reader returns counts the committed rows of the stream it was checked against,
however rebuilds, appends and decisions are interleaved. -/
theorem fresh_projection_counts_committed {ledger : LedgerSystem}
    {labels : List (ProjectionAction env.value)}
    (hrun : Run (fun state action => ProjectionSystem.step hash env state action) (fun _ _ => True)
      (.start ledger) labels state) :
    ∀ process payload returned, state.reading process = some payload →
      checkFresh hash env state.ledger.file payload = .ok returned →
      ∃ rows, read env state.ledger.file "committed" = .ok rows ∧
        typeCounts rows = some returned.committedTypeCounts := by
  intro process payload returned hreading hfresh
  have hsound : ProjectionsSound state := hrun.invariant (I := ProjectionsSound)
    (projectionsSound_start ledger) fun _ _ _ h _ hstep => h.step hstep
  exact (hsound.reading process payload hreading).fresh hfresh

end

section

/-- `{"type": "note"}`. -/
def noteRecord : PyObject textEnv.value := ⟨.dict [(.str "type", .str "note")], by decide⟩

def textHash (unsigned : UnsignedProjection) : String :=
  unsigned.projectionId ++ unsigned.watermark.recordHash.getD "" ++
    toString unsigned.watermark.sequence ++
    String.join (unsigned.committedTypeCounts.map fun entry => entry.1 ++ toString entry.2)

/-- A note is proposed; one rebuild reads the head, the note is accepted, and the rebuild goes on
while a second one overtakes it. -/
def racingRebuilds : List (ProjectionAction textEnv.value) :=
  [.ledger (.call 0 (.beginProposal "p" pendingCase noEvidence)),
    .ledger (.append 0 ⟨"r1", "t1"⟩ 303 true),
    .ledger (.call 0 (.appendProposed "p" [noteRecord])),
    .ledger (.append 0 ⟨"r2", "t2"⟩ 294 true), .readHead 1 "types",
    .ledger (.call 0 (.decide "p" "accepted" pendingCase noEvidence)),
    .ledger (.append 0 ⟨"r3", "t3"⟩ 328 true), .readCommitted 1, .readHead 2 "types",
    .readCommitted 2, .writeTemporary 1, .writeTemporary 2, .replace 1, .replace 2,
    .readPayload 3 "types"]

def raceEnd : ProjectionSystem :=
  (racingRebuilds.foldlM (fun (state : ProjectionSystem) action => state.step textHash textEnv action)
    (.start .initial)).getD (.start .initial)

def racedPayload : TypeProjection :=
  (raceEnd.reading 3).getD (projectionOf textHash "" ⟨0, none⟩ [])

theorem fresh_projection_counts_committed_race :
    racedPayload.committedTypeCounts = [("note", 1)] ∧
    ∃ rows, read textEnv raceEnd.ledger.file "committed" = .ok rows ∧
      typeCounts rows = some racedPayload.committedTypeCounts := by
  have hrun : Run (fun state action => ProjectionSystem.step textHash textEnv state action)
      (fun _ _ => True) (.start .initial) racingRebuilds raceEnd :=
    Run.of_isSome (by decide +kernel)
  have hread : (raceEnd.reading 3).isSome = true := by
    decide +kernel
  have hreading : raceEnd.reading 3 = some racedPayload := by
    obtain ⟨payload, hpayload⟩ := Option.isSome_iff_exists.mp hread
    rw [racedPayload, hpayload, Option.getD_some]
  have hfresh : checkFresh textHash textEnv raceEnd.ledger.file racedPayload = .ok racedPayload := by
    decide +kernel
  exact ⟨by decide +kernel,
    fresh_projection_counts_committed hrun 3 racedPayload racedPayload hreading hfresh⟩

end

end Flowness.PublicLedger
