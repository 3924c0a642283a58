import Flowness.OssHarness.AttemptRuns
import Flowness.OssHarness.BlockerLineage

/-!
The two directories of the control ledger, and deaths inside `atomic_create_json`. The chains of a
directory without temporary files are readable and a clean step keeps them so; one temporary file
left behind makes every later call raise.
-/

namespace Flowness.OssHarness

open List Library
open Option hiding sequence

/-- A directory member: a chain entry's `{sequence:012d}-{id}.json`, or a temporary file's name,
which starts with a dot. -/
inductive FileName where
  | chained (sequence : Nat) (id : String)
  | temporary (rest : String)
deriving DecidableEq, Repr

def FileName.le : FileName → FileName → Bool
  | .temporary a, .temporary b => decide (a ≤ b)
  | .temporary _, .chained .. => true
  | .chained .., .temporary _ => false
  | .chained m a, .chained n b => decide (m < n) || decide (m = n ∧ a ≤ b)

structure DirFile (α : Type) where
  name : FileName
  content : Option α
deriving DecidableEq, Repr

structure ControlDirectory where
  admissions : List (DirFile Entry)
  attempts : List (DirFile AttemptEvent)
deriving DecidableEq, Repr

/-- `work-admission-ledger-entry.schema.json`. -/
def EntryBody.schema (body : EntryBody) : Bool :=
  body.programId == "flowness-oss-v2" && decide (1 ≤ body.sequence) && nonEmpty body.taskId &&
    nonEmpty body.controllerVersion && nonEmpty body.waveId && nonEmpty body.lane &&
    nonEmpty body.roleId && decide (body.budgetReservation.units = 1) &&
    nonEmpty body.budgetReservation.chargedWaveId && body.changeIntent.schema &&
    body.blocker.all (fun blocker => blocker.components.values.all nonEmpty)

def sortedFiles {α : Type} (files : List (DirFile α)) : List (DirFile α) :=
  files.insertionSort (fun a b => a.name.le b.name = true)

def readEntry (hashes : ControlHashes) (entries : List Entry) (file : DirFile Entry) :
    Except LedgerError (List Entry) :=
  match file.name, file.content with
  | .chained sequence id, some entry => do
    require entry.schema .cardSchema
    require entry.card.schema .cardSchema
    require (entry.cardHash == hashes.card entry.card) .budgetLedgerCorrupt
    require (decide (entry.sequence = entries.length + 1)) .budgetLedgerCorrupt
    require (decide (sequence = entry.sequence)) .budgetLedgerCorrupt
    require (id == entry.admissionId) .budgetLedgerCorrupt
    require (entry.entryHash == hashes.entry entry.toEntryBody) .budgetLedgerCorrupt
    require (decide (entry.previousEntryHash = entries.getLast?.map Entry.entryHash))
      .budgetLedgerCorrupt
    return entries ++ [entry]
  | _, _ => .error .budgetLedgerCorrupt

def readEntries (hashes : ControlHashes) (directory : ControlDirectory) :
    Except LedgerError (List Entry) :=
  (sortedFiles directory.admissions).foldlM (readEntry hashes) []

/-- `admissions.get(admission_id)` of the entries by their ids. -/
def admissionOf (entries : List Entry) (id : String) : Option Entry :=
  (entries.foldl (fun admissions entry => Dict.set admissions entry.admissionId entry) []).get id

def readAttempt (hashes : ControlHashes) (entries : List Entry) (events : List AttemptEvent)
    (file : DirFile AttemptEvent) : Except LedgerError (List AttemptEvent) :=
  match file.name, file.content with
  | .chained sequence id, some event => do
    require event.schema .attemptSchema
    require (decide (event.sequence = events.length + 1) && decide (sequence = event.sequence))
      .attemptLedgerCorrupt
    require (id == event.eventId) .attemptLedgerCorrupt
    require (event.eventHash == hashes.event event.toAttemptBody) .attemptLedgerCorrupt
    require (decide (event.previousEventHash = events.getLast?.map AttemptEvent.eventHash))
      .attemptLedgerCorrupt
    let admission := admissionOf entries event.admissionId
    require (decide (admission.map Entry.entryHash = some event.admissionEntryHash))
      .attemptLedgerCorrupt
    require (decide (admission.map (fun entry => entry.policyHash) = some event.policyHash))
      .attemptLedgerCorrupt
    return events ++ [event]
  | _, _ => .error .attemptLedgerCorrupt

def readAttempts (hashes : ControlHashes) (directory : ControlDirectory) (entries : List Entry) :
    Except LedgerError (List AttemptEvent) :=
  (sortedFiles directory.attempts).foldlM (readAttempt hashes entries) []

def readControl (hashes : ControlHashes) (directory : ControlDirectory) :
    Except LedgerError ControlState := do
  let entries ← readEntries hashes directory
  let events ← readAttempts hashes directory entries
  return ⟨entries, events⟩

def entryFile (entry : Entry) : DirFile Entry :=
  ⟨.chained entry.sequence entry.admissionId, some entry⟩

def eventFile (event : AttemptEvent) : DirFile AttemptEvent :=
  ⟨.chained event.sequence event.eventId, some event⟩

def ControlDirectory.create (directory : ControlDirectory) : Written → ControlDirectory
  | .entry added => { directory with admissions := directory.admissions ++ [entryFile added] }
  | .event added => { directory with attempts := directory.attempts ++ [eventFile added] }
  | .nothing => directory

/-- The temporary file next to the target, under the name that `mkstemp` drew. -/
def ControlDirectory.addTemporary (directory : ControlDirectory) (rest : String) :
    Written → ControlDirectory
  | .entry _ => { directory with admissions := directory.admissions ++ [⟨.temporary rest, none⟩] }
  | .event _ => { directory with attempts := directory.attempts ++ [⟨.temporary rest, none⟩] }
  | .nothing => directory

/-- How far the process got: before `mkstemp`, before `os.link`, before `os.unlink`, or past it. -/
inductive DeathPoint where
  | untouched
  | temporaryCreated
  | linked
  | unlinked
deriving DecidableEq, Repr

/-- The temporary file outlives a process that dies between `mkstemp` and `os.unlink`. -/
def DeathPoint.leavesTemporary : DeathPoint → Bool
  | .temporaryCreated | .linked => true
  | _ => false

def ControlDirectory.afterDeath (directory : ControlDirectory) (written : Written) (rest : String) :
    DeathPoint → ControlDirectory
  | .untouched => directory
  | .temporaryCreated => directory.addTemporary rest written
  | .linked => (directory.addTemporary rest written).create written
  | .unlinked => directory.create written

/-- A call decides over what it reads; `admit_work` reads the admissions only. -/
def decideIn (hashes : ControlHashes) (directory : ControlDirectory) (call : ControlCall) :
    Except LedgerError Written :=
  match call with
  | .admitWork .. => do
    let entries ← readEntries hashes directory
    decideCall hashes ⟨entries, []⟩ call
  | _ => do
    let state ← readControl hashes directory
    decideCall hashes state call

inductive LedgerStep where
  | completes (call : ControlCall)
  | dies (call : ControlCall) (point : DeathPoint) (rest : String)
deriving DecidableEq, Repr

def LedgerStep.call : LedgerStep → ControlCall
  | .completes call => call
  | .dies call _ _ => call

/-- A call under the ledger lock, or one whose process dies; only a call that creates a file can
die with its temporary file in place. -/
def fileStep (hashes : ControlHashes) (directory : ControlDirectory) :
    LedgerStep → Option ControlDirectory
  | .completes call =>
    match decideIn hashes directory call with
    | .ok written => some (directory.create written)
    | .error _ => some directory
  | .dies call point rest =>
    match decideIn hashes directory call with
    | .ok .nothing | .error _ => if point.leavesTemporary then none else some directory
    | .ok written => some (directory.afterDeath written rest point)

/-- The call does not die between `mkstemp` and `os.unlink`. -/
def LedgerStep.clean : LedgerStep → Bool
  | .completes _ => true
  | .dies _ point _ => !point.leavesTemporary

def CollisionFreeIn (hashes : ControlHashes) (directory : ControlDirectory) (step : LedgerStep) :
    Prop :=
  ∀ entries, readEntries hashes directory = .ok entries →
    CollisionFree hashes ⟨entries, []⟩ step.call

def complete {α : Type} (files : List (DirFile α)) : List (DirFile α) :=
  files.filter (fun file => file.content.isSome)

def filesOf (state : ControlState) : ControlDirectory :=
  ⟨state.entries.map entryFile, state.events.map eventFile⟩

structure DirectorySound (hashes : ControlHashes) (state : ControlState) : Prop where
  control : ControlSound hashes state
  entriesNumbered : state.entries.map (fun entry => entry.sequence) =
    List.range' 1 state.entries.length
  eventsNumbered : state.events.map (fun event => event.sequence) = List.range' 1 state.events.length
  entriesRead : (state.entries.map entryFile).foldlM (readEntry hashes) [] = .ok state.entries
  eventsRead : (state.events.map eventFile).foldlM (readAttempt hashes state.entries) [] =
    .ok state.events

def Littered (directory : ControlDirectory) : Prop :=
  (∃ file ∈ directory.admissions, ∃ rest, file.name = .temporary rest) ∨
    ∃ file ∈ directory.attempts, ∃ rest, file.name = .temporary rest

section

variable {hashes : ControlHashes} {directory next : ControlDirectory} {state : ControlState}
  {call : ControlCall} {written : Written}

theorem foldlM_ne_ok {α β ε : Type} {f : β → α → Except ε β} {items : List α} {item : α}
    (hmem : item ∈ items) (hraises : ∀ acc result, f acc item ≠ .ok result) (acc result : β) :
    items.foldlM f acc ≠ .ok result := by
  induction items generalizing acc with
  | nil => exact absurd hmem not_mem_nil
  | cons head items ih =>
    intro h
    rw [foldlM_cons, bind_ok] at h
    obtain ⟨middle, hmiddle, h⟩ := h
    obtain rfl | hmem := mem_cons.mp hmem
    · exact hraises acc middle hmiddle
    · exact ih hmem middle h

theorem Littered.not_read (h : Littered directory) (state : ControlState) :
    readControl hashes directory ≠ .ok state := by
  intro hread
  simp only [readControl, bind_ok] at hread
  obtain ⟨entries, hentries, events, hevents, -⟩ := hread
  obtain ⟨file, hmem, rest, hname⟩ | ⟨file, hmem, rest, hname⟩ := h
  · refine foldlM_ne_ok ((mem_insertionSort _).mpr hmem) (fun acc result h => ?_) _ _ hentries
    simp only [readEntry, hname] at h
    cases h
  · refine foldlM_ne_ok ((mem_insertionSort _).mpr hmem) (fun acc result h => ?_) _ _ hevents
    simp only [readAttempt, hname] at h
    cases h

theorem sortedFiles_numbered {α β : Type} {items : List β} {file : β → DirFile α} {number : β → Nat}
    {id : β → String} (hname : ∀ item, (file item).name = .chained (number item) (id item))
    (hnumbered : items.map number = List.range' 1 items.length) :
    sortedFiles (items.map file) = items.map file := by
  have hascending : (items.map number).Pairwise (· < ·) := by
    rw [hnumbered]
    exact pairwise_lt_range'
  apply List.Pairwise.insertionSort_eq
  rw [pairwise_map] at hascending ⊢
  refine hascending.imp (fun {a b} hlt => ?_)
  simp [hname, FileName.le, hlt]

section

variable (h : DirectorySound hashes state)
include h

theorem DirectorySound.readEntries : readEntries hashes (filesOf state) = .ok state.entries := by
  have hsorted : sortedFiles (state.entries.map entryFile) = state.entries.map entryFile :=
    sortedFiles_numbered (fun _ => rfl) h.entriesNumbered
  simp only [OssHarness.readEntries, filesOf, hsorted]
  exact h.entriesRead

theorem DirectorySound.readControl : readControl hashes (filesOf state) = .ok state := by
  have hsorted : sortedFiles (state.events.map eventFile) = state.events.map eventFile :=
    sortedFiles_numbered (fun _ => rfl) h.eventsNumbered
  have hevents : readAttempts hashes (filesOf state) state.entries = .ok state.events := by
    simp only [readAttempts, filesOf, hsorted]
    exact h.eventsRead
  simp only [OssHarness.readControl, bind_ok]
  exact ⟨state.entries, h.readEntries, state.events, hevents, rfl⟩

theorem DirectorySound.decideIn (call : ControlCall) :
    decideIn hashes (filesOf state) call = decideCall hashes state call := by
  cases call with
  | admitWork authority now card =>
    simp only [OssHarness.decideIn, h.readEntries, bind, Except.bind]
    cases authority <;> rfl
  | _ =>
    simp only [OssHarness.decideIn, h.readControl, bind, Except.bind]

end

theorem budgetWaveId_nonEmpty (hwave : nonEmpty waveId = true)
    (hsupported : budget.supportedWaveId.all nonEmpty = true)
    (h : budgetWaveId waveId budget = .ok wave) : nonEmpty wave = true := by
  unfold budgetWaveId at h
  split at h
  · cases h
    decide
  · split at h
    · split at h
      · cases h
      next supported hsome =>
        split at h
        · cases h
        · cases h
          simpa [hsome] using hsupported
    · cases h
      exact hwave

theorem Reservation.readable {authority : Authority} {now : String} {card : Card}
    {entries : List Entry} {folded : FoldState} {blocker : Option EntryBlocker} {wave : String}
    (h : Reservation hashes.toAdmissionHashes authority card entries folded blocker wave) :
    readEntry hashes entries
        (entryFile (newEntry hashes.toAdmissionHashes authority now card entries blocker wave)) =
      .ok (entries ++ [newEntry hashes.toAdmissionHashes authority now card entries blocker wave]) := by
  have hvalid := h.valid
  simp only [validateCard, bind_ok, require_ok, exists_const] at hvalid
  have hcard := hvalid.1
  have hschema := hcard
  simp only [Card.schema, Bool.and_eq_true] at hschema
  simp only [and_assoc] at hschema
  obtain ⟨htask, hwave, hlane, hrole, -, -, -, -, -, -, hsupported, hintent, -, -, -, -, -, -, -, -,
    hblocker, -⟩ := hschema
  have hcharged : nonEmpty wave = true := by
    have hbudgeted := h.budgeted
    simp only [validateBudget, bind_ok] at hbudgeted
    obtain ⟨charged, hname, -, -, hbudgeted⟩ := hbudgeted
    split at hbudgeted
    · simp only [bind_ok] at hbudgeted
      obtain ⟨-, -, -, -, hbudgeted⟩ := hbudgeted
      cases hbudgeted
      exact budgetWaveId_nonEmpty hwave hsupported hname
    · cases hbudgeted
  have hcomponents : blocker.all (fun blocker => blocker.components.values.all nonEmpty) = true := by
    cases hcarried : card.blocker with
    | none => simp [resolveBlocker_none hcarried h.resolved]
    | some carried =>
      obtain ⟨counted, rfl, hsame, -⟩ := resolveBlocker_ok hcarried h.resolved
      rw [hcarried] at hblocker
      simp only [all_some, CardBlocker.schema, Bool.and_eq_true] at hblocker
      simpa [hsame] using hblocker.1.1.1.1
  have hentry : (newEntry hashes.toAdmissionHashes authority now card entries blocker wave).schema =
      true := by
    simp only [EntryBody.schema, newEntry, sealEntry, authority.policy.program, htask, hwave, hlane,
      hrole, hcharged, hintent, hcomponents]
    simp [show nonEmpty controllerVersion = true from by decide]
  simp only [readEntry, entryFile, bind_ok, require_ok, exists_const]
  refine ⟨hentry, hcard, ?_⟩
  simp [newEntry, sealEntry]
  rfl

theorem admissionOf_append (entries : List Entry) (entry : Entry) (id : String) :
    admissionOf (entries ++ [entry]) id =
      if id = entry.admissionId then some entry else admissionOf entries id := by
  unfold admissionOf
  rw [foldl_append]
  by_cases hid : id = entry.admissionId
  · subst hid
    simp
  · rw [if_neg hid]
    exact Dict.get_set_of_ne _ _ hid

theorem admissionOf_of_mem (hdistinct : (entries.map (fun entry => entry.admissionId)).Nodup)
    (hmem : entry ∈ entries) : admissionOf entries entry.admissionId = some entry := by
  induction entries using List.reverseRecOn with
  | nil => exact absurd hmem not_mem_nil
  | append_singleton entries last ih =>
    rw [map_append] at hdistinct
    obtain ⟨hbefore, -, hdisjoint⟩ := nodup_append.mp hdistinct
    rw [admissionOf_append]
    obtain hin | hin := mem_append.mp hmem
    · have hne : entry.admissionId ≠ last.admissionId :=
        hdisjoint _ (mem_map.mpr ⟨entry, hin, rfl⟩) _ mem_cons_self
      rw [if_neg hne]
      exact ih hbefore hin
    · rw [mem_singleton.mp hin, if_pos rfl]

theorem Appended.readable {now : String} {event : AttemptEvent} (hsound : ControlSound hashes state)
    (h : Appended hashes now state event) :
    readAttempt hashes state.entries state.events (eventFile event) = .ok (state.events ++ [event]) := by
  obtain ⟨admission, eventType, binding, payload, hfind, hshape⟩ := h.bound
  have hmem := mem_of_find?_eq_some hfind
  have hadmission : admissionOf state.entries event.admissionId = some admission := by
    have hid : event.admissionId = admission.admissionId := by
      rw [hshape]
      rfl
    rw [hid]
    exact admissionOf_of_mem hsound.distinct hmem
  simp only [readAttempt, eventFile, bind_ok, require_ok, exists_const, hadmission]
  refine ⟨h.schema, ?_⟩
  rw [hshape]
  simp [newEvent]
  rfl

theorem readAttempts_congr {entries other : List Entry} {events : List AttemptEvent}
    (h : ∀ event ∈ events, admissionOf other event.admissionId = admissionOf entries event.admissionId)
    (acc : List AttemptEvent) :
    (events.map eventFile).foldlM (readAttempt hashes other) acc =
      (events.map eventFile).foldlM (readAttempt hashes entries) acc := by
  induction events generalizing acc with
  | nil => rfl
  | cons event events ih =>
    have hhead : readAttempt hashes other acc (eventFile event) =
        readAttempt hashes entries acc (eventFile event) := by
      simp only [readAttempt, eventFile, h event mem_cons_self]
    rw [map_cons, foldlM_cons, hhead]
    congr 1
    funext middle
    exact ih (fun other hmem => h other (mem_cons_of_mem _ hmem)) middle

theorem numbered_snoc {α : Type} {items : List α} {number : α → Nat} {item : α}
    (h : items.map number = List.range' 1 items.length) (hitem : number item = items.length + 1) :
    (items ++ [item]).map number = List.range' 1 (items ++ [item]).length := by
  rw [map_append, h, map_singleton, hitem, length_append, length_singleton,
    List.range'_1_concat, Nat.add_comm 1]

theorem DirectorySound.apply (h : DirectorySound hashes state)
    (hfree : CollisionFree hashes state call) (hwritten : decideCall hashes state call = .ok written) :
    DirectorySound hashes (written.apply state) := by
  have hcontrol : ControlSound hashes (written.apply state) :=
    h.control.step hfree (by simp [controlStep, hwritten])
  obtain ⟨authority, now, card, entry, rfl, hreserved, rfl⟩ | ⟨now, event, hevent, rfl⟩ | rfl :=
    decideCall_ok hwritten
  · obtain ⟨folded, blocker, wave, hreservation, hentry⟩ := admitWork_reserved hreserved
    obtain ⟨states, hstates⟩ := h.control.replays
    refine ⟨hcontrol, ?_, h.eventsNumbered, ?_, ?_⟩
    · exact numbered_snoc h.entriesNumbered (by rw [hentry]; rfl)
    · show ((state.entries ++ [entry]).map entryFile).foldlM _ _ = _
      rw [map_append]
      refine (foldlM_snoc h.entriesRead).trans ?_
      rw [hentry]
      exact hreservation.readable
    · refine (readAttempts_congr (fun event hevent => ?_) []).trans h.eventsRead
      -- the new admission has no events yet
      obtain ⟨first, hfirst⟩ := isSome_iff_exists.mp (replay_known hstates event hevent)
      obtain ⟨-, hmem, hid⟩ := get_initialStates hfirst
      have hdistinct := hcontrol.distinct
      simp only [Written.apply, map_append, map_singleton] at hdistinct
      obtain ⟨-, -, hdisjoint⟩ := nodup_append.mp hdistinct
      have hne : event.admissionId ≠ entry.admissionId := by
        rw [← hid]
        exact hdisjoint _ (mem_map.mpr ⟨first.entry, hmem, rfl⟩) _ mem_cons_self
      show admissionOf (state.entries ++ [entry]) event.admissionId = _
      rw [admissionOf_append, if_neg hne]
  · obtain ⟨admission, eventType, binding, payload, -, hshape⟩ := hevent.bound
    refine ⟨hcontrol, h.entriesNumbered, ?_, h.entriesRead, ?_⟩
    · exact numbered_snoc h.eventsNumbered (by rw [hshape]; rfl)
    · show ((state.events ++ [event]).map eventFile).foldlM _ _ = _
      rw [map_append]
      exact (foldlM_snoc h.eventsRead).trans (hevent.readable h.control)
  · exact h

theorem create_filesOf (state : ControlState) (written : Written) :
    (filesOf state).create written = filesOf (written.apply state) := by
  cases written <;> simp [ControlDirectory.create, filesOf, Written.apply]

theorem fileStep_clean (hclean : step.clean = true) (h : fileStep hashes directory step =
  some next) : next = directory ∨
      ∃ written, decideIn hashes directory step.call = .ok written ∧ next = directory.create written := by
  cases step with
  | completes call =>
    simp only [fileStep] at h
    split at h
    next written hwritten =>
      exact .inr ⟨written, hwritten, (some.inj h).symm⟩
    · exact .inl (some.inj h).symm
  | dies call point rest =>
    have hpoint : point.leavesTemporary = false := by simpa [LedgerStep.clean] using hclean
    simp only [fileStep, hpoint] at h
    split at h
    · exact .inl (some.inj h).symm
    · exact .inl (some.inj h).symm
    next written _ hwritten =>
      cases point with
      | untouched => exact .inl (some.inj h).symm
      | unlinked => exact .inr ⟨written, hwritten, (some.inj h).symm⟩
      | temporaryCreated => cases hpoint
      | linked => cases hpoint

theorem fileStep_littered (hclean : step.clean = false)
    (h : fileStep hashes directory step = some next) : Littered next := by
  cases step with
  | completes call => cases hclean
  | dies call point rest =>
    have hpoint : point.leavesTemporary = true := by simpa [LedgerStep.clean] using hclean
    simp only [fileStep, hpoint, if_pos] at h
    split at h
    · cases h
    · cases h
    next written hnothing _ =>
      cases h
      cases written with
      | nothing => exact absurd rfl (hnothing ·)
      | entry entry =>
        left
        refine ⟨⟨.temporary rest, none⟩, ?_, rest, rfl⟩
        cases point <;> simp [DeathPoint.leavesTemporary] at hpoint <;>
          simp [ControlDirectory.afterDeath, ControlDirectory.addTemporary, ControlDirectory.create]
      | event event =>
        right
        refine ⟨⟨.temporary rest, none⟩, ?_, rest, rfl⟩
        cases point <;> simp [DeathPoint.leavesTemporary] at hpoint <;>
          simp [ControlDirectory.afterDeath, ControlDirectory.addTemporary, ControlDirectory.create]

theorem create_grows (directory : ControlDirectory) (written : Written) :
    (∀ file ∈ directory.admissions, file ∈ (directory.create written).admissions) ∧
      ∀ file ∈ directory.attempts, file ∈ (directory.create written).attempts := by
  cases written <;> simp +contextual [ControlDirectory.create]

theorem Littered.step {step : LedgerStep} (h : Littered directory)
    (hstep : fileStep hashes directory step = some next) : Littered next := by
  cases hclean : step.clean with
  | false => exact fileStep_littered hclean hstep
  | true =>
    obtain rfl | ⟨written, -, rfl⟩ := fileStep_clean hclean hstep
    · exact h
    · obtain ⟨hadmissions, hattempts⟩ := create_grows directory written
      obtain ⟨file, hmem, hname⟩ | ⟨file, hmem, hname⟩ := h
      · exact .inl ⟨file, hadmissions file hmem, hname⟩
      · exact .inr ⟨file, hattempts file hmem, hname⟩

def SameChains (left right : ControlDirectory) : Prop :=
  complete left.admissions = complete right.admissions ∧
    complete left.attempts = complete right.attempts

theorem death_atomic (h : fileStep hashes directory (.dies call point rest) = some next) :
    SameChains next directory ∨
      ∃ done, fileStep hashes directory (.completes call) = some done ∧ SameChains next done := by
  simp only [fileStep] at h
  split at h
  · split at h
    · cases h
    · cases h
      exact .inl ⟨rfl, rfl⟩
  · split at h
    · cases h
    · cases h
      exact .inl ⟨rfl, rfl⟩
  next written _ hwritten =>
    cases h
    cases point with
    | untouched => exact .inl ⟨rfl, rfl⟩
    | temporaryCreated =>
      left
      cases written <;>
        simp [SameChains, complete, ControlDirectory.afterDeath, ControlDirectory.addTemporary]
    | linked =>
      refine .inr ⟨directory.create written, by simp [fileStep, hwritten], ?_⟩
      cases written <;> simp [SameChains, complete, ControlDirectory.afterDeath,
        ControlDirectory.addTemporary, ControlDirectory.create]
    | unlinked => exact .inr ⟨directory.create written, by simp [fileStep, hwritten], rfl, rfl⟩

theorem collisionFree_of_read (h : DirectorySound hashes state)
    (hfree : CollisionFreeIn hashes (filesOf state) step) :
    CollisionFree hashes state step.call := by
  have hfree := hfree state.entries h.readEntries
  cases hcall : step.call with
  | admitWork authority now card =>
    cases authority with
    | none => trivial
    | some authority =>
      rw [hcall] at hfree
      exact hfree
  | _ => trivial

/-- Both chains are readable exactly after the runs in which no process died between the creation
of its temporary file and the removal; a call that dies has taken effect completely or not at all. -/
theorem ledger_readable_iff {steps : List LedgerStep}
    (h : Run (fileStep hashes) (CollisionFreeIn hashes) ⟨[], []⟩ steps directory) :
    ((∃ state, readControl hashes directory = .ok state) ↔ steps.all LedgerStep.clean = true) ∧
      ∀ call point rest next, fileStep hashes directory (.dies call point rest) = some next →
        SameChains next directory ∨
          ∃ done, fileStep hashes directory (.completes call) = some done ∧ SameChains next done := by
  have hrun : (steps.all LedgerStep.clean = true →
      ∃ state, directory = filesOf state ∧ DirectorySound hashes state) ∧
      (steps.all LedgerStep.clean = false → Littered directory) := by
    induction h with
    | nil =>
      refine ⟨fun _ => ⟨⟨[], []⟩, rfl, controlSound_empty, rfl, rfl, rfl, rfl⟩, fun hclean => ?_⟩
      cases hclean
    | @snoc steps before next step _ hfree hstep ih =>
      have hall : (steps ++ [step]).all LedgerStep.clean = (steps.all LedgerStep.clean && step.clean) := by
        simp
      rw [hall]
      constructor
      · intro hclean
        obtain ⟨hsteps, hclean⟩ := Bool.and_eq_true_iff.mp hclean
        obtain ⟨state, rfl, hsound⟩ := ih.1 hsteps
        obtain rfl | ⟨written, hwritten, rfl⟩ := fileStep_clean hclean hstep
        · exact ⟨state, rfl, hsound⟩
        · rw [hsound.decideIn] at hwritten
          exact ⟨written.apply state, create_filesOf state written,
            hsound.apply (collisionFree_of_read hsound hfree) hwritten⟩
      · intro hlittered
        cases hsteps : steps.all LedgerStep.clean with
        | false => exact (ih.2 hsteps).step hstep
        | true =>
          rw [hsteps, Bool.true_and] at hlittered
          exact fileStep_littered hlittered hstep
  refine ⟨⟨fun ⟨state, hread⟩ => ?_, fun hclean => ?_⟩, fun call point rest next => death_atomic⟩
  · by_contra hclean
    exact (hrun.2 (Bool.eq_false_iff.mpr hclean)).not_read state hread
  · obtain ⟨state, rfl, hsound⟩ := hrun.1 hclean
    exact ⟨state, hsound.readControl⟩

end

def collisionFreeIn (hashes : ControlHashes) (directory : ControlDirectory) (step : LedgerStep) :
    Bool :=
  (readEntries hashes directory).toOption.all fun entries =>
    decide (CollisionFree hashes ⟨entries, []⟩ step.call)

theorem collisionFreeIn_sound (hashes : ControlHashes) (directory : ControlDirectory)
    (step : LedgerStep) (h : collisionFreeIn hashes directory step = true) :
    CollisionFreeIn hashes directory step := by
  intro entries hread
  simpa [collisionFreeIn, hread, Except.toOption] using h

def admissionCall (taskId : String) : ControlCall :=
  .admitWork (some sampleAuthority) "t0" (judgeCard taskId "truth")

def cleanDeaths : List LedgerStep :=
  [.dies (admissionCall "first") .untouched "a.tmp", .completes (admissionCall "first"),
    .dies (admissionCall "second") .unlinked "b.tmp"]

def directoryAfter (steps : List LedgerStep) : ControlDirectory :=
  (steps.foldlM (fileStep sampleControlHashes) ⟨[], []⟩).getD ⟨[], []⟩

theorem cleanDeaths_readable :
    ((∃ state, readControl sampleControlHashes (directoryAfter cleanDeaths) = .ok state) ↔
        cleanDeaths.all LedgerStep.clean = true) ∧
      ∀ call point rest next,
        fileStep sampleControlHashes (directoryAfter cleanDeaths) (.dies call point rest) = some next →
        SameChains next (directoryAfter cleanDeaths) ∨
          ∃ done, fileStep sampleControlHashes (directoryAfter cleanDeaths) (.completes call) =
            some done ∧ SameChains next done := by
  have hrun : Run (fileStep sampleControlHashes) (CollisionFreeIn sampleControlHashes) ⟨[], []⟩
      cleanDeaths (directoryAfter cleanDeaths) :=
    Run.of_checked (collisionFreeIn_sound sampleControlHashes) (by decide +kernel)
  exact ledger_readable_iff hrun

/-- Of a process that dies right after `mkstemp` the directory keeps a file that no call reads
past. -/
theorem temporary_left_unreadable :
    let step : LedgerStep := .dies (admissionCall "first") .temporaryCreated "a.tmp"
    Run (fileStep sampleControlHashes) (CollisionFreeIn sampleControlHashes) ⟨[], []⟩ [step]
        (directoryAfter [step]) ∧
      (readControl sampleControlHashes (directoryAfter [step])).toOption.isNone = true ∧
      (decideIn sampleControlHashes (directoryAfter [step]) (admissionCall "first")).toOption.isNone =
        true := by
  have hchecked := collisionFreeIn_sound sampleControlHashes
  exact ⟨Run.of_checked hchecked (by decide +kernel), by decide +kernel, by decide +kernel⟩

end Flowness.OssHarness
