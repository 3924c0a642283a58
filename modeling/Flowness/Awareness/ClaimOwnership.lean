import Flowness.Awareness.ClaimFiles

/-!
Whose claim a `.claim` file is. A renewal, a release and a reap act by path on what they read
before; while they find it unchanged, a claim is only ever rewritten or unlinked for its holder or
as stale.
-/

namespace Flowness.Awareness

open Library Function

/-- The call and the file of a `claim_task` that has not returned yet. -/
def ClaimStage.claims : ClaimStage → Option (ClaimCall × Nat)
  | .created call file => some (call, file)
  | .fenceRead call file _ => some (call, file)
  | .fenced call file _ => some (call, file)
  | _ => none

def ClaimEvent.aside : ClaimEvent → Bool
  | .refused .. | .issued .. | .reaped .. => true
  | _ => false

structure StageSound (state : ClaimState) (stage : ClaimStage) : Prop where
  claiming : ∀ call file, stage.claims = some (call, file) →
    .created call file ∈ state.history ∧ state.texts file = .empty ∧
      ∀ other token, .claimed other file token ∉ state.history
  renewing : ∀ call file info, stage = .renewing call file info →
    ∃ holder, .claimed holder file info.fencingToken ∈ state.history ∧
      holder.claimant = call.claimant ∧ holder.stem = call.stem
  releasing : ∀ call file, stage = .releasing call file →
    ∃ holder token, .claimed holder file token ∈ state.history ∧
      holder.claimant = call.claimant ∧ holder.stem = call.stem
  unlinking : ∀ call file info name names,
    stage = .unlinking call (some (file, .record info)) name names → call.stale info.ts = true

/-- Every file is made by one `claim_task`, and its record is that call's. -/
structure FilesSound (state : ClaimState) : Prop where
  fresh : ∀ call file, .created call file ∈ state.history → file < state.nextFile
  createdOnce : ∀ call other file, .created call file ∈ state.history →
    .created other file ∈ state.history → call = other
  named : ∀ name file, state.names name = some file →
    ∃ call, .created call file ∈ state.history ∧ call.stem = name
  claimedCreated : ∀ call file token, .claimed call file token ∈ state.history →
    .created call file ∈ state.history
  claimedOnce : ∀ call other file token second, .claimed call file token ∈ state.history →
    .claimed other file second ∈ state.history → token = second
  owned : ∀ file info, state.texts file = .record info →
    ∃ call, .claimed call file info.fencingToken ∈ state.history ∧ call.claimant = info.claimant
  gone : ∀ call file name, .released call file ∈ state.history → state.names name ≠ some file
  releasedOwn : ∀ call file, .released call file ∈ state.history →
    ∃ holder token, .claimed holder file token ∈ state.history ∧
      holder.claimant = call.claimant ∧ holder.stem = call.stem
  stages : ∀ pid, StageSound state (state.stages pid)
  apart : ∀ pid other call second file, (state.stages pid).claims = some (call, file) →
    (state.stages other).claims = some (second, file) → pid = other

section

variable {env : ClaimEnv} {state next : ClaimState} {pid : Nat} {label : ClaimLabel}
  {call : ClaimCall} {file : Nat}

variable {info : ClaimInfo} {stage : ClaimStage} {name : String}

theorem StageSound.of_quiet (hclaims : stage.claims = none)
    (hrenewing : ∀ call file info, stage ≠ .renewing call file info)
    (hreleasing : ∀ call file, stage ≠ .releasing call file)
    (hunlinking : ∀ call read name names, stage ≠ .unlinking call read name names) :
    StageSound state stage := by
  constructor
  · intro call file hstage
    rw [hclaims] at hstage
    cases hstage
  · exact fun call file info hstage => absurd hstage (hrenewing call file info)
  · exact fun call file hstage => absurd hstage (hreleasing call file)
  · exact fun call file info name names hstage => absurd hstage (hunlinking call _ name names)

theorem StageSound.of_claims (h : StageSound state old) (hold : old.claims = some (call, file))
    (hclaims : stage.claims = some (call, file)) : StageSound state stage := by
  constructor
  · intro other second hstage
    exact h.claiming other second (hold.trans (hclaims.symm.trans hstage))
  all_goals
    intros
    subst stage
    cases hclaims

theorem stageSound_idle : StageSound state .idle :=
  StageSound.of_quiet rfl (by simp) (by simp) (by simp)

theorem stageSound_nextName (call : ReapCall) (names : List String) :
    StageSound state (nextName call names) := by
  cases names with
  | nil => exact stageSound_idle
  | cons name names =>
    exact StageSound.of_quiet rfl (by simp [nextName]) (by simp [nextName]) (by simp [nextName])

theorem nextName_claims (call : ReapCall) (names : List String) : (nextName call names).claims = none := by
  cases names <;> rfl

theorem StageSound.mono (h : StageSound state stage)
    (hhistory : ∀ event ∈ state.history, event ∈ next.history)
    (hfile : ∀ call file, stage.claims = some (call, file) → next.texts file = state.texts file ∧
      ∀ other token, .claimed other file token ∈ next.history →
      .claimed other file token ∈ state.history) : StageSound next stage := by
  constructor
  · intro call file hstage
    obtain ⟨hcreated, hempty, hunclaimed⟩ := h.claiming call file hstage
    obtain ⟨htext, hclaimed⟩ := hfile call file hstage
    exact ⟨hhistory _ hcreated, htext.trans hempty,
      fun other token hmem => hunclaimed other token (hclaimed other token hmem)⟩
  · intro call file info hstage
    obtain ⟨holder, hmem, hsame⟩ := h.renewing call file info hstage
    exact ⟨holder, hhistory _ hmem, hsame⟩
  · intro call file hstage
    obtain ⟨holder, token, hmem, hsame⟩ := h.releasing call file hstage
    exact ⟨holder, token, hhistory _ hmem, hsame⟩
  · exact h.unlinking

theorem filesSound_initial : FilesSound .initial := by
  constructor
  case stages => exact fun pid => stageSound_idle
  case apart =>
    intro pid other call second file hstage
    cases hstage
  all_goals
    intros
    simp_all [ClaimState.initial]

theorem FilesSound.setStage (h : FilesSound state) (hstage : StageSound state stage)
    (hclaims : stage.claims = none ∨ stage.claims = (state.stages pid).claims) :
    FilesSound (state.setStage pid stage) := by
  have hkept : ∀ other call file, (Function.update state.stages pid stage other).claims =
      some (call, file) → (state.stages other).claims = some (call, file) := by
    intro other call file hother
    by_cases hpid : other = pid
    · subst hpid
      rw [update_self] at hother
      obtain hnone | hsame := hclaims
      · rw [hnone] at hother
        cases hother
      · rw [← hsame, hother]
    · rwa [update_of_ne hpid] at hother
  refine { h with stages := fun other => ?_, apart := ?_ }
  · have hsound : StageSound state (Function.update state.stages pid stage other) := by
      by_cases hpid : other = pid
      · subst hpid
        rwa [update_self]
      · rw [update_of_ne hpid]
        exact h.stages other
    exact hsound.mono (fun _ hmem => hmem) (fun _ _ _ => ⟨rfl, fun _ _ hmem => hmem⟩)
  · intro first other call second file hfirst hother
    exact h.apart first other call second file (hkept _ _ _ hfirst) (hkept _ _ _ hother)

theorem FilesSound.idle (h : FilesSound state) (pid : Nat) : FilesSound (state.setStage pid .idle) :=
  h.setStage stageSound_idle (.inl rfl)

theorem mem_note : event ∈ (state.note other).history ↔ event ∈ state.history ∨ event = other := by
  simp [ClaimState.note]

theorem mem_note_aside (haside : other.aside = true) (hevent : event.aside = false) :
    event ∈ (state.note other).history ↔ event ∈ state.history := by
  rw [mem_note]
  refine or_iff_left ?_
  rintro rfl
  rw [haside] at hevent
  cases hevent

theorem FilesSound.noteAside (h : FilesSound state) (haside : event.aside = true) :
    FilesSound (state.note event) := by
  have hcreated : ∀ call file, .created call file ∈ (state.note event).history ↔
      .created call file ∈ state.history := fun _ _ => mem_note_aside haside rfl
  have hclaimed : ∀ call file token, .claimed call file token ∈ (state.note event).history ↔
      .claimed call file token ∈ state.history := fun _ _ _ => mem_note_aside haside rfl
  have hreleased : ∀ call file, .released call file ∈ (state.note event).history ↔
      .released call file ∈ state.history := fun _ _ => mem_note_aside haside rfl
  constructor
  case stages =>
    intro pid
    exact (h.stages pid).mono (fun _ hmem => mem_note.mpr (.inl hmem))
      (fun _ _ _ => ⟨rfl, fun _ _ hmem => (hclaimed _ _ _).mp hmem⟩)
  case apart => exact h.apart
  all_goals simp only [hcreated, hclaimed, hreleased]
  · exact h.fresh
  · exact h.createdOnce
  · exact h.named
  · exact h.claimedCreated
  · exact h.claimedOnce
  · exact h.owned
  · exact h.gone
  · exact h.releasedOwn

theorem FilesSound.setFence (h : FilesSound state) (name : String) (text : FenceText) :
    FilesSound (state.setFence name text) :=
  { h with
    stages := fun pid => (h.stages pid).mono (fun _ hmem => hmem)
      (fun _ _ _ => ⟨rfl, fun _ _ hmem => hmem⟩) }

theorem names_of_unlink (h : (state.unlink name).names other = some file) :
    other ≠ name ∧ state.names other = some file := by
  have hupdate : Function.update state.names name none other = some file := h
  by_cases hname : other = name
  · subst hname
    rw [update_self] at hupdate
    cases hupdate
  · rw [update_of_ne hname] at hupdate
    exact ⟨hname, hupdate⟩

theorem names_of_createFile (text : ClaimText) (h : (state.createFile name text).names other = some file) :
    file = state.nextFile ∧ other = name ∨ state.names other = some file := by
  have hupdate : Function.update state.names name (some state.nextFile) other = some file := h
  by_cases hname : other = name
  · subst hname
    rw [update_self] at hupdate
    cases hupdate
    exact .inl ⟨rfl, rfl⟩
  · rw [update_of_ne hname] at hupdate
    exact .inr hupdate

/-- The call has created its file. -/
def ClaimState.createdBy (state : ClaimState) (pid : Nat) (call : ClaimCall) : ClaimState :=
  ((state.createFile call.stem .empty).setStage pid (.created call state.nextFile)).note
    (.created call state.nextFile)

section

variable {call : ClaimCall}

theorem mem_createdBy : event ∈ (state.createdBy pid call).history ↔
    event ∈ state.history ∨ event = .created call state.nextFile := mem_note

@[simp] theorem claimed_mem_createdBy : .claimed other file token ∈ (state.createdBy pid call).history ↔
    .claimed other file token ∈ state.history := by simp [mem_createdBy]

@[simp] theorem released_mem_createdBy : .released other file ∈ (state.createdBy pid call).history ↔
    .released other file ∈ state.history := by simp [mem_createdBy]

end

section

variable (h : FilesSound state)
include h

theorem FilesSound.unlink (name : String) : FilesSound (state.unlink name) :=
  { h with
    named := fun other file hname => h.named other file (names_of_unlink hname).2
    gone := fun call file other hmem hname => h.gone call file other hmem (names_of_unlink hname).2
    stages := fun pid => (h.stages pid).mono (fun _ hmem => hmem)
      (fun _ _ _ => ⟨rfl, fun _ _ hmem => hmem⟩) }

theorem FilesSound.noteReaped (read : Option (Nat × ClaimText)) :
    FilesSound (noteReaped state read) := by
  unfold Awareness.noteReaped
  split
  · exact h.noteAside rfl
  · exact h

/-- The new file is none that a call had before. -/
theorem FilesSound.ne_nextFile (hmem : .created call file ∈ state.history) : file ≠ state.nextFile :=
  Nat.ne_of_lt (h.fresh call file hmem)

theorem FilesSound.not_claimed_nextFile (call : ClaimCall) (token : Nat) :
    .claimed call state.nextFile token ∉ state.history :=
  fun hmem => h.ne_nextFile (h.claimedCreated call _ token hmem) rfl

theorem FilesSound.stagesCreated (pid : Nat) (call : ClaimCall) (other : Nat) :
    StageSound (state.createdBy pid call) ((state.createdBy pid call).stages other) := by
  show StageSound _ (Function.update state.stages pid (.created call state.nextFile) other)
  by_cases hpid : other = pid
  · subst hpid
    rw [update_self]
    constructor
    · intro made file hclaims
      cases hclaims
      refine ⟨mem_createdBy.mpr (.inr rfl), update_self .., fun holder token hmem => ?_⟩
      exact absurd (claimed_mem_createdBy.mp hmem) (h.not_claimed_nextFile holder token)
    all_goals
      intros
      contradiction
  · rw [update_of_ne hpid]
    refine (h.stages other).mono (fun event hmem => mem_createdBy.mpr (.inl hmem))
      (fun made file hclaims => ?_)
    have hne := h.ne_nextFile ((h.stages other).claiming made file hclaims).1
    exact ⟨update_of_ne hne .., fun holder token hmem => claimed_mem_createdBy.mp hmem⟩

theorem FilesSound.apartCreated (pid : Nat) (call : ClaimCall) :
    ∀ first other made second file, ((state.createdBy pid call).stages first).claims = some (made, file) →
      ((state.createdBy pid call).stages other).claims = some (second, file) → first = other := by
  have hclaims : ∀ other made file, ((state.createdBy pid call).stages other).claims = some (made, file) →
      (other = pid ∧ file = state.nextFile) ∨ (state.stages other).claims = some (made, file) := by
    intro other made file hclaims
    have hupdate : (Function.update state.stages pid (.created call state.nextFile) other).claims =
        some (made, file) := hclaims
    by_cases hpid : other = pid
    · subst hpid
      rw [update_self] at hupdate
      cases hupdate
      exact .inl ⟨rfl, rfl⟩
    · rw [update_of_ne hpid] at hupdate
      exact .inr hupdate
  intro first other made second file hfirst hother
  rcases hclaims first made file hfirst with ⟨rfl, hnew⟩ | hold
  · rcases hclaims other second file hother with ⟨rfl, -⟩ | hsame
    · rfl
    · exact absurd hnew (h.ne_nextFile ((h.stages other).claiming second _ hsame).1)
  · rcases hclaims other second file hother with ⟨rfl, hnew⟩ | hsame
    · exact absurd hnew (h.ne_nextFile ((h.stages first).claiming made _ hold).1)
    · exact h.apart first other made second file hold hsame

theorem FilesSound.created (pid : Nat) (call : ClaimCall) :
    FilesSound (state.createdBy pid call) := by
  constructor
  case fresh =>
    intro other file hmem
    obtain hmem | hmem := mem_createdBy.mp hmem
    · exact Nat.lt_succ_of_lt (h.fresh other file hmem)
    · cases hmem
      exact Nat.lt_succ_self _
  case createdOnce =>
    intro first other file hfirst hother
    obtain hfirst | hfirst := mem_createdBy.mp hfirst <;>
      obtain hother | hother := mem_createdBy.mp hother
    · exact h.createdOnce first other file hfirst hother
    · cases hother
      exact absurd rfl (h.ne_nextFile hfirst)
    · cases hfirst
      exact absurd rfl (h.ne_nextFile hother)
    · cases hfirst
      cases hother
      rfl
  case named =>
    intro name file hnamed
    rcases names_of_createFile .empty hnamed with ⟨rfl, rfl⟩ | hnamed
    · exact ⟨call, mem_createdBy.mpr (.inr rfl), rfl⟩
    · obtain ⟨other, hmem, hother⟩ := h.named name file hnamed
      exact ⟨other, mem_createdBy.mpr (.inl hmem), hother⟩
  case claimedCreated =>
    intro other file token hmem
    exact mem_createdBy.mpr (.inl (h.claimedCreated other file token (claimed_mem_createdBy.mp hmem)))
  case owned =>
    simp only [claimed_mem_createdBy]
    intro file info htext
    have hupdate : Function.update state.texts state.nextFile .empty file = .record info := htext
    by_cases hfile : file = state.nextFile
    · subst hfile
      rw [update_self] at hupdate
      cases hupdate
    · rw [update_of_ne hfile] at hupdate
      exact h.owned file info hupdate
  case gone =>
    intro other file name hmem hnamed
    rw [released_mem_createdBy] at hmem
    rcases names_of_createFile .empty hnamed with ⟨rfl, -⟩ | hnamed
    · obtain ⟨holder, token, hclaimed, -⟩ := h.releasedOwn other _ hmem
      exact h.not_claimed_nextFile holder token hclaimed
    · exact h.gone other file name hmem hnamed
  case claimedOnce => simpa using h.claimedOnce
  case releasedOwn => simpa using h.releasedOwn
  case stages => exact h.stagesCreated pid call
  case apart => exact h.apartCreated pid call

theorem FilesSound.setText (hunheld : ∀ pid call, (state.stages pid).claims ≠ some (call, file))
    (howned : ∀ info, text = .record info → ∃ call,
      .claimed call file info.fencingToken ∈ state.history ∧ call.claimant = info.claimant) :
    FilesSound (state.setText file text) := by
  refine { h with owned := ?_, stages := fun pid => ?_ }
  · intro other info htext
    have hupdate : Function.update state.texts file text other = .record info := htext
    by_cases hfile : other = file
    · subst hfile
      rw [update_self] at hupdate
      exact howned info hupdate
    · rw [update_of_ne hfile] at hupdate
      exact h.owned other info hupdate
  · refine (h.stages pid).mono (fun _ hmem => hmem) (fun call other hclaims => ?_)
    have hne : other ≠ file := by
      rintro rfl
      exact hunheld pid call hclaims
    exact ⟨update_of_ne hne .., fun _ _ hmem => hmem⟩

theorem FilesSound.noteClaimed (token : Nat) (hcreated : .created call file ∈ state.history)
    (hunclaimed : ∀ other token, .claimed other file token ∉ state.history)
    (hunheld : ∀ pid call, (state.stages pid).claims ≠ some (call, file)) :
    FilesSound (state.note (.claimed call file token)) := by
  have hkept : ∀ event ∈ state.history, event ∈ (state.note (.claimed call file token)).history :=
    fun event hmem => mem_note.mpr (.inl hmem)
  have hcreatedOld : ∀ other file', .created other file' ∈
      (state.note (.claimed call file token)).history → .created other file' ∈ state.history := by
    intro other file' hmem
    obtain hmem | hmem := mem_note.mp hmem
    · exact hmem
    · cases hmem
  have hreleasedOld : ∀ other file', .released other file' ∈
      (state.note (.claimed call file token)).history → .released other file' ∈ state.history := by
    intro other file' hmem
    obtain hmem | hmem := mem_note.mp hmem
    · exact hmem
    · cases hmem
  constructor
  case fresh => exact fun other file' hmem => h.fresh other file' (hcreatedOld other file' hmem)
  case createdOnce =>
    intro first other file' hfirst hother
    exact h.createdOnce first other file' (hcreatedOld _ _ hfirst) (hcreatedOld _ _ hother)
  case named =>
    intro name file' hname
    obtain ⟨other, hmem, hstem⟩ := h.named name file' hname
    exact ⟨other, hkept _ hmem, hstem⟩
  case claimedCreated =>
    intro other file' second hmem
    obtain hmem | hmem := mem_note.mp hmem
    · exact hkept _ (h.claimedCreated other file' second hmem)
    · cases hmem
      exact hkept _ hcreated
  case claimedOnce =>
    intro first other file' second third hfirst hother
    obtain hfirst | hfirst := mem_note.mp hfirst <;> obtain hother | hother := mem_note.mp hother
    · exact h.claimedOnce first other file' second third hfirst hother
    · cases hother
      exact absurd hfirst (hunclaimed first second)
    · cases hfirst
      exact absurd hother (hunclaimed other third)
    · cases hfirst
      cases hother
      rfl
  case owned =>
    intro file' info htext
    obtain ⟨holder, hmem, hsame⟩ := h.owned file' info htext
    exact ⟨holder, hkept _ hmem, hsame⟩
  case gone => exact fun other file' name hmem => h.gone other file' name (hreleasedOld _ _ hmem)
  case releasedOwn =>
    intro other file' hmem
    obtain ⟨holder, second, hclaimed, hsame⟩ := h.releasedOwn other file' (hreleasedOld _ _ hmem)
    exact ⟨holder, second, hkept _ hclaimed, hsame⟩
  case stages =>
    intro pid
    refine (h.stages pid).mono hkept (fun made file' hclaims => ⟨rfl, fun other second hmem => ?_⟩)
    obtain hmem | hmem := mem_note.mp hmem
    · exact hmem
    · cases hmem
      exact absurd hclaims (hunheld pid made)
  case apart => exact h.apart

theorem FilesSound.noteReleased (hgone : ∀ name, state.names name ≠ some file)
    (hown : ∃ holder token, .claimed holder file token ∈ state.history ∧ holder.claimant =
      call.claimant ∧ holder.stem = call.stem) : FilesSound (state.note (.released call file)) := by
  have hkept : ∀ event ∈ state.history, event ∈ (state.note (.released call file)).history :=
    fun event hmem => mem_note.mpr (.inl hmem)
  have hcreated : ∀ other file', .created other file' ∈ (state.note (.released call file)).history ↔
      .created other file' ∈ state.history := by
    intro other file'
    simp
  have hclaimed : ∀ other file' token, .claimed other file' token ∈
      (state.note (.released call file)).history ↔ .claimed other file' token ∈ state.history := by
    intro other file' token
    simp
  constructor
  case gone =>
    intro other file' name hmem
    obtain hmem | hmem := mem_note.mp hmem
    · exact h.gone other file' name hmem
    · cases hmem
      exact hgone name
  case releasedOwn =>
    intro other file' hmem
    simp only [hclaimed]
    obtain hmem | hmem := mem_note.mp hmem
    · exact h.releasedOwn other file' hmem
    · cases hmem
      exact hown
  case stages =>
    intro pid
    exact (h.stages pid).mono hkept (fun _ _ _ => ⟨rfl, fun _ _ hmem => (hclaimed _ _ _).mp hmem⟩)
  case apart => exact h.apart
  all_goals simp only [hcreated, hclaimed]
  · exact h.fresh
  · exact h.createdOnce
  · exact h.named
  · exact h.claimedCreated
  · exact h.claimedOnce
  · exact h.owned

theorem FilesSound.unheld (hclaims : (state.stages pid).claims = some (call, file)) (other : Nat)
    (second : ClaimCall) :
    ((state.setStage pid .idle).stages other).claims ≠ some (second, file) := by
  intro hother
  have hupdate : (Function.update state.stages pid .idle other).claims = some (second, file) := hother
  by_cases hpid : other = pid
  · subst hpid
    rw [update_self] at hupdate
    cases hupdate
  · rw [update_of_ne hpid] at hupdate
    exact hpid (h.apart other pid second call file hupdate hclaims)

theorem FilesSound.claimed (hstage : state.stages pid = .fenced call file token) :
    FilesSound (((state.setText file (env.overlay (state.texts file)
      ⟨call.claimant, token, ts, call.taskId⟩)).setStage pid .idle).note
        (.claimed call file token)) := by
  have hclaims : (state.stages pid).claims = some (call, file) := by rw [hstage, ClaimStage.claims]
  obtain ⟨hcreated, hempty, hunclaimed⟩ := (h.stages pid).claiming call file hclaims
  have hunheld := h.unheld hclaims
  have hnoted := (h.idle pid).noteClaimed token hcreated hunclaimed hunheld
  have hoverlay : env.overlay (state.texts file) ⟨call.claimant, token, ts, call.taskId⟩ =
      .record ⟨call.claimant, token, ts, call.taskId⟩ := by
    rw [hempty]
    exact if_pos (Nat.zero_le _)
  rw [hoverlay]
  refine hnoted.setText hunheld (fun info hinfo => ?_)
  cases hinfo
  exact ⟨call, mem_note.mpr (.inr rfl), rfl⟩

end

theorem writeText_of_named (hname : state.names name = some file) :
    state.writeText name text = state.setText file text := by
  simp only [ClaimState.writeText, hname]

theorem FilesSound.rewritten (h : FilesSound state)
    (hstage : state.stages pid = .renewing call file info)
    (hname : state.names call.stem = some file)
    (htext : ∀ other, text = .record other → other.fencingToken = info.fencingToken ∧
      other.claimant = call.claimant) :
    FilesSound ((state.writeText call.stem text).setStage pid .idle) := by
  rw [writeText_of_named hname]
  obtain ⟨holder, hmem, hclaimant, -⟩ := (h.stages pid).renewing call file info hstage
  refine FilesSound.idle (h.setText ?_ fun other hother => ?_) pid
  · intro second made hclaims
    exact ((h.stages second).claiming made file hclaims).2.2 holder _ hmem
  · obtain ⟨htoken, hsame⟩ := htext other hother
    exact ⟨holder, by rw [htoken]; exact hmem, hclaimant.trans hsame.symm⟩

theorem FilesSound.released (h : FilesSound state) (hstage : state.stages pid = .releasing call file) :
    FilesSound (((state.unlink call.stem).setStage pid .idle).note (.released call file)) := by
  obtain ⟨holder, token, hmem, hclaimant, hstem⟩ := (h.stages pid).releasing call file hstage
  refine ((h.unlink call.stem).idle pid).noteReleased (fun name hnamed => ?_)
    ⟨holder, token, hmem, hclaimant, hstem⟩
  -- the file stands under its own name only
  obtain ⟨hne, hnamed⟩ := names_of_unlink hnamed
  obtain ⟨made, hmade, hstem'⟩ := h.named name file hnamed
  have hsame := h.createdOnce made holder file hmade (h.claimedCreated holder file token hmem)
  exact hne (by rw [← hstem', hsame, hstem])

theorem readOwn_ok {read : Nat × ClaimInfo} (h : readOwn state call = some read) :
    state.names call.stem = some read.1 ∧ state.texts read.1 = .record read.2 ∧
      read.2.claimant = call.claimant := by
  unfold readOwn at h
  split at h
  next file info hread =>
    obtain ⟨hclaimant, h⟩ := Option.ite_none_right_eq_some.mp h
    cases h
    obtain ⟨found, hnamed, hfound⟩ := Option.map_eq_some_iff.mp hread
    obtain ⟨rfl, htext⟩ := Prod.mk.inj hfound
    exact ⟨hnamed, htext, hclaimant⟩
  · cases h

section

variable (h : FilesSound state) (hread : readOwn state call = some (file, info))
include h hread

theorem FilesSound.readOwn_holder :
    ∃ holder, .claimed holder file info.fencingToken ∈ state.history ∧
      holder.claimant = call.claimant ∧ holder.stem = call.stem := by
  obtain ⟨hname, htext, hclaimant⟩ := readOwn_ok hread
  obtain ⟨holder, hmem, hsame⟩ := h.owned file info htext
  obtain ⟨made, hmade, hstem⟩ := h.named call.stem file hname
  have heq := h.createdOnce made holder file hmade (h.claimedCreated holder file _ hmem)
  exact ⟨holder, hmem, hsame.trans hclaimant, by rw [← heq, hstem]⟩

theorem FilesSound.renewing : StageSound state (.renewing call file info) := by
  constructor
  case renewing =>
    intro other second third hstage
    cases hstage
    exact h.readOwn_holder hread
  all_goals
    intros
    contradiction

theorem FilesSound.releasing : StageSound state (.releasing call file) := by
  constructor
  case releasing =>
    intro other second hstage
    cases hstage
    obtain ⟨holder, hmem, hsame⟩ := h.readOwn_holder hread
    exact ⟨holder, info.fencingToken, hmem, hsame⟩
  all_goals
    intros
    contradiction

end

theorem stageSound_unlinking {call : ReapCall} {read : Option (Nat × ClaimText)}
    {names : List String} (hspares : spares call live read = false) :
    StageSound state (.unlinking call read name names) := by
  constructor
  case unlinking =>
    intro other file info name' names' hstage
    cases hstage
    simp only [spares, Bool.or_eq_false_iff, Bool.not_eq_false'] at hspares
    exact hspares.1
  all_goals
    intros
    contradiction

theorem FilesSound.step (h : FilesSound state) (hacts : actsOnRead state label = true)
    (hstep : claimStep env state label = some next) : FilesSound next := by
  have hmove := claimStep_move hstep
  unfold actsOnRead at hacts
  generalize label.action = action at hmove hacts
  generalize label.pid = pid at hmove hacts
  cases hmove with
  | refused hstage => exact h.noteAside rfl
  | created hstage => exact h.created pid _
  | fenceRead hstage =>
    have hclaims := congrArg ClaimStage.claims hstage
    exact h.setStage ((h.stages pid).of_claims hclaims rfl) (.inr hclaims.symm)
  | @fenced call file next hstage =>
    have hclaims := congrArg ClaimStage.claims hstage
    have hfence := h.setFence call.stem (.number next)
    refine FilesSound.noteAside ?_ rfl
    exact hfence.setStage ((hfence.stages pid).of_claims hclaims rfl) (.inr hclaims.symm)
  | fenceTruncated hstage => exact (h.setFence _ _).idle pid
  | claimed hstage => exact h.claimed hstage
  | renewing hstage hread => exact h.setStage (h.renewing hread) (.inl rfl)
  | notRenewing hstage => exact h
  | renewed hstage =>
    rw [hstage] at hacts
    refine h.rewritten hstage (of_decide_eq_true hacts) (fun other hother => ?_)
    cases hother
    exact ⟨rfl, rfl⟩
  | renewTruncated hstage =>
    rw [hstage] at hacts
    refine h.rewritten hstage (of_decide_eq_true hacts) (fun other hother => ?_)
    cases hother
  | releasing hstage hread => exact h.setStage (h.releasing hread) (.inl rfl)
  | notReleasing hstage => exact h
  | released hstage =>
    exact h.released hstage
  | scanned hstage => exact h.setStage (stageSound_nextName _ _) (.inl (nextName_claims _ _))
  | spared hstage => exact h.setStage (stageSound_nextName _ _) (.inl (nextName_claims _ _))
  | doomed hstage hspares => exact h.setStage (stageSound_unlinking hspares) (.inl rfl)
  | reaped hstage =>
    exact ((h.unlink _).setStage (stageSound_nextName _ _) (.inl (nextName_claims _ _))).noteReaped _
  | died => exact h.idle pid

/-- The step is the holder's own renewal or release, or a reap of a claim as old as the threshold. -/
def ByHolder (state : ClaimState) (label : ClaimLabel) (info : ClaimInfo) : Prop :=
  match state.stages label.pid, label.action with
  | .renewing call _ _, .writeRenew _ => call.claimant = info.claimant
  | .renewing call _ _, .dieTruncated => call.claimant = info.claimant
  | .releasing call _, .unlinkRelease => call.claimant = info.claimant
  | .unlinking call _ _ _, .reapUnlink => call.stale info.ts = true
  | _, _ => False

/-- The claim `info` in `file` stands under `name`. -/
def Stands (state : ClaimState) (name : String) (file : Nat) (info : ClaimInfo) : Prop :=
  state.names name = some file ∧ state.texts file = .record info

theorem FilesSound.same_claimant (h : FilesSound state) (htext : state.texts file = .record info)
    (hmem : .claimed holder file token ∈ state.history) : holder.claimant = info.claimant := by
  obtain ⟨made, hmade, hsame⟩ := h.owned file info htext
  rw [h.createdOnce holder made file (h.claimedCreated _ _ _ hmem) (h.claimedCreated _ _ _ hmade), hsame]

theorem stands_setText (hne : file ≠ other) (h : Stands state name file info) :
    Stands (state.setText other text) name file info :=
  ⟨h.1, (update_of_ne hne ..).trans h.2⟩

theorem stands_unlink (hne : name ≠ other) (h : Stands state name file info) :
    Stands (state.unlink other) name file info :=
  ⟨(update_of_ne hne ..).trans h.1, h.2⟩

theorem FilesSound.renewer (h : FilesSound state) {read : ClaimInfo} {other : Nat}
    (hstage : state.stages pid = .renewing call other read)
    (hname : state.names call.stem = some other) (hstands : Stands state name file info)
    (hlost : ¬ Stands ((state.writeText call.stem text).setStage pid .idle) name file info) :
    call.claimant = info.claimant := by
  rw [writeText_of_named hname] at hlost
  by_cases hfile : file = other
  · subst hfile
    obtain ⟨holder, hmem, hclaimant, -⟩ := (h.stages pid).renewing call file read hstage
    rw [← hclaimant, h.same_claimant hstands.2 hmem]
  · exact absurd (stands_setText hfile hstands) hlost

theorem FilesSound.byHolder (h : FilesSound state) (hacts : actsOnRead state label = true)
    (hstep : claimStep env state label = some next) (hstands : Stands state name file info)
    (hlost : ¬ Stands next name file info) : ByHolder state label info := by
  have hmove := claimStep_move hstep
  unfold actsOnRead at hacts
  unfold ByHolder
  generalize label.action = action at hmove hacts ⊢
  generalize label.pid = pid at hmove hacts ⊢
  cases hmove with
  | @created call hstage hname =>
    obtain ⟨made, hmade, hstem⟩ := h.named name file hstands.1
    have hold : file ≠ state.nextFile := Nat.ne_of_lt (h.fresh made file hmade)
    have hne : name ≠ call.stem := by
      rintro rfl
      have hnamed := hstands.1
      rw [hname] at hnamed
      cases hnamed
    exact absurd ⟨(update_of_ne hne ..).trans hstands.1,
      (update_of_ne hold ..).trans hstands.2⟩ hlost
  | @claimed call other token ts hstage =>
    have hne : file ≠ other := by
      rintro rfl
      have hempty := ((h.stages pid).claiming call file (by rw [hstage]; rfl)).2.1
      rw [hstands.2] at hempty
      cases hempty
    exact absurd (stands_setText hne hstands) hlost
  | renewed hstage | renewTruncated hstage =>
    rw [hstage] at hacts ⊢
    exact h.renewer hstage (of_decide_eq_true hacts) hstands hlost
  | @released call other hstage =>
    rw [hstage] at hacts ⊢
    by_cases hne : name = call.stem
    · subst hne
      have hfound : state.names call.stem = none ∨ state.names call.stem = some other :=
        of_decide_eq_true hacts
      rw [hstands.1] at hfound
      obtain rfl : file = other := by simpa using hfound
      obtain ⟨holder, token, hmem, hclaimant, -⟩ := (h.stages pid).releasing call file hstage
      show call.claimant = info.claimant
      rw [← hclaimant, h.same_claimant hstands.2 hmem]
    · exact absurd (stands_unlink hne hstands) hlost
  | @reaped call read other names hstage =>
    rw [hstage] at hacts ⊢
    by_cases hne : name = other
    · subst hne
      have hread : read = some (file, .record info) := by
        obtain hnone | hsame := of_decide_eq_true hacts
        · exact absurd (hnone.symm.trans hstands.1) (by simp)
        · rw [← hsame, ClaimState.readFile, hstands.1, Option.map_some, hstands.2]
      rw [hread] at hstage
      exact (h.stages pid).unlinking call file info name names hstage
    · have hkept : Stands (Awareness.noteReaped ((state.unlink other).setStage pid (nextName call names)) read)
          name file info := by
        unfold Awareness.noteReaped
        split
        · exact stands_unlink hne hstands
        · exact stands_unlink hne hstands
      exact absurd hkept hlost
  | _ => exact absurd hstands hlost

/-- While every renewal, release and reap finds what it read, a claim is rewritten or unlinked only
for its holder or as stale, a standing record is the one of the claim that made its file, and a
released claim stands nowhere again. -/
theorem claims_stay_with_holders {labels : List ClaimLabel}
    (h : Run (claimStep env) (fun state label => actsOnRead state label = true) .initial labels state) :
    (∀ label next name file info, actsOnRead state label = true → claimStep env state label = some next →
        Stands state name file info → ¬ Stands next name file info → ByHolder state label info) ∧
      ∀ name file info, Stands state name file info →
        (∃ call, .claimed call file info.fencingToken ∈ state.history ∧
          call.claimant = info.claimant) ∧ ∀ call, .released call file ∉ state.history := by
  have hsound : FilesSound state :=
    h.invariant filesSound_initial fun _ _ _ hsound hacts hstep => hsound.step hacts hstep
  refine ⟨fun label next name file info hacts hstep hstands hlost => ?_, fun name file info hstands => ?_⟩
  · exact hsound.byHolder hacts hstep hstands hlost
  · exact ⟨hsound.owned file info hstands.2, fun call hmem => hsound.gone call file name hmem hstands.1⟩

end

def sampleEnv : ClaimEnv := ⟨fun info => info.claimant.length⟩

/-- One whole `claim_task` of a process. -/
def claimLabels (pid : Nat) (call : ClaimCall) (ts : Int) : List ClaimLabel :=
  [⟨pid, .startClaim call⟩, ⟨pid, .readFence⟩, ⟨pid, .writeFence⟩, ⟨pid, .writeClaim ts⟩]

def reapLabels (pid : Nat) (now : Int) (names : List String) : List ClaimLabel :=
  [⟨pid, .startReap ⟨now, 10⟩ names⟩, ⟨pid, .reapRead false⟩, ⟨pid, .reapUnlink⟩]

def stateAfter (labels : List ClaimLabel) : ClaimState :=
  (labels.foldlM (claimStep sampleEnv) .initial).getD .initial

def handedOver : List ClaimLabel :=
  claimLabels 0 ⟨"t/1", "A"⟩ 0 ++ [⟨0, .startRenew ⟨"t/1", "A"⟩⟩, ⟨0, .writeRenew 5⟩] ++
    reapLabels 1 16 ["t_1"] ++ claimLabels 2 ⟨"t/1", "B"⟩ 17 ++
    [⟨2, .startRelease ⟨"t/1", "B"⟩⟩, ⟨2, .unlinkRelease⟩]

theorem handedOver_stays :
    (∀ label next name file info, actsOnRead (stateAfter handedOver) label = true →
        claimStep sampleEnv (stateAfter handedOver) label = some next →
        Stands (stateAfter handedOver) name file info → ¬ Stands next name file info →
        ByHolder (stateAfter handedOver) label info) ∧
      ∀ name file info, Stands (stateAfter handedOver) name file info →
        (∃ call, .claimed call file info.fencingToken ∈ (stateAfter handedOver).history ∧
          call.claimant = info.claimant) ∧
        ∀ call, .released call file ∉ (stateAfter handedOver).history := by
  have hrun : Run (claimStep sampleEnv) (fun state label => actsOnRead state label = true) .initial
      handedOver (stateAfter handedOver) := Run.of_check_isSome (fun _ _ h => h) (by decide +kernel)
  exact claims_stay_with_holders hrun

def lateRelease : List ClaimLabel :=
  claimLabels 0 ⟨"t", "A"⟩ 0 ++ [⟨0, .startRelease ⟨"t", "A"⟩⟩] ++ reapLabels 1 16 ["t"] ++
    claimLabels 2 ⟨"t", "B"⟩ 17

/-- A's release unlinks the fresh claim of B. -/
theorem late_release_takes_next_claim :
    ∃ next, claimStep sampleEnv (stateAfter lateRelease) ⟨0, .unlinkRelease⟩ = some next ∧
      Stands (stateAfter lateRelease) "t" 1 ⟨"B", 2, 17, "t"⟩ ∧
      ¬ Stands next "t" 1 ⟨"B", 2, 17, "t"⟩ ∧
      ¬ ByHolder (stateAfter lateRelease) ⟨0, .unlinkRelease⟩ ⟨"B", 2, 17, "t"⟩ := by
  have hstage : (stateAfter lateRelease).stages 0 = .releasing ⟨"t", "A"⟩ 0 := by decide +kernel
  refine ⟨_, by rw [claimStep, hstage]; rfl, ⟨by decide +kernel, by decide +kernel⟩, ?_, ?_⟩
  · rintro ⟨hname, -⟩
    exact absurd hname (by decide +kernel)
  · unfold ByHolder
    rw [hstage]
    decide +kernel

end Flowness.Awareness
