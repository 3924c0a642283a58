import Flowness.Awareness.ClaimOwnership

/-!
The fencing tokens. The read-modify-write of a fence is safe while its `.claim` file stays in place,
which the reaper of unreadable files does not grant to a `claim_task` that has not written yet.
-/

namespace Flowness.Awareness

open List Library Function

def tokensOf (taskId : String) (history : List ClaimEvent) : List Nat :=
  history.filterMap fun
    | .claimed call _ token => if call.taskId = taskId then some token else none
    | _ => none

/-- The holder has released the claim, or it was reaped as stale. -/
def Ended (history : List ClaimEvent) (holder : ClaimCall) (file : Nat) : Prop :=
  .released holder file ∈ history ∨ ∃ info, .reaped file info ∈ history

/-- No task of another id has been claimed under the file names of the call. -/
def OwnStem (state : ClaimState) (call : ClaimCall) : Prop :=
  ∀ other file, .created other file ∈ state.history → other.stem = call.stem →
    other.taskId = call.taskId

/-- The `claim_task` that made the file died before it wrote its record. -/
def Abandoned (state : ClaimState) (file : Nat) : Prop :=
  (∀ call token, .claimed call file token ∉ state.history) ∧
    ∀ pid call, (state.stages pid).claims ≠ some (call, file)

def unreadable : Option (Nat × ClaimText) → Option Nat
  | some (_, .record _) => none
  | some (file, _) => some file
  | none => none

/-- The step acts on what was read; task ids in use have file names of their own; an unreadable file
is reaped only when its `claim_task` is dead; and no process dies past the truncation of a fence
that holds a number. -/
def KeepsTokens (state : ClaimState) (label : ClaimLabel) : Prop :=
  actsOnRead state label = true ∧
    match state.stages label.pid, label.action with
    | _, .startClaim call => OwnStem state call
    | _, .startRelease call => OwnStem state call
    | .unlinking _ read name _, .reapUnlink =>
      ∀ file, unreadable read = some file → state.names name = some file → Abandoned state file
    | .fenceRead call _ _, .dieTruncated => state.fenceNumber call.stem = 0
    | _, _ => True

/-- What a process in the middle of a call keeps its token by. -/
structure StageKeeps (state : ClaimState) (stage : ClaimStage) : Prop where
  inPlace : ∀ call file, stage.claims = some (call, file) → state.names call.stem = some file
  next : ∀ call file next, stage = .fenceRead call file next →
    next = state.fenceNumber call.stem + 1
  fenced : ∀ call file token, stage = .fenced call file token →
    token = state.fenceNumber call.stem ∧
      ∀ earlier ∈ tokensOf call.taskId state.history, earlier < token
  releasing : ∀ call file, stage = .releasing call file →
    ∃ token, .claimed call file token ∈ state.history

structure TokensSound (state : ClaimState) : Prop where
  files : FilesSound state
  ownStems : ∀ call other file second, .created call file ∈ state.history →
    .created other second ∈ state.history → call.stem = other.stem → call.taskId = other.taskId
  stages : ∀ pid, StageKeeps state (state.stages pid)
  issued : ∀ taskId token, .issued taskId token ∈ state.history →
    0 < token ∧ token ≤ state.fenceNumber (fileStem taskId)
  returned : ∀ taskId, ∀ token ∈ tokensOf taskId state.history,
    token ≤ state.fenceNumber (fileStem taskId)
  ascending : ∀ taskId, (tokensOf taskId state.history).Pairwise (· < ·)
  held : ∀ call file token, .claimed call file token ∈ state.history →
    state.names call.stem = some file ∨ Ended state.history call file
  refusedOwn : ∀ call file, .refused call file ∈ state.history →
    ∃ other, .created other file ∈ state.history ∧ other.taskId = call.taskId

section

variable {env : ClaimEnv} {state next : ClaimState} {pid : Nat} {label : ClaimLabel}
  {call : ClaimCall} {file : Nat} {stage : ClaimStage}

variable {event : ClaimEvent} {token : Nat} {name : String}

theorem mem_tokensOf : token ∈ tokensOf taskId history ↔
      ∃ call file, .claimed call file token ∈ history ∧ call.taskId = taskId := by
  unfold tokensOf
  rw [mem_filterMap]
  constructor
  · rintro ⟨event, hmem, h⟩
    split at h
    next call file other =>
      obtain ⟨htask, h⟩ := Option.ite_none_right_eq_some.mp h
      cases h
      exact ⟨call, file, hmem, htask⟩
    · cases h
  · rintro ⟨call, file, hmem, rfl⟩
    exact ⟨_, hmem, by simp⟩

theorem tokensOf_append (taskId : String) (history later : List ClaimEvent) :
    tokensOf taskId (history ++ later) = tokensOf taskId history ++ tokensOf taskId later :=
  filterMap_append

theorem Ended.append (h : Ended history call file) (later : List ClaimEvent) :
    Ended (history ++ later) call file := by
  obtain h | ⟨info, h⟩ := h
  · exact .inl (mem_append_left _ h)
  · exact .inr ⟨info, mem_append_left _ h⟩

theorem StageKeeps.of_quiet (hclaims : stage.claims = none)
    (hreleasing : ∀ call file, stage = .releasing call file →
      ∃ token, .claimed call file token ∈ state.history) : StageKeeps state stage := by
  constructor
  case releasing => exact hreleasing
  all_goals
    intros
    subst_vars
    simp_all [ClaimStage.claims]

theorem stageKeeps_idle : StageKeeps state .idle := StageKeeps.of_quiet rfl (by simp)

theorem stageKeeps_nextName (call : ReapCall) (names : List String) :
    StageKeeps state (nextName call names) :=
  StageKeeps.of_quiet (nextName_claims call names) (by cases names <;> simp [nextName])

theorem StageKeeps.mono (h : StageKeeps state stage)
    (hhistory : ∀ event ∈ state.history, event ∈ next.history)
    (hkept : ∀ call file, stage.claims = some (call, file) →
      next.names call.stem = state.names call.stem ∧
        next.fenceNumber call.stem = state.fenceNumber call.stem ∧
        tokensOf call.taskId next.history = tokensOf call.taskId state.history) :
    StageKeeps next stage := by
  constructor
  · intro call file hclaims
    rw [(hkept call file hclaims).1]
    exact h.inPlace call file hclaims
  · intro call file token hstage
    rw [(hkept call file (by rw [hstage]; rfl)).2.1]
    exact h.next call file token hstage
  · intro call file token hstage
    obtain ⟨-, hfence, htokens⟩ := hkept call file (by rw [hstage]; rfl)
    rw [hfence, htokens]
    exact h.fenced call file token hstage
  · intro call file hstage
    obtain ⟨token, hmem⟩ := h.releasing call file hstage
    exact ⟨token, hhistory _ hmem⟩

theorem TokensSound.exclusive (h : TokensSound state)
    (hpid : (state.stages pid).claims = some (call, file))
    (hother : (state.stages other).claims = some (second, third)) (hstem : second.stem =
      call.stem) : other = pid := by
  have hname := (h.stages other).inPlace second third hother
  rw [hstem, (h.stages pid).inPlace call file hpid] at hname
  cases hname
  exact h.files.apart other pid second call file hother hpid

theorem tokensSound_initial : TokensSound .initial := by
  constructor
  case files => exact filesSound_initial
  case stages => exact fun pid => stageKeeps_idle
  all_goals
    intros
    simp_all [ClaimState.initial, tokensOf]

structure Grants (state next : ClaimState) (event : ClaimEvent) : Prop where
  created : ∀ call file, event = .created call file → OwnStem state call
  refused : ∀ call file, event = .refused call file →
    ∃ other, .created other file ∈ state.history ∧ other.taskId = call.taskId
  issued : ∀ taskId token, event = .issued taskId token →
    0 < token ∧ token ≤ next.fenceNumber (fileStem taskId)
  claimed : ∀ call file token, event = .claimed call file token →
    token ≤ next.fenceNumber call.stem ∧ (∀ earlier ∈ tokensOf call.taskId state.history,
      earlier < token) ∧ next.names call.stem = some file

theorem TokensSound.silent (h : TokensSound state) (hfiles : FilesSound next)
    (hhistory : next.history = state.history)
    (hstages : ∀ pid, StageKeeps next (next.stages pid))
    (hfences : ∀ name, state.fenceNumber name ≤ next.fenceNumber name)
    (hheld : ∀ call file token, .claimed call file token ∈ state.history →
      state.names call.stem = some file → next.names call.stem = some file) : TokensSound next := by
  constructor
  case files => exact hfiles
  case stages => exact hstages
  all_goals simp only [hhistory]
  · exact h.ownStems
  · intro taskId token hmem
    obtain ⟨hpos, hle⟩ := h.issued taskId token hmem
    exact ⟨hpos, Nat.le_trans hle (hfences _)⟩
  · exact fun taskId token hmem => Nat.le_trans (h.returned taskId token hmem) (hfences _)
  · exact h.ascending
  · exact fun call file token hmem => (h.held call file token hmem).imp_left (hheld call file token hmem)
  · exact h.refusedOwn

theorem TokensSound.noted (h : TokensSound state) (hfiles : FilesSound next)
    (hhistory : next.history = state.history ++ [event]) (hgrants : Grants state next event)
    (hstages : ∀ pid, StageKeeps next (next.stages pid))
    (hfences : ∀ name, state.fenceNumber name ≤ next.fenceNumber name)
    (hheld : ∀ call file token, .claimed call file token ∈ state.history → state.names call.stem =
      some file → next.names call.stem = some file ∨ Ended next.history call file) :
    TokensSound next := by
  have hmem : ∀ other, other ∈ next.history ↔ other ∈ state.history ∨ other = event := by
    intro other
    rw [hhistory, mem_append, mem_singleton]
  have hreturned : ∀ taskId, ∀ token ∈ tokensOf taskId [event], ∃ call file,
      event = .claimed call file token ∧ call.taskId = taskId := by
    intro taskId token htoken
    obtain ⟨call, file, hin, htask⟩ := mem_tokensOf.mp htoken
    exact ⟨call, file, (mem_singleton.mp hin).symm, htask⟩
  constructor
  case files => exact hfiles
  case stages => exact hstages
  case ownStems =>
    intro call other file second hcall hother hstem
    obtain hcall | hcall := (hmem _).mp hcall <;> obtain hother | hother := (hmem _).mp hother
    · exact h.ownStems call other file second hcall hother hstem
    · exact hgrants.created other second hother.symm call file hcall hstem
    · exact (hgrants.created call file hcall.symm other second hother hstem.symm).symm
    · cases hcall.trans hother.symm
      rfl
  case issued =>
    intro taskId token hissued
    obtain hissued | hissued := (hmem _).mp hissued
    · obtain ⟨hpos, hle⟩ := h.issued taskId token hissued
      exact ⟨hpos, Nat.le_trans hle (hfences _)⟩
    · exact hgrants.issued taskId token hissued.symm
  case returned =>
    intro taskId token htoken
    rw [hhistory, tokensOf_append] at htoken
    obtain htoken | htoken := mem_append.mp htoken
    · exact Nat.le_trans (h.returned taskId token htoken) (hfences _)
    · obtain ⟨call, file, hevent, rfl⟩ := hreturned taskId token htoken
      exact (hgrants.claimed call file token hevent).1
  case ascending =>
    intro taskId
    rw [hhistory, tokensOf_append, pairwise_append]
    refine ⟨h.ascending taskId, ?_, fun earlier hearlier token htoken => ?_⟩
    · cases event with
      | claimed call file token =>
        by_cases htask : call.taskId = taskId <;> simp [tokensOf, htask]
      | _ => exact List.Pairwise.nil
    · obtain ⟨call, file, hevent, rfl⟩ := hreturned taskId token htoken
      exact (hgrants.claimed call file token hevent).2.1 earlier hearlier
  case held =>
    intro call file token hclaimed
    obtain hclaimed | hclaimed := (hmem _).mp hclaimed
    · obtain hin | hended := h.held call file token hclaimed
      · exact hheld call file token hclaimed hin
      · rw [hhistory]
        exact .inr (hended.append [event])
    · exact .inl (hgrants.claimed call file token hclaimed.symm).2.2
  case refusedOwn =>
    intro call file hrefused
    have hfound : ∃ other, .created other file ∈ state.history ∧ other.taskId = call.taskId := by
      obtain hrefused | hrefused := (hmem _).mp hrefused
      · exact h.refusedOwn call file hrefused
      · exact hgrants.refused call file hrefused.symm
    obtain ⟨other, hother, htask⟩ := hfound
    exact ⟨other, (hmem _).mpr (.inl hother), htask⟩

theorem tokensOf_note (hevent : ∀ call file token, event ≠ .claimed call file token)
    (taskId : String) :
    tokensOf taskId (state.history ++ [event]) = tokensOf taskId state.history := by
  have hnone : tokensOf taskId [event] = [] := by
    cases event with
    | claimed call file token => exact absurd rfl (hevent call file token)
    | _ => rfl
  rw [tokensOf_append, hnone, append_nil]

theorem stageKeeps_update (hstage : StageKeeps next stage)
    (hothers : ∀ other, other ≠ pid → StageKeeps next (state.stages other)) (other : Nat) :
    StageKeeps next (Function.update state.stages pid stage other) := by
  by_cases hpid : other = pid
  · rwa [hpid, update_self]
  · rw [update_of_ne hpid]
    exact hothers other hpid

section

variable (h : TokensSound state)
include h

theorem TokensSound.setStage (hfiles : FilesSound (state.setStage pid stage))
    (hstage : StageKeeps state stage) : TokensSound (state.setStage pid stage) := by
  refine h.silent hfiles rfl (fun other => ?_) (fun name => Nat.le_refl _) (fun _ _ _ _ hin => hin)
  refine stageKeeps_update ?_ (fun other _ => ?_) other
  · exact hstage.mono (fun _ hmem => hmem) (fun _ _ _ => ⟨rfl, rfl, rfl⟩)
  · exact (h.stages other).mono (fun _ hmem => hmem) (fun _ _ _ => ⟨rfl, rfl, rfl⟩)

theorem TokensSound.idle (pid : Nat) : TokensSound (state.setStage pid .idle) :=
  h.setStage (h.files.idle pid) stageKeeps_idle

theorem TokensSound.goOn (call : ReapCall) (names : List String) :
    TokensSound (state.setStage pid (nextName call names)) :=
  h.setStage (h.files.setStage (stageSound_nextName call names) (.inl (nextName_claims _ _)))
    (stageKeeps_nextName call names)

theorem TokensSound.setText (hfiles : FilesSound (state.setText file text)) :
    TokensSound (state.setText file text) :=
  h.silent hfiles rfl
    (fun pid => (h.stages pid).mono (fun _ hmem => hmem) (fun _ _ _ => ⟨rfl, rfl, rfl⟩))
    (fun _ => Nat.le_refl _) (fun _ _ _ _ hin => hin)

theorem TokensSound.refused (hown : OwnStem state call) (hname : state.names call.stem =
  some file) : TokensSound (state.note (.refused call file)) := by
  obtain ⟨made, hmade, hstem⟩ := h.files.named call.stem file hname
  refine h.noted (h.files.noteAside rfl) (ClaimState.note_history ..) ⟨by simp, ?_, by simp, by simp⟩
    (fun pid => ?_) (fun _ => Nat.le_refl _) (fun _ _ _ _ hin => .inl hin)
  · intro other third hevent
    cases hevent
    exact ⟨made, hmade, hown made file hmade hstem⟩
  · refine (h.stages pid).mono (fun _ hmem => mem_note.mpr (.inl hmem)) (fun _ _ _ => ⟨rfl, rfl, ?_⟩)
    exact tokensOf_note (by simp) _

theorem TokensSound.created (hown : OwnStem state call) (hname : state.names call.stem = none) :
    TokensSound (((state.createFile call.stem .empty).setStage pid
      (.created call state.nextFile)).note (.created call state.nextFile)) := by
  have hnames : ∀ name third, state.names name = some third →
      Function.update state.names call.stem (some state.nextFile) name = some third := by
    intro name third hnamed
    rw [update_of_ne ?_, hnamed]
    rintro rfl
    rw [hname] at hnamed
    cases hnamed
  refine h.noted (h.files.created pid call) (ClaimState.note_history ..) ⟨?_, by simp, by simp, by simp⟩
    (fun other => ?_) (fun _ => Nat.le_refl _) (fun holder third _ _ hin => .inl (hnames _ _ hin))
  · intro other third hevent
    cases hevent
    exact hown
  · refine stageKeeps_update ⟨?_, by simp, by simp, by simp⟩ (fun other _ => ?_) other
    · intro second third hclaims
      cases hclaims
      exact update_self ..
    · refine (h.stages other).mono (fun _ hmem => mem_note.mpr (.inl hmem))
        (fun second third hclaims => ?_)
      have hin := (h.stages other).inPlace second third hclaims
      exact ⟨(hnames _ _ hin).trans hin.symm, rfl, tokensOf_note (by simp) _⟩

theorem TokensSound.fenceRead (hstage : state.stages pid = .created call file)
    (hfiles : FilesSound (state.setStage pid (.fenceRead call file
      (state.fenceNumber call.stem + 1)))) :
    TokensSound (state.setStage pid (.fenceRead call file (state.fenceNumber call.stem + 1))) := by
  have hin : state.names call.stem = some file :=
    (h.stages pid).inPlace call file (by rw [hstage]; rfl)
  refine h.setStage hfiles ⟨?_, ?_, by simp, by simp⟩
  · intro second third hclaims
    cases hclaims
    exact hin
  · intro second third token hsame
    cases hsame
    rfl

end

theorem fenceNumber_setFence_self (state : ClaimState) (name : String) (highest : Nat) :
    (state.setFence name (.number highest)).fenceNumber name = highest := by
  simp [ClaimState.fenceNumber]

theorem fenceNumber_setFence_of_ne (hne : other ≠ name) (text : FenceText) :
    (state.setFence name text).fenceNumber other = state.fenceNumber other := by
  simp [ClaimState.fenceNumber, update_of_ne hne]

theorem fenceNumber_setEmpty (hzero : state.fenceNumber name = 0) (other : String) :
    (state.setFence name .empty).fenceNumber other = state.fenceNumber other := by
  by_cases hname : other = name
  · subst hname
    rw [hzero]
    simp [ClaimState.fenceNumber]
  · exact fenceNumber_setFence_of_ne hname .empty

section

variable (h : TokensSound state)
include h

theorem TokensSound.setEmpty (hzero : state.fenceNumber name = 0) :
    TokensSound (state.setFence name .empty) := by
  have hfences := fenceNumber_setEmpty hzero
  refine h.silent (h.files.setFence name .empty) rfl (fun pid => ?_)
    (fun other => Nat.le_of_eq (hfences other).symm) (fun _ _ _ _ hin => hin)
  exact (h.stages pid).mono (fun _ hmem => hmem) (fun _ _ _ => ⟨rfl, hfences _, rfl⟩)

theorem TokensSound.fenced (hstage : state.stages pid = .fenceRead call file token)
    (hfiles : FilesSound (((state.setFence call.stem (.number token)).setStage pid
      (.fenced call file token)).note (.issued call.taskId token))) :
    TokensSound (((state.setFence call.stem (.number token)).setStage pid
      (.fenced call file token)).note (.issued call.taskId token)) := by
  have hclaims : (state.stages pid).claims = some (call, file) := by rw [hstage]; rfl
  have hnext : token = state.fenceNumber call.stem + 1 := (h.stages pid).next call file token hstage
  have hself := fenceNumber_setFence_self state call.stem token
  have hgrows : ∀ name, state.fenceNumber name ≤
      (state.setFence call.stem (.number token)).fenceNumber name := by
    intro name
    by_cases hname : name = call.stem
    · subst hname
      omega
    · exact Nat.le_of_eq (fenceNumber_setFence_of_ne hname _).symm
  refine h.noted hfiles (ClaimState.note_history ..) ⟨by simp, by simp, ?_, by simp⟩
    (fun other => ?_) hgrows (fun _ _ _ _ hin => .inl hin)
  · intro taskId other hevent
    cases hevent
    exact ⟨by omega, Nat.le_of_eq hself.symm⟩
  · refine stageKeeps_update ⟨?_, by simp, ?_, by simp⟩ (fun other hne => ?_) other
    · intro second third hsame
      cases hsame
      exact (h.stages pid).inPlace call file hclaims
    · intro second third highest hsame
      cases hsame
      refine ⟨hself.symm, fun earlier hearlier => ?_⟩
      rw [ClaimState.note_history, ClaimState.setStage_history, ClaimState.setFence_history,
        tokensOf_note (by simp)] at hearlier
      have hbefore : earlier ≤ state.fenceNumber call.stem := h.returned call.taskId earlier hearlier
      omega
    · refine (h.stages other).mono (fun _ hmem => mem_note.mpr (.inl hmem))
        (fun second third hother => ⟨rfl, ?_, tokensOf_note (by simp) _⟩)
      refine fenceNumber_setFence_of_ne (fun hstem => hne ?_) _
      exact h.exclusive hclaims hother hstem

theorem TokensSound.noteClaimed (hstage : state.stages pid = .fenced call file token)
    (hfiles : FilesSound ((state.setStage pid .idle).note (.claimed call file token))) :
    TokensSound ((state.setStage pid .idle).note (.claimed call file token)) := by
  have hclaims : (state.stages pid).claims = some (call, file) := by rw [hstage]; rfl
  obtain ⟨hhighest, habove⟩ := (h.stages pid).fenced call file token hstage
  have hin := (h.stages pid).inPlace call file hclaims
  refine h.noted hfiles (ClaimState.note_history ..) ⟨by simp, by simp, by simp, ?_⟩
    (fun other => ?_) (fun _ => Nat.le_refl _) (fun _ _ _ _ hin => .inl hin)
  · intro second third other hevent
    cases hevent
    exact ⟨Nat.le_of_eq hhighest, habove, hin⟩
  · refine stageKeeps_update stageKeeps_idle (fun other hne => ?_) other
    refine (h.stages other).mono (fun _ hmem => mem_note.mpr (.inl hmem))
      (fun second third hother => ⟨rfl, rfl, ?_⟩)
    have htask : call.taskId ≠ second.taskId := by
      intro htask
      refine hne (h.exclusive hclaims hother ?_)
      rw [ClaimCall.stem, ← htask, ClaimCall.stem]
    simp [tokensOf, htask]

theorem TokensSound.unlinked
    (hfiles : FilesSound (((state.unlink name).setStage pid stage).note event))
    (hgrants : Grants state (((state.unlink name).setStage pid stage).note event) event)
    (hevent : ∀ call file token, event ≠ .claimed call file token)
    (hstage : StageKeeps (((state.unlink name).setStage pid stage).note event) stage)
    (hunheld : ∀ file, state.names name = some file → ∀ other call,
      (state.stages other).claims ≠ some (call, file))
    (hended : ∀ call file token, .claimed call file token ∈ state.history → state.names name =
      some file → Ended (state.history ++ [event]) call file) :
    TokensSound (((state.unlink name).setStage pid stage).note event) := by
  refine h.noted hfiles (ClaimState.note_history ..) hgrants (fun other => ?_)
    (fun _ => Nat.le_refl _) (fun call file token hmem hin => ?_)
  · refine stageKeeps_update hstage (fun other _ => ?_) other
    refine (h.stages other).mono (fun _ hmem => mem_note.mpr (.inl hmem))
      (fun second third hother => ⟨?_, rfl, tokensOf_note hevent _⟩)
    refine update_of_ne ?_ ..
    rintro rfl
    exact hunheld third ((h.stages other).inPlace second third hother) other second hother
  · by_cases hname : call.stem = name
    · rw [hname] at hin
      exact .inr (hended call file token hmem hin)
    · exact .inl ((update_of_ne hname ..).trans hin)

theorem TokensSound.unlinkAbandoned
    (habandoned : ∀ file, state.names name = some file → Abandoned state file) :
    TokensSound (state.unlink name) := by
  refine h.silent (h.files.unlink name) rfl (fun other => ?_) (fun _ => Nat.le_refl _)
    (fun call file token hmem hin => ?_)
  · refine (h.stages other).mono (fun _ hmem => hmem) (fun second third hother => ⟨?_, rfl, rfl⟩)
    refine update_of_ne ?_ ..
    rintro rfl
    exact (habandoned third ((h.stages other).inPlace second third hother)).2 other second hother
  · refine (update_of_ne ?_ ..).trans hin
    rintro rfl
    exact (habandoned file hin).1 call token hmem

end

theorem FilesSound.unheld_of_claimed (h : FilesSound state)
    (hmem : .claimed call file token ∈ state.history) (other : Nat) (second : ClaimCall) :
    (state.stages other).claims ≠ some (second, file) :=
  fun hclaims => ((h.stages other).claiming second file hclaims).2.2 call token hmem

section

variable (h : TokensSound state)
include h

theorem TokensSound.released (hstage : state.stages pid = .releasing call file)
    (hname : state.names call.stem = none ∨ state.names call.stem = some file) :
    TokensSound (((state.unlink call.stem).setStage pid .idle).note (.released call file)) := by
  obtain ⟨token, hmem⟩ := (h.stages pid).releasing call file hstage
  have hsame : ∀ third, state.names call.stem = some third → third = file := by
    intro third hthird
    rw [hthird] at hname
    simpa using hname
  refine h.unlinked (h.files.released hstage) ⟨by simp, by simp, by simp, by simp⟩ (by simp)
    stageKeeps_idle (fun third hthird => ?_) (fun holder third second hheld hthird => ?_)
  · rw [hsame third hthird]
    exact h.files.unheld_of_claimed hmem
  · obtain rfl := hsame third hthird
    have hholder := h.files.createdOnce holder call third (h.files.claimedCreated _ _ _ hheld)
      (h.files.claimedCreated _ _ _ hmem)
    rw [hholder]
    exact .inl (mem_append_right _ mem_cons_self)

theorem TokensSound.reaped {call : ReapCall} {read : Option (Nat × ClaimText)} {names : List String}
    (hacts : state.names name = none ∨ state.readFile name = read)
    (habandoned : ∀ file, unreadable read = some file → state.names name = some file →
      Abandoned state file) :
    TokensSound (noteReaped ((state.unlink name).setStage pid (nextName call names)) read) := by
  have hread : ∀ file, state.names name = some file → read = some (file, state.texts file) := by
    intro file hname
    obtain hnone | hsame := hacts
    · rw [hnone] at hname
      cases hname
    · rw [← hsame, ClaimState.readFile, hname]
      rfl
  have hfiles : FilesSound
      (noteReaped ((state.unlink name).setStage pid (nextName call names)) read) :=
    ((h.files.unlink name).setStage (stageSound_nextName call names)
      (.inl (nextName_claims call names))).noteReaped read
  unfold Awareness.noteReaped at hfiles ⊢
  split at hfiles
  next found info =>
    have hsame : ∀ file, state.names name = some file → file = found ∧ state.texts file = .record info := by
      intro file hname
      have htext := hread file hname
      simpa [eq_comm] using htext
    refine h.unlinked hfiles ⟨by simp, by simp, by simp, by simp⟩ (by simp)
      (stageKeeps_nextName call names) (fun file hname other second hclaims => ?_)
      (fun holder file token hmem hname => ?_)
    · have hempty := ((h.files.stages other).claiming second file hclaims).2.1
      rw [(hsame file hname).2] at hempty
      cases hempty
    · obtain ⟨rfl, -⟩ := hsame file hname
      exact .inr ⟨info, mem_append_right _ mem_cons_self⟩
  next hnorecord =>
    refine TokensSound.goOn (h.unlinkAbandoned fun file hname => habandoned file ?_ hname) call names
    have htext := hread file hname
    rw [htext]
    cases hcase : state.texts file with
    | record info => exact absurd htext (by rw [hcase]; exact hnorecord file info)
    | _ => rfl

theorem TokensSound.claimed (hstage : state.stages pid = .fenced call file token)
    (hfiles : FilesSound (((state.setText file text).setStage pid .idle).note
      (.claimed call file token))) :
    TokensSound (((state.setText file text).setStage pid .idle).note (.claimed call file token)) := by
  have hclaims : (state.stages pid).claims = some (call, file) := by rw [hstage]; rfl
  obtain ⟨hcreated, -, hunclaimed⟩ := (h.files.stages pid).claiming call file hclaims
  have hnoted := h.noteClaimed hstage
    ((h.files.idle pid).noteClaimed token hcreated hunclaimed (h.files.unheld hclaims))
  exact hnoted.setText hfiles

theorem TokensSound.releasing (hown : OwnStem state call)
    (hread : readOwn state call = some (file, info)) : StageKeeps state (.releasing call file) := by
  refine ⟨by simp [ClaimStage.claims], by simp, by simp, fun second third hsame => ?_⟩
  cases hsame
  obtain ⟨holder, hmem, hclaimant, hstem⟩ := h.files.readOwn_holder hread
  have htask := hown holder file (h.files.claimedCreated _ _ _ hmem) hstem
  obtain rfl : holder = call := by
    cases holder
    cases call
    simp_all
  exact ⟨info.fencingToken, hmem⟩

theorem TokensSound.step (hkeeps : KeepsTokens state label)
    (hstep : claimStep env state label = some next) : TokensSound next := by
  have hfiles : FilesSound next := h.files.step hkeeps.1 hstep
  have hmove := claimStep_move hstep
  obtain ⟨hacts, hkeeps⟩ := hkeeps
  unfold actsOnRead at hacts
  generalize label.action = action at hmove hacts hkeeps
  generalize label.pid = pid at hmove hacts hkeeps
  cases hmove with
  | refused hstage hname =>
    exact h.refused hkeeps hname
  | created hstage hname =>
    exact h.created hkeeps hname
  | fenceRead hstage => exact h.fenceRead hstage hfiles
  | fenced hstage => exact h.fenced hstage hfiles
  | fenceTruncated hstage =>
    rw [hstage] at hkeeps
    exact (h.setEmpty hkeeps).idle pid
  | claimed hstage => exact h.claimed hstage hfiles
  | renewing hstage hread => exact h.setStage hfiles (StageKeeps.of_quiet rfl (by simp))
  | notRenewing hstage => exact h
  | renewed hstage | renewTruncated hstage =>
    rw [hstage] at hacts
    rw [writeText_of_named (of_decide_eq_true hacts)] at hfiles ⊢
    exact (h.idle pid).setText hfiles
  | releasing hstage hread =>
    exact h.setStage hfiles (h.releasing hkeeps hread)
  | notReleasing hstage => exact h
  | released hstage =>
    rw [hstage] at hacts
    exact h.released hstage (of_decide_eq_true hacts)
  | scanned hstage | spared hstage => exact h.goOn _ _
  | doomed hstage hspares => exact h.setStage hfiles (StageKeeps.of_quiet rfl (by simp))
  | reaped hstage =>
    rw [hstage] at hacts hkeeps
    exact h.reaped (of_decide_eq_true hacts) hkeeps
  | died => exact h.idle pid

end

/-- While every step keeps to what it read and an unreadable file is reaped only from the dead, the
tokens returned for a task ascend, of two claims of a task one has ended, and a task is refused over
a file of its own only. -/
theorem tokens_hold {labels : List ClaimLabel}
    (h : Run (claimStep env) KeepsTokens .initial labels state) :
    (∀ taskId, (tokensOf taskId state.history).Pairwise (· < ·)) ∧
      (∀ call other file second token later, .claimed call file token ∈ state.history →
        .claimed other second later ∈ state.history → call.taskId = other.taskId → token ≠ later →
        Ended state.history call file ∨ Ended state.history other second) ∧
      ∀ call file, .refused call file ∈ state.history →
        ∃ other, .created other file ∈ state.history ∧ other.taskId = call.taskId := by
  have hsound : TokensSound state :=
    h.invariant tokensSound_initial fun _ _ _ hsound hkeeps hstep => hsound.step hkeeps hstep
  refine ⟨hsound.ascending, ?_, hsound.refusedOwn⟩
  intro call other file second token later hcall hother htask hne
  obtain hin | hended := hsound.held call file token hcall
  · obtain hin' | hended := hsound.held other second later hother
    · rw [ClaimCall.stem, ← htask] at hin'
      obtain rfl : file = second := Option.some.inj (hin.symm.trans hin')
      exact absurd (hsound.files.claimedOnce call other file token later hcall hother) hne
    · exact Or.inr hended
  · exact Or.inl hended

end

def ownStem (state : ClaimState) (call : ClaimCall) : Bool :=
  state.history.all fun
    | .created other _ => decide (other.stem = call.stem → other.taskId = call.taskId)
    | _ => true

theorem ownStem_sound {state : ClaimState} {call : ClaimCall} (h : ownStem state call = true) :
    OwnStem state call := by
  intro other file hmem
  exact of_decide_eq_true (all_eq_true.mp h _ hmem)

def keepsTokens (state : ClaimState) (label : ClaimLabel) : Bool :=
  actsOnRead state label &&
    match state.stages label.pid, label.action with
    | _, .startClaim call => ownStem state call
    | _, .startRelease call => ownStem state call
    | .unlinking _ read _ _, .reapUnlink => (unreadable read).isNone
    | .fenceRead call _ _, .dieTruncated => decide (state.fenceNumber call.stem = 0)
    | _, _ => true

theorem keepsTokens_sound (state : ClaimState) (label : ClaimLabel)
    (h : keepsTokens state label = true) : KeepsTokens state label := by
  obtain ⟨hacts, h⟩ := Bool.and_eq_true_iff.mp h
  refine ⟨hacts, ?_⟩
  split at h
  · exact ownStem_sound h
  · exact ownStem_sound h
  next read name names _ =>
    intro file hread
    rw [hread] at h
    cases h
  · exact of_decide_eq_true h
  · trivial

theorem handedOver_tokens :
    (∀ taskId, (tokensOf taskId (stateAfter handedOver).history).Pairwise (· < ·)) ∧
      (∀ call other file second token later,
        .claimed call file token ∈ (stateAfter handedOver).history →
        .claimed other second later ∈ (stateAfter handedOver).history →
        call.taskId = other.taskId → token ≠ later →
        Ended (stateAfter handedOver).history call file ∨
          Ended (stateAfter handedOver).history other second) ∧
      ∀ call file, .refused call file ∈ (stateAfter handedOver).history →
        ∃ other, .created other file ∈ (stateAfter handedOver).history ∧
          other.taskId = call.taskId := by
  have hrun : Run (claimStep sampleEnv) KeepsTokens .initial handedOver (stateAfter handedOver) :=
    Run.of_check_isSome keepsTokens_sound (by decide +kernel)
  exact tokens_hold hrun

/-- The reaper unlinks the file that A has created and not written yet; B creates its own, and both
read the fence before either writes it. -/
def reapedUnwritten : List ClaimLabel :=
  [⟨0, .startClaim ⟨"t", "A"⟩⟩] ++ reapLabels 1 0 ["t"] ++
    [⟨2, .startClaim ⟨"t", "B"⟩⟩, ⟨0, .readFence⟩, ⟨2, .readFence⟩, ⟨0, .writeFence⟩,
      ⟨2, .writeFence⟩, ⟨0, .writeClaim 0⟩, ⟨2, .writeClaim 0⟩]

/-- A and B both hold the task, with the same token. -/
theorem reaped_unwritten_same_token :
    (stateAfter reapedUnwritten).history =
        [.created ⟨"t", "A"⟩ 0, .created ⟨"t", "B"⟩ 1, .issued "t" 1, .issued "t" 1,
          .claimed ⟨"t", "A"⟩ 0 1, .claimed ⟨"t", "B"⟩ 1 1] ∧
      ¬ (tokensOf "t" (stateAfter reapedUnwritten).history).Pairwise (· < ·) := by decide

end Flowness.Awareness
