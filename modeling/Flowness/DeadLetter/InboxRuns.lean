import Flowness.DeadLetter.Inbox
import Flowness.Library.Transition

/-!
Runs of the dead-letter inbox, with a crash possible between any two file writes: one open entry for
each object and reason, terminal entries that stay as they are, and no redispatch at the cap.
-/

namespace Flowness.DeadLetter

open List Library Dict

inductive InboxCall where
  | enqueue (call : EnqueueCall)
  | startTriage (entryId triageActor : String) (now : Int)
  | decideRedispatch (entryId triageActor : String) (now : Int)
  | decideRetire (entryId triageActor : String) (retireReason : RetireReason) (now : Int)
  | decideEscalate (entryId triageActor : String) (escalationEventId : Option String) (now : Int)
  | redispatchFailed (entryId failureSummary : String) (now : Int)
  | applyEscalationAnswer (entryId : String) (reflowEventId : Option String) (now : Int)
  | ageOut (entryId : String) (now : Int)
  | sweepAgedOut (ttlSeconds now : Int)

/-- One call: the cap in force, the event id each entry's event draws, and the number of writes after
which the process dies, if it does. A log that refuses an event ends a call likewise. -/
structure InboxStep where
  call : InboxCall
  cap : Nat
  eventIds : String → String
  crash : Option Nat := none

inductive Outcome where
  | entry (entry : DeadLetterEntry)
  | swept (entryIds : List String)
deriving DecidableEq

section Steps

variable (env : InboxEnv)

def InboxStep.perform (inbox : Inbox) (step : InboxStep) : Except String (List InboxWrite × Outcome) :=
  let ofEntry := Except.map fun result : List InboxWrite × DeadLetterEntry =>
    (result.1, Outcome.entry result.2)
  match step.call with
  | .enqueue call => ofEntry (.ok (enqueue env inbox call (step.eventIds call.entryId)))
  | .startTriage entryId triageActor now =>
    ofEntry (startTriage env inbox entryId triageActor now (step.eventIds entryId))
  | .decideRedispatch entryId triageActor now =>
    ofEntry (decideRedispatch env inbox step.cap entryId triageActor now (step.eventIds entryId))
  | .decideRetire entryId triageActor retireReason now =>
    ofEntry (decideRetire env inbox entryId triageActor retireReason now (step.eventIds entryId))
  | .decideEscalate entryId triageActor escalationEventId now =>
    ofEntry (decideEscalate env inbox entryId triageActor escalationEventId now (step.eventIds entryId))
  | .redispatchFailed entryId failureSummary now =>
    ofEntry (redispatchFailed env inbox step.cap entryId failureSummary now (step.eventIds entryId))
  | .applyEscalationAnswer entryId reflowEventId now =>
    ofEntry (applyEscalationAnswer env inbox entryId reflowEventId now (step.eventIds entryId))
  | .ageOut entryId now => ofEntry (ageOut env inbox entryId now (step.eventIds entryId))
  | .sweepAgedOut ttlSeconds now =>
    let swept := sweepAgedOut env inbox ttlSeconds now step.eventIds
    .ok (swept.1, .swept swept.2)

def InboxStep.fresh (inbox : Inbox) (step : InboxStep) : Bool :=
  match step.call with
  | .enqueue call => !Dict.contains inbox.entries call.entryId
  | _ => true

def InboxStep.next (inbox : Inbox) (step : InboxStep) : Option Inbox :=
  if step.fresh inbox then
    match step.perform env inbox, step.crash with
    | .error _, none => some inbox
    | .error _, some _ => none
    | .ok (writes, _), none => some (inbox.applyAll writes)
    | .ok (writes, _), some done =>
      if done < writes.length then some (inbox.applyAll (writes.take done)) else none
  else none

def InboxStep.outcome (inbox : Inbox) (step : InboxStep) : Option Outcome :=
  match step.perform env inbox, step.crash with
  | .ok (_, outcome), none => some outcome
  | _, _ => none

/-- Every object has at most one open entry for each reason. -/
def OneOpen (inbox : Inbox) : Prop :=
  ∀ first second left right, Dict.get inbox.entries first = some left →
    Dict.get inbox.entries second = some right →
      left.isTerminal = false → right.isTerminal = false →
        left.sourceObjectRef = right.sourceObjectRef → left.entryReason = right.entryReason →
          first = second

/-- Terminal entries stay as they are, and what is redispatched is below the cap. -/
structure Advances (cap : Nat) (inbox next : Inbox) : Prop where
  frozen : ∀ entryId entry, Dict.get inbox.entries entryId = some entry → entry.isTerminal = true →
    Dict.get next.entries entryId = some entry
  capped : ∀ entryId entry, Dict.get next.entries entryId = some entry →
    entry.triageStatus = .redispatched →
      Dict.get inbox.entries entryId = some entry ∨ entry.reentryCount < cap

/-- An enqueue that returns gives an entry for the object and the reason it was asked for. -/
def Answers (inbox : Inbox) (step : InboxStep) : Prop :=
  ∀ call entry, step.call = .enqueue call → step.outcome env inbox = some (.entry entry) →
    entry.sourceObjectRef = call.sourceObjectRef ∧ entry.entryReason = call.entryReason

/-- A step on which the inbox keeps its laws: an enqueue finds no open entry of another object under
its key, and does not die between the entry file and the key file of a new entry. -/
structure Permitted (inbox : Inbox) (step : InboxStep) : Prop where
  apart : ∀ call entryId entry, step.call = .enqueue call →
    Dict.get inbox.entries entryId = some entry → entry.isTerminal = false →
      entry.key env = activeKey env call.sourceObjectRef call.entryReason →
        entry.sourceObjectRef = call.sourceObjectRef ∧ entry.entryReason = call.entryReason
  whole : ∀ call, step.call = .enqueue call → step.crash ≠ some 2

structure Sound (inbox : Inbox) : Prop where
  nodup : (Dict.keys inbox.entries).Nodup
  own : ∀ entryId entry, Dict.get inbox.entries entryId = some entry → entry.entryId = entryId
  keyed : ∀ entryId entry, Dict.get inbox.entries entryId = some entry → entry.isTerminal = false →
    Dict.get inbox.active (entry.key env) = some entryId
  pointed : ∀ key entryId, Dict.get inbox.active key = some entryId →
    ∃ entry, Dict.get inbox.entries entryId = some entry ∧ entry.key env = key

end Steps

variable {env : InboxEnv} {inbox next : Inbox} {cap : Nat}

theorem Sound.oneOpen (h : Sound env inbox) : OneOpen inbox := by
  intro first second left right hleft hright hopenLeft hopenRight href hreason
  have hkey : left.key env = right.key env := by
    unfold DeadLetterEntry.key
    rw [href, hreason]
  have hfirst := h.keyed first left hleft hopenLeft
  rw [hkey, h.keyed second right hright hopenRight] at hfirst
  exact (Option.some.inj hfirst).symm

theorem Advances.refl (cap : Nat) (inbox : Inbox) : Advances cap inbox inbox :=
  ⟨fun _ _ h _ => h, fun _ _ h _ => .inl h⟩

theorem Advances.trans (h₁ : Advances cap inbox middle) (h₂ : Advances cap middle next) :
    Advances cap inbox next := by
  refine ⟨fun entryId entry hget hend => h₂.frozen entryId entry (h₁.frozen entryId entry hget hend) hend,
    fun entryId entry hget hstatus => ?_⟩
  rcases h₂.capped entryId entry hget hstatus with hmiddle | hlow
  · exact h₁.capped entryId entry hmiddle hstatus
  · exact .inr hlow

theorem Advances.congr (h : Advances cap inbox next) (hinbox : inbox'.entries = inbox.entries)
    (hnext : next'.entries = next.entries) : Advances cap inbox' next' := by
  refine ⟨fun entryId entry hget => ?_, fun entryId entry hget => ?_⟩
  · rw [hinbox] at hget
    rw [hnext]
    exact h.frozen entryId entry hget
  · rw [hnext] at hget
    rw [hinbox]
    exact h.capped entryId entry hget

structure Moves (cap : Nat) (before after : DeadLetterEntry) : Prop where
  entryId : after.entryId = before.entryId
  ref : after.sourceObjectRef = before.sourceObjectRef
  reason : after.entryReason = before.entryReason
  wasOpen : before.isTerminal = false
  capped : after.triageStatus = .redispatched → after.reentryCount < cap

theorem Moves.key {before after : DeadLetterEntry} (h : Moves cap before after) :
    after.key env = before.key env := by
  unfold DeadLetterEntry.key
  rw [h.ref, h.reason]

variable {entry : DeadLetterEntry} {step : InboxStep} {event : LifecycleEvent}
  {result : List InboxWrite × DeadLetterEntry} {entryId eventId : String}

section Update

variable {before after : DeadLetterEntry}

theorem get_putEntry (entry : DeadLetterEntry) (entryId : String) :
    Dict.get (inbox.apply (.putEntry entry)).entries entryId =
      if entryId = entry.entryId then some entry else Dict.get inbox.entries entryId := by
  show Dict.get (Dict.set inbox.entries entry.entryId entry) entryId = _
  split
  next heq =>
    rw [heq, get_set_self]
  next hne =>
    exact get_set_of_ne _ _ hne

theorem advances_putEntry (hown : Dict.get inbox.entries before.entryId = some before)
    (h : Moves cap before after) : Advances cap inbox (inbox.apply (.putEntry after)) := by
  refine ⟨fun entryId entry hget hend => ?_, fun entryId entry hget hstatus => ?_⟩
  · rw [get_putEntry, if_neg, hget]
    rintro rfl
    rw [h.entryId, hown] at hget
    cases hget
    rw [h.wasOpen] at hend
    cases hend
  · rw [get_putEntry] at hget
    split at hget
    · cases hget
      exact .inr (h.capped hstatus)
    · exact .inl hget

section

variable (hsound : Sound env inbox)
include hsound

theorem sound_putEntry (hown : Dict.get inbox.entries before.entryId = some before)
    (h : Moves cap before after) : Sound env (inbox.apply (.putEntry after)) := by
  have hactive : (inbox.apply (.putEntry after)).active = inbox.active := rfl
  have hkey := hsound.keyed _ before hown h.wasOpen
  refine ⟨nodup_keys_set hsound.nodup _ _, fun entryId entry hget => ?_,
    fun entryId entry hget hopen => ?_, fun key entryId hget => ?_⟩
  · rw [get_putEntry] at hget
    split at hget
    next heq =>
      cases hget
      exact heq.symm
    · exact hsound.own entryId entry hget
  · rw [get_putEntry] at hget
    split at hget
    next heq =>
      cases hget
      rw [h.key, heq, h.entryId]
      exact hkey
    · exact hsound.keyed entryId entry hget hopen
  · obtain ⟨entry, hentry, hentryKey⟩ := hsound.pointed key entryId hget
    by_cases heq : entryId = after.entryId
    · refine ⟨after, by rw [get_putEntry, if_pos heq], ?_⟩
      rw [heq, h.entryId, hown] at hentry
      cases hentry
      rw [h.key, hentryKey]
    · exact ⟨entry, by rw [get_putEntry, if_neg heq, hentry], hentryKey⟩

theorem sound_putKey (hget : Dict.get inbox.entries after.entryId = some after)
    (hopen : after.isTerminal = false) :
    inbox.apply (.putKey (after.key env) after.entryId) = inbox := by
  show { inbox with active := Dict.set inbox.active (after.key env) after.entryId } = inbox
  rw [set_of_get (hsound.keyed _ after hget hopen)]

theorem sound_dropKey (hget : Dict.get inbox.entries after.entryId = some after)
    (hend : after.isTerminal = true)
    (hkey : Dict.get inbox.active (after.key env) = some after.entryId) :
    Sound env (inbox.apply (.dropKey (after.key env))) := by
  have hentries : (inbox.apply (.dropKey (after.key env))).entries = inbox.entries := rfl
  have hactive : ∀ key, key ≠ after.key env →
      Dict.get (inbox.apply (.dropKey (after.key env))).active key = Dict.get inbox.active key :=
    fun key hne => get_erase_of_ne inbox.active hne
  refine ⟨hsound.nodup, hsound.own, fun entryId entry hentry hopen => ?_, fun key entryId hpoint => ?_⟩
  · have hpoint := hsound.keyed entryId entry hentry hopen
    rw [hactive _ (fun heq => ?_)]
    · exact hpoint
    · rw [heq, hkey] at hpoint
      cases hpoint
      rw [hentries, hget] at hentry
      cases hentry
      rw [hend] at hopen
      cases hopen
  · by_cases heq : key = after.key env
    · rw [heq] at hpoint
      have hnone : Dict.get (inbox.apply (.dropKey (after.key env))).active (after.key env) = none :=
        get_erase_self inbox.active (after.key env)
      rw [hnone] at hpoint
      cases hpoint
    · rw [hactive key heq] at hpoint
      exact hsound.pointed key entryId hpoint

theorem record_prefix (hown : Dict.get inbox.entries before.entryId = some before)
    (h : Moves cap before { event.entry with lastEventId := some eventId }) (done : Nat) :
    Sound env (inbox.applyAll ((record env event eventId).take done)) ∧
      Advances cap inbox (inbox.applyAll ((record env event eventId).take done)) ∧
      ∀ entryId, entryId ≠ before.entryId →
        Dict.get (inbox.applyAll ((record env event eventId).take done)).entries entryId =
          Dict.get inbox.entries entryId := by
  let after : DeadLetterEntry := { event.entry with lastEventId := some eventId }
  let emitted := inbox.apply (.emit event)
  let put := emitted.apply (.putEntry after)
  have hemitted : Sound env emitted := ⟨hsound.nodup, hsound.own, hsound.keyed, hsound.pointed⟩
  have hownEmitted : Dict.get emitted.entries before.entryId = some before := hown
  have hput : Sound env put := sound_putEntry hemitted hownEmitted h
  have hadvances : Advances cap inbox put := (advances_putEntry hownEmitted h).congr rfl rfl
  have hother : ∀ entryId, entryId ≠ before.entryId →
      Dict.get put.entries entryId = Dict.get inbox.entries entryId := by
    intro entryId hne
    rw [get_putEntry, if_neg (fun heq => hne (heq.trans h.entryId))]
    rfl
  have hafter : Dict.get put.entries after.entryId = some after := by
    rw [get_putEntry, if_pos rfl]
  match done with
  | 0 => exact ⟨hsound, Advances.refl cap inbox, fun _ _ => rfl⟩
  | 1 => exact ⟨hemitted, (Advances.refl cap inbox).congr rfl rfl, fun _ _ => rfl⟩
  | 2 => exact ⟨hput, hadvances, hother⟩
  | n + 3 =>
    have hfull : inbox.applyAll ((record env event eventId).take (n + 3)) =
        put.apply (if after.isTerminal then .dropKey (after.key env)
          else .putKey (after.key env) after.entryId) := by
      rw [take_of_length_le (by simp [record, writeEntry])]
      rfl
    rw [hfull]
    cases hend : after.isTerminal with
    | false =>
      rw [if_neg (by simp), sound_putKey hput hafter hend]
      exact ⟨hput, hadvances, hother⟩
    | true =>
      have hkey : Dict.get put.active (after.key env) = some after.entryId := by
        rw [h.key, h.entryId]
        exact hsound.keyed _ before hown h.wasOpen
      exact ⟨sound_dropKey hput hafter hend hkey, hadvances.congr rfl rfl, hother⟩

end

end Update

structure Update where
  before : DeadLetterEntry
  event : LifecycleEvent
  eventId : String

def Update.writes (env : InboxEnv) (update : Update) : List InboxWrite :=
  record env update.event update.eventId

structure Update.Valid (cap : Nat) (inbox : Inbox) (update : Update) : Prop where
  own : Dict.get inbox.entries update.before.entryId = some update.before
  moves : Moves cap update.before { update.event.entry with lastEventId := some update.eventId }

theorem updates_prefix {updates : List Update} (hsound : Sound env inbox)
    (hvalid : ∀ update ∈ updates, update.Valid cap inbox)
    (hnodup : (updates.map fun update => update.before.entryId).Nodup) (done : Nat) :
    Sound env (inbox.applyAll ((updates.flatMap (Update.writes env)).take done)) ∧
      Advances cap inbox (inbox.applyAll ((updates.flatMap (Update.writes env)).take done)) := by
  induction updates generalizing inbox done with
  | nil => exact ⟨by simpa [Inbox.applyAll] using hsound,
      by simpa [Inbox.applyAll] using Advances.refl cap inbox⟩
  | cons update updates ih =>
    have hupdate := hvalid update mem_cons_self
    obtain ⟨hfirst, hadvances, hother⟩ := record_prefix hsound hupdate.own hupdate.moves done
    have hsplit : inbox.applyAll (((update :: updates).flatMap (Update.writes env)).take done) =
        (inbox.applyAll ((update.writes env).take done)).applyAll
          ((updates.flatMap (Update.writes env)).take (done - (update.writes env).length)) := by
      rw [flatMap_cons, take_append, Inbox.applyAll, foldl_append]
      rfl
    rw [hsplit]
    rw [map_cons, nodup_cons] at hnodup
    have hrest : ∀ other ∈ updates,
        other.Valid cap (inbox.applyAll ((update.writes env).take done)) := by
      intro other hmem
      have hvalidOther := hvalid other (mem_cons_of_mem _ hmem)
      have hne : other.before.entryId ≠ update.before.entryId :=
        fun heq => hnodup.1 (heq ▸ mem_map.mpr ⟨other, hmem, rfl⟩)
      exact ⟨(hother _ hne).trans hvalidOther.own, hvalidOther.moves⟩
    obtain ⟨hsound', hadvances'⟩ := ih hfirst hrest hnodup.2 (done - (update.writes env).length)
    exact ⟨hsound', hadvances.trans hadvances'⟩

theorem created_prefix (hsound : Sound env inbox)
    (hfresh : Dict.get inbox.entries event.entry.entryId = none)
    (hstatus : event.entry.triageStatus = .enqueued)
    (hfree : activeEntryFor env inbox event.entry.sourceObjectRef event.entry.entryReason = none)
    (hdone : done ≠ 2) : Sound env (inbox.applyAll ((record env event eventId).take done)) ∧
      Advances cap inbox (inbox.applyAll ((record env event eventId).take done)) := by
  let entry : DeadLetterEntry := { event.entry with lastEventId := some eventId }
  have hopen : entry.isTerminal = false := by
    show event.entry.triageStatus.isTerminal = false
    rw [hstatus]
    rfl
  match done, hdone with
  | 0, _ => exact ⟨hsound, Advances.refl cap inbox⟩
  | 1, _ =>
    exact ⟨⟨hsound.nodup, hsound.own, hsound.keyed, hsound.pointed⟩,
      (Advances.refl cap inbox).congr rfl rfl⟩
  | n + 3, _ =>
    have hfull : inbox.applyAll ((record env event eventId).take (n + 3)) =
        { entries := Dict.set inbox.entries entry.entryId entry
          active := Dict.set inbox.active (entry.key env) entry.entryId
          events := inbox.events ++ [event] } := by
      rw [take_of_length_le (by simp [record, writeEntry])]
      unfold record writeEntry
      rw [if_neg (by simpa [entry] using hopen)]
      rfl
    rw [hfull]
    -- No open entry has the key, or it would be the active entry of the object.
    have hunheld : ∀ entryId other, Dict.get inbox.entries entryId = some other →
        other.isTerminal = false → other.key env ≠ entry.key env := by
      intro entryId other hget hotherOpen heq
      have hkey := hsound.keyed entryId other hget hotherOpen
      rw [heq] at hkey
      unfold activeEntryFor at hfree
      rw [show Dict.get inbox.active (activeKey env event.entry.sourceObjectRef event.entry.entryReason) =
        some entryId from hkey, Option.bind_some, hget] at hfree
      simp [hotherOpen] at hfree
    have hget : ∀ entryId, Dict.get (Dict.set inbox.entries entry.entryId entry) entryId =
        if entryId = entry.entryId then some entry else Dict.get inbox.entries entryId :=
      fun entryId => get_putEntry entry entryId
    have hpresent : ∀ entryId other, Dict.get inbox.entries entryId = some other →
        entryId ≠ entry.entryId := by
      rintro entryId other hother rfl
      rw [show Dict.get inbox.entries entry.entryId = none from hfresh] at hother
      cases hother
    constructor
    · refine ⟨nodup_keys_set hsound.nodup _ _, fun entryId other hother => ?_,
        fun entryId other hother hotherOpen => ?_, fun key entryId hpoint => ?_⟩
      · rw [hget] at hother
        split at hother
        next heq =>
          cases hother
          exact heq.symm
        · exact hsound.own entryId other hother
      · rw [hget] at hother
        split at hother
        next heq =>
          cases hother
          rw [get_set_self, heq]
        · rw [get_set_of_ne _ _ (hunheld entryId other hother hotherOpen)]
          exact hsound.keyed entryId other hother hotherOpen
      · by_cases hkey : key = entry.key env
        · rw [hkey, get_set_self] at hpoint
          cases hpoint
          exact ⟨entry, by rw [hget, if_pos rfl], hkey.symm⟩
        · rw [get_set_of_ne _ _ hkey] at hpoint
          obtain ⟨other, hother, hotherKey⟩ := hsound.pointed key entryId hpoint
          exact ⟨other, by rw [hget, if_neg (hpresent entryId other hother), hother], hotherKey⟩
    · refine ⟨fun entryId other hother _ => ?_, fun entryId other hother hredispatched => ?_⟩
      · show Dict.get (Dict.set inbox.entries entry.entryId entry) entryId = some other
        rw [hget, if_neg (hpresent entryId other hother), hother]
      · have hstored : Dict.get (Dict.set inbox.entries entry.entryId entry) entryId = some other := hother
        rw [hget] at hstored
        split at hstored
        · cases hstored
          rw [show entry.triageStatus = .enqueued from hstatus] at hredispatched
          cases hredispatched
        · exact .inl hstored

theorem requireEntry_ok (h : requireEntry inbox entryId allowed = .ok entry) :
    Dict.get inbox.entries entryId = some entry ∧ entry.triageStatus ∈ allowed := by
  unfold requireEntry at h
  split at h
  · cases h
  next found hget =>
    split at h
    next hmem =>
      cases h
      exact ⟨hget, hmem⟩
    · cases h

def Updates (env : InboxEnv) (cap : Nat) (inbox : Inbox) (writes : List InboxWrite) : Prop :=
  ∃ updates : List Update, writes = updates.flatMap (Update.writes env) ∧
    (∀ update ∈ updates, update.Valid cap inbox) ∧
      (updates.map fun update => update.before.entryId).Nodup

theorem Updates.one (hsound : Sound env inbox) {before : DeadLetterEntry}
    (hget : Dict.get inbox.entries entryId = some before)
    (hmoves : Moves cap before { event.entry with lastEventId := some eventId }) :
    Updates env cap inbox (transition env event eventId).1 := by
  refine ⟨[{ before, event, eventId }], by simp [Update.writes, transition], ?_, by simp⟩
  intro update hupdate
  rw [mem_singleton.mp hupdate]
  exact ⟨(hsound.own entryId before hget).symm ▸ hget, hmoves⟩

/-- A transition that changes the entry's state but to redispatched, and not what it is about. -/
structure Keeps (event : DeadLetterEntry → LifecycleEvent) : Prop where
  entryId : ∀ entry, (event entry).entry.entryId = entry.entryId
  ref : ∀ entry, (event entry).entry.sourceObjectRef = entry.sourceObjectRef
  reason : ∀ entry, (event entry).entry.entryReason = entry.entryReason
  status : ∀ entry, (event entry).entry.triageStatus ≠ .redispatched

theorem Updates.of_map (hsound : Sound env inbox)
    (hallowed : ∀ state ∈ allowed, state.isTerminal = false)
    {event : DeadLetterEntry → LifecycleEvent} (hkeeps : Keeps event)
    (h : (requireEntry inbox entryId allowed).map
      (fun entry => transition env (event entry) eventId) = .ok result) :
    Updates env cap inbox result.1 := by
  obtain ⟨entry, hentry, rfl⟩ := map_ok.mp h
  obtain ⟨hget, hstate⟩ := requireEntry_ok hentry
  refine Updates.one hsound hget ⟨hkeeps.entryId entry, hkeeps.ref entry, hkeeps.reason entry,
    hallowed _ hstate, fun hstatus => absurd hstatus (hkeeps.status entry)⟩

theorem open_enqueued : ∀ state ∈ [DeadLetterState.enqueued], state.isTerminal = false := by decide

theorem open_underTriage : ∀ state ∈ [DeadLetterState.underTriage], state.isTerminal = false := by
  decide

theorem open_escalated : ∀ state ∈ [DeadLetterState.escalatedToOwner], state.isTerminal = false := by
  decide

theorem open_ageable : ∀ state ∈ ageableStates, state.isTerminal = false := by decide

theorem keeps_triageStarted (triageActor : String) (now : Int) : Keeps (triageStarted triageActor now) :=
  ⟨fun _ => rfl, fun _ => rfl, fun _ => rfl, fun _ h => by cases h⟩

theorem keeps_triageRetired (triageActor : String) (retireReason : RetireReason) (now : Int) :
    Keeps (triageRetired triageActor retireReason now) :=
  ⟨fun _ => rfl, fun _ => rfl, fun _ => rfl, fun _ h => by cases h⟩

theorem keeps_triageEscalated (triageActor : String) (escalationEventId : Option String) (now : Int) :
    Keeps (triageEscalated triageActor escalationEventId now) :=
  ⟨fun _ => rfl, fun _ => rfl, fun _ => rfl, fun _ h => by cases h⟩

theorem keeps_triageResumed (reflowEventId : Option String) (now : Int) :
    Keeps (triageResumed reflowEventId now) :=
  ⟨fun _ => rfl, fun _ => rfl, fun _ => rfl, fun _ h => by cases h⟩

theorem keeps_entryAgedOut (now : Int) : Keeps (entryAgedOut now) :=
  ⟨fun _ => rfl, fun _ => rfl, fun _ => rfl, fun _ h => by cases h⟩

section

variable (hsound : Sound env inbox)
include hsound

theorem decideRedispatch_updates
    (h : decideRedispatch env inbox cap entryId triageActor now eventId = .ok result) :
    Updates env cap inbox result.1 := by
  simp only [decideRedispatch, bind_ok, require_ok, exists_const] at h
  obtain ⟨entry, hentry, hcap, h⟩ := h
  cases h
  obtain ⟨hget, hstate⟩ := requireEntry_ok hentry
  refine Updates.one hsound hget ⟨rfl, rfl, rfl, open_underTriage _ hstate, fun _ => ?_⟩
  simpa [mustForceRetire] using hcap

theorem redispatchFailed_updates
    (h : redispatchFailed env inbox cap entryId failureSummary now eventId = .ok result) :
    Updates env cap inbox result.1 := by
  obtain ⟨entry, hentry, rfl⟩ := map_ok.mp h
  obtain ⟨hget, hstate⟩ := requireEntry_ok hentry
  dsimp only
  split
  all_goals
    refine Updates.one hsound hget ⟨rfl, rfl, rfl, open_underTriage _ hstate, fun hstatus => ?_⟩
    cases hstatus

theorem mem_openEntries (h : entry ∈ openEntries inbox) :
    Dict.get inbox.entries entry.entryId = some entry ∧ entry.isTerminal = false := by
  unfold openEntries at h
  rw [mem_insertionSort, mem_filter] at h
  obtain ⟨⟨entryId, other⟩, hmem, rfl⟩ := mem_map.mp h.1
  have hget := (mem_iff_get hsound.nodup).mp hmem
  rw [hsound.own entryId other hget]
  exact ⟨hget, by simpa using h.2⟩

theorem nodup_openEntries : ((openEntries inbox).map DeadLetterEntry.entryId).Nodup := by
  have hids : (inbox.entries.map Prod.snd).map DeadLetterEntry.entryId = Dict.keys inbox.entries := by
    rw [map_map]
    unfold Dict.keys
    refine map_congr_left fun entry hentry => ?_
    exact hsound.own entry.1 entry.2 ((mem_iff_get hsound.nodup).mp hentry)
  have hall : ((inbox.entries.map Prod.snd).map DeadLetterEntry.entryId).Nodup := hids ▸ hsound.nodup
  unfold openEntries
  refine ((perm_insertionSort _ _).map DeadLetterEntry.entryId).nodup_iff.mpr ?_
  exact hall.sublist (filter_sublist.map DeadLetterEntry.entryId)

theorem sweepAgedOut_updates (ttlSeconds now : Int) (eventIds : String → String) :
    Updates env cap inbox (sweepAgedOut env inbox ttlSeconds now eventIds).1 := by
  let update (entry : DeadLetterEntry) : Update :=
    { before := entry
      event := entryAgedOut now entry
      eventId := eventIds entry.entryId }
  refine ⟨(agedEntries inbox ttlSeconds now).map update, ?_, fun other hother => ?_, ?_⟩
  · rw [flatMap_map]
    rfl
  · obtain ⟨entry, hentry, rfl⟩ := mem_map.mp hother
    obtain ⟨hget, hopen⟩ := mem_openEntries hsound (mem_filter.mp hentry).1
    exact ⟨hget, rfl, rfl, rfl, hopen, fun hstatus => by cases hstatus⟩
  · rw [map_map]
    exact (nodup_openEntries hsound).sublist (filter_sublist.map DeadLetterEntry.entryId)

theorem perform_writes (h : step.perform env inbox = .ok (writes, outcome)) :
    (∃ call, step.call = .enqueue call ∧
      writes = (enqueue env inbox call (step.eventIds call.entryId)).1) ∨
      Updates env step.cap inbox writes := by
  have hmap : ∀ {result : Except String (List InboxWrite × DeadLetterEntry)},
      result.map (fun result => (result.1, Outcome.entry result.2)) = .ok (writes, outcome) →
        ∃ entry, result = .ok (writes, entry) := by
    intro result hresult
    cases result with
    | error message => cases hresult
    | ok result =>
      cases hresult
      exact ⟨result.2, rfl⟩
  unfold InboxStep.perform at h
  simp only at h
  cases hcall : step.call with
  | enqueue call =>
    rw [hcall] at h
    cases h
    exact .inl ⟨call, rfl, rfl⟩
  | startTriage entryId triageActor now =>
    rw [hcall] at h
    obtain ⟨entry, h⟩ := hmap h
    exact .inr (Updates.of_map hsound open_enqueued (keeps_triageStarted triageActor now) h)
  | decideRedispatch entryId triageActor now =>
    rw [hcall] at h
    obtain ⟨entry, h⟩ := hmap h
    exact .inr (decideRedispatch_updates hsound h)
  | decideRetire entryId triageActor retireReason now =>
    rw [hcall] at h
    obtain ⟨entry, h⟩ := hmap h
    exact .inr (Updates.of_map hsound open_underTriage (keeps_triageRetired triageActor retireReason now) h)
  | decideEscalate entryId triageActor escalationEventId now =>
    rw [hcall] at h
    obtain ⟨entry, h⟩ := hmap h
    exact .inr (Updates.of_map hsound open_underTriage
      (keeps_triageEscalated triageActor escalationEventId now) h)
  | redispatchFailed entryId failureSummary now =>
    rw [hcall] at h
    obtain ⟨entry, h⟩ := hmap h
    exact .inr (redispatchFailed_updates hsound h)
  | applyEscalationAnswer entryId reflowEventId now =>
    rw [hcall] at h
    obtain ⟨entry, h⟩ := hmap h
    exact .inr (Updates.of_map hsound open_escalated (keeps_triageResumed reflowEventId now) h)
  | ageOut entryId now =>
    rw [hcall] at h
    obtain ⟨entry, h⟩ := hmap h
    exact .inr (Updates.of_map hsound open_ageable (keeps_entryAgedOut now) h)
  | sweepAgedOut ttlSeconds now =>
    rw [hcall] at h
    cases h
    exact .inr (sweepAgedOut_updates hsound ttlSeconds now step.eventIds)

end

theorem next_cases (h : step.next env inbox = some next) :
    step.fresh inbox = true ∧ (next = inbox ∨ ∃ writes outcome done,
      step.perform env inbox = .ok (writes, outcome) ∧ next = inbox.applyAll (writes.take done) ∧
        (done = writes.length ∨ step.crash = some done)) := by
  unfold InboxStep.next at h
  split at h
  next hfresh =>
    refine ⟨hfresh, ?_⟩
    split at h
    · exact .inl (Option.some.inj h).symm
    · cases h
    next writes outcome hperform hcrash =>
      refine .inr ⟨writes, outcome, writes.length, hperform, ?_, .inl rfl⟩
      rw [take_length]
      exact (Option.some.inj h).symm
    next writes outcome done hperform hcrash =>
      split at h
      · exact .inr ⟨writes, outcome, done, hperform, (Option.some.inj h).symm, .inr hcrash⟩
      · cases h
  · cases h

theorem next_sound (hsound : Sound env inbox) (hpermitted : Permitted env inbox step)
    (h : step.next env inbox = some next) : Sound env next ∧ Advances step.cap inbox next := by
  obtain ⟨hfresh, rfl | ⟨writes, outcome, done, hperform, rfl, hdone⟩⟩ := next_cases h
  · exact ⟨hsound, Advances.refl _ _⟩
  · rcases perform_writes hsound hperform with ⟨call, hcall, hwrites⟩ | ⟨updates, rfl, hvalid, hnodup⟩
    · have hnew : Dict.get inbox.entries call.entryId = none := by
        unfold InboxStep.fresh at hfresh
        rw [hcall] at hfresh
        simpa [Dict.contains] using hfresh
      rw [enqueue] at hwrites
      cases hactive : activeEntryFor env inbox call.sourceObjectRef call.entryReason with
      | some existing =>
        rw [hactive] at hwrites
        rw [hwrites]
        simpa [Inbox.applyAll] using And.intro hsound (Advances.refl step.cap inbox)
      | none =>
        rw [hactive] at hwrites
        let event : LifecycleEvent :=
          { kind := .enqueued
            entry := call.entry (priorTerminalReentry inbox call.sourceObjectRef call.entryReason) }
        have hevent : writes = record env event (step.eventIds call.entryId) := hwrites
        have hfresh' : Dict.get inbox.entries event.entry.entryId = none := hnew
        have hstatus : event.entry.triageStatus = .enqueued := rfl
        have hfree : activeEntryFor env inbox event.entry.sourceObjectRef event.entry.entryReason = none :=
          hactive
        have hwhole : done ≠ 2 := by
          rcases hdone with rfl | hcrash
          · simp [hevent, record, writeEntry]
          · rintro rfl
            exact hpermitted.whole call hcall hcrash
        rw [hevent]
        exact created_prefix hsound hfresh' hstatus hfree hwhole
    · exact updates_prefix hsound hvalid hnodup done

theorem activeEntryFor_some (hsound : Sound env inbox)
    (h : activeEntryFor env inbox ref reason = some entry) :
    ∃ entryId, Dict.get inbox.entries entryId = some entry ∧ entry.isTerminal = false ∧
      entry.key env = activeKey env ref reason := by
  unfold activeEntryFor at h
  obtain ⟨hfound, hopen⟩ := Option.filter_eq_some_iff.mp h
  obtain ⟨entryId, hpoint, hget⟩ := Option.bind_eq_some_iff.mp hfound
  obtain ⟨other, hother, hkey⟩ := hsound.pointed _ _ hpoint
  rw [hget] at hother
  cases hother
  exact ⟨entryId, hget, by simpa using hopen, hkey⟩

theorem answers_of_permitted (hsound : Sound env inbox) (hpermitted : Permitted env inbox step) :
    Answers env inbox step := by
  intro call entry hcall houtcome
  have hreturned : entry = (enqueue env inbox call (step.eventIds call.entryId)).2 := by
    unfold InboxStep.outcome InboxStep.perform at houtcome
    simp only [hcall] at houtcome
    cases hcrash : step.crash with
    | some done =>
      rw [hcrash] at houtcome
      cases houtcome
    | none =>
      rw [hcrash] at houtcome
      cases houtcome
      rfl
  rw [enqueue] at hreturned
  cases hactive : activeEntryFor env inbox call.sourceObjectRef call.entryReason with
  | none =>
    rw [hactive] at hreturned
    rw [hreturned]
    exact ⟨rfl, rfl⟩
  | some existing =>
    rw [hactive] at hreturned
    obtain ⟨entryId, hget, hopen, hkey⟩ := activeEntryFor_some hsound hactive
    rw [hreturned]
    exact hpermitted.apart call entryId existing hcall hget hopen hkey

theorem Sound.empty : Sound env Inbox.empty :=
  ⟨nodup_nil, fun _ _ h => (by cases h), fun _ _ h => (by cases h), fun _ _ h => (by cases h)⟩

theorem run_sound
    (h : Run (fun inbox step => step.next env inbox) (Permitted env) Inbox.empty steps inbox) :
    Sound env inbox :=
  h.invariant Sound.empty fun _ _ _ hsound hpermitted hnext => (next_sound hsound hpermitted hnext).1

/-- In every run whose enqueues meet no open entry of another object under their key and do not die
before the key file of a new entry, the inbox keeps its laws. -/
theorem inbox_holds {steps : List InboxStep}
    (h : Run (fun inbox step => step.next env inbox) (Permitted env) Inbox.empty steps inbox) :
    OneOpen inbox ∧ ∀ step next, Permitted env inbox step → step.next env inbox = some next →
      Advances step.cap inbox next ∧ Answers env inbox step := by
  have hsound := run_sound h
  refine ⟨hsound.oneOpen, fun step next hpermitted hnext => ?_⟩
  exact ⟨(next_sound hsound hpermitted hnext).2, answers_of_permitted hsound hpermitted⟩

def asciiEnv : InboxEnv := { isAlnum := Char.isAlphanum }

def enqueueStep (ref entryId : String) : InboxStep :=
  { call := .enqueue
      { sourceObjectType := "task", sourceObjectRef := ref, entryReason := .circuitTripped
        originalTriggerEventId := none, now := 100, entryId }
    cap := 3
    eventIds := fun entryId => "evt-" ++ entryId }

def triageStep : InboxStep :=
  { call := .startTriage "dle-1" "triage" 110, cap := 3, eventIds := fun entryId => "evt-t-" ++ entryId }

/-- The inbox with one entry of `task-1`. -/
def oneEntry : Inbox := ((enqueueStep "task-1" "dle-1").next asciiEnv Inbox.empty).getD Inbox.empty

def oneTriaged : Inbox := (triageStep.next asciiEnv oneEntry).getD Inbox.empty

theorem oneEntry_next : (enqueueStep "task-1" "dle-1").next asciiEnv Inbox.empty = some oneEntry := by
  decide +kernel

theorem oneTriaged_holds :
    OneOpen oneTriaged ∧ ∀ step next, Permitted asciiEnv oneTriaged step →
      step.next asciiEnv oneTriaged = some next →
        Advances step.cap oneTriaged next ∧ Answers asciiEnv oneTriaged step := by
  have henqueue : Permitted asciiEnv Inbox.empty (enqueueStep "task-1" "dle-1") :=
    ⟨fun _ _ _ _ hget => (by cases hget), fun _ _ hcrash => (by cases hcrash)⟩
  have htriage : Permitted asciiEnv oneEntry triageStep :=
    ⟨fun _ _ _ hcall => (by cases hcall), fun _ hcall => (by cases hcall)⟩
  have hnext : triageStep.next asciiEnv oneEntry = some oneTriaged := by decide +kernel
  exact inbox_holds (Run.cons henqueue oneEntry_next (Run.cons htriage hnext Run.nil))

/-- The second of two objects whose references differ in a character that is no letter or digit is
given the entry of the first, and gets none of its own. -/
theorem slug_collision_misanswers :
    ¬ ∀ (env : InboxEnv) (steps : List InboxStep) (inbox : Inbox),
      Run (fun inbox step => step.next env inbox) (fun _ _ => True) Inbox.empty steps inbox →
        OneOpen inbox ∧ ∀ step next, step.next env inbox = some next →
          Advances step.cap inbox next ∧ Answers env inbox step := by
  intro h
  obtain ⟨-, hlaws⟩ := h asciiEnv _ oneEntry (Run.cons trivial oneEntry_next Run.nil)
  have hnext : (enqueueStep "task_1" "dle-2").next asciiEnv oneEntry = some oneEntry := by
    decide +kernel
  have href : (activeEntryFor asciiEnv oneEntry "task_1" .circuitTripped).map
      DeadLetterEntry.sourceObjectRef = some "task-1" := by decide +kernel
  obtain ⟨entry, hfound, hother⟩ := Option.map_eq_some_iff.mp href
  have houtcome : (enqueueStep "task_1" "dle-2").outcome asciiEnv oneEntry = some (.entry entry) := by
    simp [InboxStep.outcome, InboxStep.perform, enqueueStep, enqueue, hfound, Except.map]
  have hanswer := ((hlaws (enqueueStep "task_1" "dle-2") oneEntry hnext).2 _ entry rfl houtcome).1
  rw [hother] at hanswer
  exact absurd hanswer (by decide)

end Flowness.DeadLetter
