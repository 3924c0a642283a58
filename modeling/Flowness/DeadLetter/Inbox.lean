import Flowness.Library.Checked
import Mathlib.Data.List.Sort

/-!
The dead-letter inbox: its entries, one file each, the active keys that point at the entries still
open, and what each call of the state machine writes, file by file and in order.
-/

namespace Flowness.DeadLetter

open Library

inductive DeadLetterState where
  | enqueued
  | underTriage
  | escalatedToOwner
  | redispatched
  | retired
deriving DecidableEq, Repr

def DeadLetterState.value : DeadLetterState → String
  | .enqueued => "enqueued"
  | .underTriage => "under_triage"
  | .escalatedToOwner => "escalated_to_owner"
  | .redispatched => "redispatched"
  | .retired => "retired"

def DeadLetterState.isTerminal (state : DeadLetterState) : Bool :=
  state = .redispatched ∨ state = .retired

def ageableStates : List DeadLetterState := [.enqueued, .escalatedToOwner]

inductive EntryReason where
  | unroutable
  | structuralFailure
  | circuitTripped
deriving DecidableEq, Repr

def EntryReason.value : EntryReason → String
  | .unroutable => "unroutable"
  | .structuralFailure => "structural_failure"
  | .circuitTripped => "circuit_tripped"

inductive TriageAction where
  | redispatch
  | retire
  | escalate
deriving DecidableEq, Repr

inductive RetireReason where
  | manual
  | agedOut
  | reentryExhausted
  | deterministic
deriving DecidableEq, Repr

structure DeadLetterEntry where
  entryId : String
  sourceObjectType : String
  sourceObjectRef : String
  entryReason : EntryReason
  originalTriggerEventId : Option String
  enteredAt : Int
  triageStatus : DeadLetterState
  reentryCount : Nat
  isReturning : Bool
  triageAction : Option TriageAction := none
  triageActor : Option String := none
  retireReason : Option RetireReason := none
  escalationEventId : Option String := none
  updatedAt : Option Int := none
  lastEventId : Option String := none
deriving DecidableEq, Repr

def DeadLetterEntry.isTerminal (entry : DeadLetterEntry) : Bool := entry.triageStatus.isTerminal

/-- Which characters `str.isalnum` accepts. -/
structure InboxEnv where
  isAlnum : Char → Bool

section Keys

variable (env : InboxEnv)

def slug (value : String) : String :=
  String.ofList (value.toList.map fun c => if env.isAlnum c then c else '_')

def activeKey (sourceObjectRef : String) (reason : EntryReason) : String :=
  slug env sourceObjectRef ++ "__" ++ reason.value

def DeadLetterEntry.key (entry : DeadLetterEntry) : String :=
  activeKey env entry.sourceObjectRef entry.entryReason

end Keys

inductive LifecycleKind where
  | enqueued
  | triageStarted
  | redispatched
  | retired
  | escalated
  | redispatchFailed
  | agedOut
  | triageResumed
deriving DecidableEq, Repr

structure LifecycleEvent where
  kind : LifecycleKind
  entry : DeadLetterEntry
  extra : Option (String × String) := none
deriving DecidableEq, Repr

structure Inbox where
  entries : Dict String DeadLetterEntry
  active : Dict String String
  events : List LifecycleEvent
deriving DecidableEq, Repr

def Inbox.empty : Inbox := { entries := [], active := [], events := [] }

inductive InboxWrite where
  | emit (event : LifecycleEvent)
  | putEntry (entry : DeadLetterEntry)
  | putKey (key entryId : String)
  | dropKey (key : String)
deriving DecidableEq, Repr

def Inbox.apply (inbox : Inbox) : InboxWrite → Inbox
  | .emit event => { inbox with events := inbox.events ++ [event] }
  | .putEntry entry => { inbox with entries := inbox.entries.set entry.entryId entry }
  | .putKey key entryId => { inbox with active := inbox.active.set key entryId }
  | .dropKey key => { inbox with active := inbox.active.erase key }

def Inbox.applyAll (inbox : Inbox) (writes : List InboxWrite) : Inbox := writes.foldl Inbox.apply inbox

section Calls

variable (env : InboxEnv)

def writeEntry (entry : DeadLetterEntry) : List InboxWrite :=
  [.putEntry entry,
    if entry.isTerminal then .dropKey (entry.key env) else .putKey (entry.key env) entry.entryId]

/-- `_emit`, then the entry with the id of the event. -/
def record (event : LifecycleEvent) (eventId : String) : List InboxWrite :=
  .emit event :: writeEntry env { event.entry with lastEventId := some eventId }

def activeEntryFor (inbox : Inbox) (sourceObjectRef : String) (reason : EntryReason) :
    Option DeadLetterEntry :=
  ((Dict.get inbox.active (activeKey env sourceObjectRef reason)).bind (Dict.get inbox.entries)).filter
    fun entry => !entry.isTerminal

/-- `_prior_terminal_reentry`; `none` is its -1. -/
def priorTerminalReentry (inbox : Inbox) (sourceObjectRef : String) (reason : EntryReason) :
    Option Nat :=
  ((inbox.entries.map Prod.snd).filter fun entry =>
    entry.sourceObjectRef = sourceObjectRef ∧ entry.entryReason = reason ∧ entry.isTerminal).foldl
      (fun highest entry => some (max (highest.getD 0) entry.reentryCount)) none

structure EnqueueCall where
  sourceObjectType : String
  sourceObjectRef : String
  entryReason : EntryReason
  originalTriggerEventId : Option String
  now : Int
  /-- The id a new entry draws. -/
  entryId : String
deriving DecidableEq, Repr

def EnqueueCall.entry (call : EnqueueCall) (prior : Option Nat) : DeadLetterEntry :=
  { entryId := call.entryId
    sourceObjectType := call.sourceObjectType
    sourceObjectRef := call.sourceObjectRef
    entryReason := call.entryReason
    originalTriggerEventId := call.originalTriggerEventId
    enteredAt := call.now
    triageStatus := .enqueued
    reentryCount := (prior.map (· + 1)).getD 0
    isReturning := prior.isSome
    updatedAt := some call.now }

/-- `enqueue`: what it writes and the entry it returns. -/
def enqueue (inbox : Inbox) (call : EnqueueCall) (eventId : String) :
    List InboxWrite × DeadLetterEntry :=
  match activeEntryFor env inbox call.sourceObjectRef call.entryReason with
  | some existing => ([], existing)
  | none =>
    let entry := call.entry
      (priorTerminalReentry inbox call.sourceObjectRef call.entryReason)
    (record env { kind := .enqueued, entry } eventId, { entry with lastEventId := some eventId })

/-- `_require` and `_require_state`. -/
def requireEntry (inbox : Inbox) (entryId : String) (allowed : List DeadLetterState) :
    Except String DeadLetterEntry :=
  match Dict.get inbox.entries entryId with
  | none => .error s!"dead-letter entry not found: {entryId}"
  | some entry =>
    if entry.triageStatus ∈ allowed then .ok entry
    else
      let names := ", ".intercalate ((allowed.map DeadLetterState.value).insertionSort (· ≤ ·))
      .error (s!"dead-letter entry {entry.entryId} in state '{entry.triageStatus.value}'; " ++
        s!"transition requires one of [{names}]")

def transition (event : LifecycleEvent) (eventId : String) : List InboxWrite × DeadLetterEntry :=
  (record env event eventId, { event.entry with lastEventId := some eventId })

def triageStarted (triageActor : String) (now : Int) (entry : DeadLetterEntry) : LifecycleEvent :=
  { kind := .triageStarted
    entry := { entry with triageStatus := .underTriage, triageActor := some triageActor
                          updatedAt := some now } }

def startTriage (inbox : Inbox) (entryId triageActor : String) (now : Int) (eventId : String) :
    Except String (List InboxWrite × DeadLetterEntry) :=
  (requireEntry inbox entryId [.enqueued]).map fun entry =>
    transition env (triageStarted triageActor now entry) eventId

/-- `must_force_retire`, with the cap on redispatches in force. -/
def mustForceRetire (cap : Nat) (entry : DeadLetterEntry) : Bool := cap ≤ entry.reentryCount

def decideRedispatch (inbox : Inbox) (cap : Nat) (entryId triageActor : String) (now : Int)
    (eventId : String) : Except String (List InboxWrite × DeadLetterEntry) := do
  let entry ← requireEntry inbox entryId [.underTriage]
  require (!mustForceRetire cap entry)
    (s!"entry {entryId} reentry_count={entry.reentryCount} 达上限 {cap} " ++
      "—— 强制改判 retired, 禁止 redispatch")
  return transition env
    { kind := .redispatched
      entry := { entry with triageStatus := .redispatched, triageAction := some .redispatch
                            triageActor := some triageActor, updatedAt := some now } } eventId

def triageRetired (triageActor : String) (retireReason : RetireReason) (now : Int)
    (entry : DeadLetterEntry) : LifecycleEvent :=
  { kind := .retired
    entry := { entry with triageStatus := .retired, triageAction := some .retire
                          triageActor := some triageActor, retireReason := some retireReason
                          updatedAt := some now } }

def decideRetire (inbox : Inbox) (entryId triageActor : String) (retireReason : RetireReason)
    (now : Int) (eventId : String) : Except String (List InboxWrite × DeadLetterEntry) :=
  (requireEntry inbox entryId [.underTriage]).map fun entry =>
    transition env (triageRetired triageActor retireReason now entry) eventId

def triageEscalated (triageActor : String) (escalationEventId : Option String) (now : Int)
    (entry : DeadLetterEntry) : LifecycleEvent :=
  { kind := .escalated
    entry := { entry with triageStatus := .escalatedToOwner, triageAction := some .escalate
                          triageActor := some triageActor, escalationEventId := escalationEventId
                          updatedAt := some now } }

def decideEscalate (inbox : Inbox) (entryId triageActor : String) (escalationEventId : Option String)
    (now : Int) (eventId : String) : Except String (List InboxWrite × DeadLetterEntry) :=
  (requireEntry inbox entryId [.underTriage]).map fun entry =>
    transition env (triageEscalated triageActor escalationEventId now entry) eventId

/-- `redispatch_failed`: back to enqueued, or retired once the count has reached the cap. -/
def redispatchFailed (inbox : Inbox) (cap : Nat) (entryId failureSummary : String) (now : Int)
    (eventId : String) : Except String (List InboxWrite × DeadLetterEntry) :=
  (requireEntry inbox entryId [.underTriage]).map fun entry =>
    let counted := { entry with reentryCount := entry.reentryCount + 1, isReturning := true
                                updatedAt := some now }
    let extra := if failureSummary = "" then none else some ("failure_summary", failureSummary)
    if cap ≤ counted.reentryCount then
      transition env
        { kind := .retired
          entry := { counted with triageStatus := .retired, triageAction := some .retire
                                  retireReason := some .reentryExhausted }
          extra } eventId
    else
      transition env
        { kind := .redispatchFailed
          entry := { counted with triageStatus := .enqueued, triageAction := none }
          extra } eventId

def triageResumed (reflowEventId : Option String) (now : Int) (entry : DeadLetterEntry) :
    LifecycleEvent :=
  { kind := .triageResumed
    entry := { entry with triageStatus := .underTriage, triageAction := none, updatedAt := some now }
    extra := (reflowEventId.filter (· ≠ "")).map fun reflow => ("reflow_event_id", reflow) }

def applyEscalationAnswer (inbox : Inbox) (entryId : String) (reflowEventId : Option String)
    (now : Int) (eventId : String) : Except String (List InboxWrite × DeadLetterEntry) :=
  (requireEntry inbox entryId [.escalatedToOwner]).map fun entry =>
    transition env (triageResumed reflowEventId now entry) eventId

def entryAgedOut (now : Int) (entry : DeadLetterEntry) : LifecycleEvent :=
  { kind := .agedOut
    entry := { entry with triageStatus := .retired, retireReason := some .agedOut
                          updatedAt := some now } }

def ageOutOne (entry : DeadLetterEntry) (now : Int) (eventId : String) :
    List InboxWrite × DeadLetterEntry :=
  transition env (entryAgedOut now entry) eventId

def ageOut (inbox : Inbox) (entryId : String) (now : Int) (eventId : String) :
    Except String (List InboxWrite × DeadLetterEntry) :=
  (requireEntry inbox entryId ageableStates).map fun entry => ageOutOne env entry now eventId

/-- `list_entries(include_terminal=False)`. -/
def openEntries (inbox : Inbox) : List DeadLetterEntry :=
  ((inbox.entries.map Prod.snd).filter fun entry => !entry.isTerminal).insertionSort
    fun left right => left.enteredAt ≤ right.enteredAt

/-- The entries that `sweep_aged_out` retires. -/
def agedEntries (inbox : Inbox) (ttlSeconds now : Int) : List DeadLetterEntry :=
  (openEntries inbox).filter fun entry =>
    entry.triageStatus ∈ ageableStates ∧ ttlSeconds < now - entry.enteredAt

/-- `sweep_aged_out`: what it writes and the ids it returns. -/
def sweepAgedOut (inbox : Inbox) (ttlSeconds now : Int) (eventIds : String → String) :
    List InboxWrite × List String :=
  let aged := agedEntries inbox ttlSeconds now
  (aged.flatMap fun entry => (ageOutOne env entry now (eventIds entry.entryId)).1,
    aged.map DeadLetterEntry.entryId)

end Calls

end Flowness.DeadLetter
