/-
The spike controller: it evaluates counter commands and commits the five records
of an accepted command through a persistence port.  The port is a parameter, so
that the controller runs over the in-memory adapter and over the SQLite adapter
alike.
-/
import HermesPipeline.Contracts
import HermesPipeline.EventChain
import HermesPipeline.Lib.Machine

namespace HermesPipeline

namespace Spike

open Lib EventChain

/-- The state pair of the counter oracle. -/
@[ext] structure CounterState where
  value : Nat
  revision : Nat
deriving Repr, DecidableEq

/-- The event of an accepted increment: the new value and the new revision. -/
structure CounterIncremented where
  value : Nat
  revision : Nat
deriving Repr, DecidableEq

def CounterIncremented.payload (event : CounterIncremented) :
    List (String × Json) :=
  [("value", .int event.value), ("revision", .int event.revision)]

inductive CounterOutcome
  | accepted | invalidDelta
deriving Repr, DecidableEq

structure CounterSpikeResult where
  state : CounterState
  outcome : CounterOutcome
  event : Option CounterIncremented
deriving Repr, DecidableEq

/-- Apply one increment: only the integer 1 is accepted. -/
def CounterSpike.apply (state : CounterState) (delta : Int) : CounterSpikeResult :=
  if delta ≠ 1 then ⟨state, .invalidDelta, none⟩
  else
    let newState : CounterState := ⟨state.value + 1, state.revision + 1⟩
    ⟨newState, .accepted, some ⟨newState.value, newState.revision⟩⟩

inductive PersistenceErrorKind
  | unavailable | sqliteFull
deriving Repr, DecidableEq

/-- A persistence failure that crosses the port. -/
structure PersistenceError where
  kind : PersistenceErrorKind
  safeMessage : String
deriving Repr, DecidableEq

structure InboxRecord where
  commandId : String
  payloadHash : String
  commandJson : String
  recordedAt : String
deriving Repr, DecidableEq

structure EventRecord where
  sequence : Nat
  eventId : String
  pipelineRevision : Nat
  payloadJson : String
deriving Repr, DecidableEq

structure ProjectionRecord where
  value : Nat
  revision : Nat
deriving Repr, DecidableEq

structure OutboxRecord where
  commandId : String
  effectType : String
  payloadJson : String
deriving Repr, DecidableEq

structure ReceiptRecord where
  commandId : String
  receiptJson : String
deriving Repr, DecidableEq

/-- The five records of one accepted command. -/
structure AcceptanceWrites where
  inbox : InboxRecord
  event : EventRecord
  projection : ProjectionRecord
  outbox : OutboxRecord
  receipt : ReceiptRecord
deriving Repr, DecidableEq

/-- A previously accepted command. -/
structure StoredCommand where
  payloadHash : String
  receiptJson : String
deriving Repr, DecidableEq

structure StoreAudit where
  inboxCount : Nat
  eventCount : Nat
  outboxCount : Nat
  receiptCount : Nat
  projection : Option CounterState
deriving Repr, DecidableEq

/-- Fault hooks before and after the logical writes, and the probes recorded by
the hooks that fired after a write. -/
structure FaultSpec where
  before : List Nat := []
  after : List Nat := []
  evidence : List String := []
deriving Repr, DecidableEq

/-- A hook that fired, with the probes it recorded. -/
structure InjectedFault where
  message : String
  recorded : List String
deriving Repr, DecidableEq

namespace FaultSpec

def record (spec : FaultSpec) (fault : InjectedFault) : FaultSpec :=
  { spec with evidence := spec.evidence ++ fault.recorded }

def setHooks (spec : FaultSpec) (before after : List Nat) : FaultSpec :=
  { spec with before := before, after := after }

def raiseBefore (spec : FaultSpec) (position : Nat) : Except InjectedFault Unit :=
  if position ∈ spec.before then
    .error ⟨s!"injected fault before logical write {position}", []⟩
  else .ok ()

def raiseAfter (spec : FaultSpec) (position : Nat) (probe : String) :
    Except InjectedFault Unit :=
  if position ∈ spec.after then
    .error ⟨s!"injected fault after logical write {position}",
      [s!"after:write:{position}:probe:{probe}"]⟩
  else .ok ()

/-- One write between its two hooks. -/
def around {α : Type} (spec : FaultSpec) (position : Nat) (probe : String)
    (written : α) : Except InjectedFault α := do
  spec.raiseBefore position
  spec.raiseAfter position probe
  return written

/-- Writes at the given positions go through when none of them has a hook, and a
fault fires when one has. -/
def Writes {α : Type} (spec : FaultSpec) (positions : List Nat)
    (result : Except InjectedFault α) (written : α) : Prop :=
  ((∀ position ∈ positions, position ∉ spec.before ∧ position ∉ spec.after) ∧
    result = .ok written) ∨
  ((∃ position ∈ positions, position ∈ spec.before ∨ position ∈ spec.after) ∧
    ∃ fault, result = .error fault)

theorem writes_around {α : Type} (spec : FaultSpec) (position : Nat)
    (probe : String) (written : α) :
    spec.Writes [position] (spec.around position probe written) written := by
  by_cases hbefore : position ∈ spec.before
  · refine .inr ⟨⟨position, List.mem_singleton_self _, .inl hbefore⟩,
      ⟨s!"injected fault before logical write {position}", []⟩, ?_⟩
    simp only [around, raiseBefore, if_pos hbefore]
    rfl
  · by_cases hafter : position ∈ spec.after
    · refine .inr ⟨⟨position, List.mem_singleton_self _, .inr hafter⟩,
        ⟨s!"injected fault after logical write {position}",
          [s!"after:write:{position}:probe:{probe}"]⟩, ?_⟩
      simp only [around, raiseBefore, if_neg hbefore, raiseAfter, if_pos hafter]
      rfl
    · refine .inl ⟨fun other hother => ?_, ?_⟩
      · rw [List.mem_singleton.mp hother]
        exact ⟨hbefore, hafter⟩
      · simp only [around, raiseBefore, if_neg hbefore, raiseAfter, if_neg hafter]
        rfl

theorem Writes.bind {α β : Type} {spec : FaultSpec} {first second : List Nat}
    {result : Except InjectedFault α} {written : α}
    {next : α → Except InjectedFault β} {final : β}
    (hfirst : spec.Writes first result written)
    (hsecond : spec.Writes second (next written) final) :
    spec.Writes (first ++ second) (result >>= next) final := by
  rcases hfirst with ⟨hfree, rfl⟩ | ⟨⟨position, hmem, hset⟩, fault, rfl⟩
  · rcases hsecond with ⟨hfree', hdone⟩ | ⟨⟨position, hmem, hset⟩, fault, hfault⟩
    · refine .inl ⟨fun position hposition => ?_, hdone⟩
      rcases List.mem_append.mp hposition with hleft | hright
      · exact hfree position hleft
      · exact hfree' position hright
    · exact .inr ⟨⟨position, List.mem_append_right _ hmem, hset⟩, fault, hfault⟩
  · exact .inr ⟨⟨position, List.mem_append_left _ hmem, hset⟩, fault, rfl⟩

/-- A hook is set at one of the five logical writes. -/
def Hooked (spec : FaultSpec) : Prop :=
  ∃ position ∈ [1, 2, 3, 4, 5], position ∈ spec.before ∨ position ∈ spec.after

end FaultSpec

/-- The five fixed logical-write positions. -/
def writeInboxPosition : Nat := 1

def writeEventPosition : Nat := 2

def writeProjectionPosition : Nat := 3

def writeOutboxPosition : Nat := 4

def writeReceiptPosition : Nat := 5

/-- The private persistence port. -/
structure ControllerPersistencePort (σ : Type) where
  findCommand : σ → String → Except PersistenceError (Option StoredCommand)
  loadCounter : σ → Except PersistenceError CounterState
  commitAcceptance : σ → AcceptanceWrites → Except PersistenceError Unit × σ
  rebuildProjection : σ → Except PersistenceError CounterState
  audit : σ → Except PersistenceError StoreAudit
  /-- The owner of the `FaultSpec` sets its hooks anew. -/
  setHooks : σ → List Nat → List Nat → σ

/-- What the injected providers answer within one submit: the readings of the
clock in order, and the event id.  `none` stands for a raised exception. -/
structure Providers where
  clock : Nat → Option String
  newEventId : Option String

def messageInvalidDelta : String := "invalid delta"

def messageIdentityConflict : String := "command identity conflict"

def messageRevisionConflict : String := "expected revision conflict"

def messagePersistenceUnavailable : String := "persistence unavailable"

def commandIdConflict : String := "COMMAND_ID_CONFLICT"

def spikeOutboxEffect : String := "SPIKE_NOOP_EFFECT"

structure SubmitOutcome where
  receipt : CommandReceipt
  duplicateClass : Option String := none
  appendedEvent : Bool := false
deriving Repr, DecidableEq

namespace SpikeController

variable {σ : Type} (codec : Codec) (sha : Sha256)
  (port : ControllerPersistencePort σ) (providers : Providers)
  (command : ControllerCommand)

/-- The canonical payload hash. -/
def payloadHash (payload : Dict String Json) : Option String :=
  (codec.canonicalJson (.obj payload.rows)).map sha.hexdigest

/-- The delta of the payload; 0 when it is not an integer. -/
def deltaValue (payload : Dict String Json) : Int :=
  match payload.get? "delta" with
  | some (.int delta) => delta
  | _ => 0

/-- The current revision, as far as it can be read. -/
def safeObservedRevision (s : σ) : Nat :=
  match port.loadCounter s with
  | .ok state => state.revision
  | .error _ => 0

/-- The receipt that answers the command. -/
def receiptOf (status : ReceiptStatus) (observedRevision : Nat)
    (eventIds : List String) (error : CommandError) (recordedAt : String) :
    CommandReceipt where
  commandId := command.commandId
  status := status
  pipelineId := command.pipelineId
  observedRevision := observedRevision
  eventIds := eventIds
  error := error
  recordedAt := recordedAt
  correlationId := command.correlationId

def acceptedReceipt (state : CounterState) (eventId recordedAt : String) :
    CommandReceipt :=
  receiptOf command .accepted state.revision [eventId]
    { code := .internalError, message := "", retryable := false } recordedAt

def rejectedReceipt (state : CounterState) : Option CommandReceipt :=
  (providers.clock 0).map <| receiptOf command .rejected state.revision []
    { code := .validationError, message := messageInvalidDelta,
      retryable := false }

def conflictReceipt (message : String) (s : σ) : Option CommandReceipt :=
  (providers.clock 0).map <|
    receiptOf command .conflict (safeObservedRevision port s) []
      { code := .conflict, message := message, retryable := false }

/-- The failure receipt, stamped with the given reading of the clock. -/
def failureReceipt (reading : Nat) (s : σ) : Option CommandReceipt :=
  (providers.clock reading).map <|
    receiptOf command .rejected (safeObservedRevision port s) []
      { code := .internalError, message := messagePersistenceUnavailable,
        retryable := true }

/-- The original receipt of an identical replayed command. -/
def replayReceipt (receiptJson : String) (s : σ) : Option SubmitOutcome :=
  match codec.receiptOfJson receiptJson with
  | some receipt => some { receipt := receipt }
  | none => (failureReceipt port providers command 0 s).map fun receipt =>
      { receipt := receipt }

/-- The receipt and the five records of an accepted command. -/
def acceptanceWrites (hash : String) (newState : CounterState)
    (event : CounterIncremented) : Option (CommandReceipt × AcceptanceWrites) := do
  let eventId ← providers.newEventId
  let recordedAt ← providers.clock 0
  let receipt := acceptedReceipt command newState eventId recordedAt
  let commandJson ← codec.canonicalJson (.obj command.modelDump)
  let eventJson ← codec.canonicalJson (.obj event.payload)
  let effectJson ← codec.canonicalJson (.obj [("command_id", .str command.commandId)])
  pure (receipt,
    { inbox := ⟨command.commandId, hash, commandJson, recordedAt⟩
      event := ⟨newState.revision, eventId, newState.revision, eventJson⟩
      projection := ⟨newState.value, newState.revision⟩
      outbox := ⟨command.commandId, spikeOutboxEffect, effectJson⟩
      receipt := ⟨command.commandId, codec.receiptJson receipt⟩ })

/-- Submit one command.  `none` stands for an exception that leaves the call:
a payload without a canonical text, or a provider that raises. -/
def submitImpl (s : σ) : Option SubmitOutcome × σ :=
  match port.findCommand s command.commandId with
  | .error _ =>
      ((failureReceipt port providers command 0 s).map fun receipt =>
        { receipt := receipt }, s)
  | .ok stored =>
      match payloadHash codec sha command.payload with
      | none => (none, s)
      | some hash =>
          match stored with
          | some row =>
              if row.payloadHash = hash then
                (replayReceipt codec port providers command row.receiptJson s, s)
              else
                ((conflictReceipt port providers command
                    messageIdentityConflict s).map fun receipt =>
                  { receipt := receipt,
                    duplicateClass := some commandIdConflict }, s)
          | none =>
              match port.loadCounter s with
              | .error _ =>
                  ((failureReceipt port providers command 0 s).map fun receipt =>
                    { receipt := receipt }, s)
              | .ok state =>
                  if command.expectedRevision ≠ state.revision then
                    ((conflictReceipt port providers command
                        messageRevisionConflict s).map fun receipt =>
                      { receipt := receipt }, s)
                  else
                    let result := CounterSpike.apply state (deltaValue command.payload)
                    match result.event with
                    -- the oracle has an event unless it says INVALID_DELTA
                    | none =>
                        ((rejectedReceipt providers command state).map fun receipt =>
                          { receipt := receipt }, s)
                    | some event =>
                        match acceptanceWrites codec providers command hash
                            result.state event with
                        | none => (none, s)
                        | some (receipt, writes) =>
                            match port.commitAcceptance s writes with
                            | (.error _, s') =>
                                ((failureReceipt port providers command 1 s').map
                                  fun receipt => { receipt := receipt }, s')
                            | (.ok (), s') =>
                                (some { receipt := receipt,
                                        appendedEvent := true }, s')

/-- The records are those of the command, one step after the state. -/
structure Follows (codec : Codec) (providers : Providers)
    (command : ControllerCommand) (state : CounterState)
    (writes : AcceptanceWrites) : Prop where
  inbox : writes.inbox.commandId = command.commandId
  outbox : writes.outbox.commandId = command.commandId
  receipt : writes.receipt.commandId = command.commandId
  eventId : providers.newEventId = some writes.event.eventId
  sequence : writes.event.sequence = state.revision + 1
  pipelineRevision : writes.event.pipelineRevision = state.revision + 1
  value : writes.projection.value = state.value + 1
  revision : writes.projection.revision = state.revision + 1
  payload : codec.canonicalJson (.obj (CounterIncremented.payload
    ⟨state.value + 1, state.revision + 1⟩)) = some writes.event.payloadJson

/-- The answer did not append an event. -/
def Unappended (answer : Option SubmitOutcome) : Prop :=
  ∀ outcome, answer = some outcome → outcome.appendedEvent = false

theorem unappended_map (receipt : Option CommandReceipt)
    (duplicateClass : Option String) :
    Unappended (receipt.map fun receipt =>
      { receipt := receipt, duplicateClass := duplicateClass }) := by
  intro outcome hanswer
  obtain ⟨_, -, rfl⟩ := Option.map_eq_some_iff.mp hanswer
  rfl

theorem unappended_replay (receiptJson : String) (s : σ) :
    Unappended (replayReceipt codec port providers command receiptJson s) := by
  unfold replayReceipt
  split
  · intro outcome hanswer
    cases hanswer
    rfl
  · exact unappended_map _ none

variable {codec providers command} in
theorem acceptanceWrites_follows {hash : String} {state : CounterState}
    {receipt : CommandReceipt} {writes : AcceptanceWrites}
    (hwrites : acceptanceWrites codec providers command hash
      ⟨state.value + 1, state.revision + 1⟩
      ⟨state.value + 1, state.revision + 1⟩ = some (receipt, writes)) :
    Follows codec providers command state writes := by
  simp only [acceptanceWrites, Option.bind_eq_bind, Option.bind_eq_some_iff,
    Option.pure_def, Option.some.injEq, Prod.mk.injEq] at hwrites
  obtain ⟨_, heventId, _, -, _, -, _, hpayload, _, -, -, rfl⟩ := hwrites
  exact ⟨rfl, rfl, rfl, heventId, rfl, rfl, rfl, rfl, hpayload⟩

/-- A submit leaves the store alone, or it commits the records of a command
that was not stored yet. -/
theorem submitImpl_cases (s : σ) :
    (∃ answer, submitImpl codec sha port providers command s = (answer, s) ∧
      Unappended answer) ∨
    ∃ state receipt writes,
      port.findCommand s command.commandId = .ok none ∧
      port.loadCounter s = .ok state ∧
      Follows codec providers command state writes ∧
      submitImpl codec sha port providers command s =
        match port.commitAcceptance s writes with
        | (.error _, s') =>
            ((failureReceipt port providers command 1 s').map
              fun receipt => { receipt := receipt }, s')
        | (.ok (), s') =>
            (some { receipt := receipt, appendedEvent := true }, s') := by
  unfold submitImpl
  cases hfind : port.findCommand s command.commandId with
  | error failure => exact .inl ⟨_, rfl, unappended_map _ none⟩
  | ok stored =>
      cases hhash : payloadHash codec sha command.payload with
      | none =>
          refine .inl ⟨none, rfl, fun outcome hanswer => ?_⟩
          cases hanswer
      | some hash =>
          cases stored with
          | some row =>
              dsimp only
              split
              · exact .inl ⟨_, rfl,
                  unappended_replay codec port providers command _ s⟩
              · exact .inl ⟨_, rfl, unappended_map _ _⟩
          | none =>
              cases hload : port.loadCounter s with
              | error failure => exact .inl ⟨_, rfl, unappended_map _ none⟩
              | ok state =>
                  dsimp only
                  split
                  · exact .inl ⟨_, rfl, unappended_map _ none⟩
                  · by_cases hdelta : deltaValue command.payload ≠ 1
                    · simp only [CounterSpike.apply, if_pos hdelta]
                      exact .inl ⟨_, rfl, unappended_map _ none⟩
                    · simp only [CounterSpike.apply, if_neg hdelta]
                      split
                      · refine .inl ⟨none, rfl, fun outcome hanswer => ?_⟩
                        cases hanswer
                      · rename_i receipt writes hwrites
                        exact .inr ⟨state, receipt, writes, trivial, rfl,
                          acceptanceWrites_follows hwrites, rfl⟩

/-- Two stores that read the same and commit the same answer a submit alike. -/
theorem submitImpl_congr {τ : Type} (port : ControllerPersistencePort σ)
    (port' : ControllerPersistencePort τ) (s : σ) (t : τ) {R : σ → τ → Prop}
    (hfind : port.findCommand s command.commandId =
      port'.findCommand t command.commandId)
    (hload : port.loadCounter s = port'.loadCounter t) (hsame : R s t)
    (hcommit : ∀ state writes, port.findCommand s command.commandId = .ok none →
      port.loadCounter s = .ok state → Follows codec providers command state writes →
        (port.commitAcceptance s writes).1 = (port'.commitAcceptance t writes).1 ∧
        port.loadCounter (port.commitAcceptance s writes).2 =
          port'.loadCounter (port'.commitAcceptance t writes).2 ∧
        R (port.commitAcceptance s writes).2 (port'.commitAcceptance t writes).2) :
    (submitImpl codec sha port providers command s).1 =
      (submitImpl codec sha port' providers command t).1 ∧
    R (submitImpl codec sha port providers command s).2
      (submitImpl codec sha port' providers command t).2 := by
  have hobserved : safeObservedRevision port s = safeObservedRevision port' t := by
    simp only [safeObservedRevision, hload]
  have hfailure : ∀ reading, failureReceipt port providers command reading s =
      failureReceipt port' providers command reading t := fun reading => by
    simp only [failureReceipt, hobserved]
  have hconflict : ∀ message, conflictReceipt port providers command message s =
      conflictReceipt port' providers command message t := fun message => by
    simp only [conflictReceipt, hobserved]
  unfold submitImpl
  rw [← hfind, ← hload]
  cases hstored : port.findCommand s command.commandId with
  | error failure => exact ⟨by simp only [hfailure], hsame⟩
  | ok stored =>
      cases hhash : payloadHash codec sha command.payload with
      | none => exact ⟨rfl, hsame⟩
      | some hash =>
          cases stored with
          | some row =>
              dsimp only
              split
              · exact ⟨by simp only [replayReceipt, hfailure], hsame⟩
              · exact ⟨by simp only [hconflict], hsame⟩
          | none =>
              cases hstate : port.loadCounter s with
              | error failure => exact ⟨by simp only [hfailure], hsame⟩
              | ok state =>
                  dsimp only
                  split
                  · exact ⟨by simp only [hconflict], hsame⟩
                  · by_cases hdelta : deltaValue command.payload ≠ 1
                    · simp only [CounterSpike.apply, if_pos hdelta]
                      exact ⟨trivial, hsame⟩
                    · simp only [CounterSpike.apply, if_neg hdelta]
                      cases hwrites : acceptanceWrites codec providers command hash
                          ⟨state.value + 1, state.revision + 1⟩
                          ⟨state.value + 1, state.revision + 1⟩ with
                      | none => exact ⟨rfl, hsame⟩
                      | some accepted =>
                          obtain ⟨receipt, writes⟩ := accepted
                          obtain ⟨hanswer, hafter, hrelated⟩ :=
                            hcommit state writes hstored hstate
                              (acceptanceWrites_follows hwrites)
                          have hfailed : failureReceipt port providers command 1
                              (port.commitAcceptance s writes).2 =
                              failureReceipt port' providers command 1
                                (port'.commitAcceptance t writes).2 := by
                            simp only [failureReceipt, safeObservedRevision, hafter]
                          dsimp only
                          rcases hleft : port.commitAcceptance s writes with
                            ⟨result, s'⟩
                          rcases hright : port'.commitAcceptance t writes with
                            ⟨result', t'⟩
                          rw [hleft, hright] at hanswer hfailed hrelated
                          dsimp only at hanswer
                          subst hanswer
                          cases result with
                          | error failure => exact ⟨by simp only [hfailed], hrelated⟩
                          | ok _ => exact ⟨rfl, hrelated⟩

end SpikeController

/-- What is called on a controller, its store and the owner of the faults. -/
inductive SpikeCall
  | submit (providers : Providers) (command : ControllerCommand)
  | rebuildProjection
  | audit
  | setHooks (before after : List Nat)

inductive SpikeAnswer
  | submitted (outcome : Option SubmitOutcome)
  | rebuilt (state : Except PersistenceError CounterState)
  | audited (audit : Except PersistenceError StoreAudit)
  | hooked

/-- One call. -/
def step {σ : Type} (codec : Codec) (sha : Sha256)
    (port : ControllerPersistencePort σ) (s : σ) :
    SpikeCall → SpikeAnswer × σ
  | .submit providers command =>
      let (outcome, s') :=
        SpikeController.submitImpl codec sha port providers command s
      (.submitted outcome, s')
  | .rebuildProjection => (.rebuilt (port.rebuildProjection s), s)
  | .audit => (.audited (port.audit s), s)
  | .setHooks before after => (.hooked, port.setHooks s before after)

end Spike

end HermesPipeline
