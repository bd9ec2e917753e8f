/-
The checkpoint spike graph over the spike controller.  Its two nodes submit one
command under a fixed id.  What the graph library hands a node is left open: with
a checkpoint that is lost or stale, on another thread or as a replay, a node sees
any state values, and the nodes of a run come in any order and number.  Still the
controller accepts the command at most once, and every node that reaches it after
that gets the one receipt of that acceptance.
-/
import HermesPipeline.SpikeSqlite

namespace HermesPipeline

open Lib

namespace Spike

namespace GraphSpike

/-- `GraphState`: the values of a checkpoint, each of which may be missing. -/
structure GraphState where
  runNamespace : Option String := none
  commandId : Option String := none
  receiptJson : Option String := none
  submitCount : Option Nat := none
  counterValue : Option Nat := none
  counterRevision : Option Nat := none
  gateDecision : Option String := none
deriving Repr, DecidableEq

def stableCommandId : String := "cmd_spike_langgraph_000000"

def spikeDelta : Int := 1

/-- The payload of the stable command. -/
def stablePayload : Dict String Json := .set .empty "delta" (.int spikeDelta)

def stableKey (runNamespace : String) : String :=
  "spike-langgraph-" ++ runNamespace ++ "-key-0000"

theorem increment_ok : matchesCommandType "COUNTER_INCREMENT" = true := by
  decide

/-- `build_stable_command`; a key that is too long is refused by the contract. -/
def buildStableCommand (runNamespace : String) (expectedRevision : Nat) :
    Option ControllerCommand :=
  if hkey : 16 ≤ (stableKey runNamespace).length ∧ (stableKey runNamespace).length ≤ 160 then
    some {
      commandId := stableCommandId
      idempotencyKey := stableKey runNamespace
      workspaceId := "ws_spike"
      projectId := "prj_spike"
      pipelineId := "pl_spike"
      expectedRevision := expectedRevision
      actor := ⟨"system", .system, "spike-stage-executor"⟩
      ingress := .systemReconciler
      commandType := "COUNTER_INCREMENT"
      payload := stablePayload
      correlationId := "corr-" ++ runNamespace
      submittedAt := "2026-01-01T00:00:00Z"
      idempotencyKey_ok := hkey
      commandType_ok := increment_ok }
  else none

/-- How a node ends: an exception leaves it, it waits at its interrupt, or it
returns with the state that its update makes. -/
inductive NodeResult
  | raised
  | interrupted
  | returned (receipt : CommandReceipt) (state : GraphState)

section Nodes

variable {σ : Type} (codec : Codec) (sha : Sha256) (port : ControllerPersistencePort σ)
  (providers : Providers)

/-- `controller.submit(build_stable_command(...))`. -/
def submitStable (s : σ) (runNamespace : String) (expectedRevision : Nat) :
    Option CommandReceipt × σ :=
  match buildStableCommand runNamespace expectedRevision with
  | none => (none, s)
  | some command =>
      let submitted := SpikeController.submitImpl codec sha port providers command s
      (submitted.1.map SubmitOutcome.receipt, submitted.2)

/-- The update of the submit node. -/
def submitUpdate (state : GraphState) : Option CommandReceipt → NodeResult
  | none => .raised
  | some receipt =>
      .returned receipt { state with
        receiptJson := some (codec.receiptJson receipt)
        submitCount := some (state.submitCount.getD 0 + 1)
        counterRevision := some receipt.observedRevision
        counterValue := some receipt.observedRevision }

/-- The submit node. -/
def submitNode (s : σ) (state : GraphState) : NodeResult × σ :=
  let submitted := submitStable codec sha port providers s
    (state.runNamespace.getD "run-default") (state.counterRevision.getD 0)
  (submitUpdate codec state submitted.1, submitted.2)

/-- The update of the confirm node. -/
def confirmUpdate (state : GraphState) (decision : String) :
    Option CommandReceipt → NodeResult
  | none => .raised
  | some receipt =>
      .returned receipt { state with
        gateDecision := some decision
        receiptJson := some (codec.receiptJson receipt) }

/-- The confirm node: it waits until it is resumed with a decision. -/
def confirmNode (s : σ) (state : GraphState) : Option String → NodeResult × σ
  | none => (.interrupted, s)
  | some decision =>
      let submitted := submitStable codec sha port providers s
        (state.runNamespace.getD "run-default") 0
      (confirmUpdate codec state decision submitted.1, submitted.2)

end Nodes

/-- What happens around the controller: a node is run on some state, somebody else
submits a command of another id, or the store is called otherwise. -/
inductive GraphCall
  | submitNode (providers : Providers) (state : GraphState)
  | confirmNode (providers : Providers) (state : GraphState) (decision : Option String)
  | foreign (providers : Providers) (command : ControllerCommand)
      (other : command.commandId ≠ stableCommandId)
  | setHooks (before after : List Nat)

inductive GraphAnswer
  | node (result : NodeResult)
  | foreign (outcome : Option SubmitOutcome)
  | hooked

/-- One call. -/
def graphStep {σ : Type} (codec : Codec) (sha : Sha256) (port : ControllerPersistencePort σ)
    (s : σ) : GraphCall → GraphAnswer × σ
  | .submitNode providers state =>
      let ran := submitNode codec sha port providers s state
      (.node ran.1, ran.2)
  | .confirmNode providers state decision =>
      let ran := confirmNode codec sha port providers s state decision
      (.node ran.1, ran.2)
  | .foreign providers command _ =>
      let submitted := SpikeController.submitImpl codec sha port providers command s
      (.foreign submitted.1, submitted.2)
  | .setHooks before after => (.hooked, port.setHooks s before after)

/-- The receipt that a node was given. -/
def GraphAnswer.receipt? : GraphAnswer → Option CommandReceipt
  | .node (.returned receipt _) => some receipt
  | _ => none

/-- The node builds its command and submits it. -/
def GraphCall.submits : GraphCall → Bool
  | .submitNode _ state =>
      (buildStableCommand (state.runNamespace.getD "run-default")
        (state.counterRevision.getD 0)).isSome
  | .confirmNode _ state (some _) =>
      (buildStableCommand (state.runNamespace.getD "run-default") 0).isSome
  | _ => false

/-- A command of somebody else appended its event. -/
def GraphAnswer.foreignEvent : GraphAnswer → Bool
  | .foreign (some outcome) => outcome.appendedEvent
  | _ => false

section Stable

variable {σ : Type} {codec : Codec} {sha : Sha256} {port : ControllerPersistencePort σ}
  {providers : Providers} {s : σ} {runNamespace : String} {revision : Nat}

theorem submitStable_of_none (hbuilt : buildStableCommand runNamespace revision = none) :
    submitStable codec sha port providers s runNamespace revision = (none, s) := by
  rw [submitStable, hbuilt]

theorem submitStable_of_some {command : ControllerCommand}
    (hbuilt : buildStableCommand runNamespace revision = some command) :
    submitStable codec sha port providers s runNamespace revision =
      ((SpikeController.submitImpl codec sha port providers command s).1.map
        SubmitOutcome.receipt,
        (SpikeController.submitImpl codec sha port providers command s).2) := by
  rw [submitStable, hbuilt]

end Stable

/-- The nodes hand on what their command was answered with. -/
theorem receipt?_submitUpdate (codec : Codec) (state : GraphState)
    (answer : Option CommandReceipt) :
    (GraphAnswer.node (submitUpdate codec state answer)).receipt? = answer := by
  cases answer <;> rfl

theorem receipt?_confirmUpdate (codec : Codec) (state : GraphState) (decision : String)
    (answer : Option CommandReceipt) :
    (GraphAnswer.node (confirmUpdate codec state decision answer)).receipt? = answer := by
  cases answer <;> rfl

section Submits

variable {σ : Type} {codec : Codec} {sha : Sha256} {port : ControllerPersistencePort σ}
  {providers : Providers} {command : ControllerCommand} {s : σ}

/-- A receipt that reports a failure is none of an acceptance. -/
def Refused (answer : Option SubmitOutcome) : Prop :=
  ∀ outcome, answer = some outcome → outcome.receipt.status ≠ .accepted

theorem refused_map {clock : Option String} {status : ReceiptStatus} {revision : Nat}
    {error : CommandError} (hstatus : status ≠ .accepted) :
    Refused ((clock.map (SpikeController.receiptOf command status revision [] error)).map
      fun receipt => { receipt := receipt }) := by
  intro outcome hanswer
  obtain ⟨receipt, hreceipt, rfl⟩ := Option.map_eq_some_iff.mp hanswer
  obtain ⟨recordedAt, -, rfl⟩ := Option.map_eq_some_iff.mp hreceipt
  exact hstatus

/-- The records of a command that is accepted under this receipt. -/
structure AcceptedWrites (codec : Codec) (command : ControllerCommand) (hash : String)
    (receipt : CommandReceipt) (writes : AcceptanceWrites) : Prop where
  status : receipt.status = .accepted
  inbox : writes.inbox.commandId = command.commandId
  inboxHash : writes.inbox.payloadHash = hash
  outbox : writes.outbox.commandId = command.commandId
  receiptJson : writes.receipt.receiptJson = codec.receiptJson receipt

theorem acceptanceWrites_accepted {hash : String} {state : CounterState}
    {event : CounterIncremented} {receipt : CommandReceipt} {writes : AcceptanceWrites}
    (hwrites : SpikeController.acceptanceWrites codec providers command hash state event =
      some (receipt, writes)) :
    AcceptedWrites codec command hash receipt writes := by
  simp only [SpikeController.acceptanceWrites, Option.bind_eq_bind, Option.bind_eq_some_iff,
    Option.pure_def, Option.some.injEq, Prod.mk.injEq] at hwrites
  obtain ⟨eventId, -, recordedAt, -, commandJson, -, eventJson, -, effectJson, -, rfl, rfl⟩ :=
    hwrites
  exact ⟨rfl, rfl, rfl, rfl, rfl⟩

/-- A command whose id is not stored yet is refused and leaves the store, or its
records are committed. -/
theorem submitImpl_absent (hfind : port.findCommand s command.commandId = .ok none) :
    (∃ answer, SpikeController.submitImpl codec sha port providers command s = (answer, s) ∧
      Refused answer) ∨
    ∃ hash receipt writes, SpikeController.payloadHash codec sha command.payload = some hash ∧
      AcceptedWrites codec command hash receipt writes ∧
      SpikeController.submitImpl codec sha port providers command s =
        match port.commitAcceptance s writes with
        | (.error _, s') =>
            ((SpikeController.failureReceipt port providers command 1 s').map
              fun receipt => { receipt := receipt }, s')
        | (.ok (), s') => (some { receipt := receipt, appendedEvent := true }, s') := by
  have hraised : Refused none := fun outcome hanswer => by cases hanswer
  unfold SpikeController.submitImpl
  rw [hfind]
  cases hhash : SpikeController.payloadHash codec sha command.payload with
  | none => exact .inl ⟨none, rfl, hraised⟩
  | some hash =>
      cases hload : port.loadCounter s with
      | error failure => exact .inl ⟨_, rfl, refused_map (by decide)⟩
      | ok state =>
          dsimp only
          split
          · exact .inl ⟨_, rfl, refused_map (by decide)⟩
          · split
            · exact .inl ⟨_, rfl, refused_map (by decide)⟩
            · split
              · exact .inl ⟨none, rfl, hraised⟩
              · next receipt writes hwrites =>
                  exact .inr ⟨hash, receipt, writes, rfl, acceptanceWrites_accepted hwrites,
                    rfl⟩

/-- A command whose id is stored with its hash is answered with the stored receipt. -/
theorem submitImpl_stored (hreceipts : codec.StoresReceipts) {hash : String}
    {receipt : CommandReceipt}
    (hfind : port.findCommand s command.commandId =
      .ok (some ⟨hash, codec.receiptJson receipt⟩))
    (hhash : SpikeController.payloadHash codec sha command.payload = some hash) :
    SpikeController.submitImpl codec sha port providers command s =
      (some { receipt := receipt }, s) := by
  unfold SpikeController.submitImpl
  rw [hfind, hhash]
  simp only [if_true, SpikeController.replayReceipt, hreceipts receipt]

end Submits

section Memory

variable {codec : Codec} {sha : Sha256} {s : InMemoryControllerStore}
  {before after : Option CommandReceipt} {foreign : Nat}

/-- The outbox rows of the stable command. -/
def stableRows (store : InMemoryStore) : Nat :=
  (store.outbox.filter fun row => row.commandId = stableCommandId).length

/-- The store has accepted the stable command under this receipt, or not yet, and so
many commands of others. -/
structure Held (codec : Codec) (sha : Sha256) (store : InMemoryStore)
    (accepted : Option CommandReceipt) (foreign : Nat) : Prop where
  absent : accepted = none → store.inbox.get? stableCommandId = none
  stored : ∀ receipt, accepted = some receipt → receipt.status = .accepted ∧
    ∃ hash, SpikeController.payloadHash codec sha stablePayload = some hash ∧
      store.inbox.get? stableCommandId = some ⟨hash, codec.receiptJson receipt⟩
  rows : stableRows store = accepted.toList.length
  events : store.events.length = foreign + accepted.toList.length

/-- How the accepted receipt moves over a call with this answer. -/
def Moves (submitted : Bool) (answer : Option CommandReceipt) :
    Option CommandReceipt → Option CommandReceipt → Prop
  | some receipt, after =>
      after = some receipt ∧ answer = if submitted then some receipt else none
  | none, none => ∀ receipt, answer = some receipt → receipt.status ≠ .accepted
  | none, some receipt => answer = some receipt ∧ submitted = true

theorem held_init (codec : Codec) (sha : Sha256) : Held codec sha {} none 0 where
  absent _ := rfl
  stored _ hnone := by cases hnone
  rows := rfl
  events := rfl

/-- Nothing is submitted. -/
theorem Moves.idle (accepted : Option CommandReceipt) :
    Moves false none accepted accepted := by
  cases accepted with
  | none => intro receipt hnone; cases hnone
  | some receipt => exact ⟨rfl, rfl⟩

theorem buildStableCommand_eq_some {runNamespace : String} {revision : Nat}
    {command : ControllerCommand}
    (hbuilt : buildStableCommand runNamespace revision = some command) :
    command.commandId = stableCommandId ∧ command.payload = stablePayload := by
  rw [buildStableCommand] at hbuilt
  split at hbuilt
  · cases hbuilt
    exact ⟨rfl, rfl⟩
  · cases hbuilt

/-- The first acceptance stores the command under its receipt. -/
theorem Held.accept (hheld : Held codec sha s.store none foreign)
    {command : ControllerCommand} (hid : command.commandId = stableCommandId)
    {hash : String}
    (hhash : SpikeController.payloadHash codec sha stablePayload = some hash)
    {receipt : CommandReceipt} {writes : AcceptanceWrites}
    (hwrites : AcceptedWrites codec command hash receipt writes) :
    Held codec sha (s.store.accepted sha writes) (some receipt) foreign where
  absent hnone := by cases hnone
  stored := by
    rintro receipt' hsome
    cases hsome
    refine ⟨hwrites.status, hash, hhash, ?_⟩
    simp only [InMemoryStore.accepted, hwrites.inbox, hid, hwrites.inboxHash,
      hwrites.receiptJson, Dict.get?_set, if_true]
  rows := by
    have hrows := hheld.rows
    simp only [stableRows, Option.toList_none, List.length_nil] at hrows
    simp only [stableRows, InMemoryStore.accepted, List.filter_append, List.length_append,
      hrows, hwrites.outbox, hid, decide_true, List.filter_cons, if_true, List.filter_nil,
      List.length_singleton, Option.toList_some]
  events := by
    have hevents := hheld.events
    simp only [Option.toList_none, List.length_nil] at hevents
    simp only [InMemoryStore.accepted, List.length_append, List.length_singleton, hevents,
      Option.toList_some]

/-- A command of another id leaves the stable command as it is. -/
theorem Held.acceptForeign (hheld : Held codec sha s.store before foreign)
    {writes : AcceptanceWrites} (hinbox : writes.inbox.commandId ≠ stableCommandId)
    (houtbox : writes.outbox.commandId ≠ stableCommandId) :
    Held codec sha (s.store.accepted sha writes) before (foreign + 1) where
  absent hnone := by
    simp only [InMemoryStore.accepted, Dict.get?_set, if_neg hinbox.symm, hheld.absent hnone]
  stored receipt hsome := by
    simp only [InMemoryStore.accepted, Dict.get?_set, if_neg hinbox.symm]
    exact hheld.stored receipt hsome
  rows := by
    have hrows := hheld.rows
    rw [stableRows] at hrows
    simp only [stableRows, InMemoryStore.accepted, List.filter_append, List.length_append,
      hrows, houtbox, decide_false, List.filter_cons, List.filter_nil, List.length_nil,
      Nat.add_zero, if_false, Bool.false_eq_true]
  events := by
    simp only [InMemoryStore.accepted, List.length_append, List.length_singleton,
      hheld.events]
    omega

/-- The stable command is answered once more, refused, or accepted. -/
theorem Held.submit (hreceipts : codec.StoresReceipts)
    (hheld : Held codec sha s.store before foreign) (providers : Providers)
    {command : ControllerCommand} (hid : command.commandId = stableCommandId)
    (hpayload : command.payload = stablePayload) :
    let submitted := SpikeController.submitImpl codec sha (InMemoryControllerStore.port sha)
      providers command s
    ∃ after, Held codec sha submitted.2.store after foreign ∧
      Moves true (submitted.1.map SubmitOutcome.receipt) before after := by
  intro submitted
  cases before with
  | some receipt =>
      obtain ⟨hstatus, hash, hhash, hrow⟩ := hheld.stored receipt rfl
      have hanswer : submitted = (some { receipt := receipt }, s) :=
        submitImpl_stored hreceipts (by rw [hid]; exact congrArg Except.ok hrow)
          (by rw [hpayload]; exact hhash)
      rw [hanswer]
      exact ⟨some receipt, hheld, rfl, rfl⟩
  | none =>
      rcases @submitImpl_absent _ codec sha (InMemoryControllerStore.port sha) providers
          command s (by rw [hid]; exact congrArg Except.ok (hheld.absent rfl)) with
        ⟨answer, hanswer, hrefused⟩ | ⟨hash, receipt, writes, hhash, hwrites, hcommit⟩
      · refine ⟨none, ?_, ?_⟩
        · rw [show submitted = (answer, s) from hanswer]
          exact hheld
        · rw [show submitted = (answer, s) from hanswer]
          intro receipt hreceipt
          obtain ⟨outcome, houtcome, rfl⟩ := Option.map_eq_some_iff.mp hreceipt
          exact hrefused outcome houtcome
      · rw [hpayload] at hhash
        have hport : (InMemoryControllerStore.port sha).commitAcceptance s writes =
          s.commitAcceptance sha writes := rfl
        rw [hport] at hcommit
        rcases commitAcceptance_cases sha s writes with
          ⟨-, hstored⟩ | ⟨-, spec, hfailed⟩
        · rw [hstored] at hcommit
          rw [show submitted = _ from hcommit]
          exact ⟨some receipt, hheld.accept hid hhash hwrites, rfl, rfl⟩
        · rw [hfailed] at hcommit
          refine ⟨none, ?_, ?_⟩
          · rw [show submitted = _ from hcommit]
            exact { hheld with }
          · rw [show submitted = _ from hcommit]
            intro refusal hrefusal
            obtain ⟨outcome, houtcome, rfl⟩ := Option.map_eq_some_iff.mp hrefusal
            exact refused_map (by decide) outcome houtcome

/-- A node that submits does so with the stable command. -/
theorem Held.submitStable (hreceipts : codec.StoresReceipts)
    (hheld : Held codec sha s.store before foreign) (providers : Providers)
    (runNamespace : String) (revision : Nat) :
    let submitted := submitStable codec sha (InMemoryControllerStore.port sha) providers s
      runNamespace revision
    ∃ after, Held codec sha submitted.2.store after foreign ∧
      Moves (buildStableCommand runNamespace revision).isSome submitted.1 before after := by
  intro submitted
  cases hbuilt : buildStableCommand runNamespace revision with
  | none =>
      have hnothing : submitted = (none, s) := submitStable_of_none hbuilt
      rw [hnothing]
      exact ⟨before, hheld, Moves.idle before⟩
  | some command =>
      obtain ⟨hid, hpayload⟩ := buildStableCommand_eq_some hbuilt
      obtain ⟨after, hafter, hmoves⟩ := hheld.submit hreceipts providers hid hpayload
      rw [show submitted = _ from submitStable_of_some hbuilt]
      exact ⟨after, hafter, hmoves⟩

/-- The events that a call of somebody else appends. -/
def foreignEvents (answer : GraphAnswer) : Nat := if answer.foreignEvent then 1 else 0

/-- Someone else's command is stored with its event, or nothing is. -/
theorem Held.submitForeign (hheld : Held codec sha s.store before foreign)
    (providers : Providers) {command : ControllerCommand}
    (hother : command.commandId ≠ stableCommandId) :
    let submitted := SpikeController.submitImpl codec sha (InMemoryControllerStore.port sha)
      providers command s
    Held codec sha submitted.2.store before
      (foreign + foreignEvents (.foreign submitted.1)) := by
  intro submitted
  rcases SpikeController.submitImpl_cases codec sha (InMemoryControllerStore.port sha)
      providers command s with
    ⟨answer, hanswer, hunappended⟩ | ⟨state, receipt, writes, -, -, hfollows, hcommit⟩
  · rw [show submitted = (answer, s) from hanswer]
    have hnone : foreignEvents (.foreign answer) = 0 := by
      cases answer with
      | none => rfl
      | some outcome =>
          simp only [foreignEvents, GraphAnswer.foreignEvent, hunappended outcome rfl,
            Bool.false_eq_true, if_false]
    rw [hnone]
    exact hheld
  · have hport : (InMemoryControllerStore.port sha).commitAcceptance s writes =
      s.commitAcceptance sha writes := rfl
    rw [hport] at hcommit
    rcases commitAcceptance_cases sha s writes with ⟨-, hstored⟩ | ⟨-, spec, hfailed⟩
    · rw [hstored] at hcommit
      rw [show submitted = _ from hcommit]
      exact hheld.acceptForeign (by rwa [hfollows.inbox]) (by rwa [hfollows.outbox])
    · rw [hfailed] at hcommit
      rw [show submitted = _ from hcommit]
      have hnone : ∀ receipt : Option CommandReceipt, foreignEvents (.foreign
          (receipt.map fun receipt => { receipt := receipt })) = 0 := by
        intro receipt
        cases receipt <;> rfl
      rw [hnone]
      exact { hheld with }

/-- What one call does to the acceptance. -/
theorem Held.step (hreceipts : codec.StoresReceipts)
    (hheld : Held codec sha s.store before foreign) (call : GraphCall) :
    let stepped := graphStep codec sha (InMemoryControllerStore.port sha) s call
    ∃ after, Held codec sha stepped.2.store after (foreign + foreignEvents stepped.1) ∧
      Moves call.submits stepped.1.receipt? before after := by
  intro stepped
  cases call with
  | setHooks first second => exact ⟨before, { hheld with }, Moves.idle before⟩
  | foreign providers command other =>
      exact ⟨before, hheld.submitForeign providers other, Moves.idle before⟩
  | submitNode providers state =>
      obtain ⟨after, hafter, hmoves⟩ := hheld.submitStable hreceipts providers
        (state.runNamespace.getD "run-default") (state.counterRevision.getD 0)
      have hreceipt : stepped.1.receipt? = _ := receipt?_submitUpdate codec state _
      exact ⟨after, hafter, by rw [hreceipt]; exact hmoves⟩
  | confirmNode providers state decision =>
      cases decision with
      | none => exact ⟨before, hheld, Moves.idle before⟩
      | some decision =>
          obtain ⟨after, hafter, hmoves⟩ := hheld.submitStable hreceipts providers
            (state.runNamespace.getD "run-default") 0
          have hreceipt : stepped.1.receipt? = _ :=
            receipt?_confirmUpdate codec state decision _
          exact ⟨after, hafter, by rw [hreceipt]; exact hmoves⟩

end Memory

section Runs

variable {codec : Codec} {sha : Sha256} {s : InMemoryControllerStore}
  {before after : Option CommandReceipt} {foreign : Nat}

/-- What the nodes that submitted were given, in order. -/
def submittedReceipts (entries : List (GraphCall × GraphAnswer)) :
    List (Option CommandReceipt) :=
  (entries.filter fun entry => entry.1.submits).map fun entry => entry.2.receipt?

/-- The events of other commands along a run. -/
def foreignTotal (entries : List (GraphCall × GraphAnswer)) : Nat :=
  (entries.map fun entry => foreignEvents entry.2).sum

/-- The answers are refusals, and from the acceptance on the one receipt. -/
def AnswersOnce (given : List (Option CommandReceipt)) :
    Option CommandReceipt → Option CommandReceipt → Prop
  | some receipt, after =>
      after = some receipt ∧ ∃ count, given = List.replicate count (some receipt)
  | none, none => ∀ answer ∈ given, ∀ receipt, answer = some receipt →
      receipt.status ≠ .accepted
  | none, some receipt => ∃ refused count,
      given = refused ++ List.replicate (count + 1) (some receipt) ∧
        ∀ answer ∈ refused, ∀ other, answer = some other → other.status ≠ .accepted

theorem AnswersOnce.cons {submitted : Bool} {answer : Option CommandReceipt}
    {middle : Option CommandReceipt} {given : List (Option CommandReceipt)}
    (hmoves : Moves submitted answer before middle) (hgiven : AnswersOnce given middle after) :
    AnswersOnce ((if submitted then [answer] else []) ++ given) before after := by
  cases before with
  | some receipt =>
      obtain ⟨rfl, hanswer⟩ := hmoves
      obtain ⟨rfl, count, rfl⟩ := hgiven
      cases submitted with
      | false => exact ⟨rfl, count, rfl⟩
      | true => exact ⟨rfl, count + 1, by rw [hanswer]; rfl⟩
  | none =>
      cases middle with
      | some receipt =>
          obtain ⟨rfl, rfl⟩ := hmoves
          obtain ⟨rfl, count, rfl⟩ := hgiven
          exact ⟨[], count, rfl, by simp⟩
      | none =>
          have hfirst : ∀ answer' ∈ (if submitted then [answer] else []),
              ∀ receipt, answer' = some receipt → receipt.status ≠ .accepted := by
            intro answer' hmem receipt hsome
            split at hmem
            · rw [List.mem_singleton.mp hmem] at hsome
              exact hmoves receipt hsome
            · cases hmem
          cases after with
          | none =>
              intro answer' hmem
              rcases List.mem_append.mp hmem with hnow | hlater
              · exact hfirst answer' hnow
              · exact hgiven answer' hlater
          | some receipt =>
              obtain ⟨refused, count, rfl, hrefused⟩ := hgiven
              refine ⟨_ ++ refused, count, (List.append_assoc _ _ _).symm, ?_⟩
              intro answer' hmem
              rcases List.mem_append.mp hmem with hnow | hlater
              · exact hfirst answer' hnow
              · exact hrefused answer' hlater

theorem Held.run (hreceipts : codec.StoresReceipts)
    (hheld : Held codec sha s.store before foreign) (calls : List GraphCall) :
    let step := graphStep codec sha (InMemoryControllerStore.port sha)
    ∃ after, Held codec sha (exec step s calls).store after
        (foreign + foreignTotal (trace step s calls)) ∧
      AnswersOnce (submittedReceipts (trace step s calls)) before after := by
  intro step
  induction calls generalizing s before foreign with
  | nil =>
      refine ⟨before, hheld, ?_⟩
      cases before with
      | none => intro answer hmem; cases hmem
      | some receipt => exact ⟨rfl, 0, rfl⟩
  | cons call rest ih =>
      obtain ⟨middle, hmiddle, hmoves⟩ := hheld.step hreceipts call
      obtain ⟨after, hafter, hanswers⟩ := ih hmiddle
      have htrace : trace step s (call :: rest) =
        (call, (step s call).1) :: trace step (step s call).2 rest := rfl
      have hgiven : submittedReceipts (trace step s (call :: rest)) =
          (if call.submits then [(step s call).1.receipt?] else []) ++
            submittedReceipts (trace step (step s call).2 rest) := by
        rw [htrace, submittedReceipts, List.filter_cons]
        cases call.submits <;> rfl
      have htotal : foreignTotal (trace step s (call :: rest)) =
          foreignEvents (step s call).1 + foreignTotal (trace step (step s call).2 rest) := by
        rw [htrace, foreignTotal, List.map_cons, List.sum_cons]
        rfl
      refine ⟨after, ?_, ?_⟩
      · rw [htotal, ← Nat.add_assoc]
        exact hafter
      · rw [hgiven]
        exact AnswersOnce.cons hmoves hanswers

end Runs

section Adapters

variable {codec : Codec} {sha : Sha256}

/-- What a call asks of the controller. -/
def GraphCall.request : GraphCall → Option SpikeCall
  | .submitNode providers state =>
      (buildStableCommand (state.runNamespace.getD "run-default")
        (state.counterRevision.getD 0)).map (.submit providers)
  | .confirmNode providers state (some _) =>
      (buildStableCommand (state.runNamespace.getD "run-default") 0).map (.submit providers)
  | .confirmNode _ _ none => none
  | .foreign providers command _ => some (.submit providers command)
  | .setHooks before after => some (.setHooks before after)

/-- The store after a call is the one that its request leaves. -/
theorem graphStep_state {σ : Type} (port : ControllerPersistencePort σ) (s : σ)
    (call : GraphCall) :
    (graphStep codec sha port s call).2 =
      match call.request with
      | none => s
      | some request => (step codec sha port s request).2 := by
  cases call with
  | setHooks first second => rfl
  | foreign providers command other => rfl
  | submitNode providers state =>
      simp only [graphStep, submitNode, submitStable, GraphCall.request]
      cases buildStableCommand (state.runNamespace.getD "run-default")
          (state.counterRevision.getD 0) with
      | none => rfl
      | some command =>
          simp only [Option.map_some, step]
  | confirmNode providers state decision =>
      cases decision with
      | none => rfl
      | some decision =>
          simp only [graphStep, confirmNode, submitStable, GraphCall.request]
          cases buildStableCommand (state.runNamespace.getD "run-default") 0 with
          | none => rfl
          | some command =>
              simp only [Option.map_some, step]

section Congruence

variable {σ τ : Type} {port : ControllerPersistencePort σ}
  {port' : ControllerPersistencePort τ} {s : σ} {t : τ} {providers : Providers}

theorem submitImpl_of_step {command : ControllerCommand}
    (hsame : (step codec sha port s (.submit providers command)).1 =
      (step codec sha port' t (.submit providers command)).1) :
    (SpikeController.submitImpl codec sha port providers command s).1 =
      (SpikeController.submitImpl codec sha port' providers command t).1 :=
  SpikeAnswer.submitted.inj hsame

theorem submitStable_congr {runNamespace : String} {revision : Nat}
    (hsame : ∀ request, (buildStableCommand runNamespace revision).map
        (SpikeCall.submit providers) = some request →
      (step codec sha port s request).1 = (step codec sha port' t request).1) :
    (submitStable codec sha port providers s runNamespace revision).1 =
      (submitStable codec sha port' providers t runNamespace revision).1 := by
  unfold submitStable
  cases hbuilt : buildStableCommand runNamespace revision with
  | none => rfl
  | some command =>
      have hanswer := submitImpl_of_step (hsame (.submit providers command) (by rw [hbuilt]; rfl))
      simp only [hanswer]

/-- Calls whose requests are answered alike are answered alike. -/
theorem graphStep_congr {call : GraphCall}
    (hsame : ∀ request, call.request = some request →
      (step codec sha port s request).1 = (step codec sha port' t request).1) :
    (graphStep codec sha port s call).1 = (graphStep codec sha port' t call).1 := by
  cases call with
  | setHooks first second => rfl
  | foreign providers command other =>
      have hanswer := submitImpl_of_step (hsame (.submit providers command) rfl)
      simp only [graphStep, hanswer]
  | submitNode providers state =>
      have hanswer := submitStable_congr hsame
      simp only [graphStep, submitNode, hanswer]
  | confirmNode providers state decision =>
      cases decision with
      | none => rfl
      | some decision =>
          have hanswer := submitStable_congr hsame
          simp only [graphStep, confirmNode, hanswer]

end Congruence

/-- Over the same calls with fresh event ids the two adapters answer every node
alike. -/
theorem graph_matches_run (used : List String) (hintegers : codec.RefusesLargeIntegers)
    {mem : InMemoryControllerStore} {sql : SqliteControllerStore} (h : Matches sha mem sql)
    (hused : UsesIds used mem) (calls : List GraphCall)
    (hfresh : (used ++ eventIds (calls.filterMap GraphCall.request)).Nodup) :
    answers (graphStep codec sha (InMemoryControllerStore.port sha)) mem calls =
        answers (graphStep codec sha (SqliteControllerStore.port sha)) sql calls ∧
      Matches sha (exec (graphStep codec sha (InMemoryControllerStore.port sha)) mem calls)
        (exec (graphStep codec sha (SqliteControllerStore.port sha)) sql calls) := by
  induction calls generalizing mem sql used with
  | nil => exact ⟨rfl, h⟩
  | cons call rest ih =>
      rw [answers, answers, exec_cons, exec_cons, graphStep_state, graphStep_state]
      cases hrequest : call.request with
      | none =>
          rw [List.filterMap_cons_none hrequest] at hfresh
          have hanswer : (graphStep codec sha (InMemoryControllerStore.port sha) mem call).1 =
              (graphStep codec sha (SqliteControllerStore.port sha) sql call).1 := by
            refine graphStep_congr fun request hsome => ?_
            rw [hrequest] at hsome
            cases hsome
          obtain ⟨hanswers, hfinal⟩ := ih used h hused hfresh
          exact ⟨by rw [hanswer, hanswers], hfinal⟩
      | some request =>
          rw [List.filterMap_cons_some hrequest,
            show eventIds (request :: rest.filterMap GraphCall.request) =
              eventIds [request] ++ eventIds (rest.filterMap GraphCall.request) from
                List.filterMap_append (l := [request]), ← List.append_assoc] at hfresh
          have hdisjoint : ∀ id ∈ eventIds [request], id ∉ used := fun id hid hold =>
            List.disjoint_of_nodup_append
              (hfresh.sublist (List.sublist_append_left _ _)) hold hid
          obtain ⟨hanswer, hmatches, hused'⟩ :=
            matches_step hintegers h hused request hdisjoint
          have hnode : (graphStep codec sha (InMemoryControllerStore.port sha) mem call).1 =
              (graphStep codec sha (SqliteControllerStore.port sha) sql call).1 := by
            refine graphStep_congr fun other hsome => ?_
            rw [hrequest] at hsome
            cases hsome
            exact hanswer
          obtain ⟨hanswers, hfinal⟩ := ih _ hmatches hused' hfresh
          exact ⟨by rw [hnode]; exact congrArg _ hanswers, hfinal⟩

end Adapters

/-- Whatever states the nodes of the graph are run on and in whatever order, and
whatever faults and commands of others come between: the nodes that submit are
refused until one of them is accepted, and from then on all of them are given the
receipt of that acceptance; the command has one event and one outbox row then, and
none before.  The SQLite adapter answers every node as the in-memory one does. -/
theorem graph_accepts_once (codec : Codec) (hreceipts : codec.StoresReceipts) (sha : Sha256)
    (spec : FaultSpec) (calls : List GraphCall) :
    let memory := graphStep codec sha (InMemoryControllerStore.port sha)
    let sqlite := graphStep codec sha (SqliteControllerStore.port sha)
    let entries := trace memory (.init spec) calls
    let store := (exec memory (.init spec) calls).store
    (∃ accepted, AnswersOnce (submittedReceipts entries) none accepted ∧
      (∀ receipt, accepted = some receipt → receipt.status = .accepted) ∧
      stableRows store = accepted.toList.length ∧
      store.events.length = foreignTotal entries + accepted.toList.length) ∧
    (codec.RefusesLargeIntegers →
      (eventIds (calls.filterMap GraphCall.request)).Nodup →
        trace sqlite (.init spec) calls = entries ∧
        SqliteControllerStore.orderedEvents (exec sqlite (.init spec) calls).database =
          store.events) := by
  intro memory sqlite entries store
  constructor
  · obtain ⟨accepted, hheld, hanswers⟩ := Held.run hreceipts
      (show Held codec sha (InMemoryControllerStore.init spec).store none 0 from
        held_init codec sha) calls
    refine ⟨accepted, hanswers, fun receipt hsome => (hheld.stored receipt hsome).1,
      hheld.rows, ?_⟩
    rw [hheld.events, Nat.zero_add]
  · intro hintegers hfresh
    obtain ⟨hanswers, hmatches⟩ := graph_matches_run [] hintegers (matches_init sha spec)
      (fun _ hmem => absurd hmem List.not_mem_nil) calls hfresh
    exact ⟨by rw [trace, ← hanswers]; rfl, hmatches.orderedEvents⟩

/-! A node with a commit that fails, the resumed gate, and another thread whose
checkpoint is stale. -/

namespace GraphWitness

open EventChain SpikeWitness

theorem codec_storesReceipts : codec.StoresReceipts := by
  intro receipt
  have hwrites : codec.receiptJson = (referenceCodec id).receiptJson := rfl
  have hreads : codec.receiptOfJson = (referenceCodec id).receiptOfJson := rfl
  rw [hwrites, hreads]
  exact ReferenceCodec.storesReceipts id receipt

def calls : List GraphCall :=
  [.setHooks [] [3], .submitNode (providers "evt_1") { runNamespace := some "run-1" },
    .setHooks [] [], .confirmNode (providers "evt_2") { runNamespace := some "run-1" } none,
    .confirmNode (providers "evt_3") { runNamespace := some "run-1" } (some "proceed"),
    .submitNode (providers "evt_4")
      { runNamespace := some "run-2", counterRevision := some 7 }]

def memory : InMemoryControllerStore → GraphCall → GraphAnswer × InMemoryControllerStore :=
  graphStep codec EventChainWitness.sha (InMemoryControllerStore.port EventChainWitness.sha)

def sqlite : SqliteControllerStore → GraphCall → GraphAnswer × SqliteControllerStore :=
  graphStep codec EventChainWitness.sha (SqliteControllerStore.port EventChainWitness.sha)

theorem accepts_once_on_calls :
    (∃ accepted, AnswersOnce (submittedReceipts (trace memory (.init {}) calls)) none
        accepted ∧
      stableRows (exec memory (.init {}) calls).store = accepted.toList.length) ∧
    trace sqlite (.init {}) calls = trace memory (.init {}) calls ∧
    (submittedReceipts (trace memory (.init {}) calls)).length = 3 := by
  obtain ⟨⟨accepted, hanswers, -, hrows, -⟩, hsame⟩ :=
    graph_accepts_once codec codec_storesReceipts EventChainWitness.sha {} calls
  exact ⟨⟨accepted, hanswers, hrows⟩,
    (hsame codec_refusesLargeIntegers (by decide +kernel)).1, by decide +kernel⟩

end GraphWitness

end GraphSpike

end Spike

end HermesPipeline
