/-
The controller's private transaction store: its records, the fold that rebuilds
a pipeline snapshot from the event log, and the operations every store offers.
-/
import HermesPipeline.Contracts
import HermesPipeline.Domain
import HermesPipeline.Lib.Program

namespace HermesPipeline

open Lib

/-- The exceptions that leave a store or a controller operation. -/
inductive PyError
  /-- `PersistenceError("persistence unavailable")`. -/
  | persistence
  /-- `OutboxNotFound("outbox not found")`. -/
  | outboxNotFound
  /-- `LeaseError(message)`. -/
  | lease (message : String)
  /-- A `ValueError` of a serializer, or of reading a parsed text that is no
  object. -/
  | value
deriving Repr, DecidableEq

structure InboxRecord where
  workspaceId : String
  commandId : String
  commandFingerprint : String
  receiptJson : String
deriving Repr, DecidableEq

structure EventWrite where
  eventId : String
  workspaceId : String
  pipelineId : String
  eventType : String
  payloadJson : String
  pipelineRevision : Nat
deriving Repr, DecidableEq

structure PipelineSnapshot where
  workspaceId : String
  pipelineId : String
  status : String
  revision : Nat
  text : String
deriving Repr, DecidableEq

structure OutboxRecord where
  workspaceId : String
  commandId : String
  effectType : String
  payloadJson : String
  deliveryReceiptJson : Option String := none
deriving Repr, DecidableEq

structure AcceptedWrite where
  inbox : InboxRecord
  event : EventWrite
  pipeline : PipelineSnapshot
  outbox : OutboxRecord
deriving Repr, DecidableEq

/-- A lease; a generation below one cannot be built. -/
structure LeaseRecord where
  workspaceId : String
  pipelineId : String
  attemptId : String
  runId : String
  holder : String
  generation : Nat
  expiresAt : Int
  generation_pos : 1 ≤ generation
deriving Repr, DecidableEq

structure StoreCounts where
  inbox : Nat
  events : Nat
  pipelines : Nat
  outbox : Nat
deriving Repr, DecidableEq

def InboxRecord.key (record : InboxRecord) : String × String :=
  (record.workspaceId, record.commandId)

def EventWrite.scope (event : EventWrite) : String × String :=
  (event.workspaceId, event.pipelineId)

def PipelineSnapshot.key (snapshot : PipelineSnapshot) : String × String :=
  (snapshot.workspaceId, snapshot.pipelineId)

def OutboxRecord.key (record : OutboxRecord) : String × String :=
  (record.workspaceId, record.commandId)

def LeaseRecord.key (record : LeaseRecord) : String × String :=
  (record.workspaceId, record.pipelineId)

/-- `not record.delivery_receipt_json`: no receipt, or an empty one. -/
def OutboxRecord.isPending (record : OutboxRecord) : Bool :=
  record.deliveryReceiptJson = none || record.deliveryReceiptJson = some ""

/-- The snapshot of a pipeline without events. -/
def PipelineSnapshot.initial (workspaceId pipelineId : String) :
    PipelineSnapshot :=
  ⟨workspaceId, pipelineId, "UNCONFIRMED", 0, ""⟩

section Fold

variable (codec : Codec)

/-- One turn of the loop of `fold_pipeline_events`. -/
def foldPipelineEvent (snapshot : PipelineSnapshot) (event : EventWrite) :
    Except PyError PipelineSnapshot :=
  if event.eventType = "REQUIREMENT_CONFIRMED" then
    match codec.loads event.payloadJson with
    | some (.obj members) =>
        .ok { snapshot with
          revision := event.pipelineRevision
          status := "OPEN"
          text := codec.str ((Json.member? members "text").getD (.str "")) }
    | _ => .error .value
  else if event.eventType = "REQUIREMENT_REJECTED" then
    .ok { snapshot with
      revision := event.pipelineRevision
      status := "REJECTED" }
  else .ok { snapshot with revision := event.pipelineRevision }

def foldPipelineEvents (workspaceId pipelineId : String)
    (events : List EventWrite) : Except PyError PipelineSnapshot :=
  events.foldlM (foldPipelineEvent codec)
    (PipelineSnapshot.initial workspaceId pipelineId)

@[simp] theorem foldPipelineEvents_nil (workspaceId pipelineId : String) :
    foldPipelineEvents codec workspaceId pipelineId [] =
      .ok (PipelineSnapshot.initial workspaceId pipelineId) := rfl

theorem foldPipelineEvents_append_singleton {workspaceId pipelineId : String}
    {events : List EventWrite} {snapshot : PipelineSnapshot}
    (hfold : foldPipelineEvents codec workspaceId pipelineId events =
      .ok snapshot) (event : EventWrite) :
    foldPipelineEvents codec workspaceId pipelineId (events ++ [event]) =
      foldPipelineEvent codec snapshot event := by
  rw [foldPipelineEvents] at hfold ⊢
  rw [List.foldlM_append, hfold]
  change (foldPipelineEvent codec snapshot event >>= fun result => pure result) =
    foldPipelineEvent codec snapshot event
  rw [bind_pure]

theorem foldPipelineEvent_ids {snapshot next : PipelineSnapshot}
    {event : EventWrite} (hfold : foldPipelineEvent codec snapshot event = .ok next) :
    next.workspaceId = snapshot.workspaceId ∧
      next.pipelineId = snapshot.pipelineId := by
  unfold foldPipelineEvent at hfold
  split at hfold
  · split at hfold
    · cases hfold
      exact ⟨rfl, rfl⟩
    · cases hfold
  · split at hfold <;> cases hfold <;> exact ⟨rfl, rfl⟩

/-- The fold keeps the scope it was started with. -/
theorem foldPipelineEvents_ids {workspaceId pipelineId : String}
    {events : List EventWrite} {snapshot : PipelineSnapshot}
    (hfold : foldPipelineEvents codec workspaceId pipelineId events =
      .ok snapshot) :
    snapshot.workspaceId = workspaceId ∧ snapshot.pipelineId = pipelineId := by
  have hids : ∀ start final : PipelineSnapshot,
      events.foldlM (foldPipelineEvent codec) start = .ok final →
        final.workspaceId = start.workspaceId ∧
          final.pipelineId = start.pipelineId := by
    clear hfold
    induction events with
    | nil =>
        intro start final hrun
        cases hrun
        exact ⟨rfl, rfl⟩
    | cons event rest ih =>
        intro start final hrun
        rw [List.foldlM_cons] at hrun
        cases hstep : foldPipelineEvent codec start event with
        | error error => simp [hstep, bind, Except.bind] at hrun
        | ok next =>
            obtain ⟨hws, hpl⟩ := foldPipelineEvent_ids codec hstep
            rw [hstep] at hrun
            obtain ⟨hws', hpl'⟩ := ih next final hrun
            exact ⟨hws'.trans hws, hpl'.trans hpl⟩
  exact hids _ _ hfold

end Fold

/-- `sorted(..., key=lambda event: event.pipeline_revision)`. -/
def sortByRevision (events : List EventWrite) : List EventWrite :=
  events.insertionSort fun left right =>
    left.pipelineRevision ≤ right.pipelineRevision

/-- `sorted(..., key=lambda record: record.command_id)`. -/
def sortByCommandId (records : List OutboxRecord) : List OutboxRecord :=
  records.insertionSort fun left right => left.commandId ≤ right.commandId

/-- The operations of `ControllerTransactionStore`. -/
inductive StoreOp
  | findInbox (workspaceId commandId : String)
  | loadPipeline (workspaceId pipelineId : String)
  | commitAccepted (write : AcceptedWrite)
  | listEvents (workspaceId pipelineId : String)
  | rebuildPipeline (workspaceId pipelineId : String)
  | deletePipeline (workspaceId pipelineId : String)
  | listPendingOutbox (workspaceId : String)
  | recordOutboxDelivery (workspaceId commandId deliveryReceiptJson : String)
  | findOutbox (workspaceId commandId : String)
  | loadLease (workspaceId pipelineId : String)
  | saveLease (record : LeaseRecord)
  | deleteLease (workspaceId pipelineId : String)
  | deleteExpiredLeases (now : Int)
  | counts

/-- What each operation returns when it does not raise. -/
@[reducible] def StoreOp.Answer : StoreOp → Type
  | .findInbox _ _ => Option InboxRecord
  | .loadPipeline _ _ => Option PipelineSnapshot
  | .commitAccepted _ => Unit
  | .listEvents _ _ => List EventWrite
  | .rebuildPipeline _ _ => PipelineSnapshot
  | .deletePipeline _ _ => Unit
  | .listPendingOutbox _ => List OutboxRecord
  | .recordOutboxDelivery _ _ _ => Unit
  | .findOutbox _ _ => Option OutboxRecord
  | .loadLease _ _ => Option LeaseRecord
  | .saveLease _ => Unit
  | .deleteLease _ _ => Unit
  | .deleteExpiredLeases _ => Unit
  | .counts => StoreCounts

/-- A program over the store operations. -/
abbrev StoreProgram := Program StoreOp StoreOp.Answer PyError

/-- Perform one store operation; its error is raised. -/
def ask (op : StoreOp) : StoreProgram op.Answer := Program.perform op

/-- An implementation of the store with its two fault switches. -/
structure TransactionStore (σ : Type) where
  init : σ
  handle : Handler StoreOp StoreOp.Answer PyError σ
  tripCommitFailure : σ → σ
  tripReadFailure : σ → σ

end HermesPipeline
