/-
The SQLite transaction store: five tables with the primary keys of the
migrations.  Every operation is one transaction, so a raised statement leaves
all tables as they were; any exception is translated to a persistence error.
-/
import HermesPipeline.TransactionStore

namespace HermesPipeline

open Lib

/-- The integers an SQLite column or comparison can hold. -/
def fitsInt64 (n : Int) : Bool :=
  -9223372036854775808 ≤ n && n ≤ 9223372036854775807

structure SqliteKernelStore where
  inbox : Keyed InboxRecord.key
  events : Keyed EventWrite.eventId
  pipelines : Keyed PipelineSnapshot.key
  outbox : Keyed OutboxRecord.key
  leases : Keyed LeaseRecord.key
  /-- `_fail_after == "event"`. -/
  failAfter : Bool
  failRead : Bool
deriving DecidableEq

namespace SqliteKernelStore

def init : SqliteKernelStore :=
  ⟨.empty, .empty, .empty, .empty, .empty, false, false⟩

def tripCommitFailure (s : SqliteKernelStore) : SqliteKernelStore :=
  { s with failAfter := true }

def tripReadFailure (s : SqliteKernelStore) : SqliteKernelStore :=
  { s with failRead := true }

def findInbox (s : SqliteKernelStore) (workspaceId commandId : String) :
    Option InboxRecord :=
  s.inbox.find? (workspaceId, commandId)

def loadPipeline (s : SqliteKernelStore) (workspaceId pipelineId : String) :
    Except PyError (Option PipelineSnapshot) × SqliteKernelStore :=
  if s.failRead then (.error .persistence, { s with failRead := false })
  else if workspaceId = "" then (.ok none, s)
  else (.ok (s.pipelines.find? (workspaceId, pipelineId)), s)

/-- The three inserts of a commit; `none` when one of them breaks a primary
key or its integer cannot be bound. -/
def insertAccepted (s : SqliteKernelStore) (write : AcceptedWrite) :
    Option SqliteKernelStore := do
  let inbox ← s.inbox.insert? write.inbox
  guard (fitsInt64 write.event.pipelineRevision)
  let events ← s.events.insert? write.event
  let outbox ← s.outbox.insert? write.outbox
  return { s with inbox := inbox, events := events, outbox := outbox }

/-- The fault strikes after the inserts and before the upsert; the transaction
is rolled back then. -/
def commitAccepted (s : SqliteKernelStore) (write : AcceptedWrite) :
    Except PyError Unit × SqliteKernelStore :=
  match s.insertAccepted write with
  | none => (.error .persistence, s)
  | some inserted =>
      if s.failAfter then (.error .persistence, { s with failAfter := false })
      else if fitsInt64 write.pipeline.revision then
        (.ok (), { inserted with
          pipelines := inserted.pipelines.upsert write.pipeline })
      else (.error .persistence, s)

/-- `_list_events_on`: the order of equal revisions is left to the engine, as
rows come in insertion order. -/
def listEventsOn (s : SqliteKernelStore) (workspaceId pipelineId : String) :
    List EventWrite :=
  sortByRevision (s.events.rows.filter fun event =>
    event.pipelineId = pipelineId ∧ event.workspaceId = workspaceId)

def listEvents (s : SqliteKernelStore) (workspaceId pipelineId : String) :
    List EventWrite :=
  if workspaceId = "" then [] else s.listEventsOn workspaceId pipelineId

def deletePipeline (s : SqliteKernelStore) (workspaceId pipelineId : String) :
    SqliteKernelStore :=
  if workspaceId = "" then s
  else { s with pipelines := s.pipelines.erase (workspaceId, pipelineId) }

def rebuildPipeline (codec : Codec) (s : SqliteKernelStore)
    (workspaceId pipelineId : String) :
    Except PyError PipelineSnapshot × SqliteKernelStore :=
  if workspaceId = "" then (foldPipelineEvents codec "" pipelineId [], s)
  else
    let deleted := s.deletePipeline workspaceId pipelineId
    match foldPipelineEvents codec workspaceId pipelineId
        (deleted.listEventsOn workspaceId pipelineId) with
    | .error _ => (.error .persistence, s)
    | .ok snapshot =>
        if fitsInt64 snapshot.revision then
          (.ok snapshot, { deleted with
            pipelines := deleted.pipelines.upsert snapshot })
        else (.error .persistence, s)

/-- `_outbox_from_row`: an empty stored receipt reads as none. -/
def outboxFromRow (row : OutboxRecord) : OutboxRecord :=
  { row with deliveryReceiptJson := row.deliveryReceiptJson.filter (· ≠ "") }

def listPendingOutbox (s : SqliteKernelStore) (workspaceId : String) :
    List OutboxRecord :=
  if workspaceId = "" then []
  else (sortByCommandId (s.outbox.rows.filter fun row =>
    row.workspaceId = workspaceId ∧ row.isPending)).map outboxFromRow

def recordOutboxDelivery (s : SqliteKernelStore)
    (workspaceId commandId deliveryReceiptJson : String) : SqliteKernelStore :=
  if workspaceId = "" then s
  else
    let outbox := s.outbox.updateWhere
      (fun row => row.workspaceId = workspaceId ∧ row.commandId = commandId ∧
        row.isPending)
      (fun row => { row with deliveryReceiptJson := some deliveryReceiptJson })
      (fun _ => rfl)
    { s with outbox := outbox }

def findOutbox (s : SqliteKernelStore) (workspaceId commandId : String) :
    Option OutboxRecord :=
  if workspaceId = "" then none
  else (s.outbox.find? (workspaceId, commandId)).map outboxFromRow

def loadLease (s : SqliteKernelStore) (workspaceId pipelineId : String) :
    Option LeaseRecord :=
  if workspaceId = "" then none else s.leases.find? (workspaceId, pipelineId)

def saveLease (s : SqliteKernelStore) (record : LeaseRecord) :
    Except PyError Unit × SqliteKernelStore :=
  if record.workspaceId = "" then (.ok (), s)
  else if fitsInt64 record.generation && fitsInt64 record.expiresAt then
    (.ok (), { s with leases := s.leases.upsert record })
  else (.error .persistence, s)

def deleteLease (s : SqliteKernelStore) (workspaceId pipelineId : String) :
    SqliteKernelStore :=
  if workspaceId = "" then s
  else { s with leases := s.leases.erase (workspaceId, pipelineId) }

def deleteExpiredLeases (s : SqliteKernelStore) (now : Int) :
    Except PyError Unit × SqliteKernelStore :=
  if fitsInt64 now then
    let leases := s.leases.deleteWhere fun row => decide (row.expiresAt < now)
    (.ok (), { s with leases := leases })
  else (.error .persistence, s)

/-- A new store object on the same database file. -/
def reopen (s : SqliteKernelStore) : SqliteKernelStore :=
  { s with failAfter := false, failRead := false }

def counts (s : SqliteKernelStore) : StoreCounts :=
  ⟨s.inbox.rows.length, s.events.rows.length, s.pipelines.rows.length,
    s.outbox.rows.length⟩

/-- The store as the object behind the controller's port. -/
def handle (codec : Codec) :
    Handler StoreOp StoreOp.Answer PyError SqliteKernelStore
  | .findInbox ws cmd, s => (.ok (s.findInbox ws cmd), s)
  | .loadPipeline ws pl, s => s.loadPipeline ws pl
  | .commitAccepted write, s => s.commitAccepted write
  | .listEvents ws pl, s => (.ok (s.listEvents ws pl), s)
  | .rebuildPipeline ws pl, s => s.rebuildPipeline codec ws pl
  | .deletePipeline ws pl, s => (.ok (), s.deletePipeline ws pl)
  | .listPendingOutbox ws, s => (.ok (s.listPendingOutbox ws), s)
  | .recordOutboxDelivery ws cmd receipt, s =>
      (.ok (), s.recordOutboxDelivery ws cmd receipt)
  | .findOutbox ws cmd, s => (.ok (s.findOutbox ws cmd), s)
  | .loadLease ws pl, s => (.ok (s.loadLease ws pl), s)
  | .saveLease record, s => s.saveLease record
  | .deleteLease ws pl, s => (.ok (), s.deleteLease ws pl)
  | .deleteExpiredLeases now, s => s.deleteExpiredLeases now
  | .counts, s => (.ok s.counts, s)

end SqliteKernelStore

def sqliteStore (codec : Codec) : TransactionStore SqliteKernelStore where
  init := .init
  handle := SqliteKernelStore.handle codec
  tripCommitFailure := SqliteKernelStore.tripCommitFailure
  tripReadFailure := SqliteKernelStore.tripReadFailure

end HermesPipeline
