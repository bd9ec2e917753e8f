/-
The in-memory transaction store: four dictionaries, an event list and two
fault switches.  A commit stages copies and publishes them together.
-/
import HermesPipeline.TransactionStore

namespace HermesPipeline

open Lib

structure MemoryKernelStore where
  inbox : Dict (String × String) InboxRecord
  events : List EventWrite
  pipelines : Dict (String × String) PipelineSnapshot
  outbox : Dict (String × String) OutboxRecord
  leases : Dict (String × String) LeaseRecord
  /-- `_fail_after == "event"`. -/
  failAfter : Bool
  failRead : Bool
deriving DecidableEq

namespace MemoryKernelStore

def init : MemoryKernelStore :=
  ⟨.empty, [], .empty, .empty, .empty, false, false⟩

def tripCommitFailure (s : MemoryKernelStore) : MemoryKernelStore :=
  { s with failAfter := true }

def tripReadFailure (s : MemoryKernelStore) : MemoryKernelStore :=
  { s with failRead := true }

def findInbox (s : MemoryKernelStore) (workspaceId commandId : String) :
    Option InboxRecord :=
  s.inbox.get? (workspaceId, commandId)

def loadPipeline (s : MemoryKernelStore) (workspaceId pipelineId : String) :
    Except PyError (Option PipelineSnapshot) × MemoryKernelStore :=
  if s.failRead then (.error .persistence, { s with failRead := false })
  else if workspaceId = "" then (.ok none, s)
  else (.ok (s.pipelines.get? (workspaceId, pipelineId)), s)

/-- The fault strikes after the staged event and before the staged snapshot;
nothing staged is published then. -/
def commitAccepted (s : MemoryKernelStore) (write : AcceptedWrite) :
    Except PyError Unit × MemoryKernelStore :=
  if s.failAfter then (.error .persistence, { s with failAfter := false })
  else
    (.ok (), { s with
      inbox := s.inbox.set write.inbox.key write.inbox
      events := s.events ++ [write.event]
      outbox := s.outbox.set write.outbox.key write.outbox
      pipelines := s.pipelines.set write.pipeline.key write.pipeline })

def listEvents (s : MemoryKernelStore) (workspaceId pipelineId : String) :
    List EventWrite :=
  if workspaceId = "" then []
  else sortByRevision (s.events.filter fun event =>
    event.pipelineId = pipelineId ∧ event.workspaceId = workspaceId)

def deletePipeline (s : MemoryKernelStore) (workspaceId pipelineId : String) :
    MemoryKernelStore :=
  if workspaceId = "" then s
  else { s with pipelines := s.pipelines.pop (workspaceId, pipelineId) }

/-- The snapshot is popped before the fold, so a payload that does not parse
leaves the pipeline without one. -/
def rebuildPipeline (codec : Codec) (s : MemoryKernelStore)
    (workspaceId pipelineId : String) :
    Except PyError PipelineSnapshot × MemoryKernelStore :=
  if workspaceId = "" then (foldPipelineEvents codec "" pipelineId [], s)
  else
    let deleted := s.deletePipeline workspaceId pipelineId
    match foldPipelineEvents codec workspaceId pipelineId
        (deleted.listEvents workspaceId pipelineId) with
    | .error error => (.error error, deleted)
    | .ok snapshot => (.ok snapshot, { deleted with
        pipelines := deleted.pipelines.set (workspaceId, pipelineId) snapshot })

def listPendingOutbox (s : MemoryKernelStore) (workspaceId : String) :
    List OutboxRecord :=
  if workspaceId = "" then []
  else sortByCommandId (s.outbox.values.filter fun record =>
    record.workspaceId = workspaceId ∧ record.isPending)

def recordOutboxDelivery (s : MemoryKernelStore)
    (workspaceId commandId deliveryReceiptJson : String) : MemoryKernelStore :=
  if workspaceId = "" then s
  else
    match s.outbox.get? (workspaceId, commandId) with
    | none => s
    | some existing =>
        if existing.isPending then
          let delivered :=
            { existing with deliveryReceiptJson := some deliveryReceiptJson }
          { s with outbox := s.outbox.set (workspaceId, commandId) delivered }
        else s

def findOutbox (s : MemoryKernelStore) (workspaceId commandId : String) :
    Option OutboxRecord :=
  if workspaceId = "" then none else s.outbox.get? (workspaceId, commandId)

def loadLease (s : MemoryKernelStore) (workspaceId pipelineId : String) :
    Option LeaseRecord :=
  if workspaceId = "" then none else s.leases.get? (workspaceId, pipelineId)

def saveLease (s : MemoryKernelStore) (record : LeaseRecord) :
    MemoryKernelStore :=
  if record.workspaceId = "" then s
  else { s with leases := s.leases.set record.key record }

def deleteLease (s : MemoryKernelStore) (workspaceId pipelineId : String) :
    MemoryKernelStore :=
  if workspaceId = "" then s
  else { s with leases := s.leases.pop (workspaceId, pipelineId) }

def deleteExpiredLeases (s : MemoryKernelStore) (now : Int) :
    MemoryKernelStore :=
  { s with leases := s.leases.deleteWhere fun entry =>
      !decide (entry.2.expiresAt ≥ now) }

/-- `MemoryKernelStore.load(store.dump())`: the dictionaries are filled again
from the dumped records, and the fault switches are off. -/
def reopen (s : MemoryKernelStore) : MemoryKernelStore where
  inbox := Dict.update .empty (s.inbox.values.map fun row => (row.key, row))
  events := s.events
  pipelines := Dict.update .empty (s.pipelines.values.map fun row => (row.key, row))
  outbox := Dict.update .empty (s.outbox.values.map fun row => (row.key, row))
  leases := Dict.update .empty (s.leases.values.map fun row => (row.key, row))
  failAfter := false
  failRead := false

def counts (s : MemoryKernelStore) : StoreCounts :=
  ⟨s.inbox.rows.length, s.events.length, s.pipelines.rows.length,
    s.outbox.rows.length⟩

/-- The store as the object behind the controller's port. -/
def handle (codec : Codec) :
    Handler StoreOp StoreOp.Answer PyError MemoryKernelStore
  | .findInbox ws cmd, s => (.ok (s.findInbox ws cmd), s)
  | .loadPipeline ws pl, s => s.loadPipeline ws pl
  | .commitAccepted write, s => s.commitAccepted write
  | .listEvents ws pl, s => (.ok (s.listEvents ws pl), s)
  | .rebuildPipeline ws pl, s => s.rebuildPipeline codec ws pl
  | .deletePipeline ws pl, s => (.ok (), s.deletePipeline ws pl)
  | .listPendingOutbox ws, s => (.ok (s.listPendingOutbox ws), s)
  | .recordOutboxDelivery ws cmd receipt, s =>
      (.ok (), s.recordOutboxDelivery ws cmd receipt)
  | .findOutbox ws cmd, s => (.ok (s.findOutbox ws cmd), s)
  | .loadLease ws pl, s => (.ok (s.loadLease ws pl), s)
  | .saveLease record, s => (.ok (), s.saveLease record)
  | .deleteLease ws pl, s => (.ok (), s.deleteLease ws pl)
  | .deleteExpiredLeases now, s => (.ok (), s.deleteExpiredLeases now)
  | .counts, s => (.ok s.counts, s)

end MemoryKernelStore

def memoryStore (codec : Codec) : TransactionStore MemoryKernelStore where
  init := .init
  handle := MemoryKernelStore.handle codec
  tripCommitFailure := MemoryKernelStore.tripCommitFailure
  tripReadFailure := MemoryKernelStore.tripReadFailure

end HermesPipeline
