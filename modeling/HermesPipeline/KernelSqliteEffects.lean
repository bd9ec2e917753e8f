/-
The rows of the SQLite store read as the dictionaries of the memory store, and
what reads and commits do to them.
-/
import HermesPipeline.KernelMemoryEffects

namespace HermesPipeline

open Lib KernelController

namespace SqliteKernelStore

variable {codec : Codec}

/-- The same rows as dictionaries. -/
def asMemory (s : SqliteKernelStore) : MemoryKernelStore where
  inbox := s.inbox.toDict
  events := s.events.rows
  pipelines := s.pipelines.toDict
  outbox := s.outbox.toDict
  leases := s.leases.toDict
  failAfter := s.failAfter
  failRead := s.failRead

theorem loadPipeline_asMemory (s : SqliteKernelStore) (ws pl : String) :
    s.asMemory.loadPipeline ws pl =
      ((s.loadPipeline ws pl).1, (s.loadPipeline ws pl).2.asMemory) := by
  simp only [MemoryKernelStore.loadPipeline, loadPipeline, asMemory,
    Keyed.get?_toDict]
  split
  · rfl
  · split <;> rfl

theorem handle_read_asMemory (op : StoreOp) (s : SqliteKernelStore)
    (hread : op.IsRead) :
    ((handle codec op s).2).asMemory.tables = s.asMemory.tables := by
  cases op with
  | loadPipeline ws pl =>
      have hload : (s.asMemory.loadPipeline ws pl).2 =
          (s.loadPipeline ws pl).2.asMemory := by rw [s.loadPipeline_asMemory]
      change (s.loadPipeline ws pl).2.asMemory.tables = _
      rw [← hload]
      exact s.asMemory.loadPipeline_tables ws pl
  | findInbox | listEvents | listPendingOutbox | findOutbox | loadLease
  | counts => rfl
  | commitAccepted | rebuildPipeline | deletePipeline | recordOutboxDelivery
  | saveLease | deleteLease | deleteExpiredLeases => exact absurd hread id

/-- The three inserts go through exactly when no key is taken and the revision
can be bound. -/
theorem insertAccepted_eq_some {s inserted : SqliteKernelStore}
    {write : AcceptedWrite} (hinsert : s.insertAccepted write = some inserted) :
    ∃ inbox events outbox,
      s.inbox.insert? write.inbox = some inbox ∧
        s.events.insert? write.event = some events ∧
        s.outbox.insert? write.outbox = some outbox ∧
        fitsInt64 write.event.pipelineRevision = true ∧
        inserted = { s with inbox := inbox, events := events, outbox := outbox } := by
  simp only [insertAccepted, Option.bind_eq_bind, Option.bind_eq_some_iff] at hinsert
  obtain ⟨inbox, hinbox, _, hguard, events, hevents, outbox, houtbox, hdone⟩ :=
    hinsert
  refine ⟨inbox, events, outbox, hinbox, hevents, houtbox, ?_,
    (Option.some.inj hdone).symm⟩
  simpa [guard] using hguard

theorem commitAccepted_error {s s' : SqliteKernelStore} {write : AcceptedWrite}
    {error : PyError} (hcommit : s.commitAccepted write = (.error error, s')) :
    s'.asMemory.tables = s.asMemory.tables := by
  unfold commitAccepted at hcommit
  split at hcommit
  · cases hcommit
    rfl
  · split at hcommit
    · cases hcommit
      rfl
    · split at hcommit
      · cases hcommit
      · cases hcommit
        rfl

/-- A commit that went through has inserted its rows and replaced the
snapshot. -/
theorem commitAccepted_ok {s s' : SqliteKernelStore} {write : AcceptedWrite}
    (hcommit : s.commitAccepted write = (.ok (), s')) :
    s.failAfter = false ∧
      ∃ inbox events outbox,
        s.inbox.insert? write.inbox = some inbox ∧
          s.events.insert? write.event = some events ∧
          s.outbox.insert? write.outbox = some outbox ∧
          s' = { s with
            inbox := inbox
            events := events
            outbox := outbox
            pipelines := s.pipelines.upsert write.pipeline } := by
  unfold commitAccepted at hcommit
  split at hcommit
  · cases hcommit
  · next inserted hinsert =>
      obtain ⟨inbox, events, outbox, hinbox, hevents, houtbox, -, rfl⟩ :=
        insertAccepted_eq_some hinsert
      split at hcommit
      · cases hcommit
      · next hfail =>
          split at hcommit
          · cases hcommit
            exact ⟨by simpa using hfail, inbox, events, outbox, hinbox, hevents,
              houtbox, rfl⟩
          · cases hcommit

theorem outbox_of_commit {s s' : SqliteKernelStore} {write : AcceptedWrite}
    (hcommit : s.commitAccepted write = (.ok (), s')) :
    s'.outbox.rows = s.outbox.rows ++ [write.outbox] := by
  obtain ⟨-, inbox, events, outbox, -, -, houtbox, rfl⟩ :=
    commitAccepted_ok hcommit
  exact ((s.outbox.insert?_eq_some_iff _ _).mp houtbox).2

theorem storeLaws : StoreLaws (handle codec) fun s => s.asMemory.tables where
  read_view := handle_read_asMemory
  findInbox_same := fun _ _ _ => rfl
  loadLease_same := fun _ _ _ => rfl
  loadPipeline_same := by
    intro ws pl s snapshot s' hload
    simp only [handle, loadPipeline] at hload
    split at hload
    · cases hload
    · split at hload <;> cases hload <;> rfl
  commit_error := fun _ _ _ _ hcommit => commitAccepted_error hcommit

end SqliteKernelStore

end HermesPipeline
