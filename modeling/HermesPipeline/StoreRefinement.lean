/-
The SQLite store refines the memory store.  Read as dictionaries its rows are
the memory store's state, and every operation that a controller can reach
answers the same and keeps the correspondence.
-/
import HermesPipeline.AllOrNothing
import HermesPipeline.EventSourcing

namespace HermesPipeline

open Lib KernelController

/-- The revision of a rebuilt snapshot fits 64 bits. -/
def fitsRebuilt : Except PyError PipelineSnapshot → Bool
  | .ok snapshot => fitsInt64 snapshot.revision
  | .error _ => true

/-- Every integer the operation binds fits 64 bits. -/
def StoreOp.fitsInts (codec : Codec) (op : StoreOp) (s : MemoryKernelStore) :
    Bool :=
  match op with
  | .commitAccepted write =>
      fitsInt64 write.event.pipelineRevision && fitsInt64 write.pipeline.revision
  | .rebuildPipeline ws pl =>
      fitsRebuilt (foldPipelineEvents codec ws pl (s.listEvents ws pl))
  | .saveLease record =>
      fitsInt64 record.generation && fitsInt64 record.expiresAt
  | .deleteExpiredLeases now => fitsInt64 now
  | _ => true

/-- An event to be committed has an id that no stored event has. -/
def StoreOp.freshId (op : StoreOp) (s : MemoryKernelStore) : Bool :=
  match op with
  | .commitAccepted write =>
      decide (write.event.eventId ∉ s.events.map EventWrite.eventId)
  | _ => true

/-- What the controller ensures about the operations it performs. -/
def StoreOp.Ensured (codec : Codec) : StoreOp → MemoryKernelStore → Prop
  | .commitAccepted write, s =>
      s.inbox.get? write.inbox.key = none ∧
        s.outbox.get? write.outbox.key = none ∧
        write.outbox.deliveryReceiptJson ≠ some ""
  | .rebuildPipeline ws pl, s =>
      ∃ snapshot, foldPipelineEvents codec ws pl (s.listEvents ws pl) = .ok snapshot
  | .recordOutboxDelivery _ _ receiptJson, _ => receiptJson ≠ ""
  | _, _ => True

/-- No outbox row holds an empty receipt, which the two stores read
differently. -/
def SqliteKernelStore.NoEmptyReceipt (s : SqliteKernelStore) : Prop :=
  ∀ row ∈ s.outbox.rows, row.deliveryReceiptJson ≠ some ""

namespace SqliteKernelStore

variable {codec : Codec} {s : SqliteKernelStore}

theorem outboxFromRow_eq {row : OutboxRecord}
    (hrow : row.deliveryReceiptJson ≠ some "") : outboxFromRow row = row := by
  rcases row with ⟨ws, cmd, effect, payload, _ | receipt⟩
  · rfl
  · have hne : receipt ≠ "" := fun heq => hrow (by rw [heq])
    simp [outboxFromRow, Option.filter, hne]

theorem commitAccepted_simulates {write : AcceptedWrite}
    (hfits : (StoreOp.commitAccepted write).fitsInts codec s.asMemory = true)
    (hfresh : (StoreOp.commitAccepted write).freshId s.asMemory = true)
    (hensured : (StoreOp.commitAccepted write).Ensured codec s.asMemory) :
    s.asMemory.commitAccepted write =
      ((s.commitAccepted write).1, (s.commitAccepted write).2.asMemory) := by
  simp only [StoreOp.fitsInts, Bool.and_eq_true] at hfits
  obtain ⟨hevent, hrevision⟩ := hfits
  obtain ⟨hinbox, houtbox, -⟩ := hensured
  simp only [asMemory, Keyed.get?_toDict] at hinbox houtbox
  have hevents : s.events.find? write.event.eventId = none := by
    rw [Keyed.find?_eq_none_iff]
    intro event hmem heq
    exact of_decide_eq_true hfresh (heq ▸ List.mem_map_of_mem hmem)
  have hinsert : ∃ inbox events outbox, s.inbox.insert? write.inbox = some inbox ∧
      s.events.insert? write.event = some events ∧
      s.outbox.insert? write.outbox = some outbox :=
    ⟨s.inbox.push _ hinbox, s.events.push _ hevents, s.outbox.push _ houtbox,
      by simp [Keyed.insert?, hinbox], by simp [Keyed.insert?, hevents],
      by simp [Keyed.insert?, houtbox]⟩
  obtain ⟨inbox, events, outbox, hinsInbox, hinsEvents, hinsOutbox⟩ := hinsert
  have hinserted : s.insertAccepted write =
      some { s with inbox := inbox, events := events, outbox := outbox } := by
    simp [insertAccepted, hinsInbox, hinsEvents, hinsOutbox, hevent, guard]
  simp only [commitAccepted, hinserted, hrevision, ↓reduceIte,
    MemoryKernelStore.commitAccepted]
  cases hfail : s.failAfter with
  | true =>
      simp only [asMemory, hfail, ↓reduceIte]
  | false =>
      simp only [asMemory, hfail, Bool.false_eq_true, ↓reduceIte,
        Keyed.toDict_insert? hinsInbox, Keyed.toDict_insert? hinsOutbox,
        Keyed.toDict_upsert, ((s.events.insert?_eq_some_iff _ _).mp hinsEvents).2]

theorem rebuildPipeline_simulates {ws pl : String}
    (hfits : (StoreOp.rebuildPipeline ws pl).fitsInts codec s.asMemory = true)
    (hensured : (StoreOp.rebuildPipeline ws pl).Ensured codec s.asMemory) :
    s.asMemory.rebuildPipeline codec ws pl =
      ((s.rebuildPipeline codec ws pl).1,
        (s.rebuildPipeline codec ws pl).2.asMemory) := by
  by_cases hws : ws = ""
  · simp [MemoryKernelStore.rebuildPipeline, rebuildPipeline, hws]
  · obtain ⟨snapshot, hfold⟩ := hensured
    simp only [StoreOp.fitsInts, hfold, fitsRebuilt] at hfits
    have hkey : snapshot.key = (ws, pl) := by
      obtain ⟨rfl, rfl⟩ := foldPipelineEvents_ids codec hfold
      rfl
    have hmemory : (s.asMemory.deletePipeline ws pl).listEvents ws pl =
        s.asMemory.listEvents ws pl := by
      simp [MemoryKernelStore.deletePipeline, MemoryKernelStore.listEvents, hws]
    have hsqlite : (s.deletePipeline ws pl).listEventsOn ws pl =
        s.asMemory.listEvents ws pl := by
      simp [deletePipeline, hws, listEventsOn, MemoryKernelStore.listEvents,
        asMemory]
    simp only [MemoryKernelStore.rebuildPipeline, rebuildPipeline, hws,
      ↓reduceIte, hmemory, hsqlite, hfold, hfits]
    simp only [MemoryKernelStore.deletePipeline, deletePipeline, hws, ↓reduceIte,
      asMemory, Keyed.toDict_upsert, Keyed.toDict_erase, hkey]

theorem listPendingOutbox_simulates (hreceipts : s.NoEmptyReceipt) (ws : String) :
    s.asMemory.listPendingOutbox ws = s.listPendingOutbox ws := by
  by_cases hws : ws = ""
  · simp [MemoryKernelStore.listPendingOutbox, listPendingOutbox, hws]
  · simp only [MemoryKernelStore.listPendingOutbox, listPendingOutbox, hws,
      ↓reduceIte, asMemory, Keyed.values_toDict]
    refine ((List.map_congr_left ?_).trans (List.map_id _)).symm
    intro row hrow
    have hmem := (List.perm_insertionSort _ _).mem_iff.mp hrow
    exact outboxFromRow_eq (hreceipts row (List.mem_filter.mp hmem).1)

theorem findOutbox_simulates (hreceipts : s.NoEmptyReceipt) (ws cmd : String) :
    s.asMemory.findOutbox ws cmd = s.findOutbox ws cmd := by
  by_cases hws : ws = ""
  · simp [MemoryKernelStore.findOutbox, findOutbox, hws]
  · simp only [MemoryKernelStore.findOutbox, findOutbox, hws, ↓reduceIte, asMemory,
      Keyed.get?_toDict]
    cases hfind : s.outbox.find? (ws, cmd) with
    | none => rfl
    | some row =>
        obtain ⟨hmem, -⟩ := (s.outbox.find?_eq_some_iff _ _).mp hfind
        simp [outboxFromRow_eq (hreceipts row hmem)]

theorem recordOutboxDelivery_simulates (ws cmd receiptJson : String) :
    s.asMemory.recordOutboxDelivery ws cmd receiptJson =
      (s.recordOutboxDelivery ws cmd receiptJson).asMemory := by
  by_cases hws : ws = ""
  · simp [MemoryKernelStore.recordOutboxDelivery, recordOutboxDelivery, hws]
  · simp only [recordOutboxDelivery, hws, ↓reduceIte]
    have hupdate := s.outbox.toDict_updateWhere (ws, cmd) OutboxRecord.isPending
      (fun row => row.workspaceId = ws ∧ row.commandId = cmd ∧ row.isPending)
      (fun row => { row with deliveryReceiptJson := some receiptJson })
      (fun _ => rfl) (by
        intro row
        by_cases hkey : row.workspaceId = ws <;> simp [OutboxRecord.key, hkey])
    simp only [asMemory, hupdate, MemoryKernelStore.recordOutboxDelivery, hws,
      ↓reduceIte, Keyed.get?_toDict]
    cases s.outbox.find? (ws, cmd) with
    | none => rfl
    | some row => by_cases hpending : row.isPending <;> simp [hpending]

theorem saveLease_simulates {record : LeaseRecord}
    (hfits : (StoreOp.saveLease record).fitsInts codec s.asMemory = true) :
    ((.ok (), s.asMemory.saveLease record) :
        Except PyError Unit × MemoryKernelStore) =
      ((s.saveLease record).1, (s.saveLease record).2.asMemory) := by
  simp only [StoreOp.fitsInts, Bool.and_eq_true] at hfits
  obtain ⟨hgeneration, hexpires⟩ := hfits
  by_cases hws : record.workspaceId = ""
  · simp [MemoryKernelStore.saveLease, saveLease, hws]
  · simp [MemoryKernelStore.saveLease, saveLease, hws, hgeneration, hexpires,
      asMemory, Keyed.toDict_upsert]

theorem deleteExpiredLeases_simulates {now : Int}
    (hfits : (StoreOp.deleteExpiredLeases now).fitsInts codec s.asMemory =
      true) :
    ((.ok (), s.asMemory.deleteExpiredLeases now) :
        Except PyError Unit × MemoryKernelStore) =
      ((s.deleteExpiredLeases now).1, (s.deleteExpiredLeases now).2.asMemory) := by
  have hnow : fitsInt64 now = true := hfits
  have hsame : (fun entry : (String × String) × LeaseRecord =>
      !decide (entry.2.expiresAt ≥ now)) =
      fun entry => decide (entry.2.expiresAt < now) := by
    funext entry
    by_cases hle : now ≤ entry.2.expiresAt
    · simp [hle]
    · simp [hle, not_le.mp hle]
  simp only [MemoryKernelStore.deleteExpiredLeases, deleteExpiredLeases, hnow,
    ↓reduceIte, asMemory, Keyed.toDict_deleteWhere, hsame]

/-- Every operation under the guards answers the same on both stores and leaves
the same state. -/
theorem handle_simulates {op : StoreOp}
    (hfits : op.fitsInts codec s.asMemory = true)
    (hfresh : op.freshId s.asMemory = true) (hensured : op.Ensured codec s.asMemory) (hreceipts : s.NoEmptyReceipt) :
    MemoryKernelStore.handle codec op s.asMemory =
      ((handle codec op s).1, (handle codec op s).2.asMemory) := by
  cases op with
  | findInbox ws cmd =>
      simp [MemoryKernelStore.handle, handle, MemoryKernelStore.findInbox,
        findInbox, asMemory]
  | loadPipeline ws pl => exact s.loadPipeline_asMemory ws pl
  | commitAccepted write => exact commitAccepted_simulates hfits hfresh hensured
  | listEvents ws pl => rfl
  | rebuildPipeline ws pl => exact rebuildPipeline_simulates hfits hensured
  | deletePipeline ws pl =>
      by_cases hws : ws = "" <;>
        simp [MemoryKernelStore.handle, handle, MemoryKernelStore.deletePipeline,
          deletePipeline, hws, asMemory, Keyed.toDict_erase]
  | listPendingOutbox ws =>
      simp only [MemoryKernelStore.handle, handle,
        listPendingOutbox_simulates hreceipts]
  | recordOutboxDelivery ws cmd receiptJson =>
      simp only [MemoryKernelStore.handle, handle, recordOutboxDelivery_simulates]
  | findOutbox ws cmd =>
      simp only [MemoryKernelStore.handle, handle, findOutbox_simulates hreceipts]
  | loadLease ws pl =>
      simp [MemoryKernelStore.handle, handle, MemoryKernelStore.loadLease,
        loadLease, asMemory]
  | saveLease record => exact saveLease_simulates hfits
  | deleteLease ws pl =>
      by_cases hws : ws = "" <;>
        simp [MemoryKernelStore.handle, handle, MemoryKernelStore.deleteLease,
          deleteLease, hws, asMemory, Keyed.toDict_erase]
  | deleteExpiredLeases now => exact deleteExpiredLeases_simulates hfits
  | counts =>
      simp [MemoryKernelStore.handle, handle, MemoryKernelStore.counts, counts,
        asMemory]

theorem NoEmptyReceipt.commitAccepted {write : AcceptedWrite}
    (hreceipts : s.NoEmptyReceipt)
    (hwrite : write.outbox.deliveryReceiptJson ≠ some "") :
    (s.commitAccepted write).2.NoEmptyReceipt := by
  rcases hcommit : s.commitAccepted write with ⟨answer, s'⟩
  cases answer with
  | error error =>
      have houtbox : s'.asMemory.tables.outbox = s.asMemory.tables.outbox := by
        rw [commitAccepted_error hcommit]
      have hrows := congrArg Dict.values houtbox
      change s'.outbox.toDict.values = s.outbox.toDict.values at hrows
      simp only [Keyed.values_toDict] at hrows
      rw [NoEmptyReceipt, hrows]
      exact hreceipts
  | ok answer =>
      obtain ⟨-, inbox, events, outbox, -, -, houtbox, rfl⟩ :=
        commitAccepted_ok hcommit
      intro row hrow
      rw [((s.outbox.insert?_eq_some_iff _ _).mp houtbox).2] at hrow
      rcases List.mem_append.mp hrow with hold | hnew
      · exact hreceipts row hold
      · rw [List.mem_singleton.mp hnew]
        exact hwrite

/-- No operation the controller performs stores an empty receipt. -/
theorem NoEmptyReceipt.handle {op : StoreOp} (hreceipts : s.NoEmptyReceipt)
    (hensured : op.Ensured codec s.asMemory) :
    (SqliteKernelStore.handle codec op s).2.NoEmptyReceipt := by
  cases op with
  | commitAccepted write => exact hreceipts.commitAccepted hensured.2.2
  | recordOutboxDelivery ws cmd receiptJson =>
      intro row hrow
      simp only [SqliteKernelStore.handle, recordOutboxDelivery] at hrow
      split at hrow
      · exact hreceipts row hrow
      · obtain ⟨old, hold, rfl⟩ := List.mem_map.mp hrow
        split
        · intro heq
          exact hensured (Option.some.inj heq)
        · exact hreceipts old hold
  | loadPipeline ws pl =>
      simp only [SqliteKernelStore.handle, loadPipeline]
      split
      · exact hreceipts
      · split <;> exact hreceipts
  | rebuildPipeline ws pl =>
      simp only [SqliteKernelStore.handle, rebuildPipeline]
      split
      · exact hreceipts
      · split
        · exact hreceipts
        · split
          · simp only [deletePipeline]
            split <;> exact hreceipts
          · exact hreceipts
  | deletePipeline ws pl =>
      simp only [SqliteKernelStore.handle, deletePipeline]
      split <;> exact hreceipts
  | saveLease record =>
      simp only [SqliteKernelStore.handle, saveLease]
      split
      · exact hreceipts
      · split <;> exact hreceipts
  | deleteLease ws pl =>
      simp only [SqliteKernelStore.handle, deleteLease]
      split <;> exact hreceipts
  | deleteExpiredLeases now =>
      simp only [SqliteKernelStore.handle, deleteExpiredLeases]
      split <;> exact hreceipts
  | findInbox | listEvents | listPendingOutbox | findOutbox | loadLease
  | counts => exact hreceipts

/-- A guarded program runs the same over both stores. -/
theorem run_asMemory {α : Type} {p : StoreProgram α}
    (hfits : p.Guarded (MemoryKernelStore.handle codec)
      (fun op s => op.fitsInts codec s) s.asMemory)
    (hfresh : p.Guarded (MemoryKernelStore.handle codec)
      (fun op s => op.freshId s) s.asMemory)
    (hensured : p.Guarded (MemoryKernelStore.handle codec)
      (StoreOp.Ensured codec) s.asMemory)
    (hreceipts : s.NoEmptyReceipt) :
    (p.run (MemoryKernelStore.handle codec) s.asMemory).1 =
        (p.run (handle codec) s).1 ∧
      (p.run (MemoryKernelStore.handle codec) s.asMemory).2 =
        (p.run (handle codec) s).2.asMemory ∧
      (p.run (handle codec) s).2.NoEmptyReceipt := by
  refine Program.run_simulates
    (R := fun (memory : MemoryKernelStore) (sqlite : SqliteKernelStore) =>
      memory = sqlite.asMemory ∧ sqlite.NoEmptyReceipt)
    ?_ (hfits.and (hfresh.and hensured)) ⟨rfl, hreceipts⟩
  rintro op _ sqlite ⟨hfits, hfresh, hensured⟩ ⟨rfl, hempty⟩
  have hsame := handle_simulates hfits hfresh hensured hempty
  exact ⟨congrArg Prod.fst hsame, congrArg Prod.snd hsame, hempty.handle hensured⟩

end SqliteKernelStore

section Ensured

variable {k : KernelController} {codec : Codec} {m : MemoryKernelStore}

theorem StoreOp.IsRead.ensured {op : StoreOp} (hread : op.IsRead)
    (s : MemoryKernelStore) : op.Ensured codec s := by
  cases op <;> trivial

theorem ensured_of_reads {α : Type} {p : StoreProgram α}
    (hp : p.Calls StoreOp.IsRead) :
    p.Guarded (MemoryKernelStore.handle codec) (StoreOp.Ensured codec) m :=
  hp.guarded (fun _ s hread => hread.ensured s) m

theorem submitAccepted_ensured {command : ControllerCommand}
    {fingerprint : String} {state : PipelineState} {event : DomainEvent}
    (hinbox : m.inbox.get? command.key = none)
    (houtbox : m.outbox.get? command.key = none) :
    (k.submitAccepted command fingerprint state event).Guarded
      (MemoryKernelStore.handle codec) (StoreOp.Ensured codec) m := by
  unfold submitAccepted
  split
  · trivial
  · refine ⟨⟨hinbox, houtbox, ?_⟩, ?_⟩
    · change (if event.publishes then none else some "{}") ≠ some ""
      split <;> decide
    · apply ensured_of_reads
      apply calls_catching
      · trivial
      · intro _
        trivial

/-- A submission that reaches its commit has looked its identity up. -/
theorem submitLoaded_ensured {command : ControllerCommand} {fingerprint : String}
    {parsed : DomainCommand} {snapshot : Option PipelineSnapshot}
    (hinbox : m.inbox.get? command.key = none)
    (houtbox : m.outbox.get? command.key = none) :
    (k.submitLoaded command fingerprint parsed snapshot).Guarded
      (MemoryKernelStore.handle codec) (StoreOp.Ensured codec) m := by
  unfold submitLoaded
  split
  · trivial
  · split
    · trivial
    · split
      · trivial
      · trivial
      · trivial
      · exact submitAccepted_ensured hinbox houtbox

theorem submit_ensured (command : ControllerCommand)
    (hkeys : m.outbox.rows.map Prod.fst = m.inbox.rows.map Prod.fst) :
    (k.submit command).Guarded (MemoryKernelStore.handle codec)
      (StoreOp.Ensured codec) m := by
  have hrefuse : ∀ status code message s,
      (k.refuse command status code message).Guarded
        (MemoryKernelStore.handle codec) (StoreOp.Ensured codec) s :=
    fun status code message s =>
      ensured_of_reads (k.calls_refuse command trivial status code message)
  unfold submit
  split
  · exact hrefuse _ _ _ m
  · split
    · trivial
    · next fingerprint _ =>
      refine ⟨trivial, ?_⟩
      simp only [MemoryKernelStore.handle, catching]
      cases hfound : m.findInbox command.workspaceId command.commandId with
      | some existing =>
          simp only [submitFound]
          split
          · split <;> trivial
          · exact hrefuse _ _ _ m
      | none =>
          simp only [submitFound]
          split
          · exact hrefuse _ _ _ m
          · refine ⟨trivial, ?_⟩
            have houtbox : m.outbox.get? command.key = none := by
              have hnot := Keyed.not_mem_keys_of_find?_eq_none
                ((m.inbox.find?_eq_none_iff_get? command.key).mpr hfound)
              rw [← hkeys] at hnot
              rw [← Dict.find?_eq_none_iff_get?, Keyed.find?_eq_none_iff]
              intro entry hentry heq
              exact hnot (heq ▸ List.mem_map_of_mem hentry)
            rcases hload : MemoryKernelStore.handle codec (.loadPipeline
              command.workspaceId command.pipelineId) m with ⟨answer, m'⟩
            cases answer with
            | error error => cases error <;> trivial
            | ok snapshot =>
                obtain rfl :=
                  MemoryKernelStore.storeLaws.loadPipeline_same _ _ _ _ _ hload
                exact submitLoaded_ensured hfound houtbox

theorem submitWithLease_ensured (command : ControllerCommand) (holder : String)
    (generation : Nat) (now : Int)
    (hkeys : m.outbox.rows.map Prod.fst = m.inbox.rows.map Prod.fst) :
    (k.submitWithLease command holder generation now).Guarded
      (MemoryKernelStore.handle codec) (StoreOp.Ensured codec) m := by
  unfold submitWithLease
  split
  · exact ensured_of_reads (k.calls_refuse command trivial _ _ _)
  · refine ⟨trivial, ?_⟩
    simp only [MemoryKernelStore.handle, catching]
    split
    · exact submit_ensured command hkeys
    · exact ensured_of_reads (k.calls_refuse command trivial _ _ _)

/-- The delivery receipt of a replay is a canonical text and not empty. -/
theorem replay_ensured (htexts : ∀ value, k.codec.canonicalJson value ≠ some "")
    (ws cmd : String) :
    (k.replay ws cmd).Guarded (MemoryKernelStore.handle codec)
      (StoreOp.Ensured codec) m := by
  have hallowed : (k.replay ws cmd).Calls fun op =>
      ∀ s, op.Ensured codec s := by
    refine Program.Calls.bind (Program.calls_perform fun _ => trivial) ?_
    intro found
    cases found with
    | none => trivial
    | some record =>
        simp only
        split
        · split
          · trivial
          · next receiptJson hjson =>
            refine Program.Calls.bind (Program.calls_perform fun _ => ?_) ?_
            · rintro rfl
              exact htexts _ hjson
            · intro _
              refine Program.Calls.bind (Program.calls_perform fun _ => trivial) ?_
              intro delivered
              cases delivered with
              | none => trivial
              | some record =>
                  simp only
                  split <;> trivial
        · trivial
  exact hallowed.guarded (fun op s hop => hop s) m

theorem rebuild_ensured (hfolds : m.FoldsEvents codec) (query : PipelineQuery) :
    (rebuild query).Guarded (MemoryKernelStore.handle codec)
      (StoreOp.Ensured codec) m := by
  unfold rebuild
  split
  · trivial
  · next hws =>
    refine ⟨?_, ?_⟩
    · refine ⟨snapshotOr query.workspaceId query.pipelineId
        (m.pipelines.get? (query.workspaceId, query.pipelineId)), ?_⟩
      rw [hfolds.listEvents_eq query.pipelineId hws]
      exact (hfolds query.workspaceId query.pipelineId hws).folds
    · refine ensured_of_reads (Program.Calls.bind (Program.calls_ofExcept _) ?_)
      intro _
      exact MemoryEffect.calls_read query

theorem acquireLease_ensured (ws pl holder : String) (now ttl : Int)
    (replace : Bool) :
    (acquireLease ws pl holder now ttl replace).Guarded
      (MemoryKernelStore.handle codec) (StoreOp.Ensured codec) m := by
  refine ⟨trivial, ?_⟩
  simp only [MemoryKernelStore.handle, Program.ofExcept, Program.done_bind]
  split
  · trivial
  · exact ⟨trivial, trivial⟩

theorem heartbeatLease_ensured (ws pl holder : String) (generation : Nat)
    (now ttl : Int) :
    (heartbeatLease ws pl holder generation now ttl).Guarded
      (MemoryKernelStore.handle codec) (StoreOp.Ensured codec) m := by
  refine ⟨trivial, ?_⟩
  simp only [MemoryKernelStore.handle, Program.ofExcept, Program.done_bind]
  split
  · trivial
  · split
    · exact ⟨trivial, trivial⟩
    · trivial

theorem cancel_ensured (ws pl : String) :
    (cancel ws pl).Guarded (MemoryKernelStore.handle codec)
      (StoreOp.Ensured codec) m := by
  unfold cancel
  split
  · trivial
  · exact ⟨trivial, trivial⟩

end Ensured

/-- A direct delivery hands over a receipt that is not empty. -/
def SessionOp.Delivers : SessionOp → Prop
  | .call (.recordOutboxDelivery _ _ receiptJson) => receiptJson ≠ ""
  | _ => True

/-- Every call of a session performs only operations that the controller
ensures. -/
theorem Written.call_ensured {env : KernelEnv} {writes : List AcceptedWrite}
    {s : MemoryKernelStore} {paused : Bool} (hwritten : Written env writes s)
    (hfolds : s.FoldsEvents env.codec)
    (htexts : ∀ value, env.codec.canonicalJson value ≠ some "")
    {c : KernelCall} (hdelivers : (SessionOp.call c).Delivers) :
    (c.program (env.controller paused)).Guarded
      (MemoryKernelStore.handle env.codec) (StoreOp.Ensured env.codec) s := by
  have hkeys : s.outbox.rows.map Prod.fst = s.inbox.rows.map Prod.fst := by
    rw [hwritten.outbox, hwritten.keys]
  cases c <;> refine Program.Guarded.bind ?_ fun _ _ => trivial
  case submit command => exact submit_ensured command hkeys
  case submitWithLease command holder generation now =>
      exact submitWithLease_ensured command holder generation now hkeys
  case read query => exact ensured_of_reads (MemoryEffect.calls_read query)
  case replay ws cmd => exact replay_ensured htexts ws cmd
  case acquireLease ws pl holder now ttl replace =>
      exact acquireLease_ensured ws pl holder now ttl replace
  case heartbeatLease ws pl holder generation now ttl =>
      exact heartbeatLease_ensured ws pl holder generation now ttl
  case cancel ws pl => exact cancel_ensured ws pl
  case rebuild query => exact rebuild_ensured hfolds query
  case recordOutboxDelivery ws cmd receiptJson => exact ⟨hdelivers, trivial⟩
  case cleanup | listEvents | listPendingOutbox | findOutbox | counts =>
      exact ⟨trivial, trivial⟩

/-- The operations that one step performs on the memory store are guarded. -/
def SessionOp.Guarded (env : KernelEnv)
    (guard : StoreOp → MemoryKernelStore → Prop)
    (s : Session MemoryKernelStore) : SessionOp → Prop
  | .call c => (c.program (env.controller s.paused)).Guarded
      (MemoryKernelStore.handle env.codec) guard s.store
  | _ => True

/-- The operations that a run performs on the memory store are guarded. -/
def GuardedRun (env : KernelEnv) (guard : StoreOp → MemoryKernelStore → Prop) :
    Session MemoryKernelStore → List SessionOp → Prop
  | _, [] => True
  | s, op :: rest => op.Guarded env guard s ∧
      GuardedRun env guard (Session.step env (memoryStore env.codec) s op).2 rest

section DecidableGuards

variable (env : KernelEnv) (guard : StoreOp → MemoryKernelStore → Prop)
  [∀ op s, Decidable (guard op s)]

instance (s : Session MemoryKernelStore) :
    (op : SessionOp) → Decidable (op.Guarded env guard s)
  | .call _ => inferInstanceAs (Decidable (Program.Guarded _ _ _ _))
  | .pause | .resume | .tripCommitFailure | .tripReadFailure => .isTrue trivial

def decidableGuardedRun : (s : Session MemoryKernelStore) →
    (ops : List SessionOp) → Decidable (GuardedRun env guard s ops)
  | _, [] => .isTrue trivial
  | s, op :: rest =>
      have := decidableGuardedRun
        (Session.step env (memoryStore env.codec) s op).2 rest
      inferInstanceAs (Decidable (_ ∧ _))

instance (s : Session MemoryKernelStore) (ops : List SessionOp) :
    Decidable (GuardedRun env guard s ops) :=
  decidableGuardedRun env guard s ops

end DecidableGuards

/-- The two sessions are in corresponding states. -/
structure Mirrors (env : KernelEnv) (memory : Session MemoryKernelStore)
    (sqlite : Session SqliteKernelStore) : Prop where
  paused : memory.paused = sqlite.paused
  store : memory.store = sqlite.store.asMemory
  receipts : sqlite.store.NoEmptyReceipt
  folds : memory.store.FoldsEvents env.codec
  written : ∃ writes, Written env writes memory.store

namespace Mirrors

variable {env : KernelEnv} {memory : Session MemoryKernelStore}
  {sqlite : Session SqliteKernelStore}

theorem call_ensured (hmirrors : Mirrors env memory sqlite)
    (htexts : ∀ value, env.codec.canonicalJson value ≠ some "")
    {c : KernelCall} (hdelivers : (SessionOp.call c).Delivers) :
    (c.program (env.controller memory.paused)).Guarded
      (MemoryKernelStore.handle env.codec) (StoreOp.Ensured env.codec)
      memory.store := by
  obtain ⟨writes, hwritten⟩ := hmirrors.written
  exact hwritten.call_ensured hmirrors.folds htexts hdelivers

/-- One step answers the same and keeps the correspondence. -/
theorem step (hmirrors : Mirrors env memory sqlite)
    (hloads : env.codec.LoadsTexts)
    (htexts : ∀ value, env.codec.canonicalJson value ≠ some "") {op : SessionOp}
    (hfits : op.Guarded env (fun op s => op.fitsInts env.codec s) memory)
    (hfresh : op.Guarded env (fun op s => op.freshId s) memory)
    (hdelivers : op.Delivers) :
    (Session.step env (memoryStore env.codec) memory op).1 =
        (Session.step env (sqliteStore env.codec) sqlite op).1 ∧
      Mirrors env (Session.step env (memoryStore env.codec) memory op).2
        (Session.step env (sqliteStore env.codec) sqlite op).2 := by
  have hstep := memoryStep env memory op
  have hfolds := hmirrors.folds.step hloads hstep
  have hwritten : ∃ writes, Written env writes
      (Session.step env (memoryStore env.codec) memory op).2.store := by
    obtain ⟨writes, hold⟩ := hmirrors.written
    rcases hold.grow hstep with hsame | ⟨_, a, -, hnext⟩
    · exact ⟨writes, hsame⟩
    · exact ⟨writes ++ [a.write], hnext⟩
  cases op with
  | call c =>
      have hensured := hmirrors.call_ensured htexts hdelivers
      rcases memory with ⟨paused, store⟩
      obtain rfl : paused = sqlite.paused := hmirrors.paused
      obtain rfl : store = sqlite.store.asMemory := hmirrors.store
      obtain ⟨hanswer, hstore, hreceipts⟩ :=
        SqliteKernelStore.run_asMemory hfits hfresh hensured hmirrors.receipts
      exact ⟨hanswer, ⟨rfl, hstore, hreceipts, hfolds, hwritten⟩⟩
  | pause =>
      exact ⟨rfl, ⟨rfl, hmirrors.store, hmirrors.receipts, hfolds, hwritten⟩⟩
  | resume =>
      exact ⟨rfl, ⟨rfl, hmirrors.store, hmirrors.receipts, hfolds, hwritten⟩⟩
  | tripCommitFailure =>
      refine ⟨rfl, ⟨hmirrors.paused, ?_, hmirrors.receipts, hfolds, hwritten⟩⟩
      exact congrArg MemoryKernelStore.tripCommitFailure hmirrors.store
  | tripReadFailure =>
      refine ⟨rfl, ⟨hmirrors.paused, ?_, hmirrors.receipts, hfolds, hwritten⟩⟩
      exact congrArg MemoryKernelStore.tripReadFailure hmirrors.store

/-- A run answers the same at every step. -/
theorem answers_eq (hmirrors : Mirrors env memory sqlite)
    (hloads : env.codec.LoadsTexts)
    (htexts : ∀ value, env.codec.canonicalJson value ≠ some "")
    {ops : List SessionOp}
    (hfits : GuardedRun env (fun op s => op.fitsInts env.codec s) memory ops)
    (hfresh : GuardedRun env (fun op s => op.freshId s) memory ops)
    (hdelivers : ∀ op ∈ ops, op.Delivers) :
    answers (Session.step env (memoryStore env.codec)) memory ops =
      answers (Session.step env (sqliteStore env.codec)) sqlite ops := by
  induction ops generalizing memory sqlite with
  | nil => rfl
  | cons op rest ih =>
      obtain ⟨hanswer, hnext⟩ := hmirrors.step hloads htexts hfits.1
        hfresh.1 (hdelivers op List.mem_cons_self)
      rw [answers, answers, hanswer, ih hnext hfits.2 hfresh.2
        fun other hother => hdelivers other (List.mem_cons_of_mem op hother)]

end Mirrors

/-- A controller over the SQLite store and one over the memory store, both
started empty, return the same results and raise the same errors at every step
of every run. -/
theorem session_stores_agree (env : KernelEnv) (hloads : env.codec.LoadsTexts)
    (htexts : ∀ value, env.codec.canonicalJson value ≠ some "")
    (ops : List SessionOp)
    (hfits : GuardedRun env (fun op s => op.fitsInts env.codec s)
      (Session.init (memoryStore env.codec)) ops)
    (hfresh : GuardedRun env (fun op s => op.freshId s)
      (Session.init (memoryStore env.codec)) ops)
    (hdelivers : ∀ op ∈ ops, op.Delivers) :
    answers (Session.step env (memoryStore env.codec))
        (Session.init (memoryStore env.codec)) ops =
      answers (Session.step env (sqliteStore env.codec))
        (Session.init (sqliteStore env.codec)) ops := by
  refine Mirrors.answers_eq ?_ hloads htexts hfits hfresh hdelivers
  exact ⟨rfl, rfl, by simp [SqliteKernelStore.NoEmptyReceipt, Session.init,
    sqliteStore, SqliteKernelStore.init], MemoryKernelStore.foldsEvents_init _,
    [], Written.init⟩

namespace StoreRefinementWitness

open ReferenceCodec

/-- Two commands of different workspaces whose derived event ids coincide. -/
def firstCommand : ControllerCommand :=
  { sampleConfirm with commandId := "cmd_x_cmd_y", commandId_ok := by decide }

def secondCommand : ControllerCommand :=
  { sampleConfirm with
    workspaceId := "ws_a_cmd_x"
    commandId := "cmd_y"
    workspaceId_ok := by decide
    commandId_ok := by decide }

def digest : Equiv.Perm String :=
  digestOf
    [((Json.obj firstCommand.modelDump).canon.toText,
        "aff1f52bf28035e8ffacd83251f417e4f130f9f44eee428be36359ebc7db9692"),
      ((Json.obj secondCommand.modelDump).canon.toText,
        "b6501086b318102aaeb3de405266e659c74c03e1399a892e8563c62fa416c48e"),
      ((Json.obj sampleRecord.modelDump).canon.toText,
        "d82070592ed0d99db86822bfef4462eb501233b031c6222d50ae29e8cee9f875")]

def env : KernelEnv := ⟨referenceCodec digest, "2026-08-06T00:00:00Z"⟩

/-- A run with leases, a failed commit, a rebuild and a replay. -/
def agreeingOps : List SessionOp :=
  [.call (.submit firstCommand), .tripCommitFailure,
    .call (.submit sampleRecord), .call (.submit sampleRecord),
    .call (.acquireLease "ws_a" "pl_a" "worker" 10 60 false),
    .call (.rebuild ⟨"pl_a", "ws_a"⟩), .call (.replay "ws_a" "cmd_2"),
    .call (.cleanup 100)]

theorem session_stores_agree_at_agreeingOps :
    GuardedRun env (fun op s => op.fitsInts env.codec s)
        (Session.init (memoryStore env.codec)) agreeingOps ∧
      GuardedRun env (fun op s => op.freshId s)
        (Session.init (memoryStore env.codec)) agreeingOps ∧
      answers (Session.step env (memoryStore env.codec))
          (Session.init (memoryStore env.codec)) agreeingOps =
        answers (Session.step env (sqliteStore env.codec))
          (Session.init (sqliteStore env.codec)) agreeingOps := by
  have hfits : GuardedRun env (fun op s => op.fitsInts env.codec s)
      (Session.init (memoryStore env.codec)) agreeingOps := by decide +kernel
  have hfresh : GuardedRun env (fun op s => op.freshId s)
      (Session.init (memoryStore env.codec)) agreeingOps := by decide +kernel
  refine ⟨hfits, hfresh, session_stores_agree env (loadsTexts digest)
    (canonicalJson_ne_empty digest) agreeingOps hfits hfresh ?_⟩
  simp [agreeingOps, SessionOp.Delivers]

/-- The second command is refused by a pending fault.  The memory store takes
the fault; the SQLite store stops at the event's primary key and keeps it for
the next commit. -/
def divergingOps : List SessionOp :=
  [.call (.submit firstCommand), .tripCommitFailure,
    .call (.submit secondCommand), .call (.submit sampleRecord)]

/-- Distinct event ids of the accepted commands alone do not make the stores
agree. -/
theorem session_stores_disagree_on_refused_id :
    ¬∀ (env : KernelEnv) (ops : List SessionOp), env.codec.LoadsTexts →
      (∀ value, env.codec.canonicalJson value ≠ some "") →
      GuardedRun env (fun op s => op.fitsInts env.codec s)
        (Session.init (memoryStore env.codec)) ops →
      (((Session.after env (memoryStore env.codec) ops).store.events.map
        EventWrite.eventId).Nodup ∧
        ((Session.after env (sqliteStore env.codec) ops).store.events.rows.map
          EventWrite.eventId).Nodup) →
      (∀ op ∈ ops, op.Delivers) →
      answers (Session.step env (memoryStore env.codec))
          (Session.init (memoryStore env.codec)) ops =
        answers (Session.step env (sqliteStore env.codec))
          (Session.init (sqliteStore env.codec)) ops := by
  intro hclaim
  have hagree := hclaim env divergingOps (loadsTexts digest)
    (canonicalJson_ne_empty digest) (by decide +kernel)
    ⟨by decide +kernel, by decide +kernel⟩
    (by simp [divergingOps, SessionOp.Delivers])
  have hdiffer : answers (Session.step env (memoryStore env.codec))
        (Session.init (memoryStore env.codec)) divergingOps ≠
      answers (Session.step env (sqliteStore env.codec))
        (Session.init (sqliteStore env.codec)) divergingOps := by
    decide +kernel
  exact hdiffer hagree

end StoreRefinementWitness

end HermesPipeline
