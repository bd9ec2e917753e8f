/-
A submission changes every table it touches or none.  Both stores are read as
dictionaries, so that one statement covers the staged copies of the memory
store and the transaction of the SQLite store.
-/
import HermesPipeline.ExactlyOnce
import HermesPipeline.KernelSqliteEffects

namespace HermesPipeline

open Lib KernelController

/-- Exactly the rows of one write were added, and exactly its pipeline's
snapshot was replaced. -/
structure AddsWrite (old new : MemoryKernelStore) (write : AcceptedWrite) :
    Prop where
  inbox : new.inbox.rows = old.inbox.rows ++ [(write.inbox.key, write.inbox)]
  events : new.events = old.events ++ [write.event]
  outbox : new.outbox.rows = old.outbox.rows ++ [(write.outbox.key, write.outbox)]
  snapshot : (new.pipelines.rows.filter fun entry =>
    decide (entry.1 = write.pipeline.key)) = [(write.pipeline.key, write.pipeline)]
  others : (new.pipelines.rows.filter fun entry =>
      decide (entry.1 ≠ write.pipeline.key)) =
    old.pipelines.rows.filter fun entry => decide (entry.1 ≠ write.pipeline.key)
  leases : new.leases = old.leases

/-- The revision of a stored pipeline, zero when there is none. -/
def MemoryKernelStore.revisionOf (s : MemoryKernelStore) (ws pl : String) : Nat :=
  ((s.pipelines.get? (ws, pl)).map PipelineSnapshot.revision).getD 0

/-- The rows of a write carry an event and the state that it leads to. -/
structure CarriesEvent (codec : Codec) (event : DomainEvent) (state : PipelineState)
    (write : AcceptedWrite) : Prop where
  payload : codec.canonicalJson (Json.ofTexts event.payload.rows) =
    some write.event.payloadJson
  event_type : write.event.eventType = event.eventType
  effect_type : write.outbox.effectType = event.effectType
  delivery : write.outbox.deliveryReceiptJson =
    if event.publishes then none else some "{}"
  status : write.pipeline.status = state.status.value
  text : write.pipeline.text = state.text

/-- The rows of a write name the command, carry one payload and one revision,
and the revision is the next one of the addressed pipeline; what they carry is
the event that the command makes of the stored pipeline. -/
structure CarriesCommand (codec : Codec) (command : ControllerCommand)
    (receipt : CommandReceipt) (old : MemoryKernelStore) (write : AcceptedWrite) :
    Prop where
  inbox_key : write.inbox.key = command.key
  outbox_key : write.outbox.key = command.key
  event_id : write.event.eventId = eventId command.workspaceId command.commandId
  event_scope : write.event.scope = (command.workspaceId, command.pipelineId)
  snapshot_key : write.pipeline.key = (command.workspaceId, command.pipelineId)
  payload : write.outbox.payloadJson = write.event.payloadJson
  event_revision : write.event.pipelineRevision = write.pipeline.revision
  receipt_revision : receipt.observedRevision = write.pipeline.revision
  stored_receipt : write.inbox.receiptJson = codec.receiptJson receipt
  next_revision : write.pipeline.revision =
    old.revisionOf command.workspaceId command.pipelineId + 1
  fingerprint : codec.contentHash command.modelDump =
    some write.inbox.commandFingerprint
  evaluated : ∃ parsed current state event,
    domainCommand command = some parsed ∧
      stateFromSnapshot
        (old.pipelines.get? (command.workspaceId, command.pipelineId)) =
          some current ∧
      current.apply parsed = ⟨state, .accepted, some event⟩ ∧
      CarriesEvent codec event state write

/-- A submission that newly accepts adds its write; any other leaves every table
as it was. -/
structure AllOrNothing (codec : Codec) (op : SessionOp)
    (answer : Except PyError KernelAnswer) (command : ControllerCommand)
    (old new : MemoryKernelStore) : Prop where
  all : ∀ receipt, Accepts op answer command receipt →
    old.inbox.get? command.key = none →
      ∃ write, CarriesCommand codec command receipt old write ∧
        AddsWrite old new write
  nothing : (¬∃ receipt, Accepts op answer command receipt ∧
      old.inbox.get? command.key = none) → new.tables = old.tables

theorem Acceptance.carriesCommand {k : KernelController}
    {command : ControllerCommand} (a : k.Acceptance command)
    {old : MemoryKernelStore}
    (hloaded : old.pipelines.get? (command.workspaceId, command.pipelineId) =
      a.snapshot) :
    CarriesCommand k.codec command a.receipt old a.write where
  inbox_key := rfl
  outbox_key := rfl
  event_id := rfl
  event_scope := rfl
  snapshot_key := rfl
  payload := rfl
  event_revision := rfl
  receipt_revision := rfl
  stored_receipt := rfl
  next_revision := by
    have hrevision : old.revisionOf command.workspaceId command.pipelineId =
        a.current.revision := by
      rw [MemoryKernelStore.revisionOf, hloaded]
      have hcurrent := a.current_eq
      cases hsnapshot : a.snapshot with
      | none =>
          rw [hsnapshot] at hcurrent
          rw [← Option.some.inj hcurrent]
          rfl
      | some snapshot =>
          rw [hsnapshot] at hcurrent
          obtain ⟨status, -, heq⟩ := Option.map_eq_some_iff.mp hcurrent
          rw [← heq]
          rfl
    rw [hrevision]
    exact a.revision_succ
  fingerprint := a.hash_eq
  evaluated := by
    refine ⟨a.parsed, a.current, a.state, a.event, a.parsed_eq, ?_, a.apply_eq,
      ⟨a.payload_eq, rfl, rfl, rfl, rfl, rfl⟩⟩
    rw [hloaded]
    exact a.current_eq

/-- What a store owes the law: its lookups and its commit seen as dictionaries. -/
structure CommitLaws {σ : Type} (h : Handler StoreOp StoreOp.Answer PyError σ)
    (asMemory : σ → MemoryKernelStore) (s : σ) : Prop where
  found : ∀ ws cmd, (h (.findInbox ws cmd) s).1 =
    .ok ((asMemory s).inbox.get? (ws, cmd))
  loaded : ∀ ws pl snapshot, ws ≠ "" →
    (h (.loadPipeline ws pl) s).1 = .ok snapshot →
      (asMemory s).pipelines.get? (ws, pl) = snapshot
  added : ∀ write s', write.outbox.key = write.inbox.key →
    (asMemory s).inbox.get? write.inbox.key = none →
      h (.commitAccepted write) s = (.ok (), s') →
        AddsWrite (asMemory s) (asMemory s') write

/-- Every effect of a submission is all or nothing. -/
theorem SubmitEffect.allOrNothing {σ : Type} {k : KernelController}
    {h : Handler StoreOp StoreOp.Answer PyError σ}
    {asMemory : σ → MemoryKernelStore} {command : ControllerCommand} {s s' : σ}
    {outcome : Except PyError CommandReceipt} {op : SessionOp}
    (hop : op.submitted = some command) (laws : CommitLaws h asMemory s)
    (heffect : k.SubmitEffect h (fun t => (asMemory t).tables) command s outcome s') :
    AllOrNothing k.codec op (outcome.map .receipt) command (asMemory s)
      (asMemory s') := by
  have hreceipt : ∀ receipt,
      Accepts op (outcome.map KernelAnswer.receipt) command receipt →
        outcome = .ok receipt := by
    rintro receipt ⟨-, hanswer, -⟩
    cases outcome with
    | error error => cases hanswer
    | ok value =>
        cases hanswer
        rfl
  cases heffect with
  | kept same status =>
      refine ⟨?_, fun _ => same⟩
      intro receipt haccepts _
      exact absurd haccepts.status_eq (status receipt (hreceipt receipt haccepts))
  | @replayed _ row stored _ found _ _ =>
      refine ⟨?_, fun _ => rfl⟩
      intro receipt _ habsent
      rw [laws.found] at found
      have hpresent := (Except.ok.inj found).symm.trans habsent
      cases hpresent
  | accepted a absent loaded commit =>
      have habsent : (asMemory s).inbox.get? command.key = none := by
        rw [laws.found] at absent
        exact Except.ok.inj absent
      refine ⟨?_, ?_⟩
      · intro receipt haccepts _
        obtain rfl := Except.ok.inj (hreceipt receipt haccepts)
        exact ⟨a.write, Acceptance.carriesCommand a
          (laws.loaded _ _ _ command.workspaceId_ne_empty loaded),
          laws.added a.write _ rfl habsent commit⟩
      · intro hnot
        exact absurd ⟨a.receipt, ⟨hop, rfl, rfl⟩, habsent⟩ hnot

/-- A memory store whose outbox has the identities of its inbox commits as the
law asks. -/
theorem MemoryKernelStore.commitLaws (codec : Codec) {s : MemoryKernelStore}
    (hkeys : s.outbox.rows.map Prod.fst = s.inbox.rows.map Prod.fst) :
    CommitLaws (handle codec) id s where
  found := fun _ _ => rfl
  loaded := fun _ _ _ hws hload => loadPipeline_loaded hws hload
  added := by
    intro write s' hkey habsent hcommit
    have htables := commitAccepted_ok hcommit
    have houtbox : s.outbox.get? write.outbox.key = none := by
      rw [hkey, ← Dict.find?_eq_none_iff_get?, Keyed.find?_eq_none_iff]
      intro entry hentry heq
      have hmem : write.inbox.key ∈ s.inbox.rows.map Prod.fst := by
        rw [← hkeys, ← heq]
        exact List.mem_map_of_mem hentry
      exact Keyed.not_mem_keys_of_find?_eq_none
        ((s.inbox.find?_eq_none_iff_get? _).mpr habsent) hmem
    have hadds : AddsWrite s (s.tables.commitAccepted write).2 write :=
      ⟨Dict.set_rows_of_absent habsent, rfl, Dict.set_rows_of_absent houtbox,
        Dict.set_filter_self _ _ _, Dict.set_filter_other _ _ _, rfl⟩
    rw [← htables] at hadds
    exact ⟨hadds.inbox, hadds.events, hadds.outbox, hadds.snapshot, hadds.others,
      hadds.leases⟩

theorem SqliteKernelStore.commitLaws (codec : Codec) (s : SqliteKernelStore) :
    CommitLaws (handle codec) asMemory s where
  found := by
    intro ws cmd
    change _ = Except.ok (s.inbox.toDict.get? (ws, cmd))
    rw [Keyed.get?_toDict]
    rfl
  loaded := by
    intro ws pl snapshot hws hload
    have hmemory : (s.asMemory.loadPipeline ws pl).1 = .ok snapshot := by
      rw [s.loadPipeline_asMemory]
      exact hload
    exact MemoryKernelStore.loadPipeline_loaded hws hmemory
  added := by
    intro write s' _ _ hcommit
    obtain ⟨-, inbox, events, outbox, hinbox, hevents, houtbox, rfl⟩ :=
      commitAccepted_ok hcommit
    refine ⟨?_, ?_, ?_, ?_, ?_, rfl⟩
    · simp [asMemory, ((s.inbox.insert?_eq_some_iff _ _).mp hinbox).2]
    · simp [asMemory, ((s.events.insert?_eq_some_iff _ _).mp hevents).2]
    · simp [asMemory, ((s.outbox.insert?_eq_some_iff _ _).mp houtbox).2]
    · change ((s.pipelines.upsert write.pipeline).toDict.rows.filter _) = _
      rw [Keyed.toDict_upsert]
      exact Dict.set_filter_self _ _ _
    · change ((s.pipelines.upsert write.pipeline).toDict.rows.filter _) = _
      rw [Keyed.toDict_upsert]
      exact Dict.set_filter_other _ _ _

/-- All or nothing, over both stores and from every state a session reaches:
paused or not, with or without a pending fault, with or without a lease. -/
theorem session_submit_all_or_nothing (env : KernelEnv) (ops : List SessionOp)
    (op : SessionOp) (command : ControllerCommand)
    (hop : op.submitted = some command) :
    let memory := Session.after env (memoryStore env.codec) ops
    let sqlite := Session.after env (sqliteStore env.codec) ops
    AllOrNothing env.codec op
        (Session.step env (memoryStore env.codec) memory op).1 command memory.store
        (Session.step env (memoryStore env.codec) memory op).2.store ∧
      AllOrNothing env.codec op
        (Session.step env (sqliteStore env.codec) sqlite op).1 command
        sqlite.store.asMemory
        (Session.step env (sqliteStore env.codec) sqlite op).2.store.asMemory := by
  intro memory sqlite
  refine ⟨?_, ?_⟩
  · obtain ⟨writes, hwritten⟩ := after_exists_written env ops
    have hkeys : memory.store.outbox.rows.map Prod.fst =
        memory.store.inbox.rows.map Prod.fst := by
      rw [hwritten.outbox, hwritten.keys]
    obtain ⟨outcome, hanswer, heffect⟩ := memory.step_submitted env
      (memoryStore env.codec) MemoryKernelStore.storeLaws hop
    rw [hanswer]
    exact SubmitEffect.allOrNothing hop
      (MemoryKernelStore.commitLaws env.codec hkeys) heffect
  · obtain ⟨outcome, hanswer, heffect⟩ := sqlite.step_submitted env
      (sqliteStore env.codec) SqliteKernelStore.storeLaws hop
    rw [hanswer]
    exact SubmitEffect.allOrNothing hop
      (SqliteKernelStore.commitLaws env.codec sqlite.store) heffect

namespace AllOrNothingWitness

open ReferenceCodec

def env : KernelEnv := ⟨sampleCodec, "2026-08-06T00:00:00Z"⟩

/-- A commit fault is pending when the record is submitted. -/
def ops : List SessionOp :=
  [.call (.submit sampleConfirm), .tripCommitFailure]

theorem session_submit_all_or_nothing_at_ops :
    let op : SessionOp := .call (.submit sampleRecord)
    let memory := Session.after env (memoryStore env.codec) ops
    let sqlite := Session.after env (sqliteStore env.codec) ops
    op.submitted = some sampleRecord ∧
      AllOrNothing env.codec op
        (Session.step env (memoryStore env.codec) memory op).1 sampleRecord
        memory.store (Session.step env (memoryStore env.codec) memory op).2.store ∧
      AllOrNothing env.codec op
        (Session.step env (sqliteStore env.codec) sqlite op).1 sampleRecord
        sqlite.store.asMemory
        (Session.step env (sqliteStore env.codec) sqlite op).2.store.asMemory :=
  ⟨rfl, session_submit_all_or_nothing env ops _ sampleRecord rfl⟩

end AllOrNothingWitness

end HermesPipeline
