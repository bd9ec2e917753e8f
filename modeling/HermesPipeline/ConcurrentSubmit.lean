/-
Concurrent submissions over one SQLite store.  Every process runs the steps of
its own `submit`; each step is one transaction.  The revision test is made on a
snapshot read in an earlier transaction than the one that writes, so the law
holds of a schedule exactly when no commit finds the pipeline moved on.
-/
import HermesPipeline.AllOrNothing
import HermesPipeline.EventSourcing
import HermesPipeline.Lib.Pool

namespace HermesPipeline

open Lib KernelController

/-- A submission in progress. -/
structure SubmitThread where
  controller : KernelController
  command : ControllerCommand
  program : StoreProgram CommandReceipt

/-- A process starts to submit a command. -/
structure SubmitCall where
  recordedAt : String
  paused : Bool
  command : ControllerCommand

def submitRules (codec : Codec) :
    Pool.Rules SqliteKernelStore SubmitThread SubmitCall Empty where
  spawn := fun call _ =>
    let k : KernelController := ⟨codec, call.recordedAt, call.paused⟩
    ⟨k, call.command, k.submit call.command⟩
  advance := fun thread s =>
    let moved := thread.program.advance (SqliteKernelStore.handle codec) s
    ({ thread with program := moved.1 }, moved.2)
  fork := fun _ _ => none
  change := fun outside _ => outside.elim

abbrev SubmitPool := Pool SqliteKernelStore SubmitThread

abbrev SubmitSchedule := List (Pool.Label SubmitCall Empty)

/-- No process has started yet. -/
def SubmitPool.init : SubmitPool := ⟨.init, []⟩

/-- The revision of the stored snapshot, zero when there is none. -/
def SqliteKernelStore.storedRevision (s : SqliteKernelStore) (ws pl : String) :
    Nat :=
  ((s.pipelines.find? (ws, pl)).map PipelineSnapshot.revision).getD 0

/-- No update is lost: the events of a pipeline are numbered from one, the
snapshot has the number of the last one, and no two accepted commands of a
pipeline got the same revision. -/
structure NoLostUpdate (pool : SubmitPool) : Prop where
  revisions : ∀ ws pl, ws ≠ "" →
    (pool.shared.listEvents ws pl).map EventWrite.pipelineRevision =
      List.range' 1 (pool.shared.listEvents ws pl).length
  snapshot : ∀ ws pl, ws ≠ "" →
    pool.shared.storedRevision ws pl = (pool.shared.listEvents ws pl).length
  receipts : ∀ left ∈ pool.threads, ∀ right ∈ pool.threads, ∀ first second,
    left.program = .done first → right.program = .done second →
      first.status = .accepted → second.status = .accepted →
      left.command.workspaceId = right.command.workspaceId →
      first.pipelineId = second.pipelineId →
      first.observedRevision = second.observedRevision →
        left.command.commandId = right.command.commandId

/-- A commit has free keys and a revision that can be bound. -/
structure SqliteKernelStore.Admits (s : SqliteKernelStore)
    (write : AcceptedWrite) : Prop where
  inbox : s.inbox.find? write.inbox.key = none
  events : s.events.find? write.event.eventId = none
  outbox : s.outbox.find? write.outbox.key = none
  revision : fitsInt64 write.event.pipelineRevision = true

/-- A commit that can go through finds its pipeline still at the revision that
the command expects. -/
def CommitsCurrent (pool : SubmitPool) (label : Pool.Label SubmitCall Empty) :
    Prop :=
  ∀ i thread write next, label = .advance i →
    pool.threads[i]? = some thread →
    thread.program = .call (.commitAccepted write) next →
    pool.shared.Admits write →
      pool.shared.storedRevision thread.command.workspaceId
        thread.command.pipelineId = thread.command.expectedRevision

/-- Where a submission can be. -/
inductive SubmitPhase (k : KernelController) (command : ControllerCommand) :
    StoreProgram CommandReceipt → Prop
  | looking {fingerprint : String}
      (hash_eq : k.codec.contentHash command.modelDump = some fingerprint) :
      SubmitPhase k command
        (.call (.findInbox command.workspaceId command.commandId)
          (catching (.done (k.unavailable command))
            (k.submitFound command fingerprint)))
  | loading {fingerprint : String} {parsed : DomainCommand}
      (hash_eq : k.codec.contentHash command.modelDump = some fingerprint)
      (parsed_eq : domainCommand command = some parsed) :
      SubmitPhase k command
        (.call (.loadPipeline command.workspaceId command.pipelineId)
          (catching (.done (k.unavailable command))
            (k.submitLoaded command fingerprint parsed)))
  | committing (a : k.Acceptance command) :
      SubmitPhase k command
        (.call (.commitAccepted a.write)
          (catching (.done (k.unavailable command)) fun _ => .done a.receipt))
  | refusing {p : StoreProgram CommandReceipt} (reads : p.Calls StoreOp.IsRead)
      (never : p.Returns fun receipt => receipt.status ≠ .accepted) :
      SubmitPhase k command p
  | settled (receipt : CommandReceipt) : SubmitPhase k command (.done receipt)

namespace SubmitPhase

variable {k : KernelController} {command : ControllerCommand}

theorem refuse {status : ReceiptStatus} (hstatus : status ≠ .accepted)
    (code : ErrorCode) (message : String) :
    SubmitPhase k command (k.refuse command status code message) :=
  .refusing (k.calls_refuse command trivial status code message)
    (Program.Returns.bind fun _ => hstatus)

theorem unavailable : SubmitPhase k command (.done (k.unavailable command)) :=
  .refusing trivial (by simp [Program.Returns, KernelController.unavailable,
    receipt])

theorem raise (error : PyError) : SubmitPhase k command (.raise error) :=
  .refusing trivial trivial

/-- Every submission starts in a phase. -/
theorem submit (k : KernelController) (command : ControllerCommand) :
    SubmitPhase k command (k.submit command) := by
  unfold KernelController.submit
  split
  · exact refuse (by decide) _ _
  · split
    · exact raise _
    · next hash_eq => exact looking hash_eq

/-- No submission has answered before its first step. -/
theorem submit_ne_done (receipt : CommandReceipt) :
    k.submit command ≠ .done receipt := by
  unfold KernelController.submit
  split
  · simp [pausedReceipt, KernelController.refuse, safeRevision]
  · split <;> simp

theorem submitLoaded {fingerprint : String} {parsed : DomainCommand}
    (hhash : k.codec.contentHash command.modelDump = some fingerprint)
    (hparsed : domainCommand command = some parsed)
    (snapshot : Option PipelineSnapshot) :
    SubmitPhase k command
        (k.submitLoaded command fingerprint parsed snapshot) ∧
      ∀ receipt, k.submitLoaded command fingerprint parsed snapshot =
        .done receipt → receipt.status ≠ .accepted := by
  have hdone : ∀ other : CommandReceipt, other.status ≠ .accepted →
      SubmitPhase k command (.done other) ∧
        ∀ receipt, (.done other : StoreProgram CommandReceipt) = .done receipt →
          receipt.status ≠ .accepted := by
    intro other hstatus
    refine ⟨.refusing trivial hstatus, ?_⟩
    rintro receipt ⟨⟩
    exact hstatus
  unfold KernelController.submitLoaded
  split
  · exact hdone _ (by simp [KernelController.unavailable, receipt])
  · next current hcurrent =>
    split
    · exact hdone _ (by simp [receipt])
    · next hrevision =>
      split
      · exact hdone _ (by simp [receipt])
      · exact hdone _ (by simp [receipt])
      · exact hdone _ (by simp [KernelController.unavailable, receipt])
      · next state event happly =>
        unfold submitAccepted
        split
        · exact ⟨raise _, by simp⟩
        · next payloadJson hpayload =>
          exact ⟨.committing ⟨fingerprint, parsed, snapshot, current, state, event,
            payloadJson, hhash, hparsed, hcurrent, by simpa using hrevision,
            happly, hpayload⟩, by simp⟩

end SubmitPhase

namespace SqliteKernelStore

variable {codec : Codec} {s s' : SqliteKernelStore}

theorem handle_read_same {op : StoreOp} (hop : op.IsRead)
    (hread : s.failRead = false) : (handle codec op s).2 = s := by
  cases op with
  | loadPipeline ws pl =>
      simp only [handle, loadPipeline, hread, Bool.false_eq_true, ↓reduceIte]
      split <;> rfl
  | findInbox | listEvents | listPendingOutbox | findOutbox | loadLease
  | counts => rfl
  | commitAccepted | rebuildPipeline | deletePipeline | recordOutboxDelivery
  | saveLease | deleteLease | deleteExpiredLeases => exact absurd hop id

/-- Without a pending fault a commit is all or nothing on the store itself. -/
theorem commitAccepted_cases (hfault : s.failAfter = false)
    (write : AcceptedWrite) :
    (∃ error, s.commitAccepted write = (.error error, s)) ∨
      ∃ s', s.commitAccepted write = (.ok (), s') ∧ s.Admits write := by
  unfold commitAccepted
  split
  · exact Or.inl ⟨_, rfl⟩
  · next inserted hinsert =>
      obtain ⟨inbox, events, outbox, hinbox, hevents, houtbox, hfits, rfl⟩ :=
        insertAccepted_eq_some hinsert
      rw [if_neg (by simp [hfault])]
      split
      · refine Or.inr ⟨_, rfl, ?_⟩
        exact ⟨((s.inbox.insert?_eq_some_iff _ _).mp hinbox).1,
          ((s.events.insert?_eq_some_iff _ _).mp hevents).1,
          ((s.outbox.insert?_eq_some_iff _ _).mp houtbox).1, hfits⟩
      · exact Or.inl ⟨_, rfl⟩

theorem Admits.commit {write : AcceptedWrite} (hadmits : s.Admits write)
    (hfault : s.failAfter = false)
    (hrevision : write.pipeline.revision = write.event.pipelineRevision) :
    ∃ s', s.commitAccepted write = (.ok (), s') := by
  have hinserted : ∃ inserted, s.insertAccepted write = some inserted := by
    simp [insertAccepted, Keyed.insert?, hadmits.inbox, hadmits.events,
      hadmits.outbox, hadmits.revision, guard]
  obtain ⟨inserted, hinsert⟩ := hinserted
  simp [commitAccepted, hinsert, hfault, hrevision, hadmits.revision]

/-- The events of every pipeline are numbered from one, and its snapshot has
the number of the last one. -/
structure Numbered (s : SqliteKernelStore) : Prop where
  revisions : ∀ ws pl,
    (eventsOf s.events.rows ws pl).map EventWrite.pipelineRevision =
      List.range' 1 (eventsOf s.events.rows ws pl).length
  snapshot : ∀ ws pl,
    s.storedRevision ws pl = (eventsOf s.events.rows ws pl).length

theorem Numbered.listEvents_eq (hnumbered : s.Numbered) {ws : String}
    (pl : String) (hws : ws ≠ "") :
    s.listEvents ws pl = eventsOf s.events.rows ws pl := by
  rw [listEvents, if_neg hws]
  exact sortByRevision_of_numbered (hnumbered.revisions ws pl)

/-- A commit that went through appended its event and replaced the snapshot. -/
structure Commits (s : SqliteKernelStore) (write : AcceptedWrite)
    (s' : SqliteKernelStore) : Prop where
  inbox : s'.inbox.rows = s.inbox.rows ++ [write.inbox]
  events : s'.events.rows = s.events.rows ++ [write.event]
  pipelines : s'.pipelines = s.pipelines.upsert write.pipeline
  failRead : s'.failRead = s.failRead
  failAfter : s'.failAfter = s.failAfter

theorem commits_of_ok {write : AcceptedWrite}
    (hcommit : s.commitAccepted write = (.ok (), s')) : s.Commits write s' := by
  obtain ⟨-, inbox, events, outbox, hinbox, hevents, houtbox, rfl⟩ :=
    commitAccepted_ok hcommit
  exact ⟨((s.inbox.insert?_eq_some_iff _ _).mp hinbox).2,
    ((s.events.insert?_eq_some_iff _ _).mp hevents).2, rfl, rfl, rfl⟩

section Commit

variable {k : KernelController} {command : ControllerCommand}
  {a : k.Acceptance command}

theorem Commits.storedRevision_self (hcommits : s.Commits a.write s') :
    s'.storedRevision command.workspaceId command.pipelineId =
      command.expectedRevision + 1 := by
  have hfind : s'.pipelines.find? (command.workspaceId, command.pipelineId) =
      some a.write.pipeline := by
    rw [hcommits.pipelines]
    exact s.pipelines.find?_upsert_self a.write.pipeline
  rw [storedRevision, hfind]
  change a.state.revision = _
  rw [a.revision_succ, a.revision_eq]

theorem Commits.eventsOf_self (hcommits : s.Commits a.write s') :
    eventsOf s'.events.rows command.workspaceId command.pipelineId =
      eventsOf s.events.rows command.workspaceId command.pipelineId ++
        [a.write.event] := by
  rw [hcommits.events]
  exact eventsOf_append_self _ rfl rfl

/-- A commit at the stored revision keeps the numbering. -/
theorem Numbered.commit (hnumbered : s.Numbered)
    (hcommits : s.Commits a.write s')
    (hcurrent : s.storedRevision command.workspaceId command.pipelineId =
      command.expectedRevision) : s'.Numbered := by
  have hlength : (eventsOf s.events.rows command.workspaceId
      command.pipelineId).length = command.expectedRevision := by
    rw [← hnumbered.snapshot, hcurrent]
  have hnumber : a.write.event.pipelineRevision =
      (eventsOf s.events.rows command.workspaceId command.pipelineId).length +
        1 := by
    change a.state.revision = _
    rw [a.revision_succ, ← a.revision_eq, hlength]
  -- the other pipelines have the same events and the same snapshot
  have hother : ∀ ws pl, (ws, pl) ≠ (command.workspaceId, command.pipelineId) →
      eventsOf s'.events.rows ws pl = eventsOf s.events.rows ws pl ∧
        s'.storedRevision ws pl = s.storedRevision ws pl := by
    intro ws pl hscope
    rw [hcommits.events, storedRevision, storedRevision, hcommits.pipelines,
      s.pipelines.find?_upsert_of_ne hscope]
    exact ⟨eventsOf_append_other _ hscope, rfl⟩
  constructor
  · intro ws pl
    by_cases hscope : (ws, pl) = (command.workspaceId, command.pipelineId)
    · obtain ⟨rfl, rfl⟩ := Prod.mk.inj hscope
      rw [hcommits.eventsOf_self]
      exact numbered_concat (hnumbered.revisions _ _) hnumber
    · rw [(hother ws pl hscope).1]
      exact hnumbered.revisions ws pl
  · intro ws pl
    by_cases hscope : (ws, pl) = (command.workspaceId, command.pipelineId)
    · obtain ⟨rfl, rfl⟩ := Prod.mk.inj hscope
      rw [hcommits.storedRevision_self, hcommits.eventsOf_self,
        List.length_append, hlength, List.length_singleton]
    · rw [(hother ws pl hscope).1, (hother ws pl hscope).2]
      exact hnumbered.snapshot ws pl

end Commit

end SqliteKernelStore

/-- One step of a submission: it only looks, or its commit goes through.  An
acceptance that was not there before was found in the inbox. -/
inductive SubmitMove (k : KernelController) (command : ControllerCommand)
    (s : SqliteKernelStore) (p : StoreProgram CommandReceipt) :
    StoreProgram CommandReceipt → SqliteKernelStore → Prop
  | looked {p' : StoreProgram CommandReceipt} (phase : SubmitPhase k command p')
      (answer : ∀ receipt, p' = .done receipt → receipt.status = .accepted →
        p = .done receipt ∨ ∃ row ∈ s.inbox.rows, row.key = command.key ∧
          k.codec.receiptOfJson row.receiptJson = some receipt) :
      SubmitMove k command s p p' s
  | committed (a : k.Acceptance command) {s' : SqliteKernelStore}
      {next : Except PyError Unit → StoreProgram CommandReceipt}
      (program : p = .call (.commitAccepted a.write) next)
      (admits : s.Admits a.write) (commits : s.Commits a.write s') :
      SubmitMove k command s p (.done a.receipt) s'

namespace SubmitMove

variable {k : KernelController} {command : ControllerCommand}
  {s : SqliteKernelStore} {p p' : StoreProgram CommandReceipt}

/-- A step to a program that has not accepted. -/
theorem of_not_accepted (hphase : SubmitPhase k command p')
    (hnot : ∀ receipt, p' = .done receipt → receipt.status ≠ .accepted) :
    SubmitMove k command s p p' s :=
  .looked hphase fun receipt hdone hstatus =>
    absurd hstatus (hnot receipt hdone)

theorem of_refusing (hreads : p'.Calls StoreOp.IsRead)
    (hnever : p'.Returns fun receipt => receipt.status ≠ .accepted) :
    SubmitMove k command s p p' s := by
  refine of_not_accepted (.refusing hreads hnever) ?_
  rintro receipt rfl
  exact hnever

theorem of_refuse {status : ReceiptStatus} (hstatus : status ≠ .accepted)
    (code : ErrorCode) (message : String) :
    SubmitMove k command s p (k.refuse command status code message) s :=
  of_refusing (k.calls_refuse command trivial status code message)
    (Program.Returns.bind fun _ => hstatus)

theorem of_unavailable :
    SubmitMove k command s p (.done (k.unavailable command)) s :=
  of_refusing trivial (by simp [Program.Returns, KernelController.unavailable,
    receipt])

theorem of_raise (error : PyError) : SubmitMove k command s p (.raise error) s :=
  of_refusing trivial trivial

/-- The step that has looked into the inbox. -/
theorem of_submitFound {fingerprint : String}
    (hhash : k.codec.contentHash command.modelDump = some fingerprint) :
    SubmitMove k command s p
      (k.submitFound command fingerprint
        (s.findInbox command.workspaceId command.commandId)) s := by
  cases hfound : s.findInbox command.workspaceId command.commandId with
  | none =>
      simp only [submitFound]
      cases hparsed : domainCommand command with
      | none => exact of_refuse (by decide) _ _
      | some parsed =>
          exact of_not_accepted (.loading hhash hparsed) (by simp)
  | some row =>
      simp only [submitFound]
      split
      · cases hstored : k.codec.receiptOfJson row.receiptJson with
        | none => exact of_raise _
        | some stored =>
            refine .looked (.settled stored) ?_
            intro receipt hdone _
            cases hdone
            obtain ⟨hmem, hkey⟩ := (s.inbox.find?_eq_some_iff _ _).mp hfound
            exact Or.inr ⟨row, hmem, hkey, hstored⟩
      · exact of_refuse (by decide) _ _

/-- Every step of a submission is one of the two. -/
theorem advance (codec : Codec) (hphase : SubmitPhase k command p)
    (hread : s.failRead = false) (hfault : s.failAfter = false) :
    SubmitMove k command s p (p.advance (SqliteKernelStore.handle codec) s).1
      (p.advance (SqliteKernelStore.handle codec) s).2 := by
  cases hphase with
  | looking hash_eq => exact of_submitFound hash_eq
  | loading hash_eq parsed_eq =>
      simp only [Program.advance, SqliteKernelStore.handle,
        SqliteKernelStore.loadPipeline, hread, Bool.false_eq_true, ↓reduceIte,
        if_neg command.workspaceId_ne_empty, catching]
      obtain ⟨hphase, hnot⟩ := SubmitPhase.submitLoaded hash_eq parsed_eq
        (s.pipelines.find? (command.workspaceId, command.pipelineId))
      exact of_not_accepted hphase hnot
  | committing a =>
      simp only [Program.advance, SqliteKernelStore.handle]
      rcases s.commitAccepted_cases hfault a.write with
        ⟨error, hcommit⟩ | ⟨s', hcommit, hadmits⟩
      · rw [hcommit]
        cases error with
        | persistence => exact of_unavailable
        | outboxNotFound | lease | value => exact of_raise _
      · rw [hcommit]
        exact .committed a rfl hadmits
          (SqliteKernelStore.commits_of_ok hcommit)
  | refusing reads never =>
      cases p with
      | done receipt => exact of_refusing trivial never
      | raise error => exact of_raise error
      | call op next =>
          simp only [Program.advance,
            SqliteKernelStore.handle_read_same reads.1 hread]
          exact of_refusing (reads.2 _) (never _)
  | settled receipt =>
      refine .looked (.settled receipt) ?_
      intro other hdone _
      exact Or.inl hdone

end SubmitMove

/-- An acceptance is in the log: an event of the command carries the receipt's
pipeline and revision. -/
def Documented (s : SqliteKernelStore) (ws cmd : String)
    (receipt : CommandReceipt) : Prop :=
  ∃ event ∈ s.events.rows, event.workspaceId = ws ∧
    event.eventId = KernelController.eventId ws cmd ∧
    event.pipelineId = receipt.pipelineId ∧
    event.pipelineRevision = receipt.observedRevision

/-- What a thread knows of itself. -/
structure SubmitThread.Sound (codec : Codec) (s : SqliteKernelStore)
    (thread : SubmitThread) : Prop where
  codec_eq : thread.controller.codec = codec
  phase : SubmitPhase thread.controller thread.command thread.program
  accepted : ∀ receipt, thread.program = .done receipt →
    receipt.status = .accepted →
      Documented s thread.command.workspaceId thread.command.commandId receipt

/-- The invariant of a schedule without a lost update. -/
structure Serialized (codec : Codec) (pool : SubmitPool) : Prop where
  failRead : pool.shared.failRead = false
  failAfter : pool.shared.failAfter = false
  numbered : pool.shared.Numbered
  inbox : ∀ row ∈ pool.shared.inbox.rows, ∃ receipt,
    codec.receiptOfJson row.receiptJson = some receipt ∧
      Documented pool.shared row.workspaceId row.commandId receipt
  threads : ∀ thread ∈ pool.threads, thread.Sound codec pool.shared

theorem Documented.commit {s s' : SqliteKernelStore} {write : AcceptedWrite}
    {ws cmd : String} {receipt : CommandReceipt}
    (hdocumented : Documented s ws cmd receipt) (hcommits : s.Commits write s') :
    Documented s' ws cmd receipt := by
  obtain ⟨event, hmem, hevent⟩ := hdocumented
  refine ⟨event, ?_, hevent⟩
  rw [hcommits.events]
  exact List.mem_append_left _ hmem

theorem Documented.acceptance {k : KernelController}
    {command : ControllerCommand} {a : k.Acceptance command}
    {s s' : SqliteKernelStore} (hcommits : s.Commits a.write s') :
    Documented s' command.workspaceId command.commandId a.receipt := by
  refine ⟨a.write.event, ?_, rfl, rfl, rfl, rfl⟩
  rw [hcommits.events]
  exact List.mem_append_right _ (List.mem_singleton_self _)

/-- Two acceptances of one pipeline with one revision are of one command. -/
theorem Documented.command_eq {s : SqliteKernelStore} {ws cmd cmd' : String}
    {first second : CommandReceipt} (hnumbered : s.Numbered)
    (hfirst : Documented s ws cmd first) (hsecond : Documented s ws cmd' second)
    (hpipeline : first.pipelineId = second.pipelineId)
    (hrevision : first.observedRevision = second.observedRevision) :
    cmd = cmd' := by
  obtain ⟨left, hleft, hleftWs, hleftId, hleftPl, hleftRev⟩ := hfirst
  obtain ⟨right, hright, hrightWs, hrightId, hrightPl, hrightRev⟩ := hsecond
  have hmem : ∀ event ∈ s.events.rows, event.workspaceId = ws →
      event.pipelineId = first.pipelineId →
        event ∈ eventsOf s.events.rows ws first.pipelineId := by
    intro event hevent hws hpl
    exact List.mem_filter.mpr ⟨hevent, by simp [hws, hpl]⟩
  have hnodup : ((eventsOf s.events.rows ws first.pipelineId).map
      EventWrite.pipelineRevision).Nodup := by
    rw [hnumbered.revisions]
    exact List.nodup_range'
  obtain rfl : left = right :=
    List.inj_on_of_nodup_map hnodup (hmem left hleft hleftWs hleftPl)
      (hmem right hright hrightWs (hrightPl.trans hpipeline.symm))
      (by rw [hleftRev, hrightRev, hrevision])
  exact eventId_inj (hleftId.symm.trans hrightId)

namespace Serialized

variable {codec : Codec} {pool : SubmitPool}

theorem init (codec : Codec) : Serialized codec .init where
  failRead := rfl
  failAfter := rfl
  numbered := ⟨fun _ _ => rfl, fun _ _ => rfl⟩
  inbox := by simp [SubmitPool.init, SqliteKernelStore.init]
  threads := by simp [SubmitPool.init]

theorem noLostUpdate (hpool : Serialized codec pool) : NoLostUpdate pool where
  revisions := by
    intro ws pl hws
    rw [hpool.numbered.listEvents_eq pl hws]
    exact hpool.numbered.revisions ws pl
  snapshot := by
    intro ws pl hws
    rw [hpool.numbered.listEvents_eq pl hws]
    exact hpool.numbered.snapshot ws pl
  receipts := by
    intro left hleft right hright first second hfirst hsecond hfirstStatus
      hsecondStatus hworkspace hpipeline hrevision
    have hdocumented := (hpool.threads left hleft).accepted first hfirst
      hfirstStatus
    rw [hworkspace] at hdocumented
    exact hdocumented.command_eq hpool.numbered
      ((hpool.threads right hright).accepted second hsecond hsecondStatus)
      hpipeline hrevision

/-- What a step of a sound thread does. -/
theorem move (hpool : Serialized codec pool) {thread : SubmitThread}
    (hsound : thread.Sound codec pool.shared) :
    SubmitMove thread.controller thread.command pool.shared thread.program
      ((submitRules codec).advance thread pool.shared).1.program
      ((submitRules codec).advance thread pool.shared).2 :=
  SubmitMove.advance codec hsound.phase hpool.failRead hpool.failAfter

/-- A thread that found its receipt in the inbox. -/
theorem looked (hpool : Serialized codec pool) {thread : SubmitThread}
    (hsound : thread.Sound codec pool.shared) {p' : StoreProgram CommandReceipt}
    (hphase : SubmitPhase thread.controller thread.command p')
    (hanswer : ∀ receipt, p' = .done receipt → receipt.status = .accepted →
      thread.program = .done receipt ∨ ∃ row ∈ pool.shared.inbox.rows,
        row.key = thread.command.key ∧
          thread.controller.codec.receiptOfJson row.receiptJson = some receipt) :
    { thread with program := p' }.Sound codec pool.shared := by
  refine ⟨hsound.codec_eq, hphase, ?_⟩
  intro receipt hdone hstatus
  rcases hanswer receipt hdone hstatus with hbefore | ⟨row, hrow, hkey, hparsed⟩
  · exact hsound.accepted receipt hbefore hstatus
  · obtain ⟨stored, hstored, hdocumented⟩ := hpool.inbox row hrow
    rw [hsound.codec_eq, hstored] at hparsed
    cases hparsed
    obtain ⟨hws, hcmd⟩ := Prod.mk.inj hkey
    rw [hws, hcmd] at hdocumented
    exact hdocumented

/-- The inbox after a commit. -/
theorem inbox_commit (hpool : Serialized codec pool)
    (hreceipts : codec.StoresReceipts) {thread : SubmitThread}
    (hsound : thread.Sound codec pool.shared)
    {a : thread.controller.Acceptance thread.command} {s' : SqliteKernelStore}
    (hcommits : pool.shared.Commits a.write s') :
    ∀ row ∈ s'.inbox.rows, ∃ receipt,
      codec.receiptOfJson row.receiptJson = some receipt ∧
        Documented s' row.workspaceId row.commandId receipt := by
  intro row hrow
  rw [hcommits.inbox] at hrow
  rcases List.mem_append.mp hrow with hold | hnew
  · obtain ⟨receipt, hstored, hdocumented⟩ := hpool.inbox row hold
    exact ⟨receipt, hstored, hdocumented.commit hcommits⟩
  · obtain rfl := List.mem_singleton.mp hnew
    refine ⟨a.receipt, ?_, Documented.acceptance hcommits⟩
    rw [← hsound.codec_eq] at hreceipts ⊢
    exact hreceipts a.receipt

theorem started (hpool : Serialized codec pool) (call : SubmitCall) :
    Serialized codec (Pool.step (submitRules codec) pool (.start call)) := by
  refine ⟨hpool.failRead, hpool.failAfter, hpool.numbered, hpool.inbox, ?_⟩
  refine Pool.threads_step (I := SubmitThread.Sound codec) (submitRules codec) ?_
    (fun i thread hlabel => by cases hlabel)
    (fun i thread hlabel => by cases hlabel)
    (fun _ thread _ hthread => hpool.threads thread (List.mem_of_getElem? hthread))
  rintro _ ⟨⟩
  refine ⟨rfl, SubmitPhase.submit _ _, ?_⟩
  intro receipt hdone
  exact absurd hdone (SubmitPhase.submit_ne_done receipt)

theorem advanced (hpool : Serialized codec pool)
    (hreceipts : codec.StoresReceipts) {i : Nat}
    (hcurrent : CommitsCurrent pool (.advance i)) :
    Serialized codec (Pool.step (submitRules codec) pool (.advance i)) := by
  cases hthread : pool.threads[i]? with
  | none =>
      simp only [Pool.step, hthread]
      exact hpool
  | some thread =>
      have hsound := hpool.threads thread (List.mem_of_getElem? hthread)
      have hmove := hpool.move hsound
      -- the thread that moves is sound again, and the others stay so
      have hthreads := fun hmoved (hkept : ∀ other ∈ pool.threads, other.Sound
          codec (Pool.step (submitRules codec) pool (.advance i)).shared) =>
        Pool.threads_step (I := SubmitThread.Sound codec) (submitRules codec)
        (l := .advance i) (fun call hlabel => by cases hlabel)
        (fun j other hlabel hother => by
          cases hlabel
          rw [hthread] at hother
          cases hother
          exact hmoved)
        (fun _ _ _ _ child hchild => by cases hchild)
        (fun _ other _ hother => hkept other (List.mem_of_getElem? hother))
      rw [Pool.step_advance _ hthread] at hthreads ⊢
      have hkept : ((submitRules codec).advance thread pool.shared).1 =
          { thread with program :=
            ((submitRules codec).advance thread pool.shared).1.program } := rfl
      rw [hkept] at hthreads ⊢
      generalize ((submitRules codec).advance thread pool.shared).1.program = p'
        at hmove hthreads ⊢
      generalize ((submitRules codec).advance thread pool.shared).2 = s'
        at hmove hthreads ⊢
      cases hmove with
      | looked phase answer =>
          exact ⟨hpool.failRead, hpool.failAfter, hpool.numbered, hpool.inbox,
            hthreads (hpool.looked hsound phase answer) hpool.threads⟩
      | committed a program admits commits =>
          refine ⟨commits.failRead.trans hpool.failRead,
            commits.failAfter.trans hpool.failAfter,
            hpool.numbered.commit commits
              (hcurrent i thread _ _ rfl hthread program admits),
            hpool.inbox_commit hreceipts hsound commits, hthreads ?_ ?_⟩
          · refine ⟨hsound.codec_eq, .settled _, ?_⟩
            intro receipt hdone _
            cases hdone
            exact Documented.acceptance commits
          · intro other hother
            have hother' := hpool.threads other hother
            exact ⟨hother'.codec_eq, hother'.phase, fun receipt hdone hstatus =>
              (hother'.accepted receipt hdone hstatus).commit commits⟩

/-- A commit at another revision leaves a snapshot that does not count the
events. -/
theorem commitsCurrent (hpool : Serialized codec pool)
    {label : Pool.Label SubmitCall Empty}
    (hnext : NoLostUpdate (Pool.step (submitRules codec) pool label)) :
    CommitsCurrent pool label := by
  rintro i thread write next rfl hthread hprogram hadmits
  have hmem := List.mem_of_getElem? hthread
  have hws := thread.command.workspaceId_ne_empty
  obtain ⟨a, rfl⟩ : ∃ a : thread.controller.Acceptance thread.command,
      write = a.write := by
    have hphase := (hpool.threads thread hmem).phase
    rw [hprogram] at hphase
    cases hphase with
    | committing a => exact ⟨a, rfl⟩
    | refusing reads never => exact absurd reads.1 id
  obtain ⟨s', hcommit⟩ := hadmits.commit hpool.failAfter rfl
  have hcommits := SqliteKernelStore.commits_of_ok hcommit
  have hshared : (Pool.step (submitRules codec) pool (.advance i)).shared = s' := by
    rw [Pool.step_advance _ hthread]
    simp only [submitRules, hprogram, Program.advance, SqliteKernelStore.handle,
      hcommit]
  have hcount := hnext.snapshot thread.command.workspaceId
    thread.command.pipelineId hws
  have hlength : (s'.listEvents thread.command.workspaceId
      thread.command.pipelineId).length =
      pool.shared.storedRevision thread.command.workspaceId
        thread.command.pipelineId + 1 := by
    rw [SqliteKernelStore.listEvents, if_neg hws, SqliteKernelStore.listEventsOn,
      sortByRevision, List.length_insertionSort, hpool.numbered.snapshot]
    change (eventsOf s'.events.rows _ _).length = _
    rw [hcommits.eventsOf_self, List.length_append, List.length_singleton]
  rw [hshared, hcommits.storedRevision_self, hlength] at hcount
  omega

end Serialized

/-- No update is lost along a schedule exactly when every commit that goes
through finds its pipeline at the revision its command expects. -/
theorem schedule_no_lost_update_iff (codec : Codec)
    (hreceipts : codec.StoresReceipts) (labels : SubmitSchedule) :
    Always (Pool.step (submitRules codec)) NoLostUpdate SubmitPool.init labels ↔
      EachStep (Pool.step (submitRules codec)) CommitsCurrent SubmitPool.init
        labels := by
  refine always_iff_eachStep (fun pool label hpool hcurrent => ?_)
    (fun _ => Serialized.noLostUpdate)
    (fun _ _ hpool => hpool.commitsCurrent) (Serialized.init codec)
  cases label with
  | start call => exact hpool.started call
  | advance i => exact hpool.advanced hreceipts hcurrent
  | change outside => exact outside.elim

namespace ConcurrentSubmitWitness

open ReferenceCodec

def call (command : ControllerCommand) : Pool.Label SubmitCall Empty :=
  .start ⟨"2026-08-06T00:00:00Z", false, command⟩

/-- The requirement is confirmed; then two records of the same revision are
both loaded before either commits. -/
def labels : SubmitSchedule :=
  [call sampleConfirm, .advance 0, .advance 0, .advance 0,
    call sampleRecord, call sampleRecordOther, .advance 1, .advance 1, .advance 2,
    .advance 2, .advance 1, .advance 2]

/-- The status and the revision that a submission was answered with. -/
def answer (pool : SubmitPool) (i : Nat) : Option (ReceiptStatus × Nat) :=
  match (pool.threads[i]?).map SubmitThread.program with
  | some (.done receipt) => some (receipt.status, receipt.observedRevision)
  | _ => none

theorem schedule_no_lost_update_iff_at_labels :
    sampleCodec.StoresReceipts ∧
      (Always (Pool.step (submitRules sampleCodec)) NoLostUpdate SubmitPool.init
          labels ↔
        EachStep (Pool.step (submitRules sampleCodec)) CommitsCurrent
          SubmitPool.init labels) :=
  ⟨storesReceipts _,
    schedule_no_lost_update_iff sampleCodec (storesReceipts _) labels⟩

/-- Both records are accepted as revision two: of the two updates one is
lost. -/
theorem schedule_loses_update :
    let pool := Pool.run (submitRules sampleCodec) SubmitPool.init labels
    answer pool 1 = some (.accepted, 2) ∧ answer pool 2 = some (.accepted, 2) ∧
      (pool.shared.listEvents "ws_a" "pl_a").map EventWrite.pipelineRevision =
        [1, 2, 2] ∧
      ¬Always (Pool.step (submitRules sampleCodec)) NoLostUpdate SubmitPool.init
        labels := by
  intro pool
  have hstored : pool.shared.storedRevision "ws_a" "pl_a" = 2 := by
    decide +kernel
  have hevents : (pool.shared.listEvents "ws_a" "pl_a").length = 3 := by
    decide +kernel
  refine ⟨by decide +kernel, by decide +kernel, by decide +kernel, ?_⟩
  intro halways
  have hlast : NoLostUpdate pool :=
    always_iff_initial.mp halways labels [] (List.append_nil _).symm
  have hcount := hlast.snapshot "ws_a" "pl_a" (by decide)
  rw [hstored, hevents] at hcount
  exact absurd hcount (by decide)

end ConcurrentSubmitWitness

end HermesPipeline
