/-
What one session step can do to the tables of the memory store.  Every
invariant of the store is checked against this list and never against the
controller's code again.
-/
import HermesPipeline.KernelSession

namespace HermesPipeline

open Lib KernelController

namespace MemoryKernelStore

variable {codec : Codec}

/-- The store with its fault switches off: what its tables hold. -/
def tables (s : MemoryKernelStore) : MemoryKernelStore :=
  { s with failAfter := false, failRead := false }

@[simp] theorem tables_tables (s : MemoryKernelStore) :
    s.tables.tables = s.tables := rfl

theorem loadPipeline_tables (s : MemoryKernelStore) (ws pl : String) :
    (s.loadPipeline ws pl).2.tables = s.tables := by
  unfold loadPipeline
  split
  · rfl
  · split <;> rfl

/-- A load that answers has found the stored snapshot. -/
theorem loadPipeline_loaded {s : MemoryKernelStore} {ws pl : String}
    {snapshot : Option PipelineSnapshot} (hws : ws ≠ "")
    (hload : (s.loadPipeline ws pl).1 = .ok snapshot) :
    s.pipelines.get? (ws, pl) = snapshot := by
  unfold loadPipeline at hload
  cases hfail : s.failRead with
  | true => simp [hfail] at hload
  | false =>
      simpa only [hfail, Bool.false_eq_true, ↓reduceIte, hws,
        Except.ok.injEq] using hload

theorem handle_read_tables (op : StoreOp) (s : MemoryKernelStore)
    (hread : op.IsRead) : ((handle codec op s).2).tables = s.tables := by
  cases op with
  | loadPipeline ws pl => exact s.loadPipeline_tables ws pl
  | findInbox | listEvents | listPendingOutbox | findOutbox | loadLease
  | counts => rfl
  | commitAccepted | rebuildPipeline | deletePipeline | recordOutboxDelivery
  | saveLease | deleteLease | deleteExpiredLeases => exact absurd hread id

theorem commitAccepted_error {s s' : MemoryKernelStore} {write : AcceptedWrite}
    {error : PyError} (hcommit : s.commitAccepted write = (.error error, s')) :
    s'.tables = s.tables := by
  unfold commitAccepted at hcommit
  split at hcommit
  · cases hcommit
    rfl
  · cases hcommit

theorem commitAccepted_ok {s s' : MemoryKernelStore} {write : AcceptedWrite}
    (hcommit : s.commitAccepted write = (.ok (), s')) :
    s'.tables = (s.tables.commitAccepted write).2 := by
  unfold commitAccepted at hcommit
  split at hcommit
  · cases hcommit
  · cases hcommit
    rfl

theorem recordOutboxDelivery_frame (s : MemoryKernelStore)
    (ws cmd receiptJson : String) :
    ∃ outbox, s.recordOutboxDelivery ws cmd receiptJson =
        { s with outbox := outbox } ∧
      outbox.rows.map Prod.fst = s.outbox.rows.map Prod.fst := by
  unfold recordOutboxDelivery
  split
  · exact ⟨s.outbox, rfl, rfl⟩
  · split
    · exact ⟨s.outbox, rfl, rfl⟩
    · next existing hexisting =>
      split
      · refine ⟨_, rfl, Dict.set_keys_of_present ?_⟩
        simp [hexisting]
      · exact ⟨s.outbox, rfl, rfl⟩

theorem rebuildPipeline_frame (s : MemoryKernelStore) (codec : Codec)
    (ws pl : String) :
    ∃ pipelines, (s.rebuildPipeline codec ws pl).2 =
      { s with pipelines := pipelines } := by
  by_cases hws : ws = ""
  · exact ⟨s.pipelines, by simp [rebuildPipeline, hws]⟩
  · simp only [rebuildPipeline, hws, ↓reduceIte, deletePipeline]
    split <;> exact ⟨_, rfl⟩

theorem storeLaws : StoreLaws (handle codec) tables where
  read_view := handle_read_tables
  findInbox_same := fun _ _ _ => rfl
  loadLease_same := fun _ _ _ => rfl
  loadPipeline_same := by
    intro ws pl s snapshot s' hload
    simp only [handle, loadPipeline] at hload
    split at hload
    · cases hload
    · split at hload <;> cases hload <;> rfl
  commit_error := fun _ _ _ _ hcommit => commitAccepted_error hcommit

end MemoryKernelStore

/-- The changes a session step that submits nothing can make to the tables of
the memory store. -/
inductive MemoryEffect (env : KernelEnv) (s : MemoryKernelStore) :
    MemoryKernelStore → Prop
  | quiet {s' : MemoryKernelStore} (same : s'.tables = s.tables) :
      MemoryEffect env s s'
  | rebuilt {s' : MemoryKernelStore} {ws pl : String} (nonempty : ws ≠ "")
      (same : s'.tables = (s.tables.rebuildPipeline env.codec ws pl).2) :
      MemoryEffect env s s'
  | delivered {s' : MemoryKernelStore} (ws cmd receiptJson : String)
      (same : s'.tables = s.tables.recordOutboxDelivery ws cmd receiptJson) :
      MemoryEffect env s s'
  | leased {s' : MemoryKernelStore} (leases : Dict (String × String) LeaseRecord)
      (same : s'.tables = { s.tables with leases := leases }) :
      MemoryEffect env s s'

namespace MemoryEffect

variable {env : KernelEnv}

theorem of_reads {s s' : MemoryKernelStore}
    (hreads : ReadRun (MemoryKernelStore.handle env.codec) s s') :
    MemoryEffect env s s' :=
  .quiet (hreads.preserves MemoryKernelStore.handle_read_tables)

variable {s : MemoryKernelStore}

theorem of_calls {α : Type} {p : StoreProgram α}
    (hp : p.Calls StoreOp.IsRead) :
    MemoryEffect env s (p.run (MemoryKernelStore.handle env.codec) s).2 :=
  of_reads (.of_calls hp s)

theorem of_saveLease (record : LeaseRecord) :
    MemoryEffect env s (s.saveLease record) := by
  by_cases hws : record.workspaceId = ""
  · exact .quiet (by simp [MemoryKernelStore.saveLease, hws])
  · exact .leased (s.leases.set record.key record)
      (by simp [MemoryKernelStore.saveLease, hws, MemoryKernelStore.tables])

theorem of_recordOutboxDelivery (ws cmd receiptJson : String) :
    MemoryEffect env s (s.recordOutboxDelivery ws cmd receiptJson) := by
  refine .delivered ws cmd receiptJson ?_
  simp only [MemoryKernelStore.recordOutboxDelivery, MemoryKernelStore.tables]
  by_cases hws : ws = ""
  · simp [hws]
  · simp only [hws, ↓reduceIte]
    cases s.outbox.get? (ws, cmd) with
    | none => rfl
    | some existing => by_cases hpending : existing.isPending <;> simp [hpending]

theorem of_replay (paused : Bool) (ws cmd : String) :
    MemoryEffect env s (((env.controller paused).replay ws cmd).run
      (MemoryKernelStore.handle env.codec) s).2 := by
  simp only [replay, ask, Program.run_bind, Program.run_perform,
    MemoryKernelStore.handle]
  cases s.findOutbox ws cmd with
  | none => exact .quiet rfl
  | some record =>
      by_cases hpending : record.isPending
      · simp only [hpending, ↓reduceIte]
        cases (env.controller paused).codec.canonicalJson
            (Json.ofTexts ((env.controller paused).replayReceipt ws cmd).rows) with
        | none => exact .quiet rfl
        | some receiptJson =>
            simp only [Program.run_bind, Program.run_perform,
              MemoryKernelStore.handle]
            have heffect : MemoryEffect env s
                (s.recordOutboxDelivery ws cmd receiptJson) :=
              of_recordOutboxDelivery ws cmd receiptJson
            cases (s.recordOutboxDelivery ws cmd receiptJson).findOutbox ws cmd with
            | none => exact heffect
            | some delivered =>
                by_cases hstill : delivered.isPending <;>
                  simpa [hstill] using heffect
      · simp only [hpending, Bool.false_eq_true, ↓reduceIte]
        exact .quiet rfl

theorem of_acquireLease (ws pl holder : String) (now ttl : Int)
    (replace : Bool) :
    MemoryEffect env s ((acquireLease ws pl holder now ttl replace).run
      (MemoryKernelStore.handle env.codec) s).2 := by
  simp only [acquireLease, ask, Program.run_bind, Program.run_perform,
    MemoryKernelStore.handle]
  by_cases hbusy : (leaseBusy now (s.loadLease ws pl) && !replace) = true
  · simp only [hbusy, ↓reduceIte]
    exact .quiet rfl
  · simp only [hbusy, Bool.false_eq_true, ↓reduceIte, Program.run_bind,
      Program.run_perform, MemoryKernelStore.handle]
    exact of_saveLease _

theorem of_heartbeatLease (ws pl holder : String) (generation : Nat)
    (now ttl : Int) :
    MemoryEffect env s ((heartbeatLease ws pl holder generation now ttl).run
      (MemoryKernelStore.handle env.codec) s).2 := by
  simp only [heartbeatLease, ask, Program.run_bind, Program.run_perform,
    MemoryKernelStore.handle]
  cases s.loadLease ws pl with
  | none => exact .quiet rfl
  | some lease =>
      by_cases hmatch : leaseMatches holder generation now (some lease) = true
      · simp only [hmatch, ↓reduceIte, Program.run_bind, Program.run_perform,
          MemoryKernelStore.handle]
        exact of_saveLease _
      · simp only [hmatch, Bool.false_eq_true, ↓reduceIte]
        exact .quiet rfl

theorem of_cancel (ws pl : String) :
    MemoryEffect env s ((cancel ws pl).run
      (MemoryKernelStore.handle env.codec) s).2 := by
  by_cases hws : ws = ""
  · simp only [cancel, hws, ↓reduceIte]
    exact .quiet rfl
  · simp only [cancel, hws, ↓reduceIte, ask, Program.run_perform,
      MemoryKernelStore.handle]
    exact .leased (s.leases.pop (ws, pl))
      (by simp [MemoryKernelStore.deleteLease, hws, MemoryKernelStore.tables])

theorem calls_read (query : PipelineQuery) :
    (KernelController.read query).Calls StoreOp.IsRead := by
  unfold KernelController.read
  split
  · trivial
  · refine Program.Calls.bind (Program.calls_perform ?_) fun _ => trivial
    trivial

theorem of_rebuild (query : PipelineQuery) :
    MemoryEffect env s ((rebuild query).run
      (MemoryKernelStore.handle env.codec) s).2 := by
  by_cases hws : query.workspaceId = ""
  · simp only [rebuild, hws, ↓reduceIte]
    exact .quiet rfl
  · -- the rebuild writes the tables, the read after it only a fault switch
    have htables : ∀ rebuilt : MemoryKernelStore,
        rebuilt.tables =
            (s.tables.rebuildPipeline env.codec query.workspaceId
              query.pipelineId).2 →
        ∀ final : MemoryKernelStore, final.tables = rebuilt.tables →
          MemoryEffect env s final := by
      intro rebuilt hrebuilt final hfinal
      exact .rebuilt hws (hfinal.trans hrebuilt)
    simp only [rebuild, hws, ↓reduceIte, ask, Program.run_bind,
      Program.run_perform, MemoryKernelStore.handle]
    have hrebuilt : (s.rebuildPipeline env.codec query.workspaceId
        query.pipelineId).2.tables =
        (s.tables.rebuildPipeline env.codec query.workspaceId
          query.pipelineId).2 := by
      simp only [MemoryKernelStore.rebuildPipeline, hws, ↓reduceIte,
        MemoryKernelStore.deletePipeline, MemoryKernelStore.tables,
        MemoryKernelStore.listEvents]
      split <;> rfl
    rcases hrun : s.rebuildPipeline env.codec query.workspaceId
        query.pipelineId with ⟨answer, rebuilt⟩
    rw [hrun] at hrebuilt
    cases answer with
    | error error => exact htables rebuilt hrebuilt rebuilt rfl
    | ok snapshot =>
        exact htables rebuilt hrebuilt _
          ((ReadRun.of_calls (calls_read query) rebuilt).preserves
            MemoryKernelStore.handle_read_tables)

/-- Every call that submits nothing changes the tables in one of the listed
ways. -/
theorem of_call (paused : Bool) (c : KernelCall)
    (hnone : (SessionOp.call c).submitted = none) :
    MemoryEffect env s ((c.program (env.controller paused)).run
      (MemoryKernelStore.handle env.codec) s).2 := by
  cases c <;> simp only [KernelCall.program, Program.run_bind_done]
  case submit | submitWithLease => simp [SessionOp.submitted] at hnone
  case read query => exact of_calls (calls_read query)
  case replay ws cmd => exact of_replay paused ws cmd
  case acquireLease ws pl holder now ttl replace =>
      exact of_acquireLease ws pl holder now ttl replace
  case heartbeatLease ws pl holder generation now ttl =>
      exact of_heartbeatLease ws pl holder generation now ttl
  case cancel ws pl => exact of_cancel ws pl
  case cleanup now =>
      exact .leased (s.deleteExpiredLeases now).leases rfl
  case rebuild query => exact of_rebuild query
  case recordOutboxDelivery ws cmd receiptJson =>
      exact of_recordOutboxDelivery ws cmd receiptJson
  case listEvents | listPendingOutbox | findOutbox | counts =>
      exact .quiet rfl

end MemoryEffect

/-- What a session step does: a submission with its answer, or one of the
other changes. -/
inductive MemoryStep (env : KernelEnv) (s : Session MemoryKernelStore)
    (op : SessionOp) (answer : Except PyError KernelAnswer)
    (s' : MemoryKernelStore) : Prop
  | submitted {command : ControllerCommand}
      {outcome : Except PyError CommandReceipt}
      (op_eq : op.submitted = some command)
      (answer_eq : answer = outcome.map .receipt)
      (effect : (env.controller s.paused).SubmitEffect
        (MemoryKernelStore.handle env.codec) MemoryKernelStore.tables command
        s.store outcome s')
  | maintained (op_eq : op.submitted = none)
      (effect : MemoryEffect env s.store s')

/-- Every session step is one of the listed ones. -/
theorem memoryStep (env : KernelEnv) (s : Session MemoryKernelStore)
    (op : SessionOp) :
    MemoryStep env s op (Session.step env (memoryStore env.codec) s op).1
      (Session.step env (memoryStore env.codec) s op).2.store := by
  cases hop : op.submitted with
  | none =>
      refine .maintained hop ?_
      cases op with
      | call c => exact MemoryEffect.of_call s.paused c hop
      | pause | resume | tripCommitFailure | tripReadFailure => exact .quiet rfl
  | some command =>
      obtain ⟨outcome, hanswer, heffect⟩ :=
        s.step_submitted env (memoryStore env.codec) MemoryKernelStore.storeLaws hop
      exact .submitted hop hanswer heffect

end HermesPipeline
