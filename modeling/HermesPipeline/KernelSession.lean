/-
Runs of one controller over one store: every public operation, the direct
store calls, pause and resume, and the two injected faults, in any order.
-/
import HermesPipeline.KernelMemory
import HermesPipeline.KernelSqlite
import HermesPipeline.KernelSubmit
import HermesPipeline.Lib.Machine

namespace HermesPipeline

open Lib

/-- A call on the controller or, for the last five, on its store. -/
inductive KernelCall
  | submit (command : ControllerCommand)
  | submitWithLease (command : ControllerCommand) (holder : String)
      (generation : Nat) (now : Int)
  | read (query : PipelineQuery)
  | replay (workspaceId commandId : String)
  | acquireLease (workspaceId pipelineId holder : String)
      (now ttlSeconds : Int) (replace : Bool)
  | heartbeatLease (workspaceId pipelineId holder : String) (generation : Nat)
      (now ttlSeconds : Int)
  | cancel (workspaceId pipelineId : String)
  | cleanup (now : Int)
  | rebuild (query : PipelineQuery)
  | listEvents (workspaceId pipelineId : String)
  | listPendingOutbox (workspaceId : String)
  | recordOutboxDelivery (workspaceId commandId deliveryReceiptJson : String)
  | findOutbox (workspaceId commandId : String)
  | counts

/-- What a call returns. -/
inductive KernelAnswer
  | receipt (value : CommandReceipt)
  | view (value : PipelineView)
  | outbox (value : OutboxRecord)
  | lease (value : LeaseRecord)
  | unit
  | events (value : List EventWrite)
  | outboxRows (value : List OutboxRecord)
  | outboxRow (value : Option OutboxRecord)
  | counts (value : StoreCounts)
deriving DecidableEq

def KernelCall.program (k : KernelController) :
    KernelCall → StoreProgram KernelAnswer
  | .submit command => (k.submit command).bind fun r => .done (.receipt r)
  | .submitWithLease command holder generation now =>
      (k.submitWithLease command holder generation now).bind fun r =>
        .done (.receipt r)
  | .read query => (KernelController.read query).bind fun v => .done (.view v)
  | .replay ws cmd => (k.replay ws cmd).bind fun r => .done (.outbox r)
  | .acquireLease ws pl holder now ttl replace =>
      (KernelController.acquireLease ws pl holder now ttl replace).bind fun r =>
        .done (.lease r)
  | .heartbeatLease ws pl holder generation now ttl =>
      (KernelController.heartbeatLease ws pl holder generation now ttl).bind
        fun r => .done (.lease r)
  | .cancel ws pl => (KernelController.cancel ws pl).bind fun _ => .done .unit
  | .cleanup now => (KernelController.cleanup now).bind fun _ => .done .unit
  | .rebuild query =>
      (KernelController.rebuild query).bind fun v => .done (.view v)
  | .listEvents ws pl => (ask (.listEvents ws pl)).bind fun r => .done (.events r)
  | .listPendingOutbox ws =>
      (ask (.listPendingOutbox ws)).bind fun r => .done (.outboxRows r)
  | .recordOutboxDelivery ws cmd receipt =>
      (ask (.recordOutboxDelivery ws cmd receipt)).bind fun _ => .done .unit
  | .findOutbox ws cmd =>
      (ask (.findOutbox ws cmd)).bind fun r => .done (.outboxRow r)
  | .counts => (ask .counts).bind fun r => .done (.counts r)

/-- One input of a session. -/
inductive SessionOp
  | call (call : KernelCall)
  | pause
  | resume
  | tripCommitFailure
  | tripReadFailure

/-- The command an input submits. -/
def SessionOp.submitted : SessionOp → Option ControllerCommand
  | .call (.submit command) => some command
  | .call (.submitWithLease command _ _ _) => some command
  | _ => none

/-- The controller's pause flag and the store behind it. -/
structure Session (σ : Type) where
  paused : Bool
  store : σ

/-- What stays fixed in a session: the serializers and the clock text. -/
structure KernelEnv where
  codec : Codec
  recordedAt : String

def KernelEnv.controller (env : KernelEnv) (paused : Bool) : KernelController :=
  ⟨env.codec, env.recordedAt, paused⟩

namespace Session

variable {σ : Type} (env : KernelEnv) (impl : TransactionStore σ)

def init : Session σ := ⟨false, impl.init⟩

def step (s : Session σ) : SessionOp → Except PyError KernelAnswer × Session σ
  | .call c =>
      let result := (c.program (env.controller s.paused)).run impl.handle s.store
      (result.1, { s with store := result.2 })
  | .pause => (.ok .unit, { s with paused := true })
  | .resume => (.ok .unit, { s with paused := false })
  | .tripCommitFailure =>
      (.ok .unit, { s with store := impl.tripCommitFailure s.store })
  | .tripReadFailure =>
      (.ok .unit, { s with store := impl.tripReadFailure s.store })

/-- The state a run from the empty store ends in. -/
def after (ops : List SessionOp) : Session σ :=
  exec (step env impl) (init impl) ops

/-- A step that submits a command has one of the effects of `submit`. -/
theorem step_submitted {ν : Type} {view : σ → ν}
    (laws : KernelController.StoreLaws impl.handle view) (s : Session σ)
    {op : SessionOp} {command : ControllerCommand}
    (hop : op.submitted = some command) :
    ∃ outcome, (step env impl s op).1 = outcome.map .receipt ∧
      (env.controller s.paused).SubmitEffect impl.handle view command s.store
        outcome (step env impl s op).2.store := by
  cases op with
  | pause | resume | tripCommitFailure | tripReadFailure =>
      simp [SessionOp.submitted] at hop
  | call c =>
      cases c <;> simp only [SessionOp.submitted, Option.some.injEq,
        reduceCtorEq] at hop
      case submit other =>
          subst hop
          simp only [step, KernelCall.program, Program.run_bind_done]
          exact ⟨_, rfl, (env.controller s.paused).submit_effect laws other s.store⟩
      case submitWithLease other holder generation now =>
          subst hop
          simp only [step, KernelCall.program, Program.run_bind_done]
          exact ⟨_, rfl, (env.controller s.paused).submitWithLease_effect laws
            other holder generation now s.store⟩

end Session

end HermesPipeline
