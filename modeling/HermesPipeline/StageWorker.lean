/-
The processes over one state root: sidecars that serve approve and retry
requests, the stage workers they start, and the heartbeat thread of each
worker.  A schedule lets them take one effect at a time, in any order.
-/
import HermesPipeline.KernelBridge
import HermesPipeline.KernelSqlite
import HermesPipeline.Lib.Pool

namespace HermesPipeline

open Lib

namespace KernelBridge

variable (env : BridgeCodec)

/-- Record the row of a station, if there is one. -/
def importStation (projectId pipelineId : String) (station : Station)
    (rows : Rows) : BridgeProgram Unit :=
  match rows.get? pipelineId with
  | none => .done ()
  | some row => recordStation env "ws_local" projectId pipelineId station row

/-- Record the verification row with the candidate of the development. -/
def importVerify (projectId pipelineId : String) (bridge : Bridge) :
    BridgeProgram Unit :=
  if bridge.verify.get? pipelineId = none then .done ()
  else
    recordVerify env "ws_local" projectId pipelineId
      ((bridge.dev.getD pipelineId .empty).getD "candidate_sha" "")

/-- `_import_json_stations` for a pipeline without station events. -/
def importRows (pipelineId : String) : BridgeProgram Unit := do
  let bridge ← perform .memory
  let named := (bridge.approvals.getD pipelineId .empty).getD "project_id"
    "prj_local"
  let projectId := if named = "" then "prj_local" else named
  importStation env projectId pipelineId .prd bridge.prd
  importStation env projectId pipelineId .architecture bridge.arch
  importStation env projectId pipelineId .development bridge.dev
  importVerify env projectId pipelineId bridge
  match bridge.approvals.get? pipelineId with
  | none => .done ()
  | some row =>
      recordStation env "ws_local" projectId pipelineId .approval
        (rowOf [("approval_status", row.getD "approval_status" ""),
          ("approver_id", row.getD "approver_id" "")])

/-- One turn of the loop of `_import_json_stations`. -/
def importPipeline (pipelineId : String) : BridgeProgram Unit := do
  let snapshot ← kernel (ask (.loadPipeline "ws_local" pipelineId))
  if snapshot.elim "" PipelineSnapshot.status ≠ "OPEN" then .done ()
  else do
    let events ← kernel (ask (.listEvents "ws_local" pipelineId))
    if events.any fun event => decide (event.eventType ∈ stageEvents) then
      .done ()
    else importRows env pipelineId

def importPipelines : List String → BridgeProgram Unit
  | [] => .done ()
  | pipelineId :: rest =>
      (importPipeline env pipelineId).bind fun _ => importPipelines rest

/-- The pipelines that have a row of any station. -/
def stationIds (bridge : Bridge) : List String :=
  ([bridge.prd, bridge.arch, bridge.dev, bridge.verify, bridge.approvals].flatMap
    fun rows => rows.rows.map Prod.fst).dedup

/-- The constructor: load the descriptor files, then import the station rows
that the log does not know. -/
def construct : BridgeProgram Unit := do
  let bridge ← perform .construct
  perform (.assign bridge)
  importPipelines env (stationIds bridge)

end KernelBridge

/-- A request that a sidecar serves. -/
inductive BridgeRequest
  | approve (payload : List (String × Json))
  | retry (payload : List (String × Json))

namespace BridgeRequest

variable (env : BridgeCodec)

def payload : BridgeRequest → List (String × Json)
  | .approve payload => payload
  | .retry payload => payload

/-- The lease row that the request is about. -/
def key (request : BridgeRequest) : String × String :=
  ((KernelBridge.requestIds env request.payload).workspaceId,
    (KernelBridge.requestIds env request.payload).pipelineId)

/-- `process`, for these two requests. -/
def process (spawnWorker : Bool) (request : BridgeRequest) :
    BridgeProgram Json := do
  let bridge ← perform .memory
  if bridge.corrupt then .done (errorReply "corrupt state")
  else
    match request with
    | .approve payload => KernelBridge.approveBaseline env spawnWorker payload
    | .retry payload => KernelBridge.retryVerify env spawnWorker payload

end BridgeRequest

section Programs

variable (env : BridgeCodec)

/-- A sidecar serves its requests one after the other; an exception ends only
the request it leaves. -/
def serve (spawnWorker : Bool) : List BridgeRequest → BridgeProgram Unit
  | [] => .done ()
  | request :: rest =>
      (perform .receive).bind fun _ =>
        (request.process env spawnWorker).observe fun _ => serve spawnWorker rest

def sidecar (spawnWorker : Bool) (requests : List BridgeRequest) :
    BridgeProgram Unit :=
  (KernelBridge.construct env).bind fun _ => serve env spawnWorker requests

/-- `main` of a stage worker. -/
def stageWorker (process : Nat) (args : WorkerArgs) : BridgeProgram Int := do
  KernelBridge.construct env
  perform (.startHeartbeat process args)
  ((KernelBridge.runLeasedStages env args.workspaceId args.projectId
      args.pipelineId args.principalId).bind fun report =>
    .done report.exitCode).withCleanup
    ((perform (.stopHeartbeat process)).bind fun _ =>
      KernelBridge.releaseLease args.workspaceId args.pipelineId)

/-- `_heartbeat`, for a number of turns of its loop. -/
def heartbeatLoop (process : Nat) (args : WorkerArgs) : Nat → BridgeProgram Unit
  | 0 => .done ()
  | turns + 1 => do
      let stopped ← perform (.waitHeartbeat process)
      if stopped then .done ()
      else
        ((perform .time).bind fun now =>
          KernelBridge.heartbeatLease args now).observe fun
            | .ok _ => heartbeatLoop process args turns
            | .error _ => .done ()

end Programs

/-- What the processes share: the store and the clock.  The numbers count the
effects so far, which picks the answers from outside, and the processes
started so far; a worker whose stop event is set is listed. -/
structure StageWorld where
  store : SqliteKernelStore
  now : Int
  effects : Nat
  processes : Nat
  stopped : List Nat

/-- The serializers and all answers from outside, by the number of the effect,
and how often a heartbeat thread turns. -/
structure StageEnv extends BridgeCodec where
  turns : Nat
  constructs : Nat → Except BridgeError Bridge
  writes : Nat → Except BridgeError Unit
  develops : Nat → Except BridgeError DevelopmentResult
  verifies : Nat → Option VerifyResult
  publishes : Nat → Except BridgeError (Option DeliveryRecord)
  spawns : Nat → Except BridgeError Unit

namespace StageWorld

variable (env : StageEnv)

/-- The answer to an effect. -/
def answer (bridge : Bridge) (world : StageWorld) :
    (op : BridgeOp) → Except BridgeError op.Answer
  | .memory => .ok bridge
  | .assign _ => .ok ()
  | .store op => .ok (SqliteKernelStore.handle env.codec op world.store).1
  | .time => .ok world.now
  | .construct => env.constructs world.effects
  | .write _ => env.writes world.effects
  | .develop _ _ _ _ _ => env.develops world.effects
  | .verify _ _ _ _ => .ok (env.verifies world.effects)
  | .publish _ => env.publishes world.effects
  | .spawn _ => env.spawns world.effects
  | .receive => .ok ()
  | .startHeartbeat _ _ => .ok ()
  | .stopHeartbeat _ => .ok ()
  | .waitHeartbeat process => .ok (decide (process ∈ world.stopped))
  | .enterStages _ _ => .ok ()
  | .leaveStages _ _ => .ok ()

/-- The shared state after an effect. -/
def after (world : StageWorld) (op : BridgeOp) : StageWorld :=
  let counted := { world with effects := world.effects + 1 }
  match op with
  | .store op =>
      let store := (SqliteKernelStore.handle env.codec op world.store).2
      { counted with store := store }
  | .spawn _ => { counted with processes := world.processes + 1 }
  | .stopHeartbeat process =>
      { counted with stopped := process :: world.stopped }
  | _ => counted

end StageWorld

/-- The memory of a process after an effect. -/
def Bridge.after (bridge : Bridge) : BridgeOp → Bridge
  | .assign assigned => assigned
  | _ => bridge

end HermesPipeline
