/-
Runs of one bridge over a state root: requests one after the other, restarts
from the files, and stage workers that run to their end between requests.
-/
import HermesPipeline.BridgeProcess
import HermesPipeline.Lib.Machine

namespace HermesPipeline

open Lib

/-- A stage that was run for a pipeline. -/
inductive Launch
  | plan (pipelineId : String)
  | design (pipelineId : String)
  | develop (pipelineId : String)
  | verify (pipelineId candidateSha : String)
deriving Repr, DecidableEq

/-- The serializers and all answers from outside, by the number of the
effect. -/
structure RootEnv extends BridgeCodec where
  clock : Nat → Int
  writes : Nat → Except BridgeError Unit
  plans : Nat → Except BridgeError PrdResult
  designs : Nat → Except BridgeError ArchitectureResult
  develops : Nat → Except BridgeError DevelopmentResult
  /-- `none` stands for an exception of the flow, which is caught. -/
  verifies : Nat → Option VerifyResult
  publishes : Nat → Except BridgeError (Option DeliveryRecord)
  spawns : Nat → Except BridgeError Unit
  runtimes : List String
  inner : String → List (String × Json) → Json

/-- Nothing outside raises: no file, no stage, no remote, no process. -/
structure RootEnv.Calm (env : RootEnv) : Prop where
  writes : ∀ n, env.writes n = .ok ()
  plans : ∀ n, ∃ result, env.plans n = .ok result
  designs : ∀ n, ∃ result, env.designs n = .ok result
  develops : ∀ n, ∃ result, env.develops n = .ok result
  publishes : ∀ n, ∃ remote, env.publishes n = .ok remote
  spawns : ∀ n, env.spawns n = .ok ()

/-- The state root and the bridge over it.  The effects that are answered from
outside are counted; the stages that were run and the failures of the store and
of the files are kept for the statements only. -/
structure RootState where
  store : SqliteKernelStore
  files : Files
  bridge : Bridge
  settings : Settings
  spawnWorker : Bool
  /-- False after a constructor that raised. -/
  running : Bool
  effects : Nat
  spawned : List WorkerArgs
  launches : List Launch
  faults : Nat

namespace RootState

def ticked (s : RootState) : RootState := { s with effects := s.effects + 1 }

def launched (s : RootState) (launch : Launch) : RootState :=
  { s.ticked with launches := s.launches ++ [launch] }

/-- A failure of the store or of a file. -/
def faulted {ε α : Type} (s : RootState) : Except ε α → RootState
  | .ok _ => s
  | .error _ => { s with faults := s.faults + 1 }

variable (env : RootEnv)

/-- The effects of the later stages. -/
def handleBridge : Handler BridgeOp BridgeOp.Answer BridgeError RootState
  | .memory, s => (.ok s.bridge, s)
  | .assign bridge, s => (.ok (), { s with bridge := bridge })
  | .store op, s =>
      let answered := SqliteKernelStore.handle env.codec op s.store
      (.ok answered.1, { s with store := answered.2 }.faulted answered.1)
  | .time, s => (.ok (env.clock s.effects), s.ticked)
  | .construct, s =>
      match Descriptor.load env.codec.str s.files with
      | some bridge => (.ok bridge, s)
      | none => (.error .value, s)
  | .write file, s =>
      match env.writes s.effects with
      | .ok _ => (.ok (), { s.ticked with
          files := s.files.set file (some (Descriptor.document s.bridge file)) })
      | .error error => (.error error, { s.ticked with faults := s.faults + 1 })
  | .develop pipelineId _ _ _ _, s =>
      (env.develops s.effects, s.launched (.develop pipelineId))
  | .verify pipelineId _ candidateSha _, s =>
      (.ok (env.verifies s.effects), s.launched (.verify pipelineId candidateSha))
  | .publish _, s => (env.publishes s.effects, s.ticked)
  | .spawn args, s =>
      match env.spawns s.effects with
      | .ok _ => (.ok (), { s.ticked with spawned := s.spawned ++ [args] })
      | .error error => (.error error, s.ticked)
  | .receive, s => (.ok (), s)
  | .startHeartbeat _ _, s => (.ok (), s)
  | .stopHeartbeat _, s => (.ok (), s)
  | .waitHeartbeat _, s => (.ok true, s)
  | .enterStages _ _, s => (.ok (), s)
  | .leaveStages _ _, s => (.ok (), s)

def handle : Handler RootOp RootOp.Answer BridgeError RootState
  | .bridge op, s => handleBridge env op s
  | .settings, s => (.ok s.settings, s)
  | .assignSettings settings, s => (.ok (), { s with settings := settings })
  | .loadSettings, s => (.ok (Descriptor.loadSettings env.codec.str s.files), s)
  | .writeSettings file, s =>
      match env.writes s.effects with
      | .ok _ => (.ok (), { s.ticked with
          files := s.files.set file
            (some (Descriptor.settingsDocument s.settings file)) })
      | .error error => (.error error, { s.ticked with faults := s.faults + 1 })
  | .plan pipelineId _, s => (env.plans s.effects, s.launched (.plan pipelineId))
  | .design pipelineId _, s =>
      (env.designs s.effects, s.launched (.design pipelineId))
  | .runtimes, s => (.ok env.runtimes, s)
  | .inner commandId payload, s => (.ok (env.inner commandId payload), s)

end RootState

/-- One step of a session. -/
inductive RootInput
  | request (commandId : String) (payload : List (String × Json))
  /-- A new bridge over the same state root. -/
  | restart (spawnWorker : Bool)
  /-- A stage worker process, from its start to its end. -/
  | work (args : WorkerArgs)

namespace RootState

variable (env : RootEnv)

/-- Serve a request, unless the constructor of the bridge raised. -/
def serve (s : RootState) (commandId : String)
    (payload : List (String × Json)) : Except BridgeError Json × RootState :=
  if s.running then
    (KernelBridge.process env.toBridgeCodec s.spawnWorker commandId payload).run
      (handle env) s
  else (.error .value, s)

/-- Replace the bridge by a new one; nothing of the old memory is left. -/
def restarted (s : RootState) (spawnWorker : Bool) :
    Except BridgeError Unit × RootState :=
  let started := (KernelBridge.start env.toBridgeCodec).run (handle env)
    { s with spawnWorker := spawnWorker }
  match started.1 with
  | .ok _ => (.ok (), { started.2 with running := true })
  | .error error => (.error error, { started.2 with running := false })

/-- The bridge of a worker is its own: the memory of the sidecar stays. -/
def worked (s : RootState) (args : WorkerArgs) :
    Except BridgeError Int × RootState :=
  let ended := (stageWorker env.toBridgeCodec 0 args).run (handleBridge env) s
  (ended.1, { ended.2 with bridge := s.bridge })

def step (s : RootState) : RootInput → Except BridgeError Json × RootState
  | .request commandId payload => s.serve env commandId payload
  | .restart spawnWorker =>
      let restarted := s.restarted env spawnWorker
      (restarted.1.map fun _ => .null, restarted.2)
  | .work args =>
      let worked := s.worked env args
      (worked.1.map Json.int, worked.2)

/-- An empty bridge, as the constructor leaves it on an empty state root. -/
def emptyBridge : Bridge where
  corrupt := false
  registry := .empty
  approval := .empty
  delivery := .empty
  prd := .empty
  arch := .empty
  dev := .empty
  verify := .empty
  approvals := .empty
  feedback := .empty

/-- A state root with nothing in it, and the bridge that was started on it. -/
def init (spawnWorker : Bool) : RootState where
  store := .init
  files := .empty
  bridge := emptyBridge
  settings := .empty
  spawnWorker := spawnWorker
  running := true
  effects := 0
  spawned := []
  launches := []
  faults := 0

/-- The state after a run. -/
def after (s : RootState) (inputs : List RootInput) : RootState :=
  exec (step env) s inputs

end RootState

end HermesPipeline
