/-
The bridge between requests and the kernel: the station rows it keeps in
memory, how it records a station, runs the development and verification stages,
approves a baseline and retries, each a program over the effects it has.
-/
import HermesPipeline.Delivery
import HermesPipeline.KernelController
import HermesPipeline.Lib.PyInt
import HermesPipeline.Operations

namespace HermesPipeline

open Lib

/-- The exceptions that leave a bridge operation. -/
inductive BridgeError
  | kernel (error : PyError)
  /-- An `OSError` of a file or a process. -/
  | os
  /-- A `ValueError` of `int()` or of a contract model. -/
  | value
deriving Repr, DecidableEq

/-- Station rows by pipeline. -/
abbrev Rows := Dict String (Dict String String)

def rowOf (fields : List (String × String)) : Dict String String :=
  Dict.update .empty fields

/-- What a bridge holds in memory. -/
structure Bridge where
  corrupt : Bool
  registry : ProjectRegistry
  approval : SolutionApproval
  delivery : FakeDelivery
  prd : Rows
  arch : Rows
  dev : Rows
  verify : Rows
  approvals : Rows
  feedback : Dict String String

/-- The arguments of a stage worker. -/
structure WorkerArgs where
  workspaceId : String
  projectId : String
  pipelineId : String
  principalId : String
  holder : String
  generation : Nat
deriving Repr, DecidableEq

inductive DevelopmentStatus
  | completed | denied
deriving Repr, DecidableEq

def DevelopmentStatus.value : DevelopmentStatus → String
  | .completed => "COMPLETED"
  | .denied => "DENIED"

structure CandidateRecord where
  sha : String
  relativePath : String
deriving Repr, DecidableEq

/-- What `DevelopmentStage.run` returns, with the verdict of the candidate gate
on it. -/
structure DevelopmentResult where
  status : DevelopmentStatus
  artifactId : Option String
  candidate : Option CandidateRecord
  feedback : String
  gatePasses : Bool
deriving Repr, DecidableEq

inductive VerifyStatus
  | ready | rework | denied | drift
deriving Repr, DecidableEq

def VerifyStatus.value : VerifyStatus → String
  | .ready => "READY"
  | .rework => "REWORK"
  | .denied => "DENIED"
  | .drift => "DRIFT"

structure VerifyResult where
  status : VerifyStatus
  e2eId : Option String
  acceptanceId : Option String
  feedback : String
deriving Repr, DecidableEq

/-- The effects of a bridge.  The stage runtimes, the files behind a new bridge
and the remote repository are outside: their answers are open. -/
inductive BridgeOp
  /-- Read and write the fields of `self`. -/
  | memory
  | assign (bridge : Bridge)
  | store (op : StoreOp)
  /-- `int(time.time())`. -/
  | time
  /-- What a new bridge loads from the descriptor files. -/
  | construct
  /-- `_write_json`. -/
  | write (file : String)
  /-- `DevelopmentStage.run` in the worktree of the pipeline. -/
  | develop (pipelineId prdId designId testplanId feedback : String)
  /-- `VerifyFlow.run`; `none` stands for a raised exception. -/
  | verify (pipelineId projectId candidateSha testplanId : String)
  /-- `GitHubDelivery.publish`; `none` when no repository is set up. -/
  | publish (request : DeliveryRequest)
  /-- `subprocess.Popen` of a stage worker. -/
  | spawn (args : WorkerArgs)
  /-- The next request is taken up. -/
  | receive
  /-- The heartbeat thread of a worker process: its start, the stop event, and
  the wait on that event. -/
  | startHeartbeat (process : Nat) (args : WorkerArgs)
  | stopHeartbeat (process : Nat)
  | waitHeartbeat (process : Nat)
  /-- The stage execution of a pipeline begins and ends. -/
  | enterStages (workspaceId pipelineId : String)
  | leaveStages (workspaceId pipelineId : String)

@[reducible] def BridgeOp.Answer : BridgeOp → Type
  | .memory => Bridge
  | .assign _ => Unit
  | .store op => Except PyError op.Answer
  | .time => Int
  | .construct => Bridge
  | .write _ => Unit
  | .develop _ _ _ _ _ => DevelopmentResult
  | .verify _ _ _ _ => Option VerifyResult
  | .publish _ => Option DeliveryRecord
  | .spawn _ => Unit
  | .receive => Unit
  | .startHeartbeat _ _ => Unit
  | .stopHeartbeat _ => Unit
  | .waitHeartbeat _ => Bool
  | .enterStages _ _ => Unit
  | .leaveStages _ _ => Unit

abbrev BridgeProgram := Program BridgeOp BridgeOp.Answer BridgeError

def perform (op : BridgeOp) : BridgeProgram op.Answer := Program.perform op

/-- Run a kernel program; its errors are raised on. -/
def kernel {α : Type} : StoreProgram α → BridgeProgram α
  | .done value => .done value
  | .raise error => .raise (.kernel error)
  | .call op next => .call (.store op) fun
      | .ok answer => kernel (next answer)
      | .error error => .raise error

/-- Change the fields of `self`. -/
def modify (change : Bridge → Bridge) : BridgeProgram Unit := do
  let bridge ← perform .memory
  perform (.assign (change bridge))

/-- The serializers of the kernel and `json.dumps`. -/
structure BridgeCodec where
  codec : Codec
  dumps : Json → String

/-- `_RECORDED`. -/
def recordedText : String := "2026-01-01T00:00:00Z"

def errorReply (message : String) : Json :=
  .obj [("ok", .bool false), ("error", .str message)]

namespace KernelBridge

/-- The controller of a bridge is never paused. -/
def controller (codec : Codec) : KernelController :=
  ⟨codec, recordedText, false⟩

/-- `_STAGE_EVENTS` and `_RECORD_EVENTS`. -/
def stageEvents : List String :=
  [Station.prd, .architecture, .development, .verify, .approval].map
    Station.eventType

/-- `fold_stage_projection`. -/
def foldStageProjection (codec : Codec) (events : List EventWrite) :
    Dict String String :=
  events.foldl
    (fun folded event =>
      if event.eventType ∈ stageEvents then
        match codec.loads event.payloadJson with
        | some (.obj members) =>
            members.foldl
              (fun folded member =>
                if member.1 = "station" then folded
                else folded.set member.1 (codec.str member.2))
              folded
        | _ => folded
      else folded)
    .empty

/-- Fill the rows that are missing in memory from the folded events. -/
def hydrate (folded : Dict String String) (pipelineId : String)
    (bridge : Bridge) : Bridge :=
  let copy (names : List String) : Dict String String :=
    rowOf (names.map fun name => (name, folded.getD name ""))
  let fill (rows : Rows) (present : Bool) (row : Dict String String) : Rows :=
    if present ∧ rows.get? pipelineId = none then rows.set pipelineId row
    else rows
  if folded.rows.isEmpty then bridge
  else
    { bridge with
      prd := fill bridge.prd (folded.getD "prd_status" "" ≠ "")
        (copy ["prd_id", "prd_status", "prd_gate"])
      arch := fill bridge.arch (folded.getD "arch_status" "" ≠ "")
        (copy ["design_id", "testplan_id", "arch_status", "arch_gate"])
      dev := fill bridge.dev (folded.get? "candidate_gate" = some "PASS")
        (copy ["impl_id", "candidate_sha", "candidate_path", "dev_status",
          "candidate_gate"])
      verify := fill bridge.verify (folded.get? "verify_status" = some "READY")
        ((copy ["verify_status", "e2e_id", "acceptance_id"]).update
          [("verify_attempts", folded.getD "verify_attempts" "0"),
            ("infra_attempts", folded.getD "infra_attempts" "0")])
      approvals := fill bridge.approvals
        (folded.get? "approval_status" = some "APPROVED")
        ((copy ["approval_status", "approver_id"]).update [("project_id", "")]) }

/-- The command that records a station; `none` when the contract model refuses
it. -/
def stationCommand (workspaceId projectId pipelineId commandId : String)
    (station : Station) (expectedRevision : Nat)
    (fields : Dict String String) : Option ControllerCommand :=
  let idempotencyKey := "record-" ++ commandId ++ "-key000"
  if h : matchesScope "cmd_" commandId = true ∧
      (16 ≤ idempotencyKey.length ∧ idempotencyKey.length ≤ 160) ∧
      matchesScope "ws_" workspaceId = true ∧
      matchesScope "prj_" projectId = true ∧
      matchesScope "pl_" pipelineId = true then
    some
      { commandId := commandId
        idempotencyKey := idempotencyKey
        workspaceId := workspaceId
        projectId := projectId
        pipelineId := pipelineId
        expectedRevision := expectedRevision
        actor := ⟨"runtime", .system, "kernel-bridge"⟩
        ingress := .systemReconciler
        commandType := station.commandType
        payload := fields.filterMap fun text => some (.str text)
        correlationId := "corr-" ++ commandId
        submittedAt := recordedText
        commandId_ok := h.1
        idempotencyKey_ok := h.2.1
        workspaceId_ok := h.2.2.1
        projectId_ok := h.2.2.2.1
        pipelineId_ok := h.2.2.2.2
        commandType_ok := by cases station <;> decide }
  else none

variable (env : BridgeCodec)

/-- `str(payload.get(name, default))`. -/
def payloadText (payload : List (String × Json)) (name fallback : String) :
    String :=
  env.codec.str ((Json.member? payload name).getD (.str fallback))

def hydrateFromEvents (workspaceId pipelineId : String) :
    BridgeProgram Unit := do
  let events ← kernel (ask (.listEvents workspaceId pipelineId))
  modify (hydrate (foldStageProjection env.codec events) pipelineId)

/-- `_record_station`.  The command goes to `submit`, not to
`submit_with_lease`. -/
def recordStation (workspaceId projectId pipelineId : String)
    (station : Station) (fields : Dict String String) : BridgeProgram Unit :=
  if workspaceId = "" then .done ()
  else do
    let events ← kernel (ask (.listEvents workspaceId pipelineId))
    let attempt := 1 + (events.filter fun event =>
      event.eventType = station.eventType).length
    let commandId := "cmd_" ++ pipelineId ++ "_" ++ station.value ++ "_" ++
      toString attempt
    let snapshot ← kernel (ask (.loadPipeline workspaceId pipelineId))
    match snapshot with
    | none => .done ()
    | some snapshot =>
        match stationCommand workspaceId projectId pipelineId commandId station
            snapshot.revision fields with
        | none => .raise .value
        | some command =>
            (kernel ((controller env.codec).submit command)).bind fun _ =>
              .done ()

/-- `_mirror_github`. -/
def mirrorGithub (record : DeliveryRecord) (request : DeliveryRequest) :
    BridgeProgram DeliveryRecord := do
  let remote ← perform (.publish request)
  match remote with
  | none => .done record
  | some remote =>
      if remote.ok then
        let merged : DeliveryRecord :=
          { record with
            ok := true
            branch := if remote.branch = "" then record.branch else remote.branch
            prNumber := if remote.prNumber = 0 then record.prNumber
              else remote.prNumber
            prUrl := remote.prUrl }
        (modify fun bridge =>
          let delivery := bridge.delivery.remember
            (FakeDelivery.pipelineKey request) merged
          { bridge with delivery := delivery }).bind fun _ => .done merged
      else .done record

def saveDelivery : BridgeProgram Unit := perform (.write "delivery.json")

/-- The receipt of a published outbox row. -/
def publishReceipt (stored : Option DeliveryRecord) : String :=
  env.dumps (.obj
    [("head_sha", .str (stored.elim "" DeliveryRecord.headSha)),
      ("pr_number", stored.elim (.str "") fun record => .int record.prNumber),
      ("pr_url", .str (stored.elim "" DeliveryRecord.prUrl))])

/-- One turn of the loop of `_drain_outbox`. -/
def drainItem (workspaceId : String) (item : OutboxRecord) :
    BridgeProgram Unit :=
  if item.effectType ≠ "PUBLISH_PR" then
    kernel (ask (.recordOutboxDelivery workspaceId item.commandId "{}"))
  else do
    let payload := match env.codec.loads item.payloadJson with
      | some (.obj members) => members
      | _ => []
    let pipelineId := payloadText env payload "pipeline_id" ""
    let projectId := payloadText env payload "project_id" "prj_local"
    let sha := payloadText env payload "candidate_sha" ""
    let bridge ← perform .memory
    let stored :=
      if pipelineId = "" then none else bridge.delivery.lookup pipelineId
    if (stored.elim "" DeliveryRecord.prUrl) = "" ∧ sha ≠ "" then
      let request : DeliveryRequest := ⟨sha, projectId, pipelineId⟩
      let published := bridge.delivery.publish request
      perform (.assign { bridge with delivery := published.2 })
      let mirrored ← mirrorGithub published.1 request
      saveDelivery
      kernel (ask (.recordOutboxDelivery workspaceId item.commandId
        (publishReceipt env (some mirrored))))
    else
      kernel (ask (.recordOutboxDelivery workspaceId item.commandId
        (publishReceipt env stored)))

def drainItems (workspaceId : String) : List OutboxRecord → BridgeProgram Unit
  | [] => .done ()
  | item :: rest =>
      (drainItem env workspaceId item).bind fun _ => drainItems workspaceId rest

def drainOutbox (workspaceId : String) : BridgeProgram Unit :=
  if workspaceId = "" then .done ()
  else do
    let items ← kernel (ask (.listPendingOutbox workspaceId))
    drainItems env workspaceId items

def recordVerify (workspaceId projectId pipelineId sha : String) :
    BridgeProgram Unit := do
  let bridge ← perform .memory
  let row := (bridge.verify.getD pipelineId .empty).update
    [("pipeline_id", pipelineId), ("project_id", projectId),
      ("candidate_sha", sha)]
  recordStation env workspaceId projectId pipelineId .verify row
  drainOutbox env workspaceId

/-- A station file and the bundle of the later stations. -/
def saveWithStages (file : String) : BridgeProgram Unit := do
  perform (.write file)
  perform (.write "stages.json")

def saveDev : BridgeProgram Unit := saveWithStages "development.json"

def saveVerify : BridgeProgram Unit := saveWithStages "verify.json"

def saveApprovals : BridgeProgram Unit := saveWithStages "approvals.json"

def setFeedback (pipelineId note : String) : BridgeProgram Unit :=
  if pyStrip note = "" then .done ()
  else do
    modify fun bridge =>
      { bridge with feedback := bridge.feedback.set pipelineId (pyStrip note) }
    perform (.write "feedback.json")

def clearFeedback (pipelineId : String) : BridgeProgram Unit := do
  let bridge ← perform .memory
  if bridge.feedback.get? pipelineId = none then .done ()
  else do
    perform (.assign { bridge with feedback := bridge.feedback.pop pipelineId })
    perform (.write "feedback.json")

/-- Designate and approve for a pipeline; `false` stands for a raised
`PermissionError`, which leaves a designation that was made. -/
def approveSolution (pipelineId projectId actorId prdId designId
    testplanId : String) : BridgeProgram Bool := do
  let bridge ← perform .memory
  match bridge.approval.designate bridge.registry pipelineId projectId actorId with
  | none => .done false
  | some designated => do
      perform (.assign { bridge with approval := designated })
      match designated.approve bridge.registry pipelineId projectId actorId prdId
          designId testplanId with
      | none => .done false
      | some approved => do
          perform (.assign { bridge with approval := approved })
          .done true

/-- Keep a development row, save it and record it. -/
def keepDevelopment (workspaceId projectId pipelineId : String)
    (row : Dict String String) : BridgeProgram Unit := do
  modify fun bridge => { bridge with dev := bridge.dev.set pipelineId row }
  saveDev
  recordStation env workspaceId projectId pipelineId .development row

/-- The development row of a finished stage. -/
def developmentRow (result : DevelopmentResult) : Dict String String :=
  rowOf [("impl_id", result.artifactId.getD ""),
    ("candidate_sha", result.candidate.elim "" CandidateRecord.sha),
    ("candidate_path", result.candidate.elim "" CandidateRecord.relativePath),
    ("dev_status", result.status.value),
    ("candidate_gate", if result.gatePasses then "PASS" else "FAIL")]

/-- The row of a development that was not allowed to start. -/
def deniedRow : Dict String String :=
  rowOf [("impl_id", ""), ("candidate_sha", ""), ("candidate_path", ""),
    ("dev_status", "DENIED"), ("candidate_gate", "FAIL")]

/-- Both planning gates have passed. -/
def planned (bridge : Bridge) (pipelineId : String) :
    Option (Dict String String × Dict String String) :=
  match bridge.prd.get? pipelineId, bridge.arch.get? pipelineId with
  | some planning, some design =>
      if planning.get? "prd_gate" = some "PASS" ∧
          design.get? "arch_gate" = some "PASS" then some (planning, design)
      else none
  | _, _ => none

/-- Keep the feedback of a development, or drop an older one. -/
def developmentFeedback (pipelineId : String) (result : DevelopmentResult) :
    BridgeProgram Unit :=
  if result.feedback ≠ "" then setFeedback pipelineId result.feedback
  else if result.status = .completed then clearFeedback pipelineId
  else .done ()

def advanceDevelopment (pipelineId projectId principalId workspaceId : String) :
    BridgeProgram Unit := do
  hydrateFromEvents env workspaceId pipelineId
  let bridge ← perform .memory
  if bridge.dev.get? pipelineId ≠ none then .done ()
  else
    match planned bridge pipelineId with
    | none => .done ()
    | some (planning, design) => do
        let prdId := planning.getD "prd_id" ""
        let designId := design.getD "design_id" ""
        let testplanId := design.getD "testplan_id" ""
        let allowed ← approveSolution pipelineId projectId principalId prdId
          designId testplanId
        if allowed then
          let result ← perform (.develop pipelineId prdId designId testplanId
            (bridge.feedback.getD pipelineId ""))
          developmentFeedback pipelineId result
          keepDevelopment env workspaceId projectId pipelineId
            (developmentRow result)
        else keepDevelopment env workspaceId projectId pipelineId deniedRow

/-- The name of the integration candidate that `VerifyFlow` publishes. -/
def integrationSha (candidateSha : String) : String :=
  env.codec.sha256Hex (candidateSha ++ ":" ++ String.ofList (List.replicate 64 '0'))

/-- `_advance_verify` from an exception of the flow on. -/
def keepInfra (pipelineId projectId workspaceId : String) :
    BridgeProgram Unit := do
  modify fun bridge =>
    let prior := bridge.verify.getD pipelineId .empty
    let row := rowOf [("verify_status", "INFRA"), ("e2e_id", ""),
      ("acceptance_id", ""), ("verify_attempts", prior.getD "verify_attempts" "0"),
      ("infra_attempts", prior.getD "infra_attempts" "0")]
    { bridge with verify := bridge.verify.set pipelineId row }
  saveVerify
  recordVerify env workspaceId projectId pipelineId ""

/-- `VerifyFlow` publishes the integration candidate of a ready pipeline. -/
def publishReady (pipelineId projectId sha : String) (result : VerifyResult) :
    BridgeProgram Unit :=
  if result.status = .ready then
    modify fun bridge =>
      let request : DeliveryRequest :=
        ⟨integrationSha env sha, projectId, pipelineId⟩
      { bridge with delivery := (bridge.delivery.publish request).2 }
  else .done ()

/-- Mirror the stored delivery of a pipeline, if there is one. -/
def mirrorStored (pipelineId projectId sha : String) : BridgeProgram Unit := do
  let bridge ← perform .memory
  match bridge.delivery.lookup pipelineId with
  | some stored =>
      (mirrorGithub stored ⟨sha, projectId, pipelineId⟩).bind fun _ => .done ()
  | none => .done ()

/-- Keep the feedback of a rework, or drop an older one when ready. -/
def verifyFeedback (pipelineId : String) (result : VerifyResult) :
    BridgeProgram Unit :=
  if result.status = .rework ∧ result.feedback ≠ "" then
    setFeedback pipelineId result.feedback
  else if result.status = .ready then clearFeedback pipelineId
  else .done ()

/-- `_advance_verify` from the result of the flow on. -/
def keepVerified (pipelineId projectId workspaceId sha : String)
    (result : VerifyResult) : BridgeProgram Unit := do
  publishReady env pipelineId projectId sha result
  mirrorStored pipelineId projectId sha
  saveDelivery
  modify fun bridge =>
    let prior := bridge.verify.getD pipelineId .empty
    let row := rowOf [("verify_status", result.status.value),
      ("e2e_id", result.e2eId.getD ""),
      ("acceptance_id", result.acceptanceId.getD ""),
      ("verify_attempts", prior.getD "verify_attempts" "0")]
    { bridge with verify := bridge.verify.set pipelineId row }
  verifyFeedback pipelineId result
  saveVerify
  recordVerify env workspaceId projectId pipelineId sha

def advanceVerify (pipelineId projectId workspaceId : String) :
    BridgeProgram Unit := do
  hydrateFromEvents env workspaceId pipelineId
  let bridge ← perform .memory
  if bridge.verify.get? pipelineId ≠ none then .done ()
  else
    match bridge.dev.get? pipelineId with
    | none => .done ()
    | some developed =>
        if developed.get? "candidate_gate" ≠ some "PASS" then .done ()
        else do
          let sha := developed.getD "candidate_sha" ""
          let testplanId :=
            (bridge.arch.getD pipelineId .empty).getD "testplan_id" ""
          let result ← perform (.verify pipelineId projectId sha testplanId)
          match result with
          | none => keepInfra env pipelineId projectId workspaceId
          | some result =>
              keepVerified env pipelineId projectId workspaceId sha result

/-- What `run_leased_stages` reads when the stages are through. -/
structure StagesReport where
  verifyStatus : String
  candidateGate : String
  feedback : String
deriving Repr, DecidableEq

/-- The answer with `as_receipt`. -/
def StagesReport.receipt (report : StagesReport) (principalId : String) : Json :=
  .obj [("ok", .bool (report.verifyStatus ≠ "REWORK" ∧
      report.verifyStatus ≠ "INFRA" ∧ report.candidateGate ≠ "FAIL")),
    ("approval_status", .str "APPROVED"), ("approver_id", .str principalId),
    ("verify_status", .str report.verifyStatus),
    ("candidate_gate", .str report.candidateGate),
    ("feedback", .str report.feedback)]

/-- The exit code of a worker. -/
def StagesReport.exitCode (report : StagesReport) : Int :=
  if report.verifyStatus = "READY" ∧ report.candidateGate ≠ "FAIL" then 0 else 1

/-- Run stages inside the marks of a stage execution. -/
def insideStages {α : Type} (workspaceId pipelineId : String)
    (stages : BridgeProgram α) : BridgeProgram α :=
  (perform (.enterStages workspaceId pipelineId)).bind fun _ =>
    stages.withCleanup (perform (.leaveStages workspaceId pipelineId))

def runLeasedStages (workspaceId projectId pipelineId principalId : String) :
    BridgeProgram StagesReport :=
  insideStages workspaceId pipelineId do
    hydrateFromEvents env workspaceId pipelineId
    advanceDevelopment env pipelineId projectId principalId workspaceId
    advanceVerify env pipelineId projectId workspaceId
    let bridge ← perform .memory
    .done ⟨(bridge.verify.getD pipelineId .empty).getD "verify_status" "",
      (bridge.dev.getD pipelineId .empty).getD "candidate_gate" "",
      bridge.feedback.getD pipelineId ""⟩

/-- `_commit_approval`; the text of an error, if any. -/
def commitApproval (pipelineId projectId principalId workspaceId : String) :
    BridgeProgram (Option String) := do
  let bridge ← perform .memory
  match bridge.prd.get? pipelineId, bridge.arch.get? pipelineId with
  | some planning, some design => do
      let allowed ← approveSolution pipelineId projectId principalId
        (planning.getD "prd_id" "") (design.getD "design_id" "")
        (design.getD "testplan_id" "")
      if allowed then
        modify fun bridge =>
          let dumped := bridge.approval.dump
          let row := (dumped.getD pipelineId .empty).set "project_id" projectId
          { bridge with approvals := dumped.set pipelineId row }
        saveApprovals
        recordStation env workspaceId projectId pipelineId .approval
          (rowOf [("approval_status", "APPROVED"), ("approver_id", principalId)])
        .done none
      else .done (some "approval denied")
  | _, _ => .done (some "baseline not ready")

def runApproved (pipelineId projectId principalId workspaceId : String) :
    BridgeProgram Json := do
  let failed ← commitApproval env pipelineId projectId principalId workspaceId
  match failed with
  | some message => .done (errorReply message)
  | none => do
      let report ← runLeasedStages env workspaceId projectId pipelineId principalId
      .done (report.receipt principalId)

def releaseLease (workspaceId pipelineId : String) : BridgeProgram Unit :=
  kernel (KernelController.cancel workspaceId pipelineId)

def heartbeatLease (args : WorkerArgs) (now : Int) : BridgeProgram Unit :=
  (kernel (KernelController.heartbeatLease args.workspaceId args.pipelineId
    args.holder args.generation now 180)).bind fun _ => .done ()

/-- The holder name of every worker of a pipeline. -/
def workerName (pipelineId : String) : String := "worker-" ++ pipelineId

/-- Acquire the lease for a worker; a lease error is answered with busy. -/
def acquireOrBusy (workspaceId pipelineId : String) (now : Int)
    (next : LeaseRecord → BridgeProgram Json) : BridgeProgram Json :=
  (kernel (KernelController.acquireLease workspaceId pipelineId
    (workerName pipelineId) now 1800 false)).observe fun
      | .ok lease => next lease
      | .error (.kernel (.lease _)) => .done (errorReply "busy")
      | .error error => .raise error

def spawnStageWorker (workspaceId projectId pipelineId principalId : String)
    (lease : LeaseRecord) : BridgeProgram Unit :=
  perform (.spawn ⟨workspaceId, projectId, pipelineId, principalId,
    workerName pipelineId, lease.generation⟩)

/-- `_approve_baseline` from the acquired lease on. -/
def approveLeased (spawnWorker : Bool)
    (workspaceId projectId pipelineId principalId : String)
    (lease : LeaseRecord) : BridgeProgram Json :=
  if spawnWorker then do
    let failed ← commitApproval env pipelineId projectId principalId workspaceId
    match failed with
    | some message => do
        kernel (KernelController.cancel workspaceId pipelineId)
        .done (errorReply message)
    | none => do
        spawnStageWorker workspaceId projectId pipelineId principalId lease
        .done (.obj [("ok", .bool true), ("running", .bool true),
          ("approval_status", .str "APPROVED"), ("approver_id", .str principalId)])
  else
    (runApproved env pipelineId projectId principalId workspaceId).withCleanup
      (kernel (KernelController.cancel workspaceId pipelineId))

/-- The pipeline, the project, the principal and the workspace of a request. -/
structure RequestIds where
  pipelineId : String
  projectId : String
  principalId : String
  workspaceId : String
deriving Repr, DecidableEq

def requestIds (payload : List (String × Json)) : RequestIds where
  pipelineId := payloadText env payload "pipeline_id" "pl_local"
  projectId := payloadText env payload "project_id" "prj_local"
  principalId := payloadText env payload "principal_id" "operator"
  workspaceId := payloadText env payload "workspace_id" "ws_local"

def approveBaseline (spawnWorker : Bool) (payload : List (String × Json)) :
    BridgeProgram Json := do
  let ids := requestIds env payload
  let now ← perform .time
  let held ← kernel (ask (.loadLease ids.workspaceId ids.pipelineId))
  if KernelController.leaseBusy now held then .done (errorReply "busy")
  else do
    hydrateFromEvents env ids.workspaceId ids.pipelineId
    let bridge ← perform .memory
    if planned bridge ids.pipelineId = none then
      .done (errorReply "baseline not ready")
    else if bridge.registry.roleOf ids.projectId ids.principalId = none then
      .done (errorReply "not a project member")
    else
      acquireOrBusy ids.workspaceId ids.pipelineId now fun lease =>
        approveLeased env spawnWorker ids.workspaceId ids.projectId
          ids.pipelineId ids.principalId lease

/-- `int(first or second or 0)`. -/
def attempts (texts : List String) : Option Int :=
  match texts.find? (· ≠ "") with
  | none => some 0
  | some text => pyInt text

/-- Forget the development and the verification of a pipeline. -/
def dropStages (pipelineId : String) : BridgeProgram Unit := do
  modify fun bridge => { bridge with dev := bridge.dev.pop pipelineId }
  saveDev
  modify fun bridge => { bridge with verify := bridge.verify.pop pipelineId }

/-- The attempt counters that an inline retry writes into the new row. -/
def countAttempt (infra : Bool) (used infraUsed : Int)
    (row : Dict String String) : Dict String String :=
  if infra then
    let count := if row.get? "verify_status" = some "INFRA" then infraUsed + 1
      else infraUsed
    (row.set "infra_attempts" (toString count)).set "verify_attempts"
      (toString used)
  else row.set "verify_attempts" "1"

/-- Put the row of an inline retry back and save its file. -/
def keepRetried (pipelineId : String) (verified : Bool)
    (row : Dict String String) : BridgeProgram Unit :=
  if verified then do
    modify fun bridge => { bridge with verify := bridge.verify.set pipelineId row }
    saveVerify
  else do
    modify fun bridge => { bridge with dev := bridge.dev.set pipelineId row }
    saveDev

/-- `_retry_verify` in a bridge that starts no workers, after its checks. -/
def retryInline (ids : RequestIds) (infra : Bool) (used infraUsed : Int) :
    BridgeProgram Json := do
  dropStages ids.pipelineId
  insideStages ids.workspaceId ids.pipelineId do
    advanceDevelopment env ids.pipelineId ids.projectId ids.principalId
      ids.workspaceId
    advanceVerify env ids.pipelineId ids.projectId ids.workspaceId
  let bridge ← perform .memory
  let verified := bridge.verify.getD ids.pipelineId .empty
  let row :=
    if verified.rows.isEmpty then
      (bridge.dev.getD ids.pipelineId .empty).set "rework_attempts" "1"
    else countAttempt infra used infraUsed verified
  keepRetried ids.pipelineId (!verified.rows.isEmpty) row
  let bridge ← perform .memory
  let status := row.getD "verify_status" ""
  let gate := (bridge.dev.getD ids.pipelineId .empty).getD "candidate_gate" ""
  .done (.obj [("ok", .bool (status = "READY" ∧ gate ≠ "FAIL")),
    ("verify_status", .str status),
    ("verify_attempts", .str (row.getD "verify_attempts" "1")),
    ("candidate_gate", .str gate),
    ("feedback", .str (bridge.feedback.getD ids.pipelineId ""))])

/-- `_retry_verify` after its checks: a worker takes the lease, an inline retry
takes none. -/
def retryChecked (spawnWorker : Bool) (ids : RequestIds) (infra : Bool)
    (used infraUsed : Int) : BridgeProgram Json :=
  if spawnWorker then do
    let now ← perform .time
    acquireOrBusy ids.workspaceId ids.pipelineId now fun lease => do
      dropStages ids.pipelineId
      spawnStageWorker ids.workspaceId ids.projectId ids.pipelineId
        ids.principalId lease
      .done (.obj [("ok", .bool true), ("running", .bool true)])
  else retryInline env ids infra used infraUsed

def retryVerify (spawnWorker : Bool) (payload : List (String × Json)) :
    BridgeProgram Json := do
  let ids := requestIds env payload
  hydrateFromEvents env ids.workspaceId ids.pipelineId
  let bridge ← perform .memory
  let verified := bridge.verify.getD ids.pipelineId .empty
  let developed := bridge.dev.getD ids.pipelineId .empty
  let infra := decide (verified.get? "verify_status" = some "INFRA")
  if verified.get? "verify_status" ≠ some "REWORK" ∧
      developed.get? "candidate_gate" ≠ some "FAIL" ∧ infra = false then
    .done (errorReply "not rework")
  else
    match attempts [verified.getD "verify_attempts" "",
        developed.getD "rework_attempts" ""],
      attempts [verified.getD "infra_attempts" ""] with
    | some used, some infraUsed =>
        if (if infra then infraUsed ≥ 3 else used ≥ 1) then
          .done (errorReply "retry exhausted")
        else if bridge.registry.roleOf ids.projectId ids.principalId = none then
          .done (errorReply "not a project member")
        else retryChecked env spawnWorker ids infra used infraUsed
    | _, _ => .raise .value

end KernelBridge

end HermesPipeline
