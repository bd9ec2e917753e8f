/-
Every request of a bridge: projects and members, bindings, repository settings,
deliveries, reads, the intake of a requirement with its two planning stages,
approvals and retries.
-/
import HermesPipeline.Descriptor
import HermesPipeline.ReferenceCodec
import HermesPipeline.StageWorker

namespace HermesPipeline

open Lib

/-- What `PrdStage.run` returns, with the verdict of the PRD gate on it. -/
structure PrdResult where
  completed : Bool
  artifactId : Option String
  gatePasses : Bool
deriving Repr, DecidableEq

inductive ArchitectureStatus
  | completed | denied | question
deriving Repr, DecidableEq

def ArchitectureStatus.value : ArchitectureStatus → String
  | .completed => "COMPLETED"
  | .denied => "DENIED"
  | .question => "QUESTION"

/-- What `ArchitectureStage.run` returns, with the verdict of its gate. -/
structure ArchitectureResult where
  status : ArchitectureStatus
  designId : Option String
  testplanId : Option String
  gatePasses : Bool
deriving Repr, DecidableEq

/-- The effects of a request: those of the later stages, the settings of the
bridge, the two planning stages, and the store behind the bridge. -/
inductive RootOp
  | bridge (op : BridgeOp)
  | settings
  | assignSettings (settings : Settings)
  /-- What a new bridge loads of its settings. -/
  | loadSettings
  | writeSettings (file : String)
  /-- `PrdStage.run`. -/
  | plan (pipelineId requirement : String)
  /-- `ArchitectureStage.run`. -/
  | design (pipelineId prdId : String)
  /-- `sorted(self._runtimes)`. -/
  | runtimes
  /-- `self._inner.process`. -/
  | inner (commandId : String) (payload : List (String × Json))

@[reducible] def RootOp.Answer : RootOp → Type
  | .bridge op => op.Answer
  | .settings => Settings
  | .assignSettings _ => Unit
  | .loadSettings => Settings
  | .writeSettings _ => Unit
  | .plan _ _ => PrdResult
  | .design _ _ => ArchitectureResult
  | .runtimes => List String
  | .inner _ _ => Json

abbrev RootProgram := Program RootOp RootOp.Answer BridgeError

/-- A program of the later stages, as part of a request. -/
def lift {α : Type} : BridgeProgram α → RootProgram α
  | .done value => .done value
  | .raise error => .raise error
  | .call op next => .call (.bridge op) fun answer => lift (next answer)

def request (op : RootOp) : RootProgram op.Answer := Program.perform op

/-- Change the settings and write their file. -/
def changeSettings (file : String) (change : Settings → Settings) :
    RootProgram Unit := do
  let settings ← request .settings
  request (.assignSettings (change settings))
  request (.writeSettings file)

def okReply (members : List (String × Json)) : Json :=
  .obj (("ok", .bool true) :: members)

namespace KernelBridge

variable (env : BridgeCodec)

/-- The row of a finished PRD stage; the gate is asked only when it
completed. -/
def prdRow (result : PrdResult) : Dict String String :=
  rowOf [("prd_id", result.artifactId.getD ""),
    ("prd_status", if result.completed then "COMPLETED" else "DENIED"),
    ("prd_gate", if result.completed && result.gatePasses then "PASS" else "FAIL")]

/-- Keep a PRD row, save it and record it. -/
def keepPrd (workspaceId projectId pipelineId : String)
    (row : Dict String String) : BridgeProgram Unit := do
  modify fun bridge => { bridge with prd := bridge.prd.set pipelineId row }
  perform (.write "prd.json")
  recordStation env workspaceId projectId pipelineId .prd row

def advancePrd (pipelineId workspaceId projectId : String) :
    RootProgram Unit := do
  lift (hydrateFromEvents env workspaceId pipelineId)
  let bridge ← lift (perform .memory)
  if bridge.prd.get? pipelineId ≠ none then .done ()
  else do
    let settings ← request .settings
    let result ← request (.plan pipelineId (settings.requirements.getD pipelineId ""))
    lift (keepPrd env workspaceId projectId pipelineId (prdRow result))

/-- The row of a finished architecture stage. -/
def archRow (result : ArchitectureResult) : Dict String String :=
  rowOf [("design_id", result.designId.getD ""),
    ("testplan_id", result.testplanId.getD ""),
    ("arch_status", result.status.value),
    ("arch_gate", if result.gatePasses then "PASS" else "FAIL")]

/-- Keep an architecture row, save it and record it. -/
def keepArchitecture (workspaceId projectId pipelineId : String)
    (row : Dict String String) : BridgeProgram Unit := do
  modify fun bridge => { bridge with arch := bridge.arch.set pipelineId row }
  perform (.write "architecture.json")
  recordStation env workspaceId projectId pipelineId .architecture row

/-- A baseline whose gates passed waits for its approval. -/
def pendApproval (projectId pipelineId : String) : BridgeProgram Unit := do
  let bridge ← perform .memory
  if bridge.approvals.get? pipelineId ≠ none then .done ()
  else do
    let row := rowOf [("approval_status", "PENDING"), ("approver_id", ""),
      ("project_id", projectId)]
    perform (.assign { bridge with
      approvals := bridge.approvals.set pipelineId row })
    saveApprovals

/-- The PRD row of a pipeline whose PRD gate passed. -/
def plannedPrd (bridge : Bridge) (pipelineId : String) :
    Option (Dict String String) :=
  (bridge.prd.get? pipelineId).filter fun planning =>
    planning.get? "prd_gate" = some "PASS"

def advanceArchitecture (pipelineId workspaceId projectId : String) :
    RootProgram Unit := do
  lift (hydrateFromEvents env workspaceId pipelineId)
  let bridge ← lift (perform .memory)
  if bridge.arch.get? pipelineId ≠ none then .done ()
  else
    match plannedPrd bridge pipelineId with
    | none => .done ()
    | some planning => do
        let result ← request (.design pipelineId (planning.getD "prd_id" ""))
        lift (keepArchitecture env workspaceId projectId pipelineId
          (archRow result))
        if result.gatePasses then lift (pendApproval projectId pipelineId)
        else .done ()

/-- The command that confirms a requirement; `none` when the contract model
refuses it. -/
def intakeCommand (commandId workspaceId projectId pipelineId principalId
    text : String) : Option ControllerCommand :=
  let idempotencyKey := "intake-" ++ commandId ++ "-key000"
  if h : matchesScope "cmd_" commandId = true ∧
      (16 ≤ idempotencyKey.length ∧ idempotencyKey.length ≤ 160) ∧
      matchesScope "ws_" workspaceId = true ∧
      matchesScope "prj_" projectId = true ∧
      matchesScope "pl_" pipelineId = true then
    some
      { commandId := commandId
        idempotencyKey := idempotencyKey
        workspaceId := workspaceId
        projectId := projectId
        pipelineId := pipelineId
        expectedRevision := 0
        actor := ⟨principalId, .cli, principalId⟩
        ingress := .cli
        commandType := "CONFIRM_REQUIREMENT"
        payload := Dict.set .empty "text" (.str text)
        correlationId := "corr-" ++ commandId
        submittedAt := recordedText
        commandId_ok := h.1
        idempotencyKey_ok := h.2.1
        workspaceId_ok := h.2.2.1
        projectId_ok := h.2.2.2.1
        pipelineId_ok := h.2.2.2.2
        commandType_ok := matchesCommandType_confirm }
  else none

/-- `RequirementIntake._reject`. -/
def rejectIntake (commandId pipelineId : String) (code : ErrorCode)
    (message : String) : CommandReceipt where
  commandId := commandId
  status := .rejected
  pipelineId := pipelineId
  observedRevision := 0
  eventIds := []
  error := ⟨code, message, false, []⟩
  recordedAt := recordedText
  correlationId := "corr-" ++ commandId

/-- `RequirementIntake.confirm`. -/
def confirmRequirement (commandId text : String) (ids : RequestIds) :
    BridgeProgram CommandReceipt := do
  let bridge ← perform .memory
  if bridge.registry.projects.get? ids.projectId = none then
    .done (rejectIntake commandId ids.pipelineId .notFound "project not found")
  else
    match bridge.registry.roleOf ids.projectId ids.principalId with
    | none => .done (rejectIntake commandId ids.pipelineId .authorizationDenied
        "not a project member")
    | some .viewer => .done (rejectIntake commandId ids.pipelineId
        .authorizationDenied "intake requires contributor")
    | some _ =>
        match intakeCommand commandId ids.workspaceId ids.projectId
            ids.pipelineId ids.principalId text with
        | none => .raise .value
        | some command => kernel ((controller env.codec).submit command)

/-- The intake of a requirement and, when it was accepted, the planning of its
baseline. -/
def intake (commandId text : String) (payload : List (String × Json)) :
    RootProgram Json := do
  let ids := requestIds env payload
  let receipt ← lift (confirmRequirement env commandId text ids)
  if receipt.status = .accepted then do
    changeSettings "requirements.json" fun settings =>
      { settings with
        requirements := settings.requirements.set ids.pipelineId text }
    advancePrd env ids.pipelineId ids.workspaceId ids.projectId
    advanceArchitecture env ids.pipelineId ids.workspaceId ids.projectId
    .done receipt.document
  else .done receipt.document

def registerProject (payload : List (String × Json)) : BridgeProgram Json := do
  let projectId := payloadText env payload "project_id" ""
  modify fun bridge =>
    { bridge with
      registry := bridge.registry.register projectId
        (payloadText env payload "name" "") }
  perform (.write "projects.json")
  .done (okReply [("project_id", .str projectId)])

def admitMember (payload : List (String × Json)) : BridgeProgram Json := do
  let bridge ← perform .memory
  match ProjectRole.ofValue? (payloadText env payload "role" "") with
  | none => .done (errorReply "invalid role")
  | some role =>
      match bridge.registry.admitMember (payloadText env payload "project_id" "")
          (payloadText env payload "principal_id" "") role with
      | none => .done (errorReply "project not found")
      | some registry => do
          perform (.assign { bridge with registry := registry })
          perform (.write "projects.json")
          .done (okReply [])

def bindRole (payload : List (String × Json)) : RootProgram Json :=
  let role := payloadText env payload "role" ""
  let runtime := payloadText env payload "runtime" ""
  let model := payloadText env payload "model" ""
  if role ∈ ["planner", "executor", "reviewer", "e2e"] ∧
      runtime ∈ ["codex", "opencode", "fake", "claude", "cursor", "kiro", "grok"] ∧
      model ≠ "" then do
    changeSettings "bindings.json" fun settings =>
      { settings with bindings := settings.bindings.set role (runtime, model) }
    .done (okReply [("role", .str role), ("runtime", .str runtime),
      ("model", .str model)])
  else .done (errorReply "invalid binding")

def listBindings : RootProgram Json := do
  let settings ← request .settings
  .done (okReply [("bindings", Descriptor.settingsDocument settings "bindings.json")])

def listRuntimes : RootProgram Json := do
  let runtimes ← request .runtimes
  .done (okReply [("runtimes", .arr (runtimes.map Json.str))])

/-- `repo.count("/") == 1` with a name on both sides. -/
def repoOk (repo : String) : Bool :=
  let chars := repo.toList
  chars.count '/' = 1 && chars.head? ≠ some '/' && chars.getLast? ≠ some '/'

def setGithub (payload : List (String × Json)) : RootProgram Json :=
  let repo := payloadText env payload "repo" ""
  if repoOk repo then do
    changeSettings "github.json" fun settings =>
      let github := rowOf [("repo", repo),
        ("base", payloadText env payload "base" "main")]
      { settings with github := github }
    .done (okReply [("repo", .str repo)])
  else .done (errorReply "invalid repo")

/-- `_record_view`. -/
def recordView (record : DeliveryRecord) : List (String × Json) :=
  [("ok", .bool record.ok), ("action", .str "RECORDED"),
    ("branch", .str record.branch), ("pr_number", .int record.prNumber),
    ("head_sha", .str record.headSha), ("check_status", .str record.checkStatus),
    ("review_status", .str record.reviewStatus),
    ("queue_status", .str record.queueStatus), ("pr_url", .str record.prUrl)]

/-- `payload.get(name)`, when it is not empty or zero. -/
def truthyMember (payload : List (String × Json)) (name : String) : Option Json :=
  (Json.member? payload name).filter Descriptor.truthy

/-- Publish and reconcile; nothing when there is neither a name nor an event. -/
def publishDelivery (payload : List (String × Json)) (request : DeliveryRequest)
    (delivery : FakeDelivery) : Option (DeliveryRecord × FakeDelivery) :=
  let eventId := payloadText env payload "event_id" ""
  let published := if request.name = "" then none
    else some (delivery.publish request)
  if eventId = "" then published
  else some (((published.map Prod.snd).getD delivery).reconcile request eventId
    (payloadText env payload "check_status" "")
    (payloadText env payload "review_status" "")
    (payloadText env payload "queue_status" ""))

def deliver (payload : List (String × Json)) : BridgeProgram Json := do
  let sha := env.codec.str (((truthyMember payload "sha").or
    (truthyMember payload "name")).getD (.str ""))
  let request : DeliveryRequest :=
    ⟨sha, payloadText env payload "project_id" "prj_local",
      payloadText env payload "pipeline_id" "pl_local"⟩
  let bridge ← perform .memory
  match publishDelivery env payload request bridge.delivery with
  | none => .done (errorReply "missing sha")
  | some (record, delivery) => do
      perform (.assign { bridge with delivery := delivery })
      let published ← if sha = "" then (.done record : BridgeProgram DeliveryRecord)
        else mirrorGithub record request
      saveDelivery
      .done (.obj (recordView published))

def textMembers (row : Dict String String) : List (String × Json) :=
  row.rows.map fun field => (field.1, .str field.2)

/-- What a read shows: the view of the pipeline, overridden in turn by the
delivery, the station rows, the approval, the repository, the requirement, the
feedback and the folded events. -/
def readResult (view : PipelineView) (pipelineId : String) (bridge : Bridge)
    (settings : Settings) (folded : Dict String String) : Dict String Json :=
  let rowMembers (rows : Rows) : List (String × Json) :=
    (rows.get? pipelineId).elim [] textMembers
  let verified := (bridge.verify.get? pipelineId).elim [] fun row =>
    textMembers row ++ [("verify_attempts", .str (row.getD "verify_attempts" "0"))]
  let decision := (bridge.approvals.get? pipelineId).elim [] fun row =>
    [("approval_status", Json.str (row.getD "approval_status" "")),
      ("approver_id", .str (row.getD "approver_id" ""))]
  let github := if settings.github.rows.isEmpty then []
    else [("github_repo", Json.str (settings.github.getD "repo" "")),
      ("check_status", .str ""), ("review_status", .str ""),
      ("queue_status", .str "")]
  let note (name text : String) : List (String × Json) :=
    if text = "" then [] else [(name, .str text)]
  Dict.update .empty
    ([("pipeline_id", Json.str view.pipelineId), ("revision", .int view.revision),
        ("status", .str view.status.value)] ++
      (bridge.delivery.lookup pipelineId).elim [] recordView ++
      rowMembers bridge.prd ++ rowMembers bridge.arch ++ rowMembers bridge.dev ++
      verified ++ decision ++ github ++
      note "requirement_text" (settings.requirements.getD pipelineId "") ++
      note "feedback" (bridge.feedback.getD pipelineId "") ++
      textMembers folded)

def readPipeline (payload : List (String × Json)) : RootProgram Json := do
  let workspaceId := payloadText env payload "workspace_id" ""
  let pipelineId := payloadText env payload "pipeline_id" ""
  lift (drainOutbox env workspaceId)
  let view ← lift (kernel (KernelController.read ⟨pipelineId, workspaceId⟩))
  let bridge ← lift (perform .memory)
  let settings ← request .settings
  let events ← lift (kernel (ask (.listEvents workspaceId pipelineId)))
  .done (.obj (readResult view pipelineId bridge settings
    (foldStageProjection env.codec events)).rows)

/-- What a request asks for. -/
inductive RequestKind
  | register | admission | bind | bindings | runtimes | github | deliver | read
  | intake (text : String)
  | approve | retry | other
deriving DecidableEq

/-- The order in which `process` looks at a payload: a text comes before the
last two operations. -/
def requestKind (payload : List (String × Json)) : RequestKind :=
  let op := (Json.member? payload "op").bind Json.text?
  let text := (Json.member? payload "text").bind Json.text?
  if op = some "register" then .register
  else if op = some "admit" then .admission
  else if op = some "bind" then .bind
  else if op = some "bindings" then .bindings
  else if op = some "runtimes" then .runtimes
  else if op = some "github" then .github
  else if op = some "deliver" then .deliver
  else if op = some "read" then .read
  else
    match text with
    | some text => .intake text
    | none =>
        if op = some "approve" then .approve
        else if op = some "retry" then .retry
        else .other

/-- `process`. -/
def process (spawnWorker : Bool) (commandId : String)
    (payload : List (String × Json)) : RootProgram Json := do
  let bridge ← lift (perform .memory)
  if bridge.corrupt then .done (errorReply "corrupt state")
  else
    match requestKind payload with
    | .register => lift (registerProject env payload)
    | .admission => lift (admitMember env payload)
    | .bind => bindRole env payload
    | .bindings => listBindings
    | .runtimes => listRuntimes
    | .github => setGithub env payload
    | .deliver => lift (deliver env payload)
    | .read => readPipeline env payload
    | .intake text => intake env commandId text payload
    | .approve => lift (approveBaseline env spawnWorker payload)
    | .retry => lift (retryVerify env spawnWorker payload)
    | .other => request (.inner commandId payload)

/-- The constructor: the settings, then the rows and their import. -/
def start : RootProgram Unit := do
  let settings ← request .loadSettings
  request (.assignSettings settings)
  lift (construct env)

end KernelBridge

end HermesPipeline
