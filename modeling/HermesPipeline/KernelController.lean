/-
The kernel controller: durable submit, reads, outbox replay and leases, each a
program over the operations of the transaction store.
-/
import HermesPipeline.TransactionStore

namespace HermesPipeline

open Lib

structure PipelineQuery where
  pipelineId : String
  workspaceId : String := ""
deriving Repr, DecidableEq

structure PipelineView where
  pipelineId : String
  revision : Nat
  status : Status
deriving Repr, DecidableEq

/-- `_STATIONS`. -/
def stationOf? (commandType : String) : Option Station :=
  if commandType = "RECORD_PRD" then some .prd
  else if commandType = "RECORD_ARCHITECTURE" then some .architecture
  else if commandType = "RECORD_DEVELOPMENT" then some .development
  else if commandType = "RECORD_VERIFY" then some .verify
  else if commandType = "RECORD_APPROVAL" then some .approval
  else none

/-- `_EVENT_TYPES`. -/
def Station.eventType : Station → String
  | .prd => "PRD_RECORDED"
  | .architecture => "ARCHITECTURE_RECORDED"
  | .development => "DEVELOPMENT_RECORDED"
  | .verify => "VERIFY_RECORDED"
  | .approval => "APPROVAL_RECORDED"

/-- `_RECORD_COMMANDS` of the bridge. -/
def Station.commandType : Station → String
  | .prd => "RECORD_PRD"
  | .architecture => "RECORD_ARCHITECTURE"
  | .development => "RECORD_DEVELOPMENT"
  | .verify => "RECORD_VERIFY"
  | .approval => "RECORD_APPROVAL"

/-- `_domain_command`: a payload of the wrong type is an unsupported command,
and a station record keeps only the text fields. -/
def domainCommand (command : ControllerCommand) : Option DomainCommand :=
  if command.commandType = "CONFIRM_REQUIREMENT" then
    ((command.payload.get? "text").bind Json.text?).map .confirmRequirement
  else if command.commandType = "REJECT_REQUIREMENT" then
    ((command.payload.get? "reason").bind Json.text?).map .rejectRequirement
  else
    (stationOf? command.commandType).map fun station =>
      .recordStation station (command.payload.filterMap Json.text?)

namespace DomainEvent

def eventType : DomainEvent → String
  | .requirementConfirmed _ => "REQUIREMENT_CONFIRMED"
  | .requirementRejected _ => "REQUIREMENT_REJECTED"
  | .stationRecorded station _ => station.eventType

/-- The payload document.  A recorded field named `station` overrides the
station's own name. -/
def payload : DomainEvent → Dict String String
  | .requirementConfirmed text => Dict.set .empty "text" text
  | .requirementRejected reason => Dict.set .empty "reason" reason
  | .stationRecorded station fields =>
      (Dict.set .empty "station" station.value).update fields.rows

/-- A verification that ended `READY` asks for a pull request. -/
def publishes : DomainEvent → Bool
  | .stationRecorded .verify fields => fields.get? "verify_status" = some "READY"
  | _ => false

def effectType (event : DomainEvent) : String :=
  if event.publishes then "PUBLISH_PR" else event.eventType

end DomainEvent

/-- Continue with the answer; a persistence error is handled, any other error
is raised on. -/
def catching {α β : Type} (onError : StoreProgram α)
    (next : β → StoreProgram α) : Except PyError β → StoreProgram α
  | .ok answer => next answer
  | .error .persistence => onError
  | .error error => .raise error

structure KernelController where
  codec : Codec
  recordedAt : String
  paused : Bool

namespace KernelController

variable (k : KernelController)

def receipt (command : ControllerCommand) (status : ReceiptStatus)
    (observedRevision : Nat) (eventIds : List String := [])
    (error : CommandError := ⟨.internalError, "", false, []⟩) :
    CommandReceipt where
  commandId := command.commandId
  status := status
  pipelineId := command.pipelineId
  observedRevision := observedRevision
  eventIds := eventIds
  error := error
  recordedAt := k.recordedAt
  correlationId := command.correlationId

def unavailable (command : ControllerCommand) : CommandReceipt :=
  k.receipt command .rejected 0 []
    ⟨.internalError, "persistence unavailable", true, []⟩

def safeRevision (command : ControllerCommand) : StoreProgram Nat :=
  .call (.loadPipeline command.workspaceId command.pipelineId)
    (catching (.done 0) fun
      | none => .done 0
      | some snapshot => .done snapshot.revision)

/-- A refusal that reports the stored revision. -/
def refuse (command : ControllerCommand) (status : ReceiptStatus)
    (code : ErrorCode) (message : String) : StoreProgram CommandReceipt :=
  (safeRevision command).bind fun revision =>
    .done (k.receipt command status revision [] ⟨code, message, false, []⟩)

def pausedReceipt (command : ControllerCommand) : StoreProgram CommandReceipt :=
  k.refuse command .rejected .policyRejected "controller paused"

def stateFromSnapshot : Option PipelineSnapshot → Option PipelineState
  | none => some ⟨.unconfirmed, 0, ""⟩
  | some snapshot =>
      (Status.ofValue? snapshot.status).map fun status =>
        ⟨status, snapshot.revision, snapshot.text⟩

/-- `evt_{workspace_id}_{command_id}`. -/
def eventId (workspaceId commandId : String) : String :=
  "evt_" ++ workspaceId ++ "_" ++ commandId

def acceptedReceipt (command : ControllerCommand) (state : PipelineState) :
    CommandReceipt :=
  k.receipt command .accepted state.revision
    [eventId command.workspaceId command.commandId]

def acceptedWrite (command : ControllerCommand) (fingerprint : String)
    (state : PipelineState) (event : DomainEvent) (payloadJson : String) :
    AcceptedWrite where
  inbox :=
    { workspaceId := command.workspaceId
      commandId := command.commandId
      commandFingerprint := fingerprint
      receiptJson := k.codec.receiptJson (k.acceptedReceipt command state) }
  event :=
    { eventId := eventId command.workspaceId command.commandId
      workspaceId := command.workspaceId
      pipelineId := command.pipelineId
      eventType := event.eventType
      payloadJson := payloadJson
      pipelineRevision := state.revision }
  pipeline :=
    { workspaceId := command.workspaceId
      pipelineId := command.pipelineId
      status := state.status.value
      revision := state.revision
      text := state.text }
  outbox :=
    { workspaceId := command.workspaceId
      commandId := command.commandId
      effectType := event.effectType
      payloadJson := payloadJson
      deliveryReceiptJson := if event.publishes then none else some "{}" }

/-- `submit` from the evaluated event on. -/
def submitAccepted (command : ControllerCommand) (fingerprint : String)
    (state : PipelineState) (event : DomainEvent) :
    StoreProgram CommandReceipt :=
  match k.codec.canonicalJson (Json.ofTexts event.payload.rows) with
  | none => .raise .value
  | some payloadJson =>
      .call (.commitAccepted
          (k.acceptedWrite command fingerprint state event payloadJson))
        (catching (.done (k.unavailable command)) fun _ =>
          .done (k.acceptedReceipt command state))

/-- `submit` from the loaded snapshot on. -/
def submitLoaded (command : ControllerCommand) (fingerprint : String)
    (parsed : DomainCommand) (snapshot : Option PipelineSnapshot) :
    StoreProgram CommandReceipt :=
  match stateFromSnapshot snapshot with
  | none => .done (k.unavailable command)
  | some current =>
      if command.expectedRevision ≠ current.revision then
        .done (k.receipt command .conflict current.revision []
          ⟨.conflict, "expected revision conflict", false, []⟩)
      else
        match current.apply parsed with
        | ⟨_, .emptyRequirement, _⟩ =>
            .done (k.receipt command .rejected current.revision []
              ⟨.validationError, "empty requirement", false, []⟩)
        | ⟨_, .invalidTransition, _⟩ =>
            .done (k.receipt command .rejected current.revision []
              ⟨.validationError, "invalid transition", false, []⟩)
        | ⟨_, .accepted, none⟩ => .done (k.unavailable command)
        | ⟨state, .accepted, some event⟩ =>
            k.submitAccepted command fingerprint state event

/-- `submit` from the inbox lookup on. -/
def submitFound (command : ControllerCommand) (fingerprint : String) :
    Option InboxRecord → StoreProgram CommandReceipt
  | some existing =>
      if existing.commandFingerprint = fingerprint then
        match k.codec.receiptOfJson existing.receiptJson with
        | none => .raise .value
        | some stored => .done stored
      else k.refuse command .conflict .conflict "command identity conflict"
  | none =>
      match domainCommand command with
      | none => k.refuse command .rejected .validationError "unsupported command"
      | some parsed =>
          .call (.loadPipeline command.workspaceId command.pipelineId)
            (catching (.done (k.unavailable command))
              (k.submitLoaded command fingerprint parsed))

def submit (command : ControllerCommand) : StoreProgram CommandReceipt :=
  if k.paused then k.pausedReceipt command
  else
    match k.codec.contentHash command.modelDump with
    | none => .raise .value
    | some fingerprint =>
        .call (.findInbox command.workspaceId command.commandId)
          (catching (.done (k.unavailable command))
            (k.submitFound command fingerprint))

def viewFromSnapshot (pipelineId : String) :
    Option PipelineSnapshot → PipelineView
  | none => ⟨pipelineId, 0, .unconfirmed⟩
  | some snapshot =>
      match Status.ofValue? snapshot.status with
      | some status => ⟨pipelineId, snapshot.revision, status⟩
      | none => ⟨pipelineId, 0, .unconfirmed⟩

def read (query : PipelineQuery) : StoreProgram PipelineView :=
  if query.workspaceId = "" then .done ⟨query.pipelineId, 0, .unconfirmed⟩
  else
    (ask (.loadPipeline query.workspaceId query.pipelineId)).bind
      fun snapshot => .done (viewFromSnapshot query.pipelineId snapshot)

/-- The delivery receipt `replay` writes. -/
def replayReceipt (workspaceId commandId : String) : Dict String String :=
  ((Dict.set .empty "workspace_id" workspaceId).set "command_id"
    commandId).set "delivered_at" k.recordedAt

def replay (workspaceId commandId : String) : StoreProgram OutboxRecord :=
  (ask (.findOutbox workspaceId commandId)).bind fun
    | none => .raise .outboxNotFound
    | some record =>
        if record.isPending then
          match k.codec.canonicalJson
              (Json.ofTexts (k.replayReceipt workspaceId commandId).rows) with
          | none => .raise .value
          | some receiptJson =>
              (ask (.recordOutboxDelivery workspaceId commandId
                receiptJson)).bind fun _ =>
              (ask (.findOutbox workspaceId commandId)).bind fun
                | none => .raise .persistence
                | some delivered =>
                    if delivered.isPending then .raise .persistence
                    else .done delivered
        else .done record

/-- `att_` or `run_` with workspace, pipeline and generation. -/
def leaseName (stem workspaceId pipelineId : String) (generation : Nat) :
    String :=
  stem ++ workspaceId ++ "_" ++ pipelineId ++ "_" ++ toString generation

/-- The generation after the stored one. -/
def nextGeneration : Option LeaseRecord → Nat
  | none => 1
  | some current => current.generation + 1

theorem nextGeneration_pos (current : Option LeaseRecord) :
    1 ≤ nextGeneration current := by
  cases current <;> simp [nextGeneration]

def grantedLease (workspaceId pipelineId holder : String) (now ttlSeconds : Int)
    (current : Option LeaseRecord) : LeaseRecord where
  workspaceId := workspaceId
  pipelineId := pipelineId
  attemptId := leaseName "att_" workspaceId pipelineId (nextGeneration current)
  runId := leaseName "run_" workspaceId pipelineId (nextGeneration current)
  holder := holder
  generation := nextGeneration current
  expiresAt := now + ttlSeconds
  generation_pos := nextGeneration_pos current

/-- A stored lease that has not run out keeps others out. -/
def leaseBusy (now : Int) : Option LeaseRecord → Bool
  | none => false
  | some current => now ≤ current.expiresAt

def acquireLease (workspaceId pipelineId holder : String) (now : Int)
    (ttlSeconds : Int := 60) (replace : Bool := true) :
    StoreProgram LeaseRecord :=
  (ask (.loadLease workspaceId pipelineId)).bind
    fun current =>
      if leaseBusy now current && !replace then .raise (.lease "busy")
      else
        let record :=
          grantedLease workspaceId pipelineId holder now ttlSeconds current
        (ask (.saveLease record)).bind fun _ => .done record

/-- The check shared by `heartbeat_lease` and `_lease_is_current`. -/
def leaseMatches (holder : String) (generation : Nat) (now : Int) :
    Option LeaseRecord → Bool
  | none => false
  | some current =>
      current.holder = holder && current.generation = generation &&
        now ≤ current.expiresAt

def heartbeatLease (workspaceId pipelineId holder : String) (generation : Nat)
    (now : Int) (ttlSeconds : Int := 60) : StoreProgram LeaseRecord :=
  (ask (.loadLease workspaceId pipelineId)).bind
    fun current =>
      match current with
      | none => .raise (.lease "lease heartbeat rejected")
      | some lease =>
          if leaseMatches holder generation now (some lease) then
            let renewed := { lease with expiresAt := now + ttlSeconds }
            (ask (.saveLease renewed)).bind fun _ => .done renewed
          else .raise (.lease "lease heartbeat rejected")

def submitWithLease (command : ControllerCommand) (holder : String)
    (generation : Nat) (now : Int) : StoreProgram CommandReceipt :=
  if k.paused then k.pausedReceipt command
  else
    .call (.loadLease command.workspaceId command.pipelineId)
      (catching (.done (k.unavailable command)) fun current =>
        if leaseMatches holder generation now current then k.submit command
        else k.refuse command .conflict .leaseStale "lease stale")

def cancel (workspaceId pipelineId : String) : StoreProgram Unit :=
  if workspaceId = "" then .raise (.lease "empty workspace")
  else ask (.deleteLease workspaceId pipelineId)

def cleanup (now : Int) : StoreProgram Unit :=
  ask (.deleteExpiredLeases now)

def rebuild (query : PipelineQuery) : StoreProgram PipelineView :=
  if query.workspaceId = "" then .done ⟨query.pipelineId, 0, .unconfirmed⟩
  else
    (ask (.rebuildPipeline query.workspaceId
      query.pipelineId)).bind fun _ => read query

end KernelController

end HermesPipeline
