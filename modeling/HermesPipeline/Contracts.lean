/-
The controller command and receipt contracts, and the canonical-JSON content
hash that fingerprints a command.  The RFC 8785 serializer, the JSON parser,
SHA-256 and the receipt's own serialization are library code; they enter as
the fields of a `Codec`.
-/
import HermesPipeline.Lib.Json
import HermesPipeline.Lib.Keyed

namespace HermesPipeline

open Lib

/-- `[A-Za-z0-9_-]`. -/
def isIdentChar (c : Char) : Bool := c.isAlphanum || c = '_' || c = '-'

/-- `^<scope>[A-Za-z0-9_-]+$`. -/
def matchesScope (scope text : String) : Bool :=
  scope.toList.isPrefixOf text.toList &&
    match text.toList.drop scope.toList.length with
    | [] => false
    | name => name.all isIdentChar

/-- `^[A-Z][A-Z0-9_]+$`. -/
def matchesCommandType (text : String) : Bool :=
  match text.toList with
  | [] => false
  | first :: rest =>
      first.isUpper && !rest.isEmpty &&
        rest.all fun c => c.isUpper || c.isDigit || c = '_'

theorem matchesCommandType_confirm :
    matchesCommandType "CONFIRM_REQUIREMENT" = true := by decide

theorem ne_empty_of_matchesScope {scope text : String}
    (hmatch : matchesScope scope text = true) : text ≠ "" := by
  rintro rfl
  simp only [matchesScope, Bool.and_eq_true] at hmatch
  simp at hmatch

/-- A name of the scope is the scope and some characters of identifiers. -/
theorem mem_of_matchesScope {scope text : String}
    (hmatch : matchesScope scope text = true) :
    ∃ rest, text.toList = scope.toList ++ rest ∧ rest ≠ [] ∧
      ∀ c ∈ rest, isIdentChar c = true := by
  simp only [matchesScope, Bool.and_eq_true, List.isPrefixOf_iff_prefix] at hmatch
  obtain ⟨⟨rest, hrest⟩, hname⟩ := hmatch
  rw [← hrest, List.drop_left] at hname
  refine ⟨rest, hrest.symm, ?_, ?_⟩
  · rintro rfl
    cases hname
  · cases rest with
    | nil => cases hname
    | cons first rest => exact List.all_eq_true.mp hname

theorem matchesScope_of_mem {scope text : String} (rest : List Char)
    (htext : text.toList = scope.toList ++ rest) (hne : rest ≠ [])
    (hident : ∀ c ∈ rest, isIdentChar c = true) : matchesScope scope text = true := by
  simp only [matchesScope, Bool.and_eq_true, List.isPrefixOf_iff_prefix]
  refine ⟨⟨rest, htext.symm⟩, ?_⟩
  rw [htext, List.drop_left]
  cases rest with
  | nil => exact absurd rfl hne
  | cons first rest => exact List.all_eq_true.mpr hident

inductive Provider
  | cli | feishu | system | github
deriving Repr, DecidableEq

def Provider.value : Provider → String
  | .cli => "CLI"
  | .feishu => "FEISHU"
  | .system => "SYSTEM"
  | .github => "GITHUB"

/-- Command actor identity. -/
structure Actor where
  principalId : String
  provider : Provider
  providerActorId : String
deriving Repr, DecidableEq

inductive Ingress
  | cli | hermesFeishu | systemReconciler | githubReconciler
deriving Repr, DecidableEq

def Ingress.value : Ingress → String
  | .cli => "CLI"
  | .hermesFeishu => "HERMES_FEISHU"
  | .systemReconciler => "SYSTEM_RECONCILER"
  | .githubReconciler => "GITHUB_RECONCILER"

/-- `runtime/controller-command/v1`.  The identifier patterns are part of the
value: an ill-formed command cannot be built. -/
structure ControllerCommand where
  commandId : String
  idempotencyKey : String
  workspaceId : String
  projectId : String
  pipelineId : String
  expectedRevision : Nat
  actor : Actor
  ingress : Ingress
  commandType : String
  payload : Dict String Json
  correlationId : String
  causationId : String := ""
  submittedAt : String
  commandId_ok : matchesScope "cmd_" commandId = true := by decide
  idempotencyKey_ok : 16 ≤ idempotencyKey.length ∧
    idempotencyKey.length ≤ 160 := by decide
  workspaceId_ok : matchesScope "ws_" workspaceId = true := by decide
  projectId_ok : matchesScope "prj_" projectId = true := by decide
  pipelineId_ok : matchesScope "pl_" pipelineId = true := by decide
  commandType_ok : matchesCommandType commandType = true := by decide

namespace ControllerCommand

/-- The identity under which a command is accepted at most once. -/
def key (command : ControllerCommand) : String × String :=
  (command.workspaceId, command.commandId)

theorem workspaceId_ne_empty (command : ControllerCommand) :
    command.workspaceId ≠ "" :=
  ne_empty_of_matchesScope command.workspaceId_ok

/-- `model_dump(mode="json")`. -/
def modelDump (command : ControllerCommand) : List (String × Json) :=
  [("schema_id", .str
      "https://schemas.hermes-pipeline.dev/runtime/controller-command/v1"),
    ("schema_version", .int 1),
    ("command_id", .str command.commandId),
    ("idempotency_key", .str command.idempotencyKey),
    ("workspace_id", .str command.workspaceId),
    ("project_id", .str command.projectId),
    ("pipeline_id", .str command.pipelineId),
    ("expected_revision", .int command.expectedRevision),
    ("actor", .obj
      [("principal_id", .str command.actor.principalId),
        ("provider", .str command.actor.provider.value),
        ("provider_actor_id", .str command.actor.providerActorId)]),
    ("ingress", .str command.ingress.value),
    ("command_type", .str command.commandType),
    ("payload", .obj command.payload.rows),
    ("correlation_id", .str command.correlationId),
    ("causation_id", .str command.causationId),
    ("submitted_at", .str command.submittedAt)]

/-- Two commands are the same when their documents are. -/
def Same (left right : ControllerCommand) : Prop :=
  (Json.obj left.modelDump).Same (.obj right.modelDump)

end ControllerCommand

inductive ErrorCode
  | validationError | authenticationFailed | authorizationDenied | notFound
  | conflict | policyRejected | leaseStale | dependencyUnavailable | rateLimited
  | internalError
deriving Repr, DecidableEq

def ErrorCode.value : ErrorCode → String
  | .validationError => "VALIDATION_ERROR"
  | .authenticationFailed => "AUTHENTICATION_FAILED"
  | .authorizationDenied => "AUTHORIZATION_DENIED"
  | .notFound => "NOT_FOUND"
  | .conflict => "CONFLICT"
  | .policyRejected => "POLICY_REJECTED"
  | .leaseStale => "LEASE_STALE"
  | .dependencyUnavailable => "DEPENDENCY_UNAVAILABLE"
  | .rateLimited => "RATE_LIMITED"
  | .internalError => "INTERNAL_ERROR"

/-- Structured error of a Command Receipt. -/
structure CommandError where
  code : ErrorCode
  message : String
  retryable : Bool
  fieldViolations : List String := []
deriving Repr, DecidableEq

inductive ReceiptStatus
  | accepted | rejected | conflict | deduplicated
deriving Repr, DecidableEq

def ReceiptStatus.value : ReceiptStatus → String
  | .accepted => "ACCEPTED"
  | .rejected => "REJECTED"
  | .conflict => "CONFLICT"
  | .deduplicated => "DEDUPLICATED"

/-- `runtime/command-receipt/v1`. -/
structure CommandReceipt where
  commandId : String
  status : ReceiptStatus
  pipelineId : String
  observedRevision : Nat
  eventIds : List String
  error : CommandError
  recordedAt : String
  correlationId : String
deriving Repr, DecidableEq

/-- The largest whole number that RFC 8785 can write. -/
def maxSafeInteger : Nat := 9007199254740991

mutual

/-- No integer leaves the range in which RFC 8785 can write it. -/
def representable : Json → Bool
  | .int n => decide (n.natAbs ≤ maxSafeInteger)
  | .arr items => representableItems items
  | .obj members => representableMembers members
  | .null => true
  | .bool _ => true
  | .float _ => true
  | .str _ => true

def representableItems : List Json → Bool
  | [] => true
  | item :: rest => representable item && representableItems rest

def representableMembers : List (String × Json) → Bool
  | [] => true
  | (_, value) :: rest => representable value && representableMembers rest

end

namespace ControllerCommand

/-- The payload holds texts only. -/
def Textual (command : ControllerCommand) : Prop :=
  ∃ fields : Dict String String,
    command.payload = fields.filterMap fun text => some (.str text)

/-- The revision and the payload of a command can be written. -/
def representable (command : ControllerCommand) : Bool :=
  decide (command.expectedRevision ≤ maxSafeInteger) &&
    representableMembers command.payload.rows

theorem representable_modelDump (command : ControllerCommand) :
    HermesPipeline.representable (.obj command.modelDump) =
      command.representable := by
  simp only [modelDump, HermesPipeline.representable, representableMembers,
    ControllerCommand.representable, Bool.and_true, Bool.true_and,
    Int.natAbs_natCast]
  rfl

theorem representableMembers_texts (rows : List (String × String)) :
    representableMembers (rows.map fun field => (field.1, Json.str field.2)) =
      true := by
  induction rows with
  | nil => rfl
  | cons field rest ih =>
      simpa [representableMembers, HermesPipeline.representable]

/-- Only the revision of a command of texts can be too large. -/
theorem Textual.representable_iff {command : ControllerCommand}
    (htextual : command.Textual) :
    command.representable = true ↔ command.expectedRevision ≤ maxSafeInteger := by
  obtain ⟨fields, hpayload⟩ := htextual
  have hrows : command.payload.rows =
      fields.rows.map fun field => (field.1, Json.str field.2) := by
    rw [hpayload]
    simp [Dict.filterMap, List.filterMap_eq_map']
  rw [representable, hrows, representableMembers_texts, Bool.and_true,
    decide_eq_true_iff]

end ControllerCommand

/-- The serializers the kernel calls.  `none` stands for a raised
`ValueError`. -/
structure Codec where
  canonicalJson : Json → Option String
  loads : String → Option Json
  sha256Hex : String → String
  receiptJson : CommandReceipt → String
  receiptOfJson : String → Option CommandReceipt
  /-- Python's `str()` of a parsed value that is not itself a text. -/
  pyStr : Json → String

namespace Codec

variable (codec : Codec)

/-- `sha256:<hex>` of the canonical document without its `content_hash`. -/
def contentHash (document : List (String × Json)) : Option String :=
  (codec.canonicalJson
      (.obj (document.filter fun member => member.1 != "content_hash"))).map
    fun text => "sha256:" ++ codec.sha256Hex text

/-- Python's `str()` of a parsed value. -/
def str : Json → String
  | .str text => text
  | value => codec.pyStr value

/-- Parsing inverts the canonical serialization of an object of texts, up to
the order of its members. -/
def LoadsTexts : Prop :=
  ∀ (fields : Dict String String) (text : String),
    codec.canonicalJson (Json.ofTexts fields.rows) = some text →
      ∃ members, codec.loads text = some (.obj members) ∧
        ∀ name, Json.member? members name = (fields.get? name).map Json.str

/-- Parsing the canonical text of an object of texts gives its members back,
each name once. -/
def LoadsFields : Prop :=
  ∀ (fields : Dict String String) (text : String),
    codec.canonicalJson (Json.ofTexts fields.rows) = some text →
      ∃ members, codec.loads text = some (.obj members) ∧
        (members.map Prod.fst).Nodup ∧
        ∀ name, Json.member? members name = (fields.get? name).map Json.str

/-- Every object of texts has a canonical text. -/
def WritesTexts : Prop :=
  ∀ fields : Dict String String,
    ∃ text, codec.canonicalJson (Json.ofTexts fields.rows) = some text

/-- The content hash of a command document exists and is injective up to
document equality. -/
structure HashesCommands : Prop where
  total : ∀ command : ControllerCommand,
    ∃ hash, codec.contentHash command.modelDump = some hash
  injective : ∀ left right : ControllerCommand,
    codec.contentHash left.modelDump = codec.contentHash right.modelDump →
      left.Same right

/-- The codec, with the integers refused that RFC 8785 cannot write. -/
def asJcs : Codec :=
  { codec with
    canonicalJson := fun value =>
      if representable value then codec.canonicalJson value else none }

theorem asJcs_canonicalJson_iff {value : Json} {text : String} :
    codec.asJcs.canonicalJson value = some text ↔
      representable value = true ∧ codec.canonicalJson value = some text := by
  simp only [asJcs]
  split
  · next hvalue => simp [hvalue]
  · next hvalue => simp [hvalue]

variable {codec}

theorem WritesTexts.asJcs (hwrites : codec.WritesTexts) :
    codec.asJcs.WritesTexts := by
  intro fields
  obtain ⟨text, htext⟩ := hwrites fields
  exact ⟨text, codec.asJcs_canonicalJson_iff.mpr
    ⟨ControllerCommand.representableMembers_texts fields.rows, htext⟩⟩

theorem LoadsFields.asJcs (hloads : codec.LoadsFields) :
    codec.asJcs.LoadsFields :=
  fun fields text htext =>
    hloads fields text (codec.asJcs_canonicalJson_iff.mp htext).2

/-- A command that can be written keeps its hash; the others have none. -/
theorem contentHash_asJcs (command : ControllerCommand) (hash : String) :
    codec.asJcs.contentHash command.modelDump = some hash ↔
      command.representable = true ∧
        codec.contentHash command.modelDump = some hash := by
  have hkept : command.modelDump.filter (fun member =>
      member.1 != "content_hash") = command.modelDump := rfl
  simp only [contentHash, hkept, Option.map_eq_some_iff,
    codec.asJcs_canonicalJson_iff, command.representable_modelDump, and_assoc]
  constructor
  · rintro ⟨text, hwritten, htext, rfl⟩
    exact ⟨hwritten, text, htext, rfl⟩
  · rintro ⟨hwritten, text, htext, rfl⟩
    exact ⟨text, hwritten, htext, rfl⟩

/-- A receipt survives being stored. -/
def StoresReceipts (codec : Codec) : Prop :=
  ∀ receipt, codec.receiptOfJson (codec.receiptJson receipt) = some receipt

end Codec

end HermesPipeline
