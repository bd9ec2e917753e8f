/-
A command as the contract model holds it: the numbers of its payload may be
infinite or none, and its texts may hold lone surrogates, for which RFC 8785 has
no text.  A `ControllerCommand` is such a command without these.
-/
import HermesPipeline.Contracts
import HermesPipeline.RenderJson

namespace HermesPipeline

open Lib

/-- The floats of Python that are no number. -/
inductive NonFinite
  | nan | infinity | negInfinity
deriving Repr, DecidableEq

inductive PyNumber
  | int (n : Int)
  | float (q : ℚ)
  | nonFinite (value : NonFinite)

abbrev PayloadValue := RenderJson.Value PyNumber

namespace PyNumber

/-- RFC 8785 writes integers up to `2^53 - 1` and finite floats. -/
def writable : PyNumber → Bool
  | .int n => decide (n.natAbs ≤ maxSafeInteger)
  | .float _ => true
  | .nonFinite _ => false

def plain : PyNumber → Json
  | .int n => .int n
  | .float q => .float q
  | .nonFinite _ => .null

end PyNumber

/-- A text without surrogates. -/
def pyText (text : String) : PyText := .ofLetters text.toList

/-- The text without its surrogates. -/
def plainText (text : PyText) : String := String.ofList text.scalars

theorem plainText_pyText (text : String) : plainText (pyText text) = text := by
  have hletters := PyText.letters?_ofLetters text.toList
  obtain ⟨-, hscalars⟩ := (PyText.letters?_eq_some_iff _ _).mp hletters
  rw [plainText, pyText, ← hscalars, String.ofList_toList]

/-- A text that can be encoded. -/
def encodes (text : PyText) : Bool := text.letters?.isSome

@[simp] theorem encodes_pyText (text : String) : encodes (pyText text) = true := by
  rw [encodes, pyText, PyText.letters?_ofLetters]
  rfl

namespace PayloadValue

mutual

/-- RFC 8785 can write the value. -/
def writable : PayloadValue → Bool
  | .null => true
  | .bool _ => true
  | .number n => n.writable
  | .text text => encodes text
  | .list items => writableItems items
  | .dict members => writableMembers members

def writableItems : List PayloadValue → Bool
  | [] => true
  | item :: rest => writable item && writableItems rest

def writableMembers : List (PyText × PayloadValue) → Bool
  | [] => true
  | (name, value) :: rest => encodes name && writable value && writableMembers rest

end

mutual

/-- What `model_dump(mode="json")` makes of a value: only the floats that are no
number may change. -/
def dumped (leaves : NonFinite → PayloadValue) : PayloadValue → PayloadValue
  | .number (.nonFinite value) => leaves value
  | .list items => .list (dumpedItems leaves items)
  | .dict members => .dict (dumpedMembers leaves members)
  | .null => .null
  | .bool b => .bool b
  | .number (.int n) => .number (.int n)
  | .number (.float q) => .number (.float q)
  | .text text => .text text

def dumpedItems (leaves : NonFinite → PayloadValue) :
    List PayloadValue → List PayloadValue
  | [] => []
  | item :: rest => dumped leaves item :: dumpedItems leaves rest

def dumpedMembers (leaves : NonFinite → PayloadValue) :
    List (PyText × PayloadValue) → List (PyText × PayloadValue)
  | [] => []
  | (name, value) :: rest => (name, dumped leaves value) :: dumpedMembers leaves rest

end

mutual

/-- The value without what `Json` does not have. -/
def plain : PayloadValue → Json
  | .null => .null
  | .bool b => .bool b
  | .number n => n.plain
  | .text text => .str (plainText text)
  | .list items => .arr (plainItems items)
  | .dict members => .obj (plainMembers members)

def plainItems : List PayloadValue → List Json
  | [] => []
  | item :: rest => plain item :: plainItems rest

def plainMembers : List (PyText × PayloadValue) → List (String × Json)
  | [] => []
  | (name, value) :: rest => (plainText name, plain value) :: plainMembers rest

end

mutual

def ofJson : Json → PayloadValue
  | .null => .null
  | .bool b => .bool b
  | .int n => .number (.int n)
  | .float q => .number (.float q)
  | .str text => .text (pyText text)
  | .arr items => .list (ofItems items)
  | .obj members => .dict (ofMembers members)

def ofItems : List Json → List PayloadValue
  | [] => []
  | item :: rest => ofJson item :: ofItems rest

def ofMembers : List (String × Json) → List (PyText × PayloadValue)
  | [] => []
  | (name, value) :: rest => (pyText name, ofJson value) :: ofMembers rest

end

mutual

theorem plain_ofJson : (value : Json) → plain (ofJson value) = value
  | .null => rfl
  | .bool _ => rfl
  | .int _ => rfl
  | .float _ => rfl
  | .str text => by rw [ofJson, plain, plainText_pyText]
  | .arr items => by rw [ofJson, plain, plainItems_ofItems]
  | .obj members => by rw [ofJson, plain, plainMembers_ofMembers]

theorem plainItems_ofItems : (items : List Json) → plainItems (ofItems items) = items
  | [] => rfl
  | item :: rest => by
      rw [ofItems, plainItems, plain_ofJson item, plainItems_ofItems rest]

theorem plainMembers_ofMembers : (members : List (String × Json)) →
    plainMembers (ofMembers members) = members
  | [] => rfl
  | (name, value) :: rest => by
      rw [ofMembers, plainMembers, plainText_pyText, plain_ofJson value,
        plainMembers_ofMembers rest]

end

mutual

theorem dumped_ofJson (leaves : NonFinite → PayloadValue) :
    (value : Json) → dumped leaves (ofJson value) = ofJson value
  | .null => rfl
  | .bool _ => rfl
  | .int _ => rfl
  | .float _ => rfl
  | .str _ => rfl
  | .arr items => by rw [ofJson, dumped, dumpedItems_ofItems]
  | .obj members => by rw [ofJson, dumped, dumpedMembers_ofMembers]

theorem dumpedItems_ofItems (leaves : NonFinite → PayloadValue) :
    (items : List Json) → dumpedItems leaves (ofItems items) = ofItems items
  | [] => rfl
  | item :: rest => by
      rw [ofItems, dumpedItems, dumped_ofJson leaves item, dumpedItems_ofItems leaves rest]

theorem dumpedMembers_ofMembers (leaves : NonFinite → PayloadValue) :
    (members : List (String × Json)) →
      dumpedMembers leaves (ofMembers members) = ofMembers members
  | [] => rfl
  | (name, value) :: rest => by
      rw [ofMembers, dumpedMembers, dumped_ofJson leaves value,
        dumpedMembers_ofMembers leaves rest]

end

mutual

theorem writable_ofJson : (value : Json) → writable (ofJson value) = representable value
  | .null => rfl
  | .bool _ => rfl
  | .int _ => rfl
  | .float _ => rfl
  | .str text => by rw [ofJson, writable, encodes_pyText, representable]
  | .arr items => by rw [ofJson, writable, representable, writableItems_ofItems]
  | .obj members => by rw [ofJson, writable, representable, writableMembers_ofMembers]

theorem writableItems_ofItems : (items : List Json) →
    writableItems (ofItems items) = representableItems items
  | [] => rfl
  | item :: rest => by
      rw [ofItems, writableItems, representableItems, writable_ofJson item,
        writableItems_ofItems rest]

theorem writableMembers_ofMembers : (members : List (String × Json)) →
    writableMembers (ofMembers members) = representableMembers members
  | [] => rfl
  | (name, value) :: rest => by
      rw [ofMembers, writableMembers, representableMembers, encodes_pyText,
        Bool.true_and, writable_ofJson value, writableMembers_ofMembers rest]

end

end PayloadValue

open PayloadValue

structure RawActor where
  principalId : PyText
  provider : Provider
  providerActorId : PyText

/-- `runtime/controller-command/v1` as `ControllerCommand` accepts it.  The texts
under a pattern or a length have no surrogates; the others may. -/
structure RawCommand where
  commandId : String
  idempotencyKey : String
  workspaceId : String
  projectId : String
  pipelineId : String
  expectedRevision : Nat
  actor : RawActor
  ingress : Ingress
  commandType : String
  payload : Dict PyText PayloadValue
  correlationId : PyText
  causationId : PyText := []
  submittedAt : String
  commandId_ok : matchesScope "cmd_" commandId = true
  idempotencyKey_ok : 16 ≤ idempotencyKey.length ∧ idempotencyKey.length ≤ 160
  workspaceId_ok : matchesScope "ws_" workspaceId = true
  projectId_ok : matchesScope "prj_" projectId = true
  pipelineId_ok : matchesScope "pl_" pipelineId = true
  commandType_ok : matchesCommandType commandType = true

namespace RawCommand

variable (command : RawCommand) (leaves : NonFinite → PayloadValue)

/-- `model_dump(mode="json")`. -/
def modelDump : List (PyText × PayloadValue) :=
  [(pyText "schema_id", .text (pyText
      "https://schemas.hermes-pipeline.dev/runtime/controller-command/v1")),
    (pyText "schema_version", .number (.int 1)),
    (pyText "command_id", .text (pyText command.commandId)),
    (pyText "idempotency_key", .text (pyText command.idempotencyKey)),
    (pyText "workspace_id", .text (pyText command.workspaceId)),
    (pyText "project_id", .text (pyText command.projectId)),
    (pyText "pipeline_id", .text (pyText command.pipelineId)),
    (pyText "expected_revision", .number (.int command.expectedRevision)),
    (pyText "actor", .dict
      [(pyText "principal_id", .text command.actor.principalId),
        (pyText "provider", .text (pyText command.actor.provider.value)),
        (pyText "provider_actor_id", .text command.actor.providerActorId)]),
    (pyText "ingress", .text (pyText command.ingress.value)),
    (pyText "command_type", .text (pyText command.commandType)),
    (pyText "payload", .dict (dumpedMembers leaves command.payload.rows)),
    (pyText "correlation_id", .text command.correlationId),
    (pyText "causation_id", .text command.causationId),
    (pyText "submitted_at", .text (pyText command.submittedAt))]

/-- RFC 8785 can write the revision, the payload as it is dumped, and the texts
that no pattern bounds. -/
def writable : Bool :=
  decide (command.expectedRevision ≤ maxSafeInteger) &&
    writableMembers (dumpedMembers leaves command.payload.rows) &&
    encodes command.actor.principalId && encodes command.actor.providerActorId &&
    encodes command.correlationId && encodes command.causationId

theorem writable_modelDump :
    PayloadValue.writable (.dict (command.modelDump leaves)) =
      command.writable leaves := by
  simp only [modelDump, PayloadValue.writable, writableMembers, encodes_pyText,
    PyNumber.writable, Int.natAbs_natCast, RawCommand.writable, Bool.true_and,
    Bool.and_true]
  rw [show decide (Int.natAbs 1 ≤ maxSafeInteger) = true from rfl, Bool.true_and]
  cases decide (command.expectedRevision ≤ maxSafeInteger) <;>
    cases writableMembers (dumpedMembers leaves command.payload.rows) <;>
      simp [Bool.and_assoc]

/-- The command without what a `ControllerCommand` does not have: on one that can
be written this changes at most the floats that are no number. -/
def plain : ControllerCommand where
  commandId := command.commandId
  idempotencyKey := command.idempotencyKey
  workspaceId := command.workspaceId
  projectId := command.projectId
  pipelineId := command.pipelineId
  expectedRevision := command.expectedRevision
  actor := ⟨plainText command.actor.principalId, command.actor.provider,
    plainText command.actor.providerActorId⟩
  ingress := command.ingress
  commandType := command.commandType
  payload := Dict.update .empty (plainMembers command.payload.rows)
  correlationId := plainText command.correlationId
  causationId := plainText command.causationId
  submittedAt := command.submittedAt
  commandId_ok := command.commandId_ok
  idempotencyKey_ok := command.idempotencyKey_ok
  workspaceId_ok := command.workspaceId_ok
  projectId_ok := command.projectId_ok
  pipelineId_ok := command.pipelineId_ok
  commandType_ok := command.commandType_ok

theorem pyText_injective : Function.Injective pyText := by
  intro left right heq
  rw [← plainText_pyText left, heq, plainText_pyText]

theorem names_ofMembers (members : List (String × Json)) :
    (ofMembers members).map Prod.fst = (members.map Prod.fst).map pyText := by
  induction members with
  | nil => rfl
  | cons member rest ih =>
      rw [ofMembers, List.map_cons, ih]
      rfl

def ofCommand (command : ControllerCommand) : RawCommand where
  commandId := command.commandId
  idempotencyKey := command.idempotencyKey
  workspaceId := command.workspaceId
  projectId := command.projectId
  pipelineId := command.pipelineId
  expectedRevision := command.expectedRevision
  actor := ⟨pyText command.actor.principalId, command.actor.provider,
    pyText command.actor.providerActorId⟩
  ingress := command.ingress
  commandType := command.commandType
  payload :=
    { rows := ofMembers command.payload.rows
      unique := by
        rw [names_ofMembers]
        exact command.payload.unique.map pyText_injective }
  correlationId := pyText command.correlationId
  causationId := pyText command.causationId
  submittedAt := command.submittedAt
  commandId_ok := command.commandId_ok
  idempotencyKey_ok := command.idempotencyKey_ok
  workspaceId_ok := command.workspaceId_ok
  projectId_ok := command.projectId_ok
  pipelineId_ok := command.pipelineId_ok
  commandType_ok := command.commandType_ok

theorem plain_ofCommand (command : ControllerCommand) :
    (ofCommand command).plain = command := by
  have hpayload : Dict.update .empty
      (plainMembers (ofMembers command.payload.rows)) = command.payload := by
    rw [plainMembers_ofMembers]
    exact Dict.update_empty_rows command.payload
  simp only [plain, ofCommand, plainText_pyText, hpayload]

theorem modelDump_ofCommand (command : ControllerCommand) :
    (ofCommand command).modelDump leaves = ofMembers command.modelDump := by
  simp only [modelDump, ofCommand, dumpedMembers_ofMembers,
    ControllerCommand.modelDump, ofMembers, ofJson]

end RawCommand

end HermesPipeline
