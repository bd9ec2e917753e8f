/-
A codec that meets the assumptions the kernel makes about its serializers.
Canonical texts are the compact rendering of canonical values, receipts are
stored as their documents, and the digest is any injective function.
-/
import HermesPipeline.Contracts
import HermesPipeline.Lib.AsciiText
import Mathlib.Logic.Equiv.Basic

namespace HermesPipeline

open Lib

def ErrorCode.ofValue? (text : String) : Option ErrorCode :=
  [ErrorCode.validationError, .authenticationFailed, .authorizationDenied,
    .notFound, .conflict, .policyRejected, .leaseStale, .dependencyUnavailable,
    .rateLimited, .internalError].find? fun code => code.value = text

def ReceiptStatus.ofValue? (text : String) : Option ReceiptStatus :=
  [ReceiptStatus.accepted, .rejected, .conflict, .deduplicated].find?
    fun status => status.value = text

@[simp] theorem ErrorCode.ofValue?_value (code : ErrorCode) :
    ErrorCode.ofValue? code.value = some code := by
  cases code <;> decide

@[simp] theorem ReceiptStatus.ofValue?_value (status : ReceiptStatus) :
    ReceiptStatus.ofValue? status.value = some status := by
  cases status <;> decide

namespace CommandReceipt

def errorMembers (error : CommandError) : List (String × Json) :=
  [("code", .str error.code.value),
    ("message", .str error.message),
    ("retryable", .bool error.retryable),
    ("field_violations", .arr (error.fieldViolations.map Json.str))]

def members (receipt : CommandReceipt) : List (String × Json) :=
  [("schema_id", .str
      "https://schemas.hermes-pipeline.dev/runtime/command-receipt/v1"),
    ("schema_version", .int 1),
    ("command_id", .str receipt.commandId),
    ("status", .str receipt.status.value),
    ("pipeline_id", .str receipt.pipelineId),
    ("observed_revision", .int receipt.observedRevision),
    ("event_ids", .arr (receipt.eventIds.map Json.str)),
    ("error", .obj (errorMembers receipt.error)),
    ("recorded_at", .str receipt.recordedAt),
    ("correlation_id", .str receipt.correlationId)]

/-- `model_dump_json` before it is written out. -/
def document (receipt : CommandReceipt) : Json := .obj receipt.members

def textField (members : List (String × Json)) (name : String) : Option String :=
  (Json.member? members name).bind Json.text?

def textsField (members : List (String × Json)) (name : String) :
    Option (List String) :=
  match Json.member? members name with
  | some (.arr items) => items.mapM Json.text?
  | _ => none

def errorOf? : Json → Option CommandError
  | .obj members => do
      let code ← (textField members "code").bind ErrorCode.ofValue?
      let message ← textField members "message"
      let retryable ← match Json.member? members "retryable" with
        | some (.bool value) => some value
        | _ => none
      let fieldViolations ← textsField members "field_violations"
      return ⟨code, message, retryable, fieldViolations⟩
  | _ => none

/-- `model_validate` of a parsed receipt document. -/
def ofDocument? : Json → Option CommandReceipt
  | .obj members => do
      let commandId ← textField members "command_id"
      let status ← (textField members "status").bind ReceiptStatus.ofValue?
      let pipelineId ← textField members "pipeline_id"
      let observedRevision ← match Json.member? members "observed_revision" with
        | some (.int (.ofNat n)) => some n
        | _ => none
      let eventIds ← textsField members "event_ids"
      let error ← (Json.member? members "error").bind errorOf?
      let recordedAt ← textField members "recorded_at"
      let correlationId ← textField members "correlation_id"
      return ⟨commandId, status, pipelineId, observedRevision, eventIds, error,
        recordedAt, correlationId⟩
  | _ => none

theorem mapM_text?_str (texts : List String) :
    (texts.map Json.str).mapM Json.text? = some texts := by
  induction texts with
  | nil => rfl
  | cons text rest ih =>
      rw [List.map_cons, List.mapM_cons, ih]
      rfl

theorem errorOf?_errorMembers (error : CommandError) :
    errorOf? (.obj (errorMembers error)) = some error := by
  have hcode : textField (errorMembers error) "code" =
      some error.code.value := rfl
  have hviolations : textsField (errorMembers error) "field_violations" =
      some error.fieldViolations := mapM_text?_str error.fieldViolations
  simp only [errorOf?, hcode, hviolations, Option.bind_some,
    ErrorCode.ofValue?_value]
  rfl

theorem ofDocument?_document (receipt : CommandReceipt) :
    ofDocument? receipt.document = some receipt := by
  have hstatus : textField receipt.members "status" =
      some receipt.status.value := rfl
  have hevents : textsField receipt.members "event_ids" =
      some receipt.eventIds := mapM_text?_str receipt.eventIds
  have herror : Json.member? receipt.members "error" =
      some (.obj (errorMembers receipt.error)) := rfl
  simp only [document, ofDocument?, hstatus, hevents, herror, Option.bind_some,
    ReceiptStatus.ofValue?_value, errorOf?_errorMembers]
  rfl

end CommandReceipt

/-- The reference codec with a given digest. -/
def referenceCodec (digest : String → String) : Codec where
  canonicalJson := fun value => some value.canon.toText
  loads := Json.parse
  sha256Hex := digest
  receiptJson := fun receipt => receipt.document.toText
  receiptOfJson := fun text => (Json.parse text).bind CommandReceipt.ofDocument?
  pyStr := Json.toText

namespace ReferenceCodec

theorem canonMembers_texts (fields : List (String × String)) :
    Json.canonMembers (fields.map fun field => (field.1, Json.str field.2)) =
      fields.map fun field => (field.1, Json.str field.2) := by
  induction fields with
  | nil => simp [Json.canonMembers]
  | cons field rest ih => simp [Json.canonMembers, Json.canon, ih]

/-- Sorting members with distinct names does not change a lookup. -/
theorem member?_sortMembers {members : List (String × Json)}
    (hunique : (members.map Prod.fst).Nodup) (name : String) :
    Json.member? (Json.sortMembers members) name = Json.member? members name := by
  have hperm : (Json.sortMembers members).Perm members :=
    List.perm_insertionSort _ _
  let sorted : Dict String Json :=
    ⟨Json.sortMembers members, (hperm.map Prod.fst).nodup_iff.mpr hunique⟩
  let stored : Dict String Json := ⟨members, hunique⟩
  have hfind : sorted.find? name = stored.find? name := by
    apply Keyed.find?_congr
    intro row
    exact and_congr_left fun _ => hperm.mem_iff
  exact congrArg (Option.map Prod.snd) hfind

theorem loadsTexts (digest : String → String) :
    (referenceCodec digest).LoadsTexts := by
  intro fields text hcanonical
  have htext : text = (Json.ofTexts fields.rows).canon.toText :=
    (Option.some.inj hcanonical).symm
  refine ⟨Json.sortMembers (fields.rows.map fun field =>
    (field.1, Json.str field.2)), ?_, ?_⟩
  · change Json.parse text = _
    rw [htext, Json.parse_toText, Json.ofTexts, Json.canon, canonMembers_texts]
  · intro name
    have hunique : ((fields.rows.map fun field =>
        (field.1, Json.str field.2)).map Prod.fst).Nodup := by
      simpa [List.map_map, Function.comp_def] using fields.unique
    rw [member?_sortMembers hunique, Json.member?_ofTexts]
    rfl

theorem loadsFields (digest : String → String) :
    (referenceCodec digest).LoadsFields := by
  intro fields text hcanonical
  obtain ⟨_, hloads, hmembers⟩ := loadsTexts digest fields text hcanonical
  have htext : text = (Json.ofTexts fields.rows).canon.toText :=
    (Option.some.inj hcanonical).symm
  have hparsed : (referenceCodec digest).loads text = some (.obj
      (Json.sortMembers (fields.rows.map fun field =>
        (field.1, Json.str field.2)))) := by
    change Json.parse text = _
    rw [htext, Json.parse_toText, Json.ofTexts, Json.canon, canonMembers_texts]
  rw [hparsed, Option.some.injEq, Json.obj.injEq] at hloads
  subst hloads
  refine ⟨_, hparsed, ?_, hmembers⟩
  apply ((List.perm_insertionSort _ _).map Prod.fst).nodup_iff.mpr
  simpa [List.map_map, Function.comp_def] using fields.unique

theorem writesTexts (digest : String → String) :
    (referenceCodec digest).WritesTexts := by
  intro fields
  exact ⟨_, rfl⟩

theorem storesReceipts (digest : String → String) :
    (referenceCodec digest).StoresReceipts := by
  intro receipt
  simp [referenceCodec, Json.parse_toText, CommandReceipt.ofDocument?_document]

theorem contentHash_modelDump (digest : String → String)
    (command : ControllerCommand) :
    (referenceCodec digest).contentHash command.modelDump =
      some ("sha256:" ++ digest (Json.obj command.modelDump).canon.toText) := by
  have hfilter : command.modelDump.filter (fun member =>
      member.1 != "content_hash") = command.modelDump := rfl
  rw [Codec.contentHash, hfilter]
  rfl

theorem hashesCommands {digest : String → String}
    (hdigest : Function.Injective digest) :
    (referenceCodec digest).HashesCommands where
  total := fun command => ⟨_, contentHash_modelDump digest command⟩
  injective := by
    intro left right hhash
    rw [contentHash_modelDump, contentHash_modelDump] at hhash
    have htexts := String.append_right_inj _ |>.mp (Option.some.inj hhash)
    exact Json.toText_injective (hdigest htexts)

/-- A canonical text is not empty. -/
theorem canonicalJson_ne_empty (digest : String → String) (value : Json) :
    (referenceCodec digest).canonicalJson value ≠ some "" := by
  intro heq
  have hempty : value.canon.toText = "" := Option.some.inj heq
  have hparse := Json.parse_toText value.canon
  rw [hempty] at hparse
  have hnone : Json.parse "" = none := by decide +kernel
  rw [hnone] at hparse
  cases hparse

/-- Exchange each listed text with its digest, so that the digest of a listed
text is the listed one and no two texts share a digest. -/
def digestOf : List (String × String) → Equiv.Perm String
  | [] => Equiv.refl String
  | (text, digest) :: rest => (Equiv.swap text digest).trans (digestOf rest)

/-- A text that is not listed is its own digest. -/
theorem digestOf_of_ne {known : List (String × String)} {text : String}
    (hne : ∀ pair ∈ known, text ≠ pair.1 ∧ text ≠ pair.2) :
    digestOf known text = text := by
  induction known with
  | nil => rfl
  | cons pair rest ih =>
      obtain ⟨hfirst, hsecond⟩ := hne pair List.mem_cons_self
      rw [digestOf, Equiv.trans_apply, Equiv.swap_apply_of_ne_of_ne hfirst hsecond]
      exact ih fun pair hpair => hne pair (List.mem_cons_of_mem _ hpair)

theorem head?_toText_obj (members : List (String × Json)) :
    (Json.obj members).canon.toText.toList.head? = some '\x7b' := by
  rw [Json.toText, String.toList_ofList, Json.canon]
  cases Json.sortMembers (Json.canonMembers members) <;> rfl

/-- A command of the sample workspace; the identity, the type, the revision and
the payload vary. -/
def sampleCommand (commandId commandType : String) (expectedRevision : Nat)
    (payload : Dict String Json)
    (commandId_ok : matchesScope "cmd_" commandId = true := by decide)
    (commandType_ok : matchesCommandType commandType = true := by decide) :
    ControllerCommand where
  commandId := commandId
  idempotencyKey := "idem_0123456789abcdef"
  workspaceId := "ws_a"
  projectId := "prj_a"
  pipelineId := "pl_a"
  expectedRevision := expectedRevision
  actor := ⟨"usr_a", .cli, "usr_a"⟩
  ingress := .cli
  commandType := commandType
  payload := payload
  correlationId := "cor_a"
  submittedAt := "2026-08-06T00:00:00Z"
  commandId_ok := commandId_ok
  commandType_ok := commandType_ok

def sampleConfirm : ControllerCommand :=
  sampleCommand "cmd_1" "CONFIRM_REQUIREMENT" 0
    (Dict.set .empty "text" (.str "Build the exporter"))

def sampleRecord : ControllerCommand :=
  sampleCommand "cmd_2" "RECORD_PRD" 1
    (Dict.set .empty "prd_status" (.str "READY"))

/-- `cmd_1` again, with another requirement. -/
def sampleConfirmOther : ControllerCommand :=
  sampleCommand "cmd_1" "CONFIRM_REQUIREMENT" 0
    (Dict.set .empty "text" (.str "Build the importer"))

/-- A second record at the revision of `sampleRecord`. -/
def sampleRecordOther : ControllerCommand :=
  sampleCommand "cmd_3" "RECORD_PRD" 1
    (Dict.set .empty "prd_status" (.str "DRAFT"))

/-- SHA-256 on the sample commands. -/
def sampleDigest : Equiv.Perm String :=
  digestOf
    [((Json.obj sampleConfirm.modelDump).canon.toText,
        "354695c00546b241d20d13eef55370d37e0923ec4932cea0fb601cc848b06065"),
      ((Json.obj sampleRecord.modelDump).canon.toText,
        "d82070592ed0d99db86822bfef4462eb501233b031c6222d50ae29e8cee9f875"),
      ((Json.obj sampleConfirmOther.modelDump).canon.toText,
        "70d543189e796e2e19af70332f4f7754520882f5fe93491c20877d310b86c96a"),
      ((Json.obj sampleRecordOther.modelDump).canon.toText,
        "762b28858330fd4deadef8a44979e3e8a77b5aa493b13df9e08762423f157ad7")]

def sampleCodec : Codec := referenceCodec sampleDigest

/-- A text that starts like neither a document nor a digest is its own sample
digest. -/
theorem sampleDigest_of_head {text : String} (hhead : text.toList.head? = some 's') :
    sampleDigest text = text := by
  have hne : ∀ {other : String}, other.toList.head? ≠ some 's' → text ≠ other := by
    rintro other hother rfl
    exact hother hhead
  apply digestOf_of_ne
  intro pair hpair
  simp only [List.mem_cons, List.not_mem_nil, or_false] at hpair
  rcases hpair with rfl | rfl | rfl | rfl <;>
    exact ⟨hne (by rw [head?_toText_obj]; decide), hne (by simp)⟩

/-- `sampleCodec` by the bytes of its texts, for the evaluation of runs. -/
def byteCodec : Codec :=
  { sampleCodec with
    canonicalJson := fun value => some (AsciiText.toText value.canon)
    loads := AsciiText.parse
    sha256Hex := fun text =>
      if (AsciiText.letters text).head? = some 's' then text else sampleDigest text }

theorem byteCodec_eq : byteCodec = sampleCodec := by
  have hdigest : (fun text => if (AsciiText.letters text).head? = some 's' then text
      else sampleDigest text) = sampleDigest := by
    funext text
    rw [AsciiText.letters_eq]
    split
    · next hhead => exact (sampleDigest_of_head hhead).symm
    · rfl
  rw [byteCodec, hdigest, AsciiText.toText_eq, AsciiText.parse_eq]
  rfl

theorem sampleCodec_hashesCommands : sampleCodec.HashesCommands :=
  hashesCommands sampleDigest.injective

/-- `sampleCodec` raising, as `rfc8785` does, for integers it cannot write. -/
def sampleJcs : Codec := sampleCodec.asJcs

/-- `sampleJcs` by the bytes of its texts. -/
theorem byteCodec_asJcs : byteCodec.asJcs = sampleJcs := by
  rw [byteCodec_eq]
  rfl

/-- The text under a path of member names. -/
def textAt : List String → Json → Option String
  | [], value => value.text?
  | name :: rest, .obj members => (Json.member? members name).bind (textAt rest)
  | _ :: _, _ => none

/-- Documents that differ at some text are different. -/
theorem not_same_of_textAt_ne {left right : ControllerCommand}
    (path : List String) (htext : textAt path (Json.obj left.modelDump).canon ≠
      textAt path (Json.obj right.modelDump).canon) : ¬left.Same right :=
  fun hsame => htext (congrArg (textAt path) hsame)

end ReferenceCodec

end HermesPipeline
