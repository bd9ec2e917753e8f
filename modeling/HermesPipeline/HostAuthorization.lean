/-
The authorization of the sandbox host.  Some twenty checks over three JSON
documents, the bytes of the tool lock, the clock and a snapshot directory stand
before the gate; the last step creates the marker that uses the gate up.
-/
import HermesPipeline.Contracts
import HermesPipeline.Descriptor
import HermesPipeline.Lib.Program
import HermesPipeline.ReceiptStore
import HermesPipeline.ReferenceCodec
import HermesPipeline.TreeFingerprints

namespace HermesPipeline

open Lib

namespace HostAuthorization

open ReceiptStore (pyEq agree)

def recordFields : List String :=
  ["schema_version", "planning_base_sha", "candidate_sha",
    "candidate_tree_digest", "integration_base_sha", "integration_candidate_sha",
    "integration_candidate_tree_digest", "source_tree_digest", "tool_lock_digest",
    "selected_platform", "selected_tool_lock_entries", "custodian_origin"]

def bindingFields : List String :=
  ["schema_version", "planning_base_sha", "candidate_sha",
    "candidate_tree_digest", "integration_base_sha", "integration_candidate_sha",
    "integration_candidate_tree_digest", "source_tree_digest", "tool_lock_digest",
    "tool_record_digest", "custodian_origin", "run_id", "issued_at_utc",
    "expires_at_utc", "single_use_nonce"]

def gateFields : List String := ["schema_version", "run_binding_digest"]

def forbiddenRecordFields : List String :=
  ["version_output", "capability_probe_result", "observed_at_utc",
    "asset_verification_result", "run_binding_digest"]

def entryFields : List String := ["tool", "platform", "asset", "integrity"]

def custodianOrigin : String := "git-custodian"

/-- How a call ends without a result. -/
inductive HostError
  /-- `AuthorizationError`, with the code of a missing dependency. -/
  | authorization
  /-- An exception of any other kind. -/
  | other
deriving Repr, DecidableEq

/-- Why `json.loads` does not return. -/
inductive ParseFailure
  | decode
  /-- An exception of another kind, such as a recursion that is too deep. -/
  | other
deriving Repr, DecidableEq

/-- What `datetime.fromisoformat` reads, in microseconds since the epoch. -/
inductive IsoTime
  | naive
  | aware (instant : Int)
  /-- With an offset that leads out of the range of a date. -/
  | outOfRange
deriving Repr, DecidableEq

/-- The library functions behind the checks. -/
structure HostLibrary where
  /-- RFC 8785 and SHA-256 of its texts. -/
  codec : Codec
  /-- SHA-256 of raw bytes. -/
  sha256 : List UInt8 → String
  /-- `json.loads`; `none` is a value that is no dictionary. -/
  loads : String → Except ParseFailure (Option (Dict String Json))
  /-- `datetime.fromisoformat`; `none` is a `ValueError`. -/
  fromIsoFormat : String → Option IsoTime

/-- What a file answers when it is read. -/
inductive FileAnswer
  | notFile
  /-- `read_text` raises an `OSError`. -/
  | unreadable
  /-- `read_text` raises anything else, such as for text that is not UTF-8. -/
  | broken
  | text (content : String)
deriving Repr, DecidableEq

/-- How the owner check of the gate file ends. -/
inductive OwnerAnswer
  | ownerOnly
  | osError
  | raises
deriving Repr, DecidableEq

/-- What stands beside the tool record. -/
inductive SnapshotAnswer
  | notDirectory
  | directory (dotGit : Bool) (tree : Tree)
  | raises

/-- Where the file system fails while the gate is consumed. -/
inductive MarkerFault
  /-- The directory or the marker cannot be created. -/
  | before
  /-- The marker was created and cannot be written or protected. -/
  | after
deriving Repr, DecidableEq

/-- The inputs of one call, and what each of its reads finds at its own
moment. -/
structure HostView where
  candidateSha : String
  sourceTreeDigest : String
  toolLockIsFile : Bool
  toolRecord : FileAnswer
  runBinding : FileAnswer
  hostGate : FileAnswer
  /-- `none` when the bytes cannot be read. -/
  toolLock : Option (List UInt8)
  now : Int
  gateOwner : OwnerAnswer
  snapshot : SnapshotAnswer
  fault : Option MarkerFault := none

variable (lib : HostLibrary)

/-- `if not condition: raise AuthorizationError`. -/
def require (condition : Bool) : Except HostError Unit :=
  if condition then .ok () else .error .authorization

/-- `_load_object`. -/
def loadObject (file : FileAnswer) : Except HostError (Dict String Json) :=
  match file with
  | .notFile => .error .authorization
  | .unreadable => .error .authorization
  | .broken => .error .other
  | .text content =>
      match lib.loads content with
      | .error .decode => .error .authorization
      | .error .other => .error .other
      | .ok none => .error .authorization
      | .ok (some loaded) => .ok loaded

/-- `set(names) == set(fields)`. -/
def sameNames (names fields : List String) : Bool :=
  names.all (fields.contains ·) && fields.all (names.contains ·)

/-- `payload[name]` of a payload whose keys were checked. -/
def item (payload : Dict String Json) (name : String) : Json :=
  (payload.get? name).getD .null

/-- `_require_exact_keys`. -/
def requireExactKeys (payload : Dict String Json) (fields : List String) :
    Except HostError Unit := do
  require (sameNames (payload.rows.map Prod.fst) fields)
  require (pyEq ((payload.get? "schema_version").getD .null) (.int 1))

/-- `_require_origin`. -/
def requireOrigin (payload : Dict String Json) : Except HostError Unit :=
  require (pyEq ((payload.get? "custodian_origin").getD .null)
    (.str custodianOrigin))

/-- `value.replace("Z", "+00:00")`. -/
def replaceZulu (value : String) : String :=
  String.ofList (value.toList.flatMap fun letter =>
    if letter = 'Z' then "+00:00".toList else [letter])

/-- `_parse_utc`. -/
def parseUtc (value : Json) : Except HostError Int :=
  match value with
  | .str text =>
      match lib.fromIsoFormat (replaceZulu text) with
      | none => .error .authorization
      | some .naive => .error .authorization
      | some .outOfRange => .error .other
      | some (.aware instant) => .ok instant
  | _ => .error .authorization

/-- Each entry of the selected tools has its four fields. -/
def isToolEntry : Json → Bool
  | .obj members => sameNames (members.map Prod.fst) entryFields
  | _ => false

def requireEntries (entries : Json) : Except HostError Unit :=
  match entries with
  | .arr items => require (items.all isToolEntry)
  | _ => .error .authorization

/-- `object_digest`; `none` is an object without a canonical text. -/
def objectDigest (value : Dict String Json) : Except HostError String :=
  match lib.codec.contentHash value.rows with
  | none => .error .other
  | some digest => .ok digest

/-- `file_digest`. -/
def fileDigest (data : List UInt8) : String := "sha256:" ++ lib.sha256 data

def readBytes (data : Option (List UInt8)) : Except HostError (List UInt8) :=
  match data with
  | none => .error .other
  | some bytes => .ok bytes

/-- `verify_owner_only` in its `try`. -/
def verifyOwnerOnly (answer : OwnerAnswer) : Except HostError Unit :=
  match answer with
  | .ownerOnly => .ok ()
  | .osError => .error .authorization
  | .raises => .error .other

/-- `inspect_snapshot`. -/
def inspectSnapshot (snapshot : SnapshotAnswer) (expected : Json) :
    Except HostError Unit :=
  match snapshot with
  | .notDirectory => .error .authorization
  | .raises => .error .other
  | .directory dotGit tree => do
      require (!dotGit)
      require (Descriptor.truthy expected)
      match snapshotTreeDigest lib.sha256 (some tree) with
      | .error _ => .error .other
      | .ok digest => require (pyEq (.str digest) expected)

/-- What `validate_authorization` returns, without the path of the snapshot. -/
structure Validated where
  record : Dict String Json
  binding : Dict String Json
  gate : Dict String Json
  toolRecordDigest : String
  runBindingDigest : String

/-- The part of `validate_authorization` before the gate is consumed. -/
def checks (view : HostView) : Except HostError Validated := do
  require view.toolLockIsFile
  let record ← loadObject lib view.toolRecord
  let binding ← loadObject lib view.runBinding
  let gate ← loadObject lib view.hostGate
  require (forbiddenRecordFields.all fun name => (record.get? name).isNone)
  requireExactKeys record recordFields
  requireExactKeys binding bindingFields
  requireExactKeys gate gateFields
  requireOrigin record
  requireOrigin binding
  requireEntries (item record "selected_tool_lock_entries")
  let lockBytes ← readBytes view.toolLock
  let lockDigest := fileDigest lib lockBytes
  require (pyEq (item record "tool_lock_digest") (.str lockDigest))
  require (pyEq (item binding "tool_lock_digest") (.str lockDigest))
  let recordDigest ← objectDigest lib record
  require (pyEq (item binding "tool_record_digest") (.str recordDigest))
  let bindingDigest ← objectDigest lib binding
  require (pyEq (item gate "run_binding_digest") (.str bindingDigest))
  let sharedDigest := item record "source_tree_digest"
  require (pyEq sharedDigest (item binding "source_tree_digest"))
  require (pyEq sharedDigest (item binding "integration_candidate_tree_digest"))
  require (pyEq sharedDigest (.str view.sourceTreeDigest))
  require (pyEq (item record "candidate_sha") (.str view.candidateSha))
  require (pyEq (item binding "candidate_sha") (.str view.candidateSha))
  let issued ← parseUtc lib (item binding "issued_at_utc")
  let expires ← parseUtc lib (item binding "expires_at_utc")
  require (!(view.now < issued || view.now ≥ expires))
  verifyOwnerOnly view.gateOwner
  inspectSnapshot lib view.snapshot sharedDigest
  return ⟨record, binding, gate, recordDigest, bindingDigest⟩

/-- `digest_hex`. -/
def digestHex (digest : String) : String :=
  if "sha256:".toList.isPrefixOf digest.toList then
    String.ofList (digest.toList.drop 7)
  else digest

/-- `consume_host_gate` over the names in `used-host-gates`. -/
def consumeHostGate (markers : List String) (runBindingDigest : String)
    (fault : Option MarkerFault) : Except HostError Unit × List String :=
  let marker := digestHex runBindingDigest
  if fault = some .before then (.error .other, markers)
  else if marker ∈ markers then (.error .authorization, markers)
  else if fault = some .after then (.error .other, markers ++ [marker])
  else (.ok (), markers ++ [marker])

/-- `validate_authorization`. -/
def validateAuthorization (view : HostView) (markers : List String) :
    Except HostError Validated × List String :=
  match checks lib view with
  | .error error => (.error error, markers)
  | .ok validated =>
      match consumeHostGate markers validated.runBindingDigest view.fault with
      | (.error error, left) => (.error error, left)
      | (.ok (), left) => (.ok validated, left)

section Checks

theorem require_eq_ok (condition : Bool) (done : Unit) :
    require condition = .ok done ↔ condition = true := by
  cases condition <;> simp [require]

/-- A value that Python finds equal to a text is that text. -/
theorem pyEq_str (value : Json) (text : String) :
    pyEq value (.str text) = true ↔ value = .str text := by
  cases value <;> simp [pyEq, ReceiptStore.number?]

theorem pyEq_str_left (text : String) (value : Json) :
    pyEq (.str text) value = true ↔ value = .str text := by
  cases value <;> simp [pyEq, ReceiptStore.number?, eq_comm]

/-- What the checks found, each under the name of what it binds. -/
structure Passed (lib : HostLibrary) (view : HostView) (validated : Validated) :
    Prop where
  documents : loadObject lib view.toolRecord = .ok validated.record ∧
    loadObject lib view.runBinding = .ok validated.binding ∧
    loadObject lib view.hostGate = .ok validated.gate
  recordKeys : sameNames (validated.record.rows.map Prod.fst) recordFields = true
  bindingKeys : sameNames (validated.binding.rows.map Prod.fst) bindingFields = true
  gateKeys : sameNames (validated.gate.rows.map Prod.fst) gateFields = true
  origins : validated.record.get? "custodian_origin" = some (.str custodianOrigin) ∧
    validated.binding.get? "custodian_origin" = some (.str custodianOrigin)
  lock : ∃ bytes, view.toolLock = some bytes ∧
    item validated.record "tool_lock_digest" = .str (fileDigest lib bytes) ∧
    item validated.binding "tool_lock_digest" = .str (fileDigest lib bytes)
  recordDigest : objectDigest lib validated.record = .ok validated.toolRecordDigest
  bindingDigest :
    objectDigest lib validated.binding = .ok validated.runBindingDigest
  boundRecord : item validated.binding "tool_record_digest" =
    .str validated.toolRecordDigest
  boundBinding : item validated.gate "run_binding_digest" =
    .str validated.runBindingDigest
  source : item validated.record "source_tree_digest" = .str view.sourceTreeDigest ∧
    item validated.binding "source_tree_digest" = .str view.sourceTreeDigest ∧
    item validated.binding "integration_candidate_tree_digest" =
      .str view.sourceTreeDigest
  candidate : item validated.record "candidate_sha" = .str view.candidateSha ∧
    item validated.binding "candidate_sha" = .str view.candidateSha
  window : ∃ issued expires,
    parseUtc lib (item validated.binding "issued_at_utc") = .ok issued ∧
    parseUtc lib (item validated.binding "expires_at_utc") = .ok expires ∧
    issued ≤ view.now ∧ view.now < expires
  snapshot : ∃ tree, view.snapshot = .directory false tree ∧
    snapshotTreeDigest lib.sha256 (some tree) = .ok view.sourceTreeDigest

/-- A payload whose keys were checked has every one of its fields. -/
theorem get?_of_sameNames {payload : Dict String Json} {fields : List String}
    (hkeys : sameNames (payload.rows.map Prod.fst) fields = true) {name : String}
    (hname : name ∈ fields) : payload.get? name = some (item payload name) := by
  rw [sameNames, Bool.and_eq_true] at hkeys
  have hmem : name ∈ payload.rows.map Prod.fst := by
    simpa using List.all_eq_true.mp hkeys.2 name hname
  obtain ⟨value, hvalue⟩ :=
    Option.ne_none_iff_exists'.mp ((payload.mem_keys_iff name).mp hmem)
  simp [item, hvalue]

theorem inspectSnapshot_ok {lib : HostLibrary} {answer : SnapshotAnswer}
    {digest : String} (h : inspectSnapshot lib answer (.str digest) = .ok ()) :
    ∃ tree, answer = .directory false tree ∧
      snapshotTreeDigest lib.sha256 (some tree) = .ok digest := by
  cases answer with
  | notDirectory => cases h
  | raises => cases h
  | directory dotGit tree =>
      simp only [inspectSnapshot, bind_eq_ok, require_eq_ok, snapshotTreeDigest,
        pyEq_str_left, Json.str.injEq, exists_const] at h
      obtain ⟨hgit, -, hdigest⟩ := h
      cases dotGit with
      | true => cases hgit
      | false => exact ⟨tree, rfl, by rw [snapshotTreeDigest, hdigest]⟩

theorem checks_ok {lib : HostLibrary} {view : HostView} {validated : Validated}
    (h : checks lib view = .ok validated) : Passed lib view validated := by
  simp only [checks, bind_eq_ok, require_eq_ok, requireExactKeys, requireOrigin,
    exists_const] at h
  obtain ⟨-, record, hrecord, binding, hbinding, gate, hgate, -, ⟨hrecordKeys, -⟩,
    ⟨hbindingKeys, -⟩, ⟨hgateKeys, -⟩, hrecordOrigin, hbindingOrigin, -, -, bytes,
    hbytes, hrecordLock, hbindingLock, recordDigest, hrecordDigest, hboundRecord,
    bindingDigest, hbindingDigest, hboundBinding, hsource, hintegration, hinput,
    hrecordCandidate, hbindingCandidate, issued, hissued, expires, hexpires, hnow,
    _, -, _, hsnapshot, hreturn⟩ := h
  cases hreturn
  have hrecordOrigin := (pyEq_str _ _).mp hrecordOrigin
  have hbindingOrigin := (pyEq_str _ _).mp hbindingOrigin
  have hinput := (pyEq_str _ _).mp hinput
  rw [hinput] at hsource hintegration hsnapshot
  simp only [Bool.not_eq_true', Bool.or_eq_false_iff, decide_eq_false_iff_not,
    not_lt, ge_iff_le, not_le] at hnow
  refine
    { documents := ⟨hrecord, hbinding, hgate⟩
      recordKeys := hrecordKeys
      bindingKeys := hbindingKeys
      gateKeys := hgateKeys
      origins := ⟨?_, ?_⟩
      lock := ⟨bytes, ?_, (pyEq_str _ _).mp hrecordLock, (pyEq_str _ _).mp hbindingLock⟩
      recordDigest := hrecordDigest
      bindingDigest := hbindingDigest
      boundRecord := (pyEq_str _ _).mp hboundRecord
      boundBinding := (pyEq_str _ _).mp hboundBinding
      source := ⟨hinput, (pyEq_str_left _ _).mp hsource,
        (pyEq_str_left _ _).mp hintegration⟩
      candidate := ⟨(pyEq_str _ _).mp hrecordCandidate,
        (pyEq_str _ _).mp hbindingCandidate⟩
      window := ⟨issued, expires, hissued, hexpires, hnow.1, hnow.2⟩
      snapshot := inspectSnapshot_ok hsnapshot }
  · rw [get?_of_sameNames hrecordKeys (by decide), ← hrecordOrigin]
    rfl
  · rw [get?_of_sameNames hbindingKeys (by decide), ← hbindingOrigin]
    rfl
  · cases hlock : view.toolLock with
    | none =>
        rw [hlock] at hbytes
        cases hbytes
    | some stored =>
        rw [hlock] at hbytes
        cases hbytes
        rfl

end Checks

section Coherence

variable {lib : HostLibrary} {view : HostView} {markers : List String}

/-- The fields that the record and the binding both have, apart from the
version of their schema. -/
def sharedFields : List String :=
  ["planning_base_sha", "candidate_sha", "candidate_tree_digest",
    "integration_base_sha", "integration_candidate_sha",
    "integration_candidate_tree_digest", "source_tree_digest", "tool_lock_digest",
    "custodian_origin"]

example : sharedFields = recordFields.filter fun name =>
    bindingFields.contains name && name != "schema_version" := by decide

/-- The shared fields of which at most one side is ever compared. -/
def uncomparedFields : List String :=
  ["planning_base_sha", "candidate_tree_digest", "integration_base_sha",
    "integration_candidate_sha", "integration_candidate_tree_digest"]

/-- The two documents agree in the named fields. -/
def AgreeOn (fields : List String) (record binding : Dict String Json) : Prop :=
  ∀ name ∈ fields, agree (record.get? name) (binding.get? name) = true

/-- `validate_authorization` returns. -/
def Accepted (lib : HostLibrary) (view : HostView) (markers : List String) : Prop :=
  ∃ validated, (validateAuthorization lib view markers).1 = .ok validated

/-- What a coherent authorization is: every digest is the digest of what it
names, the clock stands in the window, the snapshot hashes to the bound tree
digest, and the two documents agree in what they share. -/
structure Coherent (lib : HostLibrary) (view : HostView)
    (record binding gate : Dict String Json) : Prop where
  gateDigest : ∃ digest, objectDigest lib binding = .ok digest ∧
    gate.get? "run_binding_digest" = some (.str digest)
  recordDigest : ∃ digest, objectDigest lib record = .ok digest ∧
    binding.get? "tool_record_digest" = some (.str digest)
  lockDigest : ∃ bytes, view.toolLock = some bytes ∧
    record.get? "tool_lock_digest" = some (.str (fileDigest lib bytes)) ∧
    binding.get? "tool_lock_digest" = some (.str (fileDigest lib bytes))
  window : ∃ issued expires,
    parseUtc lib (item binding "issued_at_utc") = .ok issued ∧
    parseUtc lib (item binding "expires_at_utc") = .ok expires ∧
    issued ≤ view.now ∧ view.now < expires
  snapshot : ∃ dotGit tree digest, view.snapshot = .directory dotGit tree ∧
    snapshotTreeDigest lib.sha256 (some tree) = .ok digest ∧
    binding.get? "integration_candidate_tree_digest" = some (.str digest)
  shared : AgreeOn sharedFields record binding

theorem checks_of_accepted (h : Accepted lib view markers) :
    ∃ validated, checks lib view = .ok validated := by
  obtain ⟨_, hresult⟩ := h
  cases hchecks : checks lib view with
  | error error =>
      rw [validateAuthorization, hchecks] at hresult
      cases hresult
  | ok validated => exact ⟨validated, rfl⟩

theorem agree_str (text : String) :
    agree (some (.str text)) (some (.str text)) = true := by
  simp [agree, pyEq]

/-- The four shared fields that the checks compare agree. -/
theorem Passed.agree_of_compared {validated : Validated}
    (h : Passed lib view validated) {name : String} (hshared : name ∈ sharedFields)
    (hcompared : name ∉ uncomparedFields) :
    agree (validated.record.get? name) (validated.binding.get? name) = true := by
  obtain ⟨bytes, -, hrecordLock, hbindingLock⟩ := h.lock
  have hrecord : ∀ name ∈ sharedFields,
      validated.record.get? name = some (item validated.record name) :=
    fun name hname => get?_of_sameNames h.recordKeys (by revert name; decide)
  have hbinding : ∀ name ∈ sharedFields,
      validated.binding.get? name = some (item validated.binding name) :=
    fun name hname => get?_of_sameNames h.bindingKeys (by revert name; decide)
  have hfour : name = "candidate_sha" ∨ name = "source_tree_digest" ∨
      name = "tool_lock_digest" ∨ name = "custodian_origin" := by
    revert name
    decide
  rcases hfour with rfl | rfl | rfl | rfl
  · rw [hrecord _ hshared, hbinding _ hshared, h.candidate.1, h.candidate.2,
      agree_str]
  · rw [hrecord _ hshared, hbinding _ hshared, h.source.1, h.source.2.1, agree_str]
  · rw [hrecord _ hshared, hbinding _ hshared, hrecordLock, hbindingLock, agree_str]
  · rw [h.origins.1, h.origins.2, agree_str]

/-- An accepted authorization is coherent exactly when the record and the
binding agree in the five shared fields that no check compares. -/
theorem accepted_coherent_iff (lib : HostLibrary) (view : HostView)
    (markers : List String) (record binding gate : Dict String Json)
    (hrecord : loadObject lib view.toolRecord = .ok record)
    (hbinding : loadObject lib view.runBinding = .ok binding)
    (hgate : loadObject lib view.hostGate = .ok gate)
    (haccepted : Accepted lib view markers) :
    Coherent lib view record binding gate ↔
      AgreeOn uncomparedFields record binding := by
  obtain ⟨validated, hchecks⟩ := checks_of_accepted haccepted
  have hpassed := checks_ok hchecks
  obtain ⟨hrecord', hbinding', hgate'⟩ := hpassed.documents
  cases hrecord.symm.trans hrecord'
  cases hbinding.symm.trans hbinding'
  cases hgate.symm.trans hgate'
  constructor
  · intro hcoherent name hname
    exact hcoherent.shared name (by revert name; decide)
  · intro hagree
    obtain ⟨bytes, hbytes, hrecordLock, hbindingLock⟩ := hpassed.lock
    obtain ⟨tree, hsnapshot, hdigest⟩ := hpassed.snapshot
    refine
      { gateDigest := ⟨_, hpassed.bindingDigest, ?_⟩
        recordDigest := ⟨_, hpassed.recordDigest, ?_⟩
        lockDigest := ⟨bytes, hbytes, ?_, ?_⟩
        window := hpassed.window
        snapshot := ⟨false, tree, _, hsnapshot, hdigest, ?_⟩
        shared := ?_ }
    · rw [get?_of_sameNames hpassed.gateKeys (by decide), hpassed.boundBinding]
    · rw [get?_of_sameNames hpassed.bindingKeys (by decide), hpassed.boundRecord]
    · rw [get?_of_sameNames hpassed.recordKeys (by decide), hrecordLock]
    · rw [get?_of_sameNames hpassed.bindingKeys (by decide), hbindingLock]
    · rw [get?_of_sameNames hpassed.bindingKeys (by decide), hpassed.source.2.2]
    · intro name hname
      by_cases huncompared : name ∈ uncomparedFields
      · exact hagree name huncompared
      · exact hpassed.agree_of_compared hname huncompared

end Coherence

end HostAuthorization

namespace HostAuthorizationWitness

open HostAuthorization
open ReceiptStore (pyEq agree)

/-- The time stamps of the documents below. -/
def isoTimes (text : String) : Option IsoTime :=
  if text = "2026-08-13T00:00:00.000+00:00" then some (.aware 1786579200000000)
  else if text = "2026-08-13T06:00:00.000+00:00" then
    some (.aware 1786600800000000)
  else none

/-- A dictionary from the members of a document; the last of a name stays. -/
def dictOf (members : List (String × Json)) : Dict String Json :=
  if hunique : (members.map Prod.fst).Nodup then ⟨members, hunique⟩
  else Dict.update Keyed.empty members

def loadsText (text : String) : Except ParseFailure (Option (Dict String Json)) :=
  match Json.parse text with
  | none => .error .decode
  | some (.obj members) => .ok (some (dictOf members))
  | some _ => .ok none

/-- The library over any two digests. -/
def library (digest : String → String) (sha256 : List UInt8 → String) :
    HostLibrary where
  codec := referenceCodec digest
  sha256 := sha256
  loads := loadsText
  fromIsoFormat := isoTimes

variable (digest : String → String) (sha256 : List UInt8 → String)

/-- The canonical digest of a document. -/
def digestOf (payload : Dict String Json) : String :=
  "sha256:" ++ digest (Json.obj (payload.rows.filter fun member =>
    member.1 != "content_hash")).canon.toText

theorem objectDigest_library (payload : Dict String Json) :
    objectDigest (library digest sha256) payload = .ok (digestOf digest payload) :=
  rfl

def snapshotTree : Tree := FingerprintWitness.lettered

def treeDigest : String := "sha256:" ++ sha256 (snapshotBytes snapshotTree)

def commit : String := "9cf24b876cc7422386ed54c277900ff1e3c2c2bf"

def otherCommit : String := "0123456789abcdef0123456789abcdef01234567"

def record : Dict String Json where
  rows :=
    [("schema_version", .int 1), ("planning_base_sha", .str commit),
      ("candidate_sha", .str commit),
      ("candidate_tree_digest", .str (treeDigest sha256)),
      ("integration_base_sha", .str commit),
      ("integration_candidate_sha", .str commit),
      ("integration_candidate_tree_digest", .str (treeDigest sha256)),
      ("source_tree_digest", .str (treeDigest sha256)),
      ("tool_lock_digest", .str ("sha256:" ++ sha256 [])),
      ("selected_platform", .str "linux-x64"),
      ("selected_tool_lock_entries", .arr []),
      ("custodian_origin", .str "git-custodian")]
  unique := by simp

/-- The binding of that record, issued for a planning base. -/
def binding (planningBase : String) : Dict String Json where
  rows :=
    [("schema_version", .int 1), ("planning_base_sha", .str planningBase),
      ("candidate_sha", .str commit),
      ("candidate_tree_digest", .str (treeDigest sha256)),
      ("integration_base_sha", .str commit),
      ("integration_candidate_sha", .str commit),
      ("integration_candidate_tree_digest", .str (treeDigest sha256)),
      ("source_tree_digest", .str (treeDigest sha256)),
      ("tool_lock_digest", .str ("sha256:" ++ sha256 [])),
      ("tool_record_digest", .str (digestOf digest (record sha256))),
      ("custodian_origin", .str "git-custodian"),
      ("run_id", .str "run_example_0001"),
      ("issued_at_utc", .str "2026-08-13T00:00:00.000Z"),
      ("expires_at_utc", .str "2026-08-13T06:00:00.000Z"),
      ("single_use_nonce", .str "bbbbbbbbbbbbbbbbbbbbbbbbbbbbbbbb")]
  unique := by simp

def gate (planningBase : String) : Dict String Json where
  rows :=
    [("schema_version", .int 1),
      ("run_binding_digest",
        .str (digestOf digest (binding digest sha256 planningBase)))]
  unique := by simp

/-- The file with the text of a document. -/
def fileOf (payload : Dict String Json) : FileAnswer :=
  .text (Json.obj payload.rows).toText

def view (planningBase : String) : HostView where
  candidateSha := commit
  sourceTreeDigest := treeDigest sha256
  toolLockIsFile := true
  toolRecord := fileOf (record sha256)
  runBinding := fileOf (binding digest sha256 planningBase)
  hostGate := fileOf (gate digest sha256 planningBase)
  toolLock := some []
  now := 1786579200000001
  gateOwner := .ownerOnly
  snapshot := .directory false snapshotTree

theorem loadObject_fileOf (payload : Dict String Json) :
    loadObject (library digest sha256) (fileOf payload) = .ok payload := by
  have hloads : (library digest sha256).loads (Json.obj payload.rows).toText =
      .ok (some payload) := by
    change loadsText _ = _
    rw [loadsText, Json.parse_toText]
    simp only [dictOf, payload.unique, ↓reduceDIte]
  simp only [loadObject, fileOf, hloads]

/-- Whatever the planning base of the binding is, every check passes. -/
theorem checks_view (planningBase : String) :
    checks (library digest sha256) (view digest sha256 planningBase) =
      .ok ⟨record sha256, binding digest sha256 planningBase,
        gate digest sha256 planningBase, digestOf digest (record sha256),
        digestOf digest (binding digest sha256 planningBase)⟩ := by
  simp only [checks, bind_eq_ok, require_eq_ok, requireExactKeys, requireOrigin,
    exists_const]
  refine ⟨rfl, _, loadObject_fileOf digest sha256 _, _,
    loadObject_fileOf digest sha256 _, _, loadObject_fileOf digest sha256 _, ?_⟩
  have hversion : pyEq (.int 1) (.int 1) = true := by
    simp [pyEq, ReceiptStore.number?]
  have hwindow : (!(decide ((1786579200000001 : Int) < 1786579200000000) ||
      decide ((1786579200000001 : Int) ≥ 1786600800000000))) = true := by
    decide
  refine ⟨rfl, ⟨rfl, hversion⟩, ⟨rfl, hversion⟩, ⟨rfl, hversion⟩,
    (pyEq_str _ _).mpr rfl, (pyEq_str _ _).mpr rfl, (), rfl, [], rfl,
    (pyEq_str _ _).mpr rfl, (pyEq_str _ _).mpr rfl, _,
    objectDigest_library digest sha256 _, (pyEq_str _ _).mpr rfl, _,
    objectDigest_library digest sha256 _, (pyEq_str _ _).mpr rfl,
    (pyEq_str _ _).mpr rfl, (pyEq_str _ _).mpr rfl, (pyEq_str _ _).mpr rfl,
    (pyEq_str _ _).mpr rfl, (pyEq_str _ _).mpr rfl, 1786579200000000, ?_,
    1786600800000000, ?_, hwindow, (), rfl, (), ?_, rfl⟩
  · rfl
  · rfl
  · change inspectSnapshot _ (.directory false snapshotTree)
      (.str (treeDigest sha256)) = _
    simp only [inspectSnapshot, bind_eq_ok, require_eq_ok, exists_const,
      snapshotTreeDigest]
    refine ⟨rfl, ?_, (pyEq_str _ _).mpr rfl⟩
    simp [Descriptor.truthy, treeDigest]

theorem accepted_view (planningBase : String) :
    Accepted (library digest sha256) (view digest sha256 planningBase) [] := by
  have hchecks := checks_view digest sha256 planningBase
  refine ⟨⟨record sha256, binding digest sha256 planningBase,
    gate digest sha256 planningBase, digestOf digest (record sha256),
    digestOf digest (binding digest sha256 planningBase)⟩, ?_⟩
  rw [validateAuthorization, hchecks]
  rfl

/-- The library that leaves canonical texts as they are. -/
def sampleLibrary : HostLibrary := library id FingerprintWitness.digests

def sampleView (planningBase : String) : HostView :=
  view id FingerprintWitness.digests planningBase

def sampleRecord : Dict String Json := record FingerprintWitness.digests

def sampleBinding (planningBase : String) : Dict String Json :=
  binding id FingerprintWitness.digests planningBase

def sampleGate (planningBase : String) : Dict String Json :=
  gate id FingerprintWitness.digests planningBase

/-- A binding for another planning base than the one of its record is
accepted. -/
theorem accepts_another_base :
    loadObject sampleLibrary (sampleView otherCommit).toolRecord =
        .ok sampleRecord ∧
      loadObject sampleLibrary (sampleView otherCommit).runBinding =
        .ok (sampleBinding otherCommit) ∧
      loadObject sampleLibrary (sampleView otherCommit).hostGate =
        .ok (sampleGate otherCommit) ∧
      Accepted sampleLibrary (sampleView otherCommit) [] ∧
      sampleRecord.get? "planning_base_sha" = some (.str commit) ∧
      (sampleBinding otherCommit).get? "planning_base_sha" =
        some (.str otherCommit) ∧
      ¬ Coherent sampleLibrary (sampleView otherCommit) sampleRecord
        (sampleBinding otherCommit) (sampleGate otherCommit) := by
  refine ⟨loadObject_fileOf _ _ _, loadObject_fileOf _ _ _, loadObject_fileOf _ _ _,
    accepted_view _ _ _, rfl, rfl, ?_⟩
  intro hcoherent
  have hagree : agree (some (.str commit)) (some (.str otherCommit)) = true :=
    hcoherent.shared "planning_base_sha" (by decide)
  simp [agree, pyEq, commit, otherCommit] at hagree

theorem coherent_for_its_base :
    Coherent sampleLibrary (sampleView commit) sampleRecord (sampleBinding commit)
        (sampleGate commit) ↔
      AgreeOn uncomparedFields sampleRecord (sampleBinding commit) :=
  accepted_coherent_iff sampleLibrary (sampleView commit) [] sampleRecord
    (sampleBinding commit) (sampleGate commit) (loadObject_fileOf _ _ _)
    (loadObject_fileOf _ _ _) (loadObject_fileOf _ _ _) (accepted_view _ _ _)

end HostAuthorizationWitness

end HermesPipeline
