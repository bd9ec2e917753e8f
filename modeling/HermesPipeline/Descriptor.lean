/-
The descriptor files of a state root: what a bridge writes into each of them
and what a new bridge reads back.
-/
import HermesPipeline.KernelBridge

namespace HermesPipeline

open Lib

/-- The descriptor files by name, each with the value it parses to; `none` for
a file that cannot be read or is no JSON. -/
abbrev Files := Dict String (Option Json)

/-- What a bridge keeps besides its rows: the bindings of the stage roles, the
repository, and the requirement texts. -/
structure Settings where
  bindings : Dict String (String × String)
  github : Dict String String
  requirements : Dict String String

def Settings.empty : Settings := ⟨.empty, .empty, .empty⟩

namespace Descriptor

/-- `_parse_json`, with whether it sets the `_corrupt` flag: a missing file is
an empty document, a file that holds no object spoils the bridge. -/
def parseJson (files : Files) (file : String) : Bool × List (String × Json) :=
  match files.get? file with
  | none => (false, [])
  | some (some (.obj members)) => (false, members)
  | some _ => (true, [])

/-- The fields of a row with their defaults. -/
def prdFields : List (String × String) :=
  [("prd_id", ""), ("prd_status", ""), ("prd_gate", "")]

def archFields : List (String × String) :=
  [("design_id", ""), ("testplan_id", ""), ("arch_status", ""), ("arch_gate", "")]

def devFields : List (String × String) :=
  [("impl_id", ""), ("candidate_sha", ""), ("candidate_path", ""),
    ("dev_status", ""), ("candidate_gate", ""), ("rework_attempts", "0")]

def verifyFields : List (String × String) :=
  [("verify_status", ""), ("e2e_id", ""), ("acceptance_id", ""),
    ("verify_attempts", "0"), ("infra_attempts", "0")]

def approvalFields : List (String × String) :=
  [("approval_status", ""), ("approver_id", ""), ("project_id", ""),
    ("prd_id", ""), ("design_id", ""), ("testplan_id", ""), ("designated_id", "")]

section Load

variable (str : Json → String)

/-- One loaded row: every field as a text, a missing one as its default. -/
def coerceRow (fields : List (String × String)) (row : List (String × Json)) :
    Dict String String :=
  rowOf (fields.map fun field =>
    (field.1, str ((Json.member? row field.1).getD (.str field.2))))

/-- `_load_prd`, `_load_arch` and the `_coerce_*` functions: entries that are
no objects are skipped. -/
def coerceRows (fields : List (String × String))
    (document : List (String × Json)) : Rows :=
  document.foldl
    (fun rows entry =>
      match entry.2 with
      | .obj row => rows.set entry.1 (coerceRow str fields row)
      | _ => rows)
    .empty

/-- `_load_requirements`: entries that are no texts are skipped. -/
def loadTexts (keep : String → Bool) (document : List (String × Json)) :
    Dict String String :=
  document.foldl
    (fun texts entry =>
      match entry.2 with
      | .str text => if keep text then texts.set entry.1 text else texts
      | _ => texts)
    .empty

/-- `BindingTable.load`. -/
def loadBindings (document : List (String × Json)) :
    Dict String (String × String) :=
  document.foldl
    (fun bindings entry =>
      match entry.2 with
      | .obj row =>
          let runtime := str ((Json.member? row "runtime").getD (.str ""))
          let model := str ((Json.member? row "model").getD (.str ""))
          if entry.1 ∈ ["planner", "executor", "reviewer", "e2e"] ∧
              runtime ∈ ["codex", "opencode", "fake", "claude", "cursor", "kiro",
                "grok"] ∧ model ≠ "" then
            bindings.set entry.1 (runtime, model)
          else bindings
      | _ => bindings)
    .empty

/-- `_load_github`. -/
def loadGithub (document : List (String × Json)) : Dict String String :=
  let repo := str ((Json.member? document "repo").getD (.str ""))
  if document.isEmpty ∨ repo.toList.count '/' ≠ 1 then .empty
  else rowOf [("repo", repo),
    ("base", str ((Json.member? document "base").getD (.str "main")))]

/-- `int(row.get("pr_number", 0) or 0)`; `none` stands for a raised error. -/
def loadNumber : Option Json → Option Int
  | some (.int n) => some n
  | some (.bool b) => some (if b then 1 else 0)
  | some (.float q) => some (q.num.tdiv q.den)
  | some (.str text) => if text = "" then some 0 else pyInt text
  | some .null => some 0
  | some (.arr []) => some 0
  | some (.obj []) => some 0
  | some _ => none
  | none => some 0

/-- `bool(value)`. -/
def truthy : Json → Bool
  | .null => false
  | .bool b => b
  | .int n => n ≠ 0
  | .float q => q.num ≠ 0
  | .str text => text ≠ ""
  | .arr items => !items.isEmpty
  | .obj members => !members.isEmpty

/-- One record of `FakeDelivery.load`. -/
def loadRecord (row : List (String × Json)) : Option DeliveryRecord :=
  let text (name : String) : String :=
    str ((Json.member? row name).getD (.str ""))
  (loadNumber (Json.member? row "pr_number")).map fun number =>
    { ok := truthy ((Json.member? row "ok").getD (.bool true))
      branch := text "branch"
      prNumber := number
      headSha := text "head_sha"
      checkStatus := text "check_status"
      reviewStatus := text "review_status"
      queueStatus := text "queue_status"
      prUrl := text "pr_url" }

/-- `FakeDelivery.load`. -/
def loadDelivery (document : List (String × Json)) : Option FakeDelivery := do
  let nextPr := match Json.member? document "next_pr" with
    | some (.int n) => if 1 ≤ n then n else 1
    | _ => 1
  let events := match Json.member? document "events" with
    | some (.arr items) => (items.map str).dedup
    | _ => []
  let records ← match Json.member? document "records" with
    | some (.obj rows) =>
        rows.foldlM
          (fun records entry =>
            match entry.2 with
            | .obj row => (loadRecord str row).map (Dict.set records entry.1)
            | _ => some records)
          (Keyed.empty : Dict String DeliveryRecord)
    | _ => some .empty
  return ⟨records, events, nextPr⟩

/-- The document of a file. -/
def documentOf (files : Files) (file : String) : List (String × Json) :=
  (parseJson files file).2

/-- Whether one of the files spoils a bridge that has read them. -/
def spoils (files : Files) (names : List String) : Bool :=
  names.any fun name => (parseJson files name).1

/-- The document of a file that is read last of these and only by a bridge
that none of them has spoiled. -/
def soundDocument (files : Files) (names : List String) (file : String) :
    List (String × Json) :=
  if spoils files (names ++ [file]) then [] else documentOf files file

/-- The files in the order in which the constructor reads them. -/
def filesBeforeStages : List String :=
  ["projects.json", "bindings.json", "delivery.json", "prd.json",
    "architecture.json", "development.json", "verify.json", "approvals.json"]

/-- `_apply_stage_bundle` for one station: its rows come from the bundle where
the file of the station is missing. -/
def bundled (files : Files) (file part : String)
    (fields : List (String × String)) : Rows :=
  match Json.member? (soundDocument files filesBeforeStages "stages.json") part,
      files.get? file with
  | some (.obj document), none => coerceRows str fields document
  | _, _ => coerceRows str fields (documentOf files file)

def loadPrd (files : Files) : Rows :=
  coerceRows str prdFields (documentOf files "prd.json")

def loadArch (files : Files) : Rows :=
  coerceRows str archFields (documentOf files "architecture.json")

def loadDev (files : Files) : Rows :=
  bundled str files "development.json" "development" devFields

def loadVerify (files : Files) : Rows :=
  bundled str files "verify.json" "verify" verifyFields

def loadApprovals (files : Files) : Rows :=
  bundled str files "approvals.json" "approvals" approvalFields

/-- The approvals are restored before and after the bundle is applied. -/
def loadApproval (files : Files) : SolutionApproval :=
  (SolutionApproval.empty.restore
    (coerceRows str approvalFields (documentOf files "approvals.json"))).restore
    (loadApprovals str files)

/-- `_load_feedback`: blank notes are dropped. -/
def loadFeedback (files : Files) : Dict String String :=
  loadTexts (fun text => pyStrip text ≠ "") (documentOf files "feedback.json")

/-- The constructor up to the import of the stations; `none` stands for a
raised error. -/
def load (files : Files) : Option Bridge := do
  let registry ← ProjectRegistry.load str (soundDocument files [] "projects.json")
  let delivery ← loadDelivery str (soundDocument files
    ["projects.json", "bindings.json"] "delivery.json")
  return {
    corrupt := spoils files (filesBeforeStages ++ ["stages.json", "github.json",
      "runtimes.json", "requirements.json", "feedback.json"])
    registry := registry
    approval := loadApproval str files
    delivery := delivery
    prd := loadPrd str files
    arch := loadArch str files
    dev := loadDev str files
    verify := loadVerify str files
    approvals := loadApprovals str files
    feedback := loadFeedback files }

/-- The bindings, the repository and the requirements of a new bridge. -/
def loadSettings (files : Files) : Settings where
  bindings := loadBindings str
    (soundDocument files ["projects.json"] "bindings.json")
  github := loadGithub str (soundDocument files
    (filesBeforeStages ++ ["stages.json"]) "github.json")
  requirements := loadTexts (fun _ => true) (documentOf files "requirements.json")

end Load

def dumpRows (rows : Rows) : Json :=
  .obj (rows.rows.map fun entry => (entry.1, Json.ofTexts entry.2.rows))

/-- `ProjectRegistry.dump`. -/
def dumpRegistry (registry : ProjectRegistry) : Json :=
  .obj [("projects", .arr (registry.projects.rows.map fun entry =>
      Json.ofTexts [("project_id", entry.1), ("name", entry.2)])),
    ("members", .arr (registry.members.rows.map fun entry =>
      Json.ofTexts [("project_id", entry.1.1), ("principal_id", entry.1.2),
        ("role", entry.2.value)]))]

/-- `_save_stages`. -/
def dumpStages (bridge : Bridge) : Json :=
  .obj [("approvals", dumpRows bridge.approvals),
    ("development", dumpRows bridge.dev), ("verify", dumpRows bridge.verify)]

/-- The document that `_write_json` puts into a file of the bridge.  Sorting
its keys changes only the text of the file. -/
def document (bridge : Bridge) (file : String) : Json :=
  if file = "projects.json" then dumpRegistry bridge.registry
  else if file = "delivery.json" then bridge.delivery.dump
  else if file = "prd.json" then dumpRows bridge.prd
  else if file = "architecture.json" then dumpRows bridge.arch
  else if file = "development.json" then dumpRows bridge.dev
  else if file = "verify.json" then dumpRows bridge.verify
  else if file = "approvals.json" then dumpRows bridge.approvals
  else if file = "stages.json" then dumpStages bridge
  else Json.ofTexts bridge.feedback.rows

/-- The document of a settings file. -/
def settingsDocument (settings : Settings) (file : String) : Json :=
  if file = "bindings.json" then
    .obj (settings.bindings.rows.map fun entry =>
      (entry.1, Json.ofTexts [("runtime", entry.2.1), ("model", entry.2.2)]))
  else if file = "github.json" then Json.ofTexts settings.github.rows
  else Json.ofTexts settings.requirements.rows

end Descriptor

end HermesPipeline
