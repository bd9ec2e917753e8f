/-
The two contracts with conditional rules.  The rules of a Phase Plan and of a
Review Verdict are written once as validators of the models and once as `if` and
`then` schemas beside the fields.
-/
import HermesPipeline.Authoring

namespace HermesPipeline

open Lib Lib.JsonSchema

namespace ConditionalContracts

def gitShaPattern : String := "^[0-9a-f]\x7b40\x7d([0-9a-f]\x7b24\x7d)?$"
def sha256Pattern : String := "^sha256:[0-9a-f]\x7b64\x7d$"
def riskIdPattern : String := "^R-[0-9]\x7b2,\x7d$"
def sliceIdPattern : String := "^slice-[0-9]\x7b2,\x7d-[0-9]\x7b2,\x7d$"
def ecPattern : String := "^EC-[0-9]\x7b2,\x7d-[0-9]\x7b2,\x7d$"
def adrPattern : String := "^ADR-[0-9]\x7b4\x7d$"
def phaseIdPattern : String := "^phase-[0-9]\x7b2,\x7d$"
def verdictIdPattern : String := "^review_[A-Za-z0-9_-]+$"
def findingIdPattern : String := "^F-[0-9]\x7b2,\x7d$"

/-- The patterns of the two contracts. -/
def patterns : List String :=
  [gitShaPattern, sha256Pattern, riskIdPattern, sliceIdPattern, ecPattern,
    adrPattern, phaseIdPattern, verdictIdPattern, findingIdPattern]

def definitionsId : String :=
  "https://schemas.hermes-pipeline.dev/common/definitions/v1"

def target (definition : String) : String :=
  definitionsId ++ "#/$defs/" ++ definition

open Authored

section Definitions

variable (engines : Engines)

/-- `EngineeringRisk`. -/
def engineeringRisk : Authored :=
  model "EngineeringRisk" "``engineeringRisk`` definition."
    [ { name := "risk_id", type := patterned engines riskIdPattern },
      { name := "description", type := bounded 1 none },
      { name := "impact", type := literal ["LOW", "MEDIUM", "HIGH", "CRITICAL"] },
      { name := "mitigation", type := bounded 1 none },
      { name := "trigger", type := bounded 1 none } ]

/-- The definitions that the two contracts refer to. -/
def definitionTypes : List (String × Authored) :=
  [ ("utcTimestamp", utcTimestamp engines),
    ("gitSha", patterned engines gitShaPattern),
    ("sha256", patterned engines sha256Pattern),
    ("engineeringRisk", engineeringRisk engines) ]

/-- What the registry of committed schemas finds under a reference.  The
definitions here refer to nothing themselves. -/
def resolve (reference : String) (value : Json) : Bool :=
  match (definitionTypes engines).find? fun entry => target entry.1 = reference with
  | some (_, definition) =>
      (normalizeSchema false definition.schema).accepts
        (engines.draft fun _ _ => false) value
  | none => false

/-- The validator of the committed schemas. -/
def validator : Draft := engines.draft (resolve engines)

def utcTimestampRef : Authored :=
  reference (target "utcTimestamp") (utcTimestamp engines)

def gitShaRef : Authored :=
  reference (target "gitSha") (patterned engines gitShaPattern)

def sha256Ref : Authored :=
  reference (target "sha256") (patterned engines sha256Pattern)

def engineeringRiskRef : Authored :=
  reference (target "engineeringRisk") (engineeringRisk engines)

/-- `AllowedVerdicts`. -/
def allowedVerdicts : Authored where
  validate value :=
    match value with
    | .arr items => items.all text.validate &&
        items.filterMap Json.text? = ["PASS", "REWORK", "BLOCKED_CONTRACT"]
    | _ => false
  schema := .check (.const (.arr
    [.str "PASS", .str "REWORK", .str "BLOCKED_CONTRACT"])) .empty

def sliceItem : Authored :=
  model "SliceItem" "One ``slices`` entry of a Phase Plan."
    [ { name := "slice_id", type := patterned engines sliceIdPattern },
      { name := "title", type := bounded 1 none },
      { name := "depends_on", type := uniqueOf (patterned engines sliceIdPattern) },
      { name := "owns_exit_criteria", type := uniqueOf (patterned engines ecPattern) },
      { name := "demonstration", type := bounded 1 none } ]

def acceptanceDimensions : Authored :=
  model "AcceptanceDimensions"
    "The five required acceptance dimensions of a Phase Plan."
    [ { name := "testing", type := listOf (bounded 1 none) 1 },
      { name := "migration", type := listOf (bounded 1 none) 1 },
      { name := "security", type := listOf (bounded 1 none) 1 },
      { name := "documentation", type := listOf (bounded 1 none) 1 },
      { name := "demonstration", type := listOf (bounded 1 none) 1 } ]

def exitCriterion : Authored :=
  model "ExitCriterion" "One ``exit_criteria`` entry of a Phase Plan."
    [ { name := "criterion_id", type := patterned engines ecPattern },
      { name := "observable_result", type := bounded 1 none },
      { name := "owner_slice_ids",
        type := uniqueOf (patterned engines sliceIdPattern) 1 } ]

def phaseGate : Authored :=
  model "PhaseGate" "The immutable Phase Gate configuration."
    [ { name := "reviewer_role",
        type := literal ["CODEX_PLANNER_DESIGNER_REVIEWER"] },
      { name := "required_evidence", type := uniqueOf (bounded 1 none) 1 },
      { name := "allowed_verdicts", type := allowedVerdicts } ]

def humanApprovalFields : List Field :=
  [ { name := "required", type := boolean },
    { name := "status",
      type := literal ["NOT_REQUIRED", "PENDING", "APPROVED", "REJECTED"] },
    { name := "attestation_id", type := text, required := false } ]

def humanApproval : Authored :=
  model "HumanApproval" "Human approval record inside a Phase Plan."
    humanApprovalFields

def axisVerdict : Authored := literal ["PASS", "FAIL", "BLOCKED"]

def axesFields : List Field :=
  [ { name := "spec", type := axisVerdict },
    { name := "standards", type := axisVerdict },
    { name := "evidence", type := axisVerdict },
    { name := "scope_safety", type := axisVerdict } ]

def axes : Authored :=
  model "Axes" "The four review axes of a Review Verdict." axesFields

def finding : Authored :=
  model "Finding" "One review finding."
    [ { name := "finding_id", type := patterned engines findingIdPattern },
      { name := "severity", type := literal ["BLOCKER", "MAJOR", "MINOR"] },
      { name := "axis",
        type := literal ["SPEC", "STANDARDS", "EVIDENCE", "SCOPE_SAFETY"] },
      { name := "evidence", type := bounded 1 none },
      { name := "requirement_ref", type := bounded 1 none },
      { name := "required_correction", type := bounded 1 none } ]

end Definitions

/-- The text under a name of a validated model. -/
def textOf (self : List (String × Json)) (name : String) : String :=
  match Json.member? self name with
  | some (.str text) => text
  | _ => ""

def boolOf (self : List (String × Json)) (name : String) : Bool :=
  match Json.member? self name with
  | some (.bool value) => value
  | _ => false

def objectOf (self : List (String × Json)) (name : String) :
    List (String × Json) :=
  match Json.member? self name with
  | some (.obj members) => members
  | _ => []

def itemsOf (self : List (String × Json)) (name : String) : List Json :=
  match Json.member? self name with
  | some (.arr items) => items
  | _ => []

/-- `model_validate` of a model with a validator that runs after its fields. -/
def validateModel (fields : List Field) (rule : List (String × Json) → Bool)
    (document : Json) : Bool :=
  validateFields fields document &&
    match document with
    | .obj self => rule self
    | _ => false

namespace PhasePlan

variable (engines : Engines)

def fields : List Field :=
  [ { name := "schema_id", type := literal
        ["https://schemas.hermes-pipeline.dev/engineering/phase-plan/v1"] },
    { name := "schema_version", type := fixedV1Integer },
    { name := "document_revision", type := integralInt 1 },
    { name := "phase_id", type := patterned engines phaseIdPattern },
    { name := "title", type := bounded 1 (some 160) },
    { name := "status", type := literal
        ["DRAFT", "APPROVED", "EXECUTING", "REVIEWING", "COMPLETE", "BLOCKED"] },
    { name := "owner", type := bounded 1 (some 128) },
    { name := "base_sha", type := gitShaRef engines },
    { name := "outcome", type := bounded 1 none },
    { name := "prerequisites", type := uniqueOf (bounded 1 none) 1 },
    { name := "accepted_adrs", type := uniqueOf (patterned engines adrPattern) },
    { name := "module_boundaries", type := uniqueOf (bounded 1 none) 1 },
    { name := "slices", type := listOf (sliceItem engines) 1 },
    { name := "invariants", type := listOf (bounded 1 none) 1 },
    { name := "acceptance_dimensions", type := acceptanceDimensions },
    { name := "exit_criteria", type := listOf (exitCriterion engines) 1 },
    { name := "exclusions", type := listOf text },
    { name := "risks", type := listOf (engineeringRiskRef engines) 1 },
    { name := "stop_conditions", type := listOf (bounded 1 none) 1 },
    { name := "phase_gate", type := phaseGate },
    { name := "human_approval", type := humanApproval },
    { name := "content_hash", type := sha256Ref engines } ]

/-- The statuses of a phase that was approved. -/
def approvedStatuses : List String :=
  ["APPROVED", "EXECUTING", "REVIEWING", "COMPLETE"]

/-- `json_schema_extra`. -/
def extra : Schema :=
  .allOf
    (.ifThen
      (.property "status"
        (.check (.enum (approvedStatuses.map Json.str)) .empty) .empty)
      (.property "human_approval"
        (.check (.required ["attestation_id"])
          (.property "required" (.check (.const (.bool true)) .empty)
            (.property "status" (.check (.const (.str "APPROVED")) .empty) .empty)))
        .empty)
      .empty)
    .empty

/-- `_approval_conditional`. -/
def approvalConditional (self : List (String × Json)) : Bool :=
  if approvedStatuses.contains (textOf self "status") then
    let approval := objectOf self "human_approval"
    if !boolOf approval "required" || textOf approval "status" ≠ "APPROVED" then false
    else (Json.member? approval "attestation_id").isSome
  else true

/-- `PhasePlan.model_validate`. -/
def modelValidate (document : Json) : Bool :=
  validateModel (fields engines) approvalConditional document

/-- The schema that is committed for the model. -/
def schema : Schema :=
  normalizeSchema true (fieldsSchema "Engineering Phase Plan"
    "``engineering/phase-plan/v1`` — Engineering Phase Plan." (fields engines) extra)

end PhasePlan

namespace ReviewVerdict

variable (engines : Engines)

def fields : List Field :=
  [ { name := "schema_id", type := literal
        ["https://schemas.hermes-pipeline.dev/engineering/review-verdict/v1"] },
    { name := "schema_version", type := fixedV1Integer },
    { name := "verdict_id", type := patterned engines verdictIdPattern },
    { name := "slice_id", type := text },
    { name := "contract_revision", type := integralInt 1 },
    { name := "review_attempt", type := integralInt 1 },
    { name := "base_sha", type := gitShaRef engines },
    { name := "candidate_sha", type := gitShaRef engines },
    { name := "context_manifest_hash", type := sha256Ref engines },
    { name := "evidence_bundle_hash", type := sha256Ref engines },
    { name := "verdict", type := literal ["PASS", "REWORK", "BLOCKED_CONTRACT"] },
    { name := "axes", type := axes },
    { name := "findings", type := listOf (finding engines) },
    { name := "reviewed_at", type := utcTimestampRef engines },
    { name := "content_hash", type := sha256Ref engines } ]

def axisNames : List String := ["spec", "standards", "evidence", "scope_safety"]

def passes : Schema := .check (.const (.str "PASS")) .empty

/-- `json_schema_extra`. -/
def extra : Schema :=
  .allOf
    (.ifThen (.property "verdict" (.check (.const (.str "PASS")) .empty) .empty)
      (.property "findings" (.check (.maxItems 0) .empty)
        (.property "axes"
          (.withProperties (axisNames.map fun axis => (axis, passes)) .empty)
          .empty))
      .empty)
    (.allOf
      (.ifThen
        (.property "verdict"
          (.check (.enum [.str "REWORK", .str "BLOCKED_CONTRACT"]) .empty) .empty)
        (.property "findings" (.check (.minItems 1) .empty) .empty)
        .empty)
      .empty)

/-- `_verdict_conditionals`. -/
def verdictConditionals (self : List (String × Json)) : Bool :=
  if textOf self "verdict" = "PASS" then
    (itemsOf self "findings").isEmpty &&
      !axisNames.any fun axis => textOf (objectOf self "axes") axis ≠ "PASS"
  else !(itemsOf self "findings").isEmpty

/-- `ReviewVerdict.model_validate`. -/
def modelValidate (document : Json) : Bool :=
  validateModel (fields engines) verdictConditionals document

/-- The schema that is committed for the model. -/
def schema : Schema :=
  normalizeSchema true (fieldsSchema "Engineering Review Verdict"
    "``engineering/review-verdict/v1`` — Engineering Review Verdict."
    (fields engines) extra)

end ReviewVerdict

section Sound

variable (engines : Engines)

theorem patterned_texts (pattern : String) (value : Json)
    (hvalid : (patterned engines pattern).validate value = true) :
    ∃ text, value = .str text := by
  cases value with
  | str text => exact ⟨text, rfl⟩
  | _ => cases hvalid

theorem bounded_texts (minLength : Nat) (maxLength : Option Nat) (value : Json)
    (hvalid : (bounded minLength maxLength).validate value = true) :
    ∃ text, value = .str text := by
  cases value with
  | str text => exact ⟨text, rfl⟩
  | _ => cases hvalid

theorem engineeringRisk_sound (resolve : String → Json → Bool) :
    (engineeringRisk engines).Sound engines patterns resolve := by
  apply model_sound
  simp only [List.forall_mem_cons]
  exact ⟨patterned_sound engines resolve (by simp [patterns]),
    bounded_sound engines patterns resolve 1 none,
    literal_sound engines patterns resolve _,
    bounded_sound engines patterns resolve 1 none,
    bounded_sound engines patterns resolve 1 none, List.forall_mem_nil _⟩

/-- Every definition is sound, whatever its references find. -/
theorem definition_sound (resolve : String → Json → Bool) :
    ∀ entry ∈ definitionTypes engines,
      entry.2.Sound engines patterns resolve := by
  simp only [definitionTypes, List.forall_mem_cons]
  exact ⟨utcTimestamp_sound engines patterns resolve,
    patterned_sound engines resolve (by simp [patterns]),
    patterned_sound engines resolve (by simp [patterns]),
    engineeringRisk_sound engines resolve, List.forall_mem_nil _⟩

theorem target_injective : Function.Injective target := by
  intro left right hsame
  exact (String.append_right_inj _).mp hsame

/-- A reference to a definition is sound. -/
theorem definitionRef_sound {name : String} {definition : Authored}
    (hfound : (definitionTypes engines).find? (fun entry => entry.1 = name) =
      some (name, definition)) :
    (reference (target name) definition).Sound engines patterns
      (resolve engines) := by
  apply reference_sound
  intro value halike
  have hresolve : (definitionTypes engines).find?
      (fun entry => target entry.1 = target name) = some (name, definition) := by
    simpa only [target_injective.eq_iff] using hfound
  rw [resolve, hresolve]
  exact definition_sound engines _ _ (List.mem_of_find?_eq_some hfound) value halike

theorem gitShaRef_sound : (gitShaRef engines).Sound engines patterns
    (resolve engines) :=
  definitionRef_sound engines rfl

theorem sha256Ref_sound : (sha256Ref engines).Sound engines patterns
    (resolve engines) :=
  definitionRef_sound engines rfl

theorem utcTimestampRef_sound : (utcTimestampRef engines).Sound engines patterns
    (resolve engines) :=
  definitionRef_sound engines rfl

theorem engineeringRiskRef_sound : (engineeringRiskRef engines).Sound engines
    patterns (resolve engines) :=
  definitionRef_sound engines rfl

/-- A list equals a list of texts when its items are these texts. -/
theorem equalItems_texts (texts : List String) (items : List Json) :
    Json.equalItems (texts.map Json.str) items =
      (items.all text.validate && items.filterMap Json.text? = texts) := by
  induction texts generalizing items with
  | nil =>
      cases items with
      | nil => rfl
      | cons item rest =>
          cases item with
          | str found => simp [Json.equalItems, Json.text?]
          | _ => rfl
  | cons text rest ih =>
      cases items with
      | nil => rfl
      | cons item others =>
          cases item with
          | str found =>
              have htext : Authored.text.validate (.str found) = true := rfl
              have hequal : (Json.str text).equal (.str found) = (text == found) := rfl
              rw [List.map_cons, Json.equalItems, hequal, ih, List.all_cons, htext,
                Bool.true_and]
              by_cases hsame : text = found
              · subst hsame
                simp [Json.text?]
              · simp [Json.text?, hsame, Ne.symm hsame]
          | _ => rfl

theorem allowedVerdicts_sound (resolve : String → Json → Bool) :
    allowedVerdicts.Sound engines patterns resolve := by
  intro value _
  cases value with
  | arr items =>
      change (Json.equalItems (["PASS", "REWORK", "BLOCKED_CONTRACT"].map Json.str)
        items && true) = _
      rw [Bool.and_true, equalItems_texts]
      rfl
  | _ => rfl

section Models

variable (resolve : String → Json → Bool)

theorem sliceItem_sound :
    (sliceItem engines).Sound engines patterns resolve := by
  apply model_sound
  simp only [List.forall_mem_cons]
  exact ⟨patterned_sound engines resolve (by simp [patterns]),
    bounded_sound engines patterns resolve 1 none,
    uniqueOf_sound (patterned_sound engines resolve (by simp [patterns]))
      (patterned_texts engines _) 0,
    uniqueOf_sound (patterned_sound engines resolve (by simp [patterns]))
      (patterned_texts engines _) 0,
    bounded_sound engines patterns resolve 1 none, List.forall_mem_nil _⟩

theorem acceptanceDimensions_sound :
    acceptanceDimensions.Sound engines patterns resolve := by
  have hlist : (listOf (bounded 1 none) 1).Sound engines patterns resolve :=
    listOf_sound (bounded_sound engines patterns resolve 1 none) 1
  apply model_sound
  simp only [List.forall_mem_cons]
  exact ⟨hlist, hlist, hlist, hlist, hlist, List.forall_mem_nil _⟩

theorem exitCriterion_sound :
    (exitCriterion engines).Sound engines patterns resolve := by
  apply model_sound
  simp only [List.forall_mem_cons]
  exact ⟨patterned_sound engines resolve (by simp [patterns]),
    bounded_sound engines patterns resolve 1 none,
    uniqueOf_sound (patterned_sound engines resolve (by simp [patterns]))
      (patterned_texts engines _) 1, List.forall_mem_nil _⟩

theorem phaseGate_sound : phaseGate.Sound engines patterns resolve := by
  apply model_sound
  simp only [List.forall_mem_cons]
  exact ⟨literal_sound engines patterns resolve _,
    uniqueOf_sound (bounded_sound engines patterns resolve 1 none)
      (bounded_texts 1 none) 1,
    allowedVerdicts_sound engines resolve, List.forall_mem_nil _⟩

theorem humanApproval_sound : humanApproval.Sound engines patterns resolve := by
  apply model_sound
  simp only [humanApprovalFields, List.forall_mem_cons]
  exact ⟨boolean_sound engines patterns resolve,
    literal_sound engines patterns resolve _, text_sound engines patterns resolve,
    List.forall_mem_nil _⟩

theorem axes_sound : axes.Sound engines patterns resolve := by
  have haxis : axisVerdict.Sound engines patterns resolve :=
    literal_sound engines patterns resolve _
  apply model_sound
  simp only [axesFields, List.forall_mem_cons]
  exact ⟨haxis, haxis, haxis, haxis, List.forall_mem_nil _⟩

theorem finding_sound : (finding engines).Sound engines patterns resolve := by
  apply model_sound
  simp only [List.forall_mem_cons]
  exact ⟨patterned_sound engines resolve (by simp [patterns]),
    literal_sound engines patterns resolve _,
    literal_sound engines patterns resolve _,
    bounded_sound engines patterns resolve 1 none,
    bounded_sound engines patterns resolve 1 none,
    bounded_sound engines patterns resolve 1 none, List.forall_mem_nil _⟩

end Models

theorem PhasePlan.fields_sound : ∀ field ∈ PhasePlan.fields engines,
    field.type.Sound engines patterns (resolve engines) := by
  have hbounded : ∀ most,
      (bounded 1 most).Sound engines patterns (resolve engines) :=
    bounded_sound engines patterns _ 1
  simp only [PhasePlan.fields, List.forall_mem_cons]
  exact ⟨literal_sound engines patterns _ _,
    fixedV1Integer_sound engines patterns _,
    integralInt_sound engines patterns _ 1,
    patterned_sound engines _ (by simp [patterns]),
    hbounded (some 160),
    literal_sound engines patterns _ _,
    hbounded (some 128),
    gitShaRef_sound engines,
    hbounded none,
    uniqueOf_sound (hbounded none) (bounded_texts 1 none) 1,
    uniqueOf_sound (patterned_sound engines _ (by simp [patterns]))
      (patterned_texts engines _) 0,
    uniqueOf_sound (hbounded none) (bounded_texts 1 none) 1,
    listOf_sound (sliceItem_sound engines _) 1,
    listOf_sound (hbounded none) 1,
    acceptanceDimensions_sound engines _,
    listOf_sound (exitCriterion_sound engines _) 1,
    listOf_sound (text_sound engines patterns _) 0,
    listOf_sound (engineeringRiskRef_sound engines) 1,
    listOf_sound (hbounded none) 1,
    phaseGate_sound engines _,
    humanApproval_sound engines _,
    sha256Ref_sound engines, List.forall_mem_nil _⟩

theorem ReviewVerdict.fields_sound : ∀ field ∈ ReviewVerdict.fields engines,
    field.type.Sound engines patterns (resolve engines) := by
  simp only [ReviewVerdict.fields, List.forall_mem_cons]
  exact ⟨literal_sound engines patterns _ _,
    fixedV1Integer_sound engines patterns _,
    patterned_sound engines _ (by simp [patterns]),
    text_sound engines patterns _,
    integralInt_sound engines patterns _ 1,
    integralInt_sound engines patterns _ 1,
    gitShaRef_sound engines,
    gitShaRef_sound engines,
    sha256Ref_sound engines,
    sha256Ref_sound engines,
    literal_sound engines patterns _ _,
    axes_sound engines _,
    listOf_sound (finding_sound engines _) 0,
    utcTimestampRef_sound engines,
    sha256Ref_sound engines, List.forall_mem_nil _⟩

end Sound

section Rules

variable {members : List (String × Json)}

/-- A validated model has its required fields. -/
theorem found_of_validateFields {fields : List Field} (name : String)
    (type : Authored) (hvalid : validateFields fields (.obj members) = true)
    (hfield : (⟨name, type, true⟩ : Field) ∈ fields) :
    ∃ found, Json.member? members name = some found ∧ type.validate found = true := by
  have hadmits := (Bool.and_eq_true_iff.mp hvalid).2
  obtain ⟨hvalues, hnames⟩ := all_admits_iff.mp hadmits
  obtain ⟨found, hfound⟩ := Option.isSome_iff_exists.mp (hnames _ hfield rfl)
  exact ⟨found, hfound, hvalues _ hfield found hfound⟩

theorem literal_cases {values : List String} {value : Json}
    (hvalid : (literal values).validate value = true) :
    ∃ text ∈ values, value = .str text := by
  cases value with
  | str text => exact ⟨text, by simpa [literal] using hvalid, rfl⟩
  | _ => cases hvalid

theorem boolean_cases {value : Json} (hvalid : boolean.validate value = true) :
    ∃ found, value = .bool found := by
  cases value with
  | bool found => exact ⟨found, rfl⟩
  | _ => cases hvalid

theorem model_cases {title description : String} {fields : List Field} {value : Json}
    (hvalid : (model title description fields).validate value = true) :
    ∃ self, value = .obj self ∧ validateFields fields (.obj self) = true := by
  cases value with
  | obj self => exact ⟨self, rfl, hvalid⟩
  | _ => cases hvalid

theorem listOf_cases {type : Authored} {minLength : Nat} {value : Json}
    (hvalid : (listOf type minLength).validate value = true) :
    ∃ items, value = .arr items := by
  cases value with
  | arr items => exact ⟨items, rfl⟩
  | _ => cases hvalid

variable (draft : Draft)

/-- A schema for one property looks at the value of that property. -/
theorem holds_property {names : List String} {name : String} {child rest : Schema}
    {found : Json} (hfound : Json.member? members name = some found) :
    (Schema.property name child rest).holds draft names (.obj members) =
      (child.accepts draft found && rest.holds draft names (.obj members)) := by
  rw [Schema.holds, hfound]
  rfl

/-- A schema for one property alone. -/
theorem accepts_property {name : String} {child : Schema} {found : Json}
    (hfound : Json.member? members name = some found) :
    (Schema.property name child .empty).accepts draft (.obj members) =
      child.accepts draft found := by
  rw [Schema.accepts, holds_property draft hfound]
  exact Bool.and_true _

theorem accepts_ifThen (test consequence : Schema) (value : Json) :
    (Schema.ifThen test consequence .empty).accepts draft value =
      (!test.accepts draft value || consequence.accepts draft value) :=
  Bool.and_true _

theorem holds_allOf (names : List String) (part rest : Schema) (value : Json) :
    (Schema.allOf part rest).holds draft names value =
      (part.accepts draft value && rest.holds draft names value) :=
  rfl

theorem accepts_const (expected value : Json) :
    (Schema.check (.const expected) .empty).accepts draft value =
      expected.equal value :=
  Bool.and_true _

theorem accepts_enum (values : List String) (found : String) :
    (Schema.check (.enum (values.map Json.str)) .empty).accepts draft (.str found) =
      values.contains found := by
  have hany := any_literal values (.str found)
  change ((values.map Json.str).any (fun expected => expected.equal (.str found)) &&
    true) = _
  rw [Bool.and_true, hany]
  rfl

/-- The validator of a Phase Plan is the rule beside its fields. -/
theorem PhasePlan.rule_eq (names : List String) (engines : Engines)
    (hvalid : validateFields (PhasePlan.fields engines) (.obj members) = true) :
    PhasePlan.extra.holds draft names (.obj members) =
      PhasePlan.approvalConditional members := by
  obtain ⟨_, hstatus, hliteral⟩ := found_of_validateFields "status" (literal
    ["DRAFT", "APPROVED", "EXECUTING", "REVIEWING", "COMPLETE", "BLOCKED"]) hvalid
    (by simp [PhasePlan.fields])
  obtain ⟨status, -, rfl⟩ := literal_cases hliteral
  obtain ⟨_, happroval, hmodel⟩ := found_of_validateFields "human_approval"
    humanApproval hvalid (by simp [PhasePlan.fields])
  obtain ⟨approval, rfl, hfields⟩ := model_cases hmodel
  obtain ⟨_, hrequired, hboolean⟩ := found_of_validateFields "required" boolean
    hfields (by simp [humanApprovalFields])
  obtain ⟨required, rfl⟩ := boolean_cases hboolean
  obtain ⟨_, happroved, hliteral'⟩ := found_of_validateFields "status"
    (literal ["NOT_REQUIRED", "PENDING", "APPROVED", "REJECTED"]) hfields
    (by simp [humanApprovalFields])
  obtain ⟨approved, -, rfl⟩ := literal_cases hliteral'
  have hconsequence : (Schema.check (.required ["attestation_id"])
      (.property "required" (.check (.const (.bool true)) .empty)
        (.property "status" (.check (.const (.str "APPROVED")) .empty)
          .empty))).accepts draft (.obj approval) =
      ((Json.member? approval "attestation_id").isSome &&
        (required && approved == "APPROVED")) := by
    rw [Schema.accepts, Schema.holds, holds_property draft hrequired,
      holds_property draft happroved, accepts_const, accepts_const]
    change ((Json.member? approval "attestation_id").isSome && true &&
      ((true == required) && (("APPROVED" == approved) && true))) = _
    rw [Bool.and_true, Bool.and_true, Bool.beq_comm (a := "APPROVED")]
    cases required <;> rfl
  have hrule : PhasePlan.extra.holds draft names (.obj members) =
      (!PhasePlan.approvedStatuses.contains status ||
        ((Json.member? approval "attestation_id").isSome &&
          (required && approved == "APPROVED"))) := by
    rw [PhasePlan.extra, holds_allOf, accepts_ifThen, accepts_property draft hstatus,
      accepts_property draft happroval, accepts_enum, hconsequence]
    exact Bool.and_true _
  rw [hrule, PhasePlan.approvalConditional]
  simp only [textOf, objectOf, boolOf, hstatus, happroval, hrequired, happroved]
  cases PhasePlan.approvedStatuses.contains status with
  | false => rfl
  | true =>
      cases required with
      | false => simp
      | true =>
          by_cases hsame : approved = "APPROVED"
          · simp [hsame]
          · simp [hsame]

/-- The axes of a review are those that its rules name. -/
theorem axes_found {self : List (String × Json)}
    (hvalid : validateFields axesFields (.obj self) = true) :
    ∀ axis ∈ ReviewVerdict.axisNames, ∃ found,
      Json.member? self axis = some (.str found) := by
  intro axis haxis
  have hfield : (⟨axis, axisVerdict, true⟩ : Field) ∈ axesFields := by
    simp only [ReviewVerdict.axisNames, List.mem_cons, List.not_mem_nil,
      or_false] at haxis
    rcases haxis with rfl | rfl | rfl | rfl
    · exact .head _
    · exact .tail _ (.head _)
    · exact .tail _ (.tail _ (.head _))
    · exact .tail _ (.tail _ (.tail _ (.head _)))
  obtain ⟨_, hfound, hliteral⟩ := found_of_validateFields axis axisVerdict hvalid hfield
  obtain ⟨found, -, rfl⟩ := literal_cases hliteral
  exact ⟨found, hfound⟩

theorem accepts_axes {self : List (String × Json)}
    (hvalid : validateFields axesFields (.obj self) = true) :
    (Schema.withProperties (ReviewVerdict.axisNames.map fun axis =>
        (axis, ReviewVerdict.passes)) .empty).accepts draft (.obj self) =
      !ReviewVerdict.axisNames.any fun axis => textOf self axis ≠ "PASS" := by
  rw [Schema.accepts, Schema.holds_withProperties, Schema.holds, Bool.and_true,
    List.all_map, Bool.eq_iff_iff, List.all_eq_true, Bool.not_eq_true',
    List.any_eq_false]
  refine forall₂_congr fun axis haxis => ?_
  obtain ⟨found, hfound⟩ := axes_found hvalid axis haxis
  have htext : textOf self axis = found := by rw [textOf, hfound]
  rw [Function.comp_apply, Schema.propertyHolds, hfound, htext]
  simp only [ReviewVerdict.passes, accepts_const, Json.equal, beq_iff_eq,
    decide_eq_true_eq, not_not]
  exact eq_comm

/-- The validator of a Review Verdict is the rules beside its fields. -/
theorem ReviewVerdict.rule_eq (names : List String) (engines : Engines)
    (hvalid : validateFields (ReviewVerdict.fields engines) (.obj members) = true) :
    ReviewVerdict.extra.holds draft names (.obj members) =
      ReviewVerdict.verdictConditionals members := by
  obtain ⟨_, hverdict, hliteral⟩ := found_of_validateFields "verdict"
    (literal ["PASS", "REWORK", "BLOCKED_CONTRACT"]) hvalid
    (by simp [ReviewVerdict.fields])
  obtain ⟨verdict, hmember, rfl⟩ := literal_cases hliteral
  obtain ⟨_, haxes, hmodel⟩ := found_of_validateFields "axes" axes hvalid
    (by simp [ReviewVerdict.fields])
  obtain ⟨self, rfl, hfields⟩ := model_cases hmodel
  obtain ⟨_, hfindings, hlist⟩ := found_of_validateFields "findings"
    (listOf (finding engines)) hvalid (by simp [ReviewVerdict.fields])
  obtain ⟨findings, rfl⟩ := listOf_cases hlist
  have hnone : (Schema.check (.maxItems 0) .empty).accepts draft (.arr findings) =
      findings.isEmpty := by
    cases findings <;> rfl
  have hsome : (Schema.check (.minItems 1) .empty).accepts draft (.arr findings) =
      !findings.isEmpty := by
    cases findings with
    | nil => rfl
    | cons _ _ => simp [Schema.accepts, Schema.holds, Assertion.holds]
  have hrule : ReviewVerdict.extra.holds draft names (.obj members) =
      ((!(("PASS" == verdict)) || (findings.isEmpty &&
          !ReviewVerdict.axisNames.any fun axis => textOf self axis ≠ "PASS")) &&
        (!(["REWORK", "BLOCKED_CONTRACT"].contains verdict) || !findings.isEmpty)) := by
    have henum := accepts_enum draft ["REWORK", "BLOCKED_CONTRACT"] verdict
    rw [List.map_cons, List.map_cons, List.map_nil] at henum
    have hpass : (Schema.property "findings" (.check (.maxItems 0) .empty)
        (.property "axes"
          (.withProperties (ReviewVerdict.axisNames.map fun axis =>
            (axis, ReviewVerdict.passes)) .empty) .empty)).accepts draft
          (.obj members) =
        (findings.isEmpty &&
          !ReviewVerdict.axisNames.any fun axis => textOf self axis ≠ "PASS") := by
      rw [Schema.accepts, holds_property draft hfindings, holds_property draft haxes,
        hnone, accepts_axes draft hfields, Schema.holds, Bool.and_true]
    rw [ReviewVerdict.extra, holds_allOf, holds_allOf, accepts_ifThen, accepts_ifThen,
      accepts_property draft hverdict, accepts_property draft hverdict,
      accepts_property draft hfindings, accepts_const, henum, hsome, hpass]
    simp only [Schema.holds, Bool.and_true, Json.equal]
  have htext : textOf members "verdict" = verdict := by rw [textOf, hverdict]
  have hself : objectOf members "axes" = self := by rw [objectOf, haxes]
  have hitems : itemsOf members "findings" = findings := by rw [itemsOf, hfindings]
  rw [hrule, ReviewVerdict.verdictConditionals, htext, hself, hitems]
  simp only [List.mem_cons, List.not_mem_nil, or_false] at hmember
  rcases hmember with rfl | rfl | rfl
  · simp
  · simp
  · simp

end Rules

section Contracts

variable {engines : Engines} {document : Json}

/-- A model with rules and its projection agree, once the rules do. -/
theorem contract_agrees {title description : String} {fields : List Field}
    {extra : Schema} {rule : List (String × Json) → Bool}
    (hfields : ∀ field ∈ fields,
      field.type.Sound engines patterns (resolve engines))
    (hplain : Plain (normalizeParts extra))
    (hkept : tidyNode true (normalizeParts extra) = extra)
    (hdeclared : extra.declared = [])
    (hrule : ∀ names members, validateFields fields (.obj members) = true →
      extra.holds (validator engines) names (.obj members) = rule members)
    (hleaves : ∀ text, Json.Within (.str text) document →
      engines.Alike patterns text) :
    validateModel fields rule document =
      (normalizeSchema true (fieldsSchema title description fields extra)).accepts
        (validator engines) document := by
  cases document with
  | obj members =>
      have hagree : ∀ field ∈ fields, ∀ found,
          Json.member? members field.name = some found →
            field.type.Agrees (validator engines) found := by
        intro field hfield found hfound
        exact hfields field hfield found fun text hpart =>
          hleaves text (.member (Json.mem_of_member? hfound) hpart)
      rw [accepts_fieldsSchema true title description hplain
        (by rw [hkept, hdeclared]) hagree, hkept, validateModel]
      cases hvalid : validateFields fields (.obj members) with
      | false => rfl
      | true => rw [hrule _ members hvalid]
  | _ =>
      rw [accepts_fieldsSchema_of_not_obj true title description hplain (by simp)]
      rfl

/-- On a document whose texts are judged alike by both engines, each contract is
validated exactly when its committed schema accepts it, and the validator of the
model is the declared rule. -/
theorem conditional_contracts_agree (engines : Engines) (document : Json)
    (hleaves : ∀ text, Json.Within (.str text) document →
      engines.Alike patterns text) :
    PhasePlan.modelValidate engines document =
      (PhasePlan.schema engines).accepts (validator engines) document ∧
    ReviewVerdict.modelValidate engines document =
      (ReviewVerdict.schema engines).accepts (validator engines) document ∧
    (∀ members, document = .obj members →
      validateFields (PhasePlan.fields engines) document = true →
        PhasePlan.approvalConditional members =
          PhasePlan.extra.accepts (validator engines) document) ∧
    (∀ members, document = .obj members →
      validateFields (ReviewVerdict.fields engines) document = true →
        ReviewVerdict.verdictConditionals members =
          ReviewVerdict.extra.accepts (validator engines) document) := by
  refine ⟨?_, ?_, ?_, ?_⟩
  · exact contract_agrees (PhasePlan.fields_sound engines) ⟨rfl, rfl, rfl⟩ rfl rfl
      (fun names _ => PhasePlan.rule_eq _ names engines) hleaves
  · exact contract_agrees (ReviewVerdict.fields_sound engines) ⟨rfl, rfl, rfl⟩ rfl rfl
      (fun names _ => ReviewVerdict.rule_eq _ names engines) hleaves
  · rintro members rfl hvalid
    exact (PhasePlan.rule_eq _ _ engines hvalid).symm
  · rintro members rfl hvalid
    exact (ReviewVerdict.rule_eq _ _ engines hvalid).symm

end Contracts

namespace ContractWitness

def sha : String := "0123456789abcdef0123456789abcdef01234567"

def digest : String :=
  "sha256:0123456789abcdef0123456789abcdef0123456789abcdef0123456789abcdef"

/-- What matches in the document below. -/
def search (pattern text : String) : Bool :=
  [(gitShaPattern, sha), (sha256Pattern, digest), (verdictIdPattern, "review_1")].contains
    (pattern, text)

def timestamp (text : String) : Bool := text = "2026-01-31T09:30:00Z"

def engines : Engines where
  matching := search
  timestamp := timestamp
  schemaMatching := search
  dateTime := timestamp

/-- A review that passes. -/
def passing : Json :=
  .obj
    [ ("schema_id",
        .str "https://schemas.hermes-pipeline.dev/engineering/review-verdict/v1"),
      ("schema_version", .int 1),
      ("verdict_id", .str "review_1"),
      ("slice_id", .str "slice-04-01"),
      ("contract_revision", .int 1),
      ("review_attempt", .int 1),
      ("base_sha", .str sha),
      ("candidate_sha", .str sha),
      ("context_manifest_hash", .str digest),
      ("evidence_bundle_hash", .str digest),
      ("verdict", .str "PASS"),
      ("axes", .obj [("spec", .str "PASS"), ("standards", .str "PASS"),
        ("evidence", .str "PASS"), ("scope_safety", .str "PASS")]),
      ("findings", .arr []),
      ("reviewed_at", .str "2026-01-31T09:30:00Z"),
      ("content_hash", .str digest) ]

theorem passing_agrees :
    ReviewVerdict.modelValidate engines passing = true ∧
    PhasePlan.modelValidate engines passing =
      (PhasePlan.schema engines).accepts (validator engines) passing ∧
    ReviewVerdict.modelValidate engines passing =
      (ReviewVerdict.schema engines).accepts (validator engines) passing ∧
    (∀ members, passing = .obj members →
      validateFields (PhasePlan.fields engines) passing = true →
        PhasePlan.approvalConditional members =
          PhasePlan.extra.accepts (validator engines) passing) ∧
    (∀ members, passing = .obj members →
      validateFields (ReviewVerdict.fields engines) passing = true →
        ReviewVerdict.verdictConditionals members =
          ReviewVerdict.extra.accepts (validator engines) passing) :=
  ⟨by decide +kernel,
    conditional_contracts_agree engines passing fun _ _ => ⟨fun _ _ => rfl, rfl⟩⟩

end ContractWitness

end ConditionalContracts

end HermesPipeline
