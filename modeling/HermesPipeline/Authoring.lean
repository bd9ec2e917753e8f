/-
The authoring types of the contracts.  A type validates a JSON value and
projects a JSON Schema, which `normalize_schema` brings into the shape that is
committed.  A value is judged alike by both when its texts are.
-/
import HermesPipeline.Lib.JsonSchema

namespace HermesPipeline

open Lib Lib.JsonSchema

def isConst : Assertion → Bool
  | .const _ => true
  | _ => false

def isEnum : Assertion → Bool
  | .enum _ => true
  | _ => false

def isRef : Assertion → Bool
  | .ref _ => true
  | _ => false

/-- A keyword of the kind stands in the node. -/
def hasKeyword (kind : Assertion → Bool) : Schema → Bool
  | .empty => false
  | .check assertion rest => kind assertion || hasKeyword kind rest
  | .property _ _ rest => hasKeyword kind rest
  | .items _ rest => hasKeyword kind rest
  | .allOf _ rest => hasKeyword kind rest
  | .ifThen _ _ rest => hasKeyword kind rest

/-- The node with the keywords of the kind alone. -/
def onlyKeyword (kind : Assertion → Bool) : Schema → Schema
  | .empty => .empty
  | .check assertion rest =>
      if kind assertion then .check assertion (onlyKeyword kind rest)
      else onlyKeyword kind rest
  | .property _ _ rest => onlyKeyword kind rest
  | .items _ rest => onlyKeyword kind rest
  | .allOf _ rest => onlyKeyword kind rest
  | .ifThen _ _ rest => onlyKeyword kind rest

/-- `const`, `enum` and `$ref` stand alone. -/
def standAlone (node : Schema) : Schema :=
  if hasKeyword isConst node then onlyKeyword isConst node
  else if hasKeyword isEnum node then onlyKeyword isEnum node
  else if hasKeyword isRef node then onlyKeyword isRef node
  else node

/-- The bounds that are spelled as in the authoring types are renamed,
`additionalProperties: true` and the annotations go. -/
def tidyAssertion (root : Bool) : Assertion → Option Assertion
  | .remark "ge" (.int n) => some (.bound .minimum n)
  | .remark "le" (.int n) => some (.bound .maximum n)
  | .remark "gt" (.int n) => some (.bound .exclusiveMinimum n)
  | .remark "lt" (.int n) => some (.bound .exclusiveMaximum n)
  | .remark "description" _ => none
  | .remark "title" title =>
      if root then some (.remark "title" title) else none
  | .additionalProperties true => none
  | assertion => some assertion

def tidyNode (root : Bool) : Schema → Schema
  | .empty => .empty
  | .check assertion rest =>
      match tidyAssertion root assertion with
      | some kept => .check kept (tidyNode root rest)
      | none => tidyNode root rest
  | .property name value rest => .property name value (tidyNode root rest)
  | .items item rest => .items item (tidyNode root rest)
  | .allOf part rest => .allOf part (tidyNode root rest)
  | .ifThen test consequence rest =>
      .ifThen test consequence (tidyNode root rest)

def normalizeParts : Schema → Schema
  | .empty => .empty
  | .check assertion rest => .check assertion (normalizeParts rest)
  | .property name value rest =>
      .property name (tidyNode false (standAlone (normalizeParts value)))
        (normalizeParts rest)
  | .items item rest =>
      .items (tidyNode false (standAlone (normalizeParts item)))
        (normalizeParts rest)
  | .allOf part rest =>
      .allOf (tidyNode false (standAlone (normalizeParts part)))
        (normalizeParts rest)
  | .ifThen test consequence rest =>
      .ifThen (tidyNode false (standAlone (normalizeParts test)))
        (tidyNode false (standAlone (normalizeParts consequence)))
        (normalizeParts rest)

/-- `normalize_schema`. -/
def normalizeSchema (root : Bool) (node : Schema) : Schema :=
  tidyNode root (standAlone (normalizeParts node))

/-- The engines on both sides: the search for a pattern and the check of a
timestamp of the authoring types, and those of a schema validator. -/
structure Engines where
  matching : String → String → Bool
  timestamp : String → Bool
  schemaMatching : String → String → Bool
  dateTime : String → Bool

/-- A type of the authoring models: its strict validation, and its projection
before it is normalized. -/
structure Authored where
  validate : Json → Bool
  schema : Schema
  /-- The field that it is the type of gives its schema a title. -/
  titled : Bool := true

namespace Authored

variable (engines : Engines)

/-- `Literal` of texts. -/
def literal (values : List String) : Authored where
  validate value :=
    match value with
    | .str text => values.contains text
    | _ => false
  schema :=
    match values with
    | [value] => .check (.const (.str value)) (.check (.type [.string]) .empty)
    | values =>
        .check (.enum (values.map Json.str)) (.check (.type [.string]) .empty)

/-- `FixedV1Integer`. -/
def fixedV1Integer : Authored where
  validate value :=
    match value with
    | .int n => n = 1
    | .float q => q.den = 1 && q.num = 1
    | _ => false
  schema := .check (.const (.int 1)) .empty

/-- `Annotated[IntegralInt, Field(ge=...)]`. -/
def integralInt (ge : Int) : Authored where
  validate value :=
    match value with
    | .int n => ge ≤ n
    | .float q => q.den = 1 && ge ≤ q.num
    | _ => false
  schema := .check (.type [.integer]) (.check (.remark "ge" (.int ge)) .empty)

/-- A strict `bool`. -/
def boolean : Authored where
  validate value :=
    match value with
    | .bool _ => true
    | _ => false
  schema := .check (.type [.boolean]) .empty

/-- A strict `str`. -/
def text : Authored where
  validate value :=
    match value with
    | .str _ => true
    | _ => false
  schema := .check (.type [.string]) .empty

/-- `Annotated[str, Field(min_length=..., max_length=...)]`. -/
def bounded (minLength : Nat) (maxLength : Option Nat) : Authored where
  validate value :=
    match value with
    | .str text => minLength ≤ text.length &&
        maxLength.all fun most => text.length ≤ most
    | _ => false
  schema := .check (.type [.string]) (.check (.minLength minLength)
    (match maxLength with
      | some most => .check (.maxLength most) .empty
      | none => .empty))

/-- `Annotated[str, Field(pattern=...)]`. -/
def patterned (pattern : String) : Authored where
  validate value :=
    match value with
    | .str text => engines.matching pattern text
    | _ => false
  schema := .check (.type [.string]) (.check (.pattern pattern) .empty)

/-- A reference to a definition, which validates as the definition does. -/
def reference (target : String) (definition : Authored) : Authored where
  validate := definition.validate
  schema := .check (.ref target) .empty
  titled := false

/-- `utcTimestamp`. -/
def utcTimestamp : Authored where
  validate value :=
    match value with
    | .str text => engines.timestamp text
    | _ => false
  schema := .check (.type [.string]) (.check (.format "date-time") .empty)

/-- `unique_values`: no item was seen before. -/
def uniqueValues (seen : List String) : List String → Bool
  | [] => true
  | item :: rest => !seen.contains item && uniqueValues (item :: seen) rest

/-- `Annotated[list[...], Field(min_length=...)]`. -/
def listOf (item : Authored) (minLength : Nat := 0) : Authored where
  validate value :=
    match value with
    | .arr items => items.all item.validate && minLength ≤ items.length
    | _ => false
  schema := .items item.schema (.check (.type [.array])
    (if minLength = 0 then .empty else .check (.minItems minLength) .empty))

/-- `Annotated[list[...], AfterValidator(unique_values), Field(...)]` of texts. -/
def uniqueOf (item : Authored) (minLength : Nat := 0) : Authored where
  validate value :=
    (listOf item minLength).validate value &&
      match value with
      | .arr items => uniqueValues [] (items.filterMap Json.text?)
      | _ => false
  schema := .check (.uniqueItems true) (listOf item minLength).schema

end Authored

structure Field where
  name : String
  type : Authored
  required : Bool := true

namespace Field

/-- The title of a field: its name in words that start with a capital. -/
def title (field : Field) : String :=
  " ".intercalate ((field.name.toList.splitOn '_').map fun word =>
    String.ofList ((word.take 1).map Char.toUpper ++ word.drop 1))

def rawSchema (field : Field) : Schema :=
  if field.type.titled then
    .check (.remark "title" (.str field.title)) field.type.schema
  else field.type.schema

def admits (field : Field) (members : List (String × Json)) : Bool :=
  match Json.member? members field.name with
  | some found => field.type.validate found
  | none => !field.required

end Field

namespace Authored

/-- `model_validate` under `extra="forbid"` and `strict=True`, without the
validators of the model. -/
def validateFields (fields : List Field) : Json → Bool
  | .obj members =>
      (members.all fun member => fields.any fun field => field.name = member.1) &&
        fields.all fun field => field.admits members
  | _ => false

/-- The projection of a model: its fields, and what `json_schema_extra` adds. -/
def fieldsSchema (title description : String) (fields : List Field)
    (extra : Schema) : Schema :=
  .withProperties (fields.map fun field => (field.name, field.rawSchema))
    (.check (.required ((fields.filter Field.required).map Field.name))
      (.check (.type [.object])
        (.check (.additionalProperties false)
          (.check (.remark "title" (.str title))
            (.check (.remark "description" (.str description)) extra)))))

/-- A model without validators of its own. -/
def model (title description : String) (fields : List Field) : Authored where
  validate := validateFields fields
  schema := fieldsSchema title description fields .empty
  titled := false

end Authored

/-- A type and its normalized projection judge a value alike. -/
def Authored.Agrees (draft : Draft) (type : Authored) (value : Json) : Prop :=
  (normalizeSchema false type.schema).accepts draft value = type.validate value

section Normalize

theorem normalizeSchema_title (title : Json) (node : Schema) :
    normalizeSchema false (.check (.remark "title" title) node) =
      normalizeSchema false node := by
  simp only [normalizeSchema, normalizeParts, standAlone, hasKeyword, onlyKeyword,
    isConst, isEnum, isRef, Bool.false_or, Bool.false_eq_true, if_false]
  split
  · rfl
  split
  · rfl
  split
  · rfl
  · rfl

theorem normalizeSchema_rawSchema (field : Field) :
    normalizeSchema false field.rawSchema =
      normalizeSchema false field.type.schema := by
  rw [Field.rawSchema]
  split
  · exact normalizeSchema_title _ _
  · rfl

theorem normalizeParts_withProperties (fields : List (String × Schema))
    (rest : Schema) :
    normalizeParts (.withProperties fields rest) =
      .withProperties (fields.map fun field =>
        (field.1, normalizeSchema false field.2)) (normalizeParts rest) := by
  induction fields with
  | nil => rfl
  | cons field fields ih =>
      rw [Schema.withProperties, List.foldr_cons, ← Schema.withProperties,
        normalizeParts, ih]
      rfl

theorem hasKeyword_withProperties (kind : Assertion → Bool)
    (fields : List (String × Schema)) (rest : Schema) :
    hasKeyword kind (.withProperties fields rest) = hasKeyword kind rest := by
  induction fields with
  | nil => rfl
  | cons field fields ih => exact ih

theorem tidyNode_withProperties (root : Bool) (fields : List (String × Schema))
    (rest : Schema) :
    tidyNode root (.withProperties fields rest) =
      .withProperties fields (tidyNode root rest) := by
  induction fields with
  | nil => rfl
  | cons field fields ih =>
      rw [Schema.withProperties, List.foldr_cons, ← Schema.withProperties, tidyNode,
        ih]
      rfl

/-- No keyword of the node stands alone. -/
def Plain (node : Schema) : Prop :=
  hasKeyword isConst node = false ∧ hasKeyword isEnum node = false ∧
    hasKeyword isRef node = false

theorem standAlone_of_plain {node : Schema} (hplain : Plain node) :
    standAlone node = node := by
  rw [standAlone, hplain.1, hplain.2.1, hplain.2.2]
  rfl

/-- A model is normalized field by field. -/
theorem normalizeSchema_fieldsSchema (root : Bool) (title description : String)
    (fields : List Field) {extra : Schema} (hextra : Plain (normalizeParts extra)) :
    normalizeSchema root (Authored.fieldsSchema title description fields extra) =
      .withProperties
        (fields.map fun field =>
          (field.name, normalizeSchema false field.type.schema))
        (.check (.required ((fields.filter Field.required).map Field.name))
          (.check (.type [.object]) (.check (.additionalProperties false)
            (tidyNode root (.check (.remark "title" (.str title))
              (normalizeParts extra)))))) := by
  have hfields : (fields.map fun field => (field.name, field.rawSchema)).map
      (fun field => (field.1, normalizeSchema false field.2)) =
      fields.map fun field =>
        (field.name, normalizeSchema false field.type.schema) := by
    rw [List.map_map]
    apply List.map_congr_left
    intro field _
    simp only [Function.comp_apply, normalizeSchema_rawSchema]
  rw [normalizeSchema, Authored.fieldsSchema, normalizeParts_withProperties, hfields,
    standAlone_of_plain, tidyNode_withProperties]
  · rfl
  · simp only [Plain, hasKeyword_withProperties, normalizeParts, hasKeyword, isConst,
      isEnum, isRef, Bool.false_or]
    exact hextra

end Normalize

section Fields

variable {draft : Draft} {fields : List Field} {members : List (String × Json)}

/-- The members that are there are valid, and those that are required are
there. -/
theorem all_admits_iff :
    (fields.all fun field => field.admits members) = true ↔
      (∀ field ∈ fields, ∀ found, Json.member? members field.name = some found →
        field.type.validate found = true) ∧
      ∀ field ∈ fields, field.required = true →
        (Json.member? members field.name).isSome = true := by
  rw [List.all_eq_true]
  constructor
  · intro hall
    refine ⟨fun field hfield found hfound => ?_, fun field hfield hrequired => ?_⟩
    · have hadmits := hall field hfield
      rwa [Field.admits, hfound] at hadmits
    · have hadmits := hall field hfield
      cases hfound : Json.member? members field.name with
      | none => simp [Field.admits, hfound, hrequired] at hadmits
      | some found => rfl
  · rintro ⟨hvalid, hrequired⟩ field hfield
    rw [Field.admits]
    cases hfound : Json.member? members field.name with
    | none =>
        by_contra hdemanded
        have hsome := hrequired field hfield (by simpa using hdemanded)
        simp [hfound] at hsome
    | some found => exact hvalid field hfield found hfound

/-- The projection of a model accepts what the model validates, as far as what
`json_schema_extra` adds does. -/
theorem accepts_fieldsSchema (root : Bool) (title description : String)
    {extra : Schema} (hextra : Plain (normalizeParts extra))
    (hdeclared : (tidyNode root (normalizeParts extra)).declared = [])
    (hagree : ∀ field ∈ fields, ∀ found,
      Json.member? members field.name = some found →
        field.type.Agrees draft found) :
    (normalizeSchema root (Authored.fieldsSchema title description fields
        extra)).accepts draft (.obj members) =
      (Authored.validateFields fields (.obj members) &&
        (tidyNode root (normalizeParts extra)).holds draft
          (fields.map Field.name) (.obj members)) := by
  have hcut : (tidyNode root (.check (.remark "title" (.str title))
      (normalizeParts extra))).declared = [] ∧
      ∀ names value, (tidyNode root (.check (.remark "title" (.str title))
        (normalizeParts extra))).holds draft names value =
        (tidyNode root (normalizeParts extra)).holds draft names value := by
    cases root with
    | false => exact ⟨hdeclared, fun _ _ => rfl⟩
    | true => exact ⟨hdeclared, fun _ _ => rfl⟩
  have hnames : (fields.map fun field =>
      (field.name, normalizeSchema false field.type.schema)).map Prod.fst =
      fields.map Field.name := by
    rw [List.map_map]
    rfl
  rw [normalizeSchema_fieldsSchema root title description fields hextra,
    Schema.accepts, Schema.declared_withProperties, hnames]
  simp only [Schema.declared, hcut.1, List.append_nil]
  rw [Schema.holds_withProperties, Schema.holds, Schema.holds, Schema.holds, hcut.2,
    Authored.validateFields, ← Bool.and_assoc, ← Bool.and_assoc, ← Bool.and_assoc]
  congr 1
  rw [Bool.eq_iff_iff, Bool.and_eq_true, Bool.and_eq_true, Bool.and_eq_true,
    Bool.and_eq_true, all_admits_iff]
  have hproperties : ((fields.map fun field =>
      (field.name, normalizeSchema false field.type.schema)).all
        (Schema.propertyHolds draft members)) = true ↔
      ∀ field ∈ fields, ∀ found, Json.member? members field.name = some found →
        field.type.validate found = true := by
    rw [List.all_map, List.all_eq_true]
    refine forall₂_congr fun field hfield => ?_
    rw [Function.comp_apply, Schema.propertyHolds]
    cases hfound : Json.member? members field.name with
    | none => simp
    | some found =>
        have hsame := hagree field hfield found hfound
        rw [Authored.Agrees] at hsame
        simp [hsame]
  have hrequired : (Assertion.required ((fields.filter Field.required).map
      Field.name)).holds draft (fields.map Field.name) (.obj members) = true ↔
      ∀ field ∈ fields, field.required = true →
        (Json.member? members field.name).isSome = true := by
    simp only [Assertion.holds, List.all_map, List.all_eq_true, List.mem_filter,
      Function.comp_apply, and_imp]
  have hknown : (Assertion.additionalProperties false).holds draft
      (fields.map Field.name) (.obj members) = true ↔
      (members.all fun member => fields.any fun field =>
        decide (field.name = member.1)) = true := by
    simp only [Assertion.holds, Bool.false_or, List.all_eq_true,
      List.contains_eq_mem, decide_eq_true_eq, List.mem_map, List.any_eq_true]
  have htype : (Assertion.type [.object]).holds draft (fields.map Field.name)
      (.obj members) = true := rfl
  rw [hproperties, hrequired, hknown]
  simp only [htype, and_true]
  exact and_comm

/-- Nothing but an object is valid for a model. -/
theorem accepts_fieldsSchema_of_not_obj (root : Bool) (title description : String)
    {extra : Schema} (hextra : Plain (normalizeParts extra)) {value : Json}
    (hvalue : ∀ members, value ≠ .obj members) :
    (normalizeSchema root (Authored.fieldsSchema title description fields
        extra)).accepts draft value = false := by
  have htype : hasType .object value = false := by
    cases value with
    | obj members => exact absurd rfl (hvalue members)
    | _ => rfl
  rw [normalizeSchema_fieldsSchema root title description fields hextra,
    Schema.accepts, Schema.holds_withProperties_of_not_obj _ _ _ _ hvalue]
  simp [Schema.holds, Assertion.holds, htype]

end Fields

/-- The texts on which the engines of both sides agree, for the patterns given. -/
def Engines.Alike (engines : Engines) (patterns : List String) (text : String) :
    Prop :=
  (∀ pattern ∈ patterns,
      engines.matching pattern text = engines.schemaMatching pattern text) ∧
    engines.timestamp text = engines.dateTime text

/-- A validator over the definitions: its engines, and what a reference finds. -/
def Engines.draft (engines : Engines) (resolve : String → Json → Bool) : Draft where
  matching := engines.schemaMatching
  format name text := name ≠ "date-time" || engines.dateTime text
  resolve := resolve

section Sound

variable (engines : Engines) (patterns : List String)
  (resolve : String → Json → Bool)

/-- The type and its projection agree on the values whose texts are alike. -/
def Authored.Sound (type : Authored) : Prop :=
  ∀ value, (∀ text, Json.Within (.str text) value → engines.Alike patterns text) →
    type.Agrees (engines.draft resolve) value

namespace Authored

/-- The literal text is a member of its own enumeration. -/
theorem any_literal (values : List String) (value : Json) :
    (values.map Json.str).any (fun expected => expected.equal value) =
      (literal values).validate value := by
  have hvalidate : (literal values).validate value =
      match value with
      | .str text => values.contains text
      | _ => false := rfl
  rw [List.any_map, hvalidate]
  cases value with
  | str text =>
      change (values.any fun expected => expected == text) = values.contains text
      rw [List.contains_eq_any_beq]
      congr 1
      funext expected
      exact Bool.beq_comm
  | _ => exact List.any_eq_false.mpr fun _ _ => Bool.false_ne_true

theorem literal_sound (values : List String) :
    (literal values).Sound engines patterns resolve := by
  intro value _
  have hunfold : (normalizeSchema false (literal values).schema).accepts
      (engines.draft resolve) value =
        (values.map Json.str).any fun expected => expected.equal value := by
    cases values with
    | nil => rfl
    | cons first rest =>
        cases rest with
        | nil =>
            change ((Json.str first).equal value && true) =
              ((Json.str first).equal value || false)
            rw [Bool.and_true, Bool.or_false]
        | cons second rest => exact Bool.and_true _
  rw [Agrees, hunfold, any_literal]

theorem fixedV1Integer_sound : fixedV1Integer.Sound engines patterns resolve := by
  intro value _
  change ((Json.int 1).equal value && true) = fixedV1Integer.validate value
  rw [Bool.and_true]
  cases value with
  | int n =>
      change (some (n : ℚ) == some ((1 : ℤ) : ℚ)) = decide (n = 1)
      rw [Option.some_beq_some, Bool.eq_iff_iff, beq_iff_eq, decide_eq_true_eq,
        Rat.intCast_inj]
  | float q =>
      change (some q == some ((1 : ℤ) : ℚ)) = (decide (q.den = 1) && decide (q.num = 1))
      rw [Option.some_beq_some, Bool.eq_iff_iff, beq_iff_eq, Bool.and_eq_true,
        decide_eq_true_eq, decide_eq_true_eq]
      constructor
      · rintro rfl
        exact ⟨rfl, rfl⟩
      · rintro ⟨hden, hnum⟩
        rw [← Rat.coe_int_num_of_den_eq_one hden, hnum]
  | _ => rfl

theorem integralInt_sound (ge : Int) :
    (integralInt ge).Sound engines patterns resolve := by
  intro value _
  change ([TypeName.integer].any (fun name => hasType name value) &&
    ((Assertion.bound .minimum ge).holds (engines.draft resolve) [] value && true)) =
      (integralInt ge).validate value
  rw [Bool.and_true, List.any_cons, List.any_nil, Bool.or_false]
  cases value with
  | int n =>
      change (true && decide ((ge : ℚ) ≤ (n : ℚ))) = decide (ge ≤ n)
      rw [Bool.true_and, decide_eq_decide, Rat.intCast_le_intCast]
  | float q =>
      change (decide (q.den = 1) && decide ((ge : ℚ) ≤ q)) =
        (decide (q.den = 1) && decide (ge ≤ q.num))
      by_cases hden : q.den = 1
      · have hle : (ge : ℚ) ≤ q ↔ ge ≤ q.num := by
          rw [← Rat.intCast_le_intCast, Rat.coe_int_num_of_den_eq_one hden]
        simp only [hle]
      · simp only [hden, decide_false, Bool.false_and]
  | _ => rfl

theorem boolean_sound : boolean.Sound engines patterns resolve := by
  intro value _
  cases value <;> rfl

theorem text_sound : text.Sound engines patterns resolve := by
  intro value _
  cases value <;> rfl

theorem bounded_sound (minLength : Nat) (maxLength : Option Nat) :
    (bounded minLength maxLength).Sound engines patterns resolve := by
  intro value _
  cases maxLength with
  | none =>
      cases value with
      | str text =>
          change (true && (decide (minLength ≤ text.length) && true)) =
            (decide (minLength ≤ text.length) && true)
          rw [Bool.true_and]
      | _ => rfl
  | some most =>
      cases value with
      | str text =>
          change (true && (decide (minLength ≤ text.length) &&
            (decide (text.length ≤ most) && true))) =
            (decide (minLength ≤ text.length) && decide (text.length ≤ most))
          rw [Bool.true_and, Bool.and_true]
      | _ => rfl

variable {patterns}

theorem patterned_sound {pattern : String} (hpattern : pattern ∈ patterns) :
    (patterned engines pattern).Sound engines patterns resolve := by
  intro value halike
  cases value with
  | str text =>
      change (true && (engines.schemaMatching pattern text && true)) =
        engines.matching pattern text
      rw [Bool.true_and, Bool.and_true, (halike text .here).1 pattern hpattern]
  | _ => rfl

variable (patterns)

theorem utcTimestamp_sound :
    (utcTimestamp engines).Sound engines patterns resolve := by
  intro value halike
  cases value with
  | str text =>
      change (true && ((false || engines.dateTime text) && true)) =
        engines.timestamp text
      rw [Bool.true_and, Bool.and_true, Bool.false_or, (halike text .here).2]
  | _ => rfl

/-- A reference is sound where the definition is what the validator finds. -/
theorem reference_sound {target : String} {definition : Authored}
    (hdefinition : ∀ value,
      (∀ text, Json.Within (.str text) value → engines.Alike patterns text) →
        resolve target value = definition.validate value) :
    (reference target definition).Sound engines patterns resolve := by
  intro value halike
  change (resolve target value && true) = definition.validate value
  rw [Bool.and_true, hdefinition value halike]

theorem uniqueValues_iff (seen items : List String) :
    uniqueValues seen items = true ↔
      items.Nodup ∧ ∀ item ∈ items, item ∉ seen := by
  induction items generalizing seen with
  | nil => simp [uniqueValues]
  | cons item rest ih =>
      rw [uniqueValues, Bool.and_eq_true, ih, List.nodup_cons]
      constructor
      · rintro ⟨hitem, hrest, hseen⟩
        refine ⟨⟨fun hmem => ?_, hrest⟩, ?_⟩
        · exact hseen item hmem List.mem_cons_self
        · intro other hother
          rcases List.mem_cons.mp hother with rfl | hother
          · simpa using hitem
          · exact fun hmem => hseen other hother (List.mem_cons_of_mem _ hmem)
      · rintro ⟨⟨hfresh, hrest⟩, hseen⟩
        refine ⟨by simpa using hseen item List.mem_cons_self, hrest, ?_⟩
        intro other hother hmem
        rcases List.mem_cons.mp hmem with rfl | hmem
        · exact hfresh hother
        · exact hseen other (List.mem_cons_of_mem _ hother) hmem

variable {engines patterns resolve}

theorem listOf_sound {type : Authored} (htype : type.Sound engines patterns resolve)
    (minLength : Nat) :
    (listOf type minLength).Sound engines patterns resolve := by
  intro value halike
  have hplain : ∀ count : Schema, count = .empty ∨
      (∃ n, count = .check (.minItems n) .empty) →
      normalizeSchema false (.items type.schema (.check (.type [.array]) count)) =
        .items (normalizeSchema false type.schema)
          (.check (.type [.array]) count) := by
    rintro count (rfl | ⟨n, rfl⟩) <;> rfl
  cases value with
  | arr items =>
      have hitems : (items.all fun item => (normalizeSchema false type.schema).accepts
          (engines.draft resolve) item) = items.all type.validate := by
        rw [Bool.eq_iff_iff, List.all_eq_true, List.all_eq_true]
        refine forall₂_congr fun item hmem => ?_
        have hitem := htype item fun text hpart => halike text (.item hmem hpart)
        rw [Agrees] at hitem
        rw [hitem]
      change _ = (items.all type.validate && decide (minLength ≤ items.length))
      rw [listOf, hplain _ (by split <;> simp), ← hitems]
      by_cases hzero : minLength = 0
      · rw [if_pos hzero, hzero]
        simp [Schema.accepts, Schema.holds, Assertion.holds, hasType]
      · rw [if_neg hzero]
        simp [Schema.accepts, Schema.holds, Assertion.holds, hasType]
  | _ =>
      rw [Agrees, listOf, hplain _ (by split <;> simp)]
      rfl

theorem uniqueOf_sound {type : Authored} (htype : type.Sound engines patterns resolve)
    (htexts : ∀ value, type.validate value = true → ∃ text, value = .str text)
    (minLength : Nat) :
    (uniqueOf type minLength).Sound engines patterns resolve := by
  intro value halike
  have hlist := listOf_sound htype minLength value halike
  have hunique : (normalizeSchema false (uniqueOf type minLength).schema).accepts
      (engines.draft resolve) value =
        ((Assertion.uniqueItems true).holds (engines.draft resolve) [] value &&
          (normalizeSchema false (listOf type minLength).schema).accepts
            (engines.draft resolve) value) := by
    rw [uniqueOf, listOf]
    split <;> rfl
  rw [Agrees] at hlist ⊢
  rw [hunique, hlist]
  cases value with
  | arr items =>
      cases hvalid : (listOf type minLength).validate (.arr items) with
      | false => simp [uniqueOf, hvalid]
      | true =>
          have hall : ∀ item ∈ items, ∃ text, item = .str text := by
            intro item hmem
            have hitems := (Bool.and_eq_true_iff.mp hvalid).1
            exact htexts item (List.all_eq_true.mp hitems item hmem)
          obtain ⟨texts, rfl⟩ : ∃ texts : List String, items = texts.map Json.str := by
            clear hvalid hlist halike hunique
            induction items with
            | nil => exact ⟨[], rfl⟩
            | cons item rest ih =>
                obtain ⟨text, rfl⟩ := hall item List.mem_cons_self
                obtain ⟨texts, rfl⟩ := ih fun other hother =>
                  hall other (List.mem_cons_of_mem _ hother)
                exact ⟨text :: texts, rfl⟩
          have htext : (texts.map Json.str).filterMap Json.text? = texts := by
            rw [List.filterMap_map]
            exact List.filterMap_some
          have hsame : allDistinct (texts.map Json.str) = uniqueValues [] texts := by
            rw [Bool.eq_iff_iff, allDistinct_texts, uniqueValues_iff]
            simp
          simp only [uniqueOf, hvalid, htext, Assertion.holds, hsame, Bool.not_true,
            Bool.false_or, Bool.and_true, Bool.true_and]
  | _ => rfl

theorem model_sound (title description : String) {fields : List Field}
    (hfields : ∀ field ∈ fields, field.type.Sound engines patterns resolve) :
    (model title description fields).Sound engines patterns resolve := by
  intro value halike
  have hempty : Plain (normalizeParts .empty) := ⟨rfl, rfl, rfl⟩
  cases value with
  | obj members =>
      have hagree : ∀ field ∈ fields, ∀ found,
          Json.member? members field.name = some found →
            field.type.Agrees (engines.draft resolve) found := by
        intro field hfield found hfound
        exact hfields field hfield found fun text hpart =>
          halike text (.member (Json.mem_of_member? hfound) hpart)
      rw [Agrees, model, accepts_fieldsSchema false title description hempty rfl hagree]
      exact Bool.and_true _
  | _ =>
      rw [Agrees, model, accepts_fieldsSchema_of_not_obj false title description hempty
        (by simp)]
      rfl

end Authored

end Sound

end HermesPipeline
