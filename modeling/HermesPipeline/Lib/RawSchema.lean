/-
Schemas as JSON values, read keyword by keyword as in JSON Schema, Draft 2020-12.
What a keyword says beyond the applicators, the types, the listed values and the
bounds is a parameter.
-/
import HermesPipeline.Lib.JsonSchema

namespace Lib

namespace RawSchema

open JsonSchema

abbrev Members := List (String × Json)

inductive Keyword
  | type
  | const
  | enum
  | ref
  | bound (kind : Bound)
  | additionalProperties
  | properties
  | items
  | negation
  | anyOf
  | allOf
  | oneOf
  | conditional
  | remark
  | other
deriving Repr, DecidableEq

/-- The keywords by name, the short names of the bounds among them. -/
def keywords : List (String × Keyword) :=
  [("type", .type), ("const", .const), ("enum", .enum), ("$ref", .ref),
    ("minimum", .bound .minimum), ("maximum", .bound .maximum),
    ("exclusiveMinimum", .bound .exclusiveMinimum),
    ("exclusiveMaximum", .bound .exclusiveMaximum), ("ge", .bound .minimum),
    ("le", .bound .maximum), ("gt", .bound .exclusiveMinimum), ("lt", .bound .exclusiveMaximum),
    ("additionalProperties", .additionalProperties), ("properties", .properties),
    ("items", .items), ("not", .negation), ("anyOf", .anyOf), ("allOf", .allOf),
    ("oneOf", .oneOf), ("if", .conditional), ("then", .conditional), ("else", .conditional),
    ("title", .remark), ("description", .remark), ("default", .remark),
    ("$defs", .remark)]

def keywordOf (key : String) : Keyword :=
  match keywords.find? fun entry => entry.1 = key with
  | some entry => entry.2
  | none => .other

def typeNames : List (String × TypeName) :=
  [("null", .null), ("boolean", .boolean), ("integer", .integer), ("number", .number),
    ("string", .string), ("array", .array), ("object", .object)]

/-- A name of a type; any other value names none. -/
def nameHolds (name value : Json) : Bool :=
  match name with
  | .str name => typeNames.any fun entry => entry.1 == name && hasType entry.2 value
  | _ => false

/-- The keyword `type`: a name, or a list of names. -/
def typeHolds (names value : Json) : Bool :=
  match names with
  | .arr names => names.any fun name => nameHolds name value
  | name => nameHolds name value

def enumHolds (listed value : Json) : Bool :=
  match listed with
  | .arr values => values.any fun expected => expected.equal value
  | _ => true

def boundHolds (kind : Bound) (limit value : Json) : Bool :=
  match limit.number?, value.number? with
  | some limit, some number => kind.admits limit number
  | _, _ => true

/-- What keywords read of their siblings: the names and the patterns of the properties
declared, and the number of the items that have schemas of their own. -/
structure Context where
  declared : List String
  patterns : List String
  tuple : Nat

/-- What a validator finds under a reference, and what the other keywords say. -/
structure Draft where
  resolve : String → Json → Bool
  other : Context → String → Json → Json → Bool

def keysOf : Option Json → List String
  | some (.obj members) => members.map Prod.fst
  | _ => []

def lengthOf : Option Json → Nat
  | some (.arr items) => items.length
  | _ => 0

def contextOf (members : Members) : Context where
  declared := keysOf (Json.member? members "properties")
  patterns := keysOf (Json.member? members "patternProperties")
  tuple := lengthOf (Json.member? members "prefixItems")

/-- The items that have no schema of their own. -/
def itemsOf (context : Context) : Json → List Json
  | .arr items => items.drop context.tuple
  | _ => []

section Semantics

variable (draft : Draft)

def refHolds (target value : Json) : Bool :=
  match target with
  | .str target => draft.resolve target value
  | _ => true

/-- Every name is allowed by `true`. -/
def additionalHolds (context : Context) (schema value : Json) : Bool :=
  match schema with
  | .bool true => true
  | schema => draft.other context "additionalProperties" schema value

mutual

/-- The value is valid against the schema. -/
def valid : Json → Json → Bool
  | .bool b, _ => b
  | .obj members, value =>
      validMembers (contextOf members) members value &&
        (!validChild "if" false members value || validChild "then" true members value) &&
        (validChild "if" true members value || validChild "else" true members value)
  | _, _ => true
termination_by structural schema => schema

/-- Every keyword holds, those of a condition apart. -/
def validMembers (context : Context) : Members → Json → Bool
  | [], _ => true
  | (key, schema) :: rest, value =>
      (match keywordOf key with
        | .type => typeHolds schema value
        | .const => schema.equal value
        | .enum => enumHolds schema value
        | .ref => refHolds draft schema value
        | .bound kind => boundHolds kind schema value
        | .additionalProperties => additionalHolds draft context schema value
        | .properties => validFields schema value
        | .items => (itemsOf context value).all fun item => valid schema item
        | .negation => !valid schema value
        | .anyOf => (branches schema value).elim true fun found => found.any id
        | .allOf => (branches schema value).elim true fun found => found.all id
        | .oneOf => (branches schema value).elim true fun found => found.count true == 1
        | .conditional => true
        | .remark => true
        | .other => draft.other context key schema value) &&
        validMembers context rest value
termination_by structural members => members

/-- The schema of a member, or a value where there is none. -/
def validChild (key : String) (absent : Bool) : Members → Json → Bool
  | [], _ => absent
  | (name, schema) :: rest, value =>
      if name = key then valid schema value else validChild key absent rest value
termination_by structural members => members

/-- The properties of an object against the schemas of their names. -/
def validFields : Json → Json → Bool
  | .obj fields, .obj members => validEach fields members
  | _, _ => true
termination_by structural schema => schema

def validEach : Members → Members → Bool
  | [], _ => true
  | (name, schema) :: rest, members =>
      (match Json.member? members name with
        | some found => valid schema found
        | none => true) && validEach rest members
termination_by structural fields => fields

/-- What the schemas of a list say of the value. -/
def branches : Json → Json → Option (List Bool)
  | .arr schemas, value => some (validList schemas value)
  | _, _ => none
termination_by structural schema => schema

def validList : List Json → Json → List Bool
  | [], _ => []
  | schema :: rest, value => valid schema value :: validList rest value
termination_by structural schemas => schemas

end

/-- What a keyword says of a value. -/
def keywordHolds (context : Context) (member : String × Json) (value : Json) : Bool :=
  match keywordOf member.1 with
  | .type => typeHolds member.2 value
  | .const => member.2.equal value
  | .enum => enumHolds member.2 value
  | .ref => refHolds draft member.2 value
  | .bound kind => boundHolds kind member.2 value
  | .additionalProperties => additionalHolds draft context member.2 value
  | .properties => validFields draft member.2 value
  | .items => (itemsOf context value).all fun item => valid draft member.2 item
  | .negation => !valid draft member.2 value
  | .anyOf => (branches draft member.2 value).elim true fun found => found.any id
  | .allOf => (branches draft member.2 value).elim true fun found => found.all id
  | .oneOf => (branches draft member.2 value).elim true fun found => found.count true == 1
  | .conditional => true
  | .remark => true
  | .other => draft.other context member.1 member.2 value

/-- The schemas of a condition. -/
def conditionHolds (members : Members) (value : Json) : Bool :=
  (!validChild draft "if" false members value || validChild draft "then" true members value) &&
    (validChild draft "if" true members value || validChild draft "else" true members value)

theorem validMembers_eq_all (context : Context) (members : Members) (value : Json) :
    validMembers draft context members value =
      members.all fun member => keywordHolds draft context member value := by
  induction members with
  | nil => rfl
  | cons member rest ih =>
      rw [validMembers, ih, List.all_cons, keywordHolds]

theorem valid_obj (members : Members) (value : Json) :
    valid draft (.obj members) value =
      ((members.all fun member => keywordHolds draft (contextOf members) member value) &&
        conditionHolds draft members value) := by
  rw [valid, validMembers_eq_all, conditionHolds, Bool.and_assoc]

theorem validChild_eq (key : String) (absent : Bool) (members : Members) (value : Json) :
    validChild draft key absent members value =
      match Json.member? members key with
      | some schema => valid draft schema value
      | none => absent := by
  induction members with
  | nil => rfl
  | cons member rest ih =>
      rw [validChild, ih, Json.member?_cons]
      by_cases hname : member.1 = key
      · rw [if_pos hname, if_pos hname]
      · rw [if_neg hname, if_neg hname]

theorem validEach_eq_all (fields members : Members) :
    validEach draft fields members = fields.all fun field =>
      match Json.member? members field.1 with
      | some found => valid draft field.2 found
      | none => true := by
  induction fields with
  | nil => rfl
  | cons field rest ih => rw [validEach, ih, List.all_cons]

theorem validList_eq_map (schemas : List Json) (value : Json) :
    validList draft schemas value = schemas.map fun schema => valid draft schema value := by
  induction schemas with
  | nil => rfl
  | cons schema rest ih => rw [validList, ih, List.map_cons]

end Semantics

end RawSchema

end Lib
