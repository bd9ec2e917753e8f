/-
A part of JSON Schema, Draft 2020-12.  An object schema is read keyword by
keyword; the members of `properties` and of `allOf` stand one by one.
-/
import HermesPipeline.Lib.Json
import Mathlib.Data.List.Nodup
import Mathlib.Data.Rat.Lemmas

namespace Lib

namespace Json

/-- The value of a number, which a boolean is not. -/
def number? : Json → Option ℚ
  | .int n => some n
  | .float q => some q
  | _ => none

mutual

/-- Equality of JSON values: numbers by value, objects as maps. -/
def equal : Json → Json → Bool
  | .null, .null => true
  | .bool b, .bool b' => b == b'
  | .str s, .str s' => s == s'
  | .arr items, .arr items' => equalItems items items'
  | .obj members, .obj members' =>
      members.length == members'.length && equalMembers members members'
  | .int n, other => number? other == some (n : ℚ)
  | .float q, other => number? other == some q
  | _, _ => false

def equalItems : List Json → List Json → Bool
  | [], [] => true
  | item :: rest, item' :: rest' => item.equal item' && equalItems rest rest'
  | _, _ => false

def equalMembers : List (String × Json) → List (String × Json) → Bool
  | [], _ => true
  | (name, value) :: rest, members =>
      (match member? members name with
        | some other => value.equal other
        | none => false) && equalMembers rest members

end

/-- The first value is a part of the second one. -/
inductive Within (part : Json) : Json → Prop
  | here : Within part part
  | item {items item} (hmem : item ∈ items) (hpart : Within part item) :
      Within part (.arr items)
  | member {members name value} (hmem : (name, value) ∈ members)
      (hpart : Within part value) : Within part (.obj members)

theorem mem_of_member? {members : List (String × Json)} {name : String}
    {value : Json} (hmember : member? members name = some value) :
    (name, value) ∈ members := by
  obtain ⟨entry, hfound, rfl⟩ := Option.map_eq_some_iff.mp hmember
  have hname : entry.1 = name := by simpa using List.find?_some hfound
  rw [← hname]
  exact List.mem_of_find?_eq_some hfound

theorem member?_isSome_iff {members : List (String × Json)} {name : String} :
    (member? members name).isSome = true ↔ name ∈ members.map Prod.fst := by
  rw [member?, Option.isSome_map, List.find?_isSome]
  simp only [decide_eq_true_eq, List.mem_map]

theorem member?_cons (member : String × Json) (rest : List (String × Json)) (name : String) :
    member? (member :: rest) name =
      if member.1 = name then some member.2 else member? rest name := by
  by_cases hname : member.1 = name
  · rw [if_pos hname, member?, List.find?_cons_of_pos (by simpa using hname)]
    rfl
  · rw [if_neg hname, member?, List.find?_cons_of_neg (by simpa using hname)]
    rfl

theorem member?_filter (members : List (String × Json)) {name other : String} (hne : name ≠ other) :
    member? (members.filter fun member => member.1 ≠ other) name =
      member? members name := by
  induction members with
  | nil => rfl
  | cons member rest ih =>
      by_cases hother : member.1 = other
      · rw [List.filter_cons_of_neg (by simpa using hother), ih, member?_cons,
          if_neg (by rw [hother]; exact hne.symm)]
      · rw [List.filter_cons_of_pos (by simpa using hother), member?_cons, member?_cons, ih]

end Json

namespace JsonSchema

inductive TypeName
  | null
  | boolean
  | integer
  | number
  | string
  | array
  | object
deriving Repr, DecidableEq

/-- A number with a whole value is an integer. -/
def hasType : TypeName → Json → Bool
  | .null, .null => true
  | .boolean, .bool _ => true
  | .integer, .int _ => true
  | .integer, .float q => q.den = 1
  | .number, .int _ => true
  | .number, .float _ => true
  | .string, .str _ => true
  | .array, .arr _ => true
  | .object, .obj _ => true
  | _, _ => false

inductive Bound
  | minimum
  | maximum
  | exclusiveMinimum
  | exclusiveMaximum
deriving Repr, DecidableEq

def Bound.admits (bound : Bound) (limit value : ℚ) : Bool :=
  match bound with
  | .minimum => limit ≤ value
  | .maximum => value ≤ limit
  | .exclusiveMinimum => limit < value
  | .exclusiveMaximum => value < limit

/-- A keyword without subschemas.  What a validator does not know is an
annotation. -/
inductive Assertion
  | type (names : List TypeName)
  | const (value : Json)
  | enum (values : List Json)
  | ref (target : String)
  | required (names : List String)
  | additionalProperties (allowed : Bool)
  | minItems (count : Nat)
  | maxItems (count : Nat)
  | uniqueItems (demanded : Bool)
  | minLength (count : Nat)
  | maxLength (count : Nat)
  | pattern (text : String)
  | format (name : String)
  | bound (kind : Bound) (limit : Int)
  | remark (name : String) (value : Json)

inductive Schema
  | empty
  | check (assertion : Assertion) (rest : Schema)
  | property (name : String) (value rest : Schema)
  | items (item rest : Schema)
  | allOf (part rest : Schema)
  | ifThen (test consequence rest : Schema)

/-- What a validator brings along: its search for a pattern in a text, its check
of a format, and what it finds under a reference. -/
structure Draft where
  matching : String → String → Bool
  format : String → String → Bool
  resolve : String → Json → Bool

/-- No two items are equal. -/
def allDistinct : List Json → Bool
  | [] => true
  | item :: rest => !rest.any item.equal && allDistinct rest

/-- The assertion holds of a value, next to `properties` of the names declared.
It holds of every value of a type that it says nothing about. -/
def Assertion.holds (draft : Draft) (declared : List String) :
    Assertion → Json → Bool
  | .type names, value => names.any fun name => hasType name value
  | .const expected, value => expected.equal value
  | .enum values, value => values.any fun expected => expected.equal value
  | .ref target, value => draft.resolve target value
  | .required names, .obj members =>
      names.all fun name => (Json.member? members name).isSome
  | .additionalProperties allowed, .obj members =>
      allowed || members.all fun member => declared.contains member.1
  | .minItems count, .arr items => count ≤ items.length
  | .maxItems count, .arr items => items.length ≤ count
  | .uniqueItems demanded, .arr items => !demanded || allDistinct items
  | .minLength count, .str text => count ≤ text.length
  | .maxLength count, .str text => text.length ≤ count
  | .pattern expression, .str text => draft.matching expression text
  | .format name, .str text => draft.format name text
  | .bound kind limit, value =>
      match value.number? with
      | some number => kind.admits limit number
      | none => true
  | _, _ => true

namespace Schema

/-- The names of `properties`. -/
def declared : Schema → List String
  | .empty => []
  | .check _ rest => rest.declared
  | .property name _ rest => name :: rest.declared
  | .items _ rest => rest.declared
  | .allOf _ rest => rest.declared
  | .ifThen _ _ rest => rest.declared

/-- Every keyword holds of the value, next to `properties` of the names. -/
def holds (draft : Draft) : List String → Schema → Json → Bool
  | _, .empty, _ => true
  | names, .check assertion rest, value =>
      assertion.holds draft names value && rest.holds draft names value
  | names, .property name child rest, value =>
      (match value with
        | .obj members =>
            match Json.member? members name with
            | some found => child.holds draft child.declared found
            | none => true
        | _ => true) && rest.holds draft names value
  | names, .items item rest, value =>
      (match value with
        | .arr found => found.all fun one => item.holds draft item.declared one
        | _ => true) && rest.holds draft names value
  | names, .allOf part rest, value =>
      part.holds draft part.declared value && rest.holds draft names value
  | names, .ifThen test consequence rest, value =>
      (!test.holds draft test.declared value ||
        consequence.holds draft consequence.declared value) &&
        rest.holds draft names value

/-- The value is valid against the schema. -/
def accepts (draft : Draft) (schema : Schema) (value : Json) : Bool :=
  schema.holds draft schema.declared value

/-- The keyword `properties` before other ones. -/
def withProperties (fields : List (String × Schema)) (rest : Schema) : Schema :=
  fields.foldr (fun field rest => .property field.1 field.2 rest) rest

theorem declared_withProperties (fields : List (String × Schema)) (rest : Schema) :
    (withProperties fields rest).declared =
      fields.map Prod.fst ++ rest.declared := by
  induction fields with
  | nil => rfl
  | cons field fields ih =>
      rw [withProperties, List.foldr_cons, ← withProperties, declared, ih]
      rfl

/-- The value of a member is valid, if there is the member. -/
def propertyHolds (draft : Draft) (members : List (String × Json))
    (field : String × Schema) : Bool :=
  match Json.member? members field.1 with
  | some found => field.2.accepts draft found
  | none => true

theorem holds_withProperties (draft : Draft) (names : List String)
    (fields : List (String × Schema)) (rest : Schema)
    (members : List (String × Json)) :
    (withProperties fields rest).holds draft names (.obj members) =
      (fields.all (propertyHolds draft members) &&
        rest.holds draft names (.obj members)) := by
  induction fields with
  | nil => rfl
  | cons field fields ih =>
      rw [withProperties, List.foldr_cons, ← withProperties, holds, ih,
        List.all_cons, Bool.and_assoc]
      rfl

theorem holds_withProperties_of_not_obj (draft : Draft) (names : List String)
    (fields : List (String × Schema)) (rest : Schema) {value : Json}
    (hvalue : ∀ members, value ≠ .obj members) :
    (withProperties fields rest).holds draft names value =
      rest.holds draft names value := by
  induction fields with
  | nil => rfl
  | cons field fields ih =>
      rw [withProperties, List.foldr_cons, ← withProperties, ← ih]
      cases value with
      | obj members => exact absurd rfl (hvalue members)
      | null => rfl
      | bool _ => rfl
      | int _ => rfl
      | float _ => rfl
      | str _ => rfl
      | arr _ => rfl

end Schema

/-- Texts are distinct as values when they are as texts. -/
theorem allDistinct_texts (texts : List String) :
    allDistinct (texts.map Json.str) = true ↔ texts.Nodup := by
  induction texts with
  | nil => simp [allDistinct]
  | cons text rest ih =>
      have hany : (rest.map Json.str).any (Json.str text).equal =
          decide (text ∈ rest) := by
        rw [List.any_map, ← List.contains_eq_mem, List.contains_eq_any_beq]
        rfl
      rw [List.map_cons, allDistinct, hany, Bool.and_eq_true, ih, List.nodup_cons,
        Bool.not_eq_true', decide_eq_false_iff_not]

end JsonSchema

end Lib
