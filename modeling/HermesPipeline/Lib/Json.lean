/-
JSON values, the order-free canonical form that decides when two of them are
the same document, and the white-space stripping of Python texts.
-/
import Mathlib.Data.List.Sort
import Mathlib.Data.Rat.Defs
import Mathlib.Data.String.Basic

namespace Lib

/-- A JSON value with its object members in document order.  Whole numbers
and finite fractional numbers are kept apart, as a Python parser does. -/
inductive Json
  | null
  | bool (value : Bool)
  | int (value : Int)
  | float (value : ℚ)
  | str (value : String)
  | arr (items : List Json)
  | obj (members : List (String × Json))

namespace Json

def text? : Json → Option String
  | .str text => some text
  | _ => none

/-- Look a member up by its exact name. -/
def member? (members : List (String × Json)) (name : String) : Option Json :=
  (members.find? fun member => member.1 = name).map Prod.snd

/-- The object with only text members. -/
def ofTexts (fields : List (String × String)) : Json :=
  .obj (fields.map fun field => (field.1, .str field.2))

theorem member?_ofTexts (fields : List (String × String)) (name : String) :
    member? (fields.map fun field => (field.1, Json.str field.2)) name =
      ((fields.find? fun field => field.1 = name).map Prod.snd).map Json.str := by
  simp only [member?, List.find?_map, Option.map_map]
  rfl

/-- Members sorted by name. -/
def sortMembers (members : List (String × Json)) : List (String × Json) :=
  members.insertionSort fun left right => left.1 ≤ right.1

mutual

/-- The canonical form: members sorted by name at every depth, and a
fractional number with a whole value read as that whole number. -/
def canon : Json → Json
  | .float q => if q.den = 1 then .int q.num else .float q
  | .arr items => .arr (canonItems items)
  | .obj members => .obj (sortMembers (canonMembers members))
  | .null => .null
  | .bool b => .bool b
  | .int n => .int n
  | .str s => .str s

def canonItems : List Json → List Json
  | [] => []
  | item :: rest => item.canon :: canonItems rest

def canonMembers : List (String × Json) → List (String × Json)
  | [] => []
  | (name, value) :: rest => (name, value.canon) :: canonMembers rest

end

/-- Two values are the same document when their canonical forms agree: member
order does not count, and `1` is `1.0`. -/
def Same (left right : Json) : Prop := left.canon = right.canon

theorem Same.refl (value : Json) : value.Same value := rfl

end Json

/-- The characters that Python's `str.strip` removes. -/
def isPySpace (c : Char) : Bool :=
  (0x09 ≤ c.toNat && c.toNat ≤ 0x0d) || (0x1c ≤ c.toNat && c.toNat ≤ 0x20) ||
    c.toNat = 0x85 || c.toNat = 0xa0 || c.toNat = 0x1680 ||
    (0x2000 ≤ c.toNat && c.toNat ≤ 0x200a) || c.toNat = 0x2028 ||
    c.toNat = 0x2029 || c.toNat = 0x202f || c.toNat = 0x205f || c.toNat = 0x3000

/-- Python's `str.strip`: drop white space from both ends. -/
def pyStrip (text : String) : String :=
  String.ofList
    ((((text.toList.dropWhile isPySpace).reverse).dropWhile isPySpace).reverse)

end Lib
