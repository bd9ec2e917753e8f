/-
Normalising a schema: local rewritings at every node of the tree that the
normalisation goes on into.  Normalising again changes nothing.
-/
import HermesPipeline.InlinedDefs
import HermesPipeline.Lib.RawSchema

namespace HermesPipeline

open Lib RawSchema

namespace NormalizedSchema

open InlinedDefs (assign)

/-- The keywords whose value is a table of schemas, a schema, or a list of schemas. -/
def tableKeys : List String := ["properties", "$defs"]

def schemaKeys : List String := ["items", "if", "then", "not"]

def branchKeys : List String := ["anyOf", "allOf", "oneOf"]

/-- The keywords that stand alone, the first one first. -/
def focusKeys : List String := ["const", "enum", "$ref"]

/-- The short names of the bounds, with the names that the projection spells. -/
def renames : List (String × String) :=
  [("ge", "minimum"), ("le", "maximum"), ("gt", "exclusiveMinimum"), ("lt", "exclusiveMaximum")]

section Source

def popped (key : String) (members : Members) : Members :=
  members.filter fun member => member.1 ≠ key

def focus (members : Members) : Members :=
  match focusKeys.find? fun key => (Json.member? members key).isSome with
  | some key => members.filter fun member => member.1 = key
  | none => members

/-- `normalized[target] = normalized.pop(source)`. -/
def rename (members : Members) (names : String × String) : Members :=
  match Json.member? members names.1 with
  | some value => assign (popped names.1 members) (names.2, value)
  | none => members

def dropAdditional (members : Members) : Members :=
  match Json.member? members "additionalProperties" with
  | some (.bool true) => popped "additionalProperties" members
  | _ => members

/-- `set(member) == \x7b"type"\x7d`. -/
def isTypeOnly : Json → Bool
  | .obj members => members ≠ [] && members.all fun member => member.1 = "type"
  | _ => false

/-- `member["type"]`. -/
def typeOf : Json → Json
  | .obj members => (Json.member? members "type").getD .null
  | _ => .null

/-- An `anyOf` of types becomes a list of them. -/
def collapse (members : Members) : Members :=
  match Json.member? members "anyOf" with
  | some (.arr alternatives) =>
      if alternatives ≠ [] ∧ alternatives.all isTypeOnly = true then
        popped "anyOf" (assign members ("type", .arr (alternatives.map typeOf)))
      else members
  | _ => members

/-- What is done with a node whose members are normalised. -/
def project (root : Bool) (members : Members) : Members :=
  let plain := popped "description" (dropAdditional (renames.foldl rename (focus members)))
  collapse (if root then plain else popped "title" plain)

mutual

/-- `normalize_schema`. -/
def normalizeSchema (root : Bool) : Json → Json
  | .arr items => .arr (normalizeItems items)
  | .obj members => .obj (project root (normalizeMembers members))
  | .null => .null
  | .bool b => .bool b
  | .int n => .int n
  | .float q => .float q
  | .str text => .str text
termination_by structural node => node

def normalizeItems : List Json → List Json
  | [] => []
  | item :: rest => normalizeSchema false item :: normalizeItems rest
termination_by structural items => items

def normalizeMembers : Members → Members
  | [] => []
  | (key, value) :: rest =>
      (key,
        if key ∈ tableKeys then normalizeTable value
        else if key ∈ schemaKeys then normalizeSchema false value
        else if key ∈ branchKeys then normalizeBranches value
        else value) :: normalizeMembers rest
termination_by structural members => members

/-- The schemas of a table; another value is kept. -/
def normalizeTable : Json → Json
  | .obj fields => .obj (normalizeFields fields)
  | .arr items => .arr items
  | .null => .null
  | .bool b => .bool b
  | .int n => .int n
  | .float q => .float q
  | .str text => .str text
termination_by structural value => value

def normalizeFields : Members → Members
  | [] => []
  | (name, schema) :: rest => (name, normalizeSchema false schema) :: normalizeFields rest
termination_by structural fields => fields

/-- The schemas of a list; another value is kept. -/
def normalizeBranches : Json → Json
  | .arr items => .arr (normalizeItems items)
  | .obj fields => .obj fields
  | .null => .null
  | .bool b => .bool b
  | .int n => .int n
  | .float q => .float q
  | .str text => .str text
termination_by structural value => value

end

end Source

section Equations

def normalizeField (field : String × Json) : String × Json :=
  (field.1, normalizeSchema false field.2)

theorem normalizeItems_eq (items : List Json) :
    normalizeItems items = items.map (normalizeSchema false) := by
  induction items with
  | nil => rfl
  | cons item rest ih => rw [normalizeItems, ih, List.map_cons]

theorem normalizeFields_eq (fields : Members) :
    normalizeFields fields = fields.map normalizeField := by
  induction fields with
  | nil => rfl
  | cons field rest ih => rw [normalizeFields, ih, List.map_cons, normalizeField]

/-- The value of a key, normalised. -/
def normalizeValue (key : String) (value : Json) : Json :=
  if key ∈ tableKeys then normalizeTable value
  else if key ∈ schemaKeys then normalizeSchema false value
  else if key ∈ branchKeys then normalizeBranches value
  else value

def normalizeMember (member : String × Json) : String × Json :=
  (member.1, normalizeValue member.1 member.2)

theorem normalizeMembers_eq (members : Members) :
    normalizeMembers members = members.map normalizeMember := by
  induction members with
  | nil => rfl
  | cons member rest ih =>
      rw [normalizeMembers, ih, List.map_cons, normalizeMember, normalizeValue]

theorem normalizeSchema_obj (root : Bool) (members : Members) :
    normalizeSchema root (.obj members) = .obj (project root (members.map normalizeMember)) := by
  rw [normalizeSchema, normalizeMembers_eq]

theorem normalizeSchema_arr (root : Bool) (items : List Json) :
    normalizeSchema root (.arr items) = .arr (items.map (normalizeSchema false)) := by
  rw [normalizeSchema, normalizeItems_eq]

/-- The schemas that the normalisation goes on into. -/
inductive Child : Json → Json → Prop
  | item {items item} : item ∈ items → Child item (.arr items)
  | field {members key fields field} : key ∈ tableKeys → (key, .obj fields) ∈ members →
      field ∈ fields → Child field.2 (.obj members)
  | schema {members key schema} : key ∈ schemaKeys → (key, schema) ∈ members →
      Child schema (.obj members)
  | branch {members key items item} : key ∈ branchKeys → (key, .arr items) ∈ members →
      item ∈ items → Child item (.obj members)

theorem sizeOf_member {members : Members} {key : String} {value : Json}
    (hmem : (key, value) ∈ members) : sizeOf value < sizeOf (Json.obj members) := by
  have hlist := List.sizeOf_lt_of_mem hmem
  simp only [Prod.mk.sizeOf_spec, Json.obj.sizeOf_spec] at hlist ⊢
  omega

theorem sizeOf_item {items : List Json} {item : Json} (hmem : item ∈ items) :
    sizeOf item < sizeOf (Json.arr items) := by
  have hlist := List.sizeOf_lt_of_mem hmem
  rw [Json.arr.sizeOf_spec]
  omega

theorem Child.sizeOf_lt {child parent : Json} (hchild : Child child parent) :
    sizeOf child < sizeOf parent := by
  cases hchild with
  | item hmem => exact sizeOf_item hmem
  | field _ hmem hfield => exact (sizeOf_member hfield).trans (sizeOf_member hmem)
  | schema _ hmem => exact sizeOf_member hmem
  | branch _ hmem hitem => exact (sizeOf_item hitem).trans (sizeOf_member hmem)

/-- Induction over the nodes that the normalisation meets. -/
theorem child_induct {P : Json → Prop}
    (step : ∀ schema, (∀ child, Child child schema → P child) → P schema) (schema : Json) :
    P schema := by
  induction hsize : sizeOf schema using Nat.strongRecOn generalizing schema with
  | ind size ih =>
      refine step schema fun child hchild => ih (sizeOf child) ?_ child rfl
      rw [← hsize]
      exact hchild.sizeOf_lt

end Equations

section Lookups

theorem member?_popped_self (key : String) (members : Members) :
    Json.member? (popped key members) key = none := by
  rw [Json.member?, Option.map_eq_none_iff, List.find?_eq_none]
  intro member hmem hname
  have hkept := (List.mem_filter.mp hmem).2
  simp only [ne_eq, decide_not, Bool.not_eq_true', decide_eq_false_iff_not] at hkept
  exact hkept (of_decide_eq_true hname)

theorem member?_popped {key other : String} (hne : other ≠ key) (members : Members) :
    Json.member? (popped key members) other = Json.member? members other :=
  Json.member?_filter members hne

/-- Nothing is popped where there is no such key. -/
theorem popped_eq_self {key : String} {members : Members}
    (hnone : Json.member? members key = none) : popped key members = members := by
  rw [popped, List.filter_eq_self]
  intro member hmem
  have hkey : key ∉ members.map Prod.fst := by
    rw [← Json.member?_isSome_iff, hnone]
    decide
  simpa using fun heq : member.1 = key => hkey (heq ▸ List.mem_map_of_mem hmem)

theorem rename_eq_self {names : String × String} {members : Members}
    (hnone : Json.member? members names.1 = none) : rename members names = members := by
  rw [rename, hnone]

theorem member?_rename {names : String × String} {key : String} (hsource : key ≠ names.1)
    (htarget : key ≠ names.2) (members : Members) :
    Json.member? (rename members names) key = Json.member? members key := by
  rw [rename]
  split
  · rw [InlinedDefs.member?_assign, if_neg (Ne.symm htarget), member?_popped hsource]
  · rfl

theorem member?_rename_source {names : String × String} (hne : names.2 ≠ names.1)
    (members : Members) : Json.member? (rename members names) names.1 = none := by
  rw [rename]
  split
  · rw [InlinedDefs.member?_assign, if_neg hne, member?_popped_self]
  · next hnone => exact hnone

/-- Renaming concerns the short names and the long ones. -/
theorem member?_renames {key : String}
    (hkey : ∀ names ∈ renames, key ≠ names.1 ∧ key ≠ names.2) (members : Members) :
    Json.member? (renames.foldl rename members) key = Json.member? members key := by
  have hall (pairs : List (String × String))
      (hpairs : ∀ names ∈ pairs, key ≠ names.1 ∧ key ≠ names.2) (members : Members) :
      Json.member? (pairs.foldl rename members) key = Json.member? members key := by
    induction pairs generalizing members with
    | nil => rfl
    | cons names rest ih =>
        obtain ⟨hsource, htarget⟩ := hpairs names List.mem_cons_self
        rw [List.foldl_cons, ih fun other hother => hpairs other (.tail _ hother),
          member?_rename hsource htarget]
  exact hall renames hkey members

/-- No short name is left. -/
theorem member?_renames_source {names : String × String} (hnames : names ∈ renames)
    (members : Members) :
    Json.member? (renames.foldl rename members) names.1 = none := by
  have hpairs : renames = [("ge", "minimum"), ("le", "maximum"), ("gt", "exclusiveMinimum"),
    ("lt", "exclusiveMaximum")] := rfl
  rw [hpairs] at hnames ⊢
  simp only [List.mem_cons, List.not_mem_nil, or_false] at hnames
  simp only [List.foldl_cons, List.foldl_nil]
  rcases hnames with rfl | rfl | rfl | rfl
  · rw [member?_rename (by decide) (by decide), member?_rename (by decide) (by decide),
      member?_rename (by decide) (by decide)]
    exact member?_rename_source (by decide) members
  · rw [member?_rename (by decide) (by decide), member?_rename (by decide) (by decide)]
    exact member?_rename_source (by decide) _
  · rw [member?_rename (by decide) (by decide)]
    exact member?_rename_source (by decide) _
  · exact member?_rename_source (by decide) _

theorem renames_eq_self {members : Members}
    (hnone : ∀ names ∈ renames, Json.member? members names.1 = none) :
    renames.foldl rename members = members := by
  have hall (pairs : List (String × String))
      (hpairs : ∀ names ∈ pairs, Json.member? members names.1 = none) :
      pairs.foldl rename members = members := by
    induction pairs with
    | nil => rfl
    | cons names rest ih =>
        rw [List.foldl_cons, rename_eq_self (hpairs names List.mem_cons_self)]
        exact ih fun other hother => hpairs other (.tail _ hother)
  exact hall renames hnone

theorem member?_dropAdditional {key : String} (hkey : key ≠ "additionalProperties")
    (members : Members) :
    Json.member? (dropAdditional members) key = Json.member? members key := by
  rw [dropAdditional]
  split
  · exact member?_popped hkey members
  · rfl

theorem dropAdditional_ne_true (members : Members) :
    Json.member? (dropAdditional members) "additionalProperties" ≠ some (.bool true) := by
  rw [dropAdditional]
  split
  · rw [member?_popped_self]
    exact nofun
  · next hother => exact hother

theorem dropAdditional_eq_self {members : Members}
    (hother : Json.member? members "additionalProperties" ≠ some (.bool true)) :
    dropAdditional members = members := by
  rw [dropAdditional]
  split
  · next htrue => exact absurd htrue hother
  · rfl

theorem member?_collapse {key : String} (htype : key ≠ "type") (hanyOf : key ≠ "anyOf")
    (members : Members) :
    Json.member? (collapse members) key = Json.member? members key := by
  rw [collapse]
  split
  · split
    · rw [member?_popped hanyOf, InlinedDefs.member?_assign, if_neg (Ne.symm htype)]
    · rfl
  · rfl

/-- Members without `anyOf` are left alone. -/
theorem collapse_eq_self {members : Members}
    (hnone : Json.member? members "anyOf" = none) : collapse members = members := by
  rw [collapse, hnone]

/-- Members are left alone, or `anyOf` is gone. -/
theorem collapse_cases (members : Members) :
    collapse members = members ∨ Json.member? (collapse members) "anyOf" = none := by
  rw [collapse]
  split
  · split
    · exact .inr (member?_popped_self "anyOf" _)
    · exact .inl rfl
  · exact .inl rfl

theorem collapse_collapse (members : Members) : collapse (collapse members) = collapse members := by
  rcases collapse_cases members with hsame | hnone
  · rw [hsame, hsame]
  · exact collapse_eq_self hnone

/-- What a node is put through after the focus. -/
def steps (root : Bool) (members : Members) : Members :=
  let plain := popped "description" (dropAdditional (renames.foldl rename members))
  collapse (if root then plain else popped "title" plain)

theorem project_eq (root : Bool) (members : Members) :
    project root members = steps root (focus members) := rfl

/-- The keys that a step adds, takes away or reads. -/
def touched : List String :=
  ["title", "description", "additionalProperties", "type", "anyOf"] ++
    renames.map Prod.fst ++ renames.map Prod.snd

theorem member?_steps {key : String} (hkey : key ∉ touched) (root : Bool) (members : Members) :
    Json.member? (steps root members) key = Json.member? members key := by
  have hne (other : String) (hother : other ∈ touched) : key ≠ other := by
    rintro rfl
    exact hkey hother
  have hrenames : ∀ names ∈ renames, key ≠ names.1 ∧ key ≠ names.2 := fun names hnames =>
    ⟨hne _ (List.mem_append_left _ (List.mem_append_right _ (List.mem_map_of_mem hnames))),
      hne _ (List.mem_append_right _ (List.mem_map_of_mem hnames))⟩
  rw [steps, member?_collapse (hne _ (by decide)) (hne _ (by decide))]
  cases root with
  | true =>
      simp only [if_true]
      rw [member?_popped (hne _ (by decide)), member?_dropAdditional (hne _ (by decide)),
        member?_renames hrenames]
  | false =>
      simp only [Bool.false_eq_true, if_false]
      rw [member?_popped (hne _ (by decide)), member?_popped (hne _ (by decide)),
        member?_dropAdditional (hne _ (by decide)), member?_renames hrenames]

end Lookups

section Idempotence

/-- The members that the steps do not take away. -/
def Settled (root : Bool) (members : Members) : Prop :=
  (∀ names ∈ renames, Json.member? members names.1 = none) ∧
    Json.member? members "additionalProperties" ≠ some (.bool true) ∧
    Json.member? members "description" = none ∧
    (root = false → Json.member? members "title" = none)

theorem Settled.steps_eq {root : Bool} {members : Members} (hsettled : Settled root members) :
    steps root members = collapse members := by
  obtain ⟨hshort, hadditional, hdescription, htitle⟩ := hsettled
  rw [steps, renames_eq_self hshort, dropAdditional_eq_self hadditional,
    popped_eq_self hdescription]
  cases root with
  | true => rfl
  | false => simp only [Bool.false_eq_true, if_false, popped_eq_self (htitle rfl)]

/-- The steps leave nothing of what they take away. -/
theorem settled_steps (root : Bool) (members : Members) : Settled root (steps root members) := by
  have hpairs : ∀ names ∈ renames, names.1 ≠ "type" ∧ names.1 ≠ "anyOf" ∧ names.1 ≠ "title" ∧
      names.1 ≠ "description" ∧ names.1 ≠ "additionalProperties" := by
    intro names hnames
    exact List.all_eq_true.mp (by decide : (renames.all fun names =>
      decide (names.1 ≠ "type" ∧ names.1 ≠ "anyOf" ∧ names.1 ≠ "title" ∧
        names.1 ≠ "description" ∧ names.1 ≠ "additionalProperties")) = true) names hnames
      |> of_decide_eq_true
  rw [steps]
  cases root with
  | true =>
      simp only [if_true]
      refine ⟨fun names hnames => ?_, ?_, ?_, nofun⟩
      · obtain ⟨htype, hanyOf, -, hdescription, hadditional⟩ := hpairs names hnames
        rw [member?_collapse htype hanyOf, member?_popped hdescription,
          member?_dropAdditional hadditional, member?_renames_source hnames]
      · rw [member?_collapse (by decide) (by decide), member?_popped (by decide)]
        exact dropAdditional_ne_true _
      · rw [member?_collapse (by decide) (by decide), member?_popped_self]
  | false =>
      simp only [Bool.false_eq_true, if_false]
      refine ⟨fun names hnames => ?_, ?_, ?_, fun _ => ?_⟩
      · obtain ⟨htype, hanyOf, htitle, hdescription, hadditional⟩ := hpairs names hnames
        rw [member?_collapse htype hanyOf, member?_popped htitle, member?_popped hdescription,
          member?_dropAdditional hadditional, member?_renames_source hnames]
      · rw [member?_collapse (by decide) (by decide), member?_popped (by decide),
          member?_popped (by decide)]
        exact dropAdditional_ne_true _
      · rw [member?_collapse (by decide) (by decide), member?_popped (by decide),
          member?_popped_self]
      · rw [member?_collapse (by decide) (by decide), member?_popped_self]

theorem steps_steps (root : Bool) (members : Members) :
    steps root (steps root members) = steps root members := by
  rw [(settled_steps root members).steps_eq, steps, collapse_collapse]

theorem focus_eq_self {members : Members}
    (hnone : ∀ key ∈ focusKeys, Json.member? members key = none) : focus members = members := by
  rw [focus]
  split
  · next key hfound =>
      have hsome := List.find?_some hfound
      rw [hnone key (List.mem_of_find?_eq_some hfound)] at hsome
      exact absurd hsome (by decide)
  · rfl

/-- The focus keeps everything, or the members of one key that stands alone. -/
theorem focus_cases (members : Members) :
    (focus members = members ∧ ∀ key ∈ focusKeys, Json.member? members key = none) ∨
      ∃ key ∈ focusKeys, (Json.member? members key).isSome = true ∧
        focus members = members.filter fun member => member.1 = key := by
  rw [focus]
  split
  · next key hfound =>
      have hsome := List.find?_some hfound
      exact .inr ⟨key, List.mem_of_find?_eq_some hfound, hsome, rfl⟩
  · next hnone =>
      refine .inl ⟨rfl, fun key hkey => ?_⟩
      simpa using List.find?_eq_none.mp hnone key hkey

theorem member?_filter_key (members : Members) (key other : String) :
    Json.member? (members.filter fun member => member.1 = key) other =
      if other = key then Json.member? members key else none := by
  induction members with
  | nil => rw [List.filter_nil]; split <;> rfl
  | cons member rest ih =>
      by_cases hkey : member.1 = key
      · rw [List.filter_cons_of_pos (by simpa using hkey), Json.member?_cons, Json.member?_cons,
          ih, hkey, if_pos rfl]
        by_cases hother : other = key
        · rw [if_pos hother.symm, if_pos hother]
        · rw [if_neg (Ne.symm hother), if_neg hother, if_neg hother]
      · rw [List.filter_cons_of_neg (by simpa using hkey), ih, Json.member?_cons, if_neg hkey]

theorem focus_ne_touched {key : String} (hkey : key ∈ focusKeys) : key ∉ touched := by
  have hall : focusKeys.all fun key => decide (key ∉ touched) := by decide
  exact of_decide_eq_true (List.all_eq_true.mp hall key hkey)

/-- Members of one key that stands alone are not touched. -/
theorem steps_alone {key : String} (hkey : key ∈ focusKeys) (root : Bool) (members : Members) :
    steps root (members.filter fun member => member.1 = key) =
      members.filter fun member => member.1 = key := by
  have hnone (other : String) (hother : other ∈ touched) :
      Json.member? (members.filter fun member => member.1 = key) other = none := by
    rw [member?_filter_key, if_neg]
    rintro rfl
    exact focus_ne_touched hkey hother
  have hsettled : Settled root (members.filter fun member => member.1 = key) := by
    refine ⟨fun names hnames => hnone _ (List.mem_append_left _
      (List.mem_append_right _ (List.mem_map_of_mem hnames))), ?_, hnone _ (by decide),
      fun _ => hnone _ (by decide)⟩
    rw [hnone _ (by decide)]
    exact nofun
  rw [hsettled.steps_eq, collapse_eq_self (hnone _ (by decide))]

theorem focus_focus (members : Members) : focus (focus members) = focus members := by
  rcases focus_cases members with ⟨hsame, -⟩ | ⟨key, hkey, hsome, hfocus⟩
  · rw [hsame, hsame]
  · rw [hfocus]
    rcases focus_cases (members.filter fun member => member.1 = key) with
      ⟨hsame, -⟩ | ⟨other, -, hother, hagain⟩
    · exact hsame
    · rw [member?_filter_key] at hother
      by_cases heq : other = key
      · rw [hagain, heq, List.filter_filter]
        simp only [Bool.and_self]
      · rw [if_neg heq] at hother
        cases hother

/-- A projected node is projected to itself. -/
theorem project_project (root : Bool) (members : Members) :
    project root (project root members) = project root members := by
  rw [project_eq, project_eq]
  rcases focus_cases members with ⟨hsame, hnone⟩ | ⟨key, hkey, -, hfocus⟩
  · rw [hsame, focus_eq_self fun key hkey => ?_, steps_steps]
    rw [member?_steps (focus_ne_touched hkey), hnone key hkey]
  · rw [hfocus, steps_alone hkey, ← hfocus, focus_focus, hfocus, steps_alone hkey]

/-- The keys under which the rewriting adds members. -/
def addedKeys : List String := "type" :: renames.map Prod.snd

theorem mem_assign {members : Members} {member other : String × Json}
    (hmem : other ∈ assign members member) : other = member ∨ other ∈ members := by
  induction members with
  | nil => exact .inl (List.mem_singleton.mp hmem)
  | cons first rest ih =>
      rw [assign] at hmem
      split at hmem
      · rcases List.mem_cons.mp hmem with rfl | hmem
        · exact .inl rfl
        · exact .inr (.tail _ (List.mem_of_mem_filter hmem))
      · rcases List.mem_cons.mp hmem with rfl | hmem
        · exact .inr List.mem_cons_self
        · exact (ih hmem).imp_right (.tail _)

theorem mem_rename {members : Members} {names : String × String} {member : String × Json}
    (hmem : member ∈ rename members names) : member.1 = names.2 ∨ member ∈ members := by
  rw [rename] at hmem
  split at hmem
  · rcases mem_assign hmem with rfl | hmem
    · exact .inl rfl
    · exact .inr (List.mem_of_mem_filter hmem)
  · exact .inr hmem

theorem mem_renames {members : Members} {member : String × Json}
    (hmem : member ∈ renames.foldl rename members) :
    member.1 ∈ renames.map Prod.snd ∨ member ∈ members := by
  have hall (pairs : List (String × String)) (members : Members)
      (hmem : member ∈ pairs.foldl rename members) :
      member.1 ∈ pairs.map Prod.snd ∨ member ∈ members := by
    induction pairs generalizing members with
    | nil => exact .inr hmem
    | cons names rest ih =>
        rcases ih (rename members names) hmem with hrest | hrest
        · exact .inl (.tail _ hrest)
        · rcases mem_rename hrest with heq | hmember
          · exact .inl (heq ▸ List.mem_cons_self)
          · exact .inr hmember
  exact hall renames members hmem

theorem mem_dropAdditional {members : Members} {member : String × Json}
    (hmem : member ∈ dropAdditional members) : member ∈ members := by
  rw [dropAdditional] at hmem
  split at hmem
  · exact List.mem_of_mem_filter hmem
  · exact hmem

theorem mem_collapse {members : Members} {member : String × Json}
    (hmem : member ∈ collapse members) : member.1 = "type" ∨ member ∈ members := by
  rw [collapse] at hmem
  split at hmem
  · split at hmem
    · rcases mem_assign (List.mem_of_mem_filter hmem) with rfl | hmem
      · exact .inl rfl
      · exact .inr hmem
    · exact .inr hmem
  · exact .inr hmem

theorem mem_focus {members : Members} {member : String × Json}
    (hmem : member ∈ focus members) : member ∈ members := by
  rw [focus] at hmem
  split at hmem
  · exact List.mem_of_mem_filter hmem
  · exact hmem

/-- A member of a projected node was there, or stands under an added key. -/
theorem mem_project {root : Bool} {members : Members} {member : String × Json}
    (hmem : member ∈ project root members) : member.1 ∈ addedKeys ∨ member ∈ members := by
  have hplain (hmem : member ∈ popped "description"
      (dropAdditional (renames.foldl rename (focus members)))) :
      member.1 ∈ addedKeys ∨ member ∈ members := by
    rcases mem_renames (mem_dropAdditional (List.mem_of_mem_filter hmem)) with hadded | hmem
    · exact .inl (.tail _ hadded)
    · exact .inr (mem_focus hmem)
  rw [project] at hmem
  rcases mem_collapse hmem with htype | hmem
  · exact .inl (htype ▸ List.mem_cons_self)
  · cases root with
    | true => exact hplain hmem
    | false => exact hplain (List.mem_of_mem_filter hmem)

theorem normalizeMember_added {member : String × Json} (hadded : member.1 ∈ addedKeys) :
    normalizeMember member = member := by
  have hall : addedKeys.all fun key =>
      decide (key ∉ tableKeys ∧ key ∉ schemaKeys ∧ key ∉ branchKeys) := by decide
  obtain ⟨htable, hschema, hbranch⟩ :=
    of_decide_eq_true (List.all_eq_true.mp hall member.1 hadded)
  rw [normalizeMember, normalizeValue, if_neg htable, if_neg hschema, if_neg hbranch]

theorem normalizeMember_normalizeMember {members : Members} {member : String × Json}
    (hmem : member ∈ members)
    (hchildren : ∀ child, Child child (.obj members) → ∀ root,
      normalizeSchema root (normalizeSchema root child) = normalizeSchema root child) :
    normalizeMember (normalizeMember member) = normalizeMember member := by
  obtain ⟨key, value⟩ := member
  simp only [normalizeMember, normalizeValue, Prod.mk.injEq, true_and]
  by_cases htable : key ∈ tableKeys
  · simp only [if_pos htable]
    cases value with
    | obj fields =>
        simp only [normalizeTable, normalizeFields_eq, List.map_map, Json.obj.injEq]
        refine List.map_congr_left fun field hfield => ?_
        exact Prod.ext rfl (hchildren field.2 (.field htable hmem hfield) false)
    | _ => rfl
  · simp only [if_neg htable]
    by_cases hschema : key ∈ schemaKeys
    · simp only [if_pos hschema]
      exact hchildren value (.schema hschema hmem) false
    · simp only [if_neg hschema]
      by_cases hbranch : key ∈ branchKeys
      · simp only [if_pos hbranch]
        cases value with
        | arr items =>
            simp only [normalizeBranches, normalizeItems_eq, List.map_map, Json.arr.injEq]
            exact List.map_congr_left fun item hitem =>
              hchildren item (.branch hbranch hmem hitem) false
        | _ => rfl
      · simp only [if_neg hbranch]

/-- Normalising again changes nothing. -/
theorem normalizeSchema_normalizeSchema (schema : Json) (root : Bool) :
    normalizeSchema root (normalizeSchema root schema) = normalizeSchema root schema := by
  induction schema using child_induct generalizing root with
  | _ schema ih =>
      cases schema with
      | arr items =>
          rw [normalizeSchema_arr, normalizeSchema_arr, List.map_map]
          congr 1
          exact List.map_congr_left fun item hitem => ih item (.item hitem) false
      | obj members =>
          have hsame : (project root (members.map normalizeMember)).map normalizeMember =
              project root (members.map normalizeMember) := by
            refine (List.map_congr_left fun member hmem => ?_).trans (List.map_id _)
            rcases mem_project hmem with hadded | hmem
            · exact normalizeMember_added hadded
            · obtain ⟨before, hbefore, rfl⟩ := List.mem_map.mp hmem
              exact normalizeMember_normalizeMember hbefore ih
          rw [normalizeSchema_obj, normalizeSchema_obj, hsame, project_project]
      | _ => rfl

end Idempotence

end NormalizedSchema

end HermesPipeline
