/-
Inlining the local definitions of a schema.  The walk goes on into nodes that it has
just merged, so it is given fuel; a table without cycles bounds the fuel it needs.
-/
import HermesPipeline.Lib.Chains
import HermesPipeline.Lib.JsonSchema

namespace HermesPipeline

open Lib

namespace InlinedDefs

abbrev Members := List (String × Json)

/-- The table of definitions, which are objects where it is well formed. -/
abbrev Definitions := List (String × Json)

/-- `defs.get(name)`. -/
def entry? (defs : Definitions) (name : String) : Option Json :=
  (defs.find? fun entry => entry.1 = name).map Prod.snd

def localPrefix : List Char := ['#', '/', '$', 'd', 'e', 'f', 's', '/']

/-- The name that a `$ref` to a local definition gives. -/
def localRef? (members : Members) : Option String :=
  match Json.member? members "$ref" with
  | some (.str ref) =>
      if localPrefix <+: ref.toList then
        some (String.ofList (ref.toList.drop localPrefix.length))
      else none
  | _ => none

/-- Assign a member: in its place, or at the end. -/
def assign : Members → String × Json → Members
  | [], member => [member]
  | other :: rest, member =>
      if other.1 = member.1 then member :: rest.filter fun later => later.1 ≠ member.1
      else other :: assign rest member

/-- `dict.update`. -/
def update (members more : Members) : Members := more.foldl assign members

/-- The members next to the reference. -/
def siblings (members : Members) : Members := members.filter fun member => member.1 ≠ "$ref"

inductive Failure
  | keyError (name : String)
  /-- The `TypeError` or `ValueError` of `update` for a definition that is no mapping. -/
  | noMapping (name : String)
  | exhausted
deriving Repr, DecidableEq

/-- What `dict.update` takes from an item of a list: its two elements, the first one a
text. -/
def pair? : Json → Option (String × Json)
  | .arr [.str key, value] => some (key, value)
  | .obj [(key, _), (value, _)] => some (key, .str value)
  | .str text =>
      match text.toList with
      | [key, value] => some (.singleton key, .str (.singleton value))
      | _ => none
  | _ => none

/-- `merged.update(definition)` on the empty `merged`. -/
def mapping? : Json → Option Members
  | .obj members => some members
  | .arr items => (items.mapM pair?).map (update [])
  | .str "" => some []
  | _ => none

section Source

variable (defs : Definitions)

/-- The members that a local reference to the name gets from the table. -/
def lookup (name : String) : Except Failure Members :=
  match entry? defs name with
  | none => .error (.keyError name)
  | some .null => .error (.keyError name)
  | some definition =>
      match mapping? definition with
      | none => .error (.noMapping name)
      | some members => .ok members

def definition? (name : String) : Option Members := (lookup defs name).toOption

mutual

/-- `walk`. -/
def walk : Nat → Json → Except Failure Json
  | 0, _ => .error .exhausted
  | fuel + 1, .arr items => (walkItems fuel items).map .arr
  | fuel + 1, .obj members =>
      match localRef? members with
      | some name =>
          match lookup defs name with
          | .error failure => .error failure
          | .ok definition => walk fuel (.obj (update definition (siblings members)))
      | none => (walkMembers fuel members).map .obj
  | _ + 1, value => .ok value

def walkItems : Nat → List Json → Except Failure (List Json)
  | 0, _ => .error .exhausted
  | _ + 1, [] => .ok []
  | fuel + 1, item :: rest => do
      let item ← walk fuel item
      let rest ← walkItems fuel rest
      return item :: rest

def walkMembers : Nat → Members → Except Failure Members
  | 0, _ => .error .exhausted
  | _ + 1, [] => .ok []
  | fuel + 1, (name, item) :: rest => do
      let item ← walk fuel item
      let rest ← walkMembers fuel rest
      return (name, item) :: rest

end

/-- The result without the table at its root. -/
def dropTable : Json → Json
  | .obj members => .obj (members.filter fun member => member.1 ≠ "$defs")
  | value => value

/-- `inline_local_defs`. -/
def inlineLocalDefs (fuel : Nat) (node : Json) : Except Failure Json :=
  (walk defs fuel node).map dropTable

end Source

section References

/-- A reference to the name stands somewhere in the value. -/
def Mentions (value : Json) (name : String) : Prop :=
  ∃ members, Json.Within (.obj members) value ∧ localRef? members = some name

/-- The definition of the one name refers to the other. -/
def Refers (defs : Definitions) (name other : String) : Prop :=
  ∃ definition, definition? defs name = some definition ∧ Mentions (.obj definition) other

/-- The table has no entry of the name, or null, which `get` does not tell apart. -/
def Missing (defs : Definitions) (name : String) : Prop :=
  entry? defs name = none ∨ entry? defs name = some .null

/-- The references form no cycle. -/
def Acyclic (defs : Definitions) : Prop := Chains.Acyclic (Refers defs)

/-- A reference in the tree, or in a definition that is reached from it. -/
inductive Reached (defs : Definitions) (node : Json) : String → Prop
  | tree {name} : Mentions node name → Reached defs node name
  | definition {name definition other} : Reached defs node name →
      definition? defs name = some definition → Mentions (.obj definition) other →
      Reached defs node other

/-- A reference that is still there when siblings have overridden the members of the
definitions. -/
inductive Remains (defs : Definitions) : Json → String → Prop
  | item {items item name} : item ∈ items → Remains defs item name →
      Remains defs (.arr items) name
  | member {members key item name} : localRef? members = none → (key, item) ∈ members →
      Remains defs item name → Remains defs (.obj members) name
  | here {members name} : localRef? members = some name → Remains defs (.obj members) name
  | merged {members name definition other} : localRef? members = some name →
      definition? defs name = some definition →
      Remains defs (.obj (update definition (siblings members))) other →
      Remains defs (.obj members) other

/-- The members of an object with the definition that it refers to. -/
inductive Spread (defs : Definitions) : Members → Members → Prop
  | plain {members} : localRef? members = none → Spread defs members members
  | reference {members name definition spread} : localRef? members = some name →
      definition? defs name = some definition → Spread defs definition spread →
      Spread defs members (update spread (siblings members))

mutual

/-- The value with every reference replaced by its definition, whose members the
siblings override. -/
inductive Inlined (defs : Definitions) : Json → Json → Prop
  | null : Inlined defs .null .null
  | bool (value) : Inlined defs (.bool value) (.bool value)
  | int (value) : Inlined defs (.int value) (.int value)
  | float (value) : Inlined defs (.float value) (.float value)
  | str (value) : Inlined defs (.str value) (.str value)
  | arr {items items'} : InlinedItems defs items items' → Inlined defs (.arr items) (.arr items')
  | obj {members spread members'} : Spread defs members spread →
      InlinedMembers defs spread members' → Inlined defs (.obj members) (.obj members')

inductive InlinedItems (defs : Definitions) : List Json → List Json → Prop
  | nil : InlinedItems defs [] []
  | cons {item item' rest rest'} : Inlined defs item item' → InlinedItems defs rest rest' →
      InlinedItems defs (item :: rest) (item' :: rest')

inductive InlinedMembers (defs : Definitions) : Members → Members → Prop
  | empty : InlinedMembers defs [] []
  | member {name item item' rest rest'} : Inlined defs item item' →
      InlinedMembers defs rest rest' →
      InlinedMembers defs ((name, item) :: rest) ((name, item') :: rest')

end

/-- No object of the value has a local reference. -/
def FreeOfRefs (value : Json) : Prop := ∀ name, ¬ Mentions value name

end References

section Updating

theorem member?_assign (members : Members) (member : String × Json) (name : String) :
    Json.member? (assign members member) name =
      if member.1 = name then some member.2 else Json.member? members name := by
  induction members with
  | nil => rw [assign, Json.member?_cons]
  | cons other rest ih =>
      rw [assign]
      by_cases hother : other.1 = member.1
      · rw [if_pos hother, Json.member?_cons]
        by_cases hname : member.1 = name
        · rw [if_pos hname, if_pos hname]
        · rw [if_neg hname, if_neg hname, Json.member?_filter rest (Ne.symm hname), Json.member?_cons,
            if_neg (by rwa [hother])]
      · rw [if_neg hother, Json.member?_cons, Json.member?_cons, ih]
        by_cases hname : member.1 = name
        · rw [if_pos hname, if_pos hname, if_neg (by rwa [← hname])]
        · rw [if_neg hname, if_neg hname]

/-- Members of other names leave a member as it was. -/
theorem member?_update {more : Members} {name : String}
    (hmore : ∀ member ∈ more, member.1 ≠ name) (members : Members) :
    Json.member? (update members more) name = Json.member? members name := by
  induction more generalizing members with
  | nil => rfl
  | cons member rest ih =>
      rw [update, List.foldl_cons]
      refine (ih (fun other hother => hmore other (.tail _ hother)) _).trans ?_
      rw [member?_assign, if_neg (hmore member List.mem_cons_self)]

theorem siblings_names (members : Members) : ∀ member ∈ siblings members, member.1 ≠ "$ref" :=
  fun _ hmember => by simpa using (List.mem_filter.mp hmember).2

/-- Siblings do not change which definition is referred to. -/
theorem localRef?_update (definition members : Members) :
    localRef? (update definition (siblings members)) = localRef? definition := by
  rw [localRef?, localRef?, member?_update (siblings_names members)]

theorem filter_assign (members : Members) (member : String × Json) {name : String}
    (hname : member.1 ≠ name) :
    (assign members member).filter (fun other => other.1 ≠ name) =
      assign (members.filter fun other => other.1 ≠ name) member := by
  induction members with
  | nil => exact List.filter_cons_of_pos (by simpa using hname)
  | cons other rest ih =>
      rw [assign]
      by_cases hother : other.1 = member.1
      · have hkept : other.1 ≠ name := by rwa [hother]
        rw [if_pos hother, List.filter_cons_of_pos (by simpa using hname),
          List.filter_cons_of_pos (by simpa using hkept), assign, if_pos hother,
          List.filter_filter, List.filter_filter]
        simp only [Bool.and_comm]
      · rw [if_neg hother]
        by_cases hkept : other.1 = name
        · rw [List.filter_cons_of_neg (by simpa using hkept),
            List.filter_cons_of_neg (by simpa using hkept), ih]
        · rw [List.filter_cons_of_pos (by simpa using hkept),
            List.filter_cons_of_pos (by simpa using hkept), assign, if_neg hother, ih]

theorem siblings_update {more : Members} (hmore : ∀ member ∈ more, member.1 ≠ "$ref")
    (members : Members) :
    siblings (update members more) = update (siblings members) more := by
  induction more generalizing members with
  | nil => rfl
  | cons member rest ih =>
      have hassign : siblings (assign members member) = assign (siblings members) member :=
        filter_assign members member (hmore member List.mem_cons_self)
      have hrest := ih (fun other hother => hmore other (.tail _ hother)) (assign members member)
      rw [hassign] at hrest
      exact hrest

theorem assign_assign (members : Members) {other member : String × Json}
    (hsame : other.1 = member.1) :
    assign (assign members other) member = assign members member := by
  induction members with
  | nil => simp [assign, hsame]
  | cons first rest ih =>
      by_cases hfirst : first.1 = member.1
      · rw [assign, if_pos (hfirst.trans hsame.symm), assign, if_pos hsame, assign,
          if_pos hfirst, List.filter_filter, hsame]
        simp only [Bool.and_self]
      · rw [assign, if_neg (by rwa [hsame]), assign, if_neg hfirst, ih, assign, if_neg hfirst]

/-- A member that has its place can be assigned before another one. -/
theorem assign_comm {members : Members} {other member : String × Json}
    (hplace : member.1 ∈ members.map Prod.fst) (hne : other.1 ≠ member.1) :
    assign (assign members other) member = assign (assign members member) other := by
  induction members with
  | nil => exact absurd hplace List.not_mem_nil
  | cons first rest ih =>
      by_cases hfirst : first.1 = member.1
      · have hother : first.1 ≠ other.1 := by rw [hfirst]; exact hne.symm
        rw [assign, if_neg hother, assign, if_pos hfirst, assign, if_pos hfirst, assign,
          if_neg hne.symm, filter_assign rest other hne]
      · have hrest : member.1 ∈ rest.map Prod.fst :=
          (List.mem_cons.mp hplace).resolve_left (Ne.symm hfirst)
        by_cases hother : first.1 = other.1
        · rw [assign, if_pos hother, assign, if_neg hne, assign, if_neg hfirst, assign,
            if_pos hother, filter_assign rest member hne.symm]
        · rw [assign, if_neg hother, assign, if_neg hfirst, ih hrest, assign, if_neg hfirst,
            assign, if_neg hother]

theorem name_mem_assign (members : Members) (member : String × Json) :
    member.1 ∈ (assign members member).map Prod.fst := by
  induction members with
  | nil => exact List.mem_cons_self
  | cons other rest ih =>
      rw [assign]
      split
      · exact List.mem_cons_self
      · exact List.mem_cons_of_mem _ ih

theorem name_mem_assign_of_mem {members : Members} {name : String}
    (hname : name ∈ members.map Prod.fst) (member : String × Json) :
    name ∈ (assign members member).map Prod.fst := by
  rw [← Json.member?_isSome_iff, member?_assign]
  split
  · rfl
  · exact Json.member?_isSome_iff.mpr hname

theorem assign_update {members : Members} {member : String × Json}
    (hplace : member.1 ∈ members.map Prod.fst) (more : Members) :
    assign (update members more) member =
      update (assign members member) (more.filter fun other => other.1 ≠ member.1) := by
  induction more generalizing members with
  | nil => rfl
  | cons other rest ih =>
      have hrest := ih (name_mem_assign_of_mem hplace other)
      rw [update, List.foldl_cons]
      by_cases hother : other.1 = member.1
      · rw [List.filter_cons_of_neg (by simpa using hother), ← update, hrest,
          assign_assign members hother]
      · rw [List.filter_cons_of_pos (by simpa using hother), ← update, hrest,
          assign_comm hplace hother]
        rfl

theorem update_assign (members more : Members) (member : String × Json) :
    update members (assign more member) = assign (update members more) member := by
  induction more generalizing members with
  | nil => rfl
  | cons other rest ih =>
      rw [assign]
      by_cases hother : other.1 = member.1
      · have hplace := name_mem_assign members other
        rw [hother] at hplace
        rw [if_pos hother, update, update, List.foldl_cons, List.foldl_cons, ← update, ← update,
          assign_update hplace, assign_assign members hother]
      · rw [if_neg hother, update, update, List.foldl_cons, List.foldl_cons]
        exact ih (assign members other)

/-- Updates can be put together from either end. -/
theorem update_update (members more last : Members) :
    update members (update more last) = update (update members more) last := by
  induction last generalizing more with
  | nil => rfl
  | cons member rest ih =>
      have hrest := ih (assign more member)
      rw [update_assign] at hrest
      exact hrest

end Updating

section Inlining

variable {defs : Definitions}

theorem Spread.free {members spread : Members} (hspread : Spread defs members spread) :
    localRef? spread = none := by
  induction hspread with
  | plain hplain => exact hplain
  | reference _ _ _ ih => rw [localRef?_update, ih]

/-- What a merged object spreads to is the definition's own, overridden. -/
theorem Spread.of_update {definition members spread : Members}
    (hspread : Spread defs (update definition (siblings members)) spread) :
    ∃ own, Spread defs definition own ∧ spread = update own (siblings members) := by
  cases hspread with
  | plain hplain =>
      rw [localRef?_update] at hplain
      exact ⟨definition, .plain hplain, rfl⟩
  | reference href hdefinition hinner =>
      rw [localRef?_update] at href
      refine ⟨_, .reference href hdefinition hinner, ?_⟩
      rw [siblings_update (siblings_names members), update_update]

theorem InlinedMembers.member? {members members' : Members}
    (hinlined : InlinedMembers defs members members') {name : String} {item' : Json}
    (hmember : Json.member? members' name = some item') :
    ∃ item, Json.member? members name = some item ∧ Inlined defs item item' := by
  induction members generalizing members' with
  | nil =>
      cases hinlined
      exact absurd hmember (by simp [Json.member?])
  | cons member rest ih =>
      cases hinlined with
      | @member key item _ _ rest' hitem hrest =>
          rw [Json.member?_cons] at hmember ⊢
          by_cases hname : key = name
          · rw [if_pos hname] at hmember ⊢
            cases hmember
            exact ⟨item, rfl, hitem⟩
          · rw [if_neg hname] at hmember ⊢
            exact ih hrest hmember

/-- Inlining makes no reference. -/
theorem InlinedMembers.localRef? {members members' : Members}
    (hinlined : InlinedMembers defs members members') (hplain : localRef? members = none) :
    InlinedDefs.localRef? members' = none := by
  rw [InlinedDefs.localRef?]
  split
  · next ref hmember =>
      obtain ⟨item, hitem, hinner⟩ := hinlined.member? hmember
      cases hinner
      rw [InlinedDefs.localRef?, hitem] at hplain
      exact hplain
  · rfl

theorem mentions_arr (items : List Json) (name : String) :
    Mentions (.arr items) name ↔ ∃ item ∈ items, Mentions item name := by
  constructor
  · rintro ⟨members, hwithin, href⟩
    cases hwithin with
    | item hmem hpart => exact ⟨_, hmem, members, hpart, href⟩
  · rintro ⟨item, hmem, members, hpart, href⟩
    exact ⟨members, .item hmem hpart, href⟩

theorem mentions_obj (members : Members) (name : String) :
    Mentions (.obj members) name ↔
      localRef? members = some name ∨ ∃ member ∈ members, Mentions member.2 name := by
  constructor
  · rintro ⟨inner, hwithin, href⟩
    cases hwithin with
    | here => exact .inl href
    | member hmem hpart => exact .inr ⟨_, hmem, inner, hpart, href⟩
  · rintro (href | ⟨member, hmem, inner, hpart, href⟩)
    · exact ⟨members, .here, href⟩
    · exact ⟨inner, .member hmem hpart, href⟩

/-- Nothing is left to be replaced. -/
theorem Inlined.free {value value' : Json} (hinlined : Inlined defs value value') :
    FreeOfRefs value' := by
  refine @Inlined.rec defs (fun _ value' _ => FreeOfRefs value')
    (fun _ items' _ => ∀ item ∈ items', FreeOfRefs item)
    (fun _ members' _ => ∀ member ∈ members', FreeOfRefs member.2)
    (fun _ ⟨_, hwithin, _⟩ => nomatch hwithin) (fun _ _ ⟨_, hwithin, _⟩ => nomatch hwithin)
    (fun _ _ ⟨_, hwithin, _⟩ => nomatch hwithin) (fun _ _ ⟨_, hwithin, _⟩ => nomatch hwithin)
    (fun _ _ ⟨_, hwithin, _⟩ => nomatch hwithin) ?arr ?obj
    (fun _ hmem => absurd hmem List.not_mem_nil)
    (fun _ _ hitem hrest => List.forall_mem_cons.mpr ⟨hitem, hrest⟩)
    (fun _ hmem => absurd hmem List.not_mem_nil)
    (fun _ _ hitem hrest => List.forall_mem_cons.mpr ⟨hitem, hrest⟩) value value' hinlined
  case arr =>
    intro items items' _ hfree name hmentions
    obtain ⟨item, hmem, hitem⟩ := (mentions_arr _ name).mp hmentions
    exact hfree item hmem name hitem
  case obj =>
    intro members spread members' hspread hmembers hfree name hmentions
    rcases (mentions_obj _ name).mp hmentions with href | ⟨member, hmem, hmember⟩
    · rw [hmembers.localRef? hspread.free] at href
      cases href
    · exact hfree member hmem name hmember

theorem InlinedMembers.filter {members members' : Members}
    (hinlined : InlinedMembers defs members members') (name : String) :
    InlinedMembers defs (members.filter fun other => other.1 ≠ name)
      (members'.filter fun other => other.1 ≠ name) := by
  induction members generalizing members' with
  | nil =>
      cases hinlined
      exact .empty
  | cons member rest ih =>
      cases hinlined with
      | @member key item _ _ rest' hitem hrest =>
          by_cases hkey : key = name
          · rw [List.filter_cons_of_neg (by simpa using hkey),
              List.filter_cons_of_neg (by simpa using hkey)]
            exact ih hrest
          · rw [List.filter_cons_of_pos (by simpa using hkey),
              List.filter_cons_of_pos (by simpa using hkey)]
            exact .member hitem (ih hrest)

theorem InlinedMembers.assign {members members' : Members}
    (hinlined : InlinedMembers defs members members') (name : String) {item item' : Json}
    (hitem : Inlined defs item item') :
    InlinedMembers defs (assign members (name, item))
      (InlinedDefs.assign members' (name, item')) := by
  induction members generalizing members' with
  | nil =>
      cases hinlined
      exact .member hitem .empty
  | cons member rest ih =>
      cases hinlined with
      | @member key _ _ _ rest' hfirst hrest =>
          rw [InlinedDefs.assign, InlinedDefs.assign]
          by_cases hkey : key = name
          · rw [if_pos hkey, if_pos hkey]
            exact .member hitem (hrest.filter name)
          · rw [if_neg hkey, if_neg hkey]
            exact .member hfirst (ih hrest)

theorem InlinedMembers.update {members members' more more' : Members}
    (hinlined : InlinedMembers defs members members')
    (hmore : InlinedMembers defs more more') :
    InlinedMembers defs (update members more) (InlinedDefs.update members' more') := by
  induction more generalizing members members' more' with
  | nil =>
      cases hmore
      exact hinlined
  | cons member rest ih =>
      cases hmore with
      | @member name item item' _ rest' hitem hrest =>
          have hupdated := ih (hinlined.assign name hitem) hrest
          exact hupdated

/-- A reference becomes its inlined definition, whose members the inlined siblings
override. -/
theorem Inlined.reference {members definition definition' siblings' : Members} {name : String}
    (href : localRef? members = some name) (hdefinition : definition? defs name = some definition)
    (hinlined : Inlined defs (.obj definition) (.obj definition'))
    (hsiblings : InlinedMembers defs (siblings members) siblings') :
    Inlined defs (.obj members) (.obj (update definition' siblings')) := by
  cases hinlined with
  | obj hspread hmembers =>
      exact .obj (.reference href hdefinition hspread) (hmembers.update hsiblings)

end Inlining

section Walking

variable {defs : Definitions}

theorem map_eq_ok_iff {A B : Type} {f : A → B} {result : Except Failure A} {b : B} :
    result.map f = .ok b ↔ ∃ a, result = .ok a ∧ f a = b := by
  cases result <;> simp [Except.map]

theorem map_eq_error_iff {A B : Type} {f : A → B} {result : Except Failure A}
    {failure : Failure} : result.map f = .error failure ↔ result = .error failure := by
  cases result <;> simp [Except.map]

theorem walk_obj_plain (fuel : Nat) {members : Members} (hplain : localRef? members = none) :
    walk defs (fuel + 1) (.obj members) = (walkMembers defs fuel members).map .obj := by
  rw [walk, hplain]

theorem definition?_eq_some_iff {name : String} {definition : Members} :
    definition? defs name = some definition ↔ lookup defs name = .ok definition := by
  rw [definition?]
  cases lookup defs name <;> simp [Except.toOption]

theorem definition?_eq_none_iff {name : String} :
    definition? defs name = none ↔ ∃ failure, lookup defs name = .error failure := by
  rw [definition?]
  cases lookup defs name <;> simp [Except.toOption]

/-- A name fails with a key error where it has no entry, and else for its entry. -/
theorem lookup_error {name : String} {failure : Failure}
    (hfails : lookup defs name = .error failure) :
    failure = .keyError name ∧ Missing defs name ∨
      failure = .noMapping name ∧ ¬ Missing defs name := by
  rw [lookup] at hfails
  split at hfails
  · next hentry => exact .inl ⟨(Except.error.inj hfails).symm, .inl hentry⟩
  · next hentry => exact .inl ⟨(Except.error.inj hfails).symm, .inr hentry⟩
  · next definition hpresent hentry =>
      split at hfails
      · refine .inr ⟨(Except.error.inj hfails).symm, ?_⟩
        rintro (hnone | hnull)
        · rw [hentry] at hnone
          cases hnone
        · exact hpresent (Option.some.inj (hentry.symm.trans hnull))
      · cases hfails

/-- What is missing has no definition. -/
theorem Missing.definition? {name : String} (hmissing : Missing defs name) :
    definition? defs name = none := by
  rw [definition?_eq_none_iff]
  rcases hmissing with hnone | hnull
  · exact ⟨.keyError name, by rw [lookup, hnone]⟩
  · exact ⟨.keyError name, by rw [lookup, hnull]⟩

theorem walk_obj_failing (fuel : Nat) {members : Members} {name : String} {failure : Failure}
    (href : localRef? members = some name) (hfails : lookup defs name = .error failure) :
    walk defs (fuel + 1) (.obj members) = .error failure := by
  simp only [walk, href, hfails]

theorem walk_obj_merged (fuel : Nat) {members definition : Members} {name : String}
    (href : localRef? members = some name) (hdefinition : definition? defs name = some definition) :
    walk defs (fuel + 1) (.obj members) =
      walk defs fuel (.obj (update definition (siblings members))) := by
  simp only [walk, href, definition?_eq_some_iff.mp hdefinition]

theorem walkItems_cons (fuel : Nat) (item : Json) (rest : List Json) :
    walkItems defs (fuel + 1) (item :: rest) =
      (walk defs fuel item).bind fun item' =>
        (walkItems defs fuel rest).map fun rest' => item' :: rest' := by
  rw [walkItems]
  cases walk defs fuel item with
  | error failure => rfl
  | ok item' => cases walkItems defs fuel rest <;> rfl

theorem walkMembers_cons (fuel : Nat) (name : String) (item : Json) (rest : Members) :
    walkMembers defs (fuel + 1) ((name, item) :: rest) =
      (walk defs fuel item).bind fun item' =>
        (walkMembers defs fuel rest).map fun rest' => (name, item') :: rest' := by
  rw [walkMembers]
  cases walk defs fuel item with
  | error failure => rfl
  | ok item' => cases walkMembers defs fuel rest <;> rfl

/-- What the walk returns is the value inlined. -/
theorem walk_inlined (fuel : Nat) :
    (∀ value value', walk defs fuel value = .ok value' → Inlined defs value value') ∧
    (∀ items items', walkItems defs fuel items = .ok items' →
      InlinedItems defs items items') ∧
    (∀ members members', walkMembers defs fuel members = .ok members' →
      InlinedMembers defs members members') := by
  induction fuel with
  | zero =>
      refine ⟨fun _ _ h => ?_, fun _ _ h => ?_, fun _ _ h => ?_⟩ <;> cases h
  | succ fuel ih =>
      obtain ⟨ihvalue, ihitems, ihmembers⟩ := ih
      refine ⟨fun value value' hwalk => ?_, fun items items' hwalk => ?_,
        fun members members' hwalk => ?_⟩
      · cases value with
        | null =>
            cases hwalk
            exact .null
        | bool b =>
            cases hwalk
            exact .bool b
        | int n =>
            cases hwalk
            exact .int n
        | float q =>
            cases hwalk
            exact .float q
        | str text =>
            cases hwalk
            exact .str text
        | arr items =>
            obtain ⟨items', hitems, rfl⟩ := map_eq_ok_iff.mp hwalk
            exact .arr (ihitems items items' hitems)
        | obj members =>
            cases href : localRef? members with
            | none =>
                rw [walk_obj_plain fuel href] at hwalk
                obtain ⟨members', hmembers, rfl⟩ := map_eq_ok_iff.mp hwalk
                exact .obj (.plain href) (ihmembers members members' hmembers)
            | some name =>
                cases hdefinition : definition? defs name with
                | none =>
                    obtain ⟨failure, hfails⟩ := definition?_eq_none_iff.mp hdefinition
                    rw [walk_obj_failing fuel href hfails] at hwalk
                    cases hwalk
                | some definition =>
                    rw [walk_obj_merged fuel href hdefinition] at hwalk
                    cases ihvalue _ _ hwalk with
                    | obj hspread hmembers =>
                        obtain ⟨own, hown, rfl⟩ := hspread.of_update
                        exact .obj (.reference href hdefinition hown) hmembers
      · cases items with
        | nil =>
            cases hwalk
            exact .nil
        | cons item rest =>
            rw [walkItems_cons] at hwalk
            cases hitem : walk defs fuel item with
            | error failure =>
                rw [hitem] at hwalk
                cases hwalk
            | ok item' =>
                rw [hitem] at hwalk
                obtain ⟨rest', hrest, rfl⟩ := map_eq_ok_iff.mp hwalk
                exact .cons (ihvalue item item' hitem) (ihitems rest rest' hrest)
      · cases members with
        | nil =>
            cases hwalk
            exact .empty
        | cons member rest =>
            rw [walkMembers_cons] at hwalk
            cases hitem : walk defs fuel member.2 with
            | error failure =>
                rw [hitem] at hwalk
                cases hwalk
            | ok item' =>
                rw [hitem] at hwalk
                obtain ⟨rest', hrest, rfl⟩ := map_eq_ok_iff.mp hwalk
                exact .member (ihvalue member.2 item' hitem) (ihmembers rest rest' hrest)

/-- An error is that of a reference that remains. -/
theorem walk_raises (fuel : Nat) {failure : Failure} (hraised : failure ≠ .exhausted) :
    (∀ value, walk defs fuel value = .error failure →
      ∃ name, Remains defs value name ∧ lookup defs name = .error failure) ∧
    (∀ items, walkItems defs fuel items = .error failure →
      ∃ item ∈ items, ∃ name, Remains defs item name ∧ lookup defs name = .error failure) ∧
    (∀ members, walkMembers defs fuel members = .error failure →
      ∃ member ∈ members, ∃ name,
        Remains defs member.2 name ∧ lookup defs name = .error failure) := by
  induction fuel with
  | zero =>
      refine ⟨fun _ h => ?_, fun _ h => ?_, fun _ h => ?_⟩ <;>
        exact absurd (Except.error.inj h).symm hraised
  | succ fuel ih =>
      obtain ⟨ihvalue, ihitems, ihmembers⟩ := ih
      refine ⟨fun value hwalk => ?_, fun items hwalk => ?_, fun members hwalk => ?_⟩
      · cases value with
        | arr items =>
            obtain ⟨item, hmem, name, hremains, hfails⟩ :=
              ihitems items (map_eq_error_iff.mp hwalk)
            exact ⟨name, .item hmem hremains, hfails⟩
        | obj members =>
            cases href : localRef? members with
            | none =>
                rw [walk_obj_plain fuel href] at hwalk
                obtain ⟨member, hmem, name, hremains, hfails⟩ :=
                  ihmembers members (map_eq_error_iff.mp hwalk)
                exact ⟨name, .member href hmem hremains, hfails⟩
            | some target =>
                cases hlookup : lookup defs target with
                | error other =>
                    rw [walk_obj_failing fuel href hlookup] at hwalk
                    exact ⟨target, .here href, by rw [hlookup, Except.error.inj hwalk]⟩
                | ok definition =>
                    have hdefinition := definition?_eq_some_iff.mpr hlookup
                    rw [walk_obj_merged fuel href hdefinition] at hwalk
                    obtain ⟨name, hremains, hfails⟩ := ihvalue _ hwalk
                    exact ⟨name, .merged href hdefinition hremains, hfails⟩
        | _ => cases hwalk
      · cases items with
        | nil => cases hwalk
        | cons item rest =>
            rw [walkItems_cons] at hwalk
            cases hitem : walk defs fuel item with
            | error failure =>
                rw [hitem] at hwalk
                cases hwalk
                exact ⟨item, List.mem_cons_self, ihvalue item hitem⟩
            | ok item' =>
                rw [hitem] at hwalk
                obtain ⟨other, hmem, hother⟩ := ihitems rest (map_eq_error_iff.mp hwalk)
                exact ⟨other, .tail _ hmem, hother⟩
      · cases members with
        | nil => cases hwalk
        | cons member rest =>
            rw [walkMembers_cons] at hwalk
            cases hitem : walk defs fuel member.2 with
            | error failure =>
                rw [hitem] at hwalk
                cases hwalk
                exact ⟨member, List.mem_cons_self, ihvalue member.2 hitem⟩
            | ok item' =>
                rw [hitem] at hwalk
                obtain ⟨other, hmem, hother⟩ := ihmembers rest (map_eq_error_iff.mp hwalk)
                exact ⟨other, .tail _ hmem, hother⟩

theorem walkItems_ok {fuel : Nat} {items items' : List Json}
    (hwalk : walkItems defs fuel items = .ok items') {item : Json} (hmem : item ∈ items) :
    ∃ fuel' item', walk defs fuel' item = .ok item' := by
  induction items generalizing fuel items' with
  | nil => exact absurd hmem List.not_mem_nil
  | cons first rest ih =>
      cases fuel with
      | zero => cases hwalk
      | succ fuel =>
          rw [walkItems_cons] at hwalk
          cases hfirst : walk defs fuel first with
          | error failure =>
              rw [hfirst] at hwalk
              cases hwalk
          | ok first' =>
              rw [hfirst] at hwalk
              obtain ⟨rest', hrest, rfl⟩ := map_eq_ok_iff.mp hwalk
              rcases List.mem_cons.mp hmem with rfl | hmem
              · exact ⟨fuel, first', hfirst⟩
              · exact ih hrest hmem

theorem walkMembers_ok {fuel : Nat} {members members' : Members}
    (hwalk : walkMembers defs fuel members = .ok members') {member : String × Json}
    (hmem : member ∈ members) : ∃ fuel' item', walk defs fuel' member.2 = .ok item' := by
  induction members generalizing fuel members' with
  | nil => exact absurd hmem List.not_mem_nil
  | cons first rest ih =>
      cases fuel with
      | zero => cases hwalk
      | succ fuel =>
          rw [walkMembers_cons] at hwalk
          cases hfirst : walk defs fuel first.2 with
          | error failure =>
              rw [hfirst] at hwalk
              cases hwalk
          | ok first' =>
              rw [hfirst] at hwalk
              obtain ⟨rest', hrest, rfl⟩ := map_eq_ok_iff.mp hwalk
              rcases List.mem_cons.mp hmem with rfl | hmem
              · exact ⟨fuel, first', hfirst⟩
              · exact ih hrest hmem

/-- No walk gets past a remaining reference without an entry. -/
theorem Remains.not_ok {value : Json} {name : String} (hremains : Remains defs value name)
    (hnone : definition? defs name = none) (fuel : Nat) (value' : Json) :
    walk defs fuel value ≠ .ok value' := by
  induction hremains generalizing fuel value' with
  | item hmem _ ih =>
      intro hwalk
      cases fuel with
      | zero => cases hwalk
      | succ fuel =>
          obtain ⟨items', hitems, rfl⟩ := map_eq_ok_iff.mp hwalk
          obtain ⟨fuel', item', hitem⟩ := walkItems_ok hitems hmem
          exact ih hnone fuel' item' hitem
  | member hplain hmem _ ih =>
      intro hwalk
      cases fuel with
      | zero => cases hwalk
      | succ fuel =>
          rw [walk_obj_plain fuel hplain] at hwalk
          obtain ⟨members', hmembers, rfl⟩ := map_eq_ok_iff.mp hwalk
          obtain ⟨fuel', item', hitem⟩ := walkMembers_ok hmembers hmem
          exact ih hnone fuel' item' hitem
  | here href =>
      intro hwalk
      cases fuel with
      | zero => cases hwalk
      | succ fuel =>
          obtain ⟨failure, hfails⟩ := definition?_eq_none_iff.mp hnone
          rw [walk_obj_failing fuel href hfails] at hwalk
          cases hwalk
  | merged href hdefinition _ ih =>
      intro hwalk
      cases fuel with
      | zero => cases hwalk
      | succ fuel =>
          rw [walk_obj_merged fuel href hdefinition] at hwalk
          exact ih hnone fuel value' hwalk

end Walking

section Fuel

/-- The weight of the definition that an object refers to. -/
def refWeight (weight : String → Nat) (members : Members) : Nat :=
  match localRef? members with
  | some name => weight name
  | none => 0

mutual

/-- The fuel that a walk needs, where a reference weighs as much as its definition. -/
def mass (weight : String → Nat) : Json → Nat
  | .arr items => 1 + massItems weight items
  | .obj members => 1 + refWeight weight members + massMembers weight members
  | .null => 1
  | .bool _ => 1
  | .int _ => 1
  | .float _ => 1
  | .str _ => 1

def massItems (weight : String → Nat) : List Json → Nat
  | [] => 1
  | item :: rest => 1 + mass weight item + massItems weight rest

def massMembers (weight : String → Nat) : Members → Nat
  | [] => 1
  | (_, item) :: rest => 1 + mass weight item + massMembers weight rest

end

section Congruence

variable {weight weight' : String → Nat}

mutual

/-- Only the names that are mentioned weigh. -/
theorem mass_congr : ∀ value : Json,
    (∀ name, Mentions value name → weight name = weight' name) →
      mass weight value = mass weight' value
  | .arr items, hsame => by
      rw [mass, mass, massItems_congr items fun item hmem name hmentions =>
        hsame name ((mentions_arr items name).mpr ⟨item, hmem, hmentions⟩)]
  | .obj members, hsame => by
      have href : refWeight weight members = refWeight weight' members := by
        rw [refWeight, refWeight]
        split
        · next name href => exact hsame name ((mentions_obj members name).mpr (.inl href))
        · rfl
      rw [mass, mass, href, massMembers_congr members fun member hmem name hmentions =>
        hsame name ((mentions_obj members name).mpr (.inr ⟨member, hmem, hmentions⟩))]
  | .null, _ => rfl
  | .bool _, _ => rfl
  | .int _, _ => rfl
  | .float _, _ => rfl
  | .str _, _ => rfl

theorem massItems_congr : ∀ items : List Json,
    (∀ item ∈ items, ∀ name, Mentions item name → weight name = weight' name) →
      massItems weight items = massItems weight' items
  | [], _ => rfl
  | item :: rest, hsame => by
      rw [massItems, massItems, mass_congr item (hsame item List.mem_cons_self),
        massItems_congr rest fun other hother => hsame other (.tail _ hother)]

theorem massMembers_congr : ∀ members : Members,
    (∀ member ∈ members, ∀ name, Mentions member.2 name → weight name = weight' name) →
      massMembers weight members = massMembers weight' members
  | [], _ => rfl
  | (key, item) :: rest, hsame => by
      rw [massMembers, massMembers, mass_congr item (hsame (key, item) List.mem_cons_self),
        massMembers_congr rest fun other hother => hsame other (.tail _ hother)]

end

end Congruence

theorem definition?_mem {defs : Definitions} {name : String} {definition : Members}
    (hdefinition : definition? defs name = some definition) : name ∈ defs.map Prod.fst := by
  have hlookup := definition?_eq_some_iff.mp hdefinition
  obtain ⟨value, hentry⟩ : ∃ value, entry? defs name = some value := by
    rw [← Option.ne_none_iff_exists']
    intro hnone
    rw [lookup, hnone] at hlookup
    cases hlookup
  obtain ⟨entry, hfound, -⟩ := Option.map_eq_some_iff.mp hentry
  have hname : entry.1 = name := by simpa using List.find?_some hfound
  exact List.mem_map.mpr ⟨entry, List.mem_of_find?_eq_some hfound, hname⟩

/-- Without a cycle every name can be given the weight of its definition. -/
theorem Acyclic.exists_weight {defs : Definitions} (hacyclic : Acyclic defs) :
    ∃ weight : String → Nat, ∀ name definition, definition? defs name = some definition →
      weight name = mass weight (.obj definition) := by
  classical
  have hwf : WellFounded fun other name => Refers defs name other :=
    Chains.Acyclic.wellFounded hacyclic (defs.map Prod.fst)
      fun _ _ ⟨_, hdefinition, _⟩ => definition?_mem hdefinition
  let step (name : String) (below : ∀ other, Refers defs name other → Nat) : Nat :=
    match definition? defs name with
    | none => 0
    | some definition =>
        mass (fun other => if h : Refers defs name other then below other h else 0)
          (.obj definition)
  refine ⟨hwf.fix step, fun name definition hdefinition => ?_⟩
  rw [hwf.fix_eq]
  simp only [step, hdefinition]
  refine mass_congr _ fun other hmentions => ?_
  rw [dif_pos ⟨definition, hdefinition, hmentions⟩]

section Bounds

variable (weight : String → Nat)

theorem massMembers_filter (members : Members) (keep : String × Json → Bool) :
    massMembers weight (members.filter keep) ≤ massMembers weight members := by
  induction members with
  | nil => exact Nat.le_refl _
  | cons member rest ih =>
      rw [List.filter_cons]
      split
      · simp only [massMembers]
        omega
      · simp only [massMembers]
        omega

theorem massMembers_assign (members : Members) (member : String × Json) :
    massMembers weight (assign members member) ≤
      massMembers weight members + 1 + mass weight member.2 := by
  induction members with
  | nil =>
      simp only [assign, massMembers]
      omega
  | cons other rest ih =>
      rw [assign]
      split
      · have hfilter := massMembers_filter weight rest fun later => later.1 ≠ member.1
        simp only [massMembers]
        omega
      · simp only [massMembers]
        omega

theorem massMembers_update (members more : Members) :
    massMembers weight (update members more) + 1 ≤
      massMembers weight members + massMembers weight more := by
  induction more generalizing members with
  | nil => simp only [update, List.foldl_nil, massMembers]; omega
  | cons member rest ih =>
      have hassign := massMembers_assign weight members member
      have hrest := ih (assign members member)
      simp only [update, List.foldl_cons, massMembers] at hrest ⊢
      omega

/-- A merged object weighs no more than the reference did. -/
theorem mass_merged (definition members : Members) :
    mass weight (.obj (update definition (siblings members))) ≤
      mass weight (.obj definition) + massMembers weight members := by
  have hupdate := massMembers_update weight definition (siblings members)
  have hsiblings : massMembers weight (siblings members) ≤ massMembers weight members :=
    massMembers_filter weight members _
  rw [mass, mass, refWeight, localRef?_update, ← refWeight]
  omega

end Bounds

/-- With fuel of its weight a walk ends. -/
theorem walk_not_exhausted {defs : Definitions} {weight : String → Nat}
    (hweight : ∀ name definition, definition? defs name = some definition →
      weight name = mass weight (.obj definition)) (fuel : Nat) :
    (∀ value, mass weight value ≤ fuel → walk defs fuel value ≠ .error .exhausted) ∧
    (∀ items, massItems weight items ≤ fuel →
      walkItems defs fuel items ≠ .error .exhausted) ∧
    (∀ members, massMembers weight members ≤ fuel →
      walkMembers defs fuel members ≠ .error .exhausted) := by
  induction fuel with
  | zero =>
      refine ⟨fun value hmass => ?_, fun items hmass => ?_, fun members hmass => ?_⟩
      · cases value <;> simp only [mass] at hmass <;> omega
      · cases items <;> simp only [massItems] at hmass <;> omega
      · cases members <;> simp only [massMembers] at hmass <;> omega
  | succ fuel ih =>
      obtain ⟨ihvalue, ihitems, ihmembers⟩ := ih
      refine ⟨fun value hmass hwalk => ?_, fun items hmass hwalk => ?_,
        fun members hmass hwalk => ?_⟩
      · cases value with
        | arr items =>
            rw [mass] at hmass
            exact ihitems items (by omega) (map_eq_error_iff.mp hwalk)
        | obj members =>
            rw [mass] at hmass
            cases href : localRef? members with
            | none =>
                rw [walk_obj_plain fuel href] at hwalk
                exact ihmembers members (by omega) (map_eq_error_iff.mp hwalk)
            | some name =>
                cases hdefinition : definition? defs name with
                | none =>
                    obtain ⟨failure, hfails⟩ := definition?_eq_none_iff.mp hdefinition
                    rw [walk_obj_failing fuel href hfails] at hwalk
                    rcases lookup_error hfails with ⟨rfl, -⟩ | ⟨rfl, -⟩ <;> cases hwalk
                | some definition =>
                    have hmerged := mass_merged weight definition members
                    rw [walk_obj_merged fuel href hdefinition] at hwalk
                    rw [refWeight, href] at hmass
                    simp only [hweight name definition hdefinition] at hmass
                    exact ihvalue _ (by omega) hwalk
        | _ => cases hwalk
      · cases items with
        | nil => cases hwalk
        | cons item rest =>
            rw [massItems] at hmass
            rw [walkItems_cons] at hwalk
            cases hitem : walk defs fuel item with
            | error failure =>
                rw [hitem] at hwalk
                cases hwalk
                exact ihvalue item (by omega) hitem
            | ok item' =>
                rw [hitem] at hwalk
                exact ihitems rest (by omega) (map_eq_error_iff.mp hwalk)
      · cases members with
        | nil => cases hwalk
        | cons member rest =>
            rw [massMembers] at hmass
            rw [walkMembers_cons] at hwalk
            cases hitem : walk defs fuel member.2 with
            | error failure =>
                rw [hitem] at hwalk
                cases hwalk
                exact ihvalue member.2 (by omega) hitem
            | ok item' =>
                rw [hitem] at hwalk
                exact ihmembers rest (by omega) (map_eq_error_iff.mp hwalk)

end Fuel

section Result

variable {defs : Definitions}

theorem Spread.unique {members spread spread' : Members} (hspread : Spread defs members spread)
    (hspread' : Spread defs members spread') : spread = spread' := by
  induction hspread generalizing spread' with
  | plain hplain =>
      cases hspread' with
      | plain => rfl
      | reference href =>
          rw [hplain] at href
          cases href
  | reference href hdefinition _ ih =>
      cases hspread' with
      | plain hplain =>
          rw [hplain] at href
          cases href
      | reference href' hdefinition' hinner =>
          rw [href, Option.some.injEq] at href'
          subst href'
          rw [hdefinition, Option.some.injEq] at hdefinition'
          subst hdefinition'
          rw [ih hinner]

/-- A value is inlined in one way. -/
theorem Inlined.unique {value left right : Json} (hleft : Inlined defs value left)
    (hright : Inlined defs value right) : left = right := by
  refine @Inlined.rec defs (fun value left _ => ∀ right, Inlined defs value right → left = right)
    (fun items left _ => ∀ right, InlinedItems defs items right → left = right)
    (fun members left _ => ∀ right, InlinedMembers defs members right → left = right)
    ?null ?bool ?int ?float ?str ?arr ?obj ?nil ?cons ?empty ?member value left hleft right hright
  case null => exact fun _ h => by cases h; rfl
  case bool => exact fun _ _ h => by cases h; rfl
  case int => exact fun _ _ h => by cases h; rfl
  case float => exact fun _ _ h => by cases h; rfl
  case str => exact fun _ _ h => by cases h; rfl
  case nil => exact fun _ h => by cases h; rfl
  case empty => exact fun _ h => by cases h; rfl
  case arr =>
    intro items left _ ih right hright
    cases hright with
    | arr hitems => rw [ih _ hitems]
  case obj =>
    intro members spread left hspread _ ih right hright
    cases hright with
    | obj hspread' hmembers =>
        rw [hspread'.unique hspread] at hmembers
        rw [ih _ hmembers]
  case cons =>
    intro item left rest leftRest _ _ ihitem ihrest right hright
    cases hright with
    | cons hitem hrest => rw [ihitem _ hitem, ihrest _ hrest]
  case member =>
    intro name item left rest leftRest _ _ ihitem ihrest right hright
    cases hright with
    | member hitem hrest => rw [ihitem _ hitem, ihrest _ hrest]

theorem FreeOfRefs.dropTable {value : Json} (hfree : FreeOfRefs value) :
    FreeOfRefs (dropTable value) := by
  cases value with
  | obj members =>
      intro name hmentions
      refine hfree name ((mentions_obj members name).mpr ?_)
      rcases (mentions_obj _ name).mp hmentions with href | ⟨member, hmem, hmember⟩
      · rw [localRef?, Json.member?_filter members (by decide), ← localRef?] at href
        exact .inl href
      · exact .inr ⟨member, List.mem_of_mem_filter hmem, hmember⟩
  | _ => exact hfree

/-- For a table without cycles some fuel is enough.  The walk then raises exactly where
a reference that remains has no definition: a key error if it has no entry, and no other
error if every entry is a mapping.  What it returns is the node inlined, less the table at
its root, and holds no reference. -/
theorem inline_local_defs_complete (defs : Definitions) (node : Json)
    (hacyclic : Acyclic defs) :
    ∃ enough, ∀ fuel ≥ enough,
      ((∃ failure, inlineLocalDefs defs fuel node = .error failure) ↔
        ∃ name, Remains defs node name ∧ definition? defs name = none) ∧
      (∀ failure, inlineLocalDefs defs fuel node = .error failure →
        ∃ name, Remains defs node name ∧
          (failure = .keyError name ∧ Missing defs name ∨
            failure = .noMapping name ∧ ¬ Missing defs name)) ∧
      ((∀ name, definition? defs name = none → Missing defs name) →
        ((∃ name, inlineLocalDefs defs fuel node = .error (.keyError name)) ↔
          ∃ name, Remains defs node name ∧ Missing defs name)) ∧
      ((¬ ∃ failure, inlineLocalDefs defs fuel node = .error failure) →
        ∃ whole, inlineLocalDefs defs fuel node = .ok (dropTable whole) ∧
          FreeOfRefs (dropTable whole) ∧ Inlined defs node whole ∧
          ∀ other, Inlined defs node other → other = whole) := by
  obtain ⟨weight, hweight⟩ := hacyclic.exists_weight
  refine ⟨mass weight node, fun fuel hfuel => ?_⟩
  have hends := (walk_not_exhausted hweight fuel).1 node hfuel
  cases hwalk : walk defs fuel node with
  | ok whole =>
      have hresult : inlineLocalDefs defs fuel node = .ok (dropTable whole) :=
        map_eq_ok_iff.mpr ⟨whole, hwalk, rfl⟩
      have hinlined := (walk_inlined fuel).1 node whole hwalk
      have hdefined : ¬ ∃ name, Remains defs node name ∧ definition? defs name = none :=
        fun ⟨_, hremains, hnone⟩ => hremains.not_ok hnone fuel whole hwalk
      rw [hresult]
      refine ⟨iff_of_false (fun ⟨_, h⟩ => by cases h) hdefined, (fun _ h => by cases h),
        fun _ => iff_of_false (fun ⟨_, h⟩ => by cases h) ?_, fun _ => ?_⟩
      · rintro ⟨name, hremains, hmissing⟩
        exact hdefined ⟨name, hremains, hmissing.definition?⟩
      · exact ⟨whole, rfl, hinlined.free.dropTable, hinlined,
          fun other hother => hother.unique hinlined⟩
  | error failure =>
      have hresult : inlineLocalDefs defs fuel node = .error failure :=
        map_eq_error_iff.mpr hwalk
      have hraised : failure ≠ .exhausted := fun h => hends (by rw [hwalk, h])
      obtain ⟨name, hremains, hfails⟩ := (walk_raises fuel hraised).1 node hwalk
      have hnone := definition?_eq_none_iff.mpr ⟨failure, hfails⟩
      have hcause := lookup_error hfails
      rw [hresult]
      refine ⟨iff_of_true ⟨failure, rfl⟩ ⟨name, hremains, hnone⟩, ?_, fun hmappings => ?_,
        fun hno => absurd ⟨failure, rfl⟩ hno⟩
      · rintro _ ⟨⟩
        exact ⟨name, hremains, hcause⟩
      · have hmissing := hmappings name hnone
        obtain ⟨rfl, -⟩ := hcause.resolve_right fun h => h.2 hmissing
        exact iff_of_true ⟨name, rfl⟩ ⟨name, hremains, hmissing⟩

end Result

namespace InlinedWitness

/-- The definition `A` refers to one that has no entry. -/
def broken : Definitions :=
  [("A", .obj [("items", .obj [("$ref", .str "#/$defs/Missing")])])]

/-- A reference to `A` that overrides the member with the missing reference. -/
def overriding : Json := .obj [("$ref", .str "#/$defs/A"), ("items", .obj [])]

/-- `A` refers to `B`. -/
def chained : Definitions :=
  [("A", .obj [("$ref", .str "#/$defs/B"), ("title", .str "A")]),
    ("B", .obj [("type", .str "string")])]

theorem mentions_ref (ref : String) (more : Members)
    (hmore : ∀ member ∈ more, ∀ name, ¬ Mentions member.2 name) (name : String) :
    Mentions (.obj (("$ref", .str ref) :: more)) name ↔
      localRef? (("$ref", .str ref) :: more) = some name := by
  refine (mentions_obj _ name).trans (or_iff_left ?_)
  rintro ⟨member, hmem, hmentions⟩
  rcases List.mem_cons.mp hmem with rfl | hmem
  · obtain ⟨_, hwithin, _⟩ := hmentions
    cases hwithin
  · exact hmore member hmem name hmentions

theorem not_mentions_str (text name : String) : ¬ Mentions (.str text) name :=
  fun ⟨_, hwithin, _⟩ => nomatch hwithin

theorem broken_refers {name other : String} (hrefers : Refers broken name other) :
    name = "A" ∧ other = "Missing" := by
  obtain ⟨definition, hdefinition, hmentions⟩ := hrefers
  have hname := definition?_mem hdefinition
  obtain rfl : name = "A" := by simpa [broken] using hname
  cases hdefinition
  rcases (mentions_obj _ other).mp hmentions with href | ⟨member, hmem, hmember⟩
  · cases href
  · rw [List.mem_singleton.mp hmem,
      mentions_ref _ [] (fun _ h => absurd h List.not_mem_nil)] at hmember
    exact ⟨rfl, (Option.some.inj hmember).symm⟩

theorem broken_acyclic : Acyclic broken := by
  refine Chains.acyclic_of_rank (fun name => if name = "A" then 1 else 0) fun name other h => ?_
  obtain ⟨rfl, rfl⟩ := broken_refers h
  decide

theorem chained_refers {name other : String} (hrefers : Refers chained name other) :
    name = "A" ∧ other = "B" := by
  obtain ⟨definition, hdefinition, hmentions⟩ := hrefers
  have hname := definition?_mem hdefinition
  have hnames : name = "A" ∨ name = "B" := by simpa [chained] using hname
  rcases hnames with rfl | rfl
  · cases hdefinition
    rw [mentions_ref _ _ (List.forall_mem_singleton.mpr (not_mentions_str _))] at hmentions
    exact ⟨rfl, (Option.some.inj hmentions).symm⟩
  · cases hdefinition
    rcases (mentions_obj _ other).mp hmentions with href | ⟨member, hmem, hmember⟩
    · cases href
    · rw [List.mem_singleton.mp hmem] at hmember
      exact absurd hmember (not_mentions_str _ _)

theorem chained_acyclic : Acyclic chained := by
  refine Chains.acyclic_of_rank (fun name => if name = "A" then 1 else 0) fun name other h => ?_
  obtain ⟨rfl, rfl⟩ := chained_refers h
  decide

/-- A reference to the chain. -/
def toChain : Json := .obj [("$ref", .str "#/$defs/A")]

theorem chained_inlined :
    ∃ enough, ∀ fuel ≥ enough,
      ((∃ failure, inlineLocalDefs chained fuel toChain = .error failure) ↔
        ∃ name, Remains chained toChain name ∧ definition? chained name = none) ∧
      (∀ failure, inlineLocalDefs chained fuel toChain = .error failure →
        ∃ name, Remains chained toChain name ∧
          (failure = .keyError name ∧ Missing chained name ∨
            failure = .noMapping name ∧ ¬ Missing chained name)) ∧
      ((∀ name, definition? chained name = none → Missing chained name) →
        ((∃ name, inlineLocalDefs chained fuel toChain = .error (.keyError name)) ↔
          ∃ name, Remains chained toChain name ∧ Missing chained name)) ∧
      ((¬ ∃ failure, inlineLocalDefs chained fuel toChain = .error failure) →
        ∃ whole, inlineLocalDefs chained fuel toChain = .ok (dropTable whole) ∧
          FreeOfRefs (dropTable whole) ∧ Inlined chained toChain whole ∧
          ∀ other, Inlined chained toChain other → other = whole) :=
  inline_local_defs_complete chained toChain chained_acyclic

/-- A reference in a member that a sibling overrides needs no entry. -/
theorem overridden_reference :
    ¬ ∀ defs node, Acyclic defs → ∃ enough, ∀ fuel ≥ enough,
      ((∃ name, inlineLocalDefs defs fuel node = .error (.keyError name)) ↔
        ∃ name, Reached defs node name ∧ Missing defs name) := by
  intro hclaim
  obtain ⟨enough, henough⟩ := hclaim broken overriding broken_acyclic
  have hfirst : Reached broken overriding "A" := .tree ((mentions_obj _ "A").mpr (.inl rfl))
  have hmentions : Mentions (.obj [("items", .obj [("$ref", .str "#/$defs/Missing")])])
      "Missing" :=
    (mentions_obj _ "Missing").mpr
      (.inr ⟨_, List.mem_singleton_self _, (mentions_obj _ "Missing").mpr (.inl rfl)⟩)
  have hmissing : Reached broken overriding "Missing" := .definition hfirst rfl hmentions
  obtain ⟨name, hraised⟩ := (henough (enough + 6) (by omega)).mpr ⟨"Missing", hmissing, .inl rfl⟩
  have hreturned : inlineLocalDefs broken (enough + 6) overriding =
      .ok (.obj [("items", .obj [])]) := rfl
  rw [hreturned] at hraised
  cases hraised

end InlinedWitness

end InlinedDefs

end HermesPipeline
