/-
A normalised schema accepts what the schema did, where every bound is written once and
the types of an `anyOf` are names.  Each rewriting keeps what a node says; an induction
over the nodes that the normalisation meets puts them together.
-/
import HermesPipeline.NormalizedSchema

namespace HermesPipeline

open Lib RawSchema

namespace NormalizedSchema

open InlinedDefs (assign)

section Conditions

open Relation

def annotations : List String := ["title", "description", "default"]

/-- A node has one keyword, with nothing beside it that normalisation keeps. -/
def Adorned (key : String) (fields : Members) : Prop :=
  ∀ field ∈ fields, field.1 ∈ [key, "title", "description"] ∨
    field = ("additionalProperties", .bool true)

/-- A schema that comes down to a type alone. -/
inductive Bare : Json → Prop
  | type {fields names} : Json.member? fields "type" = some names → Adorned "type" fields →
      Bare (.obj fields)
  | anyOf {fields alternatives} : Json.member? fields "anyOf" = some (.arr alternatives) →
      alternatives ≠ [] → (∀ alternative ∈ alternatives, Bare alternative) →
      Adorned "anyOf" fields → Bare (.obj fields)

/-- What a node of a schema is taken to be: keywords that stand alone have only
annotations and a type that their values have beside them, and an `anyOf` has no type
beside it, and single types that are names. -/
structure Proper (members : Members) : Prop where
  unique : (members.map Prod.fst).Nodup
  const : ∀ value, Json.member? members "const" = some value →
    (∀ member ∈ members, member.1 ∈ "const" :: "type" :: annotations) ∧
      ∀ names, Json.member? members "type" = some names → typeHolds names value = true
  enum : ∀ listed, Json.member? members "enum" = some listed →
    (∀ member ∈ members, member.1 ∈ "enum" :: "type" :: annotations) ∧
      ∀ names, Json.member? members "type" = some names →
        ∃ values, listed = .arr values ∧ ∀ value ∈ values, typeHolds names value = true
  ref : ∀ target, Json.member? members "$ref" = some target →
    ∀ member ∈ members, member.1 ∈ "$ref" :: "type" :: annotations
  anyOf : ∀ listed, Json.member? members "anyOf" = some listed →
    Json.member? members "type" = none
  single : ∀ alternatives, Json.member? members "anyOf" = some (.arr alternatives) →
    ∀ fields names, .obj fields ∈ alternatives → Adorned "type" fields →
      Json.member? fields "type" = some names → ∃ name, names = .str name

/-- No bound is written under both its names, no type stands beside a reference, and an
`anyOf` that comes down to types has no `anyOf` among its members. -/
structure Clean (members : Members) : Prop where
  short : ∀ names ∈ renames, ∀ limit, Json.member? members names.1 = some limit →
    Json.member? members names.2 = none
  ref : ∀ target, Json.member? members "$ref" = some target →
    Json.member? members "type" = none
  flat : ∀ alternatives, Json.member? members "anyOf" = some (.arr alternatives) →
    (∀ alternative ∈ alternatives, Bare alternative) →
      ∀ fields, .obj fields ∈ alternatives → Json.member? fields "anyOf" = none

/-- Every node that the normalisation meets is as demanded. -/
def Throughout (P : Members → Prop) (schema : Json) : Prop :=
  ∀ members, ReflTransGen Child (.obj members) schema → P members

theorem Throughout.child {P : Members → Prop} {schema child : Json}
    (hall : Throughout P schema) (hchild : Child child schema) : Throughout P child :=
  fun members hpart => hall members (hpart.tail hchild)

theorem Throughout.here {P : Members → Prop} {members : Members}
    (hall : Throughout P (.obj members)) : P members := hall members .refl

end Conditions

section Members

theorem member?_eq_some_iff {members : Members} (hunique : (members.map Prod.fst).Nodup)
    {key : String} {value : Json} :
    Json.member? members key = some value ↔ (key, value) ∈ members := by
  refine ⟨Json.mem_of_member?, fun hmem => ?_⟩
  have hsome : (Json.member? members key).isSome = true :=
    Json.member?_isSome_iff.mpr (List.mem_map_of_mem hmem)
  obtain ⟨other, hother⟩ := Option.isSome_iff_exists.mp hsome
  have heq := List.inj_on_of_nodup_map hunique (Json.mem_of_member? hother) hmem rfl
  rw [hother, (Prod.mk.inj heq).2]

theorem member?_eq_none_iff {members : Members} {key : String} :
    Json.member? members key = none ↔ key ∉ members.map Prod.fst := by
  rw [← Json.member?_isSome_iff, Bool.not_eq_true, Option.isSome_eq_false_iff,
    Option.isNone_iff_eq_none]

theorem member?_map (members : Members) (key : String) :
    Json.member? (members.map normalizeMember) key =
      (Json.member? members key).map (normalizeValue key) := by
  induction members with
  | nil => rfl
  | cons member rest ih =>
      rw [List.map_cons, Json.member?_cons, Json.member?_cons, ih]
      by_cases hkey : member.1 = key
      · rw [if_pos hkey, if_pos (show (normalizeMember member).1 = key from hkey), ← hkey]
        rfl
      · rw [if_neg hkey, if_neg (show ¬ (normalizeMember member).1 = key from hkey)]

/-- Most values are left as they are. -/
theorem normalizeValue_eq_self {key : String}
    (hkey : key ∉ tableKeys ∧ key ∉ schemaKeys ∧ key ∉ branchKeys) (value : Json) :
    normalizeValue key value = value := by
  rw [normalizeValue, if_neg hkey.1, if_neg hkey.2.1, if_neg hkey.2.2]

theorem member?_map_plain {key : String}
    (hkey : key ∉ tableKeys ∧ key ∉ schemaKeys ∧ key ∉ branchKeys) (members : Members) :
    Json.member? (members.map normalizeMember) key = Json.member? members key := by
  rw [member?_map, funext (normalizeValue_eq_self hkey)]
  exact Option.map_id'

theorem unique_map {members : Members} (hunique : (members.map Prod.fst).Nodup) :
    ((members.map normalizeMember).map Prod.fst).Nodup := by
  rw [List.map_map]
  exact hunique

theorem unique_filter {members : Members} (hunique : (members.map Prod.fst).Nodup)
    (keep : String × Json → Bool) : ((members.filter keep).map Prod.fst).Nodup :=
  hunique.sublist (List.filter_sublist.map Prod.fst)

theorem unique_popped {members : Members} (hunique : (members.map Prod.fst).Nodup)
    (key : String) : ((popped key members).map Prod.fst).Nodup := unique_filter hunique _

theorem unique_assign {members : Members} (hunique : (members.map Prod.fst).Nodup)
    (member : String × Json) : ((assign members member).map Prod.fst).Nodup := by
  induction members with
  | nil => exact List.nodup_singleton _
  | cons other rest ih =>
      rw [List.map_cons, List.nodup_cons] at hunique
      rw [assign]
      split
      · next heq =>
          rw [List.map_cons, List.nodup_cons]
          refine ⟨?_, unique_filter hunique.2 _⟩
          rw [List.mem_map]
          rintro ⟨later, hlater, hname⟩
          simpa [hname] using (List.mem_filter.mp hlater).2
      · next hne =>
          rw [List.map_cons, List.nodup_cons]
          refine ⟨fun hmem => ?_, ih hunique.2⟩
          obtain ⟨later, hlater, hname⟩ := List.mem_map.mp hmem
          rcases mem_assign hlater with rfl | hlater
          · exact hne hname.symm
          · exact hunique.1 (hname ▸ List.mem_map_of_mem hlater)

theorem unique_rename {members : Members} (hunique : (members.map Prod.fst).Nodup)
    (names : String × String) : ((rename members names).map Prod.fst).Nodup := by
  rw [rename]
  split
  · exact unique_assign (unique_filter hunique _) _
  · exact hunique

theorem unique_dropAdditional {members : Members} (hunique : (members.map Prod.fst).Nodup) :
    ((dropAdditional members).map Prod.fst).Nodup := by
  rw [dropAdditional]
  split
  · exact unique_filter hunique _
  · exact hunique

theorem unique_collapse {members : Members} (hunique : (members.map Prod.fst).Nodup) :
    ((collapse members).map Prod.fst).Nodup := by
  rw [collapse]
  split
  · split
    · exact unique_filter (unique_assign hunique _) _
    · exact hunique
  · exact hunique

theorem unique_renames {members : Members} (hunique : (members.map Prod.fst).Nodup) :
    ((renames.foldl rename members).map Prod.fst).Nodup := by
  have hall (pairs : List (String × String)) (members : Members)
      (hunique : (members.map Prod.fst).Nodup) :
      ((pairs.foldl rename members).map Prod.fst).Nodup := by
    induction pairs generalizing members with
    | nil => exact hunique
    | cons names rest ih => exact ih (rename members names) (unique_rename hunique names)
  exact hall renames members hunique

end Members

section Meaning

variable {draft : Draft}

/-- The keywords of a node, each of which is there once. -/
def KeywordsHold (draft : Draft) (context : Context) (members : Members) (value : Json) : Prop :=
  ∀ key schema, Json.member? members key = some schema →
    keywordHolds draft context (key, schema) value = true

theorem all_keywords_iff {members : Members} (hunique : (members.map Prod.fst).Nodup)
    (context : Context) (value : Json) :
    (members.all fun member => keywordHolds draft context member value) = true ↔
      KeywordsHold draft context members value := by
  rw [List.all_eq_true]
  constructor
  · intro hall key schema hmember
    exact hall _ (Json.mem_of_member? hmember)
  · intro hall member hmem
    exact hall member.1 member.2 ((member?_eq_some_iff hunique).mpr hmem)

/-- The keys that other keywords read. -/
def sharedKeys : List String :=
  ["properties", "patternProperties", "prefixItems", "if", "then", "else"]

/-- Nodes that agree on the shared keys, and whose keywords say the same together. -/
theorem valid_congr {members members' : Members} (hunique : (members.map Prod.fst).Nodup)
    (hunique' : (members'.map Prod.fst).Nodup)
    (hshared : ∀ key ∈ sharedKeys, Json.member? members' key = Json.member? members key)
    {value : Json} (hkeywords : ∀ context, KeywordsHold draft context members value ↔
      KeywordsHold draft context members' value) :
    valid draft (.obj members') value = valid draft (.obj members) value := by
  have hcontext : contextOf members' = contextOf members := by
    rw [contextOf, contextOf, hshared _ (by decide), hshared _ (by decide), hshared _ (by decide)]
  have hcondition : conditionHolds draft members' value = conditionHolds draft members value := by
    simp only [conditionHolds, validChild_eq]
    rw [hshared "if" (by decide), hshared "then" (by decide), hshared "else" (by decide)]
  rw [valid_obj, valid_obj, hcontext, hcondition]
  congr 1
  rw [Bool.eq_iff_iff, all_keywords_iff hunique', all_keywords_iff hunique]
  exact (hkeywords _).symm

/-- A keyword that holds of everything can be taken away. -/
theorem valid_popped {members : Members} (hunique : (members.map Prod.fst).Nodup) {key : String}
    (hkey : key ∉ sharedKeys)
    (htrivial : ∀ schema, Json.member? members key = some schema → ∀ context value,
      keywordHolds draft context (key, schema) value = true) (value : Json) :
    valid draft (.obj (popped key members)) value = valid draft (.obj members) value := by
  refine valid_congr hunique (unique_popped hunique key) (fun shared hshared => ?_)
    fun context => ?_
  · refine member?_popped ?_ members
    rintro rfl
    exact hkey hshared
  · constructor
    · intro hall other schema hmember
      by_cases heq : other = key
      · rw [heq, member?_popped_self] at hmember
        cases hmember
      · rw [member?_popped heq] at hmember
        exact hall other schema hmember
    · intro hall other schema hmember
      by_cases heq : other = key
      · subst heq
        exact htrivial schema hmember context value
      · exact hall other schema (by rwa [member?_popped heq])

theorem valid_dropAdditional {members : Members} (hunique : (members.map Prod.fst).Nodup)
    (value : Json) :
    valid draft (.obj (dropAdditional members)) value = valid draft (.obj members) value := by
  rw [dropAdditional]
  split
  · next htrue =>
      refine valid_popped hunique (by decide) (fun schema hmember context value => ?_) value
      rw [htrue] at hmember
      cases hmember
      rfl
  · rfl

theorem keywordHolds_bound {names : String × String} (hnames : names ∈ renames)
    (context : Context) (limit value : Json) :
    keywordHolds draft context (names.2, limit) value =
      keywordHolds draft context (names.1, limit) value := by
  have hall : ∀ names ∈ renames, ∃ kind, keywordOf names.1 = .bound kind ∧
      keywordOf names.2 = .bound kind := by
    intro names hnames
    have hpairs : renames = [("ge", "minimum"), ("le", "maximum"), ("gt", "exclusiveMinimum"),
      ("lt", "exclusiveMaximum")] := rfl
    rw [hpairs] at hnames
    simp only [List.mem_cons, List.not_mem_nil, or_false] at hnames
    rcases hnames with rfl | rfl | rfl | rfl
    · exact ⟨.minimum, by decide, by decide⟩
    · exact ⟨.maximum, by decide, by decide⟩
    · exact ⟨.exclusiveMinimum, by decide, by decide⟩
    · exact ⟨.exclusiveMaximum, by decide, by decide⟩
  obtain ⟨kind, hsource, htarget⟩ := hall names hnames
  rw [keywordHolds, keywordHolds, hsource, htarget]

/-- A bound can be written under its long name, where that is free. -/
theorem valid_rename {members : Members} (hunique : (members.map Prod.fst).Nodup)
    {names : String × String} (hnames : names ∈ renames)
    (hfree : ∀ limit, Json.member? members names.1 = some limit →
      Json.member? members names.2 = none) (value : Json) :
    valid draft (.obj (rename members names)) value = valid draft (.obj members) value := by
  have hshared : ∀ names ∈ renames, names.2 ≠ names.1 ∧ ∀ key ∈ sharedKeys, key ≠ names.1 ∧
      key ≠ names.2 := by
    intro names hnames
    have hall : renames.all fun names => decide (names.2 ≠ names.1 ∧
      ∀ key ∈ sharedKeys, key ≠ names.1 ∧ key ≠ names.2) := by decide
    exact of_decide_eq_true (List.all_eq_true.mp hall names hnames)
  obtain ⟨hne, hother⟩ := hshared names hnames
  refine valid_congr hunique (unique_rename hunique names) (fun key hkey => ?_) fun context => ?_
  · exact member?_rename (hother key hkey).1 (hother key hkey).2 members
  · cases hlimit : Json.member? members names.1 with
    | none => rw [rename_eq_self hlimit]
    | some limit =>
        have htarget : Json.member? (rename members names) names.2 = some limit := by
          rw [rename, hlimit]
          simp only [InlinedDefs.member?_assign, if_pos]
        constructor
        · intro hall key schema hmember
          by_cases hkey : key = names.2
          · rw [hkey, htarget] at hmember
            cases hmember
            rw [hkey, keywordHolds_bound hnames]
            exact hall names.1 limit hlimit
          · by_cases hsource : key = names.1
            · rw [hsource, member?_rename_source hne] at hmember
              cases hmember
            · rw [member?_rename hsource hkey] at hmember
              exact hall key schema hmember
        · intro hall key schema hmember
          by_cases hsource : key = names.1
          · rw [hsource, hlimit] at hmember
            cases hmember
            rw [hsource, ← keywordHolds_bound hnames]
            exact hall names.2 limit htarget
          · by_cases hkey : key = names.2
            · rw [hkey, hfree limit hlimit] at hmember
              cases hmember
            · exact hall key schema (by rwa [member?_rename hsource hkey])

/-- Renaming one bound leaves the names of the other ones. -/
theorem valid_renames {members : Members} (hunique : (members.map Prod.fst).Nodup)
    (hfree : ∀ names ∈ renames, ∀ limit, Json.member? members names.1 = some limit →
      Json.member? members names.2 = none) (value : Json) :
    valid draft (.obj (renames.foldl rename members)) value = valid draft (.obj members) value := by
  have hall (pairs : List (String × String)) (hpairs : ∀ names ∈ pairs, names ∈ renames)
      (hapart : pairs.Pairwise fun names other => other.1 ≠ names.1 ∧ other.1 ≠ names.2 ∧
        other.2 ≠ names.1 ∧ other.2 ≠ names.2) (members : Members)
      (hunique : (members.map Prod.fst).Nodup)
      (hfree : ∀ names ∈ pairs, ∀ limit, Json.member? members names.1 = some limit →
        Json.member? members names.2 = none) :
      valid draft (.obj (pairs.foldl rename members)) value =
        valid draft (.obj members) value := by
    induction pairs generalizing members with
    | nil => rfl
    | cons names rest ih =>
        obtain ⟨hfirst, hrest⟩ := List.pairwise_cons.mp hapart
        rw [List.foldl_cons, ih (fun other hother => hpairs other (.tail _ hother)) hrest
          (rename members names) (unique_rename hunique names) fun other hother limit => ?_]
        · exact valid_rename hunique (hpairs names List.mem_cons_self)
            (hfree names List.mem_cons_self) value
        · obtain ⟨h11, h12, h21, h22⟩ := hfirst other hother
          rw [member?_rename h11 h12, member?_rename h21 h22]
          exact hfree other (.tail _ hother) limit
  refine hall renames (fun _ h => h) ?_ members hunique hfree
  decide

theorem valid_remark {members : Members} (hunique : (members.map Prod.fst).Nodup)
    {key : String} (hkey : key ∉ sharedKeys) (hremark : keywordOf key = .remark)
    (value : Json) :
    valid draft (.obj (popped key members)) value = valid draft (.obj members) value :=
  valid_popped hunique hkey
    (fun schema _ context value => by rw [keywordHolds, hremark]) value

/-- Equal values have the same types. -/
theorem hasType_of_equal {left right : Json} (hequal : left.equal right = true)
    (name : JsonSchema.TypeName) :
    JsonSchema.hasType name left = JsonSchema.hasType name right := by
  cases left with
  | null => cases right <;> first | rfl | exact absurd hequal (by simp [Json.equal])
  | bool b => cases right <;> first | (cases name <;> rfl) | exact absurd hequal (by simp [Json.equal])
  | str text => cases right <;> first | (cases name <;> rfl) | exact absurd hequal (by simp [Json.equal])
  | arr items => cases right <;> first | (cases name <;> rfl) | exact absurd hequal (by simp [Json.equal])
  | obj members => cases right <;> first | (cases name <;> rfl) | exact absurd hequal (by simp [Json.equal])
  | int n =>
      cases right with
      | int m => cases name <;> rfl
      | float q =>
          have hvalue : q = (n : ℚ) := by simpa [Json.equal, Json.number?] using hequal
          cases name <;> simp [JsonSchema.hasType, hvalue]
      | _ => exact absurd hequal (by simp [Json.equal, Json.number?])
  | float q =>
      cases right with
      | int m =>
          have hvalue : (m : ℚ) = q := by simpa [Json.equal, Json.number?] using hequal
          cases name <;> simp [JsonSchema.hasType, ← hvalue]
      | float r =>
          have hvalue : r = q := by simpa [Json.equal, Json.number?] using hequal
          rw [hvalue]
      | _ => exact absurd hequal (by simp [Json.equal, Json.number?])

theorem typeHolds_of_equal {left right : Json} (hequal : left.equal right = true)
    (names : Json) : typeHolds names left = typeHolds names right := by
  have hname (name : Json) : nameHolds name left = nameHolds name right := by
    simp only [nameHolds, hasType_of_equal hequal]
  cases names <;> simp only [typeHolds, hname]

/-- A node that has only annotations and an implied type beside a keyword means what the
keyword does. -/
theorem valid_alone {members : Members} (hunique : (members.map Prod.fst).Nodup) {key : String}
    {kept : Json} (hkey : key ∈ focusKeys) (hmember : Json.member? members key = some kept)
    (hkeys : ∀ member ∈ members, member.1 ∈ key :: "type" :: annotations)
    (htype : ∀ names, Json.member? members "type" = some names → ∀ context value,
      keywordHolds draft context (key, kept) value = true → typeHolds names value = true)
    (value : Json) :
    valid draft (.obj (members.filter fun member => member.1 = key)) value =
      valid draft (.obj members) value := by
  have hshared : ∀ key ∈ focusKeys, ∀ shared ∈ sharedKeys,
      shared ≠ key ∧ shared ∉ "type" :: annotations := by
    have hall : focusKeys.all fun key => sharedKeys.all fun shared =>
        decide (shared ≠ key ∧ shared ∉ "type" :: annotations) := by decide
    intro key hkey shared hshared
    exact of_decide_eq_true
      (List.all_eq_true.mp (List.all_eq_true.mp hall key hkey) shared hshared)
  refine valid_congr hunique (unique_filter hunique _) (fun shared hmem => ?_) fun context => ?_
  · obtain ⟨hne, hother⟩ := hshared key hkey shared hmem
    rw [member?_filter_key, if_neg hne, eq_comm, member?_eq_none_iff]
    intro hfound
    obtain ⟨member, hmember, rfl⟩ := List.mem_map.mp hfound
    rcases List.mem_cons.mp (hkeys member hmember) with heq | hmem
    · exact hne heq
    · exact hother hmem
  · constructor
    · intro hall other schema hfound
      rw [member?_filter_key] at hfound
      by_cases heq : other = key
      · rw [if_pos heq] at hfound
        rw [heq]
        exact hall key schema hfound
      · rw [if_neg heq] at hfound
        cases hfound
    · intro hall other schema hfound
      have hkept : keywordHolds draft context (key, kept) value = true := by
        refine hall key kept ?_
        rw [member?_filter_key, if_pos rfl, hmember]
      rcases List.mem_cons.mp (hkeys _ (Json.mem_of_member? hfound)) with heq | hmem
      · simp only at heq
        rw [heq, hmember] at hfound
        cases hfound
        rw [heq]
        exact hkept
      · simp only [annotations, List.mem_cons, List.not_mem_nil, or_false] at hmem
        rcases hmem with rfl | rfl | rfl | rfl
        · exact htype schema hfound context value hkept
        · rfl
        · rfl
        · rfl

end Meaning

section Children

variable {draft : Draft}

theorem all_congr_of_mem {A : Type} {items : List A} {f g : A → Bool}
    (hsame : ∀ item ∈ items, f item = g item) : items.all f = items.all g := by
  induction items with
  | nil => rfl
  | cons item rest ih =>
      rw [List.all_cons, List.all_cons, hsame item List.mem_cons_self,
        ih fun other hother => hsame other (.tail _ hother)]

theorem contextOf_map (members : Members) :
    contextOf (members.map normalizeMember) = contextOf members := by
  have hkeys : keysOf ((Json.member? members "properties").map (normalizeValue "properties")) =
      keysOf (Json.member? members "properties") := by
    cases Json.member? members "properties" with
    | none => rfl
    | some schema =>
        cases schema with
        | obj fields =>
            rw [Option.map_some, normalizeValue, if_pos (by decide), normalizeTable,
              normalizeFields_eq, keysOf, keysOf, List.map_map]
            rfl
        | _ => rfl
  rw [contextOf, contextOf, member?_map, hkeys, member?_map_plain (by decide),
    member?_map_plain (by decide)]

/-- A keyword says the same when the schemas in it do. -/
theorem keywordHolds_normalizeMember {members : Members} {member : String × Json}
    (hmem : member ∈ members)
    (hchildren : ∀ child, Child child (.obj members) → ∀ value,
      valid draft (normalizeSchema false child) value = valid draft child value)
    (context : Context) (value : Json) :
    keywordHolds draft context (normalizeMember member) value =
      keywordHolds draft context member value := by
  obtain ⟨key, schema⟩ := member
  rw [normalizeMember, normalizeValue]
  by_cases htable : key ∈ tableKeys
  · rw [if_pos htable]
    cases schema with
    | obj fields =>
        have hfields : validFields draft (.obj (fields.map normalizeField)) value =
            validFields draft (.obj fields) value := by
          cases value with
          | obj found =>
              rw [validFields, validFields, validEach_eq_all, validEach_eq_all, List.all_map]
              refine all_congr_of_mem fun field hfield => ?_
              simp only [Function.comp_apply, normalizeField]
              split
              · exact hchildren field.2 (.field htable hmem hfield) _
              · rfl
          | _ => rfl
        rw [normalizeTable, normalizeFields_eq]
        simp only [tableKeys, List.mem_cons, List.not_mem_nil, or_false] at htable
        rcases htable with rfl | rfl
        · exact hfields
        · rfl
    | _ => rfl
  · rw [if_neg htable]
    by_cases hschema : key ∈ schemaKeys
    · have hvalid := hchildren schema (.schema hschema hmem)
      rw [if_pos hschema]
      simp only [schemaKeys, List.mem_cons, List.not_mem_nil, or_false] at hschema
      rcases hschema with rfl | rfl | rfl | rfl
      · have hitems : keywordOf "items" = .items := by decide
        simp only [keywordHolds, hitems, hvalid]
      · rfl
      · rfl
      · have hnot : keywordOf "not" = .negation := by decide
        simp only [keywordHolds, hnot, hvalid]
    · rw [if_neg hschema]
      by_cases hbranch : key ∈ branchKeys
      · rw [if_pos hbranch]
        cases schema with
        | arr items =>
            have hbranches : branches draft (.arr (items.map (normalizeSchema false))) value =
                branches draft (.arr items) value := by
              rw [branches, branches, validList_eq_map, validList_eq_map, List.map_map]
              refine congrArg some (List.map_congr_left fun item hitem => ?_)
              exact hchildren item (.branch hbranch hmem hitem) value
            rw [normalizeBranches, normalizeItems_eq]
            simp only [branchKeys, List.mem_cons, List.not_mem_nil, or_false] at hbranch
            have hanyOf : keywordOf "anyOf" = .anyOf := by decide
            have hallOf : keywordOf "allOf" = .allOf := by decide
            have honeOf : keywordOf "oneOf" = .oneOf := by decide
            rcases hbranch with rfl | rfl | rfl
            · simp only [keywordHolds, hanyOf, hbranches]
            · simp only [keywordHolds, hallOf, hbranches]
            · simp only [keywordHolds, honeOf, hbranches]
        | _ => rfl
      · rw [if_neg hbranch]

/-- A node means the same when the schemas in it do. -/
theorem valid_map {members : Members}
    (hchildren : ∀ child, Child child (.obj members) → ∀ value,
      valid draft (normalizeSchema false child) value = valid draft child value)
    (value : Json) :
    valid draft (.obj (members.map normalizeMember)) value =
      valid draft (.obj members) value := by
  have hchild (key : String) (hkey : key ∈ schemaKeys) (absent : Bool) :
      validChild draft key absent (members.map normalizeMember) value =
        validChild draft key absent members value := by
    rw [validChild_eq, validChild_eq, member?_map]
    cases hmember : Json.member? members key with
    | none => rfl
    | some schema =>
        have htable : key ∉ tableKeys := by
          have hall : schemaKeys.all fun key => decide (key ∉ tableKeys) := by decide
          exact of_decide_eq_true (List.all_eq_true.mp hall key hkey)
        rw [Option.map_some, normalizeValue, if_neg htable, if_pos hkey]
        exact hchildren schema (.schema hkey (Json.mem_of_member? hmember)) value
  have helse (absent : Bool) :
      validChild draft "else" absent (members.map normalizeMember) value =
        validChild draft "else" absent members value := by
    rw [validChild_eq, validChild_eq, member?_map_plain (by decide)]
  rw [valid_obj, valid_obj, contextOf_map, conditionHolds, conditionHolds,
    hchild "if" (by decide), hchild "if" (by decide), hchild "then" (by decide), helse,
    List.all_map]
  congr 1
  exact all_congr_of_mem fun member hmem =>
    keywordHolds_normalizeMember hmem hchildren _ value

end Children

section Bare

theorem member?_rename_target (names : String × String) (members : Members) :
    Json.member? (rename members names) names.2 =
      (Json.member? members names.1).or (Json.member? members names.2) := by
  rw [rename]
  cases Json.member? members names.1 with
  | none => rfl
  | some limit =>
      simp only [InlinedDefs.member?_assign, if_pos]
      rfl

/-- Under a long name stands what stood under either name. -/
theorem member?_renames_target {names : String × String} (hnames : names ∈ renames)
    (members : Members) :
    Json.member? (renames.foldl rename members) names.2 =
      (Json.member? members names.1).or (Json.member? members names.2) := by
  have hpairs : renames = [("ge", "minimum"), ("le", "maximum"), ("gt", "exclusiveMinimum"),
    ("lt", "exclusiveMaximum")] := rfl
  rw [hpairs] at hnames ⊢
  simp only [List.mem_cons, List.not_mem_nil, or_false] at hnames
  simp only [List.foldl_cons, List.foldl_nil]
  have hge := member?_rename_target ("ge", "minimum") members
  have hle := member?_rename_target ("le", "maximum") (rename members ("ge", "minimum"))
  have hgt := member?_rename_target ("gt", "exclusiveMinimum")
    (rename (rename members ("ge", "minimum")) ("le", "maximum"))
  have hlt := member?_rename_target ("lt", "exclusiveMaximum")
    (rename (rename (rename members ("ge", "minimum")) ("le", "maximum"))
      ("gt", "exclusiveMinimum"))
  have hother {key : String} {names : String × String} (hsource : key ≠ names.1)
      (htarget : key ≠ names.2) (members : Members) := member?_rename hsource htarget members
  rcases hnames with rfl | rfl | rfl | rfl
  · rw [hother (by decide) (by decide), hother (by decide) (by decide),
      hother (by decide) (by decide)]
    exact hge
  · rw [hother (by decide) (by decide), hother (by decide) (by decide), hle,
      hother (by decide) (by decide), hother (by decide) (by decide)]
  · rw [hother (by decide) (by decide), hgt, hother (by decide) (by decide),
      hother (by decide) (by decide), hother (by decide) (by decide),
      hother (by decide) (by decide)]
  · rw [hlt, hother (by decide) (by decide), hother (by decide) (by decide),
      hother (by decide) (by decide), hother (by decide) (by decide),
      hother (by decide) (by decide), hother (by decide) (by decide)]

theorem member?_dropAdditional_self (members : Members) :
    Json.member? (dropAdditional members) "additionalProperties" = none →
      ∀ schema, Json.member? members "additionalProperties" = some schema →
        schema = .bool true := by
  intro hnone schema hschema
  rw [dropAdditional] at hnone
  split at hnone
  · next htrue =>
      rw [hschema] at htrue
      exact Option.some.inj htrue
  · rw [hschema] at hnone
    cases hnone

/-- The members that a node is put through the collapse with. -/
def beforeCollapse (root : Bool) (members : Members) : Members :=
  let plain := popped "description" (dropAdditional (renames.foldl rename members))
  if root then plain else popped "title" plain

theorem steps_eq_collapse (root : Bool) (members : Members) :
    steps root members = collapse (beforeCollapse root members) := rfl

theorem member?_beforeCollapse {key : String} (htitle : key ≠ "title")
    (hdescription : key ≠ "description") (hadditional : key ≠ "additionalProperties")
    (root : Bool) (members : Members) :
    Json.member? (beforeCollapse root members) key =
      Json.member? (renames.foldl rename members) key := by
  rw [beforeCollapse]
  cases root with
  | true =>
      simp only [if_true]
      rw [member?_popped hdescription, member?_dropAdditional hadditional]
  | false =>
      simp only [Bool.false_eq_true, if_false]
      rw [member?_popped htitle, member?_popped hdescription, member?_dropAdditional hadditional]

theorem beforeCollapse_additional (root : Bool) (members : Members) :
    Json.member? (beforeCollapse root members) "additionalProperties" =
      Json.member? (dropAdditional (renames.foldl rename members)) "additionalProperties" := by
  rw [beforeCollapse]
  cases root with
  | true =>
      simp only [if_true]
      rw [member?_popped (by decide)]
  | false =>
      simp only [Bool.false_eq_true, if_false]
      rw [member?_popped (by decide), member?_popped (by decide)]

theorem renames_plain {key : String} (hkey : key ∈ ["type", "anyOf", "additionalProperties"])
    (members : Members) :
    Json.member? (renames.foldl rename members) key = Json.member? members key := by
  refine member?_renames (fun names hnames => ?_) members
  have hall : (["type", "anyOf", "additionalProperties"] : List String).all fun key =>
      renames.all fun names => decide (key ≠ names.1 ∧ key ≠ names.2) := by decide
  exact of_decide_eq_true
    (List.all_eq_true.mp (List.all_eq_true.mp hall key hkey) names hnames)

/-- A node of which only types are left had only adornments beside its type, or beside
an `anyOf`. -/
theorem left_of_typeOnly {members : Members} (hunique : (members.map Prod.fst).Nodup)
    (honly : ∀ key, key ≠ "type" → Json.member? (project false members) key = none) :
    focus members = members ∧ ∀ member ∈ members,
      member.1 ∈ ["type", "anyOf", "title", "description"] ∨
        member = ("additionalProperties", .bool true) := by
  rcases focus_cases members with ⟨hsame, hnone⟩ | ⟨key, hkey, hsome, hfocus⟩
  · refine ⟨hsame, fun member hmem => ?_⟩
    rw [project_eq, hsame] at honly
    have hfound := (member?_eq_some_iff hunique).mpr hmem
    by_cases htouched : member.1 ∈ touched
    · have hcases : member.1 ∈ ["title", "description", "additionalProperties", "type", "anyOf"] ∨
          (∃ names ∈ renames, member.1 = names.1 ∨ member.1 = names.2) := by
        simp only [touched, List.mem_append, List.mem_map] at htouched
        rcases htouched with (hmem | ⟨names, hnames, heq⟩) | ⟨names, hnames, heq⟩
        · exact .inl hmem
        · exact .inr ⟨names, hnames, .inl heq.symm⟩
        · exact .inr ⟨names, hnames, .inr heq.symm⟩
      rcases hcases with hmem | ⟨names, hnames, heq⟩
      · simp only [List.mem_cons, List.not_mem_nil, or_false] at hmem
        rcases hmem with heq | heq | heq | heq | heq
        · exact .inl (by rw [heq]; decide)
        · exact .inl (by rw [heq]; decide)
        · have hgone := honly "additionalProperties" (by decide)
          rw [steps_eq_collapse, member?_collapse (by decide) (by decide),
            beforeCollapse_additional] at hgone
          rw [heq, ← renames_plain (by decide)] at hfound
          exact .inr (Prod.ext heq (member?_dropAdditional_self _ hgone _ hfound))
        · exact .inl (by rw [heq]; decide)
        · exact .inl (by rw [heq]; decide)
      · have hapart : names.2 ≠ "type" ∧ names.2 ≠ "anyOf" ∧ names.2 ≠ "title" ∧
            names.2 ≠ "description" ∧ names.2 ≠ "additionalProperties" := by
          have hall : renames.all fun names => decide (names.2 ≠ "type" ∧ names.2 ≠ "anyOf" ∧
            names.2 ≠ "title" ∧ names.2 ≠ "description" ∧
              names.2 ≠ "additionalProperties") := by decide
          exact of_decide_eq_true (List.all_eq_true.mp hall names hnames)
        obtain ⟨htype, hanyOf, htitle, hdescription, hadditional⟩ := hapart
        have hgone := honly names.2 htype
        rw [steps_eq_collapse, member?_collapse htype hanyOf,
          member?_beforeCollapse htitle hdescription hadditional,
          member?_renames_target hnames, Option.or_eq_none_iff] at hgone
        rcases heq with heq | heq
        · rw [heq, hgone.1] at hfound
          cases hfound
        · rw [heq, hgone.2] at hfound
          cases hfound
    · have hgone := honly member.1 (by
        rintro heq
        exact htouched (heq ▸ by decide))
      rw [member?_steps htouched, hfound] at hgone
      cases hgone
  · have hgone := honly key (by
      rintro rfl
      exact absurd hkey (by decide))
    rw [project_eq, hfocus, steps_alone hkey, member?_filter_key, if_pos rfl] at hgone
    rw [hgone] at hsome
    cases hsome

theorem isTypeOnly_obj {members : Members} (honly : isTypeOnly (.obj members) = true) :
    (Json.member? members "type").isSome = true ∧
      ∀ key, key ≠ "type" → Json.member? members key = none := by
  simp only [isTypeOnly, Bool.and_eq_true, decide_eq_true_eq, List.all_eq_true] at honly
  obtain ⟨hne, hall⟩ := honly
  constructor
  · obtain ⟨member, rest, rfl⟩ := List.exists_cons_of_ne_nil hne
    rw [Json.member?_cons, if_pos (hall member List.mem_cons_self)]
    rfl
  · intro key hkey
    rw [member?_eq_none_iff]
    intro hmem
    obtain ⟨member, hmember, rfl⟩ := List.mem_map.mp hmem
    exact hkey (hall member hmember)

theorem collapse_fired {members : Members} {listed : Json}
    (hanyOf : Json.member? members "anyOf" = some listed)
    (hgone : Json.member? (collapse members) "anyOf" = none) :
    ∃ alternatives, listed = .arr alternatives ∧ alternatives ≠ [] ∧
      alternatives.all isTypeOnly = true := by
  rw [collapse] at hgone
  split at hgone
  · next alternatives harr =>
      split at hgone
      · next hfires =>
          rw [hanyOf] at harr
          exact ⟨alternatives, Option.some.inj harr, hfires⟩
      · rw [hanyOf] at hgone
        cases hgone
  · rw [hanyOf] at hgone
    cases hgone

theorem normalizeValue_anyOf {listed : Json} {alternatives : List Json}
    (hlisted : normalizeValue "anyOf" listed = .arr alternatives) :
    ∃ before, listed = .arr before ∧ alternatives = before.map (normalizeSchema false) := by
  rw [normalizeValue, if_neg (by decide), if_neg (by decide), if_pos (by decide)] at hlisted
  cases listed with
  | arr items =>
      rw [normalizeBranches, normalizeItems_eq, Json.arr.injEq] at hlisted
      exact ⟨items, rfl, hlisted.symm⟩
  | _ => cases hlisted

/-- What is normalised to a type alone comes down to one. -/
theorem bare_of_typeOnly (schema : Json) (hproper : Throughout Proper schema)
    (honly : isTypeOnly (normalizeSchema false schema) = true) : Bare schema := by
  induction schema using child_induct with
  | _ schema ih =>
      cases schema with
      | obj fields =>
          rw [normalizeSchema_obj] at honly
          obtain ⟨htype, hnone⟩ := isTypeOnly_obj honly
          have hunique := unique_map hproper.here.unique
          obtain ⟨hfocus, hleft⟩ := left_of_typeOnly hunique hnone
          have hfields (field : String × Json) (hmem : field ∈ fields) :
              field.1 ∈ ["type", "anyOf", "title", "description"] ∨
                field = ("additionalProperties", .bool true) := by
            refine (hleft _ (List.mem_map_of_mem hmem)).imp_right fun heq => ?_
            have hkey : field.1 = "additionalProperties" := congrArg Prod.fst heq
            have hvalue : normalizeValue field.1 field.2 = .bool true := congrArg Prod.snd heq
            rw [hkey, normalizeValue_eq_self (by decide)] at hvalue
            exact Prod.ext hkey hvalue
          have hbefore (key : String) (hkey : key ∈ ["type", "anyOf"]) :
              Json.member? (beforeCollapse false (fields.map normalizeMember)) key =
                Json.member? (fields.map normalizeMember) key := by
            simp only [List.mem_cons, List.not_mem_nil, or_false] at hkey
            rcases hkey with rfl | rfl
            · rw [member?_beforeCollapse (by decide) (by decide) (by decide),
                renames_plain (by decide)]
            · rw [member?_beforeCollapse (by decide) (by decide) (by decide),
                renames_plain (by decide)]
          have hproject : project false (fields.map normalizeMember) =
              collapse (beforeCollapse false (fields.map normalizeMember)) := by
            rw [project_eq, hfocus, steps_eq_collapse]
          rw [hproject] at htype hnone
          cases hanyOf : Json.member? fields "anyOf" with
          | none =>
              have hgone : Json.member? (beforeCollapse false (fields.map normalizeMember))
                  "anyOf" = none := by
                rw [hbefore _ (by decide), member?_map, hanyOf]
                rfl
              rw [collapse_eq_self hgone, hbefore _ (by decide),
                member?_map_plain (by decide)] at htype
              obtain ⟨names, hnames⟩ := Option.isSome_iff_exists.mp htype
              refine .type hnames fun field hmem => (hfields field hmem).imp_left fun hkey => ?_
              have hne : field.1 ≠ "anyOf" := fun heq =>
                member?_eq_none_iff.mp hanyOf (heq ▸ List.mem_map_of_mem hmem)
              simp only [List.mem_cons, List.not_mem_nil, or_false, hne, false_or] at hkey ⊢
              exact hkey
          | some listed =>
              have hlisted : Json.member? (beforeCollapse false (fields.map normalizeMember))
                  "anyOf" = some (normalizeValue "anyOf" listed) := by
                rw [hbefore _ (by decide), member?_map, hanyOf]
                rfl
              obtain ⟨after, hafter, hne, hall⟩ :=
                collapse_fired hlisted (hnone "anyOf" (by decide))
              obtain ⟨alternatives, rfl, rfl⟩ := normalizeValue_anyOf hafter
              have hbare : ∀ alternative ∈ alternatives, Bare alternative := by
                intro alternative hmem
                have hchild : Child alternative (.obj fields) :=
                  .branch (by decide) (Json.mem_of_member? hanyOf) hmem
                exact ih alternative hchild (hproper.child hchild)
                  (List.all_eq_true.mp hall _ (List.mem_map_of_mem hmem))
              have hfree := hproper.here.anyOf _ hanyOf
              refine .anyOf hanyOf (fun hnil => hne (by rw [hnil]; rfl)) hbare
                fun field hmem => (hfields field hmem).imp_left fun hkey => ?_
              have hother : field.1 ≠ "type" := fun heq =>
                member?_eq_none_iff.mp hfree (heq ▸ List.mem_map_of_mem hmem)
              simp only [List.mem_cons, List.not_mem_nil, or_false, hother, false_or] at hkey ⊢
              exact hkey
      | _ => cases honly

end Bare

section Preservation

variable {draft : Draft}

theorem valid_type (name : String) (value : Json) :
    valid draft (.obj [("type", .str name)]) value = nameHolds (.str name) value := by
  have htype : keywordOf "type" = .type := by decide
  simp [valid_obj, keywordHolds, htype, typeHolds, conditionHolds, validChild]

/-- An `anyOf` of types says what the list of the types does. -/
theorem valid_collapse {members : Members} (hunique : (members.map Prod.fst).Nodup)
    (htypes : ∀ alternatives, Json.member? members "anyOf" = some (.arr alternatives) →
      alternatives.all isTypeOnly = true → Json.member? members "type" = none ∧
        ∀ alternative ∈ alternatives, ∃ name, alternative = .obj [("type", .str name)])
    (value : Json) :
    valid draft (.obj (collapse members)) value = valid draft (.obj members) value := by
  cases hanyOf : Json.member? members "anyOf" with
  | none => rw [collapse_eq_self hanyOf]
  | some listed =>
      rcases collapse_cases members with hsame | hgone
      · rw [hsame]
      · obtain ⟨alternatives, rfl, hne, hall⟩ := collapse_fired hanyOf hgone
        obtain ⟨hfree, hnames⟩ := htypes alternatives hanyOf hall
        have hcollapse : collapse members =
            popped "anyOf" (assign members ("type", .arr (alternatives.map typeOf))) := by
          simp only [collapse, hanyOf, hne, hall, ne_eq, not_false_eq_true, and_self, if_true]
        have hsays (context : Context) (value : Json) :
            keywordHolds draft context ("anyOf", .arr alternatives) value =
              keywordHolds draft context ("type", .arr (alternatives.map typeOf)) value := by
          have hkey : keywordOf "anyOf" = .anyOf := by decide
          have htype : keywordOf "type" = .type := by decide
          simp only [keywordHolds, hkey, htype, branches, validList_eq_map, Option.elim_some,
            typeHolds, List.any_map]
          rw [Bool.eq_iff_iff, List.any_eq_true, List.any_eq_true]
          refine exists_congr fun alternative => and_congr_right fun hmem => ?_
          obtain ⟨name, rfl⟩ := hnames alternative hmem
          rw [Function.comp_apply, Function.comp_apply, valid_type]
          rfl
        rw [hcollapse]
        refine valid_congr hunique (unique_popped (unique_assign hunique _) "anyOf")
          (fun key hkey => ?_) fun context => ?_
        · have hapart : key ≠ "anyOf" ∧ "type" ≠ key := by
            have hall : sharedKeys.all fun key => decide (key ≠ "anyOf" ∧ "type" ≠ key) := by
              decide
            exact of_decide_eq_true (List.all_eq_true.mp hall key hkey)
          rw [member?_popped hapart.1, InlinedDefs.member?_assign, if_neg hapart.2]
        · constructor
          · intro hkeywords key schema hmember
            by_cases hkey : key = "anyOf"
            · rw [hkey, member?_popped_self] at hmember
              cases hmember
            · rw [member?_popped hkey, InlinedDefs.member?_assign] at hmember
              by_cases htype : "type" = key
              · rw [if_pos htype] at hmember
                cases hmember
                rw [← htype, ← hsays]
                exact hkeywords _ _ hanyOf
              · rw [if_neg htype] at hmember
                exact hkeywords key schema hmember
          · intro hkeywords key schema hmember
            by_cases hkey : key = "anyOf"
            · rw [hkey, hanyOf] at hmember
              cases hmember
              rw [hkey, hsays]
              refine hkeywords _ _ ?_
              rw [member?_popped (by decide), InlinedDefs.member?_assign, if_pos rfl]
            · by_cases htype : "type" = key
              · rw [← htype, hfree] at hmember
                cases hmember
              · refine hkeywords key schema ?_
                rw [member?_popped hkey, InlinedDefs.member?_assign, if_neg htype]
                exact hmember

theorem unique_beforeCollapse {members : Members} (hunique : (members.map Prod.fst).Nodup)
    (root : Bool) : ((beforeCollapse root members).map Prod.fst).Nodup := by
  have hplain := unique_popped (unique_dropAdditional (unique_renames hunique)) "description"
  rw [beforeCollapse]
  cases root with
  | true => exact hplain
  | false => exact unique_popped hplain "title"

theorem valid_beforeCollapse {members : Members} (hunique : (members.map Prod.fst).Nodup)
    (hfree : ∀ names ∈ renames, ∀ limit, Json.member? members names.1 = some limit →
      Json.member? members names.2 = none) (root : Bool) (value : Json) :
    valid draft (.obj (beforeCollapse root members)) value =
      valid draft (.obj members) value := by
  have hrenamed := unique_renames hunique
  have hplain : valid draft (.obj (popped "description"
      (dropAdditional (renames.foldl rename members)))) value =
        valid draft (.obj members) value := by
    rw [valid_remark (unique_dropAdditional hrenamed) (by decide) (by decide),
      valid_dropAdditional hrenamed, valid_renames hunique hfree]
  rw [beforeCollapse]
  cases root with
  | true => exact hplain
  | false =>
      simp only [Bool.false_eq_true, if_false]
      rw [valid_remark (unique_popped (unique_dropAdditional hrenamed) _) (by decide)
        (by decide)]
      exact hplain

end Preservation

section Result

variable {draft : Draft}

theorem unique_steps {members : Members} (hunique : (members.map Prod.fst).Nodup)
    (root : Bool) : ((steps root members).map Prod.fst).Nodup :=
  unique_collapse (unique_beforeCollapse hunique root)

theorem eq_singleton_of_typeOnly {members : Members} (hunique : (members.map Prod.fst).Nodup)
    (honly : isTypeOnly (.obj members) = true) {names : Json}
    (hnames : Json.member? members "type" = some names) : members = [("type", names)] := by
  simp only [isTypeOnly, Bool.and_eq_true, decide_eq_true_eq, List.all_eq_true] at honly
  obtain ⟨hne, hall⟩ := honly
  obtain ⟨member, rest, rfl⟩ := List.exists_cons_of_ne_nil hne
  have hkey := hall member List.mem_cons_self
  have hrest : rest = [] := by
    cases rest with
    | nil => rfl
    | cons other rest =>
        have hother := hall other (by simp)
        rw [List.map_cons, List.map_cons, hkey, hother] at hunique
        exact absurd hunique (by simp)
  subst hrest
  rw [Json.member?_cons, if_pos hkey, Option.some.injEq] at hnames
  rw [List.cons.injEq]
  exact ⟨Prod.ext hkey hnames, rfl⟩

/-- Where an `anyOf` is collapsed, each of its members is the name of a type. -/
theorem named_of_typeOnly {members : Members} {alternatives : List Json}
    (hproper : Throughout Proper (.obj members)) (hclean : Clean members)
    (hanyOf : Json.member? members "anyOf" = some (.arr alternatives))
    (hall : ∀ alternative ∈ alternatives,
      isTypeOnly (normalizeSchema false alternative) = true) :
    ∀ alternative ∈ alternatives,
      ∃ name, normalizeSchema false alternative = .obj [("type", .str name)] := by
  have hchild (alternative : Json) (hmem : alternative ∈ alternatives) :
      Throughout Proper alternative :=
    hproper.child (.branch (by decide) (Json.mem_of_member? hanyOf) hmem)
  have hbare : ∀ alternative ∈ alternatives, Bare alternative := fun alternative hmem =>
    bare_of_typeOnly alternative (hchild alternative hmem) (hall alternative hmem)
  intro alternative hmem
  have honly := hall alternative hmem
  cases hbare alternative hmem with
  | @type fields names hnames hadorned =>
      obtain ⟨name, rfl⟩ := hproper.here.single _ hanyOf fields names hmem hadorned hnames
      have hflat := hclean.flat _ hanyOf hbare fields hmem
      have hunique := unique_map (hchild _ hmem).here.unique
      rw [normalizeSchema_obj] at honly ⊢
      obtain ⟨hfocus, -⟩ := left_of_typeOnly hunique (isTypeOnly_obj honly).2
      rw [project_eq, hfocus] at honly ⊢
      refine ⟨name, congrArg Json.obj (eq_singleton_of_typeOnly (unique_steps hunique false)
        honly ?_)⟩
      have hgone : Json.member? (beforeCollapse false (fields.map normalizeMember)) "anyOf" =
          none := by
        rw [member?_beforeCollapse (by decide) (by decide) (by decide), renames_plain (by decide),
          member?_map, hflat]
        rfl
      rw [steps_eq_collapse, collapse_eq_self hgone,
        member?_beforeCollapse (by decide) (by decide) (by decide), renames_plain (by decide),
        member?_map_plain (by decide), hnames]
  | anyOf hinner =>
      have hflat := hclean.flat _ hanyOf hbare _ hmem
      rw [hinner] at hflat
      cases hflat

/-- A keyword that stands alone says all that the node does. -/
theorem valid_focus {members : Members} (hproper : Proper members) (hclean : Clean members)
    {key : String} (hkey : key ∈ focusKeys)
    (hsome : (Json.member? (members.map normalizeMember) key).isSome = true) (value : Json) :
    valid draft (.obj ((members.map normalizeMember).filter fun member => member.1 = key)) value =
      valid draft (.obj (members.map normalizeMember)) value := by
  have hunique := unique_map hproper.unique
  have hplain : key ∉ tableKeys ∧ key ∉ schemaKeys ∧ key ∉ branchKeys := by
    have hall : focusKeys.all fun key =>
        decide (key ∉ tableKeys ∧ key ∉ schemaKeys ∧ key ∉ branchKeys) := by decide
    exact of_decide_eq_true (List.all_eq_true.mp hall key hkey)
  obtain ⟨kept, hkept⟩ := Option.isSome_iff_exists.mp hsome
  have hbefore := hkept
  rw [member?_map_plain hplain] at hbefore
  have hkeys {allowed : List String} (hall : ∀ member ∈ members, member.1 ∈ allowed) :
      ∀ member ∈ members.map normalizeMember, member.1 ∈ allowed := by
    intro member hmem
    obtain ⟨before, hmember, rfl⟩ := List.mem_map.mp hmem
    exact hall before hmember
  simp only [focusKeys, List.mem_cons, List.not_mem_nil, or_false] at hkey
  rcases hkey with rfl | rfl | rfl
  · obtain ⟨hallowed, htype⟩ := hproper.const kept hbefore
    refine valid_alone hunique (by decide) hkept (hkeys hallowed)
      (fun names hnames context value hholds => ?_) value
    rw [member?_map_plain (by decide)] at hnames
    have hequal : kept.equal value = true := hholds
    rw [← typeHolds_of_equal hequal]
    exact htype names hnames
  · obtain ⟨hallowed, htype⟩ := hproper.enum kept hbefore
    refine valid_alone hunique (by decide) hkept (hkeys hallowed)
      (fun names hnames context value hholds => ?_) value
    rw [member?_map_plain (by decide)] at hnames
    obtain ⟨values, rfl, hvalues⟩ := htype names hnames
    have hlisted : enumHolds (.arr values) value = true := hholds
    obtain ⟨expected, hmem, hequal⟩ := List.any_eq_true.mp hlisted
    rw [← typeHolds_of_equal hequal]
    exact hvalues expected hmem
  · refine valid_alone hunique (by decide) hkept (hkeys (hproper.ref kept hbefore))
      (fun names hnames context value hholds => ?_) value
    rw [member?_map_plain (by decide), hclean.ref kept hbefore] at hnames
    cases hnames

/-- A normalised schema accepts what the schema did. -/
theorem valid_normalizeSchema (schema : Json) (hproper : Throughout Proper schema)
    (hclean : Throughout Clean schema) (root : Bool) (value : Json) :
    valid draft (normalizeSchema root schema) value = valid draft schema value := by
  induction schema using child_induct generalizing root value with
  | _ schema ih =>
      cases schema with
      | arr items => rfl
      | obj members =>
          have hmap := @valid_map draft members (fun child hchild value =>
            ih child hchild (hproper.child hchild) (hclean.child hchild) false value) value
          have hunique := unique_map hproper.here.unique
          rw [normalizeSchema_obj, ← hmap, project_eq]
          rcases focus_cases (members.map normalizeMember) with
            ⟨hsame, -⟩ | ⟨key, hkey, hsome, hfocus⟩
          · have hfree : ∀ names ∈ renames, ∀ limit,
                Json.member? (members.map normalizeMember) names.1 = some limit →
                  Json.member? (members.map normalizeMember) names.2 = none := by
              intro names hnames limit hlimit
              rw [member?_map, Option.map_eq_some_iff] at hlimit
              obtain ⟨before, hbefore, -⟩ := hlimit
              rw [member?_map, hclean.here.short names hnames before hbefore]
              rfl
            rw [hsame, steps_eq_collapse, valid_collapse (unique_beforeCollapse hunique root),
              valid_beforeCollapse hunique hfree]
            intro after hafter hall
            rw [member?_beforeCollapse (by decide) (by decide) (by decide),
              renames_plain (by decide), member?_map, Option.map_eq_some_iff] at hafter
            obtain ⟨listed, hlisted, hnormalized⟩ := hafter
            obtain ⟨alternatives, rfl, rfl⟩ := normalizeValue_anyOf hnormalized
            refine ⟨?_, fun alternative hmem => ?_⟩
            · rw [member?_beforeCollapse (by decide) (by decide) (by decide),
                renames_plain (by decide), member?_map_plain (by decide)]
              exact hproper.here.anyOf _ hlisted
            · obtain ⟨before, hbefore, rfl⟩ := List.mem_map.mp hmem
              refine named_of_typeOnly hproper hclean.here hlisted (fun other hother => ?_)
                before hbefore
              exact List.all_eq_true.mp hall _ (List.mem_map_of_mem hother)
          · rw [hfocus, steps_alone hkey]
            exact valid_focus hproper.here hclean.here hkey hsome value
      | _ => rfl

/-- A validator finds under a reference to the table what the table says there. -/
def ReadsDefs (draft : Draft) (schema : Json) : Prop :=
  ∀ members fields, schema = .obj members → Json.member? members "$defs" = some (.obj fields) →
    ∀ field ∈ fields, ∀ value,
      draft.resolve ("#/$defs/" ++ field.1) value = valid draft field.2 value

/-- A keyword that stands alone has no table beside it. -/
theorem Proper.no_defs {members : Members} (hproper : Proper members) {key : String}
    (hkey : key ∈ focusKeys) (hsome : (Json.member? members key).isSome = true) :
    Json.member? members "$defs" = none := by
  obtain ⟨kept, hkept⟩ := Option.isSome_iff_exists.mp hsome
  have hallowed : ∀ member ∈ members, member.1 ∈ key :: "type" :: annotations := by
    simp only [focusKeys, List.mem_cons, List.not_mem_nil, or_false] at hkey
    rcases hkey with rfl | rfl | rfl
    · exact (hproper.const kept hkept).1
    · exact (hproper.enum kept hkept).1
    · exact hproper.ref kept hkept
  have hapart : "$defs" ∉ key :: "type" :: annotations := by
    have hall : focusKeys.all fun key => decide ("$defs" ∉ key :: "type" :: annotations) := by
      decide
    exact of_decide_eq_true (List.all_eq_true.mp hall key hkey)
  rw [member?_eq_none_iff]
  intro hmem
  obtain ⟨member, hmember, hname⟩ := List.mem_map.mp hmem
  exact hapart (hname ▸ hallowed member hmember)

/-- The table of a normalised schema says what the table did. -/
theorem readsDefs_normalizeSchema (schema : Json) (hproper : Throughout Proper schema)
    (hclean : Throughout Clean schema) (root : Bool) :
    ReadsDefs draft (normalizeSchema root schema) ↔ ReadsDefs draft schema := by
  cases schema with
  | obj members =>
      have htable : Json.member? (project root (members.map normalizeMember)) "$defs" =
          (Json.member? members "$defs").map (normalizeValue "$defs") := by
        rw [project_eq, ← member?_map]
        rcases focus_cases (members.map normalizeMember) with
          ⟨hsame, -⟩ | ⟨key, hkey, hsome, hfocus⟩
        · rw [hsame, member?_steps (by decide)]
        · have hbefore : (Json.member? members key).isSome = true := by
            rwa [member?_map, Option.isSome_map] at hsome
          have hne : "$defs" ≠ key := by
            rintro rfl
            exact absurd hkey (by decide)
          rw [hfocus, steps_alone hkey, member?_filter_key, if_neg hne, member?_map,
            hproper.here.no_defs hkey hbefore]
          rfl
      have hsays (fields : Members) (hfields : Json.member? members "$defs" = some (.obj fields))
          (field : String × Json) (hmem : field ∈ fields) (value : Json) :
          valid draft (normalizeSchema false field.2) value = valid draft field.2 value := by
        have hchild : Child field.2 (.obj members) :=
          .field (by decide) (Json.mem_of_member? hfields) hmem
        exact valid_normalizeSchema field.2 (hproper.child hchild) (hclean.child hchild) false value
      rw [normalizeSchema_obj]
      constructor
      · rintro hreads _ fields ⟨⟩ hfields field hmem value
        have hnormal : Json.member? (project root (members.map normalizeMember)) "$defs" =
            some (.obj (fields.map normalizeField)) := by
          rw [htable, hfields, Option.map_some, normalizeValue, if_pos (by decide),
            normalizeTable, normalizeFields_eq]
        rw [← hsays fields hfields field hmem value]
        exact hreads _ _ rfl hnormal (normalizeField field) (List.mem_map_of_mem hmem) value
      · rintro hreads _ fields ⟨⟩ hfields field hmem value
        rw [htable, Option.map_eq_some_iff] at hfields
        obtain ⟨table, hbefore, hnormal⟩ := hfields
        rw [normalizeValue, if_pos (by decide)] at hnormal
        cases table with
        | obj before =>
            rw [normalizeTable, normalizeFields_eq, Json.obj.injEq] at hnormal
            subst hnormal
            obtain ⟨field, hmember, rfl⟩ := List.mem_map.mp hmem
            have hvalue := hreads _ before rfl hbefore field hmember value
            rw [← hsays before hbefore field hmember value] at hvalue
            exact hvalue
        | _ => cases hnormal
  | arr items =>
      exact iff_of_true (fun _ _ h => by cases h) (fun _ _ h => by cases h)
  | _ => exact Iff.rfl

/-- Normalisation keeps what a schema accepts and what its table says, and normalising
again changes nothing. -/
theorem normalize_schema_preserves (schema : Json) (hproper : Throughout Proper schema)
    (hclean : Throughout Clean schema) (root : Bool) :
    (∀ draft, (ReadsDefs draft (normalizeSchema root schema) ↔ ReadsDefs draft schema) ∧
      ∀ value, valid draft (normalizeSchema root schema) value = valid draft schema value) ∧
    normalizeSchema root (normalizeSchema root schema) = normalizeSchema root schema :=
  ⟨fun _ => ⟨readsDefs_normalizeSchema schema hproper hclean root,
    valid_normalizeSchema schema hproper hclean root⟩,
    normalizeSchema_normalizeSchema schema root⟩

end Result

namespace NormalizedWitness

/-- The schemas in a node. -/
def childrenOf : Json → List Json
  | .arr items => items
  | .obj members => members.flatMap fun member =>
      match member.2 with
      | .obj fields => if member.1 ∈ tableKeys then fields.map Prod.snd
          else if member.1 ∈ schemaKeys then [.obj fields] else []
      | .arr items => if member.1 ∈ branchKeys then items
          else if member.1 ∈ schemaKeys then [.arr items] else []
      | other => if member.1 ∈ schemaKeys then [other] else []
  | _ => []

theorem Child.mem_childrenOf {child parent : Json} (hchild : Child child parent) :
    child ∈ childrenOf parent := by
  have hapart : ∀ key ∈ schemaKeys, key ∉ tableKeys ∧ key ∉ branchKeys := by decide
  cases hchild with
  | item hmem => exact hmem
  | @field members key fields field hkey hmem hfield =>
      refine List.mem_flatMap.mpr ⟨_, hmem, ?_⟩
      simp only [if_pos hkey]
      exact List.mem_map_of_mem hfield
  | schema hkey hmem =>
      refine List.mem_flatMap.mpr ⟨_, hmem, ?_⟩
      cases child <;> simp [hkey, hapart _ hkey]
  | @branch members key items item hkey hmem hitem =>
      refine List.mem_flatMap.mpr ⟨_, hmem, ?_⟩
      simp only [if_pos hkey]
      exact hitem

theorem throughout_of {P : Members → Prop} {schema : Json}
    (hhere : ∀ members, schema = .obj members → P members)
    (hchildren : ∀ child ∈ childrenOf schema, Throughout P child) : Throughout P schema := by
  intro members hpart
  rcases Relation.ReflTransGen.cases_tail hpart with heq | ⟨child, hinner, hchild⟩
  · exact hhere members heq
  · exact hchildren child (Child.mem_childrenOf hchild) members hinner

theorem Proper.of_plain {members : Members} (hunique : (members.map Prod.fst).Nodup)
    (hnone : ∀ key ∈ ["const", "enum", "$ref", "anyOf"], Json.member? members key = none) :
    Proper members where
  unique := hunique
  const value h := by rw [hnone _ (by decide)] at h; cases h
  enum listed h := by rw [hnone _ (by decide)] at h; cases h
  ref target h := by rw [hnone _ (by decide)] at h; cases h
  anyOf listed h := by rw [hnone _ (by decide)] at h; cases h
  single alternatives h := by rw [hnone _ (by decide)] at h; cases h

/-- A union with a comment, in a union. -/
def nested : Json :=
  .obj [("anyOf", .arr [.obj [("anyOf", .arr [.obj [("type", .str "string")],
      .obj [("type", .str "integer")]]), ("description", .str "a name or a number")],
    .obj [("type", .str "null")]])]

theorem proper_type (name : String) : Throughout Proper (.obj [("type", .str name)]) := by
  refine throughout_of (fun members heq => ?_) (fun child hmem => absurd hmem List.not_mem_nil)
  cases heq
  refine Proper.of_plain (List.nodup_singleton _) fun key hkey => ?_
  simp only [List.mem_cons, List.not_mem_nil, or_false] at hkey
  rcases hkey with rfl | rfl | rfl | rfl <;> rfl

/-- An `anyOf` with annotations beside it. -/
theorem proper_anyOf {alternatives : List Json} {more : Members}
    (hunique : ((("anyOf", Json.arr alternatives) :: more).map Prod.fst).Nodup)
    (hmore : ∀ member ∈ more, member.1 ∈ annotations)
    (hsingle : ∀ fields names, .obj fields ∈ alternatives → Adorned "type" fields →
      Json.member? fields "type" = some names → ∃ name, names = .str name) :
    Proper (("anyOf", .arr alternatives) :: more) := by
  have hnone (key : String) (hkey : key ≠ "anyOf" ∧ key ∉ annotations) :
      Json.member? (("anyOf", .arr alternatives) :: more) key = none := by
    rw [member?_eq_none_iff]
    intro hmem
    rcases List.mem_cons.mp hmem with heq | hmem
    · exact hkey.1 heq
    · obtain ⟨member, hmember, rfl⟩ := List.mem_map.mp hmem
      exact hkey.2 (hmore member hmember)
  exact {
    unique := hunique
    const := fun value h => by rw [hnone _ (by decide)] at h; cases h
    enum := fun listed h => by rw [hnone _ (by decide)] at h; cases h
    ref := fun target h => by rw [hnone _ (by decide)] at h; cases h
    anyOf := fun _ _ => hnone _ (by decide)
    single := fun found h => by
      rw [Json.member?_cons, if_pos rfl] at h
      cases h
      exact hsingle }

theorem nested_proper : Throughout Proper nested := by
  have hleaf : ∀ child ∈ ([.obj [("type", .str "string")], .obj [("type", .str "integer")]] :
      List Json), Throughout Proper child := by
    intro child hmem
    simp only [List.mem_cons, List.not_mem_nil, or_false] at hmem
    rcases hmem with rfl | rfl
    · exact proper_type _
    · exact proper_type _
  refine throughout_of (fun members heq => ?_) fun child hmem => ?_
  · cases heq
    refine proper_anyOf (by decide) (by decide) fun fields names hmem hadorned hnames => ?_
    simp only [List.mem_cons, List.not_mem_nil, or_false, Json.obj.injEq] at hmem
    rcases hmem with rfl | rfl
    · cases hnames
    · cases hnames
      exact ⟨"null", rfl⟩
  · have hchildren : child ∈ ([.obj [("anyOf", .arr [.obj [("type", .str "string")],
        .obj [("type", .str "integer")]]), ("description", .str "a name or a number")],
        .obj [("type", .str "null")]] : List Json) := hmem
    simp only [List.mem_cons, List.not_mem_nil, or_false] at hchildren
    rcases hchildren with rfl | rfl
    · refine throughout_of (fun members heq => ?_) fun child hmem => ?_
      · cases heq
        refine proper_anyOf (by decide) (by decide) fun fields names hmem _ hnames => ?_
        simp only [List.mem_cons, List.not_mem_nil, or_false, Json.obj.injEq] at hmem
        rcases hmem with rfl | rfl
        · cases hnames
          exact ⟨"string", rfl⟩
        · cases hnames
          exact ⟨"integer", rfl⟩
      · exact hleaf child hmem
    · exact proper_type _

/-- A validator without references and further keywords. -/
def plainDraft : Draft where
  resolve _ _ := false
  other _ _ _ _ := true

/-- The inner union becomes a list of types inside the list of types, and its types are
not accepted any more. -/
theorem nested_union_lost :
    ¬ ∀ draft schema, Throughout Proper schema → ∀ root value,
      valid draft (normalizeSchema root schema) value = valid draft schema value := by
  intro hclaim
  have hsame := hclaim plainDraft nested nested_proper true (.str "a")
  have hbefore : valid plainDraft nested (.str "a") = true := by decide
  have hafter : valid plainDraft (normalizeSchema true nested) (.str "a") = false := by decide
  rw [hbefore, hafter] at hsame
  cases hsame

/-- A bound under both its names: the longer one is overwritten. -/
theorem bound_overwritten :
    valid plainDraft (.obj [("ge", .int 1), ("minimum", .int 5)]) (.int 3) = false ∧
      valid plainDraft (normalizeSchema false (.obj [("ge", .int 1), ("minimum", .int 5)]))
        (.int 3) = true := by
  constructor <;> decide

def union : Members :=
  [("anyOf", .arr [.obj [("type", .str "string")], .obj [("type", .str "null")]]),
    ("default", .null)]

def count : Members := [("type", .str "integer"), ("ge", .int 1), ("description", .str "count")]

def record : Members :=
  [("title", .str "Record"), ("properties", .obj [("name", .obj union), ("count", .obj count)]),
    ("additionalProperties", .bool true)]

theorem Clean.of_plain {members : Members}
    (hnone : ∀ key ∈ ["$ref", "anyOf", "ge", "le", "gt", "lt"],
      Json.member? members key = none) : Clean members where
  short names hnames limit h := by
    have hall : renames.all fun names =>
        decide (names.1 ∈ ["$ref", "anyOf", "ge", "le", "gt", "lt"]) := by decide
    rw [hnone _ (of_decide_eq_true (List.all_eq_true.mp hall names hnames))] at h
    cases h
  ref target h := by rw [hnone _ (by decide)] at h; cases h
  flat alternatives h := by rw [hnone _ (by decide)] at h; cases h

/-- The nodes of the record: the record, its two properties, and two types. -/
theorem throughout_record {P : Members → Prop} (hrecord : P record) (hunion : P union)
    (hcount : P count) (htype : ∀ name, P [("type", .str name)]) :
    Throughout P (.obj record) := by
  have hleaf (name : String) : Throughout P (.obj [("type", .str name)]) := by
    refine throughout_of (fun members heq => ?_) (fun child hmem => absurd hmem List.not_mem_nil)
    cases heq
    exact htype name
  refine throughout_of (fun members heq => ?_) fun child hmem => ?_
  · cases heq
    exact hrecord
  have hchildren : child ∈ ([.obj union, .obj count] : List Json) := hmem
  simp only [List.mem_cons, List.not_mem_nil, or_false] at hchildren
  rcases hchildren with rfl | rfl
  · refine throughout_of (fun members heq => ?_) fun child hmem => ?_
    · cases heq
      exact hunion
    have hchildren : child ∈ ([.obj [("type", .str "string")], .obj [("type", .str "null")]] :
        List Json) := hmem
    simp only [List.mem_cons, List.not_mem_nil, or_false] at hchildren
    rcases hchildren with rfl | rfl
    · exact hleaf _
    · exact hleaf _
  · refine throughout_of (fun members heq => ?_)
      (fun child hmem => absurd hmem List.not_mem_nil)
    cases heq
    exact hcount

theorem none_of_decide {members : Members} {keys : List String}
    (hall : (keys.all fun key => (Json.member? members key).isNone) = true) :
    ∀ key ∈ keys, Json.member? members key = none :=
  fun key hkey => Option.isNone_iff_eq_none.mp (List.all_eq_true.mp hall key hkey)

theorem type_names {fields : Members} {names : Json}
    (hmem : Json.obj fields ∈
      ([.obj [("type", .str "string")], .obj [("type", .str "null")]] : List Json))
    (hnames : Json.member? fields "type" = some names) : ∃ name, names = .str name := by
  simp only [List.mem_cons, List.not_mem_nil, or_false, Json.obj.injEq] at hmem
  rcases hmem with rfl | rfl
  · cases hnames
    exact ⟨"string", rfl⟩
  · cases hnames
    exact ⟨"null", rfl⟩

theorem record_proper : Throughout Proper (.obj record) :=
  throughout_record (Proper.of_plain (by decide) (none_of_decide (by decide)))
    (proper_anyOf (by decide) (by decide) fun _ _ hmem _ hnames => type_names hmem hnames)
    (Proper.of_plain (by decide) (none_of_decide (by decide)))
    fun name => (proper_type name).here

theorem record_clean : Throughout Clean (.obj record) := by
  refine throughout_record (Clean.of_plain (none_of_decide (by decide))) ?_ ?_ fun name =>
    Clean.of_plain fun key hkey => ?_
  · exact {
      short := fun names hnames limit h => by
        have hall : renames.all fun names => (Json.member? union names.1).isNone := by decide
        rw [Option.isNone_iff_eq_none.mp (List.all_eq_true.mp hall names hnames)] at h
        cases h
      ref := fun target h => by cases h
      flat := fun alternatives h _ fields hmem => by
        cases h
        simp only [List.mem_cons, List.not_mem_nil, or_false, Json.obj.injEq] at hmem
        rcases hmem with rfl | rfl <;> rfl }
  · exact {
      short := fun names hnames limit _ => by
        have hall : renames.all fun names => (Json.member? count names.2).isNone := by decide
        exact Option.isNone_iff_eq_none.mp (List.all_eq_true.mp hall names hnames)
      ref := fun target h => by cases h
      flat := fun alternatives h => by cases h }
  · simp only [List.mem_cons, List.not_mem_nil, or_false] at hkey
    rcases hkey with rfl | rfl | rfl | rfl | rfl | rfl <;> rfl

/-- The union of the record becomes a list of types, and its bound a minimum. -/
theorem normalize_record :
    (∀ draft, (ReadsDefs draft (normalizeSchema true (.obj record)) ↔
        ReadsDefs draft (.obj record)) ∧
      ∀ value, valid draft (normalizeSchema true (.obj record)) value =
        valid draft (.obj record) value) ∧
    normalizeSchema true (normalizeSchema true (.obj record)) =
      normalizeSchema true (.obj record) :=
  normalize_schema_preserves (.obj record) record_proper record_clean true

end NormalizedWitness

end NormalizedSchema

end HermesPipeline
