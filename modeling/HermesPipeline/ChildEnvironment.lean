/-
The environment of a process that a runtime adapter starts.  The helper that
builds it takes an allow list and secrets that no child inherits, and reads an
allow list of no names as no list.
-/
import HermesPipeline.Lib.Keyed

namespace HermesPipeline

open Lib

namespace ChildEnvironment

/-- The variables of a process. -/
abbrev Env := Dict String String

/-- The loop of `child_environment` over the variables. -/
def childEntries (allow canaries : List String) (base : List (String × String)) : Env :=
  base.foldl (fun cleaned entry =>
    if entry.1 ∈ canaries ∨ entry.2 ∈ canaries then cleaned
    else if allow ≠ [] ∧ entry.1 ∉ allow then cleaned
    else cleaned.set entry.1 entry.2) .empty

def childEnvironment (base : Env) (allow canaries : List String) : Env :=
  childEntries allow canaries base.rows

/-- `_DROP`. -/
def dropped : List String := ["GITHUB_TOKEN", "GH_TOKEN"]

/-- `dict(os.environ if base is None else base)`. -/
def sourceEnv (environ : Env) (base : Option Env) : Env := base.getD environ

/-- `cleaned_child_env`, in a process with these variables. -/
def cleanedChildEnv (environ : Env) (base : Option Env) : Env :=
  let source := sourceEnv environ base
  let allow := (source.rows.map Prod.fst).filter fun key => key ∉ dropped
  childEnvironment source allow []

/-- What `child_environment` keeps: no secret as a name or as a value, and only
the allowed names where there are any. -/
def kept (allow canaries : List String) (entry : String × String) : Bool :=
  entry.1 ∉ canaries && entry.2 ∉ canaries && (allow.isEmpty || entry.1 ∈ allow)

section Kept

variable {allow canaries : List String}

theorem childEntries_eq (base : List (String × String)) :
    childEntries allow canaries base =
      Dict.update .empty (base.filter (kept allow canaries)) := by
  rw [Dict.update, List.foldl_filter, childEntries]
  congr 1
  funext cleaned entry
  by_cases hsecret : entry.1 ∈ canaries ∨ entry.2 ∈ canaries
  · have hkept : kept allow canaries entry = false := by
      rcases hsecret with hname | hvalue
      · simp [kept, hname]
      · simp [kept, hvalue]
    simp [hsecret, hkept]
  · have hpublic := not_or.mp hsecret
    cases allow with
    | nil => simp [kept, hpublic]
    | cons name rest => by_cases hname : entry.1 ∈ name :: rest <;> simp [kept, hpublic, hname]

/-- A child has the variables of its parent that are kept, with their values. -/
theorem get?_childEnvironment (base : Env) (name : String) :
    (childEnvironment base allow canaries).get? name =
      (base.get? name).filter fun value => kept allow canaries (name, value) := by
  have hrows : base.rows.filter (kept allow canaries) =
      (base.deleteWhere fun entry => !kept allow canaries entry).rows := by
    rw [Keyed.deleteWhere_rows]
    simp
  rw [childEnvironment, childEntries_eq, hrows, Dict.update_empty_rows]
  apply Option.ext
  intro value
  rw [← Dict.mem_rows_iff, Keyed.deleteWhere_rows, List.mem_filter, Dict.mem_rows_iff,
    Option.filter_eq_some_iff]
  simp

/-- No secret is a name or a value in the environment of a child. -/
theorem childEnvironment_hides (base : Env) {canary : String} (hcanary : canary ∈ canaries) :
    (childEnvironment base allow canaries).get? canary = none ∧
      ∀ name, (childEnvironment base allow canaries).get? name ≠ some canary := by
  constructor
  · rw [get?_childEnvironment, Option.filter_eq_none_iff]
    intro value _
    simp [kept, hcanary]
  · intro name hvalue
    rw [get?_childEnvironment, Option.filter_eq_some_iff] at hvalue
    simp [kept, hcanary] at hvalue

end Kept

/-- Every variable but the two tokens, with its value, and neither of them. -/
def CarriesNoToken (source child : Env) : Prop :=
  ∀ name, child.get? name = if name ∈ dropped then none else source.get? name

/-- Some variable is none of the tokens. -/
def HasOther (source : Env) : Prop :=
  ∃ name, name ∉ dropped ∧ source.get? name ≠ none

/-- None of the tokens is set. -/
def HasNoToken (source : Env) : Prop :=
  ∀ name ∈ dropped, source.get? name = none

/-- The allow list of `cleaned_child_env`. -/
def allowed (source : Env) : List String :=
  (source.rows.map Prod.fst).filter fun key => key ∉ dropped

section Cleaned

variable {source : Env}

theorem mem_allowed_iff (name : String) :
    name ∈ allowed source ↔ name ∉ dropped ∧ source.get? name ≠ none := by
  rw [allowed, List.mem_filter, source.mem_keys_iff, and_comm, decide_eq_true_eq]

/-- The allow list has a name exactly where there is another variable. -/
theorem allowed_ne_nil_iff : allowed source ≠ [] ↔ HasOther source := by
  constructor
  · intro hne
    obtain ⟨name, hname⟩ := List.exists_mem_of_ne_nil _ hne
    exact ⟨name, (mem_allowed_iff name).mp hname⟩
  · rintro ⟨name, hname⟩
    exact List.ne_nil_of_mem ((mem_allowed_iff name).mpr hname)

/-- An allow list without names drops nothing. -/
theorem get?_of_only (hother : ¬ HasOther source) (name : String) :
    (childEnvironment source (allowed source) []).get? name = source.get? name := by
  have hnil : allowed source = [] := by
    by_contra hne
    exact hother (allowed_ne_nil_iff.mp hne)
  rw [get?_childEnvironment, hnil]
  cases source.get? name <;> simp [kept]

/-- An allow list with names drops the tokens. -/
theorem carries_of_other (hother : HasOther source) :
    CarriesNoToken source (childEnvironment source (allowed source) []) := by
  intro name
  have hne := allowed_ne_nil_iff.mpr hother
  have hkept : ∀ value, kept (allowed source) [] (name, value) =
      decide (name ∈ allowed source) := by
    intro value
    simp [kept, hne]
  rw [get?_childEnvironment]
  cases hvalue : source.get? name with
  | none => simp
  | some value =>
      have hmem : name ∈ allowed source ↔ name ∉ dropped := by
        rw [mem_allowed_iff, hvalue]
        simp
      by_cases hname : name ∈ dropped
      · simp [hkept, hmem, hname]
      · simp [hkept, hmem, hname]

/-- The environment is cleaned exactly where there is another variable, or
nothing to drop. -/
theorem carries_iff :
    CarriesNoToken source (childEnvironment source (allowed source) []) ↔
      HasOther source ∨ HasNoToken source := by
  constructor
  · intro hcarries
    by_cases hother : HasOther source
    · exact .inl hother
    · refine .inr fun name hname => ?_
      have htoken := hcarries name
      rwa [get?_of_only hother, if_pos hname] at htoken
  · rintro (hother | hnone)
    · exact carries_of_other hother
    · by_cases hother : HasOther source
      · exact carries_of_other hother
      · intro name
        rw [get?_of_only hother]
        split
        · rename_i hname
          exact hnone name hname
        · rfl

end Cleaned

/-- The child of a process has every variable but the tokens, and neither token,
exactly where the process has another variable or none of the tokens. -/
theorem cleaned_child_env_iff (environ : Env) (base : Option Env) :
    CarriesNoToken (sourceEnv environ base) (cleanedChildEnv environ base) ↔
      HasOther (sourceEnv environ base) ∨ HasNoToken (sourceEnv environ base) :=
  carries_iff

namespace TokenWitness

def onlyToken : Env := Dict.set .empty "GITHUB_TOKEN" "ghp_secret"

/-- A process with nothing but a token hands it to its child. -/
theorem token_reaches_child :
    ¬ CarriesNoToken (sourceEnv .empty (some onlyToken))
      (cleanedChildEnv .empty (some onlyToken)) := by
  intro hcarries
  have htoken := hcarries "GITHUB_TOKEN"
  revert htoken
  decide

end TokenWitness

end ChildEnvironment

end HermesPipeline
