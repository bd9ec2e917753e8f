/-
A project registry and its file.  What was registered and admitted comes back
from a dump, unless a project with the empty id was registered: a load skips
it, and then raises at the first of its members.
-/
import HermesPipeline.SavedFiles

namespace HermesPipeline

open Lib

namespace ProjectRegistry

/-- What the bridge asks of the registry, with the texts of the request. -/
inductive Op
  | register (projectId name : String)
  | admitMember (projectId principalId role : String)
deriving Repr, DecidableEq

/-- A request with an unknown role or project leaves the registry as it is. -/
def Op.apply (registry : ProjectRegistry) : Op → ProjectRegistry
  | .register projectId name => registry.register projectId name
  | .admitMember projectId principalId role =>
      match ProjectRole.ofValue? role with
      | none => registry
      | some role => (registry.admitMember projectId principalId role).getD registry

def after (ops : List Op) : ProjectRegistry := ops.foldl Op.apply .empty

/-- `exists`. -/
def knows (registry : ProjectRegistry) (projectId : String) : Bool :=
  (registry.projects.get? projectId).isSome

/-- `load(dump(registry))`, with Python's `str()` as a parameter. -/
def reload (str : Json → String) (registry : ProjectRegistry) :
    Option ProjectRegistry :=
  match Descriptor.dumpRegistry registry with
  | .obj members => load str members
  | _ => none

/-- The registry comes back from its dump with the same projects and roles. -/
def ComesBack (str : Json → String) (registry : ProjectRegistry) : Prop :=
  ∃ loaded, reload str registry = some loaded ∧
    (∀ projectId, loaded.knows projectId = registry.knows projectId) ∧
    ∀ projectId principalId, loaded.roleOf projectId principalId =
      registry.roleOf projectId principalId

theorem after_concat (ops : List Op) (op : Op) :
    after (ops ++ [op]) = op.apply (after ops) := by
  simp [after]

/-- Admitting changes no project. -/
theorem projects_admitMember {registry registry' : ProjectRegistry}
    {projectId principalId : String} {role : ProjectRole}
    (hadmitted : registry.admitMember projectId principalId role = some registry') :
    registry'.projects = registry.projects := by
  unfold admitMember at hadmitted
  split at hadmitted
  · cases hadmitted
    rfl
  · cases hadmitted

theorem projects_apply_admitMember (registry : ProjectRegistry)
    (projectId principalId role : String) :
    (Op.apply registry (.admitMember projectId principalId role)).projects =
      registry.projects := by
  simp only [Op.apply]
  split
  · rfl
  · next role _ =>
      cases hadmitted : registry.admitMember projectId principalId role with
      | none => rfl
      | some registry' => exact projects_admitMember hadmitted

/-- A project is known once it was registered. -/
theorem knows_after (ops : List Op) (projectId : String) :
    (after ops).knows projectId = true ↔
      ∃ name, Op.register projectId name ∈ ops := by
  induction ops using List.reverseRecOn with
  | nil =>
      constructor
      · intro hknows
        cases hknows
      · rintro ⟨name, hname⟩
        cases hname
  | append_singleton ops op ih =>
      rw [after_concat]
      cases op with
      | register other name =>
          change ((after ops).projects.set other name |>.get? projectId).isSome =
            true ↔ _
          rw [Dict.get?_set]
          by_cases hsame : projectId = other
          · simp [hsame]
          · have hother : ∀ text,
                Op.register projectId text ≠ .register other name := by
              intro text heq
              cases heq
              exact hsame rfl
            simpa [hsame, hother, knows] using ih
      | admitMember other principalId role =>
          rw [knows, projects_apply_admitMember]
          simpa [knows] using ih

/-- Every member belongs to a known project. -/
theorem known_after (ops : List Op) :
    ∀ entry ∈ (after ops).members.rows,
      ((after ops).projects.get? entry.1.1).isSome = true := by
  induction ops using List.reverseRecOn with
  | nil =>
      intro entry hentry
      cases hentry
  | append_singleton ops op ih =>
      rw [after_concat]
      cases op with
      | register projectId name =>
          intro entry hentry
          have hknown := ih entry hentry
          change ((after ops).projects.set projectId name |>.get? entry.1.1).isSome =
            true
          rw [Dict.get?_set]
          split
          · rfl
          · exact hknown
      | admitMember projectId principalId role =>
          intro entry hentry
          rw [projects_apply_admitMember]
          simp only [Op.apply] at hentry
          split at hentry
          · exact ih entry hentry
          · next role _ =>
              unfold admitMember at hentry
              split at hentry
              · next hproject =>
                  simp only [Option.getD_some] at hentry
                  obtain ⟨member, kept⟩ := entry
                  rw [Dict.mem_rows_iff, Dict.get?_set] at hentry
                  split at hentry
                  · next hsame =>
                      rw [hsame]
                      exact hproject
                  · exact ih _ ((Dict.mem_rows_iff _ _ _).mpr hentry)
              · exact ih entry hentry

/-- A load never knows the empty project. -/
theorem knows_load {str : Json → String} {document : List (String × Json)}
    {loaded : ProjectRegistry} (hload : load str document = some loaded) :
    loaded.knows "" = false := by
  have hregistered : ∀ (rows : List (List (String × Json)))
      (registry : ProjectRegistry), registry.knows "" = false →
      (rows.foldl (fun registry row =>
        if str ((Json.member? row "project_id").getD (.str "")) = "" then registry
        else registry.register (str ((Json.member? row "project_id").getD (.str "")))
          (str ((Json.member? row "name").getD (.str "")))) registry).knows "" =
        false := by
    intro rows
    induction rows with
    | nil => exact fun _ hempty => hempty
    | cons row rest ih =>
        intro registry hempty
        rw [List.foldl_cons]
        apply ih
        split
        · exact hempty
        · next hnamed =>
            rw [knows, register, Dict.get?_set, if_neg fun heq => hnamed heq.symm]
            exact hempty
  have hadmitted : ∀ (rows : List (List (String × Json)))
      (registry : ProjectRegistry), registry.knows "" = false →
      rows.foldlM (fun registry row =>
        match ProjectRole.ofValue?
            (str ((Json.member? row "role").getD (.str ""))) with
        | none => some registry
        | some role => registry.admitMember
            (str ((Json.member? row "project_id").getD (.str "")))
            (str ((Json.member? row "principal_id").getD (.str ""))) role)
        registry = some loaded → loaded.knows "" = false := by
    intro rows
    induction rows with
    | nil =>
        intro registry hempty hrun
        cases hrun
        exact hempty
    | cons row rest ih =>
        intro registry hempty hrun
        rw [List.foldlM_cons] at hrun
        obtain ⟨next, hstep, hrest⟩ := Option.bind_eq_some_iff.mp hrun
        refine ih next ?_ hrest
        split at hstep
        · cases hstep
          exact hempty
        · rw [knows, projects_admitMember hstep]
          exact hempty
  exact hadmitted _ _ (hregistered _ _ rfl) hload

/-- A registry comes back from its dump exactly when no request registered a
project with the empty id. -/
theorem comesBack_iff {str : Json → String}
    (hstr : ∀ text, str (.str text) = text) (ops : List Op) :
    ComesBack str (after ops) ↔ ∀ name, Op.register "" name ∉ ops := by
  constructor
  · rintro ⟨loaded, hload, hknows, -⟩ name hname
    have hknown := (knows_after ops "").mpr ⟨name, hname⟩
    rw [← hknows, knows_load hload] at hknown
    cases hknown
  · intro hunnamed
    have henrolled : (after ops).Enrolled :=
      { named := by
          rintro entry hentry hempty
          have hknows : (after ops).knows "" = true := by
            rw [knows, ← hempty, (Dict.mem_rows_iff _ _ _).mp hentry]
            rfl
          obtain ⟨name, hname⟩ := (knows_after ops "").mp hknows
          exact hunnamed name hname
        known := known_after ops }
    exact ⟨after ops, load_dump hstr henrolled rfl, fun _ => rfl, fun _ _ => rfl⟩

end ProjectRegistry

namespace RegistryWitness

open ProjectRegistry ReferenceCodec

/-- A project and one of its members. -/
def enrolled : List Op :=
  [.register "prj_a" "Exporter", .admitMember "prj_a" "alice" "ADMIN"]

theorem enrolled_comesBack :
    ComesBack sampleCodec.str (after enrolled) ↔
      ∀ name, Op.register "" name ∉ enrolled :=
  comesBack_iff (fun _ => rfl) enrolled

/-- A project without an id, and a member of it. -/
def unnamed : List Op := [.register "" "", .admitMember "" "alice" "ADMIN"]

/-- The load raises, and a new bridge does not start. -/
theorem unnamed_is_lost :
    reload sampleCodec.str (after unnamed) = none ∧
      ¬ ComesBack sampleCodec.str (after unnamed) := by
  have hraised : reload sampleCodec.str (after unnamed) = none := by rfl
  refine ⟨hraised, ?_⟩
  rintro ⟨loaded, hload, -⟩
  rw [hraised] at hload
  cases hload

end RegistryWitness

end HermesPipeline
