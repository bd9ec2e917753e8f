/-
The project registry and the solution approval: who belongs to a project, who
is designated for a pipeline, and which baseline was approved.
-/
import HermesPipeline.Lib.Json
import HermesPipeline.Lib.Keyed

namespace HermesPipeline

open Lib

inductive ProjectRole
  | admin | contributor | viewer
deriving Repr, DecidableEq

def ProjectRole.value : ProjectRole → String
  | .admin => "ADMIN"
  | .contributor => "CONTRIBUTOR"
  | .viewer => "VIEWER"

def ProjectRole.ofValue? (text : String) : Option ProjectRole :=
  [ProjectRole.admin, .contributor, .viewer].find? fun role => role.value = text

/-- The names of the projects and the roles of their members. -/
structure ProjectRegistry where
  projects : Dict String String
  members : Dict (String × String) ProjectRole

namespace ProjectRegistry

def empty : ProjectRegistry := ⟨.empty, .empty⟩

def register (registry : ProjectRegistry) (projectId name : String) :
    ProjectRegistry :=
  { registry with projects := registry.projects.set projectId name }

/-- `admit`; `none` stands for a raised `KeyError`. -/
def admitMember (registry : ProjectRegistry) (projectId principalId : String)
    (role : ProjectRole) : Option ProjectRegistry :=
  if (registry.projects.get? projectId).isSome then
    some { registry with
      members := registry.members.set (projectId, principalId) role }
  else none

def roleOf (registry : ProjectRegistry) (projectId principalId : String) :
    Option ProjectRole :=
  if (registry.projects.get? projectId).isSome then
    registry.members.get? (projectId, principalId)
  else none

/-- The members of the listed objects; anything else is skipped. -/
def objects : Option Json → List (List (String × Json))
  | some (.arr items) => items.filterMap fun
      | .obj members => some members
      | _ => none
  | _ => []

/-- `load`, with Python's `str()` as a parameter. -/
def load (str : Json → String) (document : List (String × Json)) :
    Option ProjectRegistry :=
  let field (row : List (String × Json)) (name : String) : String :=
    str ((Json.member? row name).getD (.str ""))
  let registered := (objects (Json.member? document "projects")).foldl
    (fun registry row =>
      if field row "project_id" = "" then registry
      else registry.register (field row "project_id") (field row "name"))
    empty
  (objects (Json.member? document "members")).foldlM
    (fun registry row =>
      match ProjectRole.ofValue? (field row "role") with
      | none => some registry
      | some role =>
          registry.admitMember (field row "project_id") (field row "principal_id")
            role)
    registered

end ProjectRegistry

structure ApprovedBaseline where
  pipelineId : String
  approverId : String
  prdId : String
  designId : String
  testplanId : String
deriving Repr, DecidableEq

/-- The designated approver and the approved baseline of each pipeline. -/
structure SolutionApproval where
  designated : Dict String String
  approved : Dict String ApprovedBaseline

namespace SolutionApproval

def empty : SolutionApproval := ⟨.empty, .empty⟩

/-- The roles that `designate` and `approve` let through. -/
def mayApprove : Option ProjectRole → Bool
  | none => false
  | some .viewer => false
  | some _ => true

/-- `none` stands for a raised `PermissionError`. -/
def designate (approval : SolutionApproval) (registry : ProjectRegistry)
    (pipelineId projectId principalId : String) : Option SolutionApproval :=
  if mayApprove (registry.roleOf projectId principalId) then
    some { approval with
      designated := approval.designated.set pipelineId principalId }
  else none

def approve (approval : SolutionApproval) (registry : ProjectRegistry)
    (pipelineId projectId actorId prdId designId testplanId : String) :
    Option SolutionApproval :=
  if approval.designated.get? pipelineId ≠ some actorId then none
  else if mayApprove (registry.roleOf projectId actorId) then
    let baseline : ApprovedBaseline :=
      ⟨pipelineId, actorId, prdId, designId, testplanId⟩
    some { approval with approved := approval.approved.set pipelineId baseline }
  else none

def dump (approval : SolutionApproval) : Dict String (Dict String String) :=
  approval.approved.rows.foldl
    (fun dumped entry =>
      dumped.set entry.1 ((Dict.set .empty "approval_status" "APPROVED").update
        [("approver_id", entry.2.approverId), ("prd_id", entry.2.prdId),
          ("design_id", entry.2.designId), ("testplan_id", entry.2.testplanId),
          ("designated_id",
            approval.designated.getD entry.1 entry.2.approverId)]))
    .empty

def restore (approval : SolutionApproval)
    (document : Dict String (Dict String String)) : SolutionApproval :=
  document.rows.foldl
    (fun approval entry =>
      let row := entry.2
      let actor := row.getD "approver_id" ""
      if row.get? "approval_status" ≠ some "APPROVED" ∨ actor = "" then approval
      else
        let designated :=
          if row.getD "designated_id" "" = "" then actor
          else row.getD "designated_id" ""
        { designated := approval.designated.set entry.1 designated
          approved := approval.approved.set entry.1 ⟨entry.1, actor,
            row.getD "prd_id" "", row.getD "design_id" "",
            row.getD "testplan_id" ""⟩ })
    approval

end SolutionApproval

end HermesPipeline
