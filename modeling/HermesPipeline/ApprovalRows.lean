/-
The approval rows of the other pipelines.  A committed approval replaces all
approval rows by a dump of the approval object, which knows approved baselines
only, so the rows of the other pipelines are kept exactly when the dump already
agrees with them.
-/
import HermesPipeline.FirstSession

namespace HermesPipeline

open Lib KernelController KernelBridge

namespace SolutionApproval

/-- The row of an approved baseline in a dump. -/
def dumpedRow (approval : SolutionApproval) (pl : String)
    (baseline : ApprovedBaseline) : Dict String String :=
  (Dict.set .empty "approval_status" "APPROVED").update
    [("approver_id", baseline.approverId), ("prd_id", baseline.prdId),
      ("design_id", baseline.designId), ("testplan_id", baseline.testplanId),
      ("designated_id", approval.designated.getD pl baseline.approverId)]

/-- A dump has a row for every approved baseline and no others. -/
theorem get?_dump (approval : SolutionApproval) (pl : String) :
    approval.dump.get? pl =
      (approval.approved.get? pl).map (approval.dumpedRow pl) := by
  have hupdate : approval.dump = Dict.update .empty
      (approval.approved.rows.map fun entry =>
        (entry.1, approval.dumpedRow entry.1 entry.2)) := by
    rw [Dict.update, List.foldl_map]
    rfl
  have hunique : ((approval.approved.rows.map fun entry =>
      (entry.1, approval.dumpedRow entry.1 entry.2)).map Prod.fst).Nodup := by
    rw [List.map_map]
    exact approval.approved.unique
  rw [hupdate, Dict.get?_update_of_nodup _ hunique, Dict.get?_empty,
    Option.or_none, List.find?_map, Option.map_map]
  have hfind : approval.approved.get? pl =
      (approval.approved.rows.find? fun entry => entry.1 = pl).map Prod.snd := rfl
  rw [hfind, Option.map_map]
  change (approval.approved.rows.find? fun entry => entry.1 = pl).map _ = _
  cases hrow : approval.approved.rows.find? fun entry => entry.1 = pl with
  | none => rfl
  | some entry =>
      have hkey : entry.1 = pl := by simpa using List.find?_some hrow
      simp [hkey]

end SolutionApproval

namespace RootState

open Descriptor

variable {env : RootEnv} {s s₁ s' : RootState} {pl : String}

section Committed

variable {bridge : Bridge} {prj principal : String}
  {planning design : Dict String String}

/-- The row of the committed baseline itself. -/
theorem get?_committed_self :
    (committedBridge bridge pl prj principal planning design).approvals.get? pl =
      some ((SolutionApproval.dumpedRow ⟨bridge.approval.designated.set pl principal,
        bridge.approval.approved⟩ pl ⟨pl, principal, planning.getD "prd_id" "",
          design.getD "design_id" "", design.getD "testplan_id" ""⟩).set
          "project_id" prj) := by
  simp only [committedBridge, Dict.get?_set_self, Dict.getD,
    SolutionApproval.get?_dump, approvedBy, Option.map_some, Option.getD_some,
    SolutionApproval.dumpedRow]

/-- Every other row is the one that the dump has. -/
theorem get?_committed_other {p : String} (hother : p ≠ pl) :
    (committedBridge bridge pl prj principal planning design).approvals.get? p =
      bridge.approval.dump.get? p := by
  simp only [committedBridge, Dict.get?_set_of_ne _ _ hother,
    SolutionApproval.get?_dump, approvedBy]
  congr 1
  funext baseline
  simp only [SolutionApproval.dumpedRow, Dict.getD, Dict.get?_set_of_ne _ _ hother]

end Committed

/-- The row of a pipeline in a file. -/
def fileRow (files : Files) (file pl : String) : Option Json :=
  Json.member? (documentOf files file) pl

/-- The text of a row in a file. -/
def rowDocument (row : Dict String String) : Json := Json.ofTexts row.rows

theorem fileRow_saved {files : Files} {bridge : Bridge}
    (hsaved : SavedIn files bridge "approvals.json") (p : String) :
    fileRow files "approvals.json" p =
      (bridge.approvals.get? p).map rowDocument := by
  have hdocument : documentOf files "approvals.json" =
      bridge.approvals.rows.map fun entry => (entry.1, rowDocument entry.2) :=
    documentOf_saved hsaved
  rw [fileRow, hdocument, Json.member?, List.find?_map, Option.map_map]
  change (Option.map _ (bridge.approvals.rows.find? fun entry => entry.1 = p)) =
    ((bridge.approvals.rows.find? fun entry => entry.1 = p).map Prod.snd).map _
  rw [Option.map_map]
  rfl

/-- The approval rows of all other pipelines are as they were, in memory and in
their file. -/
structure OthersKept (pl : String) (s s' : RootState) : Prop where
  memory : ∀ p, p ≠ pl → s'.bridge.approvals.get? p = s.bridge.approvals.get? p
  file : ∀ p, p ≠ pl → fileRow s'.files "approvals.json" p =
    fileRow s.files "approvals.json" p

/-- The dump of the approval object agrees with the approval rows of all other
pipelines, in memory and in their file. -/
def DumpAgrees (pl : String) (s : RootState) : Prop :=
  ∀ p, p ≠ pl → s.bridge.approvals.get? p = s.bridge.approval.dump.get? p ∧
    fileRow s.files "approvals.json" p =
      (s.bridge.approval.dump.get? p).map rowDocument

/-- An approve request that reaches its commit: the lease can be taken, both
planning gates have passed, and the member may approve. -/
structure CommitsApproval (env : RootEnv) (ids : RequestIds) (s : RootState) :
    Prop extends LeaseFree env ids s where
  planned : planned (s.hydrated env ids.workspaceId ids.pipelineId).bridge
    ids.pipelineId ≠ none
  role : SolutionApproval.mayApprove
    (s.bridge.registry.roleOf ids.projectId ids.principalId) = true

namespace OthersKept

theorem trans (first : OthersKept pl s s₁) (second : OthersKept pl s₁ s') :
    OthersKept pl s s' where
  memory := fun p hp => (second.memory p hp).trans (first.memory p hp)
  file := fun p hp => (second.file p hp).trans (first.file p hp)

theorem of_same (happrovals : s'.bridge.approvals = s.bridge.approvals)
    (hfile : s'.files.get? "approvals.json" = s.files.get? "approvals.json") :
    OthersKept pl s s' where
  memory := fun p _ => by rw [happrovals]
  file := fun p _ => by rw [fileRow, fileRow, documentOf, documentOf, parseJson,
    parseJson, hfile]

theorem of_frame (hframe : Frame s s') : OthersKept pl s s' :=
  of_same hframe.approvals (hframe.station (by decide))

/-- Rows are restored for one pipeline only. -/
theorem of_hydrated (env : RootEnv) (ws : String) (s : RootState) :
    OthersKept pl s (s.hydrated env ws pl) where
  memory := by
    intro p hp
    simp only [hydrated, get?_hydrate_approvals, hp, false_and, if_false]
  file := fun p _ => rfl

/-- The row of another station was kept. -/
theorem of_kept {ws prj : String} {station : Station}
    {fields : Dict String String} {names : List String} {bridge : Bridge}
    (hkept : Kept env ws prj pl station fields names bridge s s')
    (happrovals : bridge.approvals = s.bridge.approvals)
    (hnames : "approvals.json" ∉ names) : OthersKept pl s s' := by
  have hcore := congrArg Bridge.approvals hkept.core
  refine of_same (hcore.trans happrovals) ?_
  rcases hkept.files "approvals.json" (by decide) with hsame | ⟨hmem, -⟩
  · exact hsame
  · exact absurd hmem hnames

end OthersKept

/-- The later stages leave the approval rows of the other pipelines alone. -/
theorem Move.othersKept {commandId : String} {ids : RequestIds}
    (hmove : Move env commandId ids .stages s s') :
    OthersKept ids.pipelineId s s' := by
  cases hmove with
  | framed frame => exact .of_frame frame
  | launched launch => exact .of_same rfl rfl
  | restored => exact .of_hydrated env ids.workspaceId s
  | approved develops role => exact .of_same rfl rfl
  | denied develops kept => exact .of_kept kept rfl (by decide)
  | developed develops kept => exact .of_kept kept rfl (by decide)
  | infra verifies kept => exact .of_kept kept rfl (by decide)
  | verified verifies kept => exact .of_kept kept rfl (by decide)

theorem Staged.othersKept {ids : RequestIds} {outcome : Except BridgeError Unit}
    (hstaged : Staged env ids.workspaceId ids.projectId ids.pipelineId
      ids.principalId s outcome s') : OthersKept ids.pipelineId s s' := by
  have hpath : Path env "" ids .stages s s' := hstaged.path
  refine Path.keeps (P := fun t => OthersKept ids.pipelineId s t) ?_ hpath
    (.of_same rfl rfl)
  intro t t' hmove hkept
  exact hkept.trans hmove.othersKept

/-- The approval rows of the other pipelines after a commit: in memory the dump
of the approval object, and in the file what was there or the dump. -/
structure Redumped (env : RootEnv) (pl : String) (s s' : RootState) : Prop where
  memory : ∀ p, p ≠ pl →
    s'.bridge.approvals.get? p = s.bridge.approval.dump.get? p
  file : ∀ p, p ≠ pl →
    fileRow s'.files "approvals.json" p = fileRow s.files "approvals.json" p ∨
      fileRow s'.files "approvals.json" p =
        (s.bridge.approval.dump.get? p).map rowDocument
  written : env.Calm → ∀ p, p ≠ pl → fileRow s'.files "approvals.json" p =
    (s.bridge.approval.dump.get? p).map rowDocument

namespace Redumped

theorem after (hdumped : Redumped env pl s s₁) (hkept : OthersKept pl s₁ s') :
    Redumped env pl s s' where
  memory := fun p hp => (hkept.memory p hp).trans (hdumped.memory p hp)
  file := by
    intro p hp
    rw [hkept.file p hp]
    exact hdumped.file p hp
  written := by
    intro hcalm p hp
    rw [hkept.file p hp]
    exact hdumped.written hcalm p hp

theorem before (happroval : s₁.bridge.approval = s.bridge.approval)
    (hkept : OthersKept pl s s₁) (hdumped : Redumped env pl s₁ s') :
    Redumped env pl s s' where
  memory := by
    intro p hp
    rw [← happroval]
    exact hdumped.memory p hp
  file := by
    intro p hp
    rw [← happroval, ← hkept.file p hp]
    exact hdumped.file p hp
  written := by
    intro hcalm p hp
    rw [← happroval]
    exact hdumped.written hcalm p hp

theorem of_kept {ws prj principal : String}
    {planning design : Dict String String}
    (hkept : Kept env ws prj pl .approval (approvalRecord principal) approvalFiles
      (committedBridge s.bridge pl prj principal planning design) s s') :
    Redumped env pl s s' := by
  have happrovals := congrArg Bridge.approvals hkept.core
  have hrow : ∀ p, p ≠ pl → (Bridge.approvals (committedBridge s.bridge pl prj
      principal planning design)).get? p = s.bridge.approval.dump.get? p :=
    fun p hp => get?_committed_other hp
  have hsaved : SavedIn s'.files
      (committedBridge s.bridge pl prj principal planning design)
        "approvals.json" → ∀ p, p ≠ pl → fileRow s'.files "approvals.json" p =
      (s.bridge.approval.dump.get? p).map rowDocument := by
    intro hsaved p hp
    rw [fileRow_saved hsaved, hrow p hp]
  refine ⟨fun p hp => ?_, fun p hp => ?_, fun hcalm => ?_⟩
  · rw [← hrow p hp]
    exact congrArg (fun rows : Rows => rows.get? p) happrovals
  · rcases hkept.files "approvals.json" (by decide) with hsame | ⟨-, hnew⟩
    · left
      rw [fileRow, fileRow, documentOf, documentOf, parseJson, parseJson, hsame]
    · exact Or.inr (hsaved hnew p hp)
  · exact hsaved (hkept.written hcalm "approvals.json" (by decide))

end Redumped

section Approve

variable {ids : RequestIds}

/-- The state in which the lease of an approval was taken. -/
theorem othersKept_leased
    (hframe : Frame (s.ticked.hydrated env ids.workspaceId ids.pipelineId) s₁) :
    OthersKept ids.pipelineId s s₁ :=
  have hticked : OthersKept ids.pipelineId s s.ticked := .of_same rfl rfl
  hticked.trans ((OthersKept.of_hydrated env ids.workspaceId s.ticked).trans
    (.of_frame hframe))

/-- A commit in the state in which the lease was taken. -/
theorem Committed.others {outcome : Except BridgeError (Option String)}
    (hplanned : planned (s.ticked.hydrated env ids.workspaceId
      ids.pipelineId).bridge ids.pipelineId ≠ none)
    (hlease : LeaseFree env ids s)
    (hframe : Frame (s.ticked.hydrated env ids.workspaceId ids.pipelineId) s₁)
    (hcommitted : Committed env ids.workspaceId ids.projectId ids.pipelineId
      ids.principalId s₁ outcome s') :
    OthersKept ids.pipelineId s s' ∧ ¬ CommitsApproval env ids s ∨
      CommitsApproval env ids s ∧ Redumped env ids.pipelineId s s' := by
  have hregistry : s₁.bridge.registry = s.bridge.registry := by
    rw [hframe.registry]
    exact hydrate_registry _ _ _
  have happroval : s₁.bridge.approval = s.bridge.approval := by
    rw [hframe.approval]
    exact hydrate_approval _ _ _
  have hkept : OthersKept ids.pipelineId s s₁ := othersKept_leased hframe
  cases hcommitted with
  | refused message why =>
      refine Or.inl ⟨hkept, fun hcommits => ?_⟩
      rcases why with hprd | harch | hrole
      · apply hplanned
        rw [hframe.prd] at hprd
        simp only [KernelBridge.planned, hprd]
      · apply hplanned
        rw [hframe.arch] at harch
        simp only [KernelBridge.planned, harch]
        split <;> first | rfl | simp_all
      · rw [hregistry, hcommits.role] at hrole
        cases hrole
  | kept prd arch role kept ended =>
      rw [hregistry] at role
      exact Or.inr ⟨⟨hlease, hplanned, role⟩,
        .before happroval hkept (.of_kept kept)⟩

/-- An approve request keeps the rows of the other pipelines, or commits. -/
theorem Approves.others {spawnWorker : Bool}
    (happroves : Approves env spawnWorker ids s s') :
    OthersKept ids.pipelineId s s' ∧ ¬ CommitsApproval env ids s ∨
      CommitsApproval env ids s ∧ Redumped env ids.pipelineId s s' := by
  cases happroves with
  | busy held =>
      refine Or.inl ⟨.of_same rfl rfl, fun hcommits => ?_⟩
      rw [hcommits.free] at held
      cases held
  | refused why =>
      refine Or.inl ⟨othersKept_leased (.refl _), fun hcommits => ?_⟩
      rcases why with hnone | hnone
      · exact hcommits.planned hnone
      · have hrole := hcommits.role
        rw [hnone] at hrole
        cases hrole
  | unleased frame fault cause =>
      exact Or.inl ⟨othersKept_leased frame, fun hcommits => cause hcommits.saves⟩
  | committed planned lease frame committed stops after =>
      rcases committed.others planned lease frame.toFrame with
        ⟨hkept, hnot⟩ | ⟨hcommits, hdumped⟩
      · exact Or.inl ⟨hkept.trans (.of_frame after.toFrame), hnot⟩
      · exact Or.inr ⟨hcommits, hdumped.after (.of_frame after.toFrame)⟩
  | staged planned lease inline frame committed staged after =>
      have hrest := staged.othersKept.trans (.of_frame after.toFrame)
      rcases committed.others planned lease frame.toFrame with
        ⟨hkept, hnot⟩ | ⟨hcommits, hdumped⟩
      · exact Or.inl ⟨hkept.trans hrest, hnot⟩
      · exact Or.inr ⟨hcommits, hdumped.after hrest⟩

/-- The bridge answers requests: its constructor returned, and no file has
spoiled it. -/
structure Serving (s : RootState) : Prop where
  running : s.running = true
  sound : s.bridge.corrupt = false

/-- A bridge that does not answer requests leaves everything as it is. -/
theorem serve_of_not_serving (hserving : ¬ s.Serving) (commandId : String)
    (payload : List (String × Json)) :
    (s.serve env commandId payload).2 = s := by
  unfold serve
  split
  · next hrunning =>
      have hcorrupt : s.bridge.corrupt = true := by
        by_contra hsound
        exact hserving ⟨hrunning, by simpa using hsound⟩
      simp only [process, Program.bind_eq]
      rw [Program.run_bind_of_ok (run_memory_lift s), if_pos hcorrupt]
      rfl
  · rfl

/-- In every state that a session reaches, an approve request keeps the
approval rows of the other pipelines if it does not commit or if the dump of
the approval object agrees with them; and unless a file could not be written,
only then. -/
theorem approve_keeps_others_iff {spawnWorker : Bool} {inputs : List RootInput}
    (hs : s = (init spawnWorker).after env inputs) {commandId : String}
    {payload : List (String × Json)}
    (hkind : requestKind payload = .approve)
    (hids : ids = requestIds env.toBridgeCodec payload) :
    ((s.Serving → CommitsApproval env ids s → DumpAgrees ids.pipelineId s) →
        OthersKept ids.pipelineId s (s.serve env commandId payload).2) ∧
      (env.Calm →
        OthersKept ids.pipelineId s (s.serve env commandId payload).2 →
          s.Serving → CommitsApproval env ids s →
            DumpAgrees ids.pipelineId s) := by
  have hhealthy : s.store.Healthy := by
    rw [hs]
    exact (store_after env inputs (healthy_init spawnWorker)
      (numbered_init spawnWorker)).1
  by_cases hserving : s.Serving
  swap
  · rw [serve_of_not_serving hserving]
    exact ⟨fun _ => .of_same rfl rfl, fun _ _ hs => absurd hs hserving⟩
  have happroves : Approves env s.spawnWorker ids s
      (s.serve env commandId payload).2 := by
    rw [serve_process hserving.running hserving.sound commandId payload hkind,
      run_lift, hids]
    exact run_approveBaseline env hhealthy s.spawnWorker payload
  rcases happroves.others with ⟨hkept, hnot⟩ | ⟨hcommits, hdumped⟩
  · exact ⟨fun _ => hkept, fun _ _ _ hcommits => absurd hcommits hnot⟩
  · refine ⟨fun hagrees => ⟨fun p hp => ?_, fun p hp => ?_⟩,
      fun hcalm hkept _ _ p hp => ⟨?_, ?_⟩⟩
    · rw [hdumped.memory p hp, (hagrees hserving hcommits p hp).1]
    · rcases hdumped.file p hp with hsame | hnew
      · exact hsame
      · rw [hnew, (hagrees hserving hcommits p hp).2]
    · rw [← hkept.memory p hp, hdumped.memory p hp]
    · rw [← hkept.file p hp, hdumped.written hcalm p hp]

end Approve

end RootState

namespace ApprovalRowsWitness

open RootState SampleSession

/-- Every development is denied. -/
def session : RootEnv := sampleEnv ⟨.denied, none, none, "", false⟩ none

/-- A second requirement of the same project. -/
def otherIds : RequestIds := { sampleIds with pipelineId := "pl_b" }

def otherIntake : RootInput :=
  .request "cmd_2" (intakeRequest "Build the importer" otherIds)

/-- Two requirements are planned and wait for their approval. -/
def inputs : List RootInput := enrolment ++ [intakeInput, otherIntake]

theorem approve_keeps_others_iff_at_inputs :
    ((((init false).after session inputs).Serving →
        CommitsApproval session sampleIds ((init false).after session inputs) →
          DumpAgrees sampleIds.pipelineId ((init false).after session inputs)) →
        OthersKept sampleIds.pipelineId ((init false).after session inputs)
          (((init false).after session inputs).serve session "cmd_3"
            (approveRequest sampleIds)).2) ∧
      (session.Calm →
        OthersKept sampleIds.pipelineId ((init false).after session inputs)
          (((init false).after session inputs).serve session "cmd_3"
            (approveRequest sampleIds)).2 →
          ((init false).after session inputs).Serving →
            CommitsApproval session sampleIds
              ((init false).after session inputs) →
              DumpAgrees sampleIds.pipelineId
                ((init false).after session inputs)) :=
  approve_keeps_others_iff rfl (requestKind_approve sampleIds)
    (requestIds_approve session.toBridgeCodec sampleIds).symm

/-- The approval of the first requirement drops the pending row of the
second. -/
theorem approve_drops_pending :
    (((init false).after session inputs).bridge.approvals.get? "pl_b" =
        some (pendingRow "prj_a") ∧
      (((init false).after session inputs).serve session "cmd_3"
        (approveRequest sampleIds)).2.bridge.approvals.get? "pl_b" = none) ∧
      ¬ OthersKept sampleIds.pipelineId ((init false).after session inputs)
        (((init false).after session inputs).serve session "cmd_3"
          (approveRequest sampleIds)).2 := by
  have hrows : ((init false).after session inputs).bridge.approvals.get? "pl_b" =
        some (pendingRow "prj_a") ∧
      (((init false).after session inputs).serve session "cmd_3"
        (approveRequest sampleIds)).2.bridge.approvals.get? "pl_b" = none := by
    rw [session, sampleEnv_eq]
    decide +kernel
  refine ⟨hrows, fun hkept => ?_⟩
  have hsame := hkept.memory "pl_b" (by decide)
  rw [hrows.1, hrows.2] at hsame
  cases hsame

end ApprovalRowsWitness

end HermesPipeline
