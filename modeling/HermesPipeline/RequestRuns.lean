/-
How the requests of a bridge run: approvals, retries and the stages they start.
Every request is a chain of steps that frame the stations, restore rows from
the log, keep a row, or rewrite rows and their files.
-/
import HermesPipeline.StageRuns

namespace HermesPipeline

open Lib KernelController KernelBridge

namespace RootState

variable {env : RootEnv} {ws prj pl principal : String} {s : RootState}

/-- Rows were changed in memory and, as far as nothing failed, saved. -/
structure Rewritten (names : List String) (bridge : Bridge) (s s' : RootState) :
    Prop where
  core : s'.bridge.core = bridge.core
  store : s'.store = s.store
  files : ∀ file, s'.files.get? file = s.files.get? file ∨
    file ∈ names ∧
      s'.files.get? file = some (some (Descriptor.document bridge file))
  launches : s'.launches = s.launches
  spawnWorker : s'.spawnWorker = s.spawnWorker
  running : s'.running = s.running
  faults : s.faults ≤ s'.faults
  saved : s'.faults = s.faults → ∀ file ∈ names,
    s'.files.get? file = some (some (Descriptor.document bridge file))

theorem rewritten_of_saves {names : List String} {bridge : Bridge}
    {s' : RootState} (hsaves : Saves names { s with bridge := bridge } s')
    (hsaved : s'.faults = s.faults → ∀ name ∈ names, s'.files.get? name =
      some (some (Descriptor.document bridge name))) :
    Rewritten names bridge s s' where
  core := by rw [hsaves.bridge]
  store := hsaves.store
  files := hsaves.files
  launches := by rw [hsaves.same]
  spawnWorker := by rw [hsaves.same]
  running := by rw [hsaves.same]
  faults := hsaves.faults
  saved := hsaved

/-- Change the rows and save them. -/
theorem run_rewrite {names : List String} {save : BridgeProgram Unit}
    (hsave : Stores env names save) (bridge : Bridge) (s : RootState) :
    (∃ s', save.run (handleBridge env) { s with bridge := bridge } =
        (.ok (), s') ∧ Rewritten names bridge s s' ∧ s'.faults = s.faults) ∨
      ∃ error s', save.run (handleBridge env) { s with bridge := bridge } =
        (.error error, s') ∧ Rewritten names bridge s s' ∧
        s.faults < s'.faults ∧ ¬ env.Calm := by
  rcases hsave { s with bridge := bridge } with
    ⟨s', hrun, hsaves, hnew, hfaults⟩ | ⟨error, s', hrun, hsaves, hfault, hcause⟩
  · exact Or.inl ⟨s', hrun, rewritten_of_saves hsaves fun _ => hnew, hfaults⟩
  · refine Or.inr ⟨error, s', hrun, rewritten_of_saves hsaves ?_, hfault, hcause⟩
    intro hsame
    exact absurd hsame hfault.ne'

/-- What is kept does not depend on the memory before it. -/
theorem Kept.rebase {station : Station} {fields : Dict String String}
    {names : List String} {bridge other : Bridge} {s' : RootState}
    (hkept : Kept env ws prj pl station fields names bridge
      { s with bridge := other } s') :
    Kept env ws prj pl station fields names bridge s s' :=
  ⟨hkept.core, hkept.files, hkept.others, hkept.log, hkept.launches,
    hkept.spawnWorker, hkept.running, hkept.faults, hkept.saved, hkept.written,
    hkept.settled, hkept.quiet⟩

section Approve

/-- The memory after a baseline was committed: the approval object, and its
whole dump in place of the approval rows. -/
def committedBridge (bridge : Bridge) (pl prj principal : String)
    (planning design : Dict String String) : Bridge :=
  let approved := approvedBy bridge pl principal (planning.getD "prd_id" "")
    (design.getD "design_id" "") (design.getD "testplan_id" "")
  let dumped := approved.approval.dump
  let row := (dumped.getD pl .empty).set "project_id" prj
  { approved with approvals := dumped.set pl row }

/-- The fields of a recorded approval. -/
def approvalRecord (principal : String) : Dict String String :=
  rowOf [("approval_status", "APPROVED"), ("approver_id", principal)]

/-- What `_commit_approval` does. -/
inductive Committed (env : RootEnv) (ws prj pl principal : String)
    (s : RootState) : Except BridgeError (Option String) → RootState → Prop
  | refused (message : String)
      (why : s.bridge.prd.get? pl = none ∨ s.bridge.arch.get? pl = none ∨
        SolutionApproval.mayApprove
          (s.bridge.registry.roleOf prj principal) = false) :
      Committed env ws prj pl principal s (.ok (some message)) s
  | kept {planning design : Dict String String}
      {outcome : Except BridgeError Unit} {s' : RootState}
      (prd : s.bridge.prd.get? pl = some planning)
      (arch : s.bridge.arch.get? pl = some design)
      (role : SolutionApproval.mayApprove
        (s.bridge.registry.roleOf prj principal) = true)
      (kept : Kept env ws prj pl .approval (approvalRecord principal)
        approvalFiles (committedBridge s.bridge pl prj principal planning design)
        s s')
      (ended : env.codec.Serializes → CanRecord ws prj pl .approval s.store →
        s'.faults = s.faults → outcome = .ok ()) :
      Committed env ws prj pl principal s (outcome.map fun _ => none) s'

theorem run_commitApproval (env : RootEnv) (hhealthy : s.store.Healthy)
    (ws prj pl principal : String) :
    Committed env ws prj pl principal s
      ((commitApproval env.toBridgeCodec pl prj principal ws).run
        (handleBridge env) s).1
      ((commitApproval env.toBridgeCodec pl prj principal ws).run
        (handleBridge env) s).2 := by
  simp only [commitApproval, Program.bind_eq]
  rw [run_memory_bind]
  cases hprd : s.bridge.prd.get? pl with
  | none => exact .refused _ (Or.inl hprd)
  | some planning =>
      cases harch : s.bridge.arch.get? pl with
      | none => exact .refused _ (Or.inr (Or.inl harch))
      | some design =>
          dsimp only
          have happrove := @run_approveSolution env pl prj principal
            (planning.getD "prd_id" "") (design.getD "design_id" "")
            (design.getD "testplan_id" "") s
          by_cases hrole : SolutionApproval.mayApprove
              (s.bridge.registry.roleOf prj principal) = true
          · rw [if_pos hrole] at happrove
            rw [Program.run_bind_of_ok happrove]
            simp only [↓reduceIte, ← Program.bind_assoc]
            rw [Program.run_bind_done]
            simp only [Program.bind_assoc]
            obtain ⟨hkept, hended⟩ := @run_keep env ws prj pl
              (s.approved pl principal planning design) approvalFiles
              saveApprovals (by decide) (stores_saveApprovals env) hhealthy
              (fun bridge =>
                let dumped := bridge.approval.dump
                let row := (dumped.getD pl .empty).set "project_id" prj
                { bridge with approvals := dumped.set pl row })
              .approval (approvalRecord principal) _ _ rfl
            exact .kept hprd harch hrole hkept.rebase hended
          · rw [if_neg hrole] at happrove
            rw [Program.run_bind_of_ok happrove]
            exact .refused _ (Or.inr (Or.inr (by simpa using hrole)))

/-- Restoring rows twice is restoring them once. -/
theorem hydrate_hydrate (folded : Dict String String) (pl : String)
    (bridge : Bridge) :
    hydrate folded pl (hydrate folded pl bridge) = hydrate folded pl bridge := by
  have hfill : ∀ (rows : Rows) (present : Bool) (row : Dict String String),
      (if present ∧ (if present ∧ rows.get? pl = none then rows.set pl row
          else rows).get? pl = none then
        (if present ∧ rows.get? pl = none then rows.set pl row else rows).set pl row
      else if present ∧ rows.get? pl = none then rows.set pl row else rows) =
        if present ∧ rows.get? pl = none then rows.set pl row else rows := by
    intro rows present row
    by_cases hpresent : present = true ∧ rows.get? pl = none
    · simp [hpresent]
    · simp [hpresent]
  by_cases hempty : folded.rows.isEmpty = true
  · simp only [hydrate, hempty, ↓reduceIte]
  · simp only [hydrate, hempty, Bool.false_eq_true, ↓reduceIte, hfill]

theorem hydrated_hydrated (env : RootEnv) (ws pl : String) (s : RootState) :
    (s.hydrated env ws pl).hydrated env ws pl = s.hydrated env ws pl := by
  have hbridge := hydrate_hydrate
    (foldStageProjection env.codec (s.store.listEvents ws pl)) pl s.bridge
  simp only [hydrated, hbridge]

/-- The marks of a stage execution are not part of the state. -/
theorem run_insideStages {α : Type} (p : BridgeProgram α) (s : RootState) :
    (insideStages ws pl p).run (handleBridge env) s =
      p.run (handleBridge env) s := by
  have hmarks : ∀ outcome : Except BridgeError α, ∀ s : RootState,
      ((perform (.leaveStages ws pl)).bind fun _ =>
        Program.ofExcept outcome).run (handleBridge env) s = (outcome, s) := by
    intro outcome s
    cases outcome <;> rfl
  have henter : (perform (.enterStages ws pl)).run (handleBridge env) s =
      (.ok (), s) := rfl
  rw [insideStages, Program.run_bind_of_ok henter, Program.withCleanup,
    Program.run_observe, hmarks]

/-- Development and verification, one after the other. -/
inductive Staged (env : RootEnv) (ws prj pl principal : String) (s : RootState) :
    Except BridgeError Unit → RootState → Prop
  | stopped {error : BridgeError} {s' : RootState}
      (developed : Developed env ws prj pl principal (s.hydrated env ws pl)
        (.error error) s') :
      Staged env ws prj pl principal s (.error error) s'
  | through {outcome : Except BridgeError Unit} {s₁ s' : RootState}
      (developed : Developed env ws prj pl principal (s.hydrated env ws pl)
        (.ok ()) s₁)
      (verified : Verified env ws prj pl (s₁.hydrated env ws pl) outcome s') :
      Staged env ws prj pl principal s outcome s'

theorem Staged.of_hydrated {outcome : Except BridgeError Unit} {s' : RootState}
    (hstaged : Staged env ws prj pl principal (s.hydrated env ws pl) outcome s') :
    Staged env ws prj pl principal s outcome s' := by
  cases hstaged with
  | stopped developed =>
      rw [hydrated_hydrated] at developed
      exact .stopped developed
  | through developed verified =>
      rw [hydrated_hydrated] at developed
      exact .through developed verified

theorem Staged.later {outcome : Except BridgeError Unit} {s' : RootState}
    (hstaged : Staged env ws prj pl principal s outcome s') :
    s.store.Later s'.store := by
  cases hstaged with
  | stopped developed => exact developed.later
  | through developed verified => exact developed.later.trans verified.later

theorem run_stages (env : RootEnv) (hhealthy : s.store.Healthy)
    (ws prj pl principal : String) :
    Staged env ws prj pl principal s
      (((advanceDevelopment env.toBridgeCodec pl prj principal ws).bind fun _ =>
        advanceVerify env.toBridgeCodec pl prj ws).run (handleBridge env) s).1
      (((advanceDevelopment env.toBridgeCodec pl prj principal ws).bind fun _ =>
        advanceVerify env.toBridgeCodec pl prj ws).run (handleBridge env) s).2 := by
  have hdeveloped := run_advanceDevelopment env hhealthy ws prj pl principal
  rcases hrun : (advanceDevelopment env.toBridgeCodec pl prj principal ws).run
    (handleBridge env) s with ⟨error | done, s₁⟩
  · rw [hrun] at hdeveloped
    rw [Program.run_bind_of_error hrun]
    exact .stopped hdeveloped
  · rw [hrun] at hdeveloped
    rw [Program.run_bind_of_ok hrun]
    exact .through hdeveloped
      (run_advanceVerify env (hdeveloped.later.healthy hhealthy) ws prj pl)

theorem run_leasedStages (env : RootEnv) (hhealthy : s.store.Healthy)
    (ws prj pl principal : String) :
    ∃ outcome, Staged env ws prj pl principal s outcome
        ((runLeasedStages env.toBridgeCodec ws prj pl principal).run
          (handleBridge env) s).2 ∧
      (outcome = .ok () → ∃ report, ((runLeasedStages env.toBridgeCodec ws prj pl
        principal).run (handleBridge env) s).1 = .ok report) := by
  simp only [runLeasedStages, Program.bind_eq]
  rw [run_insideStages, run_hydrateFromEvents_bind, ← Program.bind_assoc]
  have hstaged := run_stages env
    (show (s.hydrated env ws pl).store.Healthy from hhealthy) ws prj pl principal
  rcases hrun : ((advanceDevelopment env.toBridgeCodec pl prj principal ws).bind
      fun _ => advanceVerify env.toBridgeCodec pl prj ws).run (handleBridge env)
      (s.hydrated env ws pl) with ⟨error | done, s₁⟩
  · rw [hrun] at hstaged
    rw [Program.run_bind_of_error hrun]
    exact ⟨.error error, hstaged.of_hydrated, by simp⟩
  · rw [hrun] at hstaged
    rw [Program.run_bind_of_ok hrun, run_memory_bind]
    exact ⟨.ok (), hstaged.of_hydrated, fun _ => ⟨_, rfl⟩⟩

/-- Taking the lease of a free pipeline: it is saved, or the store cannot hold
it. -/
theorem run_acquireOrBusy_free {now : Int}
    (hfree : leaseBusy now (s.store.loadLease ws pl) = false)
    (next : LeaseRecord → BridgeProgram Json) :
    let lease := grantedLease ws pl (workerName pl) now 1800
      (s.store.loadLease ws pl)
    ((s.store.saveLease lease).1 = .ok () ∧
        (acquireOrBusy ws pl now next).run (handleBridge env) s =
          (next lease).run (handleBridge env)
            { s with store := (s.store.saveLease lease).2 }) ∨
      (s.store.saveLease lease).1 ≠ .ok () ∧
        (acquireOrBusy ws pl now next).run (handleBridge env) s =
          (.error (.kernel .persistence), { s with faults := s.faults + 1 }) := by
  intro lease
  have hacquire : (kernel (KernelController.acquireLease ws pl (workerName pl) now
      1800 false)).run (handleBridge env) s =
        ((kernel (ask (.saveLease lease))).bind fun _ => .done lease).run
          (handleBridge env) s := by
    rw [KernelController.acquireLease, kernel_bind, run_loadLease_bind]
    simp only [hfree, Bool.false_and, Bool.false_eq_true, ↓reduceIte, kernel_bind]
    rfl
  have hsave : (kernel (ask (.saveLease lease))).run (handleBridge env) s =
      ((s.store.saveLease lease).1.mapError BridgeError.kernel,
        { s with store := (s.store.saveLease lease).2 }.faulted
          (s.store.saveLease lease).1) := by
    simp only [ask, Program.perform]
    rw [run_kernel_call]
    simp only [SqliteKernelStore.handle]
    cases (s.store.saveLease lease).1 <;> rfl
  rw [acquireOrBusy, Program.run_observe, hacquire]
  have hsaved : (s.store.saveLease lease).1 = .ok () ∨
      s.store.saveLease lease = (.error .persistence, s.store) := by
    unfold SqliteKernelStore.saveLease
    split
    · exact Or.inl rfl
    · split
      · exact Or.inl rfl
      · exact Or.inr rfl
  rcases hsaved with hok | hfail
  · left
    rw [hok] at hsave
    rw [Program.run_bind_of_ok hsave]
    exact ⟨hok, rfl⟩
  · right
    rw [hfail] at hsave ⊢
    rw [Program.run_bind_of_error hsave]
    exact ⟨by simp, rfl⟩

/-- Taking the lease of a free pipeline changes the leases only. -/
theorem run_acquireOrBusy {now : Int}
    (hfree : leaseBusy now (s.store.loadLease ws pl) = false)
    (next : LeaseRecord → BridgeProgram Json) :
    (∃ lease s₁, Still s s₁ ∧
      (s.store.saveLease (grantedLease ws pl (workerName pl) now 1800
        (s.store.loadLease ws pl))).1 = .ok () ∧
      (acquireOrBusy ws pl now next).run (handleBridge env) s =
        (next lease).run (handleBridge env) s₁) ∨
      (Frame s ((acquireOrBusy ws pl now next).run (handleBridge env) s).2 ∧
        s.faults <
          ((acquireOrBusy ws pl now next).run (handleBridge env) s).2.faults ∧
        (s.store.saveLease (grantedLease ws pl (workerName pl) now 1800
          (s.store.loadLease ws pl))).1 ≠ .ok ()) := by
  have hsame : ∀ lease, s.store.SameLog (s.store.saveLease lease).2 := by
    intro lease
    unfold SqliteKernelStore.saveLease
    split
    · exact .refl _
    · split
      · exact ⟨rfl, rfl, rfl, rfl, rfl, rfl⟩
      · exact .refl _
  rcases @run_acquireOrBusy_free env ws pl s now hfree next with
    ⟨hok, hrun⟩ | ⟨hfail, hrun⟩
  · exact Or.inl ⟨_, _, ⟨frame_store (hsame _) 0, rfl⟩, hok, hrun⟩
  · refine Or.inr ⟨?_, ?_, hfail⟩
    · rw [hrun]
      exact frame_store (.refl _) 1
    · rw [hrun]
      exact Nat.lt_succ_self _

/-- A lease that has not run out is answered with busy. -/
theorem run_acquireOrBusy_held {now : Int}
    (hheld : leaseBusy now (s.store.loadLease ws pl) = true)
    (next : LeaseRecord → BridgeProgram Json) :
    (acquireOrBusy ws pl now next).run (handleBridge env) s =
      (.ok (errorReply "busy"), s) := by
  have hacquire : (kernel (KernelController.acquireLease ws pl (workerName pl) now
      1800 false)).run (handleBridge env) s =
        (.error (.kernel (.lease "busy")), s) := by
    rw [KernelController.acquireLease, kernel_bind, run_loadLease_bind]
    simp only [hheld, Bool.not_false, Bool.and_self, ↓reduceIte]
    rfl
  rw [acquireOrBusy, Program.run_observe, hacquire]
  rfl

/-- The lease of a pipeline is free and can be taken for a worker. -/
structure LeaseFree (env : RootEnv) (ids : RequestIds) (s : RootState) :
    Prop where
  free : leaseBusy (env.clock s.effects)
    (s.store.loadLease ids.workspaceId ids.pipelineId) = false
  saves : (s.store.saveLease (grantedLease ids.workspaceId ids.pipelineId
    (workerName ids.pipelineId) (env.clock s.effects) 1800
    (s.store.loadLease ids.workspaceId ids.pipelineId))).1 = .ok ()

/-- What `_approve_baseline` does. -/
inductive Approves (env : RootEnv) (spawnWorker : Bool) (ids : RequestIds)
    (s : RootState) : RootState → Prop
  | busy (held : leaseBusy (env.clock s.effects)
        (s.store.loadLease ids.workspaceId ids.pipelineId) = true) :
      Approves env spawnWorker ids s s.ticked
  | refused
      (why : planned (s.ticked.hydrated env ids.workspaceId
          ids.pipelineId).bridge ids.pipelineId = none ∨
        s.bridge.registry.roleOf ids.projectId ids.principalId = none) :
      Approves env spawnWorker ids s
        (s.ticked.hydrated env ids.workspaceId ids.pipelineId)
  | unleased {s' : RootState}
      (frame : Frame (s.ticked.hydrated env ids.workspaceId ids.pipelineId) s')
      (fault : s.faults < s'.faults)
      (cause : (s.store.saveLease (grantedLease ids.workspaceId ids.pipelineId
        (workerName ids.pipelineId) (env.clock s.effects) 1800
        (s.store.loadLease ids.workspaceId ids.pipelineId))).1 ≠ .ok ()) :
      Approves env spawnWorker ids s s'
  | committed {outcome : Except BridgeError (Option String)}
      {s₁ s₂ s' : RootState}
      (planned : planned (s.ticked.hydrated env ids.workspaceId
        ids.pipelineId).bridge ids.pipelineId ≠ none)
      (lease : LeaseFree env ids s)
      (frame : Still (s.ticked.hydrated env ids.workspaceId ids.pipelineId) s₁)
      (committed : Committed env ids.workspaceId ids.projectId ids.pipelineId
        ids.principalId s₁ outcome s₂)
      (stops : spawnWorker = true ∨ outcome ≠ .ok none)
      (after : Still s₂ s') : Approves env spawnWorker ids s s'
  | staged {outcome : Except BridgeError Unit} {s₁ s₂ s₃ s' : RootState}
      (planned : planned (s.ticked.hydrated env ids.workspaceId
        ids.pipelineId).bridge ids.pipelineId ≠ none)
      (lease : LeaseFree env ids s) (inline : spawnWorker = false)
      (frame : Still (s.ticked.hydrated env ids.workspaceId ids.pipelineId) s₁)
      (committed : Committed env ids.workspaceId ids.projectId ids.pipelineId
        ids.principalId s₁ (.ok none) s₂)
      (staged : Staged env ids.workspaceId ids.projectId ids.pipelineId
        ids.principalId s₂ outcome s₃)
      (after : Still s₃ s') : Approves env spawnWorker ids s s'

theorem Committed.later {outcome : Except BridgeError (Option String)}
    {s' : RootState}
    (hcommitted : Committed env ws prj pl principal s outcome s') :
    s.store.Later s'.store := by
  cases hcommitted with
  | refused message why => exact .refl _
  | kept prd arch role kept ended => exact kept.later

/-- The part of an approval that holds the lease. -/
theorem run_approveLeased {spawnWorker : Bool} {ids : RequestIds}
    (hplanned : planned (s.ticked.hydrated env ids.workspaceId
      ids.pipelineId).bridge ids.pipelineId ≠ none)
    (hlease : LeaseFree env ids s) {s₁ : RootState}
    (hframe : Still (s.ticked.hydrated env ids.workspaceId ids.pipelineId) s₁)
    (hhealthy : s₁.store.Healthy) (lease : LeaseRecord) :
    Approves env spawnWorker ids s
      ((approveLeased env.toBridgeCodec spawnWorker ids.workspaceId ids.projectId
        ids.pipelineId ids.principalId lease).run (handleBridge env) s₁).2 := by
  have hcommitted := run_commitApproval env hhealthy ids.workspaceId
    ids.projectId ids.pipelineId ids.principalId
  unfold approveLeased
  split
  · next hspawn =>
      simp only [Program.bind_eq]
      rcases hrun : (commitApproval env.toBridgeCodec ids.pipelineId ids.projectId
          ids.principalId ids.workspaceId).run (handleBridge env) s₁ with
        ⟨error | failed, s₂⟩
      · rw [hrun] at hcommitted
        rw [Program.run_bind_of_error hrun]
        exact .committed hplanned hlease hframe hcommitted (Or.inl hspawn) (.refl _)
      · rw [hrun] at hcommitted
        rw [Program.run_bind_of_ok hrun]
        refine .committed hplanned hlease hframe hcommitted (Or.inl hspawn) ?_
        cases failed with
        | some message =>
            exact (moves_cancel _ _).bind .trans
              (fun _ => Program.moves_done Still.refl _) s₂
        | none =>
            exact (moves_spawn _).bind .trans
              (fun _ => Program.moves_done Still.refl _) s₂
  · next hinline =>
      have hafter : ∀ (outcome : Except BridgeError Json) (s₂ : RootState),
          Still s₂ (((kernel (KernelController.cancel ids.workspaceId
            ids.pipelineId)).bind fun _ => Program.ofExcept outcome).run
              (handleBridge env) s₂).2 := by
        intro outcome s₂
        refine (moves_cancel _ _).bind .trans (fun _ => ?_) s₂
        intro s₃
        rw [Program.run_ofExcept]
        exact .refl _
      rw [Program.withCleanup, Program.run_observe, runApproved, Program.bind_eq]
      rcases hrun : (commitApproval env.toBridgeCodec ids.pipelineId ids.projectId
          ids.principalId ids.workspaceId).run (handleBridge env) s₁ with
        ⟨error | failed, s₂⟩
      · rw [hrun] at hcommitted
        rw [Program.run_bind_of_error hrun]
        exact .committed hplanned hlease hframe hcommitted (Or.inr (by simp)) (hafter _ _)
      · rw [hrun] at hcommitted
        rw [Program.run_bind_of_ok hrun]
        cases failed with
        | some message =>
            exact .committed hplanned hlease hframe hcommitted (Or.inr (by simp))
              (hafter _ _)
        | none =>
            obtain ⟨outcome, hstaged, -⟩ := run_leasedStages env
              (hcommitted.later.healthy hhealthy) ids.workspaceId ids.projectId
              ids.pipelineId ids.principalId
            refine .staged hplanned hlease (by simpa using hinline) hframe hcommitted
              hstaged ?_
            rw [Program.bind_eq, Program.run_bind_done]
            exact hafter _ _

theorem run_approveBaseline (env : RootEnv) (hhealthy : s.store.Healthy)
    (spawnWorker : Bool) (payload : List (String × Json)) :
    Approves env spawnWorker (requestIds env.toBridgeCodec payload) s
      ((approveBaseline env.toBridgeCodec spawnWorker payload).run
        (handleBridge env) s).2 := by
  have htime : (perform .time).run (handleBridge env) s =
      (.ok (env.clock s.effects), s.ticked) := rfl
  simp only [approveBaseline, Program.bind_eq]
  generalize requestIds env.toBridgeCodec payload = ids
  rw [Program.run_bind_of_ok htime, run_loadLease_bind]
  by_cases hbusy : leaseBusy (env.clock s.effects)
      (s.ticked.store.loadLease ids.workspaceId ids.pipelineId) = true
  · rw [if_pos hbusy]
    exact .busy hbusy
  · rw [if_neg hbusy, run_hydrateFromEvents_bind, run_memory_bind]
    by_cases hplanned : planned (s.ticked.hydrated env ids.workspaceId
        ids.pipelineId).bridge ids.pipelineId = none
    · rw [if_pos hplanned]
      exact .refused (Or.inl hplanned)
    · rw [if_neg hplanned]
      have hregistry : (s.ticked.hydrated env ids.workspaceId
          ids.pipelineId).bridge.registry = s.bridge.registry := by
        simp only [hydrated, hydrate]
        split <;> rfl
      rw [hregistry]
      by_cases hrole :
          s.bridge.registry.roleOf ids.projectId ids.principalId = none
      · rw [if_pos hrole]
        exact .refused (Or.inr hrole)
      · rw [if_neg hrole]
        have hfree : leaseBusy (env.clock s.effects) ((s.ticked.hydrated env
            ids.workspaceId ids.pipelineId).store.loadLease ids.workspaceId
              ids.pipelineId) = false := Bool.eq_false_iff.mpr hbusy
        rcases @run_acquireOrBusy env ids.workspaceId ids.pipelineId _ _ hfree
          (fun lease => approveLeased env.toBridgeCodec spawnWorker
            ids.workspaceId ids.projectId ids.pipelineId ids.principalId lease)
          with ⟨lease, s₁, hframe, hsaves, hrun⟩ | ⟨hframe, hfault, hcause⟩
        · rw [hrun]
          exact run_approveLeased hplanned ⟨hfree, hsaves⟩ hframe
            (hframe.log.healthy hhealthy) lease
        · exact .unleased hframe hfault hcause

end Approve

section Retry

/-- The outcome of the checks of a retry. -/
inductive RetryVerdict
  | notRework | unreadable | exhausted | stranger
  | passes (infra : Bool) (used infraUsed : Int)
deriving DecidableEq

/-- The checks of `_retry_verify`, on the rows of the pipeline. -/
def retryVerdict (bridge : Bridge) (ids : RequestIds) : RetryVerdict :=
  let verified := bridge.verify.getD ids.pipelineId .empty
  let developed := bridge.dev.getD ids.pipelineId .empty
  let infra := decide (verified.get? "verify_status" = some "INFRA")
  if verified.get? "verify_status" ≠ some "REWORK" ∧
      developed.get? "candidate_gate" ≠ some "FAIL" ∧ infra = false then .notRework
  else
    match attempts [verified.getD "verify_attempts" "",
        developed.getD "rework_attempts" ""],
      attempts [verified.getD "infra_attempts" ""] with
    | some used, some infraUsed =>
        if (if infra then infraUsed ≥ 3 else used ≥ 1) then .exhausted
        else if bridge.registry.roleOf ids.projectId ids.principalId = none then
          .stranger
        else .passes infra used infraUsed
    | _, _ => .unreadable

/-- What a retry does after its checks. -/
def retryAnswer (env : BridgeCodec) (spawnWorker : Bool) (ids : RequestIds) :
    RetryVerdict → BridgeProgram Json
  | .notRework => .done (errorReply "not rework")
  | .unreadable => .raise .value
  | .exhausted => .done (errorReply "retry exhausted")
  | .stranger => .done (errorReply "not a project member")
  | .passes infra used infraUsed =>
      retryChecked env spawnWorker ids infra used infraUsed

theorem run_retryVerify (spawnWorker : Bool) (payload : List (String × Json))
    (s : RootState) :
    let ids := requestIds env.toBridgeCodec payload
    let hydrated := s.hydrated env ids.workspaceId ids.pipelineId
    (retryVerify env.toBridgeCodec spawnWorker payload).run (handleBridge env) s =
      (retryAnswer env.toBridgeCodec spawnWorker ids
        (retryVerdict hydrated.bridge ids)).run (handleBridge env) hydrated := by
  simp only [retryVerify, Program.bind_eq]
  generalize requestIds env.toBridgeCodec payload = ids
  rw [run_hydrateFromEvents_bind, run_memory_bind]
  congr 1
  unfold retryVerdict
  dsimp only
  generalize (s.hydrated env ids.workspaceId ids.pipelineId).bridge = bridge
  generalize bridge.verify.getD ids.pipelineId .empty = verified
  generalize bridge.dev.getD ids.pipelineId .empty = developed
  generalize attempts [verified.getD "verify_attempts" "",
    developed.getD "rework_attempts" ""] = used
  generalize attempts [verified.getD "infra_attempts" ""] = infraUsed
  rw [apply_ite (retryAnswer env.toBridgeCodec spawnWorker ids)]
  congr 1
  rcases used with _ | used
  · rfl
  · rcases infraUsed with _ | infraUsed
    · rfl
    · dsimp only
      rw [apply_ite (retryAnswer env.toBridgeCodec spawnWorker ids)]
      congr 1
      rw [apply_ite (retryAnswer env.toBridgeCodec spawnWorker ids)]
      rfl

/-- What `dropStages` does: the verification row leaves the memory after the
files were saved. -/
inductive Dropped (env : RootEnv) (pl : String) (s : RootState) :
    Except BridgeError Unit → RootState → Prop
  | cut {error : BridgeError} {s' : RootState}
      (rewritten : Rewritten devFiles
        { s.bridge with dev := s.bridge.dev.pop pl } s s')
      (fault : s.faults < s'.faults) (cause : ¬ env.Calm) :
      Dropped env pl s (.error error) s'
  | dropped {s₁ : RootState}
      (rewritten : Rewritten devFiles
        { s.bridge with dev := s.bridge.dev.pop pl } s s₁)
      (quiet : s₁.faults = s.faults) :
      Dropped env pl s (.ok ()) { s₁ with
        bridge := { s₁.bridge with verify := s₁.bridge.verify.pop pl } }

theorem run_dropStages (env : RootEnv) (pl : String) (s : RootState) :
    Dropped env pl s ((dropStages pl).run (handleBridge env) s).1
      ((dropStages pl).run (handleBridge env) s).2 := by
  simp only [dropStages, Program.bind_eq, run_modify_bind]
  rcases run_rewrite (stores_saveDev env)
    { s.bridge with dev := s.bridge.dev.pop pl } s with
    ⟨s₁, hrun, hrewritten, hquiet⟩ |
      ⟨error, s₁, hrun, hrewritten, hfault, hcause⟩
  · rw [Program.run_bind_of_ok hrun, run_modify]
    exact .dropped hrewritten hquiet
  · rw [Program.run_bind_of_error hrun]
    exact .cut hrewritten hfault hcause

/-- The rows after a retry has counted itself. -/
def countedBridge (bridge : Bridge) (pl : String) (infra : Bool)
    (used infraUsed : Int) : Bridge :=
  let verified := bridge.verify.getD pl .empty
  if verified.rows.isEmpty then
    withDev bridge pl ((bridge.dev.getD pl .empty).set "rework_attempts" "1")
  else withVerify bridge pl (countAttempt infra used infraUsed verified)

/-- The files in which a retry is counted. -/
def countedFiles (bridge : Bridge) (pl : String) : List String :=
  if (bridge.verify.getD pl .empty).rows.isEmpty then devFiles else verifyFiles

/-- What an inline retry does after its checks. -/
inductive Retried (env : RootEnv) (ids : RequestIds) (infra : Bool)
    (used infraUsed : Int) (s : RootState) : RootState → Prop
  | cut {error : BridgeError} {s' : RootState}
      (dropped : Dropped env ids.pipelineId s (.error error) s') :
      Retried env ids infra used infraUsed s s'
  | stopped {error : BridgeError} {s₁ s' : RootState}
      (dropped : Dropped env ids.pipelineId s (.ok ()) s₁)
      (staged : Staged env ids.workspaceId ids.projectId ids.pipelineId
        ids.principalId s₁ (.error error) s') :
      Retried env ids infra used infraUsed s s'
  | counted {s₁ s₂ s' : RootState}
      (dropped : Dropped env ids.pipelineId s (.ok ()) s₁)
      (staged : Staged env ids.workspaceId ids.projectId ids.pipelineId
        ids.principalId s₁ (.ok ()) s₂)
      (rewritten : Rewritten (countedFiles s₂.bridge ids.pipelineId)
        (countedBridge s₂.bridge ids.pipelineId infra used infraUsed) s₂ s')
      (quiet : env.Calm → s'.faults = s₂.faults) :
      Retried env ids infra used infraUsed s s'

theorem Dropped.store {outcome : Except BridgeError Unit} {s' : RootState}
    (hdropped : Dropped env pl s outcome s') : s'.store = s.store := by
  cases hdropped with
  | cut rewritten fault cause => exact rewritten.store
  | dropped rewritten quiet => exact rewritten.store

/-- The memory without the development and the verification of a pipeline. -/
def droppedBridge (bridge : Bridge) (pl : String) : Bridge :=
  { bridge with
    dev := bridge.dev.pop pl
    verify := bridge.verify.pop pl }

theorem Dropped.core {s' : RootState} (hdropped : Dropped env pl s (.ok ()) s') :
    s'.bridge.core = (droppedBridge s.bridge pl).core := by
  cases hdropped with
  | @dropped s₁ rewritten quiet =>
      have hverify : s₁.bridge.verify = s.bridge.verify := by
        have hcore := congrArg Bridge.verify rewritten.core
        exact hcore
      have hcore := congrArg (fun bridge : Bridge =>
        { bridge with verify := s.bridge.verify.pop pl }) rewritten.core
      simp only [hverify]
      exact hcore

/-- Counting a retry. -/
theorem run_keepRetried (env : RootEnv) (pl : String) (infra : Bool)
    (used infraUsed : Int) (s : RootState) :
    let verified := s.bridge.verify.getD pl .empty
    let row :=
      if verified.rows.isEmpty then
        (s.bridge.dev.getD pl .empty).set "rework_attempts" "1"
      else countAttempt infra used infraUsed verified
    ∃ outcome s', (keepRetried pl (!verified.rows.isEmpty) row).run
        (handleBridge env) s = (outcome, s') ∧
      Rewritten (countedFiles s.bridge pl)
        (countedBridge s.bridge pl infra used infraUsed) s s' ∧
      (env.Calm → s'.faults = s.faults) := by
  have hrewrite : ∀ {names save} (bridge : Bridge), Stores env names save →
      ∃ outcome s', save.run (handleBridge env) { s with bridge := bridge } =
        (outcome, s') ∧ Rewritten names bridge s s' ∧
        (env.Calm → s'.faults = s.faults) := by
    intro names save bridge hsave
    rcases run_rewrite hsave bridge s with
      ⟨s', hrun, hrewritten, hquiet⟩ | ⟨error, s', hrun, hrewritten, -, hcause⟩
    · exact ⟨_, s', hrun, hrewritten, fun _ => hquiet⟩
    · exact ⟨_, s', hrun, hrewritten, fun hcalm => absurd hcalm hcause⟩
  dsimp only
  cases hempty : (s.bridge.verify.getD pl .empty).rows.isEmpty with
  | true =>
      simp only [countedFiles, countedBridge, hempty, keepRetried, Bool.not_true,
        Bool.false_eq_true, ↓reduceIte, Program.bind_eq, run_modify_bind]
      exact hrewrite _ (stores_saveDev env)
  | false =>
      simp only [countedFiles, countedBridge, hempty, keepRetried, Bool.not_false,
        Bool.false_eq_true, ↓reduceIte, Program.bind_eq, run_modify_bind]
      exact hrewrite _ (stores_saveVerify env)

theorem run_retryInline (env : RootEnv) (hhealthy : s.store.Healthy)
    (ids : RequestIds) (infra : Bool) (used infraUsed : Int) :
    Retried env ids infra used infraUsed s
      ((retryInline env.toBridgeCodec ids infra used infraUsed).run
        (handleBridge env) s).2 := by
  simp only [retryInline, Program.bind_eq]
  have hdropped := run_dropStages env ids.pipelineId s
  rcases hdrop : (dropStages ids.pipelineId).run (handleBridge env) s with
    ⟨error | done, s₁⟩
  · rw [hdrop] at hdropped
    rw [Program.run_bind_of_error hdrop]
    exact .cut hdropped
  rw [hdrop] at hdropped
  rw [Program.run_bind_of_ok hdrop]
  have hstaged := run_stages env (hdropped.store ▸ hhealthy) ids.workspaceId
    ids.projectId ids.pipelineId ids.principalId
  rw [← @run_insideStages env ids.workspaceId ids.pipelineId] at hstaged
  rcases hrun : (insideStages ids.workspaceId ids.pipelineId
      ((advanceDevelopment env.toBridgeCodec ids.pipelineId ids.projectId
        ids.principalId ids.workspaceId).bind fun _ =>
      advanceVerify env.toBridgeCodec ids.pipelineId ids.projectId
        ids.workspaceId)).run (handleBridge env) s₁ with ⟨error | done, s₂⟩
  · rw [hrun] at hstaged
    rw [Program.run_bind_of_error hrun]
    exact .stopped hdropped hstaged
  rw [hrun] at hstaged
  rw [Program.run_bind_of_ok hrun, run_memory_bind]
  obtain ⟨outcome, s₃, hkeep, hrewritten, hquiet⟩ :=
    run_keepRetried env ids.pipelineId infra used infraUsed s₂
  cases outcome with
  | error error =>
      rw [Program.run_bind_of_error hkeep]
      exact .counted hdropped hstaged hrewritten hquiet
  | ok done =>
      rw [Program.run_bind_of_ok hkeep, run_memory_bind]
      exact .counted hdropped hstaged hrewritten hquiet

/-- What a retry that starts a worker does after its checks. -/
inductive Respawned (env : RootEnv) (ids : RequestIds) (s : RootState) :
    RootState → Prop
  | busy (held : leaseBusy (env.clock s.effects)
        (s.store.loadLease ids.workspaceId ids.pipelineId) = true) :
      Respawned env ids s s.ticked
  | unleased {s' : RootState} (frame : Frame s.ticked s')
      (fault : s.faults < s'.faults)
      (cause : (s.store.saveLease (grantedLease ids.workspaceId ids.pipelineId
        (workerName ids.pipelineId) (env.clock s.effects) 1800
        (s.store.loadLease ids.workspaceId ids.pipelineId))).1 ≠ .ok ()) :
      Respawned env ids s s'
  | dropped {outcome : Except BridgeError Unit} {s₁ s₂ s' : RootState}
      (frame : Still s.ticked s₁)
      (dropped : Dropped env ids.pipelineId s₁ outcome s₂) (after : Still s₂ s') :
      Respawned env ids s s'

/-- What a retry that passed its checks does. -/
inductive Retries (env : RootEnv) (spawnWorker : Bool) (ids : RequestIds)
    (infra : Bool) (used infraUsed : Int) (s s' : RootState) : Prop
  | spawned (spawns : spawnWorker = true) (respawned : Respawned env ids s s')
  | inline (inline : spawnWorker = false)
      (retried : Retried env ids infra used infraUsed s s')

theorem run_retryChecked (env : RootEnv) (hhealthy : s.store.Healthy)
    (spawnWorker : Bool) (ids : RequestIds) (infra : Bool)
    (used infraUsed : Int) :
    Retries env spawnWorker ids infra used infraUsed s
      ((retryChecked env.toBridgeCodec spawnWorker ids infra used infraUsed).run
        (handleBridge env) s).2 := by
  unfold retryChecked
  cases spawnWorker with
  | false => exact .inline rfl (run_retryInline env hhealthy ids _ _ _)
  | true =>
      refine .spawned rfl ?_
      have htime : (perform .time).run (handleBridge env) s =
          (.ok (env.clock s.effects), s.ticked) := rfl
      simp only [↓reduceIte, Program.bind_eq]
      rw [Program.run_bind_of_ok htime]
      by_cases hbusy : leaseBusy (env.clock s.effects)
          (s.store.loadLease ids.workspaceId ids.pipelineId) = true
      · rw [@run_acquireOrBusy_held env ids.workspaceId ids.pipelineId s.ticked _
          hbusy]
        exact .busy hbusy
      · rcases @run_acquireOrBusy env ids.workspaceId ids.pipelineId s.ticked _
          (Bool.eq_false_iff.mpr hbusy) _ with
          ⟨lease, s₁, hframe, -, hrun⟩ | ⟨hframe, hfault, hcause⟩
        · rw [hrun]
          have hdropped := run_dropStages env ids.pipelineId s₁
          rcases hdrop : (dropStages ids.pipelineId).run (handleBridge env) s₁
            with ⟨error | done, s₂⟩
          · rw [hdrop] at hdropped
            rw [Program.run_bind_of_error hdrop]
            exact .dropped hframe hdropped (.refl _)
          · rw [hdrop] at hdropped
            rw [Program.run_bind_of_ok hdrop]
            refine .dropped hframe hdropped ?_
            exact (moves_spawn _).bind .trans
              (fun _ => Program.moves_done Still.refl _) s₂
        · exact .unleased hframe hfault hcause

end Retry

end RootState

end HermesPipeline
