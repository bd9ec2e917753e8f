/-
How the other requests run: the intake of a requirement with its two planning
stages, the registry, and the requests that leave the stations alone; then
whole sessions of requests and restarts.
-/
import HermesPipeline.RequestRuns

namespace HermesPipeline

open Lib KernelController KernelBridge

namespace RootState

variable {env : RootEnv} {ws prj pl : String} {s : RootState}

section Planning

def withPrd (bridge : Bridge) (pl : String) (row : Dict String String) : Bridge :=
  { bridge with prd := bridge.prd.set pl row }

def withArch (bridge : Bridge) (pl : String) (row : Dict String String) :
    Bridge :=
  { bridge with arch := bridge.arch.set pl row }

/-- What `_advance_prd` does after it restored the rows. -/
inductive Planned (env : RootEnv) (ws prj pl : String) (s : RootState) :
    Except BridgeError Unit → RootState → Prop
  | skipped (row : s.bridge.prd.get? pl ≠ none) : Planned env ws prj pl s (.ok ()) s
  | raised {error : BridgeError} {n : Nat} (absent : s.bridge.prd.get? pl = none)
      (answer : env.plans n = .error error) :
      Planned env ws prj pl s (.error error) (s.launched (.plan pl))
  | finished {result : PrdResult} {n : Nat} {outcome : Except BridgeError Unit}
      {s' : RootState} (absent : s.bridge.prd.get? pl = none)
      (answer : env.plans n = .ok result)
      (kept : Kept env ws prj pl .prd (prdRow result) ["prd.json"]
        (withPrd s.bridge pl (prdRow result)) (s.launched (.plan pl)) s')
      (ended : env.codec.Serializes → CanRecord ws prj pl .prd s.store →
        s'.faults = s.faults → outcome = .ok ()) :
      Planned env ws prj pl s outcome s'

theorem run_memory_lift (s : RootState) :
    (lift (perform .memory)).run (handle env) s = (.ok s.bridge, s) :=
  run_lift env _ s

theorem run_hydrate_lift (s : RootState) :
    (lift (hydrateFromEvents env.toBridgeCodec ws pl)).run (handle env) s =
      (.ok (), s.hydrated env ws pl) := by
  rw [run_lift, run_hydrateFromEvents]

theorem run_advancePrd (env : RootEnv) (hhealthy : s.store.Healthy)
    (ws prj pl : String) :
    Planned env ws prj pl (s.hydrated env ws pl)
      ((advancePrd env.toBridgeCodec pl ws prj).run (handle env) s).1
      ((advancePrd env.toBridgeCodec pl ws prj).run (handle env) s).2 := by
  have hsettings : ∀ s : RootState, (request .settings).run (handle env) s =
      (.ok s.settings, s) := fun s => rfl
  have hplan : ∀ text, (request (.plan pl text)).run (handle env)
      (s.hydrated env ws pl) = (env.plans s.effects,
        (s.hydrated env ws pl).launched (.plan pl)) :=
    fun _ => Program.run_perform _ _ _
  simp only [advancePrd, Program.bind_eq]
  rw [Program.run_bind_of_ok (run_hydrate_lift s),
    Program.run_bind_of_ok (run_memory_lift _)]
  by_cases habsent : (s.hydrated env ws pl).bridge.prd.get? pl = none
  · rw [if_neg (not_not.mpr habsent), Program.run_bind_of_ok (hsettings _)]
    cases hanswer : env.plans s.effects with
    | error error =>
        rw [hanswer] at hplan
        rw [Program.run_bind_of_error (hplan _)]
        exact .raised habsent hanswer
    | ok result =>
        rw [hanswer] at hplan
        rw [Program.run_bind_of_ok (hplan _), run_lift]
        obtain ⟨hkept, hended⟩ := @run_keep env ws prj pl
          ((s.hydrated env ws pl).launched (.plan pl)) ["prd.json"]
          (perform (.write "prd.json")) (by decide) (stores_write env _) hhealthy
          (fun bridge => withPrd bridge pl (prdRow result)) .prd (prdRow result)
          _ _ rfl
        exact .finished habsent hanswer hkept hended
  · rw [if_pos habsent]
    exact .skipped habsent

/-- The row of a baseline that waits for its approval. -/
def pendingRow (prj : String) : Dict String String :=
  rowOf [("approval_status", "PENDING"), ("approver_id", ""), ("project_id", prj)]

def withApproval (bridge : Bridge) (pl : String) (row : Dict String String) :
    Bridge :=
  { bridge with approvals := bridge.approvals.set pl row }

/-- What keeping a baseline pending does. -/
inductive Pended (prj pl : String) (s : RootState) : RootState → Prop
  | skipped (row : s.bridge.approvals.get? pl ≠ none) : Pended prj pl s s
  | pended {s' : RootState} (absent : s.bridge.approvals.get? pl = none)
      (rewritten : Rewritten approvalFiles
        (withApproval s.bridge pl (pendingRow prj)) s s') : Pended prj pl s s'

theorem run_pendApproval (env : RootEnv) (prj pl : String) (s : RootState) :
    ∃ outcome s', (pendApproval prj pl).run (handleBridge env) s = (outcome, s') ∧
      Pended prj pl s s' ∧ (s'.faults = s.faults → outcome = .ok ()) ∧
      s.faults ≤ s'.faults ∧ (env.Calm → s'.faults = s.faults) := by
  simp only [pendApproval, Program.bind_eq]
  rw [run_memory_bind]
  by_cases habsent : s.bridge.approvals.get? pl = none
  · rw [if_neg (not_not.mpr habsent), run_assign_bind]
    rcases run_rewrite (stores_saveApprovals env)
      (withApproval s.bridge pl (pendingRow prj)) s with
      ⟨s', hrun, hrewritten, hquiet⟩ |
        ⟨error, s', hrun, hrewritten, hfault, hcause⟩
    · exact ⟨_, s', hrun, .pended habsent hrewritten, fun _ => rfl, hquiet.ge,
        fun _ => hquiet⟩
    · exact ⟨_, s', hrun, .pended habsent hrewritten,
        fun hsame => absurd hsame hfault.ne', hfault.le,
        fun hcalm => absurd hcalm hcause⟩
  · rw [if_pos habsent]
    exact ⟨_, s, rfl, .skipped habsent, fun _ => rfl, le_rfl, fun _ => rfl⟩

/-- What `_advance_architecture` does after it restored the rows. -/
inductive Designed (env : RootEnv) (ws prj pl : String) (s : RootState) :
    Except BridgeError Unit → RootState → Prop
  | skipped (why : s.bridge.arch.get? pl ≠ none ∨ plannedPrd s.bridge pl = none) :
      Designed env ws prj pl s (.ok ()) s
  | raised {planning : Dict String String} {error : BridgeError} {n : Nat}
      (absent : s.bridge.arch.get? pl = none)
      (planned : plannedPrd s.bridge pl = some planning)
      (answer : env.designs n = .error error) :
      Designed env ws prj pl s (.error error) (s.launched (.design pl))
  | finished {planning : Dict String String} {result : ArchitectureResult}
      {n : Nat} {outcome : Except BridgeError Unit} {s' : RootState}
      (absent : s.bridge.arch.get? pl = none)
      (planned : plannedPrd s.bridge pl = some planning)
      (answer : env.designs n = .ok result)
      (kept : Kept env ws prj pl .architecture (archRow result)
        ["architecture.json"] (withArch s.bridge pl (archRow result))
        (s.launched (.design pl)) s')
      (stops : result.gatePasses = false ∨ outcome ≠ .ok ())
      (ended : env.codec.Serializes → CanRecord ws prj pl .architecture s.store →
        s'.faults = s.faults → outcome = .ok ()) :
      Designed env ws prj pl s outcome s'
  | pended {planning : Dict String String} {result : ArchitectureResult}
      {n : Nat} {outcome : Except BridgeError Unit} {s₁ s' : RootState}
      (absent : s.bridge.arch.get? pl = none)
      (planned : plannedPrd s.bridge pl = some planning)
      (answer : env.designs n = .ok result) (passes : result.gatePasses = true)
      (kept : Kept env ws prj pl .architecture (archRow result)
        ["architecture.json"] (withArch s.bridge pl (archRow result))
        (s.launched (.design pl)) s₁)
      (pended : Pended prj pl s₁ s')
      (ended : s'.faults = s₁.faults → outcome = .ok ())
      (faults : s₁.faults ≤ s'.faults)
      (quiet : env.Calm → s'.faults = s₁.faults) : Designed env ws prj pl s outcome s'

theorem run_advanceArchitecture (env : RootEnv) (hhealthy : s.store.Healthy)
    (ws prj pl : String) :
    Designed env ws prj pl (s.hydrated env ws pl)
      ((advanceArchitecture env.toBridgeCodec pl ws prj).run (handle env) s).1
      ((advanceArchitecture env.toBridgeCodec pl ws prj).run (handle env) s).2 := by
  have hdesign : ∀ prd, (request (.design pl prd)).run (handle env)
      (s.hydrated env ws pl) = (env.designs s.effects,
        (s.hydrated env ws pl).launched (.design pl)) :=
    fun _ => Program.run_perform _ _ _
  simp only [advanceArchitecture, Program.bind_eq]
  rw [Program.run_bind_of_ok (run_hydrate_lift s),
    Program.run_bind_of_ok (run_memory_lift _)]
  by_cases habsent : (s.hydrated env ws pl).bridge.arch.get? pl = none
  · rw [if_neg (not_not.mpr habsent)]
    cases hplanned : plannedPrd (s.hydrated env ws pl).bridge pl with
    | none => exact .skipped (Or.inr hplanned)
    | some planning =>
        dsimp only
        cases hanswer : env.designs s.effects with
        | error error =>
            rw [hanswer] at hdesign
            rw [Program.run_bind_of_error (hdesign _)]
            exact .raised habsent hplanned hanswer
        | ok result =>
            rw [hanswer] at hdesign
            rw [Program.run_bind_of_ok (hdesign _)]
            rcases hrun : (keepArchitecture env.toBridgeCodec ws prj pl
              (archRow result)).run (handleBridge env)
                ((s.hydrated env ws pl).launched (.design pl)) with ⟨outcome, s₁⟩
            obtain ⟨hkept, hended⟩ := @run_keep env ws prj pl
              ((s.hydrated env ws pl).launched (.design pl)) ["architecture.json"]
              (perform (.write "architecture.json")) (by decide)
              (stores_write env _) hhealthy
              (fun bridge => withArch bridge pl (archRow result)) .architecture
              (archRow result) _ _ hrun
            rw [← run_lift env] at hrun
            cases outcome with
            | error error =>
                rw [Program.run_bind_of_error hrun]
                exact .finished habsent hplanned hanswer hkept (Or.inr (by simp))
                  hended
            | ok done =>
                rw [Program.run_bind_of_ok hrun]
                cases hpasses : result.gatePasses with
                | false =>
                    exact .finished habsent hplanned hanswer hkept
                      (Or.inl hpasses) hended
                | true =>
                    simp only [↓reduceIte, run_lift]
                    obtain ⟨outcome, s', hpend, hpended, hended, hfaults,
                      hquiet⟩ := run_pendApproval env prj pl s₁
                    rw [hpend]
                    exact .pended habsent hplanned hanswer hpasses hkept hpended
                      hended hfaults hquiet
  · rw [if_pos habsent]
    exact .skipped (Or.inl habsent)

end Planning

section Intake

theorem intakeCommand_textual {commandId principal text : String}
    {command : ControllerCommand}
    (hcommand : intakeCommand commandId ws prj pl principal text = some command) :
    command.Textual := by
  simp only [intakeCommand] at hcommand
  split at hcommand
  · cases hcommand
    exact ⟨Dict.set .empty "text" text, rfl⟩
  · cases hcommand

theorem intakeCommand_ids {commandId principal text : String}
    {command : ControllerCommand}
    (hcommand : intakeCommand commandId ws prj pl principal text = some command) :
    command.workspaceId = ws ∧ command.pipelineId = pl ∧
      command.commandId = commandId ∧ command.expectedRevision = 0 ∧
      domainCommand command = some (.confirmRequirement text) := by
  simp only [intakeCommand] at hcommand
  split at hcommand
  · cases hcommand
    refine ⟨rfl, rfl, rfl, rfl, ?_⟩
    simp [domainCommand, Json.text?]
  · cases hcommand

/-- An accepted confirmation opens the pipeline. -/
theorem acceptance_confirms {k : KernelController} {command : ControllerCommand}
    {text : String}
    (hdomain : domainCommand command = some (.confirmRequirement text))
    (a : k.Acceptance command) :
    a.state.status = .opened ∧ a.event.eventType = "REQUIREMENT_CONFIRMED" := by
  have hparsed := a.parsed_eq
  rw [hdomain, Option.some.injEq] at hparsed
  have happly := a.apply_eq
  rw [← hparsed, PipelineState.apply, PipelineState.applyIntake] at happly
  split at happly
  · simp at happly
  · split at happly
    · simp at happly
    · simp only [PipelineResult.mk.injEq, Option.some.injEq, true_and] at happly
      obtain ⟨hstate, hevent⟩ := happly
      rw [← hstate, ← hevent]
      exact ⟨rfl, rfl⟩

/-- The ids of an intake fit the contract model of a command. -/
def IntakeFits (commandId : String) (ids : RequestIds) : Prop :=
  matchesScope "cmd_" commandId = true ∧
    (16 ≤ ("intake-" ++ commandId ++ "-key000").length ∧
      ("intake-" ++ commandId ++ "-key000").length ≤ 160) ∧
    matchesScope "ws_" ids.workspaceId = true ∧
    matchesScope "prj_" ids.projectId = true ∧
    matchesScope "pl_" ids.pipelineId = true

instance (commandId : String) (ids : RequestIds) :
    Decidable (IntakeFits commandId ids) :=
  inferInstanceAs (Decidable (_ ∧ _))

/-- What a confirmation asks: a member who may contribute, a text, ids that
fit, and a pipeline and a command id that the store does not know. -/
structure CanConfirm (commandId text : String) (ids : RequestIds)
    (s : RootState) : Prop where
  role : SolutionApproval.mayApprove
    (s.bridge.registry.roleOf ids.projectId ids.principalId) = true
  text : pyStrip text ≠ ""
  fits : IntakeFits commandId ids
  absent : s.store.pipelines.find? (ids.workspaceId, ids.pipelineId) = none
  fresh : s.store.inbox.find? (ids.workspaceId, commandId) = none
  vacant : Vacant ids.workspaceId ids.pipelineId commandId s.store

/-- The confirmation of an unknown pipeline can be accepted. -/
theorem exists_intakeAcceptance {codec : Codec} (hcodec : codec.Serializes)
    {commandId principal text : String} {command : ControllerCommand}
    (hcommand : intakeCommand commandId ws prj pl principal text = some command)
    (htext : pyStrip text ≠ "") :
    ∃ a : (controller codec).Acceptance command, a.snapshot = none := by
  obtain ⟨-, -, -, hrevision, hdomain⟩ := intakeCommand_ids hcommand
  obtain ⟨fingerprint, hhash⟩ :=
    (hcodec.hashes command (intakeCommand_textual hcommand)).mpr
      (hrevision ▸ Nat.zero_le _)
  obtain ⟨payloadJson, hpayload⟩ :=
    hcodec.texts (DomainEvent.requirementConfirmed (pyStrip text)).payload
  exact ⟨
    { fingerprint := fingerprint
      parsed := .confirmRequirement text
      snapshot := none
      current := ⟨.unconfirmed, 0, ""⟩
      state := ⟨.opened, 1, pyStrip text⟩
      event := .requirementConfirmed (pyStrip text)
      payloadJson := payloadJson
      hash_eq := hhash
      parsed_eq := hdomain
      current_eq := rfl
      revision_eq := hrevision
      apply_eq := by simp [PipelineState.apply, PipelineState.applyIntake, htext]
      payload_eq := hpayload }, rfl⟩

/-- What `RequirementIntake.confirm` does: it opens the pipeline, or leaves the
store as it is. -/
inductive Confirmed (env : RootEnv) (commandId text : String) (ids : RequestIds)
    (s : RootState) : Except BridgeError CommandReceipt → RootState → Prop
  | same (outcome : Except BridgeError CommandReceipt) (k : Nat)
      (why : env.codec.Serializes → ¬ CanConfirm commandId text ids s) :
      Confirmed env commandId text ids s outcome { s with faults := s.faults + k }
  | opened {receipt : CommandReceipt} {event : EventWrite}
      {store : SqliteKernelStore} (k : Nat)
      (grows : Grows ids.workspaceId ids.pipelineId commandId event s.store store)
      (type : event.eventType = "REQUIREMENT_CONFIRMED")
      (accepted : receipt.status = .accepted)
      (quiet : env.codec.Serializes → CanConfirm commandId text ids s → k = 0) :
      Confirmed env commandId text ids s (.ok receipt)
        { s with store := store, faults := s.faults + k }

/-- The submission of a confirmation. -/
theorem run_confirmCommand (env : RootEnv) (hhealthy : s.store.Healthy)
    {commandId text : String} {ids : RequestIds} {command : ControllerCommand}
    (hcommand : intakeCommand commandId ids.workspaceId ids.projectId
      ids.pipelineId ids.principalId text = some command) :
    Confirmed env commandId text ids s
      ((kernel ((controller env.codec).submit command)).run (handleBridge env)
        s).1
      ((kernel ((controller env.codec).submit command)).run (handleBridge env)
        s).2 := by
  obtain ⟨hws, hpl, hcmd, -, hdomain⟩ := intakeCommand_ids hcommand
  have hopens : ∀ {a : (controller env.codec).Acceptance command} {store},
      s.store.findInbox command.workspaceId command.commandId = none →
      a.snapshot = s.store.pipelines.find?
        (command.workspaceId, command.pipelineId) →
      s.store.commitAccepted a.write = (.ok (), store) →
      ∃ event, Grows ids.workspaceId ids.pipelineId commandId event s.store
        store ∧ event.eventType = "REQUIREMENT_CONFIRMED" := by
    intro a store hfresh hfound hcommit
    obtain ⟨hstate, htype⟩ := acceptance_confirms hdomain a
    have hgrows := grows_of_commit hcommit hstate hfresh hfound
    rw [hws, hpl, hcmd] at hgrows
    exact ⟨_, hgrows, htype⟩
  by_cases hcan : env.codec.Serializes ∧ CanConfirm commandId text ids s
  · obtain ⟨hcodec, hcan⟩ := hcan
    obtain ⟨a, hnone⟩ := exists_intakeAcceptance hcodec hcommand hcan.text
    have hfound : a.snapshot = s.store.pipelines.find?
        (command.workspaceId, command.pipelineId) := by
      rw [hnone, hws, hpl, hcan.absent]
    have hfresh : s.store.findInbox command.workspaceId command.commandId =
        none := by
      rw [hws, hcmd]
      exact hcan.fresh
    have hfree : Vacant command.workspaceId command.pipelineId command.commandId
        s.store := by
      rw [hws, hpl, hcmd]
      exact hcan.vacant
    rcases run_submit_committing rfl hhealthy hfresh a hfound with
      ⟨store, hcommit, hdone⟩ | ⟨-, hfull⟩
    · rw [hdone]
      obtain ⟨event, hgrows, htype⟩ := hopens hfresh hfound hcommit
      exact .opened 0 hgrows htype rfl fun _ _ => rfl
    · exact absurd (hfree.admits a hfound hfresh) hfull
  · have hcannot : env.codec.Serializes → ¬ CanConfirm commandId text ids s :=
      fun hcodec hmay => hcan ⟨hcodec, hmay⟩
    obtain ⟨k, hrun⟩ := run_kernel env ((controller env.codec).submit command) s
    rw [hrun]
    rcases @submit_healthy (controller env.codec) command s.store hhealthy with
      hsame | ⟨a, store, hcommit, hfresh, hfound, hdone⟩
    · rw [show (((controller env.codec).submit command).run
        (SqliteKernelStore.handle env.codec) s.store).2 = s.store from hsame]
      exact .same _ k hcannot
    · rw [show ((controller env.codec).submit command).run
        (SqliteKernelStore.handle env.codec) s.store =
          (.ok a.receipt, store) from hcommit]
      obtain ⟨event, hgrows, htype⟩ := hopens hfresh hfound hdone
      exact .opened k hgrows htype rfl fun hcodec hmay =>
        absurd hmay (hcannot hcodec)

theorem run_confirmRequirement (env : RootEnv) (hhealthy : s.store.Healthy)
    (commandId text : String) (ids : RequestIds) :
    Confirmed env commandId text ids s
      ((confirmRequirement env.toBridgeCodec commandId text ids).run
        (handleBridge env) s).1
      ((confirmRequirement env.toBridgeCodec commandId text ids).run
        (handleBridge env) s).2 := by
  simp only [confirmRequirement, Program.bind_eq]
  rw [run_memory_bind]
  have hmember : CanConfirm commandId text ids s → ∃ role,
      s.bridge.registry.roleOf ids.projectId ids.principalId = some role ∧
        role ≠ .viewer := by
    intro hcan
    have hrole := hcan.role
    cases hfound : s.bridge.registry.roleOf ids.projectId ids.principalId with
    | none => simp [hfound, SolutionApproval.mayApprove] at hrole
    | some role =>
        refine ⟨role, rfl, ?_⟩
        rintro rfl
        simp [hfound, SolutionApproval.mayApprove] at hrole
  split
  · next hproject =>
      refine .same _ 0 fun _ hcan => ?_
      obtain ⟨role, hrole, -⟩ := hmember hcan
      simp [ProjectRegistry.roleOf, hproject] at hrole
  · split
    · next hrole =>
        refine .same _ 0 fun _ hcan => ?_
        obtain ⟨role, hfound, -⟩ := hmember hcan
        rw [hrole] at hfound
        cases hfound
    · next hrole =>
        refine .same _ 0 fun _ hcan => ?_
        obtain ⟨role, hfound, hviewer⟩ := hmember hcan
        rw [hrole] at hfound
        exact hviewer (Option.some.inj hfound).symm
    · split
      · next hcommand =>
          refine .same _ 0 fun _ hcan => ?_
          simp only [intakeCommand] at hcommand
          split at hcommand
          · cases hcommand
          · next hunfit => exact hunfit hcan.fits
      · next command hcommand => exact run_confirmCommand env hhealthy hcommand

theorem Confirmed.later {commandId text : String} {ids : RequestIds}
    {outcome : Except BridgeError CommandReceipt} {s' : RootState}
    (hconfirmed : Confirmed env commandId text ids s outcome s') :
    s.store.Later s'.store := by
  cases hconfirmed with
  | same outcome k why => exact .refl _
  | opened k grows type accepted quiet => exact SqliteKernelStore.later_of_grows grows

theorem Planned.later {outcome : Except BridgeError Unit} {s' : RootState}
    (hplanned : Planned env ws prj pl s outcome s') :
    s.store.Later s'.store := by
  cases hplanned with
  | skipped row => exact .refl _
  | raised absent answer => exact .refl _
  | finished absent answer kept ended => exact kept.later

/-- The planning of an accepted requirement. -/
inductive PlannedBaseline (env : RootEnv) (ws prj pl : String) (s : RootState) :
    RootState → Prop
  | stopped {error : BridgeError} {s' : RootState}
      (planned : Planned env ws prj pl (s.hydrated env ws pl) (.error error) s') :
      PlannedBaseline env ws prj pl s s'
  | through {outcome : Except BridgeError Unit} {s₁ s' : RootState}
      (planned : Planned env ws prj pl (s.hydrated env ws pl) (.ok ()) s₁)
      (designed : Designed env ws prj pl (s₁.hydrated env ws pl) outcome s') :
      PlannedBaseline env ws prj pl s s'

/-- What the intake of a requirement does. -/
inductive Intakes (env : RootEnv) (commandId text : String) (ids : RequestIds)
    (s : RootState) : RootState → Prop
  | refused {outcome : Except BridgeError CommandReceipt} {s' : RootState}
      (confirmed : Confirmed env commandId text ids s outcome s')
      (why : ∀ receipt, outcome = .ok receipt → receipt.status ≠ .accepted) :
      Intakes env commandId text ids s s'
  | unsaved {receipt : CommandReceipt} {s₁ s' : RootState}
      (confirmed : Confirmed env commandId text ids s (.ok receipt) s₁)
      (accepted : receipt.status = .accepted) (frame : Frame s₁ s')
      (fault : s₁.faults < s'.faults) (cause : ¬ env.Calm) :
      Intakes env commandId text ids s s'
  | planned {receipt : CommandReceipt} {s₁ s₂ s' : RootState}
      (confirmed : Confirmed env commandId text ids s (.ok receipt) s₁)
      (accepted : receipt.status = .accepted) (frame : Frame s₁ s₂)
      (quiet : s₂.faults = s₁.faults)
      (planned : PlannedBaseline env ids.workspaceId ids.projectId ids.pipelineId
        s₂ s') : Intakes env commandId text ids s s'

/-- Writing the settings leaves the stations alone. -/
theorem run_changeSettings (env : RootEnv) {file : String}
    (hfile : file ∉ stationFiles) (change : Settings → Settings) (s : RootState) :
    ∃ outcome s', (changeSettings file change).run (handle env) s =
        (outcome, s') ∧ Frame s s' ∧
      (outcome = .ok () ∧ s'.faults = s.faults ∨
        (∃ error, outcome = .error error) ∧ s.faults < s'.faults ∧
          ¬ env.Calm) := by
  let changed : RootState := { s with settings := change s.settings }
  have hrun : (changeSettings file change).run (handle env) s =
      handle env (.writeSettings file) changed := by
    change (request (.writeSettings file)).run (handle env) changed = _
    exact Program.run_perform _ _ _
  rw [hrun]
  cases hwrite : env.writes s.effects with
  | error error =>
      refine ⟨.error error, _, by
        simp only [handle]
        rw [show env.writes changed.effects = .error error from hwrite], ?_, ?_⟩
      · exact ⟨rfl, .refl _, fun _ => Or.inl rfl, rfl, rfl, rfl, Nat.le_succ _⟩
      · refine Or.inr ⟨⟨error, rfl⟩, Nat.lt_succ_self _, ?_⟩
        intro hcalm
        rw [hcalm.writes] at hwrite
        cases hwrite
  | ok done =>
      refine ⟨.ok (), _, by
        simp only [handle]
        rw [show env.writes changed.effects = .ok done from hwrite], ?_, ?_⟩
      · refine ⟨rfl, .refl _, ?_, rfl, rfl, rfl, le_rfl⟩
        intro other
        by_cases hother : other = file
        · subst hother
          exact Or.inr ⟨hfile, _, Dict.get?_set_self _ _ _,
            Or.inr ⟨changed.settings, rfl⟩⟩
        · exact Or.inl (Dict.get?_set_of_ne _ _ hother)
      · exact Or.inl ⟨rfl, rfl⟩

theorem run_intake (env : RootEnv) (hhealthy : s.store.Healthy)
    (commandId text : String) (payload : List (String × Json)) :
    Intakes env commandId text (requestIds env.toBridgeCodec payload) s
      ((intake env.toBridgeCodec commandId text payload).run (handle env) s).2 := by
  simp only [intake, Program.bind_eq]
  generalize requestIds env.toBridgeCodec payload = ids
  have hconfirmed := run_confirmRequirement env hhealthy commandId text ids
  rw [← run_lift env] at hconfirmed
  rcases hrun : (lift (confirmRequirement env.toBridgeCodec commandId text
      ids)).run (handle env) s with ⟨error | receipt, s₁⟩
  · rw [hrun] at hconfirmed
    rw [Program.run_bind_of_error hrun]
    exact .refused hconfirmed (by simp)
  rw [hrun] at hconfirmed
  rw [Program.run_bind_of_ok hrun]
  by_cases haccepted : receipt.status = .accepted
  · rw [if_pos haccepted]
    have hhealthy₁ := hconfirmed.later.healthy hhealthy
    obtain ⟨outcome, s₂, hchange, hframe, hquiet⟩ := run_changeSettings env
      (show "requirements.json" ∉ stationFiles by decide)
      (fun settings => { settings with
        requirements := settings.requirements.set ids.pipelineId text }) s₁
    rcases hquiet with ⟨rfl, hquiet⟩ | ⟨⟨error, rfl⟩, hfault, hcause⟩
    · rw [Program.run_bind_of_ok hchange]
      refine .planned hconfirmed haccepted hframe hquiet ?_
      have hhealthy₂ := hframe.log.healthy hhealthy₁
      have hplanned := run_advancePrd env hhealthy₂ ids.workspaceId ids.projectId
        ids.pipelineId
      rcases hprd : (advancePrd env.toBridgeCodec ids.pipelineId ids.workspaceId
          ids.projectId).run (handle env) s₂ with ⟨error | done, s₃⟩
      · rw [hprd] at hplanned
        rw [Program.run_bind_of_error hprd]
        exact .stopped hplanned
      · rw [hprd] at hplanned
        rw [Program.run_bind_of_ok hprd, Program.run_bind_done]
        exact .through hplanned (run_advanceArchitecture env
          (hplanned.later.healthy hhealthy₂) ids.workspaceId ids.projectId
          ids.pipelineId)
    · rw [Program.run_bind_of_error hchange]
      exact .unsaved hconfirmed haccepted hframe hfault hcause
  · rw [if_neg haccepted]
    exact .refused hconfirmed fun other hother => by cases hother; exact haccepted

end Intake

section Requests

theorem moves_lift {α : Type} {R : RootState → RootState → Prop}
    {p : BridgeProgram α} (hp : p.Moves (handleBridge env) R) :
    (lift p).Moves (handle env) R := by
  intro s
  rw [run_lift]
  exact hp s

theorem moves_deliver (payload : List (String × Json)) :
    (deliver env.toBridgeCodec payload).Moves (handleBridge env) Frame := by
  intro s
  simp only [deliver, Program.bind_eq]
  rw [run_memory_bind]
  cases publishDelivery env.toBridgeCodec payload _ s.bridge.delivery with
  | none => exact .refl s
  | some published =>
      obtain ⟨record, delivery⟩ := published
      dsimp only
      rw [run_assign_bind]
      have hsave : ∀ published : DeliveryRecord,
          (saveDelivery.bind fun _ => (.done (.obj (recordView published)) :
            BridgeProgram Json)).Moves (handleBridge env) Frame := fun published =>
        moves_saveDelivery.bind .trans fun _ => Program.moves_done Frame.refl _
      refine Frame.trans ?_ (Program.Moves.ite ?_ ?_ _)
      · exact frame_bridge rfl
      · exact hsave record
      · exact (moves_mirrorGithub _ _).bind .trans hsave

/-- A read delivers what is pending and changes nothing else. -/
theorem frame_readPipeline (env : RootEnv) (hhealthy : s.store.Healthy)
    (payload : List (String × Json)) :
    Frame s ((readPipeline env.toBridgeCodec payload).run (handle env) s).2 := by
  simp only [readPipeline, Program.bind_eq]
  generalize payloadText env.toBridgeCodec payload "workspace_id" "" = ws
  generalize payloadText env.toBridgeCodec payload "pipeline_id" "" = pl
  have hdrain := moves_lift (@moves_drainOutbox env ws) s
  rcases hrun : (lift (drainOutbox env.toBridgeCodec ws)).run (handle env) s with
    ⟨error | done, s₁⟩
  · rw [hrun] at hdrain
    rw [Program.run_bind_of_error hrun]
    exact hdrain
  rw [hrun] at hdrain
  rw [Program.run_bind_of_ok hrun]
  have hread : ∃ view, (lift (kernel (KernelController.read ⟨pl, ws⟩))).run
      (handle env) s₁ = (.ok view, s₁) := by
    rw [run_lift, KernelController.read]
    split
    · exact ⟨_, rfl⟩
    · next hws =>
        rw [kernel_bind, run_loadPipeline_bind env (hdrain.log.healthy hhealthy)
          pl hws]
        exact ⟨_, rfl⟩
  obtain ⟨view, hview⟩ := hread
  rw [Program.run_bind_of_ok hview, Program.run_bind_of_ok (run_memory_lift _)]
  have hsettings : (request .settings).run (handle env) s₁ =
      (.ok s₁.settings, s₁) := rfl
  have hevents : (lift (kernel (ask (.listEvents ws pl)))).run (handle env) s₁ =
      (.ok (s₁.store.listEvents ws pl), s₁) := by
    rw [run_lift]
    simp only [ask, Program.perform]
    rw [run_kernel_call]
    rfl
  rw [Program.run_bind_of_ok hsettings, Program.run_bind_of_ok hevents]
  exact hdrain

def withRegistry (bridge : Bridge) (registry : ProjectRegistry) : Bridge :=
  { bridge with registry := registry }

/-- What a request does to a running bridge. -/
inductive Served (env : RootEnv) (spawnWorker : Bool) (commandId : String)
    (payload : List (String × Json)) (s : RootState) : RootState → Prop
  | framed {s' : RootState} (frame : Frame s s') :
      Served env spawnWorker commandId payload s s'
  | registered {s' : RootState} (kind : requestKind payload = .register)
      (rewritten : Rewritten ["projects.json"] (withRegistry s.bridge
        (s.bridge.registry.register
          (payloadText env.toBridgeCodec payload "project_id" "")
          (payloadText env.toBridgeCodec payload "name" ""))) s s') :
      Served env spawnWorker commandId payload s s'
  | admitted {role : ProjectRole} {registry : ProjectRegistry} {s' : RootState}
      (kind : requestKind payload = .admission)
      (admits : s.bridge.registry.admitMember
        (payloadText env.toBridgeCodec payload "project_id" "")
        (payloadText env.toBridgeCodec payload "principal_id" "") role =
          some registry)
      (rewritten : Rewritten ["projects.json"] (withRegistry s.bridge registry)
        s s') :
      Served env spawnWorker commandId payload s s'
  | intake {text : String} {s' : RootState}
      (kind : requestKind payload = .intake text)
      (intakes : Intakes env commandId text (requestIds env.toBridgeCodec payload) s
        s') : Served env spawnWorker commandId payload s s'
  | approve {s' : RootState} (kind : requestKind payload = .approve)
      (approves : Approves env spawnWorker (requestIds env.toBridgeCodec payload)
        s s') : Served env spawnWorker commandId payload s s'
  | retry (ids : RequestIds) (kind : requestKind payload = .retry)
      (ids_eq : ids = requestIds env.toBridgeCodec payload) :
      Served env spawnWorker commandId payload s
        (s.hydrated env ids.workspaceId ids.pipelineId)
  | retried {infra : Bool} {used infraUsed : Int} {ids : RequestIds}
      {s' : RootState} (kind : requestKind payload = .retry)
      (ids_eq : ids = requestIds env.toBridgeCodec payload)
      (passes : retryVerdict (s.hydrated env ids.workspaceId
        ids.pipelineId).bridge ids = .passes infra used infraUsed)
      (retries : Retries env spawnWorker ids infra used infraUsed
        (s.hydrated env ids.workspaceId ids.pipelineId) s') :
      Served env spawnWorker commandId payload s s'

theorem run_retryRequest (env : RootEnv) (hhealthy : s.store.Healthy)
    (spawnWorker : Bool) {commandId : String} {payload : List (String × Json)}
    (hkind : requestKind payload = .retry) :
    Served env spawnWorker commandId payload s
      ((retryVerify env.toBridgeCodec spawnWorker payload).run
        (handleBridge env) s).2 := by
  have hretry := @run_retryVerify env spawnWorker payload s
  dsimp only at hretry
  rw [hretry]
  generalize hids : requestIds env.toBridgeCodec payload = ids
  cases hverdict : retryVerdict (s.hydrated env ids.workspaceId
      ids.pipelineId).bridge ids with
  | notRework | unreadable | exhausted | stranger =>
      exact .retry ids hkind hids.symm
  | passes infra used infraUsed =>
      have hhydrated : (s.hydrated env ids.workspaceId
        ids.pipelineId).store.Healthy := hhealthy
      exact .retried hkind hids.symm hverdict
        (run_retryChecked env hhydrated spawnWorker ids infra used infraUsed)

theorem run_registerProject (env : RootEnv) {commandId : String}
    {spawnWorker : Bool} {payload : List (String × Json)}
    (hkind : requestKind payload = .register) (s : RootState) :
    Served env spawnWorker commandId payload s
      ((registerProject env.toBridgeCodec payload).run (handleBridge env) s).2 := by
  simp only [registerProject, Program.bind_eq, run_modify_bind]
  refine .registered hkind ?_
  rcases run_rewrite (stores_write env "projects.json") (withRegistry s.bridge
      (s.bridge.registry.register
        (payloadText env.toBridgeCodec payload "project_id" "")
        (payloadText env.toBridgeCodec payload "name" ""))) s with
    ⟨s', hrun, hrewritten, -⟩ | ⟨error, s', hrun, hrewritten, -⟩
  · rw [withRegistry] at hrun
    rw [Program.run_bind_of_ok hrun]
    exact hrewritten
  · rw [withRegistry] at hrun
    rw [Program.run_bind_of_error hrun]
    exact hrewritten

theorem run_admitMember (env : RootEnv) {commandId : String}
    {spawnWorker : Bool} {payload : List (String × Json)}
    (hkind : requestKind payload = .admission) (s : RootState) :
    Served env spawnWorker commandId payload s
      ((admitMember env.toBridgeCodec payload).run (handleBridge env) s).2 := by
  simp only [admitMember, Program.bind_eq]
  rw [run_memory_bind]
  cases ProjectRole.ofValue? (payloadText env.toBridgeCodec payload "role" "") with
  | none => exact .framed (.refl s)
  | some role =>
      dsimp only
      cases hadmits : s.bridge.registry.admitMember
          (payloadText env.toBridgeCodec payload "project_id" "")
          (payloadText env.toBridgeCodec payload "principal_id" "") role with
      | none => exact .framed (.refl s)
      | some registry =>
          dsimp only
          rw [run_assign_bind]
          refine .admitted hkind hadmits ?_
          rcases run_rewrite (stores_write env "projects.json")
            (withRegistry s.bridge registry) s with
            ⟨s', hrun, hrewritten, -⟩ | ⟨error, s', hrun, hrewritten, -⟩
          · rw [withRegistry] at hrun
            rw [Program.run_bind_of_ok hrun]
            exact hrewritten
          · rw [withRegistry] at hrun
            rw [Program.run_bind_of_error hrun]
            exact hrewritten

/-- The settings of a bridge are no part of its stations. -/
theorem moves_changeSettings {file : String} (hfile : file ∉ stationFiles)
    (change : Settings → Settings) :
    (changeSettings file change).Moves (handle env) Frame := by
  intro s
  obtain ⟨outcome, s', hrun, hframe, -⟩ := run_changeSettings env hfile change s
  rw [hrun]
  exact hframe

theorem run_process (env : RootEnv) (hhealthy : s.store.Healthy)
    (spawnWorker : Bool) (commandId : String) (payload : List (String × Json)) :
    Served env spawnWorker commandId payload s
      ((process env.toBridgeCodec spawnWorker commandId payload).run (handle env)
        s).2 := by
  simp only [process, Program.bind_eq]
  rw [Program.run_bind_of_ok (run_memory_lift s)]
  split
  · exact .framed (.refl s)
  cases hkind : requestKind payload with
  | register =>
      dsimp only
      rw [run_lift]
      exact run_registerProject env hkind s
  | admission =>
      dsimp only
      rw [run_lift]
      exact run_admitMember env hkind s
  | bind =>
      refine .framed (Program.Moves.ite ?_ (Program.moves_done Frame.refl _) s)
      exact (moves_changeSettings (by decide) _).bind .trans fun _ =>
        Program.moves_done Frame.refl _
  | bindings => exact .framed (.refl s)
  | runtimes => exact .framed (.refl s)
  | github =>
      refine .framed (Program.Moves.ite ?_ (Program.moves_done Frame.refl _) s)
      exact (moves_changeSettings (by decide) _).bind .trans fun _ =>
        Program.moves_done Frame.refl _
  | deliver => exact .framed (moves_lift (moves_deliver payload) s)
  | read => exact .framed (frame_readPipeline env hhealthy payload)
  | intake text => exact .intake hkind (run_intake env hhealthy commandId text payload)
  | approve =>
      dsimp only
      rw [run_lift]
      exact .approve hkind (run_approveBaseline env hhealthy spawnWorker payload)
  | retry =>
      dsimp only
      rw [run_lift]
      exact run_retryRequest env hhealthy spawnWorker hkind
  | other => exact .framed (.refl s)

end Requests

end RootState

end HermesPipeline
