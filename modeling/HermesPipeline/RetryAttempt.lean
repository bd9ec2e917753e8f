/-
What an inline retry attempts.  A retry drops the development and the
verification of its pipeline, but the stages restore from the log what passed
its gate: whether a new development is made depends on what the log says of
the old one.
-/
import HermesPipeline.FirstSession

namespace HermesPipeline

open Lib KernelController KernelBridge

/-- A step of a single process without workers. -/
def RootInput.Inline : RootInput → Prop
  | .request _ _ => True
  | .restart spawnWorker => spawnWorker = false
  | .work _ => False

namespace RootState

section Inline

variable {env : RootEnv} {commandId : String} {ids : RequestIds}
  {phase : Phase} {s s' : RootState}

theorem Move.spawnWorker (hmove : Move env commandId ids phase s s') :
    s'.spawnWorker = s.spawnWorker := by
  cases hmove with
  | framed frame => exact frame.spawnWorker
  | launched s launch => rfl
  | restored s => rfl
  | enrolled rewritten => exact rewritten.spawnWorker
  | confirmed k grows type => rfl
  | planned absent kept => exact kept.spawnWorker
  | designed absent planned kept => exact kept.spawnWorker
  | pended absent rewritten => exact rewritten.spawnWorker
  | committed prd arch role kept => exact kept.spawnWorker
  | approved develops role => rfl
  | denied develops kept => exact kept.spawnWorker
  | developed develops kept => exact kept.spawnWorker
  | infra verifies kept => exact kept.spawnWorker
  | verified verifies kept => exact kept.spawnWorker
  | dropped rewritten => exact rewritten.spawnWorker
  | forgotten s => rfl
  | counted rewritten => exact rewritten.spawnWorker

theorem Served.spawnWorker {spawns : Bool} {payload : List (String × Json)}
    (hserved : Served env spawns commandId payload s s') :
    s'.spawnWorker = s.spawnWorker :=
  hserved.keeps (P := fun s₁ => s₁.spawnWorker = s.spawnWorker)
    (fun _ _ _ hmove hsame => hmove.spawnWorker.trans hsame) rfl

theorem Constructed.spawnWorker {outcome : Except BridgeError Unit}
    (hconstructed : Constructed env s outcome s') (hnumbered : s.store.Numbered) :
    s'.spawnWorker = s.spawnWorker := by
  cases hconstructed with
  | raised load => rfl
  | loaded load imported idle => exact (imported hnumbered).spawnWorker

/-- A session without workers stays without workers. -/
theorem spawnWorker_after (env : RootEnv) {inputs : List RootInput}
    (hinline : ∀ input ∈ inputs, input.Inline) :
    ((init false).after env inputs).spawnWorker = false := by
  induction inputs using List.reverseRecOn with
  | nil => rfl
  | append_singleton inputs input ih =>
      have hbefore := ih fun other hother =>
        hinline other (List.mem_append_left _ hother)
      have hlast := hinline input (by simp)
      obtain ⟨hhealthy, hnumbered⟩ := store_after env inputs (healthy_init false)
        (numbered_init false)
      rw [after, exec_concat]
      change (((init false).after env inputs).step env input).2.spawnWorker = false
      generalize (init false).after env inputs = s at hbefore hhealthy hnumbered
      cases input with
      | request commandId payload =>
          simp only [step, serve]
          split
          · rw [(run_process env hhealthy _ _ _).spawnWorker]
            exact hbefore
          · exact hbefore
      | restart spawnWorker =>
          obtain ⟨outcome, s', hconstructed, -, hstate⟩ :=
            run_restarted env hhealthy spawnWorker
          simp only [step, hstate]
          rw [hconstructed.spawnWorker hnumbered]
          exact hlast
      | work args => exact hlast.elim

end Inline

section Attempt

variable {env : RootEnv} {s s' : RootState}

/-- The development stage was executed and recorded, and what was verified is
the candidate of that development. -/
def NewAttempt (env : RootEnv) (ids : RequestIds) (s s' : RootState) : Prop :=
  ∃ event launches, s'.launches = s.launches ++ launches ∧
    .develop ids.pipelineId ∈ launches ∧
    recordsOf .development
        (s'.store.listEvents ids.workspaceId ids.pipelineId) =
      recordsOf .development
        (s.store.listEvents ids.workspaceId ids.pipelineId) ++ [event] ∧
    ∀ sha, .verify ids.pipelineId sha ∈ launches →
      eventField env.codec event "candidate_sha" = some sha

/-- A retry request that passes its checks. -/
structure RetryPasses (env : RootEnv) (payload : List (String × Json))
    (ids : RequestIds) (s : RootState) : Prop where
  running : s.running = true
  sound : s.bridge.corrupt = false
  kind : requestKind payload = .retry
  ids_eq : ids = requestIds env.toBridgeCodec payload
  verdict : ∃ infra used infraUsed, retryVerdict
    (s.hydrated env ids.workspaceId ids.pipelineId).bridge ids =
      .passes infra used infraUsed

/-- The retry may develop: the log does not call the candidate passed, the
baseline is planned, the member may approve, and the record can be made. -/
structure RetryDevelops (env : RootEnv) (ids : RequestIds) (s : RootState) :
    Prop where
  unpassed : (foldStageProjection env.codec (s.store.listEvents
    ids.workspaceId ids.pipelineId)).get? "candidate_gate" ≠ some "PASS"
  planned : planned (s.hydrated env ids.workspaceId ids.pipelineId).bridge
    ids.pipelineId ≠ none
  role : SolutionApproval.mayApprove
    (s.bridge.registry.roleOf ids.projectId ids.principalId) = true
  record : CanRecord ids.workspaceId ids.projectId ids.pipelineId .development
    s.store

/-- A retry that passes its checks is the inline retry. -/
theorem serve_retry {payload : List (String × Json)} {ids : RequestIds}
    (commandId : String) (hhealthy : s.store.Healthy)
    (hinline : s.spawnWorker = false) (hpasses : RetryPasses env payload ids s) :
    ∃ infra used infraUsed, Retried env ids infra used infraUsed
      (s.hydrated env ids.workspaceId ids.pipelineId)
      (s.serve env commandId payload).2 := by
  obtain ⟨infra, used, infraUsed, hverdict⟩ := hpasses.verdict
  refine ⟨infra, used, infraUsed, ?_⟩
  obtain rfl := hpasses.ids_eq
  have hretry := @run_retryVerify env false payload s
  dsimp only at hretry
  rw [serve, if_pos hpasses.running, process, Program.bind_eq,
    Program.run_bind_of_ok (run_memory_lift s)]
  simp only [hpasses.sound, Bool.false_eq_true, ↓reduceIte, hpasses.kind,
    hinline]
  rw [run_lift, hretry, hverdict]
  have hhydrated : (s.hydrated env
      (requestIds env.toBridgeCodec payload).workspaceId
      (requestIds env.toBridgeCodec payload).pipelineId).store.Healthy := hhealthy
  exact run_retryInline env hhydrated _ infra used infraUsed

/-- After the rows were dropped and restored, a development starts exactly when
the log does not call the candidate passed and the baseline is planned. -/
theorem develops_dropped_iff {ids : RequestIds} {s₁ : RootState}
    (hdropped : Dropped env ids.pipelineId
      (s.hydrated env ids.workspaceId ids.pipelineId) (.ok ()) s₁) :
    (∃ planning design, Develops
        (s₁.hydrated env ids.workspaceId ids.pipelineId) ids.pipelineId planning
        design) ↔
      (foldStageProjection env.codec (s.store.listEvents ids.workspaceId
        ids.pipelineId)).get? "candidate_gate" ≠ some "PASS" ∧
        planned (s.hydrated env ids.workspaceId ids.pipelineId).bridge
          ids.pipelineId ≠ none := by
  let folded := foldStageProjection env.codec
    (s.store.listEvents ids.workspaceId ids.pipelineId)
  let restored := s.hydrated env ids.workspaceId ids.pipelineId
  have hstore : s₁.store = s.store := hdropped.store
  have hbridge : (s₁.hydrated env ids.workspaceId ids.pipelineId).bridge =
      hydrate folded ids.pipelineId s₁.bridge := by
    simp only [hydrated, hstore, folded]
  have hprd : s₁.bridge.prd = restored.bridge.prd := by
    have hcore := congrArg Bridge.prd hdropped.core
    exact hcore
  have harch : s₁.bridge.arch = restored.bridge.arch := by
    have hcore := congrArg Bridge.arch hdropped.core
    exact hcore
  have hdev : s₁.bridge.dev.get? ids.pipelineId = none := by
    have hcore : s₁.bridge.dev = restored.bridge.dev.pop ids.pipelineId :=
      congrArg Bridge.dev hdropped.core
    rw [hcore, Dict.get?_pop_self]
  have htwice : hydrate folded ids.pipelineId restored.bridge = restored.bridge :=
    hydrate_hydrate folded ids.pipelineId s.bridge
  have hplanned : planned (hydrate folded ids.pipelineId s₁.bridge)
      ids.pipelineId = planned restored.bridge ids.pipelineId := by
    conv_rhs => rw [← htwice]
    simp only [planned, get?_hydrate_prd, get?_hydrate_arch, hprd, harch]
  have habsent : (hydrate folded ids.pipelineId s₁.bridge).dev.get?
      ids.pipelineId = none ↔ folded.get? "candidate_gate" ≠ some "PASS" := by
    rw [get?_hydrate_dev, hdev]
    by_cases hgate : folded.get? "candidate_gate" = some "PASS"
    · simp [hgate]
    · simp [hgate]
  constructor
  · rintro ⟨planning, design, hdevelops⟩
    have hrow := hdevelops.absent
    have hplan := hdevelops.planned
    rw [hbridge] at hrow hplan
    rw [hplanned] at hplan
    refine ⟨habsent.mp hrow, ?_⟩
    rw [hplan]
    simp
  · rintro ⟨hgate, hplan⟩
    obtain ⟨⟨planning, design⟩, hsome⟩ := Option.ne_none_iff_exists'.mp hplan
    refine ⟨planning, design, ?_, ?_⟩
    · rw [hbridge]
      exact habsent.mpr hgate
    · rw [hbridge, hplanned]
      exact hsome

section Stages

variable {ws prj pl principal : String} {outcome : Except BridgeError Unit}

/-- A development that was recorded: its row is in memory, its event at the end
of the log. -/
structure RecordedAttempt (env : RootEnv) (ws pl : String) (s s' : RootState)
    (result : DevelopmentResult) (event : EventWrite) : Prop where
  row : s'.bridge.dev.get? pl = some (developmentRow result)
  records : RecordsStation env.codec .development (developmentRow result) event
  log : s'.store.listEvents ws pl = s.store.listEvents ws pl ++ [event]

theorem RecordedAttempt.of_kept {s₁ : RootState} {result : DevelopmentResult}
    (hlog : s.store.SameLog s₁.store)
    (hkept : Kept env ws prj pl .development (developmentRow result) devFiles
      (withDev s₁.bridge pl (developmentRow result)) s₁ s')
    (hextended : Extended env.codec ws pl .development (developmentRow result)
      s₁.store s'.store) :
    ∃ event, RecordedAttempt env ws pl s s' result event := by
  obtain ⟨event, hrecords, hself, -⟩ := hextended
  refine ⟨event, ?_, hrecords, ?_⟩
  · have hdev : s'.bridge.dev = s₁.bridge.dev.set pl (developmentRow result) :=
      congrArg Bridge.dev hkept.core
    rw [hdev, Dict.get?_set_self]
  · rw [hself, hlog.listEvents]

/-- What a stage of development launches and records. -/
theorem Developed.attempt
    (hdeveloped : Developed env ws prj pl principal s outcome s')
    (hnumbered : s.store.Numbered) :
    s'.launches = s.launches ∨
      (∃ planning design, Develops s pl planning design) ∧
        SolutionApproval.mayApprove
          (s.bridge.registry.roleOf prj principal) = true ∧
        s'.launches = s.launches ++ [.develop pl] ∧
        (s'.store.listEvents ws pl = s.store.listEvents ws pl ∨
          (env.codec.Serializes → CanRecord ws prj pl .development s.store) ∧
            ∃ result event, RecordedAttempt env ws pl s s' result event) := by
  cases hdeveloped with
  | skipped row => exact Or.inl rfl
  | denied develops role kept ended => exact Or.inl kept.launches
  | raised develops role answer =>
      exact Or.inr ⟨⟨_, _, develops⟩, role, rfl, Or.inl rfl⟩
  | interrupted develops role frame fault cause =>
      refine Or.inr ⟨⟨_, _, develops⟩, role, frame.launches, Or.inl ?_⟩
      exact frame.log.listEvents ws pl
  | finished develops role answer frame quiet kept ended =>
      have hlog : s.store.SameLog _ := frame.log
      refine Or.inr ⟨⟨_, _, develops⟩, role,
        kept.launches.trans frame.launches, ?_⟩
      rcases kept.logs (hlog.numbered hnumbered) with hsame | ⟨hcan, hextended⟩
      · left
        rw [hsame, hlog.listEvents]
      · right
        obtain ⟨event, hattempt⟩ := RecordedAttempt.of_kept hlog kept hextended
        exact ⟨fun hcodec => (hcan hcodec).sameLog hlog.symm, _, event, hattempt⟩

/-- A development that may start and that can be recorded is recorded. -/
theorem Developed.attempted
    (hdeveloped : Developed env ws prj pl principal s outcome s')
    (hnumbered : s.store.Numbered) (hcodec : env.codec.Serializes)
    (hreturns : ∀ n, ∃ result, env.develops n = .ok result)
    (hdevelops : ∃ planning design, Develops s pl planning design)
    (hrole : SolutionApproval.mayApprove
      (s.bridge.registry.roleOf prj principal) = true)
    (hcan : CanRecord ws prj pl .development s.store)
    (hquiet : s'.faults = s.faults) :
    outcome = .ok () ∧ s'.launches = s.launches ++ [.develop pl] ∧
      ∃ result event, RecordedAttempt env ws pl s s' result event := by
  obtain ⟨planning, design, hdevelops⟩ := hdevelops
  cases hdeveloped with
  | skipped row =>
      rcases row with hrow | hplanned
      · exact absurd hdevelops.absent hrow
      · rw [hdevelops.planned] at hplanned
        cases hplanned
  | denied develops role kept ended =>
      rw [hrole] at role
      cases role
  | @raised _ _ error n develops role answer =>
      obtain ⟨result, hresult⟩ := hreturns n
      rw [hresult] at answer
      cases answer
  | interrupted develops role frame fault cause =>
      exact absurd hquiet fault.ne'
  | finished develops role answer frame quiet kept ended =>
      have hlog : s.store.SameLog _ := frame.log
      have hbefore : s.faults ≤ _ := frame.faults
      have hafter := kept.faults
      have hkept := kept.recorded (hlog.numbered hnumbered) hcodec
        (hcan.sameLog hlog) (by omega)
      obtain ⟨event, hattempt⟩ := RecordedAttempt.of_kept hlog kept hkept
      exact ⟨ended hcodec hcan (by omega), kept.launches.trans frame.launches, _,
        event, hattempt⟩

/-- What a verification launches; it records no development. -/
theorem Verified.attempt (hverified : Verified env ws prj pl s outcome s')
    (hnumbered : s.store.Numbered) :
    recordsOf .development (s'.store.listEvents ws pl) =
        recordsOf .development (s.store.listEvents ws pl) ∧
      (s'.launches = s.launches ∨
        ∃ developed, s.bridge.dev.get? pl = some developed ∧
          s'.launches = s.launches ++
            [.verify pl (developed.getD "candidate_sha" "")]) := by
  have hkept : ∀ {fields : Dict String String} {bridge : Bridge}
      {s₁ : RootState}, s.store.SameLog s₁.store →
      Kept env ws prj pl .verify fields verifyFiles bridge s₁ s' →
      recordsOf .development (s'.store.listEvents ws pl) =
        recordsOf .development (s.store.listEvents ws pl) := by
    intro fields bridge s₁ hlog kept
    rcases kept.logs (hlog.numbered hnumbered) with
      hsame | ⟨-, event, hrecords, hself, -⟩
    · rw [hsame, hlog.listEvents]
    · rw [hself, recordsOf_append, hlog.listEvents,
        hrecords.recordsOf_other (by decide), List.append_nil]
  cases hverified with
  | skipped idle => exact ⟨rfl, Or.inl rfl⟩
  | interrupted verifies frame cause =>
      refine ⟨?_, Or.inr ⟨_, verifies.row, frame.launches⟩⟩
      rw [frame.log.listEvents]
      rfl
  | infra verifies answer kept ended =>
      exact ⟨@hkept _ _ (s.launchedVerify pl _) (.refl _) kept, Or.inr ⟨_, verifies.row, kept.launches⟩⟩
  | finished verifies answer frame quiet kept ended =>
      exact ⟨hkept frame.log kept,
        Or.inr ⟨_, verifies.row, kept.launches.trans frame.launches⟩⟩

end Stages

section Retry

variable {ids : RequestIds} {infra : Bool} {used infraUsed : Int}

/-- The stages of a retry, with the state they start from. -/
theorem Retried.staged (hretried : Retried env ids infra used infraUsed s s')
    (hquiet : s'.faults = s.faults) :
    ∃ s₁ s₂ outcome, Dropped env ids.pipelineId s (.ok ()) s₁ ∧
      Staged env ids.workspaceId ids.projectId ids.pipelineId ids.principalId s₁
        outcome s₂ ∧ s₂.launches = s'.launches ∧ s₂.store = s'.store ∧
      s₂.faults = s.faults ∧ s₁.faults = s.faults := by
  have hfaults : ∀ {s₁ s₂ : RootState} {outcome : Except BridgeError Unit},
      Dropped env ids.pipelineId s (.ok ()) s₁ →
      Staged env ids.workspaceId ids.projectId ids.pipelineId ids.principalId s₁
        outcome s₂ → s₁.faults = s.faults ∧ s₁.faults ≤ s₂.faults := by
    intro s₁ s₂ outcome hdropped hstaged
    have hstages := (@Staged.path env "" ids _ _ _ hstaged).faults
    cases hdropped with
    | dropped rewritten quiet => exact ⟨quiet, hstages⟩
  cases hretried with
  | cut dropped =>
      cases dropped with
      | cut rewritten fault cause => exact absurd hquiet fault.ne'
  | stopped dropped staged =>
      exact ⟨_, _, _, dropped, staged, rfl, rfl, hquiet, (hfaults dropped staged).1⟩
  | counted dropped staged rewritten quiet =>
      obtain ⟨hdrop, hstages⟩ := hfaults dropped staged
      have hcount := rewritten.faults
      exact ⟨_, _, _, dropped, staged, rewritten.launches.symm,
        rewritten.store.symm, by omega, hdrop⟩

end Retry

/-- A retry that passes its checks makes a new attempt exactly when it may
develop. -/
theorem attempts_iff (hcodec : env.codec.Serializes)
    (hloads : env.codec.LoadsFields)
    (hreturns : ∀ n, ∃ result, env.develops n = .ok result)
    (hhealthy : s.store.Healthy) (hnumbered : s.store.Numbered)
    (hmode : s.spawnWorker = false) {commandId : String}
    {payload : List (String × Json)} {ids : RequestIds}
    (hpasses : RetryPasses env payload ids s)
    (hquiet : (s.serve env commandId payload).2.faults = s.faults) :
    NewAttempt env ids s (s.serve env commandId payload).2 ↔
      RetryDevelops env ids s := by
  obtain ⟨infra, used, infraUsed, hretried⟩ :=
    serve_retry commandId hhealthy hmode hpasses
  generalize (s.serve env commandId payload).2 = s' at *
  obtain ⟨s₁, s₂, outcome, hdropped, hstaged, hlaunches, hstore, hquiet₂,
    hquiet₁⟩ := hretried.staged hquiet
  have hstart := develops_dropped_iff hdropped
  have hstore₁ : s₁.store = s.store := hdropped.store
  have hregistry : s₁.bridge.registry = s.bridge.registry := by
    have hcore := congrArg Bridge.registry hdropped.core
    exact hcore.trans (hydrate_registry _ _ _)
  have hlaunches₁ : s₁.launches = s.launches := by
    cases hdropped with
    | dropped rewritten quiet => exact rewritten.launches
  let restored := s₁.hydrated env ids.workspaceId ids.pipelineId
  have hnumbered₁ : restored.store.Numbered := hstore₁ ▸ hnumbered
  have hrole : restored.bridge.registry = s.bridge.registry :=
    (hydrate_registry _ _ _).trans hregistry
  constructor
  · rintro ⟨event, launches, hgrown, hdevelop, hrecords, -⟩
    -- a development was launched and recorded, so it could start and be recorded
    have hcase : ∀ {outcome s₃}, Developed env ids.workspaceId ids.projectId
        ids.pipelineId ids.principalId restored outcome s₃ →
        (s₃.launches = s.launches → ∀ launch ∈ launches,
          launch ≠ .develop ids.pipelineId) →
        (recordsOf .development (s₃.store.listEvents ids.workspaceId
          ids.pipelineId) = recordsOf .development (s'.store.listEvents
            ids.workspaceId ids.pipelineId)) → RetryDevelops env ids s := by
      intro outcome s₃ hdeveloped hidle hlast
      rcases hdeveloped.attempt hnumbered₁ with
        hnone | ⟨hdevelops, hallowed, -, hlog⟩
      · exact absurd rfl (hidle (hnone.trans hlaunches₁) _ hdevelop)
      · obtain ⟨hgate, hplanned⟩ := hstart.mp hdevelops
        rw [hrole] at hallowed
        rcases hlog with hsame | ⟨hcan, -⟩
        · rw [hsame, hrecords] at hlast
          have hlength := congrArg List.length hlast
          simp [restored, hydrated, hstore₁] at hlength
        · exact ⟨hgate, hplanned, hallowed, hstore₁ ▸ hcan hcodec⟩
    cases hstaged with
    | stopped developed =>
        refine hcase developed ?_ (by rw [hstore])
        intro hsame launch hlaunch
        rw [← hlaunches, hsame] at hgrown
        rw [List.self_eq_append_right.mp hgrown] at hlaunch
        cases hlaunch
    | @through _ s₃ _ developed verified =>
        have hnumbered₃ : (s₃.hydrated env ids.workspaceId
            ids.pipelineId).store.Numbered := developed.later.numbered hnumbered₁
        obtain ⟨hsame, hlaunched⟩ := verified.attempt hnumbered₃
        refine hcase developed ?_ (by rw [← hstore, hsame]; rfl)
        intro hnone launch hlaunch
        rw [← hlaunches] at hgrown
        rcases hlaunched with hskipped | ⟨row, -, hverify⟩
        · rw [hskipped] at hgrown
          have hempty := hnone.symm.trans hgrown
          rw [List.self_eq_append_right.mp hempty] at hlaunch
          cases hlaunch
        · rw [hverify] at hgrown
          change s₃.launches ++ _ = _ at hgrown
          rw [hnone, List.append_cancel_left_eq] at hgrown
          rw [← hgrown, List.mem_singleton] at hlaunch
          rw [hlaunch]
          simp
  · intro hdevelops
    have hmay := hstart.mpr ⟨hdevelops.unpassed, hdevelops.planned⟩
    have hallowed := hdevelops.role
    rw [← hrole] at hallowed
    have hcan : CanRecord ids.workspaceId ids.projectId ids.pipelineId
        .development restored.store := by
      rw [show restored.store = s.store from hstore₁]
      exact hdevelops.record
    cases hstaged with
    | stopped developed =>
        obtain ⟨hended, -⟩ := developed.attempted hnumbered₁ hcodec hreturns hmay
          hallowed hcan (hquiet₂.trans hquiet₁.symm)
        cases hended
    | @through _ s₃ _ developed verified =>
        have hfaults := (@Verified.path env "" ids _ _ _ verified).faults
        have hfaults₃ := (@Developed.path env "" ids _ _ _ developed).faults
        have hquiet₃ : s₃.faults = restored.faults := by
          change s₃.faults ≤ s₂.faults at hfaults
          change s₁.faults ≤ s₃.faults at hfaults₃
          change s₃.faults = s₁.faults
          omega
        obtain ⟨-, hlaunched, result, event, hattempt⟩ := developed.attempted
          hnumbered₁ hcodec hreturns hmay hallowed hcan hquiet₃
        have hnumbered₃ : (s₃.hydrated env ids.workspaceId
            ids.pipelineId).store.Numbered := developed.later.numbered hnumbered₁
        obtain ⟨hsame, hverified⟩ := verified.attempt hnumbered₃
        have hrecords : recordsOf .development (s'.store.listEvents
            ids.workspaceId ids.pipelineId) = recordsOf .development
              (s.store.listEvents ids.workspaceId ids.pipelineId) ++ [event] := by
          rw [← hstore, hsame]
          change recordsOf .development (s₃.store.listEvents _ _) = _
          rw [hattempt.log, recordsOf_append, hattempt.records.recordsOf_self,
            show restored.store = s.store from hstore₁]
        have hsha : eventField env.codec event "candidate_sha" =
            some ((developmentRow result).getD "candidate_sha" "") := by
          rw [hattempt.records.eventField_eq hloads (by decide)]
          rfl
        have hrow : (s₃.hydrated env ids.workspaceId ids.pipelineId).bridge.dev.get?
            ids.pipelineId = some (developmentRow result) := by
          rw [hydrated, get?_hydrate_dev, hattempt.row]
          simp
        change s₃.launches = s₁.launches ++ _ at hlaunched
        rw [hlaunches₁] at hlaunched
        rcases hverified with hskipped | ⟨row, hfound, hverify⟩
        · refine ⟨event, [.develop ids.pipelineId], ?_, by simp, hrecords, ?_⟩
          · rw [← hlaunches, hskipped]
            exact hlaunched
          · intro sha hmem
            simp at hmem
        · obtain rfl : row = developmentRow result := by
            rw [hrow] at hfound
            exact (Option.some.inj hfound).symm
          refine ⟨event, [.develop ids.pipelineId, .verify ids.pipelineId
            ((developmentRow result).getD "candidate_sha" "")], ?_, by simp,
            hrecords, ?_⟩
          · rw [← hlaunches, hverify]
            change s₃.launches ++ _ = _
            rw [hlaunched, List.append_assoc]
            rfl
          · intro sha hmem
            simp only [List.mem_cons, Launch.verify.injEq, List.not_mem_nil,
              or_false, reduceCtorEq, false_or] at hmem
            rw [hsha, hmem.2]

/-- In every state that an inline session reaches, a retry that passes its
checks makes a new attempt exactly when the log does not call the candidate
passed, the baseline is planned, the member may approve and the record can be
made. -/
theorem retry_attempts_iff (hcodec : env.codec.Serializes)
    (hloads : env.codec.LoadsFields)
    (hreturns : ∀ n, ∃ result, env.develops n = .ok result)
    {inputs : List RootInput} (hinline : ∀ input ∈ inputs, input.Inline)
    (hs : s = (init false).after env inputs) {commandId : String}
    {payload : List (String × Json)} {ids : RequestIds}
    (hpasses : RetryPasses env payload ids s)
    (hquiet : (s.serve env commandId payload).2.faults = s.faults) :
    NewAttempt env ids s (s.serve env commandId payload).2 ↔
      RetryDevelops env ids s := by
  subst hs
  obtain ⟨hhealthy, hnumbered⟩ := store_after env inputs (healthy_init false)
    (numbered_init false)
  exact attempts_iff hcodec hloads hreturns hhealthy hnumbered
    (spawnWorker_after env hinline) hpasses hquiet

end Attempt

end RootState

namespace RetryAttemptWitness

open RootState SampleSession

/-- A candidate that passes its gate and is sent back by its verification. -/
def passing : DevelopmentResult :=
  ⟨.completed, some "art_impl", some ⟨"sha_a", "app.py"⟩, "", true⟩

def rework : VerifyResult := ⟨.rework, none, none, "tests fail"⟩

def env : RootEnv := sampleEnv passing (some rework)

/-- The requirement is taken in and its baseline approved. -/
def inputs : List RootInput :=
  enrolment ++ [intakeInput] ++ [.request "cmd_2" (approveRequest sampleIds)]

/-- The records after the approval. -/
def records : Records :=
  [(.prd, prdRow samplePlan), (.architecture, archRow sampleDesign)] ++
    [(.approval, approvalRecord sampleIds.principalId),
      (.development, developmentRow passing),
      (.verify, verifyRecord (verdictRow (some rework)) sampleIds.pipelineId
        sampleIds.projectId (verdictSha
          ((developmentRow passing).getD "candidate_sha" "") (some rework)))]

theorem inputs_inline : ∀ input ∈ inputs, input.Inline := by
  intro input hinput
  simp only [inputs, enrolment, intakeInput, List.cons_append, List.nil_append,
    List.mem_cons, List.not_mem_nil, or_false] at hinput
  rcases hinput with rfl | rfl | rfl | rfl <;> trivial

theorem develops_return : ∀ n, ∃ result, env.develops n = .ok result :=
  fun _ => ⟨passing, rfl⟩

theorem env_steady : env.Steady samplePlan sampleDesign passing (some rework) :=
  sampleEnv_steady passing (some rework)

/-- The state in which the verification has sent the candidate back. -/
structure Reworked (s : RootState) : Prop where
  running : s.running = true
  sound : s.bridge.corrupt = false
  inline : s.spawnWorker = false
  registry : s.bridge.registry = sampleRegistry
  rests : Rests env sampleIds.workspaceId sampleIds.pipelineId records
    (some (prdRow samplePlan)) (some (archRow sampleDesign))
    (some (developmentRow passing)) (some (verdictRow (some rework))) s

theorem reworked_after : Reworked ((init false).after env inputs) := by
  obtain ⟨hquiet, hready⟩ := approveReady_sample passing (some rework) false
  have hstarted := started_enrolment passing (some rework) false
  have hrunning := hquiet.running.trans hstarted.running
  have hsound := hquiet.corrupt.trans hstarted.sound
  have hmode := hquiet.spawnWorker.trans hstarted.spawnWorker
  have happroves := @serve_approve env _ hrunning hsound "cmd_2"
    hready.rests.standing.healthy sampleIds
  rw [hmode] at happroves
  obtain ⟨happroved, hrests⟩ := happroves.calm_passing env_steady hready rfl
  rw [inputs, after_request]
  exact
    { running := happroved.running.trans hrunning
      sound := happroved.corrupt.trans hsound
      inline := happroved.spawnWorker.trans hmode
      registry := happroved.registry.trans (hquiet.registry.trans
        (congrArg Bridge.registry hstarted.bridge))
      rests := hrests }

variable {s : RootState}

theorem Reworked.hydrated (hs : Reworked s) :
    RowsAre sampleIds.pipelineId (some (prdRow samplePlan))
      (some (archRow sampleDesign)) (some (developmentRow passing))
      (some (verdictRow (some rework))) (s.hydrated env sampleIds.workspaceId
        sampleIds.pipelineId).bridge :=
  hs.rests.rows.hydrated env_steady.loads hs.rests.standing (by simp) (by simp)
    (by simp) (by simp)

/-- The checks of the retry, on the rows that the verification left. -/
theorem Reworked.passes (hs : Reworked s) :
    RetryPasses env (retryRequest sampleIds) sampleIds s := by
  have hrows := hs.hydrated
  have hregistry : (s.hydrated env sampleIds.workspaceId
      sampleIds.pipelineId).bridge.registry = sampleRegistry := by
    rw [(quiet_hydrated env _ _ s).registry, hs.registry]
  refine ⟨hs.running, hs.sound, rfl, rfl, false, 0, 0, ?_⟩
  simp only [retryVerdict, Dict.getD, hrows.verify, hrows.dev, hregistry,
    Option.getD_some]
  decide +kernel

/-- The retry reaches its end without a failure. -/
theorem Reworked.quiet_retry (hs : Reworked s) :
    (s.serve env "cmd_3" (retryRequest sampleIds)).2.faults = s.faults := by
  obtain ⟨infra, used, infraUsed, hretried⟩ := serve_retry "cmd_3"
    hs.rests.standing.healthy hs.inline hs.passes
  have hrests : Rests env sampleIds.workspaceId sampleIds.pipelineId records
      (some (prdRow samplePlan)) (some (archRow sampleDesign))
      (some (developmentRow passing)) (some (verdictRow (some rework)))
      (s.hydrated env sampleIds.workspaceId sampleIds.pipelineId) :=
    ⟨hs.rests.standing, hs.hydrated⟩
  have hquiet : (s.serve env "cmd_3" (retryRequest sampleIds)).2.faults =
      (s.hydrated env sampleIds.workspaceId sampleIds.pipelineId).faults := by
    refine hretried.calm_passed env_steady recordsFit_sample ?_ hrests ?_ ?_
    · decide
    · decide +kernel
    · decide +kernel
  exact hquiet

theorem retry_attempts_iff_at_rework :
    NewAttempt env sampleIds ((init false).after env inputs)
        (((init false).after env inputs).serve env "cmd_3"
          (retryRequest sampleIds)).2 ↔
      RetryDevelops env sampleIds ((init false).after env inputs) :=
  @retry_attempts_iff env ((init false).after env inputs) env_steady.codec
    env_steady.loads develops_return inputs inputs_inline rfl "cmd_3"
    (retryRequest sampleIds) sampleIds reworked_after.passes
    reworked_after.quiet_retry

theorem Reworked.no_attempt (hs : Reworked s) :
    ¬ NewAttempt env sampleIds s
      (s.serve env "cmd_3" (retryRequest sampleIds)).2 := by
  rw [attempts_iff env_steady.codec env_steady.loads develops_return
    hs.rests.standing.healthy hs.rests.standing.numbered hs.inline hs.passes
    hs.quiet_retry]
  intro hdevelops
  apply hdevelops.unpassed
  rw [hs.rests.standing.fold env_steady.loads (by decide)]
  decide +kernel

theorem Reworked.status (hs : Reworked s) :
    latestField env.codec .verify (s.store.listEvents sampleIds.workspaceId
      sampleIds.pipelineId) "verify_status" = some "REWORK" := by
  rw [hs.rests.standing.latestField_eq env_steady.loads .verify (by decide)]
  decide +kernel

/-- The rejected candidate passed its gate, so the retry does not develop
again. -/
theorem retry_without_attempt :
    (∀ input ∈ inputs, input.Inline) ∧
      RetryPasses env (retryRequest sampleIds) sampleIds
        ((init false).after env inputs) ∧
      latestField env.codec .verify (((init false).after env
        inputs).store.listEvents sampleIds.workspaceId sampleIds.pipelineId)
          "verify_status" = some "REWORK" ∧
      ¬ NewAttempt env sampleIds ((init false).after env inputs)
        (((init false).after env inputs).serve env "cmd_3"
          (retryRequest sampleIds)).2 :=
  ⟨inputs_inline, reworked_after.passes, reworked_after.status,
    reworked_after.no_attempt⟩

end RetryAttemptWitness

end HermesPipeline
