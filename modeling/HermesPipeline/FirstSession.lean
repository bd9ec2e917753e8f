/-
The first session of a state root.  Projects and members are enrolled, one
requirement is taken in, and as long as nothing outside fails its baseline then
waits for an approval with a free lease.
-/
import HermesPipeline.CalmRuns
import HermesPipeline.StageSchedule

namespace HermesPipeline

open Lib KernelController KernelBridge

section Requests

/-- The members of a request that name its pipeline. -/
def idMembers (ids : RequestIds) : List (String × Json) :=
  [("pipeline_id", .str ids.pipelineId), ("project_id", .str ids.projectId),
    ("principal_id", .str ids.principalId),
    ("workspace_id", .str ids.workspaceId)]

def registerRequest (prj : String) : List (String × Json) :=
  [("op", .str "register"), ("project_id", .str prj)]

def admitRequest (prj principal : String) (role : ProjectRole) :
    List (String × Json) :=
  [("op", .str "admit"), ("project_id", .str prj),
    ("principal_id", .str principal), ("role", .str role.value)]

def intakeRequest (text : String) (ids : RequestIds) : List (String × Json) :=
  ("text", .str text) :: idMembers ids

def approveRequest (ids : RequestIds) : List (String × Json) :=
  ("op", .str "approve") :: idMembers ids

def retryRequest (ids : RequestIds) : List (String × Json) :=
  ("op", .str "retry") :: idMembers ids

variable (env : BridgeCodec) (text : String) (ids : RequestIds)

@[simp] theorem requestKind_intake :
    requestKind (intakeRequest text ids) = .intake text := rfl

@[simp] theorem requestKind_approve :
    requestKind (approveRequest ids) = .approve := rfl

@[simp] theorem requestKind_retry :
    requestKind (retryRequest ids) = .retry := rfl

@[simp] theorem requestIds_intake :
    requestIds env (intakeRequest text ids) = ids := rfl

@[simp] theorem requestIds_approve :
    requestIds env (approveRequest ids) = ids := rfl

@[simp] theorem requestIds_retry :
    requestIds env (retryRequest ids) = ids := rfl

end Requests

namespace RootState

open Descriptor

variable {env : RootEnv} {plan : PrdResult} {design : ArchitectureResult}
  {develop : DevelopmentResult} {verdict : Option VerifyResult}
  {s : RootState} {registry : ProjectRegistry} {spawnWorker : Bool}

/-- A session that goes on with one more request. -/
theorem after_request (env : RootEnv) (s : RootState) (inputs : List RootInput)
    (commandId : String) (payload : List (String × Json)) :
    s.after env (inputs ++ [.request commandId payload]) =
      ((s.after env inputs).serve env commandId payload).2 :=
  exec_concat (step env) s inputs (.request commandId payload)

section Serve

variable (hrunning : s.running = true) (hsound : s.bridge.corrupt = false)
  (commandId : String)

include hrunning hsound

/-- A running bridge serves a request by its kind. -/
theorem serve_process (payload : List (String × Json)) {kind : RequestKind}
    (hkind : requestKind payload = kind) :
    s.serve env commandId payload =
      (match kind with
        | .register => lift (registerProject env.toBridgeCodec payload)
        | .admission => lift (admitMember env.toBridgeCodec payload)
        | .bind => bindRole env.toBridgeCodec payload
        | .bindings => listBindings
        | .runtimes => listRuntimes
        | .github => setGithub env.toBridgeCodec payload
        | .deliver => lift (deliver env.toBridgeCodec payload)
        | .read => readPipeline env.toBridgeCodec payload
        | .intake text => intake env.toBridgeCodec commandId text payload
        | .approve =>
            lift (approveBaseline env.toBridgeCodec s.spawnWorker payload)
        | .retry => lift (retryVerify env.toBridgeCodec s.spawnWorker payload)
        | .other => request (.inner commandId payload)).run (handle env) s := by
  subst hkind
  rw [serve, if_pos hrunning]
  simp only [process, Program.bind_eq]
  rw [Program.run_bind_of_ok (run_memory_lift s)]
  cases requestKind payload <;>
    simp only [hsound, Bool.false_eq_true, ↓reduceIte]

theorem serve_intake (hhealthy : s.store.Healthy) (text : String)
    (ids : RequestIds) :
    Intakes env commandId text ids s
      (s.serve env commandId (intakeRequest text ids)).2 := by
  rw [serve_process hrunning hsound commandId _ (requestKind_intake text ids)]
  have hintakes := run_intake env hhealthy commandId text (intakeRequest text ids)
  rw [requestIds_intake] at hintakes
  exact hintakes

theorem serve_approve (hhealthy : s.store.Healthy) (ids : RequestIds) :
    Approves env s.spawnWorker ids s
      (s.serve env commandId (approveRequest ids)).2 := by
  rw [serve_process hrunning hsound commandId _ (requestKind_approve ids)]
  have happroves := run_approveBaseline env hhealthy s.spawnWorker
    (approveRequest ids)
  rw [requestIds_approve] at happroves
  rw [run_lift]
  exact happroves

end Serve

/-- A state root with these members and nothing else, and its bridge. -/
structure Started (spawnWorker : Bool) (registry : ProjectRegistry)
    (s : RootState) : Prop where
  store : s.store = .init
  bridge : s.bridge = withRegistry emptyBridge registry
  running : s.running = true
  spawnWorker : s.spawnWorker = spawnWorker
  faults : s.faults = 0
  launches : s.launches = []
  projects : s.files.get? "projects.json" =
      some (some (dumpRegistry registry)) ∨ s.files.get? "projects.json" = none
  files : ∀ file, file ≠ "projects.json" → s.files.get? file = none

theorem started_init (spawnWorker : Bool) :
    Started spawnWorker .empty (init spawnWorker) :=
  ⟨rfl, rfl, rfl, rfl, rfl, rfl, Or.inr rfl, fun _ _ => rfl⟩

/-- The state in which another registry has been kept. -/
def enrolled (s : RootState) (registry : ProjectRegistry) : RootState :=
  { s.ticked with
    bridge := withRegistry s.bridge registry
    files := s.files.set "projects.json" (some (dumpRegistry registry)) }

theorem Started.enrolled (hstarted : Started spawnWorker registry s)
    (registry' : ProjectRegistry) :
    Started spawnWorker registry' (s.enrolled registry') where
  store := hstarted.store
  bridge := by rw [RootState.enrolled, hstarted.bridge]; rfl
  running := hstarted.running
  spawnWorker := hstarted.spawnWorker
  faults := hstarted.faults
  launches := hstarted.launches
  projects := Or.inl (Dict.get?_set_self _ _ _)
  files := by
    intro file hfile
    exact (Dict.get?_set_of_ne _ _ hfile).trans (hstarted.files file hfile)

theorem Started.sound (hstarted : Started spawnWorker registry s) :
    s.bridge.corrupt = false := by
  rw [hstarted.bridge]
  rfl

/-- The registry is kept and its file is written. -/
theorem run_writeRegistry (hsteady : env.Steady plan design develop verdict)
    (registry : ProjectRegistry) (s : RootState) :
    (perform (.write "projects.json")).run (handleBridge env)
        { s with bridge := withRegistry s.bridge registry } =
      (.ok (), s.enrolled registry) := by
  rw [perform, Program.run_perform]
  simp only [handleBridge, hsteady.writes]
  rfl

theorem Started.register (hsteady : env.Steady plan design develop verdict)
    (hstarted : Started spawnWorker registry s) (commandId prj : String) :
    Started spawnWorker (registry.register prj "")
      (s.serve env commandId (registerRequest prj)).2 := by
  have hregistry : s.bridge.registry = registry := by rw [hstarted.bridge]; rfl
  have hserved : (s.serve env commandId (registerRequest prj)).2 =
      s.enrolled (registry.register prj "") := by
    rw [serve_process hstarted.running hstarted.sound commandId _
      (show requestKind (registerRequest prj) = .register from rfl)]
    dsimp only
    rw [run_lift]
    simp only [registerProject, Program.bind_eq, run_modify_bind]
    have hwrite := run_writeRegistry hsteady (registry.register prj "") s
    rw [← hregistry] at hwrite ⊢
    exact congrArg Prod.snd (Program.run_bind_of_ok hwrite)
  rw [hserved]
  exact hstarted.enrolled _

theorem Started.enrol (hsteady : env.Steady plan design develop verdict)
    (hstarted : Started spawnWorker registry s) (commandId : String)
    {prj principal : String} {role : ProjectRole} {registry' : ProjectRegistry}
    (hadmitted : registry.admitMember prj principal role = some registry') :
    Started spawnWorker registry'
      (s.serve env commandId (admitRequest prj principal role)).2 := by
  have hregistry : s.bridge.registry = registry := by rw [hstarted.bridge]; rfl
  have hserved : (s.serve env commandId (admitRequest prj principal role)).2 =
      s.enrolled registry' := by
    rw [serve_process hstarted.running hstarted.sound commandId _
      (show requestKind (admitRequest prj principal role) = .admission from rfl)]
    dsimp only
    rw [run_lift]
    simp only [KernelBridge.admitMember, Program.bind_eq]
    rw [run_memory_bind]
    have hrole : ProjectRole.ofValue? (payloadText env.toBridgeCodec
        (admitRequest prj principal role) "role" "") = some role :=
      ProjectRole.ofValue?_value role
    have hmember : s.bridge.registry.admitMember
        (payloadText env.toBridgeCodec (admitRequest prj principal role)
          "project_id" "")
        (payloadText env.toBridgeCodec (admitRequest prj principal role)
          "principal_id" "") role = some registry' := by
      rw [hregistry]
      exact hadmitted
    rw [hrole]
    dsimp only
    rw [hmember]
    dsimp only
    rw [run_assign_bind]
    exact congrArg Prod.snd (Program.run_bind_of_ok
      (run_writeRegistry hsteady registry' s))
  rw [hserved]
  exact hstarted.enrolled _

section Leases

/-- The effects that leave the lease table alone. -/
def KeepsLeases : RootOp → Prop
  | .bridge (.store op) => op.KeepsLeases
  | _ => True

theorem keepsLeases_handle (env : RootEnv) {op : RootOp} (s : RootState)
    (hop : KeepsLeases op) : (handle env op s).2.store.leases = s.store.leases := by
  cases op with
  | bridge op =>
      cases op with
      | store op =>
          have hleases := s.store.leases_handle env.codec hop
          simp only [handle, handleBridge]
          cases (SqliteKernelStore.handle env.codec op s.store).1 <;>
            exact hleases
      | construct =>
          simp only [handle, handleBridge]
          split <;> rfl
      | write file =>
          simp only [handle, handleBridge]
          split <;> rfl
      | spawn args =>
          simp only [handle, handleBridge]
          split <;> rfl
      | memory | assign | time | develop | verify | publish | receive
      | startHeartbeat | stopHeartbeat | waitHeartbeat | enterStages
      | leaveStages => rfl
  | writeSettings file =>
      simp only [handle]
      split <;> rfl
  | settings | assignSettings | loadSettings | plan | design | runtimes
  | inner => rfl

theorem leases_run {α : Type} {p : RootProgram α} (hp : p.Calls KeepsLeases)
    (s : RootState) : (p.run (handle env) s).2.store.leases = s.store.leases := by
  refine hp.run_preserves
    (P := fun s' : RootState => s'.store.leases = s.store.leases) ?_ rfl
  intro op s' hop hsame
  rw [keepsLeases_handle env s' hop, hsame]

theorem calls_lift {α : Type} {p : BridgeProgram α} {allowed : RootOp → Prop}
    (hp : p.Calls fun op => allowed (.bridge op)) : (lift p).Calls allowed := by
  induction p with
  | done value => trivial
  | raise error => trivial
  | call op next ih => exact ⟨hp.1, fun answer => ih answer (hp.2 answer)⟩

/-- The stages of a bridge take no lease. -/
theorem keepsLeases_of_works {α : Type} {p : BridgeProgram α}
    (hp : p.Calls (BridgeOp.Works fun _ => True)) :
    (lift p).Calls KeepsLeases := by
  refine calls_lift (hp.mono ?_)
  intro op hop
  cases op with
  | store op => cases op <;> trivial
  | _ => trivial

theorem keepsLeases_request (op : RootOp) (hop : KeepsLeases op) :
    (request op).Calls KeepsLeases :=
  ⟨hop, fun answer => Program.calls_ofExcept answer⟩

variable (codec : BridgeCodec) (ws prj pl : String)

theorem keepsLeases_recordStation (station : Station)
    (fields : Dict String String) :
    (recordStation codec ws prj pl station fields).Calls
      (BridgeOp.Works fun _ => True) :=
  works_recordStation codec (fun _ _ => trivial) prj station fields

theorem keepsLeases_advancePrd :
    (advancePrd codec pl ws prj).Calls KeepsLeases := by
  refine (keepsLeases_of_works (works_hydrateFromEvents codec ws pl)).bind
    fun _ => ?_
  refine (calls_lift (calls_effect trivial)).bind fun bridge => ?_
  refine Program.Calls.ite trivial ?_
  refine (keepsLeases_request .settings trivial).bind fun settings => ?_
  refine (keepsLeases_request (.plan _ _) trivial).bind fun result => ?_
  refine keepsLeases_of_works ?_
  refine (works_modify _).bind fun _ => ?_
  refine (works_write _).bind fun _ => ?_
  exact keepsLeases_recordStation codec ws prj pl _ _

theorem keepsLeases_advanceArchitecture :
    (advanceArchitecture codec pl ws prj).Calls KeepsLeases := by
  refine (keepsLeases_of_works (works_hydrateFromEvents codec ws pl)).bind
    fun _ => ?_
  refine (calls_lift (calls_effect trivial)).bind fun bridge => ?_
  refine Program.Calls.ite trivial ?_
  cases plannedPrd bridge pl with
  | none => trivial
  | some planning =>
      refine (keepsLeases_request (.design _ _) trivial).bind fun result => ?_
      refine Program.Calls.bind (keepsLeases_of_works ?_) fun _ => ?_
      · refine (works_modify _).bind fun _ => ?_
        refine (works_write _).bind fun _ => ?_
        exact keepsLeases_recordStation codec ws prj pl _ _
      · refine Program.Calls.ite (keepsLeases_of_works ?_) trivial
        refine (calls_effect trivial).bind fun bridge => ?_
        refine Program.Calls.ite trivial ?_
        refine (calls_effect trivial).bind fun _ => ?_
        exact works_saveWithStages _

theorem keepsLeases_intake (commandId text : String)
    (payload : List (String × Json)) :
    (intake codec commandId text payload).Calls KeepsLeases := by
  refine Program.Calls.bind (keepsLeases_of_works ?_) fun receipt => ?_
  · refine (calls_effect trivial).bind fun bridge => ?_
    refine Program.Calls.ite trivial ?_
    split
    · trivial
    · trivial
    · split
      · trivial
      · next command _ =>
          exact calls_kernel ((controller codec.codec).calls_submit command trivial
            trivial fun _ _ _ _ => trivial)
  · refine Program.Calls.ite ?_ trivial
    refine Program.Calls.bind ?_ fun _ => ?_
    · refine (keepsLeases_request .settings trivial).bind fun settings => ?_
      refine (keepsLeases_request (.assignSettings _) trivial).bind fun _ => ?_
      exact keepsLeases_request (.writeSettings _) trivial
    · refine (keepsLeases_advancePrd codec _ _ _).bind fun _ => ?_
      refine (keepsLeases_advanceArchitecture codec _ _ _).bind fun _ => ?_
      trivial

end Leases

section Baseline

theorem sole_init (ws : String) : Sole ws .init where
  healthy := ⟨rfl, rfl⟩
  numbered := numbered_init false
  tidy := tidy_init
  events := by
    intro event hevent
    cases hevent
  outbox := by
    intro key hkey
    cases hkey

variable {commandId text : String} {ids approval : RequestIds}

/-- A fresh state root is ready for the requirement of a contributor. -/
theorem Started.ready (hstarted : Started spawnWorker registry s)
    (hrole : SolutionApproval.mayApprove
      (registry.roleOf ids.projectId ids.principalId) = true)
    (htext : pyStrip text ≠ "") (hfits : IntakeFits commandId ids)
    (hrecords : RecordsFit ids.workspaceId ids.projectId ids.pipelineId)
    (hclient : ¬ Reserved commandId) :
    IntakeReady commandId text ids s where
  sole := by rw [hstarted.store]; exact sole_init _
  role := by rw [hstarted.bridge]; exact hrole
  text := htext
  fits := hfits
  records := hrecords
  client := hclient
  absent := by rw [hstarted.store]; rfl
  fresh := by rw [hstarted.store]; rfl
  rows := by rw [hstarted.bridge]; exact ⟨rfl, rfl, rfl, rfl⟩

theorem planned_of_passes {bridge : Bridge} {pl : String}
    (hplan : plan.completed = true ∧ plan.gatePasses = true)
    (hdesign : design.gatePasses = true)
    (hprd : bridge.prd.get? pl = some (prdRow plan))
    (harch : bridge.arch.get? pl = some (archRow design)) :
    planned bridge pl ≠ none := by
  have hgate : (prdRow plan).get? "prd_gate" = some "PASS" := by
    simp [prdRow, hplan.1, hplan.2]
    rfl
  have hgate' : (archRow design).get? "arch_gate" = some "PASS" := by
    simp [archRow, hdesign]
    rfl
  rw [planned, hprd, harch]
  simp [hgate, hgate']

/-- After the intake of a first requirement its baseline can be approved. -/
theorem Started.intake (hsteady : env.Steady plan design develop verdict)
    (hplan : plan.completed = true ∧ plan.gatePasses = true)
    (hdesign : design.gatePasses = true)
    (hstarted : Started spawnWorker registry s)
    (hready : IntakeReady commandId text ids s)
    (hpipeline : approval.pipelineId = ids.pipelineId)
    (hworkspace : approval.workspaceId = ids.workspaceId)
    (hrole : SolutionApproval.mayApprove
      (registry.roleOf approval.projectId approval.principalId) = true)
    (hfits : RecordsFit approval.workspaceId approval.projectId
      approval.pipelineId) :
    Quiet s (s.serve env commandId (intakeRequest text ids)).2 ∧
      ApproveReady env approval
        [(.prd, prdRow plan), (.architecture, archRow design)] (prdRow plan)
        (archRow design) none none
        (s.serve env commandId (intakeRequest text ids)).2 := by
  have hsole : s.store.Healthy := by rw [hstarted.store]; exact ⟨rfl, rfl⟩
  obtain ⟨hquiet, hrests⟩ := (serve_intake hstarted.running hstarted.sound
    commandId hsole text ids).calm hsteady hplan hready
  have hleases : (s.serve env commandId (intakeRequest text ids)).2.store.leases =
      .empty := by
    rw [serve_process hstarted.running hstarted.sound commandId _
      (requestKind_intake text ids)]
    dsimp only
    rw [leases_run (keepsLeases_intake _ _ _ _), hstarted.store]
    rfl
  refine ⟨hquiet, ?_⟩
  rw [← hpipeline, ← hworkspace] at hrests
  exact
    { rests := hrests
      planned := planned_of_passes hplan hdesign hrests.rows.prd hrests.rows.arch
      role := by
        rw [hquiet.registry, hstarted.bridge]
        exact hrole
      free := by
        rw [SqliteKernelStore.loadLease, hleases]
        split <;> rfl
      fits := hfits
      few := by simp
      dev := fun _ => Option.some_ne_none _ |>.symm
      verify := fun _ => Option.some_ne_none _ |>.symm }

end Baseline

end RootState

/-- A record id has three separators. -/
theorem not_reserved_of_count {commandId : String}
    (hcount : commandId.toList.count '_' ≤ 2) : ¬ Reserved commandId := by
  rintro ⟨pl, station, n, rfl⟩
  have hstart : "cmd_".toList.count '_' = 1 := by decide
  have hseparator : "_".toList.count '_' = 1 := by decide
  simp only [recordId, String.toList_append, List.count_append, hstart,
    hseparator] at hcount
  omega

namespace SampleSession

open ReferenceCodec RootState

/-- A PRD and an architecture that pass their gates. -/
def samplePlan : PrdResult := ⟨true, some "art_prd", true⟩

def sampleDesign : ArchitectureResult :=
  ⟨.completed, some "art_design", some "art_testplan", true⟩

/-- Nothing fails, and the stages always answer the same. -/
def sampleEnv (develop : DevelopmentResult) (verdict : Option VerifyResult) :
    RootEnv where
  codec := sampleJcs
  dumps := Json.toText
  clock := fun _ => 0
  writes := fun _ => .ok ()
  plans := fun _ => .ok samplePlan
  designs := fun _ => .ok sampleDesign
  develops := fun _ => .ok develop
  verifies := fun _ => verdict
  publishes := fun _ => .ok none
  spawns := fun _ => .ok ()
  runtimes := []
  inner := fun _ _ => .null

/-- `sampleEnv` with its texts as bytes. -/
def byteEnv (develop : DevelopmentResult) (verdict : Option VerifyResult) : RootEnv :=
  { sampleEnv develop verdict with codec := byteCodec.asJcs }

theorem sampleEnv_eq (develop : DevelopmentResult) (verdict : Option VerifyResult) :
    sampleEnv develop verdict = byteEnv develop verdict := by
  rw [byteEnv, byteCodec_asJcs]
  rfl

def sampleIds : RequestIds := ⟨"pl_a", "prj_a", "alice", "ws_a"⟩

def sampleRegistry : ProjectRegistry :=
  ⟨Dict.set .empty "prj_a" "", Dict.set .empty ("prj_a", "alice") .admin⟩

def enrolment : List RootInput :=
  [.request "cmd_r" (registerRequest "prj_a"),
    .request "cmd_m" (admitRequest "prj_a" "alice" .admin)]

def intakeInput : RootInput :=
  .request "cmd_1" (intakeRequest "Build the exporter" sampleIds)

variable (develop : DevelopmentResult) (verdict : Option VerifyResult)
  (spawnWorker : Bool)

theorem sampleJcs_serializes : sampleJcs.Serializes :=
  Codec.serializes_asJcs sampleCodec_hashesCommands.total (writesTexts sampleDigest)

theorem sampleEnv_steady :
    (sampleEnv develop verdict).Steady samplePlan sampleDesign develop verdict where
  codec := sampleJcs_serializes
  loads := (loadsFields sampleDigest).asJcs
  clock := fun _ => rfl
  writes := fun _ => rfl
  plans := fun _ => rfl
  designs := fun _ => rfl
  develops := fun _ => rfl
  verifies := fun _ => rfl
  publishes := fun _ => ⟨none, rfl⟩
  spawns := fun _ => rfl

theorem recordsFit_sample : RecordsFit sampleIds.workspaceId
    sampleIds.projectId sampleIds.pipelineId := by
  intro station
  cases station <;> decide +kernel

theorem started_enrolment :
    Started spawnWorker sampleRegistry
      ((init spawnWorker).after (sampleEnv develop verdict) enrolment) := by
  have hsteady := sampleEnv_steady develop verdict
  have hregistered := (started_init spawnWorker).register hsteady "cmd_r" "prj_a"
  exact hregistered.enrol hsteady "cmd_m" rfl

theorem intakeReady_sample {s : RootState}
    (hstarted : Started spawnWorker sampleRegistry s) :
    IntakeReady "cmd_1" "Build the exporter" sampleIds s :=
  hstarted.ready (by decide) (by decide) (by decide +kernel) recordsFit_sample
    (not_reserved_of_count (by decide))

/-- After the enrolment and the intake the baseline can be approved. -/
theorem approveReady_sample :
    let s := (init spawnWorker).after (sampleEnv develop verdict)
      (enrolment ++ [intakeInput])
    Quiet ((init spawnWorker).after (sampleEnv develop verdict) enrolment) s ∧
      ApproveReady (sampleEnv develop verdict) sampleIds
        [(.prd, prdRow samplePlan), (.architecture, archRow sampleDesign)]
        (prdRow samplePlan) (archRow sampleDesign) none none s := by
  have hstarted := started_enrolment develop verdict spawnWorker
  dsimp only
  rw [intakeInput, after_request]
  exact hstarted.intake (sampleEnv_steady develop verdict) ⟨rfl, rfl⟩ rfl
    (intakeReady_sample spawnWorker hstarted) rfl rfl (by decide)
    recordsFit_sample

end SampleSession

end HermesPipeline
