/-
The elementary moves of a bridge.  Every request is a path of moves: it frames
the stations, restores rows from the log, keeps a row, or rewrites rows and
their files.  What each move preserves, every request and every session
preserves.
-/
import Mathlib.Logic.Relation
import HermesPipeline.IntakeRuns

namespace HermesPipeline

open Lib KernelController KernelBridge

/-- The part of a request that a move belongs to: up to an approval, the later
stages, or the rows that a retry drops. -/
inductive Phase
  | planning | stages | retry
deriving DecidableEq

namespace RootState

/-- One move of a request. -/
inductive Move (env : RootEnv) (commandId : String) (ids : RequestIds) :
    Phase → RootState → RootState → Prop
  | framed {phase : Phase} {s s' : RootState} (frame : Frame s s') :
      Move env commandId ids phase s s'
  | launched {phase : Phase} (s : RootState) (launch : Launch) :
      Move env commandId ids phase s (s.launched launch)
  | restored {phase : Phase} (s : RootState) :
      Move env commandId ids phase s
        (s.hydrated env ids.workspaceId ids.pipelineId)
  | enrolled {registry : ProjectRegistry} {s s' : RootState}
      (rewritten : Rewritten ["projects.json"] (withRegistry s.bridge registry)
        s s') :
      Move env commandId ids .planning s s'
  | confirmed {s : RootState} {event : EventWrite} {store : SqliteKernelStore}
      (k : Nat)
      (grows : Grows ids.workspaceId ids.pipelineId commandId event s.store store)
      (type : event.eventType = "REQUIREMENT_CONFIRMED") :
      Move env commandId ids .planning s
        { s with store := store, faults := s.faults + k }
  | planned {result : PrdResult} {s s' : RootState}
      (absent : s.bridge.prd.get? ids.pipelineId = none)
      (kept : Kept env ids.workspaceId ids.projectId ids.pipelineId .prd
        (prdRow result) ["prd.json"]
        (withPrd s.bridge ids.pipelineId (prdRow result)) s s') :
      Move env commandId ids .planning s s'
  | designed {planning : Dict String String} {result : ArchitectureResult}
      {s s' : RootState} (absent : s.bridge.arch.get? ids.pipelineId = none)
      (planned : plannedPrd s.bridge ids.pipelineId = some planning)
      (kept : Kept env ids.workspaceId ids.projectId ids.pipelineId .architecture
        (archRow result) ["architecture.json"]
        (withArch s.bridge ids.pipelineId (archRow result)) s s') :
      Move env commandId ids .planning s s'
  | pended {s s' : RootState}
      (absent : s.bridge.approvals.get? ids.pipelineId = none)
      (rewritten : Rewritten approvalFiles (withApproval s.bridge ids.pipelineId
        (pendingRow ids.projectId)) s s') :
      Move env commandId ids .planning s s'
  | committed {planning design : Dict String String} {s s' : RootState}
      (prd : s.bridge.prd.get? ids.pipelineId = some planning)
      (arch : s.bridge.arch.get? ids.pipelineId = some design)
      (role : SolutionApproval.mayApprove
        (s.bridge.registry.roleOf ids.projectId ids.principalId) = true)
      (kept : Kept env ids.workspaceId ids.projectId ids.pipelineId .approval
        (approvalRecord ids.principalId) approvalFiles
        (committedBridge s.bridge ids.pipelineId ids.projectId ids.principalId
          planning design) s s') :
      Move env commandId ids .planning s s'
  | approved {planning design : Dict String String} {s : RootState}
      (develops : Develops s ids.pipelineId planning design)
      (role : SolutionApproval.mayApprove
        (s.bridge.registry.roleOf ids.projectId ids.principalId) = true) :
      Move env commandId ids .stages s
        (s.approved ids.pipelineId ids.principalId planning design)
  | denied {planning design : Dict String String} {s s' : RootState}
      (develops : Develops s ids.pipelineId planning design)
      (kept : Kept env ids.workspaceId ids.projectId ids.pipelineId .development
        deniedRow devFiles (withDev s.bridge ids.pipelineId deniedRow) s s') :
      Move env commandId ids .stages s s'
  | developed {planning design : Dict String String}
      {result : DevelopmentResult} {s s' : RootState}
      (develops : Develops s ids.pipelineId planning design)
      (kept : Kept env ids.workspaceId ids.projectId ids.pipelineId .development
        (developmentRow result) devFiles
        (withDev s.bridge ids.pipelineId (developmentRow result)) s s') :
      Move env commandId ids .stages s s'
  | infra {developed : Dict String String} {s s' : RootState}
      (verifies : Verifies s ids.pipelineId developed)
      (kept : Kept env ids.workspaceId ids.projectId ids.pipelineId .verify
        (verifyRecord infraRow ids.pipelineId ids.projectId "") verifyFiles
        (withVerify s.bridge ids.pipelineId infraRow) s s') :
      Move env commandId ids .stages s s'
  | verified {developed : Dict String String} {result : VerifyResult}
      {s s' : RootState} (verifies : Verifies s ids.pipelineId developed)
      (kept : Kept env ids.workspaceId ids.projectId ids.pipelineId .verify
        (verifyRecord (verifiedRow result) ids.pipelineId ids.projectId
          (developed.getD "candidate_sha" "")) verifyFiles
        (withVerify s.bridge ids.pipelineId (verifiedRow result)) s s') :
      Move env commandId ids .stages s s'
  | dropped {s s' : RootState}
      (rewritten : Rewritten devFiles
        { s.bridge with dev := s.bridge.dev.pop ids.pipelineId } s s') :
      Move env commandId ids .retry s s'
  | forgotten (s : RootState) :
      Move env commandId ids .retry s { s with
        bridge := { s.bridge with verify := s.bridge.verify.pop ids.pipelineId } }
  | counted {infra : Bool} {used infraUsed : Int} {s s' : RootState}
      (rewritten : Rewritten (countedFiles s.bridge ids.pipelineId)
        (countedBridge s.bridge ids.pipelineId infra used infraUsed) s s') :
      Move env commandId ids .retry s s'

/-- Moves of one phase, one after the other. -/
def Path (env : RootEnv) (commandId : String) (ids : RequestIds)
    (phase : Phase) : RootState → RootState → Prop :=
  Relation.ReflTransGen (Move env commandId ids phase)

section Paths

variable {env : RootEnv} {commandId : String} {ids : RequestIds}
  {phase : Phase} {s s₁ s' : RootState}

/-- What every move keeps, a path keeps. -/
theorem Path.keeps {P : RootState → Prop}
    (hkeeps : ∀ s s', Move env commandId ids phase s s' → P s → P s')
    (hpath : Path env commandId ids phase s s') (hs : P s) : P s' := by
  induction hpath with
  | refl => exact hs
  | tail _ hmove ih => exact hkeeps _ _ hmove ih

theorem Path.refl (s : RootState) : Path env commandId ids phase s s :=
  Relation.ReflTransGen.refl

theorem Path.trans (hfirst : Path env commandId ids phase s s₁)
    (hsecond : Path env commandId ids phase s₁ s') :
    Path env commandId ids phase s s' :=
  Relation.ReflTransGen.trans hfirst hsecond

theorem Path.of_move (hmove : Move env commandId ids phase s s') :
    Path env commandId ids phase s s' :=
  Relation.ReflTransGen.single hmove

theorem Path.of_frame (hframe : Frame s s') :
    Path env commandId ids phase s s' :=
  .of_move (.framed hframe)

theorem Path.restored (s : RootState) : Path env commandId ids phase s
    (s.hydrated env ids.workspaceId ids.pipelineId) :=
  .of_move (.restored s)

/-- A stage is run, and then something is done. -/
theorem Path.launch {launch : Launch} (hpath : Path env commandId ids phase
    (s.launched launch) s') : Path env commandId ids phase s s' :=
  (Path.of_move (.launched s launch)).trans hpath

theorem Develops.of_rows {pl : String} {planning design : Dict String String}
    (hdevelops : Develops s pl planning design) (hprd : s'.bridge.prd = s.bridge.prd)
    (harch : s'.bridge.arch = s.bridge.arch) (hdev : s'.bridge.dev = s.bridge.dev) :
    Develops s' pl planning design := by
  constructor
  · rw [hdev]
    exact hdevelops.absent
  · rw [← hdevelops.planned, KernelBridge.planned, KernelBridge.planned, hprd,
      harch]

theorem Verifies.of_rows {pl : String} {developed : Dict String String}
    (hverifies : Verifies s pl developed) (hdev : s'.bridge.dev = s.bridge.dev)
    (hverify : s'.bridge.verify = s.bridge.verify) :
    Verifies s' pl developed where
  absent := by
    rw [hverify]
    exact hverifies.absent
  row := by
    rw [hdev]
    exact hverifies.row
  gate := hverifies.gate

/-- The development stage begins with the approval. -/
theorem Path.launchDevelop {planning design : Dict String String}
    (hdevelops : Develops s ids.pipelineId planning design)
    (hrole : SolutionApproval.mayApprove
      (s.bridge.registry.roleOf ids.projectId ids.principalId) = true) :
    Path env commandId ids .stages s
      (s.launchedDevelop ids.pipelineId ids.principalId planning design) :=
  (Path.of_move (.approved hdevelops hrole)).trans (.of_move (.launched _ _))

theorem Developed.path {outcome : Except BridgeError Unit}
    (hdeveloped : Developed env ids.workspaceId ids.projectId ids.pipelineId
      ids.principalId s outcome s') : Path env commandId ids .stages s s' := by
  cases hdeveloped with
  | skipped row => exact .refl _
  | denied develops role kept ended => exact .of_move (.denied develops kept)
  | raised develops role answer => exact .launchDevelop develops role
  | interrupted develops role frame fault cause =>
      exact (Path.launchDevelop develops role).trans (.of_frame frame)
  | finished develops role answer frame quiet kept ended =>
      have hdevelops := develops.of_rows frame.prd frame.arch frame.dev
      exact (Path.launchDevelop develops role).trans
        ((Path.of_frame frame).trans (.of_move (.developed hdevelops kept)))

theorem Verified.path {outcome : Except BridgeError Unit}
    (hverified : Verified env ids.workspaceId ids.projectId ids.pipelineId s
      outcome s') : Path env commandId ids .stages s s' := by
  cases hverified with
  | skipped idle => exact .refl _
  | interrupted verifies frame cause =>
      exact .launch (.of_frame frame)
  | @infra developed n _ _ verifies answer kept ended =>
      have hverifies : Verifies (s.launchedVerify ids.pipelineId developed)
        ids.pipelineId developed := verifies.of_rows rfl rfl
      exact .launch (.of_move (.infra hverifies kept))
  | finished verifies answer frame quiet kept ended =>
      have hverifies := verifies.of_rows frame.dev frame.verify
      exact .launch ((Path.of_frame frame).trans
        (.of_move (.verified hverifies kept)))

theorem Staged.path {outcome : Except BridgeError Unit}
    (hstaged : Staged env ids.workspaceId ids.projectId ids.pipelineId
      ids.principalId s outcome s') : Path env commandId ids .stages s s' := by
  cases hstaged with
  | stopped developed => exact (Path.restored s).trans developed.path
  | through developed verified =>
      exact (Path.restored s).trans (developed.path.trans
        ((Path.restored _).trans verified.path))

theorem Planned.path {outcome : Except BridgeError Unit}
    (hplanned : Planned env ids.workspaceId ids.projectId ids.pipelineId s
      outcome s') : Path env commandId ids .planning s s' := by
  cases hplanned with
  | skipped row => exact .refl _
  | raised absent answer => exact .launch (.refl _)
  | finished absent answer kept ended =>
      exact .launch (.of_move (.planned absent kept))

theorem Designed.path {outcome : Except BridgeError Unit}
    (hdesigned : Designed env ids.workspaceId ids.projectId ids.pipelineId s
      outcome s') : Path env commandId ids .planning s s' := by
  cases hdesigned with
  | skipped why => exact .refl _
  | raised absent planned answer => exact .launch (.refl _)
  | finished absent planned answer kept stops ended =>
      exact .launch (.of_move (.designed absent planned kept))
  | pended absent planned answer passes kept pended ended faults quiet =>
      refine .launch (.trans (.of_move (.designed absent planned kept)) ?_)
      cases pended with
      | skipped row => exact .refl _
      | pended absent rewritten => exact .of_move (.pended absent rewritten)

theorem PlannedBaseline.path
    (hplanned : PlannedBaseline env ids.workspaceId ids.projectId ids.pipelineId
      s s') : Path env commandId ids .planning s s' := by
  cases hplanned with
  | stopped planned => exact (Path.restored s).trans planned.path
  | through planned designed =>
      exact (Path.restored s).trans (planned.path.trans
        ((Path.restored _).trans designed.path))

theorem Confirmed.path {text : String}
    {outcome : Except BridgeError CommandReceipt}
    (hconfirmed : Confirmed env commandId text ids s outcome s') :
    Path env commandId ids .planning s s' := by
  cases hconfirmed with
  | same outcome k why => exact .of_frame (frame_store (.refl _) k)
  | opened k grows type accepted quiet => exact .of_move (.confirmed k grows type)

theorem Intakes.path {text : String}
    (hintakes : Intakes env commandId text ids s s') :
    Path env commandId ids .planning s s' := by
  cases hintakes with
  | refused confirmed why => exact confirmed.path
  | unsaved confirmed accepted frame fault cause =>
      exact confirmed.path.trans (.of_frame frame)
  | planned confirmed accepted frame quiet planned =>
      exact confirmed.path.trans ((Path.of_frame frame).trans planned.path)

theorem Committed.path {outcome : Except BridgeError (Option String)}
    (hcommitted : Committed env ids.workspaceId ids.projectId ids.pipelineId
      ids.principalId s outcome s') : Path env commandId ids .planning s s' := by
  cases hcommitted with
  | refused message why => exact .refl _
  | kept prd arch role kept ended => exact .of_move (.committed prd arch role kept)

/-- What leads an approval to its commit. -/
theorem path_beforeCommit
    (hframe : Frame (s.ticked.hydrated env ids.workspaceId ids.pipelineId) s') :
    Path env commandId ids phase s s' :=
  (Path.of_frame (frame_ticked s)).trans
    ((Path.restored _).trans (.of_frame hframe))

/-- The dropped rows of a retry. -/
theorem Dropped.path {outcome : Except BridgeError Unit}
    (hdropped : Dropped env ids.pipelineId s outcome s') :
    Path env commandId ids .retry s s' := by
  cases hdropped with
  | cut rewritten fault cause => exact .of_move (.dropped rewritten)
  | dropped rewritten quiet =>
      exact (Path.of_move (.dropped rewritten)).trans (.of_move (.forgotten _))

theorem Respawned.path (hrespawned : Respawned env ids s s') :
    Path env commandId ids .retry s s' := by
  cases hrespawned with
  | busy held => exact .of_frame (frame_ticked s)
  | unleased frame fault cause => exact .of_frame ((frame_ticked s).trans frame)
  | dropped frame dropped after =>
      exact (Path.of_frame ((frame_ticked s).trans frame.toFrame)).trans
        (dropped.path.trans (.of_frame after.toFrame))

/-- What every move of every phase keeps, a request keeps. -/
theorem Served.keeps {P : RootState → Prop} {spawnWorker : Bool}
    {payload : List (String × Json)}
    (hkeeps : ∀ phase s s', Move env commandId
      (requestIds env.toBridgeCodec payload) phase s s' → P s → P s')
    (hserved : Served env spawnWorker commandId payload s s') (hs : P s) :
    P s' := by
  cases hserved with
  | framed frame => exact hkeeps .planning _ _ (.framed frame) hs
  | registered kind rewritten => exact hkeeps _ _ _ (.enrolled rewritten) hs
  | admitted kind admits rewritten => exact hkeeps _ _ _ (.enrolled rewritten) hs
  | intake kind intakes => exact intakes.path.keeps (hkeeps _) hs
  | approve kind approves =>
      cases approves with
      | busy held => exact hkeeps .planning _ _ (.framed (frame_ticked s)) hs
      | refused why =>
          exact (path_beforeCommit (.refl _)).keeps (hkeeps .planning) hs
      | unleased frame fault cause =>
          exact (path_beforeCommit frame).keeps (hkeeps .planning) hs
      | committed planned lease frame committed stops after =>
          exact (((path_beforeCommit frame.toFrame).trans committed.path).trans
            (.of_frame after.toFrame)).keeps (hkeeps _) hs
      | staged planned lease inline frame committed staged after =>
          exact (staged.path.trans (.of_frame after.toFrame)).keeps (hkeeps _)
            (((path_beforeCommit frame.toFrame).trans committed.path).keeps
              (hkeeps _) hs)
  | retry ids kind ids_eq =>
      subst ids_eq
      exact hkeeps .planning _ _ (.restored s) hs
  | retried kind ids_eq passes retries =>
      subst ids_eq
      have hrestored := hkeeps .retry _ _ (.restored s) hs
      cases retries with
      | spawned spawns respawned => exact respawned.path.keeps (hkeeps _) hrestored
      | inline inline retried =>
          cases retried with
          | cut dropped => exact dropped.path.keeps (hkeeps _) hrestored
          | stopped dropped staged =>
              exact staged.path.keeps (hkeeps _)
                (dropped.path.keeps (hkeeps _) hrestored)
          | counted dropped staged rewritten quiet =>
              exact hkeeps _ _ _ (.counted rewritten) (staged.path.keeps (hkeeps _)
                (dropped.path.keeps (hkeeps _) hrestored))

/-- A move leaves the log as it is or lets it grow. -/
theorem Move.later (hmove : Move env commandId ids phase s s') :
    s.store.Later s'.store := by
  cases hmove with
  | framed frame => exact frame.log.later
  | launched s launch => exact .refl _
  | restored s => exact .refl _
  | enrolled rewritten => exact rewritten.store ▸ .refl _
  | confirmed k grows type => exact SqliteKernelStore.later_of_grows grows
  | planned absent kept => exact kept.later
  | designed absent planned kept => exact kept.later
  | pended absent rewritten => exact rewritten.store ▸ .refl _
  | committed prd arch role kept => exact kept.later
  | approved develops role => exact .refl _
  | denied develops kept => exact kept.later
  | developed develops kept => exact kept.later
  | infra verifies kept => exact kept.later
  | verified verifies kept => exact kept.later
  | dropped rewritten => exact rewritten.store ▸ .refl _
  | forgotten s => exact .refl _
  | counted rewritten => exact rewritten.store ▸ .refl _

theorem Path.later (hpath : Path env commandId ids phase s s') :
    s.store.Later s'.store :=
  hpath.keeps (P := fun s₁ => s.store.Later s₁.store)
    (fun _ _ hmove hlater => hlater.trans hmove.later) (.refl _)

theorem Move.faults (hmove : Move env commandId ids phase s s') :
    s.faults ≤ s'.faults := by
  cases hmove with
  | framed frame => exact frame.faults
  | launched s launch => exact le_rfl
  | restored s => exact le_rfl
  | enrolled rewritten => exact rewritten.faults
  | confirmed k grows type => exact Nat.le_add_right _ _
  | planned absent kept => exact kept.faults
  | designed absent planned kept => exact kept.faults
  | pended absent rewritten => exact rewritten.faults
  | committed prd arch role kept => exact kept.faults
  | approved develops role => exact le_rfl
  | denied develops kept => exact kept.faults
  | developed develops kept => exact kept.faults
  | infra verifies kept => exact kept.faults
  | verified verifies kept => exact kept.faults
  | dropped rewritten => exact rewritten.faults
  | forgotten s => exact le_rfl
  | counted rewritten => exact rewritten.faults

theorem Path.faults (hpath : Path env commandId ids phase s s') :
    s.faults ≤ s'.faults :=
  hpath.keeps (P := fun s₁ => s.faults ≤ s₁.faults)
    (fun _ _ hmove hle => hle.trans hmove.faults) le_rfl

theorem Served.faults {spawnWorker : Bool} {payload : List (String × Json)}
    (hserved : Served env spawnWorker commandId payload s s') :
    s.faults ≤ s'.faults :=
  hserved.keeps (P := fun s₁ => s.faults ≤ s₁.faults)
    (fun _ _ _ hmove hle => hle.trans hmove.faults) le_rfl

end Paths

section Import

variable {env : RootEnv} {s s₁ s' : RootState}
  {touched : String → String → Prop}

/-- What the import of station rows does: it records rows, and only in the logs
that it may touch. -/
structure Imported (touched : String → String → Prop) (s s' : RootState) :
    Prop where
  core : s'.bridge.core = s.bridge.core
  files : ∀ file, s'.files.get? file = s.files.get? file ∨
    (file ∉ stationFiles ∧ ∃ value,
      s'.files.get? file = some (some value) ∧ Written file value)
  launches : s'.launches = s.launches
  spawnWorker : s'.spawnWorker = s.spawnWorker
  running : s'.running = s.running
  faults : s.faults ≤ s'.faults
  later : s.store.Later s'.store
  other : s.store.Numbered → ∀ ws pl, ¬ touched ws pl →
    s'.store.listEvents ws pl = s.store.listEvents ws pl

theorem Imported.of_frame (hframe : Frame s s') : Imported touched s s' where
  core := hframe.core
  files := hframe.files
  launches := hframe.launches
  spawnWorker := hframe.spawnWorker
  running := hframe.running
  faults := hframe.faults
  later := hframe.log.later
  other := fun _ ws pl _ => hframe.log.listEvents ws pl

theorem Imported.trans (first : Imported touched s s₁)
    (second : Imported touched s₁ s') : Imported touched s s' where
  core := second.core.trans first.core
  files := by
    intro file
    rcases second.files file with hsame | hother
    · rw [hsame]
      exact first.files file
    · exact Or.inr hother
  launches := second.launches.trans first.launches
  spawnWorker := second.spawnWorker.trans first.spawnWorker
  running := second.running.trans first.running
  faults := first.faults.trans second.faults
  later := first.later.trans second.later
  other := by
    intro hnumbered ws pl huntouched
    rw [second.other (first.later.numbered hnumbered) ws pl huntouched,
      first.other hnumbered ws pl huntouched]

theorem Imported.mono {wider : String → String → Prop}
    (himported : Imported touched s s')
    (hwider : ∀ ws pl, touched ws pl → wider ws pl) : Imported wider s s' :=
  { himported with
    other := fun hnumbered ws pl huntouched => himported.other hnumbered ws pl
      fun htouched => huntouched (hwider ws pl htouched) }

/-- The log of one pipeline in the local workspace. -/
def localLog (pl : String) (ws' pl' : String) : Prop :=
  ws' = "ws_local" ∧ pl' = pl

/-- A program that imports, from every healthy store. -/
def Importing (env : RootEnv) (touched : String → String → Prop)
    (p : BridgeProgram Unit) : Prop :=
  ∀ s : RootState, s.store.Healthy →
    Imported touched s (p.run (handleBridge env) s).2

theorem importing_done : Importing env touched (.done ()) :=
  fun s _ => .of_frame (.refl s)

theorem Importing.bind {p : BridgeProgram Unit} {f : Unit → BridgeProgram Unit}
    (hp : Importing env touched p) (hf : Importing env touched (f ())) :
    Importing env touched (p.bind f) := by
  intro s hhealthy
  have hfirst := hp s hhealthy
  rcases hrun : p.run (handleBridge env) s with ⟨error | done, s₁⟩
  · rw [hrun] at hfirst
    rw [Program.run_bind_of_error hrun]
    exact hfirst
  · rw [hrun] at hfirst
    rw [Program.run_bind_of_ok hrun]
    exact hfirst.trans (hf s₁ (hfirst.later.healthy hhealthy))

theorem importing_of_moves {p : BridgeProgram Unit}
    (hp : p.Moves (handleBridge env) Frame) : Importing env touched p :=
  fun s _ => .of_frame (hp s)

theorem importing_recordStation (prj pl : String) (station : Station)
    (fields : Dict String String) :
    Importing env (localLog pl)
      (recordStation env.toBridgeCodec "ws_local" prj pl station fields) := by
  intro s hhealthy
  have hrecorded := run_recordStation env hhealthy "ws_local" prj pl station fields
  generalize ((recordStation env.toBridgeCodec "ws_local" prj pl station
    fields).run (handleBridge env) s).2 = s' at hrecorded
  have hstore : s.store.Later s'.store ∧ (s.store.Numbered →
      ∀ ws p, ¬ localLog pl ws p →
        s'.store.listEvents ws p = s.store.listEvents ws p) := by
    rcases hrecorded.store with hsame | happends
    · rw [hsame]
      exact ⟨.refl _, fun _ _ _ _ => rfl⟩
    · obtain ⟨event, -, hgrows⟩ := happends.grows
      refine ⟨happends.later, ?_⟩
      intro hnumbered ws p huntouched
      apply hgrows.listEvents_other hnumbered
      intro hscope
      exact huntouched (Prod.mk.inj hscope)
  exact
    { core := by rw [hrecorded.same]
      files := fun file => Or.inl (by rw [hrecorded.same])
      launches := by rw [hrecorded.same]
      spawnWorker := by rw [hrecorded.same]
      running := by rw [hrecorded.same]
      faults := hrecorded.faults
      later := hstore.1
      other := hstore.2 }

theorem importing_importStation (prj pl : String) (station : Station)
    (rows : Rows) : Importing env (localLog pl)
      (importStation env.toBridgeCodec prj pl station rows) := by
  unfold importStation
  cases rows.get? pl with
  | none => exact importing_done
  | some row => exact importing_recordStation prj pl station row

theorem importing_importVerify (prj pl : String) (bridge : Bridge) :
    Importing env (localLog pl) (importVerify env.toBridgeCodec prj pl bridge) := by
  unfold importVerify
  split
  · exact importing_done
  · intro s hhealthy
    simp only [recordVerify, Program.bind_eq]
    rw [run_memory_bind]
    exact Importing.bind (importing_recordStation prj pl .verify _)
      (importing_of_moves (moves_drainOutbox _)) s hhealthy

theorem importing_importRows (pl : String) :
    Importing env (localLog pl) (importRows env.toBridgeCodec pl) := by
  intro s hhealthy
  simp only [importRows, Program.bind_eq]
  rw [run_memory_bind]
  refine Importing.bind (importing_importStation _ _ _ _) ?_ s hhealthy
  refine (importing_importStation _ _ _ _).bind ?_
  refine (importing_importStation _ _ _ _).bind ?_
  refine (importing_importVerify _ _ _).bind ?_
  cases s.bridge.approvals.get? pl with
  | none => exact importing_done
  | some row => exact importing_recordStation _ _ _ _

/-- A log that an import may touch: in the local workspace, without a record of
a station. -/
def unknownLog (store : SqliteKernelStore) (ws pl : String) : Prop :=
  ws = "ws_local" ∧ ∀ event ∈ store.listEvents ws pl,
    event.eventType ∉ stageEvents

/-- Nothing is imported for a pipeline that is not open, or whose log knows a
station. -/
def importIdle (store : SqliteKernelStore) (pl : String) : Prop :=
  (∀ snapshot, store.pipelines.find? ("ws_local", pl) = some snapshot →
      snapshot.status ≠ "OPEN") ∨
    ∃ event ∈ store.listEvents "ws_local" pl, event.eventType ∈ stageEvents

theorem run_importPipeline_idle (env : RootEnv) (hhealthy : s.store.Healthy)
    {pl : String} (hidle : importIdle s.store pl) :
    (importPipeline env.toBridgeCodec pl).run (handleBridge env) s =
      (.ok (), s) := by
  simp only [importPipeline, Program.bind_eq]
  rw [run_loadPipeline_bind env hhealthy pl (by decide)]
  rcases hidle with hclosed | ⟨event, hmem, hstage⟩
  · rw [if_pos]
    · rfl
    · cases hsnapshot : s.store.pipelines.find? ("ws_local", pl) with
      | none => decide
      | some snapshot => exact hclosed snapshot hsnapshot
  · split
    · rfl
    · rw [run_listEvents_bind, if_pos]
      · rfl
      · exact List.any_eq_true.mpr ⟨event, hmem, by simpa using hstage⟩

theorem importing_importPipeline (env : RootEnv) (store : SqliteKernelStore)
    (hnumbered : store.Numbered) (pl : String) (hhealthy : s.store.Healthy)
    (hlater : store.Later s.store) :
    Imported (unknownLog store) s
      ((importPipeline env.toBridgeCodec pl).run (handleBridge env) s).2 := by
  by_cases hidle : importIdle s.store pl
  · rw [run_importPipeline_idle env hhealthy hidle]
    exact .of_frame (.refl s)
  · have hknown : ∀ event ∈ s.store.listEvents "ws_local" pl,
        event.eventType ∉ stageEvents := by
      intro event hmem hstage
      exact hidle (Or.inr ⟨event, hmem, hstage⟩)
    have hwider : ∀ ws p, localLog pl ws p → unknownLog store ws p := by
      rintro ws p ⟨rfl, rfl⟩
      refine ⟨rfl, ?_⟩
      intro event hmem
      exact hknown event ((hlater.log hnumbered _ _).subset hmem)
    simp only [importPipeline, Program.bind_eq]
    rw [run_loadPipeline_bind env hhealthy pl (by decide)]
    split
    · exact .of_frame (.refl s)
    · rw [run_listEvents_bind]
      split
      · exact .of_frame (.refl s)
      · exact (importing_importRows pl s hhealthy).mono hwider

theorem importing_importPipelines (env : RootEnv) (store : SqliteKernelStore)
    (hnumbered : store.Numbered) (ids : List String) (hhealthy : s.store.Healthy)
    (hlater : store.Later s.store) :
    Imported (unknownLog store) s
      ((importPipelines env.toBridgeCodec ids).run (handleBridge env) s).2 := by
  induction ids generalizing s with
  | nil => exact .of_frame (.refl s)
  | cons pl rest ih =>
      have hfirst := importing_importPipeline env store hnumbered pl hhealthy hlater
      rw [importPipelines]
      rcases hrun : (importPipeline env.toBridgeCodec pl).run (handleBridge env) s
        with ⟨error | done, s₁⟩
      · rw [hrun] at hfirst
        rw [Program.run_bind_of_error hrun]
        exact hfirst
      · rw [hrun] at hfirst
        rw [Program.run_bind_of_ok hrun]
        exact hfirst.trans (ih (hfirst.later.healthy hhealthy)
          (hlater.trans hfirst.later))

theorem run_importPipelines_idle (env : RootEnv) (hhealthy : s.store.Healthy)
    {ids : List String} (hidle : ∀ pl ∈ ids, importIdle s.store pl) :
    (importPipelines env.toBridgeCodec ids).run (handleBridge env) s =
      (.ok (), s) := by
  induction ids with
  | nil => rfl
  | cons pl rest ih =>
      rw [importPipelines, Program.run_bind_of_ok
        (run_importPipeline_idle env hhealthy (hidle pl (by simp)))]
      exact ih fun p hp => hidle p (List.mem_cons_of_mem pl hp)

/-- What the constructor of a bridge does: it replaces the memory and
imports. -/
inductive Constructed (env : RootEnv) (s : RootState) :
    Except BridgeError Unit → RootState → Prop
  | raised (load : Descriptor.load env.codec.str s.files = none) :
      Constructed env s (.error .value) s
  | loaded {bridge : Bridge} {outcome : Except BridgeError Unit} {s' : RootState}
      (load : Descriptor.load env.codec.str s.files = some bridge)
      (imported : s.store.Numbered →
        Imported (unknownLog s.store) { s with bridge := bridge } s')
      (idle : (∀ pl ∈ stationIds bridge, importIdle s.store pl) →
        outcome = .ok () ∧ s' = { s with bridge := bridge }) :
      Constructed env s outcome s'

theorem run_construct (env : RootEnv) (hhealthy : s.store.Healthy) :
    Constructed env s
      ((construct env.toBridgeCodec).run (handleBridge env) s).1
      ((construct env.toBridgeCodec).run (handleBridge env) s).2 := by
  have hconstruct : (perform .construct).run (handleBridge env) s =
      handleBridge env .construct s := Program.run_perform _ _ _
  simp only [construct, Program.bind_eq]
  cases hload : Descriptor.load env.codec.str s.files with
  | none =>
      simp only [handleBridge, hload] at hconstruct
      rw [Program.run_bind_of_error hconstruct]
      exact .raised hload
  | some bridge =>
      simp only [handleBridge, hload] at hconstruct
      rw [Program.run_bind_of_ok hconstruct, run_assign_bind]
      have hloaded : RootState.store { s with bridge := bridge } |>.Healthy :=
        hhealthy
      refine .loaded hload ?_ ?_
      · intro hnumbered
        exact importing_importPipelines env s.store hnumbered _ hloaded (.refl _)
      · intro hidle
        rw [run_importPipelines_idle env hloaded hidle]
        exact ⟨rfl, rfl⟩

/-- The settings of a new bridge. -/
def reloaded (env : RootEnv) (s : RootState) (spawnWorker : Bool) : RootState :=
  { s with
    spawnWorker := spawnWorker
    settings := Descriptor.loadSettings env.codec.str s.files }

/-- A new bridge over the state root. -/
theorem run_restarted (env : RootEnv) (hhealthy : s.store.Healthy)
    (spawnWorker : Bool) :
    ∃ outcome s', Constructed env (s.reloaded env spawnWorker) outcome s' ∧
      (s.restarted env spawnWorker).1 = outcome ∧
      (s.restarted env spawnWorker).2 =
        { s' with running := outcome.toBool } := by
  have hconstructed := @run_construct (s.reloaded env spawnWorker) env hhealthy
  have hstart : (KernelBridge.start env.toBridgeCodec).run (handle env)
      { s with spawnWorker := spawnWorker } =
        (construct env.toBridgeCodec).run (handleBridge env)
          (s.reloaded env spawnWorker) := by
    rw [← run_lift env]
    rfl
  unfold restarted
  rw [hstart]
  rcases hrun : (construct env.toBridgeCodec).run (handleBridge env)
      (s.reloaded env spawnWorker) with ⟨error | done, s'⟩
  · rw [hrun] at hconstructed
    exact ⟨_, _, hconstructed, rfl, rfl⟩
  · rw [hrun] at hconstructed
    exact ⟨_, _, hconstructed, rfl, rfl⟩

theorem Constructed.later {outcome : Except BridgeError Unit}
    (hconstructed : Constructed env s outcome s') (hnumbered : s.store.Numbered) :
    s.store.Later s'.store := by
  cases hconstructed with
  | raised load => exact .refl _
  | loaded load imported idle => exact (imported hnumbered).later

/-- The request that a worker runs the stages of. -/
def WorkerArgs.ids (args : WorkerArgs) : RequestIds :=
  ⟨args.pipelineId, args.projectId, args.principalId, args.workspaceId⟩

/-- What a stage worker does: it constructs its own bridge, runs the stages and
gives its lease back. -/
inductive Worked (env : RootEnv) (args : WorkerArgs) (s : RootState) :
    RootState → Prop
  | stopped {error : BridgeError} {s' : RootState}
      (constructed : Constructed env s (.error error) s') : Worked env args s s'
  | staged {outcome : Except BridgeError Unit} {s₁ s₂ s' : RootState}
      (constructed : Constructed env s (.ok ()) s₁)
      (staged : Staged env args.workspaceId args.projectId args.pipelineId
        args.principalId s₁ outcome s₂)
      (after : Frame s₂ s') : Worked env args s s'

theorem run_stageWorker (env : RootEnv) (hhealthy : s.store.Healthy)
    (hnumbered : s.store.Numbered) (args : WorkerArgs) :
    Worked env args s
      ((stageWorker env.toBridgeCodec 0 args).run (handleBridge env) s).2 := by
  have hconstructed := run_construct env hhealthy
  simp only [stageWorker, Program.bind_eq]
  rcases hrun : (construct env.toBridgeCodec).run (handleBridge env) s with
    ⟨error | done, s₁⟩
  · rw [hrun] at hconstructed
    rw [Program.run_bind_of_error hrun]
    exact .stopped hconstructed
  rw [hrun] at hconstructed
  rw [Program.run_bind_of_ok hrun]
  have hheartbeat : (perform (.startHeartbeat 0 args)).run (handleBridge env) s₁ =
      (.ok (), s₁) := rfl
  rw [Program.run_bind_of_ok hheartbeat, Program.withCleanup,
    Program.run_observe]
  obtain ⟨outcome, hstaged, -⟩ := run_leasedStages env
    ((hconstructed.later hnumbered).healthy hhealthy) args.workspaceId
    args.projectId args.pipelineId args.principalId
  refine .staged hconstructed hstaged ?_
  rw [Program.run_bind_done]
  have hstop : (perform (.stopHeartbeat 0)).Moves (handleBridge env) Still :=
    Program.moves_perform Still.refl
  refine Still.toFrame ((hstop.bind .trans fun _ => moves_cancel _ _).bind .trans
    (fun _ => ?_) _)
  intro s₃
  rw [Program.run_ofExcept]
  exact .refl _

theorem Worked.later {args : WorkerArgs} (hworked : Worked env args s s')
    (hnumbered : s.store.Numbered) : s.store.Later s'.store := by
  cases hworked with
  | stopped constructed => exact constructed.later hnumbered
  | staged constructed staged after =>
      exact (constructed.later hnumbered).trans
        (staged.later.trans after.log.later)

end Import

section Steps

variable (env : RootEnv) {s : RootState}

theorem Served.later {env : RootEnv} {spawnWorker : Bool} {commandId : String}
    {payload : List (String × Json)} {s' : RootState}
    (hserved : Served env spawnWorker commandId payload s s') :
    s.store.Later s'.store :=
  hserved.keeps (P := fun s₁ => s.store.Later s₁.store)
    (fun _ _ _ hmove hlater => hlater.trans hmove.later) (.refl _)

/-- A step of a session leaves the log as it is or lets it grow. -/
theorem step_later (hhealthy : s.store.Healthy) (hnumbered : s.store.Numbered)
    (input : RootInput) : s.store.Later (s.step env input).2.store := by
  cases input with
  | request commandId payload =>
      simp only [step, serve]
      split
      · exact (run_process env hhealthy s.spawnWorker commandId payload).later
      · exact .refl _
  | restart spawnWorker =>
      obtain ⟨outcome, s', hconstructed, -, hstate⟩ :=
        run_restarted env hhealthy spawnWorker
      simp only [step]
      rw [hstate]
      have hlater := hconstructed.later hnumbered
      exact hlater
  | work args =>
      have hlater := (run_stageWorker env hhealthy hnumbered args).later hnumbered
      exact hlater

/-- The stores that sessions reach have no pending fault and are numbered. -/
theorem store_after (inputs : List RootInput) (hhealthy : s.store.Healthy)
    (hnumbered : s.store.Numbered) :
    (s.after env inputs).store.Healthy ∧ (s.after env inputs).store.Numbered := by
  refine exec_invariant
    (P := fun s : RootState => s.store.Healthy ∧ s.store.Numbered) ?_
    ⟨hhealthy, hnumbered⟩ inputs
  rintro s input ⟨hhealthy, hnumbered⟩
  have hlater := step_later env hhealthy hnumbered input
  exact ⟨hlater.healthy hhealthy, hlater.numbered hnumbered⟩

theorem healthy_init (spawnWorker : Bool) :
    (init spawnWorker).store.Healthy := ⟨rfl, rfl⟩

theorem numbered_init (spawnWorker : Bool) :
    (init spawnWorker).store.Numbered :=
  ⟨fun _ _ => rfl, fun _ _ => rfl⟩

end Steps

end RootState

end HermesPipeline
