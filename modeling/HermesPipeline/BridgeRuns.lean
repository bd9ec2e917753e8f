/-
What the programs of a bridge do to a state root.  Reads and the fields of
`self` are computed; the work on leases, deliveries, feedback and the outbox
leaves the stations as they are; a record appends its event or nothing.
-/
import HermesPipeline.BridgeSession
import HermesPipeline.KernelBridgeEffects
import HermesPipeline.StationRecords

namespace HermesPipeline

open Lib KernelController

/-- A bridge without its deliveries and its feedback. -/
def Bridge.core (bridge : Bridge) : Bridge :=
  { bridge with delivery := .empty, feedback := .empty }

namespace RootState

variable (env : RootEnv) {α β : Type}

section Run

theorem run_lift (p : BridgeProgram α) (s : RootState) :
    (lift p).run (handle env) s = p.run (handleBridge env) s := by
  induction p generalizing s with
  | done value => rfl
  | raise error => rfl
  | call op next ih => exact ih _ _

theorem run_memory_bind
    (f : BridgeOp.memory.Answer → BridgeProgram β) (s : RootState) :
    ((perform .memory).bind f).run (handleBridge env) s =
      (f s.bridge).run (handleBridge env) s := rfl

@[simp] theorem run_assign (bridge : Bridge) (s : RootState) :
    (perform (.assign bridge)).run (handleBridge env) s =
      (.ok (), { s with bridge := bridge }) := rfl

theorem run_assign_bind (bridge : Bridge) (s : RootState)
    (f : (BridgeOp.assign bridge).Answer → BridgeProgram β) :
    ((perform (.assign bridge)).bind f).run (handleBridge env) s =
      (f ()).run (handleBridge env) { s with bridge := bridge } := rfl

@[simp] theorem run_modify (change : Bridge → Bridge) (s : RootState) :
    (modify change).run (handleBridge env) s =
      (.ok (), { s with bridge := change s.bridge }) := rfl

@[simp] theorem run_modify_bind (change : Bridge → Bridge)
    (f : Unit → BridgeProgram β) (s : RootState) :
    ((modify change).bind f).run (handleBridge env) s =
      (f ()).run (handleBridge env) { s with bridge := change s.bridge } := rfl

theorem run_listEvents_bind (ws pl : String)
    (f : (StoreOp.listEvents ws pl).Answer → BridgeProgram β) (s : RootState) :
    ((kernel (ask (.listEvents ws pl))).bind f).run (handleBridge env) s =
      (f (s.store.listEvents ws pl)).run (handleBridge env) s := by
  simp only [ask, Program.perform, kernel, Program.call_bind, Program.run_call]
  rfl

theorem run_listPendingOutbox_bind (ws : String)
    (f : (StoreOp.listPendingOutbox ws).Answer → BridgeProgram β)
    (s : RootState) :
    ((kernel (ask (.listPendingOutbox ws))).bind f).run (handleBridge env) s =
      (f (s.store.listPendingOutbox ws)).run (handleBridge env) s := by
  simp only [ask, Program.perform, kernel, Program.call_bind, Program.run_call,
    handleBridge, SqliteKernelStore.handle]
  rfl

theorem run_loadLease_bind (ws pl : String)
    (f : (StoreOp.loadLease ws pl).Answer → BridgeProgram β) (s : RootState) :
    ((kernel (ask (.loadLease ws pl))).bind f).run (handleBridge env) s =
      (f (s.store.loadLease ws pl)).run (handleBridge env) s := by
  simp only [ask, Program.perform, kernel, Program.call_bind, Program.run_call]
  rfl

theorem run_loadPipeline_bind {s : RootState} (hhealthy : s.store.Healthy)
    {ws : String} (pl : String) (hws : ws ≠ "")
    (f : (StoreOp.loadPipeline ws pl).Answer → BridgeProgram β) :
    ((kernel (ask (.loadPipeline ws pl))).bind f).run (handleBridge env) s =
      (f (s.store.pipelines.find? (ws, pl))).run (handleBridge env) s := by
  have hload := hhealthy.loadPipeline pl hws
  simp only [ask, Program.perform, kernel, Program.call_bind, Program.run_call,
    handleBridge, SqliteKernelStore.handle, hload]
  rfl

/-- A kernel program touches the store only; its failures are counted. -/
theorem run_kernel (p : StoreProgram α) (s : RootState) :
    ∃ k, (kernel p).run (handleBridge env) s =
      ((p.run (SqliteKernelStore.handle env.codec) s.store).1.mapError
          BridgeError.kernel,
        { s with
          store := (p.run (SqliteKernelStore.handle env.codec) s.store).2
          faults := s.faults + k }) := by
  induction p generalizing s with
  | done value => exact ⟨0, rfl⟩
  | raise error => exact ⟨0, rfl⟩
  | call op next ih =>
      rw [kernel, Program.run_call]
      rcases hanswer : SqliteKernelStore.handle env.codec op s.store with
        ⟨answer, store⟩
      simp only [handleBridge, Program.run_call, hanswer]
      cases answer with
      | error error =>
          obtain ⟨k, hk⟩ := ih (.error error)
            { s with store := store, faults := s.faults + 1 }
          exact ⟨1 + k, by simpa [faulted, Nat.add_assoc] using hk⟩
      | ok answer =>
          obtain ⟨k, hk⟩ := ih (.ok answer) { s with store := store }
          exact ⟨k, by simpa [faulted] using hk⟩

theorem run_kernel_call (op : StoreOp)
    (next : Except PyError op.Answer → StoreProgram α) (s : RootState) :
    (kernel (.call op next)).run (handleBridge env) s =
      (kernel (next (SqliteKernelStore.handle env.codec op s.store).1)).run
        (handleBridge env)
        ({ s with store :=
            (SqliteKernelStore.handle env.codec op s.store).2 }.faulted
          (SqliteKernelStore.handle env.codec op s.store).1) := by
  rw [kernel, Program.run_call]
  rfl

theorem faults_le_run_kernel (p : StoreProgram α) (s : RootState) :
    s.faults ≤ ((kernel p).run (handleBridge env) s).2.faults := by
  obtain ⟨k, hk⟩ := run_kernel env p s
  rw [hk]
  exact Nat.le_add_right _ _

end Run

section Record

open KernelBridge

variable {env} {s : RootState}

/-- A submission that the store lets through to its commit. -/
theorem run_submit_accepting {k : KernelController} {command : ControllerCommand}
    (hrunning : k.paused = false) (hhealthy : s.store.Healthy)
    (hfresh : s.store.findInbox command.workspaceId command.commandId = none)
    (a : k.Acceptance command)
    (hsnapshot : a.snapshot = s.store.pipelines.find?
      (command.workspaceId, command.pipelineId)) :
    (kernel (k.submit command)).run (handleBridge env) s =
      (kernel (.call (.commitAccepted a.write)
        (catching (.done (k.unavailable command)) fun _ =>
          .done a.receipt))).run (handleBridge env) s := by
  have hload := hhealthy.loadPipeline command.pipelineId
    command.workspaceId_ne_empty
  rw [← hsnapshot] at hload
  have hloaded : k.submitLoaded command a.fingerprint
      a.parsed a.snapshot = .call (.commitAccepted a.write)
        (catching (.done (k.unavailable command)) fun _ =>
          .done a.receipt) := by
    simp only [submitLoaded, a.current_eq, a.revision_eq, ne_eq,
      not_true_eq_false, ↓reduceIte, a.apply_eq, submitAccepted, a.payload_eq]
    rfl
  rw [← hloaded]
  simp only [submit, hrunning, Bool.false_eq_true, ↓reduceIte, a.hash_eq]
  rw [run_kernel_call]
  simp only [SqliteKernelStore.handle, hfresh, catching, submitFound,
    a.parsed_eq, faulted]
  rw [run_kernel_call]
  simp only [SqliteKernelStore.handle, hload, catching, faulted]

/-- Its commit is made, or the failure of the commit is counted. -/
theorem run_submit_committing {k : KernelController} {command : ControllerCommand}
    (hrunning : k.paused = false) (hhealthy : s.store.Healthy)
    (hfresh : s.store.findInbox command.workspaceId command.commandId = none)
    (a : k.Acceptance command)
    (hsnapshot : a.snapshot = s.store.pipelines.find?
      (command.workspaceId, command.pipelineId)) :
    (∃ store, s.store.commitAccepted a.write = (.ok (), store) ∧
      (kernel (k.submit command)).run
        (handleBridge env) s = (.ok a.receipt, { s with store := store })) ∨
      s.faults < ((kernel (k.submit command)).run
        (handleBridge env) s).2.faults ∧ ¬ s.store.Admits a.write := by
  rw [run_submit_accepting hrunning hhealthy hfresh a hsnapshot, run_kernel_call]
  rcases s.store.commitAccepted_cases hhealthy.failAfter a.write with
    ⟨error, hcommit⟩ | ⟨store, hcommit, -⟩
  · right
    refine ⟨?_, ?_⟩
    · simp only [SqliteKernelStore.handle, hcommit, faulted]
      exact faults_le_run_kernel env _ { s with faults := s.faults + 1 }
    · intro hadmits
      obtain ⟨store, hdone⟩ := hadmits.commit hhealthy.failAfter rfl
      rw [hcommit] at hdone
      cases (Prod.mk.inj hdone).1
  · left
    refine ⟨store, hcommit, ?_⟩
    simp only [SqliteKernelStore.handle, hcommit, faulted]
    rfl

/-- What recording a station does: the store gets the record or stays, and a
record that can be made is made unless the store failed. -/
structure Recorded (env : RootEnv) (ws prj pl : String) (station : Station)
    (fields : Dict String String) (s : RootState)
    (outcome : Except BridgeError Unit) (s' : RootState) : Prop where
  same : s' = { s with store := s'.store, faults := s'.faults }
  faults : s.faults ≤ s'.faults
  store : s'.store = s.store ∨
    Appends env.codec ws prj pl station fields s.store s'.store
  settled : env.codec.Serializes → CanRecord ws prj pl station s.store →
    s'.faults = s.faults →
      outcome = .ok () ∧
        Appends env.codec ws prj pl station fields s.store s'.store
  quiet : env.codec.Serializes → CanRecord ws prj pl station s.store →
    Vacant ws pl (recordId pl station (nextAttempt s.store ws pl station))
      s.store → s'.faults = s.faults
  outbox : s'.store = s.store ∨ ∃ row,
    RecordsOutbox env.codec ws station fields row ∧
      s'.store.outbox.rows = s.store.outbox.rows ++ [row]

theorem Recorded.skipped {ws prj pl : String} {station : Station}
    {fields : Dict String String} {outcome : Except BridgeError Unit}
    (hcannot : ¬ CanRecord ws prj pl station s.store) :
    Recorded env ws prj pl station fields s outcome s where
  same := rfl
  faults := le_rfl
  store := Or.inl rfl
  settled := fun _ hcan _ => absurd hcan hcannot
  quiet := fun _ hcan _ => absurd hcan hcannot
  outbox := Or.inl rfl

/-- A commit of the record is what `Appends` says. -/
theorem appends_of_commit {codec : Codec} {store store' : SqliteKernelStore}
    {ws prj pl : String} {station : Station} {fields : Dict String String}
    {revision : Nat} {command : ControllerCommand}
    (hcommand : stationCommand ws prj pl
      (recordId pl station (nextAttempt store ws pl station)) station
      revision fields = some command)
    {a : (controller codec).Acceptance command}
    (hfound : a.snapshot = store.pipelines.find?
      (command.workspaceId, command.pipelineId))
    (hfresh : store.findInbox command.workspaceId command.commandId = none)
    (hcommit : store.commitAccepted a.write = (.ok (), store')) :
    Appends codec ws prj pl station fields store store' := by
  obtain ⟨hws, hpl, hcmd, -⟩ := stationCommand_ids hcommand
  obtain ⟨opened, hopened, hstatus⟩ := opened_of_acceptance hcommand a
  have hstate : a.state.status = .opened := by
    rw [(stationCommand_acceptance hcommand a).2.2]
  have hgrows := grows_of_commit hcommit hstate hfresh hfound
  rw [hws, hpl, hcmd] at hgrows
  rw [hws, hcmd] at hfresh
  refine ⟨fun hcodec => ⟨?_, ?_, hfresh, ?_⟩, a.write.event, ?_, hgrows⟩
  · exact stationCommand_isSome_iff.mp (by rw [hcommand]; rfl)
  · exact ⟨opened, by rw [← hopened, hfound, hws, hpl], hstatus⟩
  · have hsmall := (hcodec.hashes command (stationCommand_textual hcommand)).mp
      ⟨_, a.hash_eq⟩
    have hstored := storedRevision_of_acceptance a hfound
    rw [hws, hpl] at hstored
    exact hstored ▸ hsmall
  · exact recordsStation_acceptance hcommand a

/-- The submission of a record. -/
theorem run_recordCommand (hhealthy : s.store.Healthy) {ws prj pl : String}
    {station : Station} {fields : Dict String String}
    {snapshot : PipelineSnapshot} {command : ControllerCommand}
    (hsnapshot : s.store.pipelines.find? (ws, pl) = some snapshot)
    (hcommand : stationCommand ws prj pl
      (recordId pl station (nextAttempt s.store ws pl station)) station
      snapshot.revision fields = some command) :
    Recorded env ws prj pl station fields s
      (((kernel ((controller env.codec).submit command)).bind fun _ =>
        .done ()).run (handleBridge env) s).1
      (((kernel ((controller env.codec).submit command)).bind fun _ =>
        .done ()).run (handleBridge env) s).2 := by
  obtain ⟨hws, hpl, hcmd, -⟩ := stationCommand_ids hcommand
  have haccepts : env.codec.Serializes → CanRecord ws prj pl station s.store →
      ∃ a : (controller env.codec).Acceptance command,
        a.snapshot = s.store.pipelines.find?
          (command.workspaceId, command.pipelineId) ∧
        s.store.findInbox command.workspaceId command.commandId = none := by
    intro hcodec hcan
    obtain ⟨opened, hopened, hstatus⟩ := hcan.opened
    obtain rfl : snapshot = opened := by
      rw [hsnapshot] at hopened
      exact Option.some.inj hopened
    have hsmall : snapshot.revision ≤ maxSafeInteger := by
      have hstored := hcan.small
      rwa [SqliteKernelStore.storedRevision, hsnapshot] at hstored
    obtain ⟨a, ha⟩ := exists_stationAcceptance hcodec hcommand hstatus hsmall
    refine ⟨a, by rw [ha, hws, hpl, hsnapshot], ?_⟩
    rw [hws, hcmd]
    exact hcan.fresh
  rw [Program.run_bind_done]
  obtain ⟨k, hrun⟩ := run_kernel env ((controller env.codec).submit command) s
  constructor
  · rw [hrun]
  · rw [hrun]
    exact Nat.le_add_right _ _
  · rw [hrun]
    rcases @submit_healthy (controller env.codec) command s.store hhealthy with
      hsame | ⟨a, store, hcommit, hfresh, hfound, hcommits⟩
    · exact Or.inl hsame
    · right
      have hstore : ((controller env.codec).submit command).run
          (SqliteKernelStore.handle env.codec) s.store = (.ok a.receipt, store) :=
        hcommit
      rw [hstore]
      exact appends_of_commit hcommand hfound hfresh hcommits
  · intro hcodec hcan hfaults
    obtain ⟨a, hfound, hfresh⟩ := haccepts hcodec hcan
    rcases run_submit_committing rfl hhealthy hfresh a hfound with
      ⟨store, hcommit, hdone⟩ | ⟨hfault, -⟩
    · rw [hdone]
      exact ⟨rfl, appends_of_commit hcommand hfound hfresh hcommit⟩
    · rw [hfaults] at hfault
      exact absurd hfault (Nat.lt_irrefl _)
  · intro hcodec hcan hvacant
    obtain ⟨a, hfound, hfresh⟩ := haccepts hcodec hcan
    rcases run_submit_committing rfl hhealthy hfresh a hfound with
      ⟨store, hcommit, hdone⟩ | ⟨-, hfull⟩
    · rw [hdone]
    · have hfree : Vacant command.workspaceId command.pipelineId
          command.commandId s.store := by
        rw [hcmd, hws, hpl]
        exact hvacant
      exact absurd (hfree.admits a hfound hfresh) hfull
  · rw [hrun]
    rcases @submit_healthy (controller env.codec) command s.store hhealthy with
      hsame | ⟨a, store, hcommit, -, -, hcommits⟩
    · exact Or.inl hsame
    · refine Or.inr ⟨a.write.outbox, recordsOutbox_acceptance hcommand a, ?_⟩
      have hstore : ((controller env.codec).submit command).run
          (SqliteKernelStore.handle env.codec) s.store = (.ok a.receipt, store) :=
        hcommit
      rw [hstore]
      exact SqliteKernelStore.outbox_of_commit hcommits

theorem run_recordStation (env : RootEnv) (hhealthy : s.store.Healthy) (ws prj pl : String)
    (station : Station) (fields : Dict String String) :
    Recorded env ws prj pl station fields s
      ((recordStation env.toBridgeCodec ws prj pl station fields).run
        (handleBridge env) s).1
      ((recordStation env.toBridgeCodec ws prj pl station fields).run
        (handleBridge env) s).2 := by
  unfold recordStation
  split
  · next hws => exact .skipped fun hcan => hcan.workspace hws
  next hws =>
  simp only [Program.bind_eq]
  rw [run_listEvents_bind, run_loadPipeline_bind env hhealthy pl hws]
  cases hsnapshot : s.store.pipelines.find? (ws, pl) with
  | none =>
      apply Recorded.skipped
      intro hcan
      obtain ⟨snapshot, hfound, -⟩ := hcan.opened
      rw [hsnapshot] at hfound
      cases hfound
  | some snapshot =>
      dsimp only
      split
      · next hcommand =>
          -- the contract model refuses the ids, whatever the fields are
          apply Recorded.skipped
          intro hcan
          have hsome : (none : Option ControllerCommand).isSome = true := by
            rw [← hcommand]
            exact stationCommand_isSome_iff.mpr hcan.fits
          cases hsome
      · next command hcommand =>
          exact run_recordCommand hhealthy hsnapshot hcommand

end Record

/-- The files behind the registry and the station rows. -/
def stationFiles : List String :=
  ["projects.json", "prd.json", "architecture.json", "development.json",
    "verify.json", "approvals.json", "stages.json"]

/-- A document that a bridge or its settings put into a file. -/
def Written (file : String) (value : Json) : Prop :=
  (∃ bridge, value = Descriptor.document bridge file) ∨
    ∃ settings, value = Descriptor.settingsDocument settings file

/-- A step that leaves the registry, the stations, their files and the log as
they are. -/
structure Frame (s s' : RootState) : Prop where
  core : s'.bridge.core = s.bridge.core
  log : s.store.SameLog s'.store
  files : ∀ file, s'.files.get? file = s.files.get? file ∨
    (file ∉ stationFiles ∧ ∃ value,
      s'.files.get? file = some (some value) ∧ Written file value)
  launches : s'.launches = s.launches
  spawnWorker : s'.spawnWorker = s.spawnWorker
  running : s'.running = s.running
  faults : s.faults ≤ s'.faults

namespace Frame

variable {s s' s'' : RootState}

theorem refl (s : RootState) : Frame s s :=
  ⟨rfl, .refl _, fun _ => Or.inl rfl, rfl, rfl, rfl, le_rfl⟩

theorem trans (first : Frame s s') (second : Frame s' s'') : Frame s s'' where
  core := second.core.trans first.core
  log := first.log.trans second.log
  files := by
    intro file
    rcases second.files file with hsame | hother
    · rw [hsame]
      exact first.files file
    · exact Or.inr hother
  launches := second.launches.trans first.launches
  spawnWorker := second.spawnWorker.trans first.spawnWorker
  running := second.running.trans first.running
  faults := first.faults.trans second.faults

theorem station (hframe : Frame s s') {file : String}
    (hfile : file ∈ stationFiles) :
    s'.files.get? file = s.files.get? file :=
  (hframe.files file).resolve_right fun hother => hother.1 hfile

theorem registry (hframe : Frame s s') :
    s'.bridge.registry = s.bridge.registry := by
  have hcore := congrArg Bridge.registry hframe.core
  exact hcore

theorem approval (hframe : Frame s s') :
    s'.bridge.approval = s.bridge.approval := by
  have hcore := congrArg Bridge.approval hframe.core
  exact hcore

theorem prd (hframe : Frame s s') :
    s'.bridge.prd = s.bridge.prd := by
  have hcore := congrArg Bridge.prd hframe.core
  exact hcore

theorem arch (hframe : Frame s s') :
    s'.bridge.arch = s.bridge.arch := by
  have hcore := congrArg Bridge.arch hframe.core
  exact hcore

theorem dev (hframe : Frame s s') :
    s'.bridge.dev = s.bridge.dev := by
  have hcore := congrArg Bridge.dev hframe.core
  exact hcore

theorem verify (hframe : Frame s s') :
    s'.bridge.verify = s.bridge.verify := by
  have hcore := congrArg Bridge.verify hframe.core
  exact hcore

theorem approvals (hframe : Frame s s') :
    s'.bridge.approvals = s.bridge.approvals := by
  have hcore := congrArg Bridge.approvals hframe.core
  exact hcore

end Frame

/-- A frame in which no failure is counted. -/
structure Still (s s' : RootState) : Prop extends Frame s s' where
  quiet : s'.faults = s.faults

namespace Still

variable {s s' s'' : RootState}

theorem refl (s : RootState) : Still s s := ⟨.refl s, rfl⟩

theorem trans (first : Still s s') (second : Still s' s'') : Still s s'' :=
  ⟨first.toFrame.trans second.toFrame, second.quiet.trans first.quiet⟩

end Still

section Frames

open KernelBridge

variable {env}

theorem frame_ticked (s : RootState) : Frame s s.ticked :=
  ⟨rfl, .refl _, fun _ => Or.inl rfl, rfl, rfl, rfl, le_rfl⟩

theorem frame_bridge {s : RootState} {bridge : Bridge}
    (hcore : bridge.core = s.bridge.core) : Frame s { s with bridge := bridge } :=
  ⟨hcore, .refl _, fun _ => Or.inl rfl, rfl, rfl, rfl, le_rfl⟩

theorem frame_store {s : RootState} {store : SqliteKernelStore}
    (hlog : s.store.SameLog store) (k : Nat) :
    Frame s { s with store := store, faults := s.faults + k } :=
  ⟨rfl, hlog, fun _ => Or.inl rfl, rfl, rfl, rfl, Nat.le_add_right _ _⟩

theorem moves_write {file : String} (hfile : file ∉ stationFiles) :
    (perform (.write file)).Moves (handleBridge env) Frame := by
  apply Program.moves_perform
  intro s
  simp only [handleBridge]
  split
  · refine ⟨rfl, .refl _, ?_, rfl, rfl, rfl, le_rfl⟩
    intro other
    by_cases hother : other = file
    · subst hother
      exact Or.inr ⟨hfile, _, Dict.get?_set_self _ _ _, Or.inl ⟨s.bridge, rfl⟩⟩
    · exact Or.inl (Dict.get?_set_of_ne _ _ hother)
  · exact ⟨rfl, .refl _, fun _ => Or.inl rfl, rfl, rfl, rfl, Nat.le_succ _⟩

theorem moves_saveDelivery : saveDelivery.Moves (handleBridge env) Frame :=
  moves_write (by decide)

/-- A kernel program that only works on leases or deliveries. -/
theorem moves_kernel {α : Type} {p : StoreProgram α}
    (hp : p.Moves (SqliteKernelStore.handle env.codec)
      SqliteKernelStore.SameLog) :
    (kernel p).Moves (handleBridge env) Frame := by
  intro s
  obtain ⟨k, hrun⟩ := run_kernel env p s
  rw [hrun]
  exact frame_store (hp s.store) k

theorem moves_listPendingOutbox (ws : String) :
    (kernel (ask (.listPendingOutbox ws))).Moves (handleBridge env) Frame :=
  moves_kernel (Program.moves_perform fun _ => .refl _)

theorem moves_recordOutboxDelivery (ws cmd receipt : String) :
    (kernel (ask (.recordOutboxDelivery ws cmd receipt))).Moves
      (handleBridge env) Frame := by
  refine moves_kernel (Program.moves_perform fun s => ?_)
  simp only [SqliteKernelStore.handle, SqliteKernelStore.recordOutboxDelivery]
  split
  · exact .refl _
  · refine ⟨rfl, rfl, rfl, ?_, rfl, rfl⟩
    apply Keyed.updateWhere_keys
    exact fun _ => rfl

theorem moves_publish (request : DeliveryRequest) :
    (perform (.publish request)).Moves (handleBridge env) Frame :=
  Program.moves_perform frame_ticked

theorem moves_mirrorGithub (record : DeliveryRecord) (request : DeliveryRequest) :
    (mirrorGithub record request).Moves (handleBridge env) Frame := by
  refine (moves_publish request).bind .trans fun remote => ?_
  cases remote with
  | none => exact Frame.refl
  | some remote =>
      dsimp only
      split
      · intro s
        exact frame_bridge rfl
      · exact Frame.refl

theorem moves_drainItem (ws : String) (item : OutboxRecord) :
    (drainItem env.toBridgeCodec ws item).Moves (handleBridge env) Frame := by
  unfold drainItem
  split
  · exact moves_recordOutboxDelivery _ _ _
  · intro s
    simp only [Program.bind_eq]
    rw [run_memory_bind]
    refine iteInduction
      (motive := fun p => Frame s (Program.run (handleBridge env) p s).2)
      (fun _ => ?_) (fun _ => ?_)
    · rw [run_assign_bind]
      refine Frame.trans ?_ ((moves_mirrorGithub _ _).bind .trans ?_ _)
      · exact frame_bridge rfl
      · intro mirrored
        exact moves_saveDelivery.bind .trans fun _ =>
          moves_recordOutboxDelivery _ _ _
    · exact moves_recordOutboxDelivery _ _ _ s

theorem moves_drainItems (ws : String) (items : List OutboxRecord) :
    (drainItems env.toBridgeCodec ws items).Moves (handleBridge env) Frame := by
  induction items with
  | nil => exact Frame.refl
  | cons item rest ih => exact (moves_drainItem ws item).bind .trans fun _ => ih

theorem moves_drainOutbox (ws : String) :
    (drainOutbox env.toBridgeCodec ws).Moves (handleBridge env) Frame := by
  unfold drainOutbox
  split
  · exact Frame.refl
  · exact (moves_listPendingOutbox ws).bind .trans fun items =>
      moves_drainItems ws items

theorem moves_setFeedback (pl note : String) :
    (setFeedback pl note).Moves (handleBridge env) Frame := by
  unfold setFeedback
  split
  · exact Frame.refl
  · intro s
    simp only [Program.bind_eq, run_modify_bind]
    refine Frame.trans ?_ (moves_write (by decide) _)
    exact frame_bridge rfl

theorem moves_clearFeedback (pl : String) :
    (clearFeedback pl).Moves (handleBridge env) Frame := by
  intro s
  simp only [clearFeedback, Program.bind_eq]
  rw [run_memory_bind]
  split
  · exact Frame.refl s
  · rw [run_assign_bind]
    refine Frame.trans ?_ (moves_write (by decide) _)
    exact frame_bridge rfl

theorem moves_developmentFeedback (pl : String) (result : DevelopmentResult) :
    (developmentFeedback pl result).Moves (handleBridge env) Frame :=
  .ite (moves_setFeedback _ _) (.ite (moves_clearFeedback _) Frame.refl)

theorem moves_verifyFeedback (pl : String) (result : VerifyResult) :
    (verifyFeedback pl result).Moves (handleBridge env) Frame :=
  .ite (moves_setFeedback _ _) (.ite (moves_clearFeedback _) Frame.refl)

theorem moves_publishReady (pl prj sha : String) (result : VerifyResult) :
    (publishReady env.toBridgeCodec pl prj sha result).Moves (handleBridge env)
      Frame := by
  unfold publishReady
  split
  · intro s
    exact frame_bridge rfl
  · exact Frame.refl

theorem moves_mirrorStored (pl prj sha : String) :
    (mirrorStored pl prj sha).Moves (handleBridge env) Frame := by
  intro s
  simp only [mirrorStored, Program.bind_eq]
  rw [run_memory_bind]
  split
  · rw [Program.run_bind_done]
    exact moves_mirrorGithub _ _ s
  · exact Frame.refl s

theorem moves_spawn (args : WorkerArgs) :
    (perform (.spawn args)).Moves (handleBridge env) Still := by
  apply Program.moves_perform
  intro s
  simp only [handleBridge]
  split
  · exact ⟨⟨rfl, .refl _, fun _ => Or.inl rfl, rfl, rfl, rfl, le_rfl⟩, rfl⟩
  · exact ⟨frame_ticked s, rfl⟩

theorem moves_cancel (ws pl : String) :
    (kernel (KernelController.cancel ws pl)).Moves (handleBridge env) Still := by
  intro s
  unfold KernelController.cancel
  split
  · exact .refl s
  · simp only [ask, Program.perform]
    rw [run_kernel_call]
    simp only [SqliteKernelStore.handle, faulted]
    refine ⟨frame_store ?_ 0, rfl⟩
    unfold SqliteKernelStore.deleteLease
    split
    · exact .refl _
    · exact ⟨rfl, rfl, rfl, rfl, rfl, rfl⟩

end Frames

end RootState

end HermesPipeline
