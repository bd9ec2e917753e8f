/-
Schedules of sidecars, stage workers and heartbeat threads.  Every thread
carries its ghost state; one inversion lists what a step can do to the lease
rows and to that state, and the lease results are read off it.
-/
import HermesPipeline.KernelSqliteEffects
import HermesPipeline.ReferenceCodec
import HermesPipeline.StageLeases

namespace HermesPipeline

open Lib KernelController

/-- A thread of a sidecar or of a worker. -/
structure StageThread where
  role : StageRole
  ghost : StageGhost
  bridge : Bridge
  program : BridgeProgram Unit

/-- The fields of `self` before the constructor has set them. -/
def Bridge.blank : Bridge :=
  ⟨false, .empty, .empty, .empty, .empty, .empty, .empty, .empty, .empty, .empty⟩

namespace StageThread

def start (env : StageEnv) (role : StageRole) (ghost : StageGhost) : StageThread :=
  ⟨role, ghost, .blank, role.program env⟩

/-- The thread has not ended. -/
def active (thread : StageThread) : Bool :=
  match thread.program with
  | .call _ _ => true
  | _ => false

/-- The lease that a thread has acquired and not released. -/
def holds (thread : StageThread) : Option LeaseClaim :=
  if thread.active then thread.ghost.holding.claim? else none

/-- The lease under which a thread has stages to run.  For the empty workspace
none is stored. -/
def needs (thread : StageThread) : Option LeaseClaim :=
  match thread.active, thread.ghost.holding with
  | true, .leased claim => if claim.workspaceId = "" then none else some claim
  | _, _ => none

theorem needs_eq_some {thread : StageThread} {claim : LeaseClaim} :
    thread.needs = some claim ↔ thread.active = true ∧
      thread.ghost.holding = .leased claim ∧ claim.workspaceId ≠ "" := by
  unfold needs
  cases thread.active with
  | false => simp
  | true =>
      cases thread.ghost.holding with
      | nothing => simp
      | spent other => simp
      | leased other =>
          by_cases hempty : other.workspaceId = ""
          · simp only [hempty, ↓reduceIte, reduceCtorEq, true_and, false_iff,
              not_and, not_not, Holding.leased.injEq]
            rintro rfl
            exact hempty
          · simp only [hempty, ↓reduceIte, Option.some.injEq, true_and,
              Holding.leased.injEq]
            constructor
            · rintro rfl
              exact ⟨rfl, hempty⟩
            · exact fun h => h.1

theorem holds_eq_some {thread : StageThread} {claim : LeaseClaim} :
    thread.holds = some claim ↔ thread.active = true ∧
      thread.ghost.holding.claim? = some claim := by
  unfold holds
  cases thread.active <;> simp

end StageThread

/-- What happens beside the threads: time passes, and a lease is acquired over
another or cancelled by a call of its own. -/
inductive StageChange
  | tick (seconds : Nat)
  | takeOver (workspaceId pipelineId holder : String) (ttlSeconds : Int)
  | cancel (workspaceId pipelineId : String)
deriving DecidableEq

namespace StageWorld

/-- The stored lease of a (workspace, pipeline). -/
def row (world : StageWorld) (key : String × String) : Option LeaseRecord :=
  world.store.loadLease key.1 key.2

def change (codec : Codec) (change : StageChange) (world : StageWorld) :
    StageWorld :=
  let handle := SqliteKernelStore.handle codec
  match change with
  | .tick seconds => { world with now := world.now + seconds }
  | .takeOver ws pl holder ttl =>
      let taken := (acquireLease ws pl holder world.now ttl).run handle world.store
      { world with store := taken.2 }
  | .cancel ws pl =>
      let cancelled := (KernelController.cancel ws pl).run handle world.store
      { world with store := cancelled.2 }

end StageWorld

/-- A sidecar that is started: does it start workers, and its requests. -/
structure SidecarCall where
  spawnWorker : Bool
  requests : List BridgeRequest

def stageRules (env : StageEnv) :
    Pool.Rules StageWorld StageThread SidecarCall StageChange where
  spawn := fun call _ =>
    .start env (.sidecar call.spawnWorker call.requests) ⟨.nothing, none⟩
  advance := fun thread world =>
    match thread.program with
    | .call op next =>
        let answer := world.answer env thread.bridge op
        ({ thread with
            ghost := thread.role.next thread.ghost op answer
            bridge := thread.bridge.after op
            program := next answer },
          world.after env op)
    | _ => (thread, world)
  fork := fun thread world =>
    match thread.program with
    | .call (.spawn args) _ =>
        match env.spawns world.effects with
        | .ok _ => some (.start env (.worker world.processes args)
            ⟨.leased args.claim, none⟩)
        | .error _ => none
    | .call (.startHeartbeat process args) _ =>
        some (.start env (.heartbeat process args) ⟨.nothing, none⟩)
    | _ => none
  change := StageWorld.change env.codec

abbrev StagePool := Pool StageWorld StageThread

abbrev StageLabel := Pool.Label SidecarCall StageChange

/-- Nothing has been started yet; the store may hold any rows. -/
def StagePool.init (store : SqliteKernelStore) (now : Int) : StagePool :=
  ⟨⟨store, now, 0, 0, []⟩, []⟩

/-- The thread has its turn, and this is its next effect. -/
def NextEffect (pool : StagePool) (label : StageLabel) (i : Nat)
    (thread : StageThread) (op : BridgeOp) : Prop :=
  label = .advance i ∧ pool.threads[i]? = some thread ∧
    ∃ next, thread.program = .call op next

section Rows

/-- The operations that leave the lease table alone. -/
def StoreOp.KeepsLeases : StoreOp → Prop
  | .saveLease _ => False
  | .deleteLease _ _ => False
  | .deleteExpiredLeases _ => False
  | _ => True

theorem SqliteKernelStore.leases_commitAccepted (s : SqliteKernelStore)
    (write : AcceptedWrite) : (s.commitAccepted write).2.leases = s.leases := by
  unfold commitAccepted
  split
  · rfl
  · next inserted hinsert =>
      obtain ⟨inbox, events, outbox, -, -, -, -, rfl⟩ :=
        insertAccepted_eq_some hinsert
      split
      · rfl
      · split <;> rfl

theorem SqliteKernelStore.leases_handle (codec : Codec) (s : SqliteKernelStore)
    {op : StoreOp} (hop : op.KeepsLeases) :
    (handle codec op s).2.leases = s.leases := by
  cases op with
  | saveLease | deleteLease | deleteExpiredLeases => exact hop.elim
  | findInbox | listEvents | listPendingOutbox | findOutbox | loadLease
  | counts => rfl
  | loadPipeline ws pl =>
      simp only [handle, loadPipeline]
      split
      · rfl
      · split <;> rfl
  | commitAccepted write => exact s.leases_commitAccepted write
  | deletePipeline ws pl =>
      simp only [handle, deletePipeline]
      split <;> rfl
  | recordOutboxDelivery ws cmd receipt =>
      simp only [handle, recordOutboxDelivery]
      split <;> rfl
  | rebuildPipeline ws pl =>
      simp only [handle, rebuildPipeline]
      split
      · rfl
      · split
        · rfl
        · split
          · simp only [deletePipeline]
            split <;> rfl
          · rfl

namespace StageWorld

variable (env : StageEnv) (world : StageWorld)

/-- Nothing is stored for the empty workspace. -/
theorem row_empty (pl : String) : world.row ("", pl) = none := rfl

/-- The lease row that an outside call saves. -/
theorem row_takeOver (ws pl holder : String) (ttl : Int) :
    let granted := grantedLease ws pl holder world.now ttl (world.row (ws, pl))
    (∀ key, (world.change env.codec (.takeOver ws pl holder ttl)).row key =
      if key = (ws, pl) ∧ ws ≠ "" then some granted else world.row key) ∨
    ∀ key, (world.change env.codec (.takeOver ws pl holder ttl)).row key =
      world.row key := by
  intro granted
  have hrun : (world.change env.codec (.takeOver ws pl holder ttl)).store =
      (((ask (.saveLease granted)).bind fun _ =>
        (.done granted : StoreProgram LeaseRecord)).run
          (sqliteLeases env.codec).handle world.store).2 := by
    simp only [change, acquireLease, Bool.not_true, Bool.and_false,
      Bool.false_eq_true, ↓reduceIte]
    rfl
  rcases (sqliteLeases env.codec).run_save world.store granted with
    ⟨store, hsaved, -, hrows⟩ | hfailed
  · refine Or.inl ?_
    intro key
    rw [row, hrun, hsaved]
    exact hrows key
  · refine Or.inr ?_
    intro key
    rw [row, hrun, hfailed]
    rfl

theorem row_cancel (ws pl : String) (key : String × String) :
    (world.change env.codec (.cancel ws pl)).row key =
      if key = (ws, pl) then none else world.row key := by
  simp only [change, KernelController.cancel]
  split
  · next hempty =>
      split
      · next hkey =>
          subst hkey hempty
          rfl
      · rfl
  · exact world.store.loadLease_deleteLease ws pl key

theorem now_after (op : BridgeOp) : (world.after env op).now = world.now := by
  cases op <;> rfl

/-- An effect that does not touch the lease table keeps every row. -/
theorem row_after {op : BridgeOp} (hop : ∀ o, op = .store o → o.KeepsLeases)
    (key : String × String) : (world.after env op).row key = world.row key := by
  cases op with
  | store op =>
      have hleases := world.store.leases_handle env.codec (hop op rfl)
      simp only [row, after, SqliteKernelStore.loadLease, hleases]
  | _ => rfl

end StageWorld

end Rows

/-- What every thread knows of itself.  Stages run under the lease that was
acquired for them, or inline without one; a worker has the lease it was started
with. -/
structure StageThread.Sound (env : StageEnv) (thread : StageThread) : Prop where
  obeys : thread.program.Obeys (stageMonitor env.toBridgeCodec thread.role)
    (fun _ _ => True) thread.ghost
  running : ∀ ws pl, thread.ghost.running = some (ws, pl) →
    (∃ claim, thread.ghost.holding = .leased claim ∧ claim.key = (ws, pl)) ∨
      thread.ghost.holding = .nothing ∧ thread.role.inline = true
  claim : ∀ process args claim, thread.role = .worker process args →
    thread.ghost.holding.claim? = some claim → claim = args.claim

/-- What a step of a thread does to its ghost state and to the lease rows. -/
inductive StageMove (env : StageEnv) (thread : StageThread) (world : StageWorld) :
    StageGhost → (String × String → Option LeaseRecord) → Prop
  | worked : StageMove env thread world thread.ghost world.row
  | acquired {spawnWorker : Bool} {requests : List BridgeRequest}
      {record : LeaseRecord}
      (role : thread.role = .sidecar spawnWorker requests)
      (program : ∃ next, thread.program = .call (.store (.saveLease record)) next)
      (fits : SqliteKernelStore.fitsLease record = true)
      (free : thread.ghost = ⟨.nothing, none⟩)
      (request : ∃ request ∈ requests,
        request.key env.toBridgeCodec = record.key) :
      StageMove env thread world ⟨.leased record.claim, none⟩ fun key =>
        if key = record.key ∧ record.workspaceId ≠ "" then some record
        else world.row key
  | renewed {record : LeaseRecord}
      (program : ∃ next, thread.program = .call (.store (.saveLease record)) next)
      (fits : SqliteKernelStore.fitsLease record = true)
      (free : thread.ghost = ⟨.nothing, none⟩) :
      StageMove env thread world thread.ghost fun key =>
        if key = record.key ∧ record.workspaceId ≠ "" then some record
        else world.row key
  | released {ws pl : String} {claim : LeaseClaim}
      (program : ∃ next, thread.program = .call (.store (.deleteLease ws pl)) next)
      (idle : thread.ghost.running = none)
      (claim_eq : thread.ghost.holding.claim? = some claim)
      (key_eq : claim.key = (ws, pl)) :
      StageMove env thread world ⟨.nothing, none⟩ fun key =>
        if key = (ws, pl) then none else world.row key
  | forgot (idle : thread.ghost.running = none) :
      StageMove env thread world ⟨.nothing, none⟩ world.row
  | entered {ws pl : String}
      (program : ∃ next, thread.program = .call (.enterStages ws pl) next)
      (idle : thread.ghost.running = none)
      (entry : (∃ claim, thread.ghost.holding = .leased claim ∧
          claim.key = (ws, pl)) ∨
        thread.ghost.holding = .nothing ∧ thread.role.inline = true) :
      StageMove env thread world ⟨thread.ghost.holding, some (ws, pl)⟩ world.row
  | left : StageMove env thread world ⟨thread.ghost.holding.spend, none⟩ world.row

section Moves

variable {env : StageEnv} {thread : StageThread}

/-- A save that fits is the new row; one that does not changes nothing. -/
theorem StageThread.move_save {world : StageWorld} {record : LeaseRecord}
    {next : Except BridgeError (Except PyError Unit) → BridgeProgram Unit}
    (hsound : thread.Sound env)
    (hprogram : thread.program = .call (.store (.saveLease record)) next) :
    StageMove env thread world ((stageRules env).advance thread world).1.ghost
      ((stageRules env).advance thread world).2.row := by
  have hallows := hsound.obeys
  rw [hprogram] at hallows
  obtain ⟨⟨hfree, hrole⟩, -⟩ := hallows
  simp only [stageRules, hprogram, StageWorld.answer, SqliteKernelStore.handle]
  cases hfits : SqliteKernelStore.fitsLease record with
  | false =>
      have hrows : (world.after env (.store (.saveLease record))).row =
          world.row := by
        funext key
        simp only [StageWorld.row, StageWorld.after, SqliteKernelStore.handle,
          world.store.saveLease_unfit hfits]
      rw [world.store.saveLease_unfit hfits, hrows]
      exact .worked
  | true =>
      obtain ⟨hsaved, hstored⟩ := world.store.saveLease_fits hfits
      have hrows : (world.after env (.store (.saveLease record))).row = fun key =>
          if key = record.key ∧ record.workspaceId ≠ "" then some record
          else world.row key := funext hstored
      rw [hsaved, hrows]
      cases role_eq : thread.role with
      | sidecar spawnWorker requests =>
          rw [role_eq] at hrole
          simp only [StageRole.next, hfree]
          exact .acquired role_eq ⟨next, hprogram⟩ hfits hfree hrole
      | worker process args =>
          rw [role_eq] at hrole
          exact hrole.elim
      | heartbeat process args => exact .renewed ⟨next, hprogram⟩ hfits hfree

theorem StageThread.move (world : StageWorld) (hsound : thread.Sound env) :
    StageMove env thread world ((stageRules env).advance thread world).1.ghost
      ((stageRules env).advance thread world).2.row := by
  cases hprogram : thread.program with
  | done value =>
      simp only [stageRules, hprogram]
      exact .worked
  | raise error =>
      simp only [stageRules, hprogram]
      exact .worked
  | call op next =>
      have hallows := hsound.obeys
      rw [hprogram] at hallows
      replace hallows := hallows.1
      -- everything but a save and a delete keeps the rows
      have hrows : (∀ o, op = .store o → o.KeepsLeases) →
          (world.after env op).row = world.row :=
        fun hop => funext (world.row_after env hop)
      cases op with
      | store op =>
          cases op with
          | saveLease record => exact StageThread.move_save hsound hprogram
          | deleteLease ws pl =>
              obtain ⟨hidle, claim, hclaim, hkey⟩ := hallows
              have hdeleted : (world.after env (.store (.deleteLease ws pl))).row =
                  fun key => if key = (ws, pl) then none else world.row key :=
                funext (world.store.loadLease_deleteLease ws pl)
              simp only [stageRules, hprogram, StageWorld.answer,
                SqliteKernelStore.handle, StageRole.next, hidle]
              rw [hdeleted]
              exact .released ⟨next, hprogram⟩ hidle hclaim hkey
          | deleteExpiredLeases => exact hallows.elim
          | findInbox | loadPipeline | commitAccepted | listEvents
          | rebuildPipeline | deletePipeline | listPendingOutbox
          | recordOutboxDelivery | findOutbox | loadLease | counts =>
              simp only [stageRules, hprogram]
              rw [hrows (by rintro _ ⟨⟩; trivial)]
              exact .worked
      | spawn args =>
          have hidle : thread.ghost.running = none := by rw [hallows]
          simp only [stageRules, hprogram]
          rw [hrows (fun _ h => by cases h)]
          simp only [StageWorld.answer]
          cases env.spawns world.effects with
          | error error => exact .worked
          | ok _ =>
              simp only [StageRole.next, hidle]
              exact .forgot hidle
      | receive =>
          simp only [stageRules, hprogram]
          rw [hrows (fun _ h => by cases h)]
          have hidle : thread.ghost.running = none := hallows
          simp only [StageRole.next, hidle]
          exact .forgot hidle
      | enterStages ws pl =>
          simp only [stageRules, hprogram]
          rw [hrows (fun _ h => by cases h)]
          exact .entered ⟨next, hprogram⟩ hallows.1 hallows.2
      | leaveStages ws pl =>
          simp only [stageRules, hprogram]
          rw [hrows (fun _ h => by cases h)]
          exact .left
      | memory | assign | time | construct | write | develop | verify | publish
      | startHeartbeat | stopHeartbeat | waitHeartbeat =>
          simp only [stageRules, hprogram]
          exact .worked

theorem StageThread.advance_role (world : StageWorld) :
    ((stageRules env).advance thread world).1.role = thread.role := by
  simp only [stageRules]
  split <;> rfl

theorem StageThread.advance_now (world : StageWorld) :
    ((stageRules env).advance thread world).2.now = world.now := by
  simp only [stageRules]
  split
  · exact world.now_after env _
  · rfl

/-- A thread that has ended stays so. -/
theorem StageThread.active_of_advance {world : StageWorld}
    (hactive : ((stageRules env).advance thread world).1.active = true) :
    thread.active = true := by
  simp only [stageRules] at hactive
  split at hactive
  · next hprogram => simp only [StageThread.active, hprogram]
  · exact hactive

theorem StageThread.Sound.advance (hsound : thread.Sound env)
    (world : StageWorld) :
    ((stageRules env).advance thread world).1.Sound env := by
  have hmove := StageThread.move world hsound
  have hrole : ((stageRules env).advance thread world).1.role = thread.role :=
    StageThread.advance_role world
  refine ⟨?_, ?_, ?_⟩
  · have hobeys := hsound.obeys
    simp only [stageRules]
    split
    · next op next hprogram =>
        rw [hprogram] at hobeys
        exact hobeys.2 _
    · exact hobeys
  · intro ws pl hrunning
    rw [hrole]
    generalize ((stageRules env).advance thread world).1.ghost = ghost
      at hmove hrunning ⊢
    generalize ((stageRules env).advance thread world).2.row = rows at hmove
    cases hmove with
    | worked => exact hsound.running ws pl hrunning
    | renewed program fits free => exact hsound.running ws pl hrunning
    | entered program idle entry =>
        cases hrunning
        exact entry
    | acquired | released | forgot | left => cases hrunning
  · intro process args claim hworker hclaim
    rw [hrole] at hworker
    generalize ((stageRules env).advance thread world).1.ghost = ghost
      at hmove hclaim
    generalize ((stageRules env).advance thread world).2.row = rows at hmove
    cases hmove with
    | acquired role =>
        rw [hworker] at role
        cases role
    | released | forgot => cases hclaim
    | left =>
        rw [Holding.claim?_spend] at hclaim
        exact hsound.claim process args claim hworker hclaim
    | worked => exact hsound.claim process args claim hworker hclaim
    | renewed program fits free =>
        exact hsound.claim process args claim hworker hclaim
    | entered program idle entry =>
        exact hsound.claim process args claim hworker hclaim

/-- The threads that a thread starts: a worker gets the lease of the sidecar
that starts it, which then has none. -/
inductive StageFork (env : StageEnv) (thread : StageThread) (world : StageWorld)
    (child : StageThread) : Prop
  | worker {process : Nat} {args : WorkerArgs}
      (active : thread.active = true)
      (leased : thread.ghost = ⟨.leased args.claim, none⟩)
      (handed : ((stageRules env).advance thread world).1.ghost = ⟨.nothing, none⟩)
      (rows : ((stageRules env).advance thread world).2.row = world.row)
      (child_eq : child =
        .start env (.worker process args) ⟨.leased args.claim, none⟩)
  | heartbeat {process : Nat} {args : WorkerArgs}
      (child_eq : child = .start env (.heartbeat process args) ⟨.nothing, none⟩)

theorem StageThread.fork {world : StageWorld} {child : StageThread}
    (hsound : thread.Sound env)
    (hfork : (stageRules env).fork thread world = some child) :
    StageFork env thread world child := by
  have hallows := hsound.obeys
  simp only [stageRules] at hfork
  split at hfork
  · next args next hprogram =>
      rw [hprogram] at hallows
      have hleased : thread.ghost = ⟨.leased args.claim, none⟩ := hallows.1
      split at hfork
      · next hspawned =>
          cases hfork
          refine .worker ?_ hleased ?_ ?_ rfl
          · simp only [StageThread.active, hprogram]
          · simp only [stageRules, hprogram, StageWorld.answer, hspawned,
              StageRole.next, hleased]
          · simp only [stageRules, hprogram]
            rfl
      · cases hfork
  · cases hfork
    exact .heartbeat rfl
  · cases hfork

theorem StageThread.sound_start (role : StageRole) {ghost : StageGhost}
    (hidle : ghost.running = none)
    (hghost : match role with
      | .worker _ args => ghost.holding = .leased args.claim
      | _ => ghost.holding = .nothing) :
    (StageThread.start env role ghost).Sound env := by
  obtain ⟨holding, running⟩ := ghost
  subst hidle
  cases role with
  | sidecar spawnWorker requests =>
      subst hghost
      exact ⟨StageRole.obeys_sidecar, (fun _ _ h => by cases h),
        (fun _ _ _ h => by cases h)⟩
  | worker process args =>
      subst hghost
      refine ⟨?_, (fun _ _ h => by cases h), ?_⟩
      · exact (StageRole.obeys_stageWorker process args).bind (fun _ _ _ => trivial)
          (fun _ _ _ => trivial)
      · rintro _ _ _ ⟨⟩ ⟨⟩
        rfl
  | heartbeat process args =>
      subst hghost
      exact ⟨StageRole.obeys_heartbeatLoop rfl env.turns, (fun _ _ h => by cases h),
        (fun _ _ _ h => by cases h)⟩

/-- Every thread of every schedule is sound. -/
theorem sound_step {pool : StagePool}
    (hpool : ∀ thread ∈ pool.threads, thread.Sound env) (label : StageLabel) :
    ∀ thread ∈ (Pool.step (stageRules env) pool label).threads,
      thread.Sound env := by
  refine Pool.threads_step (I := fun _ thread => thread.Sound env) (stageRules env)
    ?_ ?_ ?_ ?_
  · intro call _
    exact StageThread.sound_start _ rfl rfl
  · intro i thread _ hthread
    exact (hpool thread (List.mem_of_getElem? hthread)).advance pool.shared
  · intro i thread _ hthread child hchild
    cases StageThread.fork (hpool thread (List.mem_of_getElem? hthread)) hchild with
    | worker _ _ _ _ child_eq =>
        rw [child_eq]
        exact StageThread.sound_start _ rfl rfl
    | heartbeat child_eq =>
        rw [child_eq]
        exact StageThread.sound_start _ rfl rfl
  · intro k thread _ hthread
    exact hpool thread (List.mem_of_getElem? hthread)

end Moves

-- A planned pipeline of a small project, for schedules that can be run.
namespace StageSample

open ReferenceCodec

def registry : ProjectRegistry :=
  ⟨Dict.set .empty "prj_a" "Exporter",
    Dict.set .empty ("prj_a", "usr_a") .admin⟩

def planning : Dict String String :=
  rowOf [("prd_id", "prd-1"), ("prd_status", "READY"), ("prd_gate", "PASS")]

def design : Dict String String :=
  rowOf [("design_id", "design-1"), ("testplan_id", "plan-1"),
    ("arch_status", "READY"), ("arch_gate", "PASS")]

/-- What a bridge loads: both planning gates have passed. -/
def bridge : Bridge :=
  { Bridge.blank with
    registry := registry
    prd := Dict.set .empty "pl_a" planning
    arch := Dict.set .empty "pl_a" design }

def development : DevelopmentResult :=
  ⟨.completed, some "impl-1", some ⟨"c0ffee", "worktrees/pl_a"⟩, "", true⟩

/-- The text that is hashed for the first record of a station. -/
def recordText (station : Station) (revision : Nat) (fields : Dict String String) :
    String :=
  match KernelBridge.stationCommand "ws_a" "prj_a" "pl_a"
      ("cmd_pl_a_" ++ station.value ++ "_1") station revision fields with
  | some command => (Json.obj command.modelDump).canon.toText
  | none => ""

/-- SHA-256 on the commands of the sample schedules. -/
def digest : Equiv.Perm String :=
  (digestOf
    [(recordText .approval 1
        (rowOf [("approval_status", "APPROVED"), ("approver_id", "usr_a")]),
        "4657215fec33de5e06c5758cfb4735e1bb0942929b884d1e1af78386be81ef16"),
      (recordText .development 2 (KernelBridge.developmentRow development),
        "88138283fef7564d4c7d38a9d04345872ca3588aced0b53692e310966e85e207")]).trans
    sampleDigest

/-- Every outside effect succeeds; a heartbeat thread turns once. -/
def env : StageEnv where
  codec := referenceCodec digest
  dumps := Json.toText
  turns := 1
  constructs := fun _ => .ok bridge
  writes := fun _ => .ok ()
  develops := fun _ => .ok development
  verifies := fun _ => some ⟨.ready, some "e2e-1", some "acc-1", ""⟩
  publishes := fun _ => .ok none
  spawns := fun _ => .ok ()

/-- The requirement of the pipeline is confirmed. -/
def confirmed : SqliteKernelStore :=
  (((KernelBridge.controller env.codec).submit sampleConfirm).run
    (SqliteKernelStore.handle env.codec) .init).2

def request (workspaceId : String) : List (String × Json) :=
  [("pipeline_id", .str "pl_a"), ("project_id", .str "prj_a"),
    ("principal_id", .str "usr_a"), ("workspace_id", .str workspaceId)]

/-- A sidecar that starts workers gets an approve for each workspace. -/
def approves (workspaceIds : List String) : StageLabel :=
  .start ⟨true, workspaceIds.map fun workspaceId =>
    .approve (request workspaceId)⟩

/-- A thread takes a number of steps. -/
def steps (thread count : Nat) : List StageLabel :=
  List.replicate count (.advance thread)

/-- The thread whose turn it is, with its next effect. -/
def effect? (pool : StagePool) (i : Nat) : Option (StageThread × BridgeOp) :=
  match pool.threads[i]? with
  | some thread =>
      match thread.program with
      | .call op _ => some (thread, op)
      | _ => none
  | none => none

theorem effect?_of_next {pool : StagePool} {label : StageLabel} {i : Nat}
    {thread : StageThread} {op : BridgeOp}
    (hnext : NextEffect pool label i thread op) :
    effect? pool i = some (thread, op) := by
  obtain ⟨-, hthread, next, hprogram⟩ := hnext
  simp only [effect?, hthread, hprogram]

theorem next_of_effect? {pool : StagePool} {i : Nat} {thread : StageThread}
    {op : BridgeOp} (heffect : effect? pool i = some (thread, op)) :
    NextEffect pool (.advance i) i thread op := by
  unfold effect? at heffect
  split at heffect
  · next hthread =>
      split at heffect
      · next next hprogram =>
          cases heffect
          exact ⟨rfl, hthread, next, hprogram⟩
      · cases heffect
  · cases heffect

/-- All threads but one pass a check. -/
def others (pool : StagePool) (i : Nat) (check : StageThread → Bool) : Bool :=
  pool.threads.zipIdx.all fun entry => entry.2 = i || check entry.1

theorem check_of_others {pool : StagePool} {i j : Nat} {other : StageThread}
    {check : StageThread → Bool} (hothers : others pool i check = true)
    (hj : j ≠ i) (hother : pool.threads[j]? = some other) : check other = true := by
  have hmem : (other, j) ∈ pool.threads.zipIdx :=
    List.mem_zipIdx_iff_getElem?.mpr hother
  have hentry := List.all_eq_true.mp hothers _ hmem
  simpa [hj] using hentry

end StageSample

end HermesPipeline
