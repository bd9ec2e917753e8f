/-
The leases of sidecars, stage workers and heartbeat threads over one store.  A
ghost beside each thread says which lease it has acquired and which stage
execution it is in; every program obeys the rules below on when a lease row is
saved or deleted and when stages are entered.
-/
import HermesPipeline.KernelBridgeEffects
import HermesPipeline.KernelLease
import HermesPipeline.Lib.Machine
import HermesPipeline.Lib.Monitor

namespace HermesPipeline

open Lib KernelController

/-- The identity of an acquired lease. -/
structure LeaseClaim where
  workspaceId : String
  pipelineId : String
  holder : String
  generation : Nat
deriving Repr, DecidableEq

def LeaseClaim.key (claim : LeaseClaim) : String × String :=
  (claim.workspaceId, claim.pipelineId)

def LeaseRecord.claim (record : LeaseRecord) : LeaseClaim :=
  ⟨record.workspaceId, record.pipelineId, record.holder, record.generation⟩

def WorkerArgs.claim (args : WorkerArgs) : LeaseClaim :=
  ⟨args.workspaceId, args.pipelineId, args.holder, args.generation⟩

/-- The programs that run over one state root. -/
inductive StageRole
  | sidecar (spawnWorker : Bool) (requests : List BridgeRequest)
  | worker (process : Nat) (args : WorkerArgs)
  | heartbeat (process : Nat) (args : WorkerArgs)

namespace StageRole

def program (env : StageEnv) : StageRole → BridgeProgram Unit
  | .sidecar spawnWorker requests =>
      HermesPipeline.sidecar env.toBridgeCodec spawnWorker requests
  | .worker process args =>
      (stageWorker env.toBridgeCodec process args).bind fun _ => .done ()
  | .heartbeat process args => heartbeatLoop process args env.turns

/-- A sidecar that starts no workers runs retries without a lease. -/
def inline : StageRole → Bool
  | .sidecar spawnWorker _ => !spawnWorker
  | _ => false

end StageRole

/-- The lease of a thread: none, one whose stages are to come or in progress,
or one that is left to be released. -/
inductive Holding
  | nothing
  | leased (claim : LeaseClaim)
  | spent (claim : LeaseClaim)
deriving Repr, DecidableEq

namespace Holding

def claim? : Holding → Option LeaseClaim
  | .nothing => none
  | .leased claim => some claim
  | .spent claim => some claim

/-- The stages are over. -/
def spend : Holding → Holding
  | .leased claim => .spent claim
  | holding => holding

@[simp] theorem claim?_spend (holding : Holding) :
    holding.spend.claim? = holding.claim? := by
  cases holding <;> rfl

end Holding

/-- What a thread has done about leases and stages so far. -/
structure StageGhost where
  holding : Holding
  running : Option (String × String)
deriving Repr, DecidableEq

/-- The effects a thread may have in its ghost state. -/
def StageRole.Allows (env : BridgeCodec) (role : StageRole) (ghost : StageGhost) :
    BridgeOp → Prop
  | .store (.saveLease record) => ghost = ⟨.nothing, none⟩ ∧
      match role with
      | .sidecar _ requests => ∃ request ∈ requests, request.key env = record.key
      | .worker _ _ => False
      | .heartbeat _ _ => True
  | .store (.deleteLease ws pl) => ghost.running = none ∧
      ∃ claim, ghost.holding.claim? = some claim ∧ claim.key = (ws, pl)
  | .store (.deleteExpiredLeases _) => False
  | .store (.commitAccepted write) => ∀ ws pl, ghost.running = some (ws, pl) →
      WritesTo ws pl write
  | .spawn args => ghost = ⟨.leased args.claim, none⟩
  | .receive => ghost.running = none
  | .enterStages ws pl => ghost.running = none ∧
      ((∃ claim, ghost.holding = .leased claim ∧ claim.key = (ws, pl)) ∨
        ghost.holding = .nothing ∧ role.inline = true)
  | .leaveStages ws pl => ghost.running = some (ws, pl)
  | _ => True

/-- The ghost state after an effect.  A sidecar that takes up the next request
is done with the lease of the last one. -/
def StageRole.next (role : StageRole) (ghost : StageGhost) :
    (op : BridgeOp) → Except BridgeError op.Answer → StageGhost
  | .store (.saveLease record), .ok (.ok _) =>
      match role with
      | .sidecar _ _ => { ghost with holding := .leased record.claim }
      | _ => ghost
  | .store (.deleteLease _ _), .ok (.ok _) => { ghost with holding := .nothing }
  | .spawn _, .ok _ => { ghost with holding := .nothing }
  | .receive, _ => { ghost with holding := .nothing }
  | .enterStages ws pl, .ok _ => { ghost with running := some (ws, pl) }
  | .leaveStages _ _, _ => ⟨ghost.holding.spend, none⟩
  | _, _ => ghost

def stageMonitor (env : BridgeCodec) (role : StageRole) :
    Monitor BridgeOp BridgeOp.Answer BridgeError StageGhost where
  allows := role.Allows env
  next := role.next

namespace StageRole

variable {env : BridgeCodec} {role : StageRole} {ghost : StageGhost} {α : Type}

/-- The work of a stage is allowed as long as its commits go to the pipeline
whose stages are running. -/
theorem obeys_works {commits : AcceptedWrite → Prop} {p : BridgeProgram α}
    (hp : p.Calls (BridgeOp.Works commits))
    (hcommits : ∀ ws pl, ghost.running = some (ws, pl) → ∀ write, commits write →
      WritesTo ws pl write) :
    p.Obeys (stageMonitor env role) (fun g _ => g = ghost) ghost := by
  refine .of_calls hp ?_
  intro op hop
  cases op with
  | memory | assign | construct | write | develop | verify | publish =>
      exact ⟨trivial, fun _ => rfl⟩
  | store op =>
      cases op with
      | commitAccepted write =>
          exact ⟨fun ws pl hrunning => hcommits ws pl hrunning write hop,
            fun _ => rfl⟩
      | findInbox | loadPipeline | listEvents | listPendingOutbox
      | recordOutboxDelivery => exact ⟨trivial, fun _ => rfl⟩
      | rebuildPipeline | deletePipeline | findOutbox | loadLease | saveLease
      | deleteLease | deleteExpiredLeases | counts => exact hop.elim
  | time | spawn | receive | startHeartbeat | stopHeartbeat | waitHeartbeat
  | enterStages | leaveStages => exact hop.elim

/-- Outside of stages all work is allowed. -/
theorem obeys_idle {p : BridgeProgram α}
    (hp : p.Calls (BridgeOp.Works fun _ => True)) (hidle : ghost.running = none) :
    p.Obeys (stageMonitor env role) (fun g _ => g = ghost) ghost := by
  refine obeys_works hp ?_
  intro ws pl hrunning
  rw [hidle] at hrunning
  cases hrunning

theorem obeys_insideStages {ws pl : String} {stages : BridgeProgram α}
    (hstages : stages.Calls (BridgeOp.Works (WritesTo ws pl)))
    (hidle : ghost.running = none)
    (hentry : (∃ claim, ghost.holding = .leased claim ∧ claim.key = (ws, pl)) ∨
      ghost.holding = .nothing ∧ role.inline = true) :
    (KernelBridge.insideStages ws pl stages).Obeys (stageMonitor env role)
      (fun g _ => g.running = none ∧ g.holding.claim? = ghost.holding.claim?)
      ghost := by
  refine ⟨⟨hidle, hentry⟩, ?_⟩
  intro answer
  cases answer with
  | error error => exact ⟨hidle, rfl⟩
  | ok answer =>
      -- the ghost state while the stages run
      have hinside : stages.Obeys (stageMonitor env role)
          (fun g _ => g = ⟨ghost.holding, some (ws, pl)⟩)
          ⟨ghost.holding, some (ws, pl)⟩ := by
        refine obeys_works hstages ?_
        rintro _ _ ⟨⟩ write hwrite
        exact hwrite
      refine hinside.observe ?_
      rintro _ outcome rfl
      refine ⟨rfl, ?_⟩
      intro answer
      cases answer with
      | error error => exact ⟨rfl, ghost.holding.claim?_spend⟩
      | ok answer =>
          cases outcome <;> exact ⟨rfl, ghost.holding.claim?_spend⟩

theorem obeys_runLeasedStages {ws pl : String} (prj principal : String)
    (hidle : ghost.running = none)
    (hleased : ∃ claim, ghost.holding = .leased claim ∧ claim.key = (ws, pl)) :
    (KernelBridge.runLeasedStages env ws prj pl principal).Obeys
      (stageMonitor env role)
      (fun g _ => g.running = none ∧ g.holding.claim? = ghost.holding.claim?)
      ghost := by
  refine obeys_insideStages ?_ hidle (Or.inl hleased)
  refine (KernelBridge.works_hydrateFromEvents env ws pl).bind fun _ => ?_
  refine (KernelBridge.works_advanceDevelopment env (fun _ h => h) _ _).bind
    fun _ => ?_
  refine (KernelBridge.works_advanceVerify env (fun _ h => h) _).bind fun _ => ?_
  exact (calls_effect trivial).bind fun _ => trivial

theorem obeys_time :
    (perform .time).Obeys (stageMonitor env role) (fun g _ => g = ghost) ghost :=
  .perform trivial fun _ => rfl

theorem obeys_loadLease (ws pl : String) :
    (kernel (ask (.loadLease ws pl))).Obeys (stageMonitor env role)
      (fun g _ => g = ghost) ghost :=
  obeys_ask (.loadLease ws pl) trivial (fun _ => rfl) (fun _ => rfl) (fun _ => rfl)

/-- A thread releases the lease it has. -/
theorem obeys_cancel {ws pl : String} (hidle : ghost.running = none)
    (hclaim : ∃ claim, ghost.holding.claim? = some claim ∧ claim.key = (ws, pl)) :
    (kernel (KernelController.cancel ws pl)).Obeys (stageMonitor env role)
      (fun g _ => g.running = none) ghost := by
  unfold KernelController.cancel
  split
  · exact hidle
  · exact obeys_ask (.deleteLease ws pl) ⟨hidle, hclaim⟩ (fun _ => hidle)
      (fun _ => hidle) (fun _ => hidle)

/-- An acquire of a sidecar for one of its requests. -/
theorem obeys_acquireLease {spawnWorker : Bool} {requests : List BridgeRequest}
    {request : BridgeRequest} (hrequest : request ∈ requests) {ws pl : String}
    (hkey : request.key env = (ws, pl)) (now : Int) :
    (kernel (acquireLease ws pl (KernelBridge.workerName pl) now 1800
        false)).Obeys (stageMonitor env (.sidecar spawnWorker requests))
      (fun g outcome => g.running = none ∧ ∀ lease, outcome = .ok lease →
        g = ⟨.leased ⟨ws, pl, KernelBridge.workerName pl, lease.generation⟩, none⟩)
      ⟨.nothing, none⟩ := by
  have hsave : ∀ record : LeaseRecord, request.key env = record.key →
      (kernel (ask (.saveLease record))).Obeys
        (stageMonitor env (.sidecar spawnWorker requests))
        (fun g outcome => g.running = none ∧
          (outcome = .ok () → g = ⟨.leased record.claim, none⟩))
        ⟨.nothing, none⟩ := by
    intro record hrecord
    exact obeys_ask (.saveLease record) ⟨rfl, request, hrequest, hrecord⟩
      (fun _ => ⟨rfl, fun _ => rfl⟩) (fun _ => ⟨rfl, fun h => by cases h⟩)
      (fun _ => ⟨rfl, fun h => by cases h⟩)
  rw [acquireLease, kernel_bind]
  refine (obeys_loadLease ws pl).bind_same ?_ ?_
  · intro current
    split
    · exact ⟨rfl, fun _ h => by cases h⟩
    · rw [kernel_bind]
      refine (hsave (grantedLease ws pl (KernelBridge.workerName pl) now 1800
        current) hkey).bind ?_ ?_
      · rintro g _ ⟨hidle, hsaved⟩
        refine ⟨hidle, ?_⟩
        rintro _ ⟨⟩
        exact hsaved rfl
      · rintro g error ⟨hidle, -⟩
        exact ⟨hidle, fun _ h => by cases h⟩
  · intro error
    exact ⟨rfl, fun _ h => by cases h⟩

section Sidecar

variable {spawnWorker : Bool} {requests : List BridgeRequest}

/-- Every continuation of an acquire starts with the acquired lease. -/
theorem obeys_acquireOrBusy {request : BridgeRequest}
    (hrequest : request ∈ requests) {ws pl : String}
    (hkey : request.key env = (ws, pl)) (now : Int)
    {next : LeaseRecord → BridgeProgram Json}
    (hnext : ∀ lease, (next lease).Obeys
      (stageMonitor env (.sidecar spawnWorker requests))
      (fun g _ => g.running = none)
      ⟨.leased ⟨ws, pl, KernelBridge.workerName pl, lease.generation⟩, none⟩) :
    (KernelBridge.acquireOrBusy ws pl now next).Obeys
      (stageMonitor env (.sidecar spawnWorker requests))
      (fun g _ => g.running = none) ⟨.nothing, none⟩ := by
  refine (obeys_acquireLease hrequest hkey now).observe ?_
  rintro g outcome ⟨hidle, hleased⟩
  split
  · next lease =>
      rw [hleased lease rfl]
      exact hnext lease
  · exact hidle
  · exact hidle

section Leased

variable {claim : LeaseClaim}

theorem obeys_commitApproval (ws prj pl principal : String) :
    (KernelBridge.commitApproval env pl prj principal ws).Obeys
      (stageMonitor env role) (fun g _ => g = ⟨.leased claim, none⟩)
      ⟨.leased claim, none⟩ :=
  obeys_idle (KernelBridge.works_commitApproval env (fun _ _ => trivial) prj
    principal) rfl

theorem obeys_runApproved {ws pl : String} (hkey : claim.key = (ws, pl))
    (prj principal : String) :
    (KernelBridge.runApproved env pl prj principal ws).Obeys
      (stageMonitor env role)
      (fun g _ => g.running = none ∧ g.holding.claim? = some claim)
      ⟨.leased claim, none⟩ := by
  refine (obeys_commitApproval ws prj pl principal).bind_same ?_
    (fun _ => ⟨rfl, rfl⟩)
  intro failed
  cases failed with
  | some message => exact ⟨rfl, rfl⟩
  | none =>
      exact (obeys_runLeasedStages prj principal rfl ⟨claim, rfl, hkey⟩).bind
        (fun _ _ h => h) (fun _ _ h => h)

/-- A baseline that cannot be approved is released, a worker is started with
the lease, and an inline approve releases it in the end. -/
theorem obeys_approveLeased (spawnWorker : Bool) (ws prj pl principal : String)
    (lease : LeaseRecord)
    (hclaim : claim = ⟨ws, pl, KernelBridge.workerName pl, lease.generation⟩) :
    (KernelBridge.approveLeased env spawnWorker ws prj pl principal lease).Obeys
      (stageMonitor env role) (fun g _ => g.running = none)
      ⟨.leased claim, none⟩ := by
  have hkey : claim.key = (ws, pl) := by rw [hclaim]; rfl
  unfold KernelBridge.approveLeased
  split
  · refine (obeys_commitApproval ws prj pl principal).bind_same ?_ (fun _ => rfl)
    intro failed
    cases failed with
    | some message =>
        have hcancel : (kernel (KernelController.cancel ws pl)).Obeys
            (stageMonitor env role) (fun g _ => g.running = none)
            ⟨.leased claim, none⟩ := obeys_cancel rfl ⟨claim, rfl, hkey⟩
        exact hcancel.bind (fun _ _ h => h) (fun _ _ h => h)
    | none =>
        subst hclaim
        refine ⟨rfl, ?_⟩
        intro answer
        cases answer <;> rfl
  · refine (obeys_runApproved hkey prj principal).observe ?_
    rintro g outcome ⟨hidle, hheld⟩
    refine (obeys_cancel hidle ⟨claim, hheld, hkey⟩).bind ?_ (fun _ _ h => h)
    intro g' _ hidle'
    cases outcome <;> exact hidle'

end Leased

theorem obeys_approveBaseline {payload : List (String × Json)}
    (hrequest : .approve payload ∈ requests) :
    (KernelBridge.approveBaseline env spawnWorker payload).Obeys
      (stageMonitor env (.sidecar spawnWorker requests))
      (fun g _ => g.running = none) ⟨.nothing, none⟩ := by
  refine obeys_time.bind_same ?_ (fun _ => rfl)
  intro now
  refine (obeys_loadLease _ _).bind_same ?_ (fun _ => rfl)
  intro held
  split
  · rfl
  · refine (obeys_idle (KernelBridge.works_hydrateFromEvents env _ _)
      rfl).bind_same ?_ (fun _ => rfl)
    intro _
    refine Program.Obeys.bind_same (.perform trivial fun _ => rfl) ?_ (fun _ => rfl)
    intro bridge
    split
    · rfl
    · split
      · rfl
      · exact obeys_acquireOrBusy hrequest rfl now fun lease =>
          obeys_approveLeased spawnWorker _ _ _ _ lease rfl

theorem obeys_retryInline {ids : KernelBridge.RequestIds} (infra : Bool)
    (used infraUsed : Int) (hinline : role.inline = true) :
    (KernelBridge.retryInline env ids infra used infraUsed).Obeys
      (stageMonitor env role) (fun g _ => g.running = none) ⟨.nothing, none⟩ := by
  refine (obeys_idle (KernelBridge.works_dropStages _) rfl).bind_same ?_
    (fun _ => rfl)
  intro _
  refine (obeys_insideStages (KernelBridge.works_advance env (fun _ h => h) _ _)
    rfl (Or.inr ⟨rfl, hinline⟩)).bind ?_ (fun _ _ h => h.1)
  rintro g _ ⟨hidle, -⟩
  refine Program.Obeys.bind_same (.perform trivial fun _ => rfl) ?_
    (fun _ => hidle)
  intro bridge
  refine (obeys_idle (KernelBridge.works_keepRetried _ _ _) hidle).bind_same ?_
    (fun _ => hidle)
  intro _
  exact Program.Obeys.bind_same (.perform trivial fun _ => rfl) (fun _ => hidle)
    (fun _ => hidle)

theorem obeys_retryChecked {payload : List (String × Json)}
    (hrequest : .retry payload ∈ requests) (infra : Bool) (used infraUsed : Int) :
    (KernelBridge.retryChecked env spawnWorker
        (KernelBridge.requestIds env payload) infra used infraUsed).Obeys
      (stageMonitor env (.sidecar spawnWorker requests))
      (fun g _ => g.running = none) ⟨.nothing, none⟩ := by
  cases spawnWorker with
  | false => exact obeys_retryInline infra used infraUsed rfl
  | true =>
      refine obeys_time.bind_same ?_ (fun _ => rfl)
      intro now
      refine obeys_acquireOrBusy hrequest rfl now ?_
      intro lease
      refine (obeys_idle (KernelBridge.works_dropStages _) rfl).bind_same ?_
        (fun _ => rfl)
      intro _
      refine ⟨rfl, ?_⟩
      intro answer
      cases answer <;> rfl

theorem obeys_retryVerify {payload : List (String × Json)}
    (hrequest : .retry payload ∈ requests) :
    (KernelBridge.retryVerify env spawnWorker payload).Obeys
      (stageMonitor env (.sidecar spawnWorker requests))
      (fun g _ => g.running = none) ⟨.nothing, none⟩ := by
  refine (obeys_idle (KernelBridge.works_hydrateFromEvents env _ _)
    rfl).bind_same ?_ (fun _ => rfl)
  intro _
  refine Program.Obeys.bind_same (.perform trivial fun _ => rfl) ?_ (fun _ => rfl)
  intro bridge
  refine .ite rfl ?_
  split
  · next used infraUsed _ _ =>
      exact .ite rfl (.ite rfl (obeys_retryChecked hrequest _ used infraUsed))
  · rfl

theorem obeys_process {request : BridgeRequest} (hrequest : request ∈ requests) :
    (request.process env spawnWorker).Obeys
      (stageMonitor env (.sidecar spawnWorker requests))
      (fun g _ => g.running = none) ⟨.nothing, none⟩ := by
  refine Program.Obeys.bind_same (.perform trivial fun _ => rfl) ?_ (fun _ => rfl)
  intro bridge
  split
  · rfl
  · cases request with
    | approve payload => exact obeys_approveBaseline hrequest
    | retry payload => exact obeys_retryVerify hrequest

/-- Between two requests no stages run. -/
theorem obeys_serve (waiting : List BridgeRequest)
    (hwaiting : ∀ request ∈ waiting, request ∈ requests) {ghost : StageGhost}
    (hidle : ghost.running = none) :
    (serve env spawnWorker waiting).Obeys
      (stageMonitor env (.sidecar spawnWorker requests)) (fun _ _ => True)
      ghost := by
  induction waiting generalizing ghost with
  | nil => trivial
  | cons request rest ih =>
      have hghost : (⟨.nothing, ghost.running⟩ : StageGhost) = ⟨.nothing, none⟩ := by
        rw [hidle]
      refine ⟨hidle, ?_⟩
      intro answer
      cases answer with
      | error error => trivial
      | ok answer =>
          change Program.Obeys _ _ _ (⟨.nothing, ghost.running⟩ : StageGhost)
          rw [hghost]
          refine (obeys_process (hwaiting request List.mem_cons_self)).observe ?_
          intro g _ hg
          exact ih (fun other hother =>
            hwaiting other (List.mem_cons_of_mem request hother)) hg

theorem obeys_sidecar :
    (HermesPipeline.sidecar env spawnWorker requests).Obeys
      (stageMonitor env (.sidecar spawnWorker requests)) (fun _ _ => True)
      ⟨.nothing, none⟩ :=
  (obeys_idle (KernelBridge.works_construct env) rfl).bind_same
    (fun _ => obeys_serve requests (fun _ h => h) rfl) (fun _ => trivial)

end Sidecar

/-- A worker runs its stages under the lease it was started with and releases
that lease. -/
theorem obeys_stageWorker (process : Nat) (args : WorkerArgs) :
    (stageWorker env process args).Obeys (stageMonitor env role) (fun _ _ => True)
      ⟨.leased args.claim, none⟩ := by
  refine (obeys_idle (KernelBridge.works_construct env) rfl).bind_same ?_
    (fun _ => trivial)
  intro _
  refine Program.Obeys.bind_same (.perform trivial fun _ => rfl) ?_
    (fun _ => trivial)
  intro _
  have hstages : ((KernelBridge.runLeasedStages env args.workspaceId args.projectId
      args.pipelineId args.principalId).bind fun report =>
        .done report.exitCode).Obeys (stageMonitor env role)
      (fun g _ => g.running = none ∧ g.holding.claim? = some args.claim)
      ⟨.leased args.claim, none⟩ :=
    (obeys_runLeasedStages _ _ rfl ⟨args.claim, rfl, rfl⟩).bind (fun _ _ h => h)
      (fun _ _ h => h)
  refine hstages.observe ?_
  rintro g outcome ⟨hidle, hheld⟩
  have hrelease : ((perform (.stopHeartbeat process)).bind fun _ =>
      KernelBridge.releaseLease args.workspaceId args.pipelineId).Obeys
      (stageMonitor env role) (fun _ _ => True) g := by
    refine Program.Obeys.bind_same (.perform trivial fun _ => rfl) ?_
      (fun _ => trivial)
    intro _
    exact (obeys_cancel hidle ⟨args.claim, hheld, rfl⟩).mono fun _ _ _ => trivial
  refine hrelease.bind ?_ (fun _ _ _ => trivial)
  intro _ _ _
  cases outcome <;> trivial

/-- A heartbeat thread looks at the clock and at lease rows and saves them. -/
theorem obeys_heartbeatLoop {process : Nat} {args : WorkerArgs}
    (hrole : role = .heartbeat process args) (turns : Nat) :
    (heartbeatLoop process args turns).Obeys (stageMonitor env role)
      (fun _ _ => True) ⟨.nothing, none⟩ := by
  subst hrole
  have hrenew : ((perform .time).bind fun now =>
      KernelBridge.heartbeatLease args now).Obeys
      (stageMonitor env (.heartbeat process args))
      (fun g _ => g = ⟨.nothing, none⟩) ⟨.nothing, none⟩ := by
    refine obeys_time.bind_same ?_ (fun _ => rfl)
    intro now
    refine Program.Obeys.bind_same ?_ (fun _ => rfl) (fun _ => rfl)
    rw [KernelController.heartbeatLease, kernel_bind]
    refine (obeys_loadLease _ _).bind_same ?_ (fun _ => rfl)
    intro current
    cases current with
    | none => rfl
    | some lease =>
        dsimp only
        split
        · rw [kernel_bind]
          refine Program.Obeys.bind_same ?_ (fun _ => rfl) (fun _ => rfl)
          exact obeys_ask (.saveLease _) ⟨rfl, trivial⟩ (fun _ => rfl)
            (fun _ => rfl) (fun _ => rfl)
        · rfl
  induction turns with
  | zero => trivial
  | succ turns ih =>
      refine Program.Obeys.bind_same (.perform trivial fun _ => rfl) ?_
        (fun _ => trivial)
      intro stopped
      refine .ite trivial (hrenew.observe ?_)
      rintro _ outcome rfl
      cases outcome with
      | ok _ => exact ih
      | error error => trivial

end StageRole

end HermesPipeline
