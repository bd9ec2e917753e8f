/-
Approve and retry requests that end without a stage worker and without a
report.  A worker's lease is taken before the approval is written and recorded
and before the process is started, and no error on that way gives it back.
-/
import HermesPipeline.SubmitAnswers
import HermesPipeline.UnauthorisedRequests

namespace HermesPipeline

open Lib KernelController KernelBridge

/-- The effects that start no process and leave the leases alone. -/
def BridgeOp.Idles : BridgeOp → Prop
  | .store op => op.KeepsLeases
  | .spawn _ => False
  | _ => True

theorem BridgeOp.idles_of_works {commits : AcceptedWrite → Prop} {op : BridgeOp}
    (hop : op.Works commits) : op.Idles := by
  cases op with
  | store op => cases op <;> trivial
  | spawn args => exact hop.elim
  | _ => trivial

namespace RootState

/-- No lease was changed and no process was started. -/
structure Idle (s s' : RootState) : Prop where
  leases : s'.store.leases = s.store.leases
  spawned : s'.spawned = s.spawned

/-- The call started no stage worker and gave no report of a run. -/
structure StartFails (s : RootState)
    (ended : Except BridgeError Json × RootState) : Prop where
  unspawned : ended.2.spawned = s.spawned
  unanswered : Refused ended.1 ∨ ∃ error, ended.1 = .error error

/-- Every lease that is stored now was stored before, and a pipeline is busy
only if it was busy before. -/
structure GivesBack (s s' : RootState) : Prop where
  leases : ∀ ws pl lease, s'.store.loadLease ws pl = some lease →
    s.store.loadLease ws pl = some lease
  free : ∀ now ws pl, leaseBusy now (s'.store.loadLease ws pl) = true →
    leaseBusy now (s.store.loadLease ws pl) = true

/-- Two files are written one after the other. -/
def WritesPair (env : RootEnv) (n : Nat) : Prop :=
  env.writes n = .ok () ∧ env.writes (n + 1) = .ok ()

/-- The record of a station raises nothing: without a workspace or a pipeline
there is none; else its command can be built and its revision written, and a
stored answer to the same command can be read. -/
def RecordEnds (codec : Codec) (ws prj pl : String) (station : Station)
    (fields : Dict String String) (store : SqliteKernelStore) : Prop :=
  ws = "" ∨ ∀ snapshot, store.pipelines.find? (ws, pl) = some snapshot →
    ∃ command, stationCommand ws prj pl
        (recordId pl station (nextAttempt store ws pl station)) station
        snapshot.revision fields = some command ∧
      snapshot.revision ≤ maxSafeInteger ∧
      ∀ row, store.findInbox ws command.commandId = some row →
        codec.contentHash command.modelDump = some row.commandFingerprint →
        codec.receiptOfJson row.receiptJson ≠ none

/-- The approval of a request is written to its files and recorded. -/
structure ApprovalKept (env : RootEnv) (ids : RequestIds) (n : Nat)
    (store : SqliteKernelStore) : Prop where
  files : WritesPair env n
  record : RecordEnds env.codec ids.workspaceId ids.projectId ids.pipelineId
    .approval (approvalRecord ids.principalId) store

/-- An approve request takes the lease and then fails: the approval is not
written or not recorded, or its worker is not started. -/
structure ApproveLosesLease (env : RootEnv) (ids : RequestIds)
    (s : RootState) : Prop where
  lease : LeaseFree env ids s
  planned : planned (s.hydrated env ids.workspaceId ids.pipelineId).bridge
    ids.pipelineId ≠ none
  role : SolutionApproval.mayApprove
    (s.bridge.registry.roleOf ids.projectId ids.principalId) = true
  fails : ¬ (ApprovalKept env ids (s.effects + 1) s.store ∧
    env.spawns (s.effects + 3) = .ok ())

/-- A retry request takes the lease and then fails: the dropped rows are not
written, or its worker is not started. -/
structure RetryLosesLease (env : RootEnv) (ids : RequestIds)
    (s : RootState) : Prop where
  lease : LeaseFree env ids s
  passes : ∃ infra used infraUsed, retryVerdict
    (s.hydrated env ids.workspaceId ids.pipelineId).bridge ids =
      .passes infra used infraUsed
  fails : ¬ (WritesPair env (s.effects + 1) ∧
    env.spawns (s.effects + 3) = .ok ())

/-- A bridge with workers loses the lease of the request. -/
structure LosesLease (env : RootEnv) (kind : RequestKind) (ids : RequestIds)
    (s : RootState) : Prop where
  running : s.running = true
  workers : s.spawnWorker = true
  sound : s.bridge.corrupt = false
  workspace : ids.workspaceId ≠ ""
  request : kind = .approve ∧ ApproveLosesLease env ids s ∨
    kind = .retry ∧ RetryLosesLease env ids s

variable {env : RootEnv} {ids : RequestIds} {s s' t : RootState}

section Idle

theorem Idle.refl (s : RootState) : Idle s s := ⟨rfl, rfl⟩

theorem Idle.trans {s₁ s₂ s₃ : RootState} (first : Idle s₁ s₂)
    (second : Idle s₂ s₃) : Idle s₁ s₃ :=
  ⟨second.leases.trans first.leases, second.spawned.trans first.spawned⟩

theorem idle_handleBridge (env : RootEnv) {op : BridgeOp} (hop : op.Idles)
    (s : RootState) : Idle s (handleBridge env op s).2 := by
  have hleases : KeepsLeases (.bridge op) := by
    cases op with
    | store op => exact hop
    | _ => trivial
  refine ⟨keepsLeases_handle env s hleases, ?_⟩
  cases op with
  | store op =>
      simp only [handleBridge]
      cases (SqliteKernelStore.handle env.codec op s.store).1 <;> rfl
  | construct =>
      simp only [handleBridge]
      split <;> rfl
  | write file =>
      simp only [handleBridge]
      split <;> rfl
  | spawn args => exact hop.elim
  | memory | assign | time | develop | verify | publish | receive
  | startHeartbeat | stopHeartbeat | waitHeartbeat | enterStages
  | leaveStages => rfl

theorem idle_run {α : Type} {p : BridgeProgram α} (hp : p.Calls BridgeOp.Idles)
    (s : RootState) : Idle s (p.run (handleBridge env) s).2 := by
  refine hp.run_preserves ?_ (Idle.refl s)
  intro op s' hop hidle
  exact hidle.trans (idle_handleBridge env hop s')

/-- The stages of a bridge take no lease and start no process. -/
theorem idles_works {α : Type} {p : BridgeProgram α}
    (hp : p.Calls (BridgeOp.Works fun _ => True)) : p.Calls BridgeOp.Idles :=
  hp.mono fun _ hop => BridgeOp.idles_of_works hop

theorem idles_insideStages {α : Type} {p : BridgeProgram α} {ws pl : String}
    (hp : p.Calls BridgeOp.Idles) :
    (insideStages ws pl p).Calls BridgeOp.Idles := by
  refine (calls_effect trivial).bind fun _ => ?_
  refine hp.observe fun outcome => ?_
  exact (calls_effect trivial).bind fun _ => Program.calls_ofExcept outcome

variable (ids) (codec : BridgeCodec)

theorem idles_commitApproval : (commitApproval codec ids.pipelineId ids.projectId
    ids.principalId ids.workspaceId).Calls BridgeOp.Idles :=
  idles_works (works_commitApproval codec (fun _ _ => trivial) _ _)

theorem idles_runApproved : (runApproved codec ids.pipelineId ids.projectId
    ids.principalId ids.workspaceId).Calls BridgeOp.Idles := by
  refine (idles_commitApproval ids codec).bind fun failed => ?_
  cases failed with
  | some message => trivial
  | none =>
      refine (idles_insideStages ?_).bind fun report => trivial
      refine (idles_works (works_hydrateFromEvents codec _ _)).bind fun _ => ?_
      refine (idles_works (works_advanceDevelopment codec (fun _ _ => trivial)
        _ _)).bind fun _ => ?_
      refine (idles_works (works_advanceVerify codec (fun _ _ => trivial)
        _)).bind fun _ => ?_
      exact (calls_effect trivial).bind fun _ => trivial

theorem idles_retryInline (infra : Bool) (used infraUsed : Int) :
    (retryInline codec ids infra used infraUsed).Calls BridgeOp.Idles := by
  refine (idles_works (works_dropStages _)).bind fun _ => ?_
  refine (idles_insideStages (idles_works (works_advance codec
    (fun _ _ => trivial) _ _))).bind fun _ => ?_
  refine (calls_effect trivial).bind fun bridge => ?_
  refine (idles_works (works_keepRetried _ _ _)).bind fun _ => ?_
  exact (calls_effect trivial).bind fun _ => trivial

end Idle

section GivesBack

/-- A pipeline is busy only if it was busy before. -/
theorem givesBack_of_leases (hleases : ∀ ws pl lease,
    s'.store.loadLease ws pl = some lease →
      s.store.loadLease ws pl = some lease) : GivesBack s s' := by
  refine ⟨hleases, ?_⟩
  intro now ws pl hbusy
  cases hload : s'.store.loadLease ws pl with
  | none =>
      rw [hload] at hbusy
      cases hbusy
  | some lease =>
      rw [hload] at hbusy
      rw [hleases ws pl lease hload]
      exact hbusy

theorem loadLease_of_leases (hleases : s'.store.leases = s.store.leases)
    (ws pl : String) :
    s'.store.loadLease ws pl = s.store.loadLease ws pl := by
  simp only [SqliteKernelStore.loadLease, hleases]

theorem givesBack_of_same (hleases : s'.store.leases = s.store.leases) :
    GivesBack s s' := by
  refine givesBack_of_leases fun ws pl lease hload => ?_
  rw [← loadLease_of_leases hleases]
  exact hload

/-- The state after a lease was saved. -/
def lent (s : RootState) (lease : LeaseRecord) : RootState :=
  { s with store := (s.store.saveLease lease).2 }

/-- What holds a call idled through does not change whether it gives back. -/
theorem Idle.givesBack_congr (hidle : Idle s t)
    (ended : Except BridgeError Json × RootState) :
    (StartFails s ended → GivesBack s ended.2) ↔
      (StartFails t ended → GivesBack t ended.2) := by
  have hload := loadLease_of_leases hidle.leases
  refine imp_congr ⟨fun hfails => ?_, fun hfails => ?_⟩
    ⟨fun hback => ?_, fun hback => ?_⟩
  · exact ⟨hfails.unspawned.trans hidle.spawned.symm, hfails.unanswered⟩
  · exact ⟨hfails.unspawned.trans hidle.spawned, hfails.unanswered⟩
  · exact givesBack_of_leases fun ws pl lease hlease =>
      (hload ws pl).trans (hback.leases ws pl lease hlease)
  · exact givesBack_of_leases fun ws pl lease hlease =>
      (hload ws pl).symm.trans (hback.leases ws pl lease hlease)

variable {lease : LeaseRecord} (hsaves : (s.store.saveLease lease).1 = .ok ())
  (hlent : t.store.leases = (s.lent lease).store.leases)

include hsaves

theorem loadLease_lent (ws pl : String) :
    (s.lent lease).store.loadLease ws pl =
      if (ws, pl) = lease.key ∧ ws ≠ "" then some lease
      else s.store.loadLease ws pl := by
  have hfits : SqliteKernelStore.fitsLease lease = true := by
    by_contra hunfit
    rw [s.store.saveLease_unfit (by simpa using hunfit)] at hsaves
    cases hsaves
  have hload := (s.store.saveLease_fits hfits).2 (ws, pl)
  simp only at hload
  rw [lent, hload]
  by_cases hkey : (ws, pl) = lease.key
  · rw [show lease.workspaceId = ws from (congrArg Prod.fst hkey).symm]
  · simp [hkey]

include hlent

/-- A lease was saved, some work was done, and the lease was deleted. -/
theorem givesBack_deleted {ws pl : String} (hkey : lease.key = (ws, pl)) :
    GivesBack s { t with store := t.store.deleteLease ws pl } := by
  refine givesBack_of_leases fun ws' pl' stored hload => ?_
  have hdelete := t.store.loadLease_deleteLease ws pl (ws', pl')
  simp only at hdelete hload
  rw [hdelete] at hload
  by_cases hsame : (ws', pl') = (ws, pl)
  · rw [if_pos hsame] at hload
    cases hload
  · rw [if_neg hsame, loadLease_of_leases hlent, loadLease_lent hsaves,
      if_neg fun hboth => hsame (hboth.1.trans hkey)] at hload
    exact hload

/-- Without a workspace no lease is saved. -/
theorem givesBack_unstored (hkey : lease.workspaceId = "") : GivesBack s t := by
  refine givesBack_of_leases fun ws pl stored hload => ?_
  rw [loadLease_of_leases hlent, loadLease_lent hsaves, if_neg] at hload
  · exact hload
  · rintro ⟨hsame, hws⟩
    exact hws ((congrArg Prod.fst hsame).trans hkey)

/-- A granted lease that is still stored was not stored before. -/
theorem not_givesBack_granted {ws pl holder : String} {now ttl : Int}
    (hws : ws ≠ "") (hlease : lease =
      grantedLease ws pl holder now ttl (s.store.loadLease ws pl)) :
    ¬ GivesBack s t := by
  intro hback
  have hkey : (ws, pl) = lease.key := by rw [hlease]; rfl
  have hstored : t.store.loadLease ws pl = some lease := by
    rw [loadLease_of_leases hlent, loadLease_lent hsaves, if_pos ⟨hkey, hws⟩]
  have hbefore := hback.leases ws pl lease hstored
  have hgeneration : lease.generation =
      nextGeneration (s.store.loadLease ws pl) := by rw [hlease]; rfl
  rw [hbefore, nextGeneration] at hgeneration
  omega

end GivesBack

/-- Dropping the answer and wrapping the error keep what is an answer. -/
theorem map_mapError_ok_iff {ε ε' α : Type} {wrap : ε → ε'}
    {outcome : Except ε α} :
    (outcome.mapError wrap).map (fun _ => ()) = .ok () ↔
      ∃ value, outcome = .ok value := by
  cases outcome <;> simp [Except.map, Except.mapError]

/-- When the record of a station raises nothing. -/
theorem recordStation_ends_iff (hcodec : env.codec.Serializes)
    (hhealthy : t.store.Healthy) (ws prj pl : String) (station : Station)
    (fields : Dict String String) :
    ((recordStation env.toBridgeCodec ws prj pl station fields).run
        (handleBridge env) t).1 = .ok () ↔
      RecordEnds env.codec ws prj pl station fields t.store := by
  unfold RecordEnds
  by_cases hws : ws = ""
  · simp [recordStation, hws]
  simp only [recordStation, hws, ↓reduceIte, Program.bind_eq, false_or]
  rw [run_listEvents_bind, run_loadPipeline_bind env hhealthy pl hws]
  cases hsnapshot : t.store.pipelines.find? (ws, pl) with
  | none => simp
  | some snapshot =>
      have hid : "cmd_" ++ pl ++ "_" ++ station.value ++ "_" ++ toString (1 +
          ((t.store.listEvents ws pl).filter fun event =>
            event.eventType = station.eventType).length) =
          recordId pl station (nextAttempt t.store ws pl station) := rfl
      simp only [Option.some.injEq, forall_eq', hid]
      split
      · next hcommand => simp [hcommand]
      · next command hcommand =>
          obtain ⟨rfl, -, -, hrevision⟩ := stationCommand_ids hcommand
          have hhashes := hcodec.hashes command (stationCommand_textual hcommand)
          rw [hrevision] at hhashes
          have hanswers : Answers (SqliteKernelStore.handle env.codec)
              ((controller env.codec).submit command) t.store ↔
                snapshot.revision ≤ maxSafeInteger ∧
                  (controller env.codec).ReadsStored
                    (SqliteKernelStore.handle env.codec) command t.store := by
            cases hhash : env.codec.contentHash command.modelDump with
            | none =>
                -- a revision without a canonical text makes `submit` raise
                refine iff_of_false (submit_unhashed rfl hhash t.store) ?_
                rintro ⟨hsmall, -⟩
                obtain ⟨hash, hsome⟩ := hhashes.mpr hsmall
                rw [hhash] at hsome
                cases hsome
            | some fingerprint =>
                have hsmall := hhashes.mp ⟨fingerprint, hhash⟩
                rw [submit_answers_iff (k := controller env.codec)
                  (SqliteKernelStore.answering env.codec) hcodec.texts rfl hhash]
                exact (and_iff_right hsmall).symm
          simp only [Answers, ReadsStored, SqliteKernelStore.handle,
            Except.ok.injEq] at hanswers
          obtain ⟨faults, hrun⟩ :=
            run_kernel env ((controller env.codec).submit command) t
          rw [hcommand, Program.run_bind_done, hrun]
          simp only [Option.some.injEq, exists_eq_left']
          exact map_mapError_ok_iff.trans hanswers

theorem sameLog_saveLease (store : SqliteKernelStore) (lease : LeaseRecord) :
    store.SameLog (store.saveLease lease).2 := by
  unfold SqliteKernelStore.saveLease
  split
  · exact .refl _
  · split
    · exact ⟨rfl, rfl, rfl, rfl, rfl, rfl⟩
    · exact .refl _

/-- Only the tables of the log decide whether an approval is recorded. -/
theorem approvalKept_sameLog {store store' : SqliteKernelStore} {n : Nat}
    (hsame : store.SameLog store') :
    ApprovalKept env ids n store' ↔ ApprovalKept env ids n store := by
  have hrecord : RecordEnds env.codec ids.workspaceId ids.projectId
      ids.pipelineId .approval (approvalRecord ids.principalId) store' ↔
        RecordEnds env.codec ids.workspaceId ids.projectId ids.pipelineId
          .approval (approvalRecord ids.principalId) store := by
    simp only [RecordEnds, nextAttempt_sameLog hsame, hsame.pipelines,
      SqliteKernelStore.findInbox, hsame.inbox]
  exact ⟨fun hkept => ⟨hkept.files, hrecord.mp hkept.record⟩,
    fun hkept => ⟨hkept.files, hrecord.mpr hkept.record⟩⟩

section Approve

/-- Two files are written, or the first failure is raised. -/
theorem run_saveWithStages (env : RootEnv) (file : String) (t : RootState) :
    WritesPair env t.effects ∧ (∃ files, (saveWithStages file).run
        (handleBridge env) t =
          (.ok (), { t with files := files, effects := t.effects + 2 })) ∨
      ¬ WritesPair env t.effects ∧ ∃ error t', (saveWithStages file).run
        (handleBridge env) t = (.error error, t') := by
  simp only [saveWithStages, Program.bind_eq]
  have hwrite : ∀ (name : String) (t : RootState),
      (perform (.write name)).run (handleBridge env) t =
        handleBridge env (.write name) t := fun _ _ => Program.run_perform _ _ _
  cases hfirst : env.writes t.effects with
  | error error =>
      have hrun : (perform (.write file)).run (handleBridge env) t =
          (.error error, { t.ticked with faults := t.faults + 1 }) := by
        rw [hwrite, handleBridge, hfirst]
      refine Or.inr ⟨?_, error, _, Program.run_bind_of_error hrun⟩
      rintro ⟨hok, -⟩
      rw [hfirst] at hok
      cases hok
  | ok done =>
      obtain ⟨files, hrun⟩ : ∃ files, (perform (.write file)).run
          (handleBridge env) t = (.ok (), { t.ticked with files := files }) := by
        rw [hwrite, handleBridge, hfirst]
        exact ⟨_, rfl⟩
      rw [Program.run_bind_of_ok hrun, hwrite, handleBridge]
      dsimp only [ticked]
      cases hsecond : env.writes (t.effects + 1) with
      | error error =>
          refine Or.inr ⟨?_, error, _, rfl⟩
          rintro ⟨-, hok⟩
          rw [hsecond] at hok
          cases hok
      | ok done => exact Or.inl ⟨⟨hfirst, hsecond⟩, _, rfl⟩

/-- When the commit of a baseline raises nothing, and which effects it used
then. -/
theorem run_commitApproval_allowed (hcodec : env.codec.Serializes)
    (hhealthy : t.store.Healthy)
    (hplanned : planned t.bridge ids.pipelineId ≠ none)
    (hrole : SolutionApproval.mayApprove
      (t.bridge.registry.roleOf ids.projectId ids.principalId) = true) :
    let ended := (commitApproval env.toBridgeCodec ids.pipelineId ids.projectId
      ids.principalId ids.workspaceId).run (handleBridge env) t
    ApprovalKept env ids t.effects t.store ∧ ended.1 = .ok none ∧
        ended.2.effects = t.effects + 2 ∨
      ¬ ApprovalKept env ids t.effects t.store ∧
        ∃ error, ended.1 = .error error := by
  intro ended
  obtain ⟨planning, design, hprd, harch⟩ : ∃ planning design,
      t.bridge.prd.get? ids.pipelineId = some planning ∧
      t.bridge.arch.get? ids.pipelineId = some design := by
    unfold planned at hplanned
    split at hplanned
    · next planning design hprd harch => exact ⟨planning, design, hprd, harch⟩
    · exact absurd rfl hplanned
  have happrove := @run_approveSolution env ids.pipelineId ids.projectId
    ids.principalId (planning.getD "prd_id" "") (design.getD "design_id" "")
    (design.getD "testplan_id" "") t
  rw [if_pos hrole] at happrove
  -- the files are written with the new rows in memory, then the record is made
  have hrun : ∃ bridge : Bridge, ended = (((saveWithStages "approvals.json").bind
      fun _ => recordStation env.toBridgeCodec ids.workspaceId ids.projectId
        ids.pipelineId .approval (approvalRecord ids.principalId)).bind fun _ =>
          .done none).run (handleBridge env) { t with bridge := bridge } := by
    refine ⟨committedBridge t.bridge ids.pipelineId ids.projectId ids.principalId
      planning design, ?_⟩
    simp only [ended, commitApproval, Program.bind_eq]
    rw [run_memory_bind, hprd, harch]
    dsimp only
    rw [Program.run_bind_of_ok happrove]
    simp only [↓reduceIte, run_modify_bind, Program.bind_assoc]
    rfl
  obtain ⟨bridge, hrun⟩ := hrun
  rw [hrun, Program.run_bind_done]
  have hsaved := run_saveWithStages env "approvals.json" { t with bridge := bridge }
  rcases hsaved with ⟨hpair, files, hsaved⟩ | ⟨hpair, error, t', hsaved⟩
  · rw [Program.run_bind_of_ok hsaved]
    let saved : RootState :=
      { t with bridge := bridge, files := files, effects := t.effects + 2 }
    have hends := @recordStation_ends_iff env saved hcodec hhealthy
      ids.workspaceId ids.projectId ids.pipelineId .approval
      (approvalRecord ids.principalId)
    have hsame := (@run_recordStation saved env hhealthy ids.workspaceId ids.projectId
      ids.pipelineId .approval (approvalRecord ids.principalId)).same
    by_cases hrecord : RecordEnds env.codec ids.workspaceId ids.projectId
        ids.pipelineId .approval (approvalRecord ids.principalId) t.store
    · refine Or.inl ⟨⟨hpair, hrecord⟩, ?_, ?_⟩
      · dsimp only
        rw [hends.mpr hrecord]
        rfl
      · dsimp only
        rw [hsame]
    · refine Or.inr ⟨fun hkept => hrecord hkept.record, ?_⟩
      dsimp only
      cases hended : ((recordStation env.toBridgeCodec ids.workspaceId
          ids.projectId ids.pipelineId .approval
          (approvalRecord ids.principalId)).run (handleBridge env) saved).1 with
      | error error => exact ⟨error, rfl⟩
      | ok done => exact absurd (hends.mp hended) hrecord
  · rw [Program.run_bind_of_error hsaved]
    exact Or.inr ⟨fun hkept => hpair hkept.files, error, rfl⟩

/-- A call that holds a lease keeps it: its worker is started exactly under
this condition, else an error is raised. -/
structure StartsWhen (condition : Prop) (t : RootState)
    (ended : Except BridgeError Json × RootState) : Prop where
  leases : ended.2.store.leases = t.store.leases
  outcome : condition ∧ ended.2.spawned ≠ t.spawned ∨
    ¬ condition ∧ ended.2.spawned = t.spawned ∧ ∃ error, ended.1 = .error error

/-- Starting a worker with a lease: the process is started, or the error is
raised and the lease stays. -/
theorem startsWhen_spawn (ws prj pl principal : String) (lease : LeaseRecord)
    (answer : Json) (t : RootState) :
    StartsWhen (env.spawns t.effects = .ok ()) t
      (((spawnStageWorker ws prj pl principal lease).bind fun _ =>
        .done answer).run (handleBridge env) t) := by
  have hspawn : (spawnStageWorker ws prj pl principal lease).run
      (handleBridge env) t = handleBridge env (.spawn ⟨ws, prj, pl, principal,
        workerName pl, lease.generation⟩) t := Program.run_perform _ _ _
  simp only [Program.run_bind_done, hspawn, handleBridge]
  cases hanswer : env.spawns t.effects with
  | ok done => exact ⟨rfl, Or.inl ⟨rfl, by simp⟩⟩
  | error error => exact ⟨rfl, Or.inr ⟨by simp, rfl, error, rfl⟩⟩

/-- A step before the start that raises under the opposite of its condition. -/
theorem StartsWhen.after {first second : Prop} {t t₁ : RootState}
    {ended : Except BridgeError Json × RootState} (hidle : Idle t t₁)
    (hfirst : first) (hstarts : StartsWhen second t₁ ended) :
    StartsWhen (first ∧ second) t ended := by
  refine ⟨hstarts.leases.trans hidle.leases, ?_⟩
  rcases hstarts.outcome with ⟨hsecond, hnew⟩ | ⟨hnot, hsame, hraised⟩
  · refine Or.inl ⟨⟨hfirst, hsecond⟩, ?_⟩
    rw [← hidle.spawned]
    exact hnew
  · exact Or.inr ⟨fun hboth => hnot hboth.2, hsame.trans hidle.spawned, hraised⟩

theorem StartsWhen.raised {first second : Prop} {t : RootState}
    {ended : Except BridgeError Json × RootState} (hidle : Idle t ended.2)
    (hnot : ¬ first) (hraised : ∃ error, ended.1 = .error error) :
    StartsWhen (first ∧ second) t ended :=
  ⟨hidle.leases, Or.inr ⟨fun hboth => hnot hboth.1, hidle.spawned, hraised⟩⟩

/-- A call that starts its worker under a condition gives its lease back only
when it holds none or its worker starts. -/
theorem StartsWhen.givesBack_iff {condition : Prop} {now : Int}
    {lease : LeaseRecord}
    {ended : Except BridgeError Json × RootState}
    (hlease : lease = grantedLease ids.workspaceId ids.pipelineId
      (workerName ids.pipelineId) now 1800
      (s.store.loadLease ids.workspaceId ids.pipelineId))
    (hsaves : (s.store.saveLease lease).1 = .ok ())
    (hlent : Idle (s.lent lease) t) (hstarts : StartsWhen condition t ended) :
    (StartFails s ended → GivesBack s ended.2) ↔
      ¬ (ids.workspaceId ≠ "" ∧ ¬ condition) := by
  have hleases := hstarts.leases.trans hlent.leases
  have hspawned : t.spawned = s.spawned := hlent.spawned
  by_cases hws : ids.workspaceId = ""
  · refine iff_of_true (fun _ => ?_) (fun hboth => hboth.1 hws)
    refine givesBack_unstored hsaves hleases ?_
    rw [hlease]
    exact hws
  rcases hstarts.outcome with ⟨hholds, hnew⟩ | ⟨hnot, hsame, hraised⟩
  · refine iff_of_true (fun hfails => ?_) (fun hboth => hboth.2 hholds)
    exact absurd (hfails.unspawned.trans hspawned.symm) hnew
  · refine iff_of_false (fun hback => ?_) (fun hnever => hnever ⟨hws, hnot⟩)
    exact not_givesBack_granted hsaves hleases hws hlease
      (hback ⟨hsame.trans hspawned, Or.inr hraised⟩)

/-- The part of an approval that holds the lease of its worker. -/
theorem startsWhen_approveLeased (hcodec : env.codec.Serializes)
    (hhealthy : t.store.Healthy)
    (hplanned : planned t.bridge ids.pipelineId ≠ none)
    (hrole : SolutionApproval.mayApprove
      (t.bridge.registry.roleOf ids.projectId ids.principalId) = true)
    (lease : LeaseRecord) :
    StartsWhen (ApprovalKept env ids t.effects t.store ∧
        env.spawns (t.effects + 2) = .ok ()) t
      ((approveLeased env.toBridgeCodec true ids.workspaceId ids.projectId
        ids.pipelineId ids.principalId lease).run (handleBridge env) t) := by
  have hidle := @idle_run env _ _ (idles_commitApproval ids env.toBridgeCodec) t
  have hcommitted := run_commitApproval_allowed hcodec hhealthy hplanned hrole
  simp only [approveLeased, ↓reduceIte, Program.bind_eq]
  rcases hrun : (commitApproval env.toBridgeCodec ids.pipelineId ids.projectId
    ids.principalId ids.workspaceId).run (handleBridge env) t with ⟨outcome, t₁⟩
  simp only [hrun] at hidle hcommitted
  rcases hcommitted with ⟨hkept, rfl, heffects⟩ | ⟨hnot, error, rfl⟩
  · rw [Program.run_bind_of_ok hrun, ← heffects]
    exact .after hidle hkept (startsWhen_spawn _ _ _ _ lease _ t₁)
  · rw [Program.run_bind_of_error hrun]
    exact .raised hidle hnot ⟨error, rfl⟩

/-- The part of an approval that holds the lease gives it back, unless the
worker of an approver does not start. -/
theorem approveLeased_givesBack_iff (hcodec : env.codec.Serializes)
    (hhealthy : t.store.Healthy)
    (hplanned : planned t.bridge ids.pipelineId ≠ none) {now : Int}
    {lease : LeaseRecord}
    (hlease : lease = grantedLease ids.workspaceId ids.pipelineId
      (workerName ids.pipelineId) now 1800
      (s.store.loadLease ids.workspaceId ids.pipelineId))
    (hsaves : (s.store.saveLease lease).1 = .ok ())
    (hlent : Idle (s.lent lease) t) (spawnWorker : Bool) :
    let ended := (approveLeased env.toBridgeCodec spawnWorker ids.workspaceId
      ids.projectId ids.pipelineId ids.principalId lease).run (handleBridge env) t
    (StartFails s ended → GivesBack s ended.2) ↔
      ¬ (spawnWorker = true ∧ ids.workspaceId ≠ "" ∧
        SolutionApproval.mayApprove
          (t.bridge.registry.roleOf ids.projectId ids.principalId) = true ∧
        ¬ (ApprovalKept env ids t.effects t.store ∧
          env.spawns (t.effects + 2) = .ok ())) := by
  intro ended
  have hkey : lease.key = (ids.workspaceId, ids.pipelineId) := by rw [hlease]; rfl
  cases hspawn : spawnWorker with
  | false =>
      subst hspawn
      refine iff_of_true (fun _ => ?_) (by simp)
      have hidle := @idle_run env _ _ (idles_runApproved ids env.toBridgeCodec) t
      simp only [ended, approveLeased, Bool.false_eq_true, ↓reduceIte,
        Program.withCleanup, Program.run_observe]
      rcases hrun : (runApproved env.toBridgeCodec ids.pipelineId ids.projectId
        ids.principalId ids.workspaceId).run (handleBridge env) t with ⟨outcome, t₁⟩
      rw [hrun] at hidle
      have hleases := hidle.leases.trans hlent.leases
      have hcancel := @run_cancel env ids.workspaceId ids.pipelineId t₁
      by_cases hws : ids.workspaceId = ""
      · rw [if_pos hws] at hcancel
        rw [Program.run_bind_of_error hcancel]
        refine givesBack_unstored hsaves hleases ?_
        rw [hlease]
        exact hws
      · rw [if_neg hws] at hcancel
        rw [Program.run_bind_of_ok hcancel, Program.run_ofExcept]
        exact givesBack_deleted hsaves hleases hkey
  | true =>
      subst hspawn
      by_cases hrole : SolutionApproval.mayApprove
          (t.bridge.registry.roleOf ids.projectId ids.principalId) = true
      · have hiff := (startsWhen_approveLeased hcodec hhealthy hplanned hrole
          lease).givesBack_iff hlease hsaves hlent
        simp only [hrole, true_and]
        exact hiff
      · refine iff_of_true (fun _ => ?_) (fun hboth => hrole hboth.2.2.1)
        rcases @run_approveLeased_denied env ids t hhealthy (by simpa using hrole)
          true lease with ⟨hws, error, hended⟩ | ⟨hws, message, hended⟩
        · simp only [ended, hended]
          refine givesBack_unstored hsaves hlent.leases ?_
          rw [hlease]
          exact hws
        · simp only [ended, hended]
          exact givesBack_deleted hsaves hlent.leases hkey

/-- An approve request gives its lease back, unless its worker does not
start. -/
theorem approve_givesBack_iff (hcodec : env.codec.Serializes)
    (hhealthy : s.store.Healthy) (payload : List (String × Json))
    (hids : ids = requestIds env.toBridgeCodec payload) (spawnWorker : Bool) :
    let ended := (approveBaseline env.toBridgeCodec spawnWorker payload).run
      (handleBridge env) s
    (StartFails s ended → GivesBack s ended.2) ↔
      ¬ (spawnWorker = true ∧ ids.workspaceId ≠ "" ∧
        ApproveLosesLease env ids s) := by
  have htime : (perform .time).run (handleBridge env) s =
      (.ok (env.clock s.effects), s.ticked) := rfl
  dsimp only
  generalize hrun : (approveBaseline env.toBridgeCodec spawnWorker payload).run
    (handleBridge env) s = ended
  -- the exits before the lease is saved
  have hearly : ended.2.store.leases = s.store.leases →
      ¬ ApproveLosesLease env ids s →
      ((StartFails s ended → GivesBack s ended.2) ↔
        ¬ (spawnWorker = true ∧ ids.workspaceId ≠ "" ∧
          ApproveLosesLease env ids s)) := fun hleases hnot =>
    iff_of_true (fun _ => givesBack_of_same hleases) fun hboth => hnot hboth.2.2
  simp only [approveBaseline, Program.bind_eq] at hrun
  rw [← hids, Program.run_bind_of_ok htime, run_loadLease_bind] at hrun
  by_cases hbusy : leaseBusy (env.clock s.effects)
      (s.ticked.store.loadLease ids.workspaceId ids.pipelineId) = true
  · rw [if_pos hbusy] at hrun
    refine hearly (by rw [← hrun]; rfl) fun hloses => ?_
    exact absurd hbusy (Bool.eq_false_iff.mp hloses.lease.free)
  rw [if_neg hbusy, run_hydrateFromEvents_bind, run_memory_bind] at hrun
  by_cases hplanned : planned (s.ticked.hydrated env ids.workspaceId
      ids.pipelineId).bridge ids.pipelineId = none
  · rw [if_pos hplanned] at hrun
    exact hearly (by rw [← hrun]; rfl) fun hloses => hloses.planned hplanned
  have hregistry : (s.ticked.hydrated env ids.workspaceId
      ids.pipelineId).bridge.registry = s.bridge.registry :=
    hydrate_registry _ _ _
  rw [if_neg hplanned, hregistry] at hrun
  by_cases hmember : s.bridge.registry.roleOf ids.projectId ids.principalId = none
  · rw [if_pos hmember] at hrun
    refine hearly (by rw [← hrun]; rfl) fun hloses => ?_
    have hrole := hloses.role
    rw [hmember] at hrole
    cases hrole
  rw [if_neg hmember] at hrun
  have hfree : leaseBusy (env.clock s.effects) ((s.ticked.hydrated env
      ids.workspaceId ids.pipelineId).store.loadLease ids.workspaceId
        ids.pipelineId) = false := Bool.eq_false_iff.mpr hbusy
  rcases @run_acquireOrBusy_free env ids.workspaceId ids.pipelineId _ _ hfree
      (fun lease => approveLeased env.toBridgeCodec spawnWorker ids.workspaceId
        ids.projectId ids.pipelineId ids.principalId lease) with
    ⟨hsaves, hacquired⟩ | ⟨hfails, hacquired⟩
  swap
  · rw [hacquired] at hrun
    exact hearly (by rw [← hrun]; rfl) fun hloses => hfails hloses.lease.saves
  have hrole : (s.leased env ids).bridge.registry = s.bridge.registry := hregistry
  have hkept : ApprovalKept env ids (s.effects + 1) (s.leased env ids).store ↔
      ApprovalKept env ids (s.effects + 1) s.store :=
    approvalKept_sameLog (sameLog_saveLease s.store _)
  have hleased := approveLeased_givesBack_iff (s := s) (t := s.leased env ids)
    hcodec (leased_healthy hhealthy) hplanned rfl hsaves ⟨rfl, rfl⟩ spawnWorker
  rw [hrole] at hleased
  rw [← hrun, hacquired]
  refine hleased.trans (not_congr (and_congr_right fun _ =>
    and_congr_right fun _ => ?_))
  rw [show (s.leased env ids).effects = s.effects + 1 from rfl, hkept]
  exact ⟨fun hboth => ⟨⟨hfree, hsaves⟩, hplanned, hboth.1, hboth.2⟩,
    fun hloses => ⟨hloses.role, hloses.fails⟩⟩

end Approve

section Retry

/-- When the rows of a retry are dropped without an error, and which effects
that used. -/
theorem run_dropStages_pair (env : RootEnv) (pl : String) (t : RootState) :
    let ended := (dropStages pl).run (handleBridge env) t
    WritesPair env t.effects ∧ ended.1 = .ok () ∧
        ended.2.effects = t.effects + 2 ∨
      ¬ WritesPair env t.effects ∧ ∃ error, ended.1 = .error error := by
  intro ended
  let cut := { t.bridge with dev := t.bridge.dev.pop pl }
  have hdrop : ended = ((saveWithStages "development.json").bind fun _ =>
      modify fun bridge => { bridge with verify := bridge.verify.pop pl }).run
        (handleBridge env) { t with bridge := cut } := rfl
  rcases run_saveWithStages env "development.json" { t with bridge := cut } with
    ⟨hpair, files, hsaved⟩ | ⟨hnot, error, t', hsaved⟩
  · rw [Program.run_bind_of_ok hsaved, run_modify] at hdrop
    rw [hdrop]
    exact Or.inl ⟨hpair, rfl, rfl⟩
  · rw [Program.run_bind_of_error hsaved] at hdrop
    rw [hdrop]
    exact Or.inr ⟨hnot, error, rfl⟩

/-- The part of a retry that holds the lease of its worker. -/
theorem startsWhen_respawn (lease : LeaseRecord) (answer : Json)
    (t : RootState) :
    StartsWhen (WritesPair env t.effects ∧
        env.spawns (t.effects + 2) = .ok ()) t
      (((dropStages ids.pipelineId).bind fun _ =>
        (spawnStageWorker ids.workspaceId ids.projectId ids.pipelineId
          ids.principalId lease).bind fun _ => .done answer).run
            (handleBridge env) t) := by
  have hidle := @idle_run env _ _
    (idles_works (works_dropStages ids.pipelineId)) t
  have hdropped := run_dropStages_pair env ids.pipelineId t
  rcases hrun : (dropStages ids.pipelineId).run (handleBridge env) t with
    ⟨outcome, t₁⟩
  simp only [hrun] at hidle hdropped
  rcases hdropped with ⟨hpair, rfl, heffects⟩ | ⟨hnot, error, rfl⟩
  · rw [Program.run_bind_of_ok hrun, ← heffects]
    exact .after hidle hpair (startsWhen_spawn _ _ _ _ lease answer t₁)
  · rw [Program.run_bind_of_error hrun]
    exact .raised hidle hnot ⟨error, rfl⟩

/-- A retry that passed its checks gives its lease back, unless its worker does
not start. -/
theorem retryChecked_givesBack_iff (infra : Bool) (used infraUsed : Int)
    (spawnWorker : Bool) (s : RootState) :
    let ended := (retryChecked env.toBridgeCodec spawnWorker ids infra used
      infraUsed).run (handleBridge env) s
    (StartFails s ended → GivesBack s ended.2) ↔
      ¬ (spawnWorker = true ∧ ids.workspaceId ≠ "" ∧ LeaseFree env ids s ∧
        ¬ (WritesPair env (s.effects + 1) ∧
          env.spawns (s.effects + 3) = .ok ())) := by
  dsimp only
  cases spawnWorker with
  | false =>
      have hidle := @idle_run env _ _
        (idles_retryInline ids env.toBridgeCodec infra used infraUsed) s
      exact iff_of_true (fun _ => givesBack_of_same hidle.leases) (by simp)
  | true =>
      have htime : (perform .time).run (handleBridge env) s =
          (.ok (env.clock s.effects), s.ticked) := rfl
      simp only [retryChecked, ↓reduceIte, Program.bind_eq, true_and]
      rw [Program.run_bind_of_ok htime]
      by_cases hbusy : leaseBusy (env.clock s.effects)
          (s.ticked.store.loadLease ids.workspaceId ids.pipelineId) = true
      · rw [run_acquireOrBusy_held hbusy]
        refine iff_of_true (fun _ => givesBack_of_same rfl) fun hboth => ?_
        exact absurd hbusy (Bool.eq_false_iff.mp hboth.2.1.free)
      have hfree := Bool.eq_false_iff.mpr hbusy
      rcases @run_acquireOrBusy_free env ids.workspaceId ids.pipelineId s.ticked
          _ hfree _ with ⟨hsaves, hrun⟩ | ⟨hfails, hrun⟩
      · rw [hrun]
        have hticked : Idle s s.ticked := ⟨rfl, rfl⟩
        refine (hticked.givesBack_congr _).trans ?_
        refine ((startsWhen_respawn _ _ _).givesBack_iff rfl hsaves
          ⟨rfl, rfl⟩).trans (not_congr (and_congr_right fun _ => ?_))
        exact ⟨fun hnot => ⟨⟨hfree, hsaves⟩, hnot⟩, fun hboth => hboth.2⟩
      · rw [hrun]
        refine iff_of_true (fun _ => givesBack_of_same rfl) fun hboth => ?_
        exact hfails hboth.2.1.saves

/-- A retry request gives its lease back, unless its worker does not start. -/
theorem retry_givesBack_iff (payload : List (String × Json))
    (hids : ids = requestIds env.toBridgeCodec payload) (spawnWorker : Bool) :
    let ended := (retryVerify env.toBridgeCodec spawnWorker payload).run
      (handleBridge env) s
    (StartFails s ended → GivesBack s ended.2) ↔
      ¬ (spawnWorker = true ∧ ids.workspaceId ≠ "" ∧
        RetryLosesLease env ids s) := by
  have hrun := @run_retryVerify env spawnWorker payload s
  simp only [← hids] at hrun
  dsimp only
  rw [hrun]
  have hnever : (∀ infra used infraUsed, retryVerdict (s.hydrated env
      ids.workspaceId ids.pipelineId).bridge ids ≠ .passes infra used infraUsed) →
      ¬ (spawnWorker = true ∧ ids.workspaceId ≠ "" ∧
        RetryLosesLease env ids s) := by
    rintro hnone ⟨-, -, -, ⟨infra, used, infraUsed, hpasses⟩, -⟩
    exact hnone infra used infraUsed hpasses
  cases hverdict : retryVerdict (s.hydrated env ids.workspaceId
      ids.pipelineId).bridge ids with
  | notRework | unreadable | exhausted | stranger =>
      refine iff_of_true (fun _ => givesBack_of_same rfl) (hnever ?_)
      simp [hverdict]
  | passes infra used infraUsed =>
      have hhydrated : Idle s (s.hydrated env ids.workspaceId ids.pipelineId) :=
        ⟨rfl, rfl⟩
      refine (hhydrated.givesBack_congr _).trans ?_
      refine (@retryChecked_givesBack_iff env ids infra used infraUsed spawnWorker
        (s.hydrated env ids.workspaceId ids.pipelineId)).trans ?_
      refine not_congr (and_congr_right fun _ => and_congr_right fun _ => ?_)
      exact ⟨fun hboth => ⟨⟨hboth.1.free, hboth.1.saves⟩,
          ⟨infra, used, infraUsed, hverdict⟩, hboth.2⟩,
        fun hloses => ⟨⟨hloses.lease.free, hloses.lease.saves⟩, hloses.fails⟩⟩

end Retry

/-- In every state that a session reaches, an approve or retry request that
ends without a started worker and without a report leaves no lease behind,
exactly when it is not one that took the lease for a worker and failed to write,
to record or to start it. -/
theorem failed_start_givesBack_iff {spawnWorker : Bool}
    {inputs : List RootInput} (hs : s = (init spawnWorker).after env inputs)
    (hcodec : env.codec.Serializes) {commandId : String}
    {payload : List (String × Json)}
    (hkind : requestKind payload = .approve ∨ requestKind payload = .retry)
    (hids : ids = requestIds env.toBridgeCodec payload) :
    (StartFails s (s.serve env commandId payload) →
        GivesBack s (s.serve env commandId payload).2) ↔
      ¬ LosesLease env (requestKind payload) ids s := by
  have hhealthy : s.store.Healthy := by
    rw [hs]
    exact (store_after env inputs (healthy_init spawnWorker)
      (numbered_init spawnWorker)).1
  cases hrunning : s.running with
  | false =>
      refine iff_of_true (fun _ => ?_) fun hloses => ?_
      · simp only [serve, hrunning, Bool.false_eq_true, ↓reduceIte]
        exact givesBack_of_same rfl
      · rw [hloses.running] at hrunning
        cases hrunning
  | true =>
  cases hcorrupt : s.bridge.corrupt with
  | true =>
      refine iff_of_true (fun _ => ?_) fun hloses => ?_
      · simp only [serve, hrunning, ↓reduceIte, process, Program.bind_eq]
        rw [Program.run_bind_of_ok (run_memory_lift s), if_pos hcorrupt]
        exact givesBack_of_same rfl
      · rw [hloses.sound] at hcorrupt
        cases hcorrupt
  | false =>
      rcases hkind with hkind | hkind
      · rw [serve_process hrunning hcorrupt commandId payload hkind]
        simp only [run_lift]
        refine (approve_givesBack_iff hcodec hhealthy payload hids
          s.spawnWorker).trans (not_congr ?_)
        constructor
        · rintro ⟨hworkers, hws, hloses⟩
          exact ⟨hrunning, hworkers, hcorrupt, hws, Or.inl ⟨hkind, hloses⟩⟩
        · rintro ⟨-, hworkers, -, hws, ⟨-, hloses⟩ | ⟨hother, -⟩⟩
          · exact ⟨hworkers, hws, hloses⟩
          · rw [hkind] at hother
            cases hother
      · rw [serve_process hrunning hcorrupt commandId payload hkind]
        simp only [run_lift]
        refine (retry_givesBack_iff payload hids s.spawnWorker).trans
          (not_congr ?_)
        constructor
        · rintro ⟨hworkers, hws, hloses⟩
          exact ⟨hrunning, hworkers, hcorrupt, hws, Or.inr ⟨hkind, hloses⟩⟩
        · rintro ⟨-, hworkers, -, hws, ⟨hother, -⟩ | ⟨-, hloses⟩⟩
          · rw [hkind] at hother
            cases hother
          · exact ⟨hworkers, hws, hloses⟩

end RootState

namespace FailedStartsWitness

open RootState SampleSession

def passing : DevelopmentResult :=
  ⟨.completed, some "art_impl", some ⟨"sha_a", "app.py"⟩, "", true⟩

/-- No process can be started. -/
def noProcess : RootEnv :=
  { sampleEnv passing none with spawns := fun _ => .error .os }

def inputs : List RootInput := enrolment ++ [intakeInput]

def ready : RootState := (init true).after noProcess inputs

def failedStart : Except BridgeError Json × RootState :=
  ready.serve noProcess "cmd_2" (approveRequest sampleIds)

theorem failed_start_givesBack_iff_at_approve :
    (StartFails ((init true).after noProcess inputs) failedStart →
        GivesBack ((init true).after noProcess inputs) failedStart.2) ↔
      ¬ LosesLease noProcess (requestKind (approveRequest sampleIds)) sampleIds
        ((init true).after noProcess inputs) :=
  failed_start_givesBack_iff rfl sampleJcs_serializes (Or.inl rfl) rfl

/-- The process cannot be started; the lease stays, and the next request of the
pipeline finds it busy. -/
theorem failed_start_keeps_lease :
    StartFails ready failedStart ∧ ¬ GivesBack ready failedStart.2 ∧
      leaseBusy (noProcess.clock failedStart.2.effects)
        (failedStart.2.store.loadLease "ws_a" "pl_a") = true := by
  obtain ⟨hbefore, hbusy, hraised, hspawned⟩ :
      ready.store.loadLease "ws_a" "pl_a" = none ∧
        leaseBusy (noProcess.clock failedStart.2.effects)
          (failedStart.2.store.loadLease "ws_a" "pl_a") = true ∧
        failedStart.1.isOk = false ∧ failedStart.2.spawned = ready.spawned := by
    rw [failedStart, ready, noProcess, sampleEnv_eq]
    decide +kernel
  refine ⟨⟨hspawned, Or.inr ?_⟩, fun hback => ?_, hbusy⟩
  · cases hanswer : failedStart.1 with
    | error error => exact ⟨error, rfl⟩
    | ok answer =>
        rw [hanswer] at hraised
        cases hraised
  · have hfree := hback.free _ "ws_a" "pl_a" hbusy
    rw [hbefore] at hfree
    cases hfree

end FailedStartsWitness

end HermesPipeline
