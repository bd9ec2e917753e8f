/-
Approve and retry requests of principals who may not approve.  An approval
takes the lease before its commit is denied, and a retry asks for membership
only: it drops rows, runs stages and consumes its attempt before development
asks for the role.
-/
import HermesPipeline.FirstSession
import HermesPipeline.KernelLease

namespace HermesPipeline

open Lib KernelController KernelBridge

/-- The answer refuses the request. -/
def Refused (answer : Except BridgeError Json) : Prop :=
  ∃ message, answer = .ok (errorReply message)

namespace RootState

/-- The event logs, the rows with their attempt counters, the feedback and the
leases are as they were, and no stage was run. -/
structure Untouched (s s' : RootState) : Prop where
  log : ∀ ws pl, s'.store.listEvents ws pl = s.store.listEvents ws pl
  dev : s'.bridge.dev = s.bridge.dev
  verify : s'.bridge.verify = s.bridge.verify
  approvals : s'.bridge.approvals = s.bridge.approvals
  feedback : s'.bridge.feedback = s.bridge.feedback
  leases : ∀ ws pl, s'.store.loadLease ws pl = s.store.loadLease ws pl
  launches : s'.launches = s.launches

/-- The log of the pipeline restores none of the later rows. -/
structure RestoresNothing (env : RootEnv) (ids : RequestIds) (s : RootState) :
    Prop where
  dev : (s.hydrated env ids.workspaceId ids.pipelineId).bridge.dev = s.bridge.dev
  verify : (s.hydrated env ids.workspaceId ids.pipelineId).bridge.verify =
    s.bridge.verify
  approvals : (s.hydrated env ids.workspaceId ids.pipelineId).bridge.approvals =
    s.bridge.approvals

/-- An approve request is refused before it takes the lease, or it gives back a
lease that nobody held. -/
def ApproveStops (env : RootEnv) (ids : RequestIds) (s : RootState) : Prop :=
  leaseBusy (env.clock s.effects)
      (s.store.loadLease ids.workspaceId ids.pipelineId) = true ∨
    RestoresNothing env ids s ∧
      (planned (s.hydrated env ids.workspaceId ids.pipelineId).bridge
          ids.pipelineId = none ∨
        s.bridge.registry.roleOf ids.projectId ids.principalId = none ∨
        ids.workspaceId ≠ "" ∧
          s.store.loadLease ids.workspaceId ids.pipelineId = none ∧
          LeaseFree env ids s)

/-- A retry request is refused by its checks, or the lease for its worker is
busy. -/
def RetryStops (env : RootEnv) (ids : RequestIds) (s : RootState) : Prop :=
  RestoresNothing env ids s ∧
    match retryVerdict (s.hydrated env ids.workspaceId ids.pipelineId).bridge
      ids with
    | .notRework | .exhausted | .stranger => True
    | .unreadable => False
    | .passes _ _ _ => s.spawnWorker = true ∧ leaseBusy (env.clock s.effects)
        (s.store.loadLease ids.workspaceId ids.pipelineId) = true

variable {env : RootEnv} {ids : RequestIds} {s : RootState}

theorem refused_reply (message : String) : Refused (.ok (errorReply message)) :=
  ⟨message, rfl⟩

theorem not_refused_error (error : BridgeError) :
    ¬ Refused (.error error : Except BridgeError Json) := by
  rintro ⟨message, heq⟩
  cases heq

/-- A report of the stages refuses nothing. -/
theorem not_refused_of_returns {p : BridgeProgram Json}
    (hp : p.Returns fun value => ∀ message, value ≠ errorReply message)
    (s : RootState) : ¬ Refused (p.run (handleBridge env) s).1 := by
  rintro ⟨message, heq⟩
  have hrun : p.run (handleBridge env) s =
      (.ok (errorReply message), (p.run (handleBridge env) s).2) :=
    Prod.ext heq rfl
  exact hp.run hrun message rfl

/-- Restoring rows touches nothing when there is nothing to restore. -/
theorem untouched_hydrated_iff (env : RootEnv) (ids : RequestIds)
    (s s' : RootState)
    (hbridge : s'.bridge =
      (s.hydrated env ids.workspaceId ids.pipelineId).bridge)
    (hlog : ∀ ws pl, s'.store.listEvents ws pl = s.store.listEvents ws pl)
    (hlaunches : s'.launches = s.launches) :
    Untouched s s' ↔ RestoresNothing env ids s ∧
      ∀ ws pl, s'.store.loadLease ws pl = s.store.loadLease ws pl := by
  constructor
  · intro htouched
    exact ⟨⟨by rw [← hbridge]; exact htouched.dev,
      by rw [← hbridge]; exact htouched.verify,
      by rw [← hbridge]; exact htouched.approvals⟩, htouched.leases⟩
  · rintro ⟨hnothing, hleases⟩
    refine ⟨hlog, ?_, ?_, ?_, ?_, hleases, hlaunches⟩
    · rw [hbridge, hnothing.dev]
    · rw [hbridge, hnothing.verify]
    · rw [hbridge, hnothing.approvals]
    · rw [hbridge]
      simp only [hydrated, hydrate]
      split <;> rfl

section Approve

/-- Giving a lease back. -/
theorem run_cancel (ws pl : String) (s : RootState) :
    (kernel (KernelController.cancel ws pl)).run (handleBridge env) s =
      if ws = "" then (.error (.kernel (.lease "empty workspace")), s)
      else (.ok (), { s with store := s.store.deleteLease ws pl }) := by
  unfold KernelController.cancel
  split
  · rfl
  · simp only [ask, Program.perform]
    rw [run_kernel_call]
    rfl

/-- A commit by a principal who may not approve is denied. -/
theorem run_commit_denied (hhealthy : s.store.Healthy)
    (hrole : SolutionApproval.mayApprove
      (s.bridge.registry.roleOf ids.projectId ids.principalId) = false) :
    ∃ message, (commitApproval env.toBridgeCodec ids.pipelineId ids.projectId
      ids.principalId ids.workspaceId).run (handleBridge env) s =
        (.ok (some message), s) := by
  have hcommitted := run_commitApproval env hhealthy ids.workspaceId
    ids.projectId ids.pipelineId ids.principalId
  rcases hrun : (commitApproval env.toBridgeCodec ids.pipelineId ids.projectId
    ids.principalId ids.workspaceId).run (handleBridge env) s with ⟨outcome, s'⟩
  rw [hrun] at hcommitted
  cases hcommitted with
  | refused message why => exact ⟨message, rfl⟩
  | kept prd arch role kept ended =>
      rw [hrole] at role
      cases role

/-- The part of an approval that holds the lease, for such a principal: it only
gives the lease back. -/
theorem run_approveLeased_denied (hhealthy : s.store.Healthy)
    (hrole : SolutionApproval.mayApprove
      (s.bridge.registry.roleOf ids.projectId ids.principalId) = false)
    (spawnWorker : Bool) (lease : LeaseRecord) :
    (ids.workspaceId = "" ∧ ∃ error, (approveLeased env.toBridgeCodec spawnWorker
        ids.workspaceId ids.projectId ids.pipelineId ids.principalId lease).run
          (handleBridge env) s = (.error error, s)) ∨
      ids.workspaceId ≠ "" ∧ ∃ message, (approveLeased env.toBridgeCodec
        spawnWorker ids.workspaceId ids.projectId ids.pipelineId ids.principalId
        lease).run (handleBridge env) s =
          (.ok (errorReply message), { s with
            store := s.store.deleteLease ids.workspaceId ids.pipelineId }) := by
  obtain ⟨message, hdenied⟩ := @run_commit_denied env ids s hhealthy hrole
  have hcancel := @run_cancel env ids.workspaceId ids.pipelineId s
  unfold approveLeased
  by_cases hws : ids.workspaceId = ""
  · refine Or.inl ⟨hws, .kernel (.lease "empty workspace"), ?_⟩
    rw [if_pos hws] at hcancel
    split
    · rw [Program.bind_eq, Program.run_bind_of_ok hdenied]
      exact Program.run_bind_of_error hcancel
    · rw [Program.withCleanup, Program.run_observe, runApproved, Program.bind_eq,
        Program.run_bind_of_ok hdenied]
      exact Program.run_bind_of_error hcancel
  · refine Or.inr ⟨hws, message, ?_⟩
    rw [if_neg hws] at hcancel
    split
    · rw [Program.bind_eq, Program.run_bind_of_ok hdenied]
      exact Program.run_bind_of_ok hcancel
    · rw [Program.withCleanup, Program.run_observe, runApproved, Program.bind_eq,
        Program.run_bind_of_ok hdenied]
      exact Program.run_bind_of_ok hcancel

/-- The leases after one was taken and given back. -/
theorem loadLease_released {store : SqliteKernelStore} {lease : LeaseRecord}
    (hsaves : (store.saveLease lease).1 = .ok ()) (ws pl : String) :
    ((store.saveLease lease).2.deleteLease lease.workspaceId
        lease.pipelineId).loadLease ws pl =
      if (ws, pl) = lease.key then none else store.loadLease ws pl := by
  have hdelete := (store.saveLease lease).2.loadLease_deleteLease
    lease.workspaceId lease.pipelineId (ws, pl)
  have hfits : SqliteKernelStore.fitsLease lease = true := by
    by_contra hunfit
    rw [store.saveLease_unfit (by simpa using hunfit)] at hsaves
    cases hsaves
  have hload := (store.saveLease_fits hfits).2 (ws, pl)
  simp only at hdelete hload
  rw [hdelete]
  by_cases hkey : (ws, pl) = lease.key
  · rw [if_pos hkey, if_pos (show (ws, pl) =
      (lease.workspaceId, lease.pipelineId) from hkey)]
  · rw [if_neg hkey, if_neg (show ¬ (ws, pl) =
      (lease.workspaceId, lease.pipelineId) from hkey), hload,
      if_neg (fun hboth => hkey hboth.1)]

theorem saveLease_events (store : SqliteKernelStore) (lease : LeaseRecord)
    (ws pl : String) :
    ((store.saveLease lease).2.deleteLease ws pl).events = store.events := by
  unfold SqliteKernelStore.saveLease SqliteKernelStore.deleteLease
  split <;> split <;> (try split) <;> rfl

/-- The state in which an approve request has taken the lease. -/
def leased (env : RootEnv) (ids : RequestIds) (s : RootState) : RootState :=
  let lease := grantedLease ids.workspaceId ids.pipelineId
    (workerName ids.pipelineId) (env.clock s.effects) 1800
    (s.store.loadLease ids.workspaceId ids.pipelineId)
  { s.ticked.hydrated env ids.workspaceId ids.pipelineId with
    store := (s.store.saveLease lease).2 }

theorem leased_healthy (hhealthy : s.store.Healthy) :
    (s.leased env ids).store.Healthy := by
  simp only [leased, SqliteKernelStore.saveLease]
  split
  · exact hhealthy
  · split <;> exact ⟨hhealthy.failRead, hhealthy.failAfter⟩

/-- The lease of an approve request was taken and given back. -/
theorem untouched_released_iff (hlease : LeaseFree env ids s) :
    Untouched s { s.leased env ids with
        store := (s.leased env ids).store.deleteLease ids.workspaceId
          ids.pipelineId } ↔
      RestoresNothing env ids s ∧
        s.store.loadLease ids.workspaceId ids.pipelineId = none := by
  have hlog : ∀ ws pl, ((s.leased env ids).store.deleteLease ids.workspaceId
      ids.pipelineId).listEvents ws pl = s.store.listEvents ws pl := by
    intro ws pl
    simp only [leased, SqliteKernelStore.listEvents,
      SqliteKernelStore.listEventsOn, saveLease_events]
  have hload := loadLease_released hlease.saves
  let released : RootState := { s.leased env ids with
    store := (s.leased env ids).store.deleteLease ids.workspaceId ids.pipelineId }
  refine (untouched_hydrated_iff env ids s released rfl hlog rfl).trans
    (and_congr_right fun _ => ⟨fun hsame => ?_, fun hnone ws pl => ?_⟩)
  · rw [← hsame]
    exact (hload ids.workspaceId ids.pipelineId).trans (if_pos rfl)
  · refine (hload ws pl).trans ?_
    split
    · next hkey =>
        obtain ⟨rfl, rfl⟩ := Prod.mk.inj hkey
        exact hnone.symm
    · rfl

/-- An approve request of a principal who may not approve. -/
theorem approve_refused_iff (hhealthy : s.store.Healthy)
    (payload : List (String × Json))
    (hids : ids = requestIds env.toBridgeCodec payload)
    (hrole : SolutionApproval.mayApprove
      (s.bridge.registry.roleOf ids.projectId ids.principalId) = false)
    (spawnWorker : Bool) :
    Refused ((approveBaseline env.toBridgeCodec spawnWorker payload).run
          (handleBridge env) s).1 ∧
        Untouched s ((approveBaseline env.toBridgeCodec spawnWorker payload).run
          (handleBridge env) s).2 ↔
      ApproveStops env ids s := by
  have htime : (perform .time).run (handleBridge env) s =
      (.ok (env.clock s.effects), s.ticked) := rfl
  simp only [approveBaseline, Program.bind_eq]
  rw [← hids, Program.run_bind_of_ok htime, run_loadLease_bind]
  by_cases hbusy : leaseBusy (env.clock s.effects)
      (s.ticked.store.loadLease ids.workspaceId ids.pipelineId) = true
  · rw [if_pos hbusy]
    refine iff_of_true ⟨refused_reply _, ?_⟩ (Or.inl hbusy)
    exact ⟨fun _ _ => rfl, rfl, rfl, rfl, rfl, fun _ _ => rfl, rfl⟩
  rw [if_neg hbusy, run_hydrateFromEvents_bind, run_memory_bind]
  have hstops : ApproveStops env ids s ↔ RestoresNothing env ids s ∧ _ :=
    or_iff_right hbusy
  rw [hstops]
  -- the state of a refusal that comes before the lease
  have hearly : Untouched s
      (s.ticked.hydrated env ids.workspaceId ids.pipelineId) ↔
        RestoresNothing env ids s := by
    refine (untouched_hydrated_iff env ids s _ ?_ ?_ ?_).trans (and_iff_left ?_)
    · rfl
    · exact fun _ _ => rfl
    · rfl
    · exact fun _ _ => rfl
  by_cases hplanned : planned (s.ticked.hydrated env ids.workspaceId
      ids.pipelineId).bridge ids.pipelineId = none
  · rw [if_pos hplanned]
    simp only [Program.run_done, hearly]
    exact ⟨fun hboth => ⟨hboth.2, Or.inl hplanned⟩,
      fun hboth => ⟨refused_reply _, hboth.1⟩⟩
  have hregistry : (s.ticked.hydrated env ids.workspaceId
      ids.pipelineId).bridge.registry = s.bridge.registry :=
    hydrate_registry _ _ _
  rw [if_neg hplanned, hregistry]
  by_cases hmember : s.bridge.registry.roleOf ids.projectId ids.principalId = none
  · rw [if_pos hmember]
    simp only [Program.run_done, hearly]
    exact ⟨fun hboth => ⟨hboth.2, Or.inr (Or.inl hmember)⟩,
      fun hboth => ⟨refused_reply _, hboth.1⟩⟩
  rw [if_neg hmember]
  have hfree : leaseBusy (env.clock s.effects) ((s.ticked.hydrated env
      ids.workspaceId ids.pipelineId).store.loadLease ids.workspaceId
        ids.pipelineId) = false := Bool.eq_false_iff.mpr hbusy
  rcases @run_acquireOrBusy_free env ids.workspaceId ids.pipelineId _ _ hfree
      (fun lease => approveLeased env.toBridgeCodec spawnWorker ids.workspaceId
        ids.projectId ids.pipelineId ids.principalId lease) with
    ⟨hsaves, hrun⟩ | ⟨hfails, hrun⟩
  swap
  · rw [hrun]
    refine iff_of_false (fun hboth => not_refused_error _ hboth.1) ?_
    rintro ⟨-, hnone | hnone | ⟨-, -, hlease⟩⟩
    · exact hplanned hnone
    · exact hmember hnone
    · exact hfails hlease.saves
  have hleased : (acquireOrBusy ids.workspaceId ids.pipelineId
      (env.clock s.effects) fun lease => approveLeased env.toBridgeCodec
        spawnWorker ids.workspaceId ids.projectId ids.pipelineId ids.principalId
        lease).run (handleBridge env) (s.ticked.hydrated env ids.workspaceId
          ids.pipelineId) = (approveLeased env.toBridgeCodec spawnWorker
            ids.workspaceId ids.projectId ids.pipelineId ids.principalId _).run
              (handleBridge env) (s.leased env ids) := hrun
  rw [hleased]
  have hdenied : SolutionApproval.mayApprove ((s.leased env
      ids).bridge.registry.roleOf ids.projectId ids.principalId) = false := by
    rw [show (s.leased env ids).bridge.registry = s.bridge.registry from hregistry]
    exact hrole
  rcases run_approveLeased_denied (leased_healthy hhealthy) hdenied spawnWorker _
    with ⟨hws, error, hended⟩ | ⟨hws, message, hended⟩
  · rw [hended]
    refine iff_of_false (fun hboth => not_refused_error _ hboth.1) ?_
    rintro ⟨-, hnone | hnone | ⟨hnot, -⟩⟩
    · exact hplanned hnone
    · exact hmember hnone
    · exact hnot hws
  · rw [hended]
    simp only [untouched_released_iff ⟨hfree, hsaves⟩]
    constructor
    · rintro ⟨-, hnothing, hnone⟩
      exact ⟨hnothing, Or.inr (Or.inr ⟨hws, hnone, hfree, hsaves⟩)⟩
    · rintro ⟨hnothing, hnone | hnone | ⟨-, hnone, -⟩⟩
      · exact absurd hnone hplanned
      · exact absurd hnone hmember
      · exact ⟨refused_reply _, hnothing, hnone⟩

end Approve

section Retry

/-- What an inline retry answers is a report. -/
theorem returns_retryInline (codec : BridgeCodec) (ids : RequestIds)
    (infra : Bool) (used infraUsed : Int) :
    (retryInline codec ids infra used infraUsed).Returns fun value =>
      ∀ message, value ≠ errorReply message := by
  unfold retryInline
  refine .bind fun _ => .bind fun _ => .bind fun _ => .bind fun _ =>
    .bind fun _ => ?_
  intro message heq
  simp [errorReply] at heq

/-- What a retry answers whose worker was started. -/
theorem returns_respawn (ids : RequestIds) (lease : LeaseRecord) :
    ((dropStages ids.pipelineId).bind fun _ =>
      (spawnStageWorker ids.workspaceId ids.projectId ids.pipelineId
        ids.principalId lease).bind fun _ => (.done (.obj [("ok", .bool true),
          ("running", .bool true)]) : BridgeProgram Json)).Returns fun value =>
      ∀ message, value ≠ errorReply message := by
  refine .bind fun _ => .bind fun _ => ?_
  intro message heq
  simp [errorReply] at heq

/-- A retry that passes its checks is refused only when the lease for its worker
is busy. -/
theorem retryChecked_refused_iff (spawnWorker infra : Bool)
    (used infraUsed : Int) (t : RootState) :
    let ended := (retryChecked env.toBridgeCodec spawnWorker ids infra used
      infraUsed).run (handleBridge env) t
    (Refused ended.1 ↔ spawnWorker = true ∧ leaseBusy (env.clock t.effects)
        (t.store.loadLease ids.workspaceId ids.pipelineId) = true) ∧
      (Refused ended.1 → ended.2 = t.ticked) := by
  have htime : (perform .time).run (handleBridge env) t =
      (.ok (env.clock t.effects), t.ticked) := rfl
  cases spawnWorker with
  | false =>
      have hreport := @not_refused_of_returns env _
        (returns_retryInline env.toBridgeCodec ids infra used infraUsed) t
      exact ⟨iff_of_false hreport (by simp), fun hrefused => absurd hrefused hreport⟩
  | true =>
      simp only [retryChecked, ↓reduceIte, Program.bind_eq]
      rw [Program.run_bind_of_ok htime]
      by_cases hbusy : leaseBusy (env.clock t.effects)
          (t.ticked.store.loadLease ids.workspaceId ids.pipelineId) = true
      · rw [run_acquireOrBusy_held hbusy]
        exact ⟨iff_of_true (refused_reply _) ⟨trivial, hbusy⟩, fun _ => rfl⟩
      · have hnot : ¬ (True ∧ leaseBusy (env.clock t.effects)
            (t.store.loadLease ids.workspaceId ids.pipelineId) = true) :=
          fun hboth => hbusy hboth.2
        rcases @run_acquireOrBusy_free env ids.workspaceId ids.pipelineId t.ticked
            _ (Bool.eq_false_iff.mpr hbusy) _ with ⟨-, hrun⟩ | ⟨-, hrun⟩
        · rw [hrun]
          exact ⟨iff_of_false (not_refused_of_returns (returns_respawn ids _) _) hnot,
            fun hrefused => absurd hrefused
              (not_refused_of_returns (returns_respawn ids _) _)⟩
        · rw [hrun]
          exact ⟨iff_of_false (not_refused_error _) hnot,
            fun hrefused => absurd hrefused (not_refused_error _)⟩

/-- A retry request, whoever makes it. -/
theorem retry_refused_iff (payload : List (String × Json))
    (hids : ids = requestIds env.toBridgeCodec payload) :
    Refused ((retryVerify env.toBridgeCodec s.spawnWorker payload).run
          (handleBridge env) s).1 ∧
        Untouched s ((retryVerify env.toBridgeCodec s.spawnWorker payload).run
          (handleBridge env) s).2 ↔
      RetryStops env ids s := by
  have hrun := @run_retryVerify env s.spawnWorker payload s
  simp only [← hids] at hrun
  rw [hrun]
  have huntouched : ∀ t : RootState, t.bridge = (s.hydrated env ids.workspaceId
      ids.pipelineId).bridge → t.store = s.store → t.launches = s.launches →
      (Untouched s t ↔ RestoresNothing env ids s) := by
    intro t hbridge hstore hlaunches
    refine (untouched_hydrated_iff env ids s t hbridge ?_ hlaunches).trans
      (and_iff_left ?_)
    · exact fun _ _ => by rw [hstore]
    · exact fun _ _ => by rw [hstore]
  have hrefusal := huntouched (s.hydrated env ids.workspaceId ids.pipelineId) rfl
    rfl rfl
  unfold RetryStops
  cases retryVerdict (s.hydrated env ids.workspaceId ids.pipelineId).bridge ids with
  | notRework | exhausted | stranger =>
      simp only [retryAnswer, Program.run_done, hrefusal, and_true]
      exact and_iff_right (refused_reply _)
  | unreadable =>
      simp only [retryAnswer, Program.run_raise, and_false, iff_false]
      exact fun hboth => not_refused_error _ hboth.1
  | passes infra used infraUsed =>
      obtain ⟨hiff, hstate⟩ := @retryChecked_refused_iff env ids s.spawnWorker
        infra used infraUsed (s.hydrated env ids.workspaceId ids.pipelineId)
      have hticked := huntouched
        (s.hydrated env ids.workspaceId ids.pipelineId).ticked rfl rfl rfl
      simp only [retryAnswer]
      constructor
      · rintro ⟨hrefused, htouched⟩
        rw [hstate hrefused] at htouched
        exact ⟨hticked.mp htouched, hiff.mp hrefused⟩
      · rintro ⟨hnothing, hbusy⟩
        have hrefused := hiff.mpr hbusy
        rw [hstate hrefused]
        exact ⟨hrefused, hticked.mpr hnothing⟩

end Retry

/-- In every state that a session reaches: an approve or retry request of a
principal who may not approve is refused and touches nothing exactly when the
files have spoiled the bridge, when the request stops before it takes a lease
or starts a stage and the log restores no row, or when the lease it needs is
busy. -/
theorem unauthorised_untouched_iff {spawnWorker : Bool}
    {inputs : List RootInput} (hs : s = (init spawnWorker).after env inputs)
    (hrunning : s.running = true) {commandId : String}
    {payload : List (String × Json)}
    (hkind : requestKind payload = .approve ∨ requestKind payload = .retry)
    (hids : ids = requestIds env.toBridgeCodec payload)
    (hrole : SolutionApproval.mayApprove
      (s.bridge.registry.roleOf ids.projectId ids.principalId) = false) :
    Refused (s.serve env commandId payload).1 ∧
        Untouched s (s.serve env commandId payload).2 ↔
      s.bridge.corrupt = true ∨
        requestKind payload = .approve ∧ ApproveStops env ids s ∨
        requestKind payload = .retry ∧ RetryStops env ids s := by
  have hhealthy : s.store.Healthy := by
    rw [hs]
    exact (store_after env inputs (healthy_init spawnWorker)
      (numbered_init spawnWorker)).1
  cases hcorrupt : s.bridge.corrupt with
  | true =>
      refine iff_of_true ?_ (Or.inl rfl)
      simp only [serve, hrunning, ↓reduceIte, process, Program.bind_eq]
      rw [Program.run_bind_of_ok (run_memory_lift s), if_pos hcorrupt]
      exact ⟨refused_reply _,
        ⟨fun _ _ => rfl, rfl, rfl, rfl, rfl, fun _ _ => rfl, rfl⟩⟩
  | false =>
      rcases hkind with hkind | hkind
      · rw [serve_process hrunning hcorrupt commandId payload hkind]
        simp only [run_lift, approve_refused_iff hhealthy payload hids hrole,
          hkind, Bool.false_eq_true, false_or, true_and, reduceCtorEq, false_and,
          or_false]
      · rw [serve_process hrunning hcorrupt commandId payload hkind]
        simp only [run_lift, retry_refused_iff payload hids, hkind,
          Bool.false_eq_true, false_or, true_and, reduceCtorEq, false_and]

end RootState

namespace UnauthorisedWitness

open RootState SampleSession

/-- A candidate that fails its gate. -/
def failing : DevelopmentResult :=
  ⟨.completed, some "art_impl", some ⟨"sha_a", "app.py"⟩, "", false⟩

def session : RootEnv := sampleEnv failing none

/-- A member of the project who may only look. -/
def viewerIds : RequestIds := { sampleIds with principalId := "victor" }

/-- A viewer joins, the requirement is planned and its baseline approved. -/
def inputs : List RootInput :=
  enrolment ++ [.request "cmd_v" (admitRequest "prj_a" "victor" .viewer)] ++
    [intakeInput] ++ [.request "cmd_2" (approveRequest sampleIds)]

def viewerRegistry : ProjectRegistry :=
  ⟨Dict.set .empty "prj_a" "",
    (Dict.set .empty ("prj_a", "alice") .admin).set ("prj_a", "victor") .viewer⟩

/-- The state in which the candidate has failed its gate. -/
structure Failed (s : RootState) : Prop where
  running : s.running = true
  sound : s.bridge.corrupt = false
  inline : s.spawnWorker = false
  registry : s.bridge.registry = viewerRegistry
  rests : Rests session sampleIds.workspaceId sampleIds.pipelineId
    ([(.prd, prdRow samplePlan), (.architecture, archRow sampleDesign)] ++
      [(.approval, approvalRecord sampleIds.principalId),
        (.development, developmentRow failing)])
    (some (prdRow samplePlan)) (some (archRow sampleDesign))
    (some (developmentRow failing)) none s

theorem failed_after : Failed ((init false).after session inputs) := by
  have hsteady := sampleEnv_steady failing none
  have hstarted : Started false viewerRegistry ((init false).after session
      (enrolment ++ [.request "cmd_v" (admitRequest "prj_a" "victor" .viewer)])) := by
    rw [after_request]
    exact (started_enrolment failing none false).enrol hsteady _ rfl
  have hready : IntakeReady "cmd_1" "Build the exporter" sampleIds _ :=
    hstarted.ready (by decide) (by decide) (by decide) recordsFit_sample
      (not_reserved_of_count (by decide))
  obtain ⟨hquiet, happrove⟩ := hstarted.intake hsteady ⟨rfl, rfl⟩ rfl hready
    (rfl : sampleIds.pipelineId = sampleIds.pipelineId) rfl (by decide)
    recordsFit_sample
  have hrunning := hquiet.running.trans hstarted.running
  have hsound := hquiet.corrupt.trans hstarted.sound
  have hmode := hquiet.spawnWorker.trans hstarted.spawnWorker
  have happroves := @serve_approve session _ hrunning hsound "cmd_2"
    happrove.rests.standing.healthy sampleIds
  rw [hmode] at happroves
  obtain ⟨happroved, hrests⟩ := happroves.calm_failing hsteady happrove rfl
  rw [inputs, after_request, intakeInput, after_request]
  exact
    { running := happroved.running.trans hrunning
      sound := happroved.corrupt.trans hsound
      inline := happroved.spawnWorker.trans hmode
      registry := happroved.registry.trans (hquiet.registry.trans
        (congrArg Bridge.registry hstarted.bridge))
      rests := hrests }

variable {s : RootState}

theorem Failed.role (hs : Failed s) : SolutionApproval.mayApprove
    (s.bridge.registry.roleOf viewerIds.projectId viewerIds.principalId) =
      false := by
  rw [hs.registry]
  decide

/-- The checks of a retry let a viewer through. -/
theorem Failed.passes (hs : Failed s) :
    retryVerdict (s.hydrated session viewerIds.workspaceId
      viewerIds.pipelineId).bridge viewerIds = .passes false 0 0 := by
  have hrows := hs.rests.rows.hydrated (sampleEnv_steady failing none).loads
    hs.rests.standing (by simp) (by simp) (by simp) (by decide +kernel)
  have hregistry : (s.hydrated session viewerIds.workspaceId
      viewerIds.pipelineId).bridge.registry = viewerRegistry := by
    rw [(quiet_hydrated session _ _ s).registry, hs.registry]
  simp only [retryVerdict, Dict.getD, hregistry, Option.getD_some,
    show (s.hydrated session viewerIds.workspaceId
      viewerIds.pipelineId).bridge.verify.get? viewerIds.pipelineId = none from
        hrows.verify,
    show (s.hydrated session viewerIds.workspaceId
      viewerIds.pipelineId).bridge.dev.get? viewerIds.pipelineId =
        some (developmentRow failing) from hrows.dev]
  decide +kernel

theorem unauthorised_untouched_iff_at_retry :
    Refused (((init false).after session inputs).serve session "cmd_3"
          (retryRequest viewerIds)).1 ∧
        Untouched ((init false).after session inputs)
          (((init false).after session inputs).serve session "cmd_3"
            (retryRequest viewerIds)).2 ↔
      ((init false).after session inputs).bridge.corrupt = true ∨
        requestKind (retryRequest viewerIds) = .approve ∧
          ApproveStops session viewerIds ((init false).after session inputs) ∨
        requestKind (retryRequest viewerIds) = .retry ∧
          RetryStops session viewerIds ((init false).after session inputs) :=
  unauthorised_untouched_iff rfl failed_after.running (Or.inr rfl) rfl
    failed_after.role

/-- The retry of a viewer is not refused: it passes the checks and runs. -/
theorem viewer_retry_runs :
    SolutionApproval.mayApprove (((init false).after session
        inputs).bridge.registry.roleOf viewerIds.projectId
          viewerIds.principalId) = false ∧
      ¬ (Refused (((init false).after session inputs).serve session "cmd_3"
          (retryRequest viewerIds)).1 ∧
        Untouched ((init false).after session inputs)
          (((init false).after session inputs).serve session "cmd_3"
            (retryRequest viewerIds)).2) := by
  refine ⟨failed_after.role, ?_⟩
  rw [serve_process failed_after.running failed_after.sound "cmd_3"
    (retryRequest viewerIds) (requestKind_retry viewerIds)]
  simp only [run_lift]
  rw [retry_refused_iff (retryRequest viewerIds) rfl]
  rintro ⟨-, hstops⟩
  rw [requestIds_retry, failed_after.passes] at hstops
  rw [failed_after.inline] at hstops
  cases hstops.1

end UnauthorisedWitness

end HermesPipeline
