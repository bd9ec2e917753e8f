/-
The graph stage executor.  A run waits in its graph until it is resumed, then
submits one requirement.  The graph's state is durable, the set of cancelled runs
is not: a run stays cancelled exactly as long as no executor that holds such a
run is closed and opened again.
-/
import HermesPipeline.ExactlyOnce
import HermesPipeline.KernelMemoryEffects

namespace HermesPipeline

open Lib

namespace StageExecutor

/-- What `get_state` shows of one thread: the state values and whether nodes are
still pending. -/
structure ThreadState where
  runId : Option String
  receiptJson : Option String
  next : Bool
deriving Repr, DecidableEq

/-- What resuming a thread does: nothing that the stage sees, or it reaches the
submit node with a run id and goes on with the receipt the node stored; `none`
stands for a node that raised. -/
inductive Resumed (σ : Type)
  | idle (checkpoints : σ)
  | submit (runId : Option String) (finish : Option String → σ)

/-- The graph library over its checkpoint file.  The laws say that it stores the
state of every thread, that the interrupt in the gate stops a thread until it is
resumed, and that a node runs once per invocation. -/
structure GraphRuntime (σ : Type) where
  init : σ
  getState : σ → String → ThreadState
  /-- Invoke a thread with an input, up to the interrupt. -/
  invokeInput : σ → (thread runId : String) → σ
  /-- Invoke a thread with `Command(resume=...)`. -/
  invokeResume : σ → (thread : String) → Resumed σ
  init_state : ∀ thread, getState init thread = ⟨none, none, false⟩
  input_state : ∀ s thread runId, getState (invokeInput s thread runId) thread =
    ⟨some runId, (getState s thread).receiptJson, true⟩
  input_other : ∀ s thread runId other, other ≠ thread →
    getState (invokeInput s thread runId) other = getState s other
  resume_idle : ∀ s thread s', invokeResume s thread = .idle s' →
    ∀ other, getState s' other = getState s other
  resume_runId : ∀ s thread runId finish,
    invokeResume s thread = .submit runId finish → runId = (getState s thread).runId
  resume_done : ∀ s thread runId finish receipt,
    invokeResume s thread = .submit runId finish →
      getState (finish (some receipt)) thread = ⟨runId, some receipt, false⟩
  resume_failed : ∀ s thread runId finish,
    invokeResume s thread = .submit runId finish →
      getState (finish none) thread =
        ⟨runId, (getState s thread).receiptJson, true⟩
  resume_other : ∀ s thread runId finish receipt other,
    invokeResume s thread = .submit runId finish → other ≠ thread →
      getState (finish receipt) other = getState s other

inductive StageStatus
  | pending | cancelled | unsupported | completed | denied
deriving Repr, DecidableEq

def StageStatus.value : StageStatus → String
  | .pending => "PENDING"
  | .cancelled => "CANCELLED"
  | .unsupported => "UNSUPPORTED"
  | .completed => "COMPLETED"
  | .denied => "DENIED"

/-- The arguments of the executor that name its pipeline. -/
structure StageConfig where
  workspaceId : String
  pipelineId : String
  projectId : String := "prj_stage"
deriving Repr, DecidableEq

def commandIdFor (runId : String) : String := "cmd_stage_" ++ runId

/-- The idempotency key of a run's command. -/
def idempotencyKeyFor (runId : String) : String :=
  "stage-graph-" ++ runId ++ "-key"

/-- `_command`; `none` when the command does not validate. -/
def command (config : StageConfig) (runId : String) : Option ControllerCommand :=
  if h : matchesScope "cmd_" (commandIdFor runId) = true ∧
      (16 ≤ (idempotencyKeyFor runId).length ∧
        (idempotencyKeyFor runId).length ≤ 160) ∧
      matchesScope "ws_" config.workspaceId = true ∧
      matchesScope "prj_" config.projectId = true ∧
      matchesScope "pl_" config.pipelineId = true then
    some
      { commandId := commandIdFor runId
        idempotencyKey := idempotencyKeyFor runId
        workspaceId := config.workspaceId
        projectId := config.projectId
        pipelineId := config.pipelineId
        expectedRevision := 0
        actor := ⟨"system", .system, "graph-stage-executor"⟩
        ingress := .systemReconciler
        commandType := "CONFIRM_REQUIREMENT"
        payload := .set .empty "text" (.str "stage confirmed requirement")
        correlationId := "corr-" ++ runId
        submittedAt := "2026-01-01T00:00:00Z"
        commandId_ok := h.1
        idempotencyKey_ok := h.2.1
        workspaceId_ok := h.2.2.1
        projectId_ok := h.2.2.2.1
        pipelineId_ok := h.2.2.2.2
        commandType_ok := matchesCommandType_confirm }
  else none

/-- The checkpoint file, the executor that is open on it and the controller it
submits to.  The last two fields only record what happened: the runs whose
requirement was submitted, and the runs that were cancelled before that. -/
structure StageWorld (σ : Type) where
  checkpoints : σ
  cancelled : List String
  session : Session MemoryKernelStore
  submitted : List String
  withdrawn : List String

/-- The calls on the executor, its closing and opening again, and what others do
with the controller. -/
inductive StageCall
  | start (runId : String)
  | resume (runId : String)
  | cancel (runId : String)
  | inspect (runId : String)
  | reopen
  | elsewhere (op : SessionOp)

section Calls

variable {σ : Type} (runtime : GraphRuntime σ) (env : KernelEnv)
  (config : StageConfig)

def StageWorld.init : StageWorld σ :=
  ⟨runtime.init, [], .init (memoryStore env.codec), [], []⟩

/-- `_status`. -/
def status (s : StageWorld σ) (runId : String) : StageStatus :=
  if runId ∈ s.cancelled then .cancelled
  else
    let state := runtime.getState s.checkpoints runId
    if (state.receiptJson.filter (· ≠ "")).isSome then .completed
    else if (state.runId.filter (· ≠ "")).isSome || state.next then .pending
    else .unsupported

def start (s : StageWorld σ) (runId : String) :
    Option StageStatus × StageWorld σ :=
  let existing := status runtime s runId
  if existing ≠ .unsupported then (some existing, s)
  else
    let s' := { s with checkpoints := runtime.invokeInput s.checkpoints runId runId }
    (some (status runtime s' runId), s')

/-- The submit node: build the command, submit it, and go on with its receipt. -/
def submitNode (s : StageWorld σ) (runId : String) (finish : Option String → σ) :
    Bool × StageWorld σ :=
  match command config runId with
  | none => (false, { s with checkpoints := finish none })
  | some command =>
      let answered := Session.step env (memoryStore env.codec) s.session
        (.call (.submit command))
      let s' := { s with session := answered.2, submitted := s.submitted ++ [runId] }
      match answered.1 with
      | .ok (.receipt receipt) =>
          (true, { s' with checkpoints := finish (some (env.codec.receiptJson receipt)) })
      | _ => (false, { s' with checkpoints := finish none })

/-- `resume`; `none` when the submit node raised. -/
def resume (s : StageWorld σ) (runId : String) :
    Option StageStatus × StageWorld σ :=
  match status runtime s runId with
  | .cancelled => (some .cancelled, s)
  | .unsupported => (some .unsupported, s)
  | .completed =>
      let s' := { s with checkpoints := runtime.invokeInput s.checkpoints runId runId }
      (some (status runtime s' runId), s')
  | _ =>
      match runtime.invokeResume s.checkpoints runId with
      | .idle checkpoints =>
          let s' := { s with checkpoints := checkpoints }
          (some (status runtime s' runId), s')
      | .submit stateRunId finish =>
          match submitNode env config s (stateRunId.getD "") finish with
          | (false, s') => (none, s')
          | (true, s') => (some (status runtime s' runId), s')

def cancel (s : StageWorld σ) (runId : String) : Option StageStatus × StageWorld σ :=
  (some .cancelled,
    { s with
      cancelled := runId :: s.cancelled
      withdrawn := if runId ∈ s.submitted then s.withdrawn
        else runId :: s.withdrawn })

/-- One call and the status it answers, if any. -/
def step (s : StageWorld σ) : StageCall → Option StageStatus × StageWorld σ
  | .start runId => start runtime s runId
  | .resume runId => resume runtime env config s runId
  | .cancel runId => cancel s runId
  | .inspect runId => (some (status runtime s runId), s)
  -- the set of cancelled runs is a field of the executor that was closed
  | .reopen => (none, { s with cancelled := [] })
  | .elsewhere op =>
      (none, { s with
        session := (Session.step env (memoryStore env.codec) s.session op).2 })

def next (s : StageWorld σ) (call : StageCall) : StageWorld σ :=
  (step runtime env config s call).2

/-- The runs that were cancelled before their requirement was submitted have
submitted nothing and are reported cancelled, and every run led to at most one
accepted event. -/
structure StaysCancelled (s : StageWorld σ) : Prop where
  silent : ∀ runId ∈ s.withdrawn, runId ∉ s.submitted
  reported : ∀ runId ∈ s.withdrawn,
    ∀ call ∈ [StageCall.start runId, .resume runId, .inspect runId],
      (step runtime env config s call).1 = some .cancelled
  oneEvent : ∀ runId, (s.session.store.events.filter
    (·.IsOf (config.workspaceId, commandIdFor runId))).length ≤ 1

/-- The executor is not closed while it holds a run that was cancelled before
its requirement was submitted. -/
def KeepsCancelled (s : StageWorld σ) (call : StageCall) : Prop :=
  call = .reopen → s.withdrawn = []

end Calls

section Runs

variable {σ : Type} {runtime : GraphRuntime σ} {env : KernelEnv}
  {config : StageConfig} {s s' : StageWorld σ}

/-- A thread holds the run that it is named by. -/
def OwnThreads (runtime : GraphRuntime σ) (checkpoints : σ) : Prop :=
  ∀ thread, ((runtime.getState checkpoints thread).runId = none ∨
      (runtime.getState checkpoints thread).runId = some thread) ∧
    ((runtime.getState checkpoints thread).next = true →
      (runtime.getState checkpoints thread).runId = some thread)

/-- What holds of a stage along every run that keeps its cancelled runs. -/
structure StageInvariant (runtime : GraphRuntime σ) (env : KernelEnv)
    (s : StageWorld σ) : Prop where
  held : ∀ runId ∈ s.withdrawn, runId ∈ s.cancelled
  silent : ∀ runId ∈ s.withdrawn, runId ∉ s.submitted
  threads : OwnThreads runtime s.checkpoints
  written : ∃ writes, Written env writes s.session.store

theorem stageInvariant_init : StageInvariant runtime env (.init runtime env) where
  held _ hmem := absurd hmem List.not_mem_nil
  silent _ hmem := absurd hmem List.not_mem_nil
  threads thread := by
    simp [StageWorld.init, runtime.init_state]
  written := ⟨[], Written.init⟩

/-- Whatever is done with the controller, its log stays the one of its accepted
writes. -/
theorem written_step (session : Session MemoryKernelStore) (op : SessionOp)
    (hwritten : ∃ writes, Written env writes session.store) :
    ∃ writes, Written env writes
      (Session.step env (memoryStore env.codec) session op).2.store := by
  obtain ⟨writes, hwritten⟩ := hwritten
  rcases hwritten.grow (memoryStep env session op) with hsame | ⟨_, a, -, hnext⟩
  · exact ⟨writes, hsame⟩
  · exact ⟨writes ++ [a.write], hnext⟩

theorem ownThreads_input {checkpoints : σ} (h : OwnThreads runtime checkpoints)
    (runId : String) :
    OwnThreads runtime (runtime.invokeInput checkpoints runId runId) := by
  intro thread
  by_cases hsame : thread = runId
  · subst hsame
    rw [runtime.input_state]
    exact ⟨.inr rfl, fun _ => rfl⟩
  · rw [runtime.input_other _ _ _ _ hsame]
    exact h thread

theorem ownThreads_finish {checkpoints : σ} (h : OwnThreads runtime checkpoints)
    {thread : String} {runId : Option String} {finish : Option String → σ}
    (hresume : runtime.invokeResume checkpoints thread = .submit runId finish)
    (howned : runId = some thread) (receipt : Option String) :
    OwnThreads runtime (finish receipt) := by
  intro other
  by_cases hsame : other = thread
  · subst hsame
    cases receipt with
    | none =>
        rw [runtime.resume_failed _ _ _ _ hresume]
        exact ⟨.inr howned, fun _ => howned⟩
    | some receipt =>
        rw [runtime.resume_done _ _ _ _ receipt hresume]
        exact ⟨.inr howned, fun hnext => by cases hnext⟩
  · rw [runtime.resume_other _ _ _ _ receipt _ hresume hsame]
    exact h other

theorem status_of_mem (runtime : GraphRuntime σ) {runId : String}
    (hcancelled : runId ∈ s.cancelled) :
    status runtime s runId = .cancelled := if_pos hcancelled

theorem not_mem_of_status {runId : String}
    (hstatus : status runtime s runId ≠ .cancelled) : runId ∉ s.cancelled :=
  fun hcancelled => hstatus (status_of_mem runtime hcancelled)

theorem status_ne_cancelled {runId : String} (hnot : runId ∉ s.cancelled) :
    status runtime s runId ≠ .cancelled := by
  unfold status
  rw [if_neg hnot]
  dsimp only
  split
  · decide
  · split <;> decide

/-- A pending run's thread holds the run. -/
theorem runId_of_pending (h : OwnThreads runtime s.checkpoints) {runId : String}
    (hstatus : status runtime s runId = .pending) :
    (runtime.getState s.checkpoints runId).runId = some runId := by
  unfold status at hstatus
  split at hstatus
  · cases hstatus
  · dsimp only at hstatus
    split at hstatus
    · cases hstatus
    · split at hstatus
      · rename_i hpending
        rcases (h runId).1 with hnone | hsome
        · rw [hnone] at hpending
          have hnext : (runtime.getState s.checkpoints runId).next = true := by
            simpa using hpending
          exact (h runId).2 hnext
        · exact hsome
      · cases hstatus

/-- What the submit node leaves. -/
structure Submits (runtime : GraphRuntime σ) (env : KernelEnv)
    (s s' : StageWorld σ) (runId : String) (finish : Option String → σ) : Prop where
  cancelled : s'.cancelled = s.cancelled
  withdrawn : s'.withdrawn = s.withdrawn
  submitted : ∀ run ∈ s'.submitted, run ∈ s.submitted ∨ run = runId
  checkpoints : ∃ receipt, s'.checkpoints = finish receipt
  written : (∃ writes, Written env writes s.session.store) →
    ∃ writes, Written env writes s'.session.store

theorem submitNode_submits (runtime : GraphRuntime σ) (env : KernelEnv)
    (config : StageConfig) (s : StageWorld σ) (runId : String)
    (finish : Option String → σ) :
    Submits runtime env s (submitNode env config s runId finish).2 runId finish := by
  unfold submitNode
  split
  · exact ⟨rfl, rfl, fun _ hmem => .inl hmem, ⟨none, rfl⟩, fun hwritten => hwritten⟩
  · rename_i command hcommand
    have hsubmitted : ∀ run ∈ s.submitted ++ [runId],
        run ∈ s.submitted ∨ run = runId := by
      intro run hmem
      rcases List.mem_append.mp hmem with hold | hnew
      · exact .inl hold
      · exact .inr (List.mem_singleton.mp hnew)
    dsimp only
    split
    · exact ⟨rfl, rfl, hsubmitted, ⟨_, rfl⟩, written_step _ _⟩
    · exact ⟨rfl, rfl, hsubmitted, ⟨none, rfl⟩, written_step _ _⟩

/-- Resuming a run invokes its graph, or reaches the submit node of that run. -/
theorem resume_cases (env : KernelEnv) (config : StageConfig)
    (h : OwnThreads runtime s.checkpoints) (runId : String) :
    (∃ checkpoints, (resume runtime env config s runId).2 =
        { s with checkpoints := checkpoints } ∧ OwnThreads runtime checkpoints) ∨
    runId ∉ s.cancelled ∧ ∃ finish,
      (∀ receipt, OwnThreads runtime (finish receipt)) ∧
      Submits runtime env s (resume runtime env config s runId).2 runId finish := by
  unfold resume
  cases hstatus : status runtime s runId with
  | cancelled => exact .inl ⟨s.checkpoints, rfl, h⟩
  | unsupported => exact .inl ⟨s.checkpoints, rfl, h⟩
  | completed => exact .inl ⟨_, rfl, ownThreads_input h runId⟩
  | denied =>
      exfalso
      unfold status at hstatus
      dsimp only at hstatus
      repeat' split at hstatus
      all_goals cases hstatus
  | pending =>
      have howned := runId_of_pending h hstatus
      dsimp only
      split
      · rename_i checkpoints hresume
        refine .inl ⟨checkpoints, rfl, fun thread => ?_⟩
        rw [runtime.resume_idle _ _ _ hresume]
        exact h thread
      · rename_i stateRunId finish hresume
        have hrun : stateRunId = some runId :=
          (runtime.resume_runId _ _ _ _ hresume).trans howned
        refine .inr ⟨not_mem_of_status (by rw [hstatus]; decide), finish,
          ownThreads_finish h hresume hrun, ?_⟩
        have hsubmits := submitNode_submits runtime env config s
          (stateRunId.getD "") finish
        rw [hrun] at hsubmits ⊢
        split
        · rename_i hnode
          rw [hnode] at hsubmits
          exact hsubmits
        · rename_i hnode
          rw [hnode] at hsubmits
          exact hsubmits

/-- Every call keeps the invariant, as long as cancelled runs are kept. -/
theorem StageInvariant.next (h : StageInvariant runtime env s) (call : StageCall)
    (hkeeps : KeepsCancelled s call) :
    StageInvariant runtime env (next runtime env config s call) := by
  cases call with
  | start runId =>
      simp only [StageExecutor.next, step, start]
      split
      · exact h
      · exact ⟨h.held, h.silent, ownThreads_input h.threads runId, h.written⟩
  | resume runId =>
      change StageInvariant runtime env (resume runtime env config s runId).2
      rcases resume_cases env config h.threads runId with
        ⟨checkpoints, hresumed, howned⟩ | ⟨hnot, finish, howned, hsubmits⟩
      · rw [hresumed]
        exact ⟨h.held, h.silent, howned, h.written⟩
      · refine ⟨?_, ?_, ?_, hsubmits.written h.written⟩
        · rw [hsubmits.withdrawn, hsubmits.cancelled]
          exact h.held
        · rw [hsubmits.withdrawn]
          intro run hmem hsubmitted
          rcases hsubmits.submitted run hsubmitted with hold | rfl
          · exact h.silent run hmem hold
          · exact hnot (h.held run hmem)
        · obtain ⟨receipt, hcheckpoints⟩ := hsubmits.checkpoints
          rw [hcheckpoints]
          exact howned receipt
  | cancel runId =>
      simp only [StageExecutor.next, step, cancel]
      split
      · exact ⟨fun run hmem => List.mem_cons_of_mem _ (h.held run hmem), h.silent,
          h.threads, h.written⟩
      · rename_i hnot
        refine ⟨fun run hmem => ?_, fun run hmem => ?_, h.threads, h.written⟩
        · rcases List.mem_cons.mp hmem with rfl | hold
          · exact List.mem_cons_self
          · exact List.mem_cons_of_mem _ (h.held run hold)
        · rcases List.mem_cons.mp hmem with rfl | hold
          · exact hnot
          · exact h.silent run hold
  | inspect runId => exact h
  | reopen =>
      refine ⟨fun run hmem => ?_, h.silent, h.threads, h.written⟩
      have hnone : s.withdrawn = [] := hkeeps rfl
      change run ∈ s.withdrawn at hmem
      rw [hnone] at hmem
      exact absurd hmem List.not_mem_nil
  | elsewhere op =>
      exact ⟨h.held, h.silent, h.threads, written_step _ _ h.written⟩

/-- Every call keeps the log one of accepted writes. -/
theorem written_next (s : StageWorld σ) (call : StageCall)
    (hwritten : ∃ writes, Written env writes s.session.store) :
    ∃ writes, Written env writes (next runtime env config s call).session.store := by
  cases call with
  | start runId =>
      simp only [next, step, start]
      split <;> exact hwritten
  | resume runId =>
      change ∃ writes, Written env writes
        (resume runtime env config s runId).2.session.store
      have hnode := fun run finish => (submitNode_submits runtime env config s run
        finish).written hwritten
      unfold resume
      split
      · exact hwritten
      · exact hwritten
      · exact hwritten
      · split
        · exact hwritten
        · rename_i stateRunId finish _
          have hsubmitted := hnode (stateRunId.getD "") finish
          split <;> (rename_i hanswer; rw [hanswer] at hsubmitted; exact hsubmitted)
  | cancel runId => exact hwritten
  | inspect runId => exact hwritten
  | reopen => exact hwritten
  | elsewhere op => exact written_step _ _ hwritten

/-- A run led to at most one event in a log that its accepted writes left. -/
theorem events_le_one (env : KernelEnv)
    (hwritten : ∃ writes, Written env writes s.session.store)
    (k : String × String) :
    (s.session.store.events.filter (·.IsOf k)).length ≤ 1 := by
  obtain ⟨writes, hwritten⟩ := hwritten
  rw [hwritten.length_events_filter k]
  exact List.nodup_iff_count_le_one.mp hwritten.nodup_keys k

/-- A cancelled run is reported cancelled by every call. -/
theorem reported_of_mem {runId : String} (hcancelled : runId ∈ s.cancelled) :
    ∀ call ∈ [StageCall.start runId, .resume runId, .inspect runId],
      (step runtime env config s call).1 = some .cancelled := by
  have hstatus := status_of_mem runtime hcancelled
  intro call hcall
  simp only [List.mem_cons, List.not_mem_nil, or_false] at hcall
  rcases hcall with rfl | rfl | rfl
  · simp [step, start, hstatus]
  · simp [step, resume, hstatus]
  · simp [step, hstatus]

theorem StageInvariant.staysCancelled (h : StageInvariant runtime env s) :
    StaysCancelled runtime env config s where
  silent := h.silent
  reported runId hmem := reported_of_mem (h.held runId hmem)
  oneEvent _ := events_le_one env h.written _

/-- A reopened executor reports no run as cancelled. -/
theorem keepsCancelled_of_next {call : StageCall}
    (hnext : StaysCancelled runtime env config (next runtime env config s call)) :
    KeepsCancelled s call := by
  rintro rfl
  by_contra hsome
  obtain ⟨runId, hmem⟩ := List.exists_mem_of_ne_nil _ hsome
  have hreported := hnext.reported runId hmem (.inspect runId) (by simp)
  exact status_ne_cancelled (List.not_mem_nil) (Option.some.inj hreported)

end Runs

/-- Cancelled runs stay cancelled along a run exactly when no executor is closed
while it holds one that was cancelled before its requirement was submitted; and
along every run each stage run led to at most one accepted event. -/
theorem cancelled_runs_stay_cancelled {σ : Type} (runtime : GraphRuntime σ)
    (env : KernelEnv) (config : StageConfig) (calls : List StageCall) :
    (Always (next runtime env config) (StaysCancelled runtime env config)
        (.init runtime env) calls ↔
      EachStep (next runtime env config) KeepsCancelled (.init runtime env)
        calls) ∧
    Always (next runtime env config)
      (fun s => ∀ runId, (s.session.store.events.filter
        (·.IsOf (config.workspaceId, commandIdFor runId))).length ≤ 1)
      (.init runtime env) calls := by
  constructor
  · exact always_iff_eachStep (I := StageInvariant runtime env)
      (fun _ call h hkeeps => h.next call hkeeps) (fun _ h => h.staysCancelled)
      (fun _ _ _ hnext => keepsCancelled_of_next hnext) stageInvariant_init
  · rw [always_iff_initial]
    intro before after hsplit runId
    clear hsplit
    refine events_le_one env ?_ _
    induction before using List.reverseRecOn with
    | nil => exact ⟨[], Written.init⟩
    | append_singleton before call ih =>
        rw [List.foldl_append]
        exact written_next _ call ih

/-! A run that is cancelled, and resumed after the executor was opened again on
its checkpoint file. -/

namespace GraphRunWitness

open ReferenceCodec

/-- The states of all threads. -/
abbrev Threads := String → ThreadState

def Threads.set (threads : Threads) (thread : String) (state : ThreadState) :
    Threads :=
  fun other => if other = thread then state else threads other

/-- Resume the gate of a pending thread. -/
def resumeGate (threads : Threads) (thread : String) : Resumed Threads :=
  if (threads thread).next then
    .submit (threads thread).runId fun receipt =>
      match receipt with
      | some text => threads.set thread ⟨(threads thread).runId, some text, false⟩
      | none => threads.set thread
          ⟨(threads thread).runId, (threads thread).receiptJson, true⟩
  else .idle threads

theorem resumeGate_submit {threads : Threads} {thread : String}
    {runId : Option String} {finish : Option String → Threads}
    (hresume : resumeGate threads thread = .submit runId finish) :
    runId = (threads thread).runId ∧
      (∀ text, finish (some text) = threads.set thread ⟨runId, some text, false⟩) ∧
      finish none = threads.set thread ⟨runId, (threads thread).receiptJson, true⟩ := by
  unfold resumeGate at hresume
  split at hresume
  · cases hresume
    exact ⟨rfl, fun _ => rfl, rfl⟩
  · cases hresume

@[simp] theorem set_self (threads : Threads) (thread : String)
    (state : ThreadState) : threads.set thread state thread = state := if_pos rfl

theorem set_other (threads : Threads) {thread other : String}
    (state : ThreadState) (hne : other ≠ thread) :
    threads.set thread state other = threads other := if_neg hne

def runtime : GraphRuntime Threads where
  init _ := ⟨none, none, false⟩
  getState threads thread := threads thread
  invokeInput threads thread runId :=
    threads.set thread ⟨some runId, (threads thread).receiptJson, true⟩
  invokeResume := resumeGate
  init_state _ := rfl
  input_state threads thread _ := set_self threads thread _
  input_other threads _ _ _ hne := set_other threads _ hne
  resume_idle threads thread threads' hidle other := by
    unfold resumeGate at hidle
    split at hidle
    · cases hidle
    · cases hidle
      rfl
  resume_runId threads thread runId finish hresume := (resumeGate_submit hresume).1
  resume_done threads thread runId finish receipt hresume := by
    rw [(resumeGate_submit hresume).2.1, set_self]
  resume_failed threads thread runId finish hresume := by
    rw [(resumeGate_submit hresume).2.2, set_self]
  resume_other threads thread runId finish receipt other hresume hne := by
    cases receipt with
    | none => rw [(resumeGate_submit hresume).2.2, set_other _ _ hne]
    | some text => rw [(resumeGate_submit hresume).2.1, set_other _ _ hne]

def env : KernelEnv := ⟨sampleCodec, "2026-01-01T00:00:00Z"⟩

def config : StageConfig := ⟨"ws_stage", "pl_stage", "prj_stage"⟩

def calls : List StageCall :=
  [.start "run_01", .cancel "run_01", .reopen, .resume "run_01"]

/-- The world after the calls. -/
def world : StageWorld Threads :=
  calls.foldl (next runtime env config) (.init runtime env)

/-- The cancelled run submits its requirement, which is accepted. -/
theorem cancelled_run_submits :
    "run_01" ∈ world.withdrawn ∧ "run_01" ∈ world.submitted ∧
      status runtime world "run_01" = .completed ∧
      world.session.store.events.length = 1 ∧
      ¬ StaysCancelled runtime env config world := by
  have hbytes : env = ⟨byteCodec, "2026-01-01T00:00:00Z"⟩ := by rw [env, byteCodec_eq]
  have hwithdrawn : "run_01" ∈ world.withdrawn := by
    rw [world, hbytes]
    decide +kernel
  have hsubmitted : "run_01" ∈ world.submitted := by
    rw [world, hbytes]
    decide +kernel
  have hstatus : status runtime world "run_01" = .completed := by
    rw [world, hbytes]
    decide +kernel
  have hevents : world.session.store.events.length = 1 := by
    rw [world, hbytes]
    decide +kernel
  refine ⟨hwithdrawn, hsubmitted, hstatus, hevents, ?_⟩
  intro hstays
  exact hstays.silent _ hwithdrawn hsubmitted

end GraphRunWitness

end StageExecutor

end HermesPipeline
