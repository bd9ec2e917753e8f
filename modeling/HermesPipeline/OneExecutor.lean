/-
Stage executions of one pipeline.  A lease is kept per workspace and pipeline,
the worktree per pipeline, and an inline retry takes no lease.  No two stage
executions of a pipeline overlap in every schedule in which each pipeline has
one workspace, held leases do not run out, an acquire does not save over a lease
of others, and an inline retry runs apart from leases and other retries.
-/
import HermesPipeline.ReferenceCodec
import HermesPipeline.StageSchedule

namespace HermesPipeline

open Lib KernelController

namespace StageThread

/-- The (workspace, pipeline) whose stages the thread is in. -/
def runs (thread : StageThread) : Option (String × String) :=
  if thread.active then thread.ghost.running else none

/-- The thread has a lease of the pipeline or is in its stages. -/
def Occupies (thread : StageThread) (pl : String) : Prop :=
  (∃ claim, thread.holds = some claim ∧ claim.pipelineId = pl) ∨
    ∃ ws, thread.runs = some (ws, pl)

theorem runs_eq_some {thread : StageThread} {key : String × String} :
    thread.runs = some key ↔
      thread.active = true ∧ thread.ghost.running = some key := by
  unfold runs
  cases thread.active <;> simp

theorem not_occupies {thread : StageThread} (hghost : thread.ghost = ⟨.nothing, none⟩)
    (pl : String) : ¬thread.Occupies pl := by
  rintro (⟨claim, hholds, -⟩ | ⟨ws, hruns⟩)
  · have hclaim := (holds_eq_some.mp hholds).2
    rw [hghost] at hclaim
    cases hclaim
  · have hrunning := (runs_eq_some.mp hruns).2
    rw [hghost] at hrunning
    cases hrunning

end StageThread

/-- No two threads are in the stages of one pipeline. -/
def OneExecutor (pool : StagePool) : Prop :=
  ∀ (i j : Nat) first second ws ws' pl, i ≠ j → pool.threads[i]? = some first →
    pool.threads[j]? = some second → first.runs = some (ws, pl) →
    second.runs ≠ some (ws', pl)

/-- What keeps the executions of a pipeline apart.  Its requests name one
workspace, which is not empty; only the clock changes from outside; held leases
have not run out; the row that an acquire saves over is free, and no stages of
the pipeline run without a lease then; stages are entered without a lease only
when no other thread has a lease of the pipeline or is in its stages. -/
structure ExecutorsApart (env : StageEnv) (home : String → String)
    (pool : StagePool) (label : StageLabel) : Prop where
  workspaces : ∀ call, label = .start call → ∀ request ∈ call.requests,
    (request.key env.toBridgeCodec).1 = home (request.key env.toBridgeCodec).2 ∧
      (request.key env.toBridgeCodec).1 ≠ ""
  clock : ∀ change, label = .change change → ∃ seconds, change = .tick seconds
  unexpired : ∀ thread ∈ pool.threads, ∀ claim, thread.holds = some claim →
    ∀ lease, pool.shared.row claim.key = some lease →
      pool.shared.now ≤ lease.expiresAt
  acquires : ∀ i thread record spawnWorker requests,
    NextEffect pool label i thread (.store (.saveLease record)) →
    SqliteKernelStore.fitsLease record = true →
    thread.role = .sidecar spawnWorker requests →
      leaseBusy pool.shared.now (pool.shared.row record.key) = false ∧
      ∀ (j : Nat) other ws, j ≠ i → pool.threads[j]? = some other →
        other.runs = some (ws, record.pipelineId) → other.holds ≠ none
  enters : ∀ i thread ws pl, NextEffect pool label i thread (.enterStages ws pl) →
    thread.holds = none →
      ∀ (j : Nat) other, j ≠ i → pool.threads[j]? = some other →
        ¬other.Occupies pl

/-- The leases of a thread belong to the one workspace of their pipeline. -/
structure StageThread.AtHome (env : BridgeCodec) (home : String → String)
    (thread : StageThread) : Prop where
  requests : ∀ spawnWorker requests, thread.role = .sidecar spawnWorker requests →
    ∀ request ∈ requests, (request.key env).1 = home (request.key env).2 ∧
      (request.key env).1 ≠ ""
  claim : ∀ claim, thread.holds = some claim →
    claim.workspaceId = home claim.pipelineId ∧ claim.workspaceId ≠ ""

structure ExecutorsDistinct (env : StageEnv) (home : String → String)
    (pool : StagePool) : Prop where
  sound : ∀ thread ∈ pool.threads, thread.Sound env
  homes : ∀ thread ∈ pool.threads, thread.AtHome env.toBridgeCodec home
  stored : ∀ thread ∈ pool.threads, ∀ claim, thread.holds = some claim →
    ∃ lease, pool.shared.row claim.key = some lease
  apart : ∀ (i j : Nat) first second, i ≠ j → pool.threads[i]? = some first →
    pool.threads[j]? = some second → ∀ pl, first.Occupies pl → ¬second.Occupies pl

section Moves

variable {env : StageEnv} {thread : StageThread} {world : StageWorld}

/-- How a thread comes to occupy a pipeline. -/
inductive Occupying (env : StageEnv) (thread : StageThread) (pl : String) : Prop
  | before (occupies : thread.Occupies pl)
  | acquired {spawnWorker : Bool} {requests : List BridgeRequest}
      {record : LeaseRecord}
      (role : thread.role = .sidecar spawnWorker requests)
      (program : ∃ next, thread.program = .call (.store (.saveLease record)) next)
      (fits : SqliteKernelStore.fitsLease record = true)
      (request : ∃ request ∈ requests, request.key env.toBridgeCodec = record.key)
      (pipeline : record.pipelineId = pl)
  | entered {ws : String}
      (program : ∃ next, thread.program = .call (.enterStages ws pl) next)
      (unleased : thread.holds = none)

theorem StageThread.occupying (hsound : thread.Sound env) {pl : String}
    (hoccupies : ((stageRules env).advance thread world).1.Occupies pl) :
    Occupying env thread pl := by
  have hmove := StageThread.move world hsound
  generalize ((stageRules env).advance thread world).2.row = rows at hmove
  have hactive : thread.active = true := by
    rcases hoccupies with ⟨claim, hholds, -⟩ | ⟨ws, hruns⟩
    · exact StageThread.active_of_advance (StageThread.holds_eq_some.mp hholds).1
    · exact StageThread.active_of_advance (StageThread.runs_eq_some.mp hruns).1
  -- in terms of the ghost state
  have hghost : (∃ claim, ((stageRules env).advance thread world).1.ghost.holding.claim? =
        some claim ∧ claim.pipelineId = pl) ∨
      ∃ ws, ((stageRules env).advance thread world).1.ghost.running =
        some (ws, pl) := by
    rcases hoccupies with ⟨claim, hholds, hpl⟩ | ⟨ws, hruns⟩
    · exact Or.inl ⟨claim, (StageThread.holds_eq_some.mp hholds).2, hpl⟩
    · exact Or.inr ⟨ws, (StageThread.runs_eq_some.mp hruns).2⟩
  have hclaimed : ∀ claim, thread.ghost.holding.claim? = some claim →
      claim.pipelineId = pl → Occupying env thread pl := fun claim hclaim hpl =>
    .before (Or.inl ⟨claim, StageThread.holds_eq_some.mpr ⟨hactive, hclaim⟩, hpl⟩)
  have hrunning : ∀ ws, thread.ghost.running = some (ws, pl) →
      Occupying env thread pl := fun ws hws =>
    .before (Or.inr ⟨ws, StageThread.runs_eq_some.mpr ⟨hactive, hws⟩⟩)
  generalize ((stageRules env).advance thread world).1.ghost = ghost
    at hmove hghost
  cases hmove with
  | worked =>
      rcases hghost with ⟨claim, hclaim, hpl⟩ | ⟨ws, hws⟩
      · exact hclaimed claim hclaim hpl
      · exact hrunning ws hws
  | renewed program fits free =>
      rcases hghost with ⟨claim, hclaim, hpl⟩ | ⟨ws, hws⟩
      · exact hclaimed claim hclaim hpl
      · exact hrunning ws hws
  | acquired role program fits free request =>
      rcases hghost with ⟨claim, ⟨⟩, hpl⟩ | ⟨ws, ⟨⟩⟩
      exact .acquired role program fits request hpl
  | released | forgot =>
      rcases hghost with ⟨_, h, _⟩ | ⟨_, h⟩ <;> cases h
  | left =>
      rcases hghost with ⟨claim, hclaim, hpl⟩ | ⟨ws, ⟨⟩⟩
      rw [Holding.claim?_spend] at hclaim
      exact hclaimed claim hclaim hpl
  | entered program idle entry =>
      rcases hghost with ⟨claim, hclaim, hpl⟩ | ⟨ws, ⟨⟩⟩
      · exact hclaimed claim hclaim hpl
      · rcases entry with ⟨claim, hleased, hkey⟩ | ⟨hnothing, -⟩
        · exact hclaimed claim (by rw [hleased]; rfl) (congrArg Prod.snd hkey)
        · refine .entered program ?_
          simp only [StageThread.holds, hactive, ↓reduceIte, hnothing, Holding.claim?]

/-- A new worker occupies what the sidecar that starts it has occupied. -/
theorem StageThread.occupies_of_fork (hsound : thread.Sound env)
    {child : StageThread} (hfork : (stageRules env).fork thread world = some child)
    {pl : String} (hoccupies : child.Occupies pl) : thread.Occupies pl := by
  cases StageThread.fork hsound hfork with
  | heartbeat child_eq =>
      exact absurd hoccupies (StageThread.not_occupies (by rw [child_eq]; rfl) pl)
  | worker active leased handed rows child_eq =>
      subst child_eq
      rcases hoccupies with ⟨claim, hholds, hpl⟩ | ⟨ws, hruns⟩
      · cases (StageThread.holds_eq_some.mp hholds).2
        exact Or.inl ⟨_, StageThread.holds_eq_some.mpr ⟨active, by rw [leased]; rfl⟩,
          hpl⟩
      · cases (StageThread.runs_eq_some.mp hruns).2

/-- The leases of a thread after its own step: the one it had, or the one it
has just acquired. -/
theorem StageThread.holds_advance (hsound : thread.Sound env) {claim : LeaseClaim}
    (hholds : ((stageRules env).advance thread world).1.holds = some claim) :
    (thread.holds = some claim ∧
        ((stageRules env).advance thread world).2.row = world.row) ∨
      ∃ spawnWorker requests record,
        thread.role = .sidecar spawnWorker requests ∧ claim = record.claim ∧
        (∃ request ∈ requests, request.key env.toBridgeCodec = record.key) ∧
        ∀ key, ((stageRules env).advance thread world).2.row key =
          if key = record.key ∧ record.workspaceId ≠ "" then some record
          else world.row key := by
  have hmove := StageThread.move world hsound
  obtain ⟨hactive, hclaim⟩ := StageThread.holds_eq_some.mp hholds
  have hbefore : thread.ghost.holding.claim? = some claim →
      thread.holds = some claim := fun h =>
    StageThread.holds_eq_some.mpr ⟨StageThread.active_of_advance hactive, h⟩
  generalize ((stageRules env).advance thread world).1.ghost = ghost at hmove hclaim
  generalize ((stageRules env).advance thread world).2.row = rows at hmove ⊢
  cases hmove with
  | worked => exact Or.inl ⟨hbefore hclaim, rfl⟩
  | entered program idle entry => exact Or.inl ⟨hbefore hclaim, rfl⟩
  | left =>
      rw [Holding.claim?_spend] at hclaim
      exact Or.inl ⟨hbefore hclaim, rfl⟩
  | renewed program fits free =>
      rw [free] at hclaim
      cases hclaim
  | released | forgot => cases hclaim
  | acquired role program fits free request =>
      cases hclaim
      exact Or.inr ⟨_, _, _, role, rfl, request, fun _ => rfl⟩

end Moves

namespace ExecutorsDistinct

variable {env : StageEnv} {home : String → String} {pool : StagePool}
  {label : StageLabel}

theorem init (store : SqliteKernelStore) (now : Int) :
    ExecutorsDistinct env home (.init store now) :=
  ⟨by simp [StagePool.init], by simp [StagePool.init], by simp [StagePool.init],
    by simp [StagePool.init]⟩

theorem homes_step (hpool : ExecutorsDistinct env home pool)
    (hapart : ExecutorsApart env home pool label) :
    ∀ thread ∈ (Pool.step (stageRules env) pool label).threads,
      thread.AtHome env.toBridgeCodec home := by
  refine Pool.threads_step (I := fun _ thread =>
    thread.AtHome env.toBridgeCodec home) (stageRules env) ?_ ?_ ?_ ?_
  · intro call hlabel
    refine ⟨?_, ?_⟩
    · rintro _ _ ⟨⟩
      exact hapart.workspaces call hlabel
    · intro claim hholds
      cases (StageThread.holds_eq_some.mp hholds).2
  · intro i thread _ hthread
    have hmem := List.mem_of_getElem? hthread
    have hhome := hpool.homes thread hmem
    refine ⟨?_, ?_⟩
    · intro spawnWorker requests hrole
      rw [StageThread.advance_role] at hrole
      exact hhome.requests spawnWorker requests hrole
    · intro claim hholds
      rcases StageThread.holds_advance (hpool.sound thread hmem) hholds with
        ⟨hbefore, -⟩ |
        ⟨spawnWorker, requests, record, hrole, rfl, ⟨request, hrequest, hkey⟩, -⟩
      · exact hhome.claim claim hbefore
      · have hrequests := hhome.requests spawnWorker requests hrole request hrequest
        rw [hkey] at hrequests
        exact hrequests
  · intro i thread _ hthread child hchild
    have hmem := List.mem_of_getElem? hthread
    cases StageThread.fork (hpool.sound thread hmem) hchild with
    | worker active leased handed rows child_eq =>
        rw [child_eq]
        refine ⟨(fun _ _ h => by cases h), ?_⟩
        intro claim hholds
        cases (StageThread.holds_eq_some.mp hholds).2
        exact (hpool.homes thread hmem).claim _
          (StageThread.holds_eq_some.mpr ⟨active, by rw [leased]; rfl⟩)
    | heartbeat child_eq =>
        rw [child_eq]
        refine ⟨(fun _ _ h => by cases h), ?_⟩
        intro claim hholds
        cases (StageThread.holds_eq_some.mp hholds).2
  · intro k thread _ hthread
    exact hpool.homes thread (List.mem_of_getElem? hthread)

/-- A row that a thread holds stays when another thread moves. -/
theorem stored_other (hpool : ExecutorsDistinct env home pool) {i k : Nat}
    {thread other : StageThread} (hthread : pool.threads[i]? = some thread)
    (hk : k ≠ i) (hother : pool.threads[k]? = some other) {claim : LeaseClaim}
    (hholds : other.holds = some claim) :
    ∃ lease, ((stageRules env).advance thread pool.shared).2.row claim.key =
      some lease := by
  have hmove := StageThread.move pool.shared
    (hpool.sound thread (List.mem_of_getElem? hthread))
  have hstored := hpool.stored other (List.mem_of_getElem? hother) claim hholds
  generalize ((stageRules env).advance thread pool.shared).1.ghost = ghost at hmove
  generalize ((stageRules env).advance thread pool.shared).2.row = rows
    at hmove ⊢
  cases hmove with
  | worked | forgot | entered | left => exact hstored
  | acquired | renewed =>
      dsimp only
      split
      · exact ⟨_, rfl⟩
      · exact hstored
  | @released ws pl released program idle claim_eq key_eq =>
      -- both threads would have a lease of the pipeline
      have hkey : claim.key ≠ (ws, pl) := by
        intro hkey
        obtain ⟨next, hprogram⟩ := program
        have hactive : thread.active = true := by
          simp only [StageThread.active, hprogram]
        exact hpool.apart i k thread other (Ne.symm hk) hthread hother pl
          (Or.inl ⟨released, StageThread.holds_eq_some.mpr ⟨hactive, claim_eq⟩,
            congrArg Prod.snd key_eq⟩)
          (Or.inl ⟨claim, hholds, congrArg Prod.snd hkey⟩)
      dsimp only
      rw [if_neg hkey]
      exact hstored

theorem stored_step (hpool : ExecutorsDistinct env home pool)
    (hapart : ExecutorsApart env home pool label) :
    ∀ thread ∈ (Pool.step (stageRules env) pool label).threads, ∀ claim,
      thread.holds = some claim → ∃ lease,
        (Pool.step (stageRules env) pool label).shared.row claim.key =
          some lease := by
  refine Pool.threads_step (I := fun world thread => ∀ claim,
    thread.holds = some claim → ∃ lease, world.row claim.key = some lease)
    (stageRules env) ?_ ?_ ?_ ?_
  · intro call _ claim hholds
    cases (StageThread.holds_eq_some.mp hholds).2
  · intro i thread _ hthread claim hholds
    have hmem := List.mem_of_getElem? hthread
    rcases StageThread.holds_advance (hpool.sound thread hmem) hholds with
      ⟨hbefore, hrows⟩ |
      ⟨spawnWorker, requests, record, hrole, rfl, ⟨request, hrequest, hkey⟩, hrows⟩
    · rw [hrows]
      exact hpool.stored thread hmem claim hbefore
    · have hhome := (hpool.homes thread hmem).requests spawnWorker requests hrole
        request hrequest
      rw [hkey] at hhome
      exact ⟨record, (hrows record.key).trans (if_pos ⟨rfl, hhome.2⟩)⟩
  · intro i thread _ hthread child hchild claim hholds
    have hmem := List.mem_of_getElem? hthread
    obtain ⟨-, hclaim⟩ := StageThread.holds_eq_some.mp hholds
    cases StageThread.fork (hpool.sound thread hmem) hchild with
    | worker active leased handed rows child_eq =>
        rw [child_eq] at hclaim
        cases hclaim
        rw [rows]
        exact hpool.stored thread hmem _
          (StageThread.holds_eq_some.mpr ⟨active, by rw [leased]; rfl⟩)
    | heartbeat child_eq =>
        rw [child_eq] at hclaim
        cases hclaim
  · intro k thread hk hthread claim hholds
    have hmem := List.mem_of_getElem? hthread
    cases label with
    | start call => exact hpool.stored thread hmem claim hholds
    | change change =>
        obtain ⟨seconds, rfl⟩ := hapart.clock change rfl
        exact hpool.stored thread hmem claim hholds
    | advance i =>
        cases hmoving : pool.threads[i]? with
        | none =>
            rw [Pool.step_absent _ hmoving]
            exact hpool.stored thread hmem claim hholds
        | some moving =>
            rw [Pool.step_advance _ hmoving]
            exact hpool.stored_other hmoving (fun h => hk (by rw [h])) hthread hholds

/-- The row that an acquire saves over is free, so no other thread has a lease
of the pipeline. -/
theorem acquired_apart (hpool : ExecutorsDistinct env home pool)
    (hapart : ExecutorsApart env home pool label) {i k : Nat}
    {thread other : StageThread} {record : LeaseRecord} {spawnWorker : Bool}
    {requests : List BridgeRequest}
    (hnext : NextEffect pool label i thread (.store (.saveLease record)))
    (hfits : SqliteKernelStore.fitsLease record = true)
    (hrole : thread.role = .sidecar spawnWorker requests)
    (hrequest : ∃ request ∈ requests, request.key env.toBridgeCodec = record.key)
    (hk : k ≠ i) (hother : pool.threads[k]? = some other) :
    ¬other.Occupies record.pipelineId := by
  obtain ⟨-, hthread, -⟩ := id hnext
  obtain ⟨hfree, halone⟩ := hapart.acquires i thread record spawnWorker requests
    hnext hfits hrole
  have hmem := List.mem_of_getElem? hother
  -- a lease of the pipeline is one of the same workspace, and it is stored
  have hunheld : ∀ claim, other.holds = some claim →
      claim.pipelineId ≠ record.pipelineId := by
    intro claim hholds hpl
    obtain ⟨request, hmember, hkey⟩ := hrequest
    have hhome := (hpool.homes thread (List.mem_of_getElem? hthread)).requests
      spawnWorker requests hrole request hmember
    rw [hkey] at hhome
    have hclaim := (hpool.homes other hmem).claim claim hholds
    have hsame : claim.key = record.key := by
      refine Prod.ext ?_ hpl
      exact hclaim.1.trans ((congrArg home hpl).trans hhome.1.symm)
    obtain ⟨lease, hlease⟩ := hpool.stored other hmem claim hholds
    have hexpires := hapart.unexpired other hmem claim hholds lease hlease
    rw [← hsame, hlease] at hfree
    simp only [leaseBusy, decide_eq_false_iff_not] at hfree
    exact hfree hexpires
  rintro (⟨claim, hholds, hpl⟩ | ⟨ws, hruns⟩)
  · exact hunheld claim hholds hpl
  · obtain ⟨hactive, hrunning⟩ := StageThread.runs_eq_some.mp hruns
    rcases (hpool.sound other hmem).running ws _ hrunning with
      ⟨claim, hleased, hkey⟩ | ⟨hnothing, -⟩
    · exact hunheld claim
        (StageThread.holds_eq_some.mpr ⟨hactive, by rw [hleased]; rfl⟩)
        (congrArg Prod.snd hkey)
    · refine halone k other ws hk hother hruns ?_
      simp only [StageThread.holds, hactive, ↓reduceIte, hnothing, Holding.claim?]

theorem apart_step (hpool : ExecutorsDistinct env home pool)
    (hapart : ExecutorsApart env home pool label) :
    ∀ (i j : Nat) first second, i ≠ j →
      (Pool.step (stageRules env) pool label).threads[i]? = some first →
      (Pool.step (stageRules env) pool label).threads[j]? = some second →
      ∀ pl, first.Occupies pl → ¬second.Occupies pl := by
  refine Pool.pairs_step (R := fun first second : StageThread =>
    ∀ pl, first.Occupies pl → ¬second.Occupies pl) (stageRules env)
    (fun _ _ h pl hsecond hfirst => h pl hfirst hsecond) hpool.apart ?_ ?_ ?_ ?_
  · intro call k other _ _ pl _
    exact StageThread.not_occupies rfl pl
  · intro i k thread other hlabel hthread hk hother pl hbefore hoccupies
    cases StageThread.occupying (hpool.sound thread (List.mem_of_getElem? hthread))
      hoccupies with
    | before occupies =>
        exact hpool.apart k i other thread hk hother hthread pl hbefore occupies
    | acquired role program fits request pipeline =>
        subst pipeline
        exact hpool.acquired_apart hapart ⟨hlabel, hthread, program⟩ fits role
          request hk hother hbefore
    | entered program unleased =>
        exact hapart.enters i thread _ pl ⟨hlabel, hthread, program⟩ unleased k other
          hk hother hbefore
  · intro i k thread other child hlabel hthread hchild hk hother pl hbefore
      hoccupies
    exact hpool.apart k i other thread hk hother hthread pl hbefore
      (StageThread.occupies_of_fork
        (hpool.sound thread (List.mem_of_getElem? hthread)) hchild hoccupies)
  · intro i thread child hlabel hthread hchild pl hmoved hoccupies
    cases StageThread.fork (hpool.sound thread (List.mem_of_getElem? hthread))
      hchild with
    | worker active leased handed rows child_eq =>
        exact StageThread.not_occupies handed pl hmoved
    | heartbeat child_eq =>
        exact StageThread.not_occupies (by rw [child_eq]; rfl) pl hoccupies

theorem step (hpool : ExecutorsDistinct env home pool)
    (hapart : ExecutorsApart env home pool label) :
    ExecutorsDistinct env home (Pool.step (stageRules env) pool label) :=
  ⟨sound_step hpool.sound label, hpool.homes_step hapart, hpool.stored_step hapart,
    hpool.apart_step hapart⟩

theorem oneExecutor (hpool : ExecutorsDistinct env home pool) :
    OneExecutor pool := by
  intro i j first second ws ws' pl hij hfirst hsecond hruns hruns'
  exact hpool.apart i j first second hij hfirst hsecond pl (Or.inr ⟨ws, hruns⟩)
    (Or.inr ⟨ws', hruns'⟩)

end ExecutorsDistinct

/-- No two stage executions of a pipeline overlap in every schedule that keeps
them apart. -/
theorem one_executor_of_apart (env : StageEnv) (home : String → String)
    (store : SqliteKernelStore) (now : Int) (labels : List StageLabel)
    (hapart : EachStep (Pool.step (stageRules env)) (ExecutorsApart env home)
      (StagePool.init store now) labels) :
    Always (Pool.step (stageRules env)) OneExecutor (StagePool.init store now)
      labels :=
  always_of_eachStep (fun _ _ => ExecutorsDistinct.step)
    (fun _ => ExecutorsDistinct.oneExecutor) (ExecutorsDistinct.init store now)
    hapart

namespace OneExecutorWitness

open StageSample

/-- The check behind `ExecutorsApart`, when every request is for one workspace
and no stages are entered without a lease. -/
def apart (workspaceId : String) (pool : StagePool) (label : StageLabel) : Bool :=
  (pool.threads.all fun thread =>
    match thread.holds with
    | some claim =>
        match pool.shared.row claim.key with
        | some lease => pool.shared.now ≤ lease.expiresAt
        | none => true
    | none => true) &&
  match label with
  | .start call => call.requests.all fun request =>
      (request.key env.toBridgeCodec).1 = workspaceId && workspaceId ≠ ""
  | .change (.tick _) => true
  | .change _ => false
  | .advance i =>
      match effect? pool i with
      | some (_, .store (.saveLease record)) =>
          !leaseBusy pool.shared.now (pool.shared.row record.key) &&
            others pool i fun other => other.runs = none
      | some (thread, .enterStages _ _) => thread.holds.isSome
      | _ => true

theorem executorsApart_of_check {workspaceId : String} {pool : StagePool}
    {label : StageLabel} (hcheck : apart workspaceId pool label = true) :
    ExecutorsApart env (fun _ => workspaceId) pool label := by
  obtain ⟨hunexpired, hlabel⟩ := Bool.and_eq_true_iff.mp hcheck
  refine ⟨?_, ?_, ?_, ?_, ?_⟩
  · rintro call rfl request hrequest
    have hkey := List.all_eq_true.mp hlabel request hrequest
    simp only [Bool.and_eq_true, decide_eq_true_eq] at hkey
    rw [hkey.1]
    exact ⟨rfl, hkey.2⟩
  · rintro change rfl
    cases change with
    | tick seconds => exact ⟨seconds, rfl⟩
    | takeOver | cancel => cases hlabel
  · intro thread hthread claim hholds lease hlease
    have hclaim := List.all_eq_true.mp hunexpired thread hthread
    simpa [hholds, hlease] using hclaim
  · intro i thread record spawnWorker requests hnext _ _
    obtain ⟨rfl, -⟩ := id hnext
    simp only [effect?_of_next hnext, Bool.and_eq_true, Bool.not_eq_true'] at hlabel
    refine ⟨hlabel.1, ?_⟩
    intro j other ws hj hother hruns
    have hidle := check_of_others hlabel.2 hj hother
    rw [hruns] at hidle
    cases of_decide_eq_true hidle
  · intro i thread ws pl hnext hholds
    obtain ⟨rfl, -⟩ := id hnext
    simp only [effect?_of_next hnext, hholds] at hlabel
    cases hlabel

/-- A worker runs; a second approve in between is answered with busy. -/
def calmLabels : List StageLabel :=
  approves ["ws_a", "ws_a"] :: steps 0 24 ++ steps 1 5 ++ steps 0 4 ++ steps 1 41

theorem one_executor_at_calmLabels :
    EachStep (Pool.step (stageRules env)) (ExecutorsApart env fun _ => "ws_a")
        (StagePool.init .init 100) calmLabels ∧
      Always (Pool.step (stageRules env)) OneExecutor (StagePool.init .init 100)
        calmLabels := by
  have hchecked : EachStep (Pool.step (stageRules env))
      (fun pool label => apart "ws_a" pool label = true)
      (StagePool.init .init 100) calmLabels := by decide +kernel
  have hapart : EachStep (Pool.step (stageRules env))
      (ExecutorsApart env fun _ => "ws_a") (StagePool.init .init 100)
      calmLabels :=
    hchecked.imp (I := fun _ => True) (fun _ _ _ _ => trivial)
      (fun _ _ _ => executorsApart_of_check) trivial
  exact ⟨hapart, one_executor_of_apart _ _ _ _ _ hapart⟩

/-- A sidecar starts two workers of one pipeline, one for a workspace and one
for the empty workspace, whose lease is not stored. -/
def twoWorkspaces : List StageLabel :=
  approves ["ws_a", ""] :: steps 0 24 ++ steps 1 5 ++ steps 0 19 ++ steps 3 5

/-- The pipeline of `env` with a verification that asks for rework. -/
def reworkEnv : StageEnv :=
  let row := rowOf [("verify_status", "REWORK")]
  { env with
    constructs := fun _ => .ok { bridge with verify := Dict.set .empty "pl_a" row } }

/-- A worker of the pipeline, and a retry in a sidecar that starts no
workers. -/
def inlineRetry : List StageLabel :=
  approves ["ws_a"] :: steps 0 24 ++ steps 1 5 ++
    [.start ⟨false, [.retry (StageSample.request "ws_a")]⟩] ++ steps 3 16

/-- The (workspace, pipeline) whose stages a thread is in. -/
def running (pool : StagePool) (i : Nat) : Option (String × String) :=
  (pool.threads[i]?).bind StageThread.runs

theorem not_always_oneExecutor {env : StageEnv} {labels : List StageLabel}
    {i j : Nat} {ws ws' pl : String} (hij : i ≠ j)
    (hfirst : running (Pool.run (stageRules env) (StagePool.init .init 100) labels)
      i = some (ws, pl))
    (hsecond : running (Pool.run (stageRules env) (StagePool.init .init 100) labels)
      j = some (ws', pl)) :
    ¬Always (Pool.step (stageRules env)) OneExecutor (StagePool.init .init 100)
      labels := by
  intro halways
  obtain ⟨first, hthread, hruns⟩ := Option.bind_eq_some_iff.mp hfirst
  obtain ⟨second, hthread', hruns'⟩ := Option.bind_eq_some_iff.mp hsecond
  have hone := always_iff_initial.mp halways labels [] (List.append_nil _).symm
  exact hone i j first second ws ws' pl hij hthread hthread' hruns hruns'

/-- No time passes, and still two threads are in the stages of one pipeline. -/
theorem executors_overlap :
    ¬Always (Pool.step (stageRules env)) OneExecutor (StagePool.init .init 100)
        twoWorkspaces ∧
      ¬Always (Pool.step (stageRules reworkEnv)) OneExecutor
        (StagePool.init .init 100) inlineRetry := by
  have hworker : running (Pool.run (stageRules env) (StagePool.init .init 100)
      twoWorkspaces) 1 = some ("ws_a", "pl_a") := by decide +kernel
  have hempty : running (Pool.run (stageRules env) (StagePool.init .init 100)
      twoWorkspaces) 3 = some ("", "pl_a") := by decide +kernel
  have hworker' : running (Pool.run (stageRules reworkEnv)
      (StagePool.init .init 100) inlineRetry) 1 = some ("ws_a", "pl_a") := by
    decide +kernel
  have hretry : running (Pool.run (stageRules reworkEnv)
      (StagePool.init .init 100) inlineRetry) 3 = some ("ws_a", "pl_a") := by
    decide +kernel
  exact ⟨not_always_oneExecutor (by decide) hworker hempty,
    not_always_oneExecutor (by decide) hworker' hretry⟩

end OneExecutorWitness

end HermesPipeline
