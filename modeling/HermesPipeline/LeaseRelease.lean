/-
The release of leases.  `cancel` deletes the row of its (workspace, pipeline)
whoever acquired it; every release deletes a lease of the generation that was
acquired in every schedule in which no other generation is saved over a lease
before its release.
-/
import HermesPipeline.ReferenceCodec
import HermesPipeline.StageSchedule

namespace HermesPipeline

open Lib KernelController

/-- The lease that a worker was started with, or that a request of a sidecar has
acquired. -/
def StageThread.acquired (thread : StageThread) : Option LeaseClaim :=
  match thread.role with
  | .worker _ args => some args.claim
  | _ => thread.ghost.holding.claim?

/-- A lease row is only deleted by a thread that has acquired a lease of its
pipeline and of its generation. -/
def ReleasesOwn (pool : StagePool) (label : StageLabel) : Prop :=
  ∀ i thread ws pl,
    NextEffect pool label i thread (.store (.deleteLease ws pl)) →
      ∀ stored, pool.shared.row (ws, pl) = some stored →
        ∃ claim, thread.acquired = some claim ∧ claim.key = (ws, pl) ∧
          stored.generation = claim.generation

/-- No lease of another generation is saved over one that is still to be
released. -/
structure GenerationsKept (pool : StagePool) (label : StageLabel) : Prop where
  saves : ∀ i thread record,
    NextEffect pool label i thread (.store (.saveLease record)) →
    SqliteKernelStore.fitsLease record = true →
      ∀ (j : Nat) other claim, j ≠ i → pool.threads[j]? = some other →
        other.holds = some claim → claim.key = record.key →
        record.generation = claim.generation
  outside : ∀ ws pl holder ttl, label = .change (.takeOver ws pl holder ttl) →
    ∀ other ∈ pool.threads, ∀ claim, other.holds = some claim →
      claim.key = (ws, pl) →
      nextGeneration (pool.shared.row (ws, pl)) = claim.generation

/-- A stored lease of that (workspace, pipeline) has the generation. -/
def StageWorld.Keeps (world : StageWorld) (claim : LeaseClaim) : Prop :=
  ∀ stored, world.row claim.key = some stored →
    stored.generation = claim.generation

structure LeasesKept (env : StageEnv) (pool : StagePool) : Prop where
  sound : ∀ thread ∈ pool.threads, thread.Sound env
  kept : ∀ thread ∈ pool.threads, ∀ claim, thread.holds = some claim →
    pool.shared.Keeps claim

section Keeps

variable {world world' : StageWorld} {claim : LeaseClaim}

theorem StageWorld.Keeps.of_row (hkeeps : world.Keeps claim)
    (hrow : world'.row claim.key = world.row claim.key) : world'.Keeps claim := by
  intro stored hstored
  rw [hrow] at hstored
  exact hkeeps stored hstored

/-- A save of the same generation, of another key or of none. -/
theorem StageWorld.Keeps.of_saved (hkeeps : world.Keeps claim)
    {record : LeaseRecord} {key : String × String} {c : Prop} [Decidable c]
    (hrow : world'.row claim.key =
      if claim.key = key ∧ c then some record else world.row claim.key)
    (hgeneration : claim.key = key → record.generation = claim.generation) :
    world'.Keeps claim := by
  intro stored hstored
  rw [hrow] at hstored
  split at hstored
  · next hsaved =>
      cases hstored
      exact hgeneration hsaved.1
  · exact hkeeps stored hstored

theorem StageWorld.Keeps.of_deleted (hkeeps : world.Keeps claim)
    {key : String × String}
    (hrow : world'.row claim.key =
      if claim.key = key then none else world.row claim.key) :
    world'.Keeps claim := by
  intro stored hstored
  rw [hrow] at hstored
  split at hstored
  · cases hstored
  · exact hkeeps stored hstored

end Keeps

namespace LeasesKept

variable {env : StageEnv} {pool : StagePool} {label : StageLabel}

theorem init (store : SqliteKernelStore) (now : Int) :
    LeasesKept env (.init store now) :=
  ⟨by simp [StagePool.init], by simp [StagePool.init]⟩

/-- The lease of a thread after its own step. -/
theorem moved (hpool : LeasesKept env pool) {thread : StageThread}
    (hmem : thread ∈ pool.threads) {claim : LeaseClaim}
    (hholds : ((stageRules env).advance thread pool.shared).1.holds = some claim) :
    ((stageRules env).advance thread pool.shared).2.Keeps claim := by
  have hmove := StageThread.move pool.shared (hpool.sound thread hmem)
  obtain ⟨hactive, hclaim⟩ := StageThread.holds_eq_some.mp hholds
  have hbefore := StageThread.active_of_advance hactive
  have hkept : thread.ghost.holding.claim? = some claim →
      ((stageRules env).advance thread pool.shared).2.row claim.key =
        pool.shared.row claim.key →
      ((stageRules env).advance thread pool.shared).2.Keeps claim := by
    intro hholding hrow
    exact (hpool.kept thread hmem claim
      (StageThread.holds_eq_some.mpr ⟨hbefore, hholding⟩)).of_row hrow
  generalize ((stageRules env).advance thread pool.shared).1.ghost = ghost
    at hmove hclaim
  generalize hrows : ((stageRules env).advance thread pool.shared).2.row = rows
    at hmove hkept
  cases hmove with
  | worked => exact hkept hclaim rfl
  | entered program idle entry => exact hkept hclaim rfl
  | left => exact hkept (by rw [← hclaim, Holding.claim?_spend]) rfl
  | renewed program fits free =>
      rw [free] at hclaim
      cases hclaim
  | released | forgot => cases hclaim
  | @acquired _ _ record role program fits free request =>
      cases hclaim
      intro stored hstored
      by_cases hempty : record.workspaceId = ""
      · rw [LeaseClaim.key, LeaseRecord.claim, hempty, StageWorld.row_empty]
          at hstored
        cases hstored
      · rw [hrows] at hstored
        cases (if_pos ⟨rfl, hempty⟩).symm.trans hstored
        rfl

/-- The lease of a thread after a step of another one. -/
theorem other (hpool : LeasesKept env pool)
    (hgenerations : GenerationsKept pool label) {i k : Nat}
    {thread other : StageThread} (hlabel : label = .advance i)
    (hthread : pool.threads[i]? = some thread) (hk : k ≠ i)
    (hother : pool.threads[k]? = some other) {claim : LeaseClaim}
    (hholds : other.holds = some claim) :
    ((stageRules env).advance thread pool.shared).2.Keeps claim := by
  have hmove := StageThread.move pool.shared
    (hpool.sound thread (List.mem_of_getElem? hthread))
  have hkeeps := hpool.kept other (List.mem_of_getElem? hother) claim hholds
  have hsame : ∀ record,
      (∃ next, thread.program = .call (.store (.saveLease record)) next) →
      SqliteKernelStore.fitsLease record = true → claim.key = record.key →
        record.generation = claim.generation :=
    fun record hprogram hfits => hgenerations.saves i thread record
      ⟨hlabel, hthread, hprogram⟩ hfits k other claim hk hother hholds
  generalize ((stageRules env).advance thread pool.shared).1.ghost = ghost at hmove
  generalize hrows : ((stageRules env).advance thread pool.shared).2.row = rows
    at hmove
  cases hmove with
  | worked | forgot | entered | left => exact hkeeps.of_row (by rw [hrows])
  | acquired role program fits free request =>
      exact hkeeps.of_saved (by rw [hrows]) (hsame _ program fits)
  | renewed program fits free =>
      exact hkeeps.of_saved (by rw [hrows]) (hsame _ program fits)
  | released program idle claim_eq key_eq =>
      exact hkeeps.of_deleted (by rw [hrows])

/-- The lease of a thread after something happened outside. -/
theorem outside (hpool : LeasesKept env pool) {change : StageChange}
    (hgenerations : GenerationsKept pool (.change change)) {thread : StageThread}
    (hthread : thread ∈ pool.threads) {claim : LeaseClaim}
    (hholds : thread.holds = some claim) :
    (pool.shared.change env.codec change).Keeps claim := by
  have hkeeps := hpool.kept thread hthread claim hholds
  cases change with
  | tick seconds => exact hkeeps
  | takeOver ws pl holder ttl =>
      rcases pool.shared.row_takeOver env ws pl holder ttl with htaken | hsame
      · exact hkeeps.of_saved (htaken claim.key)
          (hgenerations.outside ws pl holder ttl rfl thread hthread claim hholds)
      · exact hkeeps.of_row (hsame claim.key)
  | cancel ws pl => exact hkeeps.of_deleted (pool.shared.row_cancel env ws pl _)

theorem step (hpool : LeasesKept env pool)
    (hgenerations : GenerationsKept pool label) :
    LeasesKept env (Pool.step (stageRules env) pool label) := by
  refine ⟨sound_step hpool.sound label, Pool.threads_step (I := fun world thread =>
    ∀ claim, thread.holds = some claim → world.Keeps claim) (stageRules env)
    ?_ ?_ ?_ ?_⟩
  · intro call _ claim hholds
    cases (StageThread.holds_eq_some.mp hholds).2
  · intro i thread hlabel hthread claim hholds
    exact hpool.moved (List.mem_of_getElem? hthread) hholds
  · intro i thread hlabel hthread child hchild claim hholds
    have hmem := List.mem_of_getElem? hthread
    obtain ⟨-, hclaim⟩ := StageThread.holds_eq_some.mp hholds
    cases StageThread.fork (hpool.sound thread hmem) hchild with
    | worker active leased handed rows child_eq =>
        rw [child_eq] at hclaim
        cases hclaim
        have hparent := hpool.kept thread hmem _
          (StageThread.holds_eq_some.mpr ⟨active, by rw [leased]; rfl⟩)
        exact hparent.of_row (by rw [rows])
    | heartbeat child_eq =>
        rw [child_eq] at hclaim
        cases hclaim
  · intro k thread hk hthread claim hholds
    have hmem := List.mem_of_getElem? hthread
    cases label with
    | start call => exact hpool.kept thread hmem claim hholds
    | change change => exact hpool.outside hgenerations hmem hholds
    | advance i =>
        cases hmoving : pool.threads[i]? with
        | none =>
            rw [Pool.step_absent _ hmoving]
            exact hpool.kept thread hmem claim hholds
        | some moving =>
            rw [Pool.step_advance _ hmoving]
            exact hpool.other hgenerations rfl hmoving
              (fun h => hk (by rw [h])) hthread hholds

theorem releasesOwn (hpool : LeasesKept env pool) : ReleasesOwn pool label := by
  rintro i thread ws pl ⟨-, hthread, next, hprogram⟩ stored hstored
  have hmem := List.mem_of_getElem? hthread
  have hsound := hpool.sound thread hmem
  have hallows := hsound.obeys
  rw [hprogram] at hallows
  obtain ⟨-, claim, hclaim, hkey⟩ := hallows.1
  have hholds : thread.holds = some claim := by
    refine StageThread.holds_eq_some.mpr ⟨?_, hclaim⟩
    simp only [StageThread.active, hprogram]
  refine ⟨claim, ?_, hkey, ?_⟩
  · unfold StageThread.acquired
    split
    · next process args hworker =>
        rw [hsound.claim process args claim hworker hclaim]
    · exact hclaim
  · rw [← hkey] at hstored
    exact hpool.kept thread hmem claim hholds stored hstored

end LeasesKept

/-- Every release deletes a lease of the acquired generation in every schedule
in which no other generation is saved over a lease before its release. -/
theorem releases_own_of_generations_kept (env : StageEnv)
    (store : SqliteKernelStore) (now : Int) (labels : List StageLabel)
    (hgenerations : EachStep (Pool.step (stageRules env)) GenerationsKept
      (StagePool.init store now) labels) :
    EachStep (Pool.step (stageRules env)) ReleasesOwn (StagePool.init store now)
      labels :=
  hgenerations.imp (fun _ _ => LeasesKept.step)
    (fun _ _ hpool _ => hpool.releasesOwn) (LeasesKept.init store now)

namespace LeaseReleaseWitness

open StageSample

/-- The check behind `GenerationsKept`. -/
def generationsKept (pool : StagePool) : StageLabel → Bool
  | .advance i =>
      match effect? pool i with
      | some (_, .store (.saveLease record)) =>
          others pool i fun other =>
            match other.holds with
            | some claim => claim.key ≠ record.key ||
                record.generation = claim.generation
            | none => true
      | _ => true
  | .change (.takeOver _ _ _ _) => false
  | _ => true

theorem generationsKept_of_check {pool : StagePool} {label : StageLabel}
    (hcheck : generationsKept pool label = true) : GenerationsKept pool label := by
  refine ⟨?_, ?_⟩
  · intro i thread record hnext _ j other claim hj hother hholds hkey
    obtain ⟨rfl, -⟩ := id hnext
    simp only [generationsKept, effect?_of_next hnext] at hcheck
    have hclaim := check_of_others hcheck hj hother
    simpa [hholds, hkey] using hclaim
  · rintro ws pl holder ttl rfl
    cases hcheck

/-- An approve starts a worker, and the worker runs to its release. -/
def calmLabels : List StageLabel :=
  approves ["ws_a"] :: steps 0 24 ++ steps 1 46

theorem releases_own_at_calmLabels :
    EachStep (Pool.step (stageRules env)) GenerationsKept
        (StagePool.init .init 100) calmLabels ∧
      EachStep (Pool.step (stageRules env)) ReleasesOwn
        (StagePool.init .init 100) calmLabels := by
  have hchecked : EachStep (Pool.step (stageRules env))
      (fun pool label => generationsKept pool label = true)
      (StagePool.init .init 100) calmLabels := by decide +kernel
  have hgenerations : EachStep (Pool.step (stageRules env)) GenerationsKept
      (StagePool.init .init 100) calmLabels :=
    hchecked.imp (I := fun _ => True) (fun _ _ _ _ => trivial)
      (fun _ _ _ => generationsKept_of_check) trivial
  exact ⟨hgenerations, releases_own_of_generations_kept _ _ _ _ hgenerations⟩

/-- A thread deletes a lease of another generation than it has acquired. -/
def foreignRelease (pool : StagePool) (i : Nat) : Bool :=
  match effect? pool i with
  | some (thread, .store (.deleteLease ws pl)) =>
      match thread.acquired, pool.shared.row (ws, pl) with
      | some claim, some stored => stored.generation ≠ claim.generation
      | _, _ => false
  | _ => false

theorem not_releasesOwn {pool : StagePool} {i : Nat}
    (hforeign : foreignRelease pool i = true) : ¬ReleasesOwn pool (.advance i) := by
  intro howns
  unfold foreignRelease at hforeign
  split at hforeign
  · next thread ws pl heffect =>
      split at hforeign
      · next claim stored hacquired hstored =>
          obtain ⟨other, hother, -, hgeneration⟩ := howns i thread ws pl
            (next_of_effect? heffect) stored hstored
          rw [hacquired] at hother
          cases hother
          exact absurd hgeneration (of_decide_eq_true hforeign)
      · cases hforeign
  · cases hforeign

/-- A slow worker is about to release its lease, which has run out; a second
approve of the same sidecar has acquired the next one and started its worker. -/
def lateLabels : List StageLabel :=
  approves ["ws_a", "ws_a"] :: steps 0 24 ++ steps 1 45 ++
    [.change (.tick 1801)] ++ steps 0 21

/-- The first worker deletes the lease of the second one, which has its stages
still to run; the pipeline is free for a third approve then. -/
theorem late_release_deletes_newer :
    let pool := Pool.run (stageRules env) (StagePool.init .init 100) lateLabels
    (pool.shared.row ("ws_a", "pl_a")).map LeaseRecord.generation = some 2 ∧
      ((pool.threads[3]?).bind StageThread.needs).map LeaseClaim.generation =
        some 2 ∧
      (Pool.step (stageRules env) pool (.advance 1)).shared.row ("ws_a", "pl_a") =
        none ∧
      ¬EachStep (Pool.step (stageRules env)) ReleasesOwn
        (StagePool.init .init 100) (lateLabels ++ [.advance 1]) := by
  intro pool
  have hforeign : foreignRelease pool 1 = true := by decide +kernel
  refine ⟨by decide +kernel, by decide +kernel, by decide +kernel, ?_⟩
  intro hsteps
  exact not_releasesOwn hforeign hsteps.last

end LeaseReleaseWitness

end HermesPipeline
