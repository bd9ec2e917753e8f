/-
Writes of stage workers.  `_record_station` submits without the lease of the
worker, so a worker whose lease is gone still writes.  Its writes are made under
its own current lease in every schedule that leaves a lease alone as long as
stages are to run under it.
-/
import HermesPipeline.ReferenceCodec
import HermesPipeline.StageSchedule

namespace HermesPipeline

open Lib KernelController

/-- The stored lease is the claimed one and has not run out. -/
def StageWorld.Current (world : StageWorld) (claim : LeaseClaim) : Prop :=
  leaseMatches claim.holder claim.generation world.now (world.row claim.key) = true

/-- A development or verification that a worker records from its stages is
written under the lease it was started with. -/
def WritesFenced (pool : StagePool) (label : StageLabel) : Prop :=
  ∀ i thread process args write,
    NextEffect pool label i thread (.store (.commitAccepted write)) →
    thread.role = .worker process args → thread.ghost.running.isSome →
    write.event.eventType ∈
      [Station.development.eventType, Station.verify.eventType] →
    (pool.shared.store.commitAccepted write).1 = .ok () →
      leaseMatches args.holder args.generation pool.shared.now
        (pool.shared.row write.event.scope) = true

/-- No step takes a lease from a thread that has stages to run under it.  A
lease is not saved when it has already run out; another thread saves the same
lease or none of that pipeline, and deletes none; time does not pass beyond the
lease, and nobody outside takes it over or cancels it. -/
structure LeasesUndisturbed (pool : StagePool) (label : StageLabel) : Prop where
  acquires : ∀ i thread record spawnWorker requests,
    NextEffect pool label i thread (.store (.saveLease record)) →
    SqliteKernelStore.fitsLease record = true →
    thread.role = .sidecar spawnWorker requests →
      pool.shared.now ≤ record.expiresAt
  saves : ∀ i thread record,
    NextEffect pool label i thread (.store (.saveLease record)) →
    SqliteKernelStore.fitsLease record = true →
      ∀ (j : Nat) other claim, j ≠ i → pool.threads[j]? = some other →
        other.needs = some claim → claim.key = record.key →
        claim = record.claim ∧ pool.shared.now ≤ record.expiresAt
  deletes : ∀ i thread ws pl,
    NextEffect pool label i thread (.store (.deleteLease ws pl)) →
      ∀ (j : Nat) other claim, j ≠ i → pool.threads[j]? = some other →
        other.needs = some claim → claim.key ≠ (ws, pl)
  outside : ∀ change, label = .change change →
    ∀ other ∈ pool.threads, ∀ claim, other.needs = some claim →
      match change with
      | .tick seconds => ∀ lease, pool.shared.row claim.key = some lease →
          pool.shared.now + seconds ≤ lease.expiresAt
      | .takeOver ws pl _ _ => claim.key ≠ (ws, pl)
      | .cancel ws pl => claim.key ≠ (ws, pl)

/-- Every lease that stages are to run under is current. -/
structure LeasesCurrent (env : StageEnv) (pool : StagePool) : Prop where
  sound : ∀ thread ∈ pool.threads, thread.Sound env
  current : ∀ thread ∈ pool.threads, ∀ claim, thread.needs = some claim →
    pool.shared.Current claim

section Current

variable {world world' : StageWorld} {claim : LeaseClaim}

theorem StageWorld.Current.of_row (hcurrent : world.Current claim)
    (hnow : world'.now = world.now)
    (hrow : world'.row claim.key = world.row claim.key) :
    world'.Current claim := by
  rw [StageWorld.Current, hnow, hrow]
  exact hcurrent

theorem StageWorld.current_saved {record : LeaseRecord}
    (hrow : world.row record.key = some record)
    (hexpires : world.now ≤ record.expiresAt) : world.Current record.claim := by
  have hkey : record.claim.key = record.key := rfl
  rw [StageWorld.Current, hkey, hrow]
  simp [leaseMatches, LeaseRecord.claim, hexpires]

end Current

namespace LeasesCurrent

variable {env : StageEnv} {pool : StagePool} {label : StageLabel}

theorem init (store : SqliteKernelStore) (now : Int) :
    LeasesCurrent env (.init store now) :=
  ⟨by simp [StagePool.init], by simp [StagePool.init]⟩

/-- The lease of a thread after its own step. -/
theorem moved (hpool : LeasesCurrent env pool)
    (hundisturbed : LeasesUndisturbed pool label) {i : Nat} {thread : StageThread}
    (hlabel : label = .advance i) (hthread : pool.threads[i]? = some thread)
    {claim : LeaseClaim}
    (hneeds : ((stageRules env).advance thread pool.shared).1.needs = some claim) :
    ((stageRules env).advance thread pool.shared).2.Current claim := by
  have hmem := List.mem_of_getElem? hthread
  have hmove := StageThread.move pool.shared (hpool.sound thread hmem)
  have hnow : ((stageRules env).advance thread pool.shared).2.now =
      pool.shared.now := StageThread.advance_now pool.shared
  obtain ⟨hactive, hleased, hws⟩ := StageThread.needs_eq_some.mp hneeds
  have hbefore := StageThread.active_of_advance hactive
  -- the lease was needed before, and its row is as before
  have hkept : thread.ghost.holding = .leased claim →
      ((stageRules env).advance thread pool.shared).2.row claim.key =
        pool.shared.row claim.key →
      ((stageRules env).advance thread pool.shared).2.Current claim := by
    intro hholding hrow
    exact (hpool.current thread hmem claim
      (StageThread.needs_eq_some.mpr ⟨hbefore, hholding, hws⟩)).of_row hnow hrow
  generalize ((stageRules env).advance thread pool.shared).1.ghost = ghost
    at hmove hleased
  generalize hrows : ((stageRules env).advance thread pool.shared).2.row = rows
    at hmove hkept
  cases hmove with
  | worked => exact hkept hleased rfl
  | entered program idle entry => exact hkept hleased rfl
  | renewed program fits free =>
      rw [free] at hleased
      cases hleased
  | released | forgot => cases hleased
  | left =>
      cases hspent : thread.ghost.holding <;> simp [hspent, Holding.spend] at hleased
  | @acquired _ _ record role program fits free request =>
      cases hleased
      refine StageWorld.current_saved ?_ ?_
      · rw [hrows]
        exact if_pos ⟨rfl, hws⟩
      · rw [hnow]
        exact hundisturbed.acquires i thread record _ _ ⟨hlabel, hthread, program⟩
          fits role

/-- The lease of a thread after a step of another one. -/
theorem other (hpool : LeasesCurrent env pool)
    (hundisturbed : LeasesUndisturbed pool label) {i k : Nat}
    {thread other : StageThread} (hlabel : label = .advance i)
    (hthread : pool.threads[i]? = some thread) (hk : k ≠ i)
    (hother : pool.threads[k]? = some other) {claim : LeaseClaim}
    (hneeds : other.needs = some claim) :
    ((stageRules env).advance thread pool.shared).2.Current claim := by
  have hmove := StageThread.move pool.shared
    (hpool.sound thread (List.mem_of_getElem? hthread))
  have hnow : ((stageRules env).advance thread pool.shared).2.now =
      pool.shared.now := StageThread.advance_now pool.shared
  have hcurrent := hpool.current other (List.mem_of_getElem? hother) claim hneeds
  -- a save of another thread is one of the same lease
  have hsave : ∀ record,
      (∃ next, thread.program = .call (.store (.saveLease record)) next) →
      SqliteKernelStore.fitsLease record = true →
      ((stageRules env).advance thread pool.shared).2.row = (fun key =>
        if key = record.key ∧ record.workspaceId ≠ "" then some record
        else pool.shared.row key) →
      ((stageRules env).advance thread pool.shared).2.Current claim := by
    intro record hprogram hfits hrows
    by_cases hkey : claim.key = record.key ∧ record.workspaceId ≠ ""
    · obtain ⟨rfl, hexpires⟩ := hundisturbed.saves i thread record
        ⟨hlabel, hthread, hprogram⟩ hfits k other claim hk hother hneeds hkey.1
      refine StageWorld.current_saved ?_ (by rw [hnow]; exact hexpires)
      rw [hrows]
      exact if_pos hkey
    · refine hcurrent.of_row hnow ?_
      rw [hrows]
      exact if_neg hkey
  generalize ((stageRules env).advance thread pool.shared).1.ghost = ghost at hmove
  generalize hrows : ((stageRules env).advance thread pool.shared).2.row = rows
    at hmove hsave
  cases hmove with
  | worked | forgot | entered | left =>
      exact hcurrent.of_row hnow (by rw [hrows])
  | acquired role program fits free request => exact hsave _ program fits rfl
  | renewed program fits free => exact hsave _ program fits rfl
  | released program idle claim_eq key_eq =>
      refine hcurrent.of_row hnow ?_
      rw [hrows]
      exact if_neg (hundisturbed.deletes i thread _ _ ⟨hlabel, hthread, program⟩ k
        other claim hk hother hneeds)

/-- The lease of a thread after something happened outside. -/
theorem outside (hpool : LeasesCurrent env pool) {change : StageChange}
    (hundisturbed : LeasesUndisturbed pool (.change change)) {thread : StageThread}
    (hthread : thread ∈ pool.threads) {claim : LeaseClaim}
    (hneeds : thread.needs = some claim) :
    (pool.shared.change env.codec change).Current claim := by
  have hcurrent := hpool.current thread hthread claim hneeds
  have hleft := hundisturbed.outside change rfl thread hthread claim hneeds
  cases change with
  | tick seconds =>
      unfold StageWorld.Current at hcurrent ⊢
      change leaseMatches _ _ (pool.shared.now + seconds)
        (pool.shared.row claim.key) = true
      cases hrow : pool.shared.row claim.key with
      | none =>
          rw [hrow] at hcurrent
          exact hcurrent
      | some lease =>
          have hexpires := hleft lease hrow
          rw [hrow] at hcurrent
          simp only [leaseMatches, Bool.and_eq_true, decide_eq_true_eq]
            at hcurrent ⊢
          exact ⟨hcurrent.1, hexpires⟩
  | takeOver ws pl holder ttl =>
      refine hcurrent.of_row rfl ?_
      rcases pool.shared.row_takeOver env ws pl holder ttl with htaken | hsame
      · rw [htaken, if_neg (fun h => hleft h.1)]
      · exact hsame claim.key
  | cancel ws pl =>
      refine hcurrent.of_row rfl ?_
      rw [pool.shared.row_cancel, if_neg hleft]

theorem step (hpool : LeasesCurrent env pool)
    (hundisturbed : LeasesUndisturbed pool label) :
    LeasesCurrent env (Pool.step (stageRules env) pool label) := by
  refine ⟨sound_step hpool.sound label, Pool.threads_step (I := fun world thread =>
    ∀ claim, thread.needs = some claim → world.Current claim) (stageRules env)
    ?_ ?_ ?_ ?_⟩
  · intro call _ claim hneeds
    cases (StageThread.needs_eq_some.mp hneeds).2.1
  · intro i thread hlabel hthread claim hneeds
    exact hpool.moved hundisturbed hlabel hthread hneeds
  · intro i thread hlabel hthread child hchild claim hneeds
    have hmem := List.mem_of_getElem? hthread
    obtain ⟨-, hleased, hws⟩ := StageThread.needs_eq_some.mp hneeds
    cases StageThread.fork (hpool.sound thread hmem) hchild with
    | worker active leased handed rows child_eq =>
        rw [child_eq] at hleased
        cases hleased
        have hparent := hpool.current thread hmem _
          (StageThread.needs_eq_some.mpr ⟨active, by rw [leased], hws⟩)
        exact hparent.of_row (StageThread.advance_now pool.shared) (by rw [rows])
    | heartbeat child_eq =>
        rw [child_eq] at hleased
        cases hleased
  · intro k thread hk hthread claim hneeds
    have hmem := List.mem_of_getElem? hthread
    cases label with
    | start call => exact hpool.current thread hmem claim hneeds
    | change change => exact hpool.outside hundisturbed hmem hneeds
    | advance i =>
        cases hmoving : pool.threads[i]? with
        | none =>
            rw [Pool.step_absent _ hmoving]
            exact hpool.current thread hmem claim hneeds
        | some moving =>
            rw [Pool.step_advance _ hmoving]
            exact hpool.other hundisturbed rfl hmoving
              (fun h => hk (by rw [h])) hthread hneeds

theorem writesFenced (hpool : LeasesCurrent env pool) : WritesFenced pool label := by
  rintro i thread process args write ⟨-, hthread, next, hprogram⟩ hworker hrunning
    - -
  have hmem := List.mem_of_getElem? hthread
  have hsound := hpool.sound thread hmem
  have hallows := hsound.obeys
  rw [hprogram] at hallows
  obtain ⟨⟨ws, pl⟩, hkey⟩ := Option.isSome_iff_exists.mp hrunning
  obtain ⟨hscope, hws⟩ := hallows.1 ws pl hkey
  rcases hsound.running ws pl hkey with ⟨claim, hleased, hclaim⟩ | ⟨-, hinline⟩
  · obtain rfl : claim = args.claim :=
      hsound.claim process args claim hworker (by rw [hleased]; rfl)
    have hneeds : thread.needs = some args.claim := by
      refine StageThread.needs_eq_some.mpr ⟨?_, hleased, ?_⟩
      · simp only [StageThread.active, hprogram]
      · obtain ⟨rfl, -⟩ := Prod.mk.inj hclaim
        exact hws
    rw [hscope, ← hclaim]
    exact hpool.current thread hmem args.claim hneeds
  · rw [hworker] at hinline
    cases hinline

end LeasesCurrent

/-- Every write of a worker is made under its own current lease in every
schedule that leaves a lease alone as long as stages are to run under it. -/
theorem writes_fenced_of_undisturbed (env : StageEnv) (store : SqliteKernelStore)
    (now : Int) (labels : List StageLabel)
    (hundisturbed : EachStep (Pool.step (stageRules env)) LeasesUndisturbed
      (StagePool.init store now) labels) :
    EachStep (Pool.step (stageRules env)) WritesFenced (StagePool.init store now)
      labels :=
  hundisturbed.imp (fun _ _ => LeasesCurrent.step)
    (fun _ _ hpool _ => hpool.writesFenced) (LeasesCurrent.init store now)

namespace StaleWorkersWitness

open StageSample

/-- The check behind `LeasesUndisturbed`. -/
def undisturbed (pool : StagePool) : StageLabel → Bool
  | .start _ => true
  | .advance i =>
      match effect? pool i with
      | some (_, .store (.saveLease record)) =>
          decide (pool.shared.now ≤ record.expiresAt) &&
            others pool i fun other =>
              match other.needs with
              | some claim => claim.key ≠ record.key || claim = record.claim
              | none => true
      | some (_, .store (.deleteLease ws pl)) =>
          others pool i fun other =>
            match other.needs with
            | some claim => claim.key ≠ (ws, pl)
            | none => true
      | _ => true
  | .change (.tick seconds) =>
      pool.threads.all fun other =>
        match other.needs with
        | some claim =>
            match pool.shared.row claim.key with
            | some lease => pool.shared.now + seconds ≤ lease.expiresAt
            | none => true
        | none => true
  | .change _ => false

theorem leasesUndisturbed_of_check {pool : StagePool} {label : StageLabel}
    (hcheck : undisturbed pool label = true) : LeasesUndisturbed pool label := by
  refine ⟨?_, ?_, ?_, ?_⟩
  · intro i thread record spawnWorker requests hnext _ _
    obtain ⟨rfl, -⟩ := id hnext
    simp only [undisturbed, effect?_of_next hnext, Bool.and_eq_true,
      decide_eq_true_eq] at hcheck
    exact hcheck.1
  · intro i thread record hnext _ j other claim hj hother hneeds hkey
    obtain ⟨rfl, -⟩ := id hnext
    simp only [undisturbed, effect?_of_next hnext, Bool.and_eq_true,
      decide_eq_true_eq] at hcheck
    have hclaim := check_of_others hcheck.2 hj hother
    simp only [hneeds, hkey, ne_eq, not_true_eq_false, decide_false, Bool.false_or,
      decide_eq_true_eq] at hclaim
    exact ⟨hclaim, hcheck.1⟩
  · intro i thread ws pl hnext j other claim hj hother hneeds
    obtain ⟨rfl, -⟩ := id hnext
    simp only [undisturbed, effect?_of_next hnext] at hcheck
    have hclaim := check_of_others hcheck hj hother
    simpa [hneeds] using hclaim
  · rintro change rfl other hother claim hneeds
    cases change with
    | tick seconds =>
        intro lease hlease
        have hclaim := List.all_eq_true.mp hcheck other hother
        simpa [hneeds, hlease] using hclaim
    | takeOver | cancel => cases hcheck

/-- An approve starts a worker, the worker runs up to its development record,
and its heartbeat thread renews the lease in between. -/
def calmLabels : List StageLabel :=
  approves ["ws_a"] :: steps 0 27 ++ steps 1 4 ++ [.change (.tick 30)] ++
    steps 2 4 ++ steps 1 22

theorem writes_fenced_at_calmLabels :
    EachStep (Pool.step (stageRules env)) LeasesUndisturbed
        (StagePool.init confirmed 100) calmLabels ∧
      EachStep (Pool.step (stageRules env)) WritesFenced
        (StagePool.init confirmed 100) calmLabels := by
  have hchecked : EachStep (Pool.step (stageRules env))
      (fun pool label => undisturbed pool label = true)
      (StagePool.init confirmed 100) calmLabels := by decide +kernel
  have hundisturbed : EachStep (Pool.step (stageRules env)) LeasesUndisturbed
      (StagePool.init confirmed 100) calmLabels :=
    hchecked.imp (I := fun _ => True) (fun _ _ _ _ => trivial)
      (fun _ _ _ => leasesUndisturbed_of_check) trivial
  exact ⟨hundisturbed, writes_fenced_of_undisturbed _ _ _ _ hundisturbed⟩

/-- A worker writes, and the stored lease is not its own or has run out. -/
def staleWrite (pool : StagePool) (i : Nat) : Bool :=
  match effect? pool i with
  | some (⟨.worker _ args, ghost, _, _⟩, .store (.commitAccepted write)) =>
      ghost.running.isSome &&
        decide (write.event.eventType ∈
          [Station.development.eventType, Station.verify.eventType]) &&
        (match (pool.shared.store.commitAccepted write).1 with
          | .ok _ => true
          | .error _ => false) &&
        !leaseMatches args.holder args.generation pool.shared.now
          (pool.shared.row write.event.scope)
  | _ => false

theorem not_writesFenced {pool : StagePool} {i : Nat}
    (hstale : staleWrite pool i = true) : ¬WritesFenced pool (.advance i) := by
  intro hfenced
  unfold staleWrite at hstale
  split at hstale
  · next process args ghost bridge program write heffect =>
      simp only [Bool.and_eq_true, Bool.not_eq_true', decide_eq_true_eq] at hstale
      obtain ⟨⟨⟨hrunning, htype⟩, hcommit⟩, hstale⟩ := hstale
      have hok : (pool.shared.store.commitAccepted write).1 = .ok () := by
        cases hanswer : (pool.shared.store.commitAccepted write).1 with
        | ok _ => rfl
        | error error => simp [hanswer] at hcommit
      have hmatches := hfenced i _ process args write (next_of_effect? heffect) rfl
        hrunning htype hok
      rw [hstale] at hmatches
      cases hmatches
  · cases hstale

/-- The lease of a slow worker runs out before its development record, and a
second approve of the same sidecar acquires the next one. -/
def staleLabels : List StageLabel :=
  approves ["ws_a", "ws_a"] :: steps 0 27 ++ steps 1 25 ++
    [.change (.tick 1801)] ++ steps 0 10

/-- The first worker, of generation one, records its development while the
second lease is stored. -/
theorem stale_worker_writes :
    let pool := Pool.run (stageRules env) (StagePool.init confirmed 100) staleLabels
    (pool.shared.row ("ws_a", "pl_a")).map LeaseRecord.generation = some 2 ∧
      ¬EachStep (Pool.step (stageRules env)) WritesFenced
        (StagePool.init confirmed 100) (staleLabels ++ [.advance 1]) := by
  intro pool
  have hstale : staleWrite pool 1 = true := by decide +kernel
  refine ⟨by decide +kernel, ?_⟩
  intro hsteps
  exact not_writesFenced hstale hsteps.last

end StaleWorkersWitness

end HermesPipeline
