/-
Lease calls of several processes and threads over one SQLite store.  Acquire
and heartbeat load the row in one transaction and save in another; they are
atomic in every schedule in which each save still finds the row that its call
has loaded.
-/
import HermesPipeline.KernelLease
import HermesPipeline.ReferenceCodec
import HermesPipeline.Lib.Machine
import HermesPipeline.Lib.Monitor
import HermesPipeline.Lib.Pool

namespace HermesPipeline

open Lib KernelController

/-- A lease call; an acquire does not replace a lease. -/
inductive LeaseRequest
  | acquire (workspaceId pipelineId holder : String) (ttlSeconds : Int)
  | heartbeat (workspaceId pipelineId holder : String) (generation : Nat)
      (ttlSeconds : Int)
  | cancel (workspaceId pipelineId : String)
deriving DecidableEq

namespace LeaseRequest

/-- The call, made at a clock reading. -/
def program (now : Int) : LeaseRequest → StoreProgram (Option LeaseRecord)
  | .acquire ws pl holder ttl =>
      (acquireLease ws pl holder now ttl false).bind fun record =>
        .done (some record)
  | .heartbeat ws pl holder generation ttl =>
      (heartbeatLease ws pl holder generation now ttl).bind fun record =>
        .done (some record)
  | .cancel ws pl => (KernelController.cancel ws pl).bind fun _ => .done none

/-- The record a call saves after it has loaded a row. -/
def Saves (now : Int) (current : Option LeaseRecord) (record : LeaseRecord) :
    LeaseRequest → Prop
  | .acquire ws pl holder ttl => leaseBusy now current = false ∧
      record = grantedLease ws pl holder now ttl current
  | .heartbeat _ _ holder generation ttl => ∃ lease, current = some lease ∧
      leaseMatches holder generation now (some lease) = true ∧
      record = { lease with expiresAt := now + ttl }
  | .cancel _ _ => False

/-- The call loads this row. -/
def Loads (ws pl : String) : LeaseRequest → Prop
  | .acquire ws' pl' _ _ => ws' = ws ∧ pl' = pl
  | .heartbeat ws' pl' _ _ _ => ws' = ws ∧ pl' = pl
  | .cancel _ _ => False

end LeaseRequest

/-- How far a lease call is: with `checked` it has the loaded row at hand. -/
inductive LeasePhase
  | ready
  | checked (current : Option LeaseRecord)
  | ended

def leaseMonitor (request : LeaseRequest) (now : Int) :
    Monitor StoreOp StoreOp.Answer PyError LeasePhase where
  allows
    | .ready, .loadLease ws pl => request.Loads ws pl
    | .ready, .deleteLease ws pl => request = .cancel ws pl
    | .checked current, .saveLease record => request.Saves now current record
    | _, _ => False
  next
    | .ready, .loadLease _ _, .ok current => .checked current
    | _, _, _ => .ended

/-- Every lease call loads its row, checks it, and then saves. -/
theorem LeaseRequest.program_obeys (request : LeaseRequest) (now : Int) :
    (request.program now).Obeys (leaseMonitor request now) (fun _ _ => True)
      .ready := by
  cases request with
  | acquire ws pl holder ttl =>
      refine ⟨⟨rfl, rfl⟩, ?_⟩
      intro answer
      cases answer with
      | error error => trivial
      | ok current =>
          cases hbusy : leaseBusy now current with
          | true =>
              simp [Program.ofExcept, hbusy, Program.Obeys]
          | false =>
              simp only [Program.ofExcept, Program.done_bind, hbusy,
                Bool.false_and, Bool.false_eq_true, ↓reduceIte, ask,
                Program.perform, Program.call_bind]
              refine ⟨⟨hbusy, rfl⟩, ?_⟩
              intro answer
              cases answer <;> trivial
  | heartbeat ws pl holder generation ttl =>
      refine ⟨⟨rfl, rfl⟩, ?_⟩
      intro answer
      cases answer with
      | error error => trivial
      | ok current =>
          cases current with
          | none => trivial
          | some lease =>
              simp only [Program.ofExcept, Program.done_bind]
              split
              · next hmatches =>
                  refine ⟨⟨lease, rfl, hmatches, rfl⟩, ?_⟩
                  intro answer
                  cases answer <;> trivial
              · trivial
  | cancel ws pl =>
      simp only [LeaseRequest.program, KernelController.cancel]
      split
      · trivial
      · refine ⟨rfl, ?_⟩
        intro answer
        cases answer <;> trivial

/-- The store, the clock, and the leases that were acquired and not cancelled,
each with its last renewal. -/
structure LeaseWorld where
  store : SqliteKernelStore
  now : Int
  live : List LeaseRecord

/-- The stored lease of a (workspace, pipeline). -/
def LeaseWorld.row (world : LeaseWorld) (key : String × String) :
    Option LeaseRecord :=
  world.store.loadLease key.1 key.2

/-- Renew every lease that the record renews. -/
def renewIn (record : LeaseRecord) (live : List LeaseRecord) :
    List LeaseRecord :=
  live.map fun lease =>
    if lease.key = record.key ∧ lease.holder = record.holder ∧
        lease.generation = record.generation then
      { lease with expiresAt := record.expiresAt }
    else lease

/-- The live leases after an operation that went through. -/
def LeaseRequest.liveAfter (request : LeaseRequest) (live : List LeaseRecord) :
    StoreOp → List LeaseRecord
  | .saveLease record =>
      match request with
      | .acquire _ _ _ _ => live ++ [record]
      | _ => renewIn record live
  | .deleteLease ws pl => live.filter fun lease => lease.key ≠ (ws, pl)
  | _ => live

/-- A lease call in progress, with the clock reading it was made at. -/
structure LeaseThread where
  request : LeaseRequest
  now : Int
  phase : LeasePhase
  program : StoreProgram (Option LeaseRecord)

/-- The clock moves by a number of seconds, never back. -/
def leaseRules (codec : Codec) :
    Pool.Rules LeaseWorld LeaseThread LeaseRequest Nat where
  spawn := fun request world =>
    ⟨request, world.now, .ready, request.program world.now⟩
  advance := fun thread world =>
    match thread.program with
    | .call op next =>
        let result := SqliteKernelStore.handle codec op world.store
        let live := match result.1 with
          | .ok _ => thread.request.liveAfter world.live op
          | .error _ => world.live
        ({ thread with
            phase := (leaseMonitor thread.request thread.now).next thread.phase
              op result.1
            program := next result.1 },
          { world with store := result.2, live := live })
    | _ => (thread, world)
  fork := fun _ _ => none
  change := fun seconds world => { world with now := world.now + seconds }

abbrev LeasePool := Pool LeaseWorld LeaseThread

abbrev LeaseSchedule := List (Pool.Label LeaseRequest Nat)

/-- No call has been made yet; the store may hold any rows. -/
def LeasePool.init (store : SqliteKernelStore) (now : Int) : LeasePool :=
  ⟨⟨store, now, []⟩, []⟩

/-- A save of a thread is next. -/
structure SavesNext (pool : LeasePool) (label : Pool.Label LeaseRequest Nat)
    (thread : LeaseThread) (record : LeaseRecord) : Prop where
  turn : ∃ i, label = .advance i ∧ pool.threads[i]? = some thread
  program : ∃ next, thread.program = .call (.saveLease record) next
  fits : SqliteKernelStore.fitsLease record = true

/-- What a step must respect.  An acquire goes through only when every earlier
lease of the pipeline has run out or was cancelled.  A heartbeat lowers no
generation, and it makes no lease the stored one that was not stored just
before: a cancelled lease is not brought back. -/
structure AtomicLeases (codec : Codec) (pool : LeasePool)
    (label : Pool.Label LeaseRequest Nat) : Prop where
  exclusive : ∀ thread record ws pl holder ttl,
    SavesNext pool label thread record →
    thread.request = .acquire ws pl holder ttl →
      ∀ lease ∈ pool.shared.live, lease.key = (ws, pl) →
        lease.expiresAt < pool.shared.now
  monotone : ∀ thread record ws pl holder generation ttl,
    SavesNext pool label thread record →
    thread.request = .heartbeat ws pl holder generation ttl →
      ∀ before after, pool.shared.row (ws, pl) = some before →
        (Pool.step (leaseRules codec) pool label).shared.row (ws, pl) =
          some after → before.generation ≤ after.generation
  unrevived : ∀ thread record ws pl holder generation ttl,
    SavesNext pool label thread record →
    thread.request = .heartbeat ws pl holder generation ttl →
      ∀ after, (Pool.step (leaseRules codec) pool label).shared.row (ws, pl) =
          some after →
        ∃ before, pool.shared.row (ws, pl) = some before ∧
          before.holder = after.holder ∧ before.generation = after.generation

/-- A save finds the row that its call has loaded, and no lease of the empty
workspace is saved. -/
def SavesUnraced (pool : LeasePool) (label : Pool.Label LeaseRequest Nat) :
    Prop :=
  ∀ thread record current, SavesNext pool label thread record →
    thread.phase = .checked current →
      pool.shared.row record.key = current ∧ record.workspaceId ≠ ""

/-- What a lease call knows of itself. -/
structure LeaseThread.Sound (world : LeaseWorld) (thread : LeaseThread) : Prop where
  past : thread.now ≤ world.now
  obeys : thread.program.Obeys (leaseMonitor thread.request thread.now)
    (fun _ _ => True) thread.phase
  keyed : ∀ lease, thread.phase = .checked (some lease) →
    thread.request.Loads lease.workspaceId lease.pipelineId

/-- A live lease has run out or is the stored one. -/
def LeaseWorld.Backs (world : LeaseWorld) (lease : LeaseRecord) : Prop :=
  lease.expiresAt < world.now ∨ ∃ stored, world.row lease.key = some stored ∧
    stored.holder = lease.holder ∧ stored.generation = lease.generation ∧
    stored.expiresAt = lease.expiresAt

structure LeasesBacked (pool : LeasePool) : Prop where
  live : ∀ lease ∈ pool.shared.live, pool.shared.Backs lease
  threads : ∀ thread ∈ pool.threads, thread.Sound pool.shared

theorem advance_request (codec : Codec) (thread : LeaseThread)
    (world : LeaseWorld) :
    ((leaseRules codec).advance thread world).1.request = thread.request := by
  simp only [leaseRules]
  split <;> rfl

theorem advance_now (codec : Codec) (thread : LeaseThread) (world : LeaseWorld) :
    ((leaseRules codec).advance thread world).1.now = thread.now := by
  simp only [leaseRules]
  split <;> rfl

/-- What a step of a lease call does. -/
inductive LeaseMove (thread : LeaseThread) (world : LeaseWorld) :
    LeasePhase → LeaseWorld → Prop
  | looked {ws pl : String} (loads : thread.request.Loads ws pl) :
      LeaseMove thread world (.checked (world.row (ws, pl))) world
  | rested {phase : LeasePhase} (phase_eq : phase = thread.phase ∨ phase = .ended) :
      LeaseMove thread world phase world
  | deleted {ws pl : String} {world' : LeaseWorld}
      (now_eq : world'.now = world.now)
      (live_eq : world'.live = world.live.filter fun lease => lease.key ≠ (ws, pl))
      (rows : ∀ key, world'.row key =
        if key = (ws, pl) then none else world.row key) :
      LeaseMove thread world .ended world'
  | saved {record : LeaseRecord} {current : Option LeaseRecord}
      {world' : LeaseWorld}
      {next : Except PyError Unit → StoreProgram (Option LeaseRecord)}
      (program : thread.program = .call (.saveLease record) next)
      (fits : SqliteKernelStore.fitsLease record = true)
      (phase_eq : thread.phase = .checked current)
      (saves : thread.request.Saves thread.now current record)
      (now_eq : world'.now = world.now)
      (live_eq : world'.live =
        thread.request.liveAfter world.live (.saveLease record))
      (rows : ∀ key, world'.row key =
        if key = record.key ∧ record.workspaceId ≠ "" then some record
        else world.row key) :
      LeaseMove thread world .ended world'

section Move

variable {thread : LeaseThread} {world : LeaseWorld}

theorem LeaseThread.move (codec : Codec) (world : LeaseWorld)
    (hobeys : thread.program.Obeys (leaseMonitor thread.request thread.now)
      (fun _ _ => True) thread.phase) :
    LeaseMove thread world ((leaseRules codec).advance thread world).1.phase
        ((leaseRules codec).advance thread world).2 ∧
      ((leaseRules codec).advance thread world).1.program.Obeys
        (leaseMonitor thread.request thread.now) (fun _ _ => True)
        ((leaseRules codec).advance thread world).1.phase := by
  cases hprogram : thread.program with
  | done value =>
      simp only [leaseRules, hprogram]
      exact ⟨.rested (Or.inl rfl), trivial⟩
  | raise error =>
      simp only [leaseRules, hprogram]
      exact ⟨.rested (Or.inl rfl), trivial⟩
  | call op next =>
      rw [hprogram] at hobeys
      obtain ⟨hallows, hnext⟩ := hobeys
      simp only [leaseRules, hprogram]
      refine ⟨?_, hnext _⟩
      cases hphase : thread.phase with
      | ended => simp [leaseMonitor, hphase] at hallows
      | ready =>
          cases op with
          | loadLease ws pl =>
              rw [hphase] at hallows
              exact .looked hallows
          | deleteLease ws pl =>
              exact .deleted rfl rfl
                (world.store.loadLease_deleteLease ws pl)
          | findInbox | loadPipeline | commitAccepted | listEvents
          | rebuildPipeline | deletePipeline | listPendingOutbox
          | recordOutboxDelivery | findOutbox | saveLease | deleteExpiredLeases
          | counts => simp [leaseMonitor, hphase] at hallows
      | checked current =>
          cases op with
          | saveLease record =>
              rw [hphase] at hallows
              simp only [SqliteKernelStore.handle]
              cases hfits : SqliteKernelStore.fitsLease record with
              | true =>
                  obtain ⟨hsaved, hrows⟩ := world.store.saveLease_fits hfits
                  generalize world.store.saveLease record = saved at hsaved hrows
                  obtain ⟨answer, store⟩ := saved
                  cases hsaved
                  exact .saved hprogram hfits hphase hallows rfl rfl hrows
              | false =>
                  rw [world.store.saveLease_unfit hfits]
                  exact .rested (Or.inr rfl)
          | findInbox | loadPipeline | commitAccepted | listEvents
          | rebuildPipeline | deletePipeline | listPendingOutbox
          | recordOutboxDelivery | findOutbox | loadLease | deleteLease
          | deleteExpiredLeases | counts =>
              simp [leaseMonitor, hphase] at hallows

theorem LeaseWorld.row_key {key : String × String} {lease : LeaseRecord}
    (hrow : world.row key = some lease) : lease.key = key := by
  unfold LeaseWorld.row SqliteKernelStore.loadLease at hrow
  split at hrow
  · cases hrow
  · exact ((world.store.leases.find?_eq_some_iff _ _).mp hrow).2

theorem LeaseRequest.Saves.loads {request : LeaseRequest} {now : Int}
    {current : Option LeaseRecord} {record : LeaseRecord}
    (hsaves : request.Saves now current record)
    (hkeyed : ∀ lease, current = some lease →
      request.Loads lease.workspaceId lease.pipelineId) :
    request.Loads record.workspaceId record.pipelineId := by
  cases request with
  | acquire ws pl holder ttl =>
      rw [hsaves.2]
      exact ⟨rfl, rfl⟩
  | heartbeat ws pl holder generation ttl =>
      obtain ⟨lease, hcurrent, -, rfl⟩ := hsaves
      exact hkeyed lease hcurrent
  | cancel ws pl => exact hsaves.elim

/-- An acquire that still finds the row it has loaded comes after the last
lease has run out. -/
theorem LeaseWorld.expired_of_acquire {lease record : LeaseRecord} {now : Int}
    {current : Option LeaseRecord} {ws pl holder : String} {ttl : Int}
    (hlease : world.Backs lease) (hpast : now ≤ world.now)
    (hsaves : (LeaseRequest.acquire ws pl holder ttl).Saves now current record)
    (hrow : world.row record.key = current) (hkey : lease.key = record.key) :
    lease.expiresAt < world.now := by
  rcases hlease with hexpired | ⟨stored, hstored, -, -, hexpires⟩
  · exact hexpired
  · rw [hkey, hrow] at hstored
    have hfree := hsaves.1
    simp only [hstored, leaseBusy, decide_eq_false_iff_not] at hfree
    omega

/-- The live leases are backed after a save that still finds the row its call
has loaded. -/
theorem LeaseWorld.backs_saved {world' : LeaseWorld} {record : LeaseRecord}
    {current : Option LeaseRecord} {request : LeaseRequest} {now : Int}
    (hlive : ∀ lease ∈ world.live, world.Backs lease) (hpast : now ≤ world.now)
    (hsaves : request.Saves now current record)
    (hrow : world.row record.key = current) (hws : record.workspaceId ≠ "")
    (hnow : world'.now = world.now)
    (hlive' : world'.live = request.liveAfter world.live (.saveLease record))
    (hrows : ∀ key, world'.row key =
      if key = record.key ∧ record.workspaceId ≠ "" then some record
      else world.row key) :
    ∀ lease ∈ world'.live, world'.Backs lease := by
  have hself : world'.row record.key = some record := by simp [hrows, hws]
  have hother : ∀ lease, lease.key ≠ record.key → world.Backs lease →
      world'.Backs lease := by
    intro lease hkey hbacks
    rw [LeaseWorld.Backs, hnow, hrows lease.key, if_neg (fun h => hkey h.1)]
    exact hbacks
  rw [hlive']
  intro lease hlease
  cases request with
  | acquire ws pl holder ttl =>
      rcases List.mem_append.mp hlease with hold | hnew
      · by_cases hkey : lease.key = record.key
        · refine Or.inl ?_
          rw [hnow]
          exact LeaseWorld.expired_of_acquire (hlive lease hold) hpast hsaves hrow
            hkey
        · exact hother lease hkey (hlive lease hold)
      · obtain rfl := List.mem_singleton.mp hnew
        exact Or.inr ⟨lease, hself, rfl, rfl, rfl⟩
  | heartbeat ws pl holder generation ttl =>
      obtain ⟨stored, rfl, -, hrecord⟩ := hsaves
      obtain ⟨old, hold, rfl⟩ := List.mem_map.mp hlease
      split
      · next hsame =>
          refine Or.inr ⟨record, ?_, hsame.2.1.symm, hsame.2.2.symm, rfl⟩
          rw [← hself]
          exact congrArg world'.row hsame.1
      · next hdiffers =>
          by_cases hkey : old.key = record.key
          · rcases hlive old hold with hexpired | ⟨row, hstored, hholder, hgen, -⟩
            · exact Or.inl (by rw [hnow]; exact hexpired)
            · rw [hkey, hrow] at hstored
              cases hstored
              refine absurd ⟨hkey, ?_, ?_⟩ hdiffers
              · rw [hrecord]
                exact hholder.symm
              · rw [hrecord]
                exact hgen.symm
          · exact hother old hkey (hlive old hold)
  | cancel ws pl => exact hsaves.elim

end Move

namespace LeasesBacked

variable {codec : Codec} {pool : LeasePool} {label : Pool.Label LeaseRequest Nat}

theorem init (store : SqliteKernelStore) (now : Int) :
    LeasesBacked (.init store now) :=
  ⟨by simp [LeasePool.init], by simp [LeasePool.init]⟩

/-- A thread is sound as long as the clock does not go back. -/
theorem sound_mono {thread : LeaseThread} {world world' : LeaseWorld}
    (hsound : thread.Sound world) (hnow : world.now ≤ world'.now) :
    thread.Sound world' :=
  ⟨hsound.past.trans hnow, hsound.obeys, hsound.keyed⟩

/-- The live leases after a step of a sound thread. -/
theorem live_move (hpool : LeasesBacked pool) {thread : LeaseThread}
    (hsound : thread.Sound pool.shared) {phase : LeasePhase}
    {world : LeaseWorld} (hmove : LeaseMove thread pool.shared phase world)
    (hunraced : ∀ record current next,
      thread.program = .call (.saveLease record) next →
      SqliteKernelStore.fitsLease record = true →
      thread.phase = .checked current →
        pool.shared.row record.key = current ∧ record.workspaceId ≠ "") :
    world.now = pool.shared.now ∧ ∀ lease ∈ world.live, world.Backs lease := by
  cases hmove with
  | looked loads => exact ⟨rfl, hpool.live⟩
  | rested phase_eq => exact ⟨rfl, hpool.live⟩
  | @deleted ws pl world now_eq live_eq rows =>
      refine ⟨now_eq, ?_⟩
      intro lease hlease
      rw [live_eq] at hlease
      obtain ⟨hold, hkey⟩ := List.mem_filter.mp hlease
      rw [LeaseWorld.Backs, now_eq, rows, if_neg (of_decide_eq_true hkey)]
      exact hpool.live lease hold
  | saved program fits phase_eq saves now_eq live_eq rows =>
      obtain ⟨hrow, hws⟩ := hunraced _ _ _ program fits phase_eq
      exact ⟨now_eq, LeaseWorld.backs_saved hpool.live hsound.past saves hrow hws
        now_eq live_eq rows⟩

/-- A thread is sound after its own step. -/
theorem sound_move {thread moved : LeaseThread} {world world' : LeaseWorld}
    (hsound : thread.Sound world) (hmove : LeaseMove thread world moved.phase world')
    (hrequest : moved.request = thread.request) (hnow : moved.now = thread.now)
    (hobeys : moved.program.Obeys (leaseMonitor thread.request thread.now)
      (fun _ _ => True) moved.phase) (hclock : world'.now = world.now) :
    moved.Sound world' := by
  refine ⟨?_, ?_, ?_⟩
  · rw [hnow, hclock]
    exact hsound.past
  · rw [hrequest, hnow]
    exact hobeys
  · intro lease hphase
    rw [hrequest]
    generalize hmoved : moved.phase = phase at hmove
    rw [hmoved] at hphase
    cases hmove with
    | looked loads =>
        obtain ⟨hws, hpl⟩ :=
          Prod.mk.inj (LeaseWorld.row_key (LeasePhase.checked.inj hphase))
        rw [hws, hpl]
        exact loads
    | rested phase_eq =>
        rcases phase_eq with rfl | rfl
        · exact hsound.keyed lease hphase
        · cases hphase
    | deleted | saved => cases hphase

theorem step (hpool : LeasesBacked pool) (hunraced : SavesUnraced pool label) :
    LeasesBacked (Pool.step (leaseRules codec) pool label) := by
  cases label with
  | start request =>
      refine ⟨hpool.live, Pool.threads_step (I := fun world thread =>
        thread.Sound world) (leaseRules codec) ?_
        (fun _ _ hlabel => by cases hlabel) (fun _ _ hlabel => by cases hlabel)
        fun _ thread _ hthread =>
          hpool.threads thread (List.mem_of_getElem? hthread)⟩
      rintro _ ⟨⟩
      exact ⟨Int.le_refl _, request.program_obeys _, fun lease hphase =>
        by cases hphase⟩
  | change seconds =>
      have hnow : pool.shared.now ≤ pool.shared.now + (seconds : Int) := by omega
      refine ⟨?_, fun thread hthread =>
        sound_mono (hpool.threads thread hthread) hnow⟩
      intro lease hlease
      rcases hpool.live lease hlease with hexpired | hstored
      · exact Or.inl (lt_of_lt_of_le hexpired hnow)
      · exact Or.inr hstored
  | advance i =>
      cases hthread : pool.threads[i]? with
      | none =>
          simp only [Pool.step, hthread]
          exact hpool
      | some thread =>
          have hsound := hpool.threads thread (List.mem_of_getElem? hthread)
          obtain ⟨hmove, hobeys⟩ :=
            LeaseThread.move codec pool.shared hsound.obeys
          obtain ⟨hclock, hlive⟩ := hpool.live_move hsound hmove
            fun record current next hprogram hfits hphase =>
              hunraced thread record current
                ⟨⟨i, rfl, hthread⟩, ⟨next, hprogram⟩, hfits⟩ hphase
          have hkept : ∀ other ∈ pool.threads, other.Sound
              ((leaseRules codec).advance thread pool.shared).2 :=
            fun other hother =>
              sound_mono (hpool.threads other hother) hclock.ge
          have hthreads := Pool.threads_step (I := fun world thread =>
            thread.Sound world) (leaseRules codec) (l := .advance i)
            (fun _ hlabel => by cases hlabel)
            (fun j other hlabel hother => by
              cases hlabel
              rw [hthread] at hother
              cases hother
              exact sound_move hsound hmove (advance_request codec thread _)
                (advance_now codec thread _) hobeys hclock)
            (fun _ _ _ _ child hchild => by cases hchild)
            (by
              rw [Pool.step_advance _ hthread]
              exact fun _ other _ hother =>
                hkept other (List.mem_of_getElem? hother))
          refine ⟨?_, hthreads⟩
          rw [Pool.step_advance _ hthread]
          exact hlive

/-- A thread that saves next has loaded and checked a row. -/
theorem checked_of_savesNext (hpool : LeasesBacked pool) {thread : LeaseThread}
    {record : LeaseRecord} (hnext : SavesNext pool label thread record) :
    ∃ current, thread.Sound pool.shared ∧ thread.phase = .checked current ∧
      thread.request.Saves thread.now current record := by
  obtain ⟨i, -, hthread⟩ := hnext.turn
  obtain ⟨next, hprogram⟩ := hnext.program
  have hsound := hpool.threads thread (List.mem_of_getElem? hthread)
  have hobeys := hsound.obeys
  rw [hprogram] at hobeys
  cases hphase : thread.phase with
  | ready | ended => simp [Program.Obeys, leaseMonitor, hphase] at hobeys
  | checked current =>
      rw [hphase] at hobeys
      exact ⟨current, hsound, rfl, hobeys.1⟩

/-- The row of the saved lease after the save. -/
theorem row_savesNext {thread : LeaseThread} {record : LeaseRecord}
    (hnext : SavesNext pool label thread record)
    (hws : record.workspaceId ≠ "") :
    (Pool.step (leaseRules codec) pool label).shared.row record.key =
      some record := by
  obtain ⟨i, rfl, hthread⟩ := hnext.turn
  obtain ⟨next, hprogram⟩ := hnext.program
  rw [Pool.step_advance _ hthread]
  simp only [leaseRules, hprogram]
  exact ((pool.shared.store.saveLease_fits hnext.fits).2 record.key).trans
    (if_pos ⟨rfl, hws⟩)

theorem atomicLeases (hpool : LeasesBacked pool)
    (hunraced : SavesUnraced pool label) : AtomicLeases codec pool label := by
  -- a heartbeat saves the loaded lease, which is the stored one, once more
  have hrenewed : ∀ thread record ws pl holder generation ttl,
      SavesNext pool label thread record →
      thread.request = .heartbeat ws pl holder generation ttl →
        ∃ stored, pool.shared.row (ws, pl) = some stored ∧
          (Pool.step (leaseRules codec) pool label).shared.row (ws, pl) =
            some record ∧ record.holder = stored.holder ∧
          record.generation = stored.generation := by
    intro thread record ws pl holder generation ttl hnext hrequest
    obtain ⟨current, hsound, hphase, hsaves⟩ := hpool.checked_of_savesNext hnext
    obtain ⟨hrow, hws⟩ := hunraced thread record current hnext hphase
    have hloads := hsaves.loads fun lease hcurrent =>
      hsound.keyed lease (by rw [hphase, hcurrent])
    rw [hrequest] at hsaves hloads
    obtain ⟨stored, rfl, -, hrecord⟩ := hsaves
    have hkey : record.key = (ws, pl) := Prod.ext hloads.1.symm hloads.2.symm
    rw [← hkey]
    exact ⟨stored, hrow, row_savesNext hnext hws, by rw [hrecord], by rw [hrecord]⟩
  refine ⟨?_, ?_, ?_⟩
  · intro thread record ws pl holder ttl hnext hrequest lease hlease hkey
    obtain ⟨current, hsound, hphase, hsaves⟩ := hpool.checked_of_savesNext hnext
    obtain ⟨hrow, -⟩ := hunraced thread record current hnext hphase
    rw [hrequest] at hsaves
    have hrecord : record.key = (ws, pl) := by rw [hsaves.2]; rfl
    exact LeaseWorld.expired_of_acquire (hpool.live lease hlease) hsound.past hsaves
      hrow (hkey.trans hrecord.symm)
  · intro thread record ws pl holder generation ttl hnext hrequest before after
      hbefore hafter
    obtain ⟨stored, hstored, hsaved, -, hgeneration⟩ := hrenewed thread record ws pl
      holder generation ttl hnext hrequest
    rw [hstored] at hbefore
    rw [hsaved] at hafter
    cases hbefore
    cases hafter
    exact hgeneration.ge
  · intro thread record ws pl holder generation ttl hnext hrequest after hafter
    obtain ⟨stored, hstored, hsaved, hholder, hgeneration⟩ := hrenewed thread record
      ws pl holder generation ttl hnext hrequest
    rw [hsaved] at hafter
    cases hafter
    exact ⟨stored, hstored, hholder.symm, hgeneration.symm⟩

end LeasesBacked

/-- Lease calls are atomic in every schedule in which each save finds the row
that its call has loaded and none is for the empty workspace. -/
theorem leases_atomic_of_unraced (codec : Codec) (store : SqliteKernelStore)
    (now : Int) (labels : LeaseSchedule)
    (hunraced : EachStep (Pool.step (leaseRules codec)) SavesUnraced
      (LeasePool.init store now) labels) :
    EachStep (Pool.step (leaseRules codec)) (AtomicLeases codec)
      (LeasePool.init store now) labels :=
  hunraced.imp (fun _ _ => LeasesBacked.step) (fun _ _ => LeasesBacked.atomicLeases)
    (LeasesBacked.init store now)

namespace LeaseAtomicityWitness

open ReferenceCodec

/-- The request of a thread, the row it has checked and the record it saves
next. -/
def savesNext? (pool : LeasePool) (i : Nat) :
    Option (LeaseRequest × Option LeaseRecord × LeaseRecord) :=
  match pool.threads[i]? with
  | some ⟨request, _, .checked current, .call (.saveLease record) _⟩ =>
      some (request, current, record)
  | _ => none

theorem savesNext_of_eq_some {pool : LeasePool} {i : Nat}
    {request : LeaseRequest} {current : Option LeaseRecord} {record : LeaseRecord}
    (hsaves : savesNext? pool i = some (request, current, record))
    (hfits : SqliteKernelStore.fitsLease record = true) :
    ∃ thread, SavesNext pool (.advance i) thread record ∧
      thread.request = request := by
  unfold savesNext? at hsaves
  split at hsaves
  · next hthread =>
      cases hsaves
      exact ⟨_, ⟨⟨i, rfl, hthread⟩, ⟨_, rfl⟩, hfits⟩, rfl⟩
  · cases hsaves

/-- The check behind `SavesUnraced`. -/
def unraced (pool : LeasePool) : Pool.Label LeaseRequest Nat → Bool
  | .advance i =>
      match savesNext? pool i with
      | some (_, current, record) =>
          pool.shared.row record.key = current && record.workspaceId ≠ ""
      | none => true
  | _ => true

theorem savesUnraced_of_unraced {pool : LeasePool}
    {label : Pool.Label LeaseRequest Nat} (hcheck : unraced pool label = true) :
    SavesUnraced pool label := by
  rintro ⟨request, now, phase, program⟩ record current hnext hphase
  obtain ⟨i, rfl, hthread⟩ := hnext.turn
  obtain ⟨next, hprogram⟩ := hnext.program
  subst hphase hprogram
  have hsaves : savesNext? pool i = some (request, current, record) := by
    unfold savesNext?
    rw [hthread]
  simpa [unraced, hsaves] using hcheck

/-- A lease is acquired and renewed once. -/
def calmLabels : LeaseSchedule :=
  [.start (.acquire "ws_a" "pl_a" "worker-pl_a" 1800), .advance 0, .advance 0,
    .change 30, .start (.heartbeat "ws_a" "pl_a" "worker-pl_a" 1 180), .advance 1,
    .advance 1]

theorem leases_atomic_at_calmLabels :
    EachStep (Pool.step (leaseRules sampleCodec)) SavesUnraced
        (LeasePool.init .init 100) calmLabels ∧
      EachStep (Pool.step (leaseRules sampleCodec)) (AtomicLeases sampleCodec)
        (LeasePool.init .init 100) calmLabels := by
  have hchecked : EachStep (Pool.step (leaseRules sampleCodec))
      (fun pool label => unraced pool label = true) (LeasePool.init .init 100)
      calmLabels := by decide +kernel
  have hunraced : EachStep (Pool.step (leaseRules sampleCodec)) SavesUnraced
      (LeasePool.init .init 100) calmLabels :=
    hchecked.imp (I := fun _ => True) (fun _ _ _ _ => trivial)
      (fun _ _ _ => savesUnraced_of_unraced) trivial
  exact ⟨hunraced, leases_atomic_of_unraced _ _ _ _ hunraced⟩

/-- Two acquires have loaded before either saves. -/
def racedAcquires : LeaseSchedule :=
  [.start (.acquire "ws_a" "pl_a" "worker-pl_a" 1800),
    .start (.acquire "ws_a" "pl_a" "worker-pl_a" 1800), .advance 0, .advance 1,
    .advance 0]

/-- A heartbeat has loaded when the lease runs out and is acquired again. -/
def racedTakeover : LeaseSchedule :=
  [.start (.acquire "ws_a" "pl_a" "worker-pl_a" 1800), .advance 0, .advance 0,
    .start (.heartbeat "ws_a" "pl_a" "worker-pl_a" 1 180), .advance 1,
    .change 1801, .start (.acquire "ws_a" "pl_a" "worker-pl_a" 1800), .advance 2,
    .advance 2]

/-- A heartbeat has loaded when the lease is cancelled. -/
def racedCancel : LeaseSchedule :=
  [.start (.acquire "ws_a" "pl_a" "worker-pl_a" 1800), .advance 0, .advance 0,
    .start (.heartbeat "ws_a" "pl_a" "worker-pl_a" 1 180), .advance 1,
    .start (.cancel "ws_a" "pl_a"), .advance 2]

def poolAfter (labels : LeaseSchedule) : LeasePool :=
  Pool.run (leaseRules sampleCodec) (LeasePool.init .init 100) labels

/-- The first lease, as granted at the start and as a heartbeat renews it. -/
def firstLease : LeaseRecord :=
  grantedLease "ws_a" "pl_a" "worker-pl_a" 100 1800 none

def renewedLease : LeaseRecord := { firstLease with expiresAt := 280 }

/-- The late save of the heartbeat of the first lease. -/
theorem heartbeat_savesNext (labels : LeaseSchedule)
    (hsaves : savesNext? (poolAfter labels) 1 =
      some (.heartbeat "ws_a" "pl_a" "worker-pl_a" 1 180, some firstLease,
        renewedLease)) :
    ∃ thread, SavesNext (poolAfter labels) (.advance 1) thread renewedLease ∧
      thread.request = .heartbeat "ws_a" "pl_a" "worker-pl_a" 1 180 ∧
      (Pool.step (leaseRules sampleCodec) (poolAfter labels)
        (.advance 1)).shared.row ("ws_a", "pl_a") = some renewedLease := by
  obtain ⟨thread, hnext, hrequest⟩ :=
    savesNext_of_eq_some hsaves (by decide +kernel)
  exact ⟨thread, hnext, hrequest,
    LeasesBacked.row_savesNext hnext (by decide)⟩

/-- With one more step the second acquire succeeds beside the first, the
heartbeat puts generation one over generation two, and the cancelled lease is
stored again. -/
theorem leases_race :
    ¬EachStep (Pool.step (leaseRules sampleCodec)) (AtomicLeases sampleCodec)
        (LeasePool.init .init 100) (racedAcquires ++ [.advance 1]) ∧
      ¬EachStep (Pool.step (leaseRules sampleCodec)) (AtomicLeases sampleCodec)
        (LeasePool.init .init 100) (racedTakeover ++ [.advance 1]) ∧
      ¬EachStep (Pool.step (leaseRules sampleCodec)) (AtomicLeases sampleCodec)
        (LeasePool.init .init 100) (racedCancel ++ [.advance 1]) := by
  refine ⟨?_, ?_, ?_⟩ <;> intro hsteps <;> have hatomic := hsteps.last
  · have hsaves : savesNext? (poolAfter racedAcquires) 1 =
        some (.acquire "ws_a" "pl_a" "worker-pl_a" 1800, none, firstLease) := by
      decide +kernel
    have hlive : (poolAfter racedAcquires).shared.live = [firstLease] := by
      decide +kernel
    have hnow : (poolAfter racedAcquires).shared.now = 100 := by decide +kernel
    obtain ⟨thread, hnext, hrequest⟩ :=
      savesNext_of_eq_some hsaves (by decide +kernel)
    have hexpired := hatomic.exclusive thread firstLease _ _ _ _ hnext hrequest
      firstLease (by change _ ∈ (poolAfter racedAcquires).shared.live; simp [hlive])
      rfl
    change firstLease.expiresAt < (poolAfter racedAcquires).shared.now at hexpired
    rw [hnow] at hexpired
    exact absurd hexpired (by decide)
  · obtain ⟨thread, hnext, hrequest, hafter⟩ :=
      heartbeat_savesNext racedTakeover (by decide +kernel)
    have hbefore : (poolAfter racedTakeover).shared.row ("ws_a", "pl_a") =
        some (grantedLease "ws_a" "pl_a" "worker-pl_a" 1901 1800
          (some firstLease)) := by decide +kernel
    have hle := hatomic.monotone thread _ _ _ _ _ _ hnext hrequest _ _ hbefore
      hafter
    exact absurd hle (by decide)
  · obtain ⟨thread, hnext, hrequest, hafter⟩ :=
      heartbeat_savesNext racedCancel (by decide +kernel)
    have hbefore : (poolAfter racedCancel).shared.row ("ws_a", "pl_a") = none := by
      decide +kernel
    obtain ⟨before, hstored, -⟩ := hatomic.unrevived thread _ _ _ _ _ _ hnext
      hrequest _ hafter
    change (poolAfter racedCancel).shared.row ("ws_a", "pl_a") = _ at hstored
    rw [hbefore] at hstored
    cases hstored

end LeaseAtomicityWitness

end HermesPipeline
