/-
Workspace noninterference of the controller over the memory store.  Every table
is keyed by workspace, so the calls that name one workspace cannot tell whether
the calls that name another one happened.
-/
import HermesPipeline.KernelMemoryEffects
import HermesPipeline.Lib.Unwinding
import HermesPipeline.ReferenceCodec

namespace HermesPipeline

open Lib KernelController

/-- The workspace a call of the controller names. -/
def KernelCall.workspace? : KernelCall → Option String
  | .submit command => some command.workspaceId
  | .submitWithLease command _ _ _ => some command.workspaceId
  | .read query => some query.workspaceId
  | .replay ws _ => some ws
  | .acquireLease ws _ _ _ _ _ => some ws
  | .heartbeatLease ws _ _ _ _ _ => some ws
  | .cancel ws _ => some ws
  | .rebuild query => some query.workspaceId
  | _ => none

/-- The workspace an input of a session names. -/
def SessionOp.workspace? : SessionOp → Option String
  | .call c => c.workspace?
  | _ => none

/-- The inputs of the controller that belong to no workspace. -/
def SessionOp.isShared : SessionOp → Bool
  | .call (.cleanup _) => true
  | .pause => true
  | .resume => true
  | _ => false

/-- The inputs of a controller: its calls that name a workspace, pause, resume
and cleanup. -/
def SessionOp.IsController (op : SessionOp) : Prop :=
  op.workspace?.isSome ∨ op.isShared

/-- The run without the calls that name another workspace. -/
def SessionOp.keptFor (ws : String) (op : SessionOp) : Bool :=
  op.workspace? = some ws || op.isShared

/-- The operation reads and writes rows of this workspace only. -/
def StoreOp.Within (ws : String) : StoreOp → Prop
  | .findInbox w _ => w = ws
  | .loadPipeline w _ => w = ws
  | .commitAccepted write => write.inbox.workspaceId = ws ∧
      write.event.workspaceId = ws ∧ write.pipeline.workspaceId = ws ∧
      write.outbox.workspaceId = ws
  | .listEvents w _ => w = ws
  | .rebuildPipeline w _ => w = ws
  | .deletePipeline w _ => w = ws
  | .recordOutboxDelivery w _ _ => w = ws
  | .findOutbox w _ => w = ws
  | .loadLease w _ => w = ws
  | .saveLease record => record.workspaceId = ws
  | .deleteLease w _ => w = ws
  | .listPendingOutbox _ => False
  | .deleteExpiredLeases _ => False
  | .counts => False

section Calls

variable (k : KernelController) {ws : String}

theorem within_submit {command : ControllerCommand}
    (hws : command.workspaceId = ws) :
    (k.submit command).Calls (StoreOp.Within ws) := by
  refine k.calls_submit command hws hws ?_
  intro fingerprint state event payloadJson
  exact ⟨hws, hws, hws, hws⟩

theorem within_submitWithLease {command : ControllerCommand}
    (hws : command.workspaceId = ws) (holder : String) (generation : Nat)
    (now : Int) :
    (k.submitWithLease command holder generation now).Calls
      (StoreOp.Within ws) := by
  unfold submitWithLease
  refine Program.Calls.ite (k.calls_refuse command hws _ _ _) ?_
  refine ⟨hws, calls_catching trivial ?_⟩
  intro current
  exact Program.Calls.ite (within_submit k hws) (k.calls_refuse command hws _ _ _)

theorem within_read {query : PipelineQuery} (hws : query.workspaceId = ws) :
    (read query).Calls (StoreOp.Within ws) := by
  unfold KernelController.read
  refine Program.Calls.ite trivial ?_
  refine Program.Calls.bind (Program.calls_perform ?_) fun _ => trivial
  exact hws

theorem within_replay (cmd : String) :
    (k.replay ws cmd).Calls (StoreOp.Within ws) := by
  unfold replay
  refine Program.Calls.bind (Program.calls_perform rfl) ?_
  intro found
  cases found with
  | none => trivial
  | some record =>
      refine Program.Calls.ite ?_ trivial
      split
      · trivial
      · refine Program.Calls.bind (Program.calls_perform rfl) fun _ => ?_
        refine Program.Calls.bind (Program.calls_perform rfl) ?_
        intro delivered
        cases delivered with
        | none => trivial
        | some delivered => exact Program.Calls.ite trivial trivial

theorem within_acquireLease (pl holder : String) (now ttl : Int)
    (replace : Bool) :
    (acquireLease ws pl holder now ttl replace).Calls (StoreOp.Within ws) := by
  unfold acquireLease
  refine Program.Calls.bind (Program.calls_perform rfl) fun current => ?_
  refine Program.Calls.ite trivial ?_
  exact Program.Calls.bind (Program.calls_perform rfl) fun _ => trivial

/-- What a heartbeat does with the lease it has loaded. -/
def heartbeatLoaded (holder : String) (generation : Nat) (now ttl : Int) :
    Option LeaseRecord → StoreProgram LeaseRecord
  | none => .raise (.lease "lease heartbeat rejected")
  | some lease =>
      if leaseMatches holder generation now (some lease) then
        (ask (.saveLease { lease with expiresAt := now + ttl })).bind fun _ =>
          .done { lease with expiresAt := now + ttl }
      else .raise (.lease "lease heartbeat rejected")

theorem within_heartbeatLoaded {current : Option LeaseRecord}
    (howned : ∀ lease, current = some lease → lease.workspaceId = ws)
    (holder : String) (generation : Nat) (now ttl : Int) :
    (heartbeatLoaded holder generation now ttl current).Calls
      (StoreOp.Within ws) := by
  cases current with
  | none => trivial
  | some lease =>
      refine Program.Calls.ite ?_ trivial
      refine Program.Calls.bind (Program.calls_perform ?_) fun _ => trivial
      exact howned lease rfl

theorem within_cancel (pl : String) :
    (cancel ws pl).Calls (StoreOp.Within ws) :=
  Program.Calls.ite trivial (Program.calls_perform rfl)

theorem within_rebuild {query : PipelineQuery} (hws : query.workspaceId = ws) :
    (rebuild query).Calls (StoreOp.Within ws) := by
  unfold rebuild
  refine Program.Calls.ite trivial ?_
  exact Program.Calls.bind (Program.calls_perform hws) fun _ => within_read hws

end Calls

namespace MemoryKernelStore

/-- The two stores hold the same rows of the workspace. -/
structure SameIn (ws : String) (s t : MemoryKernelStore) : Prop where
  inbox : ∀ cmd, s.inbox.get? (ws, cmd) = t.inbox.get? (ws, cmd)
  events : s.events.filter (fun event => decide (event.workspaceId = ws)) =
    t.events.filter fun event => decide (event.workspaceId = ws)
  pipelines : ∀ pl, s.pipelines.get? (ws, pl) = t.pipelines.get? (ws, pl)
  outbox : ∀ cmd, s.outbox.get? (ws, cmd) = t.outbox.get? (ws, cmd)
  leases : ∀ pl, s.leases.get? (ws, pl) = t.leases.get? (ws, pl)

/-- No fault is pending, and every lease is stored under its own key. -/
structure Tidy (s : MemoryKernelStore) : Prop where
  failAfter : s.failAfter = false
  failRead : s.failRead = false
  leases : ∀ key lease, s.leases.get? key = some lease → lease.key = key

theorem tidy_init : Tidy .init := ⟨rfl, rfl, by simp [init]⟩

theorem SameIn.refl (ws : String) (s : MemoryKernelStore) : SameIn ws s s :=
  ⟨fun _ => rfl, rfl, fun _ => rfl, fun _ => rfl, fun _ => rfl⟩

theorem SameIn.trans {ws : String} {s t u : MemoryKernelStore}
    (hst : SameIn ws s t) (htu : SameIn ws t u) : SameIn ws s u where
  inbox := fun cmd => (hst.inbox cmd).trans (htu.inbox cmd)
  events := hst.events.trans htu.events
  pipelines := fun pl => (hst.pipelines pl).trans (htu.pipelines pl)
  outbox := fun cmd => (hst.outbox cmd).trans (htu.outbox cmd)
  leases := fun pl => (hst.leases pl).trans (htu.leases pl)

theorem get?_deleteExpiredLeases (s : MemoryKernelStore) (now : Int)
    (key : String × String) :
    (s.deleteExpiredLeases now).leases.get? key =
      (s.leases.get? key).filter fun lease => decide (lease.expiresAt ≥ now) := by
  simp only [deleteExpiredLeases, Dict.get?, Keyed.find?_deleteWhere]
  cases s.leases.find? key with
  | none => rfl
  | some entry => simp only [Option.filter, Option.map_some, Bool.not_not]; split <;> rfl

variable {codec : Codec} {ws : String} {s t : MemoryKernelStore}

theorem Tidy.saveLease (h : s.Tidy) (record : LeaseRecord) :
    (s.saveLease record).Tidy := by
  unfold MemoryKernelStore.saveLease
  split
  · exact h
  · refine ⟨h.failAfter, h.failRead, ?_⟩
    intro key lease hlease
    rw [Dict.get?_set] at hlease
    split at hlease
    · next hkey =>
        cases hlease
        exact hkey.symm
    · exact h.leases key lease hlease

theorem Tidy.deleteLease (h : s.Tidy) (ws pl : String) :
    (s.deleteLease ws pl).Tidy := by
  unfold MemoryKernelStore.deleteLease
  split
  · exact h
  · refine ⟨h.failAfter, h.failRead, ?_⟩
    intro key lease hlease
    rw [Dict.get?_pop] at hlease
    split at hlease
    · cases hlease
    · exact h.leases key lease hlease

theorem Tidy.deleteExpiredLeases (h : s.Tidy) (now : Int) :
    (s.deleteExpiredLeases now).Tidy := by
  refine ⟨h.failAfter, h.failRead, ?_⟩
  intro key lease hlease
  rw [get?_deleteExpiredLeases] at hlease
  exact h.leases key lease (Option.eq_some_of_filter_eq_some hlease)

/-- No operation leaves a fault behind or misplaces a lease. -/
theorem Tidy.handle (h : s.Tidy) (op : StoreOp) :
    (MemoryKernelStore.handle codec op s).2.Tidy := by
  cases op with
  | findInbox | listEvents | listPendingOutbox | findOutbox | loadLease
  | counts => exact h
  | loadPipeline ws pl =>
      simp only [MemoryKernelStore.handle, loadPipeline, h.failRead,
        Bool.false_eq_true, ↓reduceIte]
      split <;> exact h
  | commitAccepted write =>
      simp only [MemoryKernelStore.handle, commitAccepted, h.failAfter,
        Bool.false_eq_true, ↓reduceIte]
      exact ⟨rfl, h.failRead, h.leases⟩
  | rebuildPipeline ws pl =>
      obtain ⟨pipelines, hrebuilt⟩ := s.rebuildPipeline_frame codec ws pl
      simp only [MemoryKernelStore.handle, hrebuilt]
      exact ⟨h.failAfter, h.failRead, h.leases⟩
  | deletePipeline ws pl =>
      simp only [MemoryKernelStore.handle, deletePipeline]
      split
      · exact h
      · exact ⟨h.failAfter, h.failRead, h.leases⟩
  | recordOutboxDelivery ws cmd receiptJson =>
      obtain ⟨outbox, hmarked, -⟩ :=
        s.recordOutboxDelivery_frame ws cmd receiptJson
      simp only [MemoryKernelStore.handle, hmarked]
      exact ⟨h.failAfter, h.failRead, h.leases⟩
  | saveLease record => exact h.saveLease record
  | deleteLease ws pl => exact h.deleteLease ws pl
  | deleteExpiredLeases now => exact h.deleteExpiredLeases now

/-- A key of another workspace. -/
theorem key_ne {other : String} (hne : other ≠ ws) (name name' : String) :
    (ws, name) ≠ (other, name') := by
  intro heq
  exact hne (congrArg Prod.fst heq).symm

/-- An operation within another workspace is not visible in this one. -/
theorem SameIn.apart {other : String} (hne : other ≠ ws) (hs : s.Tidy)
    {op : StoreOp} (hop : op.Within other) :
    SameIn ws (MemoryKernelStore.handle codec op s).2 s := by
  have hrefl := SameIn.refl ws s
  cases op with
  | findInbox | listEvents | findOutbox | loadLease => exact hrefl
  | listPendingOutbox | deleteExpiredLeases | counts => exact absurd hop id
  | loadPipeline w pl =>
      simp only [MemoryKernelStore.handle, loadPipeline, hs.failRead,
        Bool.false_eq_true, ↓reduceIte]
      split <;> exact hrefl
  | commitAccepted write =>
      obtain ⟨hinbox, hevent, hpipeline, houtbox⟩ := hop
      simp only [MemoryKernelStore.handle, commitAccepted, hs.failAfter,
        Bool.false_eq_true, ↓reduceIte, InboxRecord.key, PipelineSnapshot.key,
        OutboxRecord.key, hinbox, hpipeline, houtbox]
      refine ⟨?_, ?_, ?_, ?_, fun _ => rfl⟩
      · intro cmd
        exact Dict.get?_set_of_ne _ _ (key_ne hne _ _)
      · have hfar : ¬write.event.workspaceId = ws := by
          rw [hevent]
          exact hne
        simp [List.filter_append, hfar]
      · intro pl
        exact Dict.get?_set_of_ne _ _ (key_ne hne _ _)
      · intro cmd
        exact Dict.get?_set_of_ne _ _ (key_ne hne _ _)
  | rebuildPipeline w pl =>
      obtain rfl : w = other := hop
      simp only [MemoryKernelStore.handle, rebuildPipeline, deletePipeline]
      split
      · exact hrefl
      · split
        · refine ⟨fun _ => rfl, rfl, ?_, fun _ => rfl, fun _ => rfl⟩
          intro pl'
          exact Dict.get?_pop_of_ne _ (key_ne hne _ _)
        · refine ⟨fun _ => rfl, rfl, ?_, fun _ => rfl, fun _ => rfl⟩
          intro pl'
          rw [Dict.get?_set_of_ne _ _ (key_ne hne _ _)]
          exact Dict.get?_pop_of_ne _ (key_ne hne _ _)
  | deletePipeline w pl =>
      obtain rfl : w = other := hop
      simp only [MemoryKernelStore.handle, deletePipeline]
      split
      · exact hrefl
      · refine ⟨fun _ => rfl, rfl, ?_, fun _ => rfl, fun _ => rfl⟩
        intro pl'
        exact Dict.get?_pop_of_ne _ (key_ne hne _ _)
  | recordOutboxDelivery w cmd receiptJson =>
      obtain rfl : w = other := hop
      simp only [MemoryKernelStore.handle, recordOutboxDelivery]
      split
      · exact hrefl
      · split
        · exact hrefl
        · split
          · refine ⟨fun _ => rfl, rfl, fun _ => rfl, ?_, fun _ => rfl⟩
            intro cmd'
            exact Dict.get?_set_of_ne _ _ (key_ne hne _ _)
          · exact hrefl
  | saveLease record =>
      have hother : record.workspaceId = other := hop
      simp only [MemoryKernelStore.handle, saveLease, LeaseRecord.key, hother]
      split
      · exact hrefl
      · refine ⟨fun _ => rfl, rfl, fun _ => rfl, fun _ => rfl, ?_⟩
        intro pl
        exact Dict.get?_set_of_ne _ _ (key_ne hne _ _)
  | deleteLease w pl =>
      obtain rfl : w = other := hop
      simp only [MemoryKernelStore.handle, deleteLease]
      split
      · exact hrefl
      · refine ⟨fun _ => rfl, rfl, fun _ => rfl, fun _ => rfl, ?_⟩
        intro pl'
        exact Dict.get?_pop_of_ne _ (key_ne hne _ _)

theorem SameIn.listEvents (h : SameIn ws s t) (pl : String) :
    s.listEvents ws pl = t.listEvents ws pl := by
  have hfilter : ∀ events : List EventWrite,
      events.filter (fun event => decide (event.pipelineId = pl ∧
        event.workspaceId = ws)) =
      (events.filter fun event => decide (event.workspaceId = ws)).filter
        fun event => decide (event.pipelineId = pl) := by
    intro events
    rw [List.filter_filter]
    simp only [Bool.decide_and]
  simp only [MemoryKernelStore.listEvents, hfilter, h.events]

/-- An operation within the workspace answers the same in two stores that hold
the same rows of it, and leaves the same rows. -/
theorem SameIn.handle (h : SameIn ws s t) (hs : s.Tidy) (ht : t.Tidy)
    {op : StoreOp} (hop : op.Within ws) :
    (MemoryKernelStore.handle codec op s).1 =
        (MemoryKernelStore.handle codec op t).1 ∧
      SameIn ws (MemoryKernelStore.handle codec op s).2
        (MemoryKernelStore.handle codec op t).2 := by
  cases op with
  | listPendingOutbox | deleteExpiredLeases | counts => exact absurd hop id
  | findInbox w cmd =>
      obtain rfl : w = ws := hop
      exact ⟨congrArg Except.ok (h.inbox cmd), h⟩
  | listEvents w pl =>
      obtain rfl : w = ws := hop
      exact ⟨congrArg Except.ok (h.listEvents pl), h⟩
  | findOutbox w cmd =>
      obtain rfl : w = ws := hop
      simp only [MemoryKernelStore.handle, findOutbox, h.outbox]
      exact ⟨trivial, h⟩
  | loadLease w pl =>
      obtain rfl : w = ws := hop
      simp only [MemoryKernelStore.handle, loadLease, h.leases]
      exact ⟨trivial, h⟩
  | loadPipeline w pl =>
      obtain rfl : w = ws := hop
      simp only [MemoryKernelStore.handle, loadPipeline, hs.failRead,
        ht.failRead, Bool.false_eq_true, ↓reduceIte, h.pipelines]
      split <;> exact ⟨rfl, h⟩
  | commitAccepted write =>
      simp only [MemoryKernelStore.handle, commitAccepted, hs.failAfter,
        ht.failAfter, Bool.false_eq_true, ↓reduceIte]
      refine ⟨trivial, ?_, ?_, ?_, ?_, h.leases⟩
      · intro cmd
        simp only [Dict.get?_set, h.inbox]
      · simp only [List.filter_append, h.events]
      · intro pl
        simp only [Dict.get?_set, h.pipelines]
      · intro cmd
        simp only [Dict.get?_set, h.outbox]
  | rebuildPipeline w pl =>
      obtain rfl : w = ws := hop
      by_cases hempty : w = ""
      · simp only [MemoryKernelStore.handle, rebuildPipeline, hempty, ↓reduceIte]
        exact ⟨trivial, hempty ▸ h⟩
      · have hdeleted : SameIn w (s.deletePipeline w pl) (t.deletePipeline w pl) := by
          simp only [deletePipeline, hempty, ↓reduceIte]
          refine ⟨h.inbox, h.events, ?_, h.outbox, h.leases⟩
          intro pl'
          simp only [Dict.get?_pop, h.pipelines]
        simp only [MemoryKernelStore.handle, rebuildPipeline, hempty, ↓reduceIte,
          hdeleted.listEvents]
        split
        · exact ⟨rfl, hdeleted⟩
        · refine ⟨rfl, hdeleted.inbox, hdeleted.events, ?_, hdeleted.outbox,
            hdeleted.leases⟩
          intro pl'
          simp only [Dict.get?_set, hdeleted.pipelines]
  | deletePipeline w pl =>
      obtain rfl : w = ws := hop
      simp only [MemoryKernelStore.handle, deletePipeline]
      split
      · exact ⟨trivial, h⟩
      · refine ⟨trivial, h.inbox, h.events, ?_, h.outbox, h.leases⟩
        intro pl'
        simp only [Dict.get?_pop, h.pipelines]
  | recordOutboxDelivery w cmd receiptJson =>
      obtain rfl : w = ws := hop
      simp only [MemoryKernelStore.handle, recordOutboxDelivery, h.outbox]
      split
      · exact ⟨trivial, h⟩
      · split
        · exact ⟨trivial, h⟩
        · split
          · refine ⟨trivial, h.inbox, h.events, h.pipelines, ?_, h.leases⟩
            intro cmd'
            simp only [Dict.get?_set, h.outbox]
          · exact ⟨trivial, h⟩
  | saveLease record =>
      simp only [MemoryKernelStore.handle, saveLease]
      split
      · exact ⟨trivial, h⟩
      · refine ⟨trivial, h.inbox, h.events, h.pipelines, h.outbox, ?_⟩
        intro pl
        simp only [Dict.get?_set, h.leases]
  | deleteLease w pl =>
      obtain rfl : w = ws := hop
      simp only [MemoryKernelStore.handle, deleteLease]
      split
      · exact ⟨trivial, h⟩
      · refine ⟨trivial, h.inbox, h.events, h.pipelines, h.outbox, ?_⟩
        intro pl'
        simp only [Dict.get?_pop, h.leases]

theorem SameIn.deleteExpiredLeases (h : SameIn ws s t) (now : Int) :
    SameIn ws (s.deleteExpiredLeases now) (t.deleteExpiredLeases now) := by
  refine ⟨h.inbox, h.events, h.pipelines, h.outbox, ?_⟩
  intro pl
  simp only [get?_deleteExpiredLeases, h.leases]

theorem Tidy.run (h : s.Tidy) {α : Type} (p : StoreProgram α) :
    (p.run (MemoryKernelStore.handle codec) s).2.Tidy := by
  induction p generalizing s with
  | done value => exact h
  | raise error => exact h
  | call op next ih => exact ih _ (h.handle op)

/-- A program within another workspace is not visible in this one. -/
theorem SameIn.run_apart {other : String} (hne : other ≠ ws) (hs : s.Tidy)
    {α : Type} {p : StoreProgram α} (hp : p.Calls (StoreOp.Within other)) :
    SameIn ws (p.run (MemoryKernelStore.handle codec) s).2 s := by
  have hboth : ((p.run (MemoryKernelStore.handle codec) s).2.Tidy ∧
      SameIn ws (p.run (MemoryKernelStore.handle codec) s).2 s) := by
    refine hp.run_preserves (P := fun s' => s'.Tidy ∧ SameIn ws s' s) ?_
      ⟨hs, .refl ws s⟩
    rintro op s' hop ⟨hs', hsame⟩
    exact ⟨hs'.handle op, (SameIn.apart hne hs' hop).trans hsame⟩
  exact hboth.2

/-- A program within the workspace cannot tell apart two stores that hold the
same rows of it. -/
theorem SameIn.run (h : SameIn ws s t) (hs : s.Tidy) (ht : t.Tidy) {α : Type}
    {p : StoreProgram α} (hp : p.Calls (StoreOp.Within ws)) :
    (p.run (MemoryKernelStore.handle codec) s).1 =
        (p.run (MemoryKernelStore.handle codec) t).1 ∧
      SameIn ws (p.run (MemoryKernelStore.handle codec) s).2
        (p.run (MemoryKernelStore.handle codec) t).2 := by
  induction p generalizing s t with
  | done value => exact ⟨rfl, h⟩
  | raise error => exact ⟨rfl, h⟩
  | call op next ih =>
      obtain ⟨hanswer, hnext⟩ : (MemoryKernelStore.handle codec op s).1 =
          (MemoryKernelStore.handle codec op t).1 ∧ _ := h.handle hs ht hp.1
      rw [Program.run_call, Program.run_call, ← hanswer]
      exact ih _ hnext (hs.handle op) (ht.handle op) (hp.2 _)

end MemoryKernelStore

open MemoryKernelStore

theorem run_heartbeatLease (codec : Codec) (s : MemoryKernelStore)
    (ws pl holder : String) (generation : Nat) (now ttl : Int) :
    (heartbeatLease ws pl holder generation now ttl).run (handle codec) s =
      (heartbeatLoaded holder generation now ttl (s.loadLease ws pl)).run
        (handle codec) s := by
  simp only [heartbeatLease, ask, Program.run_bind, Program.run_perform, handle]
  cases s.loadLease ws pl <;> rfl

/-- The two sessions look the same from the workspace. -/
structure Session.AgreeIn (ws : String) (s t : Session MemoryKernelStore) :
    Prop where
  paused : s.paused = t.paused
  same : s.store.SameIn ws t.store
  left : s.store.Tidy
  right : t.store.Tidy

variable {env : KernelEnv} {ws : String} {c : KernelCall}

/-- In every state, a call that names a workspace runs as a program within
it. -/
theorem KernelCall.run_within (env : KernelEnv) (hc : c.workspace? = some ws)
    (paused : Bool) (current : String → Option LeaseRecord)
    (howned : ∀ pl lease, current pl = some lease → lease.workspaceId = ws) :
    ∃ p : StoreProgram KernelAnswer, p.Calls (StoreOp.Within ws) ∧
      ∀ s : MemoryKernelStore, (∀ pl, s.loadLease ws pl = current pl) →
        (c.program (env.controller paused)).run (handle env.codec) s =
          p.run (handle env.codec) s := by
  have hplain : ∀ {α : Type} {q : StoreProgram α} (f : α → KernelAnswer),
      c.program (env.controller paused) = (q.bind fun value => .done (f value)) →
      q.Calls (StoreOp.Within ws) →
      ∃ p : StoreProgram KernelAnswer, p.Calls (StoreOp.Within ws) ∧
        ∀ s : MemoryKernelStore, (∀ pl, s.loadLease ws pl = current pl) →
          (c.program (env.controller paused)).run (handle env.codec) s =
            p.run (handle env.codec) s := by
    intro α q f hprogram hq
    refine ⟨_, ?_, fun _ _ => rfl⟩
    rw [hprogram]
    exact hq.bind fun _ => trivial
  cases c <;> simp only [KernelCall.workspace?, Option.some.injEq,
    reduceCtorEq] at hc
  case submit command => exact hplain _ rfl (within_submit _ hc)
  case submitWithLease command holder generation now =>
      exact hplain _ rfl (within_submitWithLease _ hc holder generation now)
  case read query => exact hplain _ rfl (within_read hc)
  case replay w cmd =>
      subst hc
      exact hplain _ rfl (within_replay _ cmd)
  case acquireLease w pl holder now ttl replace =>
      subst hc
      exact hplain _ rfl (within_acquireLease pl holder now ttl replace)
  case heartbeatLease w pl holder generation now ttl =>
      -- The renewed record is the loaded one, so its workspace is known only
      -- in a state whose leases are stored under their own keys.
      subst hc
      refine ⟨(heartbeatLoaded holder generation now ttl (current pl)).bind
        fun r => .done (.lease r), ?_, ?_⟩
      · refine Program.Calls.bind ?_ fun _ => trivial
        exact within_heartbeatLoaded (howned pl) holder generation now ttl
      · intro s hcurrent
        rw [KernelCall.program, Program.run_bind_done, Program.run_bind_done,
          ← hcurrent pl, run_heartbeatLease]
  case cancel w pl =>
      subst hc
      exact hplain _ rfl (within_cancel pl)
  case rebuild query => exact hplain _ rfl (within_rebuild hc)

theorem MemoryKernelStore.Tidy.loadLease_owned {s : MemoryKernelStore}
    (h : s.Tidy) (ws pl : String) (lease : LeaseRecord)
    (hlease : s.loadLease ws pl = some lease) : lease.workspaceId = ws := by
  unfold MemoryKernelStore.loadLease at hlease
  split at hlease
  · cases hlease
  · exact congrArg Prod.fst (h.leases _ _ hlease)

theorem MemoryKernelStore.SameIn.loadLease {s t : MemoryKernelStore}
    (h : s.SameIn ws t) (pl : String) :
    s.loadLease ws pl = t.loadLease ws pl := by
  simp only [MemoryKernelStore.loadLease, h.leases]

section Step

variable {s t : Session MemoryKernelStore}

/-- A call that names another workspace is not visible in this one. -/
theorem Session.AgreeIn.call_apart (h : s.AgreeIn ws t) {other : String}
    (hc : c.workspace? = some other) (hne : other ≠ ws) :
    (Session.step env (memoryStore env.codec) s (.call c)).2.AgreeIn ws t := by
  obtain ⟨p, hp, hrun⟩ := c.run_within env hc s.paused
    (s.store.loadLease other) (h.left.loadLease_owned other)
  have hstore := hrun s.store fun _ => rfl
  refine ⟨h.paused, ?_, h.left.run _, h.right⟩
  change SameIn ws ((c.program (env.controller s.paused)).run
    (handle env.codec) s.store).2 t.store
  rw [hstore]
  exact (SameIn.run_apart hne h.left hp).trans h.same

/-- A call that names the workspace answers the same in both sessions. -/
theorem Session.AgreeIn.call_same (h : s.AgreeIn ws t)
    (hc : c.workspace? = some ws) :
    (Session.step env (memoryStore env.codec) s (.call c)).1 =
        (Session.step env (memoryStore env.codec) t (.call c)).1 ∧
      (Session.step env (memoryStore env.codec) s (.call c)).2.AgreeIn ws
        (Session.step env (memoryStore env.codec) t (.call c)).2 := by
  obtain ⟨p, hp, hrun⟩ := c.run_within env hc s.paused
    (s.store.loadLease ws) (h.left.loadLease_owned ws)
  have hleft := hrun s.store fun _ => rfl
  have hright := hrun t.store fun pl => (h.same.loadLease pl).symm
  obtain ⟨hanswer, hsame⟩ : (p.run (handle env.codec) s.store).1 =
      (p.run (handle env.codec) t.store).1 ∧ _ := h.same.run h.left h.right hp
  have hcontroller : env.controller t.paused = env.controller s.paused := by
    rw [h.paused]
  simp only [Session.step, memoryStore, hcontroller, hleft, hright]
  exact ⟨hanswer, h.paused, hsame, h.left.run p, h.right.run p⟩

/-- Pause, resume and cleanup keep the agreement. -/
theorem Session.AgreeIn.shared (h : s.AgreeIn ws t) {op : SessionOp}
    (hop : op.isShared = true) :
    (Session.step env (memoryStore env.codec) s op).2.AgreeIn ws
      (Session.step env (memoryStore env.codec) t op).2 := by
  cases op with
  | pause => exact ⟨rfl, h.same, h.left, h.right⟩
  | resume => exact ⟨rfl, h.same, h.left, h.right⟩
  | tripCommitFailure | tripReadFailure => cases hop
  | call c =>
      cases c with
      | cleanup now =>
          exact ⟨h.paused, h.same.deleteExpiredLeases now,
            h.left.deleteExpiredLeases now, h.right.deleteExpiredLeases now⟩
      | submit | submitWithLease | read | replay | acquireLease
      | heartbeatLease | cancel | rebuild | listEvents | listPendingOutbox
      | recordOutboxDelivery | findOutbox | counts => cases hop

end Step

theorem SessionOp.workspace?_of_isShared {op : SessionOp}
    (hop : op.isShared = true) : op.workspace? = none := by
  cases op with
  | pause | resume | tripCommitFailure | tripReadFailure => rfl
  | call c => cases c <;> first | rfl | cases hop

/-- The calls of one workspace unwind. -/
theorem unwinds_workspace (env : KernelEnv) (ws : String) :
    Unwinds (Session.step env (memoryStore env.codec)) SessionOp.IsController
      (SessionOp.keptFor ws) (fun op => op.workspace? = some ws)
      (Session.AgreeIn ws) where
  hides := by
    intro s t op hop hkept hagree
    simp only [SessionOp.keptFor, Bool.or_eq_false_iff, decide_eq_false_iff_not]
      at hkept
    obtain ⟨hother, hshared⟩ := hkept
    rcases hop with hnamed | hop
    · obtain ⟨other, hws⟩ := Option.isSome_iff_exists.mp hnamed
      have hne : other ≠ ws := by
        intro heq
        exact hother (by rw [hws, heq])
      cases op with
      | pause | resume | tripCommitFailure | tripReadFailure => cases hws
      | call c => exact hagree.call_apart hws hne
    · rw [hshared] at hop
      cases hop
  keeps := by
    intro s t op hop hkept hagree
    rcases hop with hnamed | hshared
    · have hws : op.workspace? = some ws := by
        simp only [SessionOp.keptFor, Bool.or_eq_true, decide_eq_true_eq] at hkept
        rcases hkept with hws | hshared
        · exact hws
        · rw [SessionOp.workspace?_of_isShared hshared] at hnamed
          cases hnamed
      cases op with
      | pause | resume | tripCommitFailure | tripReadFailure => cases hws
      | call c => exact (hagree.call_same hws).2
    · exact hagree.shared hshared
  answers_eq := by
    intro s t op hop hws hagree
    cases op with
    | pause | resume | tripCommitFailure | tripReadFailure =>
        simp [SessionOp.workspace?] at hws
    | call c => exact (hagree.call_same (of_decide_eq_true hws)).1
  kept_of_observed := by
    intro op hws
    simp only [decide_eq_true_eq] at hws
    simp [SessionOp.keptFor, hws]

/-- Workspace noninterference.  Whatever calls other workspaces make, with
pause, resume and cleanup anywhere, the calls that name the workspace get the
answers they get in the run without those other calls. -/
theorem session_workspace_noninterference (env : KernelEnv) (ws : String)
    (ops : List SessionOp) (hops : ∀ op ∈ ops, op.IsController) :
    observations (Session.step env (memoryStore env.codec))
        (fun op => op.workspace? = some ws)
        (Session.init (memoryStore env.codec)) ops =
      observations (Session.step env (memoryStore env.codec))
        (fun op => op.workspace? = some ws)
        (Session.init (memoryStore env.codec))
        (ops.filter (SessionOp.keptFor ws)) := by
  refine (unwinds_workspace env ws).observations_eq hops ?_
  exact ⟨rfl, .refl ws _, tidy_init, tidy_init⟩

namespace WorkspaceIsolationWitness

open ReferenceCodec

/-- The sample confirmation in another workspace. -/
def farConfirm : ControllerCommand :=
  { sampleConfirm with
    workspaceId := "ws_b"
    workspaceId_ok := by decide }

/-- SHA-256 on the submitted commands. -/
def digest : Equiv.Perm String :=
  digestOf
    [((Json.obj sampleConfirm.modelDump).canon.toText,
        "354695c00546b241d20d13eef55370d37e0923ec4932cea0fb601cc848b06065"),
      ((Json.obj farConfirm.modelDump).canon.toText,
        "522482cd61c75db261949ca8bb5643dab402fcff52a48cc711f4fdda50828e42")]

def session : KernelEnv := ⟨referenceCodec digest, "2026-08-06T00:00:00Z"⟩

/-- The same pipeline, command and lease holder in two workspaces. -/
def ops : List SessionOp :=
  [.call (.submit farConfirm),
    .call (.submit sampleConfirm),
    .call (.acquireLease "ws_b" "pl_a" "worker" 10 60 false),
    .call (.acquireLease "ws_a" "pl_a" "worker" 10 60 false),
    .pause, .call (.cancel "ws_b" "pl_a"), .resume, .call (.cleanup 20),
    .call (.read ⟨"pl_a", "ws_a"⟩)]

theorem session_workspace_noninterference_at_ops :
    (∀ op ∈ ops, op.IsController) ∧
      observations (Session.step session (memoryStore session.codec))
          (fun op => op.workspace? = some "ws_a")
          (Session.init (memoryStore session.codec)) ops =
        observations (Session.step session (memoryStore session.codec))
          (fun op => op.workspace? = some "ws_a")
          (Session.init (memoryStore session.codec))
          (ops.filter (SessionOp.keptFor "ws_a")) := by
  have hops : ∀ op ∈ ops, op.IsController := by
    simp [ops, SessionOp.IsController, SessionOp.workspace?,
      KernelCall.workspace?, SessionOp.isShared]
  exact ⟨hops, session_workspace_noninterference session "ws_a" ops hops⟩

end WorkspaceIsolationWitness

end HermesPipeline
