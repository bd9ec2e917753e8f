/-
The in-memory adapter of the spike controller.  The five writes of a command are
staged on a copy that replaces the store only when no fault fired, so all five
records grow together and the event chain stays the one that the projection
counts.
-/
import HermesPipeline.SpikeController

namespace HermesPipeline

namespace Spike

open Lib EventChain

/-- One stored event. -/
structure EventRow where
  sequence : Nat
  eventId : String
  pipelineRevision : Nat
  previousEventHash : Option String
  eventHash : String
  payloadJson : String
deriving Repr, DecidableEq

/-- The columns that the chain covers. -/
def EventRow.chainRow (row : EventRow) : ChainRow :=
  ⟨row.sequence, row.previousEventHash, row.eventHash, row.payloadJson⟩

/-- The row as the rebuild reads it: a blank link is no link. -/
def EventRow.rebuildRow (row : EventRow) : ChainRow :=
  ⟨row.sequence, row.previousEventHash.filter (· ≠ ""), row.eventHash,
    row.payloadJson⟩

/-- The counter after as many increments as there are rows. -/
def countRows (rows : List ChainRow) : CounterState :=
  rows.foldl (fun rebuilt _ => ⟨rebuilt.value + 1, rebuilt.revision + 1⟩) ⟨0, 0⟩

/-- Verify the rows and count them. -/
def rebuildRows (sha : Sha256) (rows : List ChainRow) :
    Except PersistenceError CounterState :=
  match verifyChain sha rows with
  | .error _ => .error ⟨.unavailable, messagePersistenceUnavailable⟩
  | .ok () => .ok (countRows rows)

/-- The staged store contents. -/
structure InMemoryStore where
  inbox : Dict String StoredCommand := .empty
  events : List EventRow := []
  projection : CounterState := ⟨0, 0⟩
  outbox : List OutboxRecord := []
  receipts : Dict String String := .empty
deriving DecidableEq

structure InMemoryControllerStore where
  faultSpec : FaultSpec
  store : InMemoryStore
deriving DecidableEq

namespace InMemoryControllerStore

def init (faultSpec : FaultSpec) : InMemoryControllerStore := ⟨faultSpec, {}⟩

def findCommand (s : InMemoryControllerStore) (commandId : String) :
    Option StoredCommand :=
  s.store.inbox.get? commandId

/-- The stored hash of the last event. -/
def lastEventHash (store : InMemoryStore) : Option String :=
  store.events.getLast?.map EventRow.eventHash

section Writes

variable (sha : Sha256) (spec : FaultSpec) (store : InMemoryStore)
  (writes : AcceptanceWrites)

def writeInbox : Except InjectedFault InMemoryStore :=
  let inbox := store.inbox.set writes.inbox.commandId
    ⟨writes.inbox.payloadHash, writes.receipt.receiptJson⟩
  spec.around writeInboxPosition "rows=1" { store with inbox := inbox }

def writeEvent (previousHash : Option String) :
    Except InjectedFault InMemoryStore :=
  let eventHash := chainHash sha previousHash writes.event.sequence
    writes.event.payloadJson
  let row : EventRow := ⟨writes.event.sequence, writes.event.eventId,
    writes.event.pipelineRevision, previousHash, eventHash,
    writes.event.payloadJson⟩
  spec.around writeEventPosition "rows=1"
    { store with events := store.events ++ [row] }

def writeProjection : Except InjectedFault InMemoryStore :=
  let projection : CounterState :=
    ⟨writes.projection.value, writes.projection.revision⟩
  let revision := projection.revision
  spec.around writeProjectionPosition s!"revision={revision}"
    { store with projection := projection }

def writeOutbox : Except InjectedFault InMemoryStore :=
  spec.around writeOutboxPosition "rows=1"
    { store with outbox := store.outbox ++ [writes.outbox] }

def writeReceipt : Except InjectedFault InMemoryStore :=
  let receipts := store.receipts.set writes.receipt.commandId
    writes.receipt.receiptJson
  spec.around writeReceiptPosition "rows=1" { store with receipts := receipts }

/-- The five writes on the staged copy. -/
def stage : Except InjectedFault InMemoryStore := do
  let previousHash := lastEventHash store
  let store ← writeInbox spec store writes
  let store ← writeEvent sha spec store writes previousHash
  let store ← writeProjection spec store writes
  let store ← writeOutbox spec store writes
  writeReceipt spec store writes

end Writes

def commitAcceptance (sha : Sha256) (s : InMemoryControllerStore)
    (writes : AcceptanceWrites) :
    Except PersistenceError Unit × InMemoryControllerStore :=
  match stage sha s.faultSpec s.store writes with
  | .error fault =>
      (.error ⟨.unavailable, messagePersistenceUnavailable⟩,
        { s with faultSpec := s.faultSpec.record fault })
  | .ok staged => (.ok (), { s with store := staged })

def rebuildProjection (sha : Sha256) (s : InMemoryControllerStore) :
    Except PersistenceError CounterState :=
  rebuildRows sha (s.store.events.map EventRow.rebuildRow)

def audit (s : InMemoryControllerStore) : StoreAudit where
  inboxCount := s.store.inbox.rows.length
  eventCount := s.store.events.length
  outboxCount := s.store.outbox.length
  receiptCount := s.store.receipts.rows.length
  projection := some s.store.projection

/-- The adapter as the port of a controller. -/
def port (sha : Sha256) : ControllerPersistencePort InMemoryControllerStore where
  findCommand s commandId := .ok (s.findCommand commandId)
  loadCounter s := .ok s.store.projection
  commitAcceptance := commitAcceptance sha
  rebuildProjection := rebuildProjection sha
  audit s := .ok s.audit
  setHooks s before after := { s with faultSpec := s.faultSpec.setHooks before after }

end InMemoryControllerStore

section Faults

variable {sha : Sha256} {spec : FaultSpec} {store : InMemoryStore}
  {writes : AcceptanceWrites}

/-- The store with all five records of a command. -/
def InMemoryStore.accepted (sha : Sha256) (store : InMemoryStore)
    (writes : AcceptanceWrites) : InMemoryStore where
  inbox := store.inbox.set writes.inbox.commandId
    ⟨writes.inbox.payloadHash, writes.receipt.receiptJson⟩
  events := store.events ++
    [⟨writes.event.sequence, writes.event.eventId, writes.event.pipelineRevision,
      InMemoryControllerStore.lastEventHash store,
      chainHash sha (InMemoryControllerStore.lastEventHash store)
        writes.event.sequence writes.event.payloadJson,
      writes.event.payloadJson⟩]
  projection := ⟨writes.projection.value, writes.projection.revision⟩
  outbox := store.outbox ++ [writes.outbox]
  receipts := store.receipts.set writes.receipt.commandId writes.receipt.receiptJson

/-- The five writes together. -/
theorem writes_stage (sha : Sha256) (spec : FaultSpec) (store : InMemoryStore)
    (writes : AcceptanceWrites) :
    spec.Writes [1, 2, 3, 4, 5]
      (InMemoryControllerStore.stage sha spec store writes)
      (store.accepted sha writes) :=
  (spec.writes_around writeInboxPosition _ _).bind
    ((spec.writes_around writeEventPosition _ _).bind
      ((spec.writes_around writeProjectionPosition _ _).bind
        ((spec.writes_around writeOutboxPosition _ _).bind
          (spec.writes_around writeReceiptPosition _ _))))

/-- A commit stores all five records, or it hits a hook and stores none. -/
theorem commitAcceptance_cases (sha : Sha256) (s : InMemoryControllerStore)
    (writes : AcceptanceWrites) :
    (¬ s.faultSpec.Hooked ∧ s.commitAcceptance sha writes =
      (.ok (), { s with store := s.store.accepted sha writes })) ∨
    (s.faultSpec.Hooked ∧ ∃ spec, s.commitAcceptance sha writes =
      (.error ⟨.unavailable, messagePersistenceUnavailable⟩,
        { s with faultSpec := spec })) := by
  rcases writes_stage sha s.faultSpec s.store writes with
    ⟨hfree, hstaged⟩ | ⟨hhooked, fault, hfault⟩
  · refine .inl ⟨?_, by
      simp only [InMemoryControllerStore.commitAcceptance, hstaged]⟩
    rintro ⟨position, hmem, hset⟩
    exact hset.elim (hfree position hmem).1 (hfree position hmem).2
  · exact .inr ⟨hhooked, s.faultSpec.record fault, by
      simp only [InMemoryControllerStore.commitAcceptance, hfault]⟩

end Faults

/-- All five records count the accepted commands, and the chain holds. -/
structure Consistent (sha : Sha256) (store : InMemoryStore) : Prop where
  value : store.projection.value = store.events.length
  revision : store.projection.revision = store.events.length
  inbox : store.inbox.rows.length = store.events.length
  outbox : store.outbox.length = store.events.length
  receipts : store.receipts.rows.length = store.events.length
  keys : ∀ commandId, store.inbox.get? commandId = none →
    store.receipts.get? commandId = none
  chain : verifyChain sha (store.events.map EventRow.chainRow) = .ok ()
  digests : ∀ row ∈ store.events,
    row.eventHash ≠ "" ∧ row.previousEventHash ≠ some ""

section Consistent

variable {codec : Codec} {sha : Sha256} {store : InMemoryStore}
  {writes : AcceptanceWrites} {providers : Providers}
  {command : ControllerCommand}

theorem consistent_init (sha : Sha256) : Consistent sha {} where
  value := rfl
  revision := rfl
  inbox := rfl
  outbox := rfl
  receipts := rfl
  keys _ _ := rfl
  chain := rfl
  digests _ hmem := absurd hmem (List.not_mem_nil)

theorem length_set_of_absent {V : Type} {d : Dict String V} {k : String} {v : V}
    (habsent : d.get? k = none) : (d.set k v).rows.length = d.rows.length + 1 := by
  rw [Dict.set_rows_of_absent habsent, List.length_append, List.length_singleton]

theorem lastEventHash_chainRow (store : InMemoryStore) :
    EventChain.lastEventHash (store.events.map EventRow.chainRow) =
      InMemoryControllerStore.lastEventHash store := by
  rw [EventChain.lastEventHash, List.getLast?_map, Option.map_map]
  rfl

/-- The last hash of a consistent store is a digest. -/
theorem Consistent.lastEventHash_ne (h : Consistent sha store) :
    InMemoryControllerStore.lastEventHash store ≠ some "" := by
  intro hlast
  obtain ⟨row, hrow, hhash⟩ := Option.map_eq_some_iff.mp hlast
  exact (h.digests row (List.mem_of_getLast? hrow)).1 hhash

/-- An accepted command keeps the store consistent. -/
theorem Consistent.accepted (h : Consistent sha store)
    (hnew : store.inbox.get? command.commandId = none)
    (hfollows : SpikeController.Follows codec providers command
      store.projection writes) :
    Consistent sha (store.accepted sha writes) where
  value := by
    simp only [InMemoryStore.accepted, List.length_append, List.length_singleton,
      hfollows.value, h.value]
  revision := by
    simp only [InMemoryStore.accepted, List.length_append, List.length_singleton,
      hfollows.revision, h.revision]
  inbox := by
    have habsent : store.inbox.get? writes.inbox.commandId = none := by
      rw [hfollows.inbox]
      exact hnew
    simp only [InMemoryStore.accepted, List.length_append, List.length_singleton,
      length_set_of_absent habsent, h.inbox]
  outbox := by
    simp only [InMemoryStore.accepted, List.length_append, List.length_singleton,
      h.outbox]
  receipts := by
    have habsent : store.receipts.get? writes.receipt.commandId = none := by
      rw [hfollows.receipt]
      exact h.keys _ hnew
    simp only [InMemoryStore.accepted, List.length_append, List.length_singleton,
      length_set_of_absent habsent, h.receipts]
  keys := by
    intro commandId habsent
    simp only [InMemoryStore.accepted, hfollows.inbox, hfollows.receipt,
      Dict.get?_set] at habsent ⊢
    split at habsent
    · cases habsent
    · rename_i hother
      rw [if_neg hother]
      exact h.keys _ habsent
  chain := by
    have hrow : (store.accepted sha writes).events.map EventRow.chainRow =
        store.events.map EventRow.chainRow ++
          [nextRow sha (store.events.map EventRow.chainRow)
            writes.event.payloadJson] := by
      rw [nextRow, lastEventHash_chainRow, List.length_map]
      simp [InMemoryStore.accepted, EventRow.chainRow, hfollows.sequence,
        h.revision]
    rw [hrow]
    exact verifyChain_append _ h.chain
  digests := by
    intro row hmem
    rcases List.mem_append.mp hmem with hold | hnewRow
    · exact h.digests row hold
    · rw [List.mem_singleton.mp hnewRow]
      exact ⟨sha.hexdigest_ne_empty _, h.lastEventHash_ne⟩

theorem countRows_eq (rows : List ChainRow) :
    countRows rows = ⟨rows.length, rows.length⟩ := by
  induction rows using List.reverseRecOn with
  | nil => rfl
  | append_singleton rows row ih =>
      rw [countRows, List.foldl_append, ← countRows, ih]
      simp

/-- Counting the chain of a consistent store gives its projection. -/
theorem Consistent.rebuildRows (h : Consistent sha store) :
    rebuildRows sha (store.events.map EventRow.chainRow) =
      .ok store.projection := by
  have hprojection : store.projection =
      ⟨store.events.length, store.events.length⟩ :=
    CounterState.ext h.value h.revision
  rw [Spike.rebuildRows, h.chain, hprojection, countRows_eq, List.length_map]

/-- No link of a consistent store is blank. -/
theorem Consistent.rebuildRow_eq (h : Consistent sha store) :
    store.events.map EventRow.rebuildRow =
      store.events.map EventRow.chainRow := by
  apply List.map_congr_left
  intro row hmem
  have hlink := (h.digests row hmem).2
  cases hprevious : row.previousEventHash with
  | none => simp [EventRow.rebuildRow, EventRow.chainRow, hprevious]
  | some previous =>
      have hne : previous ≠ "" := fun hblank => hlink (by rw [hprevious, hblank])
      simp [EventRow.rebuildRow, EventRow.chainRow, hprevious, hne]

/-- The controller over the in-memory adapter. -/
def memoryStep (codec : Codec) (sha : Sha256) :
    InMemoryControllerStore → SpikeCall → SpikeAnswer × InMemoryControllerStore :=
  step codec sha (InMemoryControllerStore.port sha)

/-- A submit appends all records of its command, or it changes none. -/
theorem submit_cases (codec : Codec) (sha : Sha256) (providers : Providers)
    (command : ControllerCommand) (s : InMemoryControllerStore) :
    ((SpikeController.submitImpl codec sha (InMemoryControllerStore.port sha)
        providers command s).2.store = s.store) ∨
    (¬ s.faultSpec.Hooked ∧ ∃ writes,
      s.store.inbox.get? command.commandId = none ∧
      SpikeController.Follows codec providers command s.store.projection writes ∧
      (SpikeController.submitImpl codec sha (InMemoryControllerStore.port sha)
        providers command s).2.store = s.store.accepted sha writes) := by
  rcases SpikeController.submitImpl_cases codec sha
    (InMemoryControllerStore.port sha) providers command s with
    ⟨answer, hanswer, -⟩ | ⟨state, receipt, writes, hfind, hload, hfollows, hcommit⟩
  · exact .inl (by rw [hanswer])
  · have hstate : s.store.projection = state := Except.ok.inj hload
    have hnew : s.store.inbox.get? command.commandId = none := Except.ok.inj hfind
    rw [hcommit]
    have hport : (InMemoryControllerStore.port sha).commitAcceptance s writes =
      s.commitAcceptance sha writes := rfl
    rw [hport]
    rcases commitAcceptance_cases sha s writes with
      ⟨hfree, hstored⟩ | ⟨hhooked, spec, hfailed⟩
    · rw [hstored]
      exact .inr ⟨hfree, writes, hnew, hstate ▸ hfollows, rfl⟩
    · rw [hfailed]
      exact .inl rfl

theorem Consistent.step {s : InMemoryControllerStore}
    (h : Consistent sha s.store) (call : SpikeCall) :
    Consistent sha (memoryStep codec sha s call).2.store := by
  cases call with
  | rebuildProjection => exact h
  | audit => exact h
  | setHooks before after => exact h
  | submit providers command =>
      change Consistent sha (SpikeController.submitImpl codec sha
        (InMemoryControllerStore.port sha) providers command s).2.store
      rcases submit_cases codec sha providers command s with
        hsame | ⟨-, writes, hnew, hfollows, hstored⟩
      · rw [hsame]
        exact h
      · rw [hstored]
        exact h.accepted hnew hfollows

end Consistent

/-- In every state that a spike controller over the in-memory adapter reaches:
the records count the accepted commands, the chain holds, the rebuild gives the
projection, and a submit under a fault changes nothing. -/
theorem spike_controller_invariant (codec : Codec) (sha : Sha256)
    (spec : FaultSpec) (calls : List SpikeCall) :
    let s := exec (memoryStep codec sha) (.init spec) calls
    let n := s.store.events.length
    (s.store.projection.value = n ∧ s.store.projection.revision = n ∧
      s.store.inbox.rows.length = n ∧ s.store.outbox.length = n ∧
      s.store.receipts.rows.length = n) ∧
    verifyChain sha (s.store.events.map EventRow.chainRow) = .ok () ∧
    s.rebuildProjection sha = .ok s.store.projection ∧
    ∀ providers command, s.faultSpec.Hooked →
      (memoryStep codec sha s (.submit providers command)).2.store = s.store := by
  intro s n
  have h : Consistent sha s.store := exec_invariant
    (P := fun s : InMemoryControllerStore => Consistent sha s.store)
    (fun _ call hs => hs.step call) (consistent_init sha) calls
  have hrebuild : s.rebuildProjection sha = .ok s.store.projection := by
    rw [InMemoryControllerStore.rebuildProjection, h.rebuildRow_eq, h.rebuildRows]
  refine ⟨⟨h.value, h.revision, h.inbox, h.outbox, h.receipts⟩, h.chain, hrebuild,
    fun providers command hhooked => ?_⟩
  rcases submit_cases codec sha providers command s with hsame | ⟨hfree, -⟩
  · exact hsame
  · exact absurd hhooked hfree

end Spike

end HermesPipeline
