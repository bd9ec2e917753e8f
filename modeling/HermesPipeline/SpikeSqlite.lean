/-
The SQLite adapter of the spike controller: five tables and one transaction for
the five writes.  Over the same calls it answers as the in-memory adapter does,
and stores the same chain of events.
-/
import HermesPipeline.KernelSqlite
import HermesPipeline.ReferenceCodec
import HermesPipeline.SpikeMemory

namespace HermesPipeline

open Lib

/-- The largest integer that a canonical text can hold is `2^53 - 1`. -/
def Codec.RefusesLargeIntegers (codec : Codec) : Prop :=
  ∀ members text name (n : Int), codec.canonicalJson (.obj members) = some text →
    (name, Json.int n) ∈ members → n ≤ 9007199254740991

namespace Spike

open EventChain

/-- A row of `spike_inbox`. -/
structure InboxRow where
  commandId : String
  payloadHash : String
  commandJson : String
  receiptJson : String
  recordedAt : String
deriving Repr, DecidableEq

/-- A row of `spike_outbox`, numbered by AUTOINCREMENT. -/
structure OutboxRow where
  sequence : Nat
  commandId : String
  effectType : String
  payloadJson : String
deriving Repr, DecidableEq

/-- The five tables with their primary keys; event ids are checked to be unique
when a row is inserted. -/
structure SpikeDatabase where
  inbox : Keyed InboxRow.commandId
  events : Keyed EventRow.sequence
  /-- The row with `id = 1`. -/
  projection : Option CounterState
  outbox : Keyed OutboxRow.sequence
  receipts : Keyed ReceiptRecord.commandId
deriving DecidableEq

inductive DriverError
  | integrity | overflow | full
deriving Repr, DecidableEq

/-- What can end a transaction before its commit. -/
inductive Raised
  | injected (fault : InjectedFault)
  | driver (error : DriverError)
deriving Repr, DecidableEq

structure SqliteControllerStore where
  faultSpec : FaultSpec
  database : SpikeDatabase
deriving DecidableEq

namespace SqliteControllerStore

/-- The schema with its seeded projection row. -/
def init (faultSpec : FaultSpec) : SqliteControllerStore :=
  ⟨faultSpec, ⟨.empty, .empty, some ⟨0, 0⟩, .empty, .empty⟩⟩

section Statements

variable (sha : Sha256) (spec : FaultSpec) (db : SpikeDatabase)
  (writes : AcceptanceWrites)

/-- The events in `ORDER BY sequence`. -/
def orderedEvents : List EventRow :=
  db.events.rows.insertionSort fun left right => left.sequence ≤ right.sequence

/-- The hash of the event with the highest sequence. -/
def lastEventHash : Option String :=
  (orderedEvents db).getLast?.map EventRow.eventHash

def insertInbox : Except DriverError SpikeDatabase :=
  match db.inbox.insert? ⟨writes.inbox.commandId, writes.inbox.payloadHash,
      writes.inbox.commandJson, writes.receipt.receiptJson,
      writes.inbox.recordedAt⟩ with
  | none => .error .integrity
  | some inbox => .ok { db with inbox := inbox }

def insertEvent (previous : Option String) : Except DriverError SpikeDatabase :=
  let eventHash := chainHash sha previous writes.event.sequence
    writes.event.payloadJson
  let row : EventRow := ⟨writes.event.sequence, writes.event.eventId,
    writes.event.pipelineRevision, previous, eventHash, writes.event.payloadJson⟩
  if !(fitsInt64 row.sequence && fitsInt64 row.pipelineRevision) then
    .error .overflow
  else if row.eventId ∈ db.events.rows.map EventRow.eventId then .error .integrity
  else
    match db.events.insert? row with
    | none => .error .integrity
    | some events => .ok { db with events := events }

def updateProjection : Except DriverError SpikeDatabase :=
  let projection : CounterState :=
    ⟨writes.projection.value, writes.projection.revision⟩
  if !(fitsInt64 projection.value && fitsInt64 projection.revision) then
    .error .overflow
  else .ok { db with projection := db.projection.map fun _ => projection }

/-- The next number that AUTOINCREMENT gives; rows are never deleted. -/
def nextOutboxSequence : Nat :=
  (db.outbox.rows.map OutboxRow.sequence).foldl max 0 + 1

def insertOutbox : Except DriverError SpikeDatabase :=
  let sequence := nextOutboxSequence db
  if !fitsInt64 sequence then .error .full
  else
    match db.outbox.insert? ⟨sequence, writes.outbox.commandId,
        writes.outbox.effectType, writes.outbox.payloadJson⟩ with
    | none => .error .integrity
    | some outbox => .ok { db with outbox := outbox }

def insertReceipt : Except DriverError SpikeDatabase :=
  match db.receipts.insert? writes.receipt with
  | none => .error .integrity
  | some receipts => .ok { db with receipts := receipts }

/-- `COUNT(*)` of the rows that match. -/
def rowsProbe (count : Nat) : String := s!"rows={count}"

def revisionProbe : String :=
  let revision := (db.projection.map CounterState.revision).getD 0
  s!"revision={revision}"

/-- One statement between its two hooks; the hook after it probes the row that
was just written. -/
def around (position : Nat) (statement : Except DriverError SpikeDatabase)
    (probe : SpikeDatabase → String) : Except Raised SpikeDatabase := do
  (spec.raiseBefore position).mapError .injected
  let db ← statement.mapError .driver
  (spec.raiseAfter position (probe db)).mapError .injected
  return db

/-- The transaction of the five writes. -/
def transaction : Except Raised SpikeDatabase := do
  let db ← around spec writeInboxPosition (insertInbox db writes) fun db =>
    rowsProbe (db.inbox.rows.countP (·.commandId = writes.inbox.commandId))
  let db ← around spec writeEventPosition
    (insertEvent sha db writes (lastEventHash db)) fun db =>
    rowsProbe (db.events.rows.countP (·.eventId = writes.event.eventId))
  let db ← around spec writeProjectionPosition (updateProjection db writes)
    revisionProbe
  let db ← around spec writeOutboxPosition (insertOutbox db writes) fun db =>
    rowsProbe (db.outbox.rows.countP (·.commandId = writes.outbox.commandId))
  around spec writeReceiptPosition (insertReceipt db writes) fun db =>
    rowsProbe (db.receipts.rows.countP (·.commandId = writes.receipt.commandId))

end Statements

/-- `_translate`. -/
def translate : DriverError → PersistenceError
  | .full => ⟨.sqliteFull, messagePersistenceUnavailable⟩
  | _ => ⟨.unavailable, messagePersistenceUnavailable⟩

/-- A transaction that raises is rolled back. -/
def commitAcceptance (sha : Sha256) (s : SqliteControllerStore)
    (writes : AcceptanceWrites) :
    Except PersistenceError Unit × SqliteControllerStore :=
  match transaction sha s.faultSpec s.database writes with
  | .error (.injected fault) =>
      (.error ⟨.unavailable, messagePersistenceUnavailable⟩,
        { s with faultSpec := s.faultSpec.record fault })
  | .error (.driver error) => (.error (translate error), s)
  | .ok db => (.ok (), { s with database := db })

def findCommand (s : SqliteControllerStore) (commandId : String) :
    Option StoredCommand :=
  (s.database.inbox.find? commandId).map fun row =>
    ⟨row.payloadHash, row.receiptJson⟩

def loadCounter (s : SqliteControllerStore) : CounterState :=
  s.database.projection.getD ⟨0, 0⟩

def rebuildProjection (sha : Sha256) (s : SqliteControllerStore) :
    Except PersistenceError CounterState :=
  rebuildRows sha ((orderedEvents s.database).map EventRow.chainRow)

def audit (s : SqliteControllerStore) : StoreAudit where
  inboxCount := s.database.inbox.rows.length
  eventCount := s.database.events.rows.length
  outboxCount := s.database.outbox.rows.length
  receiptCount := s.database.receipts.rows.length
  projection := s.database.projection

/-- The adapter as the port of a controller. -/
def port (sha : Sha256) : ControllerPersistencePort SqliteControllerStore where
  findCommand s commandId := .ok (s.findCommand commandId)
  loadCounter s := .ok s.loadCounter
  commitAcceptance := commitAcceptance sha
  rebuildProjection := rebuildProjection sha
  audit s := .ok s.audit
  setHooks s before after := { s with faultSpec := s.faultSpec.setHooks before after }

end SqliteControllerStore

/-- The controller over the SQLite adapter. -/
def sqliteStep (codec : Codec) (sha : Sha256) :
    SqliteControllerStore → SpikeCall → SpikeAnswer × SqliteControllerStore :=
  step codec sha (SqliteControllerStore.port sha)

section Simulation

/-- Both transactions stop at the same fault, or both go through. -/
def Simulates (mem : Except InjectedFault InMemoryStore)
    (sql : Except Raised SpikeDatabase) (store : InMemoryStore)
    (db : SpikeDatabase) : Prop :=
  (∃ fault, mem = .error fault ∧ sql = .error (.injected fault)) ∨
    (mem = .ok store ∧ sql = .ok db)

theorem Simulates.bind {mem : Except InjectedFault InMemoryStore}
    {sql : Except Raised SpikeDatabase} {store final : InMemoryStore}
    {db finalDb : SpikeDatabase}
    {next : InMemoryStore → Except InjectedFault InMemoryStore}
    {nextDb : SpikeDatabase → Except Raised SpikeDatabase}
    (hfirst : Simulates mem sql store db)
    (hsecond : Simulates (next store) (nextDb db) final finalDb) :
    Simulates (mem >>= next) (sql >>= nextDb) final finalDb := by
  rcases hfirst with ⟨fault, rfl, rfl⟩ | ⟨rfl, rfl⟩
  · exact .inl ⟨fault, rfl, rfl⟩
  · exact hsecond

/-- A statement that succeeds and probes the same is the write of the other
adapter. -/
theorem simulates_around {spec : FaultSpec} {position : Nat} {probe : String}
    {written : InMemoryStore} {statement : Except DriverError SpikeDatabase}
    {db : SpikeDatabase} {sqlProbe : SpikeDatabase → String}
    (hstatement : statement = .ok db) (hprobe : sqlProbe db = probe) :
    Simulates (spec.around position probe written)
      (SqliteControllerStore.around spec position statement sqlProbe) written
      db := by
  subst hstatement
  by_cases hbefore : position ∈ spec.before
  · refine .inl ⟨⟨s!"injected fault before logical write {position}", []⟩, ?_, ?_⟩
    · simp only [FaultSpec.around, FaultSpec.raiseBefore, if_pos hbefore]
      rfl
    · simp only [SqliteControllerStore.around, FaultSpec.raiseBefore,
        if_pos hbefore]
      rfl
  · by_cases hafter : position ∈ spec.after
    · left
      refine ⟨⟨s!"injected fault after logical write {position}",
        [s!"after:write:{position}:probe:{probe}"]⟩, ?_, ?_⟩
      · simp only [FaultSpec.around, FaultSpec.raiseBefore, if_neg hbefore,
          FaultSpec.raiseAfter, if_pos hafter]
        rfl
      · simp only [SqliteControllerStore.around, FaultSpec.raiseBefore,
          if_neg hbefore, FaultSpec.raiseAfter, if_pos hafter, ← hprobe]
        rfl
    · right
      constructor
      · simp only [FaultSpec.around, FaultSpec.raiseBefore, if_neg hbefore,
          FaultSpec.raiseAfter, if_neg hafter]
        rfl
      · simp only [SqliteControllerStore.around, FaultSpec.raiseBefore,
          if_neg hbefore, FaultSpec.raiseAfter, if_neg hafter]
        rfl

/-- What the rows of one adapter are in the other. -/
structure Matches (sha : Sha256) (mem : InMemoryControllerStore)
    (sql : SqliteControllerStore) : Prop where
  faults : mem.faultSpec = sql.faultSpec
  inbox : mem.store.inbox.rows = sql.database.inbox.rows.map fun row =>
    (row.commandId, ⟨row.payloadHash, row.receiptJson⟩)
  events : mem.store.events = sql.database.events.rows
  projection : sql.database.projection = some mem.store.projection
  outbox : mem.store.outbox = sql.database.outbox.rows.map fun row =>
    ⟨row.commandId, row.effectType, row.payloadJson⟩
  receipts : mem.store.receipts.rows = sql.database.receipts.rows.map fun row =>
    (row.commandId, row.receiptJson)
  consistent : Consistent sha mem.store
  /-- Events and effects are numbered in order, from 1. -/
  numbered : sql.database.events.rows.map EventRow.sequence =
    List.range' 1 mem.store.events.length
  outboxNumbered : sql.database.outbox.rows.map OutboxRow.sequence =
    List.range' 1 mem.store.events.length
  /-- Effects belong to stored commands. -/
  named : ∀ row ∈ sql.database.outbox.rows,
    mem.store.inbox.get? row.commandId ≠ none

theorem matches_init (sha : Sha256) (spec : FaultSpec) :
    Matches sha (.init spec) (.init spec) where
  faults := rfl
  inbox := rfl
  events := rfl
  projection := rfl
  outbox := rfl
  receipts := rfl
  consistent := consistent_init sha
  numbered := rfl
  outboxNumbered := rfl
  named _ hmem := absurd hmem List.not_mem_nil

namespace Matches

variable {codec : Codec} {sha : Sha256} {mem : InMemoryControllerStore}
  {sql : SqliteControllerStore} {providers : Providers}
  {command : ControllerCommand} {writes : AcceptanceWrites}

theorem findCommand (h : Matches sha mem sql) (commandId : String) :
    mem.findCommand commandId = sql.findCommand commandId :=
  Dict.get?_of_rows h.inbox commandId

theorem loadCounter (h : Matches sha mem sql) :
    mem.store.projection = sql.loadCounter := by
  rw [SqliteControllerStore.loadCounter, h.projection]
  rfl

theorem orderedEvents (h : Matches sha mem sql) :
    SqliteControllerStore.orderedEvents sql.database = mem.store.events := by
  rw [h.events, SqliteControllerStore.orderedEvents]
  apply List.Pairwise.insertionSort_eq
  have hsorted : (sql.database.events.rows.map EventRow.sequence).Pairwise
      (· ≤ ·) := by
    rw [h.numbered]
    exact (List.pairwise_lt_range').imp le_of_lt
  exact List.pairwise_map.mp hsorted

theorem audit (h : Matches sha mem sql) : mem.audit = sql.audit := by
  simp only [InMemoryControllerStore.audit, SqliteControllerStore.audit, h.inbox,
    h.events, h.outbox, h.receipts, h.projection, List.length_map]

theorem rebuildProjection (h : Matches sha mem sql) :
    mem.rebuildProjection sha = sql.rebuildProjection sha := by
  rw [SqliteControllerStore.rebuildProjection, h.orderedEvents,
    InMemoryControllerStore.rebuildProjection, h.consistent.rebuildRow_eq]

theorem foldl_max_range' (n : Nat) : (List.range' 1 n).foldl max 0 = n := by
  induction n with
  | zero => rfl
  | succ n ih =>
      rw [List.range'_1_concat, List.foldl_append, ih]
      simp [Nat.add_comm]

theorem nextOutboxSequence (h : Matches sha mem sql) :
    SqliteControllerStore.nextOutboxSequence sql.database =
      mem.store.events.length + 1 := by
  rw [SqliteControllerStore.nextOutboxSequence, h.outboxNumbered,
    foldl_max_range']

theorem lastEventHash (h : Matches sha mem sql) :
    SqliteControllerStore.lastEventHash sql.database =
      InMemoryControllerStore.lastEventHash mem.store := by
  rw [SqliteControllerStore.lastEventHash, h.orderedEvents,
    InMemoryControllerStore.lastEventHash]

section Statements

variable (h : Matches sha mem sql)
  (hnew : mem.store.inbox.get? command.commandId = none)
  (hfollows : SpikeController.Follows codec providers command
    mem.store.projection writes)
include h hnew hfollows

/-- No inbox row has the id of the command. -/
theorem inbox_absent :
    sql.database.inbox.find? writes.inbox.commandId = none := by
  have hfound := Dict.get?_of_rows h.inbox command.commandId
  rw [hnew] at hfound
  rw [hfollows.inbox]
  exact Option.map_eq_none_iff.mp hfound.symm

theorem receipts_absent :
    sql.database.receipts.find? writes.receipt.commandId = none := by
  have hfound := Dict.get?_of_rows h.receipts command.commandId
  rw [h.consistent.keys _ hnew] at hfound
  rw [hfollows.receipt]
  exact Option.map_eq_none_iff.mp hfound.symm

theorem outbox_unnamed : ∀ row ∈ sql.database.outbox.rows,
    row.commandId ≠ writes.outbox.commandId := by
  intro row hmem hsame
  rw [hfollows.outbox] at hsame
  exact h.named row hmem (hsame ▸ hnew)

omit hnew in
theorem sequence_absent :
    sql.database.events.find? writes.event.sequence = none := by
  rw [Keyed.find?_eq_none_iff]
  intro row hmem hsame
  have hrange : row.sequence ∈ List.range' 1 mem.store.events.length := by
    rw [← h.numbered]
    exact List.mem_map_of_mem hmem
  rw [hsame, hfollows.sequence, h.consistent.revision, List.mem_range'_1] at hrange
  omega

omit hnew hfollows in
theorem outbox_absent : sql.database.outbox.find?
    (SqliteControllerStore.nextOutboxSequence sql.database) = none := by
  rw [Keyed.find?_eq_none_iff]
  intro row hmem hsame
  have hrange : row.sequence ∈ List.range' 1 mem.store.events.length := by
    rw [← h.outboxNumbered]
    exact List.mem_map_of_mem hmem
  rw [hsame, h.nextOutboxSequence, List.mem_range'_1] at hrange
  omega

end Statements

theorem countP_concat {R : Type} {rows : List R} {row : R} {p : R → Bool}
    (hold : ∀ other ∈ rows, p other = false) (hnew : p row = true) :
    (rows ++ [row]).countP p = 1 := by
  rw [List.countP_append, List.countP_singleton, if_pos hnew]
  have hzero : rows.countP p = 0 :=
    List.countP_eq_zero.mpr fun other hmem => by simp [hold other hmem]
  rw [hzero]

/-- A number within the canonical texts fits a column. -/
theorem fitsInt64_of_le {n : Nat} (hle : (n : Int) ≤ 9007199254740991) :
    fitsInt64 n = true := by
  simp only [fitsInt64, Bool.and_eq_true, decide_eq_true_eq]
  omega

/-- The tables with the five rows of a command. -/
structure Accepted (sha : Sha256) (writes : AcceptanceWrites)
    (db db' : SpikeDatabase) : Prop where
  inbox : db'.inbox.rows = db.inbox.rows ++
    [⟨writes.inbox.commandId, writes.inbox.payloadHash, writes.inbox.commandJson,
      writes.receipt.receiptJson, writes.inbox.recordedAt⟩]
  events : db'.events.rows = db.events.rows ++
    [⟨writes.event.sequence, writes.event.eventId, writes.event.pipelineRevision,
      SqliteControllerStore.lastEventHash db,
      chainHash sha (SqliteControllerStore.lastEventHash db)
        writes.event.sequence writes.event.payloadJson,
      writes.event.payloadJson⟩]
  projection : db'.projection = db.projection.map fun _ =>
    ⟨writes.projection.value, writes.projection.revision⟩
  outbox : db'.outbox.rows = db.outbox.rows ++
    [⟨SqliteControllerStore.nextOutboxSequence db, writes.outbox.commandId,
      writes.outbox.effectType, writes.outbox.payloadJson⟩]
  receipts : db'.receipts.rows = db.receipts.rows ++ [writes.receipt]

/-- The transaction follows the staged writes hook for hook. -/
theorem transaction_simulates (h : Matches sha mem sql)
    (hintegers : codec.RefusesLargeIntegers)
    (hnew : mem.store.inbox.get? command.commandId = none)
    (hfollows : SpikeController.Follows codec providers command
      mem.store.projection writes)
    (hfresh : writes.event.eventId ∉ mem.store.events.map EventRow.eventId) :
    ∃ db, Simulates
      (InMemoryControllerStore.stage sha mem.faultSpec mem.store writes)
      (SqliteControllerStore.transaction sha sql.faultSpec sql.database writes)
      (mem.store.accepted sha writes) db ∧
      Accepted sha writes sql.database db := by
  have hrevision : ((mem.store.projection.revision + 1 : Nat) : Int) ≤
      9007199254740991 :=
    hintegers _ _ "revision" _ hfollows.payload (by simp [CounterIncremented.payload])
  have hvalue : ((mem.store.projection.value + 1 : Nat) : Int) ≤
      9007199254740991 :=
    hintegers _ _ "value" _ hfollows.payload (by simp [CounterIncremented.payload])
  have hsequence : fitsInt64 writes.event.sequence = true := by
    rw [hfollows.sequence]
    exact fitsInt64_of_le hrevision
  have hpipeline : fitsInt64 writes.event.pipelineRevision = true := by
    rw [hfollows.pipelineRevision]
    exact fitsInt64_of_le hrevision
  have hvalueFits : fitsInt64 writes.projection.value = true := by
    rw [hfollows.value]
    exact fitsInt64_of_le hvalue
  have hrevisionFits : fitsInt64 writes.projection.revision = true := by
    rw [hfollows.revision]
    exact fitsInt64_of_le hrevision
  have hoffset : fitsInt64
      (SqliteControllerStore.nextOutboxSequence sql.database) = true := by
    rw [h.nextOutboxSequence, ← h.consistent.revision]
    exact fitsInt64_of_le hrevision
  obtain ⟨inbox, hinbox, hinboxRows⟩ := Keyed.insert?_of_absent
    (⟨writes.inbox.commandId, writes.inbox.payloadHash,
      writes.inbox.commandJson, writes.receipt.receiptJson,
      writes.inbox.recordedAt⟩ : InboxRow) (h.inbox_absent hnew hfollows)
  obtain ⟨events, hevents, heventsRows⟩ := Keyed.insert?_of_absent
    (⟨writes.event.sequence, writes.event.eventId,
      writes.event.pipelineRevision, SqliteControllerStore.lastEventHash sql.database,
      chainHash sha (SqliteControllerStore.lastEventHash sql.database)
        writes.event.sequence writes.event.payloadJson,
      writes.event.payloadJson⟩ : EventRow) (h.sequence_absent hfollows)
  obtain ⟨outbox, houtbox, houtboxRows⟩ := Keyed.insert?_of_absent
    (⟨SqliteControllerStore.nextOutboxSequence sql.database,
      writes.outbox.commandId, writes.outbox.effectType,
      writes.outbox.payloadJson⟩ : OutboxRow) h.outbox_absent
  obtain ⟨receipts, hreceipts, hreceiptsRows⟩ := Keyed.insert?_of_absent
    writes.receipt (h.receipts_absent hnew hfollows)
  let db₁ : SpikeDatabase := { sql.database with inbox := inbox }
  let db₂ : SpikeDatabase := { db₁ with events := events }
  let db₃ : SpikeDatabase := { db₂ with
    projection := db₂.projection.map fun _ =>
      (⟨writes.projection.value, writes.projection.revision⟩ : CounterState) }
  let db₄ : SpikeDatabase := { db₃ with outbox := outbox }
  let db₅ : SpikeDatabase := { db₄ with receipts := receipts }
  have hstatement₁ : SqliteControllerStore.insertInbox sql.database writes =
      .ok db₁ := by
    simp only [SqliteControllerStore.insertInbox, hinbox]
    rfl
  have hstatement₂ : SqliteControllerStore.insertEvent sha db₁ writes
      (SqliteControllerStore.lastEventHash db₁) = .ok db₂ := by
    have hids : writes.event.eventId ∉
        db₁.events.rows.map EventRow.eventId := by
      change _ ∉ sql.database.events.rows.map EventRow.eventId
      rw [← h.events]
      exact hfresh
    have hinsert : db₁.events.insert? ⟨writes.event.sequence, writes.event.eventId,
        writes.event.pipelineRevision, SqliteControllerStore.lastEventHash db₁,
        chainHash sha (SqliteControllerStore.lastEventHash db₁)
          writes.event.sequence writes.event.payloadJson,
        writes.event.payloadJson⟩ = some events := hevents
    simp only [SqliteControllerStore.insertEvent, hsequence, hpipeline,
      Bool.and_self, Bool.not_true, Bool.false_eq_true, if_false, if_neg hids,
      hinsert]
    rfl
  have hstatement₃ : SqliteControllerStore.updateProjection db₂ writes =
      .ok db₃ := by
    simp only [SqliteControllerStore.updateProjection, hvalueFits, hrevisionFits,
      Bool.and_self, Bool.not_true, Bool.false_eq_true, if_false]
    rfl
  have hstatement₄ : SqliteControllerStore.insertOutbox db₃ writes = .ok db₄ := by
    have hnext : SqliteControllerStore.nextOutboxSequence db₃ =
      SqliteControllerStore.nextOutboxSequence sql.database := rfl
    have hinsert : db₃.outbox.insert? ⟨SqliteControllerStore.nextOutboxSequence
        sql.database, writes.outbox.commandId, writes.outbox.effectType,
        writes.outbox.payloadJson⟩ = some outbox := houtbox
    simp only [SqliteControllerStore.insertOutbox, hnext, hoffset, Bool.not_true,
      Bool.false_eq_true, if_false, hinsert]
    rfl
  have hstatement₅ : SqliteControllerStore.insertReceipt db₄ writes = .ok db₅ := by
    have hinsert : db₄.receipts.insert? writes.receipt = some receipts := hreceipts
    simp only [SqliteControllerStore.insertReceipt, hinsert]
    rfl
  refine ⟨db₅, ?_, ⟨hinboxRows, heventsRows, rfl, houtboxRows, hreceiptsRows⟩⟩
  -- every hook after a write sees exactly the row of this command
  have hprobe₁ : db₁.inbox.rows.countP
      (fun row => row.commandId = writes.inbox.commandId) = 1 := by
    rw [hinboxRows]
    refine countP_concat (fun row hmem => ?_) (by simp)
    simpa using (Keyed.find?_eq_none_iff _ _).mp (h.inbox_absent hnew hfollows) row hmem
  have hprobe₂ : db₂.events.rows.countP
      (fun row => row.eventId = writes.event.eventId) = 1 := by
    rw [heventsRows]
    refine countP_concat (fun row hmem => ?_) (by simp)
    rw [h.events] at hfresh
    have hne : row.eventId ≠ writes.event.eventId := fun hsame =>
      hfresh (hsame ▸ List.mem_map_of_mem hmem)
    simpa using hne
  have hprobe₄ : db₄.outbox.rows.countP
      (fun row => row.commandId = writes.outbox.commandId) = 1 := by
    rw [houtboxRows]
    refine countP_concat (fun row hmem => ?_) (by simp)
    simpa using h.outbox_unnamed hnew hfollows row hmem
  have hprobe₅ : db₅.receipts.rows.countP
      (fun row => row.commandId = writes.receipt.commandId) = 1 := by
    rw [hreceiptsRows]
    refine countP_concat (fun row hmem => ?_) (by simp)
    simpa using (Keyed.find?_eq_none_iff _ _).mp
      (h.receipts_absent hnew hfollows) row hmem
  have hone : SqliteControllerStore.rowsProbe 1 = "rows=1" := by decide
  have hprojected : db₃.projection =
      some ⟨writes.projection.value, writes.projection.revision⟩ := by
    change sql.database.projection.map _ = _
    rw [h.projection]
    rfl
  have hprobe₃ : SqliteControllerStore.revisionProbe db₃ =
      "revision=" ++ toString writes.projection.revision := by
    simp only [SqliteControllerStore.revisionProbe, hprojected]
    rfl
  rw [h.faults]
  refine (simulates_around hstatement₁ (by rw [hprobe₁, hone])).bind
    (Simulates.bind (simulates_around hstatement₂ (by rw [hprobe₂, hone]))
      (Simulates.bind (simulates_around hstatement₃ hprobe₃)
        (Simulates.bind (simulates_around hstatement₄ (by rw [hprobe₄, hone]))
          (simulates_around hstatement₅ (by rw [hprobe₅, hone])))))

/-- The rows of an accepted command match again. -/
theorem accepted (h : Matches sha mem sql) {db : SpikeDatabase}
    (hnew : mem.store.inbox.get? command.commandId = none)
    (hfollows : SpikeController.Follows codec providers command
      mem.store.projection writes)
    (haccepted : Accepted sha writes sql.database db) :
    Matches sha { mem with store := mem.store.accepted sha writes }
      { sql with database := db } where
  faults := h.faults
  inbox := by
    have habsent : mem.store.inbox.get? writes.inbox.commandId = none := by
      rw [hfollows.inbox]
      exact hnew
    simp only [InMemoryStore.accepted, haccepted.inbox, List.map_append,
      Dict.set_rows_of_absent habsent, h.inbox]
    rfl
  events := by
    simp only [InMemoryStore.accepted, haccepted.events, h.lastEventHash, h.events]
  projection := by
    rw [haccepted.projection, h.projection]
    rfl
  outbox := by
    simp only [InMemoryStore.accepted, haccepted.outbox, List.map_append, h.outbox]
    rfl
  receipts := by
    have habsent : mem.store.receipts.get? writes.receipt.commandId = none := by
      rw [hfollows.receipt]
      exact h.consistent.keys _ hnew
    simp only [InMemoryStore.accepted, haccepted.receipts, List.map_append,
      Dict.set_rows_of_absent habsent, h.receipts]
    rfl
  consistent := h.consistent.accepted hnew hfollows
  numbered := by
    simp only [InMemoryStore.accepted, haccepted.events, List.map_append,
      h.numbered, List.length_append, List.length_singleton, List.range'_1_concat,
      hfollows.sequence, h.consistent.revision, List.map_singleton, Nat.add_comm]
  outboxNumbered := by
    simp only [InMemoryStore.accepted, haccepted.outbox, List.map_append,
      h.outboxNumbered, List.length_append, List.length_singleton,
      List.range'_1_concat, h.nextOutboxSequence, List.map_singleton, Nat.add_comm]
  named := by
    intro row hmem
    simp only [haccepted.outbox, List.mem_append, List.mem_singleton] at hmem
    simp only [InMemoryStore.accepted, Dict.get?_set]
    split
    · exact Option.some_ne_none _
    · rename_i hother
      rcases hmem with hold | rfl
      · exact h.named row hold
      · exact absurd (hfollows.outbox.trans hfollows.inbox.symm) hother

/-- Both adapters commit a command that follows, or stop at the same fault. -/
theorem commit (h : Matches sha mem sql)
    (hintegers : codec.RefusesLargeIntegers)
    (hnew : mem.store.inbox.get? command.commandId = none)
    (hfollows : SpikeController.Follows codec providers command
      mem.store.projection writes)
    (hfresh : writes.event.eventId ∉ mem.store.events.map EventRow.eventId) :
    (mem.commitAcceptance sha writes).1 = (sql.commitAcceptance sha writes).1 ∧
      Matches sha (mem.commitAcceptance sha writes).2
        (sql.commitAcceptance sha writes).2 := by
  obtain ⟨db, hsimulates, haccepted⟩ :=
    h.transaction_simulates hintegers hnew hfollows hfresh
  rcases hsimulates with ⟨fault, hmem, hsql⟩ | ⟨hmem, hsql⟩
  · simp only [InMemoryControllerStore.commitAcceptance, hmem,
      SqliteControllerStore.commitAcceptance, hsql]
    exact ⟨trivial, { h with faults := congrArg (·.record fault) h.faults }⟩
  · simp only [InMemoryControllerStore.commitAcceptance, hmem,
      SqliteControllerStore.commitAcceptance, hsql]
    exact ⟨trivial, h.accepted hnew hfollows haccepted⟩

end Matches

/-- The event ids that the providers of the submits give. -/
def eventIds (calls : List SpikeCall) : List String :=
  calls.filterMap fun call =>
    match call with
    | .submit providers _ => providers.newEventId
    | _ => none

/-- The stored event ids are among those used before. -/
def UsesIds (used : List String) (mem : InMemoryControllerStore) : Prop :=
  ∀ id ∈ mem.store.events.map EventRow.eventId, id ∈ used

section Runs

variable {codec : Codec} {sha : Sha256} {mem : InMemoryControllerStore}
  {sql : SqliteControllerStore}

/-- One call is answered alike and keeps the correspondence. -/
theorem matches_step {used : List String} (hintegers : codec.RefusesLargeIntegers)
    (h : Matches sha mem sql) (hused : UsesIds used mem) (call : SpikeCall)
    (hfresh : ∀ id ∈ eventIds [call], id ∉ used) :
    (memoryStep codec sha mem call).1 = (sqliteStep codec sha sql call).1 ∧
      Matches sha (memoryStep codec sha mem call).2
        (sqliteStep codec sha sql call).2 ∧
      UsesIds (used ++ eventIds [call]) (memoryStep codec sha mem call).2 := by
  have hkept : ∀ mem' : InMemoryControllerStore,
      mem'.store.events = mem.store.events →
        UsesIds (used ++ eventIds [call]) mem' := fun mem' hsame id hmem =>
    List.mem_append_left _ (hused id (hsame ▸ hmem))
  cases call with
  | rebuildProjection =>
      exact ⟨congrArg SpikeAnswer.rebuilt h.rebuildProjection, h, hkept mem rfl⟩
  | audit =>
      exact ⟨congrArg (fun audit => SpikeAnswer.audited (.ok audit)) h.audit, h,
        hkept mem rfl⟩
  | setHooks before after =>
      exact ⟨rfl, { h with faults := congrArg (·.setHooks before after) h.faults },
        hkept _ rfl⟩
  | submit providers command =>
      obtain ⟨hanswer, hrelated⟩ := SpikeController.submitImpl_congr codec sha
        providers command (InMemoryControllerStore.port sha)
        (SqliteControllerStore.port sha) mem sql
        (R := fun mem' sql' => Matches sha mem' sql' ∧
          UsesIds (used ++ eventIds [.submit providers command]) mem')
        (congrArg Except.ok (h.findCommand command.commandId))
        (congrArg Except.ok h.loadCounter) ⟨h, hkept mem rfl⟩
        (fun state writes hfind hload hfollows => by
          have hstate : mem.store.projection = state := Except.ok.inj hload
          subst hstate
          have hnew : mem.store.inbox.get? command.commandId = none :=
            Except.ok.inj hfind
          have hid : writes.event.eventId ∈
              eventIds [.submit providers command] := by
            simp [eventIds, hfollows.eventId]
          obtain ⟨hsame, hmatches⟩ := h.commit hintegers hnew hfollows
            fun hstored => hfresh _ hid (hused _ hstored)
          refine ⟨hsame, congrArg Except.ok hmatches.loadCounter, hmatches, ?_⟩
          change UsesIds _ (mem.commitAcceptance sha writes).2
          rcases commitAcceptance_cases sha mem writes with
            ⟨-, hstored⟩ | ⟨-, spec, hfailed⟩
          · rw [hstored]
            intro id hmem
            simp only [InMemoryStore.accepted, List.map_append, List.map_singleton,
              List.mem_append, List.mem_singleton] at hmem
            rcases hmem with hold | rfl
            · exact List.mem_append_left _ (hused id hold)
            · exact List.mem_append_right _ hid
          · rw [hfailed]
            exact hkept _ rfl)
      exact ⟨congrArg SpikeAnswer.submitted hanswer, hrelated.1, hrelated.2⟩

/-- A run is answered alike and keeps the correspondence. -/
theorem matches_run (sha : Sha256) (used : List String)
    (hintegers : codec.RefusesLargeIntegers)
    (h : Matches sha mem sql) (hused : UsesIds used mem) (calls : List SpikeCall)
    (hfresh : (used ++ eventIds calls).Nodup) :
    answers (memoryStep codec sha) mem calls =
      answers (sqliteStep codec sha) sql calls ∧
      Matches sha (exec (memoryStep codec sha) mem calls)
        (exec (sqliteStep codec sha) sql calls) := by
  induction calls generalizing mem sql used with
  | nil => exact ⟨rfl, h⟩
  | cons call rest ih =>
      have hsplit : eventIds (call :: rest) = eventIds [call] ++ eventIds rest :=
        List.filterMap_append (l := [call])
      rw [hsplit, ← List.append_assoc] at hfresh
      have hdisjoint : ∀ id ∈ eventIds [call], id ∉ used := fun id hid hold =>
        List.disjoint_of_nodup_append
          (hfresh.sublist (List.sublist_append_left _ _)) hold hid
      obtain ⟨hanswer, hmatches, hused'⟩ :=
        matches_step hintegers h hused call hdisjoint
      obtain ⟨hanswers, hfinal⟩ := ih _ hmatches hused' hfresh
      exact ⟨by rw [answers, answers, hanswer, hanswers], hfinal⟩

end Runs

end Simulation

/-- Over the same calls with fresh event ids, the two adapters give the same
receipts, errors, audits and rebuilt counters, and store the same chain. -/
theorem spike_stores_agree (codec : Codec) (sha : Sha256)
    (hintegers : codec.RefusesLargeIntegers) (spec : FaultSpec)
    (calls : List SpikeCall) (hfresh : (eventIds calls).Nodup) :
    answers (memoryStep codec sha) (.init spec) calls =
      answers (sqliteStep codec sha) (.init spec) calls ∧
    (exec (memoryStep codec sha) (.init spec) calls).store.events.map
        EventRow.chainRow =
      (SqliteControllerStore.orderedEvents
        (exec (sqliteStep codec sha) (.init spec) calls).database).map
          EventRow.chainRow := by
  obtain ⟨hanswers, hmatches⟩ := matches_run sha [] hintegers
    (matches_init sha spec) (fun _ hmem => absurd hmem List.not_mem_nil) calls hfresh
  exact ⟨hanswers, by rw [hmatches.orderedEvents]⟩

/-! Two increments, a fault after the second write, and a replay. -/

namespace SpikeWitness

open ReferenceCodec

/-- The whole numbers among the members are within `2^53 - 1`. -/
def withinDomain : Json → Bool
  | .obj members => members.all fun member =>
      match member.2 with
      | .int n => decide (-9007199254740991 ≤ n ∧ n ≤ 9007199254740991)
      | _ => true
  | _ => true

def codec : Codec :=
  { referenceCodec id with
    canonicalJson := fun value =>
      if withinDomain value then (referenceCodec id).canonicalJson value else none }

theorem codec_refusesLargeIntegers : codec.RefusesLargeIntegers := by
  intro members text name n htext hmem
  by_cases hwithin : withinDomain (.obj members) = true
  · have hmember := List.all_eq_true.mp hwithin _ hmem
    exact (of_decide_eq_true hmember).2
  · simp [codec, hwithin] at htext

def providers (eventId : String) : Providers where
  clock _ := some "2026-08-06T00:00:00Z"
  newEventId := some eventId

def delta : Dict String Json := .set .empty "delta" (.int 1)

def first : ControllerCommand :=
  sampleCommand "cmd_one" "COUNTER_INCREMENT" 0 delta

def second : ControllerCommand :=
  sampleCommand "cmd_two" "COUNTER_INCREMENT" 1 delta

def calls : List SpikeCall :=
  [.submit (providers "evt_1") first, .setHooks [] [2],
    .submit (providers "evt_2") second, .setHooks [] [],
    .submit (providers "evt_3") second, .submit (providers "evt_4") first,
    .rebuildProjection, .audit]

theorem stores_agree_on_calls :
    (answers (memoryStep codec EventChainWitness.sha) (.init {}) calls =
      answers (sqliteStep codec EventChainWitness.sha) (.init {}) calls ∧
    (exec (memoryStep codec EventChainWitness.sha) (.init {}) calls).store.events.map
        EventRow.chainRow =
      (SqliteControllerStore.orderedEvents
        (exec (sqliteStep codec EventChainWitness.sha) (.init {})
          calls).database).map EventRow.chainRow) ∧
    (exec (memoryStep codec EventChainWitness.sha) (.init {})
      calls).store.events.length = 2 :=
  ⟨spike_stores_agree codec EventChainWitness.sha codec_refusesLargeIntegers {} calls
    (by decide +kernel), by decide +kernel⟩

end SpikeWitness

end Spike

end HermesPipeline
