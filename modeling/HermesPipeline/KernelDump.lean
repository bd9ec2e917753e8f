/-
The dump of a kernel store: the document the memory store writes, the tables that
are loaded from it with the defaults of every field, and their import into an
SQLite database.  A document may hold what no store does, such as a negative
revision; the loaded tables have room for it.
-/
import HermesPipeline.Descriptor
import HermesPipeline.StoreRefinement

namespace HermesPipeline

open Lib KernelController

/-- A dumped row, as the object of its fields. -/
abbrev DumpItem := List (String × Json)

/-! ### `asdict` of the records -/

def InboxRecord.asdict (record : InboxRecord) : DumpItem :=
  [("workspace_id", .str record.workspaceId),
    ("command_id", .str record.commandId),
    ("command_fingerprint", .str record.commandFingerprint),
    ("receipt_json", .str record.receiptJson)]

def EventWrite.asdict (event : EventWrite) : DumpItem :=
  [("event_id", .str event.eventId),
    ("workspace_id", .str event.workspaceId),
    ("pipeline_id", .str event.pipelineId),
    ("event_type", .str event.eventType),
    ("payload_json", .str event.payloadJson),
    ("pipeline_revision", .int event.pipelineRevision)]

def PipelineSnapshot.asdict (snapshot : PipelineSnapshot) : DumpItem :=
  [("workspace_id", .str snapshot.workspaceId),
    ("pipeline_id", .str snapshot.pipelineId),
    ("status", .str snapshot.status),
    ("revision", .int snapshot.revision),
    ("text", .str snapshot.text)]

def OutboxRecord.asdict (record : OutboxRecord) : DumpItem :=
  [("workspace_id", .str record.workspaceId),
    ("command_id", .str record.commandId),
    ("effect_type", .str record.effectType),
    ("payload_json", .str record.payloadJson),
    ("delivery_receipt_json",
      (record.deliveryReceiptJson.map Json.str).getD .null)]

def LeaseRecord.asdict (record : LeaseRecord) : DumpItem :=
  [("workspace_id", .str record.workspaceId),
    ("pipeline_id", .str record.pipelineId),
    ("attempt_id", .str record.attemptId),
    ("run_id", .str record.runId),
    ("holder", .str record.holder),
    ("generation", .int record.generation),
    ("expires_at", .int record.expiresAt)]

/-- `MemoryKernelStore.dump`. -/
def MemoryKernelStore.dump (s : MemoryKernelStore) : DumpItem :=
  let rows (items : List DumpItem) : Json := .arr (items.map .obj)
  [("inbox", rows (s.inbox.values.map InboxRecord.asdict)),
    ("events", rows (s.events.map EventWrite.asdict)),
    ("pipelines", rows (s.pipelines.values.map PipelineSnapshot.asdict)),
    ("outbox", rows (s.outbox.values.map OutboxRecord.asdict)),
    ("leases", rows (s.leases.values.map LeaseRecord.asdict))]

/-! ### Loading a document -/

/-- `_rows`: what is no object is skipped. -/
def dumpRows : Option Json → List DumpItem
  | some (.arr items) => items.filterMap fun
      | .obj members => some members
      | _ => none
  | _ => []

/-- `int(item.get(name, fallback) or fallback)`; `none` stands for a raised
error. -/
def intOr (fallback : Int) (value : Option Json) : Option Int :=
  match value.filter Descriptor.truthy with
  | none => some fallback
  | some present => Descriptor.loadNumber (some present)

/-- An `EventWrite` as it is loaded, with whatever integer `int` reads. -/
structure LoadedEvent where
  eventId : String
  workspaceId : String
  pipelineId : String
  eventType : String
  payloadJson : String
  pipelineRevision : Int
deriving DecidableEq

/-- A `PipelineSnapshot` as it is loaded. -/
structure LoadedSnapshot where
  workspaceId : String
  pipelineId : String
  status : String
  revision : Int
  text : String
deriving DecidableEq

def LoadedSnapshot.key (snapshot : LoadedSnapshot) : String × String :=
  (snapshot.workspaceId, snapshot.pipelineId)

def EventWrite.loaded (event : EventWrite) : LoadedEvent where
  eventId := event.eventId
  workspaceId := event.workspaceId
  pipelineId := event.pipelineId
  eventType := event.eventType
  payloadJson := event.payloadJson
  pipelineRevision := event.pipelineRevision

def PipelineSnapshot.loaded (snapshot : PipelineSnapshot) : LoadedSnapshot where
  workspaceId := snapshot.workspaceId
  pipelineId := snapshot.pipelineId
  status := snapshot.status
  revision := snapshot.revision
  text := snapshot.text

theorem EventWrite.loaded_injective : Function.Injective EventWrite.loaded := by
  rintro ⟨⟩ ⟨⟩ hsame
  simp only [loaded, LoadedEvent.mk.injEq, Int.natCast_inj] at hsame
  simpa using hsame

theorem PipelineSnapshot.loaded_injective :
    Function.Injective PipelineSnapshot.loaded := by
  rintro ⟨⟩ ⟨⟩ hsame
  simp only [loaded, LoadedSnapshot.mk.injEq, Int.natCast_inj] at hsame
  simpa using hsame

/-- The tables of a loaded memory store. -/
structure LoadedStore where
  inbox : Dict (String × String) InboxRecord
  events : List LoadedEvent
  pipelines : Dict (String × String) LoadedSnapshot
  outbox : Dict (String × String) OutboxRecord
  leases : Dict (String × String) LeaseRecord

/-- The tables of a memory store, as they are loaded. -/
def MemoryKernelStore.loaded (s : MemoryKernelStore) : LoadedStore where
  inbox := s.inbox
  events := s.events.map EventWrite.loaded
  pipelines := s.pipelines.mapValues PipelineSnapshot.loaded
  outbox := s.outbox
  leases := s.leases

/-- Stores with the same tables when loaded have the same tables. -/
theorem MemoryKernelStore.tables_eq_of_loaded {s s' : MemoryKernelStore}
    (hsame : s.loaded = s'.loaded) : s.tables = s'.tables := by
  simp only [loaded, LoadedStore.mk.injEq] at hsame
  obtain ⟨hinbox, hevents, hpipelines, houtbox, hleases⟩ := hsame
  simp only [tables, hinbox, houtbox, hleases,
    List.map_injective_iff.mpr EventWrite.loaded_injective hevents,
    Dict.mapValues_injective PipelineSnapshot.loaded_injective hpipelines]

/-- The tables of an SQLite database; its INTEGER columns hold any sign. -/
structure Database where
  inbox : Keyed InboxRecord.key
  events : Keyed LoadedEvent.eventId
  pipelines : Keyed LoadedSnapshot.key
  outbox : Keyed OutboxRecord.key
  leases : Keyed LeaseRecord.key
deriving DecidableEq

def Database.empty : Database := ⟨.empty, .empty, .empty, .empty, .empty⟩

/-- The tables of a database as those of a loaded memory store. -/
def Database.loaded (d : Database) : LoadedStore where
  inbox := d.inbox.toDict
  events := d.events.rows
  pipelines := d.pipelines.toDict
  outbox := d.outbox.toDict
  leases := d.leases.toDict

/-- The database of an SQLite store. -/
def SqliteKernelStore.database (s : SqliteKernelStore) : Database where
  inbox := s.inbox
  events :=
    { rows := s.events.rows.map EventWrite.loaded
      unique := by
        rw [List.map_map]
        exact s.events.unique }
  pipelines :=
    { rows := s.pipelines.rows.map PipelineSnapshot.loaded
      unique := by
        rw [List.map_map]
        exact s.pipelines.unique }
  outbox := s.outbox
  leases := s.leases

theorem SqliteKernelStore.database_loaded (s : SqliteKernelStore) :
    s.database.loaded = s.asMemory.loaded := by
  simp only [Database.loaded, database, MemoryKernelStore.loaded, asMemory,
    LoadedStore.mk.injEq, true_and, and_true]
  apply Keyed.ext
  simp only [Keyed.toDict_rows, Dict.mapValues_rows, List.map_map]
  rfl

section Load

variable (codec : Codec)

/-- `str(item.get(name, ""))`. -/
def textOf (item : DumpItem) (name : String) : String :=
  codec.str ((Json.member? item name).getD (.str ""))

def InboxRecord.load (item : DumpItem) : Option InboxRecord :=
  some
    { workspaceId := textOf codec item "workspace_id"
      commandId := textOf codec item "command_id"
      commandFingerprint := textOf codec item "command_fingerprint"
      receiptJson := textOf codec item "receipt_json" }

def LoadedEvent.load (item : DumpItem) : Option LoadedEvent :=
  (intOr 0 (Json.member? item "pipeline_revision")).map fun revision =>
    { eventId := textOf codec item "event_id"
      workspaceId := textOf codec item "workspace_id"
      pipelineId := textOf codec item "pipeline_id"
      eventType := textOf codec item "event_type"
      payloadJson := textOf codec item "payload_json"
      pipelineRevision := revision }

def LoadedSnapshot.load (item : DumpItem) : Option LoadedSnapshot :=
  (intOr 0 (Json.member? item "revision")).map fun revision =>
    { workspaceId := textOf codec item "workspace_id"
      pipelineId := textOf codec item "pipeline_id"
      status := textOf codec item "status"
      revision := revision
      text := textOf codec item "text" }

/-- `str(receipt) if receipt is not None else None`. -/
def receiptOf : Option Json → Option String
  | none => none
  | some .null => none
  | some receipt => some (codec.str receipt)

def OutboxRecord.load (item : DumpItem) : Option OutboxRecord :=
  some
    { workspaceId := textOf codec item "workspace_id"
      commandId := textOf codec item "command_id"
      effectType := textOf codec item "effect_type"
      payloadJson := textOf codec item "payload_json"
      deliveryReceiptJson :=
        receiptOf codec (Json.member? item "delivery_receipt_json") }

/-- The generation is `max(1, …)`. -/
def LeaseRecord.load (item : DumpItem) : Option LeaseRecord := do
  let generation ← intOr 1 (Json.member? item "generation")
  let expiresAt ← intOr 0 (Json.member? item "expires_at")
  return {
    workspaceId := textOf codec item "workspace_id"
    pipelineId := textOf codec item "pipeline_id"
    attemptId := textOf codec item "attempt_id"
    runId := textOf codec item "run_id"
    holder := textOf codec item "holder"
    generation := max 1 generation.toNat
    expiresAt := expiresAt
    generation_pos := le_max_left 1 _ }

/-- The records of one table, in document order. -/
def loadRecords {R : Type} (load : DumpItem → Option R) (table : Option Json) :
    Option (List R) :=
  (dumpRows table).mapM load

/-- File every record under its key; a later one replaces an earlier one. -/
def fileRecords {R : Type} (key : R → String × String) (records : List R) :
    Dict (String × String) R :=
  Dict.update .empty (records.map fun record => (key record, record))

/-- `MemoryKernelStore.load`. -/
def MemoryKernelStore.load (document : DumpItem) : Option LoadedStore := do
  let inbox ← loadRecords (InboxRecord.load codec)
    (Json.member? document "inbox")
  let events ← loadRecords (LoadedEvent.load codec)
    (Json.member? document "events")
  let pipelines ← loadRecords (LoadedSnapshot.load codec)
    (Json.member? document "pipelines")
  let outbox ← loadRecords (OutboxRecord.load codec)
    (Json.member? document "outbox")
  let leases ← loadRecords (LeaseRecord.load codec)
    (Json.member? document "leases")
  return {
    inbox := fileRecords InboxRecord.key inbox
    events := events
    pipelines := fileRecords LoadedSnapshot.key pipelines
    outbox := fileRecords OutboxRecord.key outbox
    leases := fileRecords LeaseRecord.key leases }

/-- The inserts of `import_dump`, in one transaction; `none` when one of them
breaks a primary key or its integer cannot be bound. -/
def Database.insertDump (d : Database) (payload : LoadedStore) : Option Database := do
  let inbox ← d.inbox.insertAll? (fun _ => true) payload.inbox.values
  let events ← d.events.insertAll?
    (fun event => fitsInt64 event.pipelineRevision) payload.events
  let pipelines ← d.pipelines.insertAll?
    (fun snapshot => fitsInt64 snapshot.revision) payload.pipelines.values
  let outbox ← d.outbox.insertAll? (fun _ => true) payload.outbox.values
  let leases ← d.leases.insertAll?
    (fun record => fitsInt64 record.generation && fitsInt64 record.expiresAt)
    payload.leases.values
  return ⟨inbox, events, pipelines, outbox, leases⟩

/-- `SqliteKernelStore.import_dump`: the rows that are inserted are those of
`MemoryKernelStore.load(document).dump()`.  The load is done before the
transaction and its error is raised as it is. -/
def importDump (document : DumpItem) (d : Database) :
    Except PyError Unit × Database :=
  match MemoryKernelStore.load codec document with
  | none => (.error .value, d)
  | some payload =>
      match d.insertDump payload with
      | none => (.error .persistence, d)
      | some imported => (.ok (), imported)

end Load

/-! ### Every record survives the dump -/

section RoundTrip

variable {codec : Codec}

theorem InboxRecord.load_asdict (record : InboxRecord) :
    InboxRecord.load codec record.asdict = some record := by
  simp [InboxRecord.load, asdict, textOf, Json.member?, Codec.str]

/-- Zero is the default, and no other number is. -/
theorem intOr_dumped (n : Int) : intOr 0 (some (.int n)) = some n := by
  by_cases hzero : n = 0
  · subst hzero
    rfl
  · simp [intOr, Option.filter, Descriptor.truthy, hzero, Descriptor.loadNumber]

theorem EventWrite.load_asdict (event : EventWrite) :
    LoadedEvent.load codec event.asdict = some event.loaded := by
  simp [LoadedEvent.load, asdict, textOf, Json.member?, Codec.str, intOr_dumped,
    loaded]

theorem PipelineSnapshot.load_asdict (snapshot : PipelineSnapshot) :
    LoadedSnapshot.load codec snapshot.asdict = some snapshot.loaded := by
  simp [LoadedSnapshot.load, asdict, textOf, Json.member?, Codec.str, intOr_dumped,
    loaded]

theorem OutboxRecord.load_asdict (record : OutboxRecord) :
    OutboxRecord.load codec record.asdict = some record := by
  rcases record with ⟨ws, cmd, effect, payload, _ | receipt⟩ <;>
    simp [OutboxRecord.load, asdict, textOf, Json.member?, Codec.str, receiptOf]

theorem LeaseRecord.load_asdict (record : LeaseRecord) :
    LeaseRecord.load codec record.asdict = some record := by
  rcases record with ⟨ws, pl, attempt, run, holder, generation, expiresAt, hpos⟩
  have hne : generation ≠ 0 := Nat.one_le_iff_ne_zero.mp hpos
  have hgeneration : intOr 1 (some (.int generation)) = some (generation : Int) := by
    simp [intOr, Option.filter, Descriptor.truthy, hne, Descriptor.loadNumber]
  simp [LeaseRecord.load, asdict, textOf, Json.member?, Codec.str, hgeneration,
    intOr_dumped, hpos]

theorem loadRecords_dumped {R S : Type} {load : DumpItem → Option S}
    {asdict : R → DumpItem} (loaded : R → S)
    (hload : ∀ record, load (asdict record) = some (loaded record))
    (records : List R) :
    loadRecords load (some (.arr ((records.map asdict).map .obj))) =
      some (records.map loaded) := by
  have hrows : dumpRows (some (.arr ((records.map asdict).map .obj))) =
      records.map asdict := by
    simp only [dumpRows, List.filterMap_map]
    exact congrFun (List.filterMap_eq_map (f := asdict)) records
  rw [loadRecords, hrows]
  clear hrows
  induction records with
  | nil => rfl
  | cons record rest ih => simp [hload, ih]

/-- Every record is stored under its own key. -/
structure MemoryKernelStore.Indexed (s : MemoryKernelStore) : Prop where
  inbox : s.inbox.KeyedBy InboxRecord.key
  pipelines : s.pipelines.KeyedBy PipelineSnapshot.key
  outbox : s.outbox.KeyedBy OutboxRecord.key
  leases : s.leases.KeyedBy LeaseRecord.key

namespace MemoryKernelStore

variable {s : MemoryKernelStore}

theorem indexed_init : Indexed .init :=
  ⟨Dict.keyedBy_empty, Dict.keyedBy_empty, Dict.keyedBy_empty,
    Dict.keyedBy_empty⟩

/-- Loading the dump of an indexed store gives its tables. -/
theorem Indexed.load_dump (hindexed : s.Indexed) :
    load codec s.dump = some s.loaded := by
  have hinbox := loadRecords_dumped id (@InboxRecord.load_asdict codec)
    s.inbox.values
  have hevents := loadRecords_dumped _ (@EventWrite.load_asdict codec) s.events
  have hpipelines := loadRecords_dumped _ (@PipelineSnapshot.load_asdict codec)
    s.pipelines.values
  have houtbox := loadRecords_dumped id (@OutboxRecord.load_asdict codec)
    s.outbox.values
  have hleases := loadRecords_dumped id (@LeaseRecord.load_asdict codec)
    s.leases.values
  have hfiled : fileRecords LoadedSnapshot.key
      (s.pipelines.values.map PipelineSnapshot.loaded) =
        s.pipelines.mapValues PipelineSnapshot.loaded := by
    have hkeyed : (s.pipelines.mapValues PipelineSnapshot.loaded).KeyedBy
        LoadedSnapshot.key := hindexed.pipelines.mapValues fun _ => rfl
    rw [fileRecords, ← Dict.values_mapValues]
    exact hkeyed.update_values
  rw [List.map_id] at hinbox houtbox hleases
  rw [fileRecords] at hfiled
  simp [-List.map_map, load, dump, Json.member?, hinbox, hevents, hpipelines,
    houtbox, hleases, hfiled, fileRecords, loaded, hindexed.inbox.update_values,
    hindexed.outbox.update_values, hindexed.leases.update_values]

theorem Indexed.commitAccepted (hindexed : s.Indexed) (write : AcceptedWrite) :
    (s.commitAccepted write).2.Indexed := by
  unfold MemoryKernelStore.commitAccepted
  split
  · exact ⟨hindexed.inbox, hindexed.pipelines, hindexed.outbox, hindexed.leases⟩
  · exact ⟨hindexed.inbox.set rfl, hindexed.pipelines.set rfl,
      hindexed.outbox.set rfl, hindexed.leases⟩

theorem Indexed.rebuildPipeline (hindexed : s.Indexed) (ws pl : String) :
    (s.rebuildPipeline codec ws pl).2.Indexed := by
  unfold MemoryKernelStore.rebuildPipeline
  split
  · exact hindexed
  · next hws =>
    have hdeleted : (s.deletePipeline ws pl).Indexed := by
      rw [deletePipeline, if_neg hws]
      exact ⟨hindexed.inbox, hindexed.pipelines.pop _, hindexed.outbox,
        hindexed.leases⟩
    dsimp only
    split
    · exact hdeleted
    · next snapshot hfold =>
      obtain ⟨rfl, rfl⟩ := foldPipelineEvents_ids codec hfold
      exact ⟨hdeleted.inbox, hdeleted.pipelines.set rfl, hdeleted.outbox,
        hdeleted.leases⟩

theorem Indexed.recordOutboxDelivery (hindexed : s.Indexed)
    (ws cmd receiptJson : String) :
    (s.recordOutboxDelivery ws cmd receiptJson).Indexed := by
  unfold MemoryKernelStore.recordOutboxDelivery
  split
  · exact hindexed
  · split
    · exact hindexed
    · next existing hfound =>
      have hkey : (ws, cmd) = existing.key := hindexed.outbox.key_of_get? hfound
      split
      · exact ⟨hindexed.inbox, hindexed.pipelines, hindexed.outbox.set hkey,
          hindexed.leases⟩
      · exact hindexed

/-- Every operation keeps the records under their own keys. -/
theorem Indexed.handle (hindexed : s.Indexed) (op : StoreOp) :
    (MemoryKernelStore.handle codec op s).2.Indexed := by
  cases op with
  | findInbox | listEvents | listPendingOutbox | findOutbox | loadLease
  | counts => exact hindexed
  | loadPipeline ws pl =>
      simp only [MemoryKernelStore.handle, loadPipeline]
      split
      · exact ⟨hindexed.inbox, hindexed.pipelines, hindexed.outbox,
          hindexed.leases⟩
      · split <;> exact hindexed
  | commitAccepted write => exact hindexed.commitAccepted write
  | rebuildPipeline ws pl => exact hindexed.rebuildPipeline ws pl
  | deletePipeline ws pl =>
      simp only [MemoryKernelStore.handle, deletePipeline]
      split
      · exact hindexed
      · exact ⟨hindexed.inbox, hindexed.pipelines.pop _, hindexed.outbox,
          hindexed.leases⟩
  | recordOutboxDelivery ws cmd receiptJson =>
      exact hindexed.recordOutboxDelivery ws cmd receiptJson
  | saveLease record =>
      simp only [MemoryKernelStore.handle, saveLease]
      split
      · exact hindexed
      · exact ⟨hindexed.inbox, hindexed.pipelines, hindexed.outbox,
          hindexed.leases.set rfl⟩
  | deleteLease ws pl =>
      simp only [MemoryKernelStore.handle, deleteLease]
      split
      · exact hindexed
      · exact ⟨hindexed.inbox, hindexed.pipelines, hindexed.outbox,
          hindexed.leases.pop _⟩
  | deleteExpiredLeases now =>
      exact ⟨hindexed.inbox, hindexed.pipelines, hindexed.outbox,
        hindexed.leases.deleteWhere _⟩

/-- Neither fault switch is set, and no receipt is empty. -/
structure Settled (s : MemoryKernelStore) : Prop where
  commits : s.failAfter = false
  reads : s.failRead = false
  receipts : ∀ record ∈ s.outbox.values, record.deliveryReceiptJson ≠ some ""

theorem settled_init : Settled .init :=
  ⟨rfl, rfl, by simp [init, Dict.values]⟩

theorem Settled.tables_eq (hsettled : s.Settled) : s.tables = s := by
  rcases s with ⟨inbox, events, pipelines, outbox, leases, failAfter, failRead⟩
  obtain ⟨rfl, rfl, -⟩ := hsettled
  rfl

/-- Only a commit and a delivery write receipts. -/
theorem Settled.of_outbox (hsettled : s.Settled) {s' : MemoryKernelStore}
    (hcommits : s'.failAfter = s.failAfter) (hreads : s'.failRead = s.failRead)
    (houtbox : s'.outbox = s.outbox) : s'.Settled := by
  refine ⟨hcommits.trans hsettled.commits, hreads.trans hsettled.reads, ?_⟩
  rw [houtbox]
  exact hsettled.receipts

theorem Settled.set_outbox (hsettled : s.Settled) (k : String × String)
    {record : OutboxRecord} (hrecord : record.deliveryReceiptJson ≠ some "") :
    ∀ other ∈ (s.outbox.set k record).values,
      other.deliveryReceiptJson ≠ some "" := by
  intro other hother
  obtain ⟨entry, hentry, rfl⟩ := List.mem_map.mp hother
  rcases (Keyed.mem_upsert _ _ _).mp hentry with rfl | ⟨hold, -⟩
  · exact hrecord
  · exact hsettled.receipts _ (List.mem_map_of_mem hold)

/-- Every operation that the controller performs keeps the store settled. -/
theorem Settled.handle (hsettled : s.Settled) {op : StoreOp}
    (hensured : op.Ensured codec s) :
    (MemoryKernelStore.handle codec op s).2.Settled := by
  cases op with
  | findInbox | listEvents | listPendingOutbox | findOutbox | loadLease
  | counts => exact hsettled
  | loadPipeline ws pl =>
      simp only [MemoryKernelStore.handle, loadPipeline, hsettled.reads,
        Bool.false_eq_true, ↓reduceIte]
      split <;> exact hsettled
  | commitAccepted write =>
      simp only [MemoryKernelStore.handle, MemoryKernelStore.commitAccepted,
        hsettled.commits, Bool.false_eq_true, ↓reduceIte]
      exact ⟨rfl, hsettled.reads,
        hsettled.set_outbox write.outbox.key hensured.2.2⟩
  | rebuildPipeline ws pl =>
      obtain ⟨pipelines, hframe⟩ := s.rebuildPipeline_frame codec ws pl
      simp only [MemoryKernelStore.handle, hframe]
      exact hsettled.of_outbox rfl rfl rfl
  | deletePipeline ws pl =>
      simp only [MemoryKernelStore.handle, deletePipeline]
      split
      · exact hsettled
      · exact hsettled.of_outbox rfl rfl rfl
  | recordOutboxDelivery ws cmd receiptJson =>
      simp only [MemoryKernelStore.handle, MemoryKernelStore.recordOutboxDelivery]
      split
      · exact hsettled
      · split
        · exact hsettled
        · next existing hfound =>
          split
          · refine ⟨hsettled.commits, hsettled.reads,
              hsettled.set_outbox (ws, cmd) ?_⟩
            intro heq
            exact hensured (Option.some.inj heq)
          · exact hsettled
  | saveLease record =>
      simp only [MemoryKernelStore.handle, saveLease]
      split
      · exact hsettled
      · exact hsettled.of_outbox rfl rfl rfl
  | deleteLease ws pl =>
      simp only [MemoryKernelStore.handle, deleteLease]
      split
      · exact hsettled
      · exact hsettled.of_outbox rfl rfl rfl
  | deleteExpiredLeases now => exact hsettled.of_outbox rfl rfl rfl

end MemoryKernelStore

namespace LoadedStore

/-- Every record is stored under its own key. -/
structure Indexed (payload : LoadedStore) : Prop where
  inbox : payload.inbox.KeyedBy InboxRecord.key
  pipelines : payload.pipelines.KeyedBy LoadedSnapshot.key
  outbox : payload.outbox.KeyedBy OutboxRecord.key
  leases : payload.leases.KeyedBy LeaseRecord.key

/-- Every integer fits 64 bits. -/
structure FitsInts (payload : LoadedStore) : Prop where
  events : ∀ event ∈ payload.events, fitsInt64 event.pipelineRevision = true
  pipelines : ∀ snapshot ∈ payload.pipelines.values,
    fitsInt64 snapshot.revision = true
  leases : ∀ record ∈ payload.leases.values,
    (fitsInt64 record.generation && fitsInt64 record.expiresAt) = true

/-- What is loaded is indexed, whatever the document. -/
theorem indexed_of_load {document : DumpItem} {payload : LoadedStore}
    (hload : MemoryKernelStore.load codec document = some payload) :
    payload.Indexed := by
  simp only [MemoryKernelStore.load, Option.bind_eq_bind,
    Option.bind_eq_some_iff] at hload
  obtain ⟨inbox, -, events, -, pipelines, -, outbox, -, leases, -, hdone⟩ := hload
  obtain rfl := Option.some.inj hdone
  exact ⟨Dict.keyedBy_update Dict.keyedBy_empty inbox,
    Dict.keyedBy_update Dict.keyedBy_empty pipelines,
    Dict.keyedBy_update Dict.keyedBy_empty outbox,
    Dict.keyedBy_update Dict.keyedBy_empty leases⟩

end LoadedStore

namespace Database

/-- Into empty tables the import goes through exactly when the event ids are
distinct and the integers fit, and it then imports every row. -/
theorem insertDump_empty {payload : LoadedStore} (hindexed : payload.Indexed)
    (d : Database) :
    empty.insertDump payload = some d ↔
      (payload.events.map LoadedEvent.eventId).Nodup ∧ payload.FitsInts ∧
        d.loaded = payload := by
  simp only [insertDump, empty, Option.bind_eq_bind, Option.bind_eq_some_iff,
    Keyed.insertAll?_eq_some_iff, Keyed.empty_rows, List.nil_append]
  constructor
  · rintro ⟨inbox, ⟨-, hinbox⟩, events, ⟨hfitsEvents, hevents⟩, pipelines,
      ⟨hfitsPipelines, hpipelines⟩, outbox, ⟨-, houtbox⟩, leases,
      ⟨hfitsLeases, hleases⟩, hdone⟩
    obtain rfl := Option.some.inj hdone
    refine ⟨hevents ▸ events.unique, ⟨hfitsEvents, hfitsPipelines, hfitsLeases⟩, ?_⟩
    simp only [loaded, hevents,
      (Keyed.toDict_eq_iff hindexed.inbox).mpr hinbox,
      (Keyed.toDict_eq_iff hindexed.pipelines).mpr hpipelines,
      (Keyed.toDict_eq_iff hindexed.outbox).mpr houtbox,
      (Keyed.toDict_eq_iff hindexed.leases).mpr hleases]
  · rintro ⟨-, hfits, rfl⟩
    exact ⟨d.inbox, ⟨fun _ _ => trivial, (Keyed.values_toDict _).symm⟩, d.events,
      ⟨hfits.events, rfl⟩, d.pipelines,
      ⟨hfits.pipelines, (Keyed.values_toDict _).symm⟩, d.outbox,
      ⟨fun _ _ => trivial, (Keyed.values_toDict _).symm⟩, d.leases,
      ⟨hfits.leases, (Keyed.values_toDict _).symm⟩, rfl⟩

/-- An import takes over every row of the document or leaves the tables
empty. -/
theorem importDump_empty {document : DumpItem} {answer : Except PyError Unit}
    {d : Database} (himport : importDump codec document empty = (answer, d)) :
    (answer = .ok () ∧
        MemoryKernelStore.load codec document = some d.loaded) ∨
      (answer ≠ .ok () ∧ d = empty) := by
  unfold importDump at himport
  cases hload : MemoryKernelStore.load codec document with
  | none =>
      rw [hload] at himport
      obtain ⟨rfl, rfl⟩ := Prod.mk.inj himport
      exact Or.inr ⟨by simp, rfl⟩
  | some payload =>
      rw [hload] at himport
      have hindexed := LoadedStore.indexed_of_load hload
      cases hinsert : empty.insertDump payload with
      | none =>
          simp only [hinsert] at himport
          obtain ⟨rfl, rfl⟩ := Prod.mk.inj himport
          exact Or.inr ⟨by simp, rfl⟩
      | some imported =>
          simp only [hinsert] at himport
          obtain ⟨rfl, rfl⟩ := Prod.mk.inj himport
          refine Or.inl ⟨rfl, ?_⟩
          rw [((insertDump_empty hindexed imported).mp hinsert).2.2]

/-- A store with distinct event ids and fitting integers is imported. -/
theorem importDump_dump {payload : MemoryKernelStore}
    (hindexed : payload.Indexed) (hsettled : payload.Settled)
    (hids : (payload.events.map EventWrite.eventId).Nodup)
    (hfits : payload.loaded.FitsInts) :
    ∃ s : SqliteKernelStore,
      importDump codec payload.dump empty = (.ok (), s.database) ∧
        s.asMemory = payload := by
  let imported : SqliteKernelStore :=
    { inbox := ⟨payload.inbox.values, hindexed.inbox.keys_nodup⟩
      events := ⟨payload.events, hids⟩
      pipelines := ⟨payload.pipelines.values, hindexed.pipelines.keys_nodup⟩
      outbox := ⟨payload.outbox.values, hindexed.outbox.keys_nodup⟩
      leases := ⟨payload.leases.values, hindexed.leases.keys_nodup⟩
      failAfter := false
      failRead := false }
  have hsame : imported.asMemory = payload := by
    rw [← hsettled.tables_eq]
    simp only [SqliteKernelStore.asMemory, MemoryKernelStore.tables, imported,
      (Keyed.toDict_eq_iff hindexed.inbox).mpr,
      (Keyed.toDict_eq_iff hindexed.pipelines).mpr,
      (Keyed.toDict_eq_iff hindexed.outbox).mpr,
      (Keyed.toDict_eq_iff hindexed.leases).mpr]
  have hload : MemoryKernelStore.load codec payload.dump = some payload.loaded :=
    hindexed.load_dump
  have hinsert : empty.insertDump payload.loaded = some imported.database := by
    apply (insertDump_empty (LoadedStore.indexed_of_load hload) _).mpr
    refine ⟨?_, hfits, ?_⟩
    · rw [MemoryKernelStore.loaded, List.map_map]
      exact hids
    · rw [imported.database_loaded, hsame]
  refine ⟨imported, ?_, hsame⟩
  rw [importDump, hload]
  simp only [hinsert]

end Database

end RoundTrip

/-! ### The states a controller reaches -/

/-- An input of the controller itself: no delivery past it and no injected
fault. -/
def SessionOp.OfController : SessionOp → Prop
  | .call (.recordOutboxDelivery _ _ _) => False
  | .tripCommitFailure => False
  | .tripReadFailure => False
  | _ => True

theorem SessionOp.OfController.delivers {op : SessionOp}
    (hop : op.OfController) : op.Delivers := by
  cases op with
  | call c =>
      cases c with
      | recordOutboxDelivery ws cmd receiptJson => exact absurd hop id
      | _ => trivial
  | pause | resume | tripCommitFailure | tripReadFailure => trivial

/-- What every store that a controller reaches has. -/
structure Dumpable (env : KernelEnv) (s : MemoryKernelStore) : Prop where
  folds : s.FoldsEvents env.codec
  written : ∃ writes, Written env writes s
  indexed : s.Indexed
  settled : s.Settled

namespace Dumpable

variable {env : KernelEnv}

theorem init : Dumpable env .init :=
  ⟨MemoryKernelStore.foldsEvents_init _, ⟨[], Written.init⟩,
    MemoryKernelStore.indexed_init, MemoryKernelStore.settled_init⟩

theorem step {s : Session MemoryKernelStore} (hs : Dumpable env s.store)
    (hloads : env.codec.LoadsTexts)
    (htexts : ∀ value, env.codec.canonicalJson value ≠ some "") {op : SessionOp}
    (hop : op.OfController) :
    Dumpable env (Session.step env (memoryStore env.codec) s op).2.store := by
  obtain ⟨writes, hwritten⟩ := hs.written
  have hstep := memoryStep env s op
  have hnext : ∃ writes', Written env writes'
      (Session.step env (memoryStore env.codec) s op).2.store := by
    rcases hwritten.grow hstep with hsame | ⟨_, a, -, hgrown⟩
    · exact ⟨writes, hsame⟩
    · exact ⟨writes ++ [a.write], hgrown⟩
  have hkept : (Session.step env (memoryStore env.codec) s op).2.store.Indexed ∧
      (Session.step env (memoryStore env.codec) s op).2.store.Settled := by
    cases op with
    | call c =>
        have hensured : (c.program (env.controller s.paused)).Guarded
            (MemoryKernelStore.handle env.codec) (StoreOp.Ensured env.codec)
            s.store := hwritten.call_ensured hs.folds htexts hop.delivers
        exact ⟨hensured.run_preserves (fun op _ _ hindexed => hindexed.handle op)
            hs.indexed,
          hensured.run_preserves (fun _ _ hop hsettled => hsettled.handle hop)
            hs.settled⟩
    | pause | resume => exact ⟨hs.indexed, hs.settled⟩
    | tripCommitFailure | tripReadFailure => exact absurd hop id
  exact ⟨hs.folds.step hloads hstep, hnext, hkept.1, hkept.2⟩

theorem exec {s : Session MemoryKernelStore} (hs : Dumpable env s.store)
    (hloads : env.codec.LoadsTexts)
    (htexts : ∀ value, env.codec.canonicalJson value ≠ some "")
    {ops : List SessionOp} (hops : ∀ op ∈ ops, op.OfController) :
    Dumpable env
      (Lib.exec (Session.step env (memoryStore env.codec)) s ops).store := by
  induction ops generalizing s with
  | nil => exact hs
  | cons op rest ih =>
      obtain ⟨hop, hrest⟩ := List.forall_mem_cons.mp hops
      exact ih (hs.step hloads htexts hop) hrest

/-- Once imported, the two stores correspond. -/
theorem mirrors {s : MemoryKernelStore} (hs : Dumpable env s)
    {sqlite : SqliteKernelStore} (hsame : sqlite.asMemory = s) (paused : Bool) :
    Mirrors env ⟨paused, s⟩ ⟨paused, sqlite⟩ := by
  refine ⟨rfl, hsame.symm, ?_, hs.folds, hs.written⟩
  intro row hrow
  apply hs.settled.receipts
  rw [← hsame]
  change row ∈ sqlite.outbox.toDict.values
  rw [Keyed.values_toDict]
  exact hrow

end Dumpable

/-- What a read is answered does not tell corresponding stores apart. -/
theorem Mirrors.reads_agree {env : KernelEnv} {memory : Session MemoryKernelStore}
    {sqlite : Session SqliteKernelStore} (hmirrors : Mirrors env memory sqlite)
    {op : StoreOp} (hread : op.IsRead) :
    (MemoryKernelStore.handle env.codec op memory.store).1 =
      (SqliteKernelStore.handle env.codec op sqlite.store).1 := by
  have hfits : op.fitsInts env.codec sqlite.store.asMemory = true := by
    cases op <;> first | rfl | exact absurd hread id
  have hfresh : op.freshId sqlite.store.asMemory = true := by
    cases op <;> first | rfl | exact absurd hread id
  rw [hmirrors.store]
  exact congrArg Prod.fst (SqliteKernelStore.handle_simulates hfits hfresh
    (hread.ensured _) hmirrors.receipts)

/-- What a store shows as a memory store is all that its database holds. -/
theorem SqliteKernelStore.database_congr {s s' : SqliteKernelStore}
    (hsame : s.asMemory = s'.asMemory) : s.database = s'.database := by
  have hinbox : s.inbox = s'.inbox :=
    Keyed.ext (by simpa [asMemory] using congrArg (fun m => m.inbox.values) hsame)
  have hevents : s.events = s'.events :=
    Keyed.ext (congrArg MemoryKernelStore.events hsame)
  have hpipelines : s.pipelines = s'.pipelines :=
    Keyed.ext (by simpa [asMemory] using congrArg (fun m => m.pipelines.values) hsame)
  have houtbox : s.outbox = s'.outbox :=
    Keyed.ext (by simpa [asMemory] using congrArg (fun m => m.outbox.values) hsame)
  have hleases : s.leases = s'.leases :=
    Keyed.ext (by simpa [asMemory] using congrArg (fun m => m.leases.values) hsame)
  obtain ⟨inbox, events, pipelines, outbox, leases, failAfter, failRead⟩ := s
  subst hinbox hevents hpipelines houtbox hleases
  rfl

/-- The stores still correspond after a run. -/
theorem Mirrors.exec {env : KernelEnv} {memory : Session MemoryKernelStore}
    {sqlite : Session SqliteKernelStore} (hmirrors : Mirrors env memory sqlite)
    (hloads : env.codec.LoadsTexts)
    (htexts : ∀ value, env.codec.canonicalJson value ≠ some "")
    {ops : List SessionOp}
    (hfits : GuardedRun env (fun op s => op.fitsInts env.codec s) memory ops)
    (hfresh : GuardedRun env (fun op s => op.freshId s) memory ops)
    (hdelivers : ∀ op ∈ ops, op.Delivers) :
    Mirrors env (Lib.exec (Session.step env (memoryStore env.codec)) memory ops)
      (Lib.exec (Session.step env (sqliteStore env.codec)) sqlite ops) := by
  induction ops generalizing memory sqlite with
  | nil => exact hmirrors
  | cons op rest ih =>
      obtain ⟨-, hnext⟩ := hmirrors.step hloads htexts hfits.1 hfresh.1
        (hdelivers op List.mem_cons_self)
      exact ih hnext hfits.2 hfresh.2
        fun other hother => hdelivers other (List.mem_cons_of_mem op hother)

/-- The dump of a memory store is imported as the database of the SQLite store that the
same run reaches. -/
theorem importDump_after (env : KernelEnv) (hloads : env.codec.LoadsTexts)
    (htexts : ∀ value, env.codec.canonicalJson value ≠ some "")
    {ops : List SessionOp} (hops : ∀ op ∈ ops, op.OfController)
    (hrun : GuardedRun env (fun op s => op.fitsInts env.codec s)
      (Session.init (memoryStore env.codec)) ops)
    (hfresh : GuardedRun env (fun op s => op.freshId s)
      (Session.init (memoryStore env.codec)) ops)
    (hfits : (Session.after env (memoryStore env.codec) ops).store.loaded.FitsInts) :
    importDump env.codec (Session.after env (memoryStore env.codec) ops).store.dump
        .empty =
      (.ok (), (Session.after env (sqliteStore env.codec) ops).store.database) := by
  have hreached : Dumpable env (Session.after env (memoryStore env.codec) ops).store :=
    Dumpable.init.exec hloads htexts hops
  have hmirrors : Mirrors env (Session.after env (memoryStore env.codec) ops)
      (Session.after env (sqliteStore env.codec) ops) :=
    Mirrors.exec (Dumpable.init.mirrors rfl false) hloads htexts hrun hfresh
      fun op hop => (hops op hop).delivers
  have hids : ((Session.after env (memoryStore env.codec) ops).store.events.map
      EventWrite.eventId).Nodup := by
    rw [hmirrors.store]
    exact (Session.after env (sqliteStore env.codec) ops).store.events.unique
  obtain ⟨imported, himport, hsame⟩ :=
    Database.importDump_dump hreached.indexed hreached.settled hids hfits
  rw [himport, SqliteKernelStore.database_congr (hsame.trans hmirrors.store)]

/-- The dump of every store that a controller reaches is loaded back as the
tables of that store and of no other.  Imported into an empty database it gives a
store that answers every read alike, and every later run too, as long as the
integers fit and the later event ids are new; an import that is refused leaves the
database empty. -/
theorem kernel_dump_round_trip (env : KernelEnv) (hloads : env.codec.LoadsTexts)
    (htexts : ∀ value, env.codec.canonicalJson value ≠ some "")
    (ops : List SessionOp) (hops : ∀ op ∈ ops, op.OfController) :
    let memory := Session.after env (memoryStore env.codec) ops
    (∃ tables, MemoryKernelStore.load env.codec memory.store.dump = some tables ∧
        ∀ store : MemoryKernelStore,
          store.failAfter = false → store.failRead = false →
            (store.loaded = tables ↔ store = memory.store)) ∧
      ((memory.store.events.map EventWrite.eventId).Nodup →
        memory.store.loaded.FitsInts →
        ∃ sqlite : SqliteKernelStore,
          importDump env.codec memory.store.dump .empty =
              (.ok (), sqlite.database) ∧
            (∀ op : StoreOp, op.IsRead →
              (MemoryKernelStore.handle env.codec op memory.store).1 =
                (SqliteKernelStore.handle env.codec op sqlite).1) ∧
            ∀ later : List SessionOp,
              GuardedRun env (fun op s => op.fitsInts env.codec s) memory later →
              GuardedRun env (fun op s => op.freshId s) memory later →
              (∀ op ∈ later, op.Delivers) →
              answers (Session.step env (memoryStore env.codec)) memory later =
                answers (Session.step env (sqliteStore env.codec))
                  ⟨memory.paused, sqlite⟩ later) ∧
      ∀ (document : DumpItem) (answer : Except PyError Unit) (database : Database),
        importDump env.codec document .empty = (answer, database) →
          (answer = .ok () ∧ MemoryKernelStore.load env.codec document =
              some database.loaded) ∨
            (answer ≠ .ok () ∧ database = .empty) := by
  intro memory
  have hreached : Dumpable env memory.store :=
    Dumpable.init.exec hloads htexts hops
  refine ⟨⟨memory.store.loaded, hreached.indexed.load_dump, ?_⟩, ?_,
    fun _ _ _ => Database.importDump_empty⟩
  · intro store hcommits hreads
    constructor
    · intro hsame
      have htables := MemoryKernelStore.tables_eq_of_loaded hsame
      rw [hreached.settled.tables_eq] at htables
      have hkept : store.tables = store := by
        obtain ⟨inbox, events, pipelines, outbox, leases, failAfter, failRead⟩ := store
        obtain rfl : failAfter = false := hcommits
        obtain rfl : failRead = false := hreads
        rfl
      rw [← htables, hkept]
    · rintro rfl
      rfl
  · intro hids hfits
    have himports : ∃ sqlite : SqliteKernelStore,
        importDump env.codec memory.store.dump .empty = (.ok (), sqlite.database) ∧
          sqlite.asMemory = memory.store :=
      Database.importDump_dump hreached.indexed hreached.settled hids hfits
    obtain ⟨sqlite, himport, hsame⟩ := himports
    have hmirrors := hreached.mirrors hsame memory.paused
    exact ⟨sqlite, himport, fun _ hread => hmirrors.reads_agree hread,
      fun _ hfitsLater hfreshLater hdelivers =>
        hmirrors.answers_eq hloads htexts hfitsLater hfreshLater hdelivers⟩

namespace KernelDumpWitness

open ReferenceCodec StoreRefinementWitness

/-- A confirmed requirement, a record and a lease. -/
def ops : List SessionOp :=
  [.call (.submit firstCommand), .call (.submit sampleRecord),
    .call (.acquireLease "ws_a" "pl_a" "worker" 10 60 false)]

def later : List SessionOp :=
  [.call (.replay "ws_a" "cmd_2"), .call (.rebuild ⟨"pl_a", "ws_a"⟩),
    .call (.cleanup 100)]

def reached (ops : List SessionOp) : Session MemoryKernelStore :=
  Session.after env (memoryStore env.codec) ops

theorem fitsInts_at_ops : (reached ops).store.loaded.FitsInts :=
  ⟨by decide +kernel, by decide +kernel, by decide +kernel⟩

theorem nodup_eventId_at_ops :
    ((reached ops).store.events.map EventWrite.eventId).Nodup := by
  decide +kernel

theorem later_fitsInts :
    GuardedRun env (fun op s => op.fitsInts env.codec s) (reached ops) later := by
  decide +kernel

theorem later_freshId : GuardedRun env (fun op s => op.freshId s) (reached ops) later := by
  decide +kernel

theorem kernel_dump_round_trip_at_ops :
    (∃ tables, MemoryKernelStore.load env.codec (reached ops).store.dump = some tables ∧
        (reached ops).store.loaded = tables) ∧
      ∃ sqlite : SqliteKernelStore,
        importDump env.codec (reached ops).store.dump .empty =
            (.ok (), sqlite.database) ∧
          answers (Session.step env (memoryStore env.codec)) (reached ops) later =
            answers (Session.step env (sqliteStore env.codec))
              ⟨(reached ops).paused, sqlite⟩ later := by
  obtain ⟨⟨tables, hload, honly⟩, himport, -⟩ := kernel_dump_round_trip env (loadsTexts digest)
    (canonicalJson_ne_empty digest) ops
    (by simp [ops, SessionOp.OfController])
  obtain ⟨sqlite, hdone, -, hlater⟩ := himport nodup_eventId_at_ops fitsInts_at_ops
  exact ⟨⟨tables, hload, (honly _ (by decide +kernel) (by decide +kernel)).mpr rfl⟩,
    sqlite, hdone, hlater later later_fitsInts later_freshId
      (by simp [later, SessionOp.Delivers])⟩

/-- The expiry of this lease is past 64 bits. -/
def lateLease : SessionOp :=
  .call (.acquireLease "ws_a" "pl_a" "worker" 9223372036854775807 60 true)

/-- The session that an SQLite store reaches by the same inputs. -/
def stored (ops : List SessionOp) : Session SqliteKernelStore :=
  Session.after env (sqliteStore env.codec) ops

/-- The dump of the memory store is imported, and gives the tables of that SQLite
store. -/
def Imports (ops : List SessionOp) : Prop :=
  importDump env.codec (reached ops).store.dump .empty =
    (.ok (), (stored ops).store.database)

theorem imports_first : Imports [.call (.submit firstCommand)] := by
  refine importDump_after env (loadsTexts digest) (canonicalJson_ne_empty digest)
    (by simp [SessionOp.OfController]) ?_ ?_ ⟨?_, ?_, ?_⟩ <;> decide +kernel

/-- The two stores answer the later inputs alike. -/
def Alike (ops later : List SessionOp) : Prop :=
  answers (Session.step env (memoryStore env.codec)) (reached ops) later =
    answers (Session.step env (sqliteStore env.codec)) (stored ops) later

instance (ops later : List SessionOp) : Decidable (Alike ops later) :=
  inferInstanceAs (Decidable (_ = _))

def DistinctIds (ops : List SessionOp) : Prop :=
  ((reached ops).store.events.map EventWrite.eventId).Nodup

instance (ops : List SessionOp) : Decidable (DistinctIds ops) :=
  inferInstanceAs (Decidable (List.Nodup _))

/-- Distinct event ids are not enough: a stored lease whose expiry does not fit
is not imported; and after an import that went through, a lease that does not
fit or a command whose event id is taken is answered differently. -/
theorem imported_store_differs :
    (DistinctIds [lateLease] ∧
        (importDump env.codec (reached [lateLease]).store.dump .empty).1 =
          .error .persistence) ∧
      (Imports [] ∧ ¬Alike [] [lateLease]) ∧
      Imports [.call (.submit firstCommand)] ∧
        ¬Alike [.call (.submit firstCommand)] [.call (.submit secondCommand)] := by
  refine ⟨⟨?_, ?_⟩, ⟨rfl, ?_⟩, imports_first, ?_⟩ <;> decide +kernel

end KernelDumpWitness

end HermesPipeline
