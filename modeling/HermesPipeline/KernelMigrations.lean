/-
The migrations of the kernel database.  The events table of the first one has
no revision; the second one adds the column with one server default for all old
rows, and the fold and the order of the log read it.
-/
import HermesPipeline.StationRecords

namespace HermesPipeline

open Lib KernelController

/-- A row of the events table at migration 0001. -/
structure FirstEvent where
  eventId : String
  workspaceId : String
  pipelineId : String
  eventType : String
  payloadJson : String
deriving Repr, DecidableEq

/-- The tables of migration 0001. -/
structure FirstSchema where
  inbox : Keyed InboxRecord.key
  events : Keyed FirstEvent.eventId
  pipelines : Keyed PipelineSnapshot.key

/-- The tables of migration 0002. -/
structure SecondSchema where
  inbox : Keyed InboxRecord.key
  events : Keyed EventWrite.eventId
  pipelines : Keyed PipelineSnapshot.key

/-- The tables of migration 0003. -/
structure ThirdSchema extends SecondSchema where
  outbox : Keyed OutboxRecord.key

/-- The row with a value in the new column. -/
def FirstEvent.withRevision (event : FirstEvent) (revision : Nat) : EventWrite where
  eventId := event.eventId
  workspaceId := event.workspaceId
  pipelineId := event.pipelineId
  eventType := event.eventType
  payloadJson := event.payloadJson
  pipelineRevision := revision

/-- The row without the column. -/
def EventWrite.withoutRevision (event : EventWrite) : FirstEvent where
  eventId := event.eventId
  workspaceId := event.workspaceId
  pipelineId := event.pipelineId
  eventType := event.eventType
  payloadJson := event.payloadJson

/-- `upgrade` of 0002: the rows that are there read the server default. -/
def FirstSchema.upgrade (s : FirstSchema) : SecondSchema where
  inbox := s.inbox
  events :=
    { rows := s.events.rows.map fun event => event.withRevision 0
      unique := by
        rw [List.map_map]
        exact s.events.unique }
  pipelines := s.pipelines

/-- `downgrade` of 0002: the column is dropped. -/
def SecondSchema.downgrade (s : SecondSchema) : FirstSchema where
  inbox := s.inbox
  events :=
    { rows := s.events.rows.map EventWrite.withoutRevision
      unique := by
        rw [List.map_map]
        exact s.events.unique }
  pipelines := s.pipelines

/-- `upgrade` of 0003. -/
def SecondSchema.upgrade (s : SecondSchema) : ThirdSchema :=
  { s with outbox := .empty }

/-- `upgrade` of 0004, and the store object over the tables. -/
def ThirdSchema.upgrade (s : ThirdSchema) : SqliteKernelStore where
  inbox := s.inbox
  events := s.events
  pipelines := s.pipelines
  outbox := s.outbox
  leases := .empty
  failAfter := false
  failRead := false

/-- `command.upgrade(cfg, "head")`. -/
def FirstSchema.upgradeHead (s : FirstSchema) : SqliteKernelStore :=
  s.upgrade.upgrade.upgrade

/-- Dropping the column again gives the old rows back. -/
theorem FirstSchema.downgrade_upgrade (s : FirstSchema) :
    s.upgrade.downgrade = s := by
  have hrows : (s.events.rows.map fun event => event.withRevision 0).map
      EventWrite.withoutRevision = s.events.rows := by
    rw [List.map_map]
    exact List.map_id _
  rcases s with ⟨inbox, events, pipelines⟩
  simp only [upgrade, SecondSchema.downgrade, FirstSchema.mk.injEq, true_and,
    and_true]
  exact Keyed.ext hrows

/-- The events of one pipeline, in the order they were inserted. -/
def FirstSchema.eventsOf (s : FirstSchema) (ws pl : String) : List FirstEvent :=
  s.events.rows.filter fun event =>
    event.pipelineId = pl ∧ event.workspaceId = ws

/-- Old events with the revisions their commits had. -/
def numberFrom (revision : Nat) : List FirstEvent → List EventWrite
  | [] => []
  | event :: rest => event.withRevision revision :: numberFrom (revision + 1) rest

/-- A kernel state at migration 0001: every snapshot is the fold of its events,
counted from one, and a pipeline without a snapshot has no event. -/
structure FirstSchema.Consistent (codec : Codec) (s : FirstSchema) : Prop where
  folds : ∀ ws pl snapshot, ws ≠ "" →
    s.pipelines.find? (ws, pl) = some snapshot →
      foldPipelineEvents codec ws pl (numberFrom 1 (s.eventsOf ws pl)) =
        .ok snapshot
  logged : ∀ ws pl, ws ≠ "" → s.pipelines.find? (ws, pl) = none →
    s.eventsOf ws pl = []

section Upgraded

variable {codec : Codec} {s : FirstSchema} {ws pl : String}

theorem FirstSchema.upgradeHead_healthy (s : FirstSchema) :
    s.upgradeHead.Healthy := ⟨rfl, rfl⟩

/-- The log after the migration: the old events in their order, all of them at
revision zero. -/
theorem FirstSchema.listEvents_upgradeHead (s : FirstSchema) (pl : String)
    (hws : ws ≠ "") :
    s.upgradeHead.listEvents ws pl =
      (s.eventsOf ws pl).map fun event => event.withRevision 0 := by
  have hrows : s.upgradeHead.events.rows.filter (fun event =>
      event.pipelineId = pl ∧ event.workspaceId = ws) =
        (s.eventsOf ws pl).map fun event => event.withRevision 0 := by
    simp only [FirstSchema.eventsOf, upgradeHead, ThirdSchema.upgrade,
      SecondSchema.upgrade, upgrade, List.filter_map]
    rfl
  rw [SqliteKernelStore.listEvents, if_neg hws, SqliteKernelStore.listEventsOn,
    hrows, sortByRevision]
  apply List.Pairwise.insertionSort_eq
  rw [List.pairwise_map]
  exact List.pairwise_of_forall fun _ _ => le_rfl

/-- Folding an event looks at no revision but to report it. -/
theorem foldPipelineEvent_withRevision (event : FirstEvent) (n m r : Nat)
    (first : PipelineSnapshot) :
    foldPipelineEvent codec { first with revision := r } (event.withRevision m) =
      (foldPipelineEvent codec first (event.withRevision n)).map fun next =>
        { next with revision := m } := by
  simp only [foldPipelineEvent, FirstEvent.withRevision]
  by_cases hconfirmed : event.eventType = "REQUIREMENT_CONFIRMED"
  · simp only [hconfirmed, ↓reduceIte]
    rcases codec.loads event.payloadJson with _ | value
    · rfl
    · cases value <;> rfl
  · simp only [hconfirmed, ↓reduceIte]
    by_cases hrejected : event.eventType = "REQUIREMENT_REJECTED"
    · simp only [hrejected, ↓reduceIte]
      rfl
    · simp only [hrejected, ↓reduceIte]
      rfl

/-- The migrated log folds to the old snapshot with its revision lost. -/
theorem foldPipelineEvents_migrated {events : List FirstEvent}
    {snapshot : PipelineSnapshot}
    (hfold : foldPipelineEvents codec ws pl (numberFrom 1 events) =
      .ok snapshot) :
    foldPipelineEvents codec ws pl
        (events.map fun event => event.withRevision 0) =
      .ok { snapshot with revision := 0 } := by
  have hrun : ∀ (n : Nat) (first final : PipelineSnapshot),
      (numberFrom n events).foldlM (foldPipelineEvent codec) first = .ok final →
        (events.map fun event => event.withRevision 0).foldlM
          (foldPipelineEvent codec) { first with revision := 0 } =
            .ok { final with revision := 0 } := by
    clear hfold
    induction events with
    | nil =>
        intro n first final hdone
        cases hdone
        rfl
    | cons event rest ih =>
        intro n first final hdone
        rw [numberFrom, List.foldlM_cons] at hdone
        cases hstep : foldPipelineEvent codec first (event.withRevision n) with
        | error error => simp [hstep, bind, Except.bind] at hdone
        | ok next =>
            rw [hstep] at hdone
            rw [List.map_cons, List.foldlM_cons,
              foldPipelineEvent_withRevision event n 0 0 first, hstep]
            exact ih (n + 1) next final hdone
  exact hrun 1 _ _ hfold

/-- The fold of the old log, with or without a stored snapshot. -/
theorem FirstSchema.Consistent.folds_or (hconsistent : s.Consistent codec)
    (pl : String) (hws : ws ≠ "") :
    foldPipelineEvents codec ws pl (numberFrom 1 (s.eventsOf ws pl)) =
      .ok (snapshotOr ws pl (s.pipelines.find? (ws, pl))) := by
  cases hfound : s.pipelines.find? (ws, pl) with
  | none =>
      rw [hconsistent.logged ws pl hws hfound]
      rfl
  | some snapshot => exact hconsistent.folds ws pl snapshot hws hfound

/-- A rebuild after the migration keeps status and text of the snapshot and
sets its revision to zero. -/
theorem FirstSchema.Consistent.rebuildPipeline_upgradeHead
    (hconsistent : s.Consistent codec) (pl : String) (hws : ws ≠ "") :
    let rebuilt := { snapshotOr ws pl (s.pipelines.find? (ws, pl)) with
      revision := 0 }
    s.upgradeHead.rebuildPipeline codec ws pl =
      (.ok rebuilt, { s.upgradeHead with
        pipelines := (s.pipelines.erase (ws, pl)).upsert rebuilt }) := by
  intro rebuilt
  have hlog : (s.upgradeHead.deletePipeline ws pl).listEventsOn ws pl =
      (s.eventsOf ws pl).map fun event => event.withRevision 0 := by
    rw [← s.listEvents_upgradeHead pl hws, SqliteKernelStore.listEvents,
      if_neg hws, SqliteKernelStore.deletePipeline, if_neg hws]
    rfl
  have hfold := foldPipelineEvents_migrated (hconsistent.folds_or pl hws)
  have hzero : fitsInt64 ((0 : Nat) : Int) = true := by decide
  rw [SqliteKernelStore.rebuildPipeline, if_neg hws]
  simp only [hlog, hfold, hzero, ↓reduceIte]
  rw [SqliteKernelStore.deletePipeline, if_neg hws]
  rfl

end Upgraded

/-- The answer of a submission is an accepted receipt. -/
def AcceptsNext (env : KernelEnv) (s : SqliteKernelStore)
    (command : ControllerCommand) : Prop :=
  ∃ receipt : CommandReceipt,
    (((env.controller false).submit command).run
        (SqliteKernelStore.handle env.codec) s).1 = .ok receipt ∧
      receipt.status = .accepted

/-- The store after a rebuild of the pipeline. -/
def rebuiltStore (env : KernelEnv) (s : SqliteKernelStore) (ws pl : String) :
    SqliteKernelStore :=
  ((rebuild ⟨pl, ws⟩).run (SqliteKernelStore.handle env.codec) s).2

/-- A pipeline of the old database means the same in the migrated one: its
events have the revisions from one on, they fold to its snapshot, a rebuild does
not show in a read, and the next command, which expects the number of events, is
accepted before a rebuild and after it. -/
structure Survives (env : KernelEnv) (s : FirstSchema) (ws pl : String) : Prop where
  events : s.upgradeHead.listEvents ws pl = numberFrom 1 (s.eventsOf ws pl)
  snapshot : foldPipelineEvents env.codec ws pl
      (s.upgradeHead.listEvents ws pl) =
    .ok (snapshotOr ws pl (s.upgradeHead.pipelines.find? (ws, pl)))
  rebuild : ((read ⟨pl, ws⟩).run (SqliteKernelStore.handle env.codec)
      (rebuiltStore env s.upgradeHead ws pl)).1 =
    ((read ⟨pl, ws⟩).run (SqliteKernelStore.handle env.codec) s.upgradeHead).1
  next : ∀ (command : ControllerCommand)
    (a : (env.controller false).Acceptance command),
    command.workspaceId = ws → command.pipelineId = pl →
      command.expectedRevision = (s.eventsOf ws pl).length →
      a.snapshot = s.pipelines.find? (ws, pl) →
      s.inbox.find? command.key = none →
      s.events.find? (eventId ws command.commandId) = none →
        AcceptsNext env s.upgradeHead command ∧
          AcceptsNext env (rebuiltStore env s.upgradeHead ws pl) command

section Empty

variable {env : KernelEnv} {s : FirstSchema} {ws pl : String}

theorem run_read_healthy {store : SqliteKernelStore} (hhealthy : store.Healthy)
    (pl : String) (hws : ws ≠ "") :
    (KernelController.read ⟨pl, ws⟩).run (SqliteKernelStore.handle env.codec)
        store =
      (.ok (viewFromSnapshot pl (store.pipelines.find? (ws, pl))), store) := by
  have hload := hhealthy.loadPipeline pl hws
  rw [KernelController.read, if_neg hws]
  simp only [ask, Program.perform, Program.call_bind, Program.run_call,
    SqliteKernelStore.handle, hload, Program.ofExcept, Program.done_bind,
    Program.run_done]

/-- A command that can be accepted is. -/
theorem acceptsNext_of_admits {store : SqliteKernelStore}
    (hhealthy : store.Healthy) {command : ControllerCommand}
    (a : (env.controller false).Acceptance command)
    (hsnapshot : a.snapshot =
      store.pipelines.find? (command.workspaceId, command.pipelineId))
    (hadmits : store.Admits a.write) : AcceptsNext env store command := by
  obtain ⟨store', hcommit⟩ := hadmits.commit hhealthy.failAfter rfl
  refine ⟨a.receipt, ?_, rfl⟩
  have hload := hhealthy.loadPipeline command.pipelineId
    command.workspaceId_ne_empty
  rw [← hsnapshot] at hload
  have hfresh : store.findInbox command.workspaceId command.commandId = none :=
    hadmits.inbox
  have hloaded : (env.controller false).submitLoaded command a.fingerprint
      a.parsed a.snapshot = .call (.commitAccepted a.write)
        (catching (.done ((env.controller false).unavailable command)) fun _ =>
          .done a.receipt) := by
    simp only [submitLoaded, a.current_eq, a.revision_eq, ne_eq,
      not_true_eq_false, ↓reduceIte, a.apply_eq, submitAccepted, a.payload_eq]
    rfl
  have hrunning : (env.controller false).paused = false := rfl
  simp only [submit, hrunning, Bool.false_eq_true, ↓reduceIte, a.hash_eq,
    Program.run_call, SqliteKernelStore.handle, hfresh, catching, submitFound,
    a.parsed_eq, hload, hloaded, hcommit, Program.run_done]

/-- An acceptance does not tell an absent snapshot from the initial one. -/
theorem exists_acceptance_initial {k : KernelController}
    {command : ControllerCommand} (a : k.Acceptance command)
    (hsnapshot : snapshotOr ws pl a.snapshot = .initial ws pl) :
    ∃ a' : k.Acceptance command, a'.snapshot = some (.initial ws pl) ∧
      a'.write = a.write := by
  have hcurrent : stateFromSnapshot (some (.initial ws pl)) = some a.current := by
    rw [← a.current_eq, ← hsnapshot]
    cases hstored : a.snapshot with
    | none => rfl
    | some snapshot => rfl
  exact ⟨{ a with snapshot := some (.initial ws pl), current_eq := hcurrent },
    rfl, rfl⟩

/-- A pipeline without events survives. -/
theorem FirstSchema.Consistent.survives_of_empty
    (hconsistent : s.Consistent env.codec) (hws : ws ≠ "")
    (hempty : s.eventsOf ws pl = []) : Survives env s ws pl := by
  have hlog : s.upgradeHead.listEvents ws pl = [] := by
    rw [s.listEvents_upgradeHead pl hws, hempty]
    rfl
  have hinitial : snapshotOr ws pl (s.pipelines.find? (ws, pl)) =
      .initial ws pl := by
    have hfold := hconsistent.folds_or pl hws
    rw [hempty] at hfold
    exact (Except.ok.inj hfold).symm
  let rebuilt : SqliteKernelStore := { s.upgradeHead with
    pipelines := (s.pipelines.erase (ws, pl)).upsert (.initial ws pl) }
  have hhealthy : rebuilt.Healthy := ⟨rfl, rfl⟩
  have hstore : rebuiltStore env s.upgradeHead ws pl = rebuilt := by
    have hrebuild := hconsistent.rebuildPipeline_upgradeHead pl hws
    rw [hinitial] at hrebuild
    have hasked : (ask (.rebuildPipeline ws pl)).run
        (SqliteKernelStore.handle env.codec) s.upgradeHead =
          (.ok (.initial ws pl), rebuilt) := by
      rw [ask, Program.run_perform]
      exact hrebuild
    rw [rebuiltStore, KernelController.rebuild, if_neg hws,
      Program.run_bind_of_ok hasked, run_read_healthy hhealthy pl hws]
  have hfound : rebuilt.pipelines.find? (ws, pl) = some (.initial ws pl) :=
    Keyed.find?_upsert_self _ (PipelineSnapshot.initial ws pl)
  refine ⟨?_, ?_, ?_, ?_⟩
  · rw [hlog, hempty]
    rfl
  · rw [hlog]
    exact congrArg Except.ok hinitial.symm
  · rw [hstore, run_read_healthy hhealthy pl hws,
      run_read_healthy s.upgradeHead_healthy pl hws, hfound]
    change Except.ok (viewFromSnapshot pl (some (.initial ws pl))) =
      .ok (viewFromSnapshot pl (s.pipelines.find? (ws, pl)))
    rw [← hinitial, viewFromSnapshot_or]
  · rintro command a rfl rfl hrevision hsnapshot hinbox hevent
    have hadmits : ∀ store : SqliteKernelStore, store.inbox = s.inbox →
        store.events = s.upgradeHead.events → store.outbox = .empty →
          store.Admits a.write := by
      intro store hsame hevents houtbox
      refine ⟨?_, ?_, ?_, ?_⟩
      · rw [hsame]
        exact hinbox
      · rw [hevents, Keyed.find?_eq_none_iff]
        intro row hrow hkey
        obtain ⟨event, hold, rfl⟩ := List.mem_map.mp hrow
        exact (s.events.find?_eq_none_iff _).mp hevent event hold hkey
      · rw [houtbox]
        rfl
      · have hone : a.write.event.pipelineRevision = 1 := by
          have hsucc : a.write.event.pipelineRevision =
              a.current.revision + 1 := a.revision_succ
          rw [hsucc, ← a.revision_eq, hrevision, hempty]
          rfl
        rw [hone]
        decide
    obtain ⟨a', hsnapshot', hwrite⟩ :=
      exists_acceptance_initial a (hsnapshot ▸ hinitial)
    constructor
    · exact acceptsNext_of_admits s.upgradeHead_healthy a hsnapshot
        (hadmits _ rfl rfl rfl)
    · rw [hstore]
      refine acceptsNext_of_admits hhealthy a' (hsnapshot'.trans hfound.symm) ?_
      rw [hwrite]
      exact hadmits _ rfl rfl rfl

end Empty

/-- Old events come back at revision zero, so a pipeline of a consistent old
database survives the migrations exactly when it has no event; the database as a
whole does when it has no event of a named workspace. -/
theorem migrated_survives_iff (env : KernelEnv) (s : FirstSchema)
    (hconsistent : s.Consistent env.codec) :
    (∀ ws pl, ws ≠ "" →
      (Survives env s ws pl ↔ s.eventsOf ws pl = [])) ∧
    ((∀ ws pl, ws ≠ "" → Survives env s ws pl) ↔
      ∀ event ∈ s.events.rows, event.workspaceId = "") := by
  have hpipeline : ∀ ws pl, ws ≠ "" →
      (Survives env s ws pl ↔ s.eventsOf ws pl = []) := by
    intro ws pl hws
    constructor
    · intro hsurvives
      have hlog := hsurvives.events
      rw [s.listEvents_upgradeHead pl hws] at hlog
      cases hevents : s.eventsOf ws pl with
      | nil => rfl
      | cons event rest =>
          -- the first event is at zero after the migration and was at one
          rw [hevents] at hlog
          have hfirst := congrArg EventWrite.pipelineRevision
            (List.cons.inj hlog).1
          cases hfirst
    · exact hconsistent.survives_of_empty hws
  refine ⟨hpipeline, ?_⟩
  constructor
  · intro hall event hevent
    by_contra hws
    have hempty := (hpipeline _ event.pipelineId hws).mp
      (hall event.workspaceId event.pipelineId hws)
    have hmem : event ∈ s.eventsOf event.workspaceId event.pipelineId :=
      List.mem_filter.mpr ⟨hevent, by simp⟩
    rw [hempty] at hmem
    cases hmem
  · intro hnone ws pl hws
    apply (hpipeline ws pl hws).mpr
    apply List.filter_eq_nil_iff.mpr
    intro event hevent hscope
    obtain ⟨-, rfl⟩ := of_decide_eq_true hscope
    exact hws (hnone event hevent)

namespace KernelMigrationsWitness

open ReferenceCodec

def env : KernelEnv := ⟨sampleCodec, "2026-08-06T00:00:00Z"⟩

/-- What the confirmation of a requirement had logged at migration 0001. -/
def confirmed : FirstEvent where
  eventId := "evt_ws_a_cmd_1"
  workspaceId := "ws_a"
  pipelineId := "pl_a"
  eventType := "REQUIREMENT_CONFIRMED"
  payloadJson := ((Json.obj [("text", .str "Build the exporter")]).canon).toText

def opened : PipelineSnapshot :=
  ⟨"ws_a", "pl_a", "OPEN", 1, "Build the exporter"⟩

/-- A database with one confirmed requirement. -/
def old : FirstSchema where
  inbox := ⟨[⟨"ws_a", "cmd_1", "", ""⟩], by decide⟩
  events := ⟨[confirmed], by decide⟩
  pipelines := ⟨[opened], by decide⟩

theorem old_consistent : old.Consistent env.codec where
  folds := by
    intro ws pl snapshot _ hfound
    obtain ⟨hmem, hkey⟩ := (old.pipelines.find?_eq_some_iff _ _).mp hfound
    obtain rfl := List.mem_singleton.mp hmem
    cases hkey
    decide +kernel
  logged := by
    intro ws pl _ hnone
    have hkey := (old.pipelines.find?_eq_none_iff (ws, pl)).mp hnone opened
      (List.mem_singleton_self opened)
    apply List.filter_eq_nil_iff.mpr
    intro event hevent hscope
    obtain rfl := List.mem_singleton.mp hevent
    obtain ⟨rfl, rfl⟩ := of_decide_eq_true hscope
    exact hkey rfl

theorem migrated_survives_iff_at_old :
    old.Consistent env.codec ∧ Survives env old "ws_a" "pl_b" ∧
      ¬Survives env old "ws_a" "pl_a" := by
  obtain ⟨hpipeline, -⟩ := migrated_survives_iff env old old_consistent
  refine ⟨old_consistent, (hpipeline "ws_a" "pl_b" (by decide)).mpr (by decide), ?_⟩
  intro hsurvives
  have hempty := (hpipeline "ws_a" "pl_a" (by decide)).mp hsurvives
  exact absurd hempty (by decide)

/-- The status of the receipt for a record that expects revision one. -/
def recordStatus (s : SqliteKernelStore) : Option ReceiptStatus :=
  ((((env.controller false).submit sampleRecord).run
    (SqliteKernelStore.handle env.codec) s).1.toOption).map CommandReceipt.status

/-- The one event comes back at revision zero.  The next record is accepted
before a rebuild and a conflict after it. -/
theorem migrated_log_loses_revision :
    old.Consistent env.codec ∧
      (old.upgradeHead.listEvents "ws_a" "pl_a").map
        EventWrite.pipelineRevision = [0] ∧
      recordStatus old.upgradeHead = some .accepted ∧
      recordStatus (rebuiltStore env old.upgradeHead "ws_a" "pl_a") =
        some .conflict ∧
      ¬Survives env old "ws_a" "pl_a" := by
  have hlog : (old.upgradeHead.listEvents "ws_a" "pl_a").map
      EventWrite.pipelineRevision = [0] := by decide +kernel
  refine ⟨old_consistent, hlog, by decide +kernel, by decide +kernel, ?_⟩
  intro hsurvives
  rw [hsurvives.events] at hlog
  exact absurd hlog (by decide +kernel)

end KernelMigrationsWitness

end HermesPipeline
