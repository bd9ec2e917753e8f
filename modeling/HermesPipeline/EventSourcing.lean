/-
The event log and the live snapshots agree.  The snapshot a commit writes comes
from the domain evaluator; the fold computes it again from the log alone.  The
two meet in an invariant per pipeline that every session step keeps.
-/
import HermesPipeline.KernelMemoryEffects
import HermesPipeline.ReferenceCodec

namespace HermesPipeline

open Lib KernelController

/-- The two decisions on a requirement. -/
def EventWrite.IsIntake (event : EventWrite) : Prop :=
  event.eventType = "REQUIREMENT_CONFIRMED" ∨
    event.eventType = "REQUIREMENT_REJECTED"

/-- A log opens with its intake decision, decides only once, and ends with a
rejection if there is one. -/
structure IntakeFirst (events : List EventWrite) : Prop where
  first : ∀ event, events.head? = some event → event.IsIntake
  only_first : ∀ event ∈ events, event.IsIntake → event.pipelineRevision = 1
  rejected_last : ∀ event ∈ events, event.eventType = "REQUIREMENT_REJECTED" →
    events.getLast? = some event

/-- The logs a pipeline of each status can have. -/
def History : Status → List EventWrite → Prop
  | .unconfirmed, events => events = []
  | .opened, events => ∃ first rest, events = first :: rest ∧
      first.eventType = "REQUIREMENT_CONFIRMED" ∧ ∀ event ∈ rest, ¬event.IsIntake
  | .rejected, events => ∃ only, events = [only] ∧
      only.eventType = "REQUIREMENT_REJECTED"

/-- A stored snapshot, an absent one read as the initial state. -/
def snapshotOr (ws pl : String) (snapshot : Option PipelineSnapshot) :
    PipelineSnapshot :=
  snapshot.getD (.initial ws pl)

/-- The log of one pipeline against its stored snapshot. -/
structure WellFolded (codec : Codec) (ws pl : String) (events : List EventWrite)
    (snapshot : Option PipelineSnapshot) : Prop where
  revisions : events.map EventWrite.pipelineRevision =
    List.range' 1 events.length
  folds : foldPipelineEvents codec ws pl events = .ok (snapshotOr ws pl snapshot)
  revision : (snapshotOr ws pl snapshot).revision = events.length
  history : ∃ status : Status,
    (snapshotOr ws pl snapshot).status = status.value ∧ History status events

/-- A log whose revisions count from one comes in revision order. -/
theorem sortByRevision_of_numbered {events : List EventWrite}
    (hrevisions : events.map EventWrite.pipelineRevision =
      List.range' 1 events.length) : sortByRevision events = events := by
  apply List.Pairwise.insertionSort_eq
  have hle : (events.map EventWrite.pipelineRevision).Pairwise (· ≤ ·) := by
    rw [hrevisions]
    exact List.pairwise_le_range'
  exact List.pairwise_map.mp hle

/-- One more event with the next number. -/
theorem numbered_concat {events : List EventWrite} {event : EventWrite}
    (hrevisions : events.map EventWrite.pipelineRevision =
      List.range' 1 events.length)
    (hnumber : event.pipelineRevision = events.length + 1) :
    (events ++ [event]).map EventWrite.pipelineRevision =
      List.range' 1 (events ++ [event]).length := by
  rw [List.map_append, hrevisions, List.length_append, List.length_singleton,
    List.range'_1_concat, List.map_singleton, hnumber, Nat.add_comm 1]

/-- A numbered history has the intake shape. -/
theorem History.intakeFirst {status : Status} {events : List EventWrite}
    (hhistory : History status events)
    (hrevisions : events.map EventWrite.pipelineRevision =
      List.range' 1 events.length) : IntakeFirst events := by
  cases status with
  | unconfirmed =>
      obtain rfl : events = [] := hhistory
      exact ⟨by simp, by simp, by simp⟩
  | opened =>
      obtain ⟨first, rest, rfl, hfirst, hrest⟩ := hhistory
      have hone : first.pipelineRevision = 1 := by
        simpa [List.range'_succ] using congrArg List.head? hrevisions
      refine ⟨?_, ?_, ?_⟩
      · rintro event ⟨⟩
        exact Or.inl hfirst
      · intro event hmem hintake
        rcases List.mem_cons.mp hmem with rfl | hmem
        · exact hone
        · exact absurd hintake (hrest event hmem)
      · intro event hmem hrejected
        rcases List.mem_cons.mp hmem with rfl | hmem
        · simp [hfirst] at hrejected
        · exact absurd (Or.inr hrejected) (hrest event hmem)
  | rejected =>
      obtain ⟨only, rfl, honly⟩ := hhistory
      have hone : only.pipelineRevision = 1 := by
        simpa [List.range'_succ] using congrArg List.head? hrevisions
      refine ⟨?_, ?_, ?_⟩
      · rintro event ⟨⟩
        exact Or.inr honly
      · intro event hmem _
        rw [List.mem_singleton.mp hmem]
        exact hone
      · intro event hmem _
        rw [List.mem_singleton.mp hmem]
        rfl

/-- What `_state_from_snapshot` reads is what is stored. -/
theorem stateFromSnapshot_eq (ws pl : String)
    {snapshot : Option PipelineSnapshot} {current : PipelineState}
    (hcurrent : stateFromSnapshot snapshot = some current) :
    (snapshotOr ws pl snapshot).status = current.status.value ∧
      (snapshotOr ws pl snapshot).revision = current.revision ∧
      (snapshotOr ws pl snapshot).text = current.text := by
  cases snapshot with
  | none =>
      cases hcurrent
      exact ⟨rfl, rfl, rfl⟩
  | some snapshot =>
      obtain ⟨status, hstatus, rfl⟩ := Option.map_eq_some_iff.mp hcurrent
      refine ⟨?_, rfl, rfl⟩
      change snapshot.status = status.value
      unfold Status.ofValue? at hstatus
      split at hstatus
      · cases hstatus
        assumption
      · split at hstatus
        · cases hstatus
          assumption
        · split at hstatus
          · cases hstatus
            assumption
          · cases hstatus

theorem Status.value_injective {left right : Status}
    (hvalue : left.value = right.value) : left = right := by
  have hread := congrArg Status.ofValue? hvalue
  simpa using hread

namespace WellFolded

variable {codec : Codec} {ws pl : String} {events : List EventWrite}
  {snapshot : Option PipelineSnapshot}

theorem nil : WellFolded codec ws pl [] none :=
  ⟨rfl, rfl, rfl, .unconfirmed, rfl, rfl⟩

/-- Storing the snapshot that was read changes nothing. -/
theorem stored (hfolded : WellFolded codec ws pl events snapshot) :
    WellFolded codec ws pl events (some (snapshotOr ws pl snapshot)) :=
  ⟨hfolded.revisions, hfolded.folds, hfolded.revision, hfolded.history⟩

/-- Appending an event with the next number, when the fold of the event over
the old snapshot is the new one. -/
theorem append {event : EventWrite} {next : PipelineSnapshot} {status : Status}
    (hfolded : WellFolded codec ws pl events snapshot)
    (hnumber : event.pipelineRevision = events.length + 1)
    (hnext : next.revision = events.length + 1)
    (hfold : foldPipelineEvent codec (snapshotOr ws pl snapshot) event = .ok next)
    (hstatus : next.status = status.value)
    (hhistory : History status (events ++ [event])) :
    WellFolded codec ws pl (events ++ [event]) (some next) where
  revisions := numbered_concat hfolded.revisions hnumber
  folds := by
    rw [foldPipelineEvents_append_singleton codec hfolded.folds]
    exact hfold
  revision := by simpa [snapshotOr] using hnext
  history := ⟨status, hstatus, hhistory⟩

end WellFolded

theorem Station.eventType_not_intake (station : Station) :
    station.eventType ≠ "REQUIREMENT_CONFIRMED" ∧
      station.eventType ≠ "REQUIREMENT_REJECTED" := by
  cases station <;> decide

/-- The fold reads the confirmed text back from the event's payload. -/
theorem foldPipelineEvent_confirmed {codec : Codec} (hloads : codec.LoadsTexts)
    {text payloadJson : String} {event : EventWrite}
    (htype : event.eventType = "REQUIREMENT_CONFIRMED")
    (hjson : event.payloadJson = payloadJson)
    (hpayload : codec.canonicalJson
      (Json.ofTexts (DomainEvent.requirementConfirmed text).payload.rows) =
        some payloadJson) (snapshot : PipelineSnapshot) :
    foldPipelineEvent codec snapshot event =
      .ok { snapshot with
        revision := event.pipelineRevision
        status := "OPEN"
        text := text } := by
  obtain ⟨members, hparsed, hmember⟩ := hloads _ _ hpayload
  have htext : Json.member? members "text" = some (.str text) := by
    rw [hmember]
    simp [DomainEvent.payload]
  simp only [foldPipelineEvent, htype, ↓reduceIte, hjson, hparsed, htext]
  rfl

/-- The status and the log of a pipeline after an accepted command. -/
theorem History.accepted {k : KernelController} {command : ControllerCommand}
    {events : List EventWrite} (a : k.Acceptance command)
    (hhistory : History a.current.status events) :
    History a.state.status (events ++ [a.write.event]) := by
  rcases PipelineState.apply_accepted_cases a.apply_eq with
    ⟨station, fields, hopen, hevent, hstate⟩ |
    ⟨text, hfresh, hevent, hstate⟩ | ⟨reason, hfresh, hevent, hstate⟩
  · rw [hopen] at hhistory
    obtain ⟨first, rest, rfl, hfirst, hrest⟩ := hhistory
    have htype : a.write.event.eventType = station.eventType :=
      congrArg DomainEvent.eventType (Option.some.inj hevent)
    rw [hstate]
    refine ⟨first, rest ++ [a.write.event], rfl, hfirst, ?_⟩
    intro event hmem
    rcases List.mem_append.mp hmem with hold | hnew
    · exact hrest event hold
    · rw [List.mem_singleton.mp hnew, EventWrite.IsIntake, htype]
      rintro (hconfirmed | hrejected)
      · exact station.eventType_not_intake.1 hconfirmed
      · exact station.eventType_not_intake.2 hrejected
  · rw [hfresh] at hhistory
    obtain rfl : events = [] := hhistory
    rw [hstate]
    exact ⟨a.write.event, [], rfl,
      congrArg DomainEvent.eventType (Option.some.inj hevent), by simp⟩
  · rw [hfresh] at hhistory
    obtain rfl : events = [] := hhistory
    rw [hstate]
    exact ⟨a.write.event, rfl,
      congrArg DomainEvent.eventType (Option.some.inj hevent)⟩

/-- Folding the new event over the old snapshot gives the snapshot that the
evaluator computed. -/
theorem foldPipelineEvent_accepted {k : KernelController}
    (hloads : k.codec.LoadsTexts) {command : ControllerCommand}
    (a : k.Acceptance command) {old : PipelineSnapshot}
    (hws : old.workspaceId = command.workspaceId)
    (hpl : old.pipelineId = command.pipelineId)
    (hstatus : old.status = a.current.status.value)
    (htext : old.text = a.current.text) :
    foldPipelineEvent k.codec old a.write.event = .ok a.write.pipeline := by
  rcases PipelineState.apply_accepted_cases a.apply_eq with
    ⟨station, fields, hopen, hevent, hstate⟩ |
    ⟨text, hfresh, hevent, hstate⟩ | ⟨reason, hfresh, hevent, hstate⟩
  · have htype : a.write.event.eventType = station.eventType :=
      congrArg DomainEvent.eventType (Option.some.inj hevent)
    simp only [foldPipelineEvent, htype, station.eventType_not_intake.1,
      station.eventType_not_intake.2, ↓reduceIte]
    simp [Acceptance.write, acceptedWrite, ← hws, ← hpl, hstate, htext,
      hstatus, hopen]
  · have htype : a.write.event.eventType = "REQUIREMENT_CONFIRMED" :=
      congrArg DomainEvent.eventType (Option.some.inj hevent)
    have hpayload := a.payload_eq
    rw [Option.some.inj hevent] at hpayload
    rw [foldPipelineEvent_confirmed hloads htype rfl hpayload]
    simp [Acceptance.write, acceptedWrite, ← hws, ← hpl, hstate, Status.value]
  · have htype : a.write.event.eventType = "REQUIREMENT_REJECTED" :=
      congrArg DomainEvent.eventType (Option.some.inj hevent)
    simp only [foldPipelineEvent, htype, ↓reduceIte]
    simp [Acceptance.write, acceptedWrite, ← hws, ← hpl, hstate, htext,
      Status.value]

/-- An accepted command keeps its own pipeline's log and snapshot together. -/
theorem WellFolded.accepted {k : KernelController} (hloads : k.codec.LoadsTexts)
    {command : ControllerCommand} {events : List EventWrite}
    (a : k.Acceptance command)
    (hfolded : WellFolded k.codec command.workspaceId command.pipelineId events
      a.snapshot) :
    WellFolded k.codec command.workspaceId command.pipelineId
      (events ++ [a.write.event]) (some a.write.pipeline) := by
  obtain ⟨hstatus, hrevision, htext⟩ := stateFromSnapshot_eq
    command.workspaceId command.pipelineId a.current_eq
  have hcount : a.state.revision = events.length + 1 := by
    rw [a.revision_succ, ← hrevision, hfolded.revision]
  obtain ⟨status, hvalue, hhistory⟩ := hfolded.history
  obtain rfl : status = a.current.status :=
    Status.value_injective (hvalue.symm.trans hstatus)
  obtain ⟨hws, hpl⟩ := foldPipelineEvents_ids k.codec hfolded.folds
  exact hfolded.append hcount hcount
    (foldPipelineEvent_accepted hloads a hws hpl hstatus htext) rfl
    (hhistory.accepted a)

/-- The events of one pipeline in the order they were appended. -/
def eventsOf (events : List EventWrite) (ws pl : String) : List EventWrite :=
  events.filter fun event => event.pipelineId = pl ∧ event.workspaceId = ws

theorem eventsOf_append_self (events : List EventWrite) {event : EventWrite}
    {ws pl : String} (hws : event.workspaceId = ws) (hpl : event.pipelineId = pl) :
    eventsOf (events ++ [event]) ws pl = eventsOf events ws pl ++ [event] := by
  simp [eventsOf, List.filter_append, hws, hpl]

theorem eventsOf_append_other (events : List EventWrite) {event : EventWrite}
    {ws pl : String} (hscope : (ws, pl) ≠ event.scope) :
    eventsOf (events ++ [event]) ws pl = eventsOf events ws pl := by
  have hnot : ¬(event.pipelineId = pl ∧ event.workspaceId = ws) := by
    rintro ⟨rfl, rfl⟩
    exact hscope rfl
  simp [eventsOf, List.filter_append, hnot]

namespace MemoryKernelStore

/-- Every pipeline's log folds to its snapshot. -/
def FoldsEvents (codec : Codec) (s : MemoryKernelStore) : Prop :=
  ∀ ws pl, ws ≠ "" →
    WellFolded codec ws pl (eventsOf s.events ws pl) (s.pipelines.get? (ws, pl))

theorem foldsEvents_init (codec : Codec) : FoldsEvents codec .init :=
  fun _ _ _ => WellFolded.nil

theorem foldsEvents_tables {codec : Codec} {s : MemoryKernelStore} :
    FoldsEvents codec s.tables ↔ FoldsEvents codec s := Iff.rfl

theorem FoldsEvents.listEvents_eq {codec : Codec} {s : MemoryKernelStore}
    (hfolds : FoldsEvents codec s) {ws : String} (pl : String) (hws : ws ≠ "") :
    s.listEvents ws pl = eventsOf s.events ws pl := by
  rw [listEvents, if_neg hws]
  exact sortByRevision_of_numbered (hfolds ws pl hws).revisions

/-- Rebuilding writes the snapshot that was there, or the initial one. -/
theorem FoldsEvents.rebuildPipeline_eq {codec : Codec} {s : MemoryKernelStore}
    (hfolds : FoldsEvents codec s) {ws : String} (pl : String) (hws : ws ≠ "") :
    s.rebuildPipeline codec ws pl =
      let snapshot := snapshotOr ws pl (s.pipelines.get? (ws, pl))
      let pipelines := (s.pipelines.pop (ws, pl)).set (ws, pl) snapshot
      (.ok snapshot, { s with pipelines := pipelines }) := by
  have hevents : (s.deletePipeline ws pl).listEvents ws pl =
      eventsOf s.events ws pl := by
    rw [deletePipeline, if_neg hws]
    exact hfolds.listEvents_eq pl hws
  rw [rebuildPipeline, if_neg hws]
  simp only [hevents, (hfolds ws pl hws).folds]
  simp [deletePipeline, hws]

theorem FoldsEvents.commit {k : KernelController} (hloads : k.codec.LoadsTexts)
    {command : ControllerCommand} {s : MemoryKernelStore}
    (hfolds : FoldsEvents k.codec s) (a : k.Acceptance command)
    (hloaded : a.snapshot =
      s.pipelines.get? (command.workspaceId, command.pipelineId)) :
    FoldsEvents k.codec (s.tables.commitAccepted a.write).2 := by
  intro ws pl hws
  change WellFolded k.codec ws pl (eventsOf (s.events ++ [a.write.event]) ws pl)
    ((s.pipelines.set (command.workspaceId, command.pipelineId)
      a.write.pipeline).get? (ws, pl))
  by_cases hscope : (ws, pl) = (command.workspaceId, command.pipelineId)
  · obtain ⟨rfl, rfl⟩ := Prod.mk.inj hscope
    have hevents : eventsOf (s.events ++ [a.write.event]) command.workspaceId
        command.pipelineId =
        eventsOf s.events command.workspaceId command.pipelineId ++
          [a.write.event] := eventsOf_append_self s.events rfl rfl
    rw [Dict.get?_set_self, hevents]
    apply WellFolded.accepted hloads a
    rw [hloaded]
    exact hfolds _ _ hws
  · rw [Dict.get?_set_of_ne _ _ hscope, eventsOf_append_other s.events hscope]
    exact hfolds ws pl hws

theorem FoldsEvents.rebuild {codec : Codec} {s : MemoryKernelStore}
    (hfolds : FoldsEvents codec s) {ws : String} (pl : String) (hws : ws ≠ "") :
    FoldsEvents codec (s.rebuildPipeline codec ws pl).2 := by
  rw [hfolds.rebuildPipeline_eq pl hws]
  intro ws' pl' hws'
  by_cases hscope : (ws', pl') = (ws, pl)
  · obtain ⟨rfl, rfl⟩ := Prod.mk.inj hscope
    simp only [Dict.get?_set_self]
    exact (hfolds ws' pl' hws').stored
  · simp only [Dict.get?_set_of_ne _ _ hscope, Dict.get?_pop_of_ne _ hscope]
    exact hfolds ws' pl' hws'

theorem FoldsEvents.effect {env : KernelEnv} {s s' : MemoryKernelStore}
    (hfolds : FoldsEvents env.codec s) (heffect : MemoryEffect env s s') :
    FoldsEvents env.codec s' := by
  rw [← foldsEvents_tables]
  cases heffect with
  | quiet same =>
      rw [same]
      exact hfolds
  | rebuilt nonempty same =>
      rw [same]
      exact FoldsEvents.rebuild (s := s.tables) hfolds _ nonempty
  | delivered ws cmd receiptJson same =>
      obtain ⟨outbox, hframe, -⟩ :=
        s.tables.recordOutboxDelivery_frame ws cmd receiptJson
      rw [same, hframe]
      exact hfolds
  | leased leases same =>
      rw [same]
      exact hfolds

/-- Every session step keeps the logs folding to the snapshots. -/
theorem FoldsEvents.step {env : KernelEnv} (hloads : env.codec.LoadsTexts)
    {s : Session MemoryKernelStore} {op : SessionOp}
    {answer : Except PyError KernelAnswer} {s' : MemoryKernelStore}
    (hfolds : FoldsEvents env.codec s.store)
    (hstep : MemoryStep env s op answer s') : FoldsEvents env.codec s' := by
  cases hstep with
  | maintained op_eq effect => exact hfolds.effect effect
  | @submitted command outcome op_eq answer_eq effect =>
      cases effect with
      | kept same status =>
          rw [← foldsEvents_tables, same]
          exact hfolds
      | replayed => exact hfolds
      | accepted a absent loaded commit =>
          rw [← foldsEvents_tables, commitAccepted_ok commit]
          refine FoldsEvents.commit (k := env.controller s.paused) hloads hfolds a ?_
          exact (loadPipeline_loaded command.workspaceId_ne_empty loaded).symm

end MemoryKernelStore

theorem after_foldsEvents {env : KernelEnv} (hloads : env.codec.LoadsTexts)
    (ops : List SessionOp) :
    (Session.after env (memoryStore env.codec) ops).store.FoldsEvents
      env.codec := by
  refine exec_invariant (P := fun s : Session MemoryKernelStore =>
    s.store.FoldsEvents env.codec) ?_ ?_ ops
  · intro s op hfolds
    exact hfolds.step hloads (memoryStep env s op)
  · exact MemoryKernelStore.foldsEvents_init env.codec

/-- What a read of the pipeline answers, with no injected read fault pending. -/
def MemoryKernelStore.view (codec : Codec) (s : MemoryKernelStore)
    (ws pl : String) : Except PyError PipelineView :=
  ((KernelController.read ⟨pl, ws⟩).run (handle codec)
    { s with failRead := false }).1

/-- Rebuilding a pipeline does not change what a read of it returns.  With a
read fault pending the rebuild's own read takes the fault; the table it leaves
is read the same. -/
structure RebuildNeutral (codec : Codec) (s : MemoryKernelStore)
    (ws pl : String) : Prop where
  view_eq : ((rebuild ⟨pl, ws⟩).run (MemoryKernelStore.handle codec) s).2.view
      codec ws pl = s.view codec ws pl
  answer_eq : s.failRead = false →
    ((rebuild ⟨pl, ws⟩).run (MemoryKernelStore.handle codec) s).1 =
      ((KernelController.read ⟨pl, ws⟩).run (MemoryKernelStore.handle codec) s).1

/-- A view does not tell an absent snapshot from the initial one. -/
theorem viewFromSnapshot_or (ws pl : String) (snapshot : Option PipelineSnapshot) :
    viewFromSnapshot pl (some (snapshotOr ws pl snapshot)) =
      viewFromSnapshot pl snapshot := by
  cases snapshot <;> rfl

namespace MemoryKernelStore

variable {codec : Codec}

theorem view_eq (s : MemoryKernelStore) {ws : String} (pl : String)
    (hws : ws ≠ "") :
    s.view codec ws pl =
      .ok (viewFromSnapshot pl (s.pipelines.get? (ws, pl))) := by
  simp only [view, KernelController.read, hws, ↓reduceIte, ask,
    Program.run_bind_done, Program.run_perform, handle, loadPipeline]
  rfl

theorem read_view (s : MemoryKernelStore) (ws pl : String)
    (hread : s.failRead = false) :
    ((KernelController.read ⟨pl, ws⟩).run (handle codec) s).1 =
      s.view codec ws pl := by
  rw [view, ← hread]

theorem read_pipelines (s : MemoryKernelStore) (query : PipelineQuery) :
    ((KernelController.read query).run (handle codec) s).2.pipelines =
      s.pipelines := by
  have htables := (ReadRun.of_calls (h := handle codec)
    (MemoryEffect.calls_read query) s).preserves handle_read_tables
  have hpipelines := congrArg pipelines htables
  exact hpipelines

theorem FoldsEvents.rebuildNeutral {s : MemoryKernelStore}
    (hfolds : FoldsEvents codec s) {ws : String} (pl : String) (hws : ws ≠ "") :
    RebuildNeutral codec s ws pl := by
  have hrun : (KernelController.rebuild ⟨pl, ws⟩).run (handle codec) s =
      (KernelController.read ⟨pl, ws⟩).run (handle codec)
        (s.rebuildPipeline codec ws pl).2 := by
    simp only [KernelController.rebuild, hws, ↓reduceIte, ask, Program.run_bind,
      Program.run_perform, handle, hfolds.rebuildPipeline_eq pl hws]
  have hview : (s.rebuildPipeline codec ws pl).2.view codec ws pl =
      s.view codec ws pl := by
    rw [view_eq _ pl hws, view_eq s pl hws, hfolds.rebuildPipeline_eq pl hws]
    simp only [Dict.get?_set_self, viewFromSnapshot_or]
  refine ⟨?_, ?_⟩
  · rw [← hview, view_eq _ pl hws, view_eq _ pl hws, hrun, read_pipelines]
  · intro hread
    rw [hrun, read_view s ws pl hread, ← hview]
    apply read_view
    rw [hfolds.rebuildPipeline_eq pl hws]
    exact hread

end MemoryKernelStore

/-- In every state a session over the memory store reaches: the events of a
pipeline are numbered from one without gap or repeat, they fold to the stored
snapshot, they open with the one intake decision, and rebuilding the pipeline
is invisible to a reader. -/
theorem session_events_fold_to_snapshot (env : KernelEnv)
    (hloads : env.codec.LoadsTexts) (ops : List SessionOp) (ws pl : String)
    (hws : ws ≠ "") :
    let store := (Session.after env (memoryStore env.codec) ops).store
    let events := store.listEvents ws pl
    let snapshot := snapshotOr ws pl (store.pipelines.get? (ws, pl))
    events.map EventWrite.pipelineRevision = List.range' 1 events.length ∧
      foldPipelineEvents env.codec ws pl events = .ok snapshot ∧
      snapshot.revision = events.length ∧
      IntakeFirst events ∧
      RebuildNeutral env.codec store ws pl := by
  intro store events snapshot
  have hfolds : store.FoldsEvents env.codec := after_foldsEvents hloads ops
  have hevents : events = eventsOf store.events ws pl :=
    hfolds.listEvents_eq pl hws
  have hfolded := hfolds ws pl hws
  rw [← hevents] at hfolded
  obtain ⟨status, -, hhistory⟩ := hfolded.history
  exact ⟨hfolded.revisions, hfolded.folds, hfolded.revision,
    hhistory.intakeFirst hfolded.revisions, hfolds.rebuildNeutral pl hws⟩

namespace EventSourcingWitness

open ReferenceCodec

def env : KernelEnv := ⟨sampleCodec, "2026-08-06T00:00:00Z"⟩

/-- A confirmation, a record whose first commit fails, and a rebuild. -/
def ops : List SessionOp :=
  [.call (.submit sampleConfirm), .tripCommitFailure,
    .call (.submit sampleRecord), .call (.submit sampleRecord),
    .call (.rebuild ⟨"pl_a", "ws_a"⟩)]

theorem session_events_fold_to_snapshot_at_ops :
    let store := (Session.after env (memoryStore env.codec) ops).store
    let events := store.listEvents "ws_a" "pl_a"
    let snapshot := snapshotOr "ws_a" "pl_a" (store.pipelines.get? ("ws_a", "pl_a"))
    events.length = 2 ∧
      (events.map EventWrite.pipelineRevision = List.range' 1 events.length ∧
        foldPipelineEvents env.codec "ws_a" "pl_a" events = .ok snapshot ∧
        snapshot.revision = events.length ∧
        IntakeFirst events ∧
        RebuildNeutral env.codec store "ws_a" "pl_a") :=
  ⟨by decide +kernel,
    session_events_fold_to_snapshot env (loadsTexts sampleDigest) ops "ws_a"
      "pl_a" (by decide)⟩

end EventSourcingWitness

end HermesPipeline
