/-
What recording a station does to the store.  A record either leaves the store
as it is, or appends its one event; on an open pipeline with a command id of
its own it is the commit alone that decides.
-/
import HermesPipeline.ConcurrentSubmit
import HermesPipeline.StageProjection
import HermesPipeline.StageWorker

namespace HermesPipeline

open Lib KernelController

/-- A command of texts has a content hash exactly when RFC 8785 can write its
revision, and every object of texts has a canonical text. -/
structure Codec.Serializes (codec : Codec) : Prop where
  hashes : ∀ command : ControllerCommand, command.Textual →
    ((∃ hash, codec.contentHash command.modelDump = some hash) ↔
      command.expectedRevision ≤ maxSafeInteger)
  texts : codec.WritesTexts

/-- A codec that hashes every command serializes with the integers refused that
RFC 8785 refuses. -/
theorem Codec.serializes_asJcs {codec : Codec}
    (hhashes : ∀ command : ControllerCommand,
      ∃ hash, codec.contentHash command.modelDump = some hash)
    (htexts : codec.WritesTexts) : codec.asJcs.Serializes where
  hashes := by
    intro command htextual
    obtain ⟨hash, hhash⟩ := hhashes command
    rw [← htextual.representable_iff]
    constructor
    · rintro ⟨other, hother⟩
      exact (Codec.contentHash_asJcs command other).mp hother |>.1
    · intro hwritten
      exact ⟨hash, (Codec.contentHash_asJcs command hash).mpr ⟨hwritten, hhash⟩⟩
  texts := htexts.asJcs

/-- No fault is pending in the store. -/
structure SqliteKernelStore.Healthy (s : SqliteKernelStore) : Prop where
  failRead : s.failRead = false
  failAfter : s.failAfter = false

namespace SqliteKernelStore

variable {codec : Codec} {s s' : SqliteKernelStore}

theorem Healthy.readRun (hhealthy : s.Healthy)
    (hreads : ReadRun (handle codec) s s') : s' = s := by
  induction hreads with
  | refl s => rfl
  | step op hread rest ih =>
      have hsame := @handle_read_same codec _ _ hread hhealthy.failRead
      rw [hsame] at ih
      exact ih hhealthy

theorem Healthy.commit (hhealthy : s.Healthy) {write : AcceptedWrite}
    (hcommits : s.Commits write s') : s'.Healthy :=
  ⟨hcommits.failRead.trans hhealthy.failRead,
    hcommits.failAfter.trans hhealthy.failAfter⟩

/-- No operation puts a fault into a store that has none. -/
theorem Healthy.handle (hhealthy : s.Healthy) (op : StoreOp) :
    (SqliteKernelStore.handle codec op s).2.Healthy := by
  have hread := hhealthy.failRead
  have hafter := hhealthy.failAfter
  have hsame : ∀ store : SqliteKernelStore, store.failRead = s.failRead →
      store.failAfter = s.failAfter → store.Healthy :=
    fun store h₁ h₂ => ⟨h₁.trans hread, h₂.trans hafter⟩
  cases op with
  | loadPipeline ws pl =>
      simp only [SqliteKernelStore.handle, SqliteKernelStore.loadPipeline, hread]
      split
      · exact absurd ‹_› Bool.false_ne_true
      · split <;> exact hhealthy
  | commitAccepted write =>
      rcases s.commitAccepted_cases hafter write with
        ⟨error, hcommit⟩ | ⟨store, hcommit, -⟩
      · simp only [SqliteKernelStore.handle, hcommit]
        exact hhealthy
      · simp only [SqliteKernelStore.handle, hcommit]
        exact hhealthy.commit (commits_of_ok hcommit)
  | rebuildPipeline ws pl =>
      simp only [SqliteKernelStore.handle, rebuildPipeline, deletePipeline]
      repeat' split
      all_goals exact hsame _ rfl rfl
  | deletePipeline ws pl =>
      simp only [SqliteKernelStore.handle, deletePipeline]
      split <;> exact hsame _ rfl rfl
  | recordOutboxDelivery ws cmd receipt =>
      simp only [SqliteKernelStore.handle, recordOutboxDelivery]
      split <;> exact hsame _ rfl rfl
  | saveLease record =>
      simp only [SqliteKernelStore.handle, saveLease]
      repeat' split
      all_goals exact hsame _ rfl rfl
  | deleteLease ws pl =>
      simp only [SqliteKernelStore.handle, deleteLease]
      split <;> exact hsame _ rfl rfl
  | deleteExpiredLeases now =>
      simp only [SqliteKernelStore.handle, deleteExpiredLeases]
      split <;> exact hsame _ rfl rfl
  | findInbox ws cmd => exact hhealthy
  | listEvents ws pl => exact hhealthy
  | listPendingOutbox ws => exact hhealthy
  | findOutbox ws cmd => exact hhealthy
  | loadLease ws pl => exact hhealthy
  | counts => exact hhealthy

theorem Healthy.loadPipeline (hhealthy : s.Healthy) {ws : String} (pl : String)
    (hws : ws ≠ "") :
    s.loadPipeline ws pl = (.ok (s.pipelines.find? (ws, pl)), s) := by
  simp [SqliteKernelStore.loadPipeline, hhealthy.failRead, hws]

end SqliteKernelStore

namespace SqliteKernelStore

/-- Nothing but leases and deliveries has changed. -/
structure SameLog (s s' : SqliteKernelStore) : Prop where
  inbox : s'.inbox = s.inbox
  events : s'.events = s.events
  pipelines : s'.pipelines = s.pipelines
  outbox : s'.outbox.rows.map OutboxRecord.key =
    s.outbox.rows.map OutboxRecord.key
  failRead : s'.failRead = s.failRead
  failAfter : s'.failAfter = s.failAfter

namespace SameLog

variable {s s' s'' : SqliteKernelStore}

theorem refl (s : SqliteKernelStore) : SameLog s s :=
  ⟨rfl, rfl, rfl, rfl, rfl, rfl⟩

theorem trans (first : SameLog s s') (second : SameLog s' s'') :
    SameLog s s'' where
  inbox := second.inbox.trans first.inbox
  events := second.events.trans first.events
  pipelines := second.pipelines.trans first.pipelines
  outbox := second.outbox.trans first.outbox
  failRead := second.failRead.trans first.failRead
  failAfter := second.failAfter.trans first.failAfter

theorem symm (hsame : SameLog s s') : SameLog s' s :=
  ⟨hsame.inbox.symm, hsame.events.symm, hsame.pipelines.symm,
    hsame.outbox.symm, hsame.failRead.symm, hsame.failAfter.symm⟩

theorem healthy (hsame : SameLog s s') (hhealthy : s.Healthy) : s'.Healthy :=
  ⟨hsame.failRead.trans hhealthy.failRead,
    hsame.failAfter.trans hhealthy.failAfter⟩

theorem numbered (hsame : SameLog s s') (hnumbered : s.Numbered) :
    s'.Numbered := by
  constructor
  · rw [hsame.events]
    exact hnumbered.revisions
  · unfold storedRevision
    rw [hsame.events, hsame.pipelines]
    exact hnumbered.snapshot

theorem listEvents (hsame : SameLog s s') (ws pl : String) :
    s'.listEvents ws pl = s.listEvents ws pl := by
  rw [SqliteKernelStore.listEvents, SqliteKernelStore.listEvents, listEventsOn,
    listEventsOn, hsame.events]

end SameLog

end SqliteKernelStore

section Submit

variable {k : KernelController} {command : ControllerCommand}
  {s : SqliteKernelStore}

/-- What `submit` does to a store without a pending fault: nothing, or its one
commit. -/
theorem submit_healthy (hhealthy : s.Healthy) :
    ((k.submit command).run (SqliteKernelStore.handle k.codec) s).2 = s ∨
      ∃ (a : k.Acceptance command) (s' : SqliteKernelStore),
        (k.submit command).run (SqliteKernelStore.handle k.codec) s =
          (.ok a.receipt, s') ∧
        s.findInbox command.workspaceId command.commandId = none ∧
        a.snapshot = s.pipelines.find?
          (command.workspaceId, command.pipelineId) ∧
        s.commitAccepted a.write = (.ok (), s') := by
  have hrun := k.submit_run (SqliteKernelStore.handle k.codec) command s
  generalize (k.submit command).run (SqliteKernelStore.handle k.codec) s = r at hrun
  obtain ⟨outcome, s'⟩ := r
  cases hrun with
  | refused reads status => exact Or.inl (hhealthy.readRun reads)
  | replayed running hash_eq found same parsed => exact Or.inl rfl
  | @committed a s₁ s₂ s₃ running absent loaded commit =>
      obtain ⟨habsent, rfl⟩ := Prod.mk.inj absent
      have hload : s.loadPipeline command.workspaceId command.pipelineId =
          (.ok a.snapshot, s₂) := loaded
      rw [hhealthy.loadPipeline _ command.workspaceId_ne_empty] at hload
      obtain ⟨hsnapshot, rfl⟩ := Prod.mk.inj hload
      refine Or.inr ⟨a, _, rfl, Except.ok.inj habsent,
        (Except.ok.inj hsnapshot).symm, commit⟩
  | @failed a s₁ s₂ s₃ error outcome absent loaded commit status =>
      obtain ⟨-, rfl⟩ := Prod.mk.inj absent
      have hload : s.loadPipeline command.workspaceId command.pipelineId =
          (.ok a.snapshot, s₂) := loaded
      rw [hhealthy.loadPipeline _ command.workspaceId_ne_empty] at hload
      obtain ⟨-, rfl⟩ := Prod.mk.inj hload
      have hcommit : s.commitAccepted a.write = (.error error, s') := commit
      rcases s.commitAccepted_cases hhealthy.failAfter a.write with
        ⟨_, hsame⟩ | ⟨_, hsame, -⟩
      · rw [hsame] at hcommit
        exact Or.inl (Prod.mk.inj hcommit).2.symm
      · rw [hsame] at hcommit
        cases (Prod.mk.inj hcommit).1

/-- A commit that opened its pipeline or kept it open: the log has one more
event, the inbox one more row. -/
structure Grows (ws pl cmd : String) (event : EventWrite)
    (s s' : SqliteKernelStore) : Prop where
  workspace : ws ≠ ""
  scope : event.scope = (ws, pl)
  id : event.eventId = eventId ws cmd
  events : s'.events.rows = s.events.rows ++ [event]
  inbox : ∃ row : InboxRecord, row.key = (ws, cmd) ∧
    s'.inbox.rows = s.inbox.rows ++ [row]
  outbox : s'.outbox.rows.map OutboxRecord.key =
    s.outbox.rows.map OutboxRecord.key ++ [(ws, cmd)]
  fresh : s.inbox.find? (ws, cmd) = none
  room : s.storedRevision ws pl < 9223372036854775807
  opened : ∃ snapshot, s'.pipelines.find? (ws, pl) = some snapshot ∧
    snapshot.status = "OPEN"
  other : ∀ key, key ≠ (ws, pl) →
    s'.pipelines.find? key = s.pipelines.find? key
  healthy : s.Healthy → s'.Healthy
  numbered : s.Numbered → s'.Numbered

/-- An acceptance expects the revision of the stored snapshot. -/
theorem storedRevision_of_acceptance (a : k.Acceptance command)
    (hsnapshot : a.snapshot =
      s.pipelines.find? (command.workspaceId, command.pipelineId)) :
    s.storedRevision command.workspaceId command.pipelineId =
      command.expectedRevision := by
  have hcurrent := a.current_eq
  rw [a.revision_eq, SqliteKernelStore.storedRevision, ← hsnapshot]
  cases hstored : a.snapshot with
  | none =>
      rw [hstored, stateFromSnapshot, Option.some.injEq] at hcurrent
      rw [← hcurrent]
      rfl
  | some snapshot =>
      rw [hstored] at hcurrent
      simp only [stateFromSnapshot, Option.map_eq_some_iff] at hcurrent
      obtain ⟨status, -, hcurrent⟩ := hcurrent
      rw [← hcurrent]
      rfl

/-- The event of an acceptance has the revision after the stored one. -/
theorem pipelineRevision_of_acceptance (a : k.Acceptance command)
    (hsnapshot : a.snapshot =
      s.pipelines.find? (command.workspaceId, command.pipelineId)) :
    a.write.event.pipelineRevision =
      s.storedRevision command.workspaceId command.pipelineId + 1 := by
  rw [storedRevision_of_acceptance a hsnapshot, a.revision_eq]
  exact a.revision_succ

/-- A commit that went through had a revision that can be bound. -/
theorem room_of_commit {a : k.Acceptance command} {s' : SqliteKernelStore}
    (hcommit : s.commitAccepted a.write = (.ok (), s'))
    (hsnapshot : a.snapshot =
      s.pipelines.find? (command.workspaceId, command.pipelineId)) :
    s.storedRevision command.workspaceId command.pipelineId <
      9223372036854775807 := by
  have hfault := (SqliteKernelStore.commitAccepted_ok hcommit).1
  rcases s.commitAccepted_cases hfault a.write with
    ⟨_, hsame⟩ | ⟨_, -, hadmits⟩
  · rw [hsame] at hcommit
    cases (Prod.mk.inj hcommit).1
  · have hfits := hadmits.revision
    rw [pipelineRevision_of_acceptance a hsnapshot] at hfits
    simp only [fitsInt64, Bool.and_eq_true, decide_eq_true_eq] at hfits
    omega

theorem grows_of_commit {a : k.Acceptance command} {s' : SqliteKernelStore}
    (hcommit : s.commitAccepted a.write = (.ok (), s'))
    (hstate : a.state.status = .opened)
    (hfresh : s.findInbox command.workspaceId command.commandId = none)
    (hsnapshot : a.snapshot =
      s.pipelines.find? (command.workspaceId, command.pipelineId)) :
    Grows command.workspaceId command.pipelineId command.commandId
      a.write.event s s' := by
  have hcommits := SqliteKernelStore.commits_of_ok hcommit
  exact
    { workspace := command.workspaceId_ne_empty
      scope := rfl
      id := rfl
      events := hcommits.events
      inbox := ⟨a.write.inbox, rfl, hcommits.inbox⟩
      outbox := by
        obtain ⟨-, inbox, events, outbox, -, -, houtbox, rfl⟩ :=
          SqliteKernelStore.commitAccepted_ok hcommit
        have hrows := ((s.outbox.insert?_eq_some_iff _ _).mp houtbox).2
        simp only [hrows, List.map_append, List.map_cons, List.map_nil]
        rfl
      fresh := hfresh
      room := room_of_commit hcommit hsnapshot
      opened := by
        refine ⟨a.write.pipeline, ?_, ?_⟩
        · rw [hcommits.pipelines]
          exact s.pipelines.find?_upsert_self a.write.pipeline
        · change a.state.status.value = "OPEN"
          rw [hstate]
          rfl
      other := by
        intro key hkey
        rw [hcommits.pipelines]
        exact s.pipelines.find?_upsert_of_ne hkey
      healthy := fun hhealthy => hhealthy.commit hcommits
      numbered := fun hnumbered =>
        hnumbered.commit hcommits (storedRevision_of_acceptance a hsnapshot) }

end Submit

namespace Grows

variable {ws pl cmd : String} {event : EventWrite} {s s' : SqliteKernelStore}

theorem eventsOf_self (hgrows : Grows ws pl cmd event s s') :
    eventsOf s'.events.rows ws pl = eventsOf s.events.rows ws pl ++ [event] := by
  obtain ⟨hws, hpl⟩ := Prod.mk.inj hgrows.scope
  rw [hgrows.events]
  exact eventsOf_append_self _ hws hpl

theorem eventsOf_other (hgrows : Grows ws pl cmd event s s') {ws' pl' : String}
    (hother : (ws', pl') ≠ (ws, pl)) :
    eventsOf s'.events.rows ws' pl' = eventsOf s.events.rows ws' pl' := by
  rw [hgrows.events]
  apply eventsOf_append_other
  rw [hgrows.scope]
  exact hother

theorem listEvents_self (hgrows : Grows ws pl cmd event s s')
    (hnumbered : s.Numbered) :
    s'.listEvents ws pl = s.listEvents ws pl ++ [event] := by
  rw [hnumbered.listEvents_eq _ hgrows.workspace,
    (hgrows.numbered hnumbered).listEvents_eq _ hgrows.workspace,
    hgrows.eventsOf_self]

theorem listEvents_other (hgrows : Grows ws pl cmd event s s')
    (hnumbered : s.Numbered) {ws' pl' : String}
    (hother : (ws', pl') ≠ (ws, pl)) :
    s'.listEvents ws' pl' = s.listEvents ws' pl' := by
  by_cases hws : ws' = ""
  · simp [SqliteKernelStore.listEvents, hws]
  · rw [hnumbered.listEvents_eq _ hws,
      (hgrows.numbered hnumbered).listEvents_eq _ hws,
      hgrows.eventsOf_other hother]

/-- The inbox after a commit. -/
theorem find?_inbox (hgrows : Grows ws pl cmd event s s')
    {key : String × String} (hfound : s'.inbox.find? key ≠ none) :
    s.inbox.find? key ≠ none ∨ key = (ws, cmd) := by
  obtain ⟨row, hkey, hrows⟩ := hgrows.inbox
  obtain ⟨found, hsome⟩ := Option.ne_none_iff_exists'.mp hfound
  obtain ⟨hmem, hname⟩ := (s'.inbox.find?_eq_some_iff _ _).mp hsome
  rw [hrows, List.mem_append, List.mem_singleton] at hmem
  rcases hmem with hold | rfl
  · left
    rw [(s.inbox.find?_eq_some_iff _ _).mpr ⟨hold, hname⟩]
    simp
  · exact Or.inr (hname.symm.trans hkey)

end Grows

/-- The store some steps later: its logs have only grown. -/
structure SqliteKernelStore.Later (s s' : SqliteKernelStore) : Prop where
  healthy : s.Healthy → s'.Healthy
  numbered : s.Numbered → s'.Numbered
  log : s.Numbered → ∀ ws pl, s.listEvents ws pl <+: s'.listEvents ws pl

namespace SqliteKernelStore

variable {s s' s'' : SqliteKernelStore}

theorem Later.refl (s : SqliteKernelStore) : s.Later s :=
  ⟨id, id, fun _ _ _ => List.prefix_rfl⟩

theorem Later.trans (first : s.Later s') (second : s'.Later s'') :
    s.Later s'' where
  healthy := fun hhealthy => second.healthy (first.healthy hhealthy)
  numbered := fun hnumbered => second.numbered (first.numbered hnumbered)
  log := fun hnumbered ws pl => (first.log hnumbered ws pl).trans
    (second.log (first.numbered hnumbered) ws pl)

theorem SameLog.later (hsame : SameLog s s') : s.Later s' where
  healthy := hsame.healthy
  numbered := hsame.numbered
  log := by
    intro _ ws pl
    simp only [hsame.listEvents, List.prefix_rfl]

theorem later_of_grows {ws pl cmd : String} {event : EventWrite}
    (hgrows : Grows ws pl cmd event s s') : s.Later s' where
  healthy := hgrows.healthy
  numbered := hgrows.numbered
  log := by
    intro hnumbered ws' pl'
    by_cases hscope : (ws', pl') = (ws, pl)
    · obtain ⟨rfl, rfl⟩ := Prod.mk.inj hscope
      rw [hgrows.listEvents_self hnumbered]
      exact List.prefix_append _ _
    · simp only [hgrows.listEvents_other hnumbered hscope, List.prefix_rfl]

end SqliteKernelStore

namespace KernelBridge

section Command

variable {ws prj pl cmd : String} {station : Station} {revision : Nat}
  {fields : Dict String String} {command : ControllerCommand}

theorem filterMap_texts (fields : Dict String String) :
    (fields.filterMap fun text => some (Json.str text)).filterMap Json.text? =
      fields := by
  apply Keyed.ext
  simp only [Dict.filterMap, List.filterMap_filterMap]
  conv_rhs => rw [← List.filterMap_some (l := fields.rows)]
  apply List.filterMap_congr
  intro entry _
  rfl

theorem stationCommand_textual
    (hcommand : stationCommand ws prj pl cmd station revision fields =
      some command) : command.Textual := by
  simp only [stationCommand] at hcommand
  split at hcommand
  · cases hcommand
    exact ⟨fields, rfl⟩
  · cases hcommand

theorem stationCommand_ids
    (hcommand : stationCommand ws prj pl cmd station revision fields =
      some command) :
    command.workspaceId = ws ∧ command.pipelineId = pl ∧
      command.commandId = cmd ∧ command.expectedRevision = revision := by
  simp only [stationCommand] at hcommand
  split at hcommand
  · cases hcommand
    exact ⟨rfl, rfl, rfl, rfl⟩
  · cases hcommand

/-- The command of a record is read as that record. -/
theorem stationCommand_domain
    (hcommand : stationCommand ws prj pl cmd station revision fields =
      some command) :
    domainCommand command = some (.recordStation station fields) := by
  simp only [stationCommand] at hcommand
  split at hcommand
  · cases hcommand
    cases station <;>
      simp [domainCommand, Station.commandType, stationOf?, filterMap_texts]
  · cases hcommand

/-- An accepted record is of an open pipeline, and its event carries the
fields. -/
theorem stationCommand_acceptance {k : KernelController}
    (hcommand : stationCommand ws prj pl cmd station revision fields =
      some command) (a : k.Acceptance command) :
    a.current.status = .opened ∧
      a.event = .stationRecorded station fields ∧
      a.state = ⟨.opened, a.current.revision + 1, a.current.text⟩ := by
  have hparsed := a.parsed_eq
  rw [stationCommand_domain hcommand, Option.some.injEq] at hparsed
  have happly := a.apply_eq
  rw [← hparsed] at happly
  by_cases hstatus : a.current.status = .opened
  · simp only [PipelineState.apply, hstatus, ne_eq, not_true_eq_false,
      ↓reduceIte, PipelineResult.mk.injEq, Option.some.injEq, true_and] at happly
    exact ⟨hstatus, happly.2.symm, happly.1.symm⟩
  · simp [PipelineState.apply, hstatus] at happly

end Command

/-- The command id of the `n`-th record of a station. -/
def recordId (pl : String) (station : Station) (n : Nat) : String :=
  "cmd_" ++ pl ++ "_" ++ station.value ++ "_" ++ toString n

/-- The number of the next record of a station. -/
def nextAttempt (s : SqliteKernelStore) (ws pl : String) (station : Station) :
    Nat :=
  1 + (recordsOf station (s.listEvents ws pl)).length

/-- The ids fit the contract model of a command. -/
def IdsFit (ws prj pl cmd : String) : Prop :=
  matchesScope "cmd_" cmd = true ∧
    (16 ≤ ("record-" ++ cmd ++ "-key000").length ∧
      ("record-" ++ cmd ++ "-key000").length ≤ 160) ∧
    matchesScope "ws_" ws = true ∧ matchesScope "prj_" prj = true ∧
    matchesScope "pl_" pl = true

instance (ws prj pl cmd : String) : Decidable (IdsFit ws prj pl cmd) :=
  inferInstanceAs (Decidable (_ ∧ _))

theorem stationCommand_isSome_iff {ws prj pl cmd : String} {station : Station}
    {revision : Nat} {fields : Dict String String} :
    (stationCommand ws prj pl cmd station revision fields).isSome = true ↔
      IdsFit ws prj pl cmd := by
  simp only [stationCommand, IdsFit]
  split
  · next hfit => simpa using hfit
  · next hfit => simpa using hfit

/-- What a record asks of the store before its commit: ids that fit, an open
pipeline, a command id of its own, and a revision that RFC 8785 can write. -/
structure CanRecord (ws prj pl : String) (station : Station)
    (s : SqliteKernelStore) : Prop where
  fits : IdsFit ws prj pl (recordId pl station (nextAttempt s ws pl station))
  opened : ∃ snapshot, s.pipelines.find? (ws, pl) = some snapshot ∧
    snapshot.status = "OPEN"
  fresh : s.inbox.find? (ws, recordId pl station (nextAttempt s ws pl station)) =
    none
  small : s.storedRevision ws pl ≤ maxSafeInteger

/-- What the commit of a command asks of the store: its keys are free and its
revision can be bound. -/
structure Vacant (ws pl cmd : String) (s : SqliteKernelStore) : Prop where
  event : s.events.find? (eventId ws cmd) = none
  outbox : (ws, cmd) ∉ s.outbox.rows.map OutboxRecord.key
  room : s.storedRevision ws pl < 9223372036854775807

/-- What a commit asked of the store. -/
theorem vacant_of_grows {ws pl cmd : String} {event : EventWrite}
    {s s' : SqliteKernelStore} (hgrows : Grows ws pl cmd event s s') :
    Vacant ws pl cmd s where
  event := by
    rw [Keyed.find?_eq_none_iff]
    intro row hrow hkey
    have hunique := s'.events.unique
    rw [hgrows.events, List.map_append, List.nodup_append] at hunique
    refine hunique.2.2 (EventWrite.eventId row) (List.mem_map_of_mem hrow)
      event.eventId (by simp) ?_
    rw [hkey, hgrows.id]
  outbox := by
    intro hmem
    have hunique := s'.outbox.unique
    rw [hgrows.outbox, List.nodup_append] at hunique
    exact hunique.2.2 (ws, cmd) hmem (ws, cmd) (by simp) rfl
  room := hgrows.room

theorem Vacant.sameLog {ws pl cmd : String} {s s' : SqliteKernelStore}
    (hvacant : Vacant ws pl cmd s) (hsame : s.SameLog s') :
    Vacant ws pl cmd s' where
  event := by
    rw [hsame.events]
    exact hvacant.event
  outbox := by
    rw [hsame.outbox]
    exact hvacant.outbox
  room := by
    rw [SqliteKernelStore.storedRevision, hsame.pipelines]
    exact hvacant.room

theorem Vacant.admits {k : KernelController} {command : ControllerCommand}
    {s : SqliteKernelStore} (a : k.Acceptance command)
    (hsnapshot : a.snapshot =
      s.pipelines.find? (command.workspaceId, command.pipelineId))
    (hfresh : s.findInbox command.workspaceId command.commandId = none)
    (hvacant : Vacant command.workspaceId command.pipelineId command.commandId
      s) : s.Admits a.write where
  inbox := hfresh
  events := hvacant.event
  outbox := by
    rw [Keyed.find?_eq_none_iff]
    intro row hrow hkey
    apply hvacant.outbox
    rw [← show row.key = (command.workspaceId, command.commandId) from hkey]
    exact List.mem_map_of_mem hrow
  revision := by
    have hroom := hvacant.room
    rw [pipelineRevision_of_acceptance a hsnapshot]
    simp only [fitsInt64, Bool.and_eq_true, decide_eq_true_eq]
    omega

theorem CanRecord.workspace {ws prj pl : String} {station : Station}
    {s : SqliteKernelStore} (hcan : CanRecord ws prj pl station s) : ws ≠ "" :=
  ne_empty_of_matchesScope hcan.fits.2.2.1

/-- The record of a station went through. -/
structure Appends (codec : Codec) (ws prj pl : String) (station : Station)
    (fields : Dict String String) (s s' : SqliteKernelStore) : Prop where
  can : codec.Serializes → CanRecord ws prj pl station s
  grows : ∃ event, RecordsStation codec station fields event ∧
    Grows ws pl (recordId pl station (nextAttempt s ws pl station)) event s s'

/-- The outbox row that is committed with a record. -/
structure RecordsOutbox (codec : Codec) (ws : String) (station : Station)
    (fields : Dict String String) (row : OutboxRecord) : Prop where
  workspace : row.workspaceId = ws
  effect : row.effectType = (DomainEvent.stationRecorded station fields).effectType
  payload : codec.canonicalJson
    (Json.ofTexts (DomainEvent.stationRecorded station fields).payload.rows) =
      some row.payloadJson
  receipt : row.deliveryReceiptJson =
    if (DomainEvent.stationRecorded station fields).publishes then none
    else some "{}"

theorem Appends.later {codec : Codec} {ws prj pl : String} {station : Station}
    {fields : Dict String String} {s s' : SqliteKernelStore}
    (happends : Appends codec ws prj pl station fields s s') : s.Later s' := by
  obtain ⟨event, -, hgrows⟩ := happends.grows
  exact SqliteKernelStore.later_of_grows hgrows

/-- The log of a pipeline has one more record; every other log is as it was. -/
def Extended (codec : Codec) (ws pl : String) (station : Station)
    (fields : Dict String String) (s s' : SqliteKernelStore) : Prop :=
  ∃ event, RecordsStation codec station fields event ∧
    s'.listEvents ws pl = s.listEvents ws pl ++ [event] ∧
    ∀ ws' pl', (ws', pl') ≠ (ws, pl) →
      s'.listEvents ws' pl' = s.listEvents ws' pl'

theorem Appends.extended {codec : Codec} {ws prj pl : String} {station : Station}
    {fields : Dict String String} {s s' : SqliteKernelStore}
    (happends : Appends codec ws prj pl station fields s s')
    (hnumbered : s.Numbered) : Extended codec ws pl station fields s s' := by
  obtain ⟨event, hrecords, hgrows⟩ := happends.grows
  exact ⟨event, hrecords, hgrows.listEvents_self hnumbered,
    fun _ _ hother => hgrows.listEvents_other hnumbered hother⟩

theorem recordsOf_append (station : Station) (first second : List EventWrite) :
    recordsOf station (first ++ second) =
      recordsOf station first ++ recordsOf station second :=
  List.filter_append ..

theorem RecordsStation.recordsOf_self {codec : Codec} {station : Station}
    {fields : Dict String String} {event : EventWrite}
    (hrecords : RecordsStation codec station fields event) :
    recordsOf station [event] = [event] := by
  simp [recordsOf, hrecords.eventType_eq]

theorem RecordsStation.recordsOf_other {codec : Codec} {station other : Station}
    {fields : Dict String String} {event : EventWrite}
    (hrecords : RecordsStation codec station fields event)
    (hother : other ≠ station) : recordsOf other [event] = [] := by
  have htype : event.eventType ≠ other.eventType := by
    rw [hrecords.eventType_eq]
    intro hsame
    exact hother (Station.eventType_injective hsame).symm
  simp [recordsOf, htype]

section SameLog

open SqliteKernelStore

variable {codec : Codec} {ws prj pl cmd : String} {station : Station}
  {fields : Dict String String} {s s₁ s' : SqliteKernelStore}

theorem nextAttempt_sameLog (hsame : SameLog s s₁) (ws pl : String)
    (station : Station) :
    nextAttempt s₁ ws pl station = nextAttempt s ws pl station := by
  rw [nextAttempt, nextAttempt, hsame.listEvents]

theorem CanRecord.sameLog (hcan : CanRecord ws prj pl station s)
    (hsame : SameLog s s₁) : CanRecord ws prj pl station s₁ where
  fits := by
    rw [nextAttempt_sameLog hsame]
    exact hcan.fits
  opened := by
    rw [hsame.pipelines]
    exact hcan.opened
  fresh := by
    rw [nextAttempt_sameLog hsame, hsame.inbox]
    exact hcan.fresh
  small := by
    rw [SqliteKernelStore.storedRevision, hsame.pipelines]
    exact hcan.small

theorem Appends.of_sameLog (hsame : SameLog s s₁)
    (happends : Appends codec ws prj pl station fields s₁ s') :
    Appends codec ws prj pl station fields s s' := by
  obtain ⟨hcan, event, hrecords, hgrows⟩ := happends
  rw [nextAttempt_sameLog hsame] at hgrows
  refine ⟨fun hcodec => (hcan hcodec).sameLog hsame.symm, event, hrecords, ?_⟩
  exact
    { workspace := hgrows.workspace
      scope := hgrows.scope
      id := hgrows.id
      events := by rw [hgrows.events, hsame.events]
      inbox := by
        rw [← hsame.inbox]
        exact hgrows.inbox
      outbox := by rw [hgrows.outbox, hsame.outbox]
      fresh := by
        rw [← hsame.inbox]
        exact hgrows.fresh
      room := by
        have hroom := hgrows.room
        rwa [SqliteKernelStore.storedRevision, hsame.pipelines] at hroom
      opened := hgrows.opened
      other := by
        rw [← hsame.pipelines]
        exact hgrows.other
      healthy := fun hhealthy => hgrows.healthy (hsame.healthy hhealthy)
      numbered := fun hnumbered => hgrows.numbered (hsame.numbered hnumbered) }

end SameLog

section Acceptance

variable {ws prj pl cmd : String} {station : Station}
  {fields : Dict String String} {command : ControllerCommand}
  {snapshot : PipelineSnapshot}

/-- The record of an open pipeline at its stored revision can be accepted. -/
theorem exists_stationAcceptance {codec : Codec} (hcodec : codec.Serializes)
    (hcommand : stationCommand ws prj pl cmd station snapshot.revision fields =
      some command) (hopened : snapshot.status = "OPEN")
    (hsmall : snapshot.revision ≤ maxSafeInteger) :
    ∃ a : (controller codec).Acceptance command, a.snapshot = some snapshot := by
  have hrevision := (stationCommand_ids hcommand).2.2.2
  obtain ⟨fingerprint, hhash⟩ :=
    (hcodec.hashes command (stationCommand_textual hcommand)).mpr
      (hrevision ▸ hsmall)
  obtain ⟨payloadJson, hpayload⟩ :=
    hcodec.texts (DomainEvent.stationRecorded station fields).payload
  have hcurrent : stateFromSnapshot (some snapshot) =
      some ⟨.opened, snapshot.revision, snapshot.text⟩ := by
    simp [stateFromSnapshot, hopened, Status.ofValue?]
  exact ⟨
    { fingerprint := fingerprint
      parsed := .recordStation station fields
      snapshot := some snapshot
      current := ⟨.opened, snapshot.revision, snapshot.text⟩
      state := ⟨.opened, snapshot.revision + 1, snapshot.text⟩
      event := .stationRecorded station fields
      payloadJson := payloadJson
      hash_eq := hhash
      parsed_eq := stationCommand_domain hcommand
      current_eq := hcurrent
      revision_eq := hrevision
      apply_eq := by simp [PipelineState.apply]
      payload_eq := hpayload }, rfl⟩

/-- The event of an accepted record carries its fields. -/
theorem recordsStation_acceptance {k : KernelController} {revision : Nat}
    (hcommand : stationCommand ws prj pl cmd station revision fields =
      some command) (a : k.Acceptance command) :
    RecordsStation k.codec station fields a.write.event := by
  obtain ⟨-, hevent, -⟩ := stationCommand_acceptance hcommand a
  have hpayload := a.payload_eq
  rw [hevent] at hpayload
  refine ⟨?_, hpayload⟩
  change a.event.eventType = _
  rw [hevent]
  rfl

theorem recordsOutbox_acceptance {k : KernelController} {revision : Nat}
    (hcommand : stationCommand ws prj pl cmd station revision fields =
      some command) (a : k.Acceptance command) :
    RecordsOutbox k.codec ws station fields a.write.outbox := by
  obtain ⟨-, hevent, -⟩ := stationCommand_acceptance hcommand a
  have hpayload := a.payload_eq
  rw [hevent] at hpayload
  exact
    { workspace := (stationCommand_ids hcommand).1
      effect := congrArg DomainEvent.effectType hevent
      payload := hpayload
      receipt := by
        change (if a.event.publishes then none else some "{}") = _
        rw [hevent] }

/-- A snapshot from which a record was accepted is open. -/
theorem opened_of_acceptance {k : KernelController} {revision : Nat}
    (hcommand : stationCommand ws prj pl cmd station revision fields =
      some command) (a : k.Acceptance command) :
    ∃ snapshot, a.snapshot = some snapshot ∧ snapshot.status = "OPEN" := by
  obtain ⟨hopened, -, -⟩ := stationCommand_acceptance hcommand a
  have hcurrent := a.current_eq
  cases hsnapshot : a.snapshot with
  | none =>
      rw [hsnapshot, stateFromSnapshot, Option.some.injEq] at hcurrent
      rw [← hcurrent] at hopened
      cases hopened
  | some snapshot =>
      refine ⟨snapshot, rfl, ?_⟩
      rw [hsnapshot] at hcurrent
      simp only [stateFromSnapshot, Option.map_eq_some_iff] at hcurrent
      obtain ⟨status, hstatus, hcurrent⟩ := hcurrent
      rw [← hcurrent] at hopened
      obtain rfl : status = .opened := hopened
      exact Status.ofValue?_eq_some hstatus

end Acceptance

end KernelBridge

end HermesPipeline
