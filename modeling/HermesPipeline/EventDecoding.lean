/-
Stored events and what they decode to.  An accepted command stores the type and
the payload of its event; a recorded field that is named `station` takes the
place of the station's own name there and is lost when the event is read.
-/
import HermesPipeline.KernelSqliteEffects
import HermesPipeline.StageProjection

namespace HermesPipeline

open Lib KernelController KernelBridge

/-- `_STAGE_EVENTS` as a table. -/
def stationOfEventType? (eventType : String) : Option Station :=
  if eventType = "PRD_RECORDED" then some .prd
  else if eventType = "ARCHITECTURE_RECORDED" then some .architecture
  else if eventType = "DEVELOPMENT_RECORDED" then some .development
  else if eventType = "VERIFY_RECORDED" then some .verify
  else if eventType = "APPROVAL_RECORDED" then some .approval
  else none

theorem stationOfEventType?_eventType (station : Station) :
    stationOfEventType? station.eventType = some station := by
  cases station <;> decide

/-- The event behind a type and a payload: the text or the reason, or the
station of the type with the fields as `fold_stage_projection` reads them. -/
def decodeEvent (codec : Codec) (event : EventWrite) : Option DomainEvent :=
  match codec.loads event.payloadJson with
  | some (.obj members) =>
      if event.eventType = "REQUIREMENT_CONFIRMED" then
        ((Json.member? members "text").bind Json.text?).map .requirementConfirmed
      else if event.eventType = "REQUIREMENT_REJECTED" then
        ((Json.member? members "reason").bind Json.text?).map .requirementRejected
      else
        (stationOfEventType? event.eventType).map fun station =>
          .stationRecorded station (foldStageProjection codec [event])
  | _ => none

/-- Two events are the same up to the order of their fields. -/
def DomainEvent.Same : DomainEvent → DomainEvent → Prop
  | .requirementConfirmed text, .requirementConfirmed text' => text = text'
  | .requirementRejected reason, .requirementRejected reason' => reason = reason'
  | .stationRecorded station fields, .stationRecorded station' fields' =>
      station = station' ∧ ∀ name, fields.get? name = fields'.get? name
  | _, _ => False

/-- The stored event decodes to the produced one. -/
def Decodes (codec : Codec) (event : EventWrite) (produced : DomainEvent) : Prop :=
  ∃ decoded, decodeEvent codec event = some decoded ∧ decoded.Same produced

/-- A station record with a text field named `station`. -/
def ControllerCommand.namesStation (command : ControllerCommand) : Bool :=
  (stationOf? command.commandType).isSome &&
    ((command.payload.get? "station").bind Json.text?).isSome

section Decode

variable {codec : Codec}

/-- No event carries a field named `station`. -/
theorem eventField_station (event : EventWrite) :
    eventField codec event "station" = none := by
  have hmembers : ∀ (members : List (String × Json)) (folded : Dict String String),
      folded.get? "station" = none →
        (members.foldl (setMember codec) folded).get? "station" = none := by
    intro members
    induction members with
    | nil => exact fun _ hnone => hnone
    | cons member rest ih =>
        intro folded hnone
        apply ih
        unfold setMember
        split
        · exact hnone
        · next hother => rwa [Dict.get?_set_of_ne _ _ fun heq => hother heq.symm]
  unfold eventField foldStageProjection
  simp only [List.foldl_cons, List.foldl_nil]
  split
  · split
    · exact hmembers _ _ rfl
    · rfl
  · rfl

variable (hloads : codec.LoadsFields)

include hloads

/-- A record decodes to its station and its fields unless one is named
`station`. -/
theorem decodes_record_iff {station : Station} {fields : Dict String String}
    {event : EventWrite} (hrecords : RecordsStation codec station fields event) :
    Decodes codec event (.stationRecorded station fields) ↔
      fields.get? "station" = none := by
  obtain ⟨members, hparsed, -, -⟩ := hloads _ _ hrecords.payload_eq
  have hdecode : decodeEvent codec event =
      some (.stationRecorded station (foldStageProjection codec [event])) := by
    have hconfirmed : station.eventType ≠ "REQUIREMENT_CONFIRMED" := by
      cases station <;> decide
    have hrejected : station.eventType ≠ "REQUIREMENT_REJECTED" := by
      cases station <;> decide
    simp only [decodeEvent, hparsed, hrecords.eventType_eq, if_neg hconfirmed,
      if_neg hrejected, stationOfEventType?_eventType, Option.map_some]
  constructor
  · rintro ⟨decoded, hdecoded, hsame⟩
    rw [hdecode, Option.some.injEq] at hdecoded
    subst hdecoded
    exact (hsame.2 "station").symm.trans (eventField_station event)
  · intro hnone
    refine ⟨_, hdecode, rfl, ?_⟩
    intro name
    by_cases hname : name = "station"
    · rw [hname, hnone]
      exact eventField_station event
    · exact hrecords.eventField_eq hloads hname

theorem decodes_confirmed {text : String} {event : EventWrite}
    (htype : event.eventType = "REQUIREMENT_CONFIRMED")
    (hpayload : codec.canonicalJson
      (Json.ofTexts (DomainEvent.requirementConfirmed text).payload.rows) =
        some event.payloadJson) :
    Decodes codec event (.requirementConfirmed text) := by
  obtain ⟨members, hparsed, -, hmembers⟩ := hloads _ _ hpayload
  refine ⟨.requirementConfirmed text, ?_, rfl⟩
  simp only [decodeEvent, hparsed, htype, ↓reduceIte, hmembers,
    DomainEvent.payload, Dict.get?_set_self, Option.map_some, Option.bind_some,
    Json.text?]

theorem decodes_rejected {reason : String} {event : EventWrite}
    (htype : event.eventType = "REQUIREMENT_REJECTED")
    (hpayload : codec.canonicalJson
      (Json.ofTexts (DomainEvent.requirementRejected reason).payload.rows) =
        some event.payloadJson) :
    Decodes codec event (.requirementRejected reason) := by
  obtain ⟨members, hparsed, -, hmembers⟩ := hloads _ _ hpayload
  refine ⟨.requirementRejected reason, ?_, rfl⟩
  have hother : "REQUIREMENT_REJECTED" ≠ "REQUIREMENT_CONFIRMED" := by decide
  simp only [decodeEvent, hparsed, htype, if_neg hother, ↓reduceIte, hmembers,
    DomainEvent.payload, Dict.get?_set_self, Option.map_some, Option.bind_some,
    Json.text?]

end Decode

/-- The fields that a station record is parsed to. -/
theorem domainCommand_record {command : ControllerCommand} {station : Station}
    {fields : Dict String String}
    (hparsed : domainCommand command = some (.recordStation station fields)) :
    stationOf? command.commandType = some station ∧
      fields = command.payload.filterMap Json.text? := by
  unfold domainCommand at hparsed
  split at hparsed
  · obtain ⟨text, -, htext⟩ := Option.map_eq_some_iff.mp hparsed
    cases htext
  · split at hparsed
    · obtain ⟨reason, -, hreason⟩ := Option.map_eq_some_iff.mp hparsed
      cases hreason
    · obtain ⟨other, hother, hrecord⟩ := Option.map_eq_some_iff.mp hparsed
      cases hrecord
      exact ⟨hother, rfl⟩

/-- A requirement decision records no station. -/
theorem domainCommand_intake {command : ControllerCommand} {parsed : DomainCommand}
    (hparsed : domainCommand command = some parsed)
    (hintake : ∀ station fields, parsed ≠ .recordStation station fields) :
    stationOf? command.commandType = none := by
  unfold domainCommand at hparsed
  split at hparsed
  · next htype =>
      rw [htype]
      decide
  · split at hparsed
    · next htype =>
        rw [htype]
        decide
    · obtain ⟨station, -, hrecord⟩ := Option.map_eq_some_iff.mp hparsed
      exact absurd hrecord.symm (hintake station _)

/-- The event that an accepted command makes. -/
theorem PipelineState.apply_event {state next : PipelineState}
    {parsed : DomainCommand} {event : DomainEvent}
    (happly : state.apply parsed = ⟨next, .accepted, some event⟩) :
    (∃ station fields, parsed = .recordStation station fields ∧
        event = .stationRecorded station fields) ∨
      (∃ text, parsed = .confirmRequirement text ∧
        event = .requirementConfirmed (pyStrip text)) ∨
      ∃ reason, parsed = .rejectRequirement reason ∧
        event = .requirementRejected (pyStrip reason) := by
  cases parsed with
  | recordStation station fields =>
      simp only [apply] at happly
      split at happly
      · cases happly
      · cases happly
        exact .inl ⟨station, fields, rfl, rfl⟩
  | confirmRequirement text =>
      simp only [apply, applyIntake] at happly
      split at happly
      · cases happly
      · split at happly
        · cases happly
        · cases happly
          exact .inr (.inl ⟨text, rfl, rfl⟩)
  | rejectRequirement reason =>
      simp only [apply, applyIntake] at happly
      split at happly
      · cases happly
      · split at happly
        · cases happly
        · cases happly
          exact .inr (.inr ⟨reason, rfl, rfl⟩)

namespace KernelController

/-- The event of an accepted command decodes to the produced one exactly when
the command does not name a field `station`. -/
theorem Acceptance.decodes_iff {k : KernelController} {command : ControllerCommand}
    (hloads : k.codec.LoadsFields) (a : k.Acceptance command) :
    Decodes k.codec a.write.event a.event ↔ command.namesStation = false := by
  have hpayload := a.payload_eq
  have htype : a.write.event.eventType = a.event.eventType := rfl
  have hintake : ∀ parsed, a.parsed = parsed →
      (∀ station fields, parsed ≠ .recordStation station fields) →
        command.namesStation = false := by
    intro parsed hparsed hother
    have hnone := domainCommand_intake (a.parsed_eq.trans (congrArg some hparsed))
      hother
    simp [ControllerCommand.namesStation, hnone]
  rcases PipelineState.apply_event a.apply_eq with ⟨station, fields, hparsed, hevent⟩ |
    ⟨text, hparsed, hevent⟩ | ⟨reason, hparsed, hevent⟩
  · obtain ⟨hstation, hfields⟩ := domainCommand_record (a.parsed_eq.trans
      (congrArg some hparsed))
    rw [hevent] at hpayload htype ⊢
    have hrecords : RecordsStation k.codec station fields a.write.event :=
      ⟨htype, hpayload⟩
    rw [decodes_record_iff hloads hrecords, hfields, Dict.get?_filterMap,
      ControllerCommand.namesStation, hstation]
    simp
  · rw [hevent] at hpayload htype ⊢
    rw [hintake _ hparsed (by simp)]
    exact iff_of_true (decodes_confirmed hloads htype hpayload) rfl
  · rw [hevent] at hpayload htype ⊢
    rw [hintake _ hparsed (by simp)]
    exact iff_of_true (decodes_rejected hloads htype hpayload) rfl

end KernelController

/-- What a step that submits a command does to the event log: nothing, and then
an accepted receipt is one from the inbox, or it stores the event of the accepted
command, which decodes to the produced one exactly when the command does not name
a field `station`. -/
def StoresDecodable {σ : Type} (env : KernelEnv) (impl : TransactionStore σ)
    (events : σ → List EventWrite) : Prop :=
  ∀ (s : Session σ) (op : SessionOp) (command : ControllerCommand),
    op.submitted = some command →
      (events (Session.step env impl s op).2.store = events s.store ∧
          ∀ receipt, (Session.step env impl s op).1 = .ok (.receipt receipt) →
            receipt.status = .accepted →
              ∃ row, (impl.handle (.findInbox command.workspaceId command.commandId)
                s.store).1 = .ok (some row)) ∨
        ∃ a : (env.controller s.paused).Acceptance command,
          (Session.step env impl s op).1 = .ok (.receipt a.receipt) ∧
            events (Session.step env impl s op).2.store =
              events s.store ++ [a.write.event] ∧
            (Decodes env.codec a.write.event a.event ↔
              command.namesStation = false)

theorem storesDecodable_of_laws {σ ν : Type} {env : KernelEnv}
    {impl : TransactionStore σ} {view : σ → ν} {events : σ → List EventWrite}
    (hloads : env.codec.LoadsFields) (laws : StoreLaws impl.handle view)
    (hview : ∀ s s', view s' = view s → events s' = events s)
    (hcommit : ∀ write s s', impl.handle (.commitAccepted write) s = (.ok (), s') →
      events s' = events s ++ [write.event]) :
    StoresDecodable env impl events := by
  intro s op command hop
  obtain ⟨outcome, hanswer, heffect⟩ := Session.step_submitted env impl laws s hop
  generalize (Session.step env impl s op).2.store = next at heffect ⊢
  cases heffect with
  | kept same status =>
      refine .inl ⟨hview _ _ same, ?_⟩
      intro receipt hreceipt haccepted
      rw [hanswer] at hreceipt
      cases outcome with
      | error error => cases hreceipt
      | ok answer =>
          cases hreceipt
          exact absurd haccepted (status receipt rfl)
  | replayed hash_eq found same parsed => exact .inl ⟨rfl, fun _ _ _ => ⟨_, found⟩⟩
  | accepted a absent loaded commit =>
      exact .inr ⟨a, hanswer, hcommit _ _ _ commit, a.decodes_iff hloads⟩

/-- In both stores the event of every accepted command decodes to the event that
`apply` produced, unless the command records a field named `station`. -/
theorem stored_events_decode_iff (env : KernelEnv) (hloads : env.codec.LoadsFields) :
    StoresDecodable env (memoryStore env.codec) MemoryKernelStore.events ∧
      StoresDecodable env (sqliteStore env.codec) fun s => s.events.rows := by
  constructor
  · apply storesDecodable_of_laws hloads MemoryKernelStore.storeLaws
    · intro s s' hsame
      have hevents : s'.tables.events = s.tables.events :=
        congrArg MemoryKernelStore.events hsame
      exact hevents
    · intro write s s' hcommit
      have hevents : s'.tables.events = s.tables.events ++ [write.event] :=
        congrArg MemoryKernelStore.events (MemoryKernelStore.commitAccepted_ok hcommit)
      exact hevents
  · apply storesDecodable_of_laws hloads SqliteKernelStore.storeLaws
    · intro s s' hsame
      have hevents : s'.asMemory.tables.events = s.asMemory.tables.events :=
        congrArg MemoryKernelStore.events hsame
      exact hevents
    · intro write s s' hcommit
      obtain ⟨-, inbox, events, outbox, -, hinsert, -, rfl⟩ :=
        SqliteKernelStore.commitAccepted_ok hcommit
      exact ((Keyed.insert?_eq_some_iff _ _ _).mp hinsert).2

namespace EventDecodingWitness

open ReferenceCodec

def env : KernelEnv := ⟨sampleCodec, "2026-08-06T00:00:00Z"⟩

theorem stored_events_decode_sample :
    StoresDecodable env (memoryStore env.codec) MemoryKernelStore.events ∧
      StoresDecodable env (sqliteStore env.codec) fun s => s.events.rows :=
  stored_events_decode_iff env (loadsFields sampleDigest)

/-- A requirements record with a field that names another station. -/
def forging : ControllerCommand :=
  { sampleRecord with payload := Dict.set .empty "station" (.str "verify") }

def fields : Dict String String := Dict.set .empty "station" "verify"

/-- The stored event of the record. -/
def renamed : EventWrite where
  eventId := "evt_ws_a_cmd_2"
  workspaceId := "ws_a"
  pipelineId := "pl_a"
  eventType := "PRD_RECORDED"
  payloadJson := "\x7b\"station\":\"verify\"\x7d"
  pipelineRevision := 2

/-- The record is accepted and its event does not decode to it: the field is
gone, and the payload names another station. -/
theorem renamed_station_lost :
    (Session.after env (memoryStore env.codec)
        [.call (.submit sampleConfirm), .call (.submit forging)]).store.events.getLast? =
          some renamed ∧
      domainCommand forging = some (.recordStation .prd fields) ∧
      ¬ Decodes env.codec renamed (.stationRecorded .prd fields) := by
  refine ⟨by decide +kernel, rfl, ?_⟩
  have hrecords : RecordsStation env.codec .prd fields renamed :=
    ⟨rfl, by decide +kernel⟩
  have hloads : env.codec.LoadsFields := loadsFields sampleDigest
  rw [decodes_record_iff hloads hrecords]
  decide

end EventDecodingWitness

end HermesPipeline
