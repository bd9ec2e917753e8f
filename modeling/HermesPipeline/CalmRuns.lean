/-
What a bridge achieves when nothing outside it fails.  On a pipeline of its own
every stage that may run ends, keeps its row, saves it and records it, so the
log of the pipeline is the list of the records made so far.
-/
import HermesPipeline.RecordLog
import HermesPipeline.SavedFiles

namespace HermesPipeline

open Lib KernelController KernelBridge

/-- The records of a pipeline, in order. -/
abbrev Records := List (Station × Dict String String)

/-- How often a station has been recorded. -/
def recordCount (records : Records) (station : Station) : Nat :=
  (records.filter fun record => record.1 = station).length

/-- A sound store that knows one workspace only. -/
structure Sole (ws : String) (store : SqliteKernelStore) : Prop where
  healthy : store.Healthy
  numbered : store.Numbered
  tidy : Tidy store
  events : ∀ event ∈ store.events.rows, ∃ cmd,
    event.eventId = eventId ws cmd ∧ store.inbox.find? (ws, cmd) ≠ none
  outbox : ∀ key ∈ store.outbox.rows.map OutboxRecord.key,
    store.inbox.find? key ≠ none

/-- A pipeline of the one workspace is open, and its log is the confirmation
and then these records. -/
structure Standing (codec : Codec) (ws pl : String) (records : Records)
    (store : SqliteKernelStore) : Prop extends Sole ws store where
  workspace : ws ≠ ""
  opened : ∃ snapshot, store.pipelines.find? (ws, pl) = some snapshot ∧
    snapshot.status = "OPEN"
  log : ∃ confirmed events, store.listEvents ws pl = confirmed :: events ∧
    confirmed.eventType ∉ stageEvents ∧
    List.Forall₂ (fun record event =>
      RecordsStation codec record.1 record.2 event) records events

/-- The ids of the first records of every station fit the contract model. -/
def RecordsFit (ws prj pl : String) : Prop :=
  ∀ station, ∀ n ∈ List.range 6, IdsFit ws prj pl (recordId pl station (n + 1))

namespace Sole

variable {ws pl cmd : String} {event : EventWrite}
  {store store' : SqliteKernelStore}

theorem sameLog (hsole : Sole ws store) (hsame : store.SameLog store') :
    Sole ws store' where
  healthy := hsame.healthy hsole.healthy
  numbered := hsame.numbered hsole.numbered
  tidy := hsole.tidy.sameLog hsame
  events := by
    rw [hsame.events, hsame.inbox]
    exact hsole.events
  outbox := by
    rw [hsame.outbox, hsame.inbox]
    exact hsole.outbox

/-- The inbox of a store keeps its rows. -/
theorem find?_grows (hgrows : Grows ws pl cmd event store store')
    {key : String × String}
    (hkey : store.inbox.find? key ≠ none ∨ key = (ws, cmd)) :
    store'.inbox.find? key ≠ none := by
  obtain ⟨row, hrow, hrows⟩ := hgrows.inbox
  rw [ne_eq, Keyed.find?_eq_none_iff, hrows]
  intro habsent
  rcases hkey with hold | rfl
  · apply hold
    rw [Keyed.find?_eq_none_iff]
    intro other hother
    exact habsent other (List.mem_append_left _ hother)
  · exact habsent row (List.mem_append_right _ List.mem_cons_self) hrow

/-- A store that has grown by an event of this workspace. -/
theorem grows (hsole : Sole ws store)
    (hgrows : Grows ws pl cmd event store store') (htidy : Tidy store') :
    Sole ws store' where
  healthy := hgrows.healthy hsole.healthy
  numbered := hgrows.numbered hsole.numbered
  tidy := htidy
  events := by
    intro other hother
    rw [hgrows.events, List.mem_append, List.mem_singleton] at hother
    rcases hother with hold | rfl
    · obtain ⟨cmd, hid, hfound⟩ := hsole.events other hold
      exact ⟨cmd, hid, find?_grows hgrows (Or.inl hfound)⟩
    · exact ⟨cmd, hgrows.id, find?_grows hgrows (Or.inr rfl)⟩
  outbox := by
    intro key hkey
    rw [hgrows.outbox, List.mem_append, List.mem_singleton] at hkey
    rcases hkey with hold | rfl
    · exact find?_grows hgrows (Or.inl (hsole.outbox key hold))
    · exact find?_grows hgrows (Or.inr rfl)

/-- The keys of a command id that the store does not know are free. -/
theorem vacant (hsole : Sole ws store)
    (hfresh : store.inbox.find? (ws, cmd) = none)
    (hroom : store.storedRevision ws pl < 9223372036854775807) :
    Vacant ws pl cmd store := by
  refine ⟨?_, ?_, hroom⟩
  · rw [Keyed.find?_eq_none_iff]
    intro event hevent heq
    obtain ⟨cmd', hid, hfound⟩ := hsole.events event hevent
    rw [eventId_inj (hid.symm.trans heq)] at hfound
    exact hfound hfresh
  · intro hkey
    exact hsole.outbox _ hkey hfresh

end Sole

namespace Standing

variable {codec : Codec} {ws pl : String} {records : Records}
  {store store' : SqliteKernelStore}

theorem sameLog (hstanding : Standing codec ws pl records store)
    (hsame : store.SameLog store') : Standing codec ws pl records store' where
  toSole := hstanding.toSole.sameLog hsame
  workspace := hstanding.workspace
  opened := by rw [hsame.pipelines]; exact hstanding.opened
  log := by rw [hsame.listEvents]; exact hstanding.log

/-- The number of events is the number of records and the confirmation. -/
theorem length_listEvents (hstanding : Standing codec ws pl records store) :
    (store.listEvents ws pl).length = records.length + 1 := by
  obtain ⟨confirmed, events, hlog, -, hrecords⟩ := hstanding.log
  rw [hlog, List.length_cons, hrecords.length_eq]

/-- The records of one station in the log. -/
theorem forall₂_recordsOf (hstanding : Standing codec ws pl records store)
    (station : Station) :
    List.Forall₂ (fun record event =>
        RecordsStation codec record.1 record.2 event)
      (records.filter fun record => record.1 = station)
      (recordsOf station (store.listEvents ws pl)) := by
  obtain ⟨confirmed, events, hlog, hconfirmed, hrecords⟩ := hstanding.log
  rw [hlog, recordsOf, List.filter_cons_of_neg]
  · clear hlog hstanding
    induction hrecords with
    | nil => exact .nil
    | @cons record event records events hrecord hrest ih =>
        by_cases hstation : record.1 = station
        · rw [List.filter_cons_of_pos (by simpa using hstation),
            List.filter_cons_of_pos (by simp [hrecord.eventType_eq, hstation])]
          exact .cons hrecord ih
        · have htype : event.eventType ≠ station.eventType := by
            rw [hrecord.eventType_eq]
            intro heq
            exact hstation (Station.eventType_injective heq)
          rw [List.filter_cons_of_neg (by simpa using hstation),
            List.filter_cons_of_neg (by simpa using htype)]
          exact ih
  · intro htype
    apply hconfirmed
    rw [of_decide_eq_true htype]
    cases station <;> decide

theorem length_recordsOf (hstanding : Standing codec ws pl records store)
    (station : Station) :
    (recordsOf station (store.listEvents ws pl)).length =
      recordCount records station :=
  (hstanding.forall₂_recordsOf station).length_eq.symm

/-- A field of the latest record of a station. -/
theorem latestField_eq (hstanding : Standing codec ws pl records store)
    (hloads : codec.LoadsFields) (station : Station) {name : String}
    (hname : name ≠ "station") :
    latestField codec station (store.listEvents ws pl) name =
      (records.filter fun record => record.1 = station).getLast?.bind
        fun record => record.2.get? name := by
  have hrecords := hstanding.forall₂_recordsOf station
  have hfields : (recordsOf station (store.listEvents ws pl)).map
      (fun event => eventField codec event name) =
      (records.filter fun record => record.1 = station).map
        fun record => record.2.get? name := by
    generalize recordsOf station (store.listEvents ws pl) = events at hrecords
    generalize (records.filter fun record => record.1 = station) = kept
      at hrecords
    induction hrecords with
    | nil => rfl
    | @cons record event kept events hrecord hrest ih =>
        rw [List.map_cons, List.map_cons, ih, hrecord.eventField_eq hloads hname]
  have hlast := congrArg List.getLast? hfields
  rw [List.getLast?_map, List.getLast?_map] at hlast
  rw [latestField]
  cases hevent : (recordsOf station (store.listEvents ws pl)).getLast? with
  | none =>
      rw [hevent, Option.map_none, eq_comm, Option.map_eq_none_iff] at hlast
      rw [hlast]
      rfl
  | some event =>
      rw [hevent, Option.map_some, eq_comm, Option.map_eq_some_iff] at hlast
      obtain ⟨record, hrecord, hfield⟩ := hlast
      rw [hrecord, Option.bind_some, Option.bind_some, hfield]

/-- Every station can be recorded once more. -/
theorem canRecord (hstanding : Standing codec ws pl records store)
    {prj : String} {station : Station}
    (hfits : IdsFit ws prj pl
      (recordId pl station (recordCount records station + 1)))
    (hfew : records.length < 1000) :
    CanRecord ws prj pl station store ∧
      Vacant ws pl (recordId pl station (nextAttempt store ws pl station))
        store := by
  have hnext : nextAttempt store ws pl station =
      recordCount records station + 1 := by
    rw [nextAttempt, hstanding.length_recordsOf, Nat.add_comm]
  have hfresh := hstanding.tidy.fresh ws pl station
  have hrevision : store.storedRevision ws pl = records.length + 1 := by
    have hlength := hstanding.length_listEvents
    rw [hstanding.numbered.listEvents_eq pl hstanding.workspace] at hlength
    rw [hstanding.numbered.snapshot, hlength]
  refine ⟨hstanding.tidy.canRecord (by rw [hnext]; exact hfits)
    hstanding.opened ?_, hstanding.toSole.vacant hfresh ?_⟩
  · rw [hrevision, maxSafeInteger]
    omega
  · rw [hrevision]
    omega

theorem canRecord_station
    (hstanding : Standing codec ws pl records store)
    {prj : String} (hfits : RecordsFit ws prj pl) (hfew : records.length ≤ 5)
    (station : Station) :
    CanRecord ws prj pl station store ∧
      Vacant ws pl (recordId pl station (nextAttempt store ws pl station))
        store := by
  have hcount : recordCount records station ≤ records.length :=
    List.length_filter_le _ _
  exact hstanding.canRecord (hfits station _ (List.mem_range.mpr (by omega)))
    (by omega)

/-- The projection takes every field from the last record that carries it. -/
theorem fold (hstanding : Standing codec ws pl records store)
    (hloads : codec.LoadsFields) {name : String} (hname : name ≠ "station") :
    (foldStageProjection codec (store.listEvents ws pl)).get? name =
      latest (fun record => record.2.get? name) records := by
  obtain ⟨confirmed, events, hlog, hconfirmed, hrecords⟩ := hstanding.log
  have hskipped : eventField codec confirmed name = none :=
    eventField_of_not_stage hconfirmed name
  rw [hlog, get?_foldStageProjection, latest, List.filterMap_cons, hskipped,
    latest]
  dsimp only
  clear hlog hstanding
  congr 1
  induction hrecords with
  | nil => rfl
  | @cons record event records events hrecord hrest ih =>
      rw [List.filterMap_cons, List.filterMap_cons, ih,
        hrecord.eventField_eq hloads hname]

end Standing

/-- Nothing outside fails, and every stage always answers the same. -/
structure RootEnv.Steady (env : RootEnv) (plan : PrdResult)
    (design : ArchitectureResult) (develop : DevelopmentResult)
    (verdict : Option VerifyResult) : Prop where
  codec : env.codec.Serializes
  loads : env.codec.LoadsFields
  clock : ∀ n, env.clock n = 0
  writes : ∀ n, env.writes n = .ok ()
  plans : ∀ n, env.plans n = .ok plan
  designs : ∀ n, env.designs n = .ok design
  develops : ∀ n, env.develops n = .ok develop
  verifies : ∀ n, env.verifies n = verdict
  publishes : ∀ n, ∃ remote, env.publishes n = .ok remote
  spawns : ∀ n, env.spawns n = .ok ()

namespace RootState

open Descriptor

variable {env : RootEnv} {plan : PrdResult} {design : ArchitectureResult}
  {develop : DevelopmentResult} {verdict : Option VerifyResult}
  {ws prj pl principal : String} {records : Records} {s s₁ s' : RootState}

theorem calm_of_steady (hsteady : env.Steady plan design develop verdict) :
    env.Calm where
  writes := hsteady.writes
  plans := fun n => ⟨plan, hsteady.plans n⟩
  designs := fun n => ⟨design, hsteady.designs n⟩
  develops := fun n => ⟨develop, hsteady.develops n⟩
  publishes := hsteady.publishes
  spawns := hsteady.spawns

/-- What the stages leave alone: the registry with its file, and how the bridge
runs. -/
structure Quiet (s s' : RootState) : Prop where
  registry : s'.bridge.registry = s.bridge.registry
  corrupt : s'.bridge.corrupt = s.bridge.corrupt
  projects : s'.files.get? "projects.json" = s.files.get? "projects.json"
  spawnWorker : s'.spawnWorker = s.spawnWorker
  running : s'.running = s.running
  faults : s'.faults = s.faults

theorem Quiet.trans (first : Quiet s s₁) (second : Quiet s₁ s') : Quiet s s' where
  registry := second.registry.trans first.registry
  corrupt := second.corrupt.trans first.corrupt
  projects := second.projects.trans first.projects
  spawnWorker := second.spawnWorker.trans first.spawnWorker
  running := second.running.trans first.running
  faults := second.faults.trans first.faults

theorem Still.quietly (hstill : Still s s') : Quiet s s' where
  registry := hstill.registry
  corrupt := by
    have hcorrupt := congrArg Bridge.corrupt hstill.core
    exact hcorrupt
  projects := hstill.station (by decide)
  spawnWorker := hstill.spawnWorker
  running := hstill.running
  faults := hstill.quiet

theorem quiet_hydrated (env : RootEnv) (ws pl : String) (s : RootState) :
    Quiet s (s.hydrated env ws pl) where
  registry := by simp [hydrated]
  corrupt := by simp only [hydrated, hydrate]; split <;> rfl
  projects := rfl
  spawnWorker := rfl
  running := rfl
  faults := rfl

theorem Rewritten.quietly {names : List String} {bridge : Bridge}
    (hrewritten : Rewritten names bridge s s')
    (hnames : "projects.json" ∉ names)
    (hregistry : bridge.registry = s.bridge.registry)
    (hcorrupt : bridge.corrupt = s.bridge.corrupt)
    (hfaults : s'.faults = s.faults) : Quiet s s' where
  registry := (congrArg Bridge.registry hrewritten.core).trans hregistry
  corrupt := (congrArg Bridge.corrupt hrewritten.core).trans hcorrupt
  projects := by
    rcases hrewritten.files "projects.json" with hsame | ⟨hmem, -⟩
    · exact hsame
    · exact absurd hmem hnames
  spawnWorker := hrewritten.spawnWorker
  running := hrewritten.running
  faults := hfaults

/-- A row that is kept on a standing pipeline is recorded. -/
theorem Kept.standing {station : Station} {fields : Dict String String}
    {names : List String} {bridge : Bridge}
    (hkept : Kept env ws prj pl station fields names bridge s s')
    (hsteady : env.Steady plan design develop verdict)
    (hstanding : Standing env.codec ws pl records s.store)
    (hfits : RecordsFit ws prj pl) (hfew : records.length ≤ 5) :
    s'.faults = s.faults ∧
      Standing env.codec ws pl (records ++ [(station, fields)]) s'.store := by
  obtain ⟨hcan, hvacant⟩ := hstanding.canRecord_station hfits hfew station
  have hquiet := hkept.quiet (calm_of_steady hsteady) hsteady.codec hcan hvacant
  refine ⟨hquiet, ?_⟩
  obtain ⟨store, happends, hsame⟩ := hkept.settled hsteady.codec hcan hquiet
  have htidy := hstanding.tidy.appends hstanding.numbered happends
  obtain ⟨event, hrecords, hgrows⟩ := happends.grows
  apply Standing.sameLog _ hsame
  refine ⟨hstanding.toSole.grows hgrows htidy, hgrows.workspace, hgrows.opened,
    ?_⟩
  obtain ⟨confirmed, events, hlog, hconfirmed, hall⟩ := hstanding.log
  rw [hgrows.listEvents_self hstanding.numbered, hlog, List.cons_append]
  exact ⟨confirmed, events ++ [event], rfl, hconfirmed,
    List.rel_append hall (.cons hrecords .nil)⟩

theorem Kept.quietly {station : Station} {fields : Dict String String}
    {names : List String} {bridge : Bridge}
    (hkept : Kept env ws prj pl station fields names bridge s s')
    (hnames : "projects.json" ∉ names)
    (hregistry : bridge.registry = s.bridge.registry)
    (hcorrupt : bridge.corrupt = s.bridge.corrupt)
    (hfaults : s'.faults = s.faults) : Quiet s s' where
  registry := (congrArg Bridge.registry hkept.core).trans hregistry
  corrupt := (congrArg Bridge.corrupt hkept.core).trans hcorrupt
  projects := by
    rcases hkept.files "projects.json" (by decide) with hsame | ⟨hmem, -⟩
    · exact hsame
    · exact absurd hmem hnames
  spawnWorker := hkept.spawnWorker
  running := hkept.running
  faults := hfaults

/-- The rows of a pipeline in memory. -/
structure RowsAre (pl : String) (prd arch dev verify : Option (Dict String String))
    (bridge : Bridge) : Prop where
  prd : bridge.prd.get? pl = prd
  arch : bridge.arch.get? pl = arch
  dev : bridge.dev.get? pl = dev
  verify : bridge.verify.get? pl = verify

theorem RowsAre.core {prd arch dev verify : Option (Dict String String)}
    {bridge bridge' : Bridge} (hrows : RowsAre pl prd arch dev verify bridge)
    (hcore : bridge'.core = bridge.core) :
    RowsAre pl prd arch dev verify bridge' where
  prd := by
    have hsame := congrArg (fun bridge => bridge.prd.get? pl) hcore
    exact hsame.trans hrows.prd
  arch := by
    have hsame := congrArg (fun bridge => bridge.arch.get? pl) hcore
    exact hsame.trans hrows.arch
  dev := by
    have hsame := congrArg (fun bridge => bridge.dev.get? pl) hcore
    exact hsame.trans hrows.dev
  verify := by
    have hsame := congrArg (fun bridge => bridge.verify.get? pl) hcore
    exact hsame.trans hrows.verify

/-- Nothing is restored for a pipeline whose missing rows the log does not
know. -/
theorem RowsAre.hydrated {prd arch dev verify : Option (Dict String String)}
    (hrows : RowsAre pl prd arch dev verify s.bridge)
    (hloads : env.codec.LoadsFields)
    (hstanding : Standing env.codec ws pl records s.store)
    (hprd : prd = none →
      latest (fun record => record.2.get? "prd_status") records = none)
    (harch : arch = none →
      latest (fun record => record.2.get? "arch_status") records = none)
    (hdev : dev = none →
      latest (fun record => record.2.get? "candidate_gate") records ≠ some "PASS")
    (hverify : verify = none →
      latest (fun record => record.2.get? "verify_status") records ≠
        some "READY") :
    RowsAre pl prd arch dev verify (s.hydrated env ws pl).bridge where
  prd := by
    simp only [RootState.hydrated, get?_hydrate_prd]
    rw [if_neg, hrows.prd]
    rintro ⟨-, habsent, hstatus⟩
    apply hstatus
    rw [hrows.prd] at habsent
    rw [Dict.getD, hstanding.fold hloads (by decide), hprd habsent]
    rfl
  arch := by
    simp only [RootState.hydrated, get?_hydrate_arch]
    rw [if_neg, hrows.arch]
    rintro ⟨-, habsent, hstatus⟩
    apply hstatus
    rw [hrows.arch] at habsent
    rw [Dict.getD, hstanding.fold hloads (by decide), harch habsent]
    rfl
  dev := by
    simp only [RootState.hydrated, get?_hydrate_dev]
    rw [if_neg, hrows.dev]
    rintro ⟨-, habsent, hgate⟩
    rw [hrows.dev] at habsent
    rw [hstanding.fold hloads (by decide)] at hgate
    exact hdev habsent hgate
  verify := by
    simp only [RootState.hydrated, get?_hydrate_verify]
    rw [if_neg, hrows.verify]
    rintro ⟨-, habsent, hstatus⟩
    rw [hrows.verify] at habsent
    rw [hstanding.fold hloads (by decide)] at hstatus
    exact hverify habsent hstatus

/-- A pipeline at rest: its log and its rows in memory. -/
structure Rests (env : RootEnv) (ws pl : String) (records : Records)
    (prd arch dev verify : Option (Dict String String)) (s : RootState) :
    Prop where
  standing : Standing env.codec ws pl records s.store
  rows : RowsAre pl prd arch dev verify s.bridge

/-- What a commit leaves depends on the stations only. -/
theorem committedBridge_core {bridge bridge' : Bridge}
    (hcore : bridge'.core = bridge.core) (planning designed : Dict String String) :
    (committedBridge bridge' pl prj principal planning designed).core =
      (committedBridge bridge pl prj principal planning designed).core := by
  have hcommit : ∀ bridge : Bridge,
      (committedBridge bridge pl prj principal planning designed).core =
        (committedBridge bridge.core pl prj principal planning designed).core :=
    fun _ => rfl
  rw [hcommit, hcore, ← hcommit]

theorem planned_rows {bridge : Bridge}
    {planning designed planning' designed' : Dict String String}
    (hprd : bridge.prd.get? pl = some planning)
    (harch : bridge.arch.get? pl = some designed)
    (hplanned : planned bridge pl = some (planning', designed')) :
    planning' = planning ∧ designed' = designed := by
  rw [planned, hprd, harch] at hplanned
  simp only [Option.ite_none_right_eq_some, Option.some.injEq,
    Prod.mk.injEq] at hplanned
  exact ⟨hplanned.2.1.symm, hplanned.2.2.symm⟩

section Stages

variable {prd arch dev verify : Option (Dict String String)}

theorem Rests.still (hrests : Rests env ws pl records prd arch dev verify s)
    (hstill : Still s s') : Rests env ws pl records prd arch dev verify s' :=
  ⟨hrests.standing.sameLog hstill.log, hrests.rows.core hstill.core⟩

theorem quiet_launched (launch : Launch) (s : RootState) :
    Quiet s (s.launched launch) := ⟨rfl, rfl, rfl, rfl, rfl, rfl⟩

variable (hsteady : env.Steady plan design develop verdict)
  (hfits : RecordsFit ws prj pl) (hfew : records.length ≤ 5)

include hsteady hfits hfew

/-- What is kept of a stage on a pipeline at rest. -/
theorem Kept.rests {station : Station} {fields : Dict String String}
    {names : List String} {bridge : Bridge}
    (hkept : Kept env ws prj pl station fields names bridge s s')
    (hstanding : Standing env.codec ws pl records s.store)
    (hrows : RowsAre pl prd arch dev verify bridge)
    (hregistry : bridge.registry = s.bridge.registry)
    (hcorrupt : bridge.corrupt = s.bridge.corrupt)
    (hnames : "projects.json" ∉ names) :
    Quiet s s' ∧ Rests env ws pl (records ++ [(station, fields)]) prd arch dev
      verify s' ∧
      (∀ file ∈ names, file ∈ stationFiles →
        SavedIn s'.files s'.bridge file) := by
  obtain ⟨hfaults, hnext⟩ := hkept.standing hsteady hstanding hfits hfew
  refine ⟨hkept.quietly hnames hregistry hcorrupt hfaults,
    ⟨hnext, hrows.core hkept.core⟩, ?_⟩
  intro file hfile hstation
  rw [SavedIn, hkept.saved hfaults file hfile, document_congr hkept.core hstation]

/-- A planning stage that has no row yet. -/
theorem Planned.calm {outcome : Except BridgeError Unit}
    (hplanned : Planned env ws prj pl s outcome s')
    (hrests : Rests env ws pl records none arch dev verify s) :
    outcome = .ok () ∧ Quiet s s' ∧
      Rests env ws pl (records ++ [(.prd, prdRow plan)]) (some (prdRow plan))
        arch dev verify s' := by
  cases hplanned with
  | skipped row => exact absurd hrests.rows.prd row
  | raised absent answer =>
      rw [hsteady.plans] at answer
      cases answer
  | @finished result n _ _ absent answer kept ended =>
      rw [hsteady.plans] at answer
      cases answer
      obtain ⟨hquiet, hkeeps, -⟩ := @Kept.rests _ _ _ _ _ _ _ _ _
        (s.launched (.plan pl)) _ (some (prdRow plan)) arch dev verify hsteady
        hfits hfew _ _ _ _ kept hrests.standing
        ⟨Dict.get?_set_self _ _ _, hrests.rows.arch, hrests.rows.dev,
          hrests.rows.verify⟩ rfl rfl (by decide)
      refine ⟨ended hsteady.codec ?_ hquiet.faults,
        (quiet_launched _ s).trans hquiet, hkeeps⟩
      exact (hrests.standing.canRecord_station hfits hfew .prd).1

theorem Designed.calm {outcome : Except BridgeError Unit}
    (hdesigned : Designed env ws prj pl s outcome s')
    (hrests : Rests env ws pl records prd none dev verify s)
    (hplanned : plannedPrd s.bridge pl ≠ none) :
    outcome = .ok () ∧ Quiet s s' ∧
      Rests env ws pl (records ++ [(.architecture, archRow design)]) prd
        (some (archRow design)) dev verify s' := by
  have hkeeps : ∀ s₁ : RootState, Kept env ws prj pl .architecture (archRow design)
      ["architecture.json"] (withArch s.bridge pl (archRow design))
      (s.launched (.design pl)) s₁ → Quiet s s₁ ∧
        Rests env ws pl (records ++ [(.architecture, archRow design)]) prd
          (some (archRow design)) dev verify s₁ := by
    intro s₁ hkept
    obtain ⟨hquiet, hnext, -⟩ := @Kept.rests _ _ _ _ _ _ _ _ _
      (s.launched (.design pl)) _ prd (some (archRow design)) dev verify hsteady
      hfits hfew _ _ _ _ hkept hrests.standing
      ⟨hrests.rows.prd, Dict.get?_set_self _ _ _, hrests.rows.dev,
        hrests.rows.verify⟩ rfl rfl (by decide)
    exact ⟨(quiet_launched _ s).trans hquiet, hnext⟩
  cases hdesigned with
  | skipped why =>
      rcases why with hrow | hnone
      · exact absurd hrests.rows.arch hrow
      · exact absurd hnone hplanned
  | raised absent planned answer =>
      rw [hsteady.designs] at answer
      cases answer
  | finished absent planned answer kept stops ended =>
      rw [hsteady.designs] at answer
      cases answer
      obtain ⟨hquiet, hnext⟩ := hkeeps _ kept
      exact ⟨ended hsteady.codec
        (hrests.standing.canRecord_station hfits hfew .architecture).1
        hquiet.faults, hquiet, hnext⟩
  | pended absent planned answer passes kept pended ended faults quiet =>
      rw [hsteady.designs] at answer
      cases answer
      obtain ⟨hquiet, hnext⟩ := hkeeps _ kept
      have hsame := quiet (calm_of_steady hsteady)
      refine ⟨ended hsame, ?_⟩
      cases pended with
      | skipped row => exact ⟨hquiet, hnext⟩
      | pended absent rewritten =>
          refine ⟨hquiet.trans (rewritten.quietly (by decide) rfl rfl hsame), ?_, ?_⟩
          · rw [rewritten.store]
            exact hnext.standing
          · apply RowsAre.core _ rewritten.core
            exact ⟨hnext.rows.prd, hnext.rows.arch, hnext.rows.dev,
              hnext.rows.verify⟩

/-- The commit of an approval by a member who may approve. -/
theorem Committed.calm {outcome : Except BridgeError (Option String)}
    {planning designed : Dict String String}
    (hcommitted : Committed env ws prj pl principal s outcome s')
    (hrests : Rests env ws pl records (some planning) (some designed) dev verify s)
    (hrole : SolutionApproval.mayApprove
      (s.bridge.registry.roleOf prj principal) = true) :
    outcome = .ok none ∧ Quiet s s' ∧
      Rests env ws pl (records ++ [(.approval, approvalRecord principal)])
        (some planning) (some designed) dev verify s' ∧
      s'.bridge.core = (committedBridge s.bridge pl prj principal planning
        designed).core := by
  cases hcommitted with
  | refused message why =>
      rcases why with hprd | harch | hviewer
      · rw [hrests.rows.prd] at hprd
        cases hprd
      · rw [hrests.rows.arch] at harch
        cases harch
      · rw [hrole] at hviewer
        cases hviewer
  | @kept planning' designed' outcome _ prd arch role kept ended =>
      rw [hrests.rows.prd, Option.some.injEq] at prd
      rw [hrests.rows.arch, Option.some.injEq] at arch
      subst prd arch
      obtain ⟨hquiet, hnext, -⟩ := Kept.rests hsteady hfits hfew kept
        hrests.standing ⟨hrests.rows.prd, hrests.rows.arch, hrests.rows.dev,
          hrests.rows.verify⟩ rfl rfl (by decide)
      have hended := ended hsteady.codec
        (hrests.standing.canRecord_station hfits hfew .approval).1 hquiet.faults
      subst hended
      exact ⟨rfl, hquiet, hnext, kept.core⟩

/-- A development that may start. -/
theorem Developed.calm {outcome : Except BridgeError Unit}
    {planning designed : Dict String String}
    (hdeveloped : Developed env ws prj pl principal s outcome s')
    (hrests : Rests env ws pl records (some planning) (some designed) none verify
      s)
    (hplanned : planned s.bridge pl ≠ none)
    (hrole : SolutionApproval.mayApprove
      (s.bridge.registry.roleOf prj principal) = true) :
    outcome = .ok () ∧ Quiet s s' ∧
      Rests env ws pl (records ++ [(.development, developmentRow develop)])
        (some planning) (some designed) (some (developmentRow develop)) verify
        s' ∧
      s'.bridge.approval = (approvedBy s.bridge pl principal
        (planning.getD "prd_id" "") (designed.getD "design_id" "")
        (designed.getD "testplan_id" "")).approval ∧
      s'.bridge.approvals = s.bridge.approvals ∧
      SavedIn s'.files s'.bridge "development.json" := by
  cases hdeveloped with
  | skipped row =>
      rcases row with hrow | hnone
      · exact absurd hrests.rows.dev hrow
      · exact absurd hnone hplanned
  | denied develops role kept ended =>
      rw [hrole] at role
      cases role
  | raised develops role answer =>
      rw [hsteady.develops] at answer
      cases answer
  | interrupted develops role frame fault cause =>
      exact absurd (calm_of_steady hsteady) cause
  | @finished planning' designed' result n _ s₁ _ develops role answer frame quiet
      kept ended =>
      rw [hsteady.develops] at answer
      cases answer
      obtain ⟨rfl, rfl⟩ := planned_rows hrests.rows.prd hrests.rows.arch
        develops.planned
      have hstill : Quiet (s.launchedDevelop pl principal planning' designed')
          s₁ := Still.quietly ⟨frame, quiet (calm_of_steady hsteady)⟩
      have hstanding := hrests.standing.sameLog frame.log
      have hrows : RowsAre pl (some planning') (some designed') none verify
          s₁.bridge :=
        (show RowsAre pl (some planning') (some designed') none verify
          (s.launchedDevelop pl principal planning' designed').bridge from
            ⟨hrests.rows.prd, hrests.rows.arch, hrests.rows.dev,
              hrests.rows.verify⟩).core frame.core
      obtain ⟨hquiet, hnext, hsaved⟩ := @Kept.rests _ _ _ _ _ _ _ _ _ s₁ _
        (some planning') (some designed') (some (developmentRow develop)) verify
        hsteady hfits hfew _ _ _ _ kept hstanding
        ⟨hrows.prd, hrows.arch, Dict.get?_set_self _ _ _, hrows.verify⟩ rfl rfl
        (by decide)
      refine ⟨ended hsteady.codec
        (hrests.standing.canRecord_station hfits hfew .development).1
        hquiet.faults, ?_, hnext, ?_, ?_,
        hsaved _ List.mem_cons_self (by decide)⟩
      · have hlaunched : Quiet s
            (s.launchedDevelop pl principal planning' designed') :=
          ⟨rfl, rfl, rfl, rfl, rfl, rfl⟩
        exact hlaunched.trans (hstill.trans hquiet)
      · have happroval := congrArg Bridge.approval kept.core
        exact happroval.trans frame.approval
      · have happrovals := congrArg Bridge.approvals kept.core
        exact happrovals.trans frame.approvals

/-- The row of a verification by its verdict. -/
def verdictRow : Option VerifyResult → Dict String String
  | none => infraRow
  | some result => verifiedRow result

/-- The candidate that a verification is recorded with. -/
def verdictSha (sha : String) : Option VerifyResult → String
  | none => ""
  | some _ => sha

/-- A verification that may start. -/
theorem Verified.calm {outcome : Except BridgeError Unit}
    {developed : Dict String String}
    (hverified : Verified env ws prj pl s outcome s')
    (hrests : Rests env ws pl records prd arch (some developed) none s)
    (hgate : developed.get? "candidate_gate" = some "PASS") :
    outcome = .ok () ∧ Quiet s s' ∧
      Rests env ws pl (records ++ [(.verify, verifyRecord (verdictRow verdict) pl
        prj (verdictSha (developed.getD "candidate_sha" "") verdict))]) prd arch
        (some developed) (some (verdictRow verdict)) s' ∧
      SavedIn s'.files s'.bridge "verify.json" ∧
      s'.files.get? "development.json" = s.files.get? "development.json" ∧
      s'.bridge.dev = s.bridge.dev := by
  have hkeeps : ∀ {s₁ : RootState} {fields row : Dict String String},
      Frame (s.launchedVerify pl developed) s₁ → s₁.faults = s.faults →
      Kept env ws prj pl .verify fields verifyFiles (withVerify s₁.bridge pl row)
        s₁ s' →
      Quiet s s' ∧ Rests env ws pl (records ++ [(.verify, fields)]) prd arch
        (some developed) (some row) s' ∧ SavedIn s'.files s'.bridge "verify.json" ∧
        s'.files.get? "development.json" = s.files.get? "development.json" ∧
        s'.bridge.dev = s.bridge.dev := by
    intro s₁ fields row hframe hfaults hkept
    have hrows : RowsAre pl prd arch (some developed) none s₁.bridge :=
      hrests.rows.core hframe.core
    obtain ⟨hquiet, hnext, hsaved⟩ := @Kept.rests _ _ _ _ _ _ _ _ _ s₁ _ prd
      arch (some developed) (some row) hsteady hfits hfew _ _ _ _ hkept
      (hrests.standing.sameLog hframe.log)
      ⟨hrows.prd, hrows.arch, hrows.dev, Dict.get?_set_self _ _ _⟩ rfl rfl
      (by decide)
    refine ⟨?_, hnext, hsaved _ List.mem_cons_self (by decide), ?_, ?_⟩
    · have hlaunched : Quiet s (s.launchedVerify pl developed) :=
        quiet_launched _ s
      exact hlaunched.trans ((Still.quietly ⟨hframe, hfaults⟩).trans hquiet)
    · rcases hkept.files "development.json" (by decide) with hsame | ⟨hmem, -⟩
      · rw [hsame, hframe.station (by decide)]
        rfl
      · exact absurd hmem (by decide)
    · have hdev := congrArg Bridge.dev hkept.core
      exact hdev.trans hframe.dev
  have hcan := (hrests.standing.canRecord_station hfits hfew .verify).1
  cases hverified with
  | skipped idle =>
      exact absurd ⟨hrests.rows.verify, hrests.rows.dev, hgate⟩ (idle developed)
  | interrupted verifies frame cause =>
      exact absurd (calm_of_steady hsteady) cause
  | infra verifies answer kept ended =>
      rw [hsteady.verifies] at answer
      subst answer
      have hrow := verifies.row.symm.trans hrests.rows.dev
      rw [Option.some.injEq] at hrow
      subst hrow
      obtain ⟨hquiet, hnext⟩ := hkeeps (.refl _) rfl kept
      exact ⟨ended (calm_of_steady hsteady) hsteady.codec hcan hquiet.faults,
        hquiet, hnext⟩
  | finished verifies answer frame quiet kept ended =>
      rw [hsteady.verifies] at answer
      subst answer
      have hrow := verifies.row.symm.trans hrests.rows.dev
      rw [Option.some.injEq] at hrow
      subst hrow
      obtain ⟨hquiet, hnext⟩ := hkeeps frame
        (quiet (calm_of_steady hsteady)) kept
      exact ⟨ended (calm_of_steady hsteady) hsteady.codec hcan hquiet.faults,
        hquiet, hnext⟩

end Stages

/-- A verification that may not start leaves everything as it is. -/
theorem Verified.idle {outcome : Except BridgeError Unit}
    (hverified : Verified env ws prj pl s outcome s')
    (hidle : ∀ developed, ¬ Verifies s pl developed) :
    outcome = .ok () ∧ s' = s := by
  cases hverified with
  | skipped idle => exact ⟨rfl, rfl⟩
  | interrupted verifies frame cause => exact absurd verifies (hidle _)
  | infra verifies answer kept ended => exact absurd verifies (hidle _)
  | finished verifies answer frame quiet kept ended =>
      exact absurd verifies (hidle _)

theorem hydrate_dev_of_present (folded : Dict String String) {bridge : Bridge}
    (hpresent : bridge.dev.get? pl ≠ none) :
    (hydrate folded pl bridge).dev = bridge.dev := by
  simp only [hydrate]
  split
  · rfl
  · exact if_neg fun hfill => hpresent hfill.2

section Staged

variable {planning designed : Dict String String}
  (hsteady : env.Steady plan design develop verdict)
  (hfits : RecordsFit ws prj pl) (hfew : records.length ≤ 4)
  (hrests : Rests env ws pl records (some planning) (some designed) none none s)
  (hplanned : planned s.bridge pl ≠ none)
  (hrole : SolutionApproval.mayApprove
    (s.bridge.registry.roleOf prj principal) = true)
  (hdev : latest (fun record => record.2.get? "candidate_gate") records ≠
    some "PASS")
  (hverify : latest (fun record => record.2.get? "verify_status") records ≠
    some "READY")

include hsteady hfits hfew hrests hplanned hrole hdev hverify

/-- The development of a pipeline that has none, from the restored rows on. -/
theorem Developed.calm_hydrated {outcome : Except BridgeError Unit}
    (hdeveloped : Developed env ws prj pl principal (s.hydrated env ws pl) outcome
      s') :
    outcome = .ok () ∧ Quiet s s' ∧
      Rests env ws pl (records ++ [(.development, developmentRow develop)])
        (some planning) (some designed) (some (developmentRow develop)) none s' ∧
      s'.bridge.approval = (approvedBy s.bridge pl principal
        (planning.getD "prd_id" "") (designed.getD "design_id" "")
        (designed.getD "testplan_id" "")).approval ∧
      SavedIn s'.files s'.bridge "development.json" := by
  have hrows := hrests.rows.hydrated hsteady.loads hrests.standing (by simp)
    (by simp) (fun _ => hdev) (fun _ => hverify)
  have hquiet := quiet_hydrated env ws pl s
  obtain ⟨houtcome, hquiets, hnext, happroval, -, hsaved⟩ :=
    hdeveloped.calm hsteady hfits (by omega) ⟨hrests.standing, hrows⟩ (by
      rw [planned, hrows.prd, hrows.arch, ← hrests.rows.prd, ← hrests.rows.arch]
      exact hplanned) (by rw [hquiet.registry]; exact hrole)
  refine ⟨houtcome, hquiet.trans hquiets, hnext, ?_, hsaved⟩
  rw [happroval]
  simp [approvedBy, RootState.hydrated]

/-- Stages whose candidate passes its gate and is verified. -/
theorem Staged.calm_passing (hgate : develop.gatePasses = true)
    {outcome : Except BridgeError Unit}
    (hstaged : Staged env ws prj pl principal s outcome s') :
    outcome = .ok () ∧ Quiet s s' ∧
      Rests env ws pl (records ++ [(.development, developmentRow develop),
        (.verify, verifyRecord (verdictRow verdict) pl prj
          (verdictSha ((developmentRow develop).getD "candidate_sha" "")
            verdict))])
        (some planning) (some designed) (some (developmentRow develop))
        (some (verdictRow verdict)) s' ∧
      SavedIn s'.files s'.bridge "development.json" ∧
      SavedIn s'.files s'.bridge "verify.json" := by
  cases hstaged with
  | stopped developed =>
      obtain ⟨houtcome, -⟩ := developed.calm_hydrated hsteady hfits hfew hrests
        hplanned hrole hdev hverify
      cases houtcome
  | @through _ s₁ _ developed verified =>
      obtain ⟨-, hquiet, hnext, -, hsaved⟩ := developed.calm_hydrated hsteady
        hfits hfew hrests hplanned hrole hdev hverify
      have hrow : (developmentRow develop).get? "candidate_gate" =
          some "PASS" := by
        simp [developmentRow, hgate]
        rfl
      have hunverified : (developmentRow develop).get? "verify_status" =
          none := rfl
      have hrows := hnext.rows.hydrated hsteady.loads hnext.standing (by simp)
        (by simp) (by simp) (by
          intro hnone
          rw [latest_concat, hunverified, Option.none_or]
          exact hverify)
      obtain ⟨houtcome, hverifies, hlast, hverified, hfile, hrowsdev⟩ :=
        verified.calm hsteady hfits (by simp; omega) ⟨hnext.standing, hrows⟩ hrow
      rw [List.append_assoc] at hlast
      refine ⟨houtcome, hquiet.trans ((quiet_hydrated env ws pl s₁).trans
        hverifies), hlast, ?_, hverified⟩
      have hkept : s'.bridge.dev = s₁.bridge.dev := by
        rw [hrowsdev]
        apply hydrate_dev_of_present
        rw [hnext.rows.dev]
        simp
      rw [SavedIn, hfile]
      exact hsaved.trans (by rw [document, document, hkept]; rfl)

/-- Stages whose candidate fails its gate. -/
theorem Staged.calm_failing (hgate : develop.gatePasses = false)
    {outcome : Except BridgeError Unit}
    (hstaged : Staged env ws prj pl principal s outcome s') :
    outcome = .ok () ∧ Quiet s s' ∧
      Rests env ws pl (records ++ [(.development, developmentRow develop)])
        (some planning) (some designed) (some (developmentRow develop)) none s' ∧
      s'.bridge.approval = (approvedBy s.bridge pl principal
        (planning.getD "prd_id" "") (designed.getD "design_id" "")
        (designed.getD "testplan_id" "")).approval := by
  cases hstaged with
  | stopped developed =>
      obtain ⟨houtcome, -⟩ := developed.calm_hydrated hsteady hfits hfew hrests
        hplanned hrole hdev hverify
      cases houtcome
  | @through _ s₁ _ developed verified =>
      obtain ⟨-, hquiet, hnext, happroval, -⟩ := developed.calm_hydrated hsteady
        hfits hfew hrests hplanned hrole hdev hverify
      have hrow : (developmentRow develop).get? "candidate_gate" =
          some "FAIL" := by
        simp [developmentRow, hgate]
        rfl
      have hunverified : (developmentRow develop).get? "verify_status" =
          none := rfl
      have hrows := hnext.rows.hydrated hsteady.loads hnext.standing (by simp)
        (by simp) (by simp) (by
          intro hnone
          rw [latest_concat, hunverified, Option.none_or]
          exact hverify)
      obtain ⟨rfl, rfl⟩ := verified.idle (by
        intro developed hverifies
        have hsame := hverifies.row.symm.trans hrows.dev
        have hpass := hverifies.gate
        rw [Option.some.inj hsame, hrow] at hpass
        simp at hpass)
      refine ⟨rfl, hquiet.trans (quiet_hydrated env ws pl s₁),
        ⟨hnext.standing, hrows⟩, ?_⟩
      rw [← happroval]
      simp [RootState.hydrated]

end Staged

section Intake

variable {commandId text : String} {ids : RequestIds}

/-- What an intake on a sound store asks: a contributor, a text, ids that fit,
and a command id and a pipeline that nothing has used. -/
structure IntakeReady (commandId text : String) (ids : RequestIds)
    (s : RootState) : Prop where
  sole : Sole ids.workspaceId s.store
  role : SolutionApproval.mayApprove
    (s.bridge.registry.roleOf ids.projectId ids.principalId) = true
  text : pyStrip text ≠ ""
  fits : IntakeFits commandId ids
  records : RecordsFit ids.workspaceId ids.projectId ids.pipelineId
  client : ¬ Reserved commandId
  absent : s.store.pipelines.find? (ids.workspaceId, ids.pipelineId) = none
  fresh : s.store.inbox.find? (ids.workspaceId, commandId) = none
  rows : RowsAre ids.pipelineId none none none none s.bridge

theorem IntakeReady.storedRevision (hready : IntakeReady commandId text ids s) :
    s.store.storedRevision ids.workspaceId ids.pipelineId = 0 := by
  rw [SqliteKernelStore.storedRevision, hready.absent]
  rfl

theorem IntakeReady.canConfirm (hready : IntakeReady commandId text ids s) :
    CanConfirm commandId text ids s where
  role := hready.role
  text := hready.text
  fits := hready.fits
  absent := hready.absent
  fresh := hready.fresh
  vacant := hready.sole.vacant hready.fresh (by
    rw [hready.storedRevision]
    decide)

/-- The log of a pipeline that was just confirmed. -/
theorem IntakeReady.standing (hready : IntakeReady commandId text ids s)
    (codec : Codec) {event : EventWrite} {store : SqliteKernelStore}
    (hgrows : Grows ids.workspaceId ids.pipelineId commandId event s.store store)
    (htype : event.eventType = "REQUIREMENT_CONFIRMED") :
    Standing codec ids.workspaceId ids.pipelineId [] store := by
  have hnumbered := hready.sole.numbered
  have hnothing : s.store.listEvents ids.workspaceId ids.pipelineId = [] := by
    rw [hnumbered.listEvents_eq _ hgrows.workspace, ← List.length_eq_zero_iff,
      ← hnumbered.snapshot, hready.storedRevision]
  refine ⟨hready.sole.grows hgrows
    (hready.sole.tidy.grows hnumbered hgrows hready.client), hgrows.workspace,
    hgrows.opened, event, [], ?_, ?_, .nil⟩
  · rw [hgrows.listEvents_self hnumbered, hnothing]
    rfl
  · rw [htype]
    decide

/-- The planning of a pipeline that has no rows and no records. -/
theorem PlannedBaseline.calm (hsteady : env.Steady plan design develop verdict)
    (hfits : RecordsFit ws prj pl)
    (hpasses : plan.completed = true ∧ plan.gatePasses = true)
    (hplanned : PlannedBaseline env ws prj pl s s')
    (hrests : Rests env ws pl [] none none none none s) :
    Quiet s s' ∧ Rests env ws pl
      [(.prd, prdRow plan), (.architecture, archRow design)]
      (some (prdRow plan)) (some (archRow design)) none none s' := by
  have hbefore : Rests env ws pl [] none none none none
      (s.hydrated env ws pl) :=
    ⟨hrests.standing, hrests.rows.hydrated hsteady.loads hrests.standing
      (fun _ => rfl) (fun _ => rfl) (by simp) (by simp)⟩
  have hquiet := quiet_hydrated env ws pl s
  cases hplanned with
  | stopped planned =>
      obtain ⟨houtcome, -⟩ := planned.calm hsteady hfits (by simp) hbefore
      cases houtcome
  | @through outcome s₁ _ planned designed =>
      obtain ⟨-, hplans, hplanned⟩ := planned.calm hsteady hfits (by simp) hbefore
      have hrow : (prdRow plan).get? "prd_gate" = some "PASS" := by
        simp [prdRow, hpasses.1, hpasses.2]
        rfl
      have hagain : Rests env ws pl [(.prd, prdRow plan)] (some (prdRow plan))
          none none none (s₁.hydrated env ws pl) := by
        refine ⟨hplanned.standing, hplanned.rows.hydrated hsteady.loads
          hplanned.standing ?_ ?_ ?_ ?_⟩
        · intro hnone
          cases hnone
        · intro hnone
          rfl
        · intro hnone
          exact Option.some_ne_none _ |>.symm
        · intro hnone
          exact Option.some_ne_none _ |>.symm
      obtain ⟨-, hdesigns, hdesigned⟩ := designed.calm hsteady hfits (by simp)
        hagain (by
          rw [plannedPrd, hagain.rows.prd, Option.filter_some, if_pos (by
            simpa using hrow)]
          simp)
      exact ⟨hquiet.trans (hplans.trans ((quiet_hydrated env ws pl s₁).trans
        hdesigns)), hdesigned⟩

/-- The intake of a new requirement plans its baseline. -/
theorem Intakes.calm (hsteady : env.Steady plan design develop verdict)
    (hpasses : plan.completed = true ∧ plan.gatePasses = true)
    (hready : IntakeReady commandId text ids s)
    (hintakes : Intakes env commandId text ids s s') :
    Quiet s s' ∧ Rests env ids.workspaceId ids.pipelineId
      [(.prd, prdRow plan), (.architecture, archRow design)]
      (some (prdRow plan)) (some (archRow design)) none none s' := by
  have hcan := hready.canConfirm
  have hcalm := calm_of_steady hsteady
  cases hintakes with
  | refused confirmed why =>
      cases confirmed with
      | same outcome k cannot => exact absurd hcan (cannot hsteady.codec)
      | opened k grows type accepted quiet =>
          exact absurd accepted (why _ rfl)
  | unsaved confirmed accepted frame fault cause => exact absurd hcalm cause
  | @planned receipt s₁ s₂ _ confirmed accepted frame quiet planned =>
      cases confirmed with
      | same outcome k cannot => exact absurd hcan (cannot hsteady.codec)
      | @opened _ event store k grows type accepted opened =>
          have hk := opened hsteady.codec hcan
          subst hk
          have hstill : Still { s with store := store, faults := s.faults + 0 }
              s₂ := ⟨frame, quiet⟩
          have hconfirmed : Quiet s
              { s with store := store, faults := s.faults + 0 } :=
            ⟨rfl, rfl, rfl, rfl, rfl, rfl⟩
          have hrests : Rests env ids.workspaceId ids.pipelineId [] none none
              none none { s with store := store, faults := s.faults + 0 } :=
            ⟨hready.standing env.codec grows type, hready.rows⟩
          obtain ⟨hquiet, hnext⟩ := planned.calm hsteady hready.records hpasses
            (hrests.still hstill)
          exact ⟨(hconfirmed.trans hstill.quietly).trans hquiet, hnext⟩

end Intake

section Approve

variable {ids : RequestIds} {planning designed : Dict String String}
  {dev verify : Option (Dict String String)}

/-- What an approval on a pipeline at rest asks: both planning gates passed, a
member who may approve, and a free lease. -/
structure ApproveReady (env : RootEnv) (ids : RequestIds) (records : Records)
    (planning designed : Dict String String)
    (dev verify : Option (Dict String String)) (s : RootState) : Prop where
  rests : Rests env ids.workspaceId ids.pipelineId records (some planning)
    (some designed) dev verify s
  planned : planned s.bridge ids.pipelineId ≠ none
  role : SolutionApproval.mayApprove
    (s.bridge.registry.roleOf ids.projectId ids.principalId) = true
  free : s.store.loadLease ids.workspaceId ids.pipelineId = none
  fits : RecordsFit ids.workspaceId ids.projectId ids.pipelineId
  few : records.length ≤ 3
  dev : dev = none → latest (fun record => record.2.get? "candidate_gate")
    records ≠ some "PASS"
  verify : verify = none → latest (fun record => record.2.get? "verify_status")
    records ≠ some "READY"

theorem ApproveReady.hydrated (hsteady : env.Steady plan design develop verdict)
    (hready : ApproveReady env ids records planning designed dev verify s) :
    RowsAre ids.pipelineId (some planning) (some designed) dev verify
      (s.ticked.hydrated env ids.workspaceId ids.pipelineId).bridge :=
  RowsAre.hydrated (show RowsAre ids.pipelineId (some planning) (some designed)
    dev verify s.ticked.bridge from hready.rests.rows) hsteady.loads
    hready.rests.standing (by simp) (by simp) hready.dev hready.verify

/-- A member who may approve belongs to the project. -/
theorem roleOf_ne_none {registry : ProjectRegistry}
    (hrole : SolutionApproval.mayApprove
      (registry.roleOf prj principal) = true) :
    registry.roleOf prj principal ≠ none := by
  intro hnone
  rw [hnone] at hrole
  cases hrole

/-- The lease of a free pipeline can be stored. -/
theorem saveLease_free (hsteady : env.Steady plan design develop verdict)
    (hfree : s.store.loadLease ws pl = none) (n : Nat) :
    (s.store.saveLease (grantedLease ws pl (workerName pl) (env.clock n) 1800
      (s.store.loadLease ws pl))).1 = .ok () := by
  rw [hfree, hsteady.clock, SqliteKernelStore.saveLease]
  split
  · rfl
  · rfl

/-- An approval that was let through is committed. -/
theorem Approves.calm (hsteady : env.Steady plan design develop verdict)
    (hready : ApproveReady env ids records planning designed dev verify s)
    {spawnWorker : Bool} (happroves : Approves env spawnWorker ids s s') :
    ∃ s₁, Quiet s s₁ ∧
      Rests env ids.workspaceId ids.pipelineId
        (records ++ [(.approval, approvalRecord ids.principalId)])
        (some planning) (some designed) dev verify s₁ ∧
      s₁.bridge.core = (committedBridge (s.ticked.hydrated env ids.workspaceId
        ids.pipelineId).bridge ids.pipelineId ids.projectId ids.principalId
        planning designed).core ∧
      (spawnWorker = true ∧ Still s₁ s' ∨
        spawnWorker = false ∧ ∃ outcome s₂, Staged env ids.workspaceId
          ids.projectId ids.pipelineId ids.principalId s₁ outcome s₂ ∧
          Still s₂ s') := by
  have hrows := hready.hydrated hsteady
  have hbefore : Quiet s
      (s.ticked.hydrated env ids.workspaceId ids.pipelineId) :=
    Quiet.trans (show Quiet s s.ticked from ⟨rfl, rfl, rfl, rfl, rfl, rfl⟩)
      (quiet_hydrated env _ _ _)
  have hrole : SolutionApproval.mayApprove ((s.ticked.hydrated env
      ids.workspaceId ids.pipelineId).bridge.registry.roleOf ids.projectId
        ids.principalId) = true := by
    rw [hbefore.registry]
    exact hready.role
  have hcommits : ∀ {s₁ s₂ : RootState} {outcome : Except BridgeError
      (Option String)}, Still (s.ticked.hydrated env ids.workspaceId
        ids.pipelineId) s₁ → Committed env ids.workspaceId ids.projectId
        ids.pipelineId ids.principalId s₁ outcome s₂ → outcome = .ok none ∧
        Quiet s s₂ ∧ Rests env ids.workspaceId ids.pipelineId
          (records ++ [(.approval, approvalRecord ids.principalId)])
          (some planning) (some designed) dev verify s₂ ∧
        s₂.bridge.core = (committedBridge (s.ticked.hydrated env ids.workspaceId
          ids.pipelineId).bridge ids.pipelineId ids.projectId ids.principalId
          planning designed).core := by
    intro s₁ s₂ outcome hstill hcommitted
    have hfew := hready.few
    have hrests : Rests env ids.workspaceId ids.pipelineId records
        (some planning) (some designed) dev verify (s.ticked.hydrated env
          ids.workspaceId ids.pipelineId) := ⟨hready.rests.standing, hrows⟩
    have hnow := hrests.still hstill
    obtain ⟨houtcome, hquiet, hnext, hcore⟩ := hcommitted.calm hsteady
      hready.fits (by omega) hnow (by rw [hstill.registry]; exact hrole)
    refine ⟨houtcome, hbefore.trans (hstill.quietly.trans hquiet), hnext, ?_⟩
    rw [hcore]
    exact committedBridge_core hstill.core _ _
  cases happroves with
  | busy held =>
      rw [hready.free] at held
      cases held
  | refused why =>
      rcases why with hnone | hnone
      · have hplanned := hready.planned
        rw [planned, hready.rests.rows.prd, hready.rests.rows.arch] at hplanned
        rw [planned, hrows.prd, hrows.arch] at hnone
        exact absurd hnone hplanned
      · exact absurd hnone (roleOf_ne_none hready.role)
  | unleased frame fault cause =>
      exact absurd (saveLease_free hsteady hready.free _) cause
  | committed planned lease frame committed stops after =>
      obtain ⟨houtcome, hquiet, hnext, hcore⟩ := hcommits frame committed
      rcases stops with hspawn | hfailed
      · exact ⟨_, hquiet, hnext, hcore, Or.inl ⟨hspawn, after⟩⟩
      · exact absurd houtcome hfailed
  | staged planned lease inline frame committed staged after =>
      obtain ⟨-, hquiet, hnext, hcore⟩ := hcommits frame committed
      exact ⟨_, hquiet, hnext, hcore, Or.inr ⟨inline, _, _, staged, after⟩⟩

/-- The stages of an approval start from the committed baseline. -/
theorem ApproveReady.staged
    (hready : ApproveReady env ids records planning designed none none s)
    {s₁ : RootState} (hquiet : Quiet s s₁)
    (hrests : Rests env ids.workspaceId ids.pipelineId
      (records ++ [(.approval, approvalRecord ids.principalId)])
      (some planning) (some designed) none none s₁) :
    KernelBridge.planned s₁.bridge ids.pipelineId ≠ none ∧
      SolutionApproval.mayApprove
        (s₁.bridge.registry.roleOf ids.projectId ids.principalId) = true ∧
      latest (fun record => record.2.get? "candidate_gate")
        (records ++ [(.approval, approvalRecord ids.principalId)]) ≠
          some "PASS" ∧
      latest (fun record => record.2.get? "verify_status")
        (records ++ [(.approval, approvalRecord ids.principalId)]) ≠
          some "READY" := by
  refine ⟨?_, ?_, ?_, ?_⟩
  · have hplanned := hready.planned
    rw [KernelBridge.planned, hready.rests.rows.prd,
      hready.rests.rows.arch] at hplanned
    rw [KernelBridge.planned, hrests.rows.prd, hrests.rows.arch]
    exact hplanned
  · rw [hquiet.registry]
    exact hready.role
  · have hother : (approvalRecord ids.principalId).get? "candidate_gate" =
        none := rfl
    rw [latest_concat, hother, Option.none_or]
    exact hready.dev rfl
  · have hother : (approvalRecord ids.principalId).get? "verify_status" =
        none := rfl
    rw [latest_concat, hother, Option.none_or]
    exact hready.verify rfl

/-- An inline approval whose candidate passes its gate. -/
theorem Approves.calm_passing (hsteady : env.Steady plan design develop verdict)
    (hready : ApproveReady env ids records planning designed none none s)
    (hgate : develop.gatePasses = true)
    (happroves : Approves env false ids s s') :
    Quiet s s' ∧ Rests env ids.workspaceId ids.pipelineId
      (records ++ [(.approval, approvalRecord ids.principalId),
        (.development, developmentRow develop),
        (.verify, verifyRecord (verdictRow verdict) ids.pipelineId ids.projectId
          (verdictSha ((developmentRow develop).getD "candidate_sha" "")
            verdict))])
      (some planning) (some designed) (some (developmentRow develop))
      (some (verdictRow verdict)) s' := by
  obtain ⟨s₁, hquiet, hrests, -, hspawned | ⟨-, outcome, s₂, hstaged, hstill⟩⟩ :=
    happroves.calm hsteady hready
  · cases hspawned.1
  · obtain ⟨hplanned, hrole, hdev, hverify⟩ := hready.staged hquiet hrests
    have hfew := hready.few
    obtain ⟨-, hstages, hnext, -⟩ := hstaged.calm_passing hsteady hready.fits
      (by simp; omega) hrests hplanned hrole hdev hverify hgate
    rw [List.append_assoc] at hnext
    exact ⟨hquiet.trans (hstages.trans hstill.quietly), hnext.still hstill⟩

/-- An inline approval whose candidate fails its gate. -/
theorem Approves.calm_failing (hsteady : env.Steady plan design develop verdict)
    (hready : ApproveReady env ids records planning designed none none s)
    (hgate : develop.gatePasses = false)
    (happroves : Approves env false ids s s') :
    Quiet s s' ∧ Rests env ids.workspaceId ids.pipelineId
      (records ++ [(.approval, approvalRecord ids.principalId),
        (.development, developmentRow develop)])
      (some planning) (some designed) (some (developmentRow develop)) none
      s' := by
  obtain ⟨s₁, hquiet, hrests, -, hspawned | ⟨-, outcome, s₂, hstaged, hstill⟩⟩ :=
    happroves.calm hsteady hready
  · cases hspawned.1
  · obtain ⟨hplanned, hrole, hdev, hverify⟩ := hready.staged hquiet hrests
    have hfew := hready.few
    obtain ⟨-, hstages, hnext, -⟩ := hstaged.calm_failing hsteady hready.fits
      (by simp; omega) hrests hplanned hrole hdev hverify hgate
    rw [List.append_assoc] at hnext
    exact ⟨hquiet.trans (hstages.trans hstill.quietly), hnext.still hstill⟩

end Approve

section Retry

variable {ids : RequestIds} {infra : Bool} {used infraUsed : Int}
  {planning designed developed verified : Dict String String}

/-- The rows after a retry has dropped its stages. -/
theorem Dropped.calm (hsteady : env.Steady plan design develop verdict)
    {prd arch dev verify : Option (Dict String String)}
    (hrests : Rests env ws pl records prd arch dev verify s)
    {outcome : Except BridgeError Unit} (hdropped : Dropped env pl s outcome s') :
    outcome = .ok () ∧ Quiet s s' ∧ Rests env ws pl records prd arch none none s' := by
  cases hdropped with
  | cut rewritten fault cause => exact absurd (calm_of_steady hsteady) cause
  | @dropped s₁ rewritten quiet =>
      have hquiet := rewritten.quietly (by decide) rfl rfl quiet
      refine ⟨rfl, ⟨hquiet.registry, hquiet.corrupt, hquiet.projects,
        hquiet.spawnWorker, hquiet.running, hquiet.faults⟩, ?_, ?_⟩
      · have hstore : s₁.store = s.store := rewritten.store
        rw [show ({ s₁ with bridge := { s₁.bridge with
          verify := s₁.bridge.verify.pop pl } } : RootState).store = s.store
            from hstore]
        exact hrests.standing
      · have hrows : RowsAre pl prd arch none verify s₁.bridge :=
          RowsAre.core (show RowsAre pl prd arch none verify
            { s.bridge with dev := s.bridge.dev.pop pl } from
              ⟨hrests.rows.prd, hrests.rows.arch, Dict.get?_pop_self _ _,
                hrests.rows.verify⟩) rewritten.core
        exact ⟨hrows.prd, hrows.arch, hrows.dev, Dict.get?_pop_self _ _⟩

/-- A development with a row leaves everything as it is. -/
theorem Developed.idle {outcome : Except BridgeError Unit}
    (hdeveloped : Developed env ws prj pl principal s outcome s')
    (hrow : s.bridge.dev.get? pl ≠ none) : outcome = .ok () ∧ s' = s := by
  cases hdeveloped with
  | skipped row => exact ⟨rfl, rfl⟩
  | denied develops role kept ended => exact absurd develops.absent hrow
  | raised develops role answer => exact absurd develops.absent hrow
  | interrupted develops role frame fault cause =>
      exact absurd develops.absent hrow
  | finished develops role answer frame quiet kept ended =>
      exact absurd develops.absent hrow

/-- A passed candidate comes back from the log. -/
theorem RowsAre.hydrated_passed (hloads : env.codec.LoadsFields)
    (hstanding : Standing env.codec ws pl records s.store)
    (hrows : RowsAre pl (some planning) (some designed) none none s.bridge)
    (hgate : latest (fun record => record.2.get? "candidate_gate") records =
      some "PASS")
    (hverify : latest (fun record => record.2.get? "verify_status") records ≠
      some "READY") :
    ∃ row, RowsAre pl (some planning) (some designed) (some row) none
        (s.hydrated env ws pl).bridge ∧
      row.get? "candidate_gate" = some "PASS" := by
  have hfolded := hstanding.fold hloads
    (show "candidate_gate" ≠ "station" by decide)
  rw [hgate] at hfolded
  refine ⟨restoredDev (foldStageProjection env.codec
    (s.store.listEvents ws pl)), ⟨?_, ?_, ?_, ?_⟩, ?_⟩
  · simp only [RootState.hydrated, get?_hydrate_prd, hrows.prd, reduceCtorEq,
      false_and, and_false, if_false]
  · simp only [RootState.hydrated, get?_hydrate_arch, hrows.arch, reduceCtorEq,
      false_and, and_false, if_false]
  · simp only [RootState.hydrated, get?_hydrate_dev, hrows.dev, hfolded, and_self,
      if_true]
  · simp only [RootState.hydrated, get?_hydrate_verify, hrows.verify]
    rw [if_neg]
    rintro ⟨-, -, hstatus⟩
    rw [hstanding.fold hloads (by decide)] at hstatus
    exact hverify hstatus
  · simp only [restoredDev, restored, List.map_cons, List.map_nil, Dict.getD,
      hfolded]
    rfl

/-- A retry of a candidate that passed its gate verifies it once more. -/
theorem Retried.calm_passed (hsteady : env.Steady plan design develop verdict)
    (hfits : RecordsFit ids.workspaceId ids.projectId ids.pipelineId)
    (hfew : records.length ≤ 5) {dev verify : Option (Dict String String)}
    (hrests : Rests env ids.workspaceId ids.pipelineId records (some planning)
      (some designed) dev verify s)
    (hgate : latest (fun record => record.2.get? "candidate_gate") records =
      some "PASS")
    (hverify : latest (fun record => record.2.get? "verify_status") records ≠
      some "READY")
    (hretried : Retried env ids infra used infraUsed s s') :
    s'.faults = s.faults := by
  have hstages : ∀ {s₁ s₂ : RootState} {outcome : Except BridgeError Unit},
      Dropped env ids.pipelineId s (.ok ()) s₁ →
      Staged env ids.workspaceId ids.projectId ids.pipelineId ids.principalId s₁
        outcome s₂ → outcome = .ok () ∧ s₂.faults = s.faults := by
    intro s₁ s₂ outcome hdropped hstaged
    obtain ⟨-, hquiet, hnext⟩ := hdropped.calm hsteady hrests
    obtain ⟨row, hrows, hrow⟩ := RowsAre.hydrated_passed hsteady.loads
      hnext.standing hnext.rows hgate hverify
    have hpresent : (s₁.hydrated env ids.workspaceId
        ids.pipelineId).bridge.dev.get? ids.pipelineId ≠ none := by
      rw [hrows.dev]
      simp
    cases hstaged with
    | stopped developed => cases (developed.idle hpresent).1
    | @through _ s₃ _ developed verified =>
        obtain ⟨-, rfl⟩ := developed.idle hpresent
        rw [hydrated_hydrated] at verified
        obtain ⟨houtcome, hverifies, -⟩ := verified.calm hsteady hfits hfew
          ⟨hnext.standing, hrows⟩ hrow
        exact ⟨houtcome, hverifies.faults.trans hquiet.faults⟩
  cases hretried with
  | cut dropped =>
      obtain ⟨houtcome, -⟩ := dropped.calm hsteady hrests
      cases houtcome
  | stopped dropped staged => cases (hstages dropped staged).1
  | counted dropped staged rewritten quiet =>
      exact (quiet (calm_of_steady hsteady)).trans (hstages dropped staged).2

end Retry

end RootState

end HermesPipeline
