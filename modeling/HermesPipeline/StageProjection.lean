/-
The stage projection of an event log.  Every record of a station carries the
fields of that station; the fold keeps, for each field, the value of the last
record that carries it, whichever station wrote it.
-/
import HermesPipeline.KernelBridge
import HermesPipeline.Lib.Latest
import HermesPipeline.ReferenceCodec

namespace HermesPipeline

open Lib

namespace KernelBridge

section Fold

variable (codec : Codec)

/-- The fields of one event, as the fold of that event alone reads them. -/
def eventField (event : EventWrite) (name : String) : Option String :=
  (foldStageProjection codec [event]).get? name

/-- One turn of the inner loop of `fold_stage_projection`. -/
def setMember (folded : Dict String String) (member : String × Json) :
    Dict String String :=
  if member.1 = "station" then folded
  else folded.set member.1 (codec.str member.2)

/-- Setting members one after the other overrides what was there. -/
theorem get?_setMembers (members : List (String × Json))
    (folded : Dict String String) (name : String) :
    (members.foldl (setMember codec) folded).get? name =
      ((members.foldl (setMember codec) .empty).get? name).or
        (folded.get? name) := by
  induction members using List.reverseRecOn generalizing folded with
  | nil => rfl
  | append_singleton members member ih =>
      simp only [List.foldl_append, List.foldl_cons, List.foldl_nil, setMember]
      by_cases hstation : member.1 = "station"
      · simpa only [hstation, ↓reduceIte] using ih folded
      · simp only [hstation, ↓reduceIte]
        by_cases hname : name = member.1
        · subst hname
          simp only [Dict.get?_set_self, Option.some_or]
        · rw [Dict.get?_set_of_ne _ _ hname, Dict.get?_set_of_ne _ _ hname]
          exact ih folded

/-- The fold takes every field from the last event that carries it. -/
theorem get?_foldStageProjection (events : List EventWrite) (name : String) :
    (foldStageProjection codec events).get? name =
      latest (fun event => eventField codec event name) events := by
  induction events using List.reverseRecOn with
  | nil => rfl
  | append_singleton events event ih =>
      rw [latest_concat, ← ih]
      simp only [eventField, foldStageProjection, List.foldl_append,
        List.foldl_cons, List.foldl_nil]
      split
      · split
        · exact get?_setMembers codec _ _ name
        · rfl
      · rfl

end Fold

/-- The fields that every record of a station carries. -/
def recordedFields : Station → List String
  | .prd => ["prd_id", "prd_status", "prd_gate"]
  | .architecture => ["design_id", "testplan_id", "arch_status", "arch_gate"]
  | .development => ["impl_id", "candidate_sha", "candidate_path", "dev_status",
      "candidate_gate"]
  | .verify => ["verify_status", "e2e_id", "acceptance_id", "verify_attempts",
      "pipeline_id", "project_id", "candidate_sha"]
  | .approval => ["approval_status", "approver_id"]

/-- The counter that only some records of a station carry: a development row
that was loaded from its file, a verification that ended `INFRA`. -/
def counterField : Station → Option String
  | .development => some "rework_attempts"
  | .verify => some "infra_attempts"
  | _ => none

/-- The fields of a record of a station: all of its own, and no others. -/
structure RecordedFields (station : Station) (fields : Dict String String) :
    Prop where
  all : ∀ name ∈ recordedFields station, fields.get? name ≠ none
  only : ∀ name, fields.get? name ≠ none →
    name ∈ recordedFields station ∨ counterField station = some name

/-- An event that records a station with these fields. -/
structure RecordsStation (codec : Codec) (station : Station)
    (fields : Dict String String) (event : EventWrite) : Prop where
  eventType_eq : event.eventType = station.eventType
  payload_eq : codec.canonicalJson
    (Json.ofTexts (DomainEvent.stationRecorded station fields).payload.rows) =
      some event.payloadJson

/-- What stands in the log of a pipeline: the records that the bridge makes,
and events of other types. -/
def BridgeEvent (codec : Codec) (event : EventWrite) : Prop :=
  event.eventType ∉ stageEvents ∨
    ∃ station fields, RecordedFields station fields ∧
      RecordsStation codec station fields event

section Records

variable {codec : Codec}

/-- Setting members assigns the texts of all but the station's own name. -/
theorem foldl_setMember (members : List (String × Json))
    (folded : Dict String String) :
    members.foldl (setMember codec) folded =
      folded.update ((members.filter fun member => member.1 ≠ "station").map
        fun member => (member.1, codec.str member.2)) := by
  induction members generalizing folded with
  | nil => rfl
  | cons member rest ih =>
      rw [List.foldl_cons, ih]
      by_cases hstation : member.1 = "station"
      · simp [setMember, hstation]
      · simp [setMember, hstation, Dict.update]

/-- A record carries its fields. -/
theorem RecordsStation.eventField_eq (hloads : codec.LoadsFields)
    {station : Station} {fields : Dict String String} {event : EventWrite}
    (hrecords : RecordsStation codec station fields event) {name : String}
    (hname : name ≠ "station") :
    eventField codec event name = fields.get? name := by
  obtain ⟨members, hparsed, hunique, hmembers⟩ :=
    hloads _ _ hrecords.payload_eq
  have hstage : event.eventType ∈ stageEvents := by
    rw [hrecords.eventType_eq]
    cases station <;> decide
  have hfolded : foldStageProjection codec [event] =
      members.foldl (setMember codec) .empty := by
    simp only [foldStageProjection, List.foldl_cons, List.foldl_nil, hstage,
      ↓reduceIte, hparsed]
    rfl
  rw [eventField, hfolded, foldl_setMember, Dict.get?_update_of_nodup]
  · have hmember := hmembers name
    rw [DomainEvent.payload, Dict.get?_update_rows,
      Dict.get?_set_of_ne _ _ hname, Dict.get?_empty, Option.or_none] at hmember
    have hfind : (members.filter fun member => member.1 ≠ "station").find?
        (fun member => member.1 = name) =
          members.find? fun member => member.1 = name := by
      rw [List.find?_filter]
      congr 1
      funext member
      by_cases hsame : member.1 = name <;> simp [hsame, hname]
    rw [List.find?_map]
    simp only [Function.comp_def, hfind, Dict.get?_empty, Option.or_none]
    rw [Json.member?] at hmember
    cases hfound : members.find? (fun member => member.1 = name) with
    | none =>
        rw [hfound] at hmember
        have hfield : fields.get? name = none := by simpa using hmember.symm
        rw [hfield]
        rfl
    | some member =>
        rw [hfound] at hmember
        cases hfield : fields.get? name with
        | none => simp [hfield] at hmember
        | some text =>
            simp only [hfield, Option.map_some, Option.some.injEq] at hmember
            simp [hmember, Codec.str]
  · rw [List.map_map]
    have hsublist := (List.filter_sublist (p := fun member : String × Json =>
      decide (member.1 ≠ "station")) (l := members)).map Prod.fst
    exact hunique.sublist hsublist

/-- An event of another type carries no field. -/
theorem eventField_of_not_stage {event : EventWrite}
    (hother : event.eventType ∉ stageEvents) (name : String) :
    eventField codec event name = none := by
  simp [eventField, foldStageProjection, hother]

end Records

/-- The station table of the design document: the projection fields that
each station owns. -/
def ownedFields : Station → List String
  | .prd => ["prd_id", "prd_status", "prd_gate"]
  | .architecture => ["design_id", "testplan_id", "arch_status", "arch_gate"]
  | .development => ["impl_id", "candidate_sha", "candidate_path", "dev_status",
      "candidate_gate", "rework_attempts"]
  | .verify => ["e2e_id", "acceptance_id", "verify_status", "verify_attempts",
      "infra_attempts", "pr_url"]
  | .approval => ["approval_status", "approver_id"]

/-- The records of a station, in the order of the log. -/
def recordsOf (station : Station) (events : List EventWrite) : List EventWrite :=
  events.filter fun event => event.eventType = station.eventType

section Latest

variable (codec : Codec)

/-- A field as the latest record of a station has it. -/
def latestField (station : Station) (events : List EventWrite) (name : String) :
    Option String :=
  (recordsOf station events).getLast?.bind fun event =>
    eventField codec event name

/-- Latest event per station wins: the projection gives every field the value
it has in the latest record of the station that owns it, and a development row
that is restored names the candidate of the latest development. -/
structure LatestWins (events : List EventWrite) : Prop where
  field_eq : ∀ station, ∀ name ∈ ownedFields station,
    (foldStageProjection codec events).get? name =
      latestField codec station events name
  restored_eq : ∀ (bridge : Bridge) (pipelineId : String)
    (row : Dict String String), bridge.dev.get? pipelineId = none →
      (hydrate (foldStageProjection codec events) pipelineId bridge).dev.get?
        pipelineId = some row →
      row.get? "candidate_sha" =
        some ((latestField codec .development events "candidate_sha").getD "")

/-- The last development or verification names the candidate of the latest
development. -/
def NamesCandidate (events : List EventWrite) : Prop :=
  ((events.filter fun event => event.eventType = Station.development.eventType ∨
      event.eventType = Station.verify.eventType).getLast?.bind fun event =>
    eventField codec event "candidate_sha") =
      latestField codec .development events "candidate_sha"

/-- The latest record of a station carries the counter of the station, or no
record does. -/
def CarriesCounter (station : Station) (counter : String)
    (events : List EventWrite) : Prop :=
  latestField codec station events counter = none →
    ∀ event ∈ recordsOf station events, eventField codec event counter = none

end Latest

section Table

theorem Station.eventType_injective {left right : Station}
    (htype : left.eventType = right.eventType) : left = right := by
  revert htype
  cases left <;> cases right <;> decide

/-- Apart from the candidate, a field is carried by its owner only. -/
theorem owner_of_carried {station other : Station} {name : String}
    (howned : name ∈ ownedFields station) (hname : name ≠ "candidate_sha")
    (hcarried : name ∈ recordedFields other ∨ counterField other = some name) :
    other = station := by
  have hall : ∀ name ∈ ownedFields station, name ≠ "candidate_sha" →
      (name ∈ recordedFields other ∨ counterField other = some name) →
        other = station := by
    cases station <;> cases other <;> decide
  exact hall name howned hname hcarried

/-- An owned field is in every record of its owner, or it is the counter of
one of the two stations that have one, or nothing records it. -/
theorem owned_cases {station : Station} {name : String}
    (howned : name ∈ ownedFields station) :
    name ∈ recordedFields station ∨ counterField station = some name ∨
      (station = .verify ∧ name = "pr_url") := by
  have hall : ∀ name ∈ ownedFields station, name ∈ recordedFields station ∨
      counterField station = some name ∨
        (station = .verify ∧ name = "pr_url") := by
    cases station <;> decide
  exact hall name howned

theorem owned_ne_station {station : Station} {name : String}
    (howned : name ∈ ownedFields station) : name ≠ "station" := by
  have hall : ∀ name ∈ ownedFields station, name ≠ "station" := by
    cases station <;> decide
  exact hall name howned

end Table

section Log

variable {codec : Codec} (hloads : codec.LoadsFields)
  {events : List EventWrite}
  (hevents : ∀ event ∈ events, BridgeEvent codec event)

include hloads

/-- What an event of a bridge carries is a field of the station it records. -/
theorem BridgeEvent.carried {event : EventWrite}
    (hevent : BridgeEvent codec event) {name : String} (hname : name ≠ "station")
    (hcarries : eventField codec event name ≠ none) :
    ∃ station, event.eventType = Station.eventType station ∧
      (name ∈ recordedFields station ∨ counterField station = some name) := by
  rcases hevent with hother | ⟨station, fields, hfields, hrecords⟩
  · exact absurd (eventField_of_not_stage hother name) hcarries
  · rw [hrecords.eventField_eq hloads hname] at hcarries
    exact ⟨station, hrecords.eventType_eq, hfields.only name hcarries⟩

/-- Every record of a station carries the fields of the station. -/
theorem BridgeEvent.carries {event : EventWrite} {station : Station}
    (hevent : BridgeEvent codec event)
    (htype : event.eventType = station.eventType) {name : String}
    (hname : name ≠ "station") (hrecorded : name ∈ recordedFields station) :
    eventField codec event name ≠ none := by
  rcases hevent with hother | ⟨recorded, fields, hfields, hrecords⟩
  · rw [htype] at hother
    cases station <;> exact absurd (by decide) hother
  · obtain rfl : recorded = station :=
      Station.eventType_injective (hrecords.eventType_eq.symm.trans htype)
    rw [hrecords.eventField_eq hloads hname]
    exact hfields.all name hrecorded

include hevents

/-- A field that only its owner carries folds to the owner's last record that
carries it. -/
theorem fold_owned {station : Station} {name : String}
    (howned : name ∈ ownedFields station) (hname : name ≠ "candidate_sha") :
    (foldStageProjection codec events).get? name =
      latest (fun event => eventField codec event name)
        (recordsOf station events) := by
  rw [get?_foldStageProjection, recordsOf, latest_filter]
  intro event hevent hother
  by_contra hcarries
  obtain ⟨owner, htype, hcarried⟩ :=
    (hevents event hevent).carried hloads (owned_ne_station howned) hcarries
  obtain rfl := owner_of_carried howned hname hcarried
  simp [htype] at hother

theorem fold_owned_eq_iff {station : Station} {name : String}
    (howned : name ∈ ownedFields station) (hname : name ≠ "candidate_sha") :
    (foldStageProjection codec events).get? name =
        latestField codec station events name ↔
      CarriesCounter codec station name events := by
  rw [fold_owned hloads hevents howned hname]
  exact latest_eq_getLast?_iff _ _

/-- The candidate folds to the one that the last development or verification
names. -/
theorem fold_candidate :
    (foldStageProjection codec events).get? "candidate_sha" =
      (events.filter fun event =>
        event.eventType = Station.development.eventType ∨
          event.eventType = Station.verify.eventType).getLast?.bind
        fun event => eventField codec event "candidate_sha" := by
  rw [get?_foldStageProjection, ← latest_filter, latest_eq_getLast?]
  · intro event hevent
    obtain ⟨hmem, htype⟩ := List.mem_filter.mp hevent
    rcases of_decide_eq_true htype with htype | htype
    · exact (hevents event hmem).carries hloads htype (by decide) (by decide)
    · exact (hevents event hmem).carries hloads htype (by decide) (by decide)
  · intro event hevent hother
    by_contra hcarries
    obtain ⟨owner, htype, hcarried⟩ :=
      (hevents event hevent).carried hloads (by decide) hcarries
    have howner : owner = .development ∨ owner = .verify := by
      revert hcarried
      cases owner <;> decide
    rw [decide_eq_false_iff_not, htype] at hother
    apply hother
    rcases howner with rfl | rfl
    · exact Or.inl rfl
    · exact Or.inr rfl

end Log

/-- A restored development row names the folded candidate. -/
theorem hydrate_candidate {folded : Dict String String} {bridge : Bridge}
    {pipelineId : String} {row : Dict String String}
    (habsent : bridge.dev.get? pipelineId = none)
    (hrow : (hydrate folded pipelineId bridge).dev.get? pipelineId = some row) :
    row.get? "candidate_sha" =
      some ((folded.get? "candidate_sha").getD "") := by
  unfold hydrate at hrow
  split at hrow
  · rw [habsent] at hrow
    cases hrow
  · simp only [habsent, and_true] at hrow
    split at hrow
    · rw [Dict.get?_set_self, Option.some.injEq] at hrow
      subst hrow
      simp [rowOf, Dict.update, Dict.get?_set, Dict.getD]
    · rw [habsent] at hrow
      cases hrow

/-- The latest event of each station wins exactly when the last development or
verification names the candidate of the latest development, and the latest
development and the latest verification carry their counter if any earlier one
does. -/
theorem latest_wins_iff {codec : Codec} (hloads : codec.LoadsFields)
    {events : List EventWrite}
    (hevents : ∀ event ∈ events, BridgeEvent codec event) :
    LatestWins codec events ↔
      NamesCandidate codec events ∧
        CarriesCounter codec .development "rework_attempts" events ∧
        CarriesCounter codec .verify "infra_attempts" events := by
  have hcandidate := fold_candidate hloads hevents
  constructor
  · intro hwins
    refine ⟨?_, ?_, ?_⟩
    · rw [NamesCandidate, ← hcandidate]
      exact hwins.field_eq .development "candidate_sha" (by decide)
    · exact (fold_owned_eq_iff hloads hevents (by decide) (by decide)).mp
        (hwins.field_eq .development "rework_attempts" (by decide))
    · exact (fold_owned_eq_iff hloads hevents (by decide) (by decide)).mp
        (hwins.field_eq .verify "infra_attempts" (by decide))
  · rintro ⟨hnames, hrework, hinfra⟩
    rw [NamesCandidate, ← hcandidate] at hnames
    constructor
    · intro station name howned
      by_cases hname : name = "candidate_sha"
      · subst hname
        obtain rfl : station = .development := by
          revert howned
          cases station <;> decide
        exact hnames
      · apply (fold_owned_eq_iff hloads hevents howned hname).mpr
        rcases owned_cases howned with hrecorded | hcounter | ⟨rfl, rfl⟩
        · -- every record carries the field, so the latest one does
          apply (latest_eq_getLast?_iff _ _).mp
          apply latest_eq_getLast?
          intro event hevent
          obtain ⟨hmem, htype⟩ := List.mem_filter.mp hevent
          exact (hevents event hmem).carries hloads (of_decide_eq_true htype)
            (owned_ne_station howned) hrecorded
        · cases station with
          | development =>
              cases hcounter
              exact hrework
          | verify =>
              cases hcounter
              exact hinfra
          | prd | architecture | approval => cases hcounter
        · -- no record carries the address of a pull request
          intro _ event hevent
          by_contra hcarries
          obtain ⟨owner, -, hcarried⟩ := (hevents event
            (List.mem_of_mem_filter hevent)).carried hloads (by decide) hcarries
          revert hcarried
          cases owner <;> decide
    · intro bridge pipelineId row habsent hrow
      rw [hydrate_candidate habsent hrow, hnames]

theorem RecordedFields.of_keys {station : Station} {fields : Dict String String}
    (hall : ∀ name ∈ recordedFields station, fields.get? name ≠ none)
    (honly : ∀ name ∈ fields.rows.map Prod.fst,
      name ∈ recordedFields station ∨ counterField station = some name) :
    RecordedFields station fields where
  all := hall
  only := by
    intro name hname
    apply honly
    obtain ⟨value, hvalue⟩ := Option.ne_none_iff_exists'.mp hname
    exact List.mem_map_of_mem ((fields.mem_rows_iff name value).mpr hvalue)

namespace StageProjectionWitness

open ReferenceCodec

/-- The event of a record, as the controller writes it. -/
def recordEvent (station : Station) (revision : Nat)
    (fields : Dict String String) : EventWrite where
  eventId := "evt_ws_a_cmd_pl_a_" ++ station.value ++ "_1"
  workspaceId := "ws_a"
  pipelineId := "pl_a"
  eventType := station.eventType
  payloadJson := ((sampleCodec.canonicalJson (Json.ofTexts
    (DomainEvent.stationRecorded station fields).payload.rows)).getD "")
  pipelineRevision := revision

@[simp] theorem recordEvent_eventType (station : Station) (revision : Nat)
    (fields : Dict String String) :
    (recordEvent station revision fields).eventType = station.eventType := rfl

theorem bridgeEvent_recordEvent {station : Station} {revision : Nat}
    {fields : Dict String String} (hfields : RecordedFields station fields) :
    BridgeEvent sampleCodec (recordEvent station revision fields) :=
  Or.inr ⟨station, fields, hfields, rfl, rfl⟩

theorem eventField_recordEvent {station : Station} {revision : Nat}
    {fields : Dict String String} {name : String} (hname : name ≠ "station") :
    eventField sampleCodec (recordEvent station revision fields) name =
      fields.get? name :=
  RecordsStation.eventField_eq (loadsFields sampleDigest) ⟨rfl, rfl⟩ hname

def developed : Dict String String :=
  developmentRow ⟨.completed, some "art_impl", some ⟨"sha_a", "app.py"⟩, "", true⟩

/-- The row of a verification, as `_record_verify` records it. -/
def verified (status sha : String) : Dict String String :=
  (rowOf [("verify_status", status), ("e2e_id", ""), ("acceptance_id", ""),
    ("verify_attempts", "0"), ("infra_attempts", "0")]).update
    [("pipeline_id", "pl_a"), ("project_id", "prj_a"), ("candidate_sha", sha)]

def readyLog : List EventWrite :=
  [recordEvent .development 2 developed, recordEvent .verify 3
    (verified "READY" "sha_a")]

/-- A development that passed, then a verification that ended `INFRA`. -/
def infraLog : List EventWrite :=
  [recordEvent .development 2 developed, recordEvent .verify 3
    (verified "INFRA" "")]

theorem bridgeEvents_log {fields : Dict String String}
    (hfields : RecordedFields .verify fields) :
    ∀ event ∈ [recordEvent .development 2 developed,
      recordEvent .verify 3 fields], BridgeEvent sampleCodec event := by
  intro event hevent
  simp only [List.mem_cons, List.not_mem_nil, or_false] at hevent
  rcases hevent with rfl | rfl
  · exact bridgeEvent_recordEvent (.of_keys (by decide) (by decide))
  · exact bridgeEvent_recordEvent hfields

theorem latest_wins_iff_at_readyLog :
    LatestWins sampleCodec readyLog ↔
      NamesCandidate sampleCodec readyLog ∧
        CarriesCounter sampleCodec .development "rework_attempts" readyLog ∧
        CarriesCounter sampleCodec .verify "infra_attempts" readyLog :=
  latest_wins_iff (loadsFields sampleDigest) 
    (bridgeEvents_log (.of_keys (by decide) (by decide)))

/-- The `INFRA` record overwrites the candidate of the development. -/
theorem infra_record_hides_candidate :
    (∀ event ∈ infraLog, BridgeEvent sampleCodec event) ∧
      (foldStageProjection sampleCodec infraLog).get? "candidate_sha" =
        some "" ∧
      latestField sampleCodec .development infraLog "candidate_sha" =
        some "sha_a" ∧
      ¬ LatestWins sampleCodec infraLog := by
  have hdeveloped : eventField sampleCodec (recordEvent .development 2 developed)
      "candidate_sha" = some "sha_a" := by
    rw [eventField_recordEvent (by decide)]
    rfl
  have hverified : eventField sampleCodec
      (recordEvent .verify 3 (verified "INFRA" "")) "candidate_sha" =
        some "" := by
    rw [eventField_recordEvent (by decide)]
    rfl
  have hfold : (foldStageProjection sampleCodec infraLog).get? "candidate_sha" =
      some "" := by
    rw [get?_foldStageProjection]
    simp [infraLog, latest, hdeveloped, hverified]
  have hlatest : latestField sampleCodec .development infraLog "candidate_sha" =
      some "sha_a" := by
    have hrecords : recordsOf .development infraLog =
        [recordEvent .development 2 developed] := by
      simp [recordsOf, infraLog, Station.eventType]
    rw [latestField, hrecords, List.getLast?_singleton, Option.bind_some,
      hdeveloped]
  refine ⟨bridgeEvents_log (.of_keys (by decide) (by decide)), hfold, hlatest, ?_⟩
  intro hwins
  have hfield := hwins.field_eq .development "candidate_sha" (by decide)
  rw [hfold, hlatest] at hfield
  exact absurd hfield (by decide)

end StageProjectionWitness

end KernelBridge

end HermesPipeline
