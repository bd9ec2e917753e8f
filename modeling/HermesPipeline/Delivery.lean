/-
The delivery adapter: one record for each pipeline, with the head that was
published last.
-/
import HermesPipeline.Lib.Json
import HermesPipeline.Lib.Keyed

namespace HermesPipeline

open Lib

structure DeliveryRequest where
  name : String
  projectId : String := ""
  pipelineId : String := ""
deriving Repr, DecidableEq

structure DeliveryRecord where
  ok : Bool
  branch : String := ""
  prNumber : Int := 0
  headSha : String := ""
  checkStatus : String := ""
  reviewStatus : String := ""
  queueStatus : String := ""
  prUrl : String := ""
deriving Repr, DecidableEq

structure FakeDelivery where
  records : Dict String DeliveryRecord
  events : List String
  nextPr : Int

namespace FakeDelivery

def empty : FakeDelivery := ⟨.empty, [], 1⟩

/-- `request.pipeline_id or request.name`. -/
def pipelineKey (request : DeliveryRequest) : String :=
  if request.pipelineId = "" then request.name else request.pipelineId

def branchName (request : DeliveryRequest) : String :=
  "hermes/" ++ (if request.projectId = "" then "prj_local" else request.projectId) ++
    "/" ++ (if request.pipelineId = "" then "pl_local" else request.pipelineId)

def forgetEvents (delivery : FakeDelivery) (key : String) : FakeDelivery :=
  { delivery with events := delivery.events.filter fun event =>
      !(key ++ ":").toList.isPrefixOf event.toList }

def publish (delivery : FakeDelivery) (request : DeliveryRequest) :
    DeliveryRecord × FakeDelivery :=
  let key := pipelineKey request
  match delivery.records.get? key with
  | some existing =>
      if existing.headSha = request.name then (existing, delivery)
      else
        let updated : DeliveryRecord :=
          { ok := true
            branch := existing.branch
            prNumber := existing.prNumber
            headSha := request.name
            prUrl := existing.prUrl }
        let forgotten := delivery.forgetEvents key
        (updated, { forgotten with
          records := forgotten.records.set key updated })
  | none =>
      let record : DeliveryRecord :=
        { ok := true
          branch := branchName request
          prNumber := delivery.nextPr
          headSha := request.name }
      (record, { delivery with
        records := delivery.records.set key record
        nextPr := delivery.nextPr + 1 })

/-- `_pick`. -/
def pick (value : String) (allowed : List String) (current : String) : String :=
  if value ∈ allowed then value else current

/-- `reconcile` of a request with an event id and the reported statuses. -/
def reconcile (delivery : FakeDelivery) (request : DeliveryRequest)
    (eventId checkStatus reviewStatus queueStatus : String) :
    DeliveryRecord × FakeDelivery :=
  let key := pipelineKey request
  let found : Option DeliveryRecord × FakeDelivery :=
    match delivery.records.get? key with
    | some stored => (some stored, delivery)
    | none =>
        if request.name = "" then (none, delivery)
        else ((delivery.publish request).1, (delivery.publish request).2)
  match found with
  | (none, delivery) => ({ ok := false }, delivery)
  | (some stored, delivery) =>
      let token := key ++ ":" ++ eventId
      if eventId = "" ∨ token ∈ delivery.events then (stored, delivery)
      else
        let updated : DeliveryRecord :=
          { ok := true
            branch := stored.branch
            prNumber := stored.prNumber
            headSha := stored.headSha
            checkStatus := pick checkStatus ["pending", "success", "failure"]
              stored.checkStatus
            reviewStatus := pick reviewStatus
              ["pending", "approved", "changes_requested"] stored.reviewStatus
            queueStatus := pick queueStatus ["idle", "queued", "blocked"]
              stored.queueStatus
            prUrl := stored.prUrl }
        (updated, { delivery with
          events := delivery.events ++ [token]
          records := delivery.records.set key updated })

def lookup (delivery : FakeDelivery) (pipelineId : String) :
    Option DeliveryRecord :=
  delivery.records.get? pipelineId

def remember (delivery : FakeDelivery) (pipelineId : String)
    (record : DeliveryRecord) : FakeDelivery :=
  { delivery with records := delivery.records.set pipelineId record }

def dumpRecord (record : DeliveryRecord) : Json :=
  .obj [("ok", .bool record.ok), ("action", .str "RECORDED"),
    ("branch", .str record.branch), ("pr_number", .int record.prNumber),
    ("head_sha", .str record.headSha), ("check_status", .str record.checkStatus),
    ("review_status", .str record.reviewStatus),
    ("queue_status", .str record.queueStatus), ("pr_url", .str record.prUrl)]

def dump (delivery : FakeDelivery) : Json :=
  let records := delivery.records.rows.map fun entry =>
    (entry.1, dumpRecord entry.2)
  let events := delivery.events.insertionSort fun left right => left ≤ right
  .obj [("next_pr", .int delivery.nextPr), ("events", .arr (events.map .str)),
    ("records", .obj records)]

section Publish

variable (delivery : FakeDelivery) (request : DeliveryRequest)

/-- A publication sets the record of its own key. -/
theorem lookup_publish (p : String) :
    (delivery.publish request).2.lookup p =
      if p = pipelineKey request then some (delivery.publish request).1
      else delivery.lookup p := by
  simp only [publish, lookup]
  split
  · next existing hfound =>
      split
      · next hsame =>
          by_cases hp : p = pipelineKey request
          · rw [hp, hfound, if_pos rfl]
          · rw [if_neg hp]
      · by_cases hp : p = pipelineKey request
        · rw [hp, if_pos rfl]
          exact Dict.get?_set_self _ _ _
        · rw [if_neg hp]
          exact Dict.get?_set_of_ne _ _ hp
  · by_cases hp : p = pipelineKey request
    · rw [hp, if_pos rfl]
      exact Dict.get?_set_self _ _ _
    · rw [if_neg hp]
      exact Dict.get?_set_of_ne _ _ hp

/-- The published head is the name of the request, and the pull request that an
older record names is kept. -/
theorem publish_record :
    (delivery.publish request).1.headSha = request.name ∧
      (delivery.publish request).1.prUrl =
        (delivery.lookup (pipelineKey request)).elim "" DeliveryRecord.prUrl := by
  simp only [publish, lookup]
  split
  · next existing hfound =>
      rw [hfound]
      split
      · next hsame => exact ⟨hsame, rfl⟩
      · exact ⟨rfl, rfl⟩
  · next hmissing =>
      rw [hmissing]
      exact ⟨rfl, rfl⟩

end Publish

end FakeDelivery

end HermesPipeline
