/-
Runs of the delivery adapter: publications, reported events, and restarts from
its file.  Every record keeps the number of its first publication, shows the
name of its last one, and comes back from the file as it was.
-/
import HermesPipeline.Descriptor
import HermesPipeline.Lib.Machine
import HermesPipeline.ReferenceCodec
import Mathlib.Data.List.Dedup
import Mathlib.Data.List.Induction

namespace HermesPipeline

open Lib

/-- A record with the statuses that an event reports. -/
def DeliveryRecord.reported (stored : DeliveryRecord)
    (checkStatus reviewStatus queueStatus : String) : DeliveryRecord where
  ok := true
  branch := stored.branch
  prNumber := stored.prNumber
  headSha := stored.headSha
  checkStatus := FakeDelivery.pick checkStatus ["pending", "success", "failure"]
    stored.checkStatus
  reviewStatus := FakeDelivery.pick reviewStatus
    ["pending", "approved", "changes_requested"] stored.reviewStatus
  queueStatus := FakeDelivery.pick queueStatus ["idle", "queued", "blocked"]
    stored.queueStatus
  prUrl := stored.prUrl

namespace FakeDelivery

/-- The token of an event of a key. -/
def token (key eventId : String) : String := key ++ ":" ++ eventId

/-- What `reconcile` does to a stored record. -/
def report (delivery : FakeDelivery) (key : String) (stored : DeliveryRecord)
    (eventId checkStatus reviewStatus queueStatus : String) :
    DeliveryRecord × FakeDelivery :=
  if eventId = "" ∨ token key eventId ∈ delivery.events then (stored, delivery)
  else
    let updated := stored.reported checkStatus reviewStatus queueStatus
    (updated, { delivery with
      events := delivery.events ++ [token key eventId]
      records := delivery.records.set key updated })

section Reconcile

variable {delivery : FakeDelivery} {request : DeliveryRequest}
  {stored : DeliveryRecord} (eventId check review queue : String)

theorem reconcile_of_known
    (hknown : delivery.lookup (pipelineKey request) = some stored) :
    delivery.reconcile request eventId check review queue =
      delivery.report (pipelineKey request) stored eventId check review queue := by
  rw [lookup] at hknown
  simp only [reconcile, hknown]
  rfl

/-- An unknown key is published first. -/
theorem reconcile_of_unknown
    (hunknown : delivery.lookup (pipelineKey request) = none)
    (hname : request.name ≠ "") :
    delivery.reconcile request eventId check review queue =
      (delivery.publish request).2.report (pipelineKey request)
        (delivery.publish request).1 eventId check review queue := by
  rw [lookup] at hunknown
  simp only [reconcile, hunknown, hname, ↓reduceIte]
  rfl

theorem reconcile_of_unnamed
    (hunknown : delivery.lookup (pipelineKey request) = none)
    (hname : request.name = "") :
    delivery.reconcile request eventId check review queue =
      ({ ok := false }, delivery) := by
  rw [lookup] at hunknown
  simp only [reconcile, hunknown, hname, ↓reduceIte]

end Reconcile

/-- A publication or a reported event. -/
inductive Call
  | publish (request : DeliveryRequest)
  | reconcile (request : DeliveryRequest)
      (eventId checkStatus reviewStatus queueStatus : String)
deriving Repr, DecidableEq

namespace Call

def key : Call → String
  | .publish request => pipelineKey request
  | .reconcile request _ _ _ _ => pipelineKey request

def apply (delivery : FakeDelivery) : Call → DeliveryRecord × FakeDelivery
  | .publish request => delivery.publish request
  | .reconcile request eventId check review queue =>
      delivery.reconcile request eventId check review queue

/-- What publications and reports keep, every call keeps. -/
theorem keeps {P : FakeDelivery → Prop} {delivery : FakeDelivery}
    (hpublish : ∀ delivery request, P delivery → P (delivery.publish request).2)
    (hreport : ∀ delivery key stored eventId check review queue, P delivery →
      delivery.lookup key = some stored →
        P (delivery.report key stored eventId check review queue).2)
    (call : Call) (hdelivery : P delivery) : P (call.apply delivery).2 := by
  cases call with
  | publish request => exact hpublish _ _ hdelivery
  | reconcile request eventId check review queue =>
      change P (delivery.reconcile request eventId check review queue).2
      cases hstored : delivery.lookup (pipelineKey request) with
      | some stored =>
          rw [reconcile_of_known _ _ _ _ hstored]
          exact hreport _ _ _ _ _ _ _ hdelivery hstored
      | none =>
          by_cases hname : request.name = ""
          · rw [reconcile_of_unnamed _ _ _ _ hstored hname]
            exact hdelivery
          · rw [reconcile_of_unknown _ _ _ _ hstored hname]
            apply hreport _ _ _ _ _ _ _ (hpublish _ _ hdelivery)
            rw [lookup_publish, if_pos rfl]

end Call

theorem lookup_report (delivery : FakeDelivery) {key : String}
    {stored : DeliveryRecord} (hstored : delivery.lookup key = some stored)
    (eventId check review queue p : String) :
    (delivery.report key stored eventId check review queue).2.lookup p =
      if p = key then
        some (delivery.report key stored eventId check review queue).1
      else delivery.lookup p := by
  unfold report
  split
  · by_cases hp : p = key
    · rw [if_pos hp, hp, hstored]
    · rw [if_neg hp]
  · simp only [lookup, Dict.get?_set]

/-- A call changes the record of its own key only. -/
theorem lookup_apply_other (delivery : FakeDelivery) (call : Call) {p : String}
    (hother : p ≠ call.key) :
    (call.apply delivery).2.lookup p = delivery.lookup p := by
  cases call with
  | publish request =>
      change p ≠ pipelineKey request at hother
      have hlookup := lookup_publish delivery request p
      rwa [if_neg hother] at hlookup
  | reconcile request eventId check review queue =>
      change p ≠ pipelineKey request at hother
      change (delivery.reconcile request eventId check review queue).2.lookup p = _
      cases hstored : delivery.lookup (pipelineKey request) with
      | some stored =>
          rw [reconcile_of_known _ _ _ _ hstored, lookup_report _ hstored,
            if_neg hother]
      | none =>
          by_cases hname : request.name = ""
          · rw [reconcile_of_unnamed _ _ _ _ hstored hname]
          · have hpublished : (delivery.publish request).2.lookup
                (pipelineKey request) = some (delivery.publish request).1 := by
              rw [lookup_publish, if_pos rfl]
            rw [reconcile_of_unknown _ _ _ _ hstored hname,
              lookup_report _ hpublished, if_neg hother, lookup_publish,
              if_neg hother]

/-- Distinct keys have distinct numbers, all of them given out, and no event is
held twice. -/
structure Numbered (delivery : FakeDelivery) : Prop where
  first : 1 ≤ delivery.nextPr
  below : ∀ key record, delivery.lookup key = some record →
    record.prNumber < delivery.nextPr
  distinct : ∀ key key' record record', delivery.lookup key = some record →
    delivery.lookup key' = some record' →
      record.prNumber = record'.prNumber → key = key'
  once : delivery.events.Nodup

theorem numbered_empty : Numbered .empty where
  first := le_rfl
  below := by
    intro key record hrecord
    cases hrecord
  distinct := by
    intro key key' record record' hrecord
    cases hrecord
  once := List.nodup_nil

/-- A record takes the place of one with the same number. -/
theorem Numbered.of_replaced {delivery delivery' : FakeDelivery} (key : String)
    {stored updated : DeliveryRecord} (hnumbered : delivery.Numbered)
    (hstored : delivery.lookup key = some stored)
    (hsame : updated.prNumber = stored.prNumber)
    (hnext : delivery'.nextPr = delivery.nextPr)
    (honce : delivery'.events.Nodup)
    (hlookup : ∀ p, delivery'.lookup p =
      if p = key then some updated else delivery.lookup p) :
    delivery'.Numbered := by
  have hold : ∀ p record, delivery'.lookup p = some record →
      ∃ older, delivery.lookup p = some older ∧
        record.prNumber = older.prNumber := by
    intro p record hrecord
    rw [hlookup] at hrecord
    split at hrecord
    · next hp =>
        cases hrecord
        exact ⟨stored, hp ▸ hstored, hsame⟩
    · exact ⟨record, hrecord, rfl⟩
  constructor
  · rw [hnext]
    exact hnumbered.first
  · intro p record hrecord
    obtain ⟨older, holder, hnumber⟩ := hold p record hrecord
    rw [hnumber, hnext]
    exact hnumbered.below p older holder
  · intro p p' record record' hrecord hrecord' hnumber
    obtain ⟨older, holder, hsame⟩ := hold p record hrecord
    obtain ⟨older', holder', hsame'⟩ := hold p' record' hrecord'
    apply hnumbered.distinct p p' older older' holder holder'
    omega
  · exact honce

/-- A first publication takes the next number. -/
theorem Numbered.of_added {delivery delivery' : FakeDelivery} (key : String)
    {added : DeliveryRecord} (hnumbered : delivery.Numbered)
    (hnumber : added.prNumber = delivery.nextPr)
    (hnext : delivery'.nextPr = delivery.nextPr + 1)
    (hevents : delivery'.events = delivery.events)
    (hlookup : ∀ p, delivery'.lookup p =
      if p = key then some added else delivery.lookup p) :
    delivery'.Numbered := by
  have hold : ∀ p record, delivery'.lookup p = some record →
      p = key ∧ record.prNumber = delivery.nextPr ∨
        delivery.lookup p = some record ∧ record.prNumber < delivery.nextPr := by
    intro p record hrecord
    rw [hlookup] at hrecord
    split at hrecord
    · next hp =>
        cases hrecord
        exact .inl ⟨hp, hnumber⟩
    · exact .inr ⟨hrecord, hnumbered.below p record hrecord⟩
  constructor
  · have hfirst := hnumbered.first
    omega
  · intro p record hrecord
    obtain ⟨-, hlast⟩ | ⟨-, hless⟩ := hold p record hrecord <;> omega
  · intro p p' record record' hrecord hrecord' hsame
    obtain ⟨hp, hlast⟩ | ⟨holder, hless⟩ := hold p record hrecord
    · obtain ⟨hp', -⟩ | ⟨-, hless'⟩ := hold p' record' hrecord'
      · rw [hp, hp']
      · omega
    · obtain ⟨-, hlast'⟩ | ⟨holder', -⟩ := hold p' record' hrecord'
      · omega
      · exact hnumbered.distinct p p' record record' holder holder' hsame
  · rw [hevents]
    exact hnumbered.once

theorem Numbered.publish {delivery : FakeDelivery} (hnumbered : delivery.Numbered)
    (request : DeliveryRequest) : (delivery.publish request).2.Numbered := by
  have hlookup := lookup_publish delivery request
  cases hstored : delivery.records.get? (pipelineKey request) with
  | none =>
      apply hnumbered.of_added (pipelineKey request) _ _ _ hlookup
      all_goals simp only [FakeDelivery.publish, hstored]
  | some stored =>
      by_cases hsame : stored.headSha = request.name
      · simpa only [FakeDelivery.publish, hstored, hsame, ↓reduceIte] using hnumbered
      · apply hnumbered.of_replaced (pipelineKey request) hstored _ _ _ hlookup
        · simp only [FakeDelivery.publish, hstored, hsame, ↓reduceIte]
        · simp only [FakeDelivery.publish, hstored, hsame, ↓reduceIte, forgetEvents]
        · simp only [FakeDelivery.publish, hstored, hsame, ↓reduceIte, forgetEvents]
          exact hnumbered.once.filter _

theorem Numbered.report {delivery : FakeDelivery} (hnumbered : delivery.Numbered)
    {key : String} {stored : DeliveryRecord}
    (hstored : delivery.lookup key = some stored)
    (eventId check review queue : String) :
    (delivery.report key stored eventId check review queue).2.Numbered := by
  have hlookup := lookup_report delivery hstored eventId check review queue
  by_cases hseen : eventId = "" ∨ token key eventId ∈ delivery.events
  · rw [FakeDelivery.report, if_pos hseen]
    exact hnumbered
  · simp only [FakeDelivery.report, hseen, ↓reduceIte] at hlookup ⊢
    apply hnumbered.of_replaced key hstored _ _ _ hlookup
    · rfl
    · rfl
    · rw [List.nodup_append]
      refine ⟨hnumbered.once, List.nodup_singleton _, ?_⟩
      rintro event hevent _ hlast rfl
      rw [List.mem_singleton.mp hlast] at hevent
      exact hseen (.inr hevent)

theorem Numbered.apply {delivery : FakeDelivery} (hnumbered : delivery.Numbered)
    (call : Call) : (call.apply delivery).2.Numbered := by
  apply Call.keeps _ _ call hnumbered
  · exact fun delivery request hdelivery => hdelivery.publish request
  · exact fun delivery key stored eventId check review queue hdelivery hstored =>
      hdelivery.report hstored eventId check review queue

/-- What was published keeps its branch and its number. -/
def Stable (delivery next : FakeDelivery) : Prop :=
  ∀ key record, delivery.lookup key = some record →
    ∃ record', next.lookup key = some record' ∧
      record'.branch = record.branch ∧ record'.prNumber = record.prNumber

theorem Stable.refl (delivery : FakeDelivery) : Stable delivery delivery :=
  fun _ record hrecord => ⟨record, hrecord, rfl, rfl⟩

theorem Stable.trans {first second third : FakeDelivery}
    (hfirst : Stable first second) (hsecond : Stable second third) :
    Stable first third := by
  intro key record hrecord
  obtain ⟨record', hrecord', hbranch, hnumber⟩ := hfirst key record hrecord
  obtain ⟨record'', hrecord'', hbranch', hnumber'⟩ := hsecond key record' hrecord'
  exact ⟨record'', hrecord'', hbranch'.trans hbranch, hnumber'.trans hnumber⟩

theorem stable_publish (delivery : FakeDelivery) (request : DeliveryRequest) :
    Stable delivery (delivery.publish request).2 := by
  intro key record hrecord
  rw [lookup_publish]
  split
  · next hkey =>
      refine ⟨_, rfl, ?_⟩
      rw [hkey, lookup] at hrecord
      simp only [publish, hrecord]
      split <;> exact ⟨rfl, rfl⟩
  · exact ⟨record, hrecord, rfl, rfl⟩

theorem stable_report (delivery : FakeDelivery) {key : String}
    {stored : DeliveryRecord} (hstored : delivery.lookup key = some stored)
    (eventId check review queue : String) :
    Stable delivery (delivery.report key stored eventId check review queue).2 := by
  intro p record hrecord
  rw [lookup_report delivery hstored]
  split
  · next hp =>
      refine ⟨_, rfl, ?_⟩
      rw [hp, hstored] at hrecord
      cases hrecord
      unfold report
      split <;> exact ⟨rfl, rfl⟩
  · exact ⟨record, hrecord, rfl, rfl⟩

theorem stable_apply (delivery : FakeDelivery) (call : Call) :
    Stable delivery (call.apply delivery).2 := by
  apply Call.keeps (P := Stable delivery) _ _ call (Stable.refl delivery)
  · exact fun next request hstable => hstable.trans (stable_publish next request)
  · exact fun next key stored eventId check review queue hstable hstored =>
      hstable.trans (stable_report next hstored eventId check review queue)

/-- The head that a call leaves in the record of a key. -/
def Call.headOf (key : String) (head : Option String) : Call → Option String
  | .publish request => if pipelineKey request = key then some request.name else head
  | .reconcile request _ _ _ _ =>
      if pipelineKey request = key ∧ head = none ∧ request.name ≠ "" then
        some request.name
      else head

theorem head_apply (delivery : FakeDelivery) (call : Call) (key : String) :
    ((call.apply delivery).2.lookup key).map DeliveryRecord.headSha =
      call.headOf key ((delivery.lookup key).map DeliveryRecord.headSha) := by
  by_cases hkey : key = call.key
  · cases call with
    | publish request =>
        change key = pipelineKey request at hkey
        change ((delivery.publish request).2.lookup key).map _ = _
        rw [lookup_publish, if_pos hkey, Call.headOf, if_pos hkey.symm,
          Option.map_some, (publish_record delivery request).1]
    | reconcile request eventId check review queue =>
        change key = pipelineKey request at hkey
        change ((delivery.reconcile request eventId check review queue).2.lookup
          key).map _ = _
        subst hkey
        cases hstored : delivery.lookup (pipelineKey request) with
        | some stored =>
            rw [reconcile_of_known _ _ _ _ hstored, lookup_report _ hstored,
              if_pos rfl]
            simp only [Call.headOf, Option.map_some, reduceCtorEq, false_and,
              and_false, ↓reduceIte, Option.some.injEq]
            unfold report
            split <;> rfl
        | none =>
            by_cases hname : request.name = ""
            · rw [reconcile_of_unnamed _ _ _ _ hstored hname, hstored]
              simp [Call.headOf, hname]
            · have hpublished : (delivery.publish request).2.lookup
                  (pipelineKey request) = some (delivery.publish request).1 := by
                rw [lookup_publish, if_pos rfl]
              rw [reconcile_of_unknown _ _ _ _ hstored hname,
                lookup_report _ hpublished, if_pos rfl]
              simp only [Call.headOf, Option.map_some, Option.map_none, hname,
                ne_eq, not_false_eq_true, and_self, ↓reduceIte, Option.some.injEq]
              rw [← (publish_record delivery request).1]
              unfold report
              split <;> rfl
  · rw [lookup_apply_other delivery call hkey]
    have hother : call.key ≠ key := fun heq => hkey heq.symm
    cases call with
    | publish request => exact (if_neg hother).symm
    | reconcile request eventId check review queue =>
        exact (if_neg fun hall => hother hall.1).symm

/-- A call publishes the key under a name that is not its head. -/
def Call.renames (key head : String) : Call → Prop
  | .publish request => pipelineKey request = key ∧ request.name ≠ head
  | .reconcile .. => False

/-- The statuses that a call reports for a key. -/
def Call.reports (key : String) : Call → String × String × String
  | .publish _ => ("", "", "")
  | .reconcile request _ check review queue =>
      if pipelineKey request = key then (check, review, queue) else ("", "", "")

/-- A status is kept, or a reported one that is allowed takes its place. -/
def Carried (allowed : List String) (status reported status' : String) : Prop :=
  status' = status ∨ status' = reported ∧ reported ∈ allowed

theorem carried_pick (allowed : List String) (status reported : String) :
    Carried allowed status reported (pick reported allowed status) := by
  unfold pick
  split
  · next hallowed => exact .inr ⟨rfl, hallowed⟩
  · exact .inl rfl

/-- The statuses of a record after a call: a new name resets them, and nothing
else loses one. -/
structure StatusLaw (key : String) (call : Call) (record record' : DeliveryRecord) :
    Prop where
  reset : call.renames key record.headSha → record'.checkStatus = "" ∧
    record'.reviewStatus = "" ∧ record'.queueStatus = ""
  check : ¬ call.renames key record.headSha →
    Carried ["pending", "success", "failure"] record.checkStatus
      (call.reports key).1 record'.checkStatus
  review : ¬ call.renames key record.headSha →
    Carried ["pending", "approved", "changes_requested"] record.reviewStatus
      (call.reports key).2.1 record'.reviewStatus
  queue : ¬ call.renames key record.headSha →
    Carried ["idle", "queued", "blocked"] record.queueStatus
      (call.reports key).2.2 record'.queueStatus

theorem StatusLaw.same {key : String} {call : Call} {record : DeliveryRecord}
    (hnew : ¬ call.renames key record.headSha) : StatusLaw key call record record where
  reset := fun hrenames => absurd hrenames hnew
  check := fun _ => .inl rfl
  review := fun _ => .inl rfl
  queue := fun _ => .inl rfl

theorem statuses_apply (delivery : FakeDelivery) (call : Call) {key : String}
    {record record' : DeliveryRecord} (hrecord : delivery.lookup key = some record)
    (hrecord' : (call.apply delivery).2.lookup key = some record') :
    StatusLaw key call record record' := by
  by_cases hkey : key = call.key
  · cases call with
    | publish request =>
        change key = pipelineKey request at hkey
        change (delivery.publish request).2.lookup key = some record' at hrecord'
        rw [lookup_publish, if_pos hkey, Option.some.injEq] at hrecord'
        subst hkey
        rw [lookup] at hrecord
        simp only [publish, hrecord] at hrecord'
        split at hrecord'
        · next hsame =>
            cases hrecord'
            exact .same fun hrenames => hrenames.2 hsame.symm
        · next hnew =>
            cases hrecord'
            have hrenames : (Call.publish request).renames (pipelineKey request)
                record.headSha := ⟨rfl, fun heq => hnew heq.symm⟩
            exact ⟨fun _ => ⟨rfl, rfl, rfl⟩, absurd hrenames, absurd hrenames,
              absurd hrenames⟩
    | reconcile request eventId check review queue =>
        change key = pipelineKey request at hkey
        change (delivery.reconcile request eventId check review queue).2.lookup key =
          some record' at hrecord'
        subst hkey
        rw [reconcile_of_known _ _ _ _ hrecord, lookup_report _ hrecord,
          if_pos rfl, Option.some.injEq] at hrecord'
        unfold report at hrecord'
        split at hrecord'
        · cases hrecord'
          exact .same id
        · cases hrecord'
          have hreports : (Call.reconcile request eventId check review queue).reports
              (pipelineKey request) = (check, review, queue) := if_pos rfl
          exact ⟨False.elim, fun _ => hreports ▸ carried_pick _ _ _,
            fun _ => hreports ▸ carried_pick _ _ _,
            fun _ => hreports ▸ carried_pick _ _ _⟩
  · rw [lookup_apply_other delivery call hkey, hrecord, Option.some.injEq] at hrecord'
    subst hrecord'
    apply StatusLaw.same
    cases call with
    | publish request => exact fun hrenames => hkey hrenames.1.symm
    | reconcile request eventId check review queue => exact id

/-- Two adapters that differ in the order of their events only. -/
structure Alike (delivery delivery' : FakeDelivery) : Prop where
  records : delivery.records = delivery'.records
  next : delivery.nextPr = delivery'.nextPr
  events : delivery.events.Perm delivery'.events

namespace Alike

variable {delivery delivery' : FakeDelivery} (halike : Alike delivery delivery')

include halike

theorem lookup_eq (key : String) : delivery.lookup key = delivery'.lookup key := by
  rw [lookup, lookup, halike.records]

theorem dump_eq : delivery.dump = delivery'.dump := by
  have hsorted : delivery.events.insertionSort (fun left right => left ≤ right) =
      delivery'.events.insertionSort fun left right => left ≤ right := by
    apply List.Perm.eq_of_sortedLE
    · exact List.sortedLE_insertionSort
    · exact List.sortedLE_insertionSort
    · exact ((List.perm_insertionSort _ _).trans halike.events).trans
        (List.perm_insertionSort _ _).symm
  rw [dump, dump, hsorted, halike.records, halike.next]

theorem publish (request : DeliveryRequest) :
    (delivery.publish request).1 = (delivery'.publish request).1 ∧
      Alike (delivery.publish request).2 (delivery'.publish request).2 := by
  simp only [FakeDelivery.publish, halike.records, halike.next]
  split
  · split
    · exact ⟨rfl, halike⟩
    · refine ⟨rfl, ?_, halike.next, halike.events.filter _⟩
      simp only [forgetEvents, halike.records]
  · exact ⟨rfl, rfl, rfl, halike.events⟩

theorem report (key : String) (stored : DeliveryRecord)
    (eventId check review queue : String) :
    (delivery.report key stored eventId check review queue).1 =
        (delivery'.report key stored eventId check review queue).1 ∧
      Alike (delivery.report key stored eventId check review queue).2
        (delivery'.report key stored eventId check review queue).2 := by
  simp only [FakeDelivery.report, halike.events.mem_iff]
  split
  · exact ⟨rfl, halike⟩
  · refine ⟨rfl, ?_, halike.next, halike.events.append_right _⟩
    simp only [halike.records]

theorem apply (call : Call) :
    (call.apply delivery).1 = (call.apply delivery').1 ∧
      Alike (call.apply delivery).2 (call.apply delivery').2 := by
  cases call with
  | publish request => exact halike.publish request
  | reconcile request eventId check review queue =>
      simp only [Call.apply]
      cases hstored : delivery.lookup (pipelineKey request) with
      | some stored =>
          have hstored' := halike.lookup_eq _ ▸ hstored
          rw [reconcile_of_known _ _ _ _ hstored, reconcile_of_known _ _ _ _ hstored']
          exact halike.report _ _ _ _ _ _
      | none =>
          have hstored' := halike.lookup_eq _ ▸ hstored
          by_cases hname : request.name = ""
          · rw [reconcile_of_unnamed _ _ _ _ hstored hname,
              reconcile_of_unnamed _ _ _ _ hstored' hname]
            exact ⟨rfl, halike⟩
          · rw [reconcile_of_unknown _ _ _ _ hstored hname,
              reconcile_of_unknown _ _ _ _ hstored' hname,
              (halike.publish request).1]
            exact (halike.publish request).2.report _ _ _ _ _ _

end Alike

/-- `load(dump(delivery))`, with Python's `str()` as a parameter; `none` stands
for a raised error. -/
def reload (str : Json → String) (delivery : FakeDelivery) : Option FakeDelivery :=
  match delivery.dump with
  | .obj members => Descriptor.loadDelivery str members
  | _ => none

section Reload

variable {str : Json → String} (hstr : ∀ text, str (.str text) = text)

include hstr

theorem loadRecord_dumpRecord (record : DeliveryRecord)
    {row : List (String × Json)} (hrow : dumpRecord record = .obj row) :
    Descriptor.loadRecord str row = some record := by
  cases hrow
  simp [Descriptor.loadRecord, Descriptor.loadNumber, Descriptor.truthy,
    Json.member?, hstr]

theorem foldlM_dumpRecord (entries : List (String × DeliveryRecord))
    (records : Dict String DeliveryRecord) :
    (entries.map fun entry => (entry.1, dumpRecord entry.2)).foldlM
        (fun (records : Dict String DeliveryRecord) entry =>
          match entry.2 with
          | .obj row =>
              (Descriptor.loadRecord str row).map (Dict.set records entry.1)
          | _ => some records) records =
      some (records.update entries) := by
  induction entries generalizing records with
  | nil => rfl
  | cons entry rest ih =>
      rw [List.map_cons, List.foldlM_cons]
      have hloaded := loadRecord_dumpRecord hstr entry.2 rfl
      simp only [dumpRecord] at ih ⊢
      rw [hloaded]
      exact ih _

/-- A new adapter has the records and the counter, and the events sorted. -/
theorem reload_eq {delivery : FakeDelivery} (hnumbered : delivery.Numbered) :
    reload str delivery = some { delivery with
      events := delivery.events.insertionSort fun left right => left ≤ right } := by
  have hevents : ((delivery.events.insertionSort
      fun left right => left ≤ right).map Json.str).map str =
        delivery.events.insertionSort fun left right => left ≤ right := by
    rw [List.map_map]
    exact (List.map_congr_left fun event _ => hstr event).trans (List.map_id _)
  have honce : (delivery.events.insertionSort
      fun left right => left ≤ right).dedup =
        delivery.events.insertionSort fun left right => left ≤ right :=
    ((List.perm_insertionSort _ _).nodup_iff.mpr hnumbered.once).dedup
  have hrecords := foldlM_dumpRecord hstr delivery.records.rows .empty
  rw [Dict.update_empty_rows] at hrecords
  simp only [reload, dump, Descriptor.loadDelivery, Json.member?, List.find?,
    String.reduceEq, decide_false, decide_true, Option.map_some, hevents,
    if_pos hnumbered.first, honce]
  exact Option.bind_eq_some_iff.mpr ⟨delivery.records, hrecords, rfl⟩

theorem alike_reload {delivery loaded : FakeDelivery} (hnumbered : delivery.Numbered)
    (hloaded : reload str delivery = some loaded) : Alike loaded delivery := by
  rw [reload_eq hstr hnumbered] at hloaded
  cases hloaded
  exact ⟨rfl, rfl, List.perm_insertionSort _ _⟩

end Reload

theorem Alike.numbered {delivery delivery' : FakeDelivery}
    (halike : Alike delivery delivery') (hnumbered : delivery'.Numbered) :
    delivery.Numbered where
  first := halike.next ▸ hnumbered.first
  below := by
    intro key record hrecord
    rw [halike.next]
    exact hnumbered.below key record (halike.lookup_eq key ▸ hrecord)
  distinct := by
    intro key key' record record' hrecord hrecord'
    exact hnumbered.distinct key key' record record'
      (halike.lookup_eq key ▸ hrecord) (halike.lookup_eq key' ▸ hrecord')
  once := halike.events.nodup_iff.mpr hnumbered.once

end FakeDelivery

namespace DeliveryRun

open FakeDelivery

/-- A call, or a restart from the file. -/
inductive Op
  | call (call : Call)
  | reload
deriving Repr, DecidableEq

/-- One operation and its answer; the state is `none` once an error was raised. -/
def step (str : Json → String) :
    Option FakeDelivery → Op → Option DeliveryRecord × Option FakeDelivery
  | none, _ => (none, none)
  | some delivery, .call call =>
      (some (call.apply delivery).1, some (call.apply delivery).2)
  | some delivery, .reload => (none, FakeDelivery.reload str delivery)

def after (str : Json → String) (ops : List Op) : Option FakeDelivery :=
  exec (step str) (some .empty) ops

/-- The name of the last publication of a key. -/
def lastName (key : String) (ops : List Op) : Option String :=
  ops.foldl
    (fun head op => match op with
      | .call call => call.headOf key head
      | .reload => head)
    none

section Runs

variable {str : Json → String} (hstr : ∀ text, str (.str text) = text)

include hstr

theorem step_numbered {delivery : FakeDelivery} (hnumbered : delivery.Numbered)
    (op : Op) :
    ∃ next, (step str (some delivery) op).2 = some next ∧ next.Numbered ∧
      Stable delivery next := by
  cases op with
  | call call => exact ⟨_, rfl, hnumbered.apply call, stable_apply delivery call⟩
  | reload =>
      have hloaded := reload_eq hstr hnumbered
      have halike := alike_reload hstr hnumbered hloaded
      exact ⟨_, hloaded, halike.numbered hnumbered, Stable.refl delivery⟩

theorem exec_numbered {delivery : FakeDelivery} (hnumbered : delivery.Numbered)
    (ops : List Op) :
    ∃ next, exec (step str) (some delivery) ops = some next ∧ next.Numbered ∧
      Stable delivery next := by
  induction ops generalizing delivery with
  | nil => exact ⟨delivery, rfl, hnumbered, Stable.refl delivery⟩
  | cons op rest ih =>
      obtain ⟨middle, hstep, hmiddle, hstable⟩ := step_numbered hstr hnumbered op
      obtain ⟨next, hrest, hnext, hstable'⟩ := ih hmiddle
      refine ⟨next, ?_, hnext, hstable.trans hstable'⟩
      rw [exec_cons, hstep, hrest]

/-- An adapter that came from a file answers like the one that was written. -/
theorem Alike.runs {delivery delivery' : FakeDelivery}
    (halike : Alike delivery delivery') (hnumbered : delivery'.Numbered)
    (ops : List Op) :
    answers (step str) (some delivery) ops = answers (step str) (some delivery') ops ∧
      ∃ next next', exec (step str) (some delivery) ops = some next ∧
        exec (step str) (some delivery') ops = some next' ∧ Alike next next' := by
  induction ops generalizing delivery delivery' with
  | nil => exact ⟨rfl, delivery, delivery', rfl, rfl, halike⟩
  | cons op rest ih =>
      cases op with
      | call call =>
          obtain ⟨hanswer, hnext⟩ := halike.apply call
          obtain ⟨hanswers, hend⟩ := ih hnext (hnumbered.apply call)
          simp only [answers, step, hanswer, hanswers, exec_cons]
          exact ⟨trivial, hend⟩
      | reload =>
          have hloaded := reload_eq hstr hnumbered
          have hsame : FakeDelivery.reload str delivery =
              FakeDelivery.reload str delivery' := by
            rw [FakeDelivery.reload, FakeDelivery.reload, halike.dump_eq]
          simp only [answers, step, hsame, exec_cons, hloaded]
          have hrefl := alike_reload hstr hnumbered hloaded
          obtain ⟨next, hend, -, -⟩ := exec_numbered hstr
            (hrefl.numbered hnumbered) rest
          exact ⟨trivial, next, next, hend, hend, ⟨rfl, rfl, List.Perm.refl _⟩⟩

theorem head_after (ops : List Op) {delivery : FakeDelivery}
    (hafter : after str ops = some delivery) (key : String) :
    (delivery.lookup key).map DeliveryRecord.headSha = lastName key ops := by
  induction ops using List.reverseRecOn generalizing delivery with
  | nil =>
      cases hafter
      rfl
  | append_singleton ops op ih =>
      obtain ⟨older, hold, hnumbered, -⟩ := exec_numbered hstr numbered_empty ops
      rw [after, exec_concat, hold] at hafter
      rw [lastName, List.foldl_concat, ← lastName, ← ih hold]
      cases op with
      | call call =>
          cases hafter
          exact head_apply older call key
      | reload =>
          have halike := alike_reload hstr hnumbered hafter
          rw [halike.lookup_eq]

end Runs

/-- The laws of an adapter that a run has reached. -/
structure Delivers (str : Json → String) (ops : List Op) (delivery : FakeDelivery) :
    Prop where
  numbered : delivery.Numbered
  heads : ∀ key, (delivery.lookup key).map DeliveryRecord.headSha = lastName key ops
  stable : ∀ later, ∃ next, exec (step str) (some delivery) later = some next ∧
    Stable delivery next
  statuses : ∀ call key record record', delivery.lookup key = some record →
    (call.apply delivery).2.lookup key = some record' →
      StatusLaw key call record record'
  reloads : ∃ loaded, FakeDelivery.reload str delivery = some loaded ∧
    loaded.lookup = delivery.lookup ∧ ∀ later,
      answers (step str) (some loaded) later =
          answers (step str) (some delivery) later ∧
        (exec (step str) (some loaded) later).map FakeDelivery.dump =
          (exec (step str) (some delivery) later).map FakeDelivery.dump

/-- Every run of publications, reported events and restarts ends in an adapter
with distinct and stable numbers, whose heads are the last published names and
which its file brings back. -/
theorem after_delivers {str : Json → String} (hstr : ∀ text, str (.str text) = text)
    (ops : List Op) :
    ∃ delivery, after str ops = some delivery ∧ Delivers str ops delivery := by
  obtain ⟨delivery, hafter, hnumbered, -⟩ := exec_numbered hstr numbered_empty ops
  have hloaded := reload_eq hstr hnumbered
  have halike := alike_reload hstr hnumbered hloaded
  refine ⟨delivery, hafter, hnumbered, head_after hstr ops hafter, ?_, ?_, _,
    hloaded, rfl, ?_⟩
  · intro later
    obtain ⟨next, hnext, -, hstable⟩ := exec_numbered hstr hnumbered later
    exact ⟨next, hnext, hstable⟩
  · intro call key record record'
    exact statuses_apply delivery call
  · intro later
    obtain ⟨hanswers, next, next', hnext, hnext', hend⟩ :=
      Alike.runs hstr halike hnumbered later
    refine ⟨hanswers, ?_⟩
    rw [hnext, hnext', Option.map_some, Option.map_some, hend.dump_eq]

end DeliveryRun

namespace DeliveryRunWitness

open DeliveryRun ReferenceCodec

/-- A publication, a reported event, a restart, and a publication with a new
name. -/
def renamed : List Op :=
  [.call (.publish { name := "a", pipelineId := "p" }),
    .call (.reconcile { name := "", pipelineId := "p" } "e" "success" "" ""),
    .reload, .call (.publish { name := "b", pipelineId := "p" })]

theorem renamed_delivers :
    ∃ delivery, after sampleCodec.str renamed = some delivery ∧
      Delivers sampleCodec.str renamed delivery :=
  after_delivers (fun _ => rfl) renamed

end DeliveryRunWitness

end HermesPipeline
