/-
Delivery keys.  The adapter remembers the events of all keys as joined texts in
one set, so one key stays out of the way of another as long as neither of them
starts with the other one and a colon.
-/
import HermesPipeline.DeliveryRuns

namespace HermesPipeline

open Lib

namespace DeliveryKeys

open FakeDelivery

/-- The adapter after a list of calls. -/
def after (calls : List Call) : FakeDelivery :=
  calls.foldl (fun delivery call => (call.apply delivery).2) .empty

/-- What happened to one key alone: its head, and the events since it was set. -/
structure History where
  head : Option String
  seen : List String
deriving Repr, DecidableEq

namespace History

def empty : History := ⟨none, []⟩

/-- A publication with a new name sets the head and starts the events anew. -/
def published (history : History) (name : String) : History :=
  if history.head = some name then history else ⟨some name, []⟩

/-- A reported event; an unknown key is published first. -/
def opened (history : History) (name : String) : History :=
  if history.head = none ∧ name ≠ "" then ⟨some name, []⟩ else history

def told (history : History) (eventId : String) : History :=
  if history.head = none ∨ eventId = "" ∨ eventId ∈ history.seen then history
  else { history with seen := history.seen ++ [eventId] }

def called (history : History) : Call → History
  | .publish request => history.published request.name
  | .reconcile request eventId _ _ _ => (history.opened request.name).told eventId

/-- What a call adds to the history of a key. -/
def note (key : String) (history : History) (call : Call) : History :=
  if call.key = key then history.called call else history

end History

def historyOf (key : String) (calls : List Call) : History :=
  calls.foldl (History.note key) .empty

/-- The adapter of a reported event, with its key published if it was unknown. -/
def opened (delivery : FakeDelivery) (request : DeliveryRequest) : FakeDelivery :=
  if delivery.lookup (pipelineKey request) = none ∧ request.name ≠ "" then
    (delivery.publish request).2
  else delivery

/-- A reported event is applied if its own key has not seen it since its last
head, and ignored otherwise. -/
structure Reports (delivery : FakeDelivery) (history : History)
    (request : DeliveryRequest) (eventId check review queue : String) : Prop where
  applied : ∀ stored, (opened delivery request).lookup (pipelineKey request) =
    some stored → eventId ∉ history.seen →
      (delivery.reconcile request eventId check review queue).1 =
          stored.reported check review queue ∧
        (delivery.reconcile request eventId check review queue).2.lookup
          (pipelineKey request) = some (stored.reported check review queue)
  ignored : ∀ stored, (opened delivery request).lookup (pipelineKey request) =
    some stored → eventId ∈ history.seen →
      (delivery.reconcile request eventId check review queue).1 = stored ∧
        (delivery.reconcile request eventId check review queue).2.lookup
          (pipelineKey request) = some stored

/-- No call of the run depends on what happened to another key. -/
structure Independent (calls : List Call) : Prop where
  frame : ∀ before call later, calls = before ++ call :: later →
    ∀ key, key ≠ call.key →
      (call.apply (after before)).2.lookup key = (after before).lookup key
  reports : ∀ before request eventId check review queue later,
    calls = before ++ .reconcile request eventId check review queue :: later →
      eventId ≠ "" →
        Reports (after before) (historyOf (pipelineKey request) before) request
          eventId check review queue

/-- The second key starts with the first one and a colon. -/
def Extends (key key' : String) : Prop := (key ++ ":").toList <+: key'.toList

/-- No key of the set starts with another one and a colon. -/
def Apart (keys : Set String) : Prop :=
  ∀ key ∈ keys, ∀ key' ∈ keys, ¬ Extends key key'

theorem connected_keys {first second left right : List Char}
    (hsame : first ++ ':' :: left = second ++ ':' :: right) :
    first = second ∨ first ++ [':'] <+: second ∨ second ++ [':'] <+: first := by
  rcases List.append_eq_append_iff.mp hsame with ⟨rest, rfl, hrest⟩ | ⟨rest, rfl, hrest⟩
  · cases rest with
    | nil => exact .inl (List.append_nil _).symm
    | cons mark rest =>
        rw [List.cons_append, List.cons.injEq] at hrest
        obtain ⟨rfl, -⟩ := hrest
        exact .inr (.inl ⟨rest, by simp⟩)
  · cases rest with
    | nil => exact .inl (List.append_nil _)
    | cons mark rest =>
        rw [List.cons_append, List.cons.injEq] at hrest
        obtain ⟨rfl, -⟩ := hrest
        exact .inr (.inr ⟨rest, by simp⟩)

/-- A token that starts like the tokens of another key. -/
theorem same_key_of_start {keys : Set String} (hapart : Apart keys)
    {key key' eventId : String} (hkey : key ∈ keys) (hkey' : key' ∈ keys)
    (hstart : (key' ++ ":").toList <+: (token key eventId).toList) : key = key' := by
  obtain ⟨rest, hrest⟩ := hstart
  have hsame : key.toList ++ ':' :: eventId.toList = key'.toList ++ ':' :: rest := by
    simpa [token] using hrest.symm
  rcases connected_keys hsame with heq | hextends | hextends
  · exact String.toList_injective heq
  · exact absurd (by simpa [Extends] using hextends) (hapart key hkey key' hkey')
  · exact absurd (by simpa [Extends] using hextends) (hapart key' hkey' key hkey)

theorem token_start (key eventId : String) :
    (key ++ ":").toList <+: (token key eventId).toList :=
  ⟨eventId.toList, by simp [token]⟩

theorem token_inj {key eventId eventId' : String} :
    token key eventId = token key eventId' ↔ eventId = eventId' := by
  constructor
  · intro hsame
    apply String.toList_injective
    simpa [token] using congrArg String.toList hsame
  · rintro rfl
    rfl

/-- The tokens of another key are other tokens. -/
theorem token_ne {keys : Set String} (hapart : Apart keys) {key key' : String}
    (hkey : key ∈ keys) (hkey' : key' ∈ keys) (hne : key ≠ key')
    (eventId eventId' : String) : token key eventId ≠ token key' eventId' := by
  intro hsame
  exact hne (same_key_of_start hapart hkey hkey' (hsame ▸ token_start key' eventId'))

theorem mem_forgetEvents (delivery : FakeDelivery) (key event : String) :
    event ∈ (delivery.forgetEvents key).events ↔
      event ∈ delivery.events ∧ ¬ (key ++ ":").toList <+: event.toList := by
  simp only [forgetEvents, List.mem_filter, Bool.not_eq_true', ← Bool.not_eq_true,
    List.isPrefixOf_iff_prefix]

/-- The adapter holds the history of a key: its head, and its events. -/
structure Tracks (delivery : FakeDelivery) (key : String) (history : History) :
    Prop where
  head : (delivery.lookup key).map DeliveryRecord.headSha = history.head
  events : ∀ eventId, token key eventId ∈ delivery.events ↔ eventId ∈ history.seen
  fresh : history.head = none → history.seen = []

theorem Tracks.published {delivery : FakeDelivery} {request : DeliveryRequest}
    {history : History} (htracks : Tracks delivery (pipelineKey request) history) :
    Tracks (delivery.publish request).2 (pipelineKey request)
      (history.published request.name) := by
  have hhead := htracks.head
  constructor
  · rw [lookup_publish, if_pos rfl, Option.map_some, (publish_record _ _).1,
      History.published]
    split
    · next hsame => exact hsame.symm
    · rfl
  · intro eventId
    rw [lookup] at hhead
    cases hstored : delivery.records.get? (pipelineKey request) with
    | none =>
        rw [hstored] at hhead
        have hunknown : history.head ≠ some request.name := by
          rw [← hhead]
          simp
        simp only [publish, hstored, History.published, hunknown, ↓reduceIte]
        rw [htracks.events, htracks.fresh hhead.symm]
    | some stored =>
        rw [hstored, Option.map_some] at hhead
        simp only [publish, hstored, History.published, ← hhead, Option.some.injEq]
        split
        · exact htracks.events eventId
        · have hgone : token (pipelineKey request) eventId ∉
              (delivery.forgetEvents (pipelineKey request)).events := by
            rw [mem_forgetEvents]
            exact fun hmem => hmem.2 (token_start _ _)
          simpa using hgone
  · unfold History.published
    split
    · exact htracks.fresh
    · exact fun _ => rfl

theorem Tracks.told {delivery : FakeDelivery} {key : String} {history : History}
    (htracks : Tracks delivery key history) {stored : DeliveryRecord}
    (hstored : delivery.lookup key = some stored)
    (eventId check review queue : String) :
    Tracks (delivery.report key stored eventId check review queue).2 key
      (history.told eventId) := by
  have hhead := htracks.head
  rw [hstored, Option.map_some] at hhead
  have hknown : history.head ≠ none := by
    rw [← hhead]
    exact Option.some_ne_none _
  have hsame : (history.told eventId).head = history.head := by
    unfold History.told
    split <;> rfl
  constructor
  · rw [lookup_report _ hstored, if_pos rfl, hsame, ← hhead]
    unfold report
    split <;> rfl
  · intro other
    simp only [report, History.told, hknown, false_or, htracks.events]
    split
    · exact htracks.events other
    · simp only [List.mem_append, List.mem_singleton, htracks.events, token_inj]
  · intro hnone
    exact absurd (hsame ▸ hnone) hknown

section Apart

variable {keys : Set String} (hapart : Apart keys) {key : String} (hkey : key ∈ keys)
  {delivery : FakeDelivery} {history : History}

include hapart hkey

theorem Tracks.published_other {request : DeliveryRequest}
    (htracks : Tracks delivery key history) (hother : pipelineKey request ∈ keys)
    (hne : key ≠ pipelineKey request) :
    Tracks (delivery.publish request).2 key history := by
  have hkept : ∀ eventId, token key eventId ∈
      (delivery.forgetEvents (pipelineKey request)).events ↔
        eventId ∈ history.seen := by
    intro eventId
    rw [mem_forgetEvents, htracks.events, and_iff_left_iff_imp]
    exact fun _ hstart => hne (same_key_of_start hapart hkey hother hstart)
  refine ⟨?_, ?_, htracks.fresh⟩
  · rw [lookup_publish, if_neg hne, htracks.head]
  · intro eventId
    simp only [publish]
    split
    · split
      · exact htracks.events eventId
      · exact hkept eventId
    · exact htracks.events eventId

theorem Tracks.told_other {key' : String} (htracks : Tracks delivery key history)
    (hother : key' ∈ keys) (hne : key ≠ key') {stored : DeliveryRecord}
    (hstored : delivery.lookup key' = some stored)
    (eventId check review queue : String) :
    Tracks (delivery.report key' stored eventId check review queue).2 key history := by
  refine ⟨?_, ?_, htracks.fresh⟩
  · rw [lookup_report _ hstored, if_neg hne, htracks.head]
  · intro own
    unfold report
    split
    · exact htracks.events own
    · rw [List.mem_append, List.mem_singleton, htracks.events, or_iff_left_iff_imp]
      exact fun hsame => absurd hsame (token_ne hapart hkey hother hne own eventId)

/-- One call, seen from one key. -/
theorem Tracks.note (htracks : Tracks delivery key history) {call : Call}
    (hcall : call.key ∈ keys) :
    Tracks (call.apply delivery).2 key (history.note key call) := by
  by_cases hown : call.key = key
  · subst hown
    rw [History.note, if_pos rfl]
    cases call with
    | publish request => exact htracks.published
    | reconcile request eventId check review queue =>
        have hhead := htracks.head
        simp only [Call.apply, Call.key, History.called] at hhead ⊢
        cases hstored : delivery.lookup (pipelineKey request) with
        | some stored =>
            rw [hstored, Option.map_some] at hhead
            have hopened : history.opened request.name = history := by
              rw [History.opened, ← hhead, if_neg]
              simp
            rw [reconcile_of_known _ _ _ _ hstored, hopened]
            exact htracks.told hstored _ _ _ _
        | none =>
            rw [hstored, Option.map_none] at hhead
            by_cases hname : request.name = ""
            · have hopened : history.opened request.name = history := by
                rw [History.opened, if_neg fun hall => hall.2 hname]
              have htold : history.told eventId = history := by
                rw [History.told, if_pos (.inl hhead.symm)]
              rw [reconcile_of_unnamed _ _ _ _ hstored hname, hopened, htold]
              exact htracks
            · have hopened : history.opened request.name =
                  history.published request.name := by
                rw [History.opened, if_pos ⟨hhead.symm, hname⟩, History.published,
                  if_neg]
                rw [← hhead]
                exact (Option.some_ne_none _).symm
              rw [reconcile_of_unknown _ _ _ _ hstored hname, hopened]
              apply htracks.published.told
              rw [lookup_publish, if_pos rfl]
  · have hne : key ≠ call.key := fun heq => hown heq.symm
    rw [History.note, if_neg hown]
    cases call with
    | publish request => exact htracks.published_other hapart hkey hcall hne
    | reconcile request eventId check review queue =>
        simp only [Call.apply, Call.key] at hcall hne ⊢
        cases hstored : delivery.lookup (pipelineKey request) with
        | some stored =>
            rw [reconcile_of_known _ _ _ _ hstored]
            exact htracks.told_other hapart hkey hcall hne hstored _ _ _ _
        | none =>
            by_cases hname : request.name = ""
            · rw [reconcile_of_unnamed _ _ _ _ hstored hname]
              exact htracks
            · rw [reconcile_of_unknown _ _ _ _ hstored hname]
              apply (htracks.published_other hapart hkey hcall hne).told_other hapart
                hkey hcall hne
              rw [lookup_publish, if_pos rfl]

theorem tracks_after {calls : List Call} (hcalls : ∀ call ∈ calls, call.key ∈ keys) :
    Tracks (after calls) key (historyOf key calls) := by
  induction calls using List.reverseRecOn with
  | nil =>
      refine ⟨rfl, ?_, fun _ => rfl⟩
      intro eventId
      constructor
      · intro hmem
        cases hmem
      · intro hmem
        cases hmem
  | append_singleton calls call ih =>
      rw [after, historyOf, List.foldl_concat, List.foldl_concat]
      have hbefore := ih fun other hother => hcalls other (by simp [hother])
      exact hbefore.note hapart hkey (hcalls call (by simp))

end Apart

theorem Tracks.reports {delivery : FakeDelivery} {history : History}
    {request : DeliveryRequest}
    (htracks : Tracks delivery (pipelineKey request) history)
    {eventId : String} (hevent : eventId ≠ "") (check review queue : String) :
    Reports delivery history request eventId check review queue := by
  have hreport : ∀ (settled : FakeDelivery) (stored : DeliveryRecord),
      settled.lookup (pipelineKey request) = some stored →
      (token (pipelineKey request) eventId ∈ settled.events ↔
        eventId ∈ history.seen) →
      delivery.reconcile request eventId check review queue =
        settled.report (pipelineKey request) stored eventId check review queue →
      (eventId ∉ history.seen →
        (delivery.reconcile request eventId check review queue).1 =
            stored.reported check review queue ∧
          (delivery.reconcile request eventId check review queue).2.lookup
            (pipelineKey request) = some (stored.reported check review queue)) ∧
      (eventId ∈ history.seen →
        (delivery.reconcile request eventId check review queue).1 = stored ∧
          (delivery.reconcile request eventId check review queue).2.lookup
            (pipelineKey request) = some stored) := by
    intro settled stored hstored hseen hrun
    rw [hrun, lookup_report _ hstored, if_pos rfl, Option.some.injEq, and_self,
      Option.some.injEq, and_self]
    constructor
    · intro hnew
      rw [report, if_neg]
      rw [hseen]
      exact not_or.mpr ⟨hevent, hnew⟩
    · intro hold
      rw [report, if_pos (.inr (hseen.mpr hold))]
  have hknown : ∀ stored, (opened delivery request).lookup (pipelineKey request) =
      some stored →
      (token (pipelineKey request) eventId ∈ (opened delivery request).events ↔
        eventId ∈ history.seen) ∧
      delivery.reconcile request eventId check review queue =
        (opened delivery request).report (pipelineKey request) stored eventId check
          review queue := by
    intro stored hstored
    cases hfound : delivery.lookup (pipelineKey request) with
    | some existing =>
        have hsame : opened delivery request = delivery := by
          simp [opened, hfound]
        rw [hsame, hfound, Option.some.injEq] at hstored
        rw [hsame, ← hstored]
        exact ⟨htracks.events eventId, reconcile_of_known _ _ _ _ hfound⟩
    | none =>
        by_cases hname : request.name = ""
        · simp [opened, hname, hfound] at hstored
        · have hsame : opened delivery request = (delivery.publish request).2 := by
            simp [opened, hfound, hname]
          have hhead := htracks.head
          rw [hfound, Option.map_none] at hhead
          rw [hsame, lookup_publish, if_pos rfl, Option.some.injEq] at hstored
          rw [hsame, ← hstored]
          refine ⟨?_, reconcile_of_unknown _ _ _ _ hfound hname⟩
          rw [htracks.published.events, History.published, if_neg,
            htracks.fresh hhead.symm]
          rw [← hhead]
          exact (Option.some_ne_none _).symm
  constructor
  · intro stored hstored
    obtain ⟨hseen, hrun⟩ := hknown stored hstored
    exact (hreport _ stored hstored hseen hrun).1
  · intro stored hstored
    obtain ⟨hseen, hrun⟩ := hknown stored hstored
    exact (hreport _ stored hstored hseen hrun).2

/-- Keys that are apart do not touch each other. -/
theorem independent_of_apart {keys : Set String} (hapart : Apart keys)
    {calls : List Call} (hcalls : ∀ call ∈ calls, call.key ∈ keys) :
    Independent calls := by
  constructor
  · intro before call later _ key hother
    exact lookup_apply_other (after before) call hother
  · intro before request eventId check review queue later hsplit hevent
    have hmem : ∀ call ∈ before, call.key ∈ keys := by
      intro call hcall
      exact hcalls call (hsplit ▸ List.mem_append_left _ hcall)
    have hkey : pipelineKey request ∈ keys :=
      hcalls (.reconcile request eventId check review queue) (by simp [hsplit])
    exact (tracks_after hapart hkey hmem).reports hevent check review queue

/-- A request for a key, without a name. -/
def requestFor (key : String) : DeliveryRequest := { name := "", pipelineId := key }

theorem pipelineKey_requestFor (key : String) : pipelineKey (requestFor key) = key := by
  unfold pipelineKey requestFor
  split
  · next hempty => exact hempty.symm
  · rfl

/-- An event of the first key that reads like an event of the second one, which
starts with the first one, a colon and the text. -/
def collision (key rest : String) : List Call :=
  let key' := key ++ ":" ++ rest
  [.publish (requestFor key),
    .reconcile (requestFor key) (rest ++ ":c") "success" "" "",
    .publish (requestFor key'), .reconcile (requestFor key') "c" "success" "" ""]

theorem collision_keys (key rest : String) :
    ∀ call ∈ collision key rest, call.key = key ∨ call.key = key ++ ":" ++ rest := by
  simp [collision, Call.key, pipelineKey_requestFor]

theorem events_publish_of_unknown {delivery : FakeDelivery}
    {request : DeliveryRequest}
    (hunknown : delivery.lookup (pipelineKey request) = none) :
    (delivery.publish request).2.events = delivery.events := by
  rw [lookup] at hunknown
  simp only [publish, hunknown]

theorem token_mem_report {delivery : FakeDelivery} {key eventId : String}
    (stored : DeliveryRecord) (hevent : eventId ≠ "") (check review queue : String) :
    token key eventId ∈
      (delivery.report key stored eventId check review queue).2.events := by
  unfold report
  split
  · next hseen => exact hseen.resolve_left hevent
  · simp

/-- The event of the second key is dropped although it has not been seen. -/
theorem collision_dependent (key rest : String) :
    ¬ Independent (collision key rest) := by
  intro hindependent
  have hne : key ++ ":" ++ rest ≠ key := by
    intro heq
    have hlength := congrArg String.length heq
    simp only [String.length_append] at hlength
    have hcolon : ":".length = 1 := rfl
    omega
  generalize hkey' : key ++ ":" ++ rest = key' at hne
  let first : FakeDelivery := (FakeDelivery.empty.publish (requestFor key)).2
  let second : FakeDelivery := (first.reconcile (requestFor key) (rest ++ ":c")
    "success" "" "").2
  let third : FakeDelivery := (second.publish (requestFor key')).2
  have hafter : after [.publish (requestFor key),
      .reconcile (requestFor key) (rest ++ ":c") "success" "" "",
      .publish (requestFor key')] = third := rfl
  have htold : token key (rest ++ ":c") ∈ second.events := by
    have hfirst : first.lookup (pipelineKey (requestFor key)) =
        some (FakeDelivery.empty.publish (requestFor key)).1 := by
      rw [lookup_publish, if_pos rfl]
    have hrun := reconcile_of_known (rest ++ ":c") "success" "" "" hfirst
    rw [pipelineKey_requestFor] at hrun
    change _ ∈ (first.reconcile (requestFor key) (rest ++ ":c") "success" "" "").2.events
    rw [hrun]
    apply token_mem_report
    intro hempty
    have hlength := congrArg String.length hempty
    simp only [String.length_append] at hlength
    have hmark : ":c".length = 2 := rfl
    have hnone : "".length = 0 := rfl
    omega
  have hunknown : second.lookup (pipelineKey (requestFor key')) = none := by
    rw [pipelineKey_requestFor]
    have hsecond := lookup_apply_other first
      (.reconcile (requestFor key) (rest ++ ":c") "success" "" "") (p := key')
      (by simpa [Call.key, pipelineKey_requestFor] using hne)
    have hfirst := lookup_publish FakeDelivery.empty (requestFor key) key'
    rw [pipelineKey_requestFor, if_neg hne] at hfirst
    exact hsecond.trans hfirst
  have hseen : token key' "c" ∈ third.events := by
    have hsame : token key' "c" = token key (rest ++ ":c") := by
      rw [← hkey', token, token]
      simp [String.append_assoc]
    rw [hsame]
    change _ ∈ (second.publish (requestFor key')).2.events
    rw [events_publish_of_unknown hunknown]
    exact htold
  have hstored : third.lookup (pipelineKey (requestFor key')) =
      some (second.publish (requestFor key')).1 := by
    rw [lookup_publish, if_pos rfl]
  have hopened : opened third (requestFor key') = third := by
    rw [opened, if_neg]
    rw [hstored]
    simp
  have hfresh : "c" ∉ (historyOf key' [.publish (requestFor key),
      .reconcile (requestFor key) (rest ++ ":c") "success" "" "",
      .publish (requestFor key')]).seen := by
    have hother : key ≠ key' := hne.symm
    simp only [historyOf, History.note, Call.key, pipelineKey_requestFor,
      List.foldl_cons, List.foldl_nil, if_neg hother, History.called,
      History.published, History.empty, reduceCtorEq, ↓reduceIte]
    exact List.not_mem_nil
  have hreports := hindependent.reports [.publish (requestFor key),
    .reconcile (requestFor key) (rest ++ ":c") "success" "" "",
    .publish (requestFor key')] (requestFor key') "c" "success" "" "" []
    (by simp only [collision, hkey']; rfl) (by decide)
  rw [hafter, pipelineKey_requestFor] at hreports
  have hanswer := (hreports.applied _ (hopened.symm ▸ hstored) hfresh).1
  have hrun := reconcile_of_known "c" "success" "" "" hstored
  rw [hrun, pipelineKey_requestFor, report, if_pos (.inr hseen)] at hanswer
  have hstatus := congrArg DeliveryRecord.checkStatus hanswer
  have hempty : (second.publish (requestFor key')).1.checkStatus = "" := by
    rw [lookup] at hunknown
    simp only [publish, hunknown]
  rw [hempty] at hstatus
  revert hstatus
  simp [DeliveryRecord.reported, pick]

/-- Every run over a set of keys keeps them independent exactly when no key of
the set starts with another one and a colon. -/
theorem independent_iff_apart (keys : Set String) :
    (∀ calls, (∀ call ∈ calls, call.key ∈ keys) → Independent calls) ↔
      Apart keys := by
  constructor
  · intro hruns key hkey key' hkey' hextends
    obtain ⟨rest, hrest⟩ := hextends
    have hsame : key' = key ++ ":" ++ String.ofList rest := by
      apply String.toList_injective
      rw [← hrest]
      simp
    apply collision_dependent key (String.ofList rest)
    apply hruns
    intro call hcall
    rcases collision_keys key _ call hcall with heq | heq
    · rwa [heq]
    · rwa [heq, ← hsame]
  · intro hapart calls hcalls
    exact independent_of_apart hapart hcalls

end DeliveryKeys

namespace DeliveryKeysWitness

open DeliveryKeys

/-- The keys `a` and `a:b`. -/
theorem coloned_keys_depend : ¬ Independent (collision "a" "b") :=
  collision_dependent "a" "b"

end DeliveryKeysWitness

end HermesPipeline
