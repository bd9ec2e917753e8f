/-
How the output of a Codex run is read.  The output is lines of JSON, one event a
line, and the loop over them keeps the outcome so far.  The outcomes are ranked:
an event only ever raises the outcome, so that the order of the events does not
count.
-/
import HermesPipeline.Descriptor
import HermesPipeline.Lib.JsonText
import Mathlib.Data.Fintype.Basic
import Mathlib.Order.Lattice

namespace HermesPipeline

open Lib

namespace CodexOutcome

inductive Outcome
  | ok
  | noCredential
  | error
  | timeout
  | cancelled
deriving Repr, DecidableEq

/-- `_Classified`. -/
structure Classified where
  outcome : Outcome := .error
  finalText : String := ""
  parsed : Nat := 0
deriving Repr, DecidableEq

/-- What `json.loads` raises: the loop passes over a decode error, not over the
other value errors. -/
inductive LoadsError
  | decode
  | value
deriving Repr, DecidableEq

/-- `json.loads`, `str` and `str.lower`. -/
structure Python where
  loads : String → Except LoadsError Json
  str : Json → String
  lower : String → String

/-- An event: the members of an object. -/
abbrev Event := List (String × Json)

def isLineEnd (c : Char) : Bool :=
  (0x0a ≤ c.toNat && c.toNat ≤ 0x0d) || (0x1c ≤ c.toNat && c.toNat ≤ 0x1e) ||
    c.toNat = 0x85 || c.toNat = 0x2028 || c.toNat = 0x2029

/-- The lines of a text, after the letters of a line already begun. -/
def linesFrom (line : List Char) : List Char → List String
  | [] => if line = [] then [] else [String.ofList line]
  | '\r' :: '\n' :: rest => String.ofList line :: linesFrom [] rest
  | c :: rest =>
      if isLineEnd c then String.ofList line :: linesFrom [] rest
      else linesFrom (line ++ [c]) rest

/-- `text.splitlines()`. -/
def splitlines (text : String) : List String := linesFrom [] text.toList

/-- `word in text`. -/
def mentions (word text : String) : Bool := decide (word.toList <:+: text.toList)

/-- `text.endswith(word)`. -/
def endsWith (word text : String) : Bool := decide (word.toList <:+ text.toList)

/-- The value of a member, unless it is false. -/
def truthyMember (event : Event) (name : String) : Option Json :=
  (Json.member? event name).filter Descriptor.truthy

section Events

variable (py : Python)

def kind (event : Event) : String :=
  py.str (((truthyMember event "type").or (truthyMember event "item")).getD (.str ""))

/-- The message of the error of an event, else of the event. -/
def message (event : Event) : String :=
  let payload := match Json.member? event "error" with
    | some (.obj members) => members
    | _ => []
  py.str (((Json.member? payload "message").or (Json.member? event "message")).getD
    (.str ""))

def lowered (event : Event) : String :=
  py.lower (kind py event ++ " " ++ message py event)

/-- What the outcome depends on in an event. -/
structure Marks where
  credential : Bool
  timeout : Bool
  cancel : Bool
  completed : Bool
deriving Repr, DecidableEq

def marks (event : Event) : Marks where
  credential := mentions "auth" (py.lower (message py event)) ||
    mentions "credential" (py.lower (message py event))
  timeout := mentions "timeout" (lowered py event)
  cancel := mentions "cancel" (lowered py event)
  completed := endsWith "completed" (kind py event) ||
    (Json.member? event "status").any fun status => status.text? = some "completed"

/-- The two tests of the loop on the outcome so far. -/
def nextOutcome (outcome : Outcome) (marks : Marks) : Outcome :=
  let outcome' :=
    if marks.credential then .noCredential
    else if marks.timeout && outcome ≠ .noCredential then .timeout
    else if marks.cancel && outcome ∉ [.noCredential, .timeout] then .cancelled
    else outcome
  if outcome' ∉ [.noCredential, .timeout, .cancelled] && marks.completed then .ok
  else outcome'

/-- The text of a part of an item's content. -/
def partText (final : String) : Json → String
  | .obj part =>
      if (Json.member? part "type").any fun type => type.text? = some "output_text" then
        ((truthyMember part "text").map py.str).getD final
      else final
  | _ => final

def nextText (final : String) (event : Event) : String :=
  let final' := match Json.member? event "text" with
    | some (.str text) => if text = "" then final else text
    | _ => final
  match Json.member? event "item" with
  | some (.obj item) =>
      match Json.member? item "content" with
      | some (.arr parts) => parts.foldl (partText py) final'
      | _ => final'
  | _ => final'

def readEvent (state : Classified) (event : Event) : Classified where
  outcome := nextOutcome state.outcome (marks py event)
  finalText := nextText py state.finalText event
  parsed := state.parsed + 1

/-- One round of the loop of `_classify`. -/
def readLine (state : Classified) (raw : String) : Except LoadsError Classified :=
  let line := pyStrip raw
  if line = "" then .ok state
  else
    match py.loads line with
    | .ok (.obj event) => .ok (readEvent py state event)
    | .ok _ => .ok state
    | .error .decode => .ok state
    | .error .value => .error .value

/-- `_classify`. -/
def classify (text : String) : Except LoadsError Classified :=
  (splitlines text).foldlM (readLine py) {}

/-- The object on a line. -/
def parsedLine (raw : String) : Except LoadsError (List Event) :=
  let line := pyStrip raw
  if line = "" then .ok []
  else
    match py.loads line with
    | .ok (.obj event) => .ok [event]
    | .ok _ => .ok []
    | .error .decode => .ok []
    | .error .value => .error .value

/-- The objects on the lines of a text, where they can be read. -/
def parsedEvents (text : String) : Except LoadsError (List Event) :=
  ((splitlines text).mapM (parsedLine py)).map List.flatten

/-- The precedence of the outcomes over the events of a run. -/
def outcomeOf (events : List Event) : Outcome :=
  if events.any fun event => (marks py event).credential then .noCredential
  else if events.any fun event => (marks py event).timeout then .timeout
  else if events.any fun event => (marks py event).cancel then .cancelled
  else if events.any fun event => (marks py event).completed then .ok
  else .error

end Events

namespace Outcome

instance : Fintype Outcome where
  elems := {.ok, .noCredential, .error, .timeout, .cancelled}
  complete := by
    intro outcome
    cases outcome <;> decide

def rank : Outcome → Nat
  | .error => 0
  | .ok => 1
  | .cancelled => 2
  | .timeout => 3
  | .noCredential => 4

theorem rank_injective : Function.Injective rank := by
  intro left right
  cases left <;> cases right <;> simp [rank]

instance : LinearOrder Outcome := LinearOrder.lift' rank rank_injective

theorem le_iff {left right : Outcome} : left ≤ right ↔ left.rank ≤ right.rank := Iff.rfl

end Outcome

/-- The outcome that an event alone stands for. -/
def Marks.grade (marks : Marks) : Outcome :=
  if marks.credential then .noCredential
  else if marks.timeout then .timeout
  else if marks.cancel then .cancelled
  else if marks.completed then .ok
  else .error

/-- An event raises the outcome to its own, and never lowers it. -/
theorem nextOutcome_eq (outcome : Outcome) (marks : Marks) :
    nextOutcome outcome marks = max outcome marks.grade := by
  obtain ⟨credential, timeout, cancel, completed⟩ := marks
  revert outcome credential timeout cancel completed
  decide

/-- Marks stand for no more than an outcome where each of them does. -/
theorem Marks.grade_le_iff (marks : Marks) (outcome : Outcome) :
    marks.grade ≤ outcome ↔
      (marks.credential = true → .noCredential ≤ outcome) ∧
        (marks.timeout = true → .timeout ≤ outcome) ∧
        (marks.cancel = true → .cancelled ≤ outcome) ∧
        (marks.completed = true → .ok ≤ outcome) := by
  obtain ⟨credential, timeout, cancel, completed⟩ := marks
  revert outcome credential timeout cancel completed
  decide

section Runs

variable {py : Python}

theorem readLine_eq (state : Classified) (raw : String) :
    readLine py state raw =
      (parsedLine py raw).map fun events => events.foldl (readEvent py) state := by
  rw [readLine, parsedLine]
  by_cases hblank : pyStrip raw = ""
  · simp [hblank]
    rfl
  · simp only [hblank, if_false]
    rcases py.loads (pyStrip raw) with error | value
    · cases error <;> rfl
    · cases value <;> rfl

/-- The loop over the lines is a loop over the objects on them. -/
theorem foldlM_readLine (lines : List String) (state : Classified) :
    lines.foldlM (readLine py) state =
      (lines.mapM (parsedLine py)).map fun events =>
        events.flatten.foldl (readEvent py) state := by
  induction lines generalizing state with
  | nil => rfl
  | cons raw rest ih =>
      rw [List.foldlM_cons, List.mapM_cons, readLine_eq]
      cases parsedLine py raw with
      | error raised => rfl
      | ok events =>
          change List.foldlM (readLine py) (events.foldl (readEvent py) state) rest = _
          rw [ih]
          cases rest.mapM (parsedLine py) with
          | error raised => rfl
          | ok lists =>
              exact congrArg Except.ok (List.foldl_append ..).symm

theorem classify_eq (text : String) :
    classify py text =
      (parsedEvents py text).map fun events => events.foldl (readEvent py) {} := by
  rw [classify, foldlM_readLine, parsedEvents]
  cases (splitlines text).mapM (parsedLine py) <;> rfl

/-- A line with the text of an object. -/
theorem parsedLine_object {raw : String} {event : Event} (hbare : pyStrip raw = raw)
    (hne : raw ≠ "") (hloads : py.loads raw = .ok (.obj event)) :
    parsedLine py raw = .ok [event] := by
  simp [parsedLine, hbare, hne, hloads]

/-- The objects of a text with one on each line. -/
theorem parsedEvents_of_lines {text : String} {lines : List (String × Event)}
    (hlines : splitlines text = lines.map Prod.fst)
    (hread : ∀ line ∈ lines, parsedLine py line.1 = .ok [line.2]) :
    parsedEvents py text = .ok (lines.map Prod.snd) := by
  have hread' : ∀ lines : List (String × Event),
      (∀ line ∈ lines, parsedLine py line.1 = .ok [line.2]) →
        (lines.map Prod.fst).mapM (parsedLine py) =
          .ok (lines.map fun line => [line.2]) := by
    intro lines
    induction lines with
    | nil => exact fun _ => rfl
    | cons line rest ih =>
        intro hread
        rw [List.map_cons, List.mapM_cons, hread line List.mem_cons_self,
          ih fun other hother => hread other (List.mem_cons_of_mem _ hother)]
        rfl
  rw [parsedEvents, hlines, hread' lines hread]
  have hflat : (lines.map fun line => [line.2]).flatten = lines.map Prod.snd := by
    rw [← List.flatMap_def, ← List.map_eq_flatMap]
  exact congrArg Except.ok hflat

theorem parsed_foldl (events : List Event) (state : Classified) :
    (events.foldl (readEvent py) state).parsed = state.parsed + events.length := by
  induction events generalizing state with
  | nil => rfl
  | cons event rest ih =>
      rw [List.foldl_cons, ih, List.length_cons, Nat.add_comm rest.length, ← Nat.add_assoc]
      rfl

/-- The outcome of a run is at most this where every event's is. -/
theorem outcome_foldl_le_iff (events : List Event) (state : Classified)
    (outcome : Outcome) :
    (events.foldl (readEvent py) state).outcome ≤ outcome ↔
      state.outcome ≤ outcome ∧ ∀ event ∈ events, (marks py event).grade ≤ outcome := by
  induction events generalizing state with
  | nil => simp
  | cons event rest ih =>
      rw [List.foldl_cons, ih, readEvent, nextOutcome_eq, max_le_iff, and_assoc,
        List.forall_mem_cons]

/-- The precedence is the highest outcome of the events. -/
theorem outcomeOf_le_iff (events : List Event) (outcome : Outcome) :
    outcomeOf py events ≤ outcome ↔
      ∀ event ∈ events, (marks py event).grade ≤ outcome := by
  have hjoined : outcomeOf py events = Marks.grade
      { credential := events.any fun event => (marks py event).credential
        timeout := events.any fun event => (marks py event).timeout
        cancel := events.any fun event => (marks py event).cancel
        completed := events.any fun event => (marks py event).completed } := rfl
  simp only [hjoined, Marks.grade_le_iff, List.any_eq_true]
  constructor
  · rintro ⟨hcredential, htimeout, hcancel, hcompleted⟩ event hevent
    exact ⟨fun h => hcredential ⟨event, hevent, h⟩, fun h => htimeout ⟨event, hevent, h⟩,
      fun h => hcancel ⟨event, hevent, h⟩, fun h => hcompleted ⟨event, hevent, h⟩⟩
  · intro hevents
    refine ⟨?_, ?_, ?_, ?_⟩
    · rintro ⟨event, hevent, h⟩
      exact (hevents event hevent).1 h
    · rintro ⟨event, hevent, h⟩
      exact (hevents event hevent).2.1 h
    · rintro ⟨event, hevent, h⟩
      exact (hevents event hevent).2.2.1 h
    · rintro ⟨event, hevent, h⟩
      exact (hevents event hevent).2.2.2 h

/-- The loop ends in the outcome of the highest precedence. -/
theorem outcome_foldl (events : List Event) :
    (events.foldl (readEvent py) {}).outcome = outcomeOf py events := by
  refine eq_of_forall_ge_iff fun outcome => ?_
  rw [outcome_foldl_le_iff, outcomeOf_le_iff]
  have hleast : Outcome.error ≤ outcome := by
    rw [Outcome.le_iff]
    exact Nat.zero_le _
  exact and_iff_right hleast

theorem outcomeOf_perm {events events' : List Event} (hperm : events.Perm events') :
    outcomeOf py events = outcomeOf py events' := by
  refine eq_of_forall_ge_iff fun outcome => ?_
  rw [outcomeOf_le_iff, outcomeOf_le_iff]
  simp only [hperm.mem_iff]

end Runs

/-- Outputs with the same objects on their lines, in whichever order, are
classified alike: by the precedence of what the events mention. -/
theorem classify_of_permuted (py : Python) {text text' : String}
    {events events' : List Event} (hevents : parsedEvents py text = .ok events)
    (hevents' : parsedEvents py text' = .ok events') (hperm : events.Perm events') :
    ∃ result result', classify py text = .ok result ∧ classify py text' = .ok result' ∧
      result.outcome = result'.outcome ∧ result.parsed = result'.parsed ∧
      result.outcome = outcomeOf py events := by
  refine ⟨_, _, by rw [classify_eq, hevents]; rfl, by rw [classify_eq, hevents']; rfl,
    ?_, ?_, outcome_foldl events⟩
  · rw [outcome_foldl, outcome_foldl, outcomeOf_perm hperm]
  · rw [parsed_foldl, parsed_foldl, hperm.length_eq]

namespace CodexOutcomeWitness

/-- Python on events with texts as their members. -/
def python : Python where
  loads text := ((Json.parse text).map Except.ok).getD (.error .decode)
  str value := value.text?.getD ""
  lower := String.map Char.toLower

def completed : Event := [("type", .str "completed")]

def denied : Event := [("message", .str "auth")]

def completedLine : String := "\x7b\"type\":\"completed\"\x7d"

def deniedLine : String := "\x7b\"message\":\"auth\"\x7d"

theorem parsedLine_completed : parsedLine python completedLine = .ok [completed] := by
  have htext : (Json.obj completed).toText = completedLine := by rfl
  refine parsedLine_object ?_ (by decide) ?_
  · rw [completedLine, pyStrip, String.toList_ofList]
    rfl
  · rw [← htext]
    simp only [python, Json.parse_toText]
    rfl

theorem parsedLine_denied : parsedLine python deniedLine = .ok [denied] := by
  have htext : (Json.obj denied).toText = deniedLine := by rfl
  refine parsedLine_object ?_ (by decide) ?_
  · rw [deniedLine, pyStrip, String.toList_ofList]
    rfl
  · rw [← htext]
    simp only [python, Json.parse_toText]
    rfl

/-- A run that completes and is denied, and its lines the other way round. -/
theorem classify_of_permuted_denied :
    ∃ result result',
      classify python
          "\x7b\"type\":\"completed\"\x7d\n\x7b\"message\":\"auth\"\x7d" =
          .ok result ∧
        classify python
          "\x7b\"message\":\"auth\"\x7d\n\x7b\"type\":\"completed\"\x7d" =
          .ok result' ∧
        result.outcome = result'.outcome ∧ result.parsed = result'.parsed ∧
        result.outcome = outcomeOf python [completed, denied] :=
  @classify_of_permuted python _ _ _ [denied, completed]
    (@parsedEvents_of_lines python _ [(completedLine, completed), (deniedLine, denied)]
      (by rw [splitlines, String.toList_ofList]; rfl)
      (by simp [parsedLine_completed, parsedLine_denied]))
    (@parsedEvents_of_lines python _ [(deniedLine, denied), (completedLine, completed)]
      (by rw [splitlines, String.toList_ofList]; rfl)
      (by simp [parsedLine_completed, parsedLine_denied]))
    (List.Perm.swap denied completed [])

end CodexOutcomeWitness

end CodexOutcome

end HermesPipeline
