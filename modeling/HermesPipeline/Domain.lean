/-
The pipeline aggregate evaluator: three statuses, two intake decisions and the
station records that may follow a confirmed requirement.
-/
import HermesPipeline.Lib.Json
import HermesPipeline.Lib.Keyed

namespace HermesPipeline

open Lib

inductive Station
  | prd | architecture | development | verify | approval
deriving Repr, DecidableEq

def Station.value : Station → String
  | .prd => "prd"
  | .architecture => "architecture"
  | .development => "development"
  | .verify => "verify"
  | .approval => "approval"

inductive Status
  | unconfirmed | opened | rejected
deriving Repr, DecidableEq

def Status.value : Status → String
  | .unconfirmed => "UNCONFIRMED"
  | .opened => "OPEN"
  | .rejected => "REJECTED"

/-- The statuses a stored text can be read back as. -/
def Status.ofValue? (text : String) : Option Status :=
  if text = "UNCONFIRMED" then some .unconfirmed
  else if text = "OPEN" then some .opened
  else if text = "REJECTED" then some .rejected
  else none

@[simp] theorem Status.ofValue?_value (status : Status) :
    Status.ofValue? status.value = some status := by
  cases status <;> decide

theorem Status.ofValue?_eq_some {text : String} {status : Status}
    (hread : Status.ofValue? text = some status) : text = status.value := by
  unfold Status.ofValue? at hread
  split at hread
  · next htext =>
      cases hread
      exact htext
  · split at hread
    · next htext =>
        cases hread
        exact htext
    · split at hread
      · next htext =>
          cases hread
          exact htext
      · cases hread

structure PipelineState where
  status : Status
  revision : Nat
  text : String
deriving Repr, DecidableEq

inductive DomainCommand
  | confirmRequirement (text : String)
  | rejectRequirement (reason : String)
  | recordStation (station : Station) (fields : Dict String String)

inductive DomainEvent
  | requirementConfirmed (text : String)
  | requirementRejected (reason : String)
  | stationRecorded (station : Station) (fields : Dict String String)

inductive Outcome
  | accepted | emptyRequirement | invalidTransition
deriving Repr, DecidableEq

structure PipelineResult where
  state : PipelineState
  outcome : Outcome
  event : Option DomainEvent

namespace PipelineState

/-- Confirm and reject share their checks and differ in the event they make. -/
def applyIntake (state : PipelineState) (text : String)
    (accept : String → PipelineResult) : PipelineResult :=
  if pyStrip text = "" then ⟨state, .emptyRequirement, none⟩
  else if state.status ≠ .unconfirmed then ⟨state, .invalidTransition, none⟩
  else accept (pyStrip text)

def apply (state : PipelineState) : DomainCommand → PipelineResult
  | .recordStation station fields =>
      if state.status ≠ .opened then ⟨state, .invalidTransition, none⟩
      else
        ⟨⟨.opened, state.revision + 1, state.text⟩, .accepted,
          some (.stationRecorded station fields)⟩
  | .confirmRequirement text =>
      state.applyIntake text fun payload =>
        ⟨⟨.opened, state.revision + 1, payload⟩, .accepted,
          some (.requirementConfirmed payload)⟩
  | .rejectRequirement reason =>
      state.applyIntake reason fun payload =>
        ⟨⟨.rejected, state.revision + 1, state.text⟩, .accepted,
          some (.requirementRejected payload)⟩

/-- What an accepted command can have done, guards included. -/
theorem apply_accepted_cases {state next : PipelineState}
    {command : DomainCommand} {event : Option DomainEvent}
    (happly : state.apply command = ⟨next, .accepted, event⟩) :
    (∃ station fields, state.status = .opened ∧
        event = some (.stationRecorded station fields) ∧
        next = ⟨.opened, state.revision + 1, state.text⟩) ∨
      (∃ text, state.status = .unconfirmed ∧
        event = some (.requirementConfirmed text) ∧
        next = ⟨.opened, state.revision + 1, text⟩) ∨
      (∃ reason, state.status = .unconfirmed ∧
        event = some (.requirementRejected reason) ∧
        next = ⟨.rejected, state.revision + 1, state.text⟩) := by
  cases command with
  | recordStation station fields =>
      by_cases hstatus : state.status = .opened
      · simp only [apply, hstatus, ne_eq, not_true_eq_false, ↓reduceIte,
          PipelineResult.mk.injEq, true_and] at happly
        exact Or.inl ⟨station, fields, hstatus, happly.2.symm, happly.1.symm⟩
      · simp [apply, hstatus] at happly
  | confirmRequirement text =>
      by_cases hempty : pyStrip text = ""
      · simp [apply, applyIntake, hempty] at happly
      · by_cases hstatus : state.status = .unconfirmed
        · simp only [apply, applyIntake, hempty, hstatus, ne_eq,
            not_true_eq_false, ↓reduceIte, PipelineResult.mk.injEq,
            true_and] at happly
          exact Or.inr (Or.inl ⟨_, hstatus, happly.2.symm, happly.1.symm⟩)
        · simp [apply, applyIntake, hempty, hstatus] at happly
  | rejectRequirement reason =>
      by_cases hempty : pyStrip reason = ""
      · simp [apply, applyIntake, hempty] at happly
      · by_cases hstatus : state.status = .unconfirmed
        · simp only [apply, applyIntake, hempty, hstatus, ne_eq,
            not_true_eq_false, ↓reduceIte, PipelineResult.mk.injEq,
            true_and] at happly
          exact Or.inr (Or.inr ⟨_, hstatus, happly.2.symm, happly.1.symm⟩)
        · simp [apply, applyIntake, hempty, hstatus] at happly

theorem apply_accepted_revision {state next : PipelineState}
    {command : DomainCommand} {event : Option DomainEvent}
    (happly : state.apply command = ⟨next, .accepted, event⟩) :
    next.revision = state.revision + 1 := by
  rcases apply_accepted_cases happly with
    ⟨_, _, _, _, rfl⟩ | ⟨_, _, _, rfl⟩ | ⟨_, _, _, rfl⟩ <;> rfl

end PipelineState

end HermesPipeline
