/-
The stage leases of the spike: one row a name, with a fencing generation.  The
generation of a name counts how often it was acquired, so a result is accepted
from at most one holder, and never again once the name was acquired anew.
-/
import HermesPipeline.KernelSqlite
import HermesPipeline.Lib.Machine
import Mathlib.Data.List.Induction

namespace HermesPipeline

open Lib

namespace LeaseStore

/-- A lease is held for one fixed duration. -/
def leaseDurationSeconds : Int := 60

/-- One lease row: holder, generation and expiry. -/
structure Lease where
  holder : String
  generation : Int
  expiresAt : Int
deriving Repr, DecidableEq

inductive LeaseOutcome
  | acquired | renewed | rejectedStale | rejectedExpired
deriving Repr, DecidableEq

def LeaseOutcome.value : LeaseOutcome → String
  | .acquired => "ACQUIRED"
  | .renewed => "RENEWED"
  | .rejectedStale => "REJECTED_STALE"
  | .rejectedExpired => "REJECTED_EXPIRED"

/-- The verdict of one lease operation. -/
structure LeaseVerdict where
  outcome : LeaseOutcome
  generation : Int
  holder : String
deriving Repr, DecidableEq

/-- `LeaseFailure`, with its one message. -/
structure LeaseFailure where
  message : String := "lease persistence unavailable"
deriving Repr, DecidableEq

/-- The table `spike_leases`, keyed by `lease_name`. -/
abbrev LeaseTable := Dict String Lease

/-- What a call finds around it: the reading of the injected clock, which may
raise, and whether the database driver raises. -/
structure Moment where
  clock : Option Int
  driverRaises : Bool := false
deriving Repr, DecidableEq

/-- The integers that a statement binds. -/
def bindable (values : List Int) : Bool := values.all fitsInt64

/-- The statements of `acquire`; `none` when one of them raises. -/
def acquireRow (table : LeaseTable) (name holder : String) (now : Int) :
    Option (LeaseVerdict × LeaseTable) :=
  let expiresAt := now + leaseDurationSeconds
  match table.get? name with
  | none =>
      if bindable [expiresAt] then
        some (⟨.acquired, 1, holder⟩, table.set name ⟨holder, 1, expiresAt⟩)
      else none
  | some existing =>
      if existing.holder = holder ∧ now < existing.expiresAt then
        some (⟨.renewed, existing.generation, holder⟩, table)
      else
        -- Takeover: the generation fences the stale holder.
        let newGeneration := existing.generation + 1
        if bindable [newGeneration, expiresAt] then
          some (⟨.acquired, newGeneration, holder⟩,
            table.set name ⟨holder, newGeneration, expiresAt⟩)
        else none

/-- Acquire the named lease, or take it over with a new generation. -/
def acquire (table : LeaseTable) (name holder : String) (moment : Moment) :
    Except LeaseFailure LeaseVerdict × LeaseTable :=
  match moment.clock with
  | none => (.error {}, table)
  | some now =>
      if moment.driverRaises then (.error {}, table)
      else
        match acquireRow table name holder now with
        | none => (.error {}, table)
        | some (verdict, stored) => (.ok verdict, stored)

/-- The verdict for a result that carries a fencing generation. -/
def submitResult (table : LeaseTable) (name holder : String) (generation : Int)
    (moment : Moment) : Except LeaseFailure LeaseVerdict :=
  match moment.clock with
  | none => .error {}
  | some now =>
      if moment.driverRaises then .error {}
      else
        match table.get? name with
        | none => .ok ⟨.rejectedExpired, generation, holder⟩
        | some current =>
            if current.holder ≠ holder ∨ generation ≠ current.generation then
              .ok ⟨.rejectedStale, current.generation, holder⟩
            else if current.expiresAt ≤ now then
              .ok ⟨.rejectedExpired, current.generation, holder⟩
            else .ok ⟨.renewed, current.generation, holder⟩

inductive LeaseCall
  | acquire (name holder : String)
  | submitResult (name holder : String) (generation : Int)
deriving Repr, DecidableEq

/-- The lease name that a call names. -/
def LeaseCall.name : LeaseCall → String
  | .acquire name _ => name
  | .submitResult name _ _ => name

/-- One call at the moment at which it is made. -/
def step (table : LeaseTable) (call : LeaseCall × Moment) :
    Except LeaseFailure LeaseVerdict × LeaseTable :=
  match call.1 with
  | .acquire name holder => acquire table name holder call.2
  | .submitResult name holder generation =>
      (submitResult table name holder generation call.2, table)

/-- The table after the calls, on an empty database. -/
def after (calls : List (LeaseCall × Moment)) : LeaseTable :=
  exec step .empty calls

/-- The stored generation of a name; 0 when it was never acquired. -/
def generationOf (name : String) (table : LeaseTable) : Int :=
  ((table.get? name).map Lease.generation).getD 0

/-- The answer says that the name was acquired. -/
def acquiredAnswer (name : String)
    (entry : (LeaseCall × Moment) × Except LeaseFailure LeaseVerdict) : Bool :=
  match entry.2 with
  | .ok verdict => verdict.outcome = .acquired && entry.1.1.name = name
  | .error _ => false

/-- How often a name was acquired along the calls. -/
def acquisitions (name : String) (calls : List (LeaseCall × Moment)) : Nat :=
  (trace step .empty calls).countP (acquiredAnswer name)

/-- A result of the pair is accepted at the moment. -/
def Accepts (table : LeaseTable) (name holder : String) (generation : Int)
    (moment : Moment) : Prop :=
  ∃ verdict, submitResult table name holder generation moment = .ok verdict ∧
    verdict.outcome = .renewed

section Operations

variable {table : LeaseTable} {name holder : String} {moment : Moment}
  {verdict : LeaseVerdict}

/-- What a call of `acquire` can do: fail or renew without a change, or store
the next generation of its name under its holder. -/
theorem acquire_cases (table : LeaseTable) (name holder : String)
    (moment : Moment) :
    acquire table name holder moment = (.error {}, table) ∨
      (∃ lease, table.get? name = some lease ∧ lease.holder = holder ∧
        acquire table name holder moment =
          (.ok ⟨.renewed, lease.generation, holder⟩, table)) ∨
      ∃ expiresAt, acquire table name holder moment =
        (.ok ⟨.acquired, generationOf name table + 1, holder⟩,
          table.set name ⟨holder, generationOf name table + 1, expiresAt⟩) := by
  cases hclock : moment.clock with
  | none => exact .inl (by simp [acquire, hclock])
  | some now =>
      cases hdriver : moment.driverRaises with
      | true => exact .inl (by simp [acquire, hclock, hdriver])
      | false =>
          cases hrow : table.get? name with
          | none =>
              by_cases hbind : bindable [now + leaseDurationSeconds] = true
              · refine .inr (.inr ⟨now + leaseDurationSeconds, ?_⟩)
                simp [acquire, hclock, hdriver, acquireRow, hrow, hbind,
                  generationOf]
              · exact .inl (by
                  simp [acquire, hclock, hdriver, acquireRow, hrow, hbind])
          | some lease =>
              by_cases hheld : lease.holder = holder ∧ now < lease.expiresAt
              · refine .inr (.inl ⟨lease, rfl, hheld.1, ?_⟩)
                simp [acquire, hclock, hdriver, acquireRow, hrow, hheld]
              · by_cases hbind : bindable [lease.generation + 1,
                    now + leaseDurationSeconds] = true
                · refine .inr (.inr ⟨now + leaseDurationSeconds, ?_⟩)
                  simp [acquire, hclock, hdriver, acquireRow, hrow, hheld, hbind,
                    generationOf]
                · exact .inl (by
                    simp [acquire, hclock, hdriver, acquireRow, hrow, hheld,
                      hbind])

/-- A result is accepted only from the stored holder under the stored
generation. -/
theorem Accepts.stored {generation : Int}
    (haccepts : Accepts table name holder generation moment) :
    ∃ lease, table.get? name = some lease ∧ lease.holder = holder ∧
      lease.generation = generation := by
  obtain ⟨verdict, hanswer, houtcome⟩ := haccepts
  cases hclock : moment.clock with
  | none => simp [submitResult, hclock] at hanswer
  | some now =>
      cases hdriver : moment.driverRaises with
      | true => simp [submitResult, hclock, hdriver] at hanswer
      | false =>
          cases hrow : table.get? name with
          | none =>
              simp only [submitResult, hclock, hdriver, hrow] at hanswer
              cases hanswer
              cases houtcome
          | some lease =>
              by_cases hstale : lease.holder ≠ holder ∨
                  generation ≠ lease.generation
              · simp only [submitResult, hclock, hdriver, hrow, if_pos hstale]
                  at hanswer
                cases hanswer
                cases houtcome
              · rw [not_or, not_not, not_not] at hstale
                exact ⟨lease, rfl, hstale.1, hstale.2.symm⟩

@[simp] theorem generationOf_set_self (table : LeaseTable) (name : String)
    (lease : Lease) : generationOf name (table.set name lease) = lease.generation := by
  simp [generationOf]

theorem generationOf_set_of_ne (table : LeaseTable) {name other : String}
    (lease : Lease) (hne : other ≠ name) :
    generationOf other (table.set name lease) = generationOf other table := by
  simp [generationOf, Dict.get?_set_of_ne table lease hne]

/-- A call leaves the leases of other names alone. -/
theorem step_frame (table : LeaseTable) (call : LeaseCall × Moment)
    {other : String} (hne : other ≠ call.1.name) :
    (step table call).2.get? other = table.get? other := by
  obtain ⟨call, moment⟩ := call
  cases call with
  | submitResult name holder generation => rfl
  | acquire name holder =>
      rcases acquire_cases table name holder moment with
        hfails | ⟨lease, -, -, hrenewed⟩ | ⟨expiresAt, hacquired⟩
      · simp [step, hfails]
      · simp [step, hrenewed]
      · simp only [step, hacquired]
        exact Dict.get?_set_of_ne table _ hne

/-- A call that was not answered with an acquisition changes nothing. -/
theorem step_unchanged (table : LeaseTable) (call : LeaseCall × Moment)
    (hnot : ∀ verdict, (step table call).1 = .ok verdict →
      verdict.outcome ≠ .acquired) : (step table call).2 = table := by
  obtain ⟨call, moment⟩ := call
  cases call with
  | submitResult name holder generation => rfl
  | acquire name holder =>
      rcases acquire_cases table name holder moment with
        hfails | ⟨lease, -, -, hrenewed⟩ | ⟨expiresAt, hacquired⟩
      · simp [step, hfails]
      · simp [step, hrenewed]
      · have hanswer : (step table (.acquire name holder, moment)).1 =
            .ok ⟨.acquired, generationOf name table + 1, holder⟩ := by
          simp only [step, hacquired]
        exact absurd rfl (hnot _ hanswer)

/-- An acquisition stores the next generation of the name. -/
theorem acquire_acquired
    (hanswer : (acquire table name holder moment).1 = .ok verdict)
    (houtcome : verdict.outcome = .acquired) :
    verdict = ⟨.acquired, generationOf name table + 1, holder⟩ ∧
      ∃ lease, (acquire table name holder moment).2.get? name = some lease ∧
        lease.holder = holder ∧
        lease.generation = generationOf name table + 1 := by
  rcases acquire_cases table name holder moment with
    hfails | ⟨lease, -, -, hrenewed⟩ | ⟨expiresAt, hacquired⟩
  · rw [hfails] at hanswer
    cases hanswer
  · rw [hrenewed] at hanswer
    cases hanswer
    cases houtcome
  · rw [hacquired] at hanswer ⊢
    cases hanswer
    exact ⟨rfl, _, Dict.get?_set_self table name _, rfl, rfl⟩

/-- A result of `submit_result` never says that the name was acquired. -/
theorem submitResult_outcome {generation : Int}
    (hanswer : submitResult table name holder generation moment = .ok verdict) :
    verdict.outcome ≠ .acquired := by
  unfold submitResult at hanswer
  repeat' split at hanswer
  all_goals cases hanswer
  all_goals simp

/-- One step adds to the generation of a name exactly the acquisition that it
answers. -/
theorem generationOf_step (table : LeaseTable) (call : LeaseCall × Moment)
    (name : String) :
    generationOf name (step table call).2 = generationOf name table +
      if acquiredAnswer name (call, (step table call).1) then 1 else 0 := by
  obtain ⟨call, moment⟩ := call
  cases call with
  | submitResult other holder generation =>
      have hnot : acquiredAnswer name ((.submitResult other holder generation,
          moment), submitResult table other holder generation moment) = false := by
        unfold acquiredAnswer
        cases hanswer : submitResult table other holder generation moment with
        | error _ => rfl
        | ok verdict => simp [submitResult_outcome hanswer]
      simp [step, hnot]
  | acquire other holder =>
      rcases acquire_cases table other holder moment with
        hfails | ⟨lease, -, -, hrenewed⟩ | ⟨expiresAt, hacquired⟩
      · simp [step, hfails, acquiredAnswer]
      · simp [step, hrenewed, acquiredAnswer]
      · simp only [step, hacquired, acquiredAnswer, LeaseCall.name]
        by_cases hname : other = name
        · subst hname
          simp
        · rw [generationOf_set_of_ne _ _ (Ne.symm hname)]
          simp [hname]

end Operations

section Runs

variable (calls more : List (LeaseCall × Moment)) (name : String)

theorem after_append :
    after (calls ++ more) = exec step (after calls) more :=
  exec_append step .empty calls more

/-- The generation of a name is the number of its acquisitions. -/
theorem generationOf_after :
    generationOf name (after calls) = acquisitions name calls := by
  induction calls using List.reverseRecOn with
  | nil => rfl
  | append_singleton calls call ih =>
      rw [after, exec_concat, generationOf_step]
      change generationOf name (after calls) + _ = _
      rw [ih, acquisitions, acquisitions, trace_concat, List.countP_append,
        List.countP_singleton, Int.natCast_add]
      change _ + (if acquiredAnswer name (call, (step (after calls) call).1) then
        (1 : Int) else 0) = _ + ((if acquiredAnswer name
          (call, (step (after calls) call).1) then 1 else 0 : Nat) : Int)
      split <;> rfl

theorem acquisitions_le_append :
    acquisitions name calls ≤ acquisitions name (calls ++ more) := by
  induction more using List.reverseRecOn with
  | nil => simp
  | append_singleton more call ih =>
      rw [← List.append_assoc]
      unfold acquisitions at ih ⊢
      rw [trace_concat, List.countP_append]
      exact ih.trans (Nat.le_add_right _ _)

theorem generationOf_le_append :
    generationOf name (after calls) ≤ generationOf name (after (calls ++ more)) := by
  rw [generationOf_after, generationOf_after]
  exact_mod_cast acquisitions_le_append calls more name

end Runs

/-- Fencing, on every run of calls at any readings of the clock. -/
theorem lease_fencing (calls : List (LeaseCall × Moment)) (name : String) :
    -- the generation counts the acquisitions and never decreases
    (generationOf name (after calls) = acquisitions name calls ∧
      ∀ more, generationOf name (after calls) ≤
        generationOf name (after (calls ++ more))) ∧
    -- every acquisition takes it up by exactly one, nothing else changes it
    (∀ holder moment verdict,
      (acquire (after calls) name holder moment).1 = .ok verdict →
      verdict.outcome = .acquired →
        verdict.generation = generationOf name (after calls) + 1 ∧
        verdict.holder = holder ∧
        generationOf name (after (calls ++ [(.acquire name holder, moment)])) =
          verdict.generation) ∧
    (∀ call, (∀ verdict, (step (after calls) call).1 = .ok verdict →
        verdict.outcome ≠ .acquired) → after (calls ++ [call]) = after calls) ∧
    -- at most one pair is accepted
    (∀ holder generation moment holder' generation' moment',
      Accepts (after calls) name holder generation moment →
      Accepts (after calls) name holder' generation' moment' →
        holder = holder' ∧ generation = generation') ∧
    -- a pair that was current when the name was acquired anew is never accepted
    (∀ lease holder moment verdict more moment',
      (after calls).get? name = some lease →
      (acquire (after calls) name holder moment).1 = .ok verdict →
      verdict.outcome = .acquired →
        ¬ Accepts (after (calls ++ (.acquire name holder, moment) :: more)) name
          lease.holder lease.generation moment') ∧
    -- calls on one name leave the other leases alone
    ∀ call other, other ≠ call.1.name →
      (after (calls ++ [call])).get? other = (after calls).get? other := by
  have hnext : ∀ call, after (calls ++ [call]) = (step (after calls) call).2 :=
    fun call => exec_concat step .empty calls call
  refine ⟨⟨generationOf_after calls name,
    fun more => generationOf_le_append calls more name⟩, ?_, ?_, ?_, ?_, ?_⟩
  · intro holder moment verdict hanswer houtcome
    obtain ⟨hverdict, lease, hlease, -, hgeneration⟩ :=
      acquire_acquired hanswer houtcome
    have hstored : generationOf name (after (calls ++
        [(.acquire name holder, moment)])) = generationOf name (after calls) + 1 := by
      rw [hnext]
      simp only [generationOf, step, hlease, Option.map_some, Option.getD_some,
        hgeneration]
    rw [hstored, hverdict]
    exact ⟨rfl, rfl, rfl⟩
  · intro call hnot
    rw [hnext]
    exact step_unchanged (after calls) call hnot
  · intro holder generation moment holder' generation' moment' hfirst hsecond
    obtain ⟨lease, hlease, rfl, rfl⟩ := hfirst.stored
    obtain ⟨lease', hlease', rfl, rfl⟩ := hsecond.stored
    rw [hlease, Option.some.injEq] at hlease'
    subst hlease'
    exact ⟨rfl, rfl⟩
  · intro lease holder moment verdict more moment' hlease hanswer houtcome haccepts
    obtain ⟨stored, hstored, -, hsame⟩ := haccepts.stored
    -- the acquisition already stored a higher generation
    have hgrew := generationOf_le_append (calls ++ [(.acquire name holder, moment)])
      more name
    rw [List.append_assoc, List.singleton_append] at hgrew
    have hnew : generationOf name (after (calls ++
        [(.acquire name holder, moment)])) = lease.generation + 1 := by
      obtain ⟨-, row, hrow, -, hgeneration⟩ := acquire_acquired hanswer houtcome
      have hrow' : (step (after calls) (.acquire name holder, moment)).2.get? name =
          some row := hrow
      rw [hnext]
      simp only [generationOf, hrow', hlease, Option.map_some, Option.getD_some]
        at hgeneration ⊢
      exact hgeneration
    have hlast : generationOf name (after (calls ++
        (.acquire name holder, moment) :: more)) = lease.generation := by
      simp only [generationOf, hstored, Option.map_some, Option.getD_some, hsame]
    omega
  · intro call other hne
    rw [hnext]
    exact step_frame (after calls) call hne

end LeaseStore

end HermesPipeline
