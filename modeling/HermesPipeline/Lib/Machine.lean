/-
Deterministic machines that answer every input: runs over input lists, the
answers along them, invariants and simulations.
-/
import Mathlib.Logic.Basic

namespace Lib

variable {σ τ ι ρ : Type}

/-- The state after a list of inputs. -/
def exec (step : σ → ι → ρ × σ) : σ → List ι → σ
  | s, [] => s
  | s, input :: rest => exec step (step s input).2 rest

/-- The answers along a list of inputs. -/
def answers (step : σ → ι → ρ × σ) : σ → List ι → List ρ
  | _, [] => []
  | s, input :: rest => (step s input).1 :: answers step (step s input).2 rest

section Runs

variable (step : σ → ι → ρ × σ)

@[simp] theorem exec_nil (s : σ) : exec step s [] = s := rfl

@[simp] theorem exec_cons (s : σ) (input : ι) (rest : List ι) :
    exec step s (input :: rest) = exec step (step s input).2 rest := rfl

theorem exec_append (s : σ) (first second : List ι) :
    exec step s (first ++ second) = exec step (exec step s first) second := by
  induction first generalizing s with
  | nil => rfl
  | cons input rest ih => exact ih (step s input).2

theorem exec_concat (s : σ) (inputs : List ι) (input : ι) :
    exec step s (inputs ++ [input]) = (step (exec step s inputs) input).2 :=
  exec_append step s inputs [input]

theorem answers_append (s : σ) (first second : List ι) :
    answers step s (first ++ second) =
      answers step s first ++ answers step (exec step s first) second := by
  induction first generalizing s with
  | nil => rfl
  | cons input rest ih =>
      simp only [List.cons_append, answers, exec_cons]
      rw [ih]

theorem length_answers (s : σ) (inputs : List ι) :
    (answers step s inputs).length = inputs.length := by
  induction inputs generalizing s with
  | nil => rfl
  | cons input rest ih => simp [answers, ih]

/-- The inputs of a run with the answers they got. -/
def trace (s : σ) (inputs : List ι) : List (ι × ρ) :=
  inputs.zip (answers step s inputs)

theorem trace_concat (s : σ) (inputs : List ι) (input : ι) :
    trace step s (inputs ++ [input]) =
      trace step s inputs ++ [(input, (step (exec step s inputs) input).1)] := by
  rw [trace, answers_append, List.zip_append (length_answers step s inputs).symm]
  rfl

variable {step}

/-- What every step keeps, every run keeps. -/
theorem exec_invariant {P : σ → Prop}
    (hstep : ∀ s input, P s → P (step s input).2) {s : σ} (hs : P s)
    (inputs : List ι) : P (exec step s inputs) := by
  induction inputs generalizing s with
  | nil => exact hs
  | cons input rest ih => exact ih (hstep s input hs)

end Runs

section Histories

variable (next : σ → ι → σ)

/-- The state satisfies the property before every input and at the end. -/
def Always (P : σ → Prop) : σ → List ι → Prop
  | s, [] => P s
  | s, input :: rest => P s ∧ Always P (next s input) rest

/-- Every input is taken in a state that meets the condition. -/
def EachStep (C : σ → ι → Prop) : σ → List ι → Prop
  | _, [] => True
  | s, input :: rest => C s input ∧ EachStep C (next s input) rest

/-- A condition that can be checked can be checked along a run. -/
def decidableEachStep (C : σ → ι → Prop) [∀ s input, Decidable (C s input)] :
    (s : σ) → (inputs : List ι) → Decidable (EachStep next C s inputs)
  | _, [] => .isTrue trivial
  | s, input :: rest =>
      have := decidableEachStep C (next s input) rest
      inferInstanceAs (Decidable (_ ∧ _))

instance (C : σ → ι → Prop) [∀ s input, Decidable (C s input)] (s : σ)
    (inputs : List ι) : Decidable (EachStep next C s inputs) :=
  decidableEachStep next C s inputs

variable {next} {P I : σ → Prop} {C : σ → ι → Prop}

theorem Always.head {s : σ} {inputs : List ι} (h : Always next P s inputs) :
    P s := by
  cases inputs with
  | nil => exact h
  | cons input rest => exact h.1

theorem always_iff_initial {s : σ} {inputs : List ι} :
    Always next P s inputs ↔
      ∀ before after, inputs = before ++ after → P (before.foldl next s) := by
  induction inputs generalizing s with
  | nil =>
      constructor
      · intro h before after hsplit
        obtain ⟨rfl, -⟩ := List.append_eq_nil_iff.mp hsplit.symm
        exact h
      · intro h
        exact h [] [] rfl
  | cons input rest ih =>
      constructor
      · rintro ⟨hs, hrest⟩ before after hsplit
        cases before with
        | nil => exact hs
        | cons other before =>
            obtain ⟨rfl, htail⟩ := List.cons_eq_cons.mp hsplit
            exact ih.mp hrest before after htail
      · intro h
        refine ⟨h [] (input :: rest) rfl, ih.mpr ?_⟩
        intro before after hsplit
        exact h (input :: before) after (by rw [hsplit, List.cons_append])

theorem eachStep_append {s : σ} {before after : List ι} :
    EachStep next C s (before ++ after) ↔
      EachStep next C s before ∧ EachStep next C (before.foldl next s) after := by
  induction before generalizing s with
  | nil => simp [EachStep]
  | cons input rest ih => simp [EachStep, ih, and_assoc]

/-- What every step keeps under the condition, the whole run keeps. -/
theorem EachStep.foldl (hkeep : ∀ s input, I s → C s input → I (next s input))
    {s : σ} {inputs : List ι} (hs : I s) (hsteps : EachStep next C s inputs) :
    I (inputs.foldl next s) := by
  induction inputs generalizing s with
  | nil => exact hs
  | cons input rest ih => exact ih (hkeep s input hs hsteps.1) hsteps.2

/-- The condition of the last step. -/
theorem EachStep.last {s : σ} {before : List ι} {input : ι}
    (hsteps : EachStep next C s (before ++ [input])) :
    C (before.foldl next s) input :=
  (eachStep_append.mp hsteps).2.1

/-- Every step has a property that the invariant and the condition give it. -/
theorem EachStep.imp {D : σ → ι → Prop}
    (hkeep : ∀ s input, I s → C s input → I (next s input))
    (himp : ∀ s input, I s → C s input → D s input) {s : σ} {inputs : List ι}
    (hs : I s) (hsteps : EachStep next C s inputs) : EachStep next D s inputs := by
  induction inputs generalizing s with
  | nil => trivial
  | cons input rest ih =>
      exact ⟨himp s input hs hsteps.1, ih (hkeep s input hs hsteps.1) hsteps.2⟩

/-- An invariant that every step keeps as long as it meets the condition. -/
theorem always_of_eachStep (hkeep : ∀ s input, I s → C s input → I (next s input))
    (hprop : ∀ s, I s → P s) {s : σ} {inputs : List ι} (hs : I s)
    (hsteps : EachStep next C s inputs) : Always next P s inputs := by
  induction inputs generalizing s with
  | nil => exact hprop s hs
  | cons input rest ih =>
      exact ⟨hprop s hs, ih (hkeep s input hs hsteps.1) hsteps.2⟩

/-- The property holds along a run exactly when every step meets the condition:
the condition keeps the invariant, and a state with the property is only
reached by a step that met it. -/
theorem always_iff_eachStep
    (hkeep : ∀ s input, I s → C s input → I (next s input))
    (hprop : ∀ s, I s → P s)
    (hforced : ∀ s input, I s → P (next s input) → C s input) {s : σ}
    {inputs : List ι} (hs : I s) :
    Always next P s inputs ↔ EachStep next C s inputs := by
  refine ⟨?_, always_of_eachStep hkeep hprop hs⟩
  intro halways
  induction inputs generalizing s with
  | nil => trivial
  | cons input rest ih =>
      have hstep := hforced s input hs halways.2.head
      exact ⟨hstep, ih (hkeep s input hs hstep) halways.2⟩

end Histories

end Lib
