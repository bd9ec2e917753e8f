/-
Noninterference of a deterministic machine by unwinding.  Two runs are compared:
one with every input, one from which the hidden inputs are deleted.  A relation
that hidden inputs cannot break and kept inputs preserve makes the answers of
the observed inputs equal.
-/
import HermesPipeline.Lib.Machine

namespace Lib

variable {σ ι ρ : Type} (step : σ → ι → ρ × σ)

/-- The observed inputs of a run with their answers. -/
def observations (observed : ι → Bool) (s : σ) (inputs : List ι) :
    List (ι × ρ) :=
  (trace step s inputs).filter fun entry => observed entry.1

variable {observed : ι → Bool}

@[simp] theorem observations_nil (s : σ) :
    observations step observed s [] = [] := rfl

theorem observations_cons (s : σ) (input : ι) (rest : List ι) :
    observations step observed s (input :: rest) =
      (if observed input then [(input, (step s input).1)] else []) ++
        observations step observed (step s input).2 rest := by
  cases hseen : observed input <;>
    simp [observations, trace, answers, hseen]

/-- The conditions of the unwinding argument on the inputs of a run. -/
structure Unwinds (allowed : ι → Prop) (kept observed : ι → Bool)
    (agree : σ → σ → Prop) : Prop where
  /-- A hidden input is not visible in the state. -/
  hides : ∀ s t input, allowed input → kept input = false → agree s t →
    agree (step s input).2 t
  /-- A kept input takes states that agree to states that agree. -/
  keeps : ∀ s t input, allowed input → kept input = true → agree s t →
    agree (step s input).2 (step t input).2
  /-- An observed input answers the same in states that agree. -/
  answers_eq : ∀ s t input, allowed input → observed input = true →
    agree s t → (step s input).1 = (step t input).1
  kept_of_observed : ∀ input, observed input = true → kept input = true

variable {step} {allowed : ι → Prop} {kept : ι → Bool} {agree : σ → σ → Prop}

/-- Deleting the hidden inputs of a run leaves its observations. -/
theorem Unwinds.observations_eq (h : Unwinds step allowed kept observed agree)
    {inputs : List ι} (hallowed : ∀ input ∈ inputs, allowed input) {s t : σ}
    (hagree : agree s t) :
    observations step observed s inputs =
      observations step observed t (inputs.filter kept) := by
  induction inputs generalizing s t with
  | nil => rfl
  | cons input rest ih =>
      have hinput := hallowed input List.mem_cons_self
      have hrest : ∀ other ∈ rest, allowed other := by
        intro other hother
        exact hallowed other (List.mem_cons_of_mem input hother)
      rw [observations_cons]
      cases hkept : kept input with
      | false =>
          have hunseen : observed input = false := by
            cases hseen : observed input with
            | false => rfl
            | true => rw [h.kept_of_observed input hseen] at hkept; cases hkept
          rw [List.filter_cons_of_neg (by simp [hkept]), hunseen]
          exact ih hrest (h.hides s t input hinput hkept hagree)
      | true =>
          rw [List.filter_cons_of_pos hkept, observations_cons,
            ih hrest (h.keeps s t input hinput hkept hagree)]
          cases hseen : observed input with
          | false => rfl
          | true => rw [h.answers_eq s t input hinput hseen hagree]

end Lib
