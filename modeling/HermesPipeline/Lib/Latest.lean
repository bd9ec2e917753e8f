/-
The latest value in a list of observations: every observation may carry a
value, and the last one that does decides.
-/
import Mathlib.Data.List.Induction

namespace Lib

variable {α β : Type}

/-- The value of the last element that has one. -/
def latest (f : α → Option β) (items : List α) : Option β :=
  (items.filterMap f).getLast?

@[simp] theorem latest_nil (f : α → Option β) : latest f [] = none := rfl

@[simp] theorem latest_concat (f : α → Option β) (items : List α) (item : α) :
    latest f (items ++ [item]) = (f item).or (latest f items) := by
  simp only [latest, List.filterMap_append, List.filterMap_cons,
    List.filterMap_nil]
  cases f item with
  | none => simp
  | some value => simp

theorem latest_eq_none_iff (f : α → Option β) (items : List α) :
    latest f items = none ↔ ∀ item ∈ items, f item = none := by
  simp [latest]

/-- Elements that never carry a value can be left out. -/
theorem latest_filter {f : α → Option β} {keep : α → Bool} {items : List α}
    (hkeep : ∀ item ∈ items, keep item = false → f item = none) :
    latest f (items.filter keep) = latest f items := by
  induction items using List.reverseRecOn with
  | nil => rfl
  | append_singleton items item ih =>
      have hinit : latest f (items.filter keep) = latest f items := by
        apply ih
        intro other hother
        exact hkeep other (List.mem_append_left _ hother)
      rw [List.filter_append, latest_concat, ← hinit]
      by_cases hitem : keep item = true
      · have hlast : [item].filter keep = [item] := by simp [hitem]
        rw [hlast, latest_concat]
      · have hnone : f item = none := by
          apply hkeep item (by simp)
          simpa using hitem
        simp [hitem, hnone]

/-- The latest value is the value of the last element exactly when that one
carries a value or none does. -/
theorem latest_eq_getLast?_iff (f : α → Option β) (items : List α) :
    latest f items = items.getLast?.bind f ↔
      (items.getLast?.bind f = none → ∀ item ∈ items, f item = none) := by
  induction items using List.reverseRecOn with
  | nil => simp
  | append_singleton items item ih =>
      rw [latest_concat]
      simp only [List.getLast?_append, List.getLast?_singleton, Option.some_or,
        Option.bind_some]
      cases hitem : f item with
      | some value => simp
      | none =>
          simp only [Option.none_or, latest_eq_none_iff, List.mem_append,
            List.mem_singleton, true_implies]
          constructor
          · intro hnone other hother
            rcases hother with hother | rfl
            · exact hnone other hother
            · exact hitem
          · intro hnone other hother
            exact hnone other (Or.inl hother)

/-- When every element carries a value, the last one decides. -/
theorem latest_eq_getLast? {f : α → Option β} {items : List α}
    (hall : ∀ item ∈ items, f item ≠ none) :
    latest f items = items.getLast?.bind f := by
  apply (latest_eq_getLast?_iff f items).mpr
  intro hnone item hitem
  cases hlast : items.getLast? with
  | none =>
      rw [List.getLast?_eq_none_iff] at hlast
      simp [hlast] at hitem
  | some last =>
      rw [hlast, Option.bind_some] at hnone
      exact absurd hnone (hall last (List.mem_of_getLast? hlast))

end Lib
