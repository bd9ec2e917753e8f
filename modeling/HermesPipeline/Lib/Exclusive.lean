/-
Names that the threads of a pool take exclusively.  A thread takes at most one
name, in one step and only while nobody has it; then every name that is taken
was taken at the start or belongs to exactly one thread.
-/
import HermesPipeline.Lib.Pool
import Mathlib.Data.List.Induction
import Mathlib.Data.Set.Insert

namespace Lib

namespace Pool

variable {σ τ ι ω N : Type} {rules : Rules σ τ ι ω} {taken : σ → Set N}
  {claim : τ → Option N}

/-- What one step may do to the names. -/
structure Exclusive (rules : Rules σ τ ι ω) (taken : σ → Set N)
    (claim : τ → Option N) : Prop where
  spawn : ∀ call shared, claim (rules.spawn call shared) = none
  fork : ∀ thread shared, rules.fork thread shared = none
  change : ∀ outside shared, taken (rules.change outside shared) = taken shared
  advance : ∀ thread shared,
    (taken (rules.advance thread shared).2 = taken shared ∧
      claim (rules.advance thread shared).1 = claim thread) ∨
    ∃ name, name ∉ taken shared ∧ claim thread = none ∧
      claim (rules.advance thread shared).1 = some name ∧
      taken (rules.advance thread shared).2 = insert name (taken shared)

/-- A thread of the pool has this name. -/
def Holds (claim : τ → Option N) (pool : Pool σ τ) (i : Nat) (name : N) : Prop :=
  (pool.threads[i]?).bind claim = some name

/-- Every taken name was taken at the start or belongs to one thread. -/
structure Claimed (taken : σ → Set N) (claim : τ → Option N) (initial : Set N)
    (pool : Pool σ τ) : Prop where
  taken_iff : ∀ name, name ∈ taken pool.shared ↔
    name ∈ initial ∨ ∃ i, Holds claim pool i name
  fresh : ∀ i name, Holds claim pool i name → name ∉ initial
  one : ∀ i j name, Holds claim pool i name → Holds claim pool j name → i = j

theorem claimed_start {shared : σ} :
    Claimed taken claim (taken shared) ⟨shared, []⟩ where
  taken_iff := by simp [Holds]
  fresh := by simp [Holds]
  one := by simp [Holds]

/-- A started thread has no name. -/
theorem holds_start (hrules : Exclusive rules taken claim) (pool : Pool σ τ)
    (call : ι) (i : Nat) (name : N) :
    Holds claim (step rules pool (.start call)) i name ↔ Holds claim pool i name := by
  simp only [Holds, step, List.getElem?_append]
  by_cases hlt : i < pool.threads.length
  · simp [hlt]
  · have hnone : pool.threads[i]? = none := List.getElem?_eq_none (by omega)
    rw [if_neg hlt, hnone]
    by_cases hlast : i - pool.threads.length = 0
    · simp [hlast, hrules.spawn]
    · have hafter : [rules.spawn call pool.shared][i - pool.threads.length]? =
          none := List.getElem?_eq_none (by simp; omega)
      rw [hafter]

/-- A step of one thread leaves the names of the others alone. -/
theorem holds_advance (hrules : Exclusive rules taken claim) {pool : Pool σ τ}
    {k : Nat} {thread : τ} (hthread : pool.threads[k]? = some thread) (i : Nat)
    (name : N) :
    Holds claim (step rules pool (.advance k)) i name ↔
      if i = k then claim (rules.advance thread pool.shared).1 = some name
      else Holds claim pool i name := by
  have hlt : k < pool.threads.length := by
    by_contra hge
    rw [List.getElem?_eq_none (by omega)] at hthread
    cases hthread
  rw [step_advance rules hthread, hrules.fork]
  simp only [Holds, Option.toList_none, List.append_nil, List.getElem?_set]
  by_cases hik : i = k
  · subst hik
    simp [hlt]
  · simp [hik, Ne.symm hik]

theorem Claimed.step (hrules : Exclusive rules taken claim) {initial : Set N}
    {pool : Pool σ τ} (hpool : Claimed taken claim initial pool)
    (label : Label ι ω) : Claimed taken claim initial (step rules pool label) := by
  cases label with
  | start call =>
      have hholds := holds_start hrules pool call
      refine ⟨?_, ?_, ?_⟩
      · intro name
        simp only [hholds]
        exact hpool.taken_iff name
      · intro i name hname
        exact hpool.fresh i name ((hholds i name).mp hname)
      · intro i j name hi hj
        exact hpool.one i j name ((hholds i name).mp hi) ((hholds j name).mp hj)
  | change outside =>
      refine ⟨?_, hpool.fresh, hpool.one⟩
      intro name
      have hsame := hrules.change outside pool.shared
      change name ∈ taken (rules.change outside pool.shared) ↔ _
      rw [hsame]
      exact hpool.taken_iff name
  | advance k =>
      cases hthread : pool.threads[k]? with
      | none =>
          rw [step_absent rules hthread]
          exact hpool
      | some thread =>
          have hholds := holds_advance hrules hthread
          have hshared : (Pool.step rules pool (.advance k)).shared =
              (rules.advance thread pool.shared).2 := by
            rw [step_advance rules hthread]
          have hold : ∀ name, Holds claim pool k name ↔ claim thread = some name := by
            intro name
            rw [Holds, hthread, Option.bind_some]
          rcases hrules.advance thread pool.shared with
            ⟨htaken, hclaim⟩ | ⟨new, hnew, hnone, hclaim, htaken⟩
          · -- a step that takes nothing
            have hkeep : ∀ i name,
                Holds claim (Pool.step rules pool (.advance k)) i name ↔
                  Holds claim pool i name := by
              intro i name
              rw [hholds]
              split
              · rename_i hik
                rw [hik, hold, hclaim]
              · rfl
            refine ⟨?_, ?_, ?_⟩
            · intro name
              simp only [hshared, htaken, hkeep]
              exact hpool.taken_iff name
            · intro i name hname
              exact hpool.fresh i name ((hkeep i name).mp hname)
            · intro i j name hi hj
              exact hpool.one i j name ((hkeep i name).mp hi) ((hkeep j name).mp hj)
          · -- the thread takes a name that nobody had
            have hfree : ∀ i, ¬ Holds claim pool i new := fun i hi =>
              hnew ((hpool.taken_iff new).mpr (Or.inr ⟨i, hi⟩))
            have hfresh : new ∉ initial := fun hinitial =>
              hnew ((hpool.taken_iff new).mpr (Or.inl hinitial))
            have hholdsNew : ∀ i name,
                Holds claim (Pool.step rules pool (.advance k)) i name ↔
                  (i = k ∧ name = new) ∨ Holds claim pool i name := by
              intro i name
              rw [hholds]
              split
              · rename_i hik
                rw [hik, hold, hnone, hclaim]
                simp [eq_comm]
              · rename_i hik
                simp [hik]
            refine ⟨?_, ?_, ?_⟩
            · intro name
              simp only [hshared, htaken, Set.mem_insert_iff, hholdsNew,
                hpool.taken_iff name]
              constructor
              · rintro (rfl | hinitial | ⟨i, hi⟩)
                · exact Or.inr ⟨k, Or.inl ⟨rfl, rfl⟩⟩
                · exact Or.inl hinitial
                · exact Or.inr ⟨i, Or.inr hi⟩
              · rintro (hinitial | ⟨i, ⟨-, rfl⟩ | hi⟩)
                · exact Or.inr (Or.inl hinitial)
                · exact Or.inl rfl
                · exact Or.inr (Or.inr ⟨i, hi⟩)
            · intro i name hname
              rcases (hholdsNew i name).mp hname with ⟨-, rfl⟩ | hi
              · exact hfresh
              · exact hpool.fresh i name hi
            · intro i j name hi hj
              rcases (hholdsNew i name).mp hi with ⟨rfl, rfl⟩ | hiold
              · rcases (hholdsNew j name).mp hj with ⟨rfl, -⟩ | hjold
                · rfl
                · exact absurd hjold (hfree j)
              · rcases (hholdsNew j name).mp hj with ⟨rfl, rfl⟩ | hjold
                · exact absurd hiold (hfree i)
                · exact hpool.one i j name hiold hjold

/-- In every run a taken name was taken at the start or belongs to exactly one
thread. -/
theorem claimed_run (hrules : Exclusive rules taken claim) (shared : σ)
    (labels : List (Label ι ω)) :
    Claimed taken claim (taken shared) (run rules ⟨shared, []⟩ labels) := by
  induction labels using List.reverseRecOn with
  | nil => exact claimed_start
  | append_singleton labels label ih =>
      rw [run, List.foldl_append]
      exact ih.step hrules label

end Pool

end Lib
