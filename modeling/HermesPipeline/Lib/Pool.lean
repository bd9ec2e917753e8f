/-
Threads over a shared state.  A schedule starts threads, lets them take one
step each in any order, and lets the surroundings change the shared state; a
label that names no thread does nothing.
-/
import Mathlib.Data.List.Basic

namespace Lib

/-- A shared state and the threads started over it, oldest first. -/
structure Pool (σ τ : Type) where
  shared : σ
  threads : List τ

/-- One scheduling decision. -/
inductive Pool.Label (ι ω : Type)
  | start (call : ι)
  | advance (thread : Nat)
  | change (outside : ω)

/-- What the threads and the surroundings do. -/
structure Pool.Rules (σ τ ι ω : Type) where
  /-- The thread a call starts as; it may read the shared state. -/
  spawn : ι → σ → τ
  /-- One step of a thread. -/
  advance : τ → σ → τ × σ
  /-- The thread that a step of a thread starts, if any. -/
  fork : τ → σ → Option τ
  /-- A change from outside. -/
  change : ω → σ → σ

namespace Pool

variable {σ τ ι ω : Type} (rules : Rules σ τ ι ω)

def step (pool : Pool σ τ) : Label ι ω → Pool σ τ
  | .start call =>
      { pool with threads := pool.threads ++ [rules.spawn call pool.shared] }
  | .advance i =>
      match pool.threads[i]? with
      | none => pool
      | some thread =>
          let moved := rules.advance thread pool.shared
          ⟨moved.2, pool.threads.set i moved.1 ++
            (rules.fork thread pool.shared).toList⟩
  | .change outside => { pool with shared := rules.change outside pool.shared }

/-- The pool after a schedule. -/
def run (pool : Pool σ τ) (labels : List (Label ι ω)) : Pool σ τ :=
  labels.foldl (step rules) pool

theorem step_advance {pool : Pool σ τ} {i : Nat} {thread : τ}
    (hthread : pool.threads[i]? = some thread) :
    step rules pool (.advance i : Label ι ω) =
      ⟨(rules.advance thread pool.shared).2,
        pool.threads.set i (rules.advance thread pool.shared).1 ++
          (rules.fork thread pool.shared).toList⟩ := by
  simp only [step, hthread]

/-- A label that names no thread does nothing. -/
theorem step_absent {pool : Pool σ τ} {i : Nat}
    (habsent : pool.threads[i]? = none) :
    step rules pool (.advance i : Label ι ω) = pool := by
  simp only [step, habsent]

/-- Where the thread at a place comes from. -/
inductive Origin (pool : Pool σ τ) (l : Label ι ω) (k : Nat) (thread : τ) : Prop
  | kept (others : l ≠ .advance k) (same : pool.threads[k]? = some thread)
  | started (call : ι) (label : l = .start call) (place : k = pool.threads.length)
      (new : thread = rules.spawn call pool.shared)
  | moved (old : τ) (label : l = .advance k) (before : pool.threads[k]? = some old)
      (new : thread = (rules.advance old pool.shared).1)
  | forked (i : Nat) (old : τ) (label : l = .advance i)
      (before : pool.threads[i]? = some old) (place : k = pool.threads.length)
      (new : rules.fork old pool.shared = some thread)

/-- The place of an element after at most one more was appended. -/
theorem getElem?_append_toList {threads : List τ} {last : Option τ} {k : Nat}
    {thread : τ} (hthread : (threads ++ last.toList)[k]? = some thread) :
    threads[k]? = some thread ∨ k = threads.length ∧ last = some thread := by
  by_cases hk : k < threads.length
  · rw [List.getElem?_append_left hk] at hthread
    exact Or.inl hthread
  · rw [List.getElem?_append_right (by omega)] at hthread
    cases last with
    | none => simp at hthread
    | some new =>
        rw [Option.toList_some, List.getElem?_singleton] at hthread
        split at hthread
        · exact Or.inr ⟨by omega, hthread⟩
        · cases hthread

theorem origin {pool : Pool σ τ} {l : Label ι ω} {k : Nat} {thread : τ}
    (hthread : (step rules pool l).threads[k]? = some thread) :
    Origin rules pool l k thread := by
  cases l with
  | start call =>
      have happended : (pool.threads ++
          (some (rules.spawn call pool.shared)).toList)[k]? = some thread := hthread
      rcases getElem?_append_toList happended with hold | ⟨hplace, hnew⟩
      · exact .kept (fun h => by cases h) hold
      · exact .started call rfl hplace (Option.some.inj hnew).symm
  | advance i =>
      cases hold : pool.threads[i]? with
      | none =>
          rw [step_absent rules hold] at hthread
          refine .kept ?_ hthread
          rintro ⟨⟩
          rw [hold] at hthread
          cases hthread
      | some old =>
          rw [step_advance rules hold] at hthread
          rcases getElem?_append_toList hthread with hset | ⟨hplace, hchild⟩
          · by_cases hk : i = k
            · subst hk
              obtain ⟨hlength, -⟩ := List.getElem?_eq_some_iff.mp hold
              rw [List.getElem?_set_self hlength] at hset
              exact .moved old rfl hold (Option.some.inj hset).symm
            · rw [List.getElem?_set_ne hk] at hset
              exact .kept (fun h => hk (Label.advance.inj h)) hset
          · rw [List.length_set] at hplace
            exact .forked i old rfl hold hplace hchild
  | change outside => exact .kept (fun h => by cases h) hthread

/-- A property of each thread holds after a step when it holds of the thread
that was started, moved or forked, and the others keep it. -/
theorem threads_step {I : σ → τ → Prop} {pool : Pool σ τ} {l : Label ι ω}
    (hstart : ∀ call, l = .start call →
      I pool.shared (rules.spawn call pool.shared))
    (hmoved : ∀ i thread, l = .advance i → pool.threads[i]? = some thread →
      I (rules.advance thread pool.shared).2 (rules.advance thread pool.shared).1)
    (hforked : ∀ i thread, l = .advance i → pool.threads[i]? = some thread →
      ∀ child, rules.fork thread pool.shared = some child →
        I (rules.advance thread pool.shared).2 child)
    (hkept : ∀ k thread, l ≠ .advance k → pool.threads[k]? = some thread →
      I (step rules pool l).shared thread) :
    ∀ thread ∈ (step rules pool l).threads,
      I (step rules pool l).shared thread := by
  intro thread hthread
  obtain ⟨k, hk⟩ := List.getElem?_of_mem hthread
  cases origin rules hk with
  | kept others same => exact hkept k thread others same
  | started call label place new =>
      subst label new
      exact hstart call rfl
  | moved old label before new =>
      subst label new
      rw [step_advance rules before]
      exact hmoved k old rfl before
  | forked i old label before place new =>
      subst label
      rw [step_advance rules before]
      exact hforked i old rfl before thread new

/-- Any two threads are related after a step when they were before and the
thread that was started, moved or forked is related to the others. -/
theorem pairs_step {R : τ → τ → Prop} (hsymm : ∀ a b, R a b → R b a)
    {pool : Pool σ τ} {l : Label ι ω}
    (hpairs : ∀ (i j : Nat) a b, i ≠ j → pool.threads[i]? = some a →
      pool.threads[j]? = some b → R a b)
    (hstart : ∀ call (k : Nat) a, l = .start call → pool.threads[k]? = some a →
      R a (rules.spawn call pool.shared))
    (hmoved : ∀ (i k : Nat) old a, l = .advance i → pool.threads[i]? = some old →
      k ≠ i → pool.threads[k]? = some a → R a (rules.advance old pool.shared).1)
    (hforked : ∀ (i k : Nat) old a child, l = .advance i →
      pool.threads[i]? = some old → rules.fork old pool.shared = some child →
      k ≠ i → pool.threads[k]? = some a → R a child)
    (hparent : ∀ (i : Nat) old child, l = .advance i →
      pool.threads[i]? = some old → rules.fork old pool.shared = some child →
      R (rules.advance old pool.shared).1 child) :
    ∀ (i j : Nat) a b, i ≠ j → (step rules pool l).threads[i]? = some a →
      (step rules pool l).threads[j]? = some b → R a b := by
  intro i j a b hij ha hb
  cases origin rules ha with
  | kept others same =>
      cases origin rules hb with
      | kept others' same' => exact hpairs i j a b hij same same'
      | started call label place new =>
          subst new
          exact hstart call i a label same
      | moved old label before new =>
          subst new
          exact hmoved j i old a label before hij same
      | forked k old label before place new =>
          exact hforked k i old a b label before new
            (fun h => others (by rw [label, h])) same
  | started call label place new =>
      subst label new
      cases origin rules hb with
      | kept others' same' => exact hsymm _ _ (hstart call j b rfl same')
      | started call' label' place' new' => omega
      | moved old label' before new' => cases label'
      | forked k old label' before place' new' => cases label'
  | moved old label before new =>
      subst label new
      cases origin rules hb with
      | kept others' same' =>
          exact hsymm _ _ (hmoved i j old b rfl before (Ne.symm hij) same')
      | started call' label' place' new' => cases label'
      | moved old' label' before' new' =>
          cases label'
          exact absurd rfl hij
      | forked k old' label' before' place' new' =>
          cases label'
          rw [before] at before'
          cases before'
          exact hparent i old b rfl before new'
  | forked k old label before place new =>
      subst label
      cases origin rules hb with
      | kept others' same' =>
          exact hsymm _ _ (hforked k j old b a rfl before new
            (fun h => others' (by rw [h])) same')
      | started call' label' place' new' => cases label'
      | moved old' label' before' new' =>
          cases label'
          rw [before] at before'
          cases before'
          subst new'
          exact hsymm _ _ (hparent j old a rfl before new)
      | forked k' old' label' before' place' new' => omega

end Pool

end Lib
