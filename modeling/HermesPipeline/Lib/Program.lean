/-
Programs over a signature of operations.  A program calls one operation at a
time and continues with its answer, so the same text can be run to the end
against a store or interleaved, call by call, with other programs.
-/
import Mathlib.Logic.Basic

namespace Lib

/-- A first computation and what follows it succeed one after the other. -/
theorem bind_eq_ok {ε α β : Type} (first : Except ε α) (next : α → Except ε β)
    (result : β) :
    (first >>= next) = .ok result ↔
      ∃ value, first = .ok value ∧ next value = .ok result := by
  cases first with
  | error error =>
      constructor
      · intro h
        cases h
      · rintro ⟨_, hvalue, _⟩
        cases hvalue
  | ok value =>
      constructor
      · exact fun h => ⟨value, rfl, h⟩
      · rintro ⟨_, hvalue, h⟩
        cases hvalue
        exact h

/-- A program that performs operations one after the other, may raise an
error, and returns a value.  An operation answers with a value or an error. -/
inductive Program (Op : Type) (Ans : Op → Type) (ε : Type) (α : Type)
  | done (value : α)
  | raise (error : ε)
  | call (op : Op) (next : Except ε (Ans op) → Program Op Ans ε α)

/-- What executes a single operation against a state. -/
abbrev Handler (Op : Type) (Ans : Op → Type) (ε : Type) (σ : Type) :=
  (op : Op) → σ → Except ε (Ans op) × σ

namespace Program

variable {Op : Type} {Ans : Op → Type} {ε σ τ α β : Type}

def bind (p : Program Op Ans ε α) (f : α → Program Op Ans ε β) :
    Program Op Ans ε β :=
  match p with
  | done value => f value
  | raise error => raise error
  | call op next => call op fun answer => (next answer).bind f

instance : Monad (Program Op Ans ε) where
  pure := done
  bind := bind

/-- Continue with a reported outcome: return the value or raise the error. -/
def ofExcept : Except ε α → Program Op Ans ε α
  | .ok value => done value
  | .error error => raise error

/-- Perform one operation; its error is raised. -/
def perform (op : Op) : Program Op Ans ε (Ans op) := call op ofExcept

/-- Run a program and hand its outcome, returned or raised, to the
continuation. -/
def observe (p : Program Op Ans ε α)
    (f : Except ε α → Program Op Ans ε β) : Program Op Ans ε β :=
  match p with
  | done value => f (.ok value)
  | raise error => f (.error error)
  | call op next => call op fun answer => (next answer).observe f

/-- Run the clean-up after the program, however it ended.  An error of the
clean-up replaces the outcome. -/
def withCleanup (p : Program Op Ans ε α) (cleanup : Program Op Ans ε Unit) :
    Program Op Ans ε α :=
  p.observe fun outcome => cleanup.bind fun _ => ofExcept outcome

@[simp] theorem pure_eq (value : α) :
    (pure value : Program Op Ans ε α) = done value := rfl

@[simp] theorem bind_eq (p : Program Op Ans ε α) (f : α → Program Op Ans ε β) :
    (p >>= f) = p.bind f := rfl

@[simp] theorem done_bind (value : α) (f : α → Program Op Ans ε β) :
    (done value : Program Op Ans ε α).bind f = f value := rfl

@[simp] theorem raise_bind (error : ε) (f : α → Program Op Ans ε β) :
    (raise error : Program Op Ans ε α).bind f = raise error := rfl

@[simp] theorem call_bind (op : Op)
    (next : Except ε (Ans op) → Program Op Ans ε α)
    (f : α → Program Op Ans ε β) :
    (call op next).bind f = call op fun answer => (next answer).bind f := rfl

theorem bind_assoc {γ : Type} (p : Program Op Ans ε α)
    (f : α → Program Op Ans ε β) (g : β → Program Op Ans ε γ) :
    (p.bind f).bind g = p.bind fun value => (f value).bind g := by
  induction p with
  | done value => rfl
  | raise error => rfl
  | call op next ih =>
      simp only [call_bind]
      congr 1
      funext answer
      exact ih answer

/-- Run a program to its end. -/
def run (h : Handler Op Ans ε σ) : Program Op Ans ε α → σ → Except ε α × σ
  | done value, s => (.ok value, s)
  | raise error, s => (.error error, s)
  | call op next, s => run h (next (h op s).1) (h op s).2

section Run

variable (h : Handler Op Ans ε σ)

@[simp] theorem run_done (value : α) (s : σ) :
    (done value : Program Op Ans ε α).run h s = (.ok value, s) := rfl

@[simp] theorem run_raise (error : ε) (s : σ) :
    (raise error : Program Op Ans ε α).run h s = (.error error, s) := rfl

@[simp] theorem run_call (op : Op)
    (next : Except ε (Ans op) → Program Op Ans ε α) (s : σ) :
    (call op next).run h s = (next (h op s).1).run h (h op s).2 := rfl

theorem run_bind (p : Program Op Ans ε α) (f : α → Program Op Ans ε β) (s : σ) :
    (p.bind f).run h s =
      match p.run h s with
      | (.ok value, s') => (f value).run h s'
      | (.error error, s') => (.error error, s') := by
  induction p generalizing s with
  | done value => rfl
  | raise error => rfl
  | call op next ih => exact ih (h op s).1 (h op s).2

theorem run_bind_of_ok {h : Handler Op Ans ε σ} {p : Program Op Ans ε α}
    {f : α → Program Op Ans ε β} {s s' : σ} {value : α}
    (hp : p.run h s = (.ok value, s')) : (p.bind f).run h s = (f value).run h s' := by
  rw [run_bind, hp]

theorem run_bind_of_error {h : Handler Op Ans ε σ} {p : Program Op Ans ε α}
    {f : α → Program Op Ans ε β} {s s' : σ} {error : ε}
    (hp : p.run h s = (.error error, s')) :
    (p.bind f).run h s = (.error error, s') := by
  rw [run_bind, hp]

/-- Two programs that returned have both returned. -/
theorem run_bind_eq_ok {h : Handler Op Ans ε σ} {p : Program Op Ans ε α}
    {f : α → Program Op Ans ε β} {s s' : σ} {value : β}
    (hrun : (p.bind f).run h s = (.ok value, s')) :
    ∃ first s₁, p.run h s = (.ok first, s₁) ∧
      (f first).run h s₁ = (.ok value, s') := by
  rw [run_bind] at hrun
  rcases hfirst : p.run h s with ⟨error | first, s₁⟩
  · rw [hfirst] at hrun
    cases (Prod.mk.inj hrun).1
  · rw [hfirst] at hrun
    exact ⟨first, s₁, rfl, hrun⟩

theorem run_observe (p : Program Op Ans ε α)
    (f : Except ε α → Program Op Ans ε β) (s : σ) :
    (p.observe f).run h s = (f (p.run h s).1).run h (p.run h s).2 := by
  induction p generalizing s with
  | done value => rfl
  | raise error => rfl
  | call op next ih => exact ih (h op s).1 (h op s).2

/-- Relabelling the returned value changes neither the state nor an error. -/
@[simp] theorem run_bind_done (p : Program Op Ans ε α) (f : α → β) (s : σ) :
    (p.bind fun value => done (f value)).run h s =
      ((p.run h s).1.map f, (p.run h s).2) := by
  rw [run_bind]
  rcases p.run h s with ⟨_ | value, s'⟩ <;> rfl

@[simp] theorem run_ofExcept (outcome : Except ε α) (s : σ) :
    (ofExcept outcome : Program Op Ans ε α).run h s = (outcome, s) := by
  cases outcome <;> rfl

@[simp] theorem run_perform (op : Op) (s : σ) :
    (perform op : Program Op Ans ε (Ans op)).run h s = h op s := by
  simp [perform]

end Run

/-- Every operation the program can reach, whatever it is answered, is
allowed. -/
def Calls (allowed : Op → Prop) : Program Op Ans ε α → Prop
  | done _ => True
  | raise _ => True
  | call op next => allowed op ∧ ∀ answer, (next answer).Calls allowed

theorem calls_all (p : Program Op Ans ε α) : p.Calls fun _ => True := by
  induction p with
  | done value => trivial
  | raise error => trivial
  | call op next ih => exact ⟨trivial, ih⟩

theorem Calls.mono {first second : Op → Prop} {p : Program Op Ans ε α}
    (hp : p.Calls first) (himp : ∀ op, first op → second op) :
    p.Calls second := by
  induction p with
  | done value => trivial
  | raise error => trivial
  | call op next ih =>
      exact ⟨himp op hp.1, fun answer => ih answer (hp.2 answer)⟩

theorem Calls.bind {allowed : Op → Prop} {p : Program Op Ans ε α}
    {f : α → Program Op Ans ε β} (hp : p.Calls allowed)
    (hf : ∀ value, (f value).Calls allowed) : (p.bind f).Calls allowed := by
  induction p with
  | done value => exact hf value
  | raise error => trivial
  | call op next ih => exact ⟨hp.1, fun answer => ih answer (hp.2 answer)⟩

theorem Calls.observe {allowed : Op → Prop} {p : Program Op Ans ε α}
    {f : Except ε α → Program Op Ans ε β} (hp : p.Calls allowed)
    (hf : ∀ outcome, (f outcome).Calls allowed) :
    (p.observe f).Calls allowed := by
  induction p with
  | done value => exact hf (.ok value)
  | raise error => exact hf (.error error)
  | call op next ih => exact ⟨hp.1, fun answer => ih answer (hp.2 answer)⟩

theorem Calls.ite {allowed : Op → Prop} {c : Prop} [Decidable c]
    {p q : Program Op Ans ε α} (hp : p.Calls allowed) (hq : q.Calls allowed) :
    (if c then p else q).Calls allowed := by
  split
  · exact hp
  · exact hq

theorem calls_ofExcept {allowed : Op → Prop} (outcome : Except ε α) :
    (ofExcept outcome : Program Op Ans ε α).Calls allowed := by
  cases outcome <;> trivial

theorem calls_perform {allowed : Op → Prop} {op : Op} (hop : allowed op) :
    (perform op : Program Op Ans ε (Ans op)).Calls allowed :=
  ⟨hop, fun answer => calls_ofExcept answer⟩

/-- A property that every allowed operation keeps survives the whole run. -/
theorem Calls.run_preserves {h : Handler Op Ans ε σ} {allowed : Op → Prop}
    {P : σ → Prop} {p : Program Op Ans ε α} (hp : p.Calls allowed)
    (hstep : ∀ op s, allowed op → P s → P (h op s).2) {s : σ} (hs : P s) :
    P (p.run h s).2 := by
  induction p generalizing s with
  | done value => exact hs
  | raise error => exact hs
  | call op next ih =>
      exact ih (h op s).1 (hp.2 _) (hstep op s hp.1 hs)

/-- However it ends, a run of the program relates the state before it to the
state after it. -/
def Moves (h : Handler Op Ans ε σ) (R : σ → σ → Prop)
    (p : Program Op Ans ε α) : Prop :=
  ∀ s, R s (p.run h s).2

section Moves

variable {h : Handler Op Ans ε σ} {R : σ → σ → Prop}

theorem moves_done (hrefl : ∀ s, R s s) (value : α) :
    (done value : Program Op Ans ε α).Moves h R := hrefl

theorem moves_perform {op : Op} (hop : ∀ s, R s (h op s).2) :
    (perform op : Program Op Ans ε (Ans op)).Moves h R := by
  intro s
  rw [run_perform]
  exact hop s

theorem Moves.bind (htrans : ∀ {a b c}, R a b → R b c → R a c)
    {p : Program Op Ans ε α} {f : α → Program Op Ans ε β}
    (hp : p.Moves h R) (hf : ∀ value, (f value).Moves h R) :
    (p.bind f).Moves h R := by
  intro s
  have hfirst := hp s
  rcases hrun : p.run h s with ⟨error | value, s'⟩
  · rw [run_bind_of_error hrun]
    rw [hrun] at hfirst
    exact hfirst
  · rw [run_bind_of_ok hrun]
    rw [hrun] at hfirst
    exact htrans hfirst (hf value s')

theorem Moves.of_run {p : Program Op Ans ε α} (hp : p.Moves h R) {s s' : σ}
    {outcome : Except ε α} (hrun : p.run h s = (outcome, s')) : R s s' := by
  have hmoved := hp s
  rw [hrun] at hmoved
  exact hmoved

/-- What follows a program moves on from where the program ended. -/
theorem Moves.following (hrefl : ∀ s, R s s) {p : Program Op Ans ε α}
    {f : α → Program Op Ans ε β} (hf : ∀ value, (f value).Moves h R) (s : σ) :
    R (p.run h s).2 ((p.bind f).run h s).2 := by
  rcases hrun : p.run h s with ⟨error | value, s'⟩
  · rw [run_bind_of_error hrun]
    exact hrefl s'
  · rw [run_bind_of_ok hrun]
    exact hf value s'

theorem Moves.ite {c : Prop} [Decidable c] {p q : Program Op Ans ε α}
    (hp : p.Moves h R) (hq : q.Moves h R) : (if c then p else q).Moves h R := by
  split
  · exact hp
  · exact hq

end Moves

/-- Along the run from this state, every operation is performed in a state
that satisfies the guard. -/
def Guarded (h : Handler Op Ans ε σ) (guard : Op → σ → Prop) :
    Program Op Ans ε α → σ → Prop
  | done _, _ => True
  | raise _, _ => True
  | call op next, s =>
      guard op s ∧ Guarded h guard (next (h op s).1) (h op s).2

/-- Forward simulation.  If the two handlers agree on every guarded operation
and keep the relation, they agree on every guarded run. -/
theorem run_simulates {h : Handler Op Ans ε σ} {h' : Handler Op Ans ε τ}
    {guard : Op → σ → Prop} {R : σ → τ → Prop}
    (hstep : ∀ op s t, guard op s → R s t →
      (h op s).1 = (h' op t).1 ∧ R (h op s).2 (h' op t).2)
    {p : Program Op Ans ε α} {s : σ} {t : τ}
    (hp : p.Guarded h guard s) (hst : R s t) :
    (p.run h s).1 = (p.run h' t).1 ∧ R (p.run h s).2 (p.run h' t).2 := by
  induction p generalizing s t with
  | done value => exact ⟨rfl, hst⟩
  | raise error => exact ⟨rfl, hst⟩
  | call op next ih =>
      obtain ⟨hanswer, hnext⟩ := hstep op s t hp.1 hst
      rw [run_call, run_call, ← hanswer]
      exact ih _ hp.2 hnext

/-- Operations that are allowed in every state guard every run. -/
theorem Calls.guarded {h : Handler Op Ans ε σ} {allowed : Op → Prop}
    {guard : Op → σ → Prop} {p : Program Op Ans ε α} (hp : p.Calls allowed)
    (hguard : ∀ op s, allowed op → guard op s) (s : σ) :
    p.Guarded h guard s := by
  induction p generalizing s with
  | done value => trivial
  | raise error => trivial
  | call op next ih => exact ⟨hguard op s hp.1, ih _ (hp.2 _) _⟩

/-- A property that every guarded operation keeps survives the guarded run. -/
theorem Guarded.run_preserves {h : Handler Op Ans ε σ} {guard : Op → σ → Prop}
    {P : σ → Prop} {p : Program Op Ans ε α} {s : σ} (hp : p.Guarded h guard s)
    (hstep : ∀ op s, guard op s → P s → P (h op s).2) (hs : P s) :
    P (p.run h s).2 := by
  induction p generalizing s with
  | done value => exact hs
  | raise error => exact hs
  | call op next ih => exact ih _ hp.2 (hstep op s hp.1 hs)

theorem Guarded.and {h : Handler Op Ans ε σ} {first second : Op → σ → Prop}
    {p : Program Op Ans ε α} {s : σ} (hfirst : p.Guarded h first s)
    (hsecond : p.Guarded h second s) :
    p.Guarded h (fun op s => first op s ∧ second op s) s := by
  induction p generalizing s with
  | done value => trivial
  | raise error => trivial
  | call op next ih =>
      exact ⟨⟨hfirst.1, hsecond.1⟩, ih _ hfirst.2 hsecond.2⟩

theorem Guarded.bind {h : Handler Op Ans ε σ} {guard : Op → σ → Prop}
    {p : Program Op Ans ε α} {f : α → Program Op Ans ε β} {s : σ}
    (hp : p.Guarded h guard s) (hf : ∀ value s', (f value).Guarded h guard s') :
    (p.bind f).Guarded h guard s := by
  induction p generalizing s with
  | done value => exact hf value s
  | raise error => trivial
  | call op next ih => exact ⟨hp.1, ih _ hp.2⟩

/-- A guard that can be checked can be checked along a run. -/
def decidableGuarded (h : Handler Op Ans ε σ) (guard : Op → σ → Prop)
    [∀ op s, Decidable (guard op s)] :
    (p : Program Op Ans ε α) → (s : σ) → Decidable (p.Guarded h guard s)
  | done _, _ => .isTrue trivial
  | raise _, _ => .isTrue trivial
  | call op next, s =>
      have := decidableGuarded h guard (next (h op s).1) (h op s).2
      inferInstanceAs (Decidable (_ ∧ _))

instance (h : Handler Op Ans ε σ) (guard : Op → σ → Prop)
    [∀ op s, Decidable (guard op s)] (p : Program Op Ans ε α) (s : σ) :
    Decidable (p.Guarded h guard s) :=
  decidableGuarded h guard p s

/-- Every value the program can return, whatever it is answered, satisfies the
property. -/
def Returns (Q : α → Prop) : Program Op Ans ε α → Prop
  | done value => Q value
  | raise _ => True
  | call _ next => ∀ answer, (next answer).Returns Q

theorem Returns.bind {Q : β → Prop} {p : Program Op Ans ε α}
    {f : α → Program Op Ans ε β} (hf : ∀ value, (f value).Returns Q) :
    (p.bind f).Returns Q := by
  induction p with
  | done value => exact hf value
  | raise error => trivial
  | call op next ih => exact ih

theorem Returns.run {h : Handler Op Ans ε σ} {Q : α → Prop}
    {p : Program Op Ans ε α} (hp : p.Returns Q) {s s' : σ} {value : α}
    (hrun : p.run h s = (.ok value, s')) : Q value := by
  induction p generalizing s with
  | done result =>
      obtain ⟨hvalue, -⟩ := Prod.mk.inj hrun
      rw [← Except.ok.inj hvalue]
      exact hp
  | raise error => cases (Prod.mk.inj hrun).1
  | call op next ih => exact ih _ (hp _) hrun

/-- The run from this state performs the operation in that state. -/
def Performs (h : Handler Op Ans ε σ) (op : Op) (t : σ) :
    Program Op Ans ε α → σ → Prop
  | done _, _ => False
  | raise _, _ => False
  | call first next, s =>
      (first = op ∧ s = t) ∨ Performs h op t (next (h first s).1) (h first s).2

section Performs

variable {h : Handler Op Ans ε σ} {op : Op} {s t : σ}

theorem Calls.performs {allowed : Op → Prop} {p : Program Op Ans ε α}
    (hp : p.Calls allowed) (hperforms : p.Performs h op t s) : allowed op := by
  induction p generalizing s with
  | done value => exact hperforms.elim
  | raise error => exact hperforms.elim
  | call first next ih =>
      rcases hperforms with ⟨rfl, -⟩ | hlater
      · exact hp.1
      · exact ih _ (hp.2 _) hlater

/-- What a run of two programs performs, the first one performs or the second
one does, from where the first one returned. -/
theorem Performs.of_bind {p : Program Op Ans ε α} {f : α → Program Op Ans ε β}
    (hperforms : (p.bind f).Performs h op t s) :
    p.Performs h op t s ∨
      ∃ value s', p.run h s = (.ok value, s') ∧ (f value).Performs h op t s' := by
  induction p generalizing s with
  | done value => exact .inr ⟨value, s, rfl, hperforms⟩
  | raise error => exact hperforms.elim
  | call first next ih =>
      rcases hperforms with hhere | hlater
      · exact .inl (.inl hhere)
      · rcases ih _ hlater with hfirst | hsecond
        · exact .inl (.inr hfirst)
        · exact .inr hsecond

theorem Performs.of_observe {p : Program Op Ans ε α}
    {f : Except ε α → Program Op Ans ε β}
    (hperforms : (p.observe f).Performs h op t s) :
    p.Performs h op t s ∨
      (f (p.run h s).1).Performs h op t (p.run h s).2 := by
  induction p generalizing s with
  | done value => exact .inr hperforms
  | raise error => exact .inr hperforms
  | call first next ih =>
      rcases hperforms with hhere | hlater
      · exact .inl (.inl hhere)
      · rcases ih _ hlater with hfirst | hsecond
        · exact .inl (.inr hfirst)
        · exact .inr hsecond

/-- What every operation keeps holds wherever one is performed. -/
theorem Performs.invariant {P : σ → Prop} (hstep : ∀ op s, P s → P (h op s).2)
    {p : Program Op Ans ε α} (hperforms : p.Performs h op t s) (hs : P s) :
    P t := by
  induction p generalizing s with
  | done value => exact hperforms.elim
  | raise error => exact hperforms.elim
  | call first next ih =>
      rcases hperforms with ⟨-, rfl⟩ | hlater
      · exact hs
      · exact ih _ hlater (hstep first s hs)

/-- A run that loses a property performs an operation that loses it. -/
theorem exists_performs_of_lost {I : σ → Prop} {p : Program Op Ans ε α}
    (hbefore : I s) (hafter : ¬ I (p.run h s).2) :
    ∃ op t, p.Performs h op t s ∧ I t ∧ ¬ I (h op t).2 := by
  induction p generalizing s with
  | done value => exact absurd hbefore hafter
  | raise error => exact absurd hbefore hafter
  | call first next ih =>
      by_cases hnext : I (h first s).2
      · obtain ⟨op, t, hperforms, hlost⟩ := ih _ hnext hafter
        exact ⟨op, t, .inr hperforms, hlost⟩
      · exact ⟨first, s, .inl ⟨rfl, rfl⟩, hbefore, hnext⟩

end Performs

/-- Perform the next operation of a program. -/
def advance (h : Handler Op Ans ε σ) :
    Program Op Ans ε α → σ → Program Op Ans ε α × σ
  | done value, s => (done value, s)
  | raise error, s => (raise error, s)
  | call op next, s => (next (h op s).1, (h op s).2)

end Program

end Lib
