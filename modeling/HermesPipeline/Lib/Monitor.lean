/-
Monitors over the operations of a program.  A monitor keeps a state along the
operations, says in each state which of them may come next, and moves with the
answer.  A program that obeys a monitor keeps to it whatever it is answered.
-/
import HermesPipeline.Lib.Program

namespace Lib

/-- A rule book for the operations of a program. -/
structure Monitor (Op : Type) (Ans : Op → Type) (ε μ : Type) where
  allows : μ → Op → Prop
  next : μ → (op : Op) → Except ε (Ans op) → μ

namespace Program

variable {Op : Type} {Ans : Op → Type} {ε α β μ : Type}
  (monitor : Monitor Op Ans ε μ)

/-- Every operation is allowed when its turn comes, and the program ends in a
state and with an outcome that satisfy the postcondition. -/
def Obeys (post : μ → Except ε α → Prop) : Program Op Ans ε α → μ → Prop
  | done value, s => post s (.ok value)
  | raise error, s => post s (.error error)
  | call op next, s => monitor.allows s op ∧
      ∀ answer, (next answer).Obeys post (monitor.next s op answer)

namespace Obeys

variable {monitor} {post : μ → Except ε α → Prop} {p : Program Op Ans ε α} {s : μ}

theorem mono {weaker : μ → Except ε α → Prop} (hp : p.Obeys monitor post s)
    (himp : ∀ s outcome, post s outcome → weaker s outcome) :
    p.Obeys monitor weaker s := by
  induction p generalizing s with
  | done value => exact himp _ _ hp
  | raise error => exact himp _ _ hp
  | call op next ih => exact ⟨hp.1, fun answer => ih answer (hp.2 answer)⟩

theorem bind {f : α → Program Op Ans ε β} {final : μ → Except ε β → Prop}
    (hp : p.Obeys monitor post s)
    (hok : ∀ s value, post s (.ok value) → (f value).Obeys monitor final s)
    (herror : ∀ s error, post s (.error error) → final s (.error error)) :
    (p.bind f).Obeys monitor final s := by
  induction p generalizing s with
  | done value => exact hok s value hp
  | raise error => exact herror s error hp
  | call op next ih => exact ⟨hp.1, fun answer => ih answer (hp.2 answer)⟩

/-- A part that leaves the state of the monitor as it is. -/
theorem bind_same {f : α → Program Op Ans ε β} {final : μ → Except ε β → Prop}
    (hp : p.Obeys monitor (fun s' _ => s' = s) s)
    (hok : ∀ value, (f value).Obeys monitor final s)
    (herror : ∀ error, final s (.error error)) :
    (p.bind f).Obeys monitor final s := by
  refine hp.bind ?_ ?_
  · rintro _ value rfl
    exact hok value
  · rintro _ error rfl
    exact herror error

theorem ite {c : Prop} [Decidable c] {q : Program Op Ans ε α}
    (hp : p.Obeys monitor post s) (hq : q.Obeys monitor post s) :
    (if c then p else q).Obeys monitor post s := by
  split
  · exact hp
  · exact hq

theorem observe {f : Except ε α → Program Op Ans ε β}
    {final : μ → Except ε β → Prop} (hp : p.Obeys monitor post s)
    (hf : ∀ s outcome, post s outcome → (f outcome).Obeys monitor final s) :
    (p.observe f).Obeys monitor final s := by
  induction p generalizing s with
  | done value => exact hf s _ hp
  | raise error => exact hf s _ hp
  | call op next ih => exact ⟨hp.1, fun answer => ih answer (hp.2 answer)⟩

theorem perform {op : Op} {final : μ → Except ε (Ans op) → Prop}
    (hallows : monitor.allows s op)
    (hfinal : ∀ answer, final (monitor.next s op answer) answer) :
    (perform op : Program Op Ans ε (Ans op)).Obeys monitor final s := by
  refine ⟨hallows, ?_⟩
  intro answer
  cases answer with
  | ok value => exact hfinal (.ok value)
  | error error => exact hfinal (.error error)

/-- Operations that are allowed in a state and leave it. -/
theorem of_calls {allowed : Op → Prop} (hp : p.Calls allowed)
    (hneutral : ∀ op, allowed op → monitor.allows s op ∧
      ∀ answer, monitor.next s op answer = s) :
    p.Obeys monitor (fun s' _ => s' = s) s := by
  induction p with
  | done value => rfl
  | raise error => rfl
  | call op next ih =>
      obtain ⟨hallows, hsame⟩ := hneutral op hp.1
      refine ⟨hallows, ?_⟩
      intro answer
      rw [hsame answer]
      exact ih answer (hp.2 answer)

end Obeys

end Program

end Lib
