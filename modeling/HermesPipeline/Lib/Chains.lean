/-
Walks along a relation.  Without a cycle a walk is no longer than the list of places
it can leave; on a cycle it never ends.
-/
import Mathlib.Data.List.Perm.Subperm
import Mathlib.Data.Set.Finite.Basic
import Mathlib.Logic.Relation

namespace Lib

universe u

namespace Chains

open Relation

variable {A : Type u} {R : A → A → Prop}

def Acyclic (R : A → A → Prop) : Prop := ∀ a, ¬ TransGen R a a

/-- A walk that starts nowhere twice is as short as the places it can leave. -/
theorem Acyclic.length_le (hacyclic : Acyclic R) {domain walk : List A}
    (hwalk : walk.Pairwise (TransGen R)) (hdomain : ∀ a ∈ walk, a ∈ domain) :
    walk.length ≤ domain.length := by
  have hnodup : walk.Nodup := by
    refine hwalk.imp ?_
    rintro a b hab rfl
    exact hacyclic a hab
  exact (hnodup.subperm hdomain).length_le

/-- A place on a cycle is followed by another one. -/
theorem next_on_cycle {a : A} (hcycle : TransGen R a a) : ∃ b, R a b ∧ TransGen R b b := by
  obtain ⟨b, hab, hba⟩ := TransGen.head'_iff.mp hcycle
  exact ⟨b, hab, TransGen.tail' hba hab⟩

/-- A rank that falls along the relation leaves no room for a cycle. -/
theorem acyclic_of_rank (rank : A → Nat) (hrank : ∀ a b, R a b → rank b < rank a) :
    Acyclic R := by
  have hfalls {a b : A} (hab : TransGen R a b) : rank b < rank a := by
    induction hab with
    | single hab => exact hrank _ _ hab
    | tail _ hbc ih => exact (hrank _ _ hbc).trans ih
  exact fun a hcycle => Nat.lt_irrefl _ (hfalls hcycle)

/-- Without a cycle every descent ends, where only finitely many places can be left. -/
theorem Acyclic.wellFounded (hacyclic : Acyclic R) (domain : List A)
    (hdomain : ∀ a b, R a b → a ∈ domain) : WellFounded fun b a => R a b := by
  let Below (b a : {a // a ∈ domain}) : Prop := TransGen R a.val b.val
  have htrans : IsTrans _ Below := ⟨fun _ _ _ hab hbc => TransGen.trans hbc hab⟩
  have hirrefl : Std.Irrefl Below := ⟨fun a => hacyclic a.val⟩
  have hfinite : Finite {a // a ∈ domain} := (List.finite_toSet domain).to_subtype
  have hinside := Finite.wellFounded_of_trans_of_irrefl Below
  have hacc (a : {a // a ∈ domain}) : Acc (fun b a => R a b) a.val := by
    induction a using hinside.induction with
    | _ a ih =>
        refine ⟨_, fun b hab => ?_⟩
        by_cases hb : b ∈ domain
        · exact ih ⟨b, hb⟩ (TransGen.single hab)
        · exact ⟨_, fun c hbc => absurd (hdomain b c hbc) hb⟩
  refine ⟨fun a => ⟨_, fun b hab => ?_⟩⟩
  exact (hacc ⟨a, hdomain a b hab⟩).inv hab

end Chains

end Lib
