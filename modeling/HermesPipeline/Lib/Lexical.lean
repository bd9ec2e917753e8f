/-
Paths as they are written: names and steps up.  A name and the step up right after
it cancel; what is left, however one cancels, is some steps up and then names.
-/
import Mathlib.Data.List.Basic

namespace Lib

universe u

namespace Lexical

/-- A piece of a path. -/
inductive Step (N : Type u)
  | name (n : N)
  | up
deriving Repr, DecidableEq

variable {N : Type u}

abbrev Path (N : Type u) := List (Step N)

def names (ns : List N) : Path N := ns.map .name

/-- Steps up, then names. -/
def plain (ups : Nat) (ns : List N) : Path N := List.replicate ups .up ++ names ns

/-- What is left of a path when names and steps up cancel. -/
inductive Resolves : Path N → Nat → List N → Prop
  | plain (ups : Nat) (ns : List N) : Resolves (plain ups ns) ups ns
  | cancel {before after : Path N} {ups : Nat} {ns : List N} (n : N)
      (hrest : Resolves (before ++ after) ups ns) :
      Resolves (before ++ .name n :: .up :: after) ups ns

/-- A step up takes the last name away, or climbs where there is none. -/
def settle : Nat × List N → Step N → Nat × List N
  | (ups, stack), .name n => (ups, n :: stack)
  | (ups, _ :: stack), .up => (ups, stack)
  | (ups, []), .up => (ups + 1, [])

/-- The steps up and the names that are left, found from left to right. -/
def resolve (path : Path N) : Nat × List N :=
  let settled := path.foldl settle (0, [])
  (settled.1, settled.2.reverse)

/-- Before each of its ends, a path has a name for every step up. -/
def NeverClimbs [DecidableEq N] (path : Path N) : Prop :=
  ∀ front, front <+: path → front.count .up ≤ front.countP (· ≠ .up)

/-- A segment of a text is skipped, a step up or a name. -/
def segmentStep? (segment : List Char) : Option (Step (List Char)) :=
  if segment = [] ∨ segment = ['.'] then none
  else if segment = ['.', '.'] then some .up
  else some (.name segment)

/-- The path that a text writes. -/
def steps (sep : Char) (text : List Char) : Path (List Char) :=
  (text.splitOn sep).filterMap segmentStep?

theorem steps_append (sep : Char) (left right : List Char) :
    steps sep (left ++ sep :: right) = steps sep left ++ steps sep right := by
  rw [steps, List.splitOn_append_cons_self, List.filterMap_append, steps, steps]

section Settling

theorem foldl_names (ns : List N) (ups : Nat) (stack : List N) :
    (names ns).foldl settle (ups, stack) = (ups, ns.reverse ++ stack) := by
  induction ns generalizing stack with
  | nil => rfl
  | cons n rest ih =>
      rw [names, List.map_cons, List.foldl_cons]
      refine (ih (n :: stack)).trans ?_
      simp

theorem foldl_ups (k ups : Nat) :
    (List.replicate k (.up : Step N)).foldl settle (ups, []) = (ups + k, []) := by
  induction k generalizing ups with
  | zero => rfl
  | succ k ih =>
      rw [List.replicate_succ, List.foldl_cons]
      refine (ih (ups + 1)).trans ?_
      rw [Nat.add_right_comm, Nat.add_assoc]

@[simp] theorem resolve_plain (ups : Nat) (ns : List N) :
    resolve (plain ups ns) = (ups, ns) := by
  simp [resolve, plain, List.foldl_append, foldl_ups, foldl_names]

/-- Cancelling changes nothing in what is left. -/
theorem resolve_cancel (before after : Path N) (n : N) :
    resolve (before ++ .name n :: .up :: after) = resolve (before ++ after) := by
  rw [resolve, resolve, List.foldl_append, List.foldl_append]
  rfl

theorem le_foldl_settle (path : Path N) (ups : Nat) (stack : List N) :
    ups ≤ (path.foldl settle (ups, stack)).1 := by
  induction path generalizing ups stack with
  | nil => exact Nat.le_refl ups
  | cons step rest ih =>
      rw [List.foldl_cons]
      cases step with
      | name n => exact ih ups (n :: stack)
      | up =>
          cases stack with
          | nil => exact Nat.le_trans (Nat.le_succ ups) (ih (ups + 1) [])
          | cons top stack => exact ih ups stack

/-- A path is plain, or has a name right before a step up. -/
theorem plain_or_cancels (path : Path N) :
    (∃ ups ns, path = plain ups ns) ∨
      ∃ before n after, path = before ++ .name n :: .up :: after := by
  induction path with
  | nil => exact .inl ⟨0, [], rfl⟩
  | cons step rest ih =>
      rcases ih with ⟨ups, ns, rfl⟩ | ⟨before, n, after, rfl⟩
      · cases step with
        | up => exact .inl ⟨ups + 1, ns, rfl⟩
        | name n =>
            cases ups with
            | zero => exact .inl ⟨0, n :: ns, rfl⟩
            | succ ups => exact .inr ⟨[], n, plain ups ns, rfl⟩
      · exact .inr ⟨step :: before, n, after, rfl⟩

/-- However names and steps up cancel, the same is left. -/
theorem resolves_iff (path : Path N) (ups : Nat) (ns : List N) :
    Resolves path ups ns ↔ resolve path = (ups, ns) := by
  constructor
  · intro hresolves
    induction hresolves with
    | plain ups ns => exact resolve_plain ups ns
    | cancel n _ ih => rw [resolve_cancel, ih]
  · induction hlength : path.length using Nat.strongRecOn generalizing path with
    | ind length ih =>
        intro hresolve
        rcases plain_or_cancels path with ⟨ups', ns', rfl⟩ | ⟨before, n, after, rfl⟩
        · rw [resolve_plain, Prod.mk.injEq] at hresolve
          obtain ⟨rfl, rfl⟩ := hresolve
          exact .plain ups' ns'
        · rw [resolve_cancel] at hresolve
          refine .cancel n (ih _ ?_ _ rfl hresolve)
          rw [← hlength, List.length_append, List.length_append, List.length_cons,
            List.length_cons]
          omega

/-- Names after a path come after what is left of it. -/
theorem resolve_append_names (path : Path N) (ns : List N) :
    resolve (path ++ names ns) = ((resolve path).1, (resolve path).2 ++ ns) := by
  rw [resolve, resolve, List.foldl_append]
  generalize path.foldl settle (0, []) = settled
  obtain ⟨ups, stack⟩ := settled
  simp [foldl_names]

end Settling

section Climbing

variable [DecidableEq N]

/-- A path climbs no further exactly when it never takes away more names than there
are. -/
theorem foldl_settle_fst_iff (path : Path N) (ups : Nat) (stack : List N) :
    (path.foldl settle (ups, stack)).1 = ups ↔
      ∀ front, front <+: path → front.count .up ≤ stack.length + front.countP (· ≠ .up) := by
  induction path generalizing ups stack with
  | nil =>
      refine iff_of_true rfl fun front hfront => ?_
      rw [List.prefix_nil.mp hfront]
      simp
  | cons step rest ih =>
      rw [List.foldl_cons]
      have hfronts : (∀ front, front <+: step :: rest →
          front.count .up ≤ stack.length + front.countP (· ≠ .up)) ↔
          ∀ front, front <+: rest → (step :: front).count .up ≤
            stack.length + (step :: front).countP (· ≠ .up) := by
        constructor
        · intro h front hfront
          exact h _ (List.cons_prefix_cons.mpr ⟨rfl, hfront⟩)
        · intro h front hfront
          cases front with
          | nil => simp
          | cons first front =>
              obtain ⟨rfl, hrest⟩ := List.cons_prefix_cons.mp hfront
              exact h front hrest
      rw [hfronts]
      cases step with
      | name n =>
          refine (ih ups (n :: stack)).trans (forall₂_congr fun front _ => ?_)
          simp
          omega
      | up =>
          cases stack with
          | nil =>
              refine iff_of_false ?_ fun h => ?_
              · have hgrows := le_foldl_settle rest (ups + 1) ([] : List N)
                exact Nat.ne_of_gt hgrows
              · have hone := h [] List.nil_prefix
                simp at hone
          | cons top stack =>
              refine (ih ups stack).trans (forall₂_congr fun front _ => ?_)
              simp
              omega

theorem neverClimbs_iff (path : Path N) : NeverClimbs path ↔ (resolve path).1 = 0 := by
  rw [resolve, foldl_settle_fst_iff, NeverClimbs]
  simp

end Climbing

end Lexical

end Lib
