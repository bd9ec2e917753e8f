/-
Logs that only grow at the end.  Each row is made from the rows before it and a
payload, so a log is given by its payloads; when the digest of a row determines
the payload and the digest before it, the last digest determines the whole log.
-/
import Mathlib.Data.List.Infix
import Mathlib.Data.List.Induction

namespace Lib

universe u v w

namespace HashChain

variable {R : Type u} {P : Type v} {H : Type w}

/-- Append one payload after the other. -/
def build (grow : List R → P → R) (payloads : List P) : List R :=
  payloads.foldl (fun rows payload => rows ++ [grow rows payload]) []

variable {grow : List R → P → R} {digest : R → H}

@[simp] theorem build_nil : build grow [] = [] := rfl

@[simp] theorem build_append_singleton (payloads : List P) (payload : P) :
    build grow (payloads ++ [payload]) =
      build grow payloads ++ [grow (build grow payloads) payload] := by
  simp [build]

@[simp] theorem length_build (payloads : List P) :
    (build grow payloads).length = payloads.length := by
  induction payloads using List.reverseRecOn with
  | nil => rfl
  | append_singleton payloads payload ih => simp [ih]

/-- A shorter log is a prefix of a longer one. -/
theorem build_prefix {shorter longer : List P} (hstart : shorter <+: longer) :
    build grow shorter <+: build grow longer := by
  obtain ⟨rest, rfl⟩ := hstart
  induction rest using List.reverseRecOn with
  | nil => simp
  | append_singleton rest payload ih =>
      rw [← List.append_assoc, build_append_singleton]
      exact ih.trans (List.prefix_append _ _)

/-- The digest of the last row. -/
def head (grow : List R → P → R) (digest : R → H) (payloads : List P) :
    Option H :=
  (build grow payloads).getLast?.map digest

@[simp] theorem head_nil : head grow digest [] = none := rfl

@[simp] theorem head_append_singleton (payloads : List P) (payload : P) :
    head grow digest (payloads ++ [payload]) =
      some (digest (grow (build grow payloads) payload)) := by
  simp [head]

/-- The digests of two logs commit: rows of the two with one digest have one
payload and one digest before them. -/
def Commits (grow : List R → P → R) (digest : R → H) (left right : List P) :
    Prop :=
  ∀ us u vs v, us ++ [u] <+: left → vs ++ [v] <+: right →
    digest (grow (build grow us) u) = digest (grow (build grow vs) v) →
      u = v ∧ head grow digest us = head grow digest vs

/-- Two logs with the same last digest are the same. -/
theorem eq_of_head_eq {left right : List P}
    (hcommits : Commits grow digest left right)
    (hhead : head grow digest left = head grow digest right) : left = right := by
  induction left using List.reverseRecOn generalizing right with
  | nil =>
      rcases List.eq_nil_or_concat right with rfl | ⟨vs, v, rfl⟩
      · rfl
      · simp at hhead
  | append_singleton us u ih =>
      rcases List.eq_nil_or_concat right with rfl | ⟨vs, v, rfl⟩
      · simp at hhead
      · rw [List.concat_eq_append] at *
        rw [head_append_singleton, head_append_singleton, Option.some.injEq]
          at hhead
        obtain ⟨rfl, hbefore⟩ := hcommits us u vs v (List.prefix_refl _)
          (List.prefix_refl _) hhead
        have hshorter : Commits grow digest us vs :=
          fun us' u' vs' v' hleft hright =>
            hcommits us' u' vs' v' (hleft.trans (List.prefix_append _ _))
              (hright.trans (List.prefix_append _ _))
        rw [ih hshorter hbefore]

end HashChain

end Lib
