/-
Substitution of matches from left to right: where a match starts, a replacement is
put and as many letters are skipped as the match is long.
-/
import Mathlib.Data.List.Infix

namespace Lib

universe u v

namespace Substitution

variable {A : Type u}

/-- The substitution after so many letters that are skipped. -/
def subFrom (matchAt : List A → Option Nat) (new : List A) : Nat → List A → List A
  | _, [] => []
  | skip + 1, _ :: rest => subFrom matchAt new skip rest
  | 0, c :: rest =>
      match matchAt (c :: rest) with
      | some length => new ++ subFrom matchAt new (length - 1) rest
      | none => c :: subFrom matchAt new 0 rest

def sub (matchAt : List A → Option Nat) (new text : List A) : List A :=
  subFrom matchAt new 0 text

/-- A match of a word that is not empty. -/
def wordAt [DecidableEq A] (word text : List A) : Option Nat :=
  if word <+: text then some word.length else none

/-- `text.replace(word, new)`, of a word that is not empty. -/
def replaceAll [DecidableEq A] (word new text : List A) : List A :=
  sub (wordAt word) new text

variable {matchAt : List A → Option Nat} {new : List A}

@[simp] theorem sub_nil : sub matchAt new [] = [] := rfl

/-- Skipped letters are dropped. -/
theorem subFrom_eq_sub_drop (skip : Nat) (text : List A) :
    subFrom matchAt new skip text = sub matchAt new (text.drop skip) := by
  induction text generalizing skip with
  | nil => cases skip <;> rfl
  | cons c rest ih =>
      cases skip with
      | zero => rfl
      | succ skip => exact ih skip

/-- A match at the front is replaced. -/
theorem sub_of_match {text : List A} {length : Nat} (htext : text ≠ []) (hlength : 0 < length)
    (hmatch : matchAt text = some length) :
    sub matchAt new text = new ++ sub matchAt new (text.drop length) := by
  cases text with
  | nil => exact absurd rfl htext
  | cons c rest =>
      obtain ⟨skip, rfl⟩ : ∃ skip, length = skip + 1 := ⟨length - 1, by omega⟩
      rw [sub, subFrom, hmatch]
      exact congrArg (new ++ ·) (subFrom_eq_sub_drop skip rest)

/-- A letter where nothing matches is kept. -/
theorem sub_of_none {c : A} {rest : List A} (hnone : matchAt (c :: rest) = none) :
    sub matchAt new (c :: rest) = c :: sub matchAt new rest := by
  rw [sub, subFrom, hnone, sub]

/-- A front in which nothing matches is kept. -/
theorem sub_append_of_none {front rest : List A}
    (hnone : ∀ tail, tail <:+ front → tail ≠ [] → matchAt (tail ++ rest) = none) :
    sub matchAt new (front ++ rest) = front ++ sub matchAt new rest := by
  induction front with
  | nil => rfl
  | cons c front ih =>
      have hfirst := hnone (c :: front) (List.suffix_refl _) (List.cons_ne_nil c front)
      have hlater := ih fun tail htail => hnone tail (htail.trans (List.suffix_cons c front))
      rw [List.cons_append] at hfirst ⊢
      rw [sub_of_none hfirst, hlater, List.cons_append]

/-- Matching that agrees along a text substitutes the same. -/
theorem sub_congr {other : List A → Option Nat} {text : List A}
    (hsame : ∀ rest, rest <:+ text → matchAt rest = other rest) :
    sub matchAt new text = sub other new text := by
  have hall : ∀ skip, subFrom matchAt new skip text = subFrom other new skip text := by
    induction text with
    | nil =>
        intro skip
        cases skip <;> rfl
    | cons c rest ih =>
        have hrest := ih fun tail htail => hsame tail (htail.trans (List.suffix_cons c rest))
        intro skip
        cases skip with
        | succ skip => exact hrest skip
        | zero =>
            rw [subFrom, subFrom, hsame (c :: rest) (List.suffix_refl _)]
            simp only [hrest]
  exact hall 0

/-- Where the matching reads the images of the letters, the image of the substituted
text is the substituted image. -/
theorem map_sub {B : Type v} {image : B → A} {new text : List B} :
    (sub (fun rest => matchAt (rest.map image)) new text).map image =
      sub matchAt (new.map image) (text.map image) := by
  have hall : ∀ skip, (subFrom (fun rest => matchAt (rest.map image)) new skip text).map image =
      subFrom matchAt (new.map image) skip (text.map image) := by
    induction text with
    | nil =>
        intro skip
        cases skip <;> rfl
    | cons c rest ih =>
        intro skip
        cases skip with
        | succ skip => exact ih skip
        | zero =>
            rw [List.map_cons, subFrom, subFrom, ← List.map_cons]
            cases matchAt ((c :: rest).map image) with
            | none => simp only [List.map_cons, ih]
            | some length => simp only [List.map_append, ih]
  exact hall 0

/-- What is in the substituted text was in the text, or in a replacement. -/
theorem mem_sub {text : List A} {a : A} (ha : a ∈ sub matchAt new text) : a ∈ new ∨ a ∈ text := by
  have hall : ∀ skip, a ∈ subFrom matchAt new skip text → a ∈ new ∨ a ∈ text := by
    clear ha
    induction text with
    | nil =>
        intro skip ha
        cases skip <;> cases ha
    | cons c rest ih =>
        have hrest : ∀ skip, a ∈ subFrom matchAt new skip rest → a ∈ new ∨ a ∈ c :: rest :=
          fun skip ha => (ih skip ha).imp id (List.mem_cons_of_mem c)
        intro skip ha
        cases skip with
        | succ skip => exact hrest skip ha
        | zero =>
            rw [subFrom] at ha
            split at ha
            · rcases List.mem_append.mp ha with hnew | ha
              · exact .inl hnew
              · exact hrest _ ha
            · rcases List.mem_cons.mp ha with rfl | ha
              · exact .inr List.mem_cons_self
              · exact hrest 0 ha
  exact hall 0 ha

/-- Without a match nothing changes. -/
theorem sub_eq_self {text : List A} (hnone : ∀ rest, rest <:+ text → rest ≠ [] →
    matchAt rest = none) : sub matchAt new text = text := by
  induction text with
  | nil => rfl
  | cons c rest ih =>
      rw [sub, subFrom, hnone (c :: rest) (List.suffix_refl _) (List.cons_ne_nil c rest)]
      have hrest := ih fun tail htail => hnone tail (htail.trans (List.suffix_cons c rest))
      rw [sub] at hrest
      simp only [hrest]

theorem replaceAll_eq_self [DecidableEq A] {word text : List A} (hnone : ¬ word <:+: text) :
    replaceAll word new text = text := by
  refine sub_eq_self fun rest hrest _ => if_neg fun hprefix => hnone ?_
  exact hprefix.isInfix.trans hrest.isInfix

/-- A front of the substituted text without a letter that every replacement starts
with is a front of the text. -/
theorem prefix_of_prefix_sub [DecidableEq A] {mark : A} {more front text : List A}
    (hmark : mark ∉ front) (hfront : front <+: sub matchAt (mark :: more) text) :
    front <+: text := by
  induction text generalizing front with
  | nil => exact hfront
  | cons c rest ih =>
      cases front with
      | nil => exact List.nil_prefix
      | cons first front =>
          rw [sub, subFrom] at hfront
          split at hfront
          · have hsame := (List.cons_prefix_cons.mp hfront).1
            exact absurd (hsame ▸ List.mem_cons_self) hmark
          · obtain ⟨hfirst, hrest⟩ := List.cons_prefix_cons.mp hfront
            refine List.cons_prefix_cons.mpr ⟨hfirst, ih ?_ hrest⟩
            exact fun hmem => hmark (List.mem_cons_of_mem first hmem)

end Substitution

end Lib
