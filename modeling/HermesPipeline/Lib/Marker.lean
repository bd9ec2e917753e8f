/-
Markers in a text.  A marker that stands on one line is found in a line or not
at all, its first occurrence cuts the text in two, and two markers enclose a
region.  A document between two marker lines is the region that they enclose
exactly when no text before it opens one and the document does not close its own.
-/
import Mathlib.Data.List.Basic
import Mathlib.Data.List.Infix

namespace Lib

namespace Marker

variable {α : Type} [DecidableEq α]

/-- What stands before and after the first occurrence of a marker. -/
def cut (marker : List α) : List α → Option (List α × List α)
  | [] => none
  | c :: rest =>
      if marker <+: c :: rest then some ([], (c :: rest).drop marker.length)
      else (cut marker rest).map fun found => (c :: found.1, found.2)

/-- What stands before the first opening marker, and what stands between it and
the next closing one. -/
def region (start close : List α) (text : List α) : Option (List α × List α) :=
  (cut start text).bind fun found =>
    (cut close found.2).map fun inner => (found.1, inner.1)

/-- A document on lines of its own, and no line for an empty one. -/
def wrap (sep : α) (doc : List α) : List α := if doc = [] then [] else doc ++ [sep]

/-- A document between two marker lines, after the earlier lines of a text. -/
def fenced (sep : α) (start close before doc rest : List α) : List α :=
  before ++ sep :: (start ++ sep :: (wrap sep doc ++ (close ++ rest)))

omit [DecidableEq α] in
/-- A marker without a separator that starts a text starts its first line. -/
theorem prefix_line {marker left right : List α} {sep : α} (hsep : sep ∉ marker)
    (hstart : marker <+: left ++ sep :: right) : marker <+: left := by
  rcases List.prefix_or_prefix_of_prefix hstart (List.prefix_append left _) with
    hleft | ⟨back, rfl⟩
  · exact hleft
  · rw [List.prefix_append_right_inj] at hstart
    cases back with
    | nil =>
        rw [List.append_nil]
    | cons c rest =>
        rw [List.cons_prefix_cons] at hstart
        exact absurd (by simp [hstart.1]) hsep

omit [DecidableEq α] in
/-- A marker without a separator stands on one side of it. -/
theorem infix_line_iff {marker : List α} {sep : α} (hsep : sep ∉ marker)
    (left right : List α) :
    marker <:+: left ++ sep :: right ↔ marker <:+: left ∨ marker <:+: right := by
  constructor
  · intro hinside
    rcases List.infix_append_iff.mp hinside with hleft | hright | ⟨front, back, rfl,
      hfront, hback⟩
    · exact .inl hleft
    · rcases List.infix_cons_iff.mp hright with hstart | hright
      · cases marker with
        | nil => exact .inl List.nil_infix
        | cons c rest =>
            rw [List.cons_prefix_cons] at hstart
            exact absurd (by simp [hstart.1]) hsep
      · exact .inr hright
    · cases back with
      | nil =>
          rw [List.append_nil]
          exact .inl hfront.isInfix
      | cons c rest =>
          rw [List.cons_prefix_cons] at hback
          exact absurd (by simp [hback.1]) hsep
  · rintro (hleft | hright)
    · exact List.infix_append_of_infix_left hleft
    · exact List.infix_append_of_infix_right (List.infix_cons hright)

omit [DecidableEq α] in
/-- A marker in joined lines stands in one of them. -/
theorem infix_join_iff {marker : List α} {sep : α} (hmarker : marker ≠ [])
    (hsep : sep ∉ marker) (lines : List (List α)) :
    marker <:+: [sep].intercalate lines ↔ ∃ line ∈ lines, marker <:+: line := by
  induction lines with
  | nil => simpa using hmarker
  | cons line more ih =>
      cases more with
      | nil => simp
      | cons next rest =>
          rw [List.intercalate_cons_cons, List.append_assoc, List.singleton_append,
            infix_line_iff hsep, ih]
          simp only [List.mem_cons, exists_eq_or_imp]

section Cut

variable {marker : List α} (hmarker : marker ≠ [])

include hmarker

theorem cut_eq_none_iff (text : List α) :
    cut marker text = none ↔ ¬ marker <:+: text := by
  induction text with
  | nil => simpa [cut] using hmarker
  | cons c rest ih =>
      rw [cut, List.infix_cons_iff]
      by_cases hstart : marker <+: c :: rest
      · simp [hstart]
      · simp [hstart, ih]

theorem cut_start (rest : List α) : cut marker (marker ++ rest) = some ([], rest) := by
  cases marker with
  | nil => exact absurd rfl hmarker
  | cons c tail =>
      rw [List.cons_append, cut, if_pos]
      · simp
      · exact ⟨rest, rfl⟩

/-- The cut is at the first occurrence. -/
theorem cut_first (left right : List α) :
    ∃ before after, cut marker (left ++ (marker ++ right)) = some (before, after) ∧
      before.length ≤ left.length := by
  induction left with
  | nil => exact ⟨[], right, cut_start hmarker right, le_rfl⟩
  | cons c rest ih =>
      obtain ⟨before, after, hcut, hlength⟩ := ih
      rw [List.cons_append, cut]
      split
      · exact ⟨_, _, rfl, Nat.zero_le _⟩
      · rw [hcut]
        refine ⟨_, _, rfl, ?_⟩
        simp only [List.length_cons]
        omega

/-- A line without the marker is skipped. -/
theorem cut_line {sep : α} (hsep : sep ∉ marker) {left : List α}
    (habsent : ¬ marker <:+: left) (right : List α) :
    cut marker (left ++ sep :: right) =
      (cut marker right).map fun found => (left ++ sep :: found.1, found.2) := by
  induction left with
  | nil =>
      rw [List.nil_append, cut, if_neg]
      · simp
      · intro hstart
        cases marker with
        | nil => exact hmarker rfl
        | cons c rest =>
            rw [List.cons_prefix_cons] at hstart
            exact hsep (by simp [hstart.1])
  | cons c rest ih =>
      rw [List.infix_cons_iff, not_or] at habsent
      rw [List.cons_append, cut, if_neg, ih habsent.2, Option.map_map]
      · rfl
      · intro hstart
        exact habsent.1 (prefix_line hsep hstart)

end Cut

section Region

variable {start close before : List α} {sep : α} (hstart : start ≠ [])
  (hclose : close ≠ []) (hsep : sep ∉ start)

include hstart hsep

/-- The text after a first opening marker that no earlier text holds. -/
theorem cut_fenced (habsent : ¬ start <:+: before) (doc rest : List α) :
    cut start (fenced sep start close before doc rest) =
      some (before ++ [sep], sep :: (wrap sep doc ++ (close ++ rest))) := by
  rw [fenced, cut_line hstart hsep habsent, cut_start hstart]
  rfl

omit hsep in
/-- A text that holds the opening marker opens the region too early. -/
theorem region_early (hearly : start <:+: before) (doc rest : List α)
    {found : List α × List α}
    (hfound : region start close (fenced sep start close before doc rest) =
      some found) : found.1.length < before.length := by
  obtain ⟨left, right, rfl⟩ := hearly
  obtain ⟨early, late, hcut, hlength⟩ := cut_first hstart left
    (right ++ sep :: (start ++ sep :: (wrap sep doc ++ (close ++ rest))))
  rw [region, fenced, List.append_assoc, List.append_assoc, hcut, Option.bind_some,
    Option.map_eq_some_iff] at hfound
  obtain ⟨inner, -, rfl⟩ := hfound
  have hpositive := List.length_pos_iff.mpr hstart
  simp only [List.length_append]
  omega

include hclose

/-- A document that does not close its own region is the region. -/
theorem region_fenced (habsent : ¬ start <:+: before) (hclosesep : sep ∉ close)
    {doc : List α} (hinner : ¬ close <:+: doc) (rest : List α) :
    region start close (fenced sep start close before doc rest) =
      some (before ++ [sep], sep :: wrap sep doc) := by
  have habsentnil : ¬ close <:+: [] := by simpa using hclose
  have hcut : cut close (sep :: (wrap sep doc ++ (close ++ rest))) =
      some (sep :: wrap sep doc, rest) := by
    have hline := cut_line hclose hclosesep habsentnil (wrap sep doc ++ (close ++ rest))
    rw [List.nil_append] at hline
    rw [hline, wrap]
    split
    · rw [List.nil_append, cut_start hclose]
      rfl
    · rw [List.append_assoc, List.singleton_append,
        cut_line hclose hclosesep hinner, cut_start hclose]
      simp
  rw [region, cut_fenced hstart hsep habsent, Option.bind_some, hcut]
  rfl

/-- A document that holds the closing marker ends its own region. -/
theorem region_closed (habsent : ¬ start <:+: before) {doc : List α}
    (hinner : close <:+: doc) (rest : List α) :
    ∃ inner, region start close (fenced sep start close before doc rest) =
        some (before ++ [sep], inner) ∧
      inner.length + close.length ≤ doc.length + 1 := by
  obtain ⟨left, right, rfl⟩ := hinner
  obtain ⟨early, late, hcut, hlength⟩ := cut_first hclose (sep :: left)
    (right ++ sep :: (close ++ rest))
  refine ⟨early, ?_, ?_⟩
  · rw [region, cut_fenced hstart hsep habsent, Option.bind_some, wrap,
      if_neg (by simp [hclose])]
    have hsame : sep :: (left ++ close ++ right ++ [sep] ++ (close ++ rest)) =
        sep :: left ++ (close ++ (right ++ sep :: (close ++ rest))) := by
      simp
    rw [hsame, hcut]
    rfl
  · simp only [List.length_cons, List.length_append] at hlength ⊢
    omega

end Region

end Marker

end Lib
