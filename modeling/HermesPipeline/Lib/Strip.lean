/-
Python's `str.strip` as the text between its white space.  The stripped text
starts and ends with something else, so white space around it is dropped again,
and what is no white space at its ends is found in it where it is found in the
whole text.
-/
import Mathlib.Data.List.DropRight
import Mathlib.Data.List.Infix
import HermesPipeline.Lib.Json

namespace Lib

namespace Strip

/-- Nothing at its ends is dropped. -/
def Bare (text : List Char) : Prop :=
  text.dropWhile isPySpace = text ∧ text.rdropWhile isPySpace = text

theorem pyStrip_toList (text : String) :
    (pyStrip text).toList =
      (text.toList.dropWhile isPySpace).rdropWhile isPySpace := by
  rw [pyStrip, String.toList_ofList]
  rfl

theorem bare_pyStrip (text : String) : Bare (pyStrip text).toList := by
  rw [pyStrip_toList]
  constructor
  · have hfront := List.rdropWhile_prefix isPySpace
      (l := text.toList.dropWhile isPySpace)
    obtain ⟨rest, hrest⟩ := hfront
    cases hstripped : (text.toList.dropWhile isPySpace).rdropWhile isPySpace with
    | nil => rfl
    | cons c more =>
        rw [hstripped, List.cons_append] at hrest
        have hhead : isPySpace c = false := by
          have hfirst := List.head?_dropWhile_not isPySpace text.toList
          rw [← hrest] at hfirst
          simpa using hfirst
        simp [hhead]
  · exact List.rdropWhile_idempotent isPySpace _

/-- White space around a bare text is dropped. -/
theorem strip_framed {left doc right : List Char}
    (hleft : ∀ c ∈ left, isPySpace c = true) (hdoc : Bare doc)
    (hright : ∀ c ∈ right, isPySpace c = true) :
    ((left ++ (doc ++ right)).dropWhile isPySpace).rdropWhile isPySpace = doc := by
  rw [List.dropWhile_append_of_pos hleft]
  cases doc with
  | nil =>
      rw [List.nil_append, List.dropWhile_eq_nil_iff.mpr hright]
      rfl
  | cons c rest =>
      have hhead : isPySpace c = false := by
        have hfront := List.dropWhile_eq_self_iff.mp hdoc.1 (Nat.succ_pos _)
        rw [List.getElem_cons_zero] at hfront
        simpa using hfront
      rw [List.cons_append, List.dropWhile_cons_of_neg (by simp [hhead]),
        ← List.cons_append, List.rdropWhile, List.reverse_append,
        List.dropWhile_append_of_pos (by simpa using hright)]
      exact hdoc.2

/-- A text without white space is stripped of nothing. -/
theorem pyStrip_of_solid {text : String}
    (hsolid : ∀ c ∈ text.toList, isPySpace c = false) : pyStrip text = text := by
  apply String.toList_injective
  have hreverse : text.toList.reverse.dropWhile isPySpace = text.toList.reverse := by
    rw [List.dropWhile_eq_self_iff]
    intro hlength
    have hlast := hsolid _ (List.mem_reverse.mp (List.getElem_mem hlength))
    simpa using hlast
  have hfront : text.toList.dropWhile isPySpace = text.toList := by
    rw [List.dropWhile_eq_self_iff]
    intro hlength
    have hfirst := hsolid _ (List.getElem_mem hlength)
    simpa using hfirst
  rw [pyStrip_toList, hfront, List.rdropWhile, hreverse, List.reverse_reverse]

theorem pyStrip_framed (left right : List Char) (doc : String)
    (hleft : ∀ c ∈ left, isPySpace c = true)
    (hright : ∀ c ∈ right, isPySpace c = true) :
    pyStrip (String.ofList (left ++ ((pyStrip doc).toList ++ right))) = pyStrip doc := by
  apply String.toList_injective
  rw [pyStrip_toList, String.toList_ofList,
    strip_framed hleft (bare_pyStrip doc) hright]

@[simp] theorem pyStrip_pyStrip (text : String) : pyStrip (pyStrip text) = pyStrip text := by
  simpa using pyStrip_framed [] [] text (by simp) (by simp)

theorem length_pyStrip_le (text : String) :
    (pyStrip text).toList.length ≤ text.toList.length := by
  rw [pyStrip_toList]
  calc ((text.toList.dropWhile isPySpace).rdropWhile isPySpace).length
      ≤ (text.toList.dropWhile isPySpace).length :=
        (List.rdropWhile_prefix isPySpace _).length_le
    _ ≤ text.toList.length := (List.dropWhile_suffix isPySpace).length_le

/-- A text that starts with no white space is found after it. -/
theorem infix_dropWhile_iff {mark : Char} {marker : List Char}
    (hmark : isPySpace mark = false) (text : List Char) :
    mark :: marker <:+: text.dropWhile isPySpace ↔ mark :: marker <:+: text := by
  induction text with
  | nil => rfl
  | cons c rest ih =>
      by_cases hspace : isPySpace c = true
      · rw [List.dropWhile_cons_of_pos hspace, ih, List.infix_cons_iff]
        constructor
        · exact .inr
        · rintro (hstart | hrest)
          · rw [List.cons_prefix_cons] at hstart
            rw [← hstart.1, hmark] at hspace
            exact absurd hspace (by simp)
          · exact hrest
      · rw [List.dropWhile_cons_of_neg hspace]

/-- A text without white space at its ends is found in a document exactly when
it is found in the stripped document. -/
theorem infix_pyStrip_iff {marker : List Char} {front back : Char}
    {after before : List Char} (hfront : marker = front :: after)
    (hback : marker.reverse = back :: before) (hfrontmark : isPySpace front = false)
    (hbackmark : isPySpace back = false) (text : String) :
    marker <:+: (pyStrip text).toList ↔ marker <:+: text.toList := by
  rw [pyStrip_toList, List.rdropWhile, ← List.reverse_infix, List.reverse_reverse,
    hback, infix_dropWhile_iff hbackmark, ← hback, List.reverse_infix, hfront,
    infix_dropWhile_iff hfrontmark]

end Strip

end Lib
