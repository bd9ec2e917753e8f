/-
The pieces of a list between the occurrences of a separator: where a piece stands,
and what it holds.
-/
import Mathlib.Data.List.Basic

namespace Lib

universe u

namespace Pieces

variable {A : Type u} [DecidableEq A] {sep : A}

/-- A piece between two separators holds no separator. -/
theorem not_mem_of_mem_splitOn {text piece : List A}
    (hpiece : piece ∈ text.splitOn sep) : sep ∉ piece := by
  induction text generalizing piece with
  | nil =>
      rw [List.splitOn_nil, List.mem_singleton] at hpiece
      rw [hpiece]
      exact List.not_mem_nil
  | cons c rest ih =>
      rw [List.splitOn_cons_eq_if_modifyHead] at hpiece
      split at hpiece
      · rcases List.mem_cons.mp hpiece with rfl | htail
        · exact List.not_mem_nil
        · exact ih htail
      · next hne =>
          cases hsplit : rest.splitOn sep with
          | nil => exact absurd hsplit (List.splitOn_ne_nil sep rest)
          | cons first more =>
              rw [hsplit] at hpiece ih
              rw [List.modifyHead_cons] at hpiece
              rcases List.mem_cons.mp hpiece with rfl | htail
              · have hfirst := ih List.mem_cons_self
                intro hmem
                rcases List.mem_cons.mp hmem with hsep | hmem
                · exact hne (by simp [hsep])
                · exact hfirst hmem
              · exact ih (List.mem_cons_of_mem _ htail)

/-- There is one piece more than separators. -/
theorem length_splitOn (text : List A) :
    (text.splitOn sep).length = text.count sep + 1 := by
  induction text with
  | nil => rw [List.splitOn_nil, List.length_singleton, List.count_nil]
  | cons c rest ih =>
      rw [List.splitOn_cons_eq_if_modifyHead, List.count_cons]
      split
      · rw [List.length_cons, ih]
      · rw [List.length_modifyHead, ih, Nat.add_zero]

/-- A list that ends before, or at a separator. -/
def Ends (sep : A) (rest : List A) : Prop := rest = [] ∨ rest.head? = some sep

/-- A list that begins after, or at a separator. -/
def Begins (sep : A) (front : List A) : Prop := front = [] ∨ front.getLast? = some sep

/-- A list up to its first separator, if it has one. -/
theorem first_separator (sep : A) (text : List A) :
    sep ∉ text ∨ ∃ first rest, sep ∉ first ∧ text = first ++ sep :: rest := by
  by_cases hsep : sep ∈ text
  · obtain ⟨first, rest, rfl, hfirst⟩ := List.eq_append_cons_of_mem hsep
    exact .inr ⟨first, rest, hfirst, rfl⟩
  · exact .inl hsep

theorem mem_splitOn_start {piece rest : List A} (hpiece : sep ∉ piece)
    (hends : Ends sep rest) : piece ∈ (piece ++ rest).splitOn sep := by
  rcases hends with rfl | hhead
  · rw [List.append_nil, List.splitOn_eq_singleton hpiece]
    exact List.mem_singleton_self piece
  · obtain ⟨tail, rfl⟩ := List.head?_eq_some_iff.mp hhead
    rw [List.splitOn_append_cons_self_of_not_mem hpiece]
    exact List.mem_cons_self

/-- The pieces of a list are what stands between two of its ends or separators. -/
theorem mem_splitOn_iff {text piece : List A} :
    piece ∈ text.splitOn sep ↔
      sep ∉ piece ∧ ∃ front rest, text = front ++ (piece ++ rest) ∧ Begins sep front ∧
        Ends sep rest := by
  constructor
  · intro hmem
    refine ⟨not_mem_of_mem_splitOn hmem, ?_⟩
    induction hlength : text.length using Nat.strongRecOn generalizing text with
    | ind length ih =>
        rcases first_separator sep text with hsep | ⟨first, rest, hfirst, rfl⟩
        · rw [List.splitOn_eq_singleton hsep, List.mem_singleton] at hmem
          exact ⟨[], [], by simp [hmem], .inl rfl, .inl rfl⟩
        · rw [List.splitOn_append_cons_self_of_not_mem hfirst, List.mem_cons] at hmem
          rcases hmem with rfl | hmem
          · exact ⟨[], sep :: rest, by simp, .inl rfl, .inr rfl⟩
          · have hshort : rest.length < length := by
              rw [← hlength, List.length_append, List.length_cons]
              omega
            obtain ⟨front, tail, rfl, hbegins, hends⟩ := ih _ hshort hmem rfl
            refine ⟨first ++ sep :: front, tail, by simp, .inr ?_, hends⟩
            rcases hbegins with rfl | hlast
            · simp
            · rw [List.getLast?_append, List.getLast?_cons, hlast]
              simp
  · rintro ⟨hpiece, front, rest, rfl, rfl | hlast, hends⟩
    · exact mem_splitOn_start hpiece hends
    · obtain ⟨before, rfl⟩ := List.getLast?_eq_some_iff.mp hlast
      rw [List.append_assoc, List.singleton_append, List.splitOn_append_cons_self]
      exact List.mem_append_right _ (mem_splitOn_start hpiece hends)

section Partition

/-- What stands before and after the first separator. -/
def partition? (sep : A) : List A → Option (List A × List A)
  | [] => none
  | c :: rest =>
      if c = sep then some ([], rest)
      else (partition? sep rest).map fun found => (c :: found.1, found.2)

/-- What stands before and after the last separator. -/
def rpartition? (sep : A) : List A → Option (List A × List A)
  | [] => none
  | c :: rest =>
      match rpartition? sep rest with
      | some found => some (c :: found.1, found.2)
      | none => if c = sep then some ([], rest) else none

theorem partition?_eq_none {text : List A} (hnone : sep ∉ text) :
    partition? sep text = none := by
  induction text with
  | nil => rfl
  | cons c rest ih =>
      have hne : c ≠ sep := fun h => hnone (h ▸ List.mem_cons_self)
      rw [partition?, if_neg hne, ih fun h => hnone (List.mem_cons_of_mem c h)]
      rfl

theorem partition?_append {front : List A} (hfront : sep ∉ front) (rest : List A) :
    partition? sep (front ++ sep :: rest) = some (front, rest) := by
  induction front with
  | nil => rw [List.nil_append, partition?, if_pos rfl]
  | cons c front ih =>
      have hne : c ≠ sep := fun h => hfront (h ▸ List.mem_cons_self)
      rw [List.cons_append, partition?, if_neg hne,
        ih fun h => hfront (List.mem_cons_of_mem c h)]
      rfl

theorem rpartition?_eq_none {text : List A} (hnone : sep ∉ text) :
    rpartition? sep text = none := by
  induction text with
  | nil => rfl
  | cons c rest ih =>
      have hne : c ≠ sep := fun h => hnone (h ▸ List.mem_cons_self)
      rw [rpartition?, ih fun h => hnone (List.mem_cons_of_mem c h)]
      exact if_neg hne

theorem rpartition?_append (front : List A) {last : List A} (hlast : sep ∉ last) :
    rpartition? sep (front ++ sep :: last) = some (front, last) := by
  induction front with
  | nil =>
      rw [List.nil_append, rpartition?, rpartition?_eq_none hlast]
      exact if_pos rfl
  | cons c front ih => rw [List.cons_append, rpartition?, ih]

/-- A list is separated at its last separator. -/
theorem last_separator (sep : A) (text : List A) :
    sep ∉ text ∨ ∃ front last, sep ∉ last ∧ text = front ++ sep :: last := by
  induction text with
  | nil => exact .inl List.not_mem_nil
  | cons c rest ih =>
      rcases ih with hnone | ⟨front, last, hlast, rfl⟩
      · by_cases hsep : c = sep
        · exact .inr ⟨[], rest, hnone, by rw [hsep, List.nil_append]⟩
        · refine .inl fun hmem => ?_
          rcases List.mem_cons.mp hmem with h | h
          · exact hsep h.symm
          · exact hnone h
      · exact .inr ⟨c :: front, last, hlast, rfl⟩

end Partition

end Pieces

end Lib
