/-
A stream that is read line by line: a line ends behind its mark, or where the stream
ends.
-/
import Mathlib.Data.List.Infix

namespace Lib

universe u

namespace Lines

variable {A : Type u} [DecidableEq A] {mark : A}

/-- The first line of a stream, and what follows it. -/
def readLine (mark : A) : List A → List A × List A
  | [] => ([], [])
  | c :: rest =>
      if c = mark then ([c], rest) else (c :: (readLine mark rest).1, (readLine mark rest).2)

/-- A line and what follows it are the stream. -/
theorem readLine_append (stream : List A) :
    (readLine mark stream).1 ++ (readLine mark stream).2 = stream := by
  induction stream with
  | nil => rfl
  | cons c rest ih =>
      rw [readLine]
      split
      · rfl
      · rw [List.cons_append, ih]

/-- Only an ended stream has an empty line. -/
theorem readLine_eq_nil_iff (stream : List A) :
    (readLine mark stream).1 = [] ↔ stream = [] := by
  cases stream with
  | nil => exact iff_of_true rfl rfl
  | cons c rest =>
      rw [readLine]
      split <;> exact iff_of_false (List.cons_ne_nil _ _) (List.cons_ne_nil _ _)

/-- What follows a line that is not empty is shorter. -/
theorem length_readLine_lt {stream : List A} (hline : (readLine mark stream).1 ≠ []) :
    (readLine mark stream).2.length < stream.length := by
  have hsplit := congrArg List.length (@readLine_append A _ mark stream)
  have hpos := List.length_pos_iff.mpr hline
  rw [List.length_append] at hsplit
  omega

/-- A written line is read. -/
theorem readLine_of_line {line : List A} (hline : mark ∉ line) (rest : List A) :
    readLine mark (line ++ mark :: rest) = (line ++ [mark], rest) := by
  induction line with
  | nil => rw [List.nil_append, readLine, if_pos rfl, List.nil_append]
  | cons c line ih =>
      obtain ⟨hc, hline⟩ := List.ne_and_not_mem_of_not_mem_cons hline
      rw [List.cons_append, readLine, if_neg (Ne.symm hc), ih hline]
      rfl

/-- The last line may have no mark. -/
theorem readLine_of_not_mem {line : List A} (hline : mark ∉ line) :
    readLine mark line = (line, []) := by
  induction line with
  | nil => rfl
  | cons c line ih =>
      obtain ⟨hc, hline⟩ := List.ne_and_not_mem_of_not_mem_cons hline
      rw [readLine, if_neg (Ne.symm hc), ih hline]

end Lines

end Lib
