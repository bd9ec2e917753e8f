/-
The relative paths of the contracts.  One expression with three look-aheads tells
them; read without it, they are the paths of one line that name no root, no drive
and no step up, and so they stay below any directory they are joined to.
-/
import HermesPipeline.Lib.Lexical
import HermesPipeline.Lib.Pieces
import HermesPipeline.ScalarBoundaries

namespace HermesPipeline

open Lib Lib.Lexical

namespace RelativePaths

def IsLetter (c : Char) : Prop := ('A' ≤ c ∧ c ≤ 'Z') ∨ ('a' ≤ c ∧ c ≤ 'z')

/-- A path from no root and of no drive, without a step up. -/
structure IsRelative (text : String) : Prop where
  nonempty : 1 ≤ text.length
  bounded : text.length ≤ 512
  oneLine : '\n' ∉ text.toList
  noBackslash : '\\' ∉ text.toList
  noRoot : text.toList.head? ≠ some '/'
  noDrive : ∀ c rest, text.toList = c :: ':' :: rest → ¬ IsLetter c
  noUp : ['.', '.'] ∉ text.toList.splitOn '/'

/-- Where a path leads to by its text alone: from the top or not, how far up from
there, and by which names. -/
structure Location where
  absolute : Bool
  ups : Nat
  names : List (List Char)
deriving Repr, DecidableEq

/-- The lexical resolution of a path; nothing is above the top. -/
def location (text : List Char) : Location where
  absolute := text.head? = some '/'
  ups := if text.head? = some '/' then 0 else (resolve (steps '/' text)).1
  names := (resolve (steps '/' text)).2

/-- `root/path`. -/
def join (root path : List Char) : List Char :=
  if path.head? = some '/' then path
  else if root = [] ∨ root.getLast? = some '/' then root ++ path
  else root ++ '/' :: path

/-- The location itself, or one below it. -/
def Below (root other : Location) : Prop :=
  other.absolute = root.absolute ∧ other.ups = root.ups ∧ root.names <+: other.names

section Expression

open CharClass Regex ScalarBoundaries

variable {dollar : Dollar} {place : Cursor} {P : Cursor → Prop} {text : List Char}

theorem dot_has (c : Char) : CharClass.dot.has c = true ↔ c ≠ '\n' := by
  simp [CharClass.has]

/-- A look-ahead, then the rest. -/
theorem reaches_unless (regex next : Regex) :
    (seq (notAhead regex) next).Reaches dollar place P ↔
      ¬ regex.Reaches dollar place (fun _ => True) ∧ next.Reaches dollar place P := by
  rw [reaches_seq, reaches_notAhead]

theorem reaches_root :
    (letter '/').Reaches dollar place (fun _ => True) ↔ place.rest.head? = some '/' := by
  rw [reaches_letter, List.head?_eq_some_iff]
  simp only [and_true]

theorem reaches_drive :
    (seq (many (.ranges [('A', 'Z'), ('a', 'z')]) 1 (some 1)) (letter ':')).Reaches dollar
        place (fun _ => True) ↔
      ∃ c rest, place.rest = c :: ':' :: rest ∧ IsLetter c := by
  rw [reaches_seq, reaches_one]
  simp only [reaches_letter, and_true]
  have hletter : ∀ c, (CharClass.ranges [('A', 'Z'), ('a', 'z')]).has c = true ↔
      IsLetter c := by
    intro c
    simp [CharClass.has, IsLetter]
  constructor
  · rintro ⟨c, _, hrest, hc, rest, rfl⟩
    exact ⟨c, rest, hrest, (hletter c).mp hc⟩
  · rintro ⟨c, rest, hrest, hc⟩
    exact ⟨c, _, hrest, (hletter c).mpr hc, rest, rfl⟩

theorem reaches_backslash (hline : '\n' ∉ place.rest) :
    (seq (many .dot 0 none) (letter '\\')).Reaches dollar place (fun _ => True) ↔
      '\\' ∈ place.rest := by
  rw [reaches_seq, reaches_many]
  simp only [reaches_letter, dot_has, and_true]
  constructor
  · rintro ⟨used, _, hrest, -, -, -, rest, rfl⟩
    rw [hrest]
    exact List.mem_append_right _ List.mem_cons_self
  · intro hmem
    obtain ⟨used, rest, hrest⟩ := List.append_of_mem hmem
    refine ⟨used, _, hrest, ?_, Nat.zero_le _, by simp, rest, rfl⟩
    rintro c hc rfl
    exact hline (hrest ▸ List.mem_append_left _ hc)

/-- The look-ahead for a step up finds two dots that are a segment. -/
theorem reaches_up (hline : '\n' ∉ text) :
    (seq (many .dot 0 none) (seq (alt .start (letter '/'))
        (seq (letter '.') (seq (letter '.') (alt (letter '/') .finish))))).Reaches
          atLastLine ⟨true, text⟩ (fun _ => True) ↔
      ['.', '.'] ∈ text.splitOn '/' := by
  rw [Pieces.mem_splitOn_iff]
  simp only [reaches_seq, reaches_many, reaches_alt, reaches_start, reaches_letter,
    reaches_finish, dot_has, and_true, Bool.true_and, List.isEmpty_iff]
  have hlast : ∀ rest, rest <:+ text → (atLastLine rest = true ↔ rest = []) := by
    rintro rest ⟨front, rfl⟩
    have hne : rest ≠ ['\n'] := by
      rintro rfl
      exact hline (List.mem_append_right _ List.mem_cons_self)
    simp [atLastLine, hne]
  constructor
  · rintro ⟨front, rest, rfl, -, -, -, hdots⟩
    refine ⟨by decide, ?_⟩
    have hends : ∀ dots, (∃ tail, dots = '.' :: tail ∧ ∃ tail', tail = '.' :: tail' ∧
        ((∃ after, tail' = '/' :: after) ∨ atLastLine tail' = true)) → dots <:+ front ++ rest →
        ∃ after, dots = '.' :: '.' :: after ∧ Pieces.Ends '/' after := by
      rintro dots ⟨_, rfl, after, rfl, ⟨after', rfl⟩ | hend⟩ hsuffix
      · exact ⟨_, rfl, .inr rfl⟩
      · have hafter : after <:+ front ++ rest :=
          ((List.suffix_cons _ _).trans (List.suffix_cons _ _)).trans hsuffix
        exact ⟨after, rfl, .inl ((hlast after hafter).mp hend)⟩
    rcases hdots with ⟨rfl, hdots⟩ | ⟨dots, rfl, hdots⟩
    · obtain ⟨after, rfl, hafter⟩ := hends rest hdots (List.suffix_append _ _)
      exact ⟨[], after, rfl, .inl rfl, hafter⟩
    · obtain ⟨after, rfl, hafter⟩ := hends dots hdots
        ((List.suffix_cons _ _).trans (List.suffix_append _ _))
      exact ⟨front ++ ['/'], after, by simp, .inr (by simp), hafter⟩
  · rintro ⟨-, front, after, rfl, hfront, hafter⟩
    have hdots : ∃ tail, '.' :: '.' :: after = '.' :: tail ∧ ∃ tail', tail = '.' :: tail' ∧
        ((∃ after, tail' = '/' :: after) ∨ atLastLine tail' = true) := by
      refine ⟨_, rfl, after, rfl, ?_⟩
      rcases hafter with rfl | hhead
      · exact .inr rfl
      · exact .inl (List.head?_eq_some_iff.mp hhead)
    rcases hfront with rfl | hslash
    · exact ⟨[], _, rfl, by simp, Nat.zero_le _, by simp, .inl ⟨rfl, hdots⟩⟩
    · obtain ⟨before, rfl⟩ := List.getLast?_eq_some_iff.mp hslash
      refine ⟨before, '/' :: '.' :: '.' :: after, by simp, ?_, Nat.zero_le _, by simp,
        .inr ⟨_, rfl, hdots⟩⟩
      rintro c hc rfl
      exact hline (by simp [hc])

theorem reaches_line :
    (many .dot 1 none).Reaches dollar place (fun last => last.rest = []) ↔
      place.rest ≠ [] ∧ '\n' ∉ place.rest := by
  rw [reaches_many]
  simp only [dot_has]
  constructor
  · rintro ⟨used, _, hrest, hused, hleast, -, rfl⟩
    rw [List.append_nil] at hrest
    rw [hrest]
    exact ⟨List.length_pos_iff.mp hleast, fun hmem => hused _ hmem rfl⟩
  · rintro ⟨hne, hline⟩
    refine ⟨place.rest, [], by simp, ?_, List.length_pos_iff.mpr hne, by simp, rfl⟩
    rintro c hc rfl
    exact hline hc

/-- What the expression finds in a text. -/
theorem found_iff (text : String) :
    relativePath.found text = true ↔
      text.toList.head? ≠ some '/' ∧
        (∀ c rest, text.toList = c :: ':' :: rest → ¬ IsLetter c) ∧
        ['.', '.'] ∉ text.toList.splitOn '/' ∧ '\\' ∉ text.toList ∧
        text.toList ≠ [] ∧ '\n' ∉ text.toList := by
  have hfound : relativePath.found text =
      fullmatch atLastLine (anchored relativePath.inner) text.toList := by
    rw [ScalarBoundaries.PatternedType.found]
    exact if_pos rfl
  rw [hfound, fullmatch_anchored atLastLine rfl]
  change relativePath.inner.Reaches atLastLine ⟨true, text.toList⟩
    (fun place => place.rest = []) ↔ _
  rw [relativePath, reaches_unless, reaches_root, reaches_unless, reaches_drive,
    reaches_unless, reaches_unless, reaches_line]
  refine and_congr_right fun _ => ?_
  have hdrive : (¬ ∃ c rest, text.toList = c :: ':' :: rest ∧ IsLetter c) ↔
      ∀ c rest, text.toList = c :: ':' :: rest → ¬ IsLetter c := by
    simp only [not_exists, not_and]
  rw [hdrive]
  refine and_congr_right fun _ => ?_
  by_cases hline : '\n' ∈ text.toList
  · simp [hline]
  · have hbackslash : ¬ (seq (many .dot 0 none) (letter '\\')).Reaches atLastLine
        ⟨true, text.toList⟩ (fun _ => True) ↔ '\\' ∉ text.toList :=
      not_congr (reaches_backslash hline)
    rw [reaches_up hline, hbackslash]

end Expression

/-- The authoring type accepts the relative paths. -/
theorem authored_iff (text : String) :
    ScalarBoundaries.relativePath.authored text = true ↔ IsRelative text := by
  have hwithin : ScalarBoundaries.relativePath.within text = true ↔
      1 ≤ text.length ∧ text.length ≤ 512 := by
    change (decide (1 ≤ text.length) && decide (text.length ≤ 512)) = true ↔ _
    rw [Bool.and_eq_true, decide_eq_true_eq, decide_eq_true_eq]
  rw [ScalarBoundaries.PatternedType.authored, Bool.and_eq_true, hwithin, found_iff]
  constructor
  · rintro ⟨⟨hnonempty, hbounded⟩, hroot, hdrive, hup, hbackslash, -, hline⟩
    exact ⟨hnonempty, hbounded, hline, hbackslash, hroot, hdrive, hup⟩
  · rintro ⟨hnonempty, hbounded, hline, hbackslash, hroot, hdrive, hup⟩
    refine ⟨⟨hnonempty, hbounded⟩, hroot, hdrive, hup, hbackslash, ?_, hline⟩
    rw [← String.length_toList] at hnonempty
    exact List.length_pos_iff.mp hnonempty

section Containment

variable {root path : List Char}

/-- A joined path takes the steps of the root, then its own. -/
theorem steps_join (hpath : path.head? ≠ some '/') :
    steps '/' (join root path) = steps '/' root ++ steps '/' path := by
  rw [join, if_neg hpath]
  split
  · next hends =>
      rcases hends with rfl | hlast
      · rfl
      · obtain ⟨before, rfl⟩ := List.getLast?_eq_some_iff.mp hlast
        have hroot : steps '/' (before ++ ['/']) = steps '/' before := by
          rw [steps_append]
          exact List.append_nil _
        rw [hroot, List.append_assoc, List.singleton_append, steps_append]
  · exact steps_append '/' root path

theorem head?_join (hpath : path.head? ≠ some '/') :
    (join root path).head? = some '/' ↔ root.head? = some '/' := by
  rw [join, if_neg hpath]
  cases root with
  | nil => simp [hpath]
  | cons c rest => split <;> simp

/-- A path without a step up has names only. -/
theorem steps_of_noUp (hup : ['.', '.'] ∉ path.splitOn '/') :
    ∃ ns, steps '/' path = names ns := by
  rw [steps]
  generalize path.splitOn '/' = segments at hup
  induction segments with
  | nil => exact ⟨[], rfl⟩
  | cons segment rest ih =>
      obtain ⟨ns, hns⟩ := ih fun hmem => hup (List.mem_cons_of_mem _ hmem)
      have hne : segment ≠ ['.', '.'] := fun hdots => hup (hdots ▸ List.mem_cons_self)
      rw [List.filterMap_cons, hns, segmentStep?]
      by_cases hskip : segment = [] ∨ segment = ['.']
      · exact ⟨ns, by simp [hskip]⟩
      · exact ⟨segment :: ns, by simp [hskip, hne, names]⟩

/-- A path from no root and without a step up stays below what it is joined to. -/
theorem below_join (hroot : path.head? ≠ some '/')
    (hup : ['.', '.'] ∉ path.splitOn '/') : Below (location root) (location (join root path)) := by
  obtain ⟨ns, hns⟩ := steps_of_noUp hup
  have hresolve : resolve (steps '/' (join root path)) =
      ((resolve (steps '/' root)).1, (resolve (steps '/' root)).2 ++ ns) := by
    rw [steps_join hroot, hns, resolve_append_names]
  refine ⟨?_, ?_, ?_⟩
  · simp [location, head?_join hroot]
  · simp [location, head?_join hroot, hresolve]
  · rw [location, location, hresolve]
    exact List.prefix_append _ ns

end Containment

/-- The authoring type accepts exactly the relative paths, and what it accepts
stays below every root. -/
theorem relative_path_iff (text : String) :
    (ScalarBoundaries.relativePath.authored text = true ↔ IsRelative text) ∧
      ∀ root : String, ScalarBoundaries.relativePath.authored text = true →
        Below (location root.toList) (location (join root.toList text.toList)) := by
  refine ⟨authored_iff text, fun root haccepted => ?_⟩
  have hrelative := (authored_iff text).mp haccepted
  exact below_join hrelative.noRoot hrelative.noUp

end RelativePaths

end HermesPipeline
