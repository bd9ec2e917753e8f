/-
Regular expressions with anchors and negative lookahead, over engines that differ
in what `$` takes for the end of a text.
-/
import Mathlib.Data.List.TakeWhile
import Mathlib.Data.String.Basic

namespace Lib

/-- A class of characters, as it is written. -/
inductive CharClass
  | char (letter : Char)
  | ranges (spans : List (Char × Char))
  | dot
deriving Repr, DecidableEq

namespace CharClass

def has : CharClass → Char → Bool
  | .char letter, other => letter = other
  | .ranges spans, other => spans.any fun span => span.1 ≤ other && other ≤ span.2
  | .dot, other => other ≠ '\n'

def render : CharClass → String
  | .char letter =>
      if letter = '.' || letter = '\\' then String.ofList ['\\', letter]
      else String.ofList [letter]
  | .ranges spans =>
      "[" ++ "".intercalate (spans.map fun span =>
        if span.1 = span.2 then String.ofList [span.1]
        else String.ofList [span.1, '-', span.2]) ++ "]"
  | .dot => "."

end CharClass

/-- Regular expressions that repeat classes of characters only. -/
inductive Regex
  | empty
  | many (letters : CharClass) (least : Nat) (most : Option Nat)
  | seq (first second : Regex)
  | alt (left right : Regex)
  | opt (regex : Regex)
  | start
  | finish
  | notAhead (regex : Regex)
deriving Repr, DecidableEq

/-- A place in a text: whether it is the start, and what comes after it. -/
structure Cursor where
  atStart : Bool
  rest : List Char
deriving Repr, DecidableEq

/-- The place with a line feed after the text. -/
def Cursor.feed (place : Cursor) : Cursor := ⟨place.atStart, place.rest ++ ['\n']⟩

namespace Regex

/-- The texts before which `$` matches. -/
abbrev Dollar := List Char → Bool

/-- `$` is the very end. -/
def atEnd : Dollar := fun rest => rest = []

/-- `$` is the very end, or the line feed before it. -/
def atLastLine : Dollar := fun rest => rest = [] || rest = ['\n']

/-- Where the matches that begin at a place end. -/
def ends (dollar : Dollar) : Regex → Cursor → List Cursor
  | .empty, place => [place]
  | .many letters least most, place =>
      ((List.range ((place.rest.takeWhile letters.has).length + 1)).filter fun n =>
          least ≤ n && most.all fun bound => n ≤ bound).map fun n =>
        ⟨place.atStart && n = 0, place.rest.drop n⟩
  | .seq first second, place =>
      (first.ends dollar place).flatMap (second.ends dollar)
  | .alt left right, place => left.ends dollar place ++ right.ends dollar place
  | .opt regex, place => regex.ends dollar place ++ [place]
  | .start, place => if place.atStart then [place] else []
  | .finish, place => if dollar place.rest then [place] else []
  | .notAhead regex, place =>
      if (regex.ends dollar place).isEmpty then [place] else []

/-- A match somewhere in the text. -/
def search (dollar : Dollar) (regex : Regex) (text : List Char) : Bool :=
  !(regex.ends dollar ⟨true, text⟩).isEmpty ||
    text.tails.tail.any fun rest => !(regex.ends dollar ⟨false, rest⟩).isEmpty

/-- A match of the whole text. -/
def fullmatch (dollar : Dollar) (regex : Regex) (text : List Char) : Bool :=
  (regex.ends dollar ⟨true, text⟩).any fun place => place.rest = []

/-- `^...$`. -/
def anchored (inner : Regex) : Regex := .seq .start (.seq inner .finish)

/-- No class has the line feed. -/
def oneLine : Regex → Bool
  | .empty => true
  | .many letters _ _ => !letters.has '\n'
  | .seq first second => first.oneLine && second.oneLine
  | .alt left right => left.oneLine && right.oneLine
  | .opt regex => regex.oneLine
  | .start => true
  | .finish => true
  | .notAhead regex => regex.oneLine

/-- The word itself. -/
def word (letters : List Char) (next : Regex) : Regex :=
  letters.foldr (fun letter rest => .seq (.many (.char letter) 1 (some 1)) rest) next

/-- The expression as it is written. -/
def render : Regex → String
  | .empty => ""
  | .many letters least most =>
      letters.render ++
        match least, most with
        | 1, some 1 => ""
        | 0, none => "*"
        | 1, none => "+"
        | least, some most =>
            if least = most then "\x7b" ++ toString least ++ "\x7d"
            else "\x7b" ++ toString least ++ "," ++ toString most ++ "\x7d"
        | least, none => "\x7b" ++ toString least ++ ",\x7d"
  | .seq first second => first.render ++ second.render
  | .alt left right => "(?:" ++ left.render ++ "|" ++ right.render ++ ")"
  | .opt regex => "(" ++ regex.render ++ ")?"
  | .start => "^"
  | .finish => "$"
  | .notAhead regex => "(?!" ++ regex.render ++ ")"

theorem mem_ends_many {dollar : Dollar} {letters : CharClass} {least : Nat}
    {most : Option Nat} {place place' : Cursor} :
    place' ∈ (many letters least most).ends dollar place ↔
      ∃ n, n ≤ (place.rest.takeWhile letters.has).length ∧
        (least ≤ n && most.all fun bound => decide (n ≤ bound)) = true ∧
        place' = ⟨place.atStart && decide (n = 0), place.rest.drop n⟩ := by
  simp only [ends, List.mem_map, List.mem_filter, List.mem_range, Nat.lt_succ_iff]
  constructor
  · rintro ⟨n, ⟨hn, hbounds⟩, rfl⟩
    exact ⟨n, hn, hbounds, rfl⟩
  · rintro ⟨n, hn, hbounds, rfl⟩
    exact ⟨n, ⟨hn, hbounds⟩, rfl⟩

/-- What consumes nothing stays at its place. -/
theorem eq_of_mem_guard {test : Prop} [Decidable test] {place place' : Cursor}
    (hmem : place' ∈ if test then [place] else []) : place' = place := by
  split at hmem
  · exact List.mem_singleton.mp hmem
  · cases hmem

theorem consumes_nothing (place : Cursor) (line : Bool) :
    ∃ used, place.rest = used ++ place.rest ∧ (line = true → '\n' ∉ used) :=
  ⟨[], rfl, fun _ => List.not_mem_nil⟩

/-- A match consumes a piece of the text, which has no line feed where no class
has it. -/
theorem consumes {dollar : Dollar} {regex : Regex} {place place' : Cursor}
    (hmem : place' ∈ regex.ends dollar place) :
    ∃ used, place.rest = used ++ place'.rest ∧
      (regex.oneLine = true → '\n' ∉ used) := by
  induction regex generalizing place place' with
  | empty =>
      obtain rfl := List.mem_singleton.mp hmem
      exact consumes_nothing _ _
  | many letters least most =>
      obtain ⟨n, hn, -, rfl⟩ := mem_ends_many.mp hmem
      refine ⟨place.rest.take n, (List.take_append_drop n place.rest).symm, ?_⟩
      intro hline hfeed
      have htake := List.prefix_iff_eq_take.mp
        (List.takeWhile_prefix letters.has : _ <+: place.rest)
      have hstart : place.rest.take n <+: place.rest.takeWhile letters.has := by
        rw [htake]
        exact List.take_prefix_take_left hn
      have hhas := List.mem_takeWhile_imp (hstart.subset hfeed)
      simp [oneLine, hhas] at hline
  | seq first second ihfirst ihsecond =>
      obtain ⟨middle, hfirst, hsecond⟩ := List.mem_flatMap.mp hmem
      obtain ⟨used, hused, hfeed⟩ := ihfirst hfirst
      obtain ⟨used', hused', hfeed'⟩ := ihsecond hsecond
      refine ⟨used ++ used', by rw [hused, hused', List.append_assoc], ?_⟩
      intro hline
      simp only [oneLine, Bool.and_eq_true] at hline
      simp [hfeed hline.1, hfeed' hline.2]
  | alt left right ihleft ihright =>
      rcases List.mem_append.mp hmem with hleft | hright
      · obtain ⟨used, hused, hfeed⟩ := ihleft hleft
        refine ⟨used, hused, fun hline => hfeed ?_⟩
        exact (Bool.and_eq_true_iff.mp hline).1
      · obtain ⟨used, hused, hfeed⟩ := ihright hright
        refine ⟨used, hused, fun hline => hfeed ?_⟩
        exact (Bool.and_eq_true_iff.mp hline).2
  | opt regex ih =>
      rcases List.mem_append.mp hmem with hregex | hskipped
      · exact ih hregex
      · obtain rfl := List.mem_singleton.mp hskipped
        exact consumes_nothing _ _
  | start =>
      obtain rfl := eq_of_mem_guard hmem
      exact consumes_nothing _ _
  | finish =>
      obtain rfl := eq_of_mem_guard hmem
      exact consumes_nothing _ _
  | notAhead regex ih =>
      obtain rfl := eq_of_mem_guard hmem
      exact consumes_nothing _ _

theorem rest_suffix {dollar : Dollar} {regex : Regex} {place place' : Cursor}
    (hmem : place' ∈ regex.ends dollar place) : place'.rest <:+ place.rest := by
  obtain ⟨used, hused, -⟩ := consumes hmem
  exact ⟨used, hused.symm⟩

/-- Engines that agree on what is the end in a text find the same matches. -/
theorem ends_congr {dollar dollar' : Dollar} (regex : Regex) {place : Cursor}
    (hsame : ∀ rest, rest <:+ place.rest → dollar rest = dollar' rest) :
    regex.ends dollar place = regex.ends dollar' place := by
  induction regex generalizing place with
  | empty => rfl
  | many letters least most => rfl
  | seq first second ihfirst ihsecond =>
      rw [ends, ends, ← ihfirst hsame]
      refine List.flatMap_congr fun middle hmiddle => ihsecond fun rest hrest => ?_
      exact hsame rest (hrest.trans (rest_suffix hmiddle))
  | alt left right ihleft ihright => rw [ends, ends, ihleft hsame, ihright hsame]
  | opt regex ih => rw [ends, ends, ih hsame]
  | start => rfl
  | finish => rw [ends, ends, hsame place.rest (List.suffix_refl _)]
  | notAhead regex ih => rw [ends, ends, ih hsame]

theorem atLastLine_feed {rest : List Char} (hline : '\n' ∉ rest) :
    atLastLine (rest ++ ['\n']) = atLastLine rest := by
  cases rest with
  | nil => rfl
  | cons letter rest =>
      have hne : letter ≠ '\n' := fun hsame => hline (hsame ▸ List.mem_cons_self)
      simp [atLastLine, hne]

/-- On one line, a line feed after the text changes no match. -/
theorem ends_feed (regex : Regex) (place : Cursor) (hclasses : regex.oneLine = true)
    (hline : '\n' ∉ place.rest) :
    regex.ends atLastLine place.feed =
      (regex.ends atLastLine place).map Cursor.feed := by
  induction regex generalizing place with
  | empty => rfl
  | many letters least most =>
      have hfeed : letters.has '\n' = false := by simpa [oneLine] using hclasses
      have htake : (place.rest ++ ['\n']).takeWhile letters.has =
          place.rest.takeWhile letters.has := by
        rw [List.takeWhile_append]
        split
        · rename_i hall
          rw [List.takeWhile_cons_of_neg (by simp [hfeed]), List.append_nil]
          exact ((List.takeWhile_prefix _).eq_of_length hall).symm
        · rfl
      rw [ends, ends, Cursor.feed, htake, List.map_map]
      refine List.map_congr_left fun n hn => ?_
      have hle : n ≤ place.rest.length := by
        have hlt := List.mem_range.mp (List.mem_filter.mp hn).1
        have htaken := (List.takeWhile_prefix letters.has : _ <+: place.rest).length_le
        omega
      rw [Function.comp_apply, Cursor.feed, List.drop_append_of_le_length hle]
  | seq first second ihfirst ihsecond =>
      simp only [oneLine, Bool.and_eq_true] at hclasses
      rw [ends, ends, ihfirst place hclasses.1 hline, List.flatMap_map, List.map_flatMap]
      refine List.flatMap_congr fun middle hmiddle => ihsecond middle hclasses.2 ?_
      exact fun hmem => hline ((rest_suffix hmiddle).subset hmem)
  | alt left right ihleft ihright =>
      simp only [oneLine, Bool.and_eq_true] at hclasses
      rw [ends, ends, ihleft place hclasses.1 hline,
        ihright place hclasses.2 hline, List.map_append]
  | opt regex ih => rw [ends, ends, ih place hclasses hline, List.map_append]; rfl
  | start =>
      rw [ends, ends]
      cases hstart : place.atStart <;> simp [Cursor.feed, hstart]
  | finish =>
      rw [ends, ends, Cursor.feed, atLastLine_feed hline]
      cases atLastLine place.rest <;> simp [Cursor.feed]
  | notAhead regex ih =>
      rw [ends, ends, ih place hclasses hline, List.isEmpty_map]
      split <;> rfl

section Reaching

variable {dollar : Dollar} {place : Cursor} {P : Cursor → Prop}

/-- Some match that begins at a place ends at one with the property. -/
def Reaches (dollar : Dollar) (regex : Regex) (place : Cursor) (P : Cursor → Prop) :
    Prop :=
  ∃ place' ∈ regex.ends dollar place, P place'

theorem reaches_seq (first second : Regex) :
    (seq first second).Reaches dollar place P ↔
      first.Reaches dollar place fun middle => second.Reaches dollar middle P := by
  simp only [Reaches, ends, List.mem_flatMap]
  constructor
  · rintro ⟨place', ⟨middle, hmiddle, hplace'⟩, hP⟩
    exact ⟨middle, hmiddle, place', hplace', hP⟩
  · rintro ⟨middle, hmiddle, place', hplace', hP⟩
    exact ⟨place', ⟨middle, hmiddle, hplace'⟩, hP⟩

/-- A repeated class takes a piece of its characters. -/
theorem reaches_many (letters : CharClass) (least : Nat) (most : Option Nat) :
    (many letters least most).Reaches dollar place P ↔
      ∃ used rest, place.rest = used ++ rest ∧ (∀ c ∈ used, letters.has c = true) ∧
        least ≤ used.length ∧ (∀ bound ∈ most, used.length ≤ bound) ∧
        P ⟨place.atStart && used.isEmpty, rest⟩ := by
  have hempty : ∀ n, n ≤ place.rest.length →
      (place.rest.take n).isEmpty = decide (n = 0) := by
    intro n hn
    cases n with
    | zero => simp
    | succ n =>
        cases hrest : place.rest with
        | nil => simp [hrest] at hn
        | cons c rest => simp
  simp only [Reaches, mem_ends_many]
  constructor
  · rintro ⟨_, ⟨n, hn, hbounds, rfl⟩, hP⟩
    have hle : n ≤ place.rest.length :=
      hn.trans (List.takeWhile_prefix letters.has).length_le
    simp only [Bool.and_eq_true, decide_eq_true_eq] at hbounds
    refine ⟨place.rest.take n, place.rest.drop n,
      (List.take_append_drop n place.rest).symm, ?_, ?_, ?_, ?_⟩
    · intro c hc
      have hstart : place.rest.take n <+: place.rest.takeWhile letters.has := by
        rw [List.prefix_iff_eq_take.mp (List.takeWhile_prefix letters.has : _ <+: place.rest)]
        exact List.take_prefix_take_left hn
      exact List.mem_takeWhile_imp (hstart.subset hc)
    · simpa [hle] using hbounds.1
    · intro bound hbound
      have hmost := hbounds.2
      rw [hbound] at hmost
      simpa [hle] using hmost
    · rwa [hempty n hle]
  · rintro ⟨used, rest, hrest, hused, hleast, hmost, hP⟩
    refine ⟨_, ⟨used.length, ?_, ?_, rfl⟩, ?_⟩
    · rw [hrest, List.takeWhile_append_of_pos hused]
      simp
    · simp only [hleast, decide_true, Bool.true_and]
      cases most with
      | none => rfl
      | some bound => simpa using hmost bound rfl
    · have hdrop : place.rest.drop used.length = rest := by
        rw [hrest, List.drop_left]
      have hnone : used.isEmpty = decide (used.length = 0) := by
        cases used <;> simp
      rwa [hdrop, ← hnone]

/-- One character of a class. -/
theorem reaches_one (letters : CharClass) :
    (many letters 1 (some 1)).Reaches dollar place P ↔
      ∃ c rest, place.rest = c :: rest ∧ letters.has c = true ∧ P ⟨false, rest⟩ := by
  rw [reaches_many]
  constructor
  · rintro ⟨used, rest, hrest, hused, hleast, hmost, hP⟩
    obtain ⟨c, rfl⟩ := List.length_eq_one_iff.mp (Nat.le_antisymm (hmost 1 rfl) hleast)
    exact ⟨c, rest, hrest, hused c List.mem_cons_self, by simpa using hP⟩
  · rintro ⟨c, rest, hrest, hc, hP⟩
    exact ⟨[c], rest, hrest, by simpa using hc, Nat.le_refl 1, by simp, by simpa using hP⟩

theorem reaches_char (c : Char) :
    (many (.char c) 1 (some 1)).Reaches dollar place P ↔
      ∃ rest, place.rest = c :: rest ∧ P ⟨false, rest⟩ := by
  rw [reaches_one]
  constructor
  · rintro ⟨c', rest, hrest, hc, hP⟩
    obtain rfl : c = c' := by simpa [CharClass.has] using hc
    exact ⟨rest, hrest, hP⟩
  · rintro ⟨rest, hrest, hP⟩
    exact ⟨c, rest, hrest, by simp [CharClass.has], hP⟩

theorem reaches_alt (left right : Regex) :
    (alt left right).Reaches dollar place P ↔
      left.Reaches dollar place P ∨ right.Reaches dollar place P := by
  simp only [Reaches, ends, List.mem_append, or_and_right, exists_or]

theorem reaches_opt (regex : Regex) :
    (opt regex).Reaches dollar place P ↔ regex.Reaches dollar place P ∨ P place := by
  simp [Reaches, ends, or_and_right, exists_or]

theorem reaches_guard {test : Prop} [Decidable test] :
    (∃ place' ∈ if test then [place] else [], P place') ↔ test ∧ P place := by
  by_cases htest : test <;> simp [htest]

theorem reaches_start :
    start.Reaches dollar place P ↔ place.atStart = true ∧ P place := reaches_guard

theorem reaches_finish :
    finish.Reaches dollar place P ↔ dollar place.rest = true ∧ P place := reaches_guard

theorem reaches_notAhead (regex : Regex) :
    (notAhead regex).Reaches dollar place P ↔
      ¬ regex.Reaches dollar place (fun _ => True) ∧ P place := by
  rw [Reaches, ends, reaches_guard]
  simp [Reaches, List.eq_nil_iff_forall_not_mem]

end Reaching

section Anchored

variable {inner : Regex} {text : List Char}

/-- An anchored expression matches from the start of a text, or not at all. -/
theorem search_anchored (dollar : Dollar) :
    search dollar (anchored inner) text = true ↔
      ∃ place ∈ inner.ends dollar ⟨true, text⟩, dollar place.rest = true := by
  have hlater : (text.tails.tail.any fun rest =>
      !((anchored inner).ends dollar ⟨false, rest⟩).isEmpty) = false := by
    rw [List.any_eq_false]
    intro rest _
    simp [anchored, ends]
  rw [search, hlater, Bool.or_false, Bool.not_eq_true', List.isEmpty_eq_false_iff_exists_mem]
  simp only [anchored, ends, if_true, List.flatMap_cons, List.flatMap_nil,
    List.append_nil, List.mem_flatMap]
  constructor
  · rintro ⟨_, place, hplace, hguard⟩
    refine ⟨place, hplace, ?_⟩
    by_contra hend
    simp [hend] at hguard
  · rintro ⟨place, hplace, hend⟩
    exact ⟨place, place, hplace, by simp [hend]⟩

theorem fullmatch_anchored (dollar : Dollar) (hend : dollar [] = true) :
    fullmatch dollar (anchored inner) text = true ↔
      ∃ place ∈ inner.ends dollar ⟨true, text⟩, place.rest = [] := by
  rw [fullmatch, List.any_eq_true]
  simp only [anchored, ends, if_true, List.flatMap_cons, List.flatMap_nil,
    List.append_nil, List.mem_flatMap, decide_eq_true_eq]
  constructor
  · rintro ⟨place', ⟨place, hplace, hguard⟩, hrest⟩
    obtain rfl := eq_of_mem_guard hguard
    exact ⟨place', hplace, hrest⟩
  · rintro ⟨place, hplace, hrest⟩
    exact ⟨place, ⟨place, hplace, by simp [hrest, hend]⟩, hrest⟩

/-- What is matched to its end has no line feed. -/
theorem not_mem_of_fullmatch (hclasses : inner.oneLine = true)
    (hmatch : fullmatch atLastLine (anchored inner) text = true) : '\n' ∉ text := by
  obtain ⟨place, hplace, hrest⟩ := (fullmatch_anchored atLastLine rfl).mp hmatch
  obtain ⟨used, hused, hfeed⟩ := consumes hplace
  rw [hrest, List.append_nil] at hused
  rw [show text = used from hused]
  exact hfeed hclasses

/-- With `$` at the very end, a search for an anchored expression is a match of
the whole text. -/
theorem search_atEnd_iff (hclasses : inner.oneLine = true) :
    search atEnd (anchored inner) text = true ↔
      fullmatch atLastLine (anchored inner) text = true := by
  rw [search_anchored, fullmatch_anchored atLastLine rfl]
  have hstops : ∀ rest, atEnd rest = true ↔ rest = [] := by simp [atEnd]
  simp only [hstops]
  by_cases hfeed : ∃ line, text = line ++ ['\n']
  · obtain ⟨line, rfl⟩ := hfeed
    -- the line feed at the end is never consumed
    have hnever : ∀ dollar, ∀ place ∈ inner.ends dollar ⟨true, line ++ ['\n']⟩,
        place.rest ≠ [] := by
      intro dollar place hplace hrest
      obtain ⟨used, hused, hnone⟩ := consumes hplace
      rw [hrest, List.append_nil] at hused
      exact hnone hclasses (hused ▸ List.mem_append_right _ List.mem_cons_self)
    constructor
    · rintro ⟨place, hplace, hrest⟩
      exact absurd hrest (hnever _ place hplace)
    · rintro ⟨place, hplace, hrest⟩
      exact absurd hrest (hnever _ place hplace)
  · have hsame : ∀ rest, rest <:+ text → atEnd rest = atLastLine rest := by
      rintro rest ⟨line, rfl⟩
      have hne : rest ≠ ['\n'] := fun hrest => hfeed ⟨line, by rw [hrest]⟩
      simp [atEnd, atLastLine, hne]
    rw [ends_congr inner hsame]

/-- With `$` before a last line feed as well, a search also finds the texts with
one line feed after a match. -/
theorem search_atLastLine_iff (hclasses : inner.oneLine = true) :
    search atLastLine (anchored inner) text = true ↔
      fullmatch atLastLine (anchored inner) text = true ∨
        ∃ line, text = line ++ ['\n'] ∧
          fullmatch atLastLine (anchored inner) line = true := by
  rw [search_anchored]
  constructor
  · rintro ⟨place, hplace, hend⟩
    have hrest : place.rest = [] ∨ place.rest = ['\n'] := by
      simpa [atLastLine] using hend
    rcases hrest with hrest | hrest
    · exact .inl ((fullmatch_anchored atLastLine rfl).mpr ⟨place, hplace, hrest⟩)
    · obtain ⟨used, hused, hnone⟩ := consumes hplace
      have htext : text = used ++ ['\n'] := by rw [← hrest]; exact hused
      refine .inr ⟨used, htext, (fullmatch_anchored atLastLine rfl).mpr ?_⟩
      have hfeed := ends_feed inner ⟨true, used⟩ hclasses (hnone hclasses)
      rw [Cursor.feed, ← htext] at hfeed
      rw [hfeed] at hplace
      obtain ⟨place', hplace', rfl⟩ := List.mem_map.mp hplace
      exact ⟨place', hplace', by simpa [Cursor.feed] using hrest⟩
  · rintro (hmatch | ⟨line, rfl, hmatch⟩)
    · obtain ⟨place, hplace, hrest⟩ := (fullmatch_anchored atLastLine rfl).mp hmatch
      exact ⟨place, hplace, by simp [atLastLine, hrest]⟩
    · have hline := not_mem_of_fullmatch hclasses hmatch
      obtain ⟨place, hplace, hrest⟩ := (fullmatch_anchored atLastLine rfl).mp hmatch
      have hfeed := ends_feed inner ⟨true, line⟩ hclasses hline
      refine ⟨place.feed, ?_, by simp [Cursor.feed, atLastLine, hrest]⟩
      rw [← Cursor.feed.eq_1 ⟨true, line⟩, hfeed]
      exact List.mem_map_of_mem hplace

end Anchored

end Regex

end Lib
