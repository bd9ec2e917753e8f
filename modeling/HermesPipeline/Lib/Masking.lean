/-
Words masked one after another: each of their occurrences is replaced by one mask. The
letters may carry more than the words are compared by, such as where they come from.
-/
import HermesPipeline.Lib.Substitution

namespace Lib

namespace Masking

open Substitution

universe u v

variable {A : Type u}

/-- A word that starts nowhere in a mask, however the mask goes on. -/
structure Inert (mark : A) (more word : List A) : Prop where
  nonempty : word ≠ []
  unmarked : mark ∉ word
  outside : ∀ tail, tail <:+ mark :: more → tail ≠ [] → ∀ rest, ¬ word <+: tail ++ rest

/-- Occurrences of words in a text that share a letter are the same. -/
def Apart (words : List (List A)) (text : List A) : Prop :=
  ∀ first ∈ words, ∀ second ∈ words, ∀ rest, rest <:+ text → first <+: rest →
    ∀ k < first.length, second <+: rest.drop k → k = 0 ∧ first = second

/-- No word is a part of another one, and none ends as one of them starts. -/
structure Solid (words : List (List A)) : Prop where
  unnested : ∀ first ∈ words, ∀ second ∈ words, first <:+: second → first = second
  borderless : ∀ first ∈ words, ∀ second ∈ words, ∀ shared, shared <:+ first → shared ≠ [] →
    shared ≠ first → ¬ shared <+: second

variable {words : List (List A)} {text : List A}

theorem Apart.suffix {rest : List A} (hapart : Apart words text) (hrest : rest <:+ text) :
    Apart words rest := by
  intro first hfirst second hsecond tail htail
  exact hapart first hfirst second hsecond tail (htail.trans hrest)

theorem Apart.subset {fewer : List (List A)} (hapart : Apart words text)
    (hfewer : ∀ word ∈ fewer, word ∈ words) : Apart fewer text := by
  intro first hfirst second hsecond
  exact hapart first (hfewer first hfirst) second (hfewer second hsecond)

/-- The words of a solid list overlap in no text. -/
theorem Solid.apart (hsolid : Solid words) (text : List A) : Apart words text := by
  intro first hfirst second hsecond rest _ hstarts k hk hlater
  rcases Nat.eq_zero_or_pos k with rfl | hpos
  · refine ⟨rfl, ?_⟩
    rcases List.prefix_or_prefix_of_prefix hstarts hlater with hpart | hpart
    · exact hsolid.unnested first hfirst second hsecond hpart.isInfix
    · exact (hsolid.unnested second hsecond first hfirst hpart.isInfix).symm
  · exfalso
    have hshared : first.drop k <+: rest.drop k := hstarts.drop k
    rcases List.prefix_or_prefix_of_prefix hshared hlater with hpart | hpart
    · refine hsolid.borderless first hfirst second hsecond _ (List.drop_suffix k first) ?_ ?_ hpart
      · exact List.ne_nil_of_length_pos (by rw [List.length_drop]; omega)
      · intro hsame
        have hlength := congrArg List.length hsame
        rw [List.length_drop] at hlength
        omega
    · have hwithin : second <:+: first := hpart.isInfix.trans (List.drop_suffix k first).isInfix
      have hsame := hsolid.unnested second hsecond first hfirst hwithin
      have hlength := hpart.length_le
      rw [hsame, List.length_drop] at hlength
      omega

/-- A front ends before a letter that it does not have. -/
theorem starts_of_not_mem {word left right : List A} {c : A} (hc : c ∉ word)
    (hbegins : word <+: left ++ c :: right) : word <+: left := by
  rcases List.prefix_or_prefix_of_prefix hbegins (List.prefix_append left (c :: right)) with
    hpart | hpart
  · exact hpart
  · obtain ⟨rest, rfl⟩ := hpart
    rw [List.prefix_append_right_inj] at hbegins
    cases rest with
    | nil => rw [List.append_nil]
    | cons head rest =>
        refine absurd ?_ hc
        rw [← (List.cons_prefix_cons.mp hbegins).1]
        exact List.mem_append_right _ List.mem_cons_self

theorem sub_ne_nil {mark : A} {more : List A} {matchAt : List A → Option Nat} (htext : text ≠ []) :
    sub matchAt (mark :: more) text ≠ [] := by
  cases text with
  | nil => exact absurd rfl htext
  | cons c rest =>
      rw [sub, subFrom]
      split <;> exact List.cons_ne_nil _ _

/-- The letters of a text with their places. -/
def placed : Nat → List A → List (A × Option Nat)
  | _, [] => []
  | first, c :: rest => (c, some first) :: placed (first + 1) rest

@[simp] theorem map_placed (first : Nat) (text : List A) :
    (placed first text).map Prod.fst = text := by
  induction text generalizing first with
  | nil => rfl
  | cons c rest ih => rw [placed, List.map_cons, ih]

theorem drop_placed (first k : Nat) (text : List A) :
    (placed first text).drop k = placed (first + k) (text.drop k) := by
  induction text generalizing first k with
  | nil => cases k <;> rfl
  | cons c rest ih =>
      cases k with
      | zero => rfl
      | succ k =>
          rw [placed, List.drop_succ_cons, ih, List.drop_succ_cons, Nat.add_right_comm,
            Nat.add_assoc]

variable [DecidableEq A]

/-- The length of the first of the words that a text starts with. -/
def wordsAt (words : List (List A)) (text : List A) : Option Nat :=
  words.findSome? fun word => wordAt word text

theorem wordAt_eq_some_iff {word : List A} {length : Nat} :
    wordAt word text = some length ↔ word <+: text ∧ length = word.length := by
  rw [wordAt]
  split
  · next hbegins => simp [hbegins, eq_comm]
  · next hbegins => simp [hbegins]

theorem wordAt_eq_none_iff {word : List A} : wordAt word text = none ↔ ¬ word <+: text := by
  rw [wordAt]
  split
  · next hbegins => simp [hbegins]
  · next hbegins => simp [hbegins]

theorem wordsAt_eq_none_iff :
    wordsAt words text = none ↔ ∀ word ∈ words, ¬ word <+: text := by
  rw [wordsAt, List.findSome?_eq_none_iff]
  exact forall₂_congr fun word _ => wordAt_eq_none_iff

theorem exists_of_wordsAt {length : Nat} (hmatch : wordsAt words text = some length) :
    ∃ word ∈ words, word <+: text ∧ length = word.length := by
  obtain ⟨word, hword, hat⟩ := List.exists_of_findSome?_eq_some hmatch
  exact ⟨word, hword, wordAt_eq_some_iff.mp hat⟩

/-- Where occurrences are apart, at most one word starts at a place. -/
theorem wordsAt_of_starts (hapart : Apart words text) (hnonempty : ∀ word ∈ words, word ≠ [])
    {word : List A} (hword : word ∈ words) (hbegins : word <+: text) :
    wordsAt words text = some word.length := by
  cases hmatch : wordsAt words text with
  | none => exact absurd hbegins (wordsAt_eq_none_iff.mp hmatch word hword)
  | some length =>
      obtain ⟨other, hother, hstarts, rfl⟩ := exists_of_wordsAt hmatch
      have hpos := List.length_pos_iff.mpr (hnonempty other hother)
      rw [(hapart other hother word hword text (List.suffix_refl _) hstarts 0 hpos hbegins).2]

/-- The order of the words is not seen where their occurrences are apart. -/
theorem wordsAt_perm {others : List (List A)} (hapart : Apart words text)
    (hnonempty : ∀ word ∈ words, word ≠ []) (hperm : others.Perm words) :
    wordsAt others text = wordsAt words text := by
  cases hmatch : wordsAt others text with
  | none =>
      refine (wordsAt_eq_none_iff.mpr fun word hword => ?_).symm
      exact wordsAt_eq_none_iff.mp hmatch word (hperm.mem_iff.mpr hword)
  | some length =>
      obtain ⟨word, hword, hbegins, rfl⟩ := exists_of_wordsAt hmatch
      exact (wordsAt_of_starts hapart hnonempty (hperm.mem_iff.mp hword) hbegins).symm

section Images

variable {B : Type v} {image : B → A} {mask : List B} {mark : A} {more : List A}

/-- A word masked wherever the images of the letters spell it. -/
def maskWord (image : B → A) (mask : List B) (text : List B) (word : List A) : List B :=
  sub (fun rest => wordAt word (rest.map image)) mask text

/-- The words of a list masked one after another. -/
def maskAll (image : B → A) (mask : List B) (words : List (List A)) (text : List B) : List B :=
  words.foldl (maskWord image mask) text

/-- All the words masked in one pass. -/
def maskOnce (image : B → A) (mask : List B) (words : List (List A)) (text : List B) : List B :=
  sub (fun rest => wordsAt words (rest.map image)) mask text

theorem map_maskWord (word : List A) (text : List B) :
    (maskWord image mask text word).map image =
      replaceAll word (mask.map image) (text.map image) :=
  map_sub

theorem maskWord_of_starts {word : List A} {text : List B} (hword : word ≠ [])
    (hbegins : word <+: text.map image) :
    maskWord image mask text word =
      mask ++ maskWord image mask (text.drop word.length) word := by
  refine sub_of_match ?_ (List.length_pos_iff.mpr hword) (wordAt_eq_some_iff.mpr ⟨hbegins, rfl⟩)
  rintro rfl
  exact hword (List.prefix_nil.mp hbegins)

theorem maskWord_cons {word : List A} {c : B} {rest : List B}
    (hnone : ¬ word <+: (c :: rest).map image) :
    maskWord image mask (c :: rest) word = c :: maskWord image mask rest word :=
  sub_of_none (wordAt_eq_none_iff.mpr hnone)

/-- A text without a word is left. -/
theorem maskWord_eq_self {word : List A} {text : List B} (hnone : ¬ word <:+: text.map image) :
    maskWord image mask text word = text := by
  refine sub_eq_self fun rest hrest _ => wordAt_eq_none_iff.mpr fun hbegins => hnone ?_
  exact hbegins.isInfix.trans (hrest.map image).isInfix

/-- A mask is kept whole. -/
theorem maskWord_mask {word : List A} (hmask : mask.map image = mark :: more)
    (hinert : Inert mark more word) (text : List B) :
    maskWord image mask (mask ++ text) word = mask ++ maskWord image mask text word := by
  refine sub_append_of_none fun tail htail hne => wordAt_eq_none_iff.mpr ?_
  rw [List.map_append]
  refine hinert.outside _ ?_ (by simpa using hne) _
  rw [← hmask]
  exact htail.map image

/-- A letter of a masked text is where no word starts. -/
theorem maskOnce_cons {c : B} {rest : List B}
    (hnone : ∀ word ∈ words, ¬ word <+: (c :: rest).map image) :
    maskOnce image mask words (c :: rest) = c :: maskOnce image mask words rest :=
  sub_of_none (wordsAt_eq_none_iff.mpr hnone)

theorem maskOnce_of_starts {text : List B} {word : List A}
    (hapart : Apart words (text.map image)) (hnonempty : ∀ word ∈ words, word ≠ [])
    (hword : word ∈ words) (hbegins : word <+: text.map image) :
    maskOnce image mask words text =
      mask ++ maskOnce image mask words (text.drop word.length) := by
  have hpos := List.length_pos_iff.mpr (hnonempty word hword)
  refine sub_of_match ?_ hpos (wordsAt_of_starts hapart hnonempty hword hbegins)
  rintro rfl
  exact hnonempty word hword (List.prefix_nil.mp hbegins)

/-- Where a word starts and no other, the others leave its letters. -/
theorem maskOnce_front {word : List A} {text : List B}
    (hnone : ∀ other ∈ words, ¬ other <+: text.map image)
    (hapart : Apart (words ++ [word]) (text.map image)) (hbegins : word <+: text.map image) :
    maskOnce image mask words text = text.take word.length ++
      maskOnce image mask words (text.drop word.length) := by
  have hinside : ∀ tail, tail <:+ text.take word.length → tail ≠ [] →
      wordsAt words ((tail ++ text.drop word.length).map image) = none := by
    rintro tail ⟨before, hbefore⟩ hne
    refine wordsAt_eq_none_iff.mpr fun other hother hstarts => ?_
    have htail : tail ++ text.drop word.length = text.drop before.length := by
      calc tail ++ text.drop word.length
          = (before ++ (tail ++ text.drop word.length)).drop before.length := by simp
        _ = text.drop before.length := by
            rw [← List.append_assoc, hbefore, List.take_append_drop]
    have hshort : before.length < word.length := by
      have hlength := congrArg List.length hbefore
      have hpos := List.length_pos_iff.mpr hne
      rw [List.length_append, List.length_take] at hlength
      omega
    rw [htail, List.map_drop] at hstarts
    obtain ⟨hzero, rfl⟩ := hapart word (List.mem_append_right _ List.mem_cons_self) other
      (List.mem_append_left _ hother) _ (List.suffix_refl _) hbegins _ hshort hstarts
    exact hnone _ hother hbegins
  have hfront : sub (fun rest => wordsAt words (rest.map image)) mask
      (text.take word.length ++ text.drop word.length) = _ := sub_append_of_none hinside
  rwa [List.take_append_drop] at hfront

/-- One more word is masked after the others as with them. -/
theorem maskWord_maskOnce {word : List A} (hmask : mask.map image = mark :: more)
    (hinert : ∀ other ∈ words ++ [word], Inert mark more other) (text : List B)
    (hapart : Apart (words ++ [word]) (text.map image)) :
    maskWord image mask (maskOnce image mask words text) word =
      maskOnce image mask (words ++ [word]) text := by
  have hwords : ∀ other ∈ words, other ≠ [] := fun other hother =>
    (hinert other (List.mem_append_left _ hother)).nonempty
  have hmore : ∀ other ∈ words ++ [word], other ≠ [] := fun other hother =>
    (hinert other hother).nonempty
  have hword : word ∈ words ++ [word] := List.mem_append_right _ List.mem_cons_self
  induction hsize : text.length using Nat.strong_induction_on generalizing text with
  | h size ih =>
    have hlater : ∀ k, 0 < k → 0 < text.length →
        maskWord image mask (maskOnce image mask words (text.drop k)) word =
          maskOnce image mask (words ++ [word]) (text.drop k) := by
      intro k hk htext
      refine ih (text.drop k).length ?_ (text.drop k) ?_ rfl
      · rw [List.length_drop]
        omega
      · rw [List.map_drop]
        exact hapart.suffix (List.drop_suffix k _)
    cases text with
    | nil => rfl
    | cons c rest =>
      have htext : 0 < (c :: rest).length := Nat.succ_pos _
      by_cases hearlier : ∃ other ∈ words, other <+: (c :: rest).map image
      · obtain ⟨other, hother, hbegins⟩ := hearlier
        have hfewer : Apart words ((c :: rest).map image) :=
          hapart.subset fun _ hmem => List.mem_append_left _ hmem
        rw [maskOnce_of_starts hfewer hwords hother hbegins,
          maskWord_mask hmask (hinert word hword),
          hlater _ (List.length_pos_iff.mpr (hwords other hother)) htext,
          maskOnce_of_starts hapart hmore (List.mem_append_left _ hother) hbegins]
      · have hnone : ∀ other ∈ words, ¬ other <+: (c :: rest).map image :=
          fun other hother hbegins => hearlier ⟨other, hother, hbegins⟩
        by_cases hbegins : word <+: (c :: rest).map image
        · rw [maskOnce_front hnone hapart hbegins]
          have hstarts : word <+: ((c :: rest).take word.length ++
              maskOnce image mask words ((c :: rest).drop word.length)).map image := by
            rw [List.map_append, List.map_take, ← List.prefix_iff_eq_take.mp hbegins]
            exact List.prefix_append _ _
          have hlength : ((c :: rest).take word.length).length = word.length := by
            have hle := hbegins.length_le
            rw [List.length_map] at hle
            exact List.length_take_of_le hle
          have hpos := List.length_pos_iff.mpr (hmore word hword)
          rw [maskWord_of_starts (hmore word hword) hstarts,
            List.drop_append_of_le_length hlength.ge, List.drop_eq_nil_of_le hlength.le,
            List.nil_append, hlater _ hpos htext, maskOnce_of_starts hapart hmore hword hbegins]
        · have hother : ∀ other ∈ words ++ [word], ¬ other <+: (c :: rest).map image := by
            intro other hmem
            rcases List.mem_append.mp hmem with hmem | hmem
            · exact hnone other hmem
            · rwa [List.mem_singleton.mp hmem]
          have hkept : ¬ word <+: (maskOnce image mask words (c :: rest)).map image := by
            rw [maskOnce, map_sub, hmask]
            exact fun h => hbegins (prefix_of_prefix_sub (hinert word hword).unmarked h)
          rw [maskOnce_cons hnone] at hkept ⊢
          rw [maskOnce_cons hother, maskWord_cons hkept]
          exact congrArg (c :: ·) (hlater 1 Nat.one_pos htext)

theorem maskOnce_nil (text : List B) : maskOnce image mask [] text = text :=
  sub_eq_self fun _ _ _ => rfl

/-- Words whose occurrences are apart are masked as if in one pass. -/
theorem maskAll_eq_maskOnce {words : List (List A)} (hmask : mask.map image = mark :: more)
    (hinert : ∀ word ∈ words, Inert mark more word) (text : List B)
    (hapart : Apart words (text.map image)) :
    maskAll image mask words text = maskOnce image mask words text := by
  induction words using List.reverseRecOn with
  | nil => exact (maskOnce_nil text).symm
  | append_singleton words word ih =>
      have hwords := ih (fun other hother => hinert other (List.mem_append_left _ hother))
        (hapart.subset fun other hother => List.mem_append_left _ hother)
      rw [maskAll] at hwords ⊢
      rw [List.foldl_append, hwords]
      exact maskWord_maskOnce hmask hinert text hapart

/-- The order of words is not seen where their occurrences are apart. -/
theorem maskAll_perm {words others : List (List A)} (hmask : mask.map image = mark :: more)
    (hinert : ∀ word ∈ words, Inert mark more word) {text : List B}
    (hapart : Apart words (text.map image)) (hperm : others.Perm words) :
    maskAll image mask others text = maskOnce image mask words text := by
  rw [maskAll_eq_maskOnce hmask (fun word hword => hinert word (hperm.mem_iff.mp hword)) text
    (hapart.subset fun word hword => hperm.mem_iff.mp hword)]
  refine sub_congr fun rest hrest => ?_
  exact wordsAt_perm (hapart.suffix (hrest.map image)) (fun word hword => (hinert word hword).nonempty)
    hperm

/-- Words that are in no part of the rest leave it. -/
theorem maskAll_mask {words : List (List A)} (hmask : mask.map image = mark :: more)
    (hinert : ∀ word ∈ words, Inert mark more word) {text : List B}
    (hnone : ∀ word ∈ words, ¬ word <:+: text.map image) :
    maskAll image mask words (mask ++ text) = mask ++ text := by
  induction words with
  | nil => rfl
  | cons word words ih =>
      have hword := hnone word List.mem_cons_self
      rw [maskAll, List.foldl_cons, maskWord_mask hmask (hinert word List.mem_cons_self),
        maskWord_eq_self hword]
      exact ih (fun other hother => hinert other (List.mem_cons_of_mem word hother))
        fun other hother => hnone other (List.mem_cons_of_mem word hother)

end Images

section Places

variable {mask : List (A × Option Nat)}

/-- A place that is kept is in no occurrence of a word. -/
theorem place_kept {words : List (List A)} {text : List A} (hmask : ∀ b ∈ mask, b.2 = none)
    (hnonempty : ∀ word ∈ words, word ≠ []) (hapart : Apart words text) {first i : Nat} {c : A}
    (hkept : (c, some i) ∈ maskOnce Prod.fst mask words (placed first text)) :
    first ≤ i ∧ ∀ word ∈ words, ∀ start, word <+: text.drop start → first + start ≤ i →
      first + start + word.length ≤ i := by
  induction hsize : text.length using Nat.strong_induction_on generalizing text first with
  | h size ih =>
    by_cases hmatch : ∃ other ∈ words, other <+: text
    · obtain ⟨other, hother, hbegins⟩ := hmatch
      have hpos := List.length_pos_iff.mpr (hnonempty other hother)
      have hle := hbegins.length_le
      rw [maskOnce_of_starts (by rwa [map_placed]) hnonempty hother (by rwa [map_placed]),
        List.mem_append, drop_placed] at hkept
      rcases hkept with hkept | hkept
      · cases hmask _ hkept
      · obtain ⟨hfirst, hrest⟩ := ih (text.drop other.length).length
          (by rw [List.length_drop]; omega) (hapart.suffix (List.drop_suffix _ _)) hkept rfl
        refine ⟨by omega, fun word hword start hstarts hbefore => ?_⟩
        rcases Nat.lt_or_ge start other.length with hinside | hafter
        · obtain ⟨rfl, rfl⟩ := hapart other hother word hword text (List.suffix_refl _) hbegins
            start hinside hstarts
          exact hfirst
        · obtain ⟨k, rfl⟩ := Nat.exists_eq_add_of_le hafter
          rw [← List.drop_drop] at hstarts
          have hbound := hrest word hword k hstarts (by omega)
          omega
    · have hnone : ∀ other ∈ words, ¬ other <+: text := fun other hother hbegins =>
        hmatch ⟨other, hother, hbegins⟩
      cases text with
      | nil => cases hkept
      | cons head rest =>
        rw [placed, maskOnce_cons (by rwa [List.map_cons, map_placed]), List.mem_cons] at hkept
        have hzero : ∀ word ∈ words, ¬ word <+: (head :: rest).drop 0 := hnone
        rcases hkept with hkept | hkept
        · cases hkept
          refine ⟨Nat.le_refl _, fun word hword start hstarts hbefore => ?_⟩
          obtain rfl : start = 0 := by omega
          exact absurd hstarts (hzero word hword)
        · obtain ⟨hfirst, hrest⟩ := ih rest.length (by rw [← hsize]; exact Nat.lt_succ_self _)
            (hapart.suffix (List.suffix_cons head rest)) hkept rfl
          refine ⟨by omega, fun word hword start hstarts hbefore => ?_⟩
          cases start with
          | zero => exact absurd hstarts (hzero word hword)
          | succ start =>
              have hbound := hrest word hword start hstarts (by omega)
              omega

end Places

section Nested

variable {mark : A} {more : List A}

theorem replaceAll_of_starts {mask word text : List A} (hword : word ≠ [])
    (hbegins : word <+: text) :
    replaceAll word mask text = mask ++ replaceAll word mask (text.drop word.length) := by
  refine sub_of_match ?_ (List.length_pos_iff.mpr hword) (wordAt_eq_some_iff.mpr ⟨hbegins, rfl⟩)
  rintro rfl
  exact hword (List.prefix_nil.mp hbegins)

theorem replaceAll_cons {mask word rest : List A} {c : A} (hnone : ¬ word <+: c :: rest) :
    replaceAll word mask (c :: rest) = c :: replaceAll word mask rest :=
  sub_of_none (wordAt_eq_none_iff.mpr hnone)

/-- A word does not reach over a mask. -/
theorem replaceAll_around {word : List A} (hinert : Inert mark more word) (left right : List A) :
    replaceAll word (mark :: more) (left ++ (mark :: more) ++ right) =
      replaceAll word (mark :: more) left ++ (mark :: more) ++
        replaceAll word (mark :: more) right := by
  have hpos := List.length_pos_iff.mpr hinert.nonempty
  induction hsize : left.length using Nat.strong_induction_on generalizing left with
  | h size ih =>
    cases left with
    | nil =>
        refine sub_append_of_none fun tail htail hne => wordAt_eq_none_iff.mpr ?_
        exact hinert.outside tail htail hne right
    | cons c left =>
      have hsame : word <+: c :: left ++ (mark :: more) ++ right ↔ word <+: c :: left := by
        rw [List.append_assoc]
        exact ⟨starts_of_not_mem hinert.unmarked, fun hbegins =>
          hbegins.trans (List.prefix_append _ _)⟩
      have hshort : ((c :: left).drop word.length).length < size := by
        rw [← hsize, List.length_drop, List.length_cons]
        omega
      by_cases hbegins : word <+: c :: left
      · rw [replaceAll_of_starts hinert.nonempty (hsame.mpr hbegins),
          replaceAll_of_starts hinert.nonempty hbegins, List.append_assoc (c :: left),
          List.drop_append_of_le_length hbegins.length_le, ← List.append_assoc,
          ih _ hshort ((c :: left).drop word.length) rfl]
        simp only [List.append_assoc]
      · have hlater := ih left.length (by rw [← hsize]; exact Nat.lt_succ_self _) left rfl
        have hnone := mt hsame.mp hbegins
        rw [List.cons_append, List.cons_append] at hnone ⊢
        rw [replaceAll_cons hbegins, replaceAll_cons hnone, hlater]
        rfl

/-- A mask with something before or after it. -/
def Surrounded (mark : A) (more text : List A) : Prop :=
  ∃ left right, text = left ++ (mark :: more) ++ right ∧ (left ≠ [] ∨ right ≠ [])

theorem Surrounded.masked {word text : List A} (hinert : Inert mark more word)
    (htext : Surrounded mark more text) :
    Surrounded mark more (replaceAll word (mark :: more) text) := by
  obtain ⟨left, right, rfl, hmore⟩ := htext
  exact ⟨_, _, replaceAll_around hinert left right, hmore.imp sub_ne_nil sub_ne_nil⟩

/-- A proper part of a text that is masked leaves something around the mask. -/
theorem surrounded_of_part {word text : List A} (hword : word ≠ []) (hpart : word <:+: text)
    (hproper : word ≠ text) : Surrounded mark more (replaceAll word (mark :: more) text) := by
  induction text with
  | nil => exact absurd (List.infix_nil.mp hpart) hword
  | cons c rest ih =>
      by_cases hbegins : word <+: c :: rest
      · rw [replaceAll_of_starts hword hbegins]
        refine ⟨[], _, rfl, .inr (sub_ne_nil fun hnil => hproper ?_)⟩
        exact hbegins.eq_of_length_le (List.drop_eq_nil_iff.mp hnil)
      · rw [replaceAll_cons hbegins]
        have hrest : word <:+: rest := (List.infix_cons_iff.mp hpart).resolve_left hbegins
        by_cases hsame : word = rest
        · rw [← hsame, replaceAll_of_starts hword (List.prefix_refl word), List.drop_length]
          exact ⟨[c], [], rfl, .inl (List.cons_ne_nil c [])⟩
        · obtain ⟨left, right, heq, -⟩ := ih hrest hsame
          exact ⟨c :: left, right, by rw [heq]; rfl, .inl (List.cons_ne_nil c left)⟩

end Nested

end Masking

end Lib
