/-
Flat framings of a list of named contents.  A word that only joins the names
and the contents forgets every boundary, a word with a mark after each of them
forgets the marks that a content could hold.  Two listings have one word exactly
when boundaries can be moved from the one to the other.
-/
import Mathlib.Data.List.Basic
import Mathlib.Logic.Relation

namespace Lib

universe u

namespace Framing

variable {A : Type u}

/-- Names with their contents, in order. -/
abbrev Listing (A : Type u) := List (List A × List A)

/-- Two listings that moves, made in either direction, lead from the one to
the other. -/
abbrev Connected (move : Listing A → Listing A → Prop) :
    Listing A → Listing A → Prop :=
  Relation.EqvGen move

/-- A word that every move keeps is one word for connected listings. -/
theorem word_eq_of_connected {W : Type*} {move : Listing A → Listing A → Prop}
    {word : Listing A → W}
    (hkeep : ∀ {left right : Listing A}, move left right → word left = word right)
    {left right : Listing A} (hconnected : Connected move left right) :
    word left = word right := by
  induction hconnected with
  | rel left right hmove => exact hkeep hmove
  | refl listing => rfl
  | symm left right _ ih => exact ih.symm
  | trans left middle right _ _ ihleft ihright => exact ihleft.trans ihright

section Joined

/-- Names and contents one after the other, with nothing between them. -/
def joined (listing : Listing A) : List A :=
  listing.flatMap fun entry => entry.1 ++ entry.2

@[simp] theorem joined_nil : joined ([] : Listing A) = [] := rfl

@[simp] theorem joined_cons (entry : List A × List A) (rest : Listing A) :
    joined (entry :: rest) = entry.1 ++ entry.2 ++ joined rest := rfl

/-- One boundary moves: a name takes the first letter of its content, or a
content is cut into a shorter one, a name and the content of that name. -/
inductive JoinedMove : Listing A → Listing A → Prop
  | lengthen (name : List A) (letter : A) (content : List A) (rest : Listing A) :
      JoinedMove ((name, letter :: content) :: rest)
        ((name ++ [letter], content) :: rest)
  | cut (name content name' content' : List A) (rest : Listing A) :
      JoinedMove ((name, content ++ name' ++ content') :: rest)
        ((name, content) :: (name', content') :: rest)
  | behind {left right : Listing A} (entry : List A × List A)
      (hmove : JoinedMove left right) : JoinedMove (entry :: left) (entry :: right)

theorem JoinedMove.joined_eq {left right : Listing A}
    (hmove : JoinedMove left right) : joined left = joined right := by
  induction hmove with
  | lengthen name letter content rest => simp
  | cut name content name' content' rest => simp
  | behind entry _ ih => simp [ih]

/-- Every letter of a content can move into the name before it. -/
theorem connected_absorb (name content : List A) (rest : Listing A) :
    Connected JoinedMove ((name, content) :: rest) ((name ++ content, []) :: rest) := by
  induction content generalizing name with
  | nil =>
      rw [List.append_nil]
      exact .refl _
  | cons letter content ih =>
      have hone := ih (name ++ [letter])
      rw [List.append_assoc, List.singleton_append] at hone
      exact .trans _ _ _ (.rel _ _ (.lengthen name letter content rest)) hone

/-- A listing that is not empty can be moved into one entry. -/
theorem connected_single (entry : List A × List A) (rest : Listing A) :
    Connected JoinedMove (entry :: rest) [([], joined (entry :: rest))] := by
  induction rest generalizing entry with
  | nil =>
      have hname := connected_absorb [] (entry.1 ++ entry.2) []
      have hentry := connected_absorb entry.1 entry.2 []
      rw [List.nil_append] at hname
      simpa using hentry.trans _ _ _ (hname.symm _ _)
  | cons next rest ih =>
      have hmerge := ih (entry.1, entry.2 ++ next.1 ++ next.2)
      have hjoined : joined ((entry.1, entry.2 ++ next.1 ++ next.2) :: rest) =
          joined (entry :: next :: rest) := by simp
      rw [hjoined] at hmerge
      exact .trans _ _ _
        (.symm _ _ (.rel _ _ (.cut entry.1 entry.2 next.1 next.2 rest))) hmerge

/-- Listings without an empty name have one joined word exactly when boundary
moves lead from the one to the other. -/
theorem joined_eq_iff {left right : Listing A}
    (hleft : ∀ entry ∈ left, entry.1 ≠ []) (hright : ∀ entry ∈ right, entry.1 ≠ []) :
    joined left = joined right ↔ Connected JoinedMove left right := by
  constructor
  · intro hword
    cases left with
    | nil =>
        cases right with
        | nil => exact .refl _
        | cons entry rest =>
            have hname := hright entry List.mem_cons_self
            simp only [joined_nil, joined_cons, List.nil_eq,
              List.append_eq_nil_iff] at hword
            exact absurd hword.1.1 hname
    | cons entry rest =>
        cases right with
        | nil =>
            have hname := hleft entry List.mem_cons_self
            simp only [joined_nil, joined_cons, List.append_eq_nil_iff] at hword
            exact absurd hword.1.1 hname
        | cons entry' rest' =>
            have hsingle := connected_single entry rest
            rw [hword] at hsingle
            exact hsingle.trans _ _ _ ((connected_single entry' rest').symm _ _)
  · exact word_eq_of_connected JoinedMove.joined_eq

end Joined

section Delimited

variable (mark : A)

/-- A mark after every name and after every content. -/
def delimited (listing : Listing A) : List A :=
  listing.flatMap fun entry => entry.1 ++ [mark] ++ entry.2 ++ [mark]

@[simp] theorem delimited_nil : delimited mark [] = [] := rfl

@[simp] theorem delimited_cons (entry : List A × List A) (rest : Listing A) :
    delimited mark (entry :: rest) =
      entry.1 ++ [mark] ++ entry.2 ++ [mark] ++ delimited mark rest := rfl

/-- One content that holds two marks is read as a content, a name without the
mark and the content of that name. -/
inductive DelimitedMove : Listing A → Listing A → Prop
  | cut (name content name' content' : List A) (rest : Listing A)
      (hname : mark ∉ name') :
      DelimitedMove ((name, content ++ [mark] ++ name' ++ [mark] ++ content') :: rest)
        ((name, content) :: (name', content') :: rest)
  | behind {left right : Listing A} (entry : List A × List A)
      (hmove : DelimitedMove left right) :
      DelimitedMove (entry :: left) (entry :: right)

variable {mark}

theorem DelimitedMove.delimited_eq {left right : Listing A}
    (hmove : DelimitedMove mark left right) :
    delimited mark left = delimited mark right := by
  induction hmove with
  | cut name content name' content' rest hname => simp
  | behind entry _ ih => simp [ih]

/-- Names without the mark end at the first mark. -/
theorem name_eq_of_marked {name name' tail tail' : List A} (hname : mark ∉ name)
    (hname' : mark ∉ name') (hword : name ++ mark :: tail = name' ++ mark :: tail') :
    name = name' ∧ tail = tail' := by
  induction name generalizing name' with
  | nil =>
      cases name' with
      | nil => exact ⟨rfl, (List.cons.inj hword).2⟩
      | cons letter rest =>
          have hletter := (List.cons.inj hword).1
          exact absurd (hletter ▸ List.mem_cons_self) hname'
  | cons letter rest ih =>
      cases name' with
      | nil =>
          have hletter := (List.cons.inj hword).1
          exact absurd (hletter ▸ List.mem_cons_self) hname
      | cons letter' rest' =>
          obtain ⟨hletter, hrest⟩ := List.cons.inj hword
          obtain ⟨hsame, htail⟩ := ih (fun hmem => hname (List.mem_cons_of_mem _ hmem))
            (fun hmem => hname' (List.mem_cons_of_mem _ hmem)) hrest
          exact ⟨by rw [hletter, hsame], htail⟩

/-- A listing that is not empty can be moved into its first entry, whose
content is then the word without the first name and the last mark. -/
theorem connected_first (entry : List A × List A) (rest : Listing A)
    (hrest : ∀ other ∈ rest, mark ∉ other.1) :
    ∃ content, Connected (DelimitedMove mark) (entry :: rest) [(entry.1, content)] ∧
      delimited mark (entry :: rest) = entry.1 ++ mark :: (content ++ [mark]) := by
  induction rest generalizing entry with
  | nil => exact ⟨entry.2, .refl _, by simp⟩
  | cons next rest ih =>
      obtain ⟨content, hconnected, hword⟩ :=
        ih (entry.1, entry.2 ++ [mark] ++ next.1 ++ [mark] ++ next.2)
          fun other hother => hrest other (List.mem_cons_of_mem _ hother)
      refine ⟨content, .trans _ _ _ (.symm _ _ (.rel _ _ ?_)) hconnected, ?_⟩
      · exact .cut entry.1 entry.2 next.1 next.2 rest (hrest next List.mem_cons_self)
      · rw [← hword]
        simp

/-- Listings whose names are without the mark have one delimited word exactly
when moves of two marks lead from the one to the other. -/
theorem delimited_eq_iff {left right : Listing A}
    (hleft : ∀ entry ∈ left, mark ∉ entry.1)
    (hright : ∀ entry ∈ right, mark ∉ entry.1) :
    delimited mark left = delimited mark right ↔
      Connected (DelimitedMove mark) left right := by
  constructor
  · intro hword
    cases left with
    | nil =>
        cases right with
        | nil => exact .refl _
        | cons entry rest => simp at hword
    | cons entry rest =>
        cases right with
        | nil => simp at hword
        | cons entry' rest' =>
            obtain ⟨hname, hrest⟩ := List.forall_mem_cons.mp hleft
            obtain ⟨hname', hrest'⟩ := List.forall_mem_cons.mp hright
            obtain ⟨content, hfirst, hform⟩ := connected_first entry rest hrest
            obtain ⟨content', hfirst', hform'⟩ :=
              connected_first entry' rest' hrest'
            rw [hform, hform'] at hword
            obtain ⟨hsame, htail⟩ := name_eq_of_marked hname hname' hword
            have hcontent : content = content' :=
              (List.append_inj' htail rfl).1
            rw [hsame, hcontent] at hfirst
            exact hfirst.trans _ _ _ (hfirst'.symm _ _)
  · exact word_eq_of_connected DelimitedMove.delimited_eq

/-- Where no content holds the mark either, the delimited word determines the
listing. -/
theorem delimited_inj {left right : Listing A}
    (hleft : ∀ entry ∈ left, mark ∉ entry.1 ∧ mark ∉ entry.2)
    (hright : ∀ entry ∈ right, mark ∉ entry.1 ∧ mark ∉ entry.2)
    (hword : delimited mark left = delimited mark right) : left = right := by
  induction left generalizing right with
  | nil =>
      cases right with
      | nil => rfl
      | cons entry rest => simp at hword
  | cons entry rest ih =>
      cases right with
      | nil => simp at hword
      | cons entry' rest' =>
          obtain ⟨hentry, hrest⟩ := List.forall_mem_cons.mp hleft
          obtain ⟨hentry', hrest'⟩ := List.forall_mem_cons.mp hright
          simp only [delimited_cons, List.append_assoc, List.singleton_append] at hword
          obtain ⟨hname, htail⟩ := name_eq_of_marked hentry.1 hentry'.1 hword
          obtain ⟨hcontent, hafter⟩ := name_eq_of_marked hentry.2 hentry'.2 htail
          rw [Prod.ext hname hcontent, ih hrest hrest' hafter]

end Delimited

end Framing

end Lib
