/-
A tree of directories, files and links, with the way in which a kernel follows a path
in it and the ways in which it is changed.
-/
import HermesPipeline.Lib.Lexical
import Mathlib.Data.List.Infix

namespace Lib

universe u v

/-- Why a path is not followed, or a change is not made. -/
inductive Errno
  | noEntry
  | notDirectory
  | access
  | tooManyLinks
  | fileExists
  | isDirectory
deriving Repr, DecidableEq

/-- Where a link leads: from the root, or from the directory it is in. -/
structure LinkTarget (N : Type u) where
  absolute : Bool
  steps : Lexical.Path N

/-- What stands at a place; a directory that cannot be searched gives no access to what
is in it, and in one that cannot be written no name is made. -/
inductive FileNode (N : Type u) (C : Type v)
  | dir (searchable writable : Bool)
  | file (content : C)
  | link (target : LinkTarget N)

/-- A tree has a directory above everything in it. -/
structure FileTree (N : Type u) (C : Type v) where
  node : List N → Option (FileNode N C)
  root_dir : ∃ searchable writable, node [] = some (.dir searchable writable)
  parent_dir : ∀ front n, node (front ++ [n]) ≠ none →
    ∃ searchable writable, node front = some (.dir searchable writable)

namespace FileTree

open Lexical

variable {N : Type u} {C : Type v}

/-- Follow a path from a place. The last name is followed where it is a link only when
`follow` says so; each link that is followed takes one of the links that are left. -/
def walk (tree : FileTree N C) (follow : Bool) (links : Nat) (place : List N) :
    Path N → Except Errno (List N)
  | [] => .ok place
  | step :: rest =>
      match tree.node place with
      | some (.dir false _) => .error .access
      | some (.dir true _) =>
          match step with
          | .up => walk tree follow links place.dropLast rest
          | .name n =>
              match tree.node (place ++ [n]) with
              | none => .error .noEntry
              | some (.link target) =>
                  if rest.isEmpty && !follow then .ok (place ++ [n])
                  else
                    match links with
                    | 0 => .error .tooManyLinks
                    | links + 1 =>
                        walk tree follow links (if target.absolute then [] else place)
                          (target.steps ++ rest)
              | some _ => walk tree follow links (place ++ [n]) rest
      | _ => .error .notDirectory
termination_by path => (links, path.length)

/-- Follow a path from a place, links at its end included, to the place of what is opened
there. The last name may be missing: there a file is made. -/
def openAt (tree : FileTree N C) (links : Nat) (place : List N) :
    Path N → Except Errno (List N)
  | [] => .ok place
  | step :: rest =>
      match tree.node place with
      | some (.dir false _) => .error .access
      | some (.dir true _) =>
          match step with
          | .up => openAt tree links place.dropLast rest
          | .name n =>
              match tree.node (place ++ [n]) with
              | none => if rest.isEmpty then .ok (place ++ [n]) else .error .noEntry
              | some (.link target) =>
                  match links with
                  | 0 => .error .tooManyLinks
                  | links + 1 =>
                      openAt tree links (if target.absolute then [] else place)
                        (target.steps ++ rest)
              | some _ => openAt tree links (place ++ [n]) rest
      | _ => .error .notDirectory
termination_by path => (links, path.length)

/-- A directory that can be searched. -/
def Searchable (tree : FileTree N C) (place : List N) : Prop :=
  ∃ writable, tree.node place = some (.dir true writable)

/-- Every directory on the way to a place that exists can be searched, and nothing on
the way is a link. -/
def Clear (tree : FileTree N C) (names : List N) : Prop :=
  ∀ front n, front ++ [n] <+: names →
    (tree.node front = none ∨ tree.Searchable front) ∧
      ∀ target, tree.node (front ++ [n]) ≠ some (.link target)

variable {tree : FileTree N C} {follow : Bool} {links : Nat}

/-- Nothing is below what does not exist. -/
theorem node_append_none {front : List N} (hnone : tree.node front = none) (rest : List N) :
    tree.node (front ++ rest) = none := by
  induction rest using List.reverseRecOn with
  | nil => rwa [List.append_nil]
  | append_singleton rest n ih =>
      by_contra hsome
      rw [← List.append_assoc] at hsome
      obtain ⟨searchable, writable, hdir⟩ := tree.parent_dir _ n hsome
      rw [ih] at hdir
      cases hdir

theorem Searchable.ne_none {place : List N} (hdir : tree.Searchable place) :
    tree.node place ≠ none := by
  obtain ⟨writable, hdir⟩ := hdir
  rw [hdir]
  exact Option.some_ne_none _

theorem clear_nil (tree : FileTree N C) : tree.Clear [] := by
  intro front n hfront
  exact absurd (List.prefix_nil.mp hfront) (by simp)

theorem Clear.front {names front : List N} (hclear : tree.Clear names)
    (hfront : front <+: names) : tree.Clear front :=
  fun before n hbefore => hclear before n (hbefore.trans hfront)

theorem clear_concat_iff {names : List N} {n : N} :
    tree.Clear (names ++ [n]) ↔ tree.Clear names ∧
      (tree.node names = none ∨ tree.Searchable names) ∧
        ∀ target, tree.node (names ++ [n]) ≠ some (.link target) := by
  constructor
  · intro hclear
    exact ⟨hclear.front (List.prefix_append names [n]), hclear names n (List.prefix_refl _)⟩
  · rintro ⟨hnames, hlast⟩ front m hfront
    rcases List.prefix_concat_iff.mp hfront with heq | hfront
    · obtain ⟨rfl, hm⟩ := List.append_inj' heq rfl
      rw [(List.cons.inj hm).1]
      exact hlast
    · exact hnames front m hfront

/-- What exists on a clear way is no link. -/
theorem Clear.not_link {names : List N} (hclear : tree.Clear names) (target : LinkTarget N) :
    tree.node names ≠ some (.link target) := by
  induction names using List.reverseRecOn with
  | nil =>
      obtain ⟨searchable, writable, hroot⟩ := tree.root_dir
      rw [hroot]
      exact fun h => by cases h
  | append_singleton names n => exact (clear_concat_iff.mp hclear).2.2 target

/-- A clear way is followed up to the place that it names, if that exists. -/
theorem walk_append_of_clear {place front : List N} (hclear : tree.Clear (place ++ front))
    (hplace : tree.node place ≠ none) (path : Path N) :
    walk tree follow links place (Lexical.names front ++ path) =
      if (tree.node (place ++ front)).isSome then walk tree follow links (place ++ front) path
      else .error .noEntry := by
  induction front generalizing place with
  | nil =>
      rw [List.append_nil, if_pos (Option.isSome_iff_ne_none.mpr hplace)]
      rfl
  | cons n rest ih =>
      have hsplit : place ++ n :: rest = place ++ [n] ++ rest := by simp
      rw [hsplit] at hclear ⊢
      obtain ⟨hdir, hlink⟩ := hclear place n ( List.prefix_append _ rest)
      obtain ⟨writable, hdir⟩ := hdir.resolve_left hplace
      rw [Lexical.names, List.map_cons, ← Lexical.names, List.cons_append, walk, hdir]
      cases hnode : tree.node (place ++ [n]) with
      | none =>
          rw [node_append_none hnode rest]
          rfl
      | some node =>
          have hlater := ih hclear (by rw [hnode]; exact Option.some_ne_none node)
          cases node with
          | link target => exact absurd hnode (hlink target)
          | dir searchable writable => simpa [hnode] using hlater
          | file content => simpa [hnode] using hlater

theorem walk_of_clear {place names : List N} (hclear : tree.Clear (place ++ names))
    (hplace : tree.node place ≠ none) :
    walk tree follow links place (Lexical.names names) =
      if (tree.node (place ++ names)).isSome then .ok (place ++ names)
      else .error .noEntry := by
  have hall := @walk_append_of_clear _ _ tree follow links place names hclear hplace []
  rw [List.append_nil] at hall
  rw [hall]
  split
  · rw [walk]
  · rfl

theorem walk_nil (place : List N) : walk tree follow links place [] = .ok place := by
  rw [walk]

theorem walk_cons {place : List N} {step : Step N} {rest : Path N}
    (hdir : tree.Searchable place) :
    walk tree follow links place (step :: rest) =
      match step with
      | .up => walk tree follow links place.dropLast rest
      | .name n =>
          match tree.node (place ++ [n]) with
          | none => .error .noEntry
          | some (.link target) =>
              if rest.isEmpty && !follow then .ok (place ++ [n])
              else
                match links with
                | 0 => .error .tooManyLinks
                | links + 1 =>
                    walk tree follow links (if target.absolute then [] else place)
                      (target.steps ++ rest)
          | some _ => walk tree follow links (place ++ [n]) rest := by
  obtain ⟨writable, hdir⟩ := hdir
  rw [walk.eq_def]
  simp only [hdir]

/-- A way goes on only from a directory that can be searched. -/
theorem dir_of_walk {place q : List N} {step : Step N} {rest : Path N}
    (hwalk : walk tree follow links place (step :: rest) = .ok q) :
    tree.Searchable place := by
  rw [walk.eq_def] at hwalk
  simp only at hwalk
  split at hwalk
  · cases hwalk
  · next writable hdir => exact ⟨writable, hdir⟩
  · cases hwalk

/-- The cases of a way that is followed to its end, with the last link followed too. -/
theorem walk_cases {place q : List N} {n : N} {rest : Path N}
    (hwalk : walk tree true links place (.name n :: rest) = .ok q) :
    (tree.node (place ++ [n]) ≠ none ∧
      (∀ target, tree.node (place ++ [n]) ≠ some (.link target)) ∧
      walk tree true links (place ++ [n]) rest = .ok q) ∨
    ∃ target fewer, tree.node (place ++ [n]) = some (.link target) ∧ links = fewer + 1 ∧
      walk tree true fewer (if target.absolute then [] else place) (target.steps ++ rest) =
        .ok q := by
  rw [walk_cons (dir_of_walk hwalk)] at hwalk
  cases hnode : tree.node (place ++ [n]) with
  | none => simp [hnode] at hwalk
  | some node =>
      cases node with
      | dir searchable writable => exact .inl ⟨by simp, by simp, by simpa [hnode] using hwalk⟩
      | file content => exact .inl ⟨by simp, by simp, by simpa [hnode] using hwalk⟩
      | link target =>
          cases links with
          | zero => simp [hnode] at hwalk
          | succ fewer => exact .inr ⟨target, fewer, rfl, rfl, by simpa [hnode] using hwalk⟩

theorem openAt_nil (place : List N) : openAt tree links place [] = .ok place := by
  rw [openAt]

theorem openAt_cons {place : List N} {step : Step N} {rest : Path N}
    (hdir : tree.Searchable place) :
    openAt tree links place (step :: rest) =
      match step with
      | .up => openAt tree links place.dropLast rest
      | .name n =>
          match tree.node (place ++ [n]) with
          | none => if rest.isEmpty then .ok (place ++ [n]) else .error .noEntry
          | some (.link target) =>
              match links with
              | 0 => .error .tooManyLinks
              | links + 1 =>
                  openAt tree links (if target.absolute then [] else place)
                    (target.steps ++ rest)
          | some _ => openAt tree links (place ++ [n]) rest := by
  obtain ⟨writable, hdir⟩ := hdir
  rw [openAt.eq_def]
  simp only [hdir]

theorem dir_of_openAt {place q : List N} {step : Step N} {rest : Path N}
    (hopen : openAt tree links place (step :: rest) = .ok q) :
    tree.Searchable place := by
  rw [openAt.eq_def] at hopen
  simp only at hopen
  split at hopen
  · cases hopen
  · next writable hdir => exact ⟨writable, hdir⟩
  · cases hopen

/-- The cases of a way to what is opened: its last name is missing, or the name is gone
through, or a link is followed. -/
theorem openAt_cases {place q : List N} {n : N} {rest : Path N}
    (hopen : openAt tree links place (.name n :: rest) = .ok q) :
    (tree.node (place ++ [n]) = none ∧ rest = [] ∧ q = place ++ [n]) ∨
    (tree.node (place ++ [n]) ≠ none ∧
      (∀ target, tree.node (place ++ [n]) ≠ some (.link target)) ∧
      openAt tree links (place ++ [n]) rest = .ok q) ∨
    ∃ target fewer, tree.node (place ++ [n]) = some (.link target) ∧ links = fewer + 1 ∧
      openAt tree fewer (if target.absolute then [] else place) (target.steps ++ rest) =
        .ok q := by
  rw [openAt_cons (dir_of_openAt hopen)] at hopen
  cases hnode : tree.node (place ++ [n]) with
  | none =>
      simp only [hnode, List.isEmpty_iff] at hopen
      split at hopen
      · next hrest => exact .inl ⟨rfl, hrest, (Except.ok.inj hopen).symm⟩
      · cases hopen
  | some node =>
      cases node with
      | dir searchable writable =>
          exact .inr (.inl ⟨by simp, by simp, by simpa [hnode] using hopen⟩)
      | file content => exact .inr (.inl ⟨by simp, by simp, by simpa [hnode] using hopen⟩)
      | link target =>
          cases links with
          | zero => simp [hnode] at hopen
          | succ fewer =>
              exact .inr (.inr ⟨target, fewer, rfl, rfl, by simpa [hnode] using hopen⟩)

theorem openAt_free {place : List N} {n : N} (hdir : tree.Searchable place)
    (hnone : tree.node (place ++ [n]) = none) :
    openAt tree links place [.name n] = .ok (place ++ [n]) := by
  rw [openAt_cons hdir]
  simp [hnone]

/-- A link that is followed, in the way. -/
theorem openAt_link {place : List N} {n : N} {rest : Path N} {target : LinkTarget N}
    (hdir : tree.Searchable place)
    (hlink : tree.node (place ++ [n]) = some (.link target)) :
    openAt tree (links + 1) place (.name n :: rest) =
      openAt tree links (if target.absolute then [] else place) (target.steps ++ rest) := by
  rw [openAt_cons hdir]
  simp [hlink]

theorem openAt_through {place : List N} {n : N} {rest : Path N}
    (hdir : tree.Searchable place) (hnone : tree.node (place ++ [n]) ≠ none)
    (hlink : ∀ target, tree.node (place ++ [n]) ≠ some (.link target)) :
    openAt tree links place (.name n :: rest) =
      openAt tree links (place ++ [n]) rest := by
  rw [openAt_cons hdir]
  cases hnode : tree.node (place ++ [n]) with
  | none => exact absurd hnode hnone
  | some node =>
      cases node with
      | dir searchable writable => simp [hnode]
      | file content => simp [hnode]
      | link target => exact absurd hnode (hlink target)

/-- What a way leads to is what is opened there. -/
theorem openAt_of_walk (links : Nat) (place q : List N) (path : Path N)
    (hwalk : walk tree true links place path = .ok q) :
    openAt tree links place path = .ok q := by
  match path with
  | [] =>
      rw [walk_nil] at hwalk
      rw [openAt_nil, hwalk]
  | .up :: rest =>
      have hdir := dir_of_walk hwalk
      rw [walk_cons hdir] at hwalk
      rw [openAt_cons hdir]
      exact openAt_of_walk links _ q rest hwalk
  | .name n :: rest =>
      have hdir := dir_of_walk hwalk
      rcases walk_cases hwalk with ⟨hnone, hlink, hlater⟩ | ⟨target, fewer, hlink, hfewer, hlater⟩
      · rw [openAt_through hdir hnone hlink]
        exact openAt_of_walk links _ q rest hlater
      · rw [hfewer, openAt_link hdir hlink]
        exact openAt_of_walk fewer _ q _ hlater
termination_by (links, path.length)

/-- With more links left, the way leads to the same place. -/
theorem openAt_more (links more : Nat) (place q : List N) (path : Path N)
    (hopen : openAt tree links place path = .ok q) (hmore : links ≤ more) :
    openAt tree more place path = .ok q := by
  match path with
  | [] => rwa [openAt_nil] at hopen ⊢
  | .up :: rest =>
      have hdir := dir_of_openAt hopen
      rw [openAt_cons hdir] at hopen ⊢
      exact openAt_more links more _ q rest hopen hmore
  | .name n :: rest =>
      have hdir := dir_of_openAt hopen
      rcases openAt_cases hopen with
        ⟨hfree, rfl, rfl⟩ | ⟨hnone, hlink, hlater⟩ | ⟨target, fewer, hlink, hfewer, hlater⟩
      · exact openAt_free hdir hfree
      · rw [openAt_through hdir hnone hlink]
        exact openAt_more links more _ q rest hlater hmore
      · obtain ⟨less, hless⟩ : ∃ less, more = less + 1 := ⟨more - 1, by omega⟩
        rw [hless, openAt_link hdir hlink]
        exact openAt_more fewer less _ q _ hlater (by omega)
termination_by (links, path.length)

/-- A way in two parts: the second part is followed with the links that the first part
leaves. -/
theorem openAt_split (links : Nat) (place q : List N) (front back : Path N)
    (hopen : openAt tree links place (front ++ back) = .ok q) :
    ∃ used mid, used ≤ links ∧ openAt tree used place front = .ok mid ∧
      openAt tree (links - used) mid back = .ok q := by
  match front with
  | [] => exact ⟨0, place, Nat.zero_le _, openAt_nil place, hopen⟩
  | .up :: rest =>
      have hdir := dir_of_openAt hopen
      rw [List.cons_append, openAt_cons hdir] at hopen
      obtain ⟨used, mid, hused, hfirst, hlast⟩ := openAt_split links _ q rest back hopen
      exact ⟨used, mid, hused, by rwa [openAt_cons hdir], hlast⟩
  | .name n :: rest =>
      have hdir := dir_of_openAt hopen
      rw [List.cons_append] at hopen
      rcases openAt_cases hopen with
        ⟨hfree, hrest, rfl⟩ | ⟨hnone, hlink, hlater⟩ | ⟨target, fewer, hlink, hfewer, hlater⟩
      · obtain ⟨rfl, rfl⟩ := List.append_eq_nil_iff.mp hrest
        exact ⟨0, _, Nat.zero_le _, openAt_free hdir hfree, openAt_nil _⟩
      · obtain ⟨used, mid, hused, hfirst, hlast⟩ := openAt_split links _ q rest back hlater
        exact ⟨used, mid, hused, by rwa [openAt_through hdir hnone hlink], hlast⟩
      · rw [← List.append_assoc] at hlater
        obtain ⟨used, mid, hused, hfirst, hlast⟩ := openAt_split fewer _ q _ back hlater
        refine ⟨used + 1, mid, by omega, by rwa [openAt_link hdir hlink], ?_⟩
        rwa [hfewer, Nat.add_sub_add_right]
termination_by (links, front.length)

/-- A place to which a way can lead: it exists, and nothing above it is a link or cannot
be searched. -/
def Real (tree : FileTree N C) (place : List N) : Prop :=
  tree.Clear place ∧ tree.node place ≠ none

theorem Real.dropLast {place : List N} (hreal : tree.Real place) : tree.Real place.dropLast := by
  refine ⟨hreal.1.front (List.dropLast_prefix place), fun hnone => hreal.2 ?_⟩
  obtain ⟨rest, hrest⟩ := List.dropLast_prefix place
  rw [← hrest]
  exact node_append_none hnone rest

theorem Real.through {place : List N} {n : N} (hreal : tree.Real place)
    (hdir : tree.Searchable place) (hnone : tree.node (place ++ [n]) ≠ none)
    (hlink : ∀ target, tree.node (place ++ [n]) ≠ some (.link target)) :
    tree.Real (place ++ [n]) :=
  ⟨clear_concat_iff.mpr ⟨hreal.1, .inr hdir, hlink⟩, hnone⟩

theorem ext {tree made : FileTree N C} (hnode : ∀ place, made.node place = tree.node place) :
    made = tree := by
  obtain ⟨node, hroot, hparent⟩ := tree
  obtain ⟨other, hroot', hparent'⟩ := made
  obtain rfl : other = node := funext hnode
  rfl

theorem root_ne_none (tree : FileTree N C) : tree.node [] ≠ none := by
  obtain ⟨searchable, writable, hroot⟩ := tree.root_dir
  rw [hroot]
  exact Option.some_ne_none _

theorem real_nil (tree : FileTree N C) : tree.Real [] := ⟨tree.clear_nil, tree.root_ne_none⟩

/-- What is opened and was there is at a place to which a way can lead. -/
theorem real_of_openAt (links : Nat) (place q : List N) (path : Path N)
    (hreal : tree.Real place) (hopen : openAt tree links place path = .ok q)
    (hq : tree.node q ≠ none) : tree.Real q := by
  match path with
  | [] =>
      rw [openAt_nil] at hopen
      cases hopen
      exact hreal
  | .up :: rest =>
      rw [openAt_cons (dir_of_openAt hopen)] at hopen
      exact real_of_openAt links _ q rest hreal.dropLast hopen hq
  | .name n :: rest =>
      have hdir := dir_of_openAt hopen
      rcases openAt_cases hopen with
        ⟨hfree, -, rfl⟩ | ⟨hnone, hlink, hlater⟩ | ⟨target, fewer, hlink, hfewer, hlater⟩
      · exact absurd hfree hq
      · exact real_of_openAt links _ q rest (hreal.through hdir hnone hlink) hlater hq
      · refine real_of_openAt fewer _ q _ ?_ hlater hq
        split
        · exact tree.real_nil
        · exact hreal
termination_by (links, path.length)

/-- The directory in which a way ends can be written: a name that is missing on the way
can be made. -/
def Writable (tree : FileTree N C) (names : List N) : Prop :=
  ∀ front n, front ++ [n] <+: names → tree.node (front ++ [n]) = none →
    tree.node front ≠ some (.dir true false)

theorem Writable.front {names front : List N} (hwritable : tree.Writable names)
    (hfront : front <+: names) : tree.Writable front :=
  fun before n hbefore => hwritable before n (hbefore.trans hfront)

theorem writable_nil (tree : FileTree N C) : tree.Writable [] := by
  intro front n hfront
  exact absurd (List.prefix_nil.mp hfront) (by simp)

theorem writable_concat_iff {names : List N} {n : N} :
    tree.Writable (names ++ [n]) ↔ tree.Writable names ∧
      (tree.node (names ++ [n]) = none → tree.node names ≠ some (.dir true false)) := by
  constructor
  · intro hwritable
    exact ⟨hwritable.front (List.prefix_append names [n]),
      hwritable names n (List.prefix_refl _)⟩
  · rintro ⟨hnames, hlast⟩ front m hfront
    rcases List.prefix_concat_iff.mp hfront with heq | hfront
    · obtain ⟨rfl, hm⟩ := List.append_inj' heq rfl
      rw [(List.cons.inj hm).1]
      exact hlast
    · exact hnames front m hfront

/-- On the way to what exists, nothing is missing. -/
theorem writable_of_ne_none {names : List N} (hnames : tree.node names ≠ none) :
    tree.Writable names := by
  rintro front n ⟨rest, rfl⟩ hnone
  exact absurd (node_append_none hnone rest) hnames

section Changes

variable [DecidableEq N]

/-- The tree with a new node under a name in a directory. -/
def create (tree : FileTree N C) (place : List N) (n : N) (new : FileNode N C)
    (hdir : tree.node place = some (.dir true true))
    (hnone : tree.node (place ++ [n]) = none) : FileTree N C where
  node names := if names = place ++ [n] then some new else tree.node names
  root_dir := by
    obtain ⟨searchable, writable, hroot⟩ := tree.root_dir
    exact ⟨searchable, writable, by rw [if_neg (by simp), hroot]⟩
  parent_dir := by
    intro front m hsome
    by_cases heq : front ++ [m] = place ++ [n]
    · obtain ⟨rfl, -⟩ := List.append_inj' heq rfl
      exact ⟨true, true, by rw [if_neg (by simp), hdir]⟩
    · rw [if_neg heq] at hsome
      obtain ⟨searchable, writable, hfront⟩ := tree.parent_dir front m hsome
      refine ⟨searchable, writable, ?_⟩
      rw [if_neg, hfront]
      rintro rfl
      rw [hnone] at hfront
      cases hfront

/-- Put a node under a name in a directory that can be searched and written, unless the
name is taken. -/
def put (tree : FileTree N C) (place : List N) (n : N) (new : FileNode N C) :
    Except Errno (FileTree N C) :=
  match hdir : tree.node place with
  | some (.dir true writable) =>
      match hnone : tree.node (place ++ [n]) with
      | none =>
          if hwritable : writable = true then
            .ok (tree.create place n new (hwritable ▸ hdir) hnone)
          else .error .access
      | some _ => .error .fileExists
  | some (.dir false _) => .error .access
  | none => .error .noEntry
  | _ => .error .notDirectory

/-- What was there stays; what is new is as a plan has it, and is in no directory that
could not be written. -/
def Adds (plan : List N → Option (FileNode N C)) (tree made : FileTree N C) : Prop :=
  ∀ place, made.node place = tree.node place ∨
    tree.node place = none ∧ made.node place = plan place ∧
      ∀ front n, place = front ++ [n] → tree.node front ≠ some (.dir true false)

variable {plan : List N → Option (FileNode N C)}

omit [DecidableEq N] in
theorem Adds.refl (tree : FileTree N C) : Adds plan tree tree := fun _ => .inl rfl

omit [DecidableEq N] in
theorem Adds.grows {made : FileTree N C} (hadds : Adds plan tree made) {place : List N}
    (hplace : tree.node place ≠ none) : made.node place = tree.node place :=
  (hadds place).resolve_right fun h => hplace h.1

omit [DecidableEq N] in
theorem Adds.trans {made later : FileTree N C} (hmade : Adds plan tree made)
    (hlater : Adds plan made later) : Adds plan tree later := by
  intro place
  rcases hlater place with hlater | ⟨hfree, hlater, hopen⟩
  · rw [hlater]
    exact hmade place
  · refine .inr ⟨?_, hlater, fun front n hplace hfront => ?_⟩
    · by_contra hsome
      rw [hmade.grows hsome] at hfree
      exact hsome hfree
    · have hkept : made.node front = tree.node front :=
        hmade.grows (by rw [hfront]; exact Option.some_ne_none _)
      exact hopen front n hplace (hkept.trans hfront)

omit [DecidableEq N] in
/-- Where a plan has open directories on the way to a place and no link at its end, what
is added leaves the way as clear as it was. -/
theorem Adds.clear_iff {made : FileTree N C} {names : List N} (hadds : Adds plan tree made)
    (hways : ∀ front n, front ++ [n] <+: names → plan front = some (.dir true true))
    (hlast : ∀ target, plan names ≠ some (.link target)) :
    made.Clear names ↔ tree.Clear names := by
  have hlink : ∀ front n target, front ++ [n] <+: names →
      plan (front ++ [n]) ≠ some (.link target) := by
    rintro front n target ⟨rest, rfl⟩
    cases rest with
    | nil => rw [List.append_nil] at hlast; exact hlast target
    | cons m rest =>
        rw [hways (front ++ [n]) m ⟨rest, by simp⟩]
        exact fun h => by cases h
  refine forall_congr' fun front => forall_congr' fun n => forall_congr' fun hfront => ?_
  refine and_congr ?_ (forall_congr' fun target => not_congr ?_)
  · rcases hadds front with hsame | ⟨hnone, hnew, -⟩
    · rw [Searchable, Searchable, hsame]
    · rw [Searchable, hnew, hways front n hfront]
      exact iff_of_true (.inr ⟨true, rfl⟩) (.inl hnone)
  · rcases hadds (front ++ [n]) with hsame | ⟨hnone, hnew, -⟩
    · rw [hsame]
    · rw [hnew, hnone]
      exact iff_of_false (hlink front n target hfront) fun h => by cases h

omit [DecidableEq N] in
/-- There, what is added makes it neither possible nor impossible to make what is missing
on the way. -/
theorem Adds.writable_iff {made : FileTree N C} {names : List N} (hadds : Adds plan tree made)
    (hways : ∀ front n, front ++ [n] <+: names → plan front = some (.dir true true)) :
    made.Writable names ↔ tree.Writable names := by
  refine forall_congr' fun front => forall_congr' fun n => forall_congr' fun hfront => ?_
  rcases hadds front with hsame | ⟨hnone, hnew, -⟩
  · rw [hsame]
    rcases hadds (front ++ [n]) with hlast | ⟨hfree, -, hopen⟩
    · rw [hlast]
    · exact iff_of_true (fun _ => hopen front n rfl) (fun _ => hopen front n rfl)
  · rw [hnew, hways front n hfront, hnone]
    exact iff_of_true (fun _ h => by cases h) fun _ h => by cases h

theorem put_of_free {place : List N} {n : N} {new : FileNode N C}
    (hdir : tree.node place = some (.dir true true))
    (hnone : tree.node (place ++ [n]) = none) :
    tree.put place n new = .ok (tree.create place n new hdir hnone) := by
  rw [put]
  split
  · next writable heq =>
      obtain rfl : true = writable := by simpa [hdir] using heq
      split
      · rfl
      · next heq => simp [hnone] at heq
  · next heq => simp [hdir] at heq
  · next heq => simp [hdir] at heq
  · next hno _ _ => exact absurd hdir (hno true)

theorem put_of_taken {place : List N} {n : N} {new : FileNode N C}
    (hdir : tree.Searchable place) (hsome : tree.node (place ++ [n]) ≠ none) :
    tree.put place n new = .error .fileExists := by
  obtain ⟨writable, hdir⟩ := hdir
  rw [put]
  split
  · split
    · next heq => exact absurd heq hsome
    · rfl
  · next heq => simp [hdir] at heq
  · next heq => simp [hdir] at heq
  · next hno _ _ => exact absurd hdir (hno writable)

theorem put_of_closed {place : List N} {n : N} {new : FileNode N C}
    (hdir : tree.node place = some (.dir true false))
    (hnone : tree.node (place ++ [n]) = none) :
    tree.put place n new = .error .access := by
  rw [put]
  split
  · next writable heq =>
      obtain rfl : false = writable := by simpa [hdir] using heq
      split
      · rfl
      · next heq => simp [hnone] at heq
  · rfl
  · next heq => simp [hdir] at heq
  · next hno _ _ => exact absurd hdir (hno false)

omit [DecidableEq N] in
/-- A directory in which a missing name can be made can be written. -/
theorem Searchable.writable {place : List N} {n : N} (hdir : tree.Searchable place)
    (hnone : tree.node (place ++ [n]) = none) (hwritable : tree.Writable (place ++ [n])) :
    tree.node place = some (.dir true true) := by
  obtain ⟨writable, hdir⟩ := hdir
  have hopen := hwritable place n (List.prefix_refl _) hnone
  cases writable with
  | true => exact hdir
  | false => exact absurd hdir hopen

end Changes

end FileTree

end Lib
