/-
The guard of the state root: every path that is written or read below it is checked
component by component, without following a link, before it is used.
-/
import HermesPipeline.Lib.FileTree

namespace HermesPipeline

namespace StateGuard

open Lib Lib.Lexical

/-- What `read_text` finds in a file. -/
inductive FileText
  | text (letters : String)
  /-- Bytes that are no UTF-8. -/
  | undecodable
  /-- A file that may not be opened. -/
  | unreadable
deriving Repr, DecidableEq

abbrev Tree := FileTree String FileText

/-- A path of `pathlib`: whether it is absolute, and its parts behind the anchor. -/
structure PurePath where
  absolute : Bool
  parts : Path String

/-- Errors of the guard, and of what is done behind it. -/
inductive GuardError
  /-- `StateRootBoundaryError`. -/
  | boundary
  | os (error : Errno)
  /-- A `RuntimeError`: of `resolve` in a loop of links, or a recursion too deep. -/
  | runtime
  /-- A `UnicodeDecodeError`. -/
  | decode
deriving Repr, DecidableEq

/-- The links that the kernel follows for one path. -/
def maxLinks : Nat := 40

/-- Python's recursion limit. -/
def maxDepth : Nat := 1000

/-- `_is_link_or_reparse_point`. -/
def isLinkOrReparsePoint (tree : Tree) (path : Path String) : Except GuardError Bool :=
  match tree.walk false maxLinks [] path with
  | .ok place =>
      match tree.node place with
      | some (.link _) => .ok true
      | _ => .ok false
  | .error .noEntry => .ok false
  | .error _ => .error .boundary

/-- The loop over the parts behind a component; none of them may be a link. -/
def ensureNoLinks (tree : Tree) (component : Path String) :
    Path String → Except GuardError Unit
  | [] => .ok ()
  | part :: rest =>
      match isLinkOrReparsePoint tree (component ++ [part]) with
      | .error e => .error e
      | .ok true => .error .boundary
      | .ok false => ensureNoLinks tree (component ++ [part]) rest

instance : LawfulBEq (Step String) := inferInstance

/-- `_trusted_absolute_path`. -/
def trustedAbsolutePath (path : PurePath) : Except GuardError (Path String) :=
  if path.absolute = false ∨ .up ∈ path.parts then .error .boundary else .ok path.parts

/-- The links that a resolution has met, with what they resolve to. -/
abbrev Seen := List (List String × Option (List String))

/-- Where the link at a place leads, if there is one. -/
def readLink? (tree : Tree) (path : List String) : Option (LinkTarget String) :=
  match tree.walk false maxLinks [] (names path) with
  | .ok place =>
      match tree.node place with
      | some (.link target) => some target
      | _ => none
  | .error _ => none

/-- `_joinrealpath` of an absolute path, not strict: the place, or the path at which a
loop of links was met. `none` is a recursion that is too deep. -/
def joinRealPath (tree : Tree) (depth : Nat) (path : List String) :
    Path String → Seen → Option (Except (Path String) (List String) × Seen)
  | [], seen => some (.ok path, seen)
  | .up :: rest, seen => joinRealPath tree depth path.dropLast rest seen
  | .name n :: rest, seen =>
      match readLink? tree (path ++ [n]) with
      | none => joinRealPath tree depth (path ++ [n]) rest seen
      | some target =>
          match seen.find? (·.1 = path ++ [n]) with
          | some (_, some real) => joinRealPath tree depth real rest seen
          | some (_, none) => some (.error (names (path ++ [n]) ++ rest), seen)
          | none =>
              match depth with
              | 0 => none
              | depth + 1 =>
                  match joinRealPath tree depth (if target.absolute then [] else path)
                      target.steps ((path ++ [n], none) :: seen) with
                  | none => none
                  | some (.error left, seen) => some (.error (left ++ rest), seen)
                  | some (.ok real, seen) =>
                      joinRealPath tree (depth + 1) real rest ((path ++ [n], some real) :: seen)
termination_by rest => (depth, rest.length)

/-- `os.path.realpath` of an absolute path, not strict. -/
def realPath (tree : Tree) (path : Path String) : Option (List String) :=
  match joinRealPath tree maxDepth [] path [] with
  | none => none
  | some (.ok place, _) => some place
  | some (.error left, _) => some (resolve left).2

/-- `Path.resolve` of an absolute path. -/
def resolvePath (tree : Tree) (path : Path String) : Except GuardError (List String) :=
  match realPath tree path with
  | none => .error .runtime
  | some real =>
      if tree.walk true maxLinks [] (names real) = .error .tooManyLinks then .error .runtime
      else .ok real

/-- `ensure_inside_state_root`. -/
def ensureInsideStateRoot (tree : Tree) (root target : PurePath) : Except GuardError Unit := do
  let lexicalRoot ← trustedAbsolutePath root
  let lexicalTarget ← trustedAbsolutePath target
  ensureNoLinks tree [] lexicalRoot
  if lexicalRoot <+: lexicalTarget then
    ensureNoLinks tree lexicalRoot (lexicalTarget.drop lexicalRoot.length)
    let base ← resolvePath tree root.parts
    let resolved ← resolvePath tree target.parts
    if base <+: resolved then .ok () else .error .boundary
  else .error .boundary

/-- A path that names places from the root, without going up. -/
def PurePath.of (places : List String) : PurePath := ⟨true, names places⟩

/-- The paths that the guard lets pass: names from the root, the target at or below the
root, and nothing on the way a link. -/
def Trusted (tree : Tree) (root target : PurePath) : Prop :=
  ∃ base rest, root = .of base ∧ target = .of (base ++ rest) ∧ tree.Clear (base ++ rest)

variable {tree : Tree}

theorem exists_names {path : Path String} (hplain : .up ∉ path) : ∃ ns, path = names ns := by
  induction path with
  | nil => exact ⟨[], rfl⟩
  | cons step rest ih =>
      obtain ⟨ns, rfl⟩ := ih fun hmem => hplain (List.mem_cons_of_mem step hmem)
      cases step with
      | up => exact absurd List.mem_cons_self hplain
      | name n => exact ⟨n :: ns, rfl⟩

theorem up_not_mem_names (ns : List String) : Step.up ∉ names ns := by
  intro hmem
  obtain ⟨n, -, h⟩ := List.mem_map.mp hmem
  cases h

theorem names_append (left right : List String) :
    names (left ++ right) = names left ++ names right := List.map_append

theorem names_nil : names ([] : List String) = [] := rfl

theorem names_cons (n : String) (rest : List String) :
    names (n :: rest) = .name n :: names rest := rfl

theorem names_concat (base : List String) (n : String) :
    names (base ++ [n]) = names base ++ [.name n] := names_append base [n]

theorem names_inj {left right : List String} : names left = names right ↔ left = right :=
  (List.map_injective_iff.mpr fun _ _ h => Step.name.inj h).eq_iff

theorem trustedAbsolutePath_eq_ok_iff (path : PurePath) (parts : Path String) :
    trustedAbsolutePath path = .ok parts ↔ ∃ ns, path = .of ns ∧ parts = names ns := by
  rw [trustedAbsolutePath]
  split
  · next hbad =>
      refine iff_of_false (fun h => by cases h) ?_
      rintro ⟨ns, rfl, rfl⟩
      rcases hbad with hbad | hbad
      · cases hbad
      · exact up_not_mem_names ns hbad
  · next hgood =>
      rw [not_or, Bool.not_eq_false] at hgood
      obtain ⟨ns, hns⟩ := exists_names hgood.2
      have hpath : path = .of ns := by
        obtain ⟨absolute, parts⟩ := path
        simp only at hgood hns
        rw [hgood.1, hns]
        rfl
      rw [Except.ok.injEq, hpath]
      constructor
      · rintro rfl
        exact ⟨ns, rfl, rfl⟩
      · rintro ⟨other, hsame, rfl⟩
        exact congrArg PurePath.parts hsame

theorem walk_concat {base : List String} (hclear : tree.Clear base) (n : String) :
    tree.walk false maxLinks [] (names (base ++ [n])) =
      if (tree.node base).isSome then tree.walk false maxLinks base [.name n]
      else .error .noEntry := by
  have hall := @FileTree.walk_append_of_clear _ _ tree false maxLinks [] base hclear
    tree.root_ne_none [.name n]
  rwa [List.nil_append, ← names_concat] at hall

/-- On a clear way, the check of the next part finds no link just when it is clear too. -/
theorem isLink_concat {base : List String} (hclear : tree.Clear base) (n : String) :
    isLinkOrReparsePoint tree (names (base ++ [n])) = .ok false ↔ tree.Clear (base ++ [n]) := by
  rw [FileTree.clear_concat_iff, isLinkOrReparsePoint, walk_concat hclear]
  cases hbase : tree.node base with
  | none =>
      refine iff_of_true rfl ⟨hclear, .inl rfl, ?_⟩
      rw [FileTree.node_append_none hbase]
      exact fun target h => by cases h
  | some node =>
      rw [Option.isSome_some, if_pos rfl, FileTree.walk, hbase]
      cases node with
      | link target => exact absurd hbase (hclear.not_link target)
      | file content => simp [FileTree.Searchable, hbase]
      | dir searchable writable =>
          cases searchable with
          | false => simp [FileTree.Searchable, hbase]
          | true =>
              cases hnode : tree.node (base ++ [n]) with
              | none => simp [hclear, FileTree.Searchable, hbase]
              | some node =>
                  cases node <;> simp [hclear, hnode, FileTree.walk, FileTree.Searchable, hbase]

theorem isLink_cases (tree : Tree) (path : Path String) :
    isLinkOrReparsePoint tree path = .ok false ∨ isLinkOrReparsePoint tree path = .ok true ∨
      isLinkOrReparsePoint tree path = .error .boundary := by
  rw [isLinkOrReparsePoint]
  split
  · split
    · exact .inr (.inl rfl)
    · exact .inl rfl
  · exact .inl rfl
  · exact .inr (.inr rfl)

/-- The loop finds no link just on a clear way, and raises nothing else than the error
of the boundary. -/
theorem ensureNoLinks_eq {base : List String} (hclear : tree.Clear base) (rest : List String) :
    (tree.Clear (base ++ rest) ∧ ensureNoLinks tree (names base) (names rest) = .ok ()) ∨
      (¬ tree.Clear (base ++ rest) ∧
        ensureNoLinks tree (names base) (names rest) = .error .boundary) := by
  induction rest generalizing base with
  | nil =>
      refine .inl ⟨?_, rfl⟩
      rwa [List.append_nil]
  | cons n rest ih =>
      have hsplit : base ++ n :: rest = base ++ [n] ++ rest := by simp
      rw [hsplit, names_cons, ensureNoLinks, ← names_concat]
      by_cases hn : tree.Clear (base ++ [n])
      · rw [(isLink_concat hclear n).mpr hn]
        exact ih hn
      · refine .inr ⟨fun hall => hn (hall.front (List.prefix_append _ rest)), ?_⟩
        have hno := mt (isLink_concat hclear n).mp hn
        rcases isLink_cases tree (names (base ++ [n])) with hlink | hlink | hlink
        · exact absurd hlink hno
        · rw [hlink]
        · rw [hlink]

theorem readLink?_of_clear {path : List String} (hclear : tree.Clear path) :
    readLink? tree path = none := by
  have hwalk := @FileTree.walk_of_clear _ _ tree false maxLinks [] path hclear tree.root_ne_none
  rw [readLink?, hwalk, List.nil_append]
  split
  · next place heq =>
      split at heq
      · rw [← Except.ok.inj heq]
        split
        · next target hlink => exact absurd hlink (hclear.not_link target)
        · rfl
      · cases heq
  · rfl

/-- Where nothing is a link, a path resolves to the place that it names. -/
theorem joinRealPath_of_clear {path ns : List String} (hclear : tree.Clear (path ++ ns))
    (depth : Nat) (seen : Seen) :
    joinRealPath tree depth path (names ns) seen = some (.ok (path ++ ns), seen) := by
  induction ns generalizing path with
  | nil =>
      rw [List.append_nil, names_nil, joinRealPath]
  | cons n rest ih =>
      have hsplit : path ++ n :: rest = path ++ [n] ++ rest := by simp
      rw [hsplit] at hclear ⊢
      rw [names_cons, joinRealPath,
        readLink?_of_clear (hclear.front (List.prefix_append _ rest))]
      exact ih hclear

/-- A place on a clear way resolves to itself. -/
theorem resolvePath_of_realPath {path : Path String} {place : List String}
    (hpath : realPath tree path = some place) (hclear : tree.Clear place) :
    resolvePath tree path = .ok place := by
  have hwalk := @FileTree.walk_of_clear _ _ tree true maxLinks [] place hclear tree.root_ne_none
  rw [resolvePath, hpath]
  simp only
  rw [List.nil_append] at hwalk
  rw [hwalk, if_neg]
  split
  · exact fun h => by cases h
  · exact fun h => by cases h

theorem resolvePath_of_clear {ns : List String} (hclear : tree.Clear ns) :
    resolvePath tree (names ns) = .ok ns := by
  refine resolvePath_of_realPath ?_ hclear
  rw [realPath, @joinRealPath_of_clear tree [] ns hclear]
  rfl

theorem PurePath.of_inj {left right : List String} :
    PurePath.of left = .of right ↔ left = right := by
  rw [PurePath.of, PurePath.of, PurePath.mk.injEq, names_inj]
  exact and_iff_right rfl

theorem trustedAbsolutePath_cases (path : PurePath) :
    (∃ ns, path = .of ns ∧ trustedAbsolutePath path = .ok (names ns)) ∨
      ((∀ ns, path ≠ .of ns) ∧ trustedAbsolutePath path = .error .boundary) := by
  cases htrusted : trustedAbsolutePath path with
  | ok parts =>
      obtain ⟨ns, hpath, rfl⟩ := (trustedAbsolutePath_eq_ok_iff path parts).mp htrusted
      exact .inl ⟨ns, hpath, rfl⟩
  | error e =>
      refine .inr ⟨fun ns hpath => ?_, ?_⟩
      · have hok := (trustedAbsolutePath_eq_ok_iff path _).mpr ⟨ns, hpath, rfl⟩
        rw [htrusted] at hok
        cases hok
      · rw [← htrusted, trustedAbsolutePath]
        rw [trustedAbsolutePath] at htrusted
        split at htrusted
        · next hbad => rw [if_pos hbad]
        · cases htrusted

/-- The guard lets a trusted path pass, and raises the error of the boundary for every
other one. -/
theorem ensureInside_cases (tree : Tree) (root target : PurePath) :
    (Trusted tree root target ∧ ensureInsideStateRoot tree root target = .ok ()) ∨
      (¬ Trusted tree root target ∧
        ensureInsideStateRoot tree root target = .error .boundary) := by
  rcases trustedAbsolutePath_cases root with ⟨base, rfl, hroot⟩ | ⟨hbad, hroot⟩
  · rcases trustedAbsolutePath_cases target with ⟨full, rfl, htarget⟩ | ⟨hbad, htarget⟩
    · rw [ensureInsideStateRoot, hroot, htarget]
      simp only [bind, Except.bind]
      rcases ensureNoLinks_eq tree.clear_nil base with ⟨hclear, hlinks⟩ | ⟨hclear, hlinks⟩
      · rw [List.nil_append] at hclear
        rw [names_nil] at hlinks
        simp only [hlinks]
        by_cases hinside : base <+: full
        · obtain ⟨rest, rfl⟩ := hinside
          have hbelow : names base <+: names (base ++ rest) :=
            ⟨names rest, (names_append base rest).symm⟩
          have hdrop : (names (base ++ rest)).drop (names base).length = names rest := by
            rw [names_append, List.drop_left]
          simp only [if_pos hbelow, hdrop]
          rcases ensureNoLinks_eq hclear rest with ⟨hall, hlater⟩ | ⟨hall, hlater⟩
          · refine .inl ⟨⟨base, rest, rfl, rfl, hall⟩, ?_⟩
            simp only [hlater, PurePath.of, resolvePath_of_clear hclear,
              resolvePath_of_clear hall]
            exact if_pos (List.prefix_append base rest)
          · refine .inr ⟨?_, by simp only [hlater]⟩
            rintro ⟨other, more, hsame, hmore, hclear'⟩
            rw [PurePath.of_inj] at hmore
            exact hall (hmore ▸ hclear')
        · have houtside : ¬ names base <+: names full := by
            rintro ⟨rest, hrest⟩
            obtain ⟨left, right, hfull, hleft, -⟩ := List.map_eq_append_iff.mp hrest.symm
            rw [names_inj.mp (hleft : names left = names base)] at hfull
            exact hinside ⟨right, hfull.symm⟩
          simp only [if_neg houtside]
          refine .inr ⟨?_, trivial⟩
          rintro ⟨other, more, hsame, hmore, -⟩
          rw [PurePath.of_inj] at hsame hmore
          exact hinside ⟨more, by rw [hsame, hmore]⟩
      · rw [List.nil_append] at hclear
        rw [names_nil] at hlinks
        simp only [hlinks]
        refine .inr ⟨?_, trivial⟩
        rintro ⟨other, more, hsame, hmore, hall⟩
        rw [PurePath.of_inj] at hsame
        exact hclear (hsame ▸ hall.front (List.prefix_append other more))
    · rw [ensureInsideStateRoot, hroot, htarget]
      refine .inr ⟨?_, rfl⟩
      rintro ⟨other, more, hsame, hmore, -⟩
      exact hbad _ hmore
  · rw [ensureInsideStateRoot, hroot]
    refine .inr ⟨?_, rfl⟩
    rintro ⟨other, more, hsame, -, -⟩
    exact hbad _ hsame

/-- The guard passes exactly the paths below a root on whose way nothing is a link and
nothing cannot be inspected, and has one error for all others. -/
theorem guard_passes_iff (tree : Tree) (root target : PurePath) :
    (ensureInsideStateRoot tree root target = .ok () ↔ Trusted tree root target) ∧
      (¬ Trusted tree root target →
        ensureInsideStateRoot tree root target = .error .boundary) := by
  rcases ensureInside_cases tree root target with ⟨htrusted, hok⟩ | ⟨huntrusted, herror⟩
  · exact ⟨iff_of_true hok htrusted, fun h => absurd htrusted h⟩
  · refine ⟨iff_of_false (fun hok => ?_) huntrusted, fun _ => herror⟩
    rw [herror] at hok
    cases hok

/-- Behind the guard, the kernel follows a path to the place that it names or finds
nothing there, at the root, at the target and between them. -/
theorem guarded_path_stays {tree : Tree} {root target : PurePath}
    (hguard : ensureInsideStateRoot tree root target = .ok ()) :
    ∃ base rest, root = .of base ∧ target = .of (base ++ rest) ∧
      ∀ (follow : Bool) (links : Nat) (front : List String), front <+: rest →
        tree.walk follow links [] (names (base ++ front)) = .ok (base ++ front) ∨
          tree.walk follow links [] (names (base ++ front)) = .error .noEntry := by
  rcases ensureInside_cases tree root target with ⟨htrusted, -⟩ | ⟨-, herror⟩
  · obtain ⟨base, rest, hroot, htarget, hclear⟩ := htrusted
    refine ⟨base, rest, hroot, htarget, fun follow links front hfront => ?_⟩
    have hway : tree.Clear ([] ++ (base ++ front)) := by
      refine hclear.front ?_
      rwa [List.nil_append, List.prefix_append_right_inj]
    have hwalk := @FileTree.walk_of_clear _ _ tree follow links [] _ hway tree.root_ne_none
    rw [hwalk, List.nil_append]
    split
    · exact .inl rfl
    · exact .inr rfl
  · rw [hguard] at herror
    cases herror

namespace GuardWitness

/-- A home, and a link in it that leads out of it. -/
def homeTree : Tree where
  node
    | [] => some (.dir true false)
    | ["home"] => some (.dir true true)
    | ["home", "out"] => some (.link ⟨true, [.name "tmp"]⟩)
    | _ => none
  root_dir := ⟨true, false, rfl⟩
  parent_dir := by
    intro front n hsome
    match front with
    | [] => exact ⟨true, false, rfl⟩
    | [home] =>
        by_cases hhome : home = "home"
        · subst hhome
          exact ⟨true, true, rfl⟩
        · refine absurd ?_ hsome
          simp [hhome]
    | home :: out :: more =>
        refine absurd ?_ hsome
        simp

theorem log_trusted : Trusted homeTree (.of ["home"]) (.of (["home"] ++ ["logs"])) := by
  refine ⟨["home"], ["logs"], rfl, rfl, ?_⟩
  have hhome : homeTree.Clear [] := homeTree.clear_nil
  have hclear : homeTree.Clear ([] ++ ["home"]) :=
    FileTree.clear_concat_iff.mpr ⟨hhome, .inr ⟨false, rfl⟩, fun target h => by cases h⟩
  exact FileTree.clear_concat_iff.mpr
    ⟨hclear, .inr ⟨true, rfl⟩, fun target h => by cases h⟩

theorem log_stays : ∃ base rest, PurePath.of ["home"] = .of base ∧
    PurePath.of (["home"] ++ ["logs"]) = .of (base ++ rest) ∧
      ∀ (follow : Bool) (links : Nat) (front : List String), front <+: rest →
        homeTree.walk follow links [] (names (base ++ front)) = .ok (base ++ front) ∨
          homeTree.walk follow links [] (names (base ++ front)) = .error .noEntry := by
  refine guarded_path_stays ?_
  rcases ensureInside_cases homeTree (.of ["home"]) (.of (["home"] ++ ["logs"])) with h | h
  · exact h.2
  · exact absurd log_trusted h.1

end GuardWitness

end StateGuard

end HermesPipeline
