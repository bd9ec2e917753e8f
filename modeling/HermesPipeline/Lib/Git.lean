/-
Git objects, named by their contents.  A tree maps the paths of its files to
their texts, and a commit holds its tree, its message, its date and the commits
it was made from.
-/
import Mathlib.Data.Finmap
import HermesPipeline.Lib.Keyed

namespace Lib

namespace Git

/-- The files of a tree by their paths. -/
abbrev Tree := Finmap fun _ : String => String

/-- The tree with the entries written over it. -/
def Tree.overlay (tree : Tree) (entries : List (String × String)) : Tree :=
  entries.foldl (fun tree entry => tree.insert entry.1 entry.2) tree

theorem Tree.lookup_overlay_of_not_mem {tree : Tree} {entries : List (String × String)}
    {path : String} (habsent : path ∉ entries.map Prod.fst) :
    (tree.overlay entries).lookup path = tree.lookup path := by
  induction entries generalizing tree with
  | nil => rfl
  | cons entry rest ih =>
      rw [List.map_cons, List.mem_cons, not_or] at habsent
      have hrest := @ih (tree.insert entry.1 entry.2) habsent.2
      rw [Finmap.lookup_insert_of_ne _ habsent.1] at hrest
      exact hrest

theorem Tree.lookup_overlay_of_mem {tree : Tree} {entries : List (String × String)}
    (hkeys : (entries.map Prod.fst).Nodup) {path text : String}
    (hmem : (path, text) ∈ entries) :
    (tree.overlay entries).lookup path = some text := by
  induction entries generalizing tree with
  | nil => simp at hmem
  | cons entry rest ih =>
      rw [List.map_cons, List.nodup_cons] at hkeys
      rcases List.mem_cons.mp hmem with rfl | hmem
      · have hrest := @lookup_overlay_of_not_mem (tree.insert path text) rest path hkeys.1
        rw [Finmap.lookup_insert] at hrest
        exact hrest
      · exact ih hkeys.2 hmem

/-- A file map written over a tree: its own files, and the tree's where it has
none. -/
theorem Tree.lookup_overlay (tree : Tree) (files : Dict String String) (path : String) :
    (tree.overlay files.rows).lookup path = (files.get? path).or (tree.lookup path) := by
  cases hfile : files.get? path with
  | some text =>
      rw [Option.some_or]
      exact lookup_overlay_of_mem files.unique
        ((Dict.get?_eq_some_iff files path text).mp hfile)
  | none =>
      rw [Option.none_or]
      apply lookup_overlay_of_not_mem
      intro hmem
      have hsome := (Dict.mem_keys_iff files path).mp hmem
      simp [hfile] at hsome

/-- A commit.  Its name is its contents, so commits are the same exactly when
they agree in all of these. -/
inductive Commit
  | root (tree : Tree) (message : String) (date : Nat)
  | child (parent : Commit) (tree : Tree) (message : String) (date : Nat)
  | merge (first second : Commit) (tree : Tree) (message : String) (date : Nat)
deriving DecidableEq

namespace Commit

def tree : Commit → Tree
  | .root tree _ _ => tree
  | .child _ tree _ _ => tree
  | .merge _ _ tree _ _ => tree

/-- The commit and everything it descends from. -/
def history : Commit → List Commit
  | .root tree message date => [.root tree message date]
  | .child parent tree message date => .child parent tree message date :: parent.history
  | .merge first second tree message date =>
      .merge first second tree message date :: (first.history ++ second.history)

end Commit

end Git

end Lib
