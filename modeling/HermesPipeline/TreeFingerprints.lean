/-
The two fingerprints of a directory tree.  `candidate_sha` of the managed
worktree hashes names and contents with nothing between them, the digest of a
snapshot puts a zero byte after each.  Neither says where a content ends.
-/
import HermesPipeline.Lib.Framing
import HermesPipeline.Lib.Keyed
import Mathlib.Data.Char
import Mathlib.Data.List.Lex

namespace HermesPipeline

open Lib

/-- What a file may be called: not empty, and no reference to a directory. -/
def PlainName (name : List Char) : Prop :=
  name ≠ [] ∧ name ≠ ['.'] ∧ name ≠ ['.', '.']

instance (name : List Char) : Decidable (PlainName name) :=
  inferInstanceAs (Decidable (_ ∧ _))

/-- A path below the root as `as_posix` writes it. -/
structure PosixPath where
  text : String
  plain : ∀ name ∈ text.toList.splitOn '/', PlainName name
  unmarked : '\x00' ∉ text.toList
deriving DecidableEq

namespace PosixPath

def parts (path : PosixPath) : List (List Char) := path.text.toList.splitOn '/'

/-- `rel.encode("utf-8")`. -/
def encode (path : PosixPath) : List UInt8 :=
  path.text.toList.flatMap String.utf8EncodeChar

theorem toList_eq_intercalate (path : PosixPath) :
    path.text.toList = ['/'].intercalate path.parts :=
  (List.intercalate_splitOn '/').symm

theorem ext_toList {left right : PosixPath}
    (htext : left.text.toList = right.text.toList) : left = right := by
  cases left
  cases right
  simp only at htext
  cases String.toList_injective htext
  rfl

theorem parts_injective : Function.Injective parts := by
  intro left right hparts
  apply ext_toList
  rw [left.toList_eq_intercalate, right.toList_eq_intercalate, hparts]

theorem toList_injective : Function.Injective fun path : PosixPath =>
    path.text.toList :=
  fun _ _ htext => ext_toList htext

theorem toList_ne_nil (path : PosixPath) : path.text.toList ≠ [] := by
  intro hnil
  have hplain := path.plain [] (by rw [hnil]; simp)
  exact hplain.1 rfl

theorem encode_ne_nil (path : PosixPath) : path.encode ≠ [] := by
  obtain ⟨letter, hletter⟩ := List.exists_mem_of_ne_nil _ path.toList_ne_nil
  intro hnil
  exact String.utf8EncodeChar_ne_nil (List.flatMap_eq_nil_iff.mp hnil letter hletter)

theorem encode_injective : Function.Injective encode := by
  intro left right hencode
  apply ext_toList
  have hbytes : left.text.toList.utf8Encode = right.text.toList.utf8Encode :=
    congrArg List.toByteArray hencode
  rw [← String.toByteArray_ofList, ← String.toByteArray_ofList,
    String.toByteArray_inj, String.ofList_inj] at hbytes
  exact hbytes

/-- Only the zero character is encoded with a zero byte. -/
theorem zero_notMem_utf8EncodeChar {letter : Char} (hletter : letter ≠ '\x00') :
    (0 : UInt8) ∉ String.utf8EncodeChar letter := by
  have hpos : letter.val.toNat ≠ 0 := by
    intro hzero
    apply hletter
    apply Char.ext
    exact UInt32.toNat_inj.mp hzero
  have hbyte : ∀ n : Nat, n % 256 ≠ 0 → (0 : UInt8) ≠ UInt8.ofNat n := by
    intro n hn hzero
    apply hn
    have htoNat := congrArg UInt8.toNat hzero
    simpa using htoNat.symm
  unfold String.utf8EncodeChar
  simp only
  split
  · rename_i hle
    simp only [List.mem_singleton]
    exact hbyte _ (by omega)
  · split
    · simp only [List.mem_cons, List.not_mem_nil, or_false, not_or]
      exact ⟨hbyte _ (by omega), hbyte _ (by omega)⟩
    · split
      · simp only [List.mem_cons, List.not_mem_nil, or_false, not_or]
        exact ⟨hbyte _ (by omega), hbyte _ (by omega), hbyte _ (by omega)⟩
      · simp only [List.mem_cons, List.not_mem_nil, or_false, not_or]
        exact ⟨hbyte _ (by omega), hbyte _ (by omega), hbyte _ (by omega),
          hbyte _ (by omega)⟩

theorem zero_notMem_encode (path : PosixPath) : (0 : UInt8) ∉ path.encode := by
  intro hmem
  obtain ⟨letter, hletter, hbyte⟩ := List.mem_flatMap.mp hmem
  refine zero_notMem_utf8EncodeChar ?_ hbyte
  rintro rfl
  exact path.unmarked hletter

end PosixPath

/-- The regular files below a root.  No file is a directory of another. -/
structure Tree where
  files : Dict PosixPath (List UInt8)
  apart : ∀ path ∈ files.rows.map Prod.fst, ∀ other ∈ files.rows.map Prod.fst,
    path.parts <+: other.parts → path = other

namespace Tree

/-- The two trees are one map from paths to contents. -/
def Same (left right : Tree) : Prop :=
  ∀ path, left.files.get? path = right.files.get? path

/-- `sorted(self._root.rglob("*"))`: paths compare by their parts. -/
def byParts (tree : Tree) : List (PosixPath × List UInt8) :=
  tree.files.sortedBy PosixPath.parts

/-- `sorted(files, key=...as_posix())`: paths compare as texts. -/
def byText (tree : Tree) : List (PosixPath × List UInt8) :=
  tree.files.sortedBy fun path => path.text.toList

end Tree

/-- What `candidate_sha` feeds to its hash. -/
def candidateBytes (tree : Tree) : List UInt8 :=
  tree.byParts.flatMap fun file => file.1.encode ++ file.2

/-- `ManagedWorktree.candidate_sha`. -/
def candidateSha (sha256 : List UInt8 → String) (tree : Tree) : String :=
  sha256 (candidateBytes tree)

/-- What `snapshot_tree_digest` feeds to its hash. -/
def snapshotBytes (tree : Tree) : List UInt8 :=
  tree.byText.flatMap fun file => file.1.encode ++ [0] ++ file.2 ++ [0]

/-- `snapshot_tree_digest`: the root is a directory with a tree below it, or is
none. -/
def snapshotTreeDigest (sha256 : List UInt8 → String) (root : Option Tree) :
    Except String String :=
  match root with
  | none => .error "snapshot is not a directory"
  | some tree => .ok ("sha256:" ++ sha256 (snapshotBytes tree))

/-- Two inputs of the hash that it maps to one digest. -/
def Collision (sha256 : List UInt8 → String) (left right : List UInt8) : Prop :=
  left ≠ right ∧ sha256 left = sha256 right

section Framing

open Lib.Framing

/-- The files as names and contents in bytes. -/
def entries (files : List (PosixPath × List UInt8)) : Listing UInt8 :=
  files.map fun file => (file.1.encode, file.2)

theorem forall_entries {P : List UInt8 × List UInt8 → Prop}
    {files : List (PosixPath × List UInt8)}
    (hfile : ∀ file ∈ files, P (file.1.encode, file.2)) :
    ∀ entry ∈ entries files, P entry := by
  intro entry hentry
  obtain ⟨file, hmem, rfl⟩ := List.mem_map.mp hentry
  exact hfile file hmem

theorem entries_injective : Function.Injective entries := by
  apply List.map_injective_iff.mpr
  intro left right hsame
  exact Prod.ext (PosixPath.encode_injective (Prod.ext_iff.mp hsame).1)
    (Prod.ext_iff.mp hsame).2

theorem candidateBytes_eq (tree : Tree) :
    candidateBytes tree = joined (entries tree.byParts) := by
  rw [candidateBytes, joined, entries, List.flatMap_map]

theorem snapshotBytes_eq (tree : Tree) :
    snapshotBytes tree = delimited 0 (entries tree.byText) := by
  rw [snapshotBytes, delimited, entries, List.flatMap_map]

/-- One tree is read as the other after moves of the boundaries between the
names and the contents of its files. -/
def Recut (left right : Tree) : Prop :=
  Connected JoinedMove (entries left.byParts) (entries right.byParts)

/-- One tree is read as the other after moves of zero bytes between the
boundaries and the contents of its files. -/
def Remarked (left right : Tree) : Prop :=
  Connected (DelimitedMove 0) (entries left.byText) (entries right.byText)

theorem candidateBytes_eq_iff (left right : Tree) :
    candidateBytes left = candidateBytes right ↔ Recut left right := by
  rw [candidateBytes_eq, candidateBytes_eq, Recut]
  exact joined_eq_iff (forall_entries fun file _ => file.1.encode_ne_nil)
    (forall_entries fun file _ => file.1.encode_ne_nil)

theorem snapshotBytes_eq_iff (left right : Tree) :
    snapshotBytes left = snapshotBytes right ↔ Remarked left right := by
  rw [snapshotBytes_eq, snapshotBytes_eq, Remarked]
  exact delimited_eq_iff (forall_entries fun file _ => file.1.zero_notMem_encode)
    (forall_entries fun file _ => file.1.zero_notMem_encode)

end Framing

namespace Tree

theorem same_iff_byParts (left right : Tree) :
    left.Same right ↔ left.byParts = right.byParts :=
  (Dict.sortedBy_eq_iff PosixPath.parts_injective left.files right.files).symm

theorem same_iff_byText (left right : Tree) :
    left.Same right ↔ left.byText = right.byText :=
  (Dict.sortedBy_eq_iff PosixPath.toList_injective left.files right.files).symm

/-- The order in which a directory lists its files is not in the digest. -/
theorem Same.candidateSha_eq {left right : Tree} (hsame : left.Same right)
    (sha256 : List UInt8 → String) :
    candidateSha sha256 left = candidateSha sha256 right := by
  rw [candidateSha, candidateSha, candidateBytes, candidateBytes,
    (same_iff_byParts left right).mp hsame]

theorem Same.snapshotTreeDigest_eq {left right : Tree} (hsame : left.Same right)
    (sha256 : List UInt8 → String) :
    snapshotTreeDigest sha256 (some left) =
      snapshotTreeDigest sha256 (some right) := by
  rw [snapshotTreeDigest, snapshotTreeDigest, snapshotBytes, snapshotBytes,
    (same_iff_byText left right).mp hsame]

end Tree

section Digests

variable {sha256 : List UInt8 → String} {left right : Tree}

theorem bytes_eq_of_digest {first second : List UInt8}
    (hfree : ¬ Collision sha256 first second) :
    sha256 first = sha256 second ↔ first = second := by
  constructor
  · intro hdigest
    by_contra hne
    exact hfree ⟨hne, hdigest⟩
  · exact congrArg sha256

theorem candidateSha_eq_iff
    (hfree : ¬ Collision sha256 (candidateBytes left) (candidateBytes right)) :
    candidateSha sha256 left = candidateSha sha256 right ↔ Recut left right := by
  rw [candidateSha, candidateSha, bytes_eq_of_digest hfree, candidateBytes_eq_iff]

theorem snapshotTreeDigest_eq_iff
    (hfree : ¬ Collision sha256 (snapshotBytes left) (snapshotBytes right)) :
    snapshotTreeDigest sha256 (some left) = snapshotTreeDigest sha256 (some right) ↔
      Remarked left right := by
  rw [← snapshotBytes_eq_iff, ← bytes_eq_of_digest hfree, snapshotTreeDigest,
    snapshotTreeDigest, Except.ok.injEq, String.append_right_inj]

/-- Each fingerprint identifies two trees exactly when they are one map or no
moves of boundaries lead from the one to the other. -/
theorem fingerprints_identify_iff (sha256 : List UInt8 → String) (left right : Tree)
    (hcandidate : ¬ Collision sha256 (candidateBytes left) (candidateBytes right))
    (hsnapshot : ¬ Collision sha256 (snapshotBytes left) (snapshotBytes right)) :
    ((candidateSha sha256 left = candidateSha sha256 right → left.Same right) ↔
      (left.Same right ∨ ¬ Recut left right)) ∧
    ((snapshotTreeDigest sha256 (some left) = snapshotTreeDigest sha256 (some right) →
        left.Same right) ↔
      (left.Same right ∨ ¬ Remarked left right)) := by
  rw [candidateSha_eq_iff hcandidate, snapshotTreeDigest_eq_iff hsnapshot]
  constructor <;> rw [or_comm, ← imp_iff_not_or]

/-- Contents without a zero byte are told apart by the digest of a snapshot. -/
theorem snapshot_identifies_text
    (hfree : ¬ Collision sha256 (snapshotBytes left) (snapshotBytes right))
    (hleft : ∀ file ∈ left.byText, (0 : UInt8) ∉ file.2)
    (hright : ∀ file ∈ right.byText, (0 : UInt8) ∉ file.2)
    (hdigest : snapshotTreeDigest sha256 (some left) =
      snapshotTreeDigest sha256 (some right)) : left.Same right := by
  have hbytes := (snapshotBytes_eq_iff left right).mpr
    ((snapshotTreeDigest_eq_iff hfree).mp hdigest)
  rw [snapshotBytes_eq, snapshotBytes_eq] at hbytes
  have hentries := Framing.delimited_inj
    (forall_entries fun file hfile => ⟨file.1.zero_notMem_encode, hleft file hfile⟩)
    (forall_entries fun file hfile => ⟨file.1.zero_notMem_encode, hright file hfile⟩)
    hbytes
  exact (left.same_iff_byText right).mpr (entries_injective hentries)

end Digests

namespace FingerprintWitness

def nameA : PosixPath := ⟨"a", by decide, by decide⟩

def nameB : PosixPath := ⟨"b", by decide, by decide⟩

def nameAB : PosixPath := ⟨"ab", by decide, by decide⟩

/-- A file `a` that holds the letter b. -/
def lettered : Tree where
  files := ⟨[(nameA, [98])], by decide⟩
  apart := by decide

/-- An empty file `ab`. -/
def renamed : Tree where
  files := ⟨[(nameAB, [])], by decide⟩
  apart := by decide

/-- A file `a` that holds a zero byte, the letter b and a zero byte. -/
def marked : Tree where
  files := ⟨[(nameA, [0, 98, 0])], by decide⟩
  apart := by decide

/-- Two empty files `a` and `b`. -/
def paired : Tree where
  files := ⟨[(nameB, []), (nameA, [])], by decide⟩
  apart := by decide

theorem lettered_ne_renamed : ¬ lettered.Same renamed := by
  intro hsame
  have hfile := hsame nameA
  exact absurd hfile (by decide)

theorem marked_ne_paired : ¬ marked.Same paired := by
  intro hsame
  have hfile := hsame nameB
  exact absurd hfile (by decide)

/-- Whatever the hash is, different trees have one fingerprint. -/
theorem fingerprints_confuse_trees :
    (∀ sha256, candidateSha sha256 lettered = candidateSha sha256 renamed) ∧
    ¬ lettered.Same renamed ∧
    (∀ sha256, snapshotTreeDigest sha256 (some marked) =
      snapshotTreeDigest sha256 (some paired)) ∧
    ¬ marked.Same paired := by
  have hcandidate : candidateBytes lettered = candidateBytes renamed := by decide
  have hsnapshot : snapshotBytes marked = snapshotBytes paired := by decide
  refine ⟨fun sha256 => congrArg sha256 hcandidate, lettered_ne_renamed,
    fun sha256 => ?_, marked_ne_paired⟩
  rw [snapshotTreeDigest, snapshotTreeDigest, hsnapshot]

/-- The SHA-256 digests of the inputs below. -/
def digests (bytes : List UInt8) : String :=
  if bytes = [97, 98] then
    "fb8e20fc2e4c3f248c60c39bd652f3c1347298bb977b8b4d5903b85055620603"
  else if bytes = [97, 0, 98, 0] then
    "8fb20ef63ced4145fc2e983ffe597d1dcff39154c3bf21f0fa9dde6a0c50fdc9"
  else if bytes = [97, 0, 0, 98, 0, 0] then
    "0ffc67878b872d1e948951a21bda17237afa6f72d28665534c37e4c7f5191b4f"
  else ""

theorem lettered_fingerprints :
    ((candidateSha digests lettered = candidateSha digests marked →
        lettered.Same marked) ↔
      (lettered.Same marked ∨ ¬ Recut lettered marked)) ∧
    ((snapshotTreeDigest digests (some lettered) =
        snapshotTreeDigest digests (some marked) → lettered.Same marked) ↔
      (lettered.Same marked ∨ ¬ Remarked lettered marked)) :=
  fingerprints_identify_iff digests lettered marked
    (fun hcollision => absurd hcollision.2 (by decide))
    (fun hcollision => absurd hcollision.2 (by decide))

end FingerprintWitness

end HermesPipeline
