/-
The paths of a capability profile.  A path is read as an anchor, which is the root,
a drive or a share, and segments below it; the segments are collapsed on a stack.
-/
import HermesPipeline.Lib.Lexical
import HermesPipeline.Lib.Pieces
import HermesPipeline.Lib.Regex
import HermesPipeline.Lib.Strip

namespace HermesPipeline

open Lib

namespace CapabilityPaths

/-- `PathStyle`. -/
inductive PathStyle
  | windows
  | posix
deriving Repr, DecidableEq

/-- `str.casefold`, letter by letter; no letter vanishes. -/
structure CaseFold where
  fold : Char → List Char
  fold_ne_nil : ∀ c, fold c ≠ []

def CaseFold.casefold (cases : CaseFold) (text : List Char) : List Char :=
  text.flatMap cases.fold

section Source

open CharClass Regex

/-- `[^\\]`. -/
def notBackslash : CharClass :=
  .ranges [('\x00', '['), (']', Char.ofNat 0x10ffff)]

/-- `_WINDOWS_DRIVE`. -/
def windowsDrive : Regex :=
  .seq .start (.seq (.many (.ranges [('A', 'Z'), ('a', 'z')]) 1 (some 1))
    (.seq (.many (.char ':') 1 (some 1))
      (.many (.ranges [('\\', '\\'), ('/', '/')]) 1 (some 1))))

/-- `_WINDOWS_UNC`. -/
def windowsUnc : Regex :=
  .seq .start (.seq (.many (.char '\\') 1 (some 1)) (.seq (.many (.char '\\') 1 (some 1))
    (.seq (.many notBackslash 1 none) (.seq (.many (.char '\\') 1 (some 1))
      (.many notBackslash 1 (some 1))))))

/-- `regex.match(path)`. -/
def matchesAt (regex : Regex) (path : List Char) : Bool :=
  !(regex.ends atLastLine ⟨true, path⟩).isEmpty

/-- `_style`. -/
def style? (path : List Char) : Option PathStyle :=
  if path = [] ∨ '\x00' ∈ path then none
  else if matchesAt windowsDrive path || matchesAt windowsUnc path then some .windows
  else if path.head? = some '/' ∧ ¬ ['/', '/'] <+: path then some .posix
  else none

end Source

section Pathlib

/-- The separator of a path once it is read. -/
def sepOf : PathStyle → Char
  | .windows => '\\'
  | .posix => '/'

/-- `path.replace("/", "\\")`. -/
def flip (path : List Char) : List Char :=
  path.map fun c => if c = '/' then '\\' else c

/-- The prefix of a share of a device. -/
def uncPrefix : List Char := ['\\', '\\', '?', '\\', 'U', 'N', 'C', '\\']

def isDevice (path : List Char) : Bool := (path.take 8).map Char.toUpper = uncPrefix

/-- A path as its drive, its root and the rest. -/
structure Split where
  drive : List Char
  root : List Char
  rel : List Char
deriving Repr, DecidableEq

/-- The text up to the next separator, and the text from it. -/
def untilSep (path : List Char) : List Char × List Char :=
  path.span fun c => c ≠ '\\'

/-- `ntpath.splitroot`, of a path with backslashes. -/
def ntSplitroot (path : List Char) : Split :=
  if ['\\', '\\'] <+: path then
    let start := if isDevice path then 8 else 2
    let (server, after) := untilSep (path.drop start)
    match after with
    | [] => ⟨path, [], []⟩
    | _ :: more =>
        let (share, below) := untilSep more
        match below with
        | [] => ⟨path, [], []⟩
        | sep :: rel => ⟨path.take start ++ server ++ '\\' :: share, [sep], rel⟩
  else
    match path with
    | '\\' :: rel => ⟨[], ['\\'], rel⟩
    | letter :: ':' :: '\\' :: rel => ⟨[letter, ':'], ['\\'], rel⟩
    | letter :: ':' :: rel => ⟨[letter, ':'], [], rel⟩
    | _ => ⟨[], [], path⟩

/-- `posixpath.splitroot`. -/
def posixSplitroot : List Char → Split
  | '/' :: '/' :: '/' :: rel => ⟨[], ['/'], '/' :: '/' :: rel⟩
  | '/' :: '/' :: rel => ⟨[], ['/', '/'], rel⟩
  | '/' :: rel => ⟨[], ['/'], rel⟩
  | path => ⟨[], [], path⟩

/-- The root of a share that is named alone. -/
def shareRoot (split : Split) : List Char :=
  if split.root = [] ∧ split.drive.head? = some '\\' ∧ split.drive.getLast? ≠ some '\\' then
    let parts := split.drive.splitOn '\\'
    if parts.length = 4 ∧ ¬ parts.getD 2 [] <:+: ['?', '.'] then ['\\']
    else if parts.length = 6 then ['\\']
    else split.root
  else split.root

/-- `PurePath._parse_path`, without the split of the rest. -/
def parsePath (style : PathStyle) (path : List Char) : Split :=
  match style with
  | .windows =>
      let split := ntSplitroot (flip path)
      { split with root := shareRoot split }
  | .posix => posixSplitroot path

/-- `path.is_absolute()`. -/
def isAbsolute (style : PathStyle) (split : Split) : Bool :=
  match style with
  | .windows => split.drive ≠ [] && split.root ≠ []
  | .posix => split.root ≠ []

/-- The parts below the anchor. -/
def tailParts (style : PathStyle) (rel : List Char) : List (List Char) :=
  (rel.splitOn (sepOf style)).filter fun part => part ≠ [] && part ≠ ['.']

/-- `path.parts`. -/
def parts (style : PathStyle) (split : Split) : List (List Char) :=
  if split.drive ≠ [] ∨ split.root ≠ [] then
    (split.drive ++ split.root) :: tailParts style split.rel
  else tailParts style split.rel

end Pathlib

/-- `_NormPath`. -/
structure NormPath where
  style : PathStyle
  parts : List (List Char)
deriving Repr, DecidableEq

/-- The loop of `_normalize`. -/
def collapse (collapsed : List (List Char)) : List (List Char) → Option (List (List Char))
  | [] => some collapsed
  | part :: rest =>
      if part = [] ∨ part = ['.'] then collapse collapsed rest
      else if part = ['.', '.'] then
        if collapsed.length = 1 then none else collapse collapsed.dropLast rest
      else collapse (collapsed ++ [part]) rest

/-- `_normalize`. -/
def normalize (raw : String) : Option NormPath :=
  let text := (pyStrip raw).toList
  match style? text with
  | none => none
  | some style =>
      let parsed := parsePath style text
      if !isAbsolute style parsed then none
      else
        match parts style parsed with
        | [] => none
        | anchor :: rest => (collapse [anchor] rest).map (NormPath.mk style)

/-- `_contains`. -/
def contains (cases : CaseFold) (root path : NormPath) : Bool :=
  if root.style ≠ path.style then false
  else
    match root.style with
    | .windows =>
        let rootParts := root.parts.map cases.casefold
        let pathParts := path.parts.map cases.casefold
        pathParts.take rootParts.length = rootParts
    | .posix => path.parts.take root.parts.length = root.parts

/-- `CapabilityVerdict`. -/
structure CapabilityVerdict where
  allowed : Bool
  reason : String
deriving Repr, DecidableEq

/-- The loop of `_evaluate_path`. -/
def evaluateRoots (cases : CaseFold) (path : NormPath) : List String → CapabilityVerdict
  | [] => ⟨false, "path not in roots"⟩
  | root :: rest =>
      match normalize root with
      | none => evaluateRoots cases path rest
      | some bound =>
          if contains cases bound path then ⟨true, "allowed"⟩
          else evaluateRoots cases path rest

/-- `_evaluate_path`. -/
def evaluatePath (cases : CaseFold) (target : String) (roots : List String) :
    CapabilityVerdict :=
  match normalize target with
  | none => ⟨false, "invalid path"⟩
  | some path => evaluateRoots cases path roots

section Reference

open Lexical

/-- Two backslashes, a server, a backslash and something else. -/
def IsUnc (text : List Char) : Prop :=
  ∃ server c rest, text = '\\' :: '\\' :: (server ++ '\\' :: c :: rest) ∧ server ≠ [] ∧
    '\\' ∉ server ∧ c ≠ '\\'

/-- What stands before the server of a share, in a path with backslashes. -/
def lead (path : List Char) : List Char :=
  if isDevice path then path.take 8 else ['\\', '\\']

/-- A server and a share below it, in a path with backslashes. -/
structure SharedAt (path server share rest : List Char) : Prop where
  text : path = lead path ++ (server ++ '\\' :: (share ++ rest))
  server : '\\' ∉ server
  share : '\\' ∉ share

/-- The absolute paths: from a root, of a drive, or of a share, with the anchor and
the text below it. -/
inductive Anchored : PathStyle → List Char → List Char → List Char → Prop
  | root {rest : List Char} (hrest : rest.head? ≠ some '/') :
      Anchored .posix ('/' :: rest) ['/'] rest
  | drive {letter sep : Char} {rest : List Char}
      (hletter : ('A' ≤ letter ∧ letter ≤ 'Z') ∨ ('a' ≤ letter ∧ letter ≤ 'z'))
      (hsep : sep = '\\' ∨ sep = '/') :
      Anchored .windows (letter :: ':' :: sep :: rest) [letter, ':', '\\'] (flip rest)
  | share {text server share rest : List Char} (hunc : IsUnc text)
      (hshared : SharedAt (flip text) server share ('\\' :: rest)) :
      Anchored .windows text
        (lead (flip text) ++ (server ++ '\\' :: (share ++ ['\\']))) rest
  -- a share named alone; the names of a device namespace are no servers
  | shareAlone {text server share : List Char} (hunc : IsUnc text)
      (hshared : SharedAt (flip text) server share []) (hshare : share ≠ [])
      (hserver : isDevice (flip text) = true ∨ ¬ server <:+: ['?', '.']) :
      Anchored .windows text
        (lead (flip text) ++ (server ++ '\\' :: (share ++ ['\\']))) []

/-- A text resolves lexically: it is an absolute path of a style, without NUL, that
never climbs above its anchor, and these are the anchor and the names below it. -/
structure ResolvesTo (style : PathStyle) (text anchor : List Char)
    (names : List (List Char)) : Prop where
  noNul : '\x00' ∉ text
  below : ∃ rest, Anchored style text anchor rest ∧
    NeverClimbs (steps (sepOf style) rest) ∧
    ∃ ups, Resolves (steps (sepOf style) rest) ups names

/-- One list of components extends another, without regard to case for Windows. -/
def Extends (cases : CaseFold) (style : PathStyle) (root path : List (List Char)) : Prop :=
  match style with
  | .windows => root.map cases.casefold <+: path.map cases.casefold
  | .posix => root <+: path

/-- The target resolves to a path at or below some root of the same style. -/
def Inside (cases : CaseFold) (roots : List String) (target : List Char) : Prop :=
  ∃ style anchor names, ResolvesTo style target anchor names ∧
    ∃ root ∈ roots, ∃ anchor' names',
      ResolvesTo style (pyStrip root).toList anchor' names' ∧
        Extends cases style (anchor' :: names') (anchor :: names)

end Reference

section Styles

open CharClass Regex

variable {text : List Char}

theorem matchesAt_iff (regex : Regex) (path : List Char) :
    matchesAt regex path = true ↔ regex.Reaches atLastLine ⟨true, path⟩ fun _ => True := by
  rw [matchesAt, Bool.not_eq_true', List.isEmpty_eq_false_iff_exists_mem, Reaches]
  simp only [and_true]

theorem notBackslash_has (c : Char) : notBackslash.has c = true ↔ c ≠ '\\' := by
  have hcode : c.toNat ≤ 0x10ffff := by
    rcases c.valid with h | h
    · exact Nat.le_of_lt (h.trans (by decide))
    · exact Nat.le_of_lt_succ h.2
  have hbackslash : c = '\\' ↔ c.toNat = 0x5c := by
    constructor
    · rintro rfl
      rfl
    · intro h
      exact Char.toNat_inj.mp h
  rw [Ne, hbackslash]
  simp only [notBackslash, CharClass.has, List.any_cons, List.any_nil, Bool.or_false,
    Bool.or_eq_true, Bool.and_eq_true, decide_eq_true_eq, Char.le_def, UInt32.le_iff_toNat_le]
  change (0 ≤ c.toNat ∧ c.toNat ≤ 0x5b) ∨ (0x5d ≤ c.toNat ∧ c.toNat ≤ 0x10ffff) ↔ _
  omega

theorem drive_iff :
    matchesAt windowsDrive text = true ↔ ∃ letter sep rest,
      text = letter :: ':' :: sep :: rest ∧
        (('A' ≤ letter ∧ letter ≤ 'Z') ∨ ('a' ≤ letter ∧ letter ≤ 'z')) ∧
        (sep = '\\' ∨ sep = '/') := by
  have hletters : ∀ c, (CharClass.ranges [('A', 'Z'), ('a', 'z')]).has c = true ↔
      ('A' ≤ c ∧ c ≤ 'Z') ∨ ('a' ≤ c ∧ c ≤ 'z') := by
    intro c
    simp [CharClass.has]
  have hseps : ∀ c, (CharClass.ranges [('\\', '\\'), ('/', '/')]).has c = true ↔
      c = '\\' ∨ c = '/' := by
    intro c
    have hone : ∀ c' : Char, c' ≤ c ∧ c ≤ c' ↔ c = c' := fun c' =>
      ⟨fun h => Char.le_antisymm h.2 h.1, fun h => h ▸ ⟨Char.le_refl _, Char.le_refl _⟩⟩
    simp [CharClass.has, hone]
  rw [matchesAt_iff, windowsDrive, reaches_seq, reaches_start]
  simp only [reaches_seq, reaches_char]
  simp only [reaches_one, hletters, hseps, true_and, and_true]
  constructor
  · rintro ⟨letter, _, htext, hletter, _, rfl, sep, rest, rfl, hsep⟩
    exact ⟨letter, sep, rest, htext, hletter, hsep⟩
  · rintro ⟨letter, sep, rest, htext, hletter, hsep⟩
    exact ⟨letter, _, htext, hletter, _, rfl, sep, rest, rfl, hsep⟩

theorem unc_iff : matchesAt windowsUnc text = true ↔ IsUnc text := by
  rw [matchesAt_iff, windowsUnc, reaches_seq, reaches_start]
  simp only [reaches_seq, reaches_char]
  simp only [reaches_one]
  simp only [reaches_many, notBackslash_has, true_and, and_true]
  constructor
  · rintro ⟨_, htext, _, rfl, server, _, rfl, hserver, hleast, -, _, rfl, c, rest, rfl, hc⟩
    exact ⟨server, c, rest, htext, List.length_pos_iff.mp hleast,
      fun hmem => hserver _ hmem rfl, hc⟩
  · rintro ⟨server, c, rest, htext, hne, hserver, hc⟩
    refine ⟨_, htext, _, rfl, server, _, rfl, ?_, List.length_pos_iff.mpr hne, by simp, _,
      rfl, c, rest, rfl, hc⟩
    rintro c' hmem rfl
    exact hserver hmem

theorem slashes_of_unc (hunc : IsUnc text) : ['\\', '\\'] <+: flip text := by
  obtain ⟨server, c, rest, rfl, -⟩ := hunc
  exact ⟨flip (server ++ '\\' :: c :: rest), rfl⟩

theorem style?_windows_iff :
    style? text = some .windows ↔ '\x00' ∉ text ∧
      (matchesAt windowsDrive text = true ∨ matchesAt windowsUnc text = true) := by
  by_cases hnul : '\x00' ∈ text
  · simp [style?, hnul]
  · by_cases hempty : text = []
    · subst hempty
      refine iff_of_false (by simp [style?]) ?_
      rw [drive_iff, unc_iff]
      rintro ⟨-, ⟨_, _, _, htext, _⟩ | ⟨_, _, _, htext, _⟩⟩ <;> simp at htext
    · by_cases hwindows : matchesAt windowsDrive text || matchesAt windowsUnc text
      · have hor := (Bool.or_eq_true _ _).mp hwindows
        simp only [style?, hempty, hnul, hwindows, or_self, if_true, if_false]
        exact iff_of_true trivial ⟨not_false, hor⟩
      · have hor := fun h => hwindows ((Bool.or_eq_true _ _).mpr h)
        simp only [style?, hempty, hnul, hwindows, or_self, if_false, Bool.false_eq_true]
        refine iff_of_false ?_ fun h => hor h.2
        split <;> simp

theorem style?_posix_iff :
    style? text = some .posix ↔ '\x00' ∉ text ∧
      ∃ rest, text = '/' :: rest ∧ rest.head? ≠ some '/' := by
  by_cases hnul : '\x00' ∈ text
  · simp [style?, hnul]
  · by_cases hroot : ∃ rest, text = '/' :: rest
    · obtain ⟨rest, rfl⟩ := hroot
      have hdrive : ¬ matchesAt windowsDrive ('/' :: rest) = true := by
        rw [drive_iff]
        rintro ⟨letter, _, _, htext, hletter, _⟩
        rw [List.cons.injEq] at htext
        rw [← htext.1] at hletter
        exact absurd hletter (by decide)
      have hunc : ¬ matchesAt windowsUnc ('/' :: rest) = true := by
        rw [unc_iff]
        rintro ⟨_, _, _, htext, _⟩
        simp at htext
      have hsecond : ['/', '/'] <+: '/' :: rest ↔ rest.head? = some '/' := by
        rw [List.cons_prefix_cons, List.head?_eq_some_iff]
        simp [List.prefix_iff_exists_eq_append]
      simp [style?, hnul, hdrive, hunc, hsecond]
    · have hhead : text.head? ≠ some '/' := by
        rw [Ne, List.head?_eq_some_iff]
        exact hroot
      refine iff_of_false ?_ fun h => hroot (h.2.imp fun _ h => h.1)
      rw [style?, if_neg (c := text.head? = some '/' ∧ _) fun h => hhead h.1]
      split
      · simp
      · split <;> simp

end Styles

section Splitting

variable {path server share rest : List Char}

theorem untilSep_of (hserver : '\\' ∉ server) :
    untilSep server = (server, []) ∧
      ∀ more, untilSep (server ++ '\\' :: more) = (server, '\\' :: more) := by
  have hall : ∀ c ∈ server, decide (c ≠ '\\') = true := by
    intro c hc
    rw [decide_eq_true_eq]
    rintro rfl
    exact hserver hc
  constructor
  · rw [untilSep, List.span_eq_takeWhile_dropWhile, List.takeWhile_eq_self_iff.mpr hall,
      List.dropWhile_eq_nil_iff.mpr hall]
  · intro more
    rw [untilSep, List.span_eq_takeWhile_dropWhile, List.takeWhile_append_of_pos hall,
      List.dropWhile_append_of_pos hall]
    simp

theorem length_of_isDevice (hdevice : isDevice path = true) : (path.take 8).length = 8 := by
  rw [isDevice, decide_eq_true_eq] at hdevice
  rw [← List.length_map Char.toUpper, hdevice]
  rfl

/-- What stands before the server has its full length. -/
theorem take_lead (hslashes : ['\\', '\\'] <+: path) :
    path.take (if isDevice path then 8 else 2) = lead path ∧
      (lead path).length = if isDevice path then 8 else 2 := by
  rw [lead]
  split
  · next hdevice => exact ⟨rfl, length_of_isDevice hdevice⟩
  · exact ⟨(List.prefix_iff_eq_take.mp hslashes).symm, rfl⟩

/-- A path with a share is split behind it. -/
theorem ntSplitroot_shared (hslashes : ['\\', '\\'] <+: path)
    (hshared : SharedAt path server share rest) :
    (rest = [] → ntSplitroot path = ⟨path, [], []⟩) ∧
      ∀ rel, rest = '\\' :: rel →
        ntSplitroot path = ⟨lead path ++ server ++ '\\' :: share, ['\\'], rel⟩ := by
  obtain ⟨htake, hlength⟩ := take_lead hslashes
  have hdrop : path.drop (if isDevice path then 8 else 2) =
      server ++ '\\' :: (share ++ rest) := by
    have htail := congrArg (List.drop (lead path).length) hshared.text
    rwa [List.drop_left, hlength] at htail
  have hserver := (untilSep_of hshared.server).2
  obtain ⟨hshare, hbelow⟩ := untilSep_of hshared.share
  unfold ntSplitroot
  rw [if_pos hslashes]
  simp only [htake, hdrop, hserver]
  constructor
  · rintro rfl
    rw [List.append_nil, hshare]
  · rintro rel rfl
    rw [hbelow]

/-- A path without a share is its drive. -/
theorem ntSplitroot_lone (hslashes : ['\\', '\\'] <+: path)
    (htext : path = lead path ++ server) (hserver : '\\' ∉ server) :
    ntSplitroot path = ⟨path, [], []⟩ := by
  obtain ⟨htake, hlength⟩ := take_lead hslashes
  have hdrop : path.drop (if isDevice path then 8 else 2) = server := by
    have htail := congrArg (List.drop (lead path).length) htext
    rwa [List.drop_left, hlength] at htail
  unfold ntSplitroot
  rw [if_pos hslashes]
  simp only [hdrop, (untilSep_of hserver).1]

/-- A path with two backslashes has a share, or a server alone. -/
theorem shared_or_lone (hslashes : ['\\', '\\'] <+: path) :
    (∃ server share rest, SharedAt path server share rest ∧
        (rest = [] ∨ ∃ rel, rest = '\\' :: rel)) ∨
      ∃ server, path = lead path ++ server ∧ '\\' ∉ server := by
  obtain ⟨htake, -⟩ := take_lead hslashes
  have htext : path = lead path ++ path.drop (if isDevice path then 8 else 2) := by
    rw [← htake, List.take_append_drop]
  generalize path.drop (if isDevice path then 8 else 2) = tail at htext
  rcases Pieces.first_separator '\\' tail with hnone | ⟨server, more, hserver, rfl⟩
  · exact .inr ⟨tail, htext, hnone⟩
  · rcases Pieces.first_separator '\\' more with hnone | ⟨share, rel, hshare, rfl⟩
    · refine .inl ⟨server, more, [], ⟨?_, hserver, hnone⟩, .inl rfl⟩
      rw [List.append_nil]
      exact htext
    · exact .inl ⟨server, share, _, ⟨htext, hserver, hshare⟩, .inr ⟨rel, rfl⟩⟩

theorem toUpper_eq_backslash (c : Char) : c.toUpper = '\\' ↔ c = '\\' := by
  constructor
  · intro hupper
    by_cases hlower : 'a'.val ≤ c.val ∧ c.val ≤ 'z'.val
    · have hval : c.toUpper.val = c.val + ('A'.val - 'a'.val) := by
        delta Char.toUpper
        rw [dif_pos hlower]
      rw [hupper] at hval
      have hback : c.val = '\\'.val - ('A'.val - 'a'.val) := by
        rw [hval, UInt32.add_sub_cancel]
      rw [hback] at hlower
      exact absurd hlower (by decide)
    · have hsame : c.toUpper = c := by
        delta Char.toUpper
        rw [dif_neg hlower]
      rw [← hsame, hupper]
  · rintro rfl
    decide

theorem count_lead (path : List Char) :
    (lead path).count '\\' = if isDevice path then 4 else 2 := by
  rw [lead]
  split
  · next hdevice =>
      rw [isDevice, decide_eq_true_eq] at hdevice
      have hcount : ((path.take 8).map Char.toUpper).count '\\' = 4 := by
        rw [hdevice]
        decide
      rw [List.count, List.countP_map] at hcount
      rw [List.count, ← hcount]
      apply List.countP_congr
      intro c _
      simp [toUpper_eq_backslash]
  · decide

/-- A share that is named alone has a root unless its server names a device
namespace. -/
theorem shareRoot_shared (hslashes : ['\\', '\\'] <+: path)
    (hshared : SharedAt path server share []) :
    shareRoot ⟨path, [], []⟩ =
      if share ≠ [] ∧ (isDevice path = true ∨ ¬ server <:+: ['?', '.']) then ['\\']
      else [] := by
  have htext : path = lead path ++ (server ++ '\\' :: share) := by
    have h := hshared.text
    rwa [List.append_nil] at h
  have hhead : path.head? = some '\\' := by
    obtain ⟨more, rfl⟩ := hslashes
    rfl
  have hlast : path.getLast? = some '\\' ↔ share = [] := by
    rw [htext]
    constructor
    · intro hlast
      by_contra hne
      rw [List.getLast?_append, List.getLast?_append, List.getLast?_cons,
        List.getLast?_eq_some_getLast hne] at hlast
      have hsep : share.getLast hne = '\\' := by simpa using hlast
      exact hshared.share (hsep ▸ List.getLast_mem hne)
    · rintro rfl
      simp
  have hpieces : (path.splitOn '\\').length = if isDevice path then 6 else 4 := by
    rw [Pieces.length_splitOn, htext, List.count_append, ← htext, count_lead,
      List.count_append, List.count_cons_self, List.count_eq_zero_of_not_mem hshared.server,
      List.count_eq_zero_of_not_mem hshared.share]
    split <;> rfl
  have hthird : ¬ isDevice path = true → (path.splitOn '\\').getD 2 [] = server := by
    intro hdevice
    have hpath : path = [] ++ '\\' :: ([] ++ '\\' :: (server ++ '\\' :: share)) := by
      conv_lhs => rw [htext, lead, if_neg hdevice]
      rfl
    rw [hpath, List.splitOn_append_cons_self_of_not_mem List.not_mem_nil,
      List.splitOn_append_cons_self_of_not_mem List.not_mem_nil,
      List.splitOn_append_cons_self_of_not_mem hshared.server]
    rfl
  simp only [shareRoot, hhead, ne_eq, hlast, true_and]
  by_cases hshare : share = []
  · simp [hshare]
  · by_cases hdevice : isDevice path = true
    · simp [hshare, hpieces, hdevice]
    · simp only [hshare, hpieces, hdevice, hthird hdevice, not_false_eq_true, true_and,
        false_or, if_true, if_false, Bool.false_eq_true]
      simp

/-- A server alone has no root. -/
theorem shareRoot_lone (htext : path = lead path ++ server) (hserver : '\\' ∉ server) :
    shareRoot ⟨path, [], []⟩ = [] := by
  have hpieces : (path.splitOn '\\').length = if isDevice path then 5 else 3 := by
    rw [Pieces.length_splitOn, htext, List.count_append, ← htext, count_lead,
      List.count_eq_zero_of_not_mem hserver]
    split <;> rfl
  have hfour : (path.splitOn '\\').length ≠ 4 := by
    rw [hpieces]
    split <;> decide
  have hsix : (path.splitOn '\\').length ≠ 6 := by
    rw [hpieces]
    split <;> decide
  simp [shareRoot, hfour, hsix]

end Splitting

section Parsing

variable {style : PathStyle} {text anchor rest server share : List Char}

theorem flip_drive {letter sep : Char}
    (hletter : ('A' ≤ letter ∧ letter ≤ 'Z') ∨ ('a' ≤ letter ∧ letter ≤ 'z'))
    (hsep : sep = '\\' ∨ sep = '/') :
    flip (letter :: ':' :: sep :: rest) = letter :: ':' :: '\\' :: flip rest := by
  have hslash : letter ≠ '/' := by
    rintro rfl
    exact absurd hletter (by decide)
  rcases hsep with rfl | rfl <;> simp [flip, hslash]

theorem parsePath_drive {letter sep : Char}
    (hletter : ('A' ≤ letter ∧ letter ≤ 'Z') ∨ ('a' ≤ letter ∧ letter ≤ 'z'))
    (hsep : sep = '\\' ∨ sep = '/') :
    parsePath .windows (letter :: ':' :: sep :: rest) =
      ⟨[letter, ':'], ['\\'], flip rest⟩ := by
  have hbackslash : letter ≠ '\\' := by
    rintro rfl
    exact absurd hletter (by decide)
  have hsplit : ntSplitroot (letter :: ':' :: '\\' :: flip rest) =
      ⟨[letter, ':'], ['\\'], flip rest⟩ := by
    have hslashes : ¬ ['\\', '\\'] <+: letter :: ':' :: '\\' :: flip rest := by
      rw [List.cons_prefix_cons]
      exact fun h => hbackslash h.1.symm
    unfold ntSplitroot
    rw [if_neg hslashes]
    split
    · next hcons => exact absurd (List.cons.inj hcons).1 hbackslash
    · next hcons =>
        simp only [List.cons.injEq, true_and] at hcons
        obtain ⟨rfl, rfl⟩ := hcons
        rfl
    · next hfirst hcons =>
        simp only [List.cons.injEq, true_and] at hcons
        exact absurd hcons.2.symm (hfirst _)
    · next hfirst => exact absurd rfl (hfirst _ _)
  rw [parsePath, flip_drive hletter hsep, hsplit]
  simp [shareRoot]

theorem parsePath_share (hunc : IsUnc text)
    (hshared : SharedAt (flip text) server share ('\\' :: rest)) :
    parsePath .windows text =
      ⟨lead (flip text) ++ server ++ '\\' :: share, ['\\'], rest⟩ := by
  have hsplit := (ntSplitroot_shared (slashes_of_unc hunc) hshared).2 rest rfl
  simp [parsePath, hsplit, shareRoot]

theorem parsePath_alone (hunc : IsUnc text) (hshared : SharedAt (flip text) server share []) :
    parsePath .windows text = ⟨flip text,
      if share ≠ [] ∧ (isDevice (flip text) = true ∨ ¬ server <:+: ['?', '.']) then ['\\']
      else [], []⟩ := by
  have hslashes := slashes_of_unc hunc
  rw [parsePath, (ntSplitroot_shared hslashes hshared).1 rfl, shareRoot_shared hslashes hshared]

theorem parsePath_lone (hunc : IsUnc text) (htext : flip text = lead (flip text) ++ server)
    (hserver : '\\' ∉ server) : parsePath .windows text = ⟨flip text, [], []⟩ := by
  rw [parsePath, ntSplitroot_lone (slashes_of_unc hunc) htext hserver,
    shareRoot_lone htext hserver]

/-- The absolute paths of a style are those that its parser finds so. -/
theorem anchored_iff (hnul : '\x00' ∉ text) :
    Anchored style text anchor rest ↔
      style? text = some style ∧ isAbsolute style (parsePath style text) = true ∧
        anchor = (parsePath style text).drive ++ (parsePath style text).root ∧
        rest = (parsePath style text).rel := by
  constructor
  · intro hanchored
    cases hanchored with
    | root hrest =>
        refine ⟨style?_posix_iff.mpr ⟨hnul, rest, rfl, hrest⟩, ?_⟩
        rw [parsePath]
        unfold posixSplitroot
        split <;> simp_all [isAbsolute]
    | drive hletter hsep =>
        refine ⟨style?_windows_iff.mpr
          ⟨hnul, .inl (drive_iff.mpr ⟨_, _, _, rfl, hletter, hsep⟩)⟩, ?_⟩
        rw [parsePath_drive hletter hsep]
        exact ⟨rfl, rfl, rfl⟩
    | share hunc hshared =>
        refine ⟨style?_windows_iff.mpr ⟨hnul, .inr (unc_iff.mpr hunc)⟩, ?_⟩
        rw [parsePath_share hunc hshared]
        simp [isAbsolute]
    | shareAlone hunc hshared hshare hserver =>
        refine ⟨style?_windows_iff.mpr ⟨hnul, .inr (unc_iff.mpr hunc)⟩, ?_⟩
        rw [parsePath_alone hunc hshared, if_pos ⟨hshare, hserver⟩]
        have htext := hshared.text
        rw [List.append_nil] at htext
        refine ⟨?_, ?_, rfl⟩
        · rw [htext]
          simp [isAbsolute]
        · conv_rhs => rw [htext]
          simp
  · rintro ⟨hstyle, habsolute, hanchor, hrest⟩
    cases style with
    | posix =>
        obtain ⟨-, rest', rfl, hhead⟩ := style?_posix_iff.mp hstyle
        have hsplit : posixSplitroot ('/' :: rest') = ⟨[], ['/'], rest'⟩ := by
          unfold posixSplitroot
          split <;> simp_all
        rw [parsePath, hsplit] at hanchor hrest
        rw [hanchor, hrest]
        exact .root hhead
    | windows =>
        obtain ⟨-, hdrive | hunc⟩ := style?_windows_iff.mp hstyle
        · obtain ⟨letter, sep, rest', rfl, hletter, hsep⟩ := drive_iff.mp hdrive
          rw [parsePath_drive hletter hsep] at hanchor hrest
          rw [hanchor, hrest]
          exact .drive hletter hsep
        · have hunc := unc_iff.mp hunc
          rcases shared_or_lone (slashes_of_unc hunc) with
            ⟨server, share, _, hshared, rfl | ⟨rel, rfl⟩⟩ | ⟨server, htext, hserver⟩
          · rw [parsePath_alone hunc hshared] at habsolute hanchor hrest
            have htext := hshared.text
            rw [List.append_nil] at htext
            split at habsolute
            · next hroot =>
                rw [if_pos hroot, htext] at hanchor
                rw [hanchor, hrest, List.append_assoc, List.append_assoc, List.cons_append]
                exact .shareAlone hunc hshared hroot.1 hroot.2
            · simp [isAbsolute] at habsolute
          · rw [parsePath_share hunc hshared] at hanchor hrest
            rw [hanchor, hrest, List.append_assoc, List.append_assoc, List.cons_append]
            exact .share hunc hshared
          · rw [parsePath_lone hunc htext hserver] at habsolute
            simp [isAbsolute] at habsolute

end Parsing

section Normalizing

open Lexical

variable {style : PathStyle} {anchor : List Char}

/-- The collapsed parts are the anchor and the stack of names; a step up on an empty
stack is refused. -/
theorem collapse_eq_some_iff (segments : List (List Char)) (stack : List (List Char))
    (result : List (List Char)) :
    collapse (anchor :: stack.reverse) segments = some result ↔
      ∃ names, (segments.filterMap segmentStep?).foldl settle (0, stack) =
        (0, names.reverse) ∧ result = anchor :: names := by
  induction segments generalizing stack with
  | nil =>
      rw [collapse, List.filterMap_nil, List.foldl_nil, Option.some.injEq]
      constructor
      · intro hresult
        exact ⟨stack.reverse, by rw [List.reverse_reverse], hresult.symm⟩
      · rintro ⟨names, hnames, rfl⟩
        rw [Prod.mk.injEq] at hnames
        rw [hnames.2, List.reverse_reverse]
  | cons part rest ih =>
      rw [collapse, List.filterMap_cons, segmentStep?]
      by_cases hskip : part = [] ∨ part = ['.']
      · rw [if_pos hskip, if_pos hskip]
        exact ih stack
      · rw [if_neg hskip, if_neg hskip]
        by_cases hup : part = ['.', '.']
        · rw [if_pos hup, if_pos hup]
          cases stack with
          | nil =>
              refine iff_of_false (by simp) ?_
              rintro ⟨names, hnames, -⟩
              have hclimbs := le_foldl_settle (rest.filterMap segmentStep?) 1
                ([] : List (List Char))
              rw [List.foldl_cons, settle] at hnames
              rw [hnames] at hclimbs
              exact absurd hclimbs (Nat.not_succ_le_zero 0)
          | cons top stack =>
              rw [if_neg (by simp), List.reverse_cons, ← List.cons_append,
                List.dropLast_concat]
              exact ih stack
        · rw [if_neg hup, if_neg hup, List.cons_append, ← List.reverse_cons]
          exact ih (part :: stack)

/-- The parts that the parser drops are skipped by the loop as well. -/
theorem filterMap_tailParts (style : PathStyle) (rel : List Char) :
    (tailParts style rel).filterMap segmentStep? = steps (sepOf style) rel := by
  rw [tailParts, List.filterMap_filter, steps]
  congr 1
  funext part
  by_cases hskip : part = [] ∨ part = ['.']
  · rw [segmentStep?, if_pos hskip, ite_self]
  · rw [not_or] at hskip
    simp [hskip.1, hskip.2]

theorem collapse_tailParts_iff (rel : List Char) (names : List (List Char)) :
    collapse [anchor] (tailParts style rel) = some (anchor :: names) ↔
      NeverClimbs (steps (sepOf style) rel) ∧
        ∃ ups, Resolves (steps (sepOf style) rel) ups names := by
  have hcollapse := @collapse_eq_some_iff anchor (tailParts style rel) []
    (anchor :: names)
  rw [List.reverse_nil] at hcollapse
  rw [hcollapse, filterMap_tailParts, neverClimbs_iff]
  simp only [resolves_iff, resolve, Prod.mk.injEq]
  generalize (steps (sepOf style) rel).foldl settle (0, []) = settled
  obtain ⟨ups, stack⟩ := settled
  constructor
  · rintro ⟨names', hsettled, hnames⟩
    rw [Prod.mk.injEq] at hsettled
    rw [List.cons.injEq] at hnames
    refine ⟨hsettled.1, ups, rfl, ?_⟩
    rw [hnames.2, hsettled.2, List.reverse_reverse]
  · rintro ⟨hups, _, -, hnames⟩
    refine ⟨names, ?_, rfl⟩
    rw [← hnames, List.reverse_reverse]
    exact congrArg (·, stack) hups

/-- The parts of an absolute path are its anchor and the parts below it. -/
theorem parts_of_isAbsolute {split : Split} (habsolute : isAbsolute style split = true) :
    parts style split = (split.drive ++ split.root) :: tailParts style split.rel := by
  rw [parts, if_pos]
  cases style with
  | windows =>
      simp only [isAbsolute, Bool.and_eq_true, decide_eq_true_eq] at habsolute
      exact .inl habsolute.1
  | posix =>
      simp only [isAbsolute, decide_eq_true_eq] at habsolute
      exact .inr habsolute

/-- `_normalize` resolves a text lexically, or refuses it. -/
theorem normalize_eq_some_iff (raw : String) (path : NormPath) :
    normalize raw = some path ↔ ∃ anchor names,
      ResolvesTo path.style (pyStrip raw).toList anchor names ∧
        path.parts = anchor :: names := by
  obtain ⟨style, collapsed⟩ := path
  generalize htext : (pyStrip raw).toList = text
  by_cases hnul : '\x00' ∈ text
  · refine iff_of_false ?_ fun ⟨_, _, h, _⟩ => h.noNul hnul
    simp [normalize, htext, style?, hnul]
  · have hresolves : ∀ anchor names, ResolvesTo style text anchor names ↔
        style? text = some style ∧ isAbsolute style (parsePath style text) = true ∧
          anchor = (parsePath style text).drive ++ (parsePath style text).root ∧
          collapse [anchor] (tailParts style (parsePath style text).rel) =
            some (anchor :: names) := by
      intro anchor names
      rw [collapse_tailParts_iff]
      constructor
      · rintro ⟨-, rest, hanchored, hbelow⟩
        obtain ⟨hstyle, habsolute, hanchor, rfl⟩ := (anchored_iff hnul).mp hanchored
        exact ⟨hstyle, habsolute, hanchor, hbelow⟩
      · rintro ⟨hstyle, habsolute, hanchor, hbelow⟩
        exact ⟨hnul, _, (anchored_iff hnul).mpr ⟨hstyle, habsolute, hanchor, rfl⟩, hbelow⟩
    simp only [hresolves, normalize, htext]
    cases style? text with
    | none => simp
    | some found =>
        by_cases habsolute : isAbsolute found (parsePath found text) = true
        · simp only [habsolute, parts_of_isAbsolute habsolute, Bool.not_true,
            Bool.false_eq_true, if_false, Option.map_eq_some_iff, NormPath.mk.injEq]
          constructor
          · rintro ⟨_, hcollapse, rfl, rfl⟩
            obtain ⟨names, -, hnames⟩ := (collapse_eq_some_iff _ [] _).mp hcollapse
            rw [hnames] at hcollapse
            exact ⟨_, names, ⟨rfl, habsolute, rfl, hcollapse⟩, hnames⟩
          · rintro ⟨_, names, ⟨hfound, -, rfl, hcollapse⟩, rfl⟩
            obtain rfl := Option.some.inj hfound
            exact ⟨_, hcollapse, rfl, rfl⟩
        · rw [Bool.not_eq_true] at habsolute
          simp only [habsolute, Bool.not_false, if_true]
          refine iff_of_false (by simp) ?_
          rintro ⟨_, _, ⟨hfound, hstyle, -⟩, -⟩
          obtain rfl := Option.some.inj hfound
          rw [habsolute] at hstyle
          cases hstyle

end Normalizing

section Evaluating

open Lexical

variable {cases : CaseFold} {style : PathStyle} {roots : List String}
variable {anchor anchor' text : List Char} {names names' : List (List Char)}

theorem normalize_eq_iff (raw : String) :
    normalize raw = some ⟨style, anchor :: names⟩ ↔
      ResolvesTo style (pyStrip raw).toList anchor names := by
  rw [normalize_eq_some_iff]
  constructor
  · rintro ⟨_, _, hresolves, hparts⟩
    obtain ⟨rfl, rfl⟩ := List.cons.inj hparts
    exact hresolves
  · intro hresolves
    exact ⟨anchor, names, hresolves, rfl⟩

theorem contains_iff (cases : CaseFold) (root path : NormPath) :
    contains cases root path = true ↔
      root.style = path.style ∧ Extends cases path.style root.parts path.parts := by
  obtain ⟨rootStyle, rootParts⟩ := root
  obtain ⟨pathStyle, pathParts⟩ := path
  by_cases hstyle : rootStyle = pathStyle
  · subst hstyle
    cases rootStyle with
    | windows =>
        simp only [contains, Extends, ne_eq, not_true_eq_false, if_false, true_and,
          decide_eq_true_eq, List.prefix_iff_eq_take]
        exact eq_comm
    | posix =>
        simp only [contains, Extends, ne_eq, not_true_eq_false, if_false, true_and,
          decide_eq_true_eq, List.prefix_iff_eq_take]
        exact eq_comm
  · simp [contains, hstyle]

theorem evaluateRoots_allowed_iff (path : NormPath) (roots : List String) :
    (evaluateRoots cases path roots).allowed = true ↔
      ∃ root ∈ roots, ∃ bound, normalize root = some bound ∧
        contains cases bound path = true := by
  induction roots with
  | nil => simp [evaluateRoots]
  | cons root rest ih =>
      rw [evaluateRoots, List.exists_mem_cons_iff]
      cases hbound : normalize root with
      | none => simpa using ih
      | some bound =>
          by_cases hcontains : contains cases bound path = true
          · simp [hcontains]
          · simpa [hcontains] using ih

/-- A path capability is allowed exactly when the target lies in a root. -/
theorem evaluatePath_allowed_iff (target : String) (roots : List String) :
    (evaluatePath cases target roots).allowed = true ↔
      Inside cases roots (pyStrip target).toList := by
  rw [evaluatePath, Inside]
  cases hpath : normalize target with
  | none =>
      refine iff_of_false (by simp) ?_
      rintro ⟨style, anchor, names, hresolves, -⟩
      rw [(normalize_eq_iff target).mpr hresolves] at hpath
      cases hpath
  | some path =>
      obtain ⟨anchor, names, hresolves, hparts⟩ := (normalize_eq_some_iff target path).mp hpath
      refine (evaluateRoots_allowed_iff path roots).trans ?_
      constructor
      · rintro ⟨root, hroot, bound, hbound, hcontains⟩
        obtain ⟨anchor', names', hresolves', hparts'⟩ :=
          (normalize_eq_some_iff root bound).mp hbound
        obtain ⟨hstyle, hextends⟩ := (contains_iff cases bound path).mp hcontains
        rw [hstyle] at hresolves'
        rw [hparts, hparts'] at hextends
        exact ⟨path.style, anchor, names, hresolves, root, hroot, anchor', names',
          hresolves', hextends⟩
      · rintro ⟨style, anchor', names', hresolves', root, hroot, anchor'', names'',
          hresolves'', hextends⟩
        have hsame := (normalize_eq_iff target).mpr hresolves'
        rw [hpath, Option.some.injEq] at hsame
        subst hsame
        exact ⟨root, hroot, _, (normalize_eq_iff root).mpr hresolves'',
          (contains_iff _ _ _).mpr ⟨rfl, hextends⟩⟩

/-- What is left after the resolution are names, without a separator. -/
theorem resolved_names (hresolves : ResolvesTo style text anchor names) :
    ∀ name ∈ names, name ≠ [] ∧ name ≠ ['.'] ∧ name ≠ ['.', '.'] ∧ sepOf style ∉ name := by
  obtain ⟨rest, -, -, ups, hsteps⟩ := hresolves.below
  have hwritten : ∀ path ups (ns : List (List Char)), Resolves path ups ns →
      ∀ n ∈ ns, Step.name n ∈ path := by
    intro path ups ns hpath
    induction hpath with
    | plain ups ns =>
        intro n hn
        exact List.mem_append_right _ (List.mem_map_of_mem hn)
    | cancel n' _ ih =>
        intro n hn
        rcases List.mem_append.mp (ih n hn) with hbefore | hafter
        · exact List.mem_append_left _ hbefore
        · exact List.mem_append_right _ (List.mem_cons_of_mem _ (List.mem_cons_of_mem _ hafter))
  intro name hname
  obtain ⟨segment, hsegment, hstep⟩ := List.mem_filterMap.mp (hwritten _ _ _ hsteps name hname)
  rw [segmentStep?] at hstep
  split at hstep
  · cases hstep
  · next hskip =>
      split at hstep
      · cases hstep
      · next hup =>
          rw [Option.some.injEq, Step.name.injEq] at hstep
          subst hstep
          rw [not_or] at hskip
          exact ⟨hskip.1, hskip.2, hup, Pieces.not_mem_of_mem_splitOn hsegment⟩

/-- More roots allow no less. -/
theorem Inside.mono {more : List String} (hroots : roots ⊆ more)
    (hinside : Inside cases roots text) : Inside cases more text := by
  obtain ⟨style, anchor, names, hresolves, root, hroot, hbound⟩ := hinside
  exact ⟨style, anchor, names, hresolves, root, hroots hroot, hbound⟩

theorem casefold_append (left right : List Char) :
    cases.casefold (left ++ right) = cases.casefold left ++ cases.casefold right :=
  List.flatMap_append

theorem casefold_ne_nil {letters : List Char} (hne : letters ≠ []) :
    cases.casefold letters ≠ [] := by
  intro hnil
  obtain ⟨c, rest, rfl⟩ := List.exists_cons_of_ne_nil hne
  rw [CaseFold.casefold, List.flatMap_cons, List.append_eq_nil_iff] at hnil
  exact cases.fold_ne_nil c hnil.1

/-- A longer name at the place of a name does not extend it. -/
theorem not_extends_sibling (parents below : List (List Char)) {name more : List Char}
    (hmore : more ≠ []) :
    ¬ Extends cases style (parents ++ [name]) (parents ++ (name ++ more) :: below) := by
  have hlist : ∀ (parents below : List (List Char)) (name more : List Char), more ≠ [] →
      ¬ parents ++ [name] <+: parents ++ (name ++ more) :: below := by
    intro parents below name more hmore hprefix
    have hlast := (List.prefix_append_right_inj parents).mp hprefix
    have hname := (List.cons_prefix_cons.mp hlast).1
    exact hmore (List.append_right_eq_self.mp hname.symm)
  cases style with
  | posix => exact hlist parents below name more hmore
  | windows =>
      rw [Extends, List.map_append, List.map_append, List.map_cons, List.map_nil,
        List.map_cons, casefold_append]
      exact hlist _ _ _ _ (casefold_ne_nil hmore)

theorem resolvesTo_unique {style' : PathStyle} {raw : String}
    (hresolves : ResolvesTo style (pyStrip raw).toList anchor names)
    (hresolves' : ResolvesTo style' (pyStrip raw).toList anchor' names') :
    style = style' ∧ anchor = anchor' ∧ names = names' := by
  have hsame := (normalize_eq_iff raw).mpr hresolves
  rw [(normalize_eq_iff raw).mpr hresolves', Option.some.injEq, NormPath.mk.injEq,
    List.cons.injEq] at hsame
  exact ⟨hsame.1.symm, hsame.2.1.symm, hsame.2.2.symm⟩

/-- A target is not inside a root whose last name is a part of its own. -/
theorem not_inside_sibling {root target : String} {parents below : List (List Char)}
    {name more : List Char} (hmore : more ≠ [])
    (hroot : ResolvesTo style (pyStrip root).toList anchor (parents ++ [name]))
    (htarget : ResolvesTo style (pyStrip target).toList anchor
      (parents ++ (name ++ more) :: below)) :
    ¬ Inside cases [root] (pyStrip target).toList := by
  rintro ⟨style', anchor', names', hresolves, root', hmem, anchor'', names'', hresolves',
    hextends⟩
  obtain rfl := List.mem_singleton.mp hmem
  obtain ⟨rfl, rfl, rfl⟩ := resolvesTo_unique htarget hresolves
  obtain ⟨-, rfl, rfl⟩ := resolvesTo_unique hroot hresolves'
  exact not_extends_sibling (anchor :: parents) below hmore hextends

end Evaluating

end CapabilityPaths

end HermesPipeline
