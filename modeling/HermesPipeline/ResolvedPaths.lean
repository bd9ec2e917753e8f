/-
Resolved paths: what `realpath` finds agrees with the way the kernel takes, so that the
identity of a state root names its directory, and a path that the hostile-input policy
accepts stays inside its root.
-/
import HermesPipeline.Lib.Program
import HermesPipeline.StateGuard
import Mathlib.Data.Nat.Find

namespace HermesPipeline

namespace ResolvedPaths

open Lib Lib.Lexical HermesPipeline.StateGuard

/-- `state_root_identity`; the digest is taken of the canonical path. -/
def stateRootIdentity (digest : List String → String) (tree : Tree) (root : Path String) :
    Option String :=
  (realPath tree root).map digest

/-- `DOS_DEVICES`. -/
def dosDevices : List String := ["CON", "PRN", "AUX", "NUL", "COM1", "LPT1"]

/-- Errors of `assert_path_inside`. -/
inductive PolicyError
  | policy (message : String)
  /-- An error of the system that `exists` or `is_symlink` does not swallow. -/
  | os (error : Errno)
  /-- The `RuntimeError` of `resolve`. -/
  | runtime
deriving Repr, DecidableEq

/-- The parts of `Path(text)` on a POSIX system. -/
def pathParts (text : String) : Path String :=
  (steps '/' text.toList).map fun
    | .name segment => .name (String.ofList segment)
    | .up => .up

/-- `Path.name`: the last part, a step up included. -/
def lastName (path : Path String) : String :=
  match path.getLast? with
  | none => ""
  | some .up => ".."
  | some (.name n) => n

/-- `Path.exists`. -/
def pathExists (tree : Tree) (path : Path String) : Except PolicyError Bool :=
  match tree.walk true maxLinks [] path with
  | .ok _ => .ok true
  | .error .access => .error (.os .access)
  | .error _ => .ok false

/-- `Path.is_symlink`. -/
def isSymlink (tree : Tree) (path : Path String) : Except PolicyError Bool :=
  match tree.walk false maxLinks [] path with
  | .ok place =>
      match tree.node place with
      | some (.link _) => .ok true
      | _ => .ok false
  | .error .access => .error (.os .access)
  | .error _ => .ok false

/-- `Path.resolve`, under the errors of the policy. -/
def policyResolve (tree : Tree) (path : Path String) : Except PolicyError (List String) :=
  match resolvePath tree path with
  | .ok real => .ok real
  | .error _ => .error .runtime

/-- `target.exists() and (target.is_symlink() or _is_junction(target))`. -/
def presentLink (tree : Tree) (target : Path String) : Except PolicyError Bool :=
  match pathExists tree target with
  | .ok true => isSymlink tree target
  | outcome => outcome

/-- `assert_path_inside`. -/
def assertPathInside (tree : Tree) (root : Path String) (candidate : String) :
    Except PolicyError (List String) := do
  if candidate = "" ∨ candidate ∈ dosDevices then .error (.policy "forbidden path")
  else if candidate.toList.head? = some '/' ∨ candidate.toList.head? = some '\\' then
    .error (.policy "absolute path rejected")
  else if candidate.toList[1]? = some ':' then .error (.policy "absolute path rejected")
  else if .up ∈ pathParts candidate then .error (.policy "dot-dot rejected")
  else if '~' ∈ (lastName (pathParts candidate)).toList then
    .error (.policy "8.3 short name rejected")
  else
    let target := root ++ pathParts candidate
    let linked ← presentLink tree target
    if linked then .error (.policy "symlink or junction rejected")
    else
      let resolved ← policyResolve tree target
      let base ← policyResolve tree root
      if base <+: resolved then .ok resolved else .error (.policy "path escapes root")

variable {tree : Tree}

/-- The target of the link at a place leads to another place, where something is or a file
would be made. -/
def Leads (tree : Tree) (links : Nat) (place : List String) (target : LinkTarget String)
    (real : List String) : Prop :=
  tree.openAt links (if target.absolute then [] else place) target.steps = .ok real

/-- What a resolution keeps about the links it has met: where the resolved ones lead, and
that none that is still being resolved can be followed with fewer links than these. -/
def SeenSound (tree : Tree) (links : Nat) (seen : Seen) : Prop :=
  ∀ p r, seen.find? (·.1 = p) = some (p, r) →
    ∃ place n target, p = place ++ [n] ∧ tree.Real place ∧
      tree.Searchable place ∧ tree.node p = some (.link target) ∧
      match r with
      | some real => ∃ fewer, Leads tree fewer place target real
      | none => ∀ fewer < links, ∀ real, ¬ Leads tree fewer place target real

/-- Nothing more is still being resolved. -/
def Settled (before after : Seen) : Prop :=
  ∀ p, after.find? (·.1 = p) = some (p, none) → before.find? (·.1 = p) = some (p, none)

theorem readLink?_of_real {place : List String} (hreal : tree.Real place)
    (hdir : tree.Searchable place) (n : String) :
    readLink? tree (place ++ [n]) =
      match tree.node (place ++ [n]) with
      | some (.link target) => some target
      | _ => none := by
  rw [readLink?, walk_concat hreal.1, if_pos (Option.isSome_iff_ne_none.mpr hreal.2),
    FileTree.walk_cons hdir]
  cases hnode : tree.node (place ++ [n]) with
  | none => simp [hnode]
  | some node =>
      cases node with
      | link target => simp [hnode]
      | dir searchable writable => simp [FileTree.walk_nil, hnode]
      | file content => simp [FileTree.walk_nil, hnode]

theorem leads_unique {links more : Nat} {place real other : List String}
    {target : LinkTarget String} (hleads : Leads tree links place target real)
    (hother : Leads tree more place target other) : real = other := by
  have hfirst := FileTree.openAt_more links (max links more) _ real _ hleads (le_max_left _ _)
  have hsecond := FileTree.openAt_more more (max links more) _ other _ hother (le_max_right _ _)
  exact Except.ok.inj (hfirst.symm.trans hsecond)

theorem find?_eq_self {seen : Seen} {p : List String} {entry : List String × Option (List String)}
    (hfind : seen.find? (·.1 = p) = some entry) : entry = (p, entry.2) := by
  have hp := List.find?_some hfind
  rw [decide_eq_true_eq] at hp
  rw [← hp]

/-- What is sound for more links is sound for fewer. -/
theorem SeenSound.fewer {links fewer : Nat} {seen : Seen} (hseen : SeenSound tree links seen)
    (hfewer : fewer ≤ links) : SeenSound tree fewer seen := by
  intro p r hfind
  obtain ⟨place, n, target, hp, hreal, hdir, hlink, hr⟩ := hseen p r hfind
  refine ⟨place, n, target, hp, hreal, hdir, hlink, ?_⟩
  cases r with
  | some real => exact hr
  | none => exact fun less hless => hr less (by omega)

/-- A resolution that leaves nothing behind keeps what was sound for more links. -/
theorem SeenSound.after {links fewer : Nat} {before after : Seen}
    (hbefore : SeenSound tree links before) (hafter : SeenSound tree fewer after)
    (hsettled : Settled before after) : SeenSound tree links after := by
  intro p r hfind
  cases r with
  | none => exact hbefore p none (hsettled p hfind)
  | some real => exact hafter p (some real) hfind

/-- A link that is met first: below it, the resolution may use as few links as any way
through it needs. -/
theorem SeenSound.enter {links : Nat} {seen : Seen} {place : List String} {n : String}
    {target : LinkTarget String} (hseen : SeenSound tree links seen)
    (hreal : tree.Real place) (hdir : tree.Searchable place)
    (hlink : tree.node (place ++ [n]) = some (.link target))
    (hleast : ∀ fewer < links, ∀ real, ¬ Leads tree fewer place target real) :
    SeenSound tree links ((place ++ [n], none) :: seen) := by
  intro p r hfind
  rw [List.find?_cons] at hfind
  split at hfind
  · cases hfind
    exact ⟨place, n, target, rfl, hreal, hdir, hlink, hleast⟩
  · exact hseen p r hfind

/-- A link that has been resolved. -/
theorem SeenSound.leave {links fewer : Nat} {before after : Seen} {place real : List String}
    {n : String} {target : LinkTarget String} (hbefore : SeenSound tree links before)
    (hafter : SeenSound tree fewer after)
    (hsettled : Settled ((place ++ [n], none) :: before) after) (hreal : tree.Real place)
    (hdir : tree.Searchable place)
    (hlink : tree.node (place ++ [n]) = some (.link target))
    (hleads : Leads tree fewer place target real) :
    SeenSound tree links ((place ++ [n], some real) :: after) ∧
      Settled before ((place ++ [n], some real) :: after) := by
  have hothers : ∀ p, ¬ place ++ [n] = p → after.find? (·.1 = p) = some (p, none) →
      before.find? (·.1 = p) = some (p, none) := by
    intro p hp hfind
    have hsame := hsettled p hfind
    rwa [List.find?_cons_of_neg (by simpa using hp)] at hsame
  constructor
  · intro p r hfind
    rw [List.find?_cons] at hfind
    split at hfind
    · cases hfind
      exact ⟨place, n, target, rfl, hreal, hdir, hlink, fewer, hleads⟩
    · next hp =>
        cases r with
        | some other => exact hafter p (some other) hfind
        | none => exact hbefore p none (hothers p (by simpa using hp) hfind)
  · intro p hfind
    rw [List.find?_cons] at hfind
    split at hfind
    · cases hfind
    · next hp => exact hothers p (by simpa using hp) hfind

theorem Settled.trans {first second third : Seen} (hfirst : Settled first second)
    (hsecond : Settled second third) : Settled first third :=
  fun p hfind => hfirst p (hsecond p hfind)

theorem readLink?_of_free {place : List String} (hreal : tree.Real place) {n : String}
    (hnone : tree.node (place ++ [n]) = none) : readLink? tree (place ++ [n]) = none := by
  rw [readLink?, walk_concat hreal.1, if_pos (Option.isSome_iff_ne_none.mpr hreal.2),
    FileTree.walk]
  cases hplace : tree.node place with
  | none => rfl
  | some node =>
      cases node with
      | file content => rfl
      | link target => rfl
      | dir searchable writable => cases searchable <;> simp [hnone]

/-- A link leads somewhere through a least number of links. -/
theorem exists_least_leads {used : Nat} {place mid : List String} {target : LinkTarget String}
    (hleads : Leads tree used place target mid) :
    ∃ least ≤ used, Leads tree least place target mid ∧
      ∀ fewer < least, ∀ real, ¬ Leads tree fewer place target real := by
  classical
  have hsome : ∃ least, ∃ real, Leads tree least place target real := ⟨used, mid, hleads⟩
  obtain ⟨real, hreal⟩ := Nat.find_spec hsome
  obtain rfl := leads_unique hreal hleads
  exact ⟨Nat.find hsome, Nat.find_min' hsome ⟨real, hleads⟩, hreal,
    fun _ hless other hother => Nat.find_min hsome hless ⟨other, hother⟩⟩

/-- What the kernel opens under a path is where the resolution leads; by induction on the
links that the way may use, and on the path. Only the end of a way may be missing, so a
link whose target is missing ends the path. -/
theorem joinRealPath_of_openAt (links depth : Nat) (place q : List String)
    (path : Path String) (seen : Seen) (hreal : path ≠ [] → tree.Real place)
    (hopen : tree.openAt links place path = .ok q) (hdepth : links ≤ depth)
    (hseen : SeenSound tree links seen) :
    ∃ after, joinRealPath tree depth place path seen = some (.ok q, after) ∧
      SeenSound tree links after ∧ Settled seen after := by
  match path with
  | [] =>
      rw [FileTree.openAt_nil] at hopen
      cases hopen
      exact ⟨seen, by rw [joinRealPath], hseen, fun _ h => h⟩
  | .up :: rest =>
      rw [FileTree.openAt_cons (FileTree.dir_of_openAt hopen)] at hopen
      rw [joinRealPath]
      exact joinRealPath_of_openAt links depth _ q rest seen
        (fun _ => (hreal (List.cons_ne_nil _ _)).dropLast) hopen hdepth hseen
  | .name n :: rest =>
      have hdir := FileTree.dir_of_openAt hopen
      replace hreal := hreal (List.cons_ne_nil _ _)
      rcases FileTree.openAt_cases hopen with
        ⟨hfree, rfl, rfl⟩ | ⟨hnone, hlink, hlater⟩ | ⟨target, fewer, hlink, hfewer, hlater⟩
      · rw [joinRealPath, readLink?_of_free hreal hfree]
        exact ⟨seen, by rw [joinRealPath], hseen, fun _ h => h⟩
      · have hread : readLink? tree (place ++ [n]) = none := by
          rw [readLink?_of_real hreal hdir]
          split
          · next target hnode => exact absurd hnode (hlink target)
          · rfl
        rw [joinRealPath, hread]
        exact joinRealPath_of_openAt links depth _ q rest seen
          (fun _ => hreal.through hdir hnone hlink) hlater hdepth hseen
      · have hread : readLink? tree (place ++ [n]) = some target := by
          rw [readLink?_of_real hreal hdir, hlink]
        obtain ⟨used, mid, hused, hfirst, hlast⟩ :=
          FileTree.openAt_split fewer _ q target.steps rest hlater
        have hrest := FileTree.openAt_more _ fewer mid q rest hlast (Nat.sub_le fewer used)
        have hbase : tree.Real (if target.absolute then [] else place) := by
          split
          · exact tree.real_nil
          · exact hreal
        have hmid : rest ≠ [] → tree.Real mid := by
          intro hmore
          obtain ⟨step, later, rfl⟩ := List.exists_cons_of_ne_nil hmore
          exact FileTree.real_of_openAt used _ mid target.steps hbase hfirst
            (FileTree.dir_of_openAt hlast).ne_none
        rw [joinRealPath, hread]
        simp only
        cases hfind : seen.find? (·.1 = place ++ [n]) with
        | some entry =>
            have hentry := find?_eq_self hfind
            rw [hentry] at hfind
            obtain ⟨before, m, other, hp, -, -, hother, hr⟩ := hseen _ _ hfind
            obtain ⟨rfl, hm⟩ := List.append_inj' hp rfl
            rw [hlink] at hother
            cases hother
            rw [hentry]
            cases hresult : entry.2 with
            | none =>
                rw [hresult] at hr
                exact absurd hfirst (hr used (by omega) mid)
            | some known =>
                rw [hresult] at hr
                obtain ⟨less, hleads⟩ := hr
                obtain rfl := leads_unique hleads hfirst
                obtain ⟨after, hjoin, hafter, hsettled⟩ := joinRealPath_of_openAt fewer depth known q
                  rest seen hmid hrest (by omega) (hseen.fewer (by omega))
                exact ⟨after, hjoin, hseen.after hafter hsettled, hsettled⟩
        | none =>
            obtain ⟨less, hless⟩ : ∃ less, depth = less + 1 := ⟨depth - 1, by omega⟩
            obtain ⟨least, hsmall, hleads, hleast⟩ := exists_least_leads hfirst
            obtain ⟨inner, hinner, hsound, hsettled⟩ := joinRealPath_of_openAt least less _ mid
              target.steps ((place ++ [n], none) :: seen) (fun _ => hbase) hleads (by omega)
              ((hseen.fewer (by omega)).enter hreal hdir hlink hleast)
            obtain ⟨hleft, hquiet⟩ := hseen.leave hsound hsettled hreal hdir hlink hleads
            obtain ⟨after, hjoin, hafter, hlater⟩ := joinRealPath_of_openAt fewer (less + 1) mid q
              rest _ hmid hrest (by omega) (hleft.fewer (by omega))
            simp only [hless, hinner]
            exact ⟨after, hjoin, hleft.after hafter hlater, hquiet.trans hlater⟩
termination_by (links, path.length)

theorem realPath_of_openAt {path : Path String} {q : List String}
    (hopen : tree.openAt maxLinks [] path = .ok q) : realPath tree path = some q := by
  have hempty : SeenSound tree maxLinks [] := fun p r hfind => by cases hfind
  obtain ⟨after, hjoin, -⟩ := joinRealPath_of_openAt maxLinks maxDepth [] q path []
    (fun _ => tree.real_nil) hopen (by decide) hempty
  rw [realPath, hjoin]

theorem realPath_of_walk {path : Path String} {q : List String}
    (hwalk : tree.walk true maxLinks [] path = .ok q) : realPath tree path = some q :=
  realPath_of_openAt (FileTree.openAt_of_walk maxLinks [] q path hwalk)

theorem realPath_of_resolvePath {path : Path String} {real : List String}
    (hresolve : resolvePath tree path = .ok real) : realPath tree path = some real := by
  rw [resolvePath] at hresolve
  split at hresolve
  · cases hresolve
  · next found hfound =>
      split at hresolve
      · cases hresolve
      · rw [hfound, Except.ok.inj hresolve]

theorem policyResolve_eq_ok {path : Path String} {real : List String}
    (hresolve : policyResolve tree path = .ok real) : resolvePath tree path = .ok real := by
  rw [policyResolve] at hresolve
  split at hresolve
  · next found hfound => rw [hfound, Except.ok.inj hresolve]
  · cases hresolve

/-- What the policy has found when it accepts a path. -/
theorem accepted_cases {root : Path String} {candidate : String} {resolved : List String}
    (haccepted : assertPathInside tree root candidate = .ok resolved) :
    ∃ base, resolvePath tree root = .ok base ∧ base <+: resolved ∧
      resolvePath tree (root ++ pathParts candidate) = .ok resolved := by
  rw [assertPathInside] at haccepted
  split at haccepted
  · cases haccepted
  split at haccepted
  · cases haccepted
  split at haccepted
  · cases haccepted
  split at haccepted
  · cases haccepted
  split at haccepted
  · cases haccepted
  obtain ⟨linked, -, haccepted⟩ := (bind_eq_ok _ _ _).mp haccepted
  split at haccepted
  · cases haccepted
  obtain ⟨found, hfound, haccepted⟩ := (bind_eq_ok _ _ _).mp haccepted
  obtain ⟨base, hbase, haccepted⟩ := (bind_eq_ok _ _ _).mp haccepted
  split at haccepted
  · next hinside =>
      obtain rfl := Except.ok.inj haccepted
      exact ⟨base, policyResolve_eq_ok hbase, hinside, policyResolve_eq_ok hfound⟩
  · cases haccepted

/-- What the kernel finds or creates under an accepted path is at the place that was
returned, in the directory of the root; also where the last name is a link and what it
leads to is still missing. -/
theorem accepted_inside {tree : Tree} {root : Path String} {candidate : String}
    {resolved top : List String}
    (haccepted : assertPathInside tree root candidate = .ok resolved)
    (hroot : tree.walk true maxLinks [] root = .ok top) :
    top <+: resolved ∧
    (∀ q, tree.walk true maxLinks [] (root ++ pathParts candidate) = .ok q → q = resolved) ∧
    ∀ q, tree.openAt maxLinks [] (root ++ pathParts candidate) = .ok q → q = resolved := by
  obtain ⟨base, hbase, hinside, hresolved⟩ := accepted_cases haccepted
  have hresolved := realPath_of_resolvePath hresolved
  have htop := (realPath_of_walk hroot).symm.trans (realPath_of_resolvePath hbase)
  obtain rfl := Option.some.inj htop
  refine ⟨hinside, fun q hq => ?_, fun q hq => ?_⟩
  · exact Option.some.inj ((realPath_of_walk hq).symm.trans hresolved)
  · exact Option.some.inj ((realPath_of_openAt hq).symm.trans hresolved)

/-- The identity of a state root that exists is the digest of its directory, however the
root is spelled. -/
theorem identity_of_directory {tree : Tree} {left right : Path String} {p q : List String}
    (digest : List String → String) (hleft : tree.walk true maxLinks [] left = .ok p)
    (hright : tree.walk true maxLinks [] right = .ok q) :
    stateRootIdentity digest tree left = some (digest p) ∧
      (stateRootIdentity digest tree left = stateRootIdentity digest tree right ↔
        digest p = digest q) := by
  rw [stateRootIdentity, stateRootIdentity, realPath_of_walk hleft, realPath_of_walk hright]
  exact ⟨rfl, by rw [Option.map_some, Option.map_some, Option.some.injEq]⟩

namespace ResolvedWitness

open StateGuard.GuardWitness

/-- The home, by its own name and through the directory above it. -/
theorem home_walked : homeTree.walk true maxLinks [] [.name "home"] = .ok ["home"] ∧
    homeTree.walk true maxLinks [] [.name "home", .up, .name "home"] = .ok ["home"] := by
  constructor <;> simp [FileTree.walk, homeTree]

theorem home_identity :
    stateRootIdentity ("/".intercalate ·) homeTree [.name "home"] = some "home" ∧
      (stateRootIdentity ("/".intercalate ·) homeTree [.name "home"] =
          stateRootIdentity ("/".intercalate ·) homeTree [.name "home", .up, .name "home"] ↔
        "/".intercalate ["home"] = "/".intercalate ["home"]) :=
  identity_of_directory ("/".intercalate ·) home_walked.1 home_walked.2

theorem fresh_accepted :
    assertPathInside homeTree [.name "home"] "ok.txt" = .ok ["home", "ok.txt"] := by
  have hhome : homeTree.Clear ([] ++ ["home"]) :=
    FileTree.clear_concat_iff.mpr ⟨homeTree.clear_nil, .inr ⟨false, rfl⟩, fun target h => by cases h⟩
  have hfile : homeTree.Clear (["home"] ++ ["ok.txt"]) :=
    FileTree.clear_concat_iff.mpr ⟨hhome, .inr ⟨true, rfl⟩, fun target h => by cases h⟩
  have hbase : resolvePath homeTree [.name "home"] = .ok ["home"] := resolvePath_of_clear hhome
  have hresolved : resolvePath homeTree [.name "home", .name "ok.txt"] =
      .ok ["home", "ok.txt"] := resolvePath_of_clear hfile
  have hparts : pathParts "ok.txt" = [.name "ok.txt"] := by decide
  have habsent : presentLink homeTree [.name "home", .name "ok.txt"] = .ok false := by
    simp [presentLink, pathExists, FileTree.walk, homeTree]
  rw [assertPathInside, hparts, if_neg (by decide), if_neg (by decide), if_neg (by decide),
    if_neg (by decide), if_neg (by decide)]
  simp [habsent, policyResolve, hbase, hresolved, bind, Except.bind]

theorem fresh_inside : ["home"] <+: ["home", "ok.txt"] ∧
    homeTree.openAt maxLinks [] [.name "home", .name "ok.txt"] = .ok ["home", "ok.txt"] ∧
    ["home"] ++ ["ok.txt"] = ["home", "ok.txt"] := by
  have hparts : pathParts "ok.txt" = [.name "ok.txt"] := by decide
  have hopened : homeTree.openAt maxLinks [] [.name "home", .name "ok.txt"] =
      .ok (["home"] ++ ["ok.txt"]) := by
    simp [FileTree.openAt, homeTree]
  have hinside := accepted_inside fresh_accepted home_walked.1
  exact ⟨hinside.1, hopened, hinside.2.2 _ (by rw [hparts]; exact hopened)⟩

end ResolvedWitness

end ResolvedPaths

end HermesPipeline
