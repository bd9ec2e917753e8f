/-
The layout of the state root: its directories and their ownership markers, how setup
makes them, and how they are validated.
-/
import HermesPipeline.StateGuard

namespace HermesPipeline

namespace StateLayout

open Lib Lib.Lexical HermesPipeline.StateGuard

/-- `STATE_ROOT_CHILDREN`. -/
def stateRootChildren : List String := ["descriptor", "runtimes", "logs"]

/-- `OWNERSHIP_MARKER_FILENAME`. -/
def ownershipMarkerFilename : String := "OWNERSHIP"

/-- `_MARKER_TEXT`. -/
def markerText : String :=
  "hermes-pipeline spike ownership marker\n" ++
  "schema-version: 1\n" ++
  "release: hermes-pipeline-0.1.0-slice-00-05-spike\n"

/-- The places that a path names which the guard lets pass. -/
def places (path : PurePath) : List String :=
  path.parts.filterMap fun
    | .name n => some n
    | .up => none

/-- `root / name`. -/
def child (path : PurePath) (n : String) : PurePath :=
  { path with parts := path.parts ++ [.name n] }

/-- `Path.is_dir`: only a missing entry, a file on the way or a loop count as no. -/
def isDir (tree : Tree) (path : List String) : Except GuardError Bool :=
  match tree.walk true maxLinks [] (names path) with
  | .ok place =>
      match tree.node place with
      | some (.dir _ _) => .ok true
      | _ => .ok false
  | .error .access => .error (.os .access)
  | .error _ => .ok false

/-- `Path.is_file`. -/
def isFile (tree : Tree) (path : List String) : Except GuardError Bool :=
  match tree.walk true maxLinks [] (names path) with
  | .ok place =>
      match tree.node place with
      | some (.file _) => .ok true
      | _ => .ok false
  | .error .access => .error (.os .access)
  | .error _ => .ok false

/-- `Path.read_text`. -/
def readText (tree : Tree) (path : List String) : Except GuardError String :=
  match tree.walk true maxLinks [] (names path) with
  | .ok place =>
      match tree.node place with
      | some (.file (.text letters)) => .ok letters
      | some (.file .undecodable) => .error .decode
      | some (.file .unreadable) => .error (.os .access)
      | some (.dir _ _) => .error (.os .isDirectory)
      | _ => .error (.os .noEntry)
  | .error e => .error (.os e)

/-- `os.mkdir`: the way to the last name is followed, the last name is not. -/
def makeDir (tree : Tree) (above : List String) (n : String) : Except Errno Tree :=
  match tree.walk true maxLinks [] (names above) with
  | .ok place => tree.put place n (.dir true true)
  | .error e => .error e

/-- What `mkdir` does with an error, with `exist_ok`. -/
def existOk (tree : Tree) (path : List String) (e : Errno) : Except GuardError Unit × Tree :=
  match isDir tree path with
  | .ok true => (.ok (), tree)
  | .ok false => (.error (.os e), tree)
  | .error raised => (.error raised, tree)

/-- `Path.mkdir` with `parents` and `exist_ok`, of the path whose names are given from
the last on. -/
def mkdir (tree : Tree) : List String → Except GuardError Unit × Tree
  | [] => existOk tree [] .fileExists
  | n :: above =>
      match makeDir tree above.reverse n with
      | .ok made => (.ok (), made)
      | .error .noEntry =>
          match mkdir tree above with
          | (.error e, made) => (.error e, made)
          | (.ok (), made) =>
              match makeDir made above.reverse n with
              | .ok later => (.ok (), later)
              | .error .noEntry => (.error (.os .noEntry), made)
              | .error e => existOk made (above.reverse ++ [n]) e
      | .error e => existOk tree (above.reverse ++ [n]) e

/-- `write_text` under a name that is no file and no link. -/
def writeMarker (tree : Tree) (above : List String) (n : String) :
    Except GuardError Unit × Tree :=
  match tree.walk true maxLinks [] (names above) with
  | .ok place =>
      match tree.put place n (.file (.text markerText)) with
      | .ok made => (.ok (), made)
      | .error .fileExists => (.error (.os .isDirectory), tree)
      | .error e => (.error (.os e), tree)
  | .error e => (.error (.os e), tree)

/-- The body of the loop of `ensure_layout`. -/
def ensureChild (tree : Tree) (root : PurePath) (name : String) :
    Except GuardError Unit × Tree :=
  match ensureInsideStateRoot tree root (child root name) with
  | .error e => (.error e, tree)
  | .ok () =>
      match mkdir tree (places (child root name)).reverse with
      | (.error e, made) => (.error e, made)
      | (.ok (), made) =>
          let own := child (child root name) ownershipMarkerFilename
          match ensureInsideStateRoot made root own with
          | .error e => (.error e, made)
          | .ok () =>
              match isFile made (places own) with
              | .error e => (.error e, made)
              | .ok true => (.ok (), made)
              | .ok false => writeMarker made (places (child root name)) ownershipMarkerFilename

/-- The loop of `ensure_layout`. -/
def ensureChildren (tree : Tree) (root : PurePath) :
    List String → Except GuardError Unit × Tree
  | [] => (.ok (), tree)
  | name :: rest =>
      match ensureChild tree root name with
      | (.error e, made) => (.error e, made)
      | (.ok (), made) => ensureChildren made root rest

/-- `ensure_layout`. -/
def ensureLayout (tree : Tree) (root : PurePath) : Except GuardError Unit × Tree :=
  match ensureInsideStateRoot tree root root with
  | .error e => (.error e, tree)
  | .ok () =>
      match mkdir tree (places root).reverse with
      | (.error e, made) => (.error e, made)
      | (.ok (), made) => ensureChildren made root stateRootChildren

/-- The loop of `ownership_marker_valid`. -/
def markersValid (tree : Tree) (root : PurePath) : List String → Except GuardError Bool
  | [] => .ok true
  | name :: rest =>
      match isDir tree (places (child root name)) with
      | .error e => .error e
      | .ok false => .ok false
      | .ok true =>
          match readText tree (places (child (child root name) ownershipMarkerFilename)) with
          | .ok letters => if letters ≠ markerText then .ok false else markersValid tree root rest
          | .error (.os _) => .ok false
          | .error e => .error e

/-- `ownership_marker_valid`. -/
def ownershipMarkerValid (tree : Tree) (root : PurePath) : Except GuardError Bool :=
  match ensureInsideStateRoot tree root root with
  | .error .boundary => .ok false
  | .error e => .error e
  | .ok () =>
      match isDir tree (places root) with
      | .error e => .error e
      | .ok false => .ok false
      | .ok true => markersValid tree root stateRootChildren

/-- What the layout has at a place. -/
def layoutNode (base place : List String) : Option (FileNode String FileText) :=
  if ∃ n ∈ stateRootChildren, place <+: base ++ [n] then some (.dir true true)
  else if ∃ n ∈ stateRootChildren, place = base ++ [n] ++ [ownershipMarkerFilename] then
    some (.file (.text markerText))
  else none

/-- The way to the marker of a child is clear, no directory has its place, and where
something is missing on the way it can be made. -/
structure ChildReady (tree : Tree) (base : List String) (n : String) : Prop where
  clear : tree.Clear (base ++ [n] ++ [ownershipMarkerFilename])
  free : ∀ searchable writable,
    tree.node (base ++ [n] ++ [ownershipMarkerFilename]) ≠ some (.dir searchable writable)
  writable : tree.Writable (base ++ [n] ++ [ownershipMarkerFilename])

variable {tree : Tree}

theorem places_of (base : List String) : places (.of base) = base := by
  rw [places, PurePath.of, names, List.filterMap_map]
  exact List.filterMap_some

theorem child_of (base : List String) (n : String) : child (.of base) n = .of (base ++ [n]) := by
  rw [child, PurePath.of, PurePath.of, names_concat]

theorem follow_of_clear {base : List String} (hclear : tree.Clear base)
    (hbase : tree.node base ≠ none) :
    tree.walk true maxLinks [] (names base) = .ok base := by
  have hwalk := @FileTree.walk_of_clear _ _ tree true maxLinks [] base hclear tree.root_ne_none
  rwa [List.nil_append, if_pos (Option.isSome_iff_ne_none.mpr hbase)] at hwalk

theorem follow_of_none {base : List String} (hclear : tree.Clear base)
    (hbase : tree.node base = none) :
    tree.walk true maxLinks [] (names base) = .error .noEntry := by
  have hwalk := @FileTree.walk_of_clear _ _ tree true maxLinks [] base hclear tree.root_ne_none
  rwa [List.nil_append, hbase, if_neg (by simp)] at hwalk

theorem isDir_of_dir {base : List String} (hclear : tree.Clear base)
    {searchable writable : Bool} (hbase : tree.node base = some (.dir searchable writable)) :
    isDir tree base = .ok true := by
  rw [isDir, follow_of_clear hclear (by rw [hbase]; exact Option.some_ne_none _)]
  simp only [hbase]

theorem isDir_of_none {base : List String} (hclear : tree.Clear base)
    (hbase : tree.node base = none) : isDir tree base = .ok false := by
  rw [isDir, follow_of_none hclear hbase]

theorem isDir_of_file {base : List String} (hclear : tree.Clear base) {content : FileText}
    (hbase : tree.node base = some (.file content)) : isDir tree base = .ok false := by
  rw [isDir, follow_of_clear hclear (by rw [hbase]; exact Option.some_ne_none _)]
  simp only [hbase]

theorem makeDir_of_none {above : List String} (hclear : tree.Clear above)
    (habove : tree.node above = none) (n : String) :
    makeDir tree above n = .error .noEntry := by
  rw [makeDir, follow_of_none hclear habove]

theorem makeDir_of_dir {above : List String} (hclear : tree.Clear above)
    (habove : tree.Searchable above) (n : String) :
    makeDir tree above n = tree.put above n (.dir true true) := by
  rw [makeDir, follow_of_clear hclear habove.ne_none]

/-- A directory at every free place on the way to a place. -/
def wayNode (base place : List String) : Option (FileNode String FileText) :=
  if place <+: base then some (.dir true true) else none

theorem adds_of_or {made : Tree} {plan : List String → Option (FileNode String FileText)}
    (hmade : ∀ place, made.node place = (tree.node place).or (plan place))
    (hways : ∀ place, plan place ≠ none → tree.Writable place) :
    FileTree.Adds plan tree made := by
  intro place
  rw [hmade place]
  cases hnode : tree.node place with
  | some node => exact .inl Option.some_or
  | none =>
      by_cases hplan : plan place = none
      · exact .inl (by rw [hplan, Option.or_none])
      · refine .inr ⟨rfl, Option.none_or, fun front n hplace => ?_⟩
        exact hways place hplan front n (hplace ▸ List.prefix_refl _) (hplace ▸ hnode)

theorem wayNode_front {base front : List String} (hfront : front <+: base) :
    wayNode base front = some (.dir true true) := if_pos hfront

theorem wayNode_not_link (base place : List String) (target : LinkTarget String) :
    wayNode base place ≠ some (.link target) := by
  rw [wayNode]
  split
  · exact fun h => by cases h
  · exact fun h => by cases h

theorem of_wayNode {base place : List String} (hplace : wayNode base place ≠ none) :
    place <+: base := by
  rw [wayNode] at hplace
  split at hplace
  · assumption
  · exact absurd rfl hplace

theorem clear_of_way {made : Tree} {base : List String} (hwritable : tree.Writable base)
    (hmade : ∀ place, made.node place = (tree.node place).or (wayNode base place)) :
    made.Clear base ↔ tree.Clear base :=
  (adds_of_or hmade fun _ hplace => hwritable.front (of_wayNode hplace)).clear_iff
    (fun _ n hfront => wayNode_front ((List.prefix_append _ [n]).trans hfront))
    (wayNode_not_link base base)

/-- On the way to what exists, nothing is made. -/
theorem or_wayNode {base : List String} (hbase : tree.node base ≠ none) (place : List String) :
    tree.node place = (tree.node place).or (wayNode base place) := by
  by_cases hplace : place <+: base
  · obtain ⟨rest, rfl⟩ := hplace
    cases hnode : tree.node place with
    | none => exact absurd (FileTree.node_append_none hnode rest) hbase
    | some node => rfl
  · rw [wayNode, if_neg hplace, Option.or_none]

/-- A directory made at the end of a way that is there otherwise. -/
theorem node_create_way {made : Tree} {base : List String} {n : String}
    (hmade : ∀ place, made.node place = (tree.node place).or (wayNode base place))
    (hfree : tree.node (base ++ [n]) = none)
    (hdir : made.node base = some (.dir true true))
    (hnone : made.node (base ++ [n]) = none) (place : List String) :
    (made.create base n (.dir true true) hdir hnone).node place =
      (tree.node place).or (wayNode (base ++ [n]) place) := by
  rw [FileTree.create]
  simp only
  split
  · next heq =>
      rw [heq, hfree, Option.none_or, wayNode_front (List.prefix_refl _)]
  · next hne =>
      rw [hmade place, wayNode, wayNode]
      simp only [List.prefix_concat_iff, hne, false_or]

/-- On a clear way, `mkdir` makes the missing directories, unless a file is at its end
or they are missing in a directory that cannot be written. -/
theorem mkdir_of_clear {base : List String} (hclear : tree.Clear base) :
    (((∃ content, tree.node base = some (.file content)) ∨ ¬ tree.Writable base) ∧
      ∃ e, mkdir tree base.reverse = (.error e, tree)) ∨
    ((∀ content, tree.node base ≠ some (.file content)) ∧ tree.Writable base ∧
      ∃ made, mkdir tree base.reverse = (.ok (), made) ∧
        ∀ place, made.node place = (tree.node place).or (wayNode base place)) := by
  induction base using List.reverseRecOn with
  | nil =>
      obtain ⟨searchable, writable, hroot⟩ := tree.root_dir
      refine .inr ⟨fun content h => ?_, tree.writable_nil, tree, ?_,
        or_wayNode tree.root_ne_none⟩
      · rw [hroot] at h
        cases h
      · rw [List.reverse_nil, mkdir, existOk, isDir_of_dir hclear hroot]
  | append_singleton base n ih =>
      obtain ⟨habove, hdir, hlink⟩ := FileTree.clear_concat_iff.mp hclear
      rw [List.reverse_concat, mkdir, List.reverse_reverse]
      rcases hdir with hnone | ⟨writable, hdir⟩
      · have hfree := FileTree.node_append_none hnone [n]
        rw [makeDir_of_none habove hnone]
        rcases ih habove with ⟨hbad, e, hmade⟩ | ⟨-, hwritable, made, hmade, hnodes⟩
        · rw [hmade]
          refine .inl ⟨.inr fun hall => ?_, e, rfl⟩
          rcases hbad with ⟨content, hfile⟩ | hbad
          · rw [hnone] at hfile
            cases hfile
          · exact hbad (hall.front (List.prefix_append _ _))
        · have hnew : made.node base = some (.dir true true) := by
            rw [hnodes base, hnone, Option.none_or, wayNode_front (List.prefix_refl base)]
          have hstill : made.node (base ++ [n]) = none := by
            rw [hnodes, hfree, Option.none_or, wayNode, if_neg]
            exact fun hlong => absurd hlong.length_le (by simp)
          have hopen : tree.Writable (base ++ [n]) := by
            refine FileTree.writable_concat_iff.mpr ⟨hwritable, fun _ h => ?_⟩
            rw [hnone] at h
            cases h
          refine .inr ⟨fun content h => ?_, hopen, ?_⟩
          · rw [hfree] at h
            cases h
          · rw [hmade]
            simp only
            rw [makeDir_of_dir ((clear_of_way hwritable hnodes).mpr habove) ⟨true, hnew⟩,
              FileTree.put_of_free hnew hstill]
            exact ⟨_, rfl, node_create_way hnodes hfree hnew hstill⟩
      · have hbase : tree.node base ≠ none := FileTree.Searchable.ne_none ⟨writable, hdir⟩
        rw [makeDir_of_dir habove ⟨writable, hdir⟩]
        cases hnode : tree.node (base ++ [n]) with
        | none =>
            cases writable with
            | false =>
                rw [FileTree.put_of_closed hdir hnode]
                simp only
                rw [existOk, isDir_of_none hclear hnode]
                exact .inl ⟨.inr fun hall => (FileTree.writable_concat_iff.mp hall).2 hnode hdir,
                  _, rfl⟩
            | true =>
                have hopen : tree.Writable (base ++ [n]) := by
                  refine FileTree.writable_concat_iff.mpr
                    ⟨FileTree.writable_of_ne_none hbase, fun _ h => ?_⟩
                  rw [hdir] at h
                  cases h
                refine .inr ⟨fun content h => (by cases h), hopen, ?_⟩
                rw [FileTree.put_of_free hdir hnode]
                exact ⟨_, rfl, node_create_way (or_wayNode hbase) hnode hdir hnode⟩
        | some node =>
            have hsome : tree.node (base ++ [n]) ≠ none := by
              rw [hnode]
              exact Option.some_ne_none _
            rw [FileTree.put_of_taken ⟨writable, hdir⟩ hsome]
            simp only
            rw [existOk]
            cases node with
            | link target => exact absurd hnode (hlink target)
            | dir searchable writable =>
                rw [isDir_of_dir hclear hnode]
                exact .inr ⟨fun content h => (by cases h),
                  FileTree.writable_of_ne_none hsome, tree, rfl, or_wayNode hsome⟩
            | file content =>
                rw [isDir_of_file hclear hnode]
                exact .inl ⟨.inl ⟨content, rfl⟩, _, rfl⟩

theorem layoutNode_way {n : String} (hn : n ∈ stateRootChildren) {base front : List String}
    (hfront : front <+: base ++ [n]) : layoutNode base front = some (.dir true true) :=
  if_pos ⟨n, hn, hfront⟩

theorem layoutNode_marker {n : String} (hn : n ∈ stateRootChildren) (base : List String) :
    layoutNode base (base ++ [n] ++ [ownershipMarkerFilename]) =
      some (.file (.text markerText)) := by
  rw [layoutNode, if_neg, if_pos ⟨n, hn, rfl⟩]
  rintro ⟨m, -, hlong⟩
  exact absurd hlong.length_le (by simp)

theorem layoutNode_not_link (base place : List String) (target : LinkTarget String) :
    layoutNode base place ≠ some (.link target) := by
  rw [layoutNode]
  split
  · exact fun h => by cases h
  · split
    · exact fun h => by cases h
    · exact fun h => by cases h

theorem layoutNode_ne_none {base place : List String} (hplace : layoutNode base place ≠ none) :
    ∃ n ∈ stateRootChildren, place <+: base ++ [n] ++ [ownershipMarkerFilename] := by
  rw [layoutNode] at hplace
  split at hplace
  · next hway =>
      obtain ⟨n, hn, hway⟩ := hway
      exact ⟨n, hn, hway.trans (List.prefix_append _ _)⟩
  · split at hplace
    · next hown =>
        obtain ⟨n, hn, rfl⟩ := hown
        exact ⟨n, hn, List.prefix_refl _⟩
    · exact absurd rfl hplace

/-- The way to a place of the layout is a part of the layout. -/
theorem adds_of_way {made : Tree} {base way : List String}
    (hway : ∃ n ∈ stateRootChildren, way <+: base ++ [n]) (hwritable : tree.Writable way)
    (hmade : ∀ place, made.node place = (tree.node place).or (wayNode way place)) :
    FileTree.Adds (layoutNode base) tree made := by
  obtain ⟨n, hn, hway⟩ := hway
  intro place
  rw [hmade place, wayNode]
  cases hnode : tree.node place with
  | some node => exact .inl Option.some_or
  | none =>
      rw [Option.none_or]
      split
      · next hplace =>
          refine .inr ⟨rfl, (layoutNode_way hn (hplace.trans hway)).symm, ?_⟩
          rintro front m rfl
          exact hwritable front m hplace hnode
      · exact .inl rfl

/-- What is made of the layout makes no child more or less ready. -/
theorem childReady_iff {made : Tree} {base : List String}
    (hadds : FileTree.Adds (layoutNode base) tree made) {n : String}
    (hn : n ∈ stateRootChildren) : ChildReady made base n ↔ ChildReady tree base n := by
  have hways : ∀ front m, front ++ [m] <+: base ++ [n] ++ [ownershipMarkerFilename] →
      layoutNode base front = some (.dir true true) := by
    intro front m hfront
    refine layoutNode_way hn ?_
    rcases List.prefix_concat_iff.mp hfront with heq | hfront
    · rw [(List.append_inj' heq rfl).1]
    · exact (List.prefix_append front [m]).trans hfront
  have hclear := hadds.clear_iff hways (layoutNode_not_link base _)
  have hwritable := hadds.writable_iff hways
  have hfree : (∀ searchable writable, made.node (base ++ [n] ++ [ownershipMarkerFilename]) ≠
        some (.dir searchable writable)) ↔
      ∀ searchable writable, tree.node (base ++ [n] ++ [ownershipMarkerFilename]) ≠
        some (.dir searchable writable) := by
    refine forall₂_congr fun searchable writable => not_congr ?_
    rcases hadds (base ++ [n] ++ [ownershipMarkerFilename]) with hsame | ⟨hnone, hnew, -⟩
    · rw [hsame]
    · rw [hnew, hnone, layoutNode_marker hn]
      exact iff_of_false (fun h => by cases h) fun h => by cases h
  exact ⟨fun h => ⟨hclear.mp h.clear, hfree.mp h.free, hwritable.mp h.writable⟩,
    fun h => ⟨hclear.mpr h.clear, hfree.mpr h.free, hwritable.mpr h.writable⟩⟩

/-- On the way to a child that is ready no file stands, and what is missing can be
made. -/
theorem ChildReady.way {base way : List String} {n : String} (hready : ChildReady tree base n)
    (hway : way <+: base ++ [n]) :
    (∀ content, tree.node way ≠ some (.file content)) ∧ tree.Writable way := by
  have hlong : way <+: base ++ [n] ++ [ownershipMarkerFilename] :=
    hway.trans (List.prefix_append _ _)
  refine ⟨fun content hfile => ?_, hready.writable.front hlong⟩
  obtain ⟨m, hm⟩ : ∃ m, way ++ [m] <+: base ++ [n] ++ [ownershipMarkerFilename] := by
    obtain ⟨rest, hrest⟩ := hway
    cases rest with
    | nil => exact ⟨ownershipMarkerFilename, by rw [← hrest, List.append_nil]⟩
    | cons m rest => exact ⟨m, rest ++ [ownershipMarkerFilename], by rw [← hrest]; simp⟩
  rcases (hready.clear way m hm).1 with hdir | ⟨writable, hdir⟩
  · rw [hfile] at hdir
    cases hdir
  · rw [hfile] at hdir
    cases hdir

theorem guard_below (tree : Tree) (base rest : List String) :
    (tree.Clear (base ++ rest) ∧
      ensureInsideStateRoot tree (.of base) (.of (base ++ rest)) = .ok ()) ∨
    (¬ tree.Clear (base ++ rest) ∧
      ensureInsideStateRoot tree (.of base) (.of (base ++ rest)) = .error .boundary) := by
  rcases ensureInside_cases tree (.of base) (.of (base ++ rest)) with ⟨htrusted, hok⟩ | ⟨hno, herr⟩
  · obtain ⟨other, more, -, hsame, hclear⟩ := htrusted
    rw [PurePath.of_inj] at hsame
    exact .inl ⟨hsame ▸ hclear, hok⟩
  · exact .inr ⟨fun hclear => hno ⟨base, rest, rfl, rfl, hclear⟩, herr⟩

theorem isFile_of_clear {base : List String} (hclear : tree.Clear base) :
    isFile tree base = .ok (match tree.node base with | some (.file _) => true | _ => false) := by
  rw [isFile]
  cases hbase : tree.node base with
  | none => rw [follow_of_none hclear hbase]
  | some node =>
      rw [follow_of_clear hclear (by rw [hbase]; exact Option.some_ne_none _)]
      simp only [hbase]
      cases node with
      | dir searchable writable => rfl
      | file content => rfl
      | link target => rfl

theorem writeMarker_of_free {above : List String} {n : String} (hclear : tree.Clear above)
    (habove : tree.node above = some (.dir true true))
    (hfree : tree.node (above ++ [n]) = none) :
    writeMarker tree above n =
      (.ok (), tree.create above n (.file (.text markerText)) habove hfree) := by
  rw [writeMarker, follow_of_clear hclear (by rw [habove]; exact Option.some_ne_none _)]
  simp only [FileTree.put_of_free habove hfree]

theorem writeMarker_of_taken {above : List String} {n : String} (hclear : tree.Clear above)
    (habove : tree.Searchable above) (htaken : tree.node (above ++ [n]) ≠ none) :
    writeMarker tree above n = (.error (.os .isDirectory), tree) := by
  rw [writeMarker, follow_of_clear hclear habove.ne_none]
  simp only [FileTree.put_of_taken habove htaken]

theorem writeMarker_of_closed {above : List String} {n : String} (hclear : tree.Clear above)
    (habove : tree.node above = some (.dir true false))
    (hfree : tree.node (above ++ [n]) = none) :
    writeMarker tree above n = (.error (.os .access), tree) := by
  rw [writeMarker, follow_of_clear hclear (by rw [habove]; exact Option.some_ne_none _)]
  simp only [FileTree.put_of_closed habove hfree]

theorem adds_marker {base : List String} {n : String} (hn : n ∈ stateRootChildren)
    (hdir : tree.node (base ++ [n]) = some (.dir true true))
    (hfree : tree.node (base ++ [n] ++ [ownershipMarkerFilename]) = none) :
    FileTree.Adds (layoutNode base) tree
      (tree.create (base ++ [n]) ownershipMarkerFilename (.file (.text markerText))
        hdir hfree) := by
  intro place
  rw [FileTree.create]
  simp only
  split
  · next heq =>
      rw [heq]
      refine .inr ⟨hfree, (layoutNode_marker hn base).symm, fun front m hplace hfront => ?_⟩
      obtain ⟨rfl, -⟩ := List.append_inj' hplace rfl
      rw [hdir] at hfront
      cases hfront
  · exact .inl rfl

/-- A child that is ready is made, with its marker; of another one, at most a part of
the layout is made. -/
theorem ensureChild_spec {base : List String} {n : String} (hn : n ∈ stateRootChildren) :
    (ChildReady tree base n ∧ ∃ made, ensureChild tree (.of base) n = (.ok (), made) ∧
      FileTree.Adds (layoutNode base) tree made ∧
        made.node (base ++ [n] ++ [ownershipMarkerFilename]) ≠ none) ∨
    (¬ ChildReady tree base n ∧ ∃ e made, ensureChild tree (.of base) n = (.error e, made) ∧
      FileTree.Adds (layoutNode base) tree made) := by
  rw [ensureChild]
  simp only [child_of, places_of]
  rcases guard_below tree base [n] with ⟨hclear, hguard⟩ | ⟨hclear, hguard⟩
  · rw [hguard]
    simp only
    rcases mkdir_of_clear hclear with ⟨hbad, e, hmade⟩ | ⟨-, hwritable, made, hmade, hnodes⟩
    · rw [hmade]
      refine .inr ⟨fun hready => ?_, _, _, rfl, .refl tree⟩
      have hway := hready.way (List.prefix_refl _)
      rcases hbad with ⟨content, hfile⟩ | hbad
      · exact hway.1 content hfile
      · exact hbad hway.2
    · rw [hmade]
      simp only
      have hadds : FileTree.Adds (layoutNode base) tree made :=
        adds_of_way ⟨n, hn, List.prefix_refl _⟩ hwritable hnodes
      have hnew : made.node (base ++ [n]) ≠ none := by
        rw [hnodes, wayNode_front (List.prefix_refl _)]
        cases tree.node (base ++ [n]) with
        | none => exact Option.some_ne_none _
        | some node => exact Option.some_ne_none _
      rw [← childReady_iff hadds hn]
      rcases guard_below made base ([n] ++ [ownershipMarkerFilename]) with
        ⟨hown, hguard⟩ | ⟨hown, hguard⟩
      · rw [← List.append_assoc] at hown hguard
        obtain ⟨habove, hdir, hlink⟩ := FileTree.clear_concat_iff.mp hown
        obtain ⟨writable, hdir⟩ := hdir.resolve_left hnew
        rw [hguard]
        simp only
        rw [isFile_of_clear hown]
        cases hnode : made.node (base ++ [n] ++ [ownershipMarkerFilename]) with
        | none =>
            simp only
            cases writable with
            | false =>
                rw [writeMarker_of_closed habove hdir hnode]
                refine .inr ⟨fun hready => ?_, _, _, rfl, hadds⟩
                exact hready.writable (base ++ [n]) _ (List.prefix_refl _) hnode hdir
            | true =>
                have hopen : made.Writable (base ++ [n] ++ [ownershipMarkerFilename]) := by
                  refine FileTree.writable_concat_iff.mpr
                    ⟨FileTree.writable_of_ne_none hnew, fun _ h => ?_⟩
                  rw [hdir] at h
                  cases h
                rw [writeMarker_of_free habove hdir hnode]
                refine .inl ⟨⟨hown, fun s w h => ?_, hopen⟩, _, rfl,
                  hadds.trans (adds_marker hn hdir hnode), ?_⟩
                · rw [hnode] at h
                  cases h
                · rw [FileTree.create]
                  simp only [↓reduceIte]
                  exact Option.some_ne_none _
        | some node =>
            have htaken : made.node (base ++ [n] ++ [ownershipMarkerFilename]) ≠ none := by
              rw [hnode]
              exact Option.some_ne_none _
            cases node with
            | link target => exact absurd hnode (hlink target)
            | dir s w =>
                simp only
                rw [writeMarker_of_taken habove ⟨writable, hdir⟩ htaken]
                exact .inr ⟨fun hready => hready.free s w hnode, _, _, rfl, hadds⟩
            | file content =>
                refine .inl ⟨⟨hown, fun s w h => ?_, FileTree.writable_of_ne_none htaken⟩, made,
                  rfl, hadds, htaken⟩
                rw [hnode] at h
                cases h
      · rw [← List.append_assoc] at hown hguard
        rw [hguard]
        exact .inr ⟨fun hready => hown hready.clear, _, _, rfl, hadds⟩
  · rw [hguard]
    exact .inr ⟨fun hready => hclear (hready.clear.front (List.prefix_append _ _)), _, _, rfl,
      .refl tree⟩

/-- The loop makes the children from the first on, up to one that is not ready. -/
theorem ensureChildren_spec {base cs : List String} (hcs : cs ⊆ stateRootChildren) :
    ((∀ n ∈ cs, ChildReady tree base n) ∧
      ∃ made, ensureChildren tree (.of base) cs = (.ok (), made) ∧
        FileTree.Adds (layoutNode base) tree made ∧
          ∀ n ∈ cs, made.node (base ++ [n] ++ [ownershipMarkerFilename]) ≠ none) ∨
    ((¬ ∀ n ∈ cs, ChildReady tree base n) ∧
      ∃ e made, ensureChildren tree (.of base) cs = (.error e, made) ∧
        FileTree.Adds (layoutNode base) tree made) := by
  induction cs generalizing tree with
  | nil => exact .inl ⟨by simp, tree, rfl, .refl tree, by simp⟩
  | cons n cs ih =>
      rw [ensureChildren, List.forall_mem_cons]
      have hn : n ∈ stateRootChildren := hcs List.mem_cons_self
      have hcs : cs ⊆ stateRootChildren := fun m hm => hcs (List.mem_cons_of_mem n hm)
      rcases ensureChild_spec hn with ⟨hready, made, hmade, hadds, hown⟩ | ⟨hready, e, made, hmade, hadds⟩
      · rw [hmade]
        simp only
        have hlater : (∀ m ∈ cs, ChildReady made base m) ↔ ∀ m ∈ cs, ChildReady tree base m :=
          forall₂_congr fun m hm => childReady_iff hadds (hcs hm)
        rcases @ih made hcs with
          ⟨hall, later, hrest, hmore, howns⟩ | ⟨hall, e, later, hrest, hmore⟩
        · refine .inl ⟨⟨hready, hlater.mp hall⟩, later, hrest, hadds.trans hmore, ?_⟩
          rw [List.forall_mem_cons]
          exact ⟨(hmore.grows hown).symm ▸ hown, howns⟩
        · exact .inr ⟨fun h => hall (hlater.mpr h.2), e, later, hrest, hadds.trans hmore⟩
      · rw [hmade]
        exact .inr ⟨fun h => hready h.1, e, made, rfl, hadds⟩

/-- The state roots whose layout can be made. -/
def Ready (tree : Tree) (root : PurePath) : Prop :=
  ∃ base, root = .of base ∧ ∀ n ∈ stateRootChildren, ChildReady tree base n

theorem or_of_adds {made : Tree} {base : List String}
    (hadds : FileTree.Adds (layoutNode base) tree made)
    (howns : ∀ n ∈ stateRootChildren,
      made.node (base ++ [n] ++ [ownershipMarkerFilename]) ≠ none) (place : List String) :
    made.node place = (tree.node place).or (layoutNode base place) := by
  rcases hadds place with hsame | ⟨hnone, hnew, -⟩
  · rw [hsame]
    cases hnode : tree.node place with
    | some node => rfl
    | none =>
        rw [Option.none_or]
        by_contra hne
        obtain ⟨n, hn, rest, hrest⟩ := layoutNode_ne_none fun h => hne h.symm
        refine howns n hn ?_
        rw [← hrest]
        exact FileTree.node_append_none (hsame.trans hnode) rest
  · rw [hnew, hnone, Option.none_or]

theorem ensureLayout_spec (tree : Tree) (root : PurePath) :
    (Ready tree root ∧ ∃ made, ensureLayout tree root = (.ok (), made) ∧
      FileTree.Adds (layoutNode (places root)) tree made ∧
      ∀ place, made.node place = (tree.node place).or (layoutNode (places root) place)) ∨
    (¬ Ready tree root ∧ ∃ e made, ensureLayout tree root = (.error e, made) ∧
      FileTree.Adds (layoutNode (places root)) tree made) := by
  by_cases hroot : ∃ base, root = .of base
  · obtain ⟨base, rfl⟩ := hroot
    have hready : Ready tree (.of base) ↔ ∀ n ∈ stateRootChildren, ChildReady tree base n := by
      constructor
      · rintro ⟨other, hsame, hall⟩
        rwa [PurePath.of_inj.mp hsame]
      · exact fun hall => ⟨base, rfl, hall⟩
    have hfirst : "descriptor" ∈ stateRootChildren := List.mem_cons_self
    have hguard := guard_below tree base []
    rw [List.append_nil] at hguard
    rw [ensureLayout, places_of, hready]
    rcases hguard with ⟨hclear, hguard⟩ | ⟨hclear, hguard⟩
    · rw [hguard]
      simp only
      rcases mkdir_of_clear hclear with ⟨hbad, e, hmade⟩ | ⟨-, hwritable, made, hmade, hnodes⟩
      · rw [hmade]
        refine .inr ⟨fun hall => ?_, _, _, rfl, .refl tree⟩
        have hway := (hall "descriptor" hfirst).way (List.prefix_append base _)
        rcases hbad with ⟨content, hfile⟩ | hbad
        · exact hway.1 content hfile
        · exact hbad hway.2
      · rw [hmade]
        simp only
        have hadds : FileTree.Adds (layoutNode base) tree made :=
          adds_of_way ⟨"descriptor", hfirst, List.prefix_append _ _⟩ hwritable hnodes
        have hlater : (∀ n ∈ stateRootChildren, ChildReady made base n) ↔
            ∀ n ∈ stateRootChildren, ChildReady tree base n :=
          forall₂_congr fun n hn => childReady_iff hadds hn
        rcases @ensureChildren_spec made base _ (List.Subset.refl stateRootChildren) with
          ⟨hall, later, hrest, hmore, howns⟩ | ⟨hall, e, later, hrest, hmore⟩
        · exact .inl ⟨hlater.mp hall, later, hrest, hadds.trans hmore,
            or_of_adds (hadds.trans hmore) howns⟩
        · exact .inr ⟨fun h => hall (hlater.mpr h), e, later, hrest, hadds.trans hmore⟩
    · rw [hguard]
      refine .inr ⟨fun hall => hclear ?_, _, _, rfl, .refl tree⟩
      refine (hall "descriptor" hfirst).clear.front ?_
      rw [List.append_assoc]
      exact List.prefix_append _ _
  · rw [ensureLayout]
    rcases ensureInside_cases tree root root with ⟨⟨base, rest, hbase, -, -⟩, -⟩ | ⟨-, hguard⟩
    · exact absurd ⟨base, hbase⟩ hroot
    · rw [hguard]
      exact .inr ⟨fun ⟨base, hbase, _⟩ => hroot ⟨base, hbase⟩, _, _, rfl, .refl tree⟩

theorem readText_of_file {base : List String} (hclear : tree.Clear base) {content : FileText}
    (hbase : tree.node base = some (.file content)) :
    readText tree base = match content with
      | .text letters => .ok letters
      | .undecodable => .error .decode
      | .unreadable => .error (.os .access) := by
  rw [readText, follow_of_clear hclear (by rw [hbase]; exact Option.some_ne_none _)]
  simp only [hbase]
  cases content with
  | text letters => rfl
  | undecodable => rfl
  | unreadable => rfl

/-- Where every child has a file in the place of its marker, the markers are valid just
when each of these files has the text of the marker. -/
theorem markersValid_iff {base cs : List String}
    (hchildren : ∀ n ∈ cs, tree.Clear (base ++ [n] ++ [ownershipMarkerFilename]) ∧
      ∃ content, tree.node (base ++ [n] ++ [ownershipMarkerFilename]) = some (.file content)) :
    markersValid tree (.of base) cs = .ok true ↔
      ∀ n ∈ cs, tree.node (base ++ [n] ++ [ownershipMarkerFilename]) =
        some (.file (.text markerText)) := by
  induction cs with
  | nil => simp [markersValid]
  | cons n cs ih =>
      rw [List.forall_mem_cons] at hchildren ⊢
      obtain ⟨⟨hclear, content, hfile⟩, hrest⟩ := hchildren
      obtain ⟨habove, hdir, -⟩ := FileTree.clear_concat_iff.mp hclear
      obtain ⟨writable, hdir⟩ := hdir.resolve_left fun hnone => by
        rw [FileTree.node_append_none hnone] at hfile
        cases hfile
      rw [markersValid, child_of, places_of, isDir_of_dir habove hdir]
      simp only [child_of, places_of, readText_of_file hclear hfile, hfile]
      cases content with
      | undecodable => simp
      | unreadable => simp
      | text letters =>
          by_cases hletters : letters = markerText
          · simp [hletters, ih hrest]
          · simp [hletters]

/-- Setup makes what is missing of the layout and changes nothing else; it goes through
just for the roots that are ready, and one that fails has made a part of the layout, all
of it in directories that can be written. -/
theorem layout_outcome (tree : Tree) (root : PurePath) :
    ((ensureLayout tree root).1 = .ok () ↔ Ready tree root) ∧
      (Ready tree root → ∀ place, (ensureLayout tree root).2.node place =
        (tree.node place).or (layoutNode (places root) place)) ∧
      FileTree.Adds (layoutNode (places root)) tree (ensureLayout tree root).2 := by
  rcases ensureLayout_spec tree root with
    ⟨hready, made, hmade, hadds, hnodes⟩ | ⟨hready, e, made, hmade, hadds⟩
  · rw [hmade]
    exact ⟨iff_of_true rfl hready, fun _ => hnodes, hadds⟩
  · rw [hmade]
    exact ⟨iff_of_false (fun h => by cases h) hready, fun h => absurd h hready, hadds⟩

/-- Setup that went through goes through again, and leaves the tree as it is. -/
theorem layout_again {tree made : Tree} {root : PurePath}
    (hmade : ensureLayout tree root = (.ok (), made)) :
    ensureLayout made root = (.ok (), made) := by
  rcases ensureLayout_spec tree root with
    ⟨⟨base, rfl, hall⟩, first, hfirst, hadds, hnodes⟩ | ⟨-, e, first, hfirst, -⟩
  · obtain rfl : first = made := (Prod.mk.inj (hfirst.symm.trans hmade)).2
    rw [places_of] at hadds hnodes
    have hready : Ready first (.of base) := ⟨base, rfl, fun n hn =>
      (childReady_iff hadds hn).mpr (hall n hn)⟩
    rcases ensureLayout_spec first (.of base) with ⟨-, again, hagain, -, hsame⟩ | ⟨hno, -⟩
    · rw [hagain]
      have heq : again = first := by
        refine FileTree.ext fun place => ?_
        rw [hsame place, places_of, hnodes place, Option.or_assoc, Option.or_self]
      rw [heq]
    · exact absurd hready hno
  · rw [hmade] at hfirst
    cases (Prod.mk.inj hfirst).1

/-- After setup went through, the markers are valid just when no child had a marker with
another text before. -/
theorem valid_after_layout {tree made : Tree} {root : PurePath}
    (hmade : ensureLayout tree root = (.ok (), made)) :
    ownershipMarkerValid made root = .ok true ↔
      ∀ n ∈ stateRootChildren, ∀ content,
        tree.node (places root ++ [n] ++ [ownershipMarkerFilename]) = some (.file content) →
          content = .text markerText := by
  rcases ensureLayout_spec tree root with
    ⟨⟨base, rfl, hall⟩, first, hfirst, hadds, hnodes⟩ | ⟨-, e, first, hfirst, -⟩
  · obtain rfl : first = made := (Prod.mk.inj (hfirst.symm.trans hmade)).2
    rw [places_of] at hadds hnodes ⊢
    have hown : ∀ n ∈ stateRootChildren,
        first.Clear (base ++ [n] ++ [ownershipMarkerFilename]) ∧
          ∃ content, first.node (base ++ [n] ++ [ownershipMarkerFilename]) =
            some (.file content) := by
      intro n hn
      have hready := (childReady_iff hadds hn).mpr (hall n hn)
      refine ⟨hready.clear, ?_⟩
      cases hnode : first.node (base ++ [n] ++ [ownershipMarkerFilename]) with
      | none =>
          rw [hnodes, layoutNode_marker hn, Option.or_eq_none_iff] at hnode
          cases hnode.2
      | some node =>
          cases node with
          | file content => exact ⟨content, rfl⟩
          | dir s w => exact absurd hnode (hready.free s w)
          | link target => exact absurd hnode (hready.clear.not_link target)
    obtain ⟨hclear, content, hfile⟩ := hown "descriptor" List.mem_cons_self
    have hchild := (FileTree.clear_concat_iff.mp hclear).1
    obtain ⟨hbase, hdir, -⟩ := FileTree.clear_concat_iff.mp hchild
    obtain ⟨writable, hdir⟩ := hdir.resolve_left fun hnone => by
      rw [List.append_assoc, FileTree.node_append_none hnone] at hfile
      cases hfile
    have hguard := guard_below first base []
    rw [List.append_nil] at hguard
    rw [ownershipMarkerValid, (hguard.resolve_right fun h => h.1 hbase).2]
    simp only
    rw [places_of, isDir_of_dir hbase hdir]
    simp only
    rw [markersValid_iff hown]
    refine forall₂_congr fun n hn => ?_
    rw [hnodes, layoutNode_marker hn]
    cases hnode : tree.node (base ++ [n] ++ [ownershipMarkerFilename]) with
    | none => simp
    | some node =>
        cases node with
        | file content => simp
        | dir s w => exact absurd hnode ((hall n hn).free s w)
        | link target => exact absurd hnode ((hall n hn).clear.not_link target)
  · rw [hmade] at hfirst
    cases (Prod.mk.inj hfirst).1

namespace LayoutWitness

open StateGuard.GuardWitness

def root : PurePath := .of ["home", "software-pipeline"]

theorem root_ready : Ready homeTree root := by
  refine ⟨["home", "software-pipeline"], rfl, fun n _ => ⟨?_, ?_, ?_⟩⟩
  · have hhome : homeTree.Clear ([] ++ ["home"]) :=
      FileTree.clear_concat_iff.mpr
        ⟨homeTree.clear_nil, .inr ⟨false, rfl⟩, fun target h => by cases h⟩
    have hroot : homeTree.Clear (["home"] ++ ["software-pipeline"]) :=
      FileTree.clear_concat_iff.mpr ⟨hhome, .inr ⟨true, rfl⟩, fun target h => by cases h⟩
    have hchild : homeTree.Clear (["home", "software-pipeline"] ++ [n]) :=
      FileTree.clear_concat_iff.mpr ⟨hroot, .inl rfl, fun target h => by cases h⟩
    exact FileTree.clear_concat_iff.mpr ⟨hchild, .inl rfl, fun target h => by cases h⟩
  · exact fun s w h => by cases h
  · have hhome : homeTree.Writable ["home"] :=
      FileTree.writable_of_ne_none (Option.some_ne_none _)
    have hroot : homeTree.Writable (["home"] ++ ["software-pipeline"]) :=
      FileTree.writable_concat_iff.mpr ⟨hhome, fun _ h => by cases h⟩
    have hchild : homeTree.Writable (["home", "software-pipeline"] ++ [n]) :=
      FileTree.writable_concat_iff.mpr ⟨hroot, fun _ h => by cases h⟩
    exact FileTree.writable_concat_iff.mpr ⟨hchild, fun _ h => by cases h⟩

theorem root_made : ensureLayout homeTree root = (.ok (), (ensureLayout homeTree root).2) := by
  rcases ensureLayout_spec homeTree root with ⟨-, made, hmade, -⟩ | ⟨hno, -⟩
  · rw [hmade]
  · exact absurd root_ready hno

theorem root_again : ensureLayout (ensureLayout homeTree root).2 root =
    (.ok (), (ensureLayout homeTree root).2) := layout_again root_made

theorem root_valid : ownershipMarkerValid (ensureLayout homeTree root).2 root = .ok true := by
  refine (valid_after_layout root_made).mpr fun n _ content hfile => ?_
  cases hfile

end LayoutWitness

end StateLayout

end HermesPipeline
