/-
Publication by the host shim.  A development writes the worktree of a pipeline
and hashes it, a verification judges that candidate, and the host later reads
the worktree again and pushes what it finds under `src/`.
-/
import HermesPipeline.Lib.Keyed
import HermesPipeline.Lib.Machine
import Mathlib.Logic.Function.Basic

namespace HermesPipeline

open Lib

/-- The regular files of a worktree by their path below its root. -/
abbrev Worktree := Dict String ByteArray

/-- Text mode reads every line end as a line feed. -/
def universalNewlines : List Char → List Char
  | [] => []
  | '\r' :: '\n' :: rest => '\n' :: universalNewlines rest
  | '\r' :: rest => '\n' :: universalNewlines rest
  | c :: rest => c :: universalNewlines rest

/-- `path.read_text(encoding="utf-8")`; `none` is a `UnicodeDecodeError`. -/
def readText (bytes : ByteArray) : Option String :=
  (String.fromUTF8? bytes).map fun text =>
    String.ofList (universalNewlines text.toList)

/-- `rel.startswith("src/")`. -/
def isSource (rel : String) : Bool := "src/".toList.isPrefixOf rel.toList

/-- The files under `src/`. -/
def Worktree.source (tree : Worktree) : Worktree :=
  tree.deleteWhere fun entry => !isSource entry.1

/-- `worktree_files`: no folder gives no files, and a file that is not text is
skipped. -/
def worktreeFiles : Option Worktree → Dict String String
  | none => .empty
  | some folder => folder.source.filterMap readText

/-- `descriptor/github.json`. -/
structure GithubSettings where
  repo : String
  base : String
deriving DecidableEq

/-- What `_push_files` is called with. -/
structure PushRequest where
  repo : String
  branch : String
  files : Dict String String
  message : String
  base : String
deriving DecidableEq

/-- `publish_with_gh` up to the push. -/
def publishWithGh (ghAvailable : Bool) (repo projectId pipelineId sha : String)
    (files : Dict String String) (base : String) : Option PushRequest :=
  if repo.toList.count '/' ≠ 1 ∨ files.rows = [] ∨ ghAvailable = false then none
  else some ⟨repo, "hermes/" ++ projectId ++ "/" ++ pipelineId, files, sha, base⟩

/-- `_host_github_publish` up to the push. -/
def hostGithubPublish (settings : Option GithubSettings) (ghAvailable : Bool)
    (folder : Option Worktree) (projectId pipelineId : String) :
    Option PushRequest :=
  match settings with
  | none => none
  | some document =>
      let files := worktreeFiles folder
      if document.repo = "" ∨ files.rows = [] then none
      else publishWithGh ghAvailable document.repo projectId pipelineId "approved"
        files document.base

/-- What the host and the pipeline know about one pipeline. -/
structure HostPipeline where
  /-- `worktrees/<pipeline>`. -/
  worktree : Option Worktree
  /-- The tree the last development hashed as its candidate. -/
  candidate : Option Worktree
  /-- The candidate that the last `READY` verification judged. -/
  judged : Option Worktree
  verifyStatus : String

structure HostState where
  pipelines : String → HostPipeline
  settings : Option GithubSettings

inductive HostEvent
  /-- A development leaves the worktree like this and hashes it. -/
  | develop (pl : String) (tree : Worktree)
  /-- A verification of the candidate records its status. -/
  | verify (pl : String) (status : String)
  /-- The worktree is changed by anything else. -/
  | change (pl : String) (folder : Option Worktree)
  | configure (settings : Option GithubSettings)
  /-- A shim command publishes what the sidecar reports as `READY`. -/
  | publish (projectId pl : String) (ghAvailable : Bool)

namespace HostState

def init : HostState := ⟨fun _ => ⟨none, none, none, ""⟩, none⟩

def set (s : HostState) (pl : String) (p : HostPipeline) : HostState :=
  { s with pipelines := Function.update s.pipelines pl p }

@[simp] theorem set_self (s : HostState) (pl : String) (p : HostPipeline) :
    (s.set pl p).pipelines pl = p := by
  simp [set]

theorem set_of_ne (s : HostState) {pl other : String} (p : HostPipeline)
    (hne : pl ≠ other) : (s.set other p).pipelines pl = s.pipelines pl := by
  simp [set, hne]

def develop (s : HostState) (pl : String) (tree : Worktree) : HostState :=
  s.set pl { s.pipelines pl with worktree := some tree, candidate := some tree }

def verify (s : HostState) (pl status : String) : HostState :=
  s.set pl { s.pipelines pl with
    verifyStatus := status
    judged := if status = "READY" then (s.pipelines pl).candidate
      else (s.pipelines pl).judged }

def change (s : HostState) (pl : String) (folder : Option Worktree) : HostState :=
  s.set pl { s.pipelines pl with worktree := folder }

/-- The push of one publication. -/
def pushed (s : HostState) (projectId pl : String) (ghAvailable : Bool) :
    Option PushRequest :=
  if (s.pipelines pl).verifyStatus = "READY" then
    hostGithubPublish s.settings ghAvailable (s.pipelines pl).worktree projectId pl
  else none

def step (s : HostState) : HostEvent → Option PushRequest × HostState
  | .develop pl tree => (none, s.develop pl tree)
  | .verify pl status => (none, s.verify pl status)
  | .change pl folder => (none, s.change pl folder)
  | .configure settings => (none, { s with settings := settings })
  | .publish projectId pl ghAvailable => (s.pushed projectId pl ghAvailable, s)

def after (events : List HostEvent) : HostState := exec step init events

end HostState

/-- The event leaves the files under `src/` of the pipeline's worktree as in
this tree. -/
def HostEvent.KeepsSource (pl : String) (tree : Worktree) : HostEvent → Prop
  | .develop other built => other = pl → built.source = tree.source
  | .change other folder =>
      other = pl → ∃ changed, folder = some changed ∧ changed.source = tree.source
  | _ => True

/-- A development of the pipeline leaves a tree that is among these. -/
def HostEvent.Builds (pl : String) (among : Worktree → Prop) : HostEvent → Prop
  | .develop other built => other = pl → among built
  | _ => True

/-- The candidate is among these trees, and the worktree has the source files of
this one. -/
structure HostPipeline.Holds (among : Worktree → Prop) (tree : Worktree)
    (p : HostPipeline) : Prop where
  candidate : ∃ built, p.candidate = some built ∧ among built
  source : ∃ folder, p.worktree = some folder ∧ folder.source = tree.source

/-- Besides, the last `READY` verification judged one of these trees. -/
structure HostPipeline.Judges (among : Worktree → Prop) (tree : Worktree)
    (p : HostPipeline) : Prop extends p.Holds among tree where
  judged : ∃ built, p.judged = some built ∧ among built

namespace HostState

variable {pl : String} {among : Worktree → Prop} {tree : Worktree} {s : HostState}
  {event : HostEvent}

theorem holds_develop (s : HostState) (pl : String) (hamong : among tree) :
    ((s.develop pl tree).pipelines pl).Holds among tree := by
  rw [develop, set_self]
  exact ⟨⟨tree, rfl, hamong⟩, tree, rfl, rfl⟩

/-- One event that keeps the source files. -/
theorem holds_step (h : (s.pipelines pl).Holds among tree)
    (hkeeps : event.KeepsSource pl tree) (hbuilds : event.Builds pl among) :
    ((s.step event).2.pipelines pl).Holds among tree := by
  cases event with
  | configure settings => exact h
  | publish projectId other ghAvailable => exact h
  | develop other built =>
      by_cases hpl : pl = other
      · subst hpl
        simp only [step, develop, set_self]
        exact ⟨⟨built, rfl, hbuilds rfl⟩, built, rfl, hkeeps rfl⟩
      · simp only [step, develop, set_of_ne _ _ hpl]
        exact h
  | verify other status =>
      by_cases hpl : pl = other
      · subst hpl
        simp only [step, verify, set_self]
        exact ⟨h.candidate, h.source⟩
      · simp only [step, verify, set_of_ne _ _ hpl]
        exact h
  | change other folder =>
      by_cases hpl : pl = other
      · subst hpl
        obtain ⟨changed, rfl, hsource⟩ := hkeeps rfl
        simp only [step, change, set_self]
        exact ⟨h.candidate, changed, rfl, hsource⟩
      · simp only [step, change, set_of_ne _ _ hpl]
        exact h

theorem judges_verify (h : (s.pipelines pl).Holds among tree) :
    ((s.verify pl "READY").pipelines pl).Judges among tree := by
  rw [verify, set_self]
  exact ⟨⟨h.candidate, h.source⟩, h.candidate⟩

theorem judges_step (h : (s.pipelines pl).Judges among tree)
    (hkeeps : event.KeepsSource pl tree) (hbuilds : event.Builds pl among) :
    ((s.step event).2.pipelines pl).Judges among tree := by
  refine ⟨holds_step h.toHolds hkeeps hbuilds, ?_⟩
  cases event with
  | configure settings => exact h.judged
  | publish projectId other ghAvailable => exact h.judged
  | develop other built =>
      by_cases hpl : pl = other
      · subst hpl
        simp only [step, develop, set_self]
        exact h.judged
      · simp only [step, develop, set_of_ne _ _ hpl]
        exact h.judged
  | verify other status =>
      by_cases hpl : pl = other
      · subst hpl
        simp only [step, verify, set_self]
        split
        · exact h.candidate
        · exact h.judged
      · simp only [step, verify, set_of_ne _ _ hpl]
        exact h.judged
  | change other folder =>
      by_cases hpl : pl = other
      · subst hpl
        simp only [step, change, set_self]
        exact h.judged
      · simp only [step, change, set_of_ne _ _ hpl]
        exact h.judged

theorem holds_exec (h : (s.pipelines pl).Holds among tree) {events : List HostEvent}
    (hevents : ∀ event ∈ events, event.KeepsSource pl tree ∧ event.Builds pl among) :
    ((exec step s events).pipelines pl).Holds among tree := by
  induction events generalizing s with
  | nil => exact h
  | cons event rest ih =>
      obtain ⟨⟨hkeeps, hbuilds⟩, hrest⟩ := List.forall_mem_cons.mp hevents
      exact ih (holds_step h hkeeps hbuilds) hrest

theorem judges_exec (h : (s.pipelines pl).Judges among tree) {events : List HostEvent}
    (hevents : ∀ event ∈ events, event.KeepsSource pl tree ∧ event.Builds pl among) :
    ((exec step s events).pipelines pl).Judges among tree := by
  induction events generalizing s with
  | nil => exact h
  | cons event rest ih =>
      obtain ⟨⟨hkeeps, hbuilds⟩, hrest⟩ := List.forall_mem_cons.mp hevents
      exact ih (judges_step h hkeeps hbuilds) hrest

/-- A development, a `READY` verification of what it left, and otherwise events
that keep the source files. -/
theorem judges_after (before between later : List HostEvent) (pl : String)
    (among : Worktree → Prop) (hamong : among tree)
    (hevents : ∀ event ∈ between ++ later,
      event.KeepsSource pl tree ∧ event.Builds pl among) :
    ((after (before ++ .develop pl tree :: between ++
      .verify pl "READY" :: later)).pipelines pl).Judges among tree := by
  rw [after, exec_append, exec_append, exec_cons, exec_cons]
  refine judges_exec (judges_verify ?_) fun event hevent =>
    hevents event (List.mem_append_right between hevent)
  exact holds_exec (holds_develop _ pl hamong) fun event hevent =>
    hevents event (List.mem_append_left later hevent)

/-- A publication pushes the text files under `src/` of the worktree it
reads. -/
theorem pushed_files {projectId : String} {ghAvailable : Bool}
    {request : PushRequest} (hpush : s.pushed projectId pl ghAvailable = some request) :
    request.files = worktreeFiles (s.pipelines pl).worktree := by
  unfold pushed at hpush
  split at hpush
  · cases hsettings : s.settings with
    | none => simp [hostGithubPublish, hsettings] at hpush
    | some document =>
        simp only [hostGithubPublish, hsettings] at hpush
        split at hpush
        · cases hpush
        · unfold publishWithGh at hpush
          split at hpush <;> cases hpush
          rfl
  · cases hpush

end HostState

/-- The texts under `src/` of a tree, path by path. -/
theorem get?_worktreeFiles (folder : Worktree) (rel : String) :
    (worktreeFiles (some folder)).get? rel =
      if isSource rel then (folder.get? rel).bind readText else none := by
  rw [worktreeFiles, Dict.get?_filterMap, Worktree.source, Dict.get?, Dict.get?,
    Keyed.find?_deleteWhere]
  cases hentry : folder.find? rel with
  | none => simp
  | some entry =>
      obtain ⟨name, bytes⟩ := entry
      obtain rfl : name = rel := ((folder.find?_eq_some_iff _ _).mp hentry).2
      cases hsource : isSource name <;> simp [Option.filter, hsource]

/-- A tree with the same files under `src/` gives the same texts. -/
theorem worktreeFiles_congr {folder tree : Worktree}
    (hsource : folder.source = tree.source) :
    worktreeFiles (some folder) = worktreeFiles (some tree) := by
  rw [worktreeFiles, worktreeFiles, hsource]

theorem HostEvent.KeepsSource.builds {pl : String} {tree : Worktree}
    {event : HostEvent} (hkeeps : event.KeepsSource pl tree) :
    event.Builds pl fun built => built.source = tree.source := by
  cases event with
  | develop other built => exact hkeeps
  | verify | change | configure | publish => trivial

/-- A development hashes a tree, a verification judges it `READY`, and nothing
in between or since changes a file under `src/`; another development may leave
these files once more.  Whatever else happens, a publication pushes exactly the
text files under `src/` of the tree that was judged last, each with the text that
is read from it; without another development this is the tree itself. -/
theorem host_publish_pushes_judged (before between later : List HostEvent)
    (projectId pl : String) (ghAvailable : Bool) (tree : Worktree)
    (request : PushRequest)
    (hbetween : ∀ event ∈ between, event.KeepsSource pl tree)
    (hlater : ∀ event ∈ later, event.KeepsSource pl tree)
    (hpush : (HostState.after (before ++ .develop pl tree :: between ++
      .verify pl "READY" :: later)).pushed projectId pl ghAvailable =
        some request) :
    ∃ judged, ((HostState.after (before ++ .develop pl tree :: between ++
        .verify pl "READY" :: later)).pipelines pl).judged = some judged ∧
      ((∀ built, .develop pl built ∉ between ++ later) → judged = tree) ∧
      ∀ rel, request.files.get? rel =
        if isSource rel then (judged.get? rel).bind readText else none := by
  have hkeeps : ∀ event ∈ between ++ later, event.KeepsSource pl tree :=
    List.forall_mem_append.mpr ⟨hbetween, hlater⟩
  obtain ⟨⟨-, folder, hfolder, hsource⟩, judged, hjudged, hsame⟩ :=
    HostState.judges_after before between later pl
      (fun built => built.source = tree.source) rfl fun event hevent =>
        ⟨hkeeps event hevent, (hkeeps event hevent).builds⟩
  refine ⟨judged, hjudged, fun hquiet => ?_, fun rel => ?_⟩
  · obtain ⟨-, built, hbuilt, rfl⟩ :=
      HostState.judges_after before between later pl (fun built => built = tree) rfl
        fun event hevent => by
          refine ⟨hkeeps event hevent, ?_⟩
          cases event with
          | develop other built =>
              rintro rfl
              exact absurd hevent (hquiet built)
          | verify | change | configure | publish => trivial
    rw [hjudged] at hbuilt
    exact Option.some.inj hbuilt
  · rw [HostState.pushed_files hpush, hfolder,
      worktreeFiles_congr (hsource.trans hsame.symm), get?_worktreeFiles]

namespace HostPublishWitness

/-- `print(1)` and a line feed. -/
def program : ByteArray := "print(1)\n".toUTF8

/-- Two bytes that begin no UTF-8 text. -/
def blob : ByteArray := ⟨#[0xff, 0xfe]⟩

def tree : Worktree :=
  ((Dict.set .empty "PRD.md" "plan\n".toUTF8).set "src/app.py" program).set
    "src/blob.bin" blob

def settings : GithubSettings := ⟨"owner/app", "main"⟩

def request : PushRequest :=
  ⟨"owner/app", "hermes/prj_a/pl_a", Dict.set .empty "src/app.py" "print(1)\n",
    "approved", "main"⟩

theorem pushed_request : (HostState.after ([.configure settings] ++
    .develop "pl_a" tree :: [] ++ .verify "pl_a" "READY" :: [])).pushed
      "prj_a" "pl_a" true = some request := by
  decide +kernel

theorem host_publish_pushes_judged_at_tree :
    ∃ judged, ((HostState.after ([.configure settings] ++ .develop "pl_a" tree :: [] ++
        .verify "pl_a" "READY" :: [])).pipelines "pl_a").judged = some judged ∧
      ((∀ built, HostEvent.develop "pl_a" built ∉ ([] : List HostEvent) ++ []) →
        judged = tree) ∧
      ∀ rel, request.files.get? rel =
        if isSource rel then (judged.get? rel).bind readText else none :=
  host_publish_pushes_judged [.configure settings] [] [] "prj_a" "pl_a" true tree
    request (by simp) (by simp) pushed_request

/-- The file that is no text is missing from the push, although nothing changed
since the verification. -/
theorem host_publish_skips_undecodable :
    ¬∀ (events : List HostEvent) (projectId pl : String) (ghAvailable : Bool)
        (request : PushRequest) (tree : Worktree),
      (HostState.after events).pushed projectId pl ghAvailable = some request →
      ((HostState.after events).pipelines pl).judged = some tree →
      ∀ rel, (request.files.get? rel).map String.toUTF8 =
        if isSource rel then tree.get? rel else none := by
  intro hall
  have hblob := hall _ _ _ _ _ tree pushed_request (by decide +kernel) "src/blob.bin"
  revert hblob
  decide +kernel

end HostPublishWitness

end HermesPipeline
