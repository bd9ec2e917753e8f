/-
Publication of one pipeline to GitHub, again and again.  GitHub is a Git server:
a ref moves without force only to a commit that descends from its head, and what
exists already is not created again.  Every publication builds its commit on the
head of the base branch, so it is the history of that head that decides whether
the branch of the pipeline can follow.
-/
import HermesPipeline.HostPublish
import HermesPipeline.Lib.Git
import HermesPipeline.Lib.Program

namespace HermesPipeline

open Lib

namespace Republication

open Git

/-- An open pull request. -/
structure Pull where
  number : Nat
  htmlUrl : String
  head : String
  base : String
  positive : 0 < number
deriving DecidableEq

/-- What `gh api` is asked.  The objects of the repository stand for their
hashes. -/
inductive Request
  /-- `GET git/ref/heads/{name}`. -/
  | getRef (name : String)
  /-- `GET git/commits/{sha}`. -/
  | getCommit (sha : Commit)
  /-- `POST git/blobs`. -/
  | postBlob (content : String)
  /-- `POST git/trees`. -/
  | postTree (baseTree : Tree) (entries : List (String × String))
  /-- `POST git/commits`. -/
  | postCommit (message : String) (tree : Tree) (parent : Commit)
  /-- `POST git/refs`. -/
  | postRef (name : String) (sha : Commit)
  /-- `PATCH git/refs/heads/{name}`. -/
  | patchRef (name : String) (sha : Commit) (force : Bool)
  /-- `POST pulls`. -/
  | postPull (title head base : String)
  /-- `GET pulls?head={owner}:{head}&state=open`. -/
  | getPulls (head : String)

/-- What the answer to a request holds. -/
abbrev Request.Payload : Request → Type
  | .getRef _ => Commit
  | .getCommit _ => Tree
  | .postBlob _ => String
  | .postTree _ _ => Tree
  | .postCommit _ _ _ => Commit
  | .postRef _ _ => Unit
  | .patchRef _ _ _ => Unit
  | .postPull _ _ _ => Pull
  | .getPulls _ => List Pull

/-- `_gh_api`: a status, and the payload unless the request failed. -/
structure Answer (α : Type) where
  status : Nat
  payload : Option α

abbrev GhProgram := Program Request (fun request => Answer request.Payload) Empty

/-- One call of the API whose payload is used; on any failure there is nothing
to go on with. -/
def ask {α : Type} (request : Request)
    (next : request.Payload → GhProgram (Option α)) : GhProgram (Option α) :=
  .call request fun
    | .ok answer =>
        if answer.status ≥ 300 then .done none
        else
          match answer.payload with
          | none => .done none
          | some payload => next payload
    | .error error => nomatch error

/-- One call of the API of which only the status is used. -/
def askStatus {α : Type} (request : Request)
    (next : Nat → GhProgram (Option α)) : GhProgram (Option α) :=
  .call request fun
    | .ok answer => next answer.status
    | .error error => nomatch error

/-- A blob for every file, and then the rest with the entries of the tree. -/
def postBlobs {α : Type} (next : List (String × String) → GhProgram (Option α)) :
    List (String × String) → List (String × String) → GhProgram (Option α)
  | [], entries => next entries
  | (rel, text) :: rest, entries =>
      ask (.postBlob text) fun blob =>
        postBlobs next rest (entries ++ [(rel, blob)])

/-- `f"hermes {message[:12]}"`. -/
def commitMessage (message : String) : String :=
  "hermes " ++ String.ofList (message.toList.take 12)

/-- `_push_files`. -/
def pushFiles (request : PushRequest) : GhProgram (Option Commit) :=
  ask (.getRef request.base) fun parent =>
  ask (.getCommit parent) fun baseTree =>
  postBlobs
    (fun entries =>
      ask (.postTree baseTree entries) fun tree =>
      ask (.postCommit (commitMessage request.message) tree parent) fun head =>
      askStatus (.postRef request.branch head) fun status =>
        if status = 422 then
          askStatus (.patchRef request.branch head false) fun status =>
            if status ≥ 300 then .done none else .done (some head)
        else if status ≥ 300 then .done none
        else .done (some head))
    request.files.rows []

/-- `_open_pr`. -/
def openPr (branch base pipelineId : String) : GhProgram (Option Pull) :=
  .call (.postPull ("hermes " ++ pipelineId) branch base) fun
    | .ok answer =>
        if answer.status = 422 then
          ask (.getPulls branch) fun pulls => .done pulls.head?
        else if answer.status ≥ 300 then .done none
        else .done answer.payload
    | .error error => nomatch error

/-- What `publish_with_gh` returns when it succeeds. -/
structure Published where
  prNumber : Nat
  prUrl : String
  branch : String
  headSha : Commit
deriving DecidableEq

/-- What all publications of one pipeline have in common. -/
structure Target where
  repo : String
  projectId : String
  pipelineId : String
  base : String

def Target.branch (target : Target) : String :=
  "hermes/" ++ target.projectId ++ "/" ++ target.pipelineId

/-- `publish_with_gh`. -/
def publish (target : Target) (ghAvailable : Bool) (sha : String)
    (files : Dict String String) : GhProgram (Option Published) :=
  match publishWithGh ghAvailable target.repo target.projectId target.pipelineId sha
      files target.base with
  | none => .done none
  | some request => do
      match ← pushFiles request with
      | none => pure none
      | some head =>
          match ← openPr request.branch request.base target.pipelineId with
          | none => pure none
          | some pull =>
              if pull.number = 0 then pure none
              else
                pure (some ⟨pull.number, pull.htmlUrl, request.branch, head⟩)

/-- The repository on the server. -/
structure Server where
  repo : String
  /-- The heads of the branches. -/
  refs : Dict String Commit
  /-- The open pull requests, the newest first. -/
  pulls : List Pull
  created : Nat
  /-- The date that the server gives a commit. -/
  clock : Nat

namespace Server

/-- There is an open pull request from one branch into the other. -/
def hasPull (s : Server) (head base : String) : Bool :=
  s.pulls.any fun pull => pull.head = head && pull.base = base

def newPull (s : Server) (head base : String) : Pull where
  number := s.created + 1
  htmlUrl := "https://github.com/" ++ s.repo ++ "/pull/" ++ toString (s.created + 1)
  head := head
  base := base
  positive := Nat.succ_pos _

/-- How the server answers one request. -/
def api : (request : Request) → Server → Answer request.Payload × Server
  | .getRef name, s =>
      match s.refs.get? name with
      | none => (⟨400, none⟩, s)
      | some head => (⟨200, some head⟩, s)
  | .getCommit sha, s => (⟨200, some sha.tree⟩, s)
  | .postBlob content, s => (⟨201, some content⟩, s)
  | .postTree baseTree entries, s => (⟨201, some (baseTree.overlay entries)⟩, s)
  | .postCommit message tree parent, s =>
      (⟨201, some (.child parent tree message s.clock)⟩, s)
  | .postRef name sha, s =>
      match s.refs.get? name with
      | some _ => (⟨422, none⟩, s)
      | none => (⟨201, some ()⟩, { s with refs := s.refs.set name sha })
  | .patchRef name sha force, s =>
      match s.refs.get? name with
      | none => (⟨400, none⟩, s)
      | some head =>
          if force || decide (head ∈ sha.history) then
            (⟨200, some ()⟩, { s with refs := s.refs.set name sha })
          else (⟨400, none⟩, s)
  | .postPull _ head base, s =>
      if head = base || s.hasPull head base then (⟨422, none⟩, s)
      else
        (⟨201, some (s.newPull head base)⟩,
          { s with pulls := s.newPull head base :: s.pulls, created := s.created + 1 })
  | .getPulls head, s =>
      (⟨200, some (s.pulls.filter fun pull => pull.head = head)⟩, s)

def handler : Handler Request (fun request => Answer request.Payload) Empty Server :=
  fun request s => ((.ok (s.api request).1), (s.api request).2)

/-- A program of API calls, served to its end. -/
def serve {α : Type} (s : Server) (program : GhProgram α) : α × Server :=
  match program.run handler s with
  | (.ok value, s) => (value, s)
  | (.error error, _) => nomatch error

/-- The commit that a push builds on a head of the base branch. -/
def built (s : Server) (base : Commit) (message : String)
    (files : Dict String String) : Commit :=
  .child base (base.tree.overlay files.rows) (commitMessage message) s.clock

theorem built_eq (s : Server) (base : Commit) (message : String)
    (files : Dict String String) :
    Commit.child base (base.tree.overlay files.rows) (commitMessage message) s.clock =
      s.built base message files := rfl

/-- The server after the branch has moved. -/
def moved (s : Server) (branch : String) (head : Commit) : Server :=
  { s with refs := s.refs.set branch head }

section Serve

variable {α β : Type} (s : Server)

@[simp] theorem serve_done (value : α) : s.serve (.done value) = (value, s) := rfl

theorem serve_call (request : Request)
    (next : Except Empty (Answer request.Payload) → GhProgram α) :
    s.serve (.call request next) =
      (s.api request).2.serve (next (.ok (s.api request).1)) := rfl

theorem serve_of_run {program : GhProgram α} {value : α} {s s' : Server}
    (hrun : program.run handler s = (.ok value, s')) :
    s.serve program = (value, s') := by
  rw [serve, hrun]

theorem serve_bind (program : GhProgram α) (next : α → GhProgram β) :
    s.serve (program.bind next) =
      (s.serve program).2.serve (next (s.serve program).1) := by
  cases hrun : program.run handler s with
  | mk outcome s' =>
      cases outcome with
      | ok value =>
          rw [serve_of_run hrun, serve, serve, Program.run_bind_of_ok hrun]
      | error error => exact nomatch error

theorem serve_ask_ok {request : Request} {next : request.Payload → GhProgram (Option α)}
    {s s' : Server} {status : Nat} {payload : request.Payload}
    (hanswer : s.api request = (⟨status, some payload⟩, s')) (hok : status < 300) :
    s.serve (ask request next) = s'.serve (next payload) := by
  rw [ask, serve_call, hanswer]
  simp only
  rw [if_neg (by omega)]

theorem serve_ask_failed {request : Request}
    {next : request.Payload → GhProgram (Option α)} {s s' : Server} {status : Nat}
    {payload : Option request.Payload}
    (hanswer : s.api request = (⟨status, payload⟩, s')) (hfailed : 300 ≤ status) :
    s.serve (ask request next) = (none, s') := by
  rw [ask, serve_call, hanswer]
  simp only
  rw [if_pos hfailed, serve_done]

theorem serve_askStatus (request : Request) (next : Nat → GhProgram (Option α)) :
    s.serve (askStatus request next) =
      (s.api request).2.serve (next (s.api request).1.status) := rfl

theorem serve_postBlobs (next : List (String × String) → GhProgram (Option α))
    (rows entries : List (String × String)) :
    s.serve (postBlobs next rows entries) = s.serve (next (entries ++ rows)) := by
  induction rows generalizing entries with
  | nil => rw [postBlobs, List.append_nil]
  | cons row rest ih =>
      rw [postBlobs, serve_ask_ok rfl (by decide), ih, List.append_assoc,
        List.singleton_append]

/-- What a push does: the branch is created, or it follows to the new commit. -/
theorem serve_pushFiles (repo branch : String) (files : Dict String String)
    (message base : String) :
    s.serve (pushFiles ⟨repo, branch, files, message, base⟩) =
      match s.refs.get? base with
      | none => (none, s)
      | some parent =>
          let head := s.built parent message files
          match s.refs.get? branch with
          | none => (some head, s.moved branch head)
          | some old =>
              if old ∈ head.history then (some head, s.moved branch head)
              else (none, s) := by
  rw [pushFiles]
  cases hbase : s.refs.get? base with
  | none =>
      have hanswer : s.api (.getRef base) = (⟨400, none⟩, s) := by
        rw [api, hbase]
      rw [serve_ask_failed hanswer (by decide)]
  | some parent =>
      have hanswer : s.api (.getRef base) = (⟨200, some parent⟩, s) := by
        rw [api, hbase]
      rw [serve_ask_ok hanswer (by decide), serve_ask_ok rfl (by decide),
        serve_postBlobs, List.nil_append, serve_ask_ok rfl (by decide),
        serve_ask_ok rfl (by decide), serve_askStatus]
      cases hbranch : s.refs.get? branch with
      | none =>
          have hcreated (head : Commit) : s.api (.postRef branch head) =
              (⟨201, some ()⟩, s.moved branch head) := by
            rw [api, hbranch]
            rfl
          rw [hcreated]
          rfl
      | some old =>
          have hexists (head : Commit) : s.api (.postRef branch head) =
              (⟨422, none⟩, s) := by
            rw [api, hbranch]
          have hpatch (head : Commit) : s.api (.patchRef branch head false) =
              if old ∈ head.history then (⟨200, some ()⟩, s.moved branch head)
              else (⟨400, none⟩, s) := by
            rw [api, hbranch]
            simp only [Bool.false_or, decide_eq_true_eq]
            rfl
          rw [built_eq, hexists, if_pos rfl, serve_askStatus, hpatch]
          split <;> rename_i hdescends
          · simp only [hdescends, if_true]
            rfl
          · simp only [hdescends, if_false]
            rfl

/-- What opening the pull request does: there is one already, or a new one. -/
theorem serve_openPr (branch base pipelineId : String) :
    s.serve (openPr branch base pipelineId) =
      if branch = base || s.hasPull branch base then
        ((s.pulls.filter fun pull => pull.head = branch).head?, s)
      else
        (some (s.newPull branch base),
          { s with
            pulls := s.newPull branch base :: s.pulls
            created := s.created + 1 }) := by
  rw [openPr, serve_call]
  simp only [api]
  split
  · rw [if_pos rfl, serve_ask_ok rfl (by decide), serve_done]
  · rfl

end Serve

end Server

/-- What happens to the repository of one pipeline. -/
inductive GitEvent
  | publish (ghAvailable : Bool) (sha : String) (files : Dict String String)
  /-- A commit on the base branch, or a merge of another commit into it. -/
  | land (merged : Option Commit) (tree : Tree) (message : String)
  | tick (clock : Nat)

namespace Server

/-- A commit lands on the base branch. -/
def land (s : Server) (base : String) (merged : Option Commit) (tree : Tree)
    (message : String) : Server :=
  match s.refs.get? base with
  | none => s
  | some head =>
      let commit :=
        match merged with
        | none => Commit.child head tree message s.clock
        | some other => Commit.merge head other tree message s.clock
      { s with refs := s.refs.set base commit }

def step (target : Target) (s : Server) : GitEvent → Server
  | .publish ghAvailable sha files =>
      (s.serve (publish target ghAvailable sha files)).2
  | .land merged tree message => s.land target.base merged tree message
  | .tick clock => { s with clock := clock }

end Server

section Runs

variable (target : Target)

/-- A publication succeeds with the number, and the branch holds the file map on
top of the base tree. -/
def Delivered (number : Nat) (files : Dict String String) (s : Server)
    (outcome : Option Published × Server) : Prop :=
  ∃ published base, outcome.1 = some published ∧ published.prNumber = number ∧
    s.refs.get? target.base = some base ∧
    outcome.2.refs.get? target.branch = some published.headSha ∧
    ∀ path, published.headSha.tree.lookup path =
      (files.get? path).or (base.tree.lookup path)

/-- The event is no publication, or one that is delivered. -/
def EventDelivered (number : Nat) (s : Server) : GitEvent → Prop
  | .publish ghAvailable sha files =>
      Delivered target number files s
        (s.serve (publish target ghAvailable sha files))
  | .land _ _ _ => True
  | .tick _ => True

/-- Every later publication is delivered under the number. -/
def Keeps (number : Nat) : Server → List GitEvent → Prop
  | _, [] => True
  | s, event :: rest =>
      EventDelivered target number s event ∧ Keeps number (s.step target event) rest

/-- What a publication returns. -/
def publishedBy (s : Server) : GitEvent → Option Published
  | .publish ghAvailable sha files =>
      (s.serve (publish target ghAvailable sha files)).1
  | .land _ _ _ => none
  | .tick _ => none

/-- After the first successful publication every one is delivered, under the
same number. -/
def Republishes : Server → List GitEvent → Prop
  | _, [] => True
  | s, event :: rest =>
      match publishedBy target s event with
      | none => Republishes (s.step target event) rest
      | some published => Keeps target published.prNumber (s.step target event) rest

/-- The branch can follow: its head is in the history of the base branch, or it
is the very commit that the publication builds. -/
def Follows (s : Server) (sha : String) (files : Dict String String) : Prop :=
  ∃ base old, s.refs.get? target.base = some base ∧
    s.refs.get? target.branch = some old ∧
    (old ∈ base.history ∨ old = s.built base sha files)

/-- A publication with files, made with a working `gh`, that the branch can
follow. -/
def Repeatable (s : Server) : GitEvent → Prop
  | .publish ghAvailable sha files =>
      ghAvailable = true ∧ files.rows ≠ [] ∧ Follows target s sha files
  | .land _ _ _ => True
  | .tick _ => True

/-- Every publication of a run is repeatable where it happens. -/
def AllRepeatable : Server → List GitEvent → Prop
  | _, [] => True
  | s, event :: rest =>
      Repeatable target s event ∧ AllRepeatable (s.step target event) rest

/-- Every publication after the first successful one is repeatable. -/
def RepeatableLater : Server → List GitEvent → Prop
  | _, [] => True
  | s, event :: rest =>
      match publishedBy target s event with
      | none => RepeatableLater (s.step target event) rest
      | some _ => AllRepeatable target (s.step target event) rest

/-- What `publish_with_gh` pushes. -/
def Target.request (target : Target) (sha : String) (files : Dict String String) :
    PushRequest :=
  ⟨target.repo, target.branch, files, sha, target.base⟩

/-- What a publication does once the guard lets it through. -/
theorem serve_publish (s : Server) {ghAvailable : Bool} (sha : String)
    {files : Dict String String} (hrepo : target.repo.toList.count '/' = 1)
    (hfiles : files.rows ≠ []) (havailable : ghAvailable = true) :
    s.serve (publish target ghAvailable sha files) =
      let pushed := s.serve (pushFiles (target.request sha files))
      match pushed.1 with
      | none => (none, pushed.2)
      | some head =>
          let opened := pushed.2.serve
            (openPr target.branch target.base target.pipelineId)
          (opened.1.map fun pull =>
            ⟨pull.number, pull.htmlUrl, target.branch, head⟩, opened.2) := by
  have hrequest : publishWithGh ghAvailable target.repo target.projectId
      target.pipelineId sha files target.base = some (target.request sha files) := by
    rw [publishWithGh, if_neg (by simp [hrepo, hfiles, havailable])]
    rfl
  rw [publish, hrequest]
  refine (s.serve_bind _ _).trans ?_
  rcases s.serve (pushFiles (target.request sha files)) with ⟨_ | head, s'⟩
  · rfl
  · refine (s'.serve_bind _ _).trans ?_
    simp only [Target.request]
    rcases s'.serve (openPr target.branch target.base target.pipelineId) with
      ⟨_ | pull, s''⟩
    · rfl
    · have hpositive : pull.number ≠ 0 := pull.positive.ne'
      simp only [hpositive, if_false]
      rfl

/-- The guard refuses everything else. -/
theorem serve_publish_guarded (s : Server) {ghAvailable : Bool} (sha : String)
    {files : Dict String String}
    (hguard : target.repo.toList.count '/' ≠ 1 ∨ files.rows = [] ∨
      ghAvailable = false) :
    s.serve (publish target ghAvailable sha files) = (none, s) := by
  rw [publish, publishWithGh, if_pos hguard]
  rfl

/-- A pull request of the branch is open, and it is the one that a search for
the branch finds first. -/
structure Opened (number : Nat) (s : Server) : Prop where
  repo : target.repo.toList.count '/' = 1
  branch : s.refs.get? target.branch ≠ none
  pull : target.branch = target.base ∨ s.hasPull target.branch target.base = true
  first : ((s.pulls.filter fun pull => pull.head = target.branch).head?).map
    Pull.number = some number

variable {target}

/-- The pull request that is open already is the one that is returned. -/
theorem serve_openPr_of_opened {number : Nat} {s : Server}
    (hpull : target.branch = target.base ∨
      s.hasPull target.branch target.base = true)
    (hfirst : ((s.pulls.filter fun pull => pull.head = target.branch).head?).map
      Pull.number = some number) :
    ∃ pull, pull.number = number ∧
      s.serve (openPr target.branch target.base target.pipelineId) =
        (some pull, s) := by
  rw [Option.map_eq_some_iff] at hfirst
  obtain ⟨pull, hhead, hnumber⟩ := hfirst
  refine ⟨pull, hnumber, ?_⟩
  rw [Server.serve_openPr, if_pos (by simpa using hpull), hhead]

/-- After its first success the branch has an open pull request. -/
theorem opened_of_publish {s : Server} {ghAvailable : Bool} {sha : String}
    {files : Dict String String} {published : Published}
    (hpublished : (s.serve (publish target ghAvailable sha files)).1 =
      some published) :
    Opened target published.prNumber
      (s.serve (publish target ghAvailable sha files)).2 := by
  by_cases hguard : target.repo.toList.count '/' ≠ 1 ∨ files.rows = [] ∨
      ghAvailable = false
  · rw [serve_publish_guarded target s sha hguard] at hpublished
    simp at hpublished
  rw [not_or, not_or, not_not, Bool.not_eq_false] at hguard
  obtain ⟨hrepo, hfiles, havailable⟩ := hguard
  have hserve := serve_publish target s sha hrepo hfiles havailable
  have hpush : ∀ head s', s.serve (pushFiles (target.request sha files)) =
      (some head, s') → s' = s.moved target.branch head := by
    intro head s' hpushed
    rw [Target.request, Server.serve_pushFiles] at hpushed
    split at hpushed
    · simp at hpushed
    simp only at hpushed
    split at hpushed
    · simp only [Prod.mk.injEq, Option.some.injEq] at hpushed
      rw [← hpushed.1, ← hpushed.2]
    split at hpushed
    · simp only [Prod.mk.injEq, Option.some.injEq] at hpushed
      rw [← hpushed.1, ← hpushed.2]
    · simp at hpushed
  rcases hpushed : s.serve (pushFiles (target.request sha files)) with ⟨_ | head, s'⟩
  · rw [hserve, hpushed] at hpublished
    simp at hpublished
  have hmoved := hpush head s' hpushed
  have hbranch : s'.refs.get? target.branch ≠ none := by
    rw [hmoved, Server.moved, Dict.get?_set_self]
    simp
  rw [hserve, hpushed] at hpublished ⊢
  simp only at hpublished ⊢
  rw [Server.serve_openPr] at hpublished ⊢
  by_cases hexists : (decide (target.branch = target.base) ||
      s'.hasPull target.branch target.base) = true
  · rw [if_pos hexists] at hpublished ⊢
    rw [Option.map_eq_some_iff] at hpublished
    obtain ⟨pull, hhead, rfl⟩ := hpublished
    exact
      { repo := hrepo
        branch := hbranch
        pull := by simpa using hexists
        first := congrArg (Option.map Pull.number) hhead }
  · rw [if_neg hexists] at hpublished ⊢
    simp only [Option.map_some, Option.some.injEq] at hpublished
    subst hpublished
    exact
      { repo := hrepo
        branch := hbranch
        pull := .inr (by simp [Server.hasPull, Server.newPull])
        first := by simp [Server.newPull] }

section Opened

variable {number : Nat} {s : Server} (hopened : Opened target number s)

include hopened

/-- A repeatable publication moves the branch to the commit that it builds. -/
theorem serve_publish_of_repeatable {ghAvailable : Bool} {sha : String}
    {files : Dict String String}
    (hrepeatable : Repeatable target s (.publish ghAvailable sha files)) :
    ∃ (pull : Pull) (base : Commit), pull.number = number ∧
      s.refs.get? target.base = some base ∧
      s.serve (publish target ghAvailable sha files) =
        (some ⟨pull.number, pull.htmlUrl, target.branch, s.built base sha files⟩,
          s.moved target.branch (s.built base sha files)) := by
  obtain ⟨havailable, hfiles, base, old, hbase, hold, hfollows⟩ := hrepeatable
  have hpushed : s.serve (pushFiles (target.request sha files)) =
      (some (s.built base sha files),
        s.moved target.branch (s.built base sha files)) := by
    rw [Target.request, Server.serve_pushFiles, hbase]
    simp only [hold]
    rw [if_pos]
    rw [Server.built, Commit.history, List.mem_cons]
    exact hfollows.symm
  have hpull : target.branch = target.base ∨
      (s.moved target.branch (s.built base sha files)).hasPull target.branch
        target.base = true := hopened.pull
  obtain ⟨pull, hnumber, hserve⟩ := serve_openPr_of_opened hpull hopened.first
  refine ⟨pull, base, hnumber, hbase, ?_⟩
  rw [serve_publish target s sha hopened.repo hfiles havailable, hpushed]
  simp only [hserve, Option.map_some]

/-- Any other publication is refused and changes nothing. -/
theorem serve_publish_of_not_repeatable {ghAvailable : Bool} {sha : String}
    {files : Dict String String}
    (hnot : ¬ Repeatable target s (.publish ghAvailable sha files)) :
    s.serve (publish target ghAvailable sha files) = (none, s) := by
  by_cases hguard : target.repo.toList.count '/' ≠ 1 ∨ files.rows = [] ∨
      ghAvailable = false
  · exact serve_publish_guarded target s sha hguard
  rw [not_or, not_or, not_not, Bool.not_eq_false] at hguard
  obtain ⟨hrepo, hfiles, havailable⟩ := hguard
  have hpushed : s.serve (pushFiles (target.request sha files)) = (none, s) := by
    rw [Target.request, Server.serve_pushFiles]
    cases hbase : s.refs.get? target.base with
    | none => rfl
    | some base =>
        cases hold : s.refs.get? target.branch with
        | none => exact absurd hold hopened.branch
        | some old =>
            simp only
            rw [if_neg]
            rw [Server.built, Commit.history, List.mem_cons]
            intro hfollows
            exact hnot ⟨havailable, hfiles, base, old, hbase, hold, hfollows.symm⟩
  rw [serve_publish target s sha hrepo hfiles havailable, hpushed]

theorem delivered_iff (ghAvailable : Bool) (sha : String)
    (files : Dict String String) :
    Delivered target number files s
        (s.serve (publish target ghAvailable sha files)) ↔
      Repeatable target s (.publish ghAvailable sha files) := by
  constructor
  · rintro ⟨published, base, hpublished, -⟩
    by_contra hnot
    rw [serve_publish_of_not_repeatable hopened hnot] at hpublished
    simp at hpublished
  · intro hrepeatable
    obtain ⟨pull, base, hnumber, hbase, hserve⟩ :=
      serve_publish_of_repeatable hopened hrepeatable
    rw [hserve]
    refine ⟨_, base, rfl, hnumber, hbase, Dict.get?_set_self _ _ _, ?_⟩
    exact Tree.lookup_overlay base.tree files

/-- The pull request stays open under every step. -/
theorem Opened.step (event : GitEvent) :
    Opened target number (s.step target event) := by
  cases event with
  | publish ghAvailable sha files =>
      rw [Server.step]
      by_cases hrepeatable : Repeatable target s (.publish ghAvailable sha files)
      · obtain ⟨pull, base, -, -, hserve⟩ :=
          serve_publish_of_repeatable hopened hrepeatable
        rw [hserve]
        refine ⟨hopened.repo, ?_, hopened.pull, hopened.first⟩
        rw [Server.moved, Dict.get?_set_self]
        simp
      · rw [serve_publish_of_not_repeatable hopened hrepeatable]
        exact hopened
  | land merged tree message =>
      rw [Server.step, Server.land]
      split
      · exact hopened
      · refine ⟨hopened.repo, ?_, hopened.pull, hopened.first⟩
        simp only [Dict.get?_set]
        split
        · simp
        · exact hopened.branch
  | tick clock => exact ⟨hopened.repo, hopened.branch, hopened.pull, hopened.first⟩

theorem keeps_iff (events : List GitEvent) :
    Keeps target number s events ↔ AllRepeatable target s events := by
  induction events generalizing s with
  | nil => rfl
  | cons event rest ih =>
      rw [Keeps, AllRepeatable, ih (hopened.step event)]
      apply and_congr_left'
      cases event with
      | publish ghAvailable sha files => exact delivered_iff hopened ghAvailable sha files
      | land merged tree message => rfl
      | tick clock => rfl

end Opened

/-- Every publication after the first successful one is delivered exactly when
each of them has files and a branch that can follow. -/
theorem republishes_iff (target : Target) (s : Server) (events : List GitEvent) :
    Republishes target s events ↔ RepeatableLater target s events := by
  induction events generalizing s with
  | nil => rfl
  | cons event rest ih =>
      rw [Republishes, RepeatableLater]
      cases hpublished : publishedBy target s event with
      | none => exact ih (s.step target event)
      | some published =>
          cases event with
          | publish ghAvailable sha files =>
              exact keeps_iff (opened_of_publish hpublished) rest
          | land merged tree message => simp [publishedBy] at hpublished
          | tick clock => simp [publishedBy] at hpublished

end Runs

namespace RepublicationWitness

def target : Target := ⟨"acme/cli", "prj_cli", "pl_1", "main"⟩

def initial : Commit := .root ∅ "init" 0

/-- A repository with one commit on its base branch. -/
def server : Server where
  repo := "acme/cli"
  refs := Dict.set Keyed.empty "main" initial
  pulls := []
  created := 0
  clock := 1

def firstFiles : Dict String String := Dict.set Keyed.empty "src/app.py" "print(1)"

def laterFiles : Dict String String := Dict.set Keyed.empty "src/app.py" "print(2)"

/-- The server after the first publication. -/
def published : Server := server.step target (.publish true "approved" firstFiles)

/-- The second file map is refused: its commit stands beside the branch. -/
theorem second_is_refused :
    ¬ Republishes target server
      [.publish true "approved" firstFiles, .publish true "approved" laterFiles] := by
  have hfirst : (publishedBy target server
      (.publish true "approved" firstFiles)).isSome = true := by decide +kernel
  have hbase : published.refs.get? target.base = some initial := by decide +kernel
  have hbranch : published.refs.get? target.branch =
      some (server.built initial "approved" firstFiles) := by decide +kernel
  have happart : ¬ (server.built initial "approved" firstFiles ∈ initial.history ∨
      server.built initial "approved" firstFiles =
        published.built initial "approved" laterFiles) := by decide +kernel
  obtain ⟨first, hfirst⟩ := Option.isSome_iff_exists.mp hfirst
  rw [republishes_iff, RepeatableLater, hfirst]
  rintro ⟨⟨-, -, base, old, hfound, hold, hfollows⟩, -⟩
  rw [← published, hbase, Option.some.injEq] at hfound
  rw [← published, hbranch, Option.some.injEq] at hold
  subst hfound
  subst hold
  exact happart hfollows

end RepublicationWitness

end Republication

end HermesPipeline
