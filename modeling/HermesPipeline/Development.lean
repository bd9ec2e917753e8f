/-
The Development stage on a bound executor.  The executor writes into a managed
worktree in up to two attempts; one file is picked and scanned for secrets, the
candidate's own tests run, and the candidate's fingerprint covers the whole tree.
-/
import Mathlib.Data.List.Infix
import HermesPipeline.Lib.Json
import HermesPipeline.TreeFingerprints

namespace HermesPipeline

open Lib

namespace SelfTest

/-- `needle in text`. -/
def contains (needle text : String) : Bool :=
  decide (needle.toList <:+: text.toList)

/-- `"\n".join(chunks)`. -/
def joinLines (chunks : List String) : String := "\n".intercalate chunks

/-- The first text unless it is empty, as Python's `or`. -/
def orElse (text fallback : String) : String :=
  if text = "" then fallback else text

/-- `text.lower()`, on the letters that the texts searched for are made of. -/
def lower (text : String) : String := String.ofList (text.toList.map Char.toLower)

/-- `pytest_unavailable`. -/
def pytestUnavailable (text : String) : Bool :=
  contains "no module named pytest" (lower text)

/-- How a run of pytest ends: it could not be started or timed out, or it ended
with an exit code and its output. -/
inductive PytestAnswer
  | unavailable
  | ended (code : Int) (text : String)
deriving Repr, DecidableEq

/-- `run_pytest`. -/
def runPytest (answer : PytestAnswer) : Option Int × String :=
  match answer with
  | .unavailable => (none, "pytest unavailable")
  | .ended code text =>
      if pytestUnavailable text then (some 0, "") else (some code, text)

/-- `run_python`: an exit code, or none on a timeout, and the output. -/
abbrev PythonAnswer := Option Int × String

/-- `run_app`, with what the two runs of the program answer. -/
def runApp (checked bare : PythonAnswer) : String × String :=
  if checked.1 = some 0 then ("passed", checked.2)
  else if checked.1 = none then ("timeout", checked.2)
  else if checked.1 = some 2 || contains "unrecognized" (lower checked.2) ||
      contains "invalid" (lower checked.2) then
    if bare.1 = some 0 then ("passed", bare.2)
    else if bare.1 = none then ("timeout", bare.2)
    else ("failed", bare.2)
  else ("failed", checked.2)

/-- What the runs of a self-test find and answer. -/
structure Answers where
  /-- `tests` is a directory. -/
  tests : Bool
  pytest : PytestAnswer
  /-- `src/app.py` is a file. -/
  app : Bool
  checked : PythonAnswer
  bare : PythonAnswer
deriving Repr, DecidableEq

/-- `run_self_test`. -/
def runSelfTest (answers : Answers) : Bool × String :=
  let tested := runPytest answers.pytest
  let chunks := if answers.tests then [tested.2] else []
  if answers.tests && tested.1 ≠ some 0 then
    (false, orElse (pyStrip (joinLines chunks)) "pytest failed")
  else if !answers.app then (true, joinLines chunks)
  else
    let ran := runApp answers.checked answers.bare
    let all := chunks ++ [ran.2]
    if ran.1 = "passed" then (true, joinLines all)
    else (false, orElse (pyStrip (joinLines all)) ("src/app.py " ++ ran.1))

end SelfTest

namespace Harvest

def utf8 (text : String) : List UInt8 := text.toList.flatMap String.utf8EncodeChar

def secretCanary : String := "SECRET_CANARY"

/-- `leaked_secret`. -/
def leakedSecret (body : List UInt8) : Bool :=
  [secretCanary, "GITHUB_TOKEN=", "GH_TOKEN=", "ghp_"].any fun needle =>
    decide (utf8 needle <:+: body)

/-- The regular files below the root of a worktree, and which of their paths are
symbolic links. -/
structure ManagedWorktree where
  tree : Tree
  isLink : PosixPath → Bool

/-- The names of planning documents, in lower case. -/
def planningNames : List String :=
  ["prd.md", "architecture.md", "design.md", "testplan.md"]

/-- `path.name`. -/
def fileName (path : PosixPath) : String :=
  String.ofList (path.parts.getLast?.getD [])

/-- What `pick_implementation` looks at: no link, no planning document. -/
def isProduct (worktree : ManagedWorktree) (path : PosixPath) : Bool :=
  !worktree.isLink path && !planningNames.contains (SelfTest.lower (fileName path))

/-- `pick_implementation` over the files in the order of their paths. -/
def pickImplementation (worktree : ManagedWorktree) : Option PosixPath :=
  let files := (worktree.tree.byParts.map Prod.fst).filter (isProduct worktree)
  match files.find? fun path => path.text = "src/app.py" with
  | some path => some path
  | none =>
      (files.filter fun path => "src/".toList.isPrefixOf path.text.toList).head?

end Harvest

namespace DevelopmentStage

open Harvest SelfTest

/-- What one attempt of the executor does: the worktree its launch leaves (none
when it raises), what the self-test after it answers, and the worktree that the
candidate's own code leaves behind while it is tested. -/
structure Attempt where
  launched : Option ManagedWorktree
  answers : SelfTest.Answers
  tested : ManagedWorktree

/-- What a run of the stage is given. -/
structure StageInput where
  /-- The runtime bound to the executor, if there is one. -/
  runtime : Option String
  /-- The solution approval is fresh. -/
  fresh : Bool
  prompt : String := ""
  payload : List UInt8 := []
  /-- What the write of a fake executor leaves, none for a `ValueError`. -/
  fakeWrite : Option (PosixPath × ManagedWorktree)
  /-- A broker for the executor was given. -/
  broker : Bool
  first : Attempt
  second : Attempt

inductive Status
  | completed
  | denied
deriving Repr, DecidableEq

structure CandidateRecord where
  sha : String
  relativePath : String
deriving Repr, DecidableEq

structure DevelopmentResult where
  status : Status
  artifactId : Option String := none
  candidate : Option CandidateRecord := none
  feedback : String := ""
deriving Repr, DecidableEq

/-- How a run ends: an exception of the launch, or a result and the worktree
that it is about. -/
inductive Outcome
  | raised
  | returned (result : DevelopmentResult) (worktree : Option ManagedWorktree)

def denied (feedback : String := "") : Outcome :=
  .returned { status := .denied, feedback := feedback } none

/-- `_run_bound_executor`: raised, or the file that was picked and scanned. -/
def runBoundExecutor (broker : Bool) (attempt : Attempt) :
    Option (Option (PosixPath × List UInt8)) :=
  if !broker then some none
  else
    match attempt.launched with
    | none => none
    | some worktree =>
        match pickImplementation worktree with
        | none => some none
        | some path =>
            match worktree.tree.files.get? path with
            | none => some none
            | some body =>
                some (if leakedSecret body then none else some (path, body))

def feedbackMark : String := "FEEDBACK FROM LAST GATE"

variable (sha256 : List UInt8 → String) (put : List UInt8 → String)

/-- The end of a run: the artifact of the scanned body, and the fingerprint of
the whole worktree. -/
def complete (path : PosixPath) (body : List UInt8) (worktree : ManagedWorktree) :
    Outcome :=
  .returned
    { status := .completed
      artifactId := some (put body)
      candidate := some ⟨candidateSha sha256 worktree.tree, path.text⟩ }
    (some worktree)

/-- `DevelopmentStage.run`. -/
def run (input : StageInput) : Outcome :=
  match input.runtime with
  | none => denied
  | some runtime =>
      if !input.fresh then denied
      else if runtime = "fake" then
        match input.fakeWrite with
        | none => denied
        | some (path, worktree) => complete sha256 put path input.payload worktree
      else
        match runBoundExecutor input.broker input.first with
        | none => .raised
        | some none => denied
        | some (some (path, body)) =>
            let (ok, note) := runSelfTest input.first.answers
            if ok then complete sha256 put path body input.first.tested
            else if contains feedbackMark input.prompt then denied note
            else
              match runBoundExecutor input.broker input.second with
              | none => .raised
              | some none => denied note
              | some (some (path, body)) =>
                  let (ok, note) := runSelfTest input.second.answers
                  if ok then complete sha256 put path body input.second.tested
                  else denied note

namespace Attempt

/-- The launch left a file to pick, and that file leaks nothing. -/
def Harvests (attempt : Attempt) (path : PosixPath) (body : List UInt8) : Prop :=
  ∃ worktree, attempt.launched = some worktree ∧
    pickImplementation worktree = some path ∧
    worktree.tree.files.get? path = some body ∧ leakedSecret body = false

/-- The self-test of the attempt succeeds. -/
def passes (attempt : Attempt) : Bool := (runSelfTest attempt.answers).1

end Attempt

/-- The attempt that a run takes for its candidate, and the file scanned in it:
the first one, or the second when the self-test of the first fails. -/
inductive StageInput.Counts (input : StageInput) :
    Attempt → PosixPath → List UInt8 → Prop
  | first {path body} (hfirst : input.first.Harvests path body)
      (hpasses : input.first.passes = true) :
      StageInput.Counts input input.first path body
  | second {path body path' body'} (hfirst : input.first.Harvests path body)
      (hfails : input.first.passes = false)
      (hunmarked : contains feedbackMark input.prompt = false)
      (hsecond : input.second.Harvests path' body')
      (hpasses : input.second.passes = true) :
      StageInput.Counts input input.second path' body'

/-- The binding names an executor that is not the fake one. -/
def StageInput.Real (input : StageInput) : Prop :=
  ∃ runtime, input.runtime = some runtime ∧ runtime ≠ "fake"

section Completed

variable {sha256 : List UInt8 → String} {put : List UInt8 → String}
  {input : StageInput} {result : DevelopmentResult} {worktree : ManagedWorktree}

theorem runBoundExecutor_eq_some_iff {broker : Bool} {attempt : Attempt}
    {path : PosixPath} {body : List UInt8} :
    runBoundExecutor broker attempt = some (some (path, body)) ↔
      broker = true ∧ attempt.Harvests path body := by
  rw [runBoundExecutor, Attempt.Harvests]
  cases broker with
  | false => simp
  | true =>
      simp only [Bool.not_true, Bool.false_eq_true, if_false, true_and]
      cases attempt.launched with
      | none => simp
      | some worktree =>
          simp only [Option.some.injEq, exists_eq_left']
          cases pickImplementation worktree with
          | none => simp
          | some picked =>
              simp only [Option.some.injEq]
              cases hbody : worktree.tree.files.get? picked with
              | none =>
                  simp only [Option.some.injEq, reduceCtorEq, false_iff]
                  rintro ⟨rfl, hsome, -⟩
                  exact absurd (hbody.symm.trans hsome) (by simp)
              | some found =>
                  simp only [Option.some.injEq]
                  constructor
                  · intro hpair
                    split at hpair
                    · simp at hpair
                    · rename_i hclean
                      simp only [Option.some.injEq, Prod.mk.injEq] at hpair
                      obtain ⟨rfl, rfl⟩ := hpair
                      exact ⟨rfl, hbody, by simpa using hclean⟩
                  · rintro ⟨rfl, hsome, hclean⟩
                    obtain rfl : found = body := by
                      simpa using hbody.symm.trans hsome
                    simp [hclean]

theorem StageInput.Counts.scanned_clean {attempt : Attempt} {path : PosixPath}
    {body : List UInt8} (hcounts : input.Counts attempt path body) :
    leakedSecret body = false := by
  cases hcounts with
  | first hfirst _ =>
      obtain ⟨-, -, -, -, hclean⟩ := hfirst
      exact hclean
  | second _ _ _ hsecond _ =>
      obtain ⟨-, -, -, -, hclean⟩ := hsecond
      exact hclean

/-- A run that returns a worktree has completed on the attempt that counts. -/
theorem counts_of_run (hreal : input.Real)
    (hrun : run sha256 put input = .returned result (some worktree)) :
    input.fresh = true ∧ input.broker = true ∧ ∃ attempt path body,
      input.Counts attempt path body ∧
      complete sha256 put path body attempt.tested =
        .returned result (some worktree) := by
  obtain ⟨runtime, hruntime, hne⟩ := hreal
  rw [run, hruntime] at hrun
  simp only [if_neg hne] at hrun
  split at hrun
  · simp [denied] at hrun
  rename_i hfresh
  have hfresh' : input.fresh = true := by simpa using hfresh
  split at hrun
  · simp at hrun
  · simp [denied] at hrun
  rename_i path body hharvest
  obtain ⟨hbroker, hfirst⟩ := runBoundExecutor_eq_some_iff.mp hharvest
  refine ⟨hfresh', hbroker, ?_⟩
  split at hrun
  · rename_i hpasses
    exact ⟨_, _, _, .first hfirst hpasses, hrun⟩
  rename_i hpasses
  split at hrun
  · simp [denied] at hrun
  rename_i hunmarked
  split at hrun
  · simp at hrun
  · simp [denied] at hrun
  rename_i path' body' hharvest'
  split at hrun
  · rename_i hpasses'
    exact ⟨_, _, _, .second hfirst (by simpa [Attempt.passes] using hpasses)
      (by simpa using hunmarked) (runBoundExecutor_eq_some_iff.mp hharvest').2
      hpasses', hrun⟩
  · simp [denied] at hrun

variable (sha256 put) in
/-- The attempt that counts is the one that a fresh run completes on. -/
theorem run_of_counts (hreal : input.Real) (hfresh : input.fresh = true)
    (hbroker : input.broker = true) {attempt : Attempt} {path : PosixPath}
    {body : List UInt8} (hcounts : input.Counts attempt path body) :
    run sha256 put input = complete sha256 put path body attempt.tested := by
  obtain ⟨runtime, hruntime, hne⟩ := hreal
  rw [run, hruntime]
  simp only [hfresh, Bool.not_true, Bool.false_eq_true, if_false, if_neg hne]
  cases hcounts with
  | first hfirst hpasses =>
      have hharvest := runBoundExecutor_eq_some_iff.mpr ⟨hbroker, hfirst⟩
      rw [Attempt.passes] at hpasses
      simp only [hharvest, hpasses, if_true]
  | second hfirst hfails hunmarked hsecond hpasses =>
      have hharvest := runBoundExecutor_eq_some_iff.mpr ⟨hbroker, hfirst⟩
      have hharvest' := runBoundExecutor_eq_some_iff.mpr ⟨hbroker, hsecond⟩
      rw [Attempt.passes] at hfails hpasses
      simp only [hharvest, hharvest', hfails, hpasses, hunmarked,
        Bool.false_eq_true, if_false, if_true]

/-- Whatever a run completes with, the candidate names the fingerprint of the
whole worktree that the run ends in. -/
theorem candidate_covers
    (hrun : run sha256 put input = .returned result (some worktree))
    (hreal : input.Real) :
    result.status = .completed ∧ ∃ path : PosixPath,
      result.candidate = some ⟨candidateSha sha256 worktree.tree, path.text⟩ := by
  obtain ⟨-, -, attempt, path, body, -, hcomplete⟩ := counts_of_run hreal hrun
  rw [complete, Outcome.returned.injEq] at hcomplete
  obtain ⟨rfl, hworktree⟩ := hcomplete
  obtain rfl : attempt.tested = worktree := by simpa using hworktree
  exact ⟨rfl, path, rfl⟩

variable (sha256 put) in
/-- No file under the candidate's fingerprint leaks a secret. -/
def LeakFree (input : StageInput) : Prop :=
  ∀ result worktree,
    run sha256 put input = .returned result (some worktree) →
    result.status = .completed →
    ∀ file ∈ worktree.tree.files.rows, leakedSecret file.2 = false

/-- In the worktree that the self-test of the counted attempt leaves, nothing
leaks outside of the one file as it was scanned before that test. -/
def StageInput.UnscannedClean (input : StageInput) : Prop :=
  ∀ attempt path body, input.Counts attempt path body →
    ∀ file ∈ attempt.tested.tree.files.rows, file ≠ (path, body) →
      leakedSecret file.2 = false

/-- A candidate of a real executor is free of secrets exactly when the files
that the stage never scanned are. -/
theorem leakFree_iff (sha256 put : List UInt8 → String) (input : StageInput)
    (hreal : input.Real) :
    LeakFree sha256 put input ↔
      (input.fresh = true → input.broker = true → input.UnscannedClean) := by
  constructor
  · intro hfree hfresh hbroker attempt path body hcounts file hfile _
    have hrun := run_of_counts sha256 put hreal hfresh hbroker hcounts
    exact hfree _ _ hrun rfl file hfile
  · intro hclean result worktree hrun _ file hfile
    obtain ⟨hfresh, hbroker, attempt, path, body, hcounts, hcomplete⟩ :=
      counts_of_run hreal hrun
    rw [complete, Outcome.returned.injEq, Option.some.injEq] at hcomplete
    obtain ⟨-, rfl⟩ := hcomplete
    by_cases hscanned : file = (path, body)
    · subst hscanned
      exact hcounts.scanned_clean
    · exact hclean hfresh hbroker attempt path body hcounts file hfile hscanned

end Completed

namespace HarvestWitness

def app : PosixPath := ⟨"src/app.py", by decide, by decide⟩

def config : PosixPath := ⟨"src/config.py", by decide, by decide⟩

/-- A program and a settings file with a token in it. -/
def withToken : ManagedWorktree where
  tree :=
    { files := ⟨[(app, utf8 "print(1)"), (config, utf8 "GITHUB_TOKEN=abc")],
        by decide⟩
      apart := by decide }
  isLink _ := false

/-- The program alone. -/
def plain : ManagedWorktree where
  tree := { files := ⟨[(app, utf8 "print(1)")], by decide⟩, apart := by decide }
  isLink _ := false

/-- No tests, and a program that `--check` accepts. -/
def checked : SelfTest.Answers where
  tests := false
  pytest := .unavailable
  app := true
  checked := (some 0, "")
  bare := (none, "timeout")

/-- A run of an executor that leaves the worktree in its first attempt. -/
def runOn (worktree : ManagedWorktree) : StageInput where
  runtime := some "opencode"
  fresh := true
  fakeWrite := none
  broker := true
  first := { launched := some worktree, answers := checked, tested := worktree }
  second := { launched := none, answers := checked, tested := worktree }

theorem runOn_real (worktree : ManagedWorktree) : (runOn worktree).Real :=
  ⟨"opencode", rfl, by decide⟩

theorem runOn_counts (worktree : ManagedWorktree) (path : PosixPath)
    (body : List UInt8)
    (hpick : pickImplementation worktree = some path)
    (hbody : worktree.tree.files.get? path = some body)
    (hclean : leakedSecret body = false) :
    (runOn worktree).Counts (runOn worktree).first path body :=
  .first ⟨worktree, rfl, hpick, hbody, hclean⟩ rfl

/-- The token is in the candidate. -/
theorem completes_with_token :
    ¬ LeakFree (fun _ => "") (fun _ => "art_1") (runOn withToken) := by
  intro hfree
  have hrun := run_of_counts (fun _ => "") (fun _ => "art_1")
    (runOn_real withToken) rfl rfl
    (runOn_counts withToken app (utf8 "print(1)") (by decide) (by decide)
      (by decide +kernel))
  have hmem : (config, utf8 "GITHUB_TOKEN=abc") ∈ withToken.tree.files.rows :=
    List.mem_cons_of_mem _ List.mem_cons_self
  have hleak : leakedSecret (utf8 "GITHUB_TOKEN=abc") = true := by
    decide +kernel
  rw [complete] at hrun
  exact absurd hleak (by simp [hfree _ _ hrun rfl _ hmem])

theorem leakFree_plain :
    (runOn plain).Real ∧
    (LeakFree (fun _ => "") (fun _ => "art_1") (runOn plain) ↔
      ((runOn plain).fresh = true → (runOn plain).broker = true →
        (runOn plain).UnscannedClean)) :=
  ⟨runOn_real plain, leakFree_iff _ _ (runOn plain) (runOn_real plain)⟩

end HarvestWitness

end DevelopmentStage

end HermesPipeline
