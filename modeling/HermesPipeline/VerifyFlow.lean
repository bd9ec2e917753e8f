/-
The verification of an integration candidate.  The candidate is staged into a
sandbox and its own scripts run there, an end-to-end runtime and a reviewer
leave their verdicts as files, and a candidate that passes is published.  What
the programs in the sandbox write and answer is open.
-/
import HermesPipeline.Delivery
import HermesPipeline.Development
import HermesPipeline.Lib.Program

namespace HermesPipeline

open Lib

namespace VerifyFlow

open SelfTest

/-- The files at the top of the sandbox by name, as texts. -/
abbrev Files := Dict String String

/-- What a program does to these files: it writes a text under a name, or it
removes the file. -/
abbrev Writes := List (String × Option String)

def applyWrites (files : Files) (writes : Writes) : Files :=
  writes.foldl
    (fun files write =>
      match write.2 with
      | some text => files.set write.1 text
      | none => files.pop write.1)
    files

/-- The last thing that was done to a file. -/
def lastWrite? (writes : Writes) (name : String) : Option (Option String) :=
  (writes.reverse.find? fun write => write.1 = name).map Prod.snd

theorem applyWrites_append (files : Files) (first second : Writes) :
    applyWrites files (first ++ second) = applyWrites (applyWrites files first) second :=
  List.foldl_append

/-- A file holds what was last done to it. -/
theorem get?_applyWrites (files : Files) (writes : Writes) (name : String) :
    (applyWrites files writes).get? name =
      (lastWrite? writes name).getD (files.get? name) := by
  induction writes using List.reverseRecOn with
  | nil => rfl
  | append_singleton writes write ih =>
      obtain ⟨written, content⟩ := write
      rw [applyWrites_append, lastWrite?, List.reverse_append, List.reverse_singleton,
        List.singleton_append, List.find?_cons]
      by_cases hname : written = name
      · subst hname
        cases content <;> simp [applyWrites]
      · have hother : (applyWrites (applyWrites files writes) [(written, content)]).get?
            name = (applyWrites files writes).get? name := by
          cases content with
          | some text => exact Dict.get?_set_of_ne _ _ (Ne.symm hname)
          | none => exact Dict.get?_pop_of_ne _ (Ne.symm hname)
        rw [hother, ih, lastWrite?]
        simp [hname]

/-- What is written to a file does not depend on the other files. -/
theorem get?_applyWrites_congr {files files' : Files} {name : String}
    (hsame : files.get? name = files'.get? name) (writes : Writes) :
    (applyWrites files writes).get? name = (applyWrites files' writes).get? name := by
  rw [get?_applyWrites, get?_applyWrites, hsame]

inductive RuntimeStatus
  | fake
  | unsupported
  | completed
  | cancelled
  | failed
deriving Repr, DecidableEq

/-- How `launch` raises: an `OSError`, a `RuntimeError` or a `ValueError`, which
the flow expects, or anything else. -/
inductive Fault
  | expected
  | other
deriving Repr, DecidableEq

/-- One launch of a runtime: what is written in the sandbox, and how it ends. -/
structure Launch where
  writes : Writes
  ended : Except Fault RuntimeStatus

structure RuntimeOutcome where
  detail : String
  finalText : String
deriving Repr, DecidableEq

/-- What happens to a candidate in the sandbox: whether its tree could be
copied, what its tests and its program answer and write, and whether their
output could be noted down.  Whether there is a pytest and whether the program
takes `--check` are facts that the code only guesses from the answers. -/
structure Staging where
  copied : Bool
  pytestInstalled : Bool
  takesCheck : Bool
  answers : SelfTest.Answers
  writes : Writes
  noted : Bool

/-- How `sandbox.create` ends. -/
inductive Created
  | done
  | noDirectory
  | noFile
deriving Repr, DecidableEq

/-- A flow with what its collaborators do in one run.  Where an answer is
optional, none stands for a call that raises. -/
structure Flow where
  bindings : Dict String (String × String)
  projectId : String := "prj_local"
  pipelineId : String := "pl_local"
  passedSha : Option String
  /-- The files of a sandbox that is there before the run. -/
  sandbox : Option Files
  created : Created
  /-- None without a candidate root. -/
  candidate : Option Staging
  /-- What the served program writes. -/
  served : Option Writes
  e2e : Launch
  collected : Option RuntimeOutcome
  e2ePut : Option String
  reviewer : Launch
  acceptPut : Option String
  published : Option DeliveryRecord
  /-- `rmtree` could remove every file. -/
  removes : Bool

inductive Status
  | ready
  | rework
  | denied
  | drift
deriving Repr, DecidableEq

structure VerifyResult where
  status : Status
  e2eId : Option String := none
  acceptanceId : Option String := none
  delivered : Bool := false
  delivery : Option DeliveryRecord := none
  feedback : String := ""
deriving Repr, DecidableEq

/-- Why a run ends before it publishes: an exception, or a rework. -/
inductive Stop
  | raised
  | rework (e2eId : Option String) (feedback : String)
deriving Repr, DecidableEq

/-- `str.upper` of one character, on the characters that turn into letters of
the two verdicts. -/
def upperChar (letter : Char) : List Char :=
  match letter with
  | 'ß' => ['S', 'S']
  | 'ı' => ['I']
  | 'ſ' => ['S']
  | 'ẚ' => ['A', 'ʾ']
  | 'ﬀ' => ['F', 'F']
  | 'ﬁ' => ['F', 'I']
  | 'ﬂ' => ['F', 'L']
  | 'ﬃ' => ['F', 'F', 'I']
  | 'ﬄ' => ['F', 'F', 'L']
  | 'ﬅ' => ['S', 'T']
  | 'ﬆ' => ['S', 'T']
  | letter => [letter.toUpper]

/-- `text.strip().upper().startswith(word)`. -/
def startsUpper (word text : String) : Bool :=
  word.toList.isPrefixOf ((pyStrip text).toList.flatMap upperChar)

/-- `_named_feedback`. -/
def namedFeedback (files : Files) (name : String) : String := files.getD name ""

/-- `_script_feedback`. -/
def scriptFeedback (files : Files) : String :=
  orElse (pyStrip (namedFeedback files "SCRIPT_OUT")) "scripted verify failed"

/-- `_verdict`. -/
def verdict (files : Files) (name : String) : String :=
  match files.get? name with
  | none => "missing"
  | some text =>
      if startsUpper "PASS" text then "pass"
      else if startsUpper "FAIL" text then "fail"
      else "missing"

namespace Flow

variable (flow : Flow)

/-- The runtime that a role is bound to. -/
def runtime? (role : String) : Option String :=
  (flow.bindings.get? role).map Prod.fst

/-- The role is bound to a runtime that is not the fake one. -/
def real (role : String) : Bool :=
  match flow.runtime? role with
  | some runtime => runtime ≠ "fake"
  | none => false

/-- `_e2e_feedback`. -/
def e2eFeedback : Option String :=
  flow.collected.map fun outcome => pyStrip outcome.detail

/-- Whether `_e2e_payload` finds a payload. -/
def hasPayload : Bool := !flow.real "e2e" || flow.collected.isSome

/-- `_run_staged_candidate`; none when it raises. -/
def runStagedCandidate (files : Files) : Option (String × Files) :=
  if !flow.real "e2e" then some ("skip", files)
  else
    match flow.candidate with
    | none => some ("none", files)
    | some staging =>
        if !staging.copied then none
        else
          let files := applyWrites files staging.writes
          let answers := staging.answers
          let note status chunks :=
            if staging.noted then
              some (status, files.set "SCRIPT_OUT" (joinLines chunks))
            else none
          let tested := runPytest answers.pytest
          let chunks := if answers.tests then [tested.2] else []
          if answers.tests && tested.1 ≠ some 0 then note "failed" chunks
          else if answers.app then
            let ran := runApp answers.checked answers.bare
            note ran.1 (chunks ++ [ran.2])
          else if answers.tests then note "passed" chunks
          else some ("none", files)

/-- The scripted part of a run. -/
def scriptStage (files : Files) : Except Stop (String × Files) :=
  match flow.runStagedCandidate files with
  | none => .error .raised
  | some (scripted, files) =>
      if scripted = "failed" then
        .error (.rework none (scriptFeedback files))
      else if flow.real "e2e" && ["timeout", "none", "skip"].contains scripted then
        .error (.rework none
          (orElse (scriptFeedback files) "scripted e2e unavailable"))
      else .ok (scripted, files)

/-- A rework with the feedback of the end-to-end runtime first. -/
def e2eRework (otherwise : String) : Stop :=
  match flow.e2eFeedback with
  | none => .raised
  | some feedback => .rework none (orElse feedback otherwise)

/-- What the end-to-end runtime finds is the sandbox after the served program
has started. -/
def e2eStage (files : Files) : Except Stop (String × Files) :=
  match (if flow.real "e2e" then flow.served else some []) with
  | none => .error .raised
  | some served =>
      let files := applyWrites (applyWrites files served) flow.e2e.writes
      match flow.e2e.ended with
      | .error .other => .error .raised
      | .error .expected => .error (.rework none "e2e runtime did not complete")
      | .ok status =>
          let found := verdict files "RESULT.md"
          if status ≠ .completed && !(["pass", "fail"].contains found) then
            .error (flow.e2eRework "e2e runtime did not complete")
          else if flow.real "e2e" && status ≠ .completed then
            .error (flow.e2eRework
              (orElse (namedFeedback files "RESULT.md") "e2e RESULT.md is not PASS"))
          else if flow.real "e2e" && !(["pass", "missing"].contains found) then
            .error (.rework none
              (orElse (namedFeedback files "RESULT.md") "e2e RESULT.md is not PASS"))
          else if !flow.hasPayload then .error .raised
          else
            match flow.e2ePut with
            | none => .error .raised
            | some e2eId => .ok (e2eId, files)

/-- The review, which a fake reviewer skips after a scripted pass. -/
def reviewStage (scripted e2eId : String) (files : Files) : Except Stop String :=
  let accept :=
    match flow.acceptPut with
    | none => .error .raised
    | some acceptanceId => .ok acceptanceId
  let rework feedback := .error (.rework (some e2eId) feedback)
  if scripted = "passed" && !flow.real "reviewer" then accept
  else
    let files := applyWrites files flow.reviewer.writes
    match flow.reviewer.ended with
    | .error .other => .error .raised
    | .error .expected => rework "reviewer runtime did not complete"
    | .ok status =>
        let found := verdict files "REVIEW.md"
        if status ≠ .completed && !(["pass", "fail"].contains found) then
          rework "reviewer runtime did not complete"
        else if flow.real "reviewer" && found ≠ "pass" then
          rework (orElse (namedFeedback files "REVIEW.md") "REVIEW.md is not PASS")
        else accept

/-- The body of a run up to its publication: the two artifacts. -/
def gate (files : Files) : Except Stop (String × String) := do
  let script ← flow.scriptStage files
  let e2e ← flow.e2eStage script.2
  let acceptanceId ← flow.reviewStage script.1 e2e.1 e2e.2
  pure (e2e.1, acceptanceId)

end Flow

/-- What a run leaves: its result or none for an exception, the request that it
published, whether the sandbox is there, and the head that passed. -/
structure Exit where
  result : Option VerifyResult
  published : Option DeliveryRequest := none
  sandboxLeft : Bool
  passedSha : Option String

namespace Flow

variable (flow : Flow) (sha : String)

/-- The sandbox after `create`. -/
def fresh : Files := (flow.sandbox.getD .empty).set "INTEGRATION_SHA" sha

def request : DeliveryRequest :=
  { name := sha, projectId := flow.projectId, pipelineId := flow.pipelineId }

/-- The role that a run needs is not bound. -/
def unbound : Bool :=
  (flow.runtime? "e2e").isNone || (flow.runtime? "reviewer").isNone

def drifted : Bool := flow.passedSha.isSome && flow.passedSha ≠ some sha

/-- `VerifyFlow.run`. -/
def run : Exit :=
  let untouched status : Exit :=
    { result := some { status := status }
      sandboxLeft := flow.sandbox.isSome
      passedSha := flow.passedSha }
  if flow.unbound then untouched .denied
  else if flow.drifted sha then untouched .drift
  else
    match flow.created with
    | .noDirectory =>
        { result := none
          sandboxLeft := flow.sandbox.isSome
          passedSha := flow.passedSha }
    | .noFile =>
        { result := none, sandboxLeft := true, passedSha := flow.passedSha }
    | .done =>
        let stopped result : Exit :=
          { result := result
            sandboxLeft := !flow.removes
            passedSha := flow.passedSha }
        match flow.gate (flow.fresh sha) with
        | .error .raised => stopped none
        | .error (.rework e2eId feedback) =>
            stopped (some { status := .rework, e2eId := e2eId, feedback := feedback })
        | .ok (e2eId, acceptanceId) =>
            match flow.published with
            | none => { stopped none with published := some (flow.request sha) }
            | some record =>
                { result := some
                    { status := .ready
                      e2eId := some e2eId
                      acceptanceId := some acceptanceId
                      delivered := record.ok
                      delivery := some record }
                  published := some (flow.request sha)
                  sandboxLeft := !flow.removes
                  passedSha := some sha }

end Flow

section Specs

variable {flow : Flow} {sha : String} {files files' : Files}
  {scripted e2eId acceptanceId : String}

theorem verdict_cases (files : Files) (name : String) :
    verdict files name = "pass" ∨ verdict files name = "fail" ∨
      verdict files name = "missing" := by
  rw [verdict]
  cases files.get? name with
  | none => exact .inr (.inr rfl)
  | some text =>
      simp only
      split
      · exact .inl rfl
      · split
        · exact .inr (.inl rfl)
        · exact .inr (.inr rfl)

theorem runApp_cases (checked bare : PythonAnswer) :
    (runApp checked bare).1 = "passed" ∨ (runApp checked bare).1 = "timeout" ∨
      (runApp checked bare).1 = "failed" := by
  rw [runApp]
  repeat' split
  all_goals simp

/-- With a real end-to-end runtime the scripts are run. -/
theorem runStagedCandidate_cases (hreal : flow.real "e2e" = true)
    (hstaged : flow.runStagedCandidate files = some (scripted, files')) :
    scripted = "passed" ∨ scripted = "timeout" ∨ scripted = "failed" ∨
      scripted = "none" := by
  rw [Flow.runStagedCandidate, hreal] at hstaged
  simp only [Bool.not_true, Bool.false_eq_true, if_false] at hstaged
  cases hcandidate : flow.candidate with
  | none =>
      rw [hcandidate] at hstaged
      simp only [Option.some.injEq, Prod.mk.injEq] at hstaged
      exact .inr (.inr (.inr hstaged.1.symm))
  | some staging =>
      rw [hcandidate] at hstaged
      simp only at hstaged
      split at hstaged
      · simp at hstaged
      split at hstaged
      · split at hstaged
        · simp only [Option.some.injEq, Prod.mk.injEq] at hstaged
          exact .inr (.inr (.inl hstaged.1.symm))
        · simp at hstaged
      split at hstaged
      · split at hstaged
        · simp only [Option.some.injEq, Prod.mk.injEq] at hstaged
          rw [← hstaged.1]
          rcases runApp_cases staging.answers.checked staging.answers.bare
            with hpassed | htimeout | hfailed
          · exact .inl hpassed
          · exact .inr (.inl htimeout)
          · exact .inr (.inr (.inl hfailed))
        · simp at hstaged
      split at hstaged
      · split at hstaged
        · simp only [Option.some.injEq, Prod.mk.injEq] at hstaged
          exact .inl hstaged.1.symm
        · simp at hstaged
      · simp only [Option.some.injEq, Prod.mk.injEq] at hstaged
        exact .inr (.inr (.inr hstaged.1.symm))

namespace Flow

/-- The scripts of the candidate do not stop a run. -/
def ScriptPasses (flow : Flow) (files : Files) (scripted : String)
    (files' : Files) : Prop :=
  flow.runStagedCandidate files = some (scripted, files') ∧
    scripted ≠ "failed" ∧ (flow.real "e2e" = true → scripted = "passed")

/-- The end-to-end runtime does not stop a run, which goes on with the files. -/
def E2ePasses (flow : Flow) (files : Files) (e2eId : String)
    (files' : Files) : Prop :=
  ∃ served status,
    (if flow.real "e2e" then flow.served else some []) = some served ∧
    files' = applyWrites (applyWrites files served) flow.e2e.writes ∧
    flow.e2e.ended = .ok status ∧
    (status ≠ .completed →
      flow.real "e2e" = false ∧ verdict files' "RESULT.md" ≠ "missing") ∧
    (flow.real "e2e" = true → verdict files' "RESULT.md" ≠ "fail") ∧
    flow.hasPayload = true ∧ flow.e2ePut = some e2eId

/-- The review does not stop a run. -/
def ReviewPasses (flow : Flow) (scripted : String) (files : Files)
    (acceptanceId : String) : Prop :=
  flow.acceptPut = some acceptanceId ∧
    (scripted = "passed" ∧ flow.real "reviewer" = false ∨
      ∃ status, flow.reviewer.ended = .ok status ∧
        (status ≠ .completed →
          verdict (applyWrites files flow.reviewer.writes) "REVIEW.md" ≠
            "missing") ∧
        (flow.real "reviewer" = true →
          verdict (applyWrites files flow.reviewer.writes) "REVIEW.md" = "pass"))

theorem scriptStage_ok_iff :
    flow.scriptStage files = .ok (scripted, files') ↔
      flow.ScriptPasses files scripted files' := by
  rw [scriptStage, ScriptPasses]
  cases hstaged : flow.runStagedCandidate files with
  | none => simp
  | some staged =>
      obtain ⟨status, left⟩ := staged
      simp only [Option.some.injEq, Prod.mk.injEq]
      constructor
      · intro hok
        split at hok
        · simp at hok
        rename_i hfailed
        split at hok
        · simp at hok
        rename_i hstopped
        simp only [Except.ok.injEq, Prod.mk.injEq] at hok
        obtain ⟨rfl, rfl⟩ := hok
        refine ⟨⟨rfl, rfl⟩, hfailed, fun hreal => ?_⟩
        rcases runStagedCandidate_cases hreal hstaged with h | h | h | h
        · exact h
        · simp [hreal, h] at hstopped
        · exact absurd h hfailed
        · simp [hreal, h] at hstopped
      · rintro ⟨⟨rfl, rfl⟩, hfailed, hpassed⟩
        rw [if_neg hfailed]
        cases hreal : flow.real "e2e" with
        | false => simp
        | true =>
            rw [hpassed hreal]
            simp

theorem e2eStage_ok_iff :
    flow.e2eStage files = .ok (e2eId, files') ↔
      flow.E2ePasses files e2eId files' := by
  rw [e2eStage, E2ePasses]
  cases hserved : (if flow.real "e2e" then flow.served else some []) with
  | none => simp
  | some served =>
      simp only [Option.some.injEq, exists_and_left, exists_eq_left']
      cases hended : flow.e2e.ended with
      | error fault => cases fault <;> simp
      | ok status =>
          simp only [Except.ok.injEq, exists_eq_left']
          constructor
          · intro hok
            split at hok
            · simp at hok
            rename_i hfound
            split at hok
            · simp at hok
            rename_i hcompleted
            split at hok
            · simp at hok
            rename_i hresult
            split at hok
            · simp at hok
            rename_i hpayload
            cases hput : flow.e2ePut with
            | none => simp [hput] at hok
            | some artifact =>
                simp only [hput, Except.ok.injEq, Prod.mk.injEq] at hok
                obtain ⟨rfl, rfl⟩ := hok
                refine ⟨rfl, fun hne => ?_, fun hreal => ?_, by simpa using hpayload,
                  rfl⟩
                · constructor
                  · by_contra hreal
                    exact hcompleted (by simp [hne, hreal])
                  · intro hmissing
                    exact hfound (by simp [hne, hmissing])
                · intro hfail
                  exact hresult (by simp [hreal, hfail])
          · rintro ⟨rfl, hfake, hresult, hpayload, hput⟩
            rw [if_neg, if_neg, if_neg, if_neg, hput]
            · simp [hpayload]
            · intro hstopped
              simp only [Bool.and_eq_true, Bool.not_eq_true',
                List.contains_eq_mem, decide_eq_false_iff_not, List.mem_cons,
                List.not_mem_nil, or_false, not_or] at hstopped
              obtain ⟨hreal, hne⟩ := hstopped
              rcases verdict_cases (applyWrites (applyWrites files served)
                flow.e2e.writes) "RESULT.md" with h | h | h
              · exact hne.1 h
              · exact hresult hreal h
              · exact hne.2 h
            · intro hstopped
              simp only [Bool.and_eq_true, decide_eq_true_eq] at hstopped
              simp [(hfake hstopped.2).1] at hstopped
            · intro hstopped
              simp only [Bool.and_eq_true, decide_eq_true_eq, Bool.not_eq_true',
                List.contains_eq_mem, decide_eq_false_iff_not, List.mem_cons,
                List.not_mem_nil, or_false, not_or] at hstopped
              obtain ⟨hne, hnot⟩ := hstopped
              rcases verdict_cases (applyWrites (applyWrites files served)
                flow.e2e.writes) "RESULT.md" with h | h | h
              · exact hnot.1 h
              · exact hnot.2 h
              · exact (hfake hne).2 h

theorem reviewStage_ok_iff :
    flow.reviewStage scripted e2eId files = .ok acceptanceId ↔
      flow.ReviewPasses scripted files acceptanceId := by
  rw [reviewStage, ReviewPasses]
  by_cases hskipped : scripted = "passed" ∧ flow.real "reviewer" = false
  · rw [if_pos (by simp [hskipped.1, hskipped.2])]
    cases flow.acceptPut <;> simp [hskipped]
  · rw [if_neg (by simpa using hskipped)]
    simp only [hskipped, false_or]
    cases hended : flow.reviewer.ended with
    | error fault => cases fault <;> simp
    | ok status =>
        simp only [Except.ok.injEq, exists_eq_left']
        constructor
        · intro hok
          split at hok
          · simp at hok
          rename_i hfound
          split at hok
          · simp at hok
          rename_i hreview
          cases hput : flow.acceptPut with
          | none => simp [hput] at hok
          | some artifact =>
              simp only [hput, Except.ok.injEq] at hok
              refine ⟨congrArg some hok, fun hne hmissing => ?_, fun hreal => ?_⟩
              · exact hfound (by simp [hne, hmissing])
              · simpa [hreal] using hreview
        · rintro ⟨hput, hfound, hreview⟩
          rw [if_neg, if_neg, hput]
          · intro hstopped
            simp only [Bool.and_eq_true, decide_eq_true_eq] at hstopped
            exact hstopped.2 (hreview hstopped.1)
          · intro hstopped
            simp only [Bool.and_eq_true, decide_eq_true_eq, Bool.not_eq_true',
              List.contains_eq_mem, decide_eq_false_iff_not, List.mem_cons,
              List.not_mem_nil, or_false, not_or] at hstopped
            obtain ⟨hne, hnot⟩ := hstopped
            rcases verdict_cases (applyWrites files flow.reviewer.writes)
              "REVIEW.md" with h | h | h
            · exact hnot.1 h
            · exact hnot.2 h
            · exact hfound hne h

/-- The run gets to the review, which finds the files. -/
def Reaches (flow : Flow) (sha scripted e2eId : String) (files : Files) : Prop :=
  flow.unbound = false ∧ flow.drifted sha = false ∧ flow.created = .done ∧
    ∃ staged, flow.ScriptPasses (flow.fresh sha) scripted staged ∧
      flow.E2ePasses staged e2eId files

/-- The run gets to its publication. -/
def Admits (flow : Flow) (sha e2eId acceptanceId : String) : Prop :=
  ∃ scripted files, flow.Reaches sha scripted e2eId files ∧
    flow.ReviewPasses scripted files acceptanceId

theorem gate_ok_iff :
    flow.gate files = .ok (e2eId, acceptanceId) ↔
      ∃ scripted staged files', flow.ScriptPasses files scripted staged ∧
        flow.E2ePasses staged e2eId files' ∧
        flow.ReviewPasses scripted files' acceptanceId := by
  simp only [gate, bind_eq_ok, pure, Except.pure, Except.ok.injEq, Prod.mk.injEq,
    Prod.exists, scriptStage_ok_iff, e2eStage_ok_iff, reviewStage_ok_iff]
  constructor
  · rintro ⟨scripted, staged, hscript, _, files', he2e, _, hreview, rfl, rfl⟩
    exact ⟨scripted, staged, files', hscript, he2e, hreview⟩
  · rintro ⟨scripted, staged, files', hscript, he2e, hreview⟩
    exact ⟨scripted, staged, hscript, e2eId, files', he2e, acceptanceId, hreview,
      rfl, rfl⟩

theorem admits_iff :
    flow.Admits sha e2eId acceptanceId ↔
      flow.unbound = false ∧ flow.drifted sha = false ∧ flow.created = .done ∧
        flow.gate (flow.fresh sha) = .ok (e2eId, acceptanceId) := by
  rw [Admits, gate_ok_iff]
  constructor
  · rintro ⟨scripted, files, ⟨hbound, hsame, hcreated, staged, hscript, he2e⟩,
      hreview⟩
    exact ⟨hbound, hsame, hcreated, scripted, staged, files, hscript, he2e, hreview⟩
  · rintro ⟨hbound, hsame, hcreated, scripted, staged, files, hscript, he2e, hreview⟩
    exact ⟨scripted, files, ⟨hbound, hsame, hcreated, staged, hscript, he2e⟩, hreview⟩

/-- A run publishes exactly when it gets there. -/
theorem published_iff :
    (flow.run sha).published.isSome = true ↔
      ∃ e2eId acceptanceId, flow.Admits sha e2eId acceptanceId := by
  simp only [admits_iff]
  rw [run]
  cases hbound : flow.unbound with
  | true => simp
  | false =>
      cases hsame : flow.drifted sha with
      | true => simp
      | false =>
          simp only [Bool.false_eq_true, if_false, true_and]
          cases flow.created with
          | noDirectory => simp
          | noFile => simp
          | done =>
              simp only [true_and]
              cases flow.gate (flow.fresh sha) with
              | error stop => cases stop <;> simp
              | ok ids =>
                  obtain ⟨e2eId, acceptanceId⟩ := ids
                  cases flow.published <;> simp

/-- A run is READY exactly when it gets to its publication, which returns. -/
theorem ready_iff {result : VerifyResult} :
    (flow.run sha).result = some result ∧ result.status = .ready ↔
      ∃ e2eId acceptanceId record, flow.Admits sha e2eId acceptanceId ∧
        flow.published = some record ∧
        result =
          { status := .ready
            e2eId := some e2eId
            acceptanceId := some acceptanceId
            delivered := record.ok
            delivery := some record } := by
  simp only [admits_iff]
  rw [run]
  cases hbound : flow.unbound with
  | true =>
      simp only [if_true, Option.some.injEq, Bool.true_eq_false, false_and,
        exists_false, iff_false, not_and]
      rintro rfl hstatus
      cases hstatus
  | false =>
      cases hsame : flow.drifted sha with
      | true =>
          simp only [if_true, Bool.false_eq_true, if_false, Option.some.injEq,
            Bool.true_eq_false, false_and, and_false, exists_false, iff_false,
            not_and]
          rintro rfl hstatus
          cases hstatus
      | false =>
          simp only [Bool.false_eq_true, if_false, true_and]
          cases flow.created with
          | noDirectory => simp
          | noFile => simp
          | done =>
              simp only [true_and]
              cases flow.gate (flow.fresh sha) with
              | error stop =>
                  cases stop with
                  | raised => simp
                  | rework e2eId feedback =>
                      simp only [Option.some.injEq, reduceCtorEq, false_and,
                        exists_false, iff_false, not_and]
                      rintro rfl hstatus
                      cases hstatus
              | ok ids =>
                  obtain ⟨e2eId, acceptanceId⟩ := ids
                  cases hpublished : flow.published with
                  | none => simp
                  | some record =>
                      simp only [Option.some.injEq, Except.ok.injEq, Prod.mk.injEq]
                      constructor
                      · rintro ⟨rfl, -⟩
                        exact ⟨e2eId, acceptanceId, record, ⟨rfl, rfl⟩, rfl, rfl⟩
                      · rintro ⟨_, _, _, ⟨rfl, rfl⟩, rfl, rfl⟩
                        exact ⟨rfl, rfl⟩

end Flow

end Specs

def firstLine (text : String) : String :=
  String.ofList (text.toList.takeWhile (· ≠ '\n'))

/-- The first letters of a text are FAIL, whatever marks and blanks stand before
them. -/
def saysFail (text : String) : Bool :=
  ((text.toList.dropWhile fun c => !c.isAlpha).take 4).map Char.toUpper =
    ['F', 'A', 'I', 'L']

namespace Staging

variable (staging : Staging)

/-- The scripted check passed: the tests ended with 0 where there is a pytest to
run them, the program ended with 0, with `--check` if it takes it, and one of the
two was run. -/
structure Passed : Prop where
  tests : staging.answers.tests = true → staging.pytestInstalled = true →
    ∃ text, staging.answers.pytest = .ended 0 text
  app : staging.answers.app = true → staging.answers.checked.1 = some 0 ∨
    staging.takesCheck = false ∧ staging.answers.bare.1 = some 0
  ran : staging.answers.tests = true ∧ staging.pytestInstalled = true ∨
    staging.answers.app = true

/-- What the flow takes for a scripted check that passed. -/
structure TakenAsPassed : Prop where
  copied : staging.copied = true
  noted : staging.noted = true
  tests : staging.answers.tests = true → (runPytest staging.answers.pytest).1 = some 0
  app : staging.answers.app = true →
    (runApp staging.answers.checked staging.answers.bare).1 = "passed"
  any : staging.answers.tests = true ∨ staging.answers.app = true

/-- What is noted down of a check that passed. -/
def scriptOut : String :=
  joinLines ((if staging.answers.tests then [(runPytest staging.answers.pytest).2]
      else []) ++
    if staging.answers.app then
      [(runApp staging.answers.checked staging.answers.bare).2]
    else [])

end Staging

namespace Flow

variable (flow : Flow) (sha : String)

/-- What is written before the review, one program after the other. -/
def writesBefore : Writes :=
  (flow.candidate.map Staging.writes).getD [] ++ flow.served.getD [] ++ flow.e2e.writes

/-- The text of RESULT.md when the end-to-end runtime has ended. -/
def resultText : Option String :=
  (applyWrites (flow.fresh sha) flow.writesBefore).get? "RESULT.md"

/-- The text of REVIEW.md when the reviewer has ended. -/
def reviewText : Option String :=
  (applyWrites (flow.fresh sha) (flow.writesBefore ++ flow.reviewer.writes)).get?
    "REVIEW.md"

/-- The reviewer ended well, and the review is its own and says PASS. -/
def Approved : Prop :=
  flow.reviewer.ended = .ok .completed ∧
    ∃ text, lastWrite? flow.reviewer.writes "REVIEW.md" = some (some text) ∧
      firstLine text = "PASS"

/-- What READY with real runtimes is to rest on. -/
structure Sound : Prop where
  scripts : ∃ staging, flow.candidate = some staging ∧ staging.Passed
  e2e : flow.e2e.ended = .ok .completed
  result : ∀ text, flow.resultText sha = some text → saysFail text = false
  review : flow.Approved

/-- READY with real runtimes rests on the scripts, on the end-to-end run and
its verdict, and on the review. -/
def GateSound : Prop :=
  ∀ result, (flow.run sha).result = some result → result.status = .ready →
    flow.real "e2e" = true → flow.real "reviewer" = true → flow.Sound sha

/-- The answers that let a candidate through, before real runtimes. -/
structure LetsThrough : Prop where
  bound : flow.unbound = false
  same : flow.drifted sha = false
  created : flow.created = .done
  scripts : ∃ staging, flow.candidate = some staging ∧ staging.TakenAsPassed
  served : flow.served.isSome = true
  e2e : flow.e2e.ended = .ok .completed
  result : ∀ text, flow.resultText sha = some text →
    startsUpper "PASS" text = true ∨ startsUpper "FAIL" text = false
  payload : flow.hasPayload = true
  e2ePut : flow.e2ePut.isSome = true
  reviewer : ∃ status, flow.reviewer.ended = .ok status
  review : ∃ text, flow.reviewText sha = some text ∧ startsUpper "PASS" text = true
  acceptPut : flow.acceptPut.isSome = true
  published : flow.published.isSome = true

/-- The answers that are taken for a pass and are none. -/
inductive FalsePass : Prop
  /-- The tests fail, with an output as if there were no pytest. -/
  | tests {staging : Staging} {code : Int} {text : String}
      (candidate : flow.candidate = some staging)
      (tests : staging.answers.tests = true)
      (installed : staging.pytestInstalled = true)
      (pytest : staging.answers.pytest = .ended code text)
      (failed : code ≠ 0) (reads : pytestUnavailable text = true)
  /-- There are tests and no pytest, and no program: nothing was run. -/
  | idle {staging : Staging} (candidate : flow.candidate = some staging)
      (installed : staging.pytestInstalled = false)
      (app : staging.answers.app = false)
  /-- The program fails its own check, with an answer as if it did not know the
  option, and ends well without it. -/
  | app {staging : Staging} {code : Int} (candidate : flow.candidate = some staging)
      (app : staging.answers.app = true) (takes : staging.takesCheck = true)
      (checked : staging.answers.checked.1 = some code) (failed : code ≠ 0)
      (bare : staging.answers.bare.1 = some 0)
  /-- RESULT.md says FAIL behind a mark that `strip` keeps. -/
  | result {text : String} (result : flow.resultText sha = some text)
      (fails : saysFail text = true)
  /-- The review was left by a reviewer that did not complete. -/
  | status {status : RuntimeStatus} (ended : flow.reviewer.ended = .ok status)
      (incomplete : status ≠ .completed)
  /-- The review was left by another program. -/
  | foreign (wrote : ∀ text,
      lastWrite? flow.reviewer.writes "REVIEW.md" ≠ some (some text))
  /-- The first line of the review is not PASS alone. -/
  | line {text : String}
      (wrote : lastWrite? flow.reviewer.writes "REVIEW.md" = some (some text))
      (first : firstLine text ≠ "PASS")

/-- No answer that lets a candidate through is a false pass. -/
def NoFalsePass : Prop :=
  flow.real "e2e" = true → flow.real "reviewer" = true → flow.LetsThrough sha →
    ¬ flow.FalsePass sha

def PublishesWhenReady : Prop :=
  (flow.run sha).published.isSome = true ↔
    ∃ result, (flow.run sha).result = some result ∧ result.status = .ready

def SandboxRemoved : Prop := (flow.run sha).sandboxLeft = false

def PublishReturns : Prop :=
  (∃ e2eId acceptanceId, flow.Admits sha e2eId acceptanceId) →
    flow.published.isSome = true

/-- A run that creates no sandbox finds none; one that creates it can remove
all of it. -/
def SandboxFree : Prop :=
  (flow.unbound = true ∨ flow.drifted sha = true ∨ flow.created = .noDirectory →
      flow.sandbox = none) ∧
    (flow.unbound = false → flow.drifted sha = false →
      flow.created ≠ .noDirectory → flow.created = .done ∧ flow.removes = true)

end Flow

section Gate

variable {flow : Flow} {sha : String}

theorem verdict_eq_pass_iff {files : Files} {name : String} :
    verdict files name = "pass" ↔
      ∃ text, files.get? name = some text ∧ startsUpper "PASS" text = true := by
  rw [verdict]
  cases files.get? name with
  | none => simp
  | some text =>
      simp only [Option.some.injEq, exists_eq_left']
      by_cases hpass : startsUpper "PASS" text = true
      · simp [hpass]
      · simp only [hpass, Bool.false_eq_true, ↓reduceIte, iff_false]
        split <;> decide

theorem verdict_ne_fail_iff {files : Files} {name : String} :
    verdict files name ≠ "fail" ↔ ∀ text, files.get? name = some text →
      startsUpper "PASS" text = true ∨ startsUpper "FAIL" text = false := by
  rw [verdict]
  cases files.get? name with
  | none => simp
  | some text =>
      simp only [Option.some.injEq, forall_eq']
      by_cases hpass : startsUpper "PASS" text = true
      · simp [hpass]
      · by_cases hfail : startsUpper "FAIL" text = true
        · simp [hpass, hfail]
        · simp [hpass, hfail]

/-- The scripts of a candidate pass before a real runtime. -/
theorem runStagedCandidate_passed_iff (he2e : flow.real "e2e" = true)
    {files files' : Files} :
    flow.runStagedCandidate files = some ("passed", files') ↔
      ∃ staging, flow.candidate = some staging ∧ staging.TakenAsPassed ∧
        files' = (applyWrites files staging.writes).set "SCRIPT_OUT"
          staging.scriptOut := by
  rw [Flow.runStagedCandidate, he2e]
  simp only [Bool.not_true, Bool.false_eq_true, if_false]
  cases flow.candidate with
  | none => simp
  | some staging =>
      simp only [Option.some.injEq, exists_eq_left']
      constructor
      · intro hstaged
        split at hstaged
        · cases hstaged
        rename_i hcopied
        split at hstaged
        · split at hstaged <;> simp at hstaged
        rename_i htests
        simp only [Bool.and_eq_true, decide_eq_true_eq, not_and, not_not] at htests
        split at hstaged
        · next happ =>
            split at hstaged
            · next hnoted =>
                obtain ⟨hran, hfiles⟩ := Prod.mk.inj (Option.some.inj hstaged)
                refine ⟨⟨by simpa using hcopied, hnoted, htests, fun _ => hran,
                  Or.inr happ⟩, ?_⟩
                rw [← hfiles, Staging.scriptOut, if_pos happ]
            · cases hstaged
        · next happ =>
            split at hstaged
            · next hany =>
                split at hstaged
                · next hnoted =>
                    obtain ⟨-, hfiles⟩ := Prod.mk.inj (Option.some.inj hstaged)
                    refine ⟨⟨by simpa using hcopied, hnoted, htests,
                      fun hthere => absurd hthere happ, Or.inl hany⟩, ?_⟩
                    rw [← hfiles, Staging.scriptOut, if_pos hany, if_neg happ,
                      List.append_nil]
                · cases hstaged
            · simp at hstaged
      · rintro ⟨htaken, rfl⟩
        have htests : ¬ (staging.answers.tests &&
            decide ((runPytest staging.answers.pytest).1 ≠ some 0)) = true := by
          simpa using htaken.tests
        rw [if_neg (by simp [htaken.copied]), if_neg htests]
        by_cases happ : staging.answers.app = true
        · rw [if_pos happ, if_pos htaken.noted, htaken.app happ, Staging.scriptOut,
            if_pos happ]
        · have hany := htaken.any.resolve_right happ
          rw [if_neg happ, if_pos hany, if_pos htaken.noted, Staging.scriptOut,
            if_neg happ, List.append_nil]

/-- The files that a real run looks for verdicts in. -/
theorem resultText_eq {staging : Staging} {served : Writes}
    (hcandidate : flow.candidate = some staging) (hserved : flow.served = some served)
    (out : String) :
    (applyWrites (applyWrites ((applyWrites (flow.fresh sha) staging.writes).set
      "SCRIPT_OUT" out) served) flow.e2e.writes).get? "RESULT.md" =
        flow.resultText sha := by
  rw [Flow.resultText, Flow.writesBefore, hcandidate, hserved, applyWrites_append,
    applyWrites_append]
  apply get?_applyWrites_congr
  apply get?_applyWrites_congr
  exact Dict.get?_set_of_ne _ _ (by decide)

theorem reviewText_eq {staging : Staging} {served : Writes}
    (hcandidate : flow.candidate = some staging) (hserved : flow.served = some served)
    (out : String) :
    (applyWrites (applyWrites (applyWrites ((applyWrites (flow.fresh sha)
      staging.writes).set "SCRIPT_OUT" out) served) flow.e2e.writes)
        flow.reviewer.writes).get? "REVIEW.md" = flow.reviewText sha := by
  rw [Flow.reviewText, Flow.writesBefore, hcandidate, hserved, applyWrites_append,
    applyWrites_append, applyWrites_append]
  apply get?_applyWrites_congr
  apply get?_applyWrites_congr
  apply get?_applyWrites_congr
  exact Dict.get?_set_of_ne _ _ (by decide)

/-- A run with real runtimes is READY exactly when its answers let it through. -/
theorem ready_iff_letsThrough (he2e : flow.real "e2e" = true)
    (hreviewer : flow.real "reviewer" = true) :
    (∃ result, (flow.run sha).result = some result ∧ result.status = .ready) ↔
      flow.LetsThrough sha := by
  constructor
  · rintro ⟨result, hresult⟩
    obtain ⟨e2eId, acceptanceId, record, hadmits, hrecord, -⟩ :=
      Flow.ready_iff.mp hresult
    obtain ⟨scripted, files, ⟨hbound, hsame, hcreated, staged, hscript, hrun⟩,
      haccept, hreview⟩ := hadmits
    obtain ⟨hstaged, -, hpassed⟩ := hscript
    obtain ⟨served, status, hserved, rfl, hended, hfake, hfail, hpayload, hput⟩ := hrun
    rw [hpassed he2e] at hstaged
    obtain ⟨staging, hcandidate, htaken, rfl⟩ :=
      (runStagedCandidate_passed_iff he2e).mp hstaged
    rw [he2e, if_pos rfl] at hserved
    have hcompleted : status = .completed := by
      by_contra hne
      have hunreal := (hfake hne).1
      rw [he2e] at hunreal
      cases hunreal
    have hresult := verdict_ne_fail_iff.mp (hfail he2e)
    rw [resultText_eq hcandidate hserved] at hresult
    rcases hreview with ⟨-, hunreal⟩ | ⟨status', hended', -, hpass⟩
    · rw [hreviewer] at hunreal
      cases hunreal
    · have hreview := verdict_eq_pass_iff.mp (hpass hreviewer)
      rw [reviewText_eq hcandidate hserved] at hreview
      exact
        { bound := hbound
          same := hsame
          created := hcreated
          scripts := ⟨staging, hcandidate, htaken⟩
          served := by simp [hserved]
          e2e := hcompleted ▸ hended
          result := hresult
          payload := hpayload
          e2ePut := by simp [hput]
          reviewer := ⟨status', hended'⟩
          review := hreview
          acceptPut := by simp [haccept]
          published := by simp [hrecord] }
  · intro hlets
    obtain ⟨staging, hcandidate, htaken⟩ := hlets.scripts
    obtain ⟨served, hserved⟩ := Option.isSome_iff_exists.mp hlets.served
    obtain ⟨e2eId, hput⟩ := Option.isSome_iff_exists.mp hlets.e2ePut
    obtain ⟨status, hended⟩ := hlets.reviewer
    obtain ⟨acceptanceId, haccept⟩ := Option.isSome_iff_exists.mp hlets.acceptPut
    obtain ⟨record, hrecord⟩ := Option.isSome_iff_exists.mp hlets.published
    have hresult := hlets.result
    rw [← resultText_eq hcandidate hserved staging.scriptOut] at hresult
    have hreview := hlets.review
    rw [← reviewText_eq hcandidate hserved staging.scriptOut] at hreview
    have hpass := verdict_eq_pass_iff.mpr hreview
    refine ⟨_, Flow.ready_iff.mpr ⟨e2eId, acceptanceId, record, ⟨"passed", _,
      ⟨hlets.bound, hlets.same, hlets.created, _, ⟨(runStagedCandidate_passed_iff
        he2e).mpr ⟨staging, hcandidate, htaken, rfl⟩, by decide, fun _ => rfl⟩,
        served, .completed, ?_, rfl, hlets.e2e, fun hne => absurd rfl hne,
        fun _ => verdict_ne_fail_iff.mpr hresult, hlets.payload, hput⟩,
      haccept, Or.inr ⟨status, hended, fun _ => ?_, fun _ => hpass⟩⟩, hrecord, rfl⟩⟩
    · rw [he2e, if_pos rfl, hserved]
    · rw [hpass]
      decide

/-- Scripts that are taken to have passed did, but for three kinds of answers. -/
theorem Staging.TakenAsPassed.passed_iff {staging : Staging}
    (htaken : staging.TakenAsPassed) (hcandidate : flow.candidate = some staging)
    (hnone : ¬ flow.FalsePass sha) : staging.Passed where
  tests := by
    intro htests hinstalled
    have hcode := htaken.tests htests
    cases hpytest : staging.answers.pytest with
    | unavailable =>
        rw [hpytest] at hcode
        cases hcode
    | ended code text =>
        by_contra hfailed
        have hne : code ≠ 0 := by
          rintro rfl
          exact hfailed ⟨text, rfl⟩
        refine hnone (.tests hcandidate htests hinstalled hpytest hne ?_)
        rw [hpytest, runPytest] at hcode
        by_contra hreads
        rw [if_neg hreads] at hcode
        exact hne (Option.some.inj hcode)
  app := by
    intro happ
    have hran := htaken.app happ
    by_cases hchecked : staging.answers.checked.1 = some 0
    · exact Or.inl hchecked
    right
    rw [runApp, if_neg hchecked] at hran
    obtain ⟨code, hcode⟩ : ∃ code, staging.answers.checked.1 = some code := by
      cases hcode : staging.answers.checked.1 with
      | none =>
          rw [hcode] at hran
          simp at hran
      | some code => exact ⟨code, rfl⟩
    have hne : code ≠ 0 := fun hzero => hchecked (hzero ▸ hcode)
    have hbare : staging.answers.bare.1 = some 0 := by
      by_contra hbare
      rw [if_neg (by simp [hcode])] at hran
      simp only [hbare, if_false] at hran
      repeat' split at hran
      all_goals simp at hran
    refine ⟨?_, hbare⟩
    by_contra htakes
    exact hnone (.app hcandidate happ (by simpa using htakes) hcode hne hbare)
  ran := by
    cases happ : staging.answers.app with
    | true => exact Or.inr rfl
    | false =>
        left
        have htests : staging.answers.tests = true := by
          rcases htaken.any with htests | hother
          · exact htests
          · rw [happ] at hother
            cases hother
        refine ⟨htests, ?_⟩
        by_contra hinstalled
        exact hnone (.idle hcandidate (by simpa using hinstalled) happ)

/-- Answers that let a candidate through are what READY is to rest on exactly when
none of them is a false pass. -/
theorem Flow.LetsThrough.sound_iff (hlets : flow.LetsThrough sha) :
    flow.Sound sha ↔ ¬ flow.FalsePass sha := by
  constructor
  · rintro ⟨⟨staging, hcandidate, hpassed⟩, -, hresult, hended, text, hwrote, hline⟩
      hfalse
    cases hfalse with
    | tests candidate tests installed pytest failed reads =>
        obtain rfl := Option.some.inj (hcandidate.symm.trans candidate)
        obtain ⟨other, hother⟩ := hpassed.tests tests installed
        rw [hother] at pytest
        cases pytest
        exact failed rfl
    | idle candidate installed app =>
        obtain rfl := Option.some.inj (hcandidate.symm.trans candidate)
        rcases hpassed.ran with ⟨-, hthere⟩ | hthere
        · rw [installed] at hthere
          cases hthere
        · rw [app] at hthere
          cases hthere
    | app candidate app takes checked failed bare =>
        obtain rfl := Option.some.inj (hcandidate.symm.trans candidate)
        rcases hpassed.app app with hzero | ⟨hother, -⟩
        · rw [checked] at hzero
          exact failed (Option.some.inj hzero)
        · rw [takes] at hother
          cases hother
    | result result fails =>
        rw [hresult _ result] at fails
        cases fails
    | status ended incomplete =>
        rw [hended] at ended
        cases ended
        exact incomplete rfl
    | foreign wrote => exact wrote text hwrote
    | line wrote first =>
        rw [hwrote] at wrote
        cases wrote
        exact first hline
  · intro hnone
    obtain ⟨staging, hcandidate, htaken⟩ := hlets.scripts
    refine ⟨⟨staging, hcandidate, htaken.passed_iff hcandidate hnone⟩, hlets.e2e,
      ?_, ?_, ?_⟩
    · intro text hresult
      by_contra hfails
      exact hnone (.result hresult (by simpa using hfails))
    · obtain ⟨status, hended⟩ := hlets.reviewer
      rw [hended]
      by_contra hincomplete
      refine hnone (.status hended ?_)
      rintro rfl
      exact hincomplete rfl
    · by_contra hnot
      rcases hwrote : lastWrite? flow.reviewer.writes "REVIEW.md" with _ | _ | text
      · exact hnone (.foreign fun text hother => by rw [hwrote] at hother; cases hother)
      · exact hnone (.foreign fun text hother => by rw [hwrote] at hother; cases hother)
      · exact hnone (.line hwrote fun hline => hnot ⟨text, hwrote, hline⟩)

theorem gateSound_iff : flow.GateSound sha ↔ flow.NoFalsePass sha := by
  constructor
  · intro hsound he2e hreviewer hlets
    obtain ⟨result, hresult, hready⟩ :=
      (ready_iff_letsThrough he2e hreviewer).mpr hlets
    exact hlets.sound_iff.mp (hsound result hresult hready he2e hreviewer)
  · intro hnone result hresult hready he2e hreviewer
    have hlets := (ready_iff_letsThrough he2e hreviewer).mp ⟨result, hresult, hready⟩
    exact hlets.sound_iff.mpr (hnone he2e hreviewer hlets)

theorem publishesWhenReady_iff :
    flow.PublishesWhenReady sha ↔ flow.PublishReturns sha := by
  rw [Flow.PublishesWhenReady, Flow.PublishReturns, Flow.published_iff]
  constructor
  · intro hiff hadmits
    obtain ⟨result, hresult⟩ := hiff.mp hadmits
    obtain ⟨-, -, record, -, hrecord, -⟩ := Flow.ready_iff.mp hresult
    simp [hrecord]
  · intro hreturns
    constructor
    · intro hadmits
      obtain ⟨record, hrecord⟩ := Option.isSome_iff_exists.mp (hreturns hadmits)
      obtain ⟨e2eId, acceptanceId, hadmits⟩ := hadmits
      exact ⟨_, Flow.ready_iff.mpr
        ⟨e2eId, acceptanceId, record, hadmits, hrecord, rfl⟩⟩
    · rintro ⟨result, hresult⟩
      obtain ⟨e2eId, acceptanceId, -, hadmits, -, -⟩ := Flow.ready_iff.mp hresult
      exact ⟨e2eId, acceptanceId, hadmits⟩

/-- Once `create` is done, every exit leaves what could not be removed. -/
theorem sandboxLeft_of_created (hbound : flow.unbound = false)
    (hsame : flow.drifted sha = false) (hcreated : flow.created = .done) :
    (flow.run sha).sandboxLeft = !flow.removes := by
  rw [Flow.run, hbound, hsame, hcreated]
  simp only [Bool.false_eq_true, if_false]
  cases flow.gate (flow.fresh sha) with
  | error stop => cases stop <;> rfl
  | ok ids => cases flow.published <;> rfl

theorem sandboxRemoved_iff : flow.SandboxRemoved sha ↔ flow.SandboxFree sha := by
  rw [Flow.SandboxRemoved, Flow.SandboxFree]
  cases hbound : flow.unbound with
  | true => simp [Flow.run, hbound]
  | false =>
      cases hsame : flow.drifted sha with
      | true => simp [Flow.run, hbound, hsame]
      | false =>
          cases hcreated : flow.created with
          | noDirectory => simp [Flow.run, hbound, hsame, hcreated]
          | noFile => simp [Flow.run, hbound, hsame, hcreated]
          | done =>
              rw [sandboxLeft_of_created hbound hsame hcreated]
              simp

/-- What the gate promises holds exactly of the runs in which no answer is a false
pass, the publication returns, and the sandbox can go. -/
theorem verification_gate_iff (flow : Flow) (sha : String) :
    (flow.GateSound sha ↔ flow.NoFalsePass sha) ∧
    (flow.PublishesWhenReady sha ↔ flow.PublishReturns sha) ∧
    (flow.SandboxRemoved sha ↔ flow.SandboxFree sha) :=
  ⟨gateSound_iff, publishesWhenReady_iff, sandboxRemoved_iff⟩

end Gate

namespace VerifyWitness

/-- A program that passes its own check. -/
def staging : Staging where
  copied := true
  pytestInstalled := true
  takesCheck := true
  answers :=
    { tests := false
      pytest := .unavailable
      app := true
      checked := (some 0, "ok\n")
      bare := (none, "timeout") }
  writes := []
  noted := true

/-- A candidate before two runtimes that are not fake, with the result and the
review given. -/
def reviewed (result : String) (ended : RuntimeStatus) (review : String) : Flow where
  bindings := ⟨[("e2e", "opencode", "m"), ("reviewer", "opencode", "m")], by decide⟩
  passedSha := none
  sandbox := none
  created := .done
  candidate := some staging
  served := some []
  e2e := { writes := [("RESULT.md", some result)], ended := .ok .completed }
  collected := some { detail := "", finalText := "" }
  e2ePut := some "art_1"
  reviewer := { writes := [("REVIEW.md", some review)], ended := .ok ended }
  acceptPut := some "art_2"
  published := some { ok := true }
  removes := true

/-- A candidate whose tests fail on a module of its own. -/
def failingTests : Flow :=
  { reviewed "PASS\n" .completed "PASS\n" with
    candidate := some
      { staging with
        answers :=
          { staging.answers with
            tests := true
            pytest := .ended 1 "No module named pytest_x" } } }

def readyResult : VerifyResult where
  status := .ready
  e2eId := some "art_1"
  acceptanceId := some "art_2"
  delivered := true
  delivery := some { ok := true }

/-- A flow without bindings that finds the sandbox of an earlier one. -/
def unboundFlow : Flow :=
  { reviewed "PASS\n" .completed "PASS\n" with
    bindings := .empty
    sandbox := some .empty }

/-- A reviewer that failed passes a candidate, and so does one that completed
with a first line that only starts like PASS, a FAIL behind a byte order mark, and
tests that fail on a module with a name like pytest; a run that is denied leaves
the sandbox that it finds. -/
theorem gate_passes_unapproved :
    ¬ (reviewed "PASS\n" .failed "PASS\n").GateSound "abc" ∧
    ¬ (reviewed "PASS\n" .completed "Passing is out of reach.\n").GateSound "abc" ∧
    ¬ (reviewed "\uFEFFFAIL\n" .completed "PASS\n").GateSound "abc" ∧
    ¬ failingTests.GateSound "abc" ∧
    ¬ unboundFlow.SandboxRemoved "abc" := by
  refine ⟨?_, ?_, ?_, ?_, ?_⟩
  · intro hsound
    have hrun : ((reviewed "PASS\n" .failed "PASS\n").run "abc").result =
        some readyResult := by
      decide +kernel
    have hended := (hsound _ hrun rfl (by decide) (by decide)).review.1
    cases hended
  · intro hsound
    have hrun : ((reviewed "PASS\n" .completed "Passing is out of reach.\n").run
        "abc").result = some readyResult := by
      decide +kernel
    obtain ⟨-, text, hwrote, hline⟩ := (hsound _ hrun rfl (by decide) (by decide)).review
    have htext : text = "Passing is out of reach.\n" :=
      (Option.some.inj (Option.some.inj hwrote)).symm
    rw [htext] at hline
    exact absurd hline (by decide +kernel)
  · intro hsound
    have hrun : ((reviewed "\uFEFFFAIL\n" .completed "PASS\n").run "abc").result =
        some readyResult := by
      decide +kernel
    have hfails := (hsound _ hrun rfl (by decide) (by decide)).result "\uFEFFFAIL\n"
      (by decide +kernel)
    exact absurd hfails (by decide +kernel)
  · intro hsound
    have hrun : (failingTests.run "abc").result = some readyResult := by
      decide +kernel
    obtain ⟨candidate, hcandidate, hpassed⟩ :=
      (hsound _ hrun rfl (by decide) (by decide)).scripts
    cases hcandidate
    obtain ⟨text, htext⟩ := hpassed.tests rfl rfl
    cases htext
  · intro hremoved
    rw [Flow.SandboxRemoved] at hremoved
    exact absurd hremoved (by decide +kernel)

end VerifyWitness

end VerifyFlow

end HermesPipeline
