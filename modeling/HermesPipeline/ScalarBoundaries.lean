/-
The patterned texts of the contracts on both sides of the boundary.  The authoring
types search with an engine whose `$` is the very end of a text, or match the
whole text; a validator of the committed schemas searches with Python's engine,
whose `$` also matches before a last line feed.
-/
import HermesPipeline.Lib.Regex

namespace HermesPipeline

open Lib

namespace ScalarBoundaries

/-- A text type with a pattern `^...$`. -/
structure PatternedType where
  pattern : String
  /-- What stands between the anchors. -/
  inner : Regex
  minLength : Nat := 0
  maxLength : Option Nat := none
  /-- A Python validator matches the whole text. -/
  fullmatch : Bool := false

namespace PatternedType

variable (type : PatternedType)

def regex : Regex := Regex.anchored type.inner

/-- The bounds of the length in code points. -/
def within (text : String) : Bool :=
  type.minLength ≤ text.length && type.maxLength.all fun most => text.length ≤ most

/-- What the authoring type finds of the pattern. -/
def found (text : String) : Bool :=
  if type.fullmatch then Regex.fullmatch Regex.atLastLine type.regex text.toList
  else Regex.search Regex.atEnd type.regex text.toList

/-- The authoring type accepts the text. -/
def authored (text : String) : Bool := type.within text && type.found text

/-- The committed projection accepts the text. -/
def projected (text : String) : Bool :=
  type.within text && Regex.search Regex.atLastLine type.regex text.toList

end PatternedType

open CharClass Regex

def digits : CharClass := .ranges [('0', '9')]

def hexDigits : CharClass := .ranges [('0', '9'), ('a', 'f')]

def identLetters : CharClass :=
  .ranges [('A', 'Z'), ('a', 'z'), ('0', '9'), ('_', '_'), ('-', '-')]

def letter (c : Char) : Regex := .many (.char c) 1 (some 1)

theorem reaches_letter {dollar : Dollar} {place : Cursor} {P : Cursor → Prop} (c : Char) :
    (letter c).Reaches dollar place P ↔
      ∃ rest, place.rest = c :: rest ∧ P ⟨false, rest⟩ :=
  reaches_char c

/-- `GIT_SHA_PATTERN`. -/
def gitSha : PatternedType where
  pattern := "^[0-9a-f]\x7b40\x7d([0-9a-f]\x7b24\x7d)?$"
  inner := .seq (.many hexDigits 40 (some 40)) (.opt (.many hexDigits 24 (some 24)))

/-- `SHA256_PATTERN`. -/
def sha256 : PatternedType where
  pattern := "^sha256:[0-9a-f]\x7b64\x7d$"
  inner := word "sha256:".toList (.many hexDigits 64 (some 64))

/-- `RELATIVE_PATH_PATTERN`: not from a root, of no drive, no step up, and no
backslash. -/
def relativePath : PatternedType where
  pattern := "^(?!/)(?![A-Za-z]:)(?!.*(?:^|/)\\.\\.(?:/|$))(?!.*\\\\).+$"
  inner :=
    .seq (.notAhead (letter '/'))
      (.seq (.notAhead (.seq (.many (.ranges [('A', 'Z'), ('a', 'z')]) 1 (some 1))
          (letter ':')))
        (.seq (.notAhead (.seq (.many .dot 0 none) (.seq (.alt .start (letter '/'))
            (.seq (letter '.') (.seq (letter '.') (.alt (letter '/') .finish))))))
          (.seq (.notAhead (.seq (.many .dot 0 none) (letter '\\')))
            (.many .dot 1 none))))
  minLength := 1
  maxLength := some 512
  fullmatch := true

/-- `IDENTITY_PATTERN`. -/
def identity : PatternedType where
  pattern := "^[a-z][a-z0-9_-]*_[A-Za-z0-9_-]+$"
  inner :=
    .seq (.many (.ranges [('a', 'z')]) 1 (some 1))
      (.seq (.many (.ranges [('a', 'z'), ('0', '9'), ('_', '_'), ('-', '-')]) 0 none)
        (.seq (letter '_') (.many identLetters 1 none)))
  minLength := 4
  maxLength := some 128

/-- An identifier of a scope. -/
def identifier (scope : String) : PatternedType where
  pattern := "^" ++ scope ++ "_[A-Za-z0-9_-]+$"
  inner := word (scope.toList ++ ['_']) (.many identLetters 1 none)

/-- A number of two digits at least. -/
def numbered (scope : String) : PatternedType where
  pattern := "^" ++ scope ++ "-[0-9]\x7b2,\x7d$"
  inner := word (scope.toList ++ ['-']) (.many digits 2 none)

/-- Two numbers of two digits at least. -/
def twiceNumbered (scope : String) : PatternedType where
  pattern := "^" ++ scope ++ "-[0-9]\x7b2,\x7d-[0-9]\x7b2,\x7d$"
  inner := word (scope.toList ++ ['-'])
    (.seq (.many digits 2 none) (.seq (letter '-') (.many digits 2 none)))

/-- `SLICE_ID_PATTERN`. -/
def sliceId : PatternedType := twiceNumbered "slice"

/-- `EC_PATTERN`. -/
def ec : PatternedType := twiceNumbered "EC"

/-- `ADR_PATTERN`. -/
def adr : PatternedType where
  pattern := "^ADR-[0-9]\x7b4\x7d$"
  inner := word "ADR-".toList (.many digits 4 (some 4))

/-- The types of commands and events. -/
def upperName : PatternedType where
  pattern := "^[A-Z][A-Z0-9_]+$"
  inner := .seq (.many (.ranges [('A', 'Z')]) 1 (some 1))
    (.many (.ranges [('A', 'Z'), ('0', '9'), ('_', '_')]) 1 none)

/-- The scalar definitions, then the patterned fields of the contracts. -/
def patternedTypes : List (String × PatternedType) :=
  [ ("gitSha", gitSha), ("sha256", sha256), ("relativePath", relativePath),
    ("identity", identity),
    ("ArtifactReference.artifact_id", identifier "art"),
    ("EngineeringRisk.risk_id", numbered "R"),
    ("SliceItem.slice_id", sliceId), ("SliceItem.depends_on", sliceId),
    ("SliceItem.owns_exit_criteria", ec),
    ("ExitCriterion.criterion_id", ec), ("ExitCriterion.owner_slice_ids", sliceId),
    ("Finding.finding_id", numbered "F"),
    ("AcceptanceCriterion.criterion_id", numbered "AC"),
    ("Closeout.closeout_id", identifier "close"),
    ("ContextManifest.manifest_id", identifier "ctx"),
    ("ContractChangeRequest.request_id", identifier "ccr"),
    ("ExecutionReport.report_id", identifier "exec"),
    ("PhasePlan.phase_id", numbered "phase"), ("PhasePlan.accepted_adrs", adr),
    ("ReviewVerdict.verdict_id", identifier "review"),
    ("SliceContract.slice_id", sliceId), ("SliceContract.phase_id", numbered "phase"),
    ("SliceContract.predecessors", sliceId), ("SliceContract.binding_adrs", adr),
    ("Producer.stage_attempt_id", identifier "att"),
    ("Producer.execution_run_id", identifier "run"),
    ("ArtifactManifest.artifact_id", identifier "art"),
    ("CapabilityProfile.profile_id", identifier "cap"),
    ("ControllerCommand.command_id", identifier "cmd"),
    ("ControllerCommand.workspace_id", identifier "ws"),
    ("ControllerCommand.project_id", identifier "prj"),
    ("ControllerCommand.pipeline_id", identifier "pl"),
    ("ControllerCommand.command_type", upperName),
    ("EvidenceBundle.bundle_id", identifier "evb"),
    ("EvidenceBundle.pipeline_id", identifier "pl"),
    ("EvidenceBundle.stage_attempt_id", identifier "att"),
    ("EvidenceBundle.execution_run_id", identifier "run"),
    ("PipelineEvent.event_id", identifier "evt"),
    ("PipelineEvent.event_type", upperName) ]

/-- Every expression is the one that its pattern writes. -/
theorem patterns_written :
    ∀ entry ∈ patternedTypes, entry.2.regex.render = entry.2.pattern := by
  decide +kernel

/-- No pattern goes beyond a line. -/
theorem patterns_oneLine :
    ∀ entry ∈ patternedTypes, entry.2.inner.oneLine = true := by
  decide +kernel

section Boundary

variable {type : PatternedType}

theorem found_iff (hclasses : type.inner.oneLine = true) (text : String) :
    type.found text = true ↔
      Regex.fullmatch Regex.atLastLine type.regex text.toList = true := by
  rw [PatternedType.found]
  split
  · exact Iff.rfl
  · exact Regex.search_atEnd_iff hclasses

/-- The two sides differ on the texts that end in a line feed after a match. -/
theorem authored_eq_projected_iff (hclasses : type.inner.oneLine = true)
    (text : String) :
    type.authored text = type.projected text ↔
      ¬ ∃ line, text = line ++ "\n" ∧ type.found line = true ∧
        type.within text = true := by
  have hfound := found_iff hclasses
  have hsearch : Regex.search Regex.atLastLine type.regex text.toList = true ↔
      type.found text = true ∨ ∃ line, text = line ++ "\n" ∧ type.found line = true := by
    rw [PatternedType.regex, Regex.search_atLastLine_iff hclasses, hfound]
    refine or_congr Iff.rfl ⟨?_, ?_⟩
    · rintro ⟨line, hline, hmatch⟩
      refine ⟨String.ofList line, ?_, ?_⟩
      · apply String.toList_injective
        simpa using hline
      · rw [hfound, String.toList_ofList]
        exact hmatch
    · rintro ⟨line, rfl, hmatch⟩
      exact ⟨line.toList, by simp, (hfound line).mp hmatch⟩
  have hnever : ∀ line, text = line ++ "\n" → type.found text = false := by
    rintro line rfl
    by_contra hmatch
    have hfull := (hfound _).mp (by simpa using hmatch)
    exact Regex.not_mem_of_fullmatch hclasses hfull (by simp)
  rw [PatternedType.authored, PatternedType.projected]
  cases hwithin : type.within text with
  | false => simp
  | true =>
      rw [Bool.true_and, Bool.true_and, Bool.eq_iff_iff, hsearch]
      constructor
      · rintro hsame ⟨line, hline, hmatch, -⟩
        have hmatch' := hsame.mpr (.inr ⟨line, hline, hmatch⟩)
        rw [hnever line hline] at hmatch'
        cases hmatch'
      · intro hnone
        refine ⟨.inl, ?_⟩
        rintro (hmatch | ⟨line, hline, hmatch⟩)
        · exact hmatch
        · exact absurd ⟨line, hline, hmatch, rfl⟩ hnone

/-- Each patterned type of the contracts and its projection agree on exactly the
texts that are not a match and one line feed after it. -/
theorem boundaries_agree_iff :
    ∀ entry ∈ patternedTypes, ∀ text : String,
      entry.2.authored text = entry.2.projected text ↔
        ¬ ∃ line, text = line ++ "\n" ∧ entry.2.found line = true ∧
          entry.2.within text = true :=
  fun entry hentry text => authored_eq_projected_iff (patterns_oneLine entry hentry) text

end Boundary

namespace BoundaryWitness

def sha : String := "0123456789abcdef0123456789abcdef01234567"

/-- A commit SHA with a line feed after it is no SHA for the authoring type, and
is one for the committed schema. -/
theorem feed_after_sha :
    gitSha.authored (sha ++ "\n") = false ∧ gitSha.projected (sha ++ "\n") = true ∧
    relativePath.authored "src/app.py\n" = false ∧
    relativePath.projected "src/app.py\n" = true := by
  decide +kernel

theorem sha_agrees :
    gitSha.authored sha = true ∧
    (gitSha.authored sha = gitSha.projected sha ↔
      ¬ ∃ line, sha = line ++ "\n" ∧ gitSha.found line = true ∧
        gitSha.within sha = true) :=
  ⟨by decide +kernel, boundaries_agree_iff ("gitSha", gitSha) (.head _) sha⟩

end BoundaryWitness

end ScalarBoundaries

end HermesPipeline
