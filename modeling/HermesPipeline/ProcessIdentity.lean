/-
The two process-identity checks: the one of the runtime and the one the shim
keeps beside its descriptor code.  Both read the start marker of a process and
compare it with the marker of a descriptor; only the runtime compares where the
two markers come from.
-/
import HermesPipeline.Lib.PyInt

namespace HermesPipeline

open Lib

namespace ProcessIdentity

/-- What reading `/proc/<pid>/stat` gives: the fields after the name, or no
fields, or an exception that is no `OSError`. -/
inductive StatRead
  | unreadable
  | raises
  | fields (after : List String)
deriving Repr, DecidableEq

/-- What opening the process on Windows and asking for its exit code gives. -/
inductive ExitProbe
  | noHandle (lastError : Nat)
  /-- `none` when the exit code cannot be read. -/
  | opened (exitCode : Option Nat)
deriving Repr, DecidableEq

/-- How `os.kill(pid, 0)` ends. -/
inductive KillAnswer
  | delivered
  | processLookupError
  | osError
  /-- An exception that is no `OSError`, for a number that is no pid. -/
  | raises
deriving Repr, DecidableEq

/-- What the operating system answers about one pid during one check. -/
structure Observation where
  /-- `os.name == "nt"`. -/
  nt : Bool
  /-- The creation time of `GetProcessTimes`; `none` when it is not readable. -/
  creation : Option (Fin (2 ^ 64))
  /-- The read for the start marker. -/
  stat : StatRead
  /-- The read for the process state. -/
  state : StatRead
  exit : ExitProbe
  kill : KillAnswer
deriving Repr, DecidableEq

/-- `_linux_starttime_ticks`; the outer `none` stands for a raised exception. -/
def linuxStarttimeTicks (stat : StatRead) : Option (Option String) :=
  match stat with
  | .unreadable => some none
  | .raises => none
  | .fields after => some after[22 - 3]?

/-- `_linux_process_is_zombie`. -/
def linuxProcessIsZombie (state : StatRead) : Option (Option Bool) :=
  match state with
  | .unreadable => some none
  | .raises => none
  | .fields [] => some none
  | .fields (first :: _) => some (some (first = "Z"))

/-- `_win32_creation_time`. -/
def win32CreationTime (creation : Option (Fin (2 ^ 64))) : Option String :=
  creation.map fun time => toString time.val

/-- `_win32_process_gone`. -/
def win32ProcessGone (probe : ExitProbe) : Bool :=
  match probe with
  | .noHandle lastError => lastError = 87
  | .opened none => false
  | .opened (some exitCode) => exitCode ≠ 259

/-- The end of both checks when the markers match: is the process alive? -/
def alive (seen : Observation) : Option Bool :=
  if seen.nt then some !(win32ProcessGone seen.exit)
  else (linuxProcessIsZombie seen.state).map fun zombie => zombie ≠ some true

/-- The end of both checks when the marker cannot be read. -/
def notProvablyAbsent (seen : Observation) : Option Bool :=
  if seen.nt then some !(win32ProcessGone seen.exit)
  else
    match seen.kill with
    | .processLookupError => some false
    | .osError => some true
    | .delivered => some true
    | .raises => none

/-- The tolerance of Windows creation times, in units of 100 ns. -/
def tolerance : Nat := 2000000

def winSource : String := "win_getprocess_times"

def linuxSource : String := "proc_stat_field22"

namespace Shim

/-- `_read_process_start_marker`. -/
def readProcessStartMarker (seen : Observation) : Option (Option String) :=
  if seen.nt then some (win32CreationTime seen.creation)
  else linuxStarttimeTicks seen.stat

/-- `abs(int(current) - int(expected)) <= 2_000_000`, false when one of them is
no number. -/
def within (current expected : String) : Bool :=
  match pyInt current, pyInt expected with
  | some left, some right => (left - right).natAbs ≤ tolerance
  | _, _ => false

/-- `process_matches_identity` of the shim; `none` stands for a raised
exception. -/
def processMatchesIdentity (seen : Observation) (expectedMarker : Json) :
    Option Bool :=
  match readProcessStartMarker seen with
  | none => none
  | some none => notProvablyAbsent seen
  | some (some current) =>
      match expectedMarker with
      | .obj members =>
          match Json.member? members "value" with
          | some (.str expected) =>
              let matching :=
                if (Json.member? members "source").bind Json.text? =
                    some winSource then
                  current = expected || within current expected
                else current = expected
              if matching then alive seen else some false
          | _ => some true
      | _ => notProvablyAbsent seen

end Shim

namespace Runtime

/-- A start marker with its source. -/
structure StartMarker where
  value : String
  source : String
deriving Repr, DecidableEq

/-- `read_process_start_marker`. -/
def readProcessStartMarker (seen : Observation) : Option (Option StartMarker) :=
  if seen.nt then
    some ((win32CreationTime seen.creation).map fun value => ⟨value, winSource⟩)
  else
    (linuxStarttimeTicks seen.stat).map fun ticks =>
      ticks.map fun value => ⟨value, linuxSource⟩

/-- `str(value)` of a member that may be missing; `pyStr` is `str` of a value
that is no text. -/
def textOf (pyStr : Option Json → String) (value : Option Json) : String :=
  match value with
  | some (.str text) => text
  | value => pyStr value

/-- `process_matches_identity` of the runtime; `none` stands for a raised
exception. -/
def processMatchesIdentity (pyStr : Option Json → String) (seen : Observation)
    (expected : Json) : Option Bool :=
  match readProcessStartMarker seen with
  | none => none
  | some none => notProvablyAbsent seen
  | some (some current) =>
      match expected with
      | .obj members =>
          if (Json.member? members "source").bind Json.text? ≠
              some current.source then some false
          else if current.source = winSource then
            match pyInt current.value,
                pyInt (textOf pyStr (Json.member? members "value")) with
            | some currentValue, some expectedValue =>
                if (currentValue - expectedValue).natAbs > tolerance then some false
                else alive seen
            | _, _ => some false
          else if (Json.member? members "value").bind Json.text? ≠
              some current.value then some false
          else alive seen
      | _ => notProvablyAbsent seen

end Runtime

section Agreement

/-- The marker of the descriptor names this source. -/
def SourceIs (members : List (String × Json)) (source : String) : Prop :=
  (Json.member? members "source").bind Json.text? = some source

instance (members : List (String × Json)) (source : String) :
    Decidable (SourceIs members source) :=
  inferInstanceAs (Decidable (_ = _))

def platformSource (seen : Observation) : String :=
  if seen.nt then winSource else linuxSource

/-- The two marker values are alike: equal, or two creation times close to each
other under a Windows source. -/
def Alike (members : List (String × Json)) (current expected : String) : Prop :=
  current = expected ∨ SourceIs members winSource ∧ Shim.within current expected = true

instance (members : List (String × Json)) (current expected : String) :
    Decidable (Alike members current expected) :=
  inferInstanceAs (Decidable (_ ∨ _ ∧ _))

/-- Whatever marker is read, the descriptor names the source of the platform,
or the values differ, or the process is provably dead. -/
def SourceOrDead (seen : Observation) (members : List (String × Json))
    (expected : String) : Prop :=
  ∀ current, Shim.readProcessStartMarker seen = some (some current) →
    SourceIs members (platformSource seen) ∨ ¬ Alike members current expected ∨
      alive seen = some false

variable {pyStr : Option Json → String} {seen : Observation}
  {members : List (String × Json)} {current expected : String}

/-- The runtime reads the marker that the shim reads, and names its source. -/
theorem readProcessStartMarker_eq (seen : Observation) :
    Runtime.readProcessStartMarker seen =
      (Shim.readProcessStartMarker seen).map fun marker =>
        marker.map fun value => ⟨value, platformSource seen⟩ := by
  unfold Runtime.readProcessStartMarker Shim.readProcessStartMarker platformSource
  cases seen.nt <;> rfl

theorem shim_of_current
    (hread : Shim.readProcessStartMarker seen = some (some current))
    (hvalue : Json.member? members "value" = some (.str expected)) :
    Shim.processMatchesIdentity seen (.obj members) =
      if Alike members current expected then alive seen else some false := by
  simp only [Shim.processMatchesIdentity, hread, hvalue]
  by_cases hsource : SourceIs members winSource
  · have hwin : (Json.member? members "source").bind Json.text? =
        some winSource := hsource
    simp only [hwin, ↓reduceIte, Alike, hsource, true_and, Bool.or_eq_true,
      decide_eq_true_eq]
  · have hother : (Json.member? members "source").bind Json.text? ≠
        some winSource := hsource
    simp only [hother, ↓reduceIte, Alike, hsource, false_and, or_false,
      decide_eq_true_eq]

/-- A creation time that was read is a number. -/
theorem pyInt_of_creation (hnt : seen.nt = true)
    (hread : Shim.readProcessStartMarker seen = some (some current)) :
    ∃ n, pyInt current = some n := by
  rw [Shim.readProcessStartMarker, if_pos hnt, win32CreationTime,
    Option.some.injEq] at hread
  obtain ⟨time, -, rfl⟩ := Option.map_eq_some_iff.mp hread
  refine ⟨_, pyInt_toString ?_⟩
  have hlength : (Nat.toDigits 10 time.val).length ≤ 20 :=
    (Nat.length_toDigits_le_iff (by decide) (by decide)).mpr
      (Nat.lt_of_lt_of_le time.isLt (by decide))
  exact hlength.trans (by decide)

/-- Two numbers are alike when they are close: equal texts are. -/
theorem alike_iff_within {n : Int} (hcurrent : pyInt current = some n)
    (hsource : SourceIs members winSource) :
    Alike members current expected ↔ Shim.within current expected = true := by
  constructor
  · rintro (rfl | ⟨-, hwithin⟩)
    · simp [Shim.within, hcurrent]
    · exact hwithin
  · exact fun hwithin => Or.inr ⟨hsource, hwithin⟩

theorem runtime_of_current
    (hread : Shim.readProcessStartMarker seen = some (some current))
    (hvalue : Json.member? members "value" = some (.str expected)) :
    Runtime.processMatchesIdentity pyStr seen (.obj members) =
      if SourceIs members (platformSource seen) ∧ Alike members current expected then
        alive seen
      else some false := by
  simp only [Runtime.processMatchesIdentity, readProcessStartMarker_eq, hread,
    Option.map_some, hvalue, Runtime.textOf]
  by_cases hsource : SourceIs members (platformSource seen)
  · have hsame : (Json.member? members "source").bind Json.text? =
        some (platformSource seen) := hsource
    simp only [hsame, ne_eq, not_true_eq_false, ↓reduceIte, hsource, true_and]
    cases hnt : seen.nt with
    | true =>
        have hplatform : platformSource seen = winSource := by
          simp [platformSource, hnt]
        rw [hplatform] at hsource
        obtain ⟨n, hcurrent⟩ := pyInt_of_creation hnt hread
        have halike : Alike members current expected ↔
            Shim.within current expected = true := alike_iff_within hcurrent hsource
        simp only [hplatform, ↓reduceIte, hcurrent, halike, Shim.within]
        cases pyInt expected with
        | none => simp
        | some m =>
            by_cases hclose : (n - m).natAbs ≤ tolerance
            · simp [hclose, Nat.not_lt.mpr hclose]
            · simp [hclose, Nat.not_le.mp hclose]
    | false =>
        have hplatform : platformSource seen = linuxSource := by
          simp [platformSource, hnt]
        rw [hplatform] at hsource
        have hother : ¬ SourceIs members winSource := by
          intro hwin
          have hsources := (Option.some.inj (hsource.symm.trans hwin))
          exact absurd hsources (by decide)
        have hne : linuxSource ≠ winSource := by decide
        simp only [hplatform, hne, ↓reduceIte, Option.bind_some, Json.text?,
          Option.some.injEq, Alike, hother, false_and, or_false, eq_comm,
          ite_not]
  · have hne : (Json.member? members "source").bind Json.text? ≠
        some (platformSource seen) := hsource
    simp only [hne, ne_eq, not_false_eq_true, ↓reduceIte, hsource, false_and]

/-- On a marker with a text as its value the two checks give one answer exactly
when, whatever marker is read, the sources agree, or the values differ, or the
process is provably dead. -/
theorem checks_agree_iff (pyStr : Option Json → String) (seen : Observation)
    (members : List (String × Json)) (expected : String)
    (hvalue : Json.member? members "value" = some (.str expected)) :
    Shim.processMatchesIdentity seen (.obj members) =
        Runtime.processMatchesIdentity pyStr seen (.obj members) ↔
      SourceOrDead seen members expected := by
  cases hread : Shim.readProcessStartMarker seen with
  | none =>
      simp [Shim.processMatchesIdentity, Runtime.processMatchesIdentity,
        readProcessStartMarker_eq, hread, SourceOrDead]
  | some marker =>
      cases marker with
      | none =>
          simp [Shim.processMatchesIdentity, Runtime.processMatchesIdentity,
            readProcessStartMarker_eq, hread, SourceOrDead]
      | some current =>
          rw [shim_of_current hread hvalue, runtime_of_current hread hvalue]
          simp only [SourceOrDead, hread, Option.some.injEq, forall_eq']
          by_cases hsource : SourceIs members (platformSource seen)
          · simp [hsource]
          · by_cases halike : Alike members current expected
            · simp [hsource, halike]
            · simp [hsource, halike]

end Agreement

namespace IdentityWitness

/-- A running Linux process with start marker 4242. -/
def running : Observation where
  nt := false
  creation := none
  stat := .fields ((List.replicate 19 "0") ++ ["4242"])
  state := .fields ["S"]
  exit := .opened none
  kill := .delivered

/-- The marker value of that process under the source of the other platform. -/
def foreign : List (String × Json) :=
  [("value", .str "4242"), ("source", .str winSource)]

/-- The shim keeps the descriptor, the runtime finds it stale. -/
theorem checks_disagree :
    Shim.processMatchesIdentity running (.obj foreign) = some true ∧
      ∀ pyStr, Runtime.processMatchesIdentity pyStr running (.obj foreign) =
        some false := by
  constructor
  · decide
  · intro pyStr
    rfl

theorem foreign_checks :
    Shim.processMatchesIdentity running (.obj foreign) =
        Runtime.processMatchesIdentity (fun _ => "None") running (.obj foreign) ↔
      SourceOrDead running foreign "4242" :=
  checks_agree_iff (fun _ => "None") running foreign "4242" rfl

end IdentityWitness

end ProcessIdentity

end HermesPipeline
