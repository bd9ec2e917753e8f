/-
The arguments of the sandbox host: an optional mode, then seven flags with a value
each.  The loop over the flags takes two arguments at a time, so a value is never
taken for a flag.
-/
import HermesPipeline.Lib.Keyed

namespace HermesPipeline

open Lib

namespace HostArguments

/-- `REQUIRED_FLAGS`. -/
def requiredFlags : List String :=
  ["--state-root", "--candidate-sha", "--source-tree-digest", "--tool-lock",
    "--tool-record", "--host-gate", "--run-binding"]

def known : List String :=
  ["verify", "selfcheck", "probe-codex", "probe-opencode", "bootstrap"]

/-- `AuthorizationError`. -/
structure AuthorizationError where
  code : String
deriving Repr, DecidableEq

/-- `AuthorizationError` as it is raised without a code. -/
def unavailable : AuthorizationError := ⟨"DEPENDENCY_UNAVAILABLE"⟩

/-- `HostInputs`; a path is kept as its text. -/
structure HostInputs where
  stateRoot : String
  candidateSha : String
  sourceTreeDigest : String
  toolLock : String
  toolRecord : String
  hostGate : String
  runBinding : String
deriving Repr, DecidableEq

/-- The inputs, from the value of each flag. -/
def HostInputs.ofValues (value : String → String) : HostInputs where
  stateRoot := value "--state-root"
  candidateSha := value "--candidate-sha"
  sourceTreeDigest := value "--source-tree-digest"
  toolLock := value "--tool-lock"
  toolRecord := value "--tool-record"
  hostGate := value "--host-gate"
  runBinding := value "--run-binding"

/-- The loop over the flags. -/
def parseFlags (values : Dict String String) :
    List String → Except AuthorizationError (Dict String String)
  | [] => .ok values
  | [_] => .error unavailable
  | token :: value :: rest =>
      if token ∈ requiredFlags then
        if (values.get? token).isSome then .error unavailable
        else parseFlags (values.set token value) rest
      else .error unavailable

/-- The mode, and the arguments after it. -/
def takeMode : List String → String × List String
  | [] => ("bootstrap", [])
  | first :: rest =>
      if first.toList.head? ≠ some '-' ∧ first ∈ known then (first, rest)
      else ("bootstrap", first :: rest)

/-- `parse_host_argv`. -/
def parseHostArgv (argv : List String) : Except AuthorizationError (String × HostInputs) := do
  let (mode, rest) := takeMode argv
  let values ← parseFlags .empty rest
  if requiredFlags.any fun flag => (values.get? flag).isNone then .error unavailable
  else return (mode, .ofValues fun flag => values.getD flag "")

section Reference

/-- The arguments that pairs of a flag and its value are written as. -/
def written (pairs : List (String × String)) : List String :=
  pairs.flatMap fun pair => [pair.1, pair.2]

/-- Every required flag once, in some order. -/
def Complete (pairs : List (String × String)) : Prop :=
  (pairs.map Prod.fst).Perm requiredFlags

/-- What is written before the flags, and the mode it stands for. -/
inductive Given : List String → String → Prop
  | default : Given [] "bootstrap"
  | mode {mode : String} (hmode : mode ∈ known) : Given [mode] mode

/-- The value that a flag is given. -/
def HostInputs.value (inputs : HostInputs) (flag : String) : Option String :=
  (requiredFlags.zip [inputs.stateRoot, inputs.candidateSha, inputs.sourceTreeDigest,
    inputs.toolLock, inputs.toolRecord, inputs.hostGate, inputs.runBinding]).lookup flag

end Reference

section Flags

variable {values result : Dict String String}

/-- The loop succeeds on required flags with a value each, none of them twice. -/
theorem parseFlags_eq_ok_iff (values result : Dict String String) (rest : List String) :
    parseFlags values rest = .ok result ↔
      ∃ pairs, rest = written pairs ∧ (∀ pair ∈ pairs, pair.1 ∈ requiredFlags) ∧
        (∀ pair ∈ pairs, values.get? pair.1 = none) ∧ (pairs.map Prod.fst).Nodup ∧
          values.update pairs = result := by
  induction values, rest using parseFlags.induct with
  | case1 values =>
      rw [parseFlags, Except.ok.injEq]
      constructor
      · rintro rfl
        exact ⟨[], rfl, by simp, by simp, List.nodup_nil, rfl⟩
      · rintro ⟨pairs, hwritten, -, -, -, rfl⟩
        cases pairs with
        | nil => rfl
        | cons pair rest => simp [written] at hwritten
  | case2 values token =>
      rw [parseFlags]
      refine iff_of_false (by simp) ?_
      rintro ⟨pairs, hwritten, -⟩
      cases pairs with
      | nil => simp [written] at hwritten
      | cons pair rest => simp [written] at hwritten
  | case3 values token value rest htoken hseen =>
      rw [parseFlags, if_pos htoken, if_pos hseen]
      refine iff_of_false (by simp) ?_
      rintro ⟨pairs, hwritten, -, hfresh, -⟩
      cases pairs with
      | nil => simp [written] at hwritten
      | cons pair pairs =>
          simp only [written, List.flatMap_cons, List.cons_append, List.nil_append,
            List.cons.injEq] at hwritten
          have hnone := hfresh pair List.mem_cons_self
          rw [← hwritten.1] at hnone
          rw [hnone] at hseen
          cases hseen
  | case4 values token value rest htoken hseen ih =>
      rw [parseFlags, if_pos htoken, if_neg hseen, ih]
      have hnone : values.get? token = none := by simpa using hseen
      constructor
      · rintro ⟨pairs, rfl, hrequired, hfresh, hnodup, hresult⟩
        have habsent : token ∉ pairs.map Prod.fst := by
          intro hmem
          obtain ⟨pair, hpair, rfl⟩ := List.mem_map.mp hmem
          have hset := hfresh pair hpair
          rw [Dict.get?_set_self] at hset
          cases hset
        refine ⟨(token, value) :: pairs, rfl, List.forall_mem_cons.mpr ⟨htoken, hrequired⟩,
          List.forall_mem_cons.mpr ⟨hnone, fun pair hpair => ?_⟩,
          List.nodup_cons.mpr ⟨habsent, hnodup⟩, hresult⟩
        have hne : pair.1 ≠ token := fun h => habsent (h ▸ List.mem_map_of_mem hpair)
        rw [← Dict.get?_set_of_ne values value hne]
        exact hfresh pair hpair
      · rintro ⟨pairs, hwritten, hrequired, hfresh, hnodup, hresult⟩
        cases pairs with
        | nil => simp [written] at hwritten
        | cons pair pairs =>
            obtain ⟨flag, given⟩ := pair
            simp only [written, List.flatMap_cons, List.cons_append, List.nil_append,
              List.cons.injEq] at hwritten
            obtain ⟨rfl, rfl, hrest⟩ := hwritten
            rw [List.map_cons, List.nodup_cons] at hnodup
            refine ⟨pairs, hrest, fun pair hpair => hrequired pair (List.mem_cons_of_mem _ hpair),
              fun pair hpair => ?_, hnodup.2, hresult⟩
            have hne : pair.1 ≠ token := by
              have hmem : pair.1 ∈ pairs.map Prod.fst := List.mem_map_of_mem hpair
              exact fun h => hnodup.1 (h ▸ hmem)
            rw [Dict.get?_set_of_ne values value hne]
            exact hfresh pair (List.mem_cons_of_mem _ hpair)
  | case5 values token value rest htoken =>
      rw [parseFlags, if_neg htoken]
      refine iff_of_false (by simp) ?_
      rintro ⟨pairs, hwritten, hrequired, -⟩
      cases pairs with
      | nil => simp [written] at hwritten
      | cons pair pairs =>
          simp only [written, List.flatMap_cons, List.cons_append, List.nil_append,
            List.cons.injEq] at hwritten
          exact htoken (hwritten.1 ▸ hrequired pair List.mem_cons_self)

/-- Nothing but one error is raised. -/
theorem parseFlags_error {rest : List String} {error : AuthorizationError}
    (herror : parseFlags values rest = .error error) : error = unavailable := by
  induction values, rest using parseFlags.induct with
  | case1 values => cases herror
  | case2 values token =>
      rw [parseFlags, Except.error.injEq] at herror
      exact herror.symm
  | case3 values token value rest htoken hseen =>
      rw [parseFlags, if_pos htoken, if_pos hseen, Except.error.injEq] at herror
      exact herror.symm
  | case4 values token value rest htoken hseen ih =>
      rw [parseFlags, if_pos htoken, if_neg hseen] at herror
      exact ih herror
  | case5 values token value rest htoken =>
      rw [parseFlags, if_neg htoken, Except.error.injEq] at herror
      exact herror.symm

end Flags

section Arguments

variable {argv given : List String} {pairs : List (String × String)} {mode : String}

theorem value_ofValues (value : String → String) {flag : String}
    (hflag : flag ∈ requiredFlags) :
    (HostInputs.ofValues value).value flag = some (value flag) := by
  simp only [requiredFlags, List.mem_cons, List.not_mem_nil, or_false] at hflag
  rcases hflag with rfl | rfl | rfl | rfl | rfl | rfl | rfl <;> rfl

/-- Inputs are the values of their flags. -/
theorem eq_ofValues_iff (inputs : HostInputs) (value : String → String) :
    inputs = .ofValues value ↔
      ∀ flag ∈ requiredFlags, inputs.value flag = some (value flag) := by
  constructor
  · rintro rfl flag hflag
    exact value_ofValues value hflag
  · intro hvalues
    simp only [requiredFlags, List.forall_mem_cons] at hvalues
    obtain ⟨h1, h2, h3, h4, h5, h6, h7, -⟩ := hvalues
    obtain ⟨stateRoot, candidateSha, sourceTreeDigest, toolLock, toolRecord, hostGate,
      runBinding⟩ := inputs
    rw [HostInputs.ofValues, HostInputs.mk.injEq]
    exact ⟨Option.some.inj h1, Option.some.inj h2, Option.some.inj h3, Option.some.inj h4,
      Option.some.inj h5, Option.some.inj h6, Option.some.inj h7⟩

/-- No flag is a mode. -/
theorem not_known_of_flag {flag : String} (hflag : flag ∈ requiredFlags) : flag ∉ known :=
  of_decide_eq_true (List.all_eq_true.mp
    (by decide : (requiredFlags.all fun flag => decide (flag ∉ known)) = true) flag hflag)

theorem no_dash_of_known (hmode : mode ∈ known) : mode.toList.head? ≠ some '-' := by
  have hall : (known.all fun mode => decide (mode.toList.head? ≠ some '-')) = true := by
    decide
  exact of_decide_eq_true (List.all_eq_true.mp hall mode hmode)

/-- The mode is taken from the front where one is given. -/
theorem takeMode_given (hgiven : Given given mode)
    (hflags : ∀ pair ∈ pairs, pair.1 ∈ requiredFlags) :
    takeMode (given ++ written pairs) = (mode, written pairs) := by
  cases hgiven with
  | default =>
      cases pairs with
      | nil => rfl
      | cons pair rest =>
          have hflag := not_known_of_flag (hflags pair List.mem_cons_self)
          exact if_neg fun h => hflag h.2
  | mode hmode => exact if_pos ⟨no_dash_of_known hmode, hmode⟩

theorem given_takeMode (argv : List String) :
    ∃ given, argv = given ++ (takeMode argv).2 ∧ Given given (takeMode argv).1 := by
  cases argv with
  | nil => exact ⟨[], rfl, .default⟩
  | cons first rest =>
      rw [takeMode]
      split
      · next h => exact ⟨[first], rfl, .mode h.2⟩
      · exact ⟨[], rfl, .default⟩

/-- Distinct required flags that leave none out are complete. -/
theorem complete_iff :
    Complete pairs ↔ (∀ pair ∈ pairs, pair.1 ∈ requiredFlags) ∧
      (pairs.map Prod.fst).Nodup ∧ ∀ flag ∈ requiredFlags, flag ∈ pairs.map Prod.fst := by
  have hrequired : requiredFlags.Nodup := by decide
  constructor
  · intro hcomplete
    refine ⟨fun pair hpair => hcomplete.subset (List.mem_map_of_mem hpair),
      hcomplete.nodup_iff.mpr hrequired, fun flag hflag => hcomplete.symm.subset hflag⟩
  · rintro ⟨hflags, hnodup, hall⟩
    refine (List.perm_ext_iff_of_nodup hnodup hrequired).mpr fun flag => ⟨?_, hall flag⟩
    intro hmem
    obtain ⟨pair, hpair, rfl⟩ := List.mem_map.mp hmem
    exact hflags pair hpair

/-- What the parser looks up is what a pair says. -/
theorem update_get? (hnodup : (pairs.map Prod.fst).Nodup) {flag value : String} :
    (Dict.update .empty pairs).get? flag = some value ↔
      (flag, value) ∈ pairs := by
  rw [Dict.get?_update_of_nodup _ hnodup, Dict.get?_empty, Option.or_none,
    Option.map_eq_some_iff]
  constructor
  · rintro ⟨pair, hfind, rfl⟩
    have hflag : pair.1 = flag := by simpa using List.find?_some hfind
    rw [← hflag]
    exact List.mem_of_find?_eq_some hfind
  · intro hmem
    cases hfind : pairs.find? fun pair => decide (pair.1 = flag) with
    | none => exact absurd (List.find?_eq_none.mp hfind _ hmem) (by simp)
    | some pair =>
        have hflag : pair.1 = flag := by simpa using List.find?_some hfind
        have hsame := List.inj_on_of_nodup_map hnodup
          (List.mem_of_find?_eq_some hfind) hmem hflag
        exact ⟨pair, rfl, by rw [hsame]⟩

/-- The parser succeeds exactly on an optional mode and the complete flags. -/
theorem parseHostArgv_eq_ok_iff (argv : List String) (mode : String) (inputs : HostInputs) :
    parseHostArgv argv = .ok (mode, inputs) ↔
      ∃ given pairs, argv = given ++ written pairs ∧ Given given mode ∧ Complete pairs ∧
        ∀ pair ∈ pairs, inputs.value pair.1 = some pair.2 := by
  have hinputs : ∀ pairs : List (String × String), Complete pairs →
      (inputs = .ofValues (fun flag => (Dict.update .empty pairs).getD flag "") ↔
        ∀ pair ∈ pairs, inputs.value pair.1 = some pair.2) := by
    intro pairs hcomplete
    obtain ⟨hflags, hnodup, hall⟩ := complete_iff.mp hcomplete
    have hvalue : ∀ pair ∈ pairs, (Dict.update .empty pairs).getD pair.1 "" = pair.2 := by
      intro pair hpair
      rw [Dict.getD, (update_get? hnodup).mpr hpair]
      rfl
    rw [eq_ofValues_iff]
    constructor
    · intro h pair hpair
      rw [h pair.1 (hflags pair hpair), hvalue pair hpair]
    · intro h flag hflag
      obtain ⟨pair, hpair, rfl⟩ := List.mem_map.mp (hall flag hflag)
      rw [h pair hpair, hvalue pair hpair]
  have hpresent : ∀ pairs : List (String × String), (pairs.map Prod.fst).Nodup →
      ((requiredFlags.any fun flag => ((Dict.update .empty pairs).get? flag).isNone) = false ↔
        ∀ flag ∈ requiredFlags, flag ∈ pairs.map Prod.fst) := by
    intro pairs hnodup
    rw [List.any_eq_false]
    refine forall₂_congr fun flag _ => ?_
    rw [Bool.not_eq_true, Option.isNone_eq_false_iff, Option.isSome_iff_exists, List.mem_map]
    simp only [update_get? hnodup]
    constructor
    · rintro ⟨value, hmem⟩
      exact ⟨_, hmem, rfl⟩
    · rintro ⟨pair, hpair, rfl⟩
      exact ⟨pair.2, hpair⟩
  constructor
  · intro hparse
    obtain ⟨given, hargv, hgiven⟩ := given_takeMode argv
    rw [parseHostArgv] at hparse
    generalize takeMode argv = taken at hparse hargv hgiven
    obtain ⟨found, rest⟩ := taken
    cases hflags : parseFlags .empty rest with
    | error error =>
        simp only [hflags, bind, Except.bind] at hparse
        cases hparse
    | ok values =>
        obtain ⟨pairs, rfl, hrequired, -, hnodup, rfl⟩ :=
          (parseFlags_eq_ok_iff _ _ _).mp hflags
        simp only [hflags, bind, Except.bind] at hparse
        split at hparse
        · cases hparse
        · next hany =>
            rw [Bool.not_eq_true] at hany
            have hcomplete := complete_iff.mpr ⟨hrequired, hnodup, (hpresent pairs hnodup).mp hany⟩
            obtain ⟨rfl, hsame⟩ := Prod.mk.inj (Except.ok.inj hparse)
            exact ⟨given, pairs, hargv, hgiven, hcomplete, (hinputs pairs hcomplete).mp hsame.symm⟩
  · rintro ⟨given, pairs, rfl, hgiven, hcomplete, hvalues⟩
    obtain ⟨hrequired, hnodup, hall⟩ := complete_iff.mp hcomplete
    have hflags : parseFlags .empty (written pairs) = .ok (Dict.update .empty pairs) :=
      (parseFlags_eq_ok_iff _ _ _).mpr ⟨pairs, rfl, hrequired, by simp, hnodup, rfl⟩
    rw [parseHostArgv, takeMode_given hgiven hrequired]
    simp only [hflags, bind, Except.bind, (hpresent pairs hnodup).mpr hall,
      Bool.false_eq_true, if_false]
    rw [(hinputs pairs hcomplete).mpr hvalues]
    rfl

theorem parseHostArgv_error {argv : List String} {error : AuthorizationError}
    (herror : parseHostArgv argv = .error error) : error = unavailable := by
  rw [parseHostArgv] at herror
  generalize takeMode argv = taken at herror
  obtain ⟨found, rest⟩ := taken
  cases hflags : parseFlags .empty rest with
  | error error' =>
      simp only [hflags, bind, Except.bind, Except.error.injEq] at herror
      rw [← herror]
      exact parseFlags_error hflags
  | ok values =>
      simp only [hflags, bind, Except.bind] at herror
      split at herror
      · exact (Except.error.inj herror).symm
      · cases herror

end Arguments

/-- The parser reads an optional mode and the seven flags with any values, in any
order, and raises the one error on everything else. -/
theorem parse_host_argv_iff (argv : List String) :
    (∀ mode inputs, parseHostArgv argv = .ok (mode, inputs) ↔
      ∃ given pairs, argv = given ++ written pairs ∧ Given given mode ∧ Complete pairs ∧
        ∀ pair ∈ pairs, inputs.value pair.1 = some pair.2) ∧
    (∀ given mode pairs pairs', Given given mode → Complete pairs → pairs.Perm pairs' →
      argv = given ++ written pairs → parseHostArgv argv ≠ .error unavailable ∧
        parseHostArgv (given ++ written pairs') = parseHostArgv argv) ∧
    ((∀ mode inputs, parseHostArgv argv ≠ .ok (mode, inputs)) →
      parseHostArgv argv = .error unavailable) := by
  refine ⟨parseHostArgv_eq_ok_iff argv, ?_, ?_⟩
  · intro given mode pairs pairs' hgiven hcomplete hperm hargv
    have hcomplete' : Complete pairs' := (hperm.map Prod.fst).symm.trans hcomplete
    obtain ⟨-, hnodup, -⟩ := complete_iff.mp hcomplete
    let inputs := HostInputs.ofValues fun flag => (Dict.update .empty pairs).getD flag ""
    have hvalues : ∀ pair ∈ pairs, inputs.value pair.1 = some pair.2 := by
      intro pair hpair
      have hflag := (complete_iff.mp hcomplete).1 pair hpair
      rw [value_ofValues _ hflag, Dict.getD, (update_get? hnodup).mpr hpair]
      rfl
    have hfirst := (parseHostArgv_eq_ok_iff argv mode inputs).mpr
      ⟨given, pairs, hargv, hgiven, hcomplete, hvalues⟩
    have hsecond := (parseHostArgv_eq_ok_iff (given ++ written pairs') mode inputs).mpr
      ⟨given, pairs', rfl, hgiven, hcomplete',
        fun pair hpair => hvalues pair (hperm.symm.subset hpair)⟩
    rw [hfirst, hsecond]
    exact ⟨by simp, rfl⟩
  · intro hnone
    cases hparse : parseHostArgv argv with
    | error error => rw [parseHostArgv_error hparse]
    | ok found => exact absurd hparse (hnone found.1 found.2)

end HostArguments

end HermesPipeline
