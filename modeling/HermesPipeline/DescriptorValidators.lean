/-
The two validators of a runtime descriptor.  The shim's mirrors the runtime's by
hand: it also asks five fields and the source of the marker to be texts, and it
reads numbers from texts of digits, with a conversion that can raise.
-/
import HermesPipeline.ProcessIdentity
import HermesPipeline.ReceiptStore

namespace HermesPipeline

open Lib

namespace DescriptorValidators

open ReceiptStore (pyEq)
open ProcessIdentity (Observation)

def requiredFields : List String :=
  ["descriptor_version", "protocol_version", "pid", "start_identity",
    "creation_time", "process_start_marker", "port", "token", "token_generation",
    "release", "state_root_identity"]

/-- `DESCRIPTOR_VERSION` and `PROTOCOL_VERSION` of both sides. -/
def descriptorVersion : Int := 1

def protocolVersion : Int := 1

def numberFields : List String := ["pid", "port", "token_generation"]

def textFields : List String :=
  ["start_identity", "token", "release", "creation_time", "state_root_identity"]

variable (document : Dict String Json)

/-- The problems with the names of the fields, the same on both sides. -/
def nameProblems : List String :=
  let unknown := ((document.rows.map Prod.fst).filter fun name =>
    !requiredFields.contains name).insertionSort (· ≤ ·)
  (if unknown.isEmpty then [] else
    ["unknown field(s): " ++ ", ".intercalate unknown]) ++
  requiredFields.filterMap fun field =>
    if (document.get? field).isNone then some ("missing field '" ++ field ++ "'")
    else none

/-- The member is there and Python finds it equal to the number. -/
def versionIs (field : String) (version : Int) : Bool :=
  match document.get? field with
  | some value => pyEq value (.int version)
  | none => false

namespace Shim

/-- `_as_int`; the outer `none` stands for a raised `ValueError`. -/
def asInt (value : Json) : Option (Option Int) :=
  match value with
  | .int n => some (some n)
  | .str text => if isPyDigit text then (pyInt text).map some else some none
  | _ => some none

def numberProblems (field : String) : Option (List String) :=
  match document.get? field with
  | none => some []
  | some value => (asInt value).map fun number =>
      if number.isNone then [field ++ " must be an integer"] else []

def textProblems (field : String) : List String :=
  match document.get? field with
  | none => []
  | some (.str _) => []
  | some _ => [field ++ " must be a string"]

def markerProblems : List String :=
  match document.get? "process_start_marker" with
  | some (.obj members) =>
      if ((Json.member? members "value").bind Json.text?).isNone ||
          ((Json.member? members "source").bind Json.text?).isNone then
        ["process_start_marker needs string value and source"]
      else []
  | _ => ["process_start_marker must be an object"]

/-- `validate_descriptor` of the shim; `none` stands for a raised exception. -/
def validateDescriptor : Option (List String) :=
  (numberFields.mapM (numberProblems document)).map fun numbers =>
    nameProblems document ++
    (if (document.get? "descriptor_version").isSome &&
        !versionIs document "descriptor_version" descriptorVersion then
      ["unsupported descriptor_version"] else []) ++
    (if (document.get? "protocol_version").isSome &&
        !versionIs document "protocol_version" protocolVersion then
      ["unsupported protocol_version"] else []) ++
    numbers.flatten ++ textFields.flatMap (textProblems document) ++
    markerProblems document

/-- `int(document["pid"])`; `none` stands for a raised exception. -/
def pidOf : Option Int :=
  match document.get? "pid" with
  | some (.int n) => some n
  | some (.str text) => pyInt text
  | some (.bool value) => some (if value then 1 else 0)
  | some (.float value) => some (value.num.tdiv value.den)
  | _ => none

/-- `is_stale` on a document that was read; `none` stands for a raised
exception. -/
def isStale (seen : Observation) : Option Bool :=
  (pidOf document).bind fun _ =>
    (ProcessIdentity.Shim.processMatchesIdentity seen
      ((document.get? "process_start_marker").getD .null)).map not

end Shim

namespace Runtime

def numberProblems (field : String) : List String :=
  match document.get? field with
  | some (.int _) => []
  | _ => [field ++ " must be an integer"]

def markerProblems : List String :=
  match document.get? "process_start_marker" with
  | some (.obj members) =>
      if ((Json.member? members "value").bind Json.text?).isNone then
        ["process_start_marker must carry a string value"]
      else []
  | _ => ["process_start_marker must carry a string value"]

/-- `validate_descriptor` of the runtime, which cannot raise. -/
def validateDescriptor : List String :=
  nameProblems document ++
  (if !versionIs document "descriptor_version" descriptorVersion then
    ["unsupported descriptor_version"] else []) ++
  (if !versionIs document "protocol_version" protocolVersion then
    ["unsupported protocol_version"] else []) ++
  numberFields.flatMap (numberProblems document) ++ markerProblems document

end Runtime

section Shapes

/-- What both sides check. -/
structure Common (document : Dict String Json) : Prop where
  names : nameProblems document = []
  descriptorVersion :
    versionIs document "descriptor_version" descriptorVersion = true
  protocolVersion : versionIs document "protocol_version" protocolVersion = true
  marker : ∃ members value, document.get? "process_start_marker" =
    some (.obj members) ∧ Json.member? members "value" = some (.str value)

/-- The three numbers are JSON numbers without a fraction. -/
def NumbersAreInts : Prop :=
  ∀ field ∈ numberFields, ∃ n, document.get? field = some (.int n)

/-- The three numbers are such numbers or texts of digits that `int` reads. -/
def NumbersReadable : Prop :=
  ∀ field ∈ numberFields, ∃ value n, document.get? field = some value ∧
    Shim.asInt value = some (some n)

/-- No number field is a text of digits that `int` refuses. -/
def DigitsReadable : Prop :=
  ∀ field ∈ numberFields, ∀ text, document.get? field = some (.str text) →
    isPyDigit text = true → pyInt text ≠ none

/-- The five text fields and the source of the marker are texts. -/
def TextsAreTexts : Prop :=
  (∀ field ∈ textFields, ∃ text, document.get? field = some (.str text)) ∧
  ∀ members, document.get? "process_start_marker" = some (.obj members) →
    ∃ source, Json.member? members "source" = some (.str source)

end Shapes

section Verdicts

variable {document : Dict String Json}

theorem text?_isNone_iff (value : Option Json) :
    (value.bind Json.text?).isNone = false ↔ ∃ text, value = some (.str text) := by
  cases value with
  | none => simp
  | some value => cases value <;> simp [Json.text?]

theorem runtime_markerProblems_iff :
    Runtime.markerProblems document = [] ↔
      ∃ members value, document.get? "process_start_marker" = some (.obj members) ∧
        Json.member? members "value" = some (.str value) := by
  unfold Runtime.markerProblems
  split
  · rename_i members hmarker
    rw [hmarker]
    by_cases hvalue : ((Json.member? members "value").bind Json.text?).isNone = true
    · simp only [hvalue, ↓reduceIte, List.cons_ne_nil, false_iff]
      rintro ⟨members', value, hmembers, hmember⟩
      cases hmembers
      simp [hmember, Json.text?] at hvalue
    · have htext := (text?_isNone_iff _).mp (Bool.eq_false_iff.mpr hvalue)
      obtain ⟨value, hmember⟩ := htext
      rw [if_neg hvalue]
      exact ⟨fun _ => ⟨members, value, rfl, hmember⟩, fun _ => rfl⟩
  · rename_i hother
    simp only [List.cons_ne_nil, false_iff]
    rintro ⟨members, value, hmarker, -⟩
    exact hother members hmarker

theorem shim_markerProblems_iff :
    Shim.markerProblems document = [] ↔
      ∃ members value source,
        document.get? "process_start_marker" = some (.obj members) ∧
        Json.member? members "value" = some (.str value) ∧
        Json.member? members "source" = some (.str source) := by
  unfold Shim.markerProblems
  split
  · rename_i members hmarker
    rw [hmarker]
    constructor
    · intro hnil
      have hboth : (((Json.member? members "value").bind Json.text?).isNone ||
          ((Json.member? members "source").bind Json.text?).isNone) = false := by
        by_contra htrue
        rw [Bool.not_eq_false] at htrue
        rw [if_pos htrue] at hnil
        cases hnil
      rw [Bool.or_eq_false_iff, text?_isNone_iff, text?_isNone_iff] at hboth
      obtain ⟨⟨value, hvalue⟩, source, hsource⟩ := hboth
      exact ⟨members, value, source, rfl, hvalue, hsource⟩
    · rintro ⟨members', value, source, hmembers, hvalue, hsource⟩
      cases hmembers
      simp [hvalue, hsource, Json.text?]
  · rename_i hother
    simp only [List.cons_ne_nil, false_iff]
    rintro ⟨members, value, source, hmarker, -⟩
    exact hother members hmarker

theorem runtime_numberProblems_iff (field : String) :
    Runtime.numberProblems document field = [] ↔
      ∃ n, document.get? field = some (.int n) := by
  unfold Runtime.numberProblems
  split
  · rename_i n hn
    simp [hn]
  · rename_i hother
    simp only [List.cons_ne_nil, false_iff]
    rintro ⟨n, hn⟩
    exact hother n hn

theorem if_nil_iff (condition : Bool) (problem : String) :
    (if condition = true then [problem] else []) = [] ↔ condition = false := by
  cases condition <;> simp

/-- The runtime finds no problem exactly when the shared checks pass and the
numbers are JSON numbers. -/
theorem runtime_ok_iff :
    Runtime.validateDescriptor document = [] ↔
      Common document ∧ NumbersAreInts document := by
  simp only [Runtime.validateDescriptor, List.append_eq_nil_iff, if_nil_iff,
    Bool.not_eq_false', List.flatMap_eq_nil_iff, runtime_numberProblems_iff,
    runtime_markerProblems_iff]
  constructor
  · rintro ⟨⟨⟨⟨hnames, hdescriptor⟩, hprotocol⟩, hnumbers⟩, hmarker⟩
    exact ⟨⟨hnames, hdescriptor, hprotocol, hmarker⟩, hnumbers⟩
  · rintro ⟨hcommon, hnumbers⟩
    exact ⟨⟨⟨⟨hcommon.names, hcommon.descriptorVersion⟩, hcommon.protocolVersion⟩,
      hnumbers⟩, hcommon.marker⟩

/-- The conversion of a number field raises exactly for digits that `int`
refuses. -/
theorem shim_asInt_eq_none_iff (value : Json) :
    Shim.asInt value = none ↔
      ∃ text, value = .str text ∧ isPyDigit text = true ∧ pyInt text = none := by
  cases value with
  | str text =>
      by_cases hdigit : isPyDigit text = true
      · simp [Shim.asInt, hdigit]
      · simp [Shim.asInt, hdigit]
  | _ => simp [Shim.asInt]

theorem shim_numberProblems_none_iff (field : String) :
    Shim.numberProblems document field = none ↔
      ∃ text, document.get? field = some (.str text) ∧ isPyDigit text = true ∧
        pyInt text = none := by
  unfold Shim.numberProblems
  cases hfield : document.get? field with
  | none => simp
  | some value =>
      simp only [Option.map_eq_none_iff, shim_asInt_eq_none_iff, Option.some.injEq]

theorem shim_numberProblems_nil_iff (field : String)
    (hpresent : (document.get? field).isSome = true) :
    Shim.numberProblems document field = some [] ↔
      ∃ value n, document.get? field = some value ∧
        Shim.asInt value = some (some n) := by
  unfold Shim.numberProblems
  cases hfield : document.get? field with
  | none =>
      rw [hfield] at hpresent
      cases hpresent
  | some value =>
      cases hint : Shim.asInt value with
      | none => simp [hint]
      | some number => cases number <;> simp [hint]

theorem mapM_eq_none_iff {f : String → Option (List String)} (fields : List String) :
    fields.mapM f = none ↔ ∃ field ∈ fields, f field = none := by
  induction fields with
  | nil => simp
  | cons field rest ih =>
      simp only [List.mem_cons, exists_eq_or_imp, ← ih]
      cases hfield : f field with
      | none => simp [List.mapM_cons, hfield]
      | some problems => cases hrest : rest.mapM f <;>
          simp [List.mapM_cons, hfield, hrest]

theorem mapM_flatten_eq_nil_iff {f : String → Option (List String)}
    (fields : List String) :
    (∃ problems, fields.mapM f = some problems ∧ problems.flatten = []) ↔
      ∀ field ∈ fields, f field = some [] := by
  induction fields with
  | nil => simp
  | cons field rest ih =>
      rw [List.forall_mem_cons, ← ih]
      cases hfield : f field with
      | none => simp [List.mapM_cons, hfield]
      | some problems =>
          cases hrest : rest.mapM f with
          | none => simp [List.mapM_cons, hfield, hrest]
          | some others => simp [List.mapM_cons, hfield, hrest]

/-- The shim raises exactly for digits that `int` refuses. -/
theorem shim_raises_iff :
    Shim.validateDescriptor document = none ↔ ¬ DigitsReadable document := by
  simp only [Shim.validateDescriptor, Option.map_eq_none_iff, mapM_eq_none_iff,
    shim_numberProblems_none_iff, DigitsReadable, not_forall, exists_prop, ne_eq,
    not_not]

theorem shim_textProblems_iff (field : String)
    (hpresent : (document.get? field).isSome = true) :
    Shim.textProblems document field = [] ↔
      ∃ text, document.get? field = some (.str text) := by
  unfold Shim.textProblems
  split
  · rename_i hnone
    rw [hnone] at hpresent
    cases hpresent
  · rename_i text htext
    simp [htext]
  · rename_i value hother hvalue
    simp only [List.cons_ne_nil, hvalue, Option.some.injEq, false_iff]
    rintro ⟨text, rfl⟩
    exact hother text rfl

theorem isSome_of_names (hnames : nameProblems document = []) {field : String}
    (hfield : field ∈ requiredFields) : (document.get? field).isSome = true := by
  have hmissing := (List.append_eq_nil_iff.mp hnames).2
  have hnone := List.filterMap_eq_nil_iff.mp hmissing field hfield
  by_contra hfalse
  rw [Bool.not_eq_true, Option.isSome_eq_false_iff] at hfalse
  rw [if_pos hfalse] at hnone
  cases hnone

/-- The shim finds no problem exactly when the shared checks pass, the numbers
can be read and the texts are texts. -/
theorem shim_ok_iff :
    Shim.validateDescriptor document = some [] ↔
      Common document ∧ NumbersReadable document ∧ TextsAreTexts document := by
  have hsplit : Shim.validateDescriptor document = some [] ↔
      nameProblems document = [] ∧
      ((document.get? "descriptor_version").isSome &&
        !versionIs document "descriptor_version" descriptorVersion) = false ∧
      ((document.get? "protocol_version").isSome &&
        !versionIs document "protocol_version" protocolVersion) = false ∧
      (∀ field ∈ numberFields, Shim.numberProblems document field = some []) ∧
      (∀ field ∈ textFields, Shim.textProblems document field = []) ∧
      Shim.markerProblems document = [] := by
    rw [← mapM_flatten_eq_nil_iff, Shim.validateDescriptor, Option.map_eq_some_iff]
    simp only [List.append_eq_nil_iff, if_nil_iff, List.flatMap_eq_nil_iff]
    constructor
    · rintro ⟨numbers, hmap, ⟨⟨⟨⟨⟨hnames, hdescriptor⟩, hprotocol⟩, hnumbers⟩, htexts⟩,
        hmarker⟩⟩
      exact ⟨hnames, hdescriptor, hprotocol, ⟨numbers, hmap, hnumbers⟩, htexts,
        hmarker⟩
    · rintro ⟨hnames, hdescriptor, hprotocol, ⟨numbers, hmap, hnumbers⟩, htexts,
        hmarker⟩
      exact ⟨numbers, hmap, ⟨⟨⟨⟨⟨hnames, hdescriptor⟩, hprotocol⟩, hnumbers⟩, htexts⟩,
        hmarker⟩⟩
  rw [hsplit]
  by_cases hnames : nameProblems document = []
  · have hpresent : ∀ field ∈ requiredFields, (document.get? field).isSome = true :=
      fun field hfield => isSome_of_names hnames hfield
    have hnumbers : (∀ field ∈ numberFields,
        Shim.numberProblems document field = some []) ↔ NumbersReadable document :=
      forall₂_congr fun field hfield => shim_numberProblems_nil_iff field
        (hpresent field (by revert field; decide))
    have htexts : (∀ field ∈ textFields, Shim.textProblems document field = []) ↔
        ∀ field ∈ textFields, ∃ text, document.get? field = some (.str text) :=
      forall₂_congr fun field hfield => shim_textProblems_iff field
        (hpresent field (by revert field; decide))
    rw [hnumbers, htexts, shim_markerProblems_iff,
      hpresent "descriptor_version" (by decide),
      hpresent "protocol_version" (by decide)]
    simp only [Bool.true_and, Bool.not_eq_false', hnames, true_and]
    constructor
    · rintro ⟨hdescriptor, hprotocol, hreadable, htext, members, value, source,
        hmarker, hvalue, hsource⟩
      refine ⟨⟨hnames, hdescriptor, hprotocol, members, value, hmarker, hvalue⟩,
        hreadable, htext, ?_⟩
      intro members' hmarker'
      rw [hmarker] at hmarker'
      cases hmarker'
      exact ⟨source, hsource⟩
    · rintro ⟨hcommon, hreadable, htext, hsources⟩
      obtain ⟨members, value, hmarker, hvalue⟩ := hcommon.marker
      obtain ⟨source, hsource⟩ := hsources members hmarker
      exact ⟨hcommon.descriptorVersion, hcommon.protocolVersion, hreadable, htext,
        members, value, source, hmarker, hvalue, hsource⟩
  · constructor
    · rintro ⟨hnil, -⟩
      exact absurd hnil hnames
    · rintro ⟨hcommon, -⟩
      exact absurd hcommon.names hnames

end Verdicts

section Agreement

variable {document : Dict String Json}

/-- A probe of the process raises: a read of `/proc` that is needed, or
`os.kill` on a pid whose marker cannot be read. -/
def ProbesRaise (seen : Observation) (members : List (String × Json))
    (value : String) : Prop :=
  seen.nt = false ∧
    match ProcessIdentity.linuxStarttimeTicks seen.stat with
    | none => True
    | some none => seen.kill = .raises
    | some (some current) =>
        ProcessIdentity.Alike members current value ∧ seen.state = .raises

theorem alive_eq_none_iff (seen : Observation) :
    ProcessIdentity.alive seen = none ↔ seen.nt = false ∧ seen.state = .raises := by
  unfold ProcessIdentity.alive
  cases seen.nt with
  | true => simp
  | false =>
      rcases seen.state with _ | _ | (_ | ⟨first, rest⟩) <;>
        simp [ProcessIdentity.linuxProcessIsZombie]

theorem notProvablyAbsent_eq_none_iff (seen : Observation) :
    ProcessIdentity.notProvablyAbsent seen = none ↔
      seen.nt = false ∧ seen.kill = .raises := by
  unfold ProcessIdentity.notProvablyAbsent
  cases seen.nt with
  | true => simp
  | false => cases seen.kill <;> simp

/-- The shim's check of a process raises exactly when one of its probes does. -/
theorem processMatchesIdentity_eq_none_iff (seen : Observation)
    {members : List (String × Json)} {value : String}
    (hvalue : Json.member? members "value" = some (.str value)) :
    ProcessIdentity.Shim.processMatchesIdentity seen (.obj members) = none ↔
      ProbesRaise seen members value := by
  have hread : seen.nt = true →
      ProcessIdentity.Shim.readProcessStartMarker seen =
        some (ProcessIdentity.win32CreationTime seen.creation) :=
    fun hnt => if_pos hnt
  have hticks : seen.nt = false →
      ProcessIdentity.Shim.readProcessStartMarker seen =
        ProcessIdentity.linuxStarttimeTicks seen.stat :=
    fun hnt => if_neg (by simp [hnt])
  cases hmarker : ProcessIdentity.Shim.readProcessStartMarker seen with
  | none =>
      cases hnt : seen.nt with
      | true =>
          rw [hread hnt] at hmarker
          cases hmarker
      | false =>
          rw [hticks hnt] at hmarker
          simp [ProcessIdentity.Shim.processMatchesIdentity, hticks hnt, hmarker,
            ProbesRaise, hnt]
  | some marker =>
      cases marker with
      | none =>
          simp only [ProcessIdentity.Shim.processMatchesIdentity, hmarker,
            notProvablyAbsent_eq_none_iff, ProbesRaise]
          refine and_congr_right fun hnt => ?_
          rw [hticks hnt] at hmarker
          rw [hmarker]
      | some current =>
          rw [ProcessIdentity.shim_of_current hmarker hvalue, ProbesRaise]
          by_cases halike : ProcessIdentity.Alike members current value
          · rw [if_pos halike, alive_eq_none_iff]
            refine and_congr_right fun hnt => ?_
            rw [hticks hnt] at hmarker
            simp only [hmarker, halike, true_and]
          · rw [if_neg halike]
            simp only [reduceCtorEq, false_iff, not_and]
            intro hnt
            rw [hticks hnt] at hmarker
            simp only [hmarker, halike, false_and, not_false_eq_true]

/-- The two validators agree on a document, neither raises, and looking for the
process of an accepted document does not raise either. -/
def ValidatorsAgree (document : Dict String Json) (seen : Observation) : Prop :=
  (Shim.validateDescriptor document = some [] ↔
    Runtime.validateDescriptor document = []) ∧
  Shim.validateDescriptor document ≠ none ∧
  (Shim.validateDescriptor document = some [] → Shim.isStale document seen ≠ none)

/-- Where the shared checks pass, numbers that are JSON numbers come with texts
that are texts, and the other way round for numbers that can be read. -/
def SameTypes (document : Dict String Json) : Prop :=
  Common document →
    (NumbersAreInts document → TextsAreTexts document) ∧
    (NumbersReadable document → TextsAreTexts document → NumbersAreInts document)

/-- The probes for the process of a document that has the shim's shape do not
raise. -/
def ProbesAnswer (document : Dict String Json) (seen : Observation) : Prop :=
  Common document → NumbersReadable document → TextsAreTexts document →
    ∀ members value, document.get? "process_start_marker" = some (.obj members) →
      Json.member? members "value" = some (.str value) →
        ¬ ProbesRaise seen members value

theorem numbersReadable_of_ints (h : NumbersAreInts document) :
    NumbersReadable document := by
  intro field hfield
  obtain ⟨n, hn⟩ := h field hfield
  exact ⟨.int n, n, hn, rfl⟩

/-- The pid of a document that the shim accepts can be read. -/
theorem pidOf_of_readable (h : NumbersReadable document) :
    ∃ pid, Shim.pidOf document = some pid := by
  obtain ⟨value, n, hvalue, hint⟩ := h "pid" (by decide)
  cases value with
  | int m => exact ⟨m, by simp [Shim.pidOf, hvalue]⟩
  | str text =>
      refine ⟨n, ?_⟩
      by_cases hdigit : isPyDigit text = true
      · simpa [Shim.asInt, hdigit, Shim.pidOf, hvalue] using hint
      · simp [Shim.asInt, hdigit] at hint
  | _ => simp [Shim.asInt] at hint

end Agreement

namespace DescriptorWitness

/-- A document whose pid is a superscript two. -/
def superscript : Dict String Json where
  rows := [("pid", .str "²")]
  unique := by simp

/-- A document with the shim's shape whose port is a text of digits. -/
def quoted : Dict String Json where
  rows :=
    [("descriptor_version", .int 1), ("protocol_version", .int 1),
      ("pid", .int 4242), ("start_identity", .str "aa"),
      ("creation_time", .str "2026-08-12T00:00:00.000000Z"),
      ("process_start_marker", .obj [("value", .str "4242"),
        ("source", .str ProcessIdentity.linuxSource)]),
      ("port", .str "8791"), ("token", .str "t"), ("token_generation", .int 1),
      ("release", .str "0.1.0"), ("state_root_identity", .str "s")]
  unique := by simp

theorem quoted_version (field : String) (version : Int)
    (hfield : quoted.get? field = some (.int version)) :
    versionIs quoted field version = true := by
  simp [versionIs, hfield, pyEq, ReceiptStore.number?]

theorem quoted_names : nameProblems quoted = [] := by decide

end DescriptorWitness

end DescriptorValidators

end HermesPipeline
