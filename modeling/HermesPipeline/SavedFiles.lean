/-
What a new bridge reads back.  Every file of a state root was written from some
memory of a bridge, so what holds of every memory holds of the rows that a new
bridge loads, up to the defaults of the fields.
-/
import HermesPipeline.SessionMoves

namespace HermesPipeline

open Lib KernelController KernelBridge

namespace Descriptor

/-- A row as it comes back from its file: the listed fields, with defaults. -/
def coerced (fields : List (String × String)) (row : Dict String String) :
    Dict String String :=
  rowOf (fields.map fun field => (field.1, row.getD field.1 field.2))

section Rows

variable {str : Json → String} (hstr : ∀ text, str (.str text) = text)

include hstr

theorem coerceRow_texts (fields : List (String × String))
    (row : Dict String String) :
    coerceRow str fields (row.rows.map fun field => (field.1, .str field.2)) =
      coerced fields row := by
  unfold coerceRow coerced
  congr 1
  apply List.map_congr_left
  intro field hfield
  rw [Json.member?_ofTexts, Dict.getD, Dict.get?, Keyed.find?]
  cases row.rows.find? fun entry => decide (entry.1 = field.1) with
  | none => simp [hstr]
  | some entry => simp [hstr]

/-- Rows that were dumped and loaded. -/
theorem get?_coerceRows (fields : List (String × String)) (rows : Rows)
    (pl : String) :
    (coerceRows str fields (rows.rows.map fun entry =>
        (entry.1, Json.ofTexts entry.2.rows))).get? pl =
      (rows.get? pl).map (coerced fields) := by
  have hupdate : coerceRows str fields (rows.rows.map fun entry =>
        (entry.1, Json.ofTexts entry.2.rows)) =
      Dict.update .empty (rows.rows.map fun entry =>
        (entry.1, coerced fields entry.2)) := by
    simp only [coerceRows, Dict.update, List.foldl_map, Json.ofTexts,
      coerceRow_texts hstr]
  have hkeys : ((rows.rows.map fun entry =>
      (entry.1, coerced fields entry.2)).map Prod.fst).Nodup := by
    rw [List.map_map]
    exact rows.unique
  rw [hupdate, Dict.get?_update_of_nodup _ hkeys, Dict.get?_empty, Option.or_none,
    List.find?_map, Dict.get?, Keyed.find?]
  simp only [Option.map_map]
  rfl

end Rows

/-- A file that was written from this memory. -/
def SavedIn (files : Files) (bridge : Bridge) (file : String) : Prop :=
  files.get? file = some (some (document bridge file))

section Load

variable {str : Json → String} (hstr : ∀ text, str (.str text) = text)
  {files : Files} {bridge : Bridge}

theorem documentOf_missing {file : String} (hmissing : files.get? file = none) :
    documentOf files file = [] := by
  simp only [documentOf, parseJson, hmissing]

theorem documentOf_saved {file : String} {members : List (String × Json)}
    (hsaved : files.get? file = some (some (.obj members))) :
    documentOf files file = members := by
  simp only [documentOf, parseJson, hsaved]

/-- No file spoils the bridge that reads it. -/
def Sound (files : Files) : Prop :=
  ∀ file, files.get? file = none ∨
    ∃ members, files.get? file = some (some (.obj members))

theorem Sound.spoils (hsound : Sound files) (names : List String) :
    spoils files names = false := by
  rw [Descriptor.spoils, List.any_eq_false]
  intro name hname
  rcases hsound name with hmissing | ⟨members, hsaved⟩
  · simp [parseJson, hmissing]
  · simp [parseJson, hsaved]

theorem Sound.soundDocument (hsound : Sound files) (names : List String)
    (file : String) : soundDocument files names file = documentOf files file := by
  rw [Descriptor.soundDocument, hsound.spoils, if_neg (by simp)]

/-- The rows of a station that has its own file. -/
theorem bundled_saved {file : String} {members : List (String × Json)}
    (hsaved : files.get? file = some (some (.obj members))) (part : String)
    (fields : List (String × String)) :
    bundled str files file part fields = coerceRows str fields members := by
  rw [← documentOf_saved hsaved]
  unfold bundled
  split
  · next hmissing =>
      rw [hsaved] at hmissing
      cases hmissing
  · rfl

/-- The rows of a station that has no file of its own come from the bundle. -/
theorem bundled_missing (hsound : Sound files) {file : String}
    (hmissing : files.get? file = none) {members document : List (String × Json)}
    (hstages : files.get? "stages.json" = some (some (.obj members)))
    {part : String} (hpart : Json.member? members part = some (.obj document))
    (fields : List (String × String)) :
    bundled str files file part fields = coerceRows str fields document := by
  unfold bundled
  rw [hsound.soundDocument, documentOf_saved hstages, hpart, hmissing]

theorem bundled_nothing (hsound : Sound files) {file : String}
    (hmissing : files.get? file = none)
    (hstages : files.get? "stages.json" = none) (part : String)
    (fields : List (String × String)) :
    bundled str files file part fields = .empty := by
  unfold bundled
  rw [hsound.soundDocument, documentOf_missing hstages,
    documentOf_missing hmissing]
  rfl

include hstr

theorem get?_loadPrd (hsaved : SavedIn files bridge "prd.json") (pl : String) :
    (loadPrd str files).get? pl =
      (bridge.prd.get? pl).map (coerced prdFields) := by
  rw [loadPrd, documentOf_saved hsaved]
  exact get?_coerceRows hstr _ _ _

theorem get?_loadArch (hsaved : SavedIn files bridge "architecture.json")
    (pl : String) :
    (loadArch str files).get? pl =
      (bridge.arch.get? pl).map (coerced archFields) := by
  rw [loadArch, documentOf_saved hsaved]
  exact get?_coerceRows hstr _ _ _

theorem get?_loadDev (hsaved : SavedIn files bridge "development.json")
    (pl : String) :
    (loadDev str files).get? pl =
      (bridge.dev.get? pl).map (coerced devFields) := by
  rw [loadDev, bundled_saved hsaved]
  exact get?_coerceRows hstr _ _ _

theorem get?_loadVerify (hsaved : SavedIn files bridge "verify.json")
    (pl : String) :
    (loadVerify str files).get? pl =
      (bridge.verify.get? pl).map (coerced verifyFields) := by
  rw [loadVerify, bundled_saved hsaved]
  exact get?_coerceRows hstr _ _ _

theorem get?_loadApprovals (hsaved : SavedIn files bridge "approvals.json")
    (pl : String) :
    (loadApprovals str files).get? pl =
      (bridge.approvals.get? pl).map (coerced approvalFields) := by
  rw [loadApprovals, bundled_saved hsaved]
  exact get?_coerceRows hstr _ _ _

end Load

end Descriptor

section Registry

variable {str : Json → String} (hstr : ∀ text, str (.str text) = text)

/-- A registry that can be read back: no project is nameless, and members
belong to registered projects. -/
structure ProjectRegistry.Enrolled (registry : ProjectRegistry) : Prop where
  named : ∀ entry ∈ registry.projects.rows, entry.1 ≠ ""
  known : ∀ entry ∈ registry.members.rows,
    (registry.projects.get? entry.1.1).isSome = true

theorem ProjectRole.ofValue?_value (role : ProjectRole) :
    ProjectRole.ofValue? role.value = some role := by
  cases role <;> decide

/-- The registered projects, one after the other. -/
theorem foldl_register (entries : List (String × String))
    (registry : ProjectRegistry) :
    entries.foldl (fun registry entry => registry.register entry.1 entry.2)
        registry =
      ⟨registry.projects.update entries, registry.members⟩ := by
  induction entries generalizing registry with
  | nil => rfl
  | cons entry rest ih =>
      rw [List.foldl_cons, ih]
      rfl

/-- The admitted members, one after the other. -/
theorem foldlM_admitMember (entries : List ((String × String) × ProjectRole))
    (registry : ProjectRegistry)
    (hknown : ∀ entry ∈ entries,
      (registry.projects.get? entry.1.1).isSome = true) :
    entries.foldlM (fun registry entry =>
        registry.admitMember entry.1.1 entry.1.2 entry.2) registry =
      some ⟨registry.projects, registry.members.update entries⟩ := by
  induction entries generalizing registry with
  | nil => rfl
  | cons entry rest ih =>
      have hadmit : registry.admitMember entry.1.1 entry.1.2 entry.2 =
          some ⟨registry.projects, registry.members.set entry.1 entry.2⟩ :=
        if_pos (hknown entry List.mem_cons_self)
      rw [List.foldlM_cons, hadmit]
      exact ih _ fun other hother => hknown other (List.mem_cons_of_mem _ hother)

include hstr

/-- A registry comes back from its file. -/
theorem ProjectRegistry.load_dump {registry : ProjectRegistry}
    (henrolled : registry.Enrolled) {members : List (String × Json)}
    (hdump : Descriptor.dumpRegistry registry = .obj members) :
    ProjectRegistry.load str members = some registry := by
  cases hdump
  have hprojects : (registry.projects.rows.foldl (fun projects entry =>
      if entry.1 = "" then projects else projects.register entry.1 entry.2)
        ProjectRegistry.empty) = ⟨registry.projects, .empty⟩ := by
    have hregister := foldl_register registry.projects.rows ProjectRegistry.empty
    rw [show ProjectRegistry.empty.projects = .empty from rfl,
      Dict.update_empty_rows] at hregister
    rw [← show _ = (⟨registry.projects, .empty⟩ : ProjectRegistry) from hregister]
    apply List.foldl_ext
    intro projects entry hentry
    rw [if_neg (henrolled.named entry hentry)]
  have hmembers := foldlM_admitMember registry.members.rows
    ⟨registry.projects, .empty⟩ henrolled.known
  rw [show (⟨registry.projects, .empty⟩ : ProjectRegistry).members = .empty
    from rfl, Dict.update_empty_rows] at hmembers
  simpa [ProjectRegistry.load, Json.member?, Json.ofTexts,
    ProjectRegistry.objects, List.filterMap_map, hstr, List.foldl_map,
    List.foldlM_map, ProjectRole.ofValue?_value, hprojects] using hmembers

end Registry

namespace RootState

open Descriptor

/-- Every station file was written from a memory of this kind, and every other
file by a bridge or its settings. -/
structure Origin (I : Bridge → Prop) (files : Files) : Prop where
  station : ∀ file ∈ stationFiles, files.get? file = none ∨
    ∃ bridge, I bridge ∧ SavedIn files bridge file
  others : ∀ file ∉ stationFiles, files.get? file = none ∨
    ∃ value, files.get? file = some (some value) ∧ Written file value

/-- A new bridge: the rows of every station come from some memory of this kind,
and the approval object from the approval rows. -/
structure Reloaded (I : Bridge → Prop) (bridge : Bridge) : Prop where
  corrupt : bridge.corrupt = false
  prd : ∃ source, I source ∧ ∀ pl, bridge.prd.get? pl =
    (source.prd.get? pl).map (coerced prdFields)
  arch : ∃ source, I source ∧ ∀ pl, bridge.arch.get? pl =
    (source.arch.get? pl).map (coerced archFields)
  dev : ∃ source, I source ∧ ∀ pl, bridge.dev.get? pl =
    (source.dev.get? pl).map (coerced devFields)
  verify : ∃ source, I source ∧ ∀ pl, bridge.verify.get? pl =
    (source.verify.get? pl).map (coerced verifyFields)
  approvals : ∃ source, I source ∧ ∀ pl, bridge.approvals.get? pl =
    (source.approvals.get? pl).map (coerced approvalFields)
  approval : ∃ rows : Rows, (rows = .empty ∨ rows = bridge.approvals) ∧
    bridge.approval = (SolutionApproval.empty.restore rows).restore
      bridge.approvals

section Origin

variable {I : Bridge → Prop} {files : Files} {str : Json → String}

theorem written_obj {file : String} {value : Json} (hwritten : Written file value) :
    ∃ members, value = .obj members := by
  rcases hwritten with ⟨bridge, rfl⟩ | ⟨settings, rfl⟩
  · unfold document
    repeat' split
    all_goals exact ⟨_, rfl⟩
  · unfold settingsDocument
    repeat' split
    all_goals exact ⟨_, rfl⟩

theorem Origin.sound (horigin : Origin I files) : Sound files := by
  intro file
  by_cases hfile : file ∈ stationFiles
  · rcases horigin.station file hfile with hmissing | ⟨bridge, -, hsaved⟩
    · exact Or.inl hmissing
    · obtain ⟨members, hmembers⟩ := written_obj (Or.inl ⟨bridge, rfl⟩ :
        Written file (document bridge file))
      exact Or.inr ⟨members, by rw [hsaved, hmembers]⟩
  · rcases horigin.others file hfile with hmissing | ⟨value, hsaved, hwritten⟩
    · exact Or.inl hmissing
    · obtain ⟨members, rfl⟩ := written_obj hwritten
      exact Or.inr ⟨members, hsaved⟩

theorem origin_empty (I : Bridge → Prop) : Origin I .empty :=
  ⟨fun _ _ => Or.inl rfl, fun _ _ => Or.inl rfl⟩

theorem Origin.mono {J : Bridge → Prop} (horigin : Origin I files)
    (hmono : ∀ bridge, I bridge → J bridge) : Origin J files where
  station := by
    intro file hfile
    rcases horigin.station file hfile with hmissing | ⟨bridge, hbridge, hsaved⟩
    · exact Or.inl hmissing
    · exact Or.inr ⟨bridge, hmono bridge hbridge, hsaved⟩
  others := horigin.others

/-- The rows of one of the later stations, from its file or from the bundle. -/
theorem Origin.bundled (hstr : ∀ text, str (.str text) = text)
    (hempty : I emptyBridge) (horigin : Origin I files) {file part : String}
    {rows : Bridge → Rows} (hfile : file ∈ stationFiles)
    (hdocument : ∀ bridge, document bridge file = dumpRows (rows bridge))
    (hpart : ∀ bridge, Json.member? [("approvals", dumpRows bridge.approvals),
      ("development", dumpRows bridge.dev), ("verify", dumpRows bridge.verify)]
        part = some (dumpRows (rows bridge)))
    (hnothing : rows emptyBridge = .empty) (fields : List (String × String)) :
    ∃ source, I source ∧ ∀ pl, (Descriptor.bundled str files file part fields).get?
      pl = ((rows source).get? pl).map (coerced fields) := by
  have hsound := horigin.sound
  rcases horigin.station file hfile with hmissing | ⟨bridge, hbridge, hsaved⟩
  · rcases horigin.station "stages.json" (by decide) with
      hstages | ⟨bridge, hbridge, hstages⟩
    · refine ⟨emptyBridge, hempty, ?_⟩
      intro pl
      rw [bundled_nothing hsound hmissing hstages, hnothing]
      rfl
    · refine ⟨bridge, hbridge, ?_⟩
      intro pl
      rw [bundled_missing hsound hmissing hstages (hpart bridge)]
      exact get?_coerceRows hstr _ _ _
  · refine ⟨bridge, hbridge, ?_⟩
    intro pl
    rw [SavedIn, hdocument] at hsaved
    rw [bundled_saved hsaved]
    exact get?_coerceRows hstr _ _ _

/-- The rows of a planning station, from its file. -/
theorem Origin.rows (hstr : ∀ text, str (.str text) = text)
    (hempty : I emptyBridge) (horigin : Origin I files) {file : String}
    {rows : Bridge → Rows} (hfile : file ∈ stationFiles)
    (hdocument : ∀ bridge, document bridge file = dumpRows (rows bridge))
    (hnothing : rows emptyBridge = .empty) (fields : List (String × String)) :
    ∃ source, I source ∧ ∀ pl,
      (coerceRows str fields (documentOf files file)).get? pl =
        ((rows source).get? pl).map (coerced fields) := by
  rcases horigin.station file hfile with hmissing | ⟨bridge, hbridge, hsaved⟩
  · refine ⟨emptyBridge, hempty, ?_⟩
    intro pl
    rw [documentOf_missing hmissing, hnothing]
    rfl
  · refine ⟨bridge, hbridge, ?_⟩
    intro pl
    rw [SavedIn, hdocument] at hsaved
    rw [documentOf_saved hsaved]
    exact get?_coerceRows hstr _ _ _

/-- The approvals are restored from the rows that the new bridge has. -/
theorem loadApproval_eq (hsound : Sound files) :
    ∃ rows : Rows, (rows = .empty ∨ rows = loadApprovals str files) ∧
      loadApproval str files = (SolutionApproval.empty.restore rows).restore
        (loadApprovals str files) := by
  refine ⟨_, ?_, rfl⟩
  rcases hsound "approvals.json" with hmissing | ⟨members, hsaved⟩
  · left
    rw [documentOf_missing hmissing]
    rfl
  · right
    rw [loadApprovals, bundled_saved hsaved, documentOf_saved hsaved]

theorem Origin.reloaded (hstr : ∀ text, str (.str text) = text)
    (hempty : I emptyBridge) (horigin : Origin I files) {bridge : Bridge}
    (hload : load str files = some bridge) : Reloaded I bridge := by
  simp only [load, Option.bind_eq_bind, Option.bind_eq_some_iff, Option.pure_def,
    Option.some.injEq] at hload
  obtain ⟨registry, -, delivery, -, rfl⟩ := hload
  exact
    { corrupt := horigin.sound.spoils _
      prd := horigin.rows hstr hempty (by decide) (fun _ => rfl) rfl _
      arch := horigin.rows hstr hempty (by decide) (fun _ => rfl) rfl _
      dev := horigin.bundled hstr hempty (by decide) (fun _ => rfl)
        (fun _ => rfl) rfl _
      verify := horigin.bundled hstr hempty (by decide) (fun _ => rfl)
        (fun _ => rfl) rfl _
      approvals := horigin.bundled hstr hempty (by decide) (fun _ => rfl)
        (fun _ => rfl) rfl _
      approval := loadApproval_eq horigin.sound }

end Origin

section Reload

variable {I : Bridge → Prop} {files : Files} {str : Json → String}

/-- The records of a delivery file can always be read. -/
theorem foldlM_loadRecord (entries : List (String × DeliveryRecord))
    (records : Dict String DeliveryRecord) :
    ∃ loaded, (entries.map fun entry =>
        (entry.1, FakeDelivery.dumpRecord entry.2)).foldlM
      (fun (records : Dict String DeliveryRecord) entry =>
        match entry.2 with
        | .obj row => (loadRecord str row).map (Dict.set records entry.1)
        | _ => some records) records = some loaded := by
  induction entries generalizing records with
  | nil => exact ⟨records, rfl⟩
  | cons entry rest ih =>
      rw [List.map_cons, List.foldlM_cons]
      exact ih _

theorem exists_loadDelivery {members : List (String × Json)}
    (hwritten : Written "delivery.json" (.obj members)) :
    ∃ delivery, loadDelivery str members = some delivery := by
  rcases hwritten with ⟨bridge, hdocument⟩ | ⟨settings, hdocument⟩
  · cases hdocument
    obtain ⟨records, hrecords⟩ :=
      @foldlM_loadRecord str bridge.delivery.records.rows .empty
    simp only [loadDelivery, Json.member?]
    simp only [List.find?, String.reduceEq, decide_false, decide_true,
      Option.map_some]
    exact ⟨_, Option.bind_eq_some_iff.mpr ⟨records, hrecords, rfl⟩⟩
  · cases hdocument
    unfold loadDelivery
    rw [Json.member?_ofTexts, Json.member?_ofTexts, Json.member?_ofTexts]
    cases settings.requirements.rows.find? fun field =>
      decide (field.1 = "records") <;> exact ⟨_, rfl⟩

/-- A registry that can be read back makes a bridge that can be started. -/
theorem Origin.exists_load (hstr : ∀ text, str (.str text) = text)
    (horigin : Origin I files) {bridge : Bridge}
    (hregistry : SavedIn files bridge "projects.json")
    (henrolled : bridge.registry.Enrolled) :
    ∃ loaded, load str files = some loaded ∧
      loaded.registry = bridge.registry := by
  have hsound := horigin.sound
  have hregistered : ProjectRegistry.load str
      (soundDocument files [] "projects.json") = some bridge.registry := by
    rw [hsound.soundDocument, documentOf_saved hregistry]
    exact ProjectRegistry.load_dump hstr henrolled rfl
  have hdelivery : ∃ delivery, loadDelivery str (soundDocument files
      ["projects.json", "bindings.json"] "delivery.json") = some delivery := by
    rw [hsound.soundDocument]
    rcases horigin.others "delivery.json" (by decide) with
      hmissing | ⟨value, hsaved, hwritten⟩
    · rw [documentOf_missing hmissing]
      exact ⟨_, rfl⟩
    · obtain ⟨members, rfl⟩ := written_obj hwritten
      rw [documentOf_saved hsaved]
      exact exists_loadDelivery hwritten
  obtain ⟨delivery, hdelivery⟩ := hdelivery
  rw [load, hregistered, hdelivery]
  exact ⟨_, rfl, rfl⟩

/-- The baseline that an approval row stands for. -/
def restoredBaseline (pl : String) (row : Dict String String) :
    Option ApprovedBaseline :=
  if row.get? "approval_status" ≠ some "APPROVED" ∨
      row.getD "approver_id" "" = "" then none
  else some ⟨pl, row.getD "approver_id" "", row.getD "prd_id" "",
    row.getD "design_id" "", row.getD "testplan_id" ""⟩

/-- Restoring rows overrides what was approved before. -/
theorem get?_restore (approval : SolutionApproval) (rows : Rows) (pl : String) :
    (approval.restore rows).approved.get? pl =
      ((rows.get? pl).bind (restoredBaseline pl)).or
        (approval.approved.get? pl) := by
  have hunique := rows.unique
  have hget : rows.get? pl =
      (rows.rows.find? fun entry => decide (entry.1 = pl)).map Prod.snd := rfl
  rw [hget, SolutionApproval.restore]
  generalize rows.rows = entries at hunique
  induction entries generalizing approval with
  | nil => rfl
  | cons entry rest ih =>
      rw [List.map_cons, List.nodup_cons] at hunique
      rw [List.foldl_cons, ih _ hunique.2]
      have hrest : entry.1 = pl →
          (rest.find? fun entry => decide (entry.1 = pl)) = none := by
        intro heq
        rw [List.find?_eq_none]
        intro other hother hsame
        apply hunique.1
        rw [heq, ← of_decide_eq_true hsame]
        exact List.mem_map_of_mem hother
      by_cases heq : entry.1 = pl
      · subst heq
        rw [hrest rfl, List.find?_cons_of_pos (by simp)]
        dsimp only [Option.map_some, Option.map_none, Option.bind_none,
          Option.bind_some, Option.none_or]
        unfold restoredBaseline
        split
        · rfl
        · simp
      · rw [List.find?_cons_of_neg (by simpa using heq)]
        congr 1
        dsimp only
        split
        · rfl
        · exact Dict.get?_set_of_ne _ _ (Ne.symm heq)

end Reload

section Saving

variable {env : RootEnv} {commandId : String} {ids : RequestIds}
  {phase : Phase} {s s' : RootState}

/-- How a step changes the files: a station file is written from the memory
that the step leaves. -/
structure Saving (s s' : RootState) : Prop where
  station : ∀ file ∈ stationFiles, s'.files.get? file = s.files.get? file ∨
    SavedIn s'.files s'.bridge file
  others : ∀ file ∉ stationFiles, s'.files.get? file = s.files.get? file ∨
    ∃ value, s'.files.get? file = some (some value) ∧ Written file value

theorem saving_of_files (hfiles : s'.files = s.files) : Saving s s' := by
  constructor
  · intro file hfile
    rw [hfiles]
    exact Or.inl rfl
  · intro file hfile
    rw [hfiles]
    exact Or.inl rfl

theorem Frame.saving (hframe : Frame s s') : Saving s s' := by
  constructor
  · intro file hfile
    exact Or.inl (hframe.station hfile)
  · intro file hfile
    rcases hframe.files file with hsame | ⟨-, hwritten⟩
    · exact Or.inl hsame
    · exact Or.inr hwritten

theorem Rewritten.saving {names : List String} {bridge : Bridge}
    (hrewritten : Rewritten names bridge s s') : Saving s s' := by
  constructor
  · intro file hfile
    rcases hrewritten.files file with hsame | ⟨-, hsaved⟩
    · exact Or.inl hsame
    · right
      rw [SavedIn, hsaved, document_congr hrewritten.core hfile]
  · intro file hfile
    rcases hrewritten.files file with hsame | ⟨-, hsaved⟩
    · exact Or.inl hsame
    · exact Or.inr ⟨_, hsaved, Or.inl ⟨bridge, rfl⟩⟩

theorem Kept.saving {ws prj pl : String} {station : Station}
    {fields : Dict String String} {names : List String} {bridge : Bridge}
    (hkept : Kept env ws prj pl station fields names bridge s s') :
    Saving s s' := by
  constructor
  · intro file hfile
    rcases hkept.files file hfile with hsame | ⟨-, hsaved⟩
    · exact Or.inl hsame
    · right
      rw [SavedIn, hsaved, document_congr hkept.core hfile]
  · exact hkept.others

theorem Move.saving (hmove : Move env commandId ids phase s s') :
    Saving s s' := by
  cases hmove with
  | framed frame => exact frame.saving
  | launched launch => exact saving_of_files rfl
  | restored => exact saving_of_files rfl
  | enrolled rewritten => exact rewritten.saving
  | confirmed k grows type => exact saving_of_files rfl
  | planned absent kept => exact kept.saving
  | designed absent planned kept => exact kept.saving
  | pended absent rewritten => exact rewritten.saving
  | committed prd arch role kept => exact kept.saving
  | approved develops role => exact saving_of_files rfl
  | denied develops kept => exact kept.saving
  | developed develops kept => exact kept.saving
  | infra verifies kept => exact kept.saving
  | verified verifies kept => exact kept.saving
  | dropped rewritten => exact rewritten.saving
  | forgotten => exact saving_of_files rfl
  | counted rewritten => exact rewritten.saving

section Sync

variable {str : Json → String} (hstr : ∀ text, str (.str text) = text)

/-- What a new bridge would load is what it would have loaded before the step,
or what the memory holds after it. -/
def Follows (before after memory : Rows) (fields : List (String × String)) :
    Prop :=
  (∀ pl, after.get? pl = before.get? pl) ∨
    ∀ pl, after.get? pl = (memory.get? pl).map (coerced fields)

include hstr

theorem Saving.coerceRows (hsaving : Saving s s') {file : String}
    {rows : Bridge → Rows} (hfile : file ∈ stationFiles)
    (hdocument : ∀ bridge, document bridge file = dumpRows (rows bridge))
    (fields : List (String × String)) :
    Follows (Descriptor.coerceRows str fields (documentOf s.files file))
      (Descriptor.coerceRows str fields (documentOf s'.files file))
      (rows s'.bridge) fields := by
  rcases hsaving.station file hfile with hsame | hsaved
  · left
    intro pl
    simp only [documentOf, parseJson, hsame]
  · right
    intro pl
    rw [SavedIn, hdocument] at hsaved
    rw [documentOf_saved hsaved]
    exact get?_coerceRows hstr _ _ _

theorem Saving.bundled (hsaving : Saving s s') (hbefore : Sound s.files)
    (hsound : Sound s'.files)
    {file part : String} {rows : Bridge → Rows} (hfile : file ∈ stationFiles)
    (hdocument : ∀ bridge, document bridge file = dumpRows (rows bridge))
    (hpart : ∀ bridge, Json.member? [("approvals", dumpRows bridge.approvals),
      ("development", dumpRows bridge.dev), ("verify", dumpRows bridge.verify)]
        part = some (dumpRows (rows bridge)))
    (fields : List (String × String)) :
    Follows (Descriptor.bundled str s.files file part fields)
      (Descriptor.bundled str s'.files file part fields) (rows s'.bridge)
      fields := by
  rcases hsaving.station file hfile with hsame | hsaved
  · rcases hsaving.station "stages.json" (by decide) with hstages | hstages
    · left
      intro pl
      unfold Descriptor.bundled
      rw [hsound.soundDocument, hbefore.soundDocument]
      simp only [documentOf, parseJson, hsame, hstages]
    · cases hpresent : s.files.get? file with
      | none =>
          right
          intro pl
          rw [hpresent] at hsame
          rw [bundled_missing hsound hsame hstages (hpart _)]
          exact get?_coerceRows hstr _ _ _
      | some content =>
          left
          intro pl
          rcases hbefore file with hnone | ⟨members, hmembers⟩
          · rw [hpresent] at hnone
            cases hnone
          · rw [bundled_saved hmembers, bundled_saved (hsame.trans hmembers)]
  · right
    intro pl
    rw [SavedIn, hdocument] at hsaved
    rw [bundled_saved hsaved]
    exact get?_coerceRows hstr _ _ _

end Sync

/-- The files stay of one kind while the memory does. -/
theorem Origin.saving {I J : Bridge → Prop} (horigin : Origin I s.files)
    (hsaving : Saving s s') (hmono : ∀ bridge, I bridge → J bridge)
    (hmemory : J s'.bridge) : Origin J s'.files where
  station := by
    intro file hfile
    rcases hsaving.station file hfile with hsame | hsaved
    · simp only [SavedIn, hsame]
      exact (horigin.mono hmono).station file hfile
    · exact Or.inr ⟨s'.bridge, hmemory, hsaved⟩
  others := by
    intro file hfile
    rcases hsaving.others file hfile with hsame | hwritten
    · rw [hsame]
      exact horigin.others file hfile
    · exact Or.inr hwritten

end Saving

end RootState

end HermesPipeline
