/-
How the stages of a bridge run.  Each stage either leaves the stations alone or
keeps one row: it sets the row in memory, saves its file and records it.  What
is kept is said once, with what is certain when no write and no commit failed.
-/
import HermesPipeline.BridgeRuns

namespace HermesPipeline

open Lib KernelController KernelBridge

namespace KernelBridge

section Hydrate

variable (folded : Dict String String)

/-- The fields of a restored row, as the log has them. -/
def restored (names : List String) : Dict String String :=
  rowOf (names.map fun name => (name, folded.getD name ""))

def restoredPrd : Dict String String :=
  restored folded ["prd_id", "prd_status", "prd_gate"]

def restoredArch : Dict String String :=
  restored folded ["design_id", "testplan_id", "arch_status", "arch_gate"]

def restoredDev : Dict String String :=
  restored folded ["impl_id", "candidate_sha", "candidate_path", "dev_status",
    "candidate_gate"]

def restoredVerify : Dict String String :=
  (restored folded ["verify_status", "e2e_id", "acceptance_id"]).update
    [("verify_attempts", folded.getD "verify_attempts" "0"),
      ("infra_attempts", folded.getD "infra_attempts" "0")]

def restoredApproval : Dict String String :=
  (restored folded ["approval_status", "approver_id"]).update [("project_id", "")]

variable {folded}

theorem get?_eq_none_of_isEmpty (hempty : folded.rows.isEmpty = true)
    (name : String) : folded.get? name = none := by
  have hrows : folded = Keyed.empty :=
    Keyed.ext (List.isEmpty_iff.mp hempty)
  rw [hrows, Dict.get?_empty]

theorem get?_fill (rows : Rows) (present : Bool) (row : Dict String String)
    (pl p : String) :
    (if present ∧ rows.get? pl = none then rows.set pl row else rows).get? p =
      if p = pl ∧ rows.get? pl = none ∧ present = true then some row
      else rows.get? p := by
  by_cases hfill : present = true ∧ rows.get? pl = none
  · by_cases hp : p = pl
    · simp [hfill, hp]
    · simp [hfill, hp, Dict.get?_set_of_ne]
  · rw [if_neg hfill, if_neg]
    rintro ⟨-, hnone, hpresent⟩
    exact hfill ⟨hpresent, hnone⟩

variable (folded) (pl p : String) (bridge : Bridge)

theorem get?_hydrate_prd :
    (hydrate folded pl bridge).prd.get? p =
      if p = pl ∧ bridge.prd.get? pl = none ∧
        folded.getD "prd_status" "" ≠ "" then some (restoredPrd folded)
      else bridge.prd.get? p := by
  unfold hydrate
  split
  · next hempty =>
      simp [Dict.getD, get?_eq_none_of_isEmpty hempty]
  · refine (get?_fill bridge.prd
      (decide (folded.getD "prd_status" "" ≠ ""))
      (restoredPrd folded) pl p).trans ?_
    simp only [decide_eq_true_eq]

theorem get?_hydrate_arch :
    (hydrate folded pl bridge).arch.get? p =
      if p = pl ∧ bridge.arch.get? pl = none ∧
        folded.getD "arch_status" "" ≠ "" then some (restoredArch folded)
      else bridge.arch.get? p := by
  unfold hydrate
  split
  · next hempty =>
      simp [Dict.getD, get?_eq_none_of_isEmpty hempty]
  · refine (get?_fill bridge.arch
      (decide (folded.getD "arch_status" "" ≠ ""))
      (restoredArch folded) pl p).trans ?_
    simp only [decide_eq_true_eq]

theorem get?_hydrate_dev :
    (hydrate folded pl bridge).dev.get? p =
      if p = pl ∧ bridge.dev.get? pl = none ∧
        folded.get? "candidate_gate" = some "PASS" then some (restoredDev folded)
      else bridge.dev.get? p := by
  unfold hydrate
  split
  · next hempty =>
      simp [get?_eq_none_of_isEmpty hempty]
  · refine (get?_fill bridge.dev
      (decide (folded.get? "candidate_gate" = some "PASS"))
      (restoredDev folded) pl p).trans ?_
    simp only [decide_eq_true_eq]

theorem get?_hydrate_verify :
    (hydrate folded pl bridge).verify.get? p =
      if p = pl ∧ bridge.verify.get? pl = none ∧
        folded.get? "verify_status" = some "READY" then
        some (restoredVerify folded)
      else bridge.verify.get? p := by
  unfold hydrate
  split
  · next hempty =>
      simp [get?_eq_none_of_isEmpty hempty]
  · refine (get?_fill bridge.verify
      (decide (folded.get? "verify_status" = some "READY"))
      (restoredVerify folded) pl p).trans ?_
    simp only [decide_eq_true_eq]

theorem get?_hydrate_approvals :
    (hydrate folded pl bridge).approvals.get? p =
      if p = pl ∧ bridge.approvals.get? pl = none ∧
        folded.get? "approval_status" = some "APPROVED" then
        some (restoredApproval folded)
      else bridge.approvals.get? p := by
  unfold hydrate
  split
  · next hempty =>
      simp [get?_eq_none_of_isEmpty hempty]
  · refine (get?_fill bridge.approvals
      (decide (folded.get? "approval_status" = some "APPROVED"))
      (restoredApproval folded) pl p).trans ?_
    simp only [decide_eq_true_eq]

@[simp] theorem hydrate_registry :
    (hydrate folded pl bridge).registry = bridge.registry := by
  unfold hydrate
  split <;> rfl

@[simp] theorem hydrate_approval :
    (hydrate folded pl bridge).approval = bridge.approval := by
  unfold hydrate
  split <;> rfl

end Hydrate

end KernelBridge

namespace RootState

variable {env : RootEnv}

/-- The state after the rows of a pipeline were restored from its log. -/
def hydrated (env : RootEnv) (ws pl : String) (s : RootState) : RootState :=
  let folded := foldStageProjection env.codec (s.store.listEvents ws pl)
  { s with bridge := hydrate folded pl s.bridge }

theorem run_hydrateFromEvents (ws pl : String) (s : RootState) :
    (hydrateFromEvents env.toBridgeCodec ws pl).run (handleBridge env) s =
      (.ok (), s.hydrated env ws pl) := by
  simp only [hydrateFromEvents, Program.bind_eq]
  rw [run_listEvents_bind, run_modify]
  rfl

theorem run_hydrateFromEvents_bind {β : Type} (ws pl : String) (s : RootState)
    (f : Unit → BridgeProgram β) :
    ((hydrateFromEvents env.toBridgeCodec ws pl).bind f).run (handleBridge env) s =
      (f ()).run (handleBridge env) (s.hydrated env ws pl) :=
  Program.run_bind_of_ok (run_hydrateFromEvents ws pl s)

/-- Some of the files were written from the memory. -/
structure Saves (names : List String) (s s' : RootState) : Prop where
  same : s' = { s with
    files := s'.files, effects := s'.effects, faults := s'.faults }
  faults : s.faults ≤ s'.faults
  files : ∀ file, s'.files.get? file = s.files.get? file ∨
    file ∈ names ∧
      s'.files.get? file = some (some (Descriptor.document s.bridge file))

theorem Saves.refl (names : List String) (s : RootState) : Saves names s s :=
  ⟨rfl, le_rfl, fun _ => Or.inl rfl⟩

/-- A program that writes these files and counts a failure to do so. -/
def Stores (env : RootEnv) (names : List String) (save : BridgeProgram Unit) :
    Prop :=
  ∀ s, (∃ s', save.run (handleBridge env) s = (.ok (), s') ∧
      Saves names s s' ∧
      (∀ name ∈ names, s'.files.get? name =
        some (some (Descriptor.document s.bridge name))) ∧
      s'.faults = s.faults) ∨
    ∃ error s', save.run (handleBridge env) s = (.error error, s') ∧
      Saves names s s' ∧ s.faults < s'.faults ∧ ¬ env.Calm

theorem stores_write (env : RootEnv) (file : String) :
    Stores env [file] (perform (.write file)) := by
  intro s
  have hrun : (perform (.write file)).run (handleBridge env) s =
      handleBridge env (.write file) s := Program.run_perform _ _ _
  rw [hrun]
  cases hwrite : env.writes s.effects with
  | ok _ =>
      simp only [handleBridge, hwrite]
      refine Or.inl ⟨_, rfl, ?_, ?_, rfl⟩
      · refine ⟨rfl, le_rfl, ?_⟩
        intro other
        by_cases hother : other = file
        · subst hother
          exact Or.inr ⟨by simp, Dict.get?_set_self _ _ _⟩
        · exact Or.inl (Dict.get?_set_of_ne _ _ hother)
      · simp
  | error error =>
      simp only [handleBridge, hwrite]
      refine Or.inr ⟨error, _, rfl, ?_, Nat.lt_succ_self _, ?_⟩
      · exact ⟨rfl, Nat.le_succ _, fun _ => Or.inl rfl⟩
      · intro hcalm
        rw [hcalm.writes] at hwrite
        cases hwrite

theorem Saves.bridge {names : List String} {s s' : RootState}
    (hsaves : Saves names s s') : s'.bridge = s.bridge := by
  rw [hsaves.same]

theorem Saves.store {names : List String} {s s' : RootState}
    (hsaves : Saves names s s') : s'.store = s.store := by
  rw [hsaves.same]

theorem Saves.trans {first second : List String} {s s' s'' : RootState}
    (hfirst : Saves first s s') (hsecond : Saves second s' s'') :
    Saves (first ++ second) s s'' where
  same := by
    rw [hsecond.same, hfirst.same]
  faults := hfirst.faults.trans hsecond.faults
  files := by
    intro file
    rcases hsecond.files file with hsame | ⟨hmem, hnew⟩
    · rw [hsame]
      rcases hfirst.files file with hsame | ⟨hmem, hnew⟩
      · exact Or.inl hsame
      · exact Or.inr ⟨List.mem_append_left _ hmem, hnew⟩
    · rw [hfirst.bridge] at hnew
      exact Or.inr ⟨List.mem_append_right _ hmem, hnew⟩

/-- The two writes of a station file with the bundle. -/
theorem stores_saveWithStages (env : RootEnv) (file : String) :
    Stores env [file, "stages.json"] (saveWithStages file) := by
  intro s
  have hgrow : ∀ {s' : RootState}, Saves [file] s s' →
      Saves [file, "stages.json"] s s' := fun hsaves =>
    hsaves.trans (Saves.refl ["stages.json"] _)
  simp only [saveWithStages, Program.bind_eq]
  rcases stores_write env file s with
    ⟨s₁, hrun, hsaves, hnew, hfaults⟩ | ⟨error, s₁, hrun, hsaves, hfaults, hcause⟩
  · rw [Program.run_bind_of_ok hrun]
    rcases stores_write env "stages.json" s₁ with
      ⟨s₂, hrun₂, hsaves₂, hnew₂, hfaults₂⟩ |
        ⟨error, s₂, hrun₂, hsaves₂, hfaults₂, hcause⟩
    · refine Or.inl ⟨s₂, hrun₂, hsaves.trans hsaves₂, ?_, hfaults₂.trans hfaults⟩
      rw [hsaves.bridge] at hnew₂
      intro name hname
      by_cases hstages : name = "stages.json"
      · exact hnew₂ name (by simp [hstages])
      · rw [(hsaves₂.files name).resolve_right (by simp [hstages])]
        exact hnew name (by simpa [hstages] using hname)
    · exact Or.inr ⟨error, s₂, hrun₂, hsaves.trans hsaves₂,
        hsaves.faults.trans_lt hfaults₂, hcause⟩
  · exact Or.inr ⟨error, s₁, Program.run_bind_of_error hrun, hgrow hsaves, hfaults,
      hcause⟩

/-- The document of a station file does not depend on deliveries or
feedback. -/
theorem document_congr {left right : Bridge} (hcore : left.core = right.core)
    {file : String} (hfile : file ∈ stationFiles) :
    Descriptor.document left file = Descriptor.document right file := by
  have hdocument : ∀ bridge : Bridge, Descriptor.document bridge file =
      Descriptor.document bridge.core file := by
    intro bridge
    simp only [stationFiles, List.mem_cons, List.not_mem_nil, or_false] at hfile
    rcases hfile with rfl | rfl | rfl | rfl | rfl | rfl | rfl <;> rfl
  rw [hdocument left, hdocument right, hcore]

/-- A row was kept: it is in memory, and as far as nothing failed it is in its
files and in the log. -/
structure Kept (env : RootEnv) (ws prj pl : String) (station : Station)
    (fields : Dict String String) (names : List String) (bridge : Bridge)
    (s s' : RootState) : Prop where
  core : s'.bridge.core = bridge.core
  files : ∀ file ∈ stationFiles, s'.files.get? file = s.files.get? file ∨
    file ∈ names ∧
      s'.files.get? file = some (some (Descriptor.document bridge file))
  others : ∀ file ∉ stationFiles, s'.files.get? file = s.files.get? file ∨
    ∃ value, s'.files.get? file = some (some value) ∧ Written file value
  log : s.store.SameLog s'.store ∨
    ∃ store, Appends env.codec ws prj pl station fields s.store store ∧
      store.SameLog s'.store
  launches : s'.launches = s.launches
  spawnWorker : s'.spawnWorker = s.spawnWorker
  running : s'.running = s.running
  faults : s.faults ≤ s'.faults
  saved : s'.faults = s.faults → ∀ file ∈ names,
    s'.files.get? file = some (some (Descriptor.document bridge file))
  written : env.Calm → ∀ file ∈ names,
    s'.files.get? file = some (some (Descriptor.document bridge file))
  settled : env.codec.Serializes → CanRecord ws prj pl station s.store →
    s'.faults = s.faults →
      ∃ store, Appends env.codec ws prj pl station fields s.store store ∧
        store.SameLog s'.store
  quiet : env.Calm → env.codec.Serializes →
    CanRecord ws prj pl station s.store →
    Vacant ws pl (recordId pl station (nextAttempt s.store ws pl station))
      s.store → s'.faults = s.faults

section Kept

variable {ws prj pl : String} {station : Station} {fields : Dict String String}
  {names : List String} {bridge : Bridge} {s s₁ s₂ s₃ s₄ : RootState}
  (hnames : ∀ name ∈ names, name ∈ stationFiles)
  (hbefore : Frame { s with bridge := bridge } s₁) (hsaves : Saves names s₁ s₂)

include hbefore hsaves

/-- The files after the writes. -/
theorem files_of_saves {file : String} (hfile : file ∈ stationFiles) :
    s₂.files.get? file = s.files.get? file ∨
      file ∈ names ∧
        s₂.files.get? file = some (some (Descriptor.document bridge file)) := by
  rcases hsaves.files file with hsame | ⟨hmem, hnew⟩
  · rw [hsame, hbefore.station hfile]
    exact Or.inl rfl
  · rw [hnew, document_congr hbefore.core hfile]
    exact Or.inr ⟨hmem, rfl⟩

theorem log_of_saves : s.store.SameLog s₂.store := by
  rw [hsaves.store]
  exact hbefore.log

include hnames

/-- A failed write cuts the keeping short. -/
theorem Kept.interrupted (hfault : s.faults < s₂.faults) (hcause : ¬ env.Calm) :
    Kept env ws prj pl station fields names bridge s s₂ where
  core := by
    rw [hsaves.bridge]
    exact hbefore.core
  files := fun file hfile => files_of_saves hbefore hsaves hfile
  others := by
    intro file hfile
    rw [(hsaves.files file).resolve_right fun hnew => hfile (hnames file hnew.1)]
    exact (hbefore.files file).imp id And.right
  log := Or.inl (log_of_saves hbefore hsaves)
  launches := by
    rw [hsaves.same]
    exact hbefore.launches
  spawnWorker := by
    rw [hsaves.same]
    exact hbefore.spawnWorker
  running := by
    rw [hsaves.same]
    exact hbefore.running
  faults := hfault.le
  saved := fun hsame => absurd hsame hfault.ne'
  written := fun hcalm => absurd hcalm hcause
  settled := fun _ _ hsame => absurd hsame hfault.ne'
  quiet := fun hcalm => absurd hcalm hcause

/-- After the writes the row is recorded; what follows changes nothing. -/
theorem Kept.completed (hsame : s₂.faults = s₁.faults)
    (hnew : ∀ name ∈ names, s₂.files.get? name =
      some (some (Descriptor.document s₁.bridge name)))
    {outcome : Except BridgeError Unit}
    (hrecorded : Recorded env ws prj pl station fields s₂ outcome s₃)
    (hafter : Frame s₃ s₄)
    (hquiet : env.Calm → s₁.faults = s.faults ∧ s₄.faults = s₃.faults) :
    Kept env ws prj pl station fields names bridge s s₄ := by
  have hlog := log_of_saves hbefore hsaves
  have hfaults : s.faults ≤ s₂.faults := by
    rw [hsame]
    exact hbefore.faults
  have hbridge : s₃.bridge = s₂.bridge := by rw [hrecorded.same]
  have hfiles : s₃.files = s₂.files := by rw [hrecorded.same]
  have happends : ∀ {store}, Appends env.codec ws prj pl station fields s₂.store
      store → store.SameLog s₄.store →
      ∃ store, Appends env.codec ws prj pl station fields s.store store ∧
        store.SameLog s₄.store := by
    intro store happends hstore
    exact ⟨store, happends.of_sameLog hlog, hstore⟩
  have hwritten : ∀ file ∈ names,
      s₄.files.get? file = some (some (Descriptor.document bridge file)) := by
    intro file hfile
    rw [hafter.station (hnames file hfile), hfiles, hnew file hfile,
      document_congr hbefore.core (hnames file hfile)]
  exact
    { core := by rw [hafter.core, hbridge, hsaves.bridge, hbefore.core]
      files := by
        intro file hfile
        rw [hafter.station hfile, hfiles]
        exact files_of_saves hbefore hsaves hfile
      others := by
        intro file hfile
        rcases hafter.files file with hfinal | ⟨-, hfinal⟩
        · rw [hfinal, hfiles, (hsaves.files file).resolve_right
            fun hsaved => hfile (hnames file hsaved.1)]
          exact (hbefore.files file).imp id And.right
        · exact Or.inr hfinal
      log := by
        rcases hrecorded.store with hstore | hstore
        · left
          refine hlog.trans ?_
          rw [← hstore]
          exact hafter.log
        · exact Or.inr (happends hstore hafter.log)
      launches := by
        rw [hafter.launches, hrecorded.same, hsaves.same]
        exact hbefore.launches
      spawnWorker := by
        rw [hafter.spawnWorker, hrecorded.same, hsaves.same]
        exact hbefore.spawnWorker
      running := by
        rw [hafter.running, hrecorded.same, hsaves.same]
        exact hbefore.running
      faults := hfaults.trans (hrecorded.faults.trans hafter.faults)
      saved := fun _ => hwritten
      written := fun _ => hwritten
      settled := by
        intro hcodec hcan hfinal
        have hrecord : s₃.faults = s₂.faults := by
          have := hrecorded.faults
          have := hafter.faults
          omega
        obtain ⟨-, hstore⟩ :=
          hrecorded.settled hcodec (hcan.sameLog hlog) hrecord
        exact happends hstore hafter.log
      quiet := by
        intro hcalm hcodec hcan hvacant
        obtain ⟨hfirst, hlast⟩ := hquiet hcalm
        rw [← nextAttempt_sameLog hlog] at hvacant
        rw [hlast, hrecorded.quiet hcodec (hcan.sameLog hlog)
          (hvacant.sameLog hlog), hsame, hfirst] }

end Kept

theorem Kept.later {ws prj pl : String} {station : Station}
    {fields : Dict String String} {names : List String} {bridge : Bridge}
    {s s' : RootState}
    (hkept : Kept env ws prj pl station fields names bridge s s') :
    s.store.Later s'.store := by
  rcases hkept.log with hsame | ⟨store, happends, hsame⟩
  · exact hsame.later
  · exact happends.later.trans hsame.later

/-- What keeping a row does to the logs. -/
theorem Kept.logs {ws prj pl : String} {station : Station}
    {fields : Dict String String} {names : List String} {bridge : Bridge}
    {s s' : RootState}
    (hkept : Kept env ws prj pl station fields names bridge s s')
    (hnumbered : s.store.Numbered) :
    (∀ ws' pl', s'.store.listEvents ws' pl' = s.store.listEvents ws' pl') ∨
      (env.codec.Serializes → CanRecord ws prj pl station s.store) ∧
        Extended env.codec ws pl station fields s.store s'.store := by
  rcases hkept.log with hsame | ⟨store, happends, hsame⟩
  · exact Or.inl hsame.listEvents
  · obtain ⟨event, hrecords, hself, hother⟩ := happends.extended hnumbered
    refine Or.inr ⟨happends.can, event, hrecords, ?_, ?_⟩
    · rw [hsame.listEvents, hself]
    · intro ws' pl' hscope
      rw [hsame.listEvents, hother ws' pl' hscope]

/-- A row that can be recorded is recorded, unless something failed. -/
theorem Kept.recorded {ws prj pl : String} {station : Station}
    {fields : Dict String String} {names : List String} {bridge : Bridge}
    {s s' : RootState}
    (hkept : Kept env ws prj pl station fields names bridge s s')
    (hnumbered : s.store.Numbered) (hcodec : env.codec.Serializes)
    (hcan : CanRecord ws prj pl station s.store)
    (hquiet : s'.faults = s.faults) :
    Extended env.codec ws pl station fields s.store s'.store := by
  obtain ⟨store, happends, hsame⟩ := hkept.settled hcodec hcan hquiet
  obtain ⟨event, hrecords, hself, hother⟩ := happends.extended hnumbered
  refine ⟨event, hrecords, ?_, ?_⟩
  · rw [hsame.listEvents, hself]
  · intro ws' pl' hscope
    rw [hsame.listEvents, hother ws' pl' hscope]

section Keep

variable {ws prj pl : String} {s : RootState}

/-- Set a row, save it and record it. -/
theorem run_keep {names : List String} {save : BridgeProgram Unit}
    (hnames : ∀ name ∈ names, name ∈ stationFiles) (hsave : Stores env names save)
    (hhealthy : s.store.Healthy) (change : Bridge → Bridge) (station : Station)
    (fields : Dict String String) {outcome : Except BridgeError Unit}
    {s' : RootState}
    (hrun : ((modify change).bind fun _ => save.bind fun _ =>
      recordStation env.toBridgeCodec ws prj pl station fields).run
        (handleBridge env) s = (outcome, s')) :
    Kept env ws prj pl station fields names (change s.bridge) s s' ∧
      (env.codec.Serializes → CanRecord ws prj pl station s.store →
        s'.faults = s.faults → outcome = .ok ()) := by
  rw [run_modify_bind] at hrun
  have hbefore := Frame.refl { s with bridge := change s.bridge }
  rcases hsave { s with bridge := change s.bridge } with
    ⟨s₁, hsaved, hsaves, hnew, hfaults⟩ |
      ⟨error, s₁, hsaved, hsaves, hfault, hcause⟩
  · rw [Program.run_bind_of_ok hsaved] at hrun
    have hstore : s₁.store = s.store := hsaves.store
    have hrecorded := run_recordStation env (hstore ▸ hhealthy) ws prj pl
      station fields
    rw [hrun] at hrecorded
    refine ⟨.completed hnames hbefore hsaves hfaults hnew hrecorded (.refl _)
      fun _ => ⟨rfl, rfl⟩, ?_⟩
    intro hcodec hcan hsame
    exact (hrecorded.settled hcodec (hstore ▸ hcan) (hsame.trans hfaults.symm)).1
  · rw [Program.run_bind_of_error hsaved] at hrun
    obtain ⟨rfl, rfl⟩ := Prod.mk.inj hrun
    refine ⟨.interrupted hnames hbefore hsaves hfault hcause, ?_⟩
    intro _ _ hsame
    exact absurd hsame hfault.ne'

end Keep

/-- The memory after a member has approved a baseline. -/
def approvedBy (bridge : Bridge) (pl actor prd design testplan : String) :
    Bridge :=
  let approval : SolutionApproval :=
    ⟨bridge.approval.designated.set pl actor,
      bridge.approval.approved.set pl ⟨pl, actor, prd, design, testplan⟩⟩
  { bridge with approval := approval }

theorem run_approveSolution (pl prj actor prd design testplan : String)
    (s : RootState) :
    (approveSolution pl prj actor prd design testplan).run (handleBridge env) s =
      if SolutionApproval.mayApprove (s.bridge.registry.roleOf prj actor) then
        (.ok true,
          { s with bridge := approvedBy s.bridge pl actor prd design testplan })
      else (.ok false, s) := by
  simp only [approveSolution, Program.bind_eq]
  rw [run_memory_bind]
  by_cases hrole :
      SolutionApproval.mayApprove (s.bridge.registry.roleOf prj actor) = true
  · simp only [SolutionApproval.designate, hrole, ↓reduceIte,
      SolutionApproval.approve, Dict.get?_set_self, ne_eq, not_true_eq_false]
    rfl
  · simp only [SolutionApproval.designate, hrole, Bool.false_eq_true, ↓reduceIte]
    rfl

/-- A program that returns and counts no failure when nothing outside
raises. -/
def Calmly {α : Type} (env : RootEnv) (p : BridgeProgram α) : Prop :=
  env.Calm → ∀ s, ∃ value s', p.run (handleBridge env) s = (.ok value, s') ∧
    s'.faults = s.faults

section Calmly

variable {α β : Type}

theorem calmly_done (value : α) : Calmly env (.done value) :=
  fun _ s => ⟨value, s, rfl, rfl⟩

theorem Calmly.bind {p : BridgeProgram α} {f : α → BridgeProgram β}
    (hp : Calmly env p) (hf : ∀ value, Calmly env (f value)) :
    Calmly env (p.bind f) := by
  intro hcalm s
  obtain ⟨value, s₁, hrun, hfaults⟩ := hp hcalm s
  obtain ⟨result, s₂, hrun₂, hfaults₂⟩ := hf value hcalm s₁
  refine ⟨result, s₂, ?_, hfaults₂.trans hfaults⟩
  rw [Program.run_bind_of_ok hrun, hrun₂]

theorem Calmly.ite {c : Prop} [Decidable c] {p q : BridgeProgram α}
    (hp : Calmly env p) (hq : Calmly env q) : Calmly env (if c then p else q) := by
  split
  · exact hp
  · exact hq

theorem calmly_memory : Calmly env (perform .memory) :=
  fun _ s => ⟨s.bridge, s, rfl, rfl⟩

theorem calmly_assign (bridge : Bridge) : Calmly env (perform (.assign bridge)) :=
  fun _ s => ⟨(), { s with bridge := bridge }, rfl, rfl⟩

theorem calmly_modify (change : Bridge → Bridge) : Calmly env (modify change) :=
  calmly_memory.bind fun _ => calmly_assign _

theorem calmly_write (file : String) : Calmly env (perform (.write file)) := by
  intro hcalm s
  rcases stores_write env file s with
    ⟨s', hrun, -, -, hfaults⟩ | ⟨error, s', -, -, -, hcause⟩
  · exact ⟨(), s', hrun, hfaults⟩
  · exact absurd hcalm hcause

theorem calmly_publish (request : DeliveryRequest) :
    Calmly env (perform (.publish request)) := by
  intro hcalm s
  obtain ⟨remote, hremote⟩ := hcalm.publishes s.effects
  refine ⟨remote, s.ticked, ?_, rfl⟩
  rw [← hremote]
  exact Program.run_perform _ _ _

theorem calmly_listPendingOutbox (ws : String) :
    Calmly env (kernel (ask (.listPendingOutbox ws))) := by
  intro _ s
  refine ⟨s.store.listPendingOutbox ws, s, ?_, rfl⟩
  simp only [ask, Program.perform, kernel, Program.run_call]
  rfl

theorem calmly_recordOutboxDelivery (ws cmd receipt : String) :
    Calmly env (kernel (ask (.recordOutboxDelivery ws cmd receipt))) := by
  intro _ s
  refine ⟨(), { s with store := s.store.recordOutboxDelivery ws cmd receipt }, ?_,
    rfl⟩
  simp only [ask, Program.perform, kernel, Program.run_call]
  rfl

theorem calmly_mirrorGithub (record : DeliveryRecord) (request : DeliveryRequest) :
    Calmly env (mirrorGithub record request) := by
  refine (calmly_publish request).bind fun remote => ?_
  cases remote with
  | none => exact calmly_done _
  | some remote =>
      exact .ite ((calmly_modify _).bind fun _ => calmly_done _) (calmly_done _)

theorem calmly_drainItem (ws : String) (item : OutboxRecord) :
    Calmly env (drainItem env.toBridgeCodec ws item) := by
  refine .ite (calmly_recordOutboxDelivery _ _ _) ?_
  refine calmly_memory.bind fun bridge => ?_
  refine .ite ?_ (calmly_recordOutboxDelivery _ _ _)
  refine (calmly_assign _).bind fun _ => ?_
  refine (calmly_mirrorGithub _ _).bind fun mirrored => ?_
  exact (calmly_write _).bind fun _ => calmly_recordOutboxDelivery _ _ _

theorem calmly_drainItems (ws : String) (items : List OutboxRecord) :
    Calmly env (drainItems env.toBridgeCodec ws items) := by
  induction items with
  | nil => exact calmly_done _
  | cons item rest ih => exact (calmly_drainItem ws item).bind fun _ => ih

theorem calmly_drainOutbox (ws : String) :
    Calmly env (drainOutbox env.toBridgeCodec ws) :=
  .ite (calmly_done _) ((calmly_listPendingOutbox ws).bind fun items =>
    calmly_drainItems ws items)

theorem calmly_setFeedback (pl note : String) :
    Calmly env (setFeedback pl note) :=
  .ite (calmly_done _) ((calmly_modify _).bind fun _ => calmly_write _)

theorem calmly_clearFeedback (pl : String) : Calmly env (clearFeedback pl) := by
  refine calmly_memory.bind fun bridge => ?_
  exact .ite (calmly_done _) ((calmly_assign _).bind fun _ => calmly_write _)

theorem calmly_developmentFeedback (pl : String) (result : DevelopmentResult) :
    Calmly env (developmentFeedback pl result) :=
  .ite (calmly_setFeedback _ _) (.ite (calmly_clearFeedback _) (calmly_done _))

theorem calmly_verifyFeedback (pl : String) (result : VerifyResult) :
    Calmly env (verifyFeedback pl result) :=
  .ite (calmly_setFeedback _ _) (.ite (calmly_clearFeedback _) (calmly_done _))

theorem calmly_publishReady (pl prj sha : String) (result : VerifyResult) :
    Calmly env (publishReady env.toBridgeCodec pl prj sha result) :=
  .ite (calmly_modify _) (calmly_done _)

theorem calmly_mirrorStored (pl prj sha : String) :
    Calmly env (mirrorStored pl prj sha) := by
  refine calmly_memory.bind fun bridge => ?_
  cases bridge.delivery.lookup pl with
  | none => exact calmly_done _
  | some stored => exact (calmly_mirrorGithub _ _).bind fun _ => calmly_done _

end Calmly

section Stages

variable {ws prj pl principal : String} {s : RootState}

/-- The files of the development rows. -/
def devFiles : List String := ["development.json", "stages.json"]

def verifyFiles : List String := ["verify.json", "stages.json"]

def approvalFiles : List String := ["approvals.json", "stages.json"]

theorem stores_saveDev (env : RootEnv) : Stores env devFiles saveDev :=
  stores_saveWithStages env "development.json"

theorem stores_saveVerify (env : RootEnv) : Stores env verifyFiles saveVerify :=
  stores_saveWithStages env "verify.json"

theorem stores_saveApprovals (env : RootEnv) :
    Stores env approvalFiles saveApprovals :=
  stores_saveWithStages env "approvals.json"

/-- The row of a development is in memory. -/
def withDev (bridge : Bridge) (pl : String) (row : Dict String String) : Bridge :=
  { bridge with dev := bridge.dev.set pl row }

def withVerify (bridge : Bridge) (pl : String) (row : Dict String String) :
    Bridge :=
  { bridge with verify := bridge.verify.set pl row }

/-- A development starts: no row yet, both planning gates passed. -/
structure Develops (s : RootState) (pl : String)
    (planning design : Dict String String) : Prop where
  absent : s.bridge.dev.get? pl = none
  planned : planned s.bridge pl = some (planning, design)

/-- The state in which a baseline has been approved. -/
def approved (s : RootState) (pl principal : String)
    (planning design : Dict String String) : RootState :=
  let bridge := approvedBy s.bridge pl principal (planning.getD "prd_id" "")
    (design.getD "design_id" "") (design.getD "testplan_id" "")
  { s with bridge := bridge }

/-- The state in which the development stage of a pipeline has run. -/
def launchedDevelop (s : RootState) (pl principal : String)
    (planning design : Dict String String) : RootState :=
  (s.approved pl principal planning design).launched (.develop pl)

/-- The row of a verification whose flow raised. -/
def infraRow : Dict String String :=
  rowOf [("verify_status", "INFRA"), ("e2e_id", ""), ("acceptance_id", ""),
    ("verify_attempts", "0"), ("infra_attempts", "0")]

/-- The row of a verification that came to an end. -/
def verifiedRow (result : VerifyResult) : Dict String String :=
  rowOf [("verify_status", result.status.value),
    ("e2e_id", result.e2eId.getD ""),
    ("acceptance_id", result.acceptanceId.getD ""), ("verify_attempts", "0")]

/-- The fields that a verification is recorded with. -/
def verifyRecord (row : Dict String String) (pl prj sha : String) :
    Dict String String :=
  row.update [("pipeline_id", pl), ("project_id", prj), ("candidate_sha", sha)]

/-- A verification starts: no row yet, and a candidate that passed its gate. -/
structure Verifies (s : RootState) (pl : String)
    (developed : Dict String String) : Prop where
  absent : s.bridge.verify.get? pl = none
  row : s.bridge.dev.get? pl = some developed
  gate : developed.get? "candidate_gate" = some "PASS"

/-- The state in which the verification of a candidate has run. -/
def launchedVerify (s : RootState) (pl : String)
    (developed : Dict String String) : RootState :=
  s.launched (.verify pl (developed.getD "candidate_sha" ""))

/-- What `_advance_verify` does after it restored the rows. -/
inductive Verified (env : RootEnv) (ws prj pl : String) (s : RootState) :
    Except BridgeError Unit → RootState → Prop
  | skipped (idle : ∀ developed, ¬ Verifies s pl developed) :
      Verified env ws prj pl s (.ok ()) s
  | interrupted {developed : Dict String String} {error : BridgeError}
      {s' : RootState} (verifies : Verifies s pl developed)
      (frame : Frame (s.launchedVerify pl developed) s')
      (cause : ¬ env.Calm) :
      Verified env ws prj pl s (.error error) s'
  | infra {developed : Dict String String} {n : Nat}
      {outcome : Except BridgeError Unit} {s' : RootState}
      (verifies : Verifies s pl developed) (answer : env.verifies n = none)
      (kept : Kept env ws prj pl .verify (verifyRecord infraRow pl prj "")
        verifyFiles (withVerify s.bridge pl infraRow)
        (s.launchedVerify pl developed) s')
      (ended : env.Calm → env.codec.Serializes →
        CanRecord ws prj pl .verify s.store → s'.faults = s.faults →
          outcome = .ok ()) :
      Verified env ws prj pl s outcome s'
  | finished {developed : Dict String String} {result : VerifyResult} {n : Nat}
      {outcome : Except BridgeError Unit} {s₁ s' : RootState}
      (verifies : Verifies s pl developed)
      (answer : env.verifies n = some result)
      (frame : Frame (s.launchedVerify pl developed) s₁)
      (quiet : env.Calm → s₁.faults = s.faults)
      (kept : Kept env ws prj pl .verify
        (verifyRecord (verifiedRow result) pl prj
          (developed.getD "candidate_sha" ""))
        verifyFiles (withVerify s₁.bridge pl (verifiedRow result)) s₁ s')
      (ended : env.Calm → env.codec.Serializes →
        CanRecord ws prj pl .verify s.store → s'.faults = s.faults →
          outcome = .ok ()) :
      Verified env ws prj pl s outcome s'

/-- What `_advance_development` does after it restored the rows. -/
inductive Developed (env : RootEnv) (ws prj pl principal : String)
    (s : RootState) : Except BridgeError Unit → RootState → Prop
  | skipped (row : s.bridge.dev.get? pl ≠ none ∨ planned s.bridge pl = none) :
      Developed env ws prj pl principal s (.ok ()) s
  | denied {planning design : Dict String String}
      {outcome : Except BridgeError Unit} {s' : RootState}
      (develops : Develops s pl planning design)
      (role : SolutionApproval.mayApprove
        (s.bridge.registry.roleOf prj principal) = false)
      (kept : Kept env ws prj pl .development deniedRow devFiles
        (withDev s.bridge pl deniedRow) s s')
      (ended : env.codec.Serializes → CanRecord ws prj pl .development s.store →
        s'.faults = s.faults → outcome = .ok ()) :
      Developed env ws prj pl principal s outcome s'
  | raised {planning design : Dict String String} {error : BridgeError} {n : Nat}
      (develops : Develops s pl planning design)
      (role : SolutionApproval.mayApprove
        (s.bridge.registry.roleOf prj principal) = true)
      (answer : env.develops n = .error error) :
      Developed env ws prj pl principal s (.error error)
        (s.launchedDevelop pl principal planning design)
  | interrupted {planning design : Dict String String} {error : BridgeError}
      {s' : RootState} (develops : Develops s pl planning design)
      (role : SolutionApproval.mayApprove
        (s.bridge.registry.roleOf prj principal) = true)
      (frame : Frame (s.launchedDevelop pl principal planning design) s')
      (fault : s.faults < s'.faults) (cause : ¬ env.Calm) :
      Developed env ws prj pl principal s (.error error) s'
  | finished {planning design : Dict String String} {result : DevelopmentResult}
      {n : Nat} {outcome : Except BridgeError Unit} {s₁ s' : RootState}
      (develops : Develops s pl planning design)
      (role : SolutionApproval.mayApprove
        (s.bridge.registry.roleOf prj principal) = true)
      (answer : env.develops n = .ok result)
      (frame : Frame (s.launchedDevelop pl principal planning design) s₁)
      (quiet : env.Calm → s₁.faults = s.faults)
      (kept : Kept env ws prj pl .development (developmentRow result) devFiles
        (withDev s₁.bridge pl (developmentRow result)) s₁ s')
      (ended : env.codec.Serializes → CanRecord ws prj pl .development s.store →
        s'.faults = s₁.faults → outcome = .ok ()) :
      Developed env ws prj pl principal s outcome s'

/-- A program that raises only when a failure is counted. -/
def Counts (env : RootEnv) (p : BridgeProgram Unit) : Prop :=
  ∀ s error, (p.run (handleBridge env) s).1 = .error error →
    s.faults < (p.run (handleBridge env) s).2.faults

theorem counts_write (file : String) : Counts env (perform (.write file)) := by
  intro s error herror
  rcases stores_write env file s with ⟨s', hrun, -⟩ | ⟨_, s', hrun, -, hfault, -⟩
  · rw [hrun] at herror
    cases herror
  · rw [hrun]
    exact hfault

theorem counts_setFeedback (pl note : String) :
    Counts env (setFeedback pl note) := by
  intro s error herror
  simp only [setFeedback, Program.bind_eq] at herror ⊢
  split at herror
  · cases herror
  · next hblank =>
      rw [if_neg hblank, run_modify_bind]
      rw [run_modify_bind] at herror
      exact counts_write _ _ error herror

theorem counts_clearFeedback (pl : String) : Counts env (clearFeedback pl) := by
  intro s error herror
  simp only [clearFeedback, Program.bind_eq] at herror ⊢
  rw [run_memory_bind] at herror ⊢
  split at herror
  · cases herror
  · next hfound =>
      rw [if_neg hfound, run_assign_bind]
      rw [run_assign_bind] at herror
      exact counts_write _ _ error herror

theorem Counts.ite {c : Prop} [Decidable c] {p q : BridgeProgram Unit}
    (hp : Counts env p) (hq : Counts env q) : Counts env (if c then p else q) := by
  split
  · exact hp
  · exact hq

theorem counts_done : Counts env (.done ()) := by
  intro s error herror
  cases herror

theorem counts_developmentFeedback (pl : String) (result : DevelopmentResult) :
    Counts env (developmentFeedback pl result) :=
  .ite (counts_setFeedback _ _) (.ite (counts_clearFeedback _) counts_done)

theorem counts_verifyFeedback (pl : String) (result : VerifyResult) :
    Counts env (verifyFeedback pl result) :=
  .ite (counts_setFeedback _ _) (.ite (counts_clearFeedback _) counts_done)

theorem run_keepDevelopment (hhealthy : s.store.Healthy)
    (row : Dict String String) {outcome : Except BridgeError Unit}
    {s' : RootState}
    (hrun : (keepDevelopment env.toBridgeCodec ws prj pl row).run
      (handleBridge env) s = (outcome, s')) :
    Kept env ws prj pl .development row devFiles (withDev s.bridge pl row) s s' ∧
      (env.codec.Serializes → CanRecord ws prj pl .development s.store →
        s'.faults = s.faults → outcome = .ok ()) :=
  run_keep (by decide) (stores_saveDev env) hhealthy
    (fun bridge => withDev bridge pl row) .development row hrun

/-- The development stage and what is kept of it. -/
theorem run_developing (hhealthy : s.store.Healthy)
    {planning design : Dict String String}
    (hdevelops : Develops s pl planning design)
    (hrole : SolutionApproval.mayApprove
      (s.bridge.registry.roleOf prj principal) = true)
    (prd plan testplan feedback : String)
    {outcome : Except BridgeError Unit} {s' : RootState}
    (hrun : ((perform (.develop pl prd plan testplan feedback)).bind fun result =>
      (developmentFeedback pl result).bind fun _ =>
        keepDevelopment env.toBridgeCodec ws prj pl (developmentRow result)).run
      (handleBridge env) (s.approved pl principal planning design) =
        (outcome, s')) :
    Developed env ws prj pl principal s outcome s' := by
  have hstage : (perform (.develop pl prd plan testplan feedback)).run
      (handleBridge env) (s.approved pl principal planning design) =
        (env.develops s.effects,
          s.launchedDevelop pl principal planning design) :=
    Program.run_perform _ _ _
  cases hanswer : env.develops s.effects with
  | error error =>
      rw [hanswer] at hstage
      rw [Program.run_bind_of_error hstage] at hrun
      obtain ⟨rfl, rfl⟩ := Prod.mk.inj hrun
      exact .raised hdevelops hrole hanswer
  | ok result =>
      rw [hanswer] at hstage
      rw [Program.run_bind_of_ok hstage] at hrun
      have hframe := @moves_developmentFeedback env pl result
        (s.launchedDevelop pl principal planning design)
      have hcounts := @counts_developmentFeedback env pl result
        (s.launchedDevelop pl principal planning design)
      have hquiet : env.Calm → ∃ value s₁,
          (developmentFeedback pl result).run (handleBridge env)
            (s.launchedDevelop pl principal planning design) = (.ok value, s₁) ∧
          s₁.faults = s.faults := fun hcalm =>
        calmly_developmentFeedback pl result hcalm _
      rcases hfeedback : (developmentFeedback pl result).run (handleBridge env)
        (s.launchedDevelop pl principal planning design) with ⟨error | done, s₁⟩
      · rw [hfeedback] at hframe hcounts hquiet
        rw [Program.run_bind_of_error hfeedback] at hrun
        obtain ⟨rfl, rfl⟩ := Prod.mk.inj hrun
        refine .interrupted hdevelops hrole hframe (hcounts error rfl) ?_
        intro hcalm
        obtain ⟨value, s₁, hok, -⟩ := hquiet hcalm
        cases (Prod.mk.inj hok).1
      · rw [hfeedback] at hframe hquiet
        rw [Program.run_bind_of_ok hfeedback] at hrun
        obtain ⟨hkept, hended⟩ :=
          run_keepDevelopment (hframe.log.healthy hhealthy) _ hrun
        refine .finished hdevelops hrole hanswer hframe ?_ hkept ?_
        · intro hcalm
          obtain ⟨value, s₂, hok, hfaults⟩ := hquiet hcalm
          rw [(Prod.mk.inj hok).2]
          exact hfaults
        · intro hcodec hcan
          exact hended hcodec (hcan.sameLog hframe.log)

theorem run_advanceDevelopment (env : RootEnv) (hhealthy : s.store.Healthy)
    (ws prj pl principal : String) :
    Developed env ws prj pl principal (s.hydrated env ws pl)
      ((advanceDevelopment env.toBridgeCodec pl prj principal ws).run
        (handleBridge env) s).1
      ((advanceDevelopment env.toBridgeCodec pl prj principal ws).run
        (handleBridge env) s).2 := by
  simp only [advanceDevelopment, Program.bind_eq]
  rw [run_hydrateFromEvents_bind, run_memory_bind]
  have hhydrated : (s.hydrated env ws pl).store.Healthy := hhealthy
  by_cases hdev : (s.hydrated env ws pl).bridge.dev.get? pl = none
  · rw [if_neg (not_not.mpr hdev)]
    cases hplanned : planned (s.hydrated env ws pl).bridge pl with
    | none => exact .skipped (Or.inr hplanned)
    | some rows =>
        obtain ⟨planning, design⟩ := rows
        have hdevelops : Develops (s.hydrated env ws pl) pl planning design :=
          ⟨hdev, hplanned⟩
        dsimp only
        have happrove := @run_approveSolution env pl prj principal
          (planning.getD "prd_id" "") (design.getD "design_id" "")
          (design.getD "testplan_id" "") (s.hydrated env ws pl)
        by_cases hrole : SolutionApproval.mayApprove ((s.hydrated env
            ws pl).bridge.registry.roleOf prj principal) = true
        · rw [if_pos hrole] at happrove
          rw [Program.run_bind_of_ok happrove]
          exact run_developing hhydrated hdevelops hrole _ _ _ _ rfl
        · rw [if_neg hrole] at happrove
          rw [Program.run_bind_of_ok happrove]
          obtain ⟨hkept, hended⟩ := run_keepDevelopment hhydrated deniedRow rfl
          exact .denied hdevelops (by simpa using hrole) hkept hended
  · rw [if_pos hdev]
    exact .skipped (Or.inl hdev)

/-- Set a verification row, save it, record it and deliver what is pending. -/
theorem run_keepVerify (hhealthy : s.store.Healthy) {change : Bridge → Bridge}
    {row : Dict String String}
    (hchange : change s.bridge = withVerify s.bridge pl row)
    {before : BridgeProgram Unit}
    (hmoves : before.Moves (handleBridge env) Frame) (hcounts : Counts env before)
    (hcalmly : Calmly env before) (sha : String)
    {outcome : Except BridgeError Unit} {s' : RootState}
    (hrun : ((modify change).bind fun _ => before.bind fun _ =>
      saveVerify.bind fun _ => recordVerify env.toBridgeCodec ws prj pl sha).run
        (handleBridge env) s = (outcome, s')) :
    Kept env ws prj pl .verify (verifyRecord row pl prj sha) verifyFiles
        (withVerify s.bridge pl row) s s' ∧
      (env.Calm → env.codec.Serializes → CanRecord ws prj pl .verify s.store →
        s'.faults = s.faults → outcome = .ok ()) := by
  have hnames : ∀ name ∈ verifyFiles, name ∈ stationFiles := by decide
  rw [run_modify_bind, hchange] at hrun
  have hframe := hmoves { s with bridge := withVerify s.bridge pl row }
  have hcount := hcounts { s with bridge := withVerify s.bridge pl row }
  have hcalm := fun h => hcalmly h { s with bridge := withVerify s.bridge pl row }
  rcases hbefore : before.run (handleBridge env)
    { s with bridge := withVerify s.bridge pl row } with ⟨error | done, s₁⟩
  · -- the feedback could not be saved
    rw [hbefore] at hframe hcount
    rw [Program.run_bind_of_error hbefore] at hrun
    obtain ⟨rfl, rfl⟩ := Prod.mk.inj hrun
    have hfault : s.faults < s₁.faults := hcount error rfl
    have hcause : ¬ env.Calm := by
      intro h
      obtain ⟨value, s₂, hok, -⟩ := hcalm h
      rw [hbefore] at hok
      cases (Prod.mk.inj hok).1
    refine ⟨.interrupted hnames hframe (Saves.refl _ _) hfault hcause, ?_⟩
    intro _ _ _ hsame
    exact absurd hsame hfault.ne'
  rw [hbefore] at hframe
  rw [Program.run_bind_of_ok hbefore] at hrun
  have hquiet : env.Calm → s₁.faults = s.faults := by
    intro h
    obtain ⟨value, s₂, hok, hfaults⟩ := hcalm h
    rw [hbefore] at hok
    rw [(Prod.mk.inj hok).2]
    exact hfaults
  rcases stores_saveVerify env s₁ with
    ⟨s₂, hsaved, hsaves, hnew, hfaults⟩ |
      ⟨error, s₂, hsaved, hsaves, hfault, hcause⟩
  · rw [Program.run_bind_of_ok hsaved, recordVerify, Program.bind_eq,
      run_memory_bind] at hrun
    have hrow : s₂.bridge.verify.getD pl .empty = row := by
      rw [hsaves.bridge, hframe.verify]
      exact congrArg (Option.getD · _) (Dict.get?_set_self _ _ _)
    rw [hrow] at hrun
    replace hrun : ((recordStation env.toBridgeCodec ws prj pl .verify
        (verifyRecord row pl prj sha)).bind fun _ =>
      drainOutbox env.toBridgeCodec ws).run (handleBridge env) s₂ =
        (outcome, s') := hrun
    have hrecorded := run_recordStation env
      ((log_of_saves hframe hsaves).healthy hhealthy) ws prj pl .verify
      (verifyRecord row pl prj sha)
    rcases hrecord : (recordStation env.toBridgeCodec ws prj pl .verify
        (verifyRecord row pl prj sha)).run (handleBridge env) s₂ with
      ⟨error | done, s₃⟩
    · rw [hrecord] at hrecorded
      rw [Program.run_bind_of_error hrecord] at hrun
      obtain ⟨rfl, rfl⟩ := Prod.mk.inj hrun
      refine ⟨.completed hnames hframe hsaves hfaults hnew hrecorded (.refl _)
        fun hcalm => ⟨hquiet hcalm, rfl⟩, ?_⟩
      intro hcalm hcodec hcan hsame
      have hsame : s₃.faults = s₂.faults := by
        rw [hsame, hfaults, hquiet hcalm]
      exact (hrecorded.settled hcodec
        (hcan.sameLog (log_of_saves hframe hsaves)) hsame).1
    · rw [hrecord] at hrecorded
      rw [Program.run_bind_of_ok hrecord] at hrun
      have hafter := @moves_drainOutbox env ws s₃
      have hdrains := fun hcalm => @calmly_drainOutbox env ws hcalm s₃
      rw [hrun] at hafter hdrains
      refine ⟨.completed hnames hframe hsaves hfaults hnew hrecorded hafter ?_, ?_⟩
      · intro hcalm
        obtain ⟨value, s₄, hok, hdrained⟩ := hdrains hcalm
        rw [(Prod.mk.inj hok).2]
        exact ⟨hquiet hcalm, hdrained⟩
      · intro hcalm _ _ _
        obtain ⟨value, s₄, hok, -⟩ := hdrains hcalm
        exact (Prod.mk.inj hok).1
  · rw [Program.run_bind_of_error hsaved] at hrun
    obtain ⟨rfl, rfl⟩ := Prod.mk.inj hrun
    have hfault : s.faults < s₂.faults := lt_of_le_of_lt hframe.faults hfault
    refine ⟨.interrupted hnames hframe hsaves hfault hcause, ?_⟩
    intro _ _ _ hsame
    exact absurd hsame hfault.ne'

theorem run_keepInfra (hhealthy : s.store.Healthy)
    (habsent : s.bridge.verify.get? pl = none)
    {outcome : Except BridgeError Unit} {s' : RootState}
    (hrun : (keepInfra env.toBridgeCodec pl prj ws).run (handleBridge env) s =
      (outcome, s')) :
    Kept env ws prj pl .verify (verifyRecord infraRow pl prj "") verifyFiles
        (withVerify s.bridge pl infraRow) s s' ∧
      (env.Calm → env.codec.Serializes → CanRecord ws prj pl .verify s.store →
        s'.faults = s.faults → outcome = .ok ()) := by
  refine run_keepVerify hhealthy ?_ (Program.moves_done Frame.refl ())
    counts_done (calmly_done ()) "" hrun
  simp only [Dict.getD, habsent, Option.getD_none, Dict.get?_empty]
  rfl

/-- The result of a verification, once it is mirrored and saved. -/
theorem run_keepVerified (hhealthy : s.store.Healthy)
    {developed : Dict String String} (hverifies : Verifies s pl developed)
    {result : VerifyResult} {n : Nat} (hanswer : env.verifies n = some result)
    {outcome : Except BridgeError Unit} {s' : RootState}
    (hrun : (keepVerified env.toBridgeCodec pl prj ws
      (developed.getD "candidate_sha" "") result).run (handleBridge env)
        (s.launchedVerify pl developed) = (outcome, s')) :
    Verified env ws prj pl s outcome s' := by
  let sha := developed.getD "candidate_sha" ""
  let deliver : BridgeProgram Unit :=
    (publishReady env.toBridgeCodec pl prj sha result).bind fun _ =>
      (mirrorStored pl prj sha).bind fun _ => saveDelivery
  have hmoves : deliver.Moves (handleBridge env) Frame :=
    (moves_publishReady _ _ _ _).bind .trans fun _ =>
      (moves_mirrorStored _ _ _).bind .trans fun _ => moves_saveDelivery
  have hcalmly : Calmly env deliver :=
    (calmly_publishReady _ _ _ _).bind fun _ =>
      (calmly_mirrorStored _ _ _).bind fun _ => calmly_write _
  let change : Bridge → Bridge := fun bridge =>
    let prior := bridge.verify.getD pl .empty
    let row := rowOf [("verify_status", result.status.value),
      ("e2e_id", result.e2eId.getD ""),
      ("acceptance_id", result.acceptanceId.getD ""),
      ("verify_attempts", prior.getD "verify_attempts" "0")]
    { bridge with verify := bridge.verify.set pl row }
  have hsplit : keepVerified env.toBridgeCodec pl prj ws sha result =
      deliver.bind fun _ => (modify change).bind fun _ =>
        (verifyFeedback pl result).bind fun _ => saveVerify.bind fun _ =>
          recordVerify env.toBridgeCodec ws prj pl sha := by
    simp only [keepVerified, Program.bind_eq, deliver, Program.bind_assoc]
    rfl
  rw [hsplit] at hrun
  have hframe := hmoves (s.launchedVerify pl developed)
  rcases hdeliver : deliver.run (handleBridge env) (s.launchedVerify pl developed)
    with ⟨error | done, s₁⟩
  · rw [hdeliver] at hframe
    rw [Program.run_bind_of_error hdeliver] at hrun
    obtain ⟨rfl, rfl⟩ := Prod.mk.inj hrun
    refine .interrupted hverifies hframe ?_
    intro hcalm
    obtain ⟨value, s₂, hok, -⟩ := hcalmly hcalm (s.launchedVerify pl developed)
    rw [hdeliver] at hok
    cases (Prod.mk.inj hok).1
  · rw [hdeliver] at hframe
    rw [Program.run_bind_of_ok hdeliver] at hrun
    have hquiet : env.Calm → s₁.faults = s.faults := by
      intro hcalm
      obtain ⟨value, s₂, hok, hfaults⟩ :=
        hcalmly hcalm (s.launchedVerify pl developed)
      rw [hdeliver] at hok
      rw [(Prod.mk.inj hok).2]
      exact hfaults
    have habsent : s₁.bridge.verify.get? pl = none := by
      rw [hframe.verify]
      exact hverifies.absent
    have hchange : change s₁.bridge =
        withVerify s₁.bridge pl (verifiedRow result) := by
      simp only [change, Dict.getD, habsent, Option.getD_none, Dict.get?_empty]
      rfl
    obtain ⟨hkept, hended⟩ := run_keepVerify (hframe.log.healthy hhealthy) hchange
      (moves_verifyFeedback pl result) (counts_verifyFeedback pl result)
      (calmly_verifyFeedback pl result) sha hrun
    refine .finished hverifies hanswer hframe hquiet hkept ?_
    intro hcalm hcodec hcan hsame
    exact hended hcalm hcodec (hcan.sameLog hframe.log)
      (hsame.trans (hquiet hcalm).symm)

theorem Developed.later {outcome : Except BridgeError Unit} {s' : RootState}
    (hdeveloped : Developed env ws prj pl principal s outcome s') :
    s.store.Later s'.store := by
  cases hdeveloped with
  | skipped row => exact .refl _
  | denied develops role kept ended => exact kept.later
  | raised develops role answer => exact .refl _
  | interrupted develops role frame fault cause => exact frame.log.later
  | finished develops role answer frame quiet kept ended =>
      exact frame.log.later.trans kept.later

theorem Verified.later {outcome : Except BridgeError Unit} {s' : RootState}
    (hverified : Verified env ws prj pl s outcome s') :
    s.store.Later s'.store := by
  cases hverified with
  | skipped idle => exact .refl _
  | interrupted verifies frame cause => exact frame.log.later
  | infra verifies answer kept ended => exact kept.later
  | finished verifies answer frame quiet kept ended =>
      exact frame.log.later.trans kept.later

theorem run_advanceVerify (env : RootEnv) (hhealthy : s.store.Healthy)
    (ws prj pl : String) :
    Verified env ws prj pl (s.hydrated env ws pl)
      ((advanceVerify env.toBridgeCodec pl prj ws).run (handleBridge env) s).1
      ((advanceVerify env.toBridgeCodec pl prj ws).run (handleBridge env) s).2 := by
  simp only [advanceVerify, Program.bind_eq]
  rw [run_hydrateFromEvents_bind, run_memory_bind]
  have hhydrated : (s.hydrated env ws pl).store.Healthy := hhealthy
  by_cases hverify : (s.hydrated env ws pl).bridge.verify.get? pl = none
  · rw [if_neg (not_not.mpr hverify)]
    cases hdev : (s.hydrated env ws pl).bridge.dev.get? pl with
    | none =>
        refine .skipped ?_
        intro developed hverifies
        rw [hverifies.row] at hdev
        cases hdev
    | some developed =>
        dsimp only
        by_cases hgate : developed.get? "candidate_gate" = some "PASS"
        · rw [if_neg (not_not.mpr hgate)]
          have hverifies : Verifies (s.hydrated env ws pl) pl developed :=
            ⟨hverify, hdev, hgate⟩
          have hflow : ∀ testplan, (perform (.verify pl prj
              (developed.getD "candidate_sha" "") testplan)).run
                (handleBridge env) (s.hydrated env ws pl) =
              (.ok (env.verifies s.effects),
                (s.hydrated env ws pl).launchedVerify pl developed) :=
            fun _ => Program.run_perform _ _ _
          rw [Program.run_bind_of_ok (hflow _)]
          cases hanswer : env.verifies s.effects with
          | none =>
              obtain ⟨hkept, hended⟩ := @run_keepInfra env ws prj pl
                ((s.hydrated env ws pl).launchedVerify pl developed) hhydrated
                hverify _ _ rfl
              exact .infra hverifies hanswer hkept hended
          | some result => exact run_keepVerified hhydrated hverifies hanswer rfl
        · rw [if_pos hgate]
          refine .skipped ?_
          intro other hverifies
          obtain rfl : developed = other := by
            rw [hverifies.row] at hdev
            exact (Option.some.inj hdev).symm
          exact hgate hverifies.gate
  · rw [if_pos hverify]
    exact .skipped fun _ hverifies => hverify hverifies.absent

end Stages

end RootState

end HermesPipeline
