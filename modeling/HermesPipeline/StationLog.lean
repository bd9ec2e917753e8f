/-
Finished stations and the log.  A stage function that stores a result for a
pipeline also records it, in the log of the workspace it was called for: the
record goes through exactly when that workspace has the pipeline open, its ids
fit the contract model, and no command has taken its id.
-/
import HermesPipeline.ApprovalRows

namespace HermesPipeline

open Lib KernelController KernelBridge

/-- A stage function of the bridge. -/
inductive StageCall
  | prd
  | architecture
  | development (principalId : String)
  | verify
  | approval (principalId : String)
deriving Repr, DecidableEq

namespace StageCall

def station : StageCall → Station
  | .prd => .prd
  | .architecture => .architecture
  | .development _ => .development
  | .verify => .verify
  | .approval _ => .approval

/-- The rows in which the function keeps its results. -/
def rows : StageCall → Bridge → Rows
  | .prd => Bridge.prd
  | .architecture => Bridge.arch
  | .development _ => Bridge.dev
  | .verify => Bridge.verify
  | .approval _ => Bridge.approvals

/-- The function; only an approval answers with the text of an error. -/
def program (env : BridgeCodec) (ws prj pl : String) :
    StageCall → RootProgram (Option String)
  | .prd => (advancePrd env pl ws prj).bind fun _ => .done none
  | .architecture => (advanceArchitecture env pl ws prj).bind fun _ => .done none
  | .development principalId =>
      lift ((advanceDevelopment env pl prj principalId ws).bind fun _ => .done none)
  | .verify => lift ((advanceVerify env pl prj ws).bind fun _ => .done none)
  | .approval principalId => lift (commitApproval env pl prj principalId ws)

/-- The function ended with the text of an error. -/
def refused : Except BridgeError (Option String) → Bool
  | .ok (some _) => true
  | _ => false

/-- The function stored a result: a stage fills a row that was missing, also
after the rows were restored from the log; an approval replaces its row unless
it answers with an error. -/
def Stores (env : RootEnv) (ws pl : String) (call : StageCall) (s : RootState)
    (ended : Except BridgeError (Option String) × RootState)
    (row : Dict String String) : Prop :=
  (call.rows ended.2.bridge).get? pl = some row ∧ refused ended.1 = false ∧
    (call.station = .approval ∨
      (call.rows (s.hydrated env ws pl).bridge).get? pl = none)

/-- A record carries every field of a result; of an approval it carries the
decision and the approver. -/
def Carries (call : StageCall) (row fields : Dict String String) : Prop :=
  if call.station = .approval then
    ∀ name ∈ recordedFields .approval, fields.get? name = row.get? name
  else ∀ name, row.get? name ≠ none → fields.get? name = row.get? name

/-- The log of a workspace in which the pipeline is open gains one event of
the station, which carries the result; no other log changes. -/
def Gains (codec : Codec) (pl : String) (call : StageCall)
    (row : Dict String String) (s s' : SqliteKernelStore) : Prop :=
  ∃ ws fields,
    (∃ snapshot, s.pipelines.find? (ws, pl) = some snapshot ∧
      snapshot.status = "OPEN") ∧
    call.Carries row fields ∧ Extended codec ws pl call.station fields s s'

end StageCall

/-- The record of a station goes through: it can be submitted, and its commit
finds its keys free. -/
def Recordable (ws prj pl : String) (station : Station)
    (s : SqliteKernelStore) : Prop :=
  CanRecord ws prj pl station s ∧
    Vacant ws pl (recordId pl station (nextAttempt s ws pl station)) s

namespace RootState

/-- The states in which a stage function can be called: those of a session, and
those inside a request or a worker. -/
inductive Visited (env : RootEnv) : RootState → Prop
  | session (spawnWorker : Bool) (inputs : List RootInput) :
      Visited env ((init spawnWorker).after env inputs)
  | move {commandId : String} {ids : RequestIds} {phase : Phase}
      {s s' : RootState} (visited : Visited env s)
      (move : Move env commandId ids phase s s') : Visited env s'
  | constructed {outcome : Except BridgeError Unit} {s s' : RootState}
      (visited : Visited env s) (constructed : Constructed env s outcome s') :
      Visited env s'

variable {env : RootEnv} {s s₁ s' : RootState}

theorem Visited.store (hvisited : Visited env s) :
    s.store.Healthy ∧ s.store.Numbered := by
  induction hvisited with
  | session spawnWorker inputs =>
      exact store_after env inputs (healthy_init spawnWorker)
        (numbered_init spawnWorker)
  | move _ hmove ih =>
      exact ⟨hmove.later.healthy ih.1, hmove.later.numbered ih.2⟩
  | constructed _ hconstructed ih =>
      have hlater := hconstructed.later ih.2
      exact ⟨hlater.healthy ih.1, hlater.numbered ih.2⟩

section Gains

variable {ws prj pl : String} {station : Station} {call : StageCall}
  {row fields : Dict String String} {names : List String} {bridge : Bridge}

/-- A store whose logs are as they were has gained nothing. -/
theorem not_gains_of_sameLog {codec : Codec} {store store' : SqliteKernelStore}
    (hsame : store.SameLog store') : ¬ call.Gains codec pl row store store' := by
  rintro ⟨ws, fields, -, -, event, -, hlog, -⟩
  have hlength := congrArg List.length hlog
  rw [hsame.listEvents, List.length_append, List.length_singleton] at hlength
  omega

/-- The rows of a stage do not depend on deliveries or feedback. -/
theorem rows_of_core (call : StageCall) {left right : Bridge}
    (hcore : left.core = right.core) : call.rows left = call.rows right := by
  cases call with
  | prd =>
      have hprd := congrArg Bridge.prd hcore
      exact hprd
  | architecture =>
      have harch := congrArg Bridge.arch hcore
      exact harch
  | development principal =>
      have hdev := congrArg Bridge.dev hcore
      exact hdev
  | verify =>
      have hverify := congrArg Bridge.verify hcore
      exact hverify
  | approval principal =>
      have happrovals := congrArg Bridge.approvals hcore
      exact happrovals

/-- A row that is kept is gained by the log exactly when it can be recorded. -/
theorem Kept.gains_iff (call : StageCall)
    (hkept : Kept env ws prj pl call.station fields names bridge s₁ s')
    (hcodec : env.codec.Serializes) (hcalm : env.Calm)
    (hnumbered : s.store.Numbered) (hlog : s.store.SameLog s₁.store)
    (hstored : (call.rows s'.bridge).get? pl = some row)
    (hcarries : ∀ kept, (call.rows bridge).get? pl = some kept →
      call.Carries kept fields) :
    call.Gains env.codec pl row s.store s'.store ↔
      Recordable ws prj pl call.station s.store := by
  rw [rows_of_core call hkept.core] at hstored
  have hcarries := hcarries row hstored
  constructor
  · intro hgains
    rcases hkept.log with hsame | ⟨store, happends, hsame⟩
    · exact absurd hgains (not_gains_of_sameLog (hlog.trans hsame))
    · have happends := happends.of_sameLog hlog
      obtain ⟨event, -, hgrows⟩ := happends.grows
      exact ⟨happends.can hcodec, vacant_of_grows hgrows⟩
  · rintro ⟨hcan, hvacant⟩
    have hnext := nextAttempt_sameLog hlog ws pl call.station
    have hcan₁ := hcan.sameLog hlog
    have hquiet := hkept.quiet hcalm hcodec hcan₁
      (by rw [hnext]; exact hvacant.sameLog hlog)
    obtain ⟨event, hrecords, hself, hother⟩ := hkept.recorded
      (hlog.numbered hnumbered) hcodec hcan₁ hquiet
    refine ⟨ws, fields, hcan.opened, hcarries, event, hrecords, ?_, ?_⟩
    · rw [hself, hlog.listEvents]
    · intro ws' pl' hne
      rw [hother ws' pl' hne, hlog.listEvents]

theorem carries_set (call : StageCall) (hstation : call.station ≠ .approval)
    {rows : Rows} (hrow : (rows.set pl fields).get? pl = some row) :
    call.Carries row fields := by
  rw [Dict.get?_set_self, Option.some.injEq] at hrow
  rw [StageCall.Carries, if_neg hstation, hrow]
  exact fun name _ => rfl

/-- The fields that are added to the record of a verification are none of its
row. -/
theorem carries_verifyRecord {verified : Dict String String} {sha : String}
    (hfree : ∀ name ∈ ["pipeline_id", "project_id", "candidate_sha"],
      verified.get? name = none) :
    StageCall.verify.Carries verified (verifyRecord verified pl prj sha) := by
  rw [StageCall.Carries, if_neg (by decide)]
  intro name hname
  have hother : name ≠ "pipeline_id" ∧ name ≠ "project_id" ∧
      name ≠ "candidate_sha" := by
    refine ⟨?_, ?_, ?_⟩ <;>
    · rintro rfl
      exact hname (hfree _ (by simp))
  simp [verifyRecord, Dict.update, Dict.get?_set, hother]

theorem carries_approvalRecord {principal : String}
    {planning design : Dict String String}
    (hrow : (committedBridge bridge pl prj principal planning
      design).approvals.get? pl = some row) :
    (StageCall.approval principal).Carries row (approvalRecord principal) := by
  rw [get?_committed_self, Option.some.injEq] at hrow
  subst hrow
  rw [StageCall.Carries,
    if_pos (show (StageCall.approval principal).station = .approval from rfl)]
  simp [recordedFields, approvalRecord, rowOf, SolutionApproval.dumpedRow,
    Dict.update, Dict.get?_set]

end Gains

section Stages

variable {ws prj pl principal : String} {row : Dict String String}
  (hcodec : env.codec.Serializes) (hcalm : env.Calm)
  (hnumbered : s.store.Numbered) {outcome : Except BridgeError Unit}
include hcodec hcalm hnumbered

theorem Planned.gains_iff (hplanned : Planned env ws prj pl s outcome s')
    (habsent : s.bridge.prd.get? pl = none)
    (hrow : s'.bridge.prd.get? pl = some row) :
    StageCall.prd.Gains env.codec pl row s.store s'.store ↔
      Recordable ws prj pl .prd s.store := by
  have hself := SqliteKernelStore.SameLog.refl s.store
  cases hplanned with
  | skipped present => exact absurd habsent present
  | raised absent answer =>
      have hsame : s.bridge.prd.get? pl = some row := hrow
      rw [habsent] at hsame
      cases hsame
  | finished absent answer kept ended =>
      exact kept.gains_iff .prd hcodec hcalm hnumbered hself hrow
        fun stored hstored => carries_set .prd (by decide) hstored

theorem Designed.gains_iff (hdesigned : Designed env ws prj pl s outcome s')
    (habsent : s.bridge.arch.get? pl = none)
    (hrow : s'.bridge.arch.get? pl = some row) :
    StageCall.architecture.Gains env.codec pl row s.store s'.store ↔
      Recordable ws prj pl .architecture s.store := by
  have hself := SqliteKernelStore.SameLog.refl s.store
  have hunchanged : s.bridge.arch.get? pl ≠ some row := by
    rw [habsent]
    simp
  cases hdesigned with
  | skipped why => exact absurd hrow hunchanged
  | raised absent planned answer => exact absurd hrow hunchanged
  | finished absent planned answer kept stops ended =>
      exact kept.gains_iff .architecture hcodec hcalm hnumbered hself hrow
        fun stored hstored => carries_set .architecture (by decide) hstored
  | @pended planning result n outcome s₁ s' absent planned answer passes kept
      pended ended faults quiet =>
      -- keeping the baseline pending touches neither the row nor the store
      obtain ⟨harch, hstore⟩ : s'.bridge.arch = s₁.bridge.arch ∧
          s'.store = s₁.store := by
        cases pended with
        | skipped row => exact ⟨rfl, rfl⟩
        | pended absent rewritten =>
            have harch := congrArg Bridge.arch rewritten.core
            exact ⟨harch, rewritten.store⟩
      rw [hstore]
      rw [harch] at hrow
      exact kept.gains_iff .architecture hcodec hcalm hnumbered hself hrow
        fun stored hstored => carries_set .architecture (by decide) hstored

theorem Developed.gains_iff
    (hdeveloped : Developed env ws prj pl principal s outcome s')
    (habsent : s.bridge.dev.get? pl = none)
    (hrow : s'.bridge.dev.get? pl = some row) :
    (StageCall.development principal).Gains env.codec pl row s.store s'.store ↔
      Recordable ws prj pl .development s.store := by
  have hunchanged : s.bridge.dev.get? pl ≠ some row := by
    rw [habsent]
    simp
  cases hdeveloped with
  | skipped why => exact absurd hrow hunchanged
  | denied develops role kept ended =>
      exact kept.gains_iff (.development principal) hcodec hcalm hnumbered
        (.refl _) hrow
        fun stored hstored => carries_set (.development principal) 
          (by simp [StageCall.station]) hstored
  | raised develops role answer => exact absurd hrow hunchanged
  | interrupted develops role frame fault cause => exact absurd hcalm cause
  | finished develops role answer frame quiet kept ended =>
      exact kept.gains_iff (.development principal) hcodec hcalm hnumbered
        frame.log hrow
        fun stored hstored => carries_set (.development principal) 
          (by simp [StageCall.station]) hstored

theorem Verified.gains_iff (hverified : Verified env ws prj pl s outcome s')
    (habsent : s.bridge.verify.get? pl = none)
    (hrow : s'.bridge.verify.get? pl = some row) :
    StageCall.verify.Gains env.codec pl row s.store s'.store ↔
      Recordable ws prj pl .verify s.store := by
  cases hverified with
  | skipped idle =>
      rw [habsent] at hrow
      cases hrow
  | interrupted verifies frame cause => exact absurd hcalm cause
  | infra verifies answer kept ended =>
      refine kept.gains_iff .verify hcodec hcalm hnumbered
        (SqliteKernelStore.SameLog.refl s.store) hrow ?_
      intro stored hstored
      rw [StageCall.rows, withVerify, Dict.get?_set_self, Option.some.injEq]
        at hstored
      subst hstored
      exact carries_verifyRecord (by decide)
  | finished verifies answer frame quiet kept ended =>
      refine kept.gains_iff .verify hcodec hcalm hnumbered frame.log hrow ?_
      intro stored hstored
      rw [StageCall.rows, withVerify, Dict.get?_set_self, Option.some.injEq]
        at hstored
      subst hstored
      exact carries_verifyRecord (by
        simp [verifiedRow, rowOf, Dict.update, Dict.get?_set])

theorem Committed.gains_iff {answer : Except BridgeError (Option String)}
    (hcommitted : Committed env ws prj pl principal s answer s')
    (hanswer : StageCall.refused answer = false)
    (hrow : s'.bridge.approvals.get? pl = some row) :
    (StageCall.approval principal).Gains env.codec pl row s.store s'.store ↔
      Recordable ws prj pl .approval s.store := by
  cases hcommitted with
  | refused message why => cases hanswer
  | kept prd arch role kept ended =>
      exact kept.gains_iff (.approval principal) hcodec hcalm hnumbered
        (.refl _) hrow
        fun stored hstored => carries_approvalRecord hstored

end Stages

/-- A stage function that stored a result has put it into the log of a
workspace in which the pipeline is open exactly when the workspace it was
called for can record the station. -/
theorem stage_gains_iff (hcodec : env.codec.Serializes) (hcalm : env.Calm)
    (hhealthy : s.store.Healthy) (hnumbered : s.store.Numbered)
    (ws prj pl : String) (call : StageCall) {row : Dict String String}
    (hstores : call.Stores env ws pl s
      ((call.program env.toBridgeCodec ws prj pl).run (handle env) s) row) :
    call.Gains env.codec pl row s.store
        ((call.program env.toBridgeCodec ws prj pl).run (handle env) s).2.store ↔
      Recordable ws prj pl call.station s.store := by
  obtain ⟨hrow, hanswer, hbefore⟩ := hstores
  have hrestored : (s.hydrated env ws pl).store.Numbered := hnumbered
  cases call with
  | prd =>
      have habsent := hbefore.resolve_left (by decide)
      simp only [StageCall.program, Program.run_bind_done] at hrow hanswer ⊢
      have hiff := (run_advancePrd env hhealthy ws prj pl).gains_iff hcodec
        hcalm hrestored habsent hrow
      exact hiff
  | architecture =>
      have habsent := hbefore.resolve_left (by decide)
      simp only [StageCall.program, Program.run_bind_done] at hrow hanswer ⊢
      have hiff := (run_advanceArchitecture env hhealthy ws prj pl).gains_iff hcodec
        hcalm hrestored habsent hrow
      exact hiff
  | development principal =>
      have habsent := hbefore.resolve_left (by simp [StageCall.station])
      simp only [StageCall.program, run_lift, Program.run_bind_done]
        at hrow hanswer ⊢
      have hiff := (run_advanceDevelopment env hhealthy ws prj pl
        principal).gains_iff hcodec hcalm hrestored habsent hrow
      exact hiff
  | verify =>
      have habsent := hbefore.resolve_left (by decide)
      simp only [StageCall.program, run_lift, Program.run_bind_done]
        at hrow hanswer ⊢
      have hiff := (run_advanceVerify env hhealthy ws prj pl).gains_iff hcodec
        hcalm hrestored habsent hrow
      exact hiff
  | approval principal =>
      simp only [StageCall.program, run_lift] at hrow hanswer ⊢
      exact (run_commitApproval env hhealthy ws prj pl principal).gains_iff hcodec
        hcalm hnumbered hanswer hrow

/-- In every state in which a stage function can be called: a result that it
stores is in the log of a workspace in which the pipeline is open exactly when
the workspace it was called for can record the station. -/
theorem stored_station_logged_iff (hcodec : env.codec.Serializes)
    (hcalm : env.Calm) (hvisited : Visited env s) (ws prj pl : String)
    (call : StageCall) {row : Dict String String}
    (hstores : call.Stores env ws pl s
      ((call.program env.toBridgeCodec ws prj pl).run (handle env) s) row) :
    call.Gains env.codec pl row s.store
        ((call.program env.toBridgeCodec ws prj pl).run (handle env) s).2.store ↔
      Recordable ws prj pl call.station s.store :=
  stage_gains_iff hcodec hcalm hvisited.store.1 hvisited.store.2 ws prj pl call
    hstores

end RootState

namespace StationLogWitness

open RootState SampleSession

/-- Every development is denied. -/
def session : RootEnv := sampleEnv ⟨.denied, none, none, "", false⟩ none

theorem session_calm : session.Calm :=
  calm_of_steady (sampleEnv_steady _ _)

/-- The state in which the requirement of `pl_a` in `ws_a` is planned. -/
def planned : RootState := (init false).after session (enrolment ++ [intakeInput])

/-- The approval of `alice`, in the workspace that the request names. -/
def approval (ws : String) : Except BridgeError (Option String) × RootState :=
  ((StageCall.approval "alice").program session.toBridgeCodec ws "prj_a"
    "pl_a").run (handle session) planned

/-- The row of the approval. -/
def approvedRow : Dict String String :=
  rowOf [("approval_status", "APPROVED"), ("approver_id", "alice"),
    ("prd_id", "art_prd"), ("design_id", "art_design"),
    ("testplan_id", "art_testplan"), ("designated_id", "alice"),
    ("project_id", "prj_a")]

theorem approval_stores :
    (StageCall.approval "alice").Stores session "ws_a" "pl_a" planned
        (approval "ws_a") approvedRow ∧
      (StageCall.approval "alice").Stores session "ws_b" "pl_a" planned
        (approval "ws_b") approvedRow := by
  have hstored : ∀ ws ∈ ["ws_a", "ws_b"],
      (approval ws).2.bridge.approvals.get? "pl_a" = some approvedRow ∧
        StageCall.refused (approval ws).1 = false := by
    simp only [approval, planned, session, sampleEnv_eq]
    decide +kernel
  obtain ⟨hrow, hanswer⟩ := hstored "ws_a" (by simp)
  obtain ⟨hrow', hanswer'⟩ := hstored "ws_b" (by simp)
  exact ⟨⟨hrow, hanswer, Or.inl rfl⟩, hrow', hanswer', Or.inl rfl⟩

theorem stored_station_logged_iff_at_approval :
    (StageCall.approval "alice").Gains session.codec "pl_a" approvedRow
        planned.store (approval "ws_a").2.store ↔
      Recordable "ws_a" "prj_a" "pl_a" .approval planned.store :=
  stored_station_logged_iff sampleJcs_serializes session_calm
    (.session false (enrolment ++ [intakeInput])) "ws_a" "prj_a" "pl_a"
    (.approval "alice") approval_stores.1

/-- An approval that names another workspace is stored and is in no log. -/
theorem approval_stored_unlogged :
    Visited session planned ∧
      (StageCall.approval "alice").Stores session "ws_b" "pl_a" planned
        (approval "ws_b") approvedRow ∧
      ¬ (StageCall.approval "alice").Gains session.codec "pl_a" approvedRow
        planned.store (approval "ws_b").2.store := by
  have hvisited : Visited session planned :=
    .session false (enrolment ++ [intakeInput])
  refine ⟨hvisited, approval_stores.2, fun hgains => ?_⟩
  have hiff := stage_gains_iff sampleJcs_serializes session_calm
    hvisited.store.1 hvisited.store.2 "ws_b" "prj_a" "pl_a" (.approval "alice")
    approval_stores.2
  obtain ⟨snapshot, hfound, -⟩ := (hiff.mp hgains).1.opened
  have hmissing : planned.store.pipelines.find? ("ws_b", "pl_a") = none := by
    rw [planned, session, sampleEnv_eq]
    decide +kernel
  rw [hmissing] at hfound
  cases hfound

end StationLogWitness

end HermesPipeline
