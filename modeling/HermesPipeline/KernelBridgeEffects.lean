/-
Which effects the functions of the bridge can have.  The stages and the station
imports work on the memory, the files and the outside and record stations; they
touch neither leases nor processes, and they commit only to their pipeline.
-/
import HermesPipeline.KernelSubmit
import HermesPipeline.StageWorker
import HermesPipeline.Lib.Monitor

namespace HermesPipeline

open Lib

/-- The store operations that record stations, with the commits they may
make. -/
def StoreOp.Records (commits : AcceptedWrite → Prop) : StoreOp → Prop
  | .findInbox _ _ => True
  | .loadPipeline _ _ => True
  | .listEvents _ _ => True
  | .listPendingOutbox _ => True
  | .recordOutboxDelivery _ _ _ => True
  | .commitAccepted write => commits write
  | _ => False

/-- The effects of a stage. -/
def BridgeOp.Works (commits : AcceptedWrite → Prop) : BridgeOp → Prop
  | .memory => True
  | .assign _ => True
  | .store op => op.Records commits
  | .construct => True
  | .write _ => True
  | .develop _ _ _ _ _ => True
  | .verify _ _ _ _ => True
  | .publish _ => True
  | _ => False

/-- The write goes to this pipeline, which has a workspace. -/
def WritesTo (workspaceId pipelineId : String) (write : AcceptedWrite) : Prop :=
  write.event.scope = (workspaceId, pipelineId) ∧ workspaceId ≠ ""

section Rules

variable {α β : Type} {allowed : BridgeOp → Prop}

theorem calls_effect {op : BridgeOp} (hop : allowed op) :
    (perform op).Calls allowed :=
  Program.calls_perform hop

theorem calls_kernel {p : StoreProgram α}
    (hp : p.Calls fun op => allowed (.store op)) : (kernel p).Calls allowed := by
  induction p with
  | done value => trivial
  | raise error => trivial
  | call op next ih =>
      rw [kernel]
      refine ⟨hp.1, ?_⟩
      intro answer
      cases answer with
      | error error => trivial
      | ok answer => exact ih answer (hp.2 answer)

theorem kernel_bind (p : StoreProgram α) (f : α → StoreProgram β) :
    kernel (p.bind f) = (kernel p).bind fun value => kernel (f value) := by
  induction p with
  | done value => rfl
  | raise error => rfl
  | call op next ih =>
      rw [Program.call_bind, kernel, kernel, Program.call_bind]
      congr 1
      funext answer
      cases answer with
      | error error => rfl
      | ok answer => exact ih answer

/-- One store operation under a monitor of the bridge. -/
theorem obeys_ask {μ : Type}
    {monitor : Monitor BridgeOp BridgeOp.Answer BridgeError μ} {s : μ}
    (op : StoreOp) {post : μ → Except BridgeError op.Answer → Prop}
    (hallows : monitor.allows s (.store op))
    (hok : ∀ value, post (monitor.next s (.store op) (.ok (.ok value))) (.ok value))
    (hrefused : ∀ error, post (monitor.next s (.store op) (.ok (.error error)))
      (.error (.kernel error)))
    (herror : ∀ error, post (monitor.next s (.store op) (.error error))
      (.error error)) :
    (kernel (ask op)).Obeys monitor post s := by
  rw [ask, Program.perform, kernel]
  refine ⟨hallows, ?_⟩
  intro answer
  rcases answer with error | error | value
  · exact herror error
  · exact hrefused error
  · exact hok value

theorem calls_ask {op : StoreOp} (hop : allowed (.store op)) :
    (kernel (ask op)).Calls allowed :=
  calls_kernel (Program.calls_perform hop)

theorem calls_modify (hmemory : allowed .memory)
    (hassign : ∀ bridge, allowed (.assign bridge)) (change : Bridge → Bridge) :
    (modify change).Calls allowed :=
  (calls_effect hmemory).bind fun _ => calls_effect (hassign _)

end Rules

namespace KernelBridge

theorem stationCommand_scope {ws prj pl cmd : String} {station : Station}
    {revision : Nat} {fields : Dict String String} {command : ControllerCommand}
    (hcommand : stationCommand ws prj pl cmd station revision fields =
      some command) :
    command.workspaceId = ws ∧ command.pipelineId = pl := by
  simp only [stationCommand] at hcommand
  split at hcommand
  · cases hcommand
    exact ⟨rfl, rfl⟩
  · cases hcommand

variable (env : BridgeCodec) {commits : AcceptedWrite → Prop}

theorem works_modify (change : Bridge → Bridge) :
    (modify change).Calls (BridgeOp.Works commits) :=
  calls_modify trivial (fun _ => trivial) change

theorem works_write (file : String) :
    (perform (.write file)).Calls (BridgeOp.Works commits) :=
  calls_effect trivial

theorem works_hydrateFromEvents (ws pl : String) :
    (hydrateFromEvents env ws pl).Calls (BridgeOp.Works commits) :=
  (calls_ask trivial).bind fun _ => works_modify _

theorem works_mirrorGithub (record : DeliveryRecord) (request : DeliveryRequest) :
    (mirrorGithub record request).Calls (BridgeOp.Works commits) := by
  refine (calls_effect trivial).bind ?_
  intro remote
  cases remote with
  | none => trivial
  | some remote =>
      dsimp only
      split
      · exact (works_modify _).bind fun _ => trivial
      · trivial

theorem works_drainItem (ws : String) (item : OutboxRecord) :
    (drainItem env ws item).Calls (BridgeOp.Works commits) := by
  unfold drainItem
  split
  · exact calls_ask trivial
  · refine (calls_effect trivial).bind ?_
    intro bridge
    refine Program.Calls.ite ?_ (calls_ask trivial)
    refine (calls_effect trivial).bind fun _ => ?_
    refine (works_mirrorGithub _ _).bind fun _ => ?_
    exact (works_write _).bind fun _ => calls_ask trivial

theorem works_drainItems (ws : String) (items : List OutboxRecord) :
    (drainItems env ws items).Calls (BridgeOp.Works commits) := by
  induction items with
  | nil => trivial
  | cons item rest ih => exact (works_drainItem env ws item).bind fun _ => ih

theorem works_drainOutbox (ws : String) :
    (drainOutbox env ws).Calls (BridgeOp.Works commits) := by
  unfold drainOutbox
  split
  · trivial
  · exact (calls_ask trivial).bind fun items => works_drainItems env ws items

theorem works_saveWithStages (file : String) :
    (saveWithStages file).Calls (BridgeOp.Works commits) :=
  (works_write _).bind fun _ => works_write _

theorem works_setFeedback (pl note : String) :
    (setFeedback pl note).Calls (BridgeOp.Works commits) := by
  unfold setFeedback
  split
  · trivial
  · exact (works_modify _).bind fun _ => works_write _

theorem works_clearFeedback (pl : String) :
    (clearFeedback pl).Calls (BridgeOp.Works commits) := by
  refine (calls_effect trivial).bind fun bridge => ?_
  split
  · trivial
  · exact (calls_effect trivial).bind fun _ => works_write _

theorem works_approveSolution (pl prj actor prd design testplan : String) :
    (approveSolution pl prj actor prd design testplan).Calls
      (BridgeOp.Works commits) := by
  refine (calls_effect trivial).bind fun bridge => ?_
  split
  · trivial
  · refine (calls_effect trivial).bind fun _ => ?_
    split
    · trivial
    · exact (calls_effect trivial).bind fun _ => trivial

theorem works_dropStages (pl : String) :
    (dropStages pl).Calls (BridgeOp.Works commits) := by
  refine (works_modify _).bind fun _ => ?_
  exact (works_saveWithStages _).bind fun _ => works_modify _

theorem works_developmentFeedback (pl : String) (result : DevelopmentResult) :
    (developmentFeedback pl result).Calls (BridgeOp.Works commits) :=
  .ite (works_setFeedback _ _) (.ite (works_clearFeedback _) trivial)

theorem works_verifyFeedback (pl : String) (result : VerifyResult) :
    (verifyFeedback pl result).Calls (BridgeOp.Works commits) :=
  .ite (works_setFeedback _ _) (.ite (works_clearFeedback _) trivial)

theorem works_publishReady (pl prj sha : String) (result : VerifyResult) :
    (publishReady env pl prj sha result).Calls (BridgeOp.Works commits) :=
  .ite (works_modify _) trivial

theorem works_mirrorStored (pl prj sha : String) :
    (mirrorStored pl prj sha).Calls (BridgeOp.Works commits) := by
  refine (calls_effect trivial).bind fun bridge => ?_
  split
  · exact (works_mirrorGithub _ _).bind fun _ => trivial
  · trivial

theorem works_keepRetried (pl : String) (verified : Bool)
    (row : Dict String String) :
    (keepRetried pl verified row).Calls (BridgeOp.Works commits) :=
  .ite ((works_modify _).bind fun _ => works_saveWithStages _)
    ((works_modify _).bind fun _ => works_saveWithStages _)

section Recording

variable {ws pl : String} (hcommits : ∀ write, WritesTo ws pl write → commits write)

include hcommits

/-- A station is recorded in its own pipeline, and only with a workspace. -/
theorem works_recordStation (prj : String) (station : Station)
    (fields : Dict String String) :
    (recordStation env ws prj pl station fields).Calls
      (BridgeOp.Works commits) := by
  unfold recordStation
  split
  · trivial
  · next hws =>
      refine (calls_ask trivial).bind fun events => ?_
      refine (calls_ask trivial).bind fun snapshot => ?_
      cases snapshot with
      | none => trivial
      | some snapshot =>
          dsimp only
          split
          · trivial
          · next command hcommand =>
              obtain ⟨rfl, rfl⟩ := stationCommand_scope hcommand
              refine (calls_kernel ?_).bind fun _ => trivial
              exact (controller env.codec).calls_submit command trivial trivial
                fun _ _ _ _ => hcommits _ ⟨rfl, hws⟩

theorem works_recordVerify (prj sha : String) :
    (recordVerify env ws prj pl sha).Calls (BridgeOp.Works commits) := by
  refine (calls_effect trivial).bind fun bridge => ?_
  refine (works_recordStation env hcommits _ _ _).bind fun _ => ?_
  exact works_drainOutbox env ws

theorem works_keepDevelopment (prj : String) (row : Dict String String) :
    (keepDevelopment env ws prj pl row).Calls (BridgeOp.Works commits) := by
  refine (works_modify _).bind fun _ => ?_
  refine (works_saveWithStages _).bind fun _ => ?_
  exact works_recordStation env hcommits _ _ _

theorem works_advanceDevelopment (prj principal : String) :
    (advanceDevelopment env pl prj principal ws).Calls
      (BridgeOp.Works commits) := by
  refine (works_hydrateFromEvents env ws pl).bind fun _ => ?_
  refine (calls_effect trivial).bind fun bridge => ?_
  dsimp only
  split
  · trivial
  · split
    · trivial
    · refine (works_approveSolution _ _ _ _ _ _).bind fun allowed => ?_
      split
      · refine (calls_effect trivial).bind fun result => ?_
        exact (works_developmentFeedback _ _).bind fun _ =>
          works_keepDevelopment env hcommits _ _
      · exact works_keepDevelopment env hcommits _ _

theorem works_keepInfra (prj : String) :
    (keepInfra env pl prj ws).Calls (BridgeOp.Works commits) := by
  refine (works_modify _).bind fun _ => ?_
  refine (works_saveWithStages _).bind fun _ => ?_
  exact works_recordVerify env hcommits _ _

theorem works_keepVerified (prj sha : String) (result : VerifyResult) :
    (keepVerified env pl prj ws sha result).Calls (BridgeOp.Works commits) := by
  refine (works_publishReady env _ _ _ result).bind fun _ => ?_
  refine (works_mirrorStored _ _ _).bind fun _ => ?_
  refine (works_write _).bind fun _ => ?_
  refine (works_modify _).bind fun _ => ?_
  refine (works_verifyFeedback _ result).bind fun _ => ?_
  refine (works_saveWithStages _).bind fun _ => ?_
  exact works_recordVerify env hcommits _ _

theorem works_advanceVerify (prj : String) :
    (advanceVerify env pl prj ws).Calls (BridgeOp.Works commits) := by
  refine (works_hydrateFromEvents env ws pl).bind fun _ => ?_
  refine (calls_effect trivial).bind fun bridge => ?_
  dsimp only
  split
  · trivial
  · split
    · trivial
    · split
      · trivial
      · refine (calls_effect trivial).bind fun result => ?_
        cases result with
        | none => exact works_keepInfra env hcommits _
        | some result => exact works_keepVerified env hcommits _ _ result

theorem works_commitApproval (prj principal : String) :
    (commitApproval env pl prj principal ws).Calls (BridgeOp.Works commits) := by
  refine (calls_effect trivial).bind fun bridge => ?_
  dsimp only
  split
  · refine (works_approveSolution _ _ _ _ _ _).bind fun allowed => ?_
    split
    · refine (works_modify _).bind fun _ => ?_
      refine (works_saveWithStages _).bind fun _ => ?_
      exact (works_recordStation env hcommits _ _ _).bind fun _ => trivial
    · trivial
  · trivial

/-- The stages of `run_leased_stages` and of an inline retry. -/
theorem works_advance (prj principal : String) :
    ((advanceDevelopment env pl prj principal ws).bind fun _ =>
      advanceVerify env pl prj ws).Calls (BridgeOp.Works commits) :=
  (works_advanceDevelopment env hcommits prj principal).bind fun _ =>
    works_advanceVerify env hcommits prj

end Recording

/-- The import of station rows may commit to any pipeline. -/
theorem works_importRows (pl : String) :
    (importRows env pl).Calls (BridgeOp.Works fun _ => True) := by
  have hstation : ∀ prj station rows, (importStation env prj pl station rows).Calls
      (BridgeOp.Works fun _ => True) := by
    intro prj station rows
    unfold importStation
    split
    · trivial
    · exact works_recordStation env (fun _ _ => trivial) _ _ _
  refine (calls_effect trivial).bind fun bridge => ?_
  refine (hstation _ _ _).bind fun _ => ?_
  refine (hstation _ _ _).bind fun _ => ?_
  refine (hstation _ _ _).bind fun _ => ?_
  refine Program.Calls.bind (.ite trivial ?_) fun _ => ?_
  · exact works_recordVerify env (fun _ _ => trivial) _ _
  · split
    · trivial
    · exact works_recordStation env (fun _ _ => trivial) _ _ _

theorem works_importPipelines (ids : List String) :
    (importPipelines env ids).Calls (BridgeOp.Works fun _ => True) := by
  induction ids with
  | nil => trivial
  | cons pl rest ih =>
      refine Program.Calls.bind ?_ fun _ => ih
      refine (calls_ask trivial).bind fun snapshot => ?_
      refine .ite trivial ?_
      refine (calls_ask trivial).bind fun events => ?_
      exact .ite trivial (works_importRows env pl)

theorem works_construct :
    (construct env).Calls (BridgeOp.Works fun _ => True) := by
  refine (calls_effect trivial).bind fun bridge => ?_
  exact (calls_effect trivial).bind fun _ => works_importPipelines env _

end KernelBridge

end HermesPipeline
