/-
What a run of `submit` can have done, for any store: it was refused after
reads only, it answered from the inbox, or it reached its one commit.
-/
import HermesPipeline.KernelController

namespace HermesPipeline

open Lib

/-- The operations that look at the store without writing a table. -/
def StoreOp.IsRead : StoreOp → Prop
  | .findInbox _ _ => True
  | .loadPipeline _ _ => True
  | .listEvents _ _ => True
  | .listPendingOutbox _ => True
  | .findOutbox _ _ => True
  | .loadLease _ _ => True
  | .counts => True
  | _ => False

/-- The state is reached by reads only. -/
inductive ReadRun {σ : Type} (h : Handler StoreOp StoreOp.Answer PyError σ) :
    σ → σ → Prop
  | refl (s : σ) : ReadRun h s s
  | step {s s' : σ} (op : StoreOp) (hread : op.IsRead)
      (rest : ReadRun h (h op s).2 s') : ReadRun h s s'

namespace ReadRun

variable {σ : Type} {h : Handler StoreOp StoreOp.Answer PyError σ}

theorem of_calls {α : Type} {p : StoreProgram α} (hp : p.Calls StoreOp.IsRead)
    (s : σ) : ReadRun h s (p.run h s).2 := by
  induction p generalizing s with
  | done value => exact .refl s
  | raise error => exact .refl s
  | call op next ih => exact .step op hp.1 (ih _ (hp.2 _) _)

theorem trans {a b c : σ} (first : ReadRun h a b) (second : ReadRun h b c) :
    ReadRun h a c := by
  induction first with
  | refl s => exact second
  | step op hread rest ih => exact .step op hread (ih second)

/-- A view that every read keeps is kept. -/
theorem preserves {ν : Type} {view : σ → ν}
    (hview : ∀ op s, op.IsRead → view (h op s).2 = view s)
    {s s' : σ} (hrun : ReadRun h s s') : view s' = view s := by
  induction hrun with
  | refl s => rfl
  | step op hread rest ih => exact ih.trans (hview op _ hread)

end ReadRun

namespace KernelController

variable (k : KernelController) {command : ControllerCommand}

/-- Everything `submit` has computed when it reaches the commit: the data with
the checks that led there. -/
structure Acceptance (command : ControllerCommand) where
  fingerprint : String
  parsed : DomainCommand
  snapshot : Option PipelineSnapshot
  current : PipelineState
  state : PipelineState
  event : DomainEvent
  payloadJson : String
  hash_eq : k.codec.contentHash command.modelDump = some fingerprint
  parsed_eq : domainCommand command = some parsed
  current_eq : stateFromSnapshot snapshot = some current
  revision_eq : command.expectedRevision = current.revision
  apply_eq : current.apply parsed = ⟨state, .accepted, some event⟩
  payload_eq : k.codec.canonicalJson (Json.ofTexts event.payload.rows) =
    some payloadJson

variable {k}

def Acceptance.write (a : k.Acceptance command) : AcceptedWrite :=
  k.acceptedWrite command a.fingerprint a.state a.event a.payloadJson

def Acceptance.receipt (a : k.Acceptance command) : CommandReceipt :=
  k.acceptedReceipt command a.state

theorem Acceptance.revision_succ (a : k.Acceptance command) :
    a.state.revision = a.current.revision + 1 :=
  PipelineState.apply_accepted_revision a.apply_eq

variable (k) {σ : Type} (h : Handler StoreOp StoreOp.Answer PyError σ)

/-- The possible runs of `submit` from a store state. -/
inductive SubmitRun (command : ControllerCommand) (s : σ) :
    Except PyError CommandReceipt → σ → Prop
  | refused {outcome : Except PyError CommandReceipt} {s' : σ}
      (reads : ReadRun h s s')
      (status : ∀ receipt, outcome = .ok receipt → receipt.status ≠ .accepted) :
      SubmitRun command s outcome s'
  | replayed {fingerprint : String} {row : InboxRecord} {stored : CommandReceipt}
      (running : k.paused = false)
      (hash_eq : k.codec.contentHash command.modelDump = some fingerprint)
      (found : (h (.findInbox command.workspaceId command.commandId) s).1 =
        .ok (some row))
      (same : row.commandFingerprint = fingerprint)
      (parsed : k.codec.receiptOfJson row.receiptJson = some stored) :
      SubmitRun command s (.ok stored)
        (h (.findInbox command.workspaceId command.commandId) s).2
  | committed (a : k.Acceptance command) {s₁ s₂ s₃ : σ}
      (running : k.paused = false)
      (absent : h (.findInbox command.workspaceId command.commandId) s =
        (.ok none, s₁))
      (loaded : h (.loadPipeline command.workspaceId command.pipelineId) s₁ =
        (.ok a.snapshot, s₂))
      (commit : h (.commitAccepted a.write) s₂ = (.ok (), s₃)) :
      SubmitRun command s (.ok a.receipt) s₃
  | failed (a : k.Acceptance command) {s₁ s₂ s₃ : σ} {error : PyError}
      {outcome : Except PyError CommandReceipt}
      (absent : h (.findInbox command.workspaceId command.commandId) s =
        (.ok none, s₁))
      (loaded : h (.loadPipeline command.workspaceId command.pipelineId) s₁ =
        (.ok a.snapshot, s₂))
      (commit : h (.commitAccepted a.write) s₂ = (.error error, s₃))
      (status : ∀ receipt, outcome = .ok receipt → receipt.status ≠ .accepted) :
      SubmitRun command s outcome s₃

theorem calls_catching {α β : Type} {allowed : StoreOp → Prop}
    {onError : StoreProgram α} {next : β → StoreProgram α}
    (herror : onError.Calls allowed) (hnext : ∀ answer, (next answer).Calls allowed)
    (answer : Except PyError β) : (catching onError next answer).Calls allowed := by
  cases answer with
  | ok value => exact hnext value
  | error error => cases error <;> first | exact herror | trivial

section Calls

variable {allowed : StoreOp → Prop} (command : ControllerCommand)
  (hload : allowed (.loadPipeline command.workspaceId command.pipelineId))

include hload

theorem calls_safeRevision : (safeRevision command).Calls allowed := by
  refine ⟨hload, calls_catching trivial ?_⟩
  intro snapshot
  cases snapshot <;> trivial

theorem calls_refuse (status : ReceiptStatus) (code : ErrorCode)
    (message : String) :
    (k.refuse command status code message).Calls allowed :=
  (calls_safeRevision command hload).bind fun _ => trivial

omit hload in
theorem calls_submitLoaded {fingerprint : String} {parsed : DomainCommand}
    (hcommit : ∀ fingerprint state event payloadJson, allowed (.commitAccepted
      (k.acceptedWrite command fingerprint state event payloadJson)))
    (snapshot : Option PipelineSnapshot) :
    (k.submitLoaded command fingerprint parsed snapshot).Calls allowed := by
  unfold submitLoaded
  split
  · trivial
  · split
    · trivial
    · split <;> try trivial
      unfold submitAccepted
      split
      · trivial
      · exact ⟨hcommit _ _ _ _, calls_catching trivial fun _ => trivial⟩

/-- `submit` looks at the inbox and the pipeline of its command and commits
there. -/
theorem calls_submit
    (hfind : allowed (.findInbox command.workspaceId command.commandId))
    (hcommit : ∀ fingerprint state event payloadJson, allowed (.commitAccepted
      (k.acceptedWrite command fingerprint state event payloadJson))) :
    (k.submit command).Calls allowed := by
  unfold submit
  split
  · exact k.calls_refuse command hload _ _ _
  · split
    · trivial
    · refine ⟨hfind, calls_catching trivial ?_⟩
      intro found
      unfold submitFound
      split
      · split
        · split <;> trivial
        · exact k.calls_refuse command hload _ _ _
      · split
        · exact k.calls_refuse command hload _ _ _
        · exact ⟨hload, calls_catching trivial
            (k.calls_submitLoaded command hcommit)⟩

end Calls

/-- A refusal answers with its status or raises. -/
theorem refuse_status {command : ControllerCommand} {status : ReceiptStatus}
    {code : ErrorCode} {message : String} {s : σ} {receipt : CommandReceipt}
    (hrun : ((k.refuse command status code message).run h s).1 = .ok receipt) :
    receipt.status = status ∧ receipt.error.code = code := by
  rw [refuse, Program.run_bind] at hrun
  generalize (safeRevision command).run h s = outcome at hrun
  obtain ⟨result, s'⟩ := outcome
  cases result with
  | error error => simp at hrun
  | ok revision =>
      simp only [Program.run_done, Except.ok.injEq] at hrun
      subst hrun
      exact ⟨rfl, rfl⟩

theorem refuse_submitRun {command : ControllerCommand} {status : ReceiptStatus}
    {code : ErrorCode} {message : String} (hstatus : status ≠ .accepted)
    {s s' : σ} (hreads : ReadRun h s s') :
    k.SubmitRun h command s ((k.refuse command status code message).run h s').1
      ((k.refuse command status code message).run h s').2 := by
  refine .refused
    (hreads.trans
      (.of_calls (k.calls_refuse command trivial status code message) s')) ?_
  intro receipt hreceipt
  rw [(k.refuse_status h hreceipt).1]
  exact hstatus

theorem submitLoaded_run {command : ControllerCommand} {fingerprint : String}
    {parsed : DomainCommand} {snapshot : Option PipelineSnapshot} {s s₁ s₂ : σ}
    (hrunning : k.paused = false)
    (hhash : k.codec.contentHash command.modelDump = some fingerprint)
    (hparsed : domainCommand command = some parsed)
    (habsent : h (.findInbox command.workspaceId command.commandId) s =
      (.ok none, s₁))
    (hloaded : h (.loadPipeline command.workspaceId command.pipelineId) s₁ =
      (.ok snapshot, s₂)) :
    k.SubmitRun h command s
      ((k.submitLoaded command fingerprint parsed snapshot).run h s₂).1
      ((k.submitLoaded command fingerprint parsed snapshot).run h s₂).2 := by
  have hreads : ReadRun h s s₂ := by
    refine .step (.findInbox command.workspaceId command.commandId) trivial ?_
    rw [habsent]
    refine .step (.loadPipeline command.workspaceId command.pipelineId) trivial ?_
    rw [hloaded]
    exact .refl s₂
  -- every exit before the commit has only read, and none of them accepts
  have hdone : ∀ receipt : CommandReceipt, receipt.status ≠ .accepted →
      k.SubmitRun h command s
        ((Program.done receipt : StoreProgram CommandReceipt).run h s₂).1
        ((Program.done receipt : StoreProgram CommandReceipt).run h s₂).2 := by
    intro receipt hstatus
    refine .refused hreads ?_
    intro other hother
    cases hother
    exact hstatus
  unfold submitLoaded
  cases hstate : stateFromSnapshot snapshot with
  | none => exact hdone _ (by simp [unavailable, receipt])
  | some current =>
      by_cases hrevision : command.expectedRevision = current.revision
      · simp only [hrevision, ne_eq, not_true_eq_false, ↓reduceIte]
        rcases happly : current.apply parsed with ⟨state, outcome, event⟩
        cases outcome with
        | emptyRequirement => exact hdone _ (by simp [receipt])
        | invalidTransition => exact hdone _ (by simp [receipt])
        | accepted =>
            cases event with
            | none => exact hdone _ (by simp [unavailable, receipt])
            | some event =>
                simp only [submitAccepted]
                cases hpayload : k.codec.canonicalJson
                    (Json.ofTexts event.payload.rows) with
                | none => exact .refused hreads (by simp)
                | some payloadJson =>
                    let a : k.Acceptance command :=
                      ⟨fingerprint, parsed, snapshot, current, state, event,
                        payloadJson, hhash, hparsed, hstate, hrevision, happly,
                        hpayload⟩
                    rcases hcommit : h (.commitAccepted a.write) s₂ with
                      ⟨answer, s₃⟩
                    have hcommit' : h (.commitAccepted (k.acceptedWrite command
                        fingerprint state event payloadJson)) s₂ =
                        (answer, s₃) := hcommit
                    simp only [Program.run_call, hcommit']
                    cases answer with
                    | ok value =>
                        exact .committed a hrunning habsent hloaded hcommit
                    | error error =>
                        cases error <;>
                          refine .failed a habsent hloaded hcommit ?_ <;>
                          simp [catching, unavailable, receipt]
      · simp only [ne_eq, hrevision, not_false_eq_true, ↓reduceIte]
        exact hdone _ (by simp [receipt])

theorem submitFound_run {command : ControllerCommand} {fingerprint : String}
    {found : Option InboxRecord} {s s₁ : σ} (hrunning : k.paused = false)
    (hhash : k.codec.contentHash command.modelDump = some fingerprint)
    (hfound : h (.findInbox command.workspaceId command.commandId) s =
      (.ok found, s₁)) :
    k.SubmitRun h command s
      ((k.submitFound command fingerprint found).run h s₁).1
      ((k.submitFound command fingerprint found).run h s₁).2 := by
  have hreads : ReadRun h s s₁ := by
    refine .step (.findInbox command.workspaceId command.commandId) trivial ?_
    rw [hfound]
    exact .refl s₁
  cases found with
  | some existing =>
      simp only [submitFound]
      by_cases hsame : existing.commandFingerprint = fingerprint
      · simp only [hsame, ↓reduceIte]
        cases hparsed : k.codec.receiptOfJson existing.receiptJson with
        | none => exact .refused hreads (by simp)
        | some stored =>
            have hreplay : k.SubmitRun h command s (.ok stored)
                (h (.findInbox command.workspaceId command.commandId) s).2 :=
              .replayed hrunning hhash (by rw [hfound]) hsame hparsed
            simpa [hfound] using hreplay
      · simp only [hsame, ↓reduceIte]
        exact k.refuse_submitRun h (by decide) hreads
  | none =>
      simp only [submitFound]
      cases hparsed : domainCommand command with
      | none => exact k.refuse_submitRun h (by decide) hreads
      | some parsed =>
          rcases hloaded : h (.loadPipeline command.workspaceId
            command.pipelineId) s₁ with ⟨answer, s₂⟩
          simp only [Program.run_call, hloaded]
          cases answer with
          | ok snapshot =>
              exact k.submitLoaded_run h hrunning hhash hparsed hfound hloaded
          | error error =>
              have hreads' : ReadRun h s s₂ := by
                refine hreads.trans (.step (.loadPipeline command.workspaceId
                  command.pipelineId) trivial ?_)
                rw [hloaded]
                exact .refl s₂
              cases error <;> refine .refused hreads' ?_ <;>
                simp [catching, unavailable, receipt]

/-- Every run of `submit` is one of the listed ones. -/
theorem submit_run (command : ControllerCommand) (s : σ) :
    k.SubmitRun h command s ((k.submit command).run h s).1
      ((k.submit command).run h s).2 := by
  unfold submit
  cases hpaused : k.paused with
  | true =>
      simp only [↓reduceIte]
      exact k.refuse_submitRun h (by decide) (.refl s)
  | false =>
      simp only [Bool.false_eq_true, ↓reduceIte]
      cases hhash : k.codec.contentHash command.modelDump with
      | none => exact .refused (.refl s) (by simp)
      | some fingerprint =>
          rcases hfound : h (.findInbox command.workspaceId
            command.commandId) s with ⟨answer, s₁⟩
          simp only [Program.run_call, hfound]
          cases answer with
          | ok found => exact k.submitFound_run h hpaused hhash hfound
          | error error =>
              have hreads : ReadRun h s s₁ := by
                refine .step (.findInbox command.workspaceId
                  command.commandId) trivial ?_
                rw [hfound]
                exact .refl s₁
              cases error <;> refine .refused hreads ?_ <;>
                simp [catching, unavailable, receipt]

/-- `submit_with_lease` is refused, or is a `submit` after a lease check that
passed. -/
theorem submitWithLease_run (command : ControllerCommand) (holder : String)
    (generation : Nat) (now : Int) (s : σ) :
    (ReadRun h s ((k.submitWithLease command holder generation now).run h s).2 ∧
      ∀ receipt, ((k.submitWithLease command holder generation now).run h s).1 =
        .ok receipt → receipt.status ≠ .accepted) ∨
      ∃ current s₁,
        h (.loadLease command.workspaceId command.pipelineId) s =
            (.ok current, s₁) ∧
          leaseMatches holder generation now current = true ∧
          (k.submitWithLease command holder generation now).run h s =
            (k.submit command).run h s₁ := by
  unfold submitWithLease
  cases hpaused : k.paused with
  | true =>
      simp only [↓reduceIte]
      refine Or.inl ⟨.of_calls (k.calls_refuse command trivial _ _ _) s, ?_⟩
      intro receipt hreceipt
      rw [(k.refuse_status h hreceipt).1]
      decide
  | false =>
      simp only [Bool.false_eq_true, ↓reduceIte]
      rcases hloaded : h (.loadLease command.workspaceId command.pipelineId) s
        with ⟨answer, s₁⟩
      have hreads : ReadRun h s s₁ := by
        refine .step (.loadLease command.workspaceId command.pipelineId)
          trivial ?_
        rw [hloaded]
        exact .refl s₁
      simp only [Program.run_call, hloaded]
      cases answer with
      | error error =>
          cases error <;> refine Or.inl ⟨hreads, ?_⟩ <;>
            simp [catching, unavailable, receipt]
      | ok current =>
          by_cases hlease : leaseMatches holder generation now current = true
          · refine Or.inr ⟨current, s₁, rfl, hlease, ?_⟩
            simp [catching, hlease]
          · refine Or.inl ?_
            simp only [catching, hlease, Bool.false_eq_true, ↓reduceIte]
            refine ⟨hreads.trans (.of_calls (k.calls_refuse command trivial _ _ _) s₁),
              ?_⟩
            intro receipt hreceipt
            rw [(k.refuse_status h hreceipt).1]
            decide

/-- What the proofs about `submit` use of a store and a view of its tables. -/
structure StoreLaws {σ ν : Type} (h : Handler StoreOp StoreOp.Answer PyError σ)
    (view : σ → ν) : Prop where
  read_view : ∀ op s, op.IsRead → view (h op s).2 = view s
  findInbox_same : ∀ ws cmd s, (h (.findInbox ws cmd) s).2 = s
  loadLease_same : ∀ ws pl s, (h (.loadLease ws pl) s).2 = s
  loadPipeline_same : ∀ ws pl s snapshot s',
    h (.loadPipeline ws pl) s = (.ok snapshot, s') → s' = s
  commit_error : ∀ write s error s',
    h (.commitAccepted write) s = (.error error, s') → view s' = view s

/-- The effect of `submit` and `submit_with_lease` on the tables: they are kept,
the stored receipt is answered, or the one commit went through. -/
inductive SubmitEffect {ν : Type} (view : σ → ν) (command : ControllerCommand)
    (s : σ) : Except PyError CommandReceipt → σ → Prop
  | kept {outcome : Except PyError CommandReceipt} {s' : σ}
      (same : view s' = view s)
      (status : ∀ receipt, outcome = .ok receipt → receipt.status ≠ .accepted) :
      SubmitEffect view command s outcome s'
  | replayed {fingerprint : String} {row : InboxRecord} {stored : CommandReceipt}
      (hash_eq : k.codec.contentHash command.modelDump = some fingerprint)
      (found : (h (.findInbox command.workspaceId command.commandId) s).1 =
        .ok (some row))
      (same : row.commandFingerprint = fingerprint)
      (parsed : k.codec.receiptOfJson row.receiptJson = some stored) :
      SubmitEffect view command s (.ok stored) s
  | accepted (a : k.Acceptance command) {s' : σ}
      (absent : (h (.findInbox command.workspaceId command.commandId) s).1 =
        .ok none)
      (loaded : (h (.loadPipeline command.workspaceId command.pipelineId) s).1 =
        .ok a.snapshot)
      (commit : h (.commitAccepted a.write) s = (.ok (), s')) :
      SubmitEffect view command s (.ok a.receipt) s'

section Effect

variable {h} {ν : Type} {view : σ → ν} (laws : StoreLaws h view)

include laws

theorem SubmitRun.effect {s s' : σ} {outcome : Except PyError CommandReceipt}
    (hrun : k.SubmitRun h command s outcome s') :
    k.SubmitEffect h view command s outcome s' := by
  cases hrun with
  | refused reads status => exact .kept (reads.preserves laws.read_view) status
  | replayed running hash_eq found same parsed =>
      rw [laws.findInbox_same]
      exact .replayed hash_eq found same parsed
  | @committed a s₁ s₂ s₃ running absent loaded commit =>
      obtain rfl : s = s₁ := by
        rw [← laws.findInbox_same command.workspaceId command.commandId s, absent]
      obtain rfl := laws.loadPipeline_same _ _ _ _ _ loaded
      exact .accepted a (by rw [absent]) (by rw [loaded]) commit
  | @failed a s₁ s₂ s₃ error outcome absent loaded commit status =>
      obtain rfl : s = s₁ := by
        rw [← laws.findInbox_same command.workspaceId command.commandId s, absent]
      obtain rfl := laws.loadPipeline_same _ _ _ _ _ loaded
      exact .kept (laws.commit_error _ _ _ _ commit) status

theorem submit_effect (command : ControllerCommand) (s : σ) :
    k.SubmitEffect h view command s ((k.submit command).run h s).1
      ((k.submit command).run h s).2 :=
  SubmitRun.effect k laws (k.submit_run h command s)

theorem submitWithLease_effect (command : ControllerCommand) (holder : String)
    (generation : Nat) (now : Int) (s : σ) :
    k.SubmitEffect h view command s
      ((k.submitWithLease command holder generation now).run h s).1
      ((k.submitWithLease command holder generation now).run h s).2 := by
  rcases k.submitWithLease_run h command holder generation now s with
    ⟨hreads, hstatus⟩ | ⟨current, s₁, hload, -, hrun⟩
  · exact .kept (hreads.preserves laws.read_view) hstatus
  · obtain rfl : s = s₁ := by
      rw [← laws.loadLease_same command.workspaceId command.pipelineId s, hload]
    rw [hrun]
    exact k.submit_effect laws command s

end Effect

end KernelController

end HermesPipeline
