/-
When `submit` answers.  Every failure behind the canonical form of the command
becomes a receipt; the canonical form itself is computed before all of them, and
it raises for what RFC 8785 cannot write: large integers, floats that are no
number, and texts with lone surrogates.
-/
import HermesPipeline.KernelMemoryEffects
import HermesPipeline.KernelSqliteEffects
import HermesPipeline.RawCommand
import HermesPipeline.ReferenceCodec

namespace HermesPipeline

open Lib

/-- The operations that `submit` and `submit_with_lease` ask for. -/
def StoreOp.Submits : StoreOp → Prop
  | .findInbox _ _ => True
  | .loadPipeline _ _ => True
  | .commitAccepted _ => True
  | .loadLease _ _ => True
  | _ => False

/-- The store answers these operations or raises a persistence error. -/
def Answering {σ : Type} (h : Handler StoreOp StoreOp.Answer PyError σ) : Prop :=
  ∀ op : StoreOp, op.Submits → ∀ s,
    (∃ answer, (h op s).1 = .ok answer) ∨ (h op s).1 = .error .persistence

theorem MemoryKernelStore.answering (codec : Codec) : Answering (handle codec) := by
  intro op hop s
  cases op <;> simp only [StoreOp.Submits] at hop
  case findInbox => exact .inl ⟨_, rfl⟩
  case loadLease => exact .inl ⟨_, rfl⟩
  case loadPipeline ws pl =>
      simp only [handle, loadPipeline]
      split
      · exact .inr rfl
      · split
        · exact .inl ⟨_, rfl⟩
        · exact .inl ⟨_, rfl⟩
  case commitAccepted write =>
      simp only [handle, commitAccepted]
      split
      · exact .inr rfl
      · exact .inl ⟨_, rfl⟩

theorem SqliteKernelStore.answering (codec : Codec) : Answering (handle codec) := by
  intro op hop s
  cases op <;> simp only [StoreOp.Submits] at hop
  case findInbox => exact .inl ⟨_, rfl⟩
  case loadLease => exact .inl ⟨_, rfl⟩
  case loadPipeline ws pl =>
      simp only [handle, loadPipeline]
      split
      · exact .inr rfl
      · split
        · exact .inl ⟨_, rfl⟩
        · exact .inl ⟨_, rfl⟩
  case commitAccepted write =>
      simp only [handle, commitAccepted]
      split
      · exact .inr rfl
      · split
        · exact .inr rfl
        · split
          · exact .inl ⟨_, rfl⟩
          · exact .inr rfl

namespace KernelController

variable (k : KernelController) {σ : Type}
  (h : Handler StoreOp StoreOp.Answer PyError σ) (command : ControllerCommand)

/-- The program returns a receipt. -/
def Answers {α : Type} (program : StoreProgram α) (s : σ) : Prop :=
  ∃ receipt, (program.run h s).1 = .ok receipt

theorem answers_bind_done {α β : Type} (program : StoreProgram α) (f : α → β)
    (s : σ) :
    Answers h (program.bind fun receipt => .done (f receipt)) s ↔
      Answers h program s := by
  unfold Answers
  rw [Program.run_bind_done]
  cases (program.run h s).1 <;> simp [Except.map]

/-- The inbox holds no receipt of the same command that cannot be read. -/
def ReadsStored (s : σ) : Prop :=
  ∀ row, (h (.findInbox command.workspaceId command.commandId) s).1 = .ok (some row) →
    k.codec.contentHash command.modelDump = some row.commandFingerprint →
      k.codec.receiptOfJson row.receiptJson ≠ none

variable {k h command}

section Answering

variable (hanswers : Answering h)

include hanswers

/-- An asked operation leads to a receipt if its answer does and the persistence
error does. -/
theorem answers_call {op : StoreOp} (hop : op.Submits)
    {onError : StoreProgram CommandReceipt}
    {next : op.Answer → StoreProgram CommandReceipt} {s : σ}
    (herror : Answers h onError (h op s).2)
    (hnext : ∀ answer, (h op s).1 = .ok answer → Answers h (next answer) (h op s).2) :
    Answers h (.call op (catching onError next)) s := by
  unfold Answers
  rw [Program.run_call]
  rcases hanswers op hop s with ⟨answer, hanswer⟩ | herror'
  · rw [hanswer]
    exact hnext answer hanswer
  · rw [herror']
    exact herror

theorem answers_refuse (status : ReceiptStatus) (code : ErrorCode) (message : String)
    (s : σ) : Answers h (k.refuse command status code message) s := by
  unfold Answers refuse safeRevision
  rw [Program.call_bind, Program.run_call]
  rcases hanswers (.loadPipeline command.workspaceId command.pipelineId) trivial s with
    ⟨snapshot, hload⟩ | hload
  · rw [hload]
    cases snapshot <;> exact ⟨_, rfl⟩
  · rw [hload]
    exact ⟨_, rfl⟩

theorem answers_submitLoaded (hwrites : k.codec.WritesTexts) {fingerprint : String}
    (parsed : DomainCommand) (snapshot : Option PipelineSnapshot) (s : σ) :
    Answers h (k.submitLoaded command fingerprint parsed snapshot) s := by
  unfold submitLoaded
  split
  · exact ⟨_, rfl⟩
  split
  · exact ⟨_, rfl⟩
  split
  · exact ⟨_, rfl⟩
  · exact ⟨_, rfl⟩
  · exact ⟨_, rfl⟩
  · next state event happly =>
      obtain ⟨text, htext⟩ := hwrites event.payload
      simp only [submitAccepted, htext]
      apply answers_call hanswers
      · exact trivial
      · exact ⟨_, rfl⟩
      · exact fun _ _ => ⟨_, rfl⟩

/-- Behind the content hash only an inbox row of the same command that cannot be
read raises. -/
theorem answers_found (hwrites : k.codec.WritesTexts) (fingerprint : String) (s : σ) :
    Answers h (.call (.findInbox command.workspaceId command.commandId)
        (catching (.done (k.unavailable command)) (k.submitFound command fingerprint)))
        s ↔
      ∀ row, (h (.findInbox command.workspaceId command.commandId) s).1 =
          .ok (some row) → fingerprint = row.commandFingerprint →
        k.codec.receiptOfJson row.receiptJson ≠ none := by
  simp only [Answers, Program.run_call]
  rcases hanswers (.findInbox command.workspaceId command.commandId) trivial s with
    ⟨found, hfound⟩ | hfound
  · rw [hfound]
    cases found with
    | some row =>
        simp only [catching, submitFound, Except.ok.injEq, Option.some.injEq,
          forall_eq', eq_comm (a := fingerprint)]
        by_cases hsame : row.commandFingerprint = fingerprint
        · simp only [hsame, ↓reduceIte, forall_const]
          cases k.codec.receiptOfJson row.receiptJson with
          | none => simp
          | some stored => simp
        · simp only [hsame, ↓reduceIte, false_imp_iff, iff_true]
          exact answers_refuse hanswers _ _ _ _
    | none =>
        simp only [catching, submitFound, Except.ok.injEq, reduceCtorEq, false_imp_iff,
          implies_true, iff_true]
        cases domainCommand command with
        | none => exact answers_refuse hanswers _ _ _ _
        | some parsed =>
            apply answers_call hanswers
            · exact trivial
            · exact ⟨_, rfl⟩
            · exact fun snapshot _ =>
                answers_submitLoaded hanswers hwrites parsed snapshot _
  · rw [hfound]
    simp only [catching, reduceCtorEq, false_imp_iff, implies_true, iff_true]
    exact ⟨_, rfl⟩

/-- With a content hash, `submit` raises only when it cannot read the stored
receipt of the same command. -/
theorem submit_answers_iff (hwrites : k.codec.WritesTexts)
    (hrunning : k.paused = false) {fingerprint : String}
    (hhash : k.codec.contentHash command.modelDump = some fingerprint) (s : σ) :
    Answers h (k.submit command) s ↔ k.ReadsStored h command s := by
  unfold ReadsStored
  simp only [submit, hrunning, Bool.false_eq_true, ↓reduceIte, hhash,
    Option.some.injEq]
  exact answers_found hanswers hwrites fingerprint s

end Answering

/-- Without a content hash a running controller raises. -/
theorem submit_unhashed (hrunning : k.paused = false)
    (hhash : k.codec.contentHash command.modelDump = none) (s : σ) :
    ¬ Answers h (k.submit command) s := by
  rintro ⟨receipt, hreceipt⟩
  simp only [submit, hrunning, Bool.false_eq_true, ↓reduceIte, hhash,
    Program.run_raise] at hreceipt
  cases hreceipt

end KernelController

/-- A receipt whose correlation id may hold surrogates. -/
structure RawReceipt where
  receipt : CommandReceipt
  correlationId : PyText

/-- The controller over commands as the contract model holds them: `rfc8785` on
the values of Python, and what pydantic leaves of a float that is no number. -/
structure RawController extends KernelController where
  jcs : PayloadValue → Option String
  leaves : NonFinite → PayloadValue

namespace RawController

open KernelController

variable (c : RawController) {σ : Type}
  (h : Handler StoreOp StoreOp.Answer PyError σ) (command : RawCommand)

/-- `rfc8785` raises for what it cannot write, and writes a value without
surrogates and odd floats as the codec does. -/
structure Jcs : Prop where
  raises : ∀ value, c.jcs value = none ↔ PayloadValue.writable value = false
  agrees : ∀ value, c.jcs (PayloadValue.ofJson value) = c.codec.canonicalJson value

/-- `content_hash`. -/
def contentHash (document : List (PyText × PayloadValue)) : Option String :=
  (c.jcs (.dict (document.filter fun member => member.1 != pyText "content_hash"))).map
    fun text => "sha256:" ++ c.codec.sha256Hex text

/-- The receipt of a refusal that comes before the content hash. -/
def unhashed (program : StoreProgram CommandReceipt) : StoreProgram RawReceipt :=
  program.bind fun receipt => .done ⟨receipt, command.correlationId⟩

/-- The receipt of a command that has a content hash. -/
def hashed (program : StoreProgram CommandReceipt) : StoreProgram RawReceipt :=
  program.bind fun receipt => .done ⟨receipt, pyText receipt.correlationId⟩

def submit : StoreProgram RawReceipt :=
  if c.paused then unhashed command (c.pausedReceipt command.plain)
  else
    match c.contentHash (command.modelDump c.leaves) with
    | none => .raise .value
    | some fingerprint =>
        hashed (.call (.findInbox command.workspaceId command.commandId)
          (catching (.done (c.unavailable command.plain))
            (c.submitFound command.plain fingerprint)))

def submitWithLease (holder : String) (generation : Nat) (now : Int) :
    StoreProgram RawReceipt :=
  if c.paused then unhashed command (c.pausedReceipt command.plain)
  else
    .call (.loadLease command.workspaceId command.pipelineId)
      (catching (unhashed command (.done (c.unavailable command.plain))) fun current =>
        if leaseMatches holder generation now current then c.submit command
        else unhashed command
          (c.refuse command.plain .conflict .leaseStale "lease stale"))

/-- The inbox holds no receipt of the same command that cannot be read. -/
def ReadsStored (s : σ) : Prop :=
  ∀ row, (h (.findInbox command.workspaceId command.commandId) s).1 = .ok (some row) →
    c.contentHash (command.modelDump c.leaves) = some row.commandFingerprint →
      c.codec.receiptOfJson row.receiptJson ≠ none

/-- When `submit` answers. -/
def Answerable (s : σ) : Prop :=
  c.paused = true ∨ command.writable c.leaves = true ∧ c.ReadsStored h command s

/-- The lease check of `submit_with_lease` passes. -/
def LeaseCurrent (holder : String) (generation : Nat) (now : Int) (s : σ) : Prop :=
  ∃ current, (h (.loadLease command.workspaceId command.pipelineId) s).1 =
    .ok current ∧ leaseMatches holder generation now current = true

/-- When `submit` and `submit_with_lease` answer, over a store. -/
structure AnswersExactly : Prop where
  submit : ∀ command s, Answers h (c.submit command) s ↔ c.Answerable h command s
  withLease : ∀ command holder generation now s,
    Answers h (c.submitWithLease command holder generation now) s ↔
      (LeaseCurrent h command holder generation now s → c.Answerable h command s)

variable {c h command}

section Jcs

variable (hjcs : c.Jcs)

include hjcs

theorem Jcs.writesTexts : c.codec.WritesTexts := by
  intro fields
  rw [← Option.ne_none_iff_exists', ne_eq, ← hjcs.agrees, hjcs.raises,
    PayloadValue.writable_ofJson, Bool.not_eq_false]
  exact ControllerCommand.representableMembers_texts fields.rows

omit hjcs in
/-- No member of a command is its content hash. -/
theorem contentHash_modelDump (command : RawCommand) :
    c.contentHash (command.modelDump c.leaves) =
      (c.jcs (.dict (command.modelDump c.leaves))).map
        fun text => "sha256:" ++ c.codec.sha256Hex text := by
  have hnames : pyText "content_hash" ∉
      (command.modelDump c.leaves).map Prod.fst := by
    simp only [RawCommand.modelDump, List.map_cons, List.map_nil]
    decide
  have hkept : (command.modelDump c.leaves).filter
      (fun member => member.1 != pyText "content_hash") =
        command.modelDump c.leaves := by
    apply List.filter_eq_self.mpr
    intro member hmember
    rw [bne_iff_ne]
    exact fun hname => hnames (hname ▸ List.mem_map_of_mem hmember)
  rw [contentHash, hkept]

/-- A command has a content hash exactly when it can be written. -/
theorem Jcs.contentHash_iff (command : RawCommand) :
    c.contentHash (command.modelDump c.leaves) = none ↔
      command.writable c.leaves = false := by
  rw [contentHash_modelDump, Option.map_eq_none_iff, hjcs.raises,
    RawCommand.writable_modelDump]

/-- On a command without surrogates and odd floats this is `submit` of the
kernel. -/
theorem Jcs.submit_ofCommand (command : ControllerCommand) :
    c.submit (.ofCommand command) =
      hashed (c.toKernelController.submit command) := by
  have hdocument : (command.modelDump.filter fun member =>
      member.1 != "content_hash") = command.modelDump := rfl
  have hhash : c.contentHash ((RawCommand.ofCommand command).modelDump c.leaves) =
      c.codec.contentHash command.modelDump := by
    rw [contentHash_modelDump, Codec.contentHash, hdocument,
      RawCommand.modelDump_ofCommand, ← hjcs.agrees]
    rfl
  rw [submit, KernelController.submit, hhash, RawCommand.plain_ofCommand]
  split
  · simp only [unhashed, hashed, pausedReceipt, refuse, Program.bind_assoc,
      Program.done_bind]
    rfl
  · cases c.codec.contentHash command.modelDump <;> rfl

end Jcs

theorem answers_unhashed_refuse (hanswers : Answering h) (status : ReceiptStatus)
    (code : ErrorCode) (message : String) (s : σ) :
    Answers h (unhashed command (c.refuse command.plain status code message)) s :=
  (answers_bind_done _ _ _ s).mpr (answers_refuse hanswers status code message s)

theorem submit_answerable_iff (hanswers : Answering h) (hjcs : c.Jcs) (s : σ) :
    Answers h (c.submit command) s ↔ c.Answerable h command s := by
  unfold Answerable
  cases hpaused : c.paused with
  | true =>
      simp only [true_or, iff_true]
      rw [submit, if_pos hpaused]
      exact answers_unhashed_refuse hanswers _ _ _ s
  | false =>
      simp only [submit, hpaused, Bool.false_eq_true, ↓reduceIte, false_or]
      cases hhash : c.contentHash (command.modelDump c.leaves) with
      | none =>
          rw [(hjcs.contentHash_iff command).mp hhash]
          refine iff_of_false ?_ (fun hboth => absurd hboth.1 Bool.false_ne_true)
          rintro ⟨receipt, hreceipt⟩
          cases hreceipt
      | some fingerprint =>
          have hwritten : command.writable c.leaves = true := by
            rw [← Bool.not_eq_false, ← hjcs.contentHash_iff command, hhash]
            exact Option.some_ne_none _
          rw [hwritten, ReadsStored, hhash]
          simp only [hashed, answers_bind_done, true_and, Option.some.injEq]
          exact answers_found hanswers hjcs.writesTexts fingerprint s

theorem answersExactly (hanswers : Answering h) (hjcs : c.Jcs)
    (hlease : ∀ ws pl s, (h (.loadLease ws pl) s).2 = s) : c.AnswersExactly h := by
  refine ⟨fun command s => submit_answerable_iff hanswers hjcs s, ?_⟩
  intro command holder generation now s
  cases hpaused : c.paused with
  | true =>
      have hanswer : Answers h (c.submitWithLease command holder generation now) s := by
        rw [submitWithLease, if_pos hpaused]
        exact answers_unhashed_refuse hanswers _ _ _ s
      exact iff_of_true hanswer fun _ => .inl hpaused
  | false =>
      simp only [submitWithLease, hpaused, Bool.false_eq_true, ↓reduceIte, Answers,
        Program.run_call, hlease, LeaseCurrent]
      rcases hanswers (.loadLease command.workspaceId command.pipelineId) trivial s with
        ⟨current, hcurrent⟩ | hcurrent
      · rw [hcurrent]
        simp only [catching, Except.ok.injEq, exists_eq_left']
        by_cases hmatches : leaseMatches holder generation now current = true
        · simp only [hmatches, ↓reduceIte, forall_const]
          exact submit_answerable_iff hanswers hjcs s
        · simp only [hmatches, Bool.false_eq_true, ↓reduceIte, false_imp_iff, iff_true]
          exact answers_unhashed_refuse hanswers _ _ _ s
      · rw [hcurrent]
        simp only [catching, reduceCtorEq, false_and, exists_false, false_imp_iff,
          iff_true]
        exact ⟨_, rfl⟩

end RawController

namespace SubmitAnswersWitness

open ReferenceCodec KernelController RawController

/-- `rfc8785`, with the floats that are no number kept by the dump. -/
def controller : RawController where
  codec := sampleJcs
  recordedAt := "2026-08-06T00:00:00Z"
  paused := false
  jcs := fun value =>
    if PayloadValue.writable value then sampleCodec.canonicalJson value.plain else none
  leaves := fun value => .number (.nonFinite value)

theorem controller_jcs : controller.Jcs where
  raises := by
    intro value
    cases hvalue : PayloadValue.writable value
    · simp [controller, hvalue]
    · simp [controller, hvalue, sampleCodec, referenceCodec]
  agrees := by
    intro value
    simp only [controller, PayloadValue.writable_ofJson, PayloadValue.plain_ofJson]
    rfl

/-- A requirement with another member beside its text. -/
def confirmWith (name : String) (value : PayloadValue) : RawCommand :=
  { RawCommand.ofCommand sampleConfirm with
    payload := (Dict.set .empty (pyText "text") (.text (pyText "Build the exporter"))).set
      (pyText name) value }

/-- On an empty store the command raises and has no answer. -/
def Raises (command : RawCommand) : Prop :=
  ((controller.submit command).run (MemoryKernelStore.handle sampleJcs) .init).1 =
      .error .value ∧
    ¬ Answers (MemoryKernelStore.handle sampleJcs) (controller.submit command) .init

theorem raises_of_error {command : RawCommand}
    (hraised : ((controller.submit command).run (MemoryKernelStore.handle sampleJcs)
      .init).1 = .error .value) : Raises command := by
  refine ⟨hraised, ?_⟩
  rintro ⟨receipt, hreceipt⟩
  rw [hraised] at hreceipt
  cases hreceipt

end SubmitAnswersWitness

end HermesPipeline
