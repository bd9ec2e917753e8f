/-
A command is accepted at most once.  Its receipt is stored with the command's
fingerprint; a repeat is answered from there, a different command under the
same identity is a conflict, and the inbox, the event log and the outbox hold
one entry each for every accepted identity.
-/
import HermesPipeline.KernelMemoryEffects
import HermesPipeline.ReferenceCodec
import Mathlib.Data.List.Induction

namespace HermesPipeline

open Lib KernelController

/-- The step answered a submitted command with an accepted receipt. -/
structure Accepts (op : SessionOp) (answer : Except PyError KernelAnswer)
    (command : ControllerCommand) (receipt : CommandReceipt) : Prop where
  op_eq : op.submitted = some command
  answer_eq : answer = .ok (.receipt receipt)
  status_eq : receipt.status = .accepted

/-- The inbox holds the command's fingerprint with the receipt. -/
def Stored (env : KernelEnv) (s : MemoryKernelStore)
    (command : ControllerCommand) (receipt : CommandReceipt) : Prop :=
  ∃ row, s.inbox.get? command.key = some row ∧
    env.codec.contentHash command.modelDump = some row.commandFingerprint ∧
    env.codec.receiptOfJson row.receiptJson = some receipt

/-- The inbox, the event log and the identities in the outbox. -/
def MemoryKernelStore.SameLog (s s' : MemoryKernelStore) : Prop :=
  s'.inbox = s.inbox ∧ s'.events = s.events ∧
    s'.outbox.rows.map Prod.fst = s.outbox.rows.map Prod.fst

theorem MemoryEffect.sameLog {env : KernelEnv} {s s' : MemoryKernelStore}
    (heffect : MemoryEffect env s s') : s.SameLog s' := by
  change s.tables.SameLog s'.tables
  cases heffect with
  | quiet same =>
      rw [same]
      exact ⟨rfl, rfl, rfl⟩
  | leased leases same =>
      rw [same]
      exact ⟨rfl, rfl, rfl⟩
  | delivered ws cmd receiptJson same =>
      obtain ⟨outbox, hframe, hkeys⟩ :=
        s.tables.recordOutboxDelivery_frame ws cmd receiptJson
      rw [same, hframe]
      exact ⟨rfl, rfl, hkeys⟩
  | @rebuilt ws pl nonempty same =>
      obtain ⟨pipelines, hframe⟩ :=
        s.tables.rebuildPipeline_frame env.codec ws pl
      rw [same, hframe]
      exact ⟨rfl, rfl, rfl⟩

/-- Only an accepted command writes the log, and only under a new identity. -/
theorem MemoryStep.log_cases {env : KernelEnv} {s : Session MemoryKernelStore}
    {op : SessionOp} {answer : Except PyError KernelAnswer}
    {s' : MemoryKernelStore} (hstep : MemoryStep env s op answer s') :
    s.store.SameLog s' ∨
      ∃ (command : ControllerCommand)
        (a : (env.controller s.paused).Acceptance command),
        Accepts op answer command a.receipt ∧
          s.store.inbox.get? command.key = none ∧
          s'.tables = (s.store.tables.commitAccepted a.write).2 := by
  cases hstep with
  | maintained op_eq effect => exact Or.inl effect.sameLog
  | submitted op_eq answer_eq effect =>
      cases effect with
      | kept same status =>
          refine Or.inl ?_
          change s.store.tables.SameLog s'.tables
          rw [same]
          exact ⟨rfl, rfl, rfl⟩
      | replayed => exact Or.inl ⟨rfl, rfl, rfl⟩
      | accepted a absent loaded commit =>
          exact Or.inr ⟨_, a, ⟨op_eq, answer_eq, rfl⟩, Except.ok.inj absent,
            MemoryKernelStore.commitAccepted_ok commit⟩

section Receipts

variable {env : KernelEnv} {s : Session MemoryKernelStore} {op : SessionOp}
  {answer : Except PyError KernelAnswer} {s' : MemoryKernelStore}
  {command : ControllerCommand} {receipt : CommandReceipt}

theorem Stored.step (hstored : Stored env s.store command receipt)
    (hstep : MemoryStep env s op answer s') : Stored env s' command receipt := by
  obtain ⟨row, hrow, hhash, hreceipt⟩ := hstored
  refine ⟨row, ?_, hhash, hreceipt⟩
  rcases hstep.log_cases with ⟨hsame, -⟩ | ⟨other, a, -, habsent, hsame⟩
  · rw [hsame]
    exact hrow
  · have hne : command.key ≠ other.key := by
      intro heq
      rw [← heq, hrow] at habsent
      cases habsent
    change s'.tables.inbox.get? command.key = some row
    rw [hsame]
    change (s.store.inbox.set other.key a.write.inbox).get? command.key = some row
    rw [Dict.get?_set_of_ne _ _ hne]
    exact hrow

/-- An accepted receipt is stored, whether it is new or was answered again. -/
theorem Accepts.stored (hreceipts : env.codec.StoresReceipts)
    (haccepts : Accepts op answer command receipt)
    (hstep : MemoryStep env s op answer s') : Stored env s' command receipt := by
  cases hstep with
  | maintained op_eq effect =>
      rw [haccepts.op_eq] at op_eq
      cases op_eq
  | @submitted other outcome op_eq answer_eq effect =>
      obtain rfl : command = other := by
        rw [haccepts.op_eq] at op_eq
        exact Option.some.inj op_eq
      have hanswer : outcome = .ok receipt := by
        rw [haccepts.answer_eq] at answer_eq
        cases outcome with
        | error error => cases answer_eq
        | ok value =>
            cases answer_eq
            rfl
      cases effect with
      | kept same status =>
          exact absurd haccepts.status_eq (status receipt hanswer)
      | @replayed fingerprint row stored hash_eq found same parsed =>
          obtain rfl := Except.ok.inj hanswer
          exact ⟨row, Except.ok.inj found, same ▸ hash_eq, parsed⟩
      | accepted a absent loaded commit =>
          obtain rfl := Except.ok.inj hanswer
          refine ⟨a.write.inbox, ?_, a.hash_eq, hreceipts a.receipt⟩
          change s'.tables.inbox.get? command.key = _
          rw [MemoryKernelStore.commitAccepted_ok commit]
          exact Dict.get?_set_self _ _ _

/-- A stored command is answered from the inbox. -/
theorem Stored.submit_step (hstored : Stored env s.store command receipt)
    (hrunning : s.paused = false) :
    Session.step env (memoryStore env.codec) s (.call (.submit command)) =
      (.ok (.receipt receipt), s) := by
  obtain ⟨row, hrow, hhash, hreceipt⟩ := hstored
  have hrun : ((env.controller s.paused).submit command).run
      (MemoryKernelStore.handle env.codec) s.store = (.ok receipt, s.store) := by
    have hfound : s.store.findInbox command.workspaceId command.commandId =
        some row := hrow
    simp [submit, KernelEnv.controller, hrunning, hhash, MemoryKernelStore.handle,
      hfound, catching, submitFound, hreceipt]
  simp only [Session.step, KernelCall.program, Program.run_bind_done, memoryStore,
    hrun]
  rfl

/-- Another command under a stored identity is a conflict. -/
theorem Stored.conflict_step (hhashes : env.codec.HashesCommands)
    (hstored : Stored env s.store command receipt) (hrunning : s.paused = false)
    {other : ControllerCommand} (hkey : other.key = command.key)
    (hother : ¬other.Same command) :
    ∃ refusal : CommandReceipt,
      (Session.step env (memoryStore env.codec) s (.call (.submit other))).1 =
          .ok (.receipt refusal) ∧
        refusal.status = .conflict ∧ refusal.error.code = .conflict ∧
        (Session.step env (memoryStore env.codec) s
          (.call (.submit other))).2.store.tables = s.store.tables := by
  obtain ⟨row, hrow, hhash, hreceipt⟩ := hstored
  obtain ⟨fingerprint, hfingerprint⟩ := hhashes.total other
  have hne : row.commandFingerprint ≠ fingerprint := by
    rintro rfl
    exact hother (hhashes.injective other command (hfingerprint.trans hhash.symm))
  have hfound : s.store.findInbox other.workspaceId other.commandId = some row := by
    rw [← hrow, ← hkey]
    rfl
  let refusal := (env.controller s.paused).refuse other .conflict .conflict
    "command identity conflict"
  have hrun : ((env.controller s.paused).submit other).run
      (MemoryKernelStore.handle env.codec) s.store =
        refusal.run (MemoryKernelStore.handle env.codec) s.store := by
    simp [submit, KernelEnv.controller, hrunning, hfingerprint,
      MemoryKernelStore.handle, hfound, catching, submitFound, hne, refusal]
  have hanswer : ∃ value, (refusal.run (MemoryKernelStore.handle env.codec)
      s.store).1 = .ok value := by
    simp only [refusal, refuse, Program.run_bind, safeRevision, Program.run_call,
      MemoryKernelStore.handle, MemoryKernelStore.loadPipeline,
      other.workspaceId_ne_empty, ↓reduceIte]
    cases hread : s.store.failRead with
    | true => exact ⟨_, rfl⟩
    | false =>
        cases hload : s.store.pipelines.get? (other.workspaceId,
            other.pipelineId) <;>
          exact ⟨_, rfl⟩
  obtain ⟨value, hvalue⟩ := hanswer
  obtain ⟨hstatus, hcode⟩ := refuse_status _ _ hvalue
  refine ⟨value, ?_, hstatus, hcode, ?_⟩
  · simp only [Session.step, KernelCall.program, Program.run_bind_done,
      memoryStore, hrun, hvalue]
    rfl
  · simp only [Session.step, KernelCall.program, Program.run_bind_done,
      memoryStore, hrun]
    exact (ReadRun.of_calls (calls_refuse _ other trivial _ _ _) s.store).preserves
      MemoryKernelStore.handle_read_tables

end Receipts

/-- The identity a step of a run has accepted. -/
def acceptedKey : SessionOp × Except PyError KernelAnswer → Option (String × String)
  | (op, .ok (.receipt receipt)) =>
      if receipt.status = .accepted then op.submitted.map ControllerCommand.key
      else none
  | _ => none

theorem acceptedKey_eq_some_iff (op : SessionOp)
    (answer : Except PyError KernelAnswer) (k : String × String) :
    acceptedKey (op, answer) = some k ↔
      ∃ command receipt, Accepts op answer command receipt ∧ command.key = k := by
  constructor
  · intro hkey
    unfold acceptedKey at hkey
    split at hkey
    · next other receipt heq =>
        obtain ⟨rfl, hanswer⟩ := Prod.mk.inj heq
        split at hkey
        · next hstatus =>
            obtain ⟨command, hcommand, rfl⟩ := Option.map_eq_some_iff.mp hkey
            exact ⟨command, receipt, ⟨hcommand, hanswer, hstatus⟩, rfl⟩
        · cases hkey
    · cases hkey
  · rintro ⟨command, receipt, haccepts, rfl⟩
    simp [acceptedKey, haccepts.answer_eq, haccepts.status_eq, haccepts.op_eq]

/-- The identities accepted along a run from the empty memory store. -/
def acceptedKeys (env : KernelEnv) (ops : List SessionOp) :
    List (String × String) :=
  (trace (Session.step env (memoryStore env.codec))
    (Session.init (memoryStore env.codec)) ops).filterMap acceptedKey

theorem mem_acceptedKeys_concat (env : KernelEnv) (ops : List SessionOp)
    (op : SessionOp) (k : String × String) :
    k ∈ acceptedKeys env (ops ++ [op]) ↔ k ∈ acceptedKeys env ops ∨
      ∃ command receipt, Accepts op (Session.step env (memoryStore env.codec)
        (Session.after env (memoryStore env.codec) ops) op).1 command receipt ∧
          command.key = k := by
  rw [acceptedKeys, trace_concat, List.filterMap_append, List.mem_append,
    ← acceptedKey_eq_some_iff]
  simp [acceptedKeys, Session.after]

/-- The stored log is what this list of accepted writes leaves: the inbox and
the events are theirs, and the outbox has their identities. -/
structure Written (env : KernelEnv) (writes : List AcceptedWrite)
    (s : MemoryKernelStore) : Prop where
  inbox : s.inbox.rows = writes.map fun write => (write.inbox.key, write.inbox)
  events : s.events = writes.map AcceptedWrite.event
  outbox : s.outbox.rows.map Prod.fst = writes.map fun write => write.inbox.key
  made : ∀ write ∈ writes, ∃ (paused : Bool) (command : ControllerCommand)
    (a : (env.controller paused).Acceptance command), write = a.write

namespace Written

variable {env : KernelEnv} {writes : List AcceptedWrite}
  {s s' : MemoryKernelStore}

theorem init : Written env [] .init := ⟨rfl, rfl, rfl, by simp⟩

theorem keys (hwritten : Written env writes s) :
    s.inbox.rows.map Prod.fst = writes.map fun write => write.inbox.key := by
  rw [hwritten.inbox, List.map_map]
  rfl

theorem nodup_keys (hwritten : Written env writes s) :
    (writes.map fun write => write.inbox.key).Nodup := by
  rw [← hwritten.keys]
  exact s.inbox.unique

theorem mem_keys_of_get? (hwritten : Written env writes s) {k : String × String}
    {row : InboxRecord} (hrow : s.inbox.get? k = some row) :
    k ∈ writes.map fun write => write.inbox.key := by
  obtain ⟨entry, hentry, rfl⟩ := Option.map_eq_some_iff.mp hrow
  obtain ⟨hmem, rfl⟩ := (s.inbox.find?_eq_some_iff _ _).mp hentry
  rw [← hwritten.keys]
  exact List.mem_map_of_mem hmem

theorem sameLog (hwritten : Written env writes s) (hsame : s.SameLog s') :
    Written env writes s' where
  inbox := by rw [hsame.1, hwritten.inbox]
  events := by rw [hsame.2.1, hwritten.events]
  outbox := by rw [hsame.2.2, hwritten.outbox]
  made := hwritten.made

theorem commit (hwritten : Written env writes s) {paused : Bool}
    {command : ControllerCommand}
    (a : (env.controller paused).Acceptance command)
    (habsent : s.inbox.get? command.key = none)
    (hsame : s'.tables = (s.tables.commitAccepted a.write).2) :
    Written env (writes ++ [a.write]) s' := by
  have hnotin : command.key ∉ s.outbox.rows.map Prod.fst := by
    rw [hwritten.outbox, ← hwritten.keys]
    exact Keyed.not_mem_keys_of_find?_eq_none
      ((s.inbox.find?_eq_none_iff_get? _).mpr habsent)
  have houtbox : s.outbox.get? command.key = none := by
    rw [← Dict.find?_eq_none_iff_get?, Keyed.find?_eq_none_iff]
    intro entry hentry heq
    exact hnotin (heq ▸ List.mem_map_of_mem hentry)
  refine ⟨?_, ?_, ?_, ?_⟩
  · change s'.tables.inbox.rows = _
    rw [hsame]
    change (s.inbox.set command.key a.write.inbox).rows = _
    rw [Dict.set_rows_of_absent habsent, hwritten.inbox, List.map_append]
    rfl
  · change s'.tables.events = _
    rw [hsame]
    change s.events ++ [a.write.event] = _
    rw [hwritten.events, List.map_append]
    rfl
  · change s'.tables.outbox.rows.map Prod.fst = _
    rw [hsame]
    change (s.outbox.set command.key a.write.outbox).rows.map Prod.fst = _
    rw [Dict.set_rows_of_absent houtbox, List.map_append, hwritten.outbox,
      List.map_append]
    rfl
  · intro write hmem
    rcases List.mem_append.mp hmem with hold | hnew
    · exact hwritten.made write hold
    · exact ⟨paused, command, a, List.mem_singleton.mp hnew⟩

end Written

/-- One step adds at most the write of the command it accepts. -/
theorem Written.grow {env : KernelEnv} {writes : List AcceptedWrite}
    {s : Session MemoryKernelStore} {op : SessionOp}
    {answer : Except PyError KernelAnswer} {s' : MemoryKernelStore}
    (hwritten : Written env writes s.store)
    (hstep : MemoryStep env s op answer s') :
    Written env writes s' ∨
      ∃ (command : ControllerCommand)
        (a : (env.controller s.paused).Acceptance command),
        Accepts op answer command a.receipt ∧
          Written env (writes ++ [a.write]) s' := by
  rcases hstep.log_cases with hsame | ⟨command, a, haccepts, habsent, hsame⟩
  · exact Or.inl (hwritten.sameLog hsame)
  · exact Or.inr ⟨command, a, haccepts, hwritten.commit a habsent hsame⟩

theorem after_exists_written (env : KernelEnv) (ops : List SessionOp) :
    ∃ writes, Written env writes
      (Session.after env (memoryStore env.codec) ops).store := by
  refine exec_invariant (P := fun s : Session MemoryKernelStore =>
    ∃ writes, Written env writes s.store) ?_ ⟨[], Written.init⟩ ops
  rintro s op ⟨writes, hwritten⟩
  rcases hwritten.grow (memoryStep env s op) with hsame | ⟨_, a, -, hnext⟩
  · exact ⟨writes, hsame⟩
  · exact ⟨writes ++ [a.write], hnext⟩

/-- One step: the writes grow by exactly the identity the step accepts. -/
theorem Written.step {env : KernelEnv} (hreceipts : env.codec.StoresReceipts)
    {writes : List AcceptedWrite} {s : Session MemoryKernelStore}
    {op : SessionOp} {answer : Except PyError KernelAnswer}
    {s' : MemoryKernelStore} (hwritten : Written env writes s.store)
    (hstep : MemoryStep env s op answer s') :
    ∃ writes', Written env writes' s' ∧
      ∀ k, (k ∈ writes'.map fun write => write.inbox.key) ↔
        (k ∈ writes.map fun write => write.inbox.key) ∨
          ∃ command receipt, Accepts op answer command receipt ∧
            command.key = k := by
  have hstored : ∀ command receipt, Accepts op answer command receipt →
      ∃ row, s'.inbox.get? command.key = some row := by
    intro command receipt haccepts
    obtain ⟨row, hrow, -⟩ := haccepts.stored hreceipts hstep
    exact ⟨row, hrow⟩
  rcases hwritten.grow hstep with hsame | ⟨command, a, haccepts, hnext⟩
  · refine ⟨writes, hsame, fun k => ⟨Or.inl, ?_⟩⟩
    rintro (hold | ⟨command, receipt, haccepts, rfl⟩)
    · exact hold
    · obtain ⟨row, hrow⟩ := hstored command receipt haccepts
      exact hsame.mem_keys_of_get? hrow
  · refine ⟨writes ++ [a.write], hnext, fun k => ⟨?_, ?_⟩⟩
    · intro hmem
      rw [List.map_append, List.mem_append] at hmem
      rcases hmem with hold | hnew
      · exact Or.inl hold
      · exact Or.inr ⟨command, a.receipt, haccepts,
          (List.mem_singleton.mp hnew).symm⟩
    · rintro (hold | ⟨other, receipt, hother, rfl⟩)
      · rw [List.map_append, List.mem_append]
        exact Or.inl hold
      · obtain ⟨row, hrow⟩ := hstored other receipt hother
        exact hnext.mem_keys_of_get? hrow

theorem after_written {env : KernelEnv} (hreceipts : env.codec.StoresReceipts)
    (ops : List SessionOp) :
    ∃ writes, Written env writes
        (Session.after env (memoryStore env.codec) ops).store ∧
      ∀ k, k ∈ acceptedKeys env ops ↔
        k ∈ writes.map fun write => write.inbox.key := by
  induction ops using List.reverseRecOn with
  | nil => exact ⟨[], Written.init, by simp [acceptedKeys, trace, answers]⟩
  | append_singleton ops op ih =>
      obtain ⟨writes, hwritten, hkeys⟩ := ih
      obtain ⟨writes', hwritten', hkeys'⟩ :=
        hwritten.step hreceipts (memoryStep env _ op)
      refine ⟨writes', ?_, ?_⟩
      · rw [Session.after, exec_concat]
        exact hwritten'
      · intro k
        rw [mem_acceptedKeys_concat, hkeys k, hkeys' k]

/-- The event of an accepted identity.  Ids of different workspaces can
coincide, so the workspace is part of it. -/
def EventWrite.IsOf (k : String × String) (event : EventWrite) : Prop :=
  event.workspaceId = k.1 ∧ event.eventId = KernelController.eventId k.1 k.2

instance (k : String × String) (event : EventWrite) : Decidable (event.IsOf k) :=
  inferInstanceAs (Decidable (_ ∧ _))

/-- One inbox row, one event and one outbox row for each accepted identity,
none for any other, and the stored receipt lists that event. -/
structure OnePerAccepted (codec : Codec) (accepted : List (String × String))
    (s : MemoryKernelStore) : Prop where
  inbox : ∀ k, (s.inbox.rows.map Prod.fst).count k =
    if k ∈ accepted then 1 else 0
  outbox : ∀ k, (s.outbox.rows.map Prod.fst).count k =
    if k ∈ accepted then 1 else 0
  events : ∀ k, (s.events.filter (·.IsOf k)).length =
    if k ∈ accepted then 1 else 0
  owned : ∀ event ∈ s.events, ∃ k ∈ accepted, event.IsOf k
  receipt : ∀ k ∈ accepted, ∃ row receipt event,
    s.inbox.get? k = some row ∧ row.key = k ∧
      codec.receiptOfJson row.receiptJson = some receipt ∧
      s.events.filter (·.IsOf k) = [event] ∧
      receipt.eventIds = [event.eventId]

theorem eventId_inj {ws cmd cmd' : String}
    (heq : eventId ws cmd = eventId ws cmd') : cmd = cmd' :=
  (String.append_right_inj _).mp heq

namespace Written

variable {env : KernelEnv} {writes : List AcceptedWrite}
  {s : MemoryKernelStore}

/-- A write's event is the event of its own identity only. -/
theorem event_isOf (hwritten : Written env writes s) {write : AcceptedWrite}
    (hmem : write ∈ writes) (k : String × String) :
    write.event.IsOf k ↔ write.inbox.key = k := by
  obtain ⟨paused, command, a, rfl⟩ := hwritten.made write hmem
  constructor
  · rintro ⟨hws, hid⟩
    change command.workspaceId = k.1 at hws
    change eventId command.workspaceId command.commandId = eventId k.1 k.2 at hid
    rw [← hws] at hid
    exact Prod.ext hws (eventId_inj hid)
  · rintro rfl
    exact ⟨rfl, rfl⟩

theorem events_filter (hwritten : Written env writes s) (k : String × String) :
    s.events.filter (·.IsOf k) =
      (writes.filter fun write => write.inbox.key = k).map AcceptedWrite.event := by
  rw [hwritten.events, List.filter_map]
  congr 1
  apply List.filter_congr
  intro write hmem
  simpa using hwritten.event_isOf hmem k

theorem length_events_filter (hwritten : Written env writes s)
    (k : String × String) :
    (s.events.filter (·.IsOf k)).length =
      (writes.map fun write => write.inbox.key).count k := by
  rw [hwritten.events_filter, List.length_map, List.count, List.countP_map,
    ← List.countP_eq_length_filter]
  apply List.countP_congr
  intro write _
  simp

theorem onePerAccepted (hreceipts : env.codec.StoresReceipts)
    (hwritten : Written env writes s) {accepted : List (String × String)}
    (hkeys : ∀ k, k ∈ accepted ↔ k ∈ writes.map fun write => write.inbox.key) :
    OnePerAccepted env.codec accepted s := by
  have hcount : ∀ k, (writes.map fun write => write.inbox.key).count k =
      if k ∈ accepted then 1 else 0 := by
    intro k
    rw [hwritten.nodup_keys.count]
    simp only [hkeys k]
  refine ⟨?_, ?_, ?_, ?_, ?_⟩
  · intro k
    rw [hwritten.keys, hcount]
  · intro k
    rw [hwritten.outbox, hcount]
  · intro k
    rw [hwritten.length_events_filter, hcount]
  · intro event hevent
    rw [hwritten.events] at hevent
    obtain ⟨write, hwrite, rfl⟩ := List.mem_map.mp hevent
    exact ⟨write.inbox.key, (hkeys _).mpr (List.mem_map_of_mem hwrite),
      (hwritten.event_isOf hwrite _).mpr rfl⟩
  · intro k hk
    obtain ⟨write, hwrite, rfl⟩ := List.mem_map.mp ((hkeys k).mp hk)
    have hrow : s.inbox.get? write.inbox.key = some write.inbox := by
      have hentry : (write.inbox.key, write.inbox) ∈ s.inbox.rows := by
        rw [hwritten.inbox]
        exact List.mem_map_of_mem hwrite
      have hfind := (s.inbox.find?_eq_some_iff write.inbox.key _).mpr
        ⟨hentry, rfl⟩
      simp [Dict.get?, hfind]
    have hone : (s.events.filter (·.IsOf write.inbox.key)).length = 1 := by
      rw [hwritten.length_events_filter, hcount, if_pos hk]
    obtain ⟨event, hevent⟩ := List.length_eq_one_iff.mp hone
    have hisOf : event.IsOf write.inbox.key := by
      have hmem : event ∈ s.events.filter (·.IsOf write.inbox.key) := by
        rw [hevent]
        exact List.mem_singleton_self event
      simpa using (List.mem_filter.mp hmem).2
    obtain ⟨paused, command, a, rfl⟩ := hwritten.made write hwrite
    exact ⟨_, a.receipt, event, hrow, rfl, hreceipts a.receipt, hevent,
      congrArg (fun id => [id]) hisOf.2.symm⟩

end Written

/-- Exactly once.  After a command was accepted, and whatever happened since,
submitting it again answers its receipt and leaves the store alone, and any
other command under its identity is a conflict that leaves the tables alone.
In every state reached there is one inbox row, one event and one outbox row for
each accepted identity. -/
theorem session_accepts_exactly_once (env : KernelEnv)
    (hhashes : env.codec.HashesCommands)
    (hreceipts : env.codec.StoresReceipts) :
    (∀ (before between : List SessionOp) (op : SessionOp)
        (command : ControllerCommand) (receipt : CommandReceipt),
      Accepts op (Session.step env (memoryStore env.codec)
        (Session.after env (memoryStore env.codec) before) op).1 command receipt →
      let s := Session.after env (memoryStore env.codec)
        (before ++ op :: between)
      s.paused = false →
        Session.step env (memoryStore env.codec) s (.call (.submit command)) =
            (.ok (.receipt receipt), s) ∧
          ∀ other : ControllerCommand, other.key = command.key →
            ¬other.Same command →
            ∃ refusal : CommandReceipt,
              (Session.step env (memoryStore env.codec) s
                  (.call (.submit other))).1 = .ok (.receipt refusal) ∧
                refusal.status = .conflict ∧ refusal.error.code = .conflict ∧
                (Session.step env (memoryStore env.codec) s
                  (.call (.submit other))).2.store.tables = s.store.tables) ∧
      ∀ ops : List SessionOp, OnePerAccepted env.codec (acceptedKeys env ops)
        (Session.after env (memoryStore env.codec) ops).store := by
  refine ⟨?_, ?_⟩
  · intro before between op command receipt haccepts s hrunning
    have hstored : Stored env s.store command receipt := by
      have hfirst := haccepts.stored hreceipts (memoryStep env _ op)
      have hsplit : s = exec (Session.step env (memoryStore env.codec))
          (Session.step env (memoryStore env.codec)
            (Session.after env (memoryStore env.codec) before) op).2 between :=
        exec_append _ _ before (op :: between)
      rw [hsplit]
      refine exec_invariant (P := fun t : Session MemoryKernelStore =>
        Stored env t.store command receipt) ?_ hfirst between
      intro t input hstored
      exact hstored.step (memoryStep env t input)
    exact ⟨hstored.submit_step hrunning, fun other hkey hother =>
      hstored.conflict_step hhashes hrunning hkey hother⟩
  · intro ops
    obtain ⟨writes, hwritten, hkeys⟩ := after_written hreceipts ops
    exact hwritten.onePerAccepted hreceipts hkeys

namespace ExactlyOnceWitness

open ReferenceCodec

def env : KernelEnv := ⟨sampleCodec, "2026-08-06T00:00:00Z"⟩

def receipt : CommandReceipt :=
  (env.controller false).acceptedReceipt sampleConfirm
    ⟨.opened, 1, "Build the exporter"⟩

/-- The confirmation is accepted, then a record moves the pipeline on. -/
def ops : List SessionOp :=
  [] ++ .call (.submit sampleConfirm) :: [.call (.submit sampleRecord)]

def session : Session MemoryKernelStore :=
  Session.after env (memoryStore env.codec) ops

theorem confirm_accepted : Accepts (.call (.submit sampleConfirm))
    (Session.step env (memoryStore env.codec)
      (Session.after env (memoryStore env.codec) [])
      (.call (.submit sampleConfirm))).1 sampleConfirm receipt :=
  ⟨rfl, by decide +kernel, rfl⟩

theorem acceptedKeys_ops :
    acceptedKeys env ops = [("ws_a", "cmd_1"), ("ws_a", "cmd_2")] := by
  decide +kernel

/-- The confirmation and an altered one are submitted again after the run. -/
theorem session_accepts_exactly_once_at_ops :
    Session.step env (memoryStore env.codec) session
        (.call (.submit sampleConfirm)) = (.ok (.receipt receipt), session) ∧
      (∃ refusal : CommandReceipt,
        (Session.step env (memoryStore env.codec) session
            (.call (.submit sampleConfirmOther))).1 = .ok (.receipt refusal) ∧
          refusal.status = .conflict ∧ refusal.error.code = .conflict ∧
          (Session.step env (memoryStore env.codec) session
            (.call (.submit sampleConfirmOther))).2.store.tables =
              session.store.tables) ∧
      OnePerAccepted env.codec [("ws_a", "cmd_1"), ("ws_a", "cmd_2")]
        session.store := by
  have hlaw := session_accepts_exactly_once env sampleCodec_hashesCommands
    (storesReceipts sampleDigest)
  have hrunning : session.paused = false := by decide +kernel
  obtain ⟨hrepeat, hconflict⟩ := hlaw.1 [] [.call (.submit sampleRecord)] _
    sampleConfirm receipt confirm_accepted hrunning
  refine ⟨hrepeat, hconflict sampleConfirmOther rfl
    (not_same_of_textAt_ne ["payload", "text"] (by decide +kernel)), ?_⟩
  rw [← acceptedKeys_ops]
  exact hlaw.2 ops

end ExactlyOnceWitness

end HermesPipeline
