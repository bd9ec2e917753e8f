/-
The outbox is written once.  A row is committed with its command and keeps its
effect and payload; its receipt is set at most once; and the rows a store lists
as pending are those of the accepted `READY` verifications that no replay and no
delivery has marked.  Both stores, with failures and re-openings in between.
-/
import HermesPipeline.KernelMemoryEffects
import HermesPipeline.KernelSqliteEffects
import HermesPipeline.ReferenceCodec
import HermesPipeline.StoreRefinement
import Mathlib.Data.List.Find

namespace HermesPipeline

open Lib KernelController

/-- A stored row after a delivery to the identity. -/
def OutboxRecord.deliver (ws cmd receiptJson : String) (row : OutboxRecord) :
    OutboxRecord :=
  if ws ≠ "" ∧ row.key = (ws, cmd) ∧ row.isPending then
    { row with deliveryReceiptJson := some receiptJson }
  else row

/-- The laws of a store hold of every part of its view. -/
theorem KernelController.StoreLaws.comp {σ ν μ : Type}
    {h : Handler StoreOp StoreOp.Answer PyError σ} {view : σ → ν}
    (laws : StoreLaws h view) (part : ν → μ) :
    StoreLaws h fun s => part (view s) where
  read_view := fun op s hread => congrArg part (laws.read_view op s hread)
  findInbox_same := laws.findInbox_same
  loadLease_same := laws.loadLease_same
  loadPipeline_same := laws.loadPipeline_same
  commit_error := fun write s error s' hcommit =>
    congrArg part (laws.commit_error write s error s' hcommit)

/-- The operations that write the outbox. -/
def StoreOp.IsOutboxWrite : StoreOp → Prop
  | .commitAccepted _ => True
  | .recordOutboxDelivery _ _ _ => True
  | _ => False

/-- A store seen through its outbox: its rows in the order of their commits and
the identities in the inbox, with what each operation does to them. -/
structure OutboxStore (σ : Type) where
  store : TransactionStore σ
  /-- Close the store and open it again on what it holds. -/
  reopen : σ → σ
  rows : σ → List OutboxRecord
  inboxKeys : σ → List (String × String)
  /-- How a stored row is returned. -/
  shown : OutboxRecord → OutboxRecord
  /-- What every reachable state of the store satisfies. -/
  Good : σ → Prop
  good_init : Good store.init
  good_handle : ∀ op s, Good s → Good (store.handle op s).2
  good_trips : ∀ s, Good s →
    Good (store.tripCommitFailure s) ∧ Good (store.tripReadFailure s)
  good_reopen : ∀ s, Good s → Good (reopen s)
  rows_init : rows store.init = []
  inboxKeys_init : inboxKeys store.init = []
  laws : StoreLaws store.handle fun s => (rows s, inboxKeys s)
  keeps : ∀ op s, ¬op.IsOutboxWrite →
    rows (store.handle op s).2 = rows s ∧
      inboxKeys (store.handle op s).2 = inboxKeys s
  trips : ∀ s, rows (store.tripCommitFailure s) = rows s ∧
    inboxKeys (store.tripCommitFailure s) = inboxKeys s ∧
    rows (store.tripReadFailure s) = rows s ∧
    inboxKeys (store.tripReadFailure s) = inboxKeys s
  reopened : ∀ s, Good s →
    rows (reopen s) = rows s ∧ inboxKeys (reopen s) = inboxKeys s
  shown_eq : ∀ row, row.deliveryReceiptJson ≠ some "" → shown row = row
  findInbox : ∀ s ws cmd found, (store.handle (.findInbox ws cmd) s).1 =
    .ok found → (found = none ↔ (ws, cmd) ∉ inboxKeys s)
  commit : ∀ s s' write, Good s →
    store.handle (.commitAccepted write) s = (.ok (), s') →
    write.inbox.key ∉ inboxKeys s →
    write.outbox.key ∉ (rows s).map OutboxRecord.key →
    rows s' = rows s ++ [write.outbox] ∧
      inboxKeys s' = inboxKeys s ++ [write.inbox.key]
  deliver : ∀ s ws cmd receiptJson, Good s →
    (store.handle (.recordOutboxDelivery ws cmd receiptJson) s).1 = .ok () ∧
      rows (store.handle (.recordOutboxDelivery ws cmd receiptJson) s).2 =
        (rows s).map (OutboxRecord.deliver ws cmd receiptJson) ∧
      inboxKeys (store.handle (.recordOutboxDelivery ws cmd receiptJson) s).2 =
        inboxKeys s
  findOutbox : ∀ s ws cmd, Good s → store.handle (.findOutbox ws cmd) s =
    (.ok (if ws = "" then none else
      ((rows s).find? fun row => decide (row.key = (ws, cmd))).map shown), s)
  listPending : ∀ s ws, store.handle (.listPendingOutbox ws) s =
    (.ok (if ws = "" then [] else
      (sortByCommandId ((rows s).filter fun row =>
        row.workspaceId = ws ∧ row.isPending)).map shown), s)

/-- One input of a run: a session input, or the store is opened again and a new
controller takes it over. -/
inductive StoreInput
  | session (op : SessionOp)
  | reopen

/-- A direct delivery hands over a receipt that is not empty. -/
def StoreInput.Delivers : StoreInput → Prop
  | .session op => op.Delivers
  | .reopen => True

namespace OutboxStore

variable {σ : Type} (env : KernelEnv) (impl : OutboxStore σ)

/-- The row stored under an identity. -/
def row (s : σ) (key : String × String) : Option OutboxRecord :=
  (impl.rows s).find? fun row => decide (row.key = key)

def step (s : Session σ) : StoreInput → Except PyError KernelAnswer × Session σ
  | .session op => Session.step env impl.store s op
  | .reopen => (.ok .unit, ⟨false, impl.reopen s.store⟩)

/-- The state a run from the empty store ends in. -/
def after (inputs : List StoreInput) : Session σ :=
  exec (impl.step env) (Session.init impl.store) inputs

/-- What the pending rows are after a run. -/
def listed (inputs : List StoreInput) (ws : String) :
    Except PyError KernelAnswer :=
  (impl.step env (impl.after env inputs)
    (.session (.call (.listPendingOutbox ws)))).1

def replayed (inputs : List StoreInput) (ws cmd : String) :
    Except PyError KernelAnswer :=
  (impl.step env (impl.after env inputs) (.session (.call (.replay ws cmd)))).1

end OutboxStore

/-- The outbox row of a verification that ends `READY`. -/
def publishRow (codec : Codec) (command : ControllerCommand) :
    Option OutboxRecord :=
  if command.commandType = "RECORD_VERIFY" ∧
      (command.payload.get? "verify_status").bind Json.text? = some "READY" then
    (codec.canonicalJson (Json.ofTexts (DomainEvent.stationRecorded .verify
      (command.payload.filterMap Json.text?)).payload.rows)).map fun payloadJson =>
        ⟨command.workspaceId, command.commandId, "PUBLISH_PR", payloadJson, none⟩
  else none

/-- What the inputs of a run and their answers say about the outbox: the
identities accepted so far and the rows still to be published. -/
structure OutboxLedger where
  accepted : List (String × String)
  pending : List OutboxRecord

namespace OutboxLedger

variable (codec : Codec)

def empty : OutboxLedger := ⟨[], []⟩

/-- The first acceptance of an identity adds its row. -/
def accept (ledger : OutboxLedger) (command : ControllerCommand) :
    OutboxLedger :=
  if command.key ∈ ledger.accepted then ledger
  else ⟨ledger.accepted ++ [command.key],
    ledger.pending ++ (publishRow codec command).toList⟩

def mark (ledger : OutboxLedger) (key : String × String) : OutboxLedger :=
  { ledger with pending := ledger.pending.filter fun row => row.key ≠ key }

/-- The command an entry of the trace accepts. -/
def acceptedBy : StoreInput × Except PyError KernelAnswer →
    Option ControllerCommand
  | (.session op, .ok (.receipt receipt)) =>
      if receipt.status = .accepted then op.submitted else none
  | _ => none

/-- The identity an entry of the trace marks as delivered. -/
def markedBy : StoreInput × Except PyError KernelAnswer →
    Option (String × String)
  | (.session (.call (.recordOutboxDelivery ws cmd _)), .ok _) => some (ws, cmd)
  | (.session (.call (.replay ws cmd)), .ok _) => some (ws, cmd)
  | _ => none

def note (ledger : OutboxLedger)
    (entry : StoreInput × Except PyError KernelAnswer) : OutboxLedger :=
  match acceptedBy entry with
  | some command => ledger.accept codec command
  | none =>
      match markedBy entry with
      | some key => ledger.mark key
      | none => ledger

/-- The ledger of a whole trace. -/
def ofTrace (entries : List (StoreInput × Except PyError KernelAnswer)) :
    OutboxLedger :=
  entries.foldl (note codec) empty

end OutboxLedger

/-- The rows stay, and a row with a receipt stays as it is. -/
def RowsKept (before after : List OutboxRecord) : Prop :=
  ∀ key row, before.find? (fun row => decide (row.key = key)) = some row →
    ∃ row', after.find? (fun row => decide (row.key = key)) = some row' ∧
      row'.effectType = row.effectType ∧ row'.payloadJson = row.payloadJson ∧
      (row.isPending = false → row' = row)

theorem RowsKept.refl (rows : List OutboxRecord) : RowsKept rows rows :=
  fun _ row hrow => ⟨row, hrow, rfl, rfl, fun _ => rfl⟩

theorem RowsKept.trans {first second third : List OutboxRecord}
    (hfirst : RowsKept first second) (hsecond : RowsKept second third) :
    RowsKept first third := by
  intro key row hrow
  obtain ⟨row', hrow', heffect, hpayload, hsame⟩ := hfirst key row hrow
  obtain ⟨row'', hrow'', heffect', hpayload', hsame'⟩ := hsecond key row' hrow'
  refine ⟨row'', hrow'', heffect'.trans heffect, hpayload'.trans hpayload, ?_⟩
  intro hdelivered
  have heq := hsame hdelivered
  rw [hsame' (by rw [heq]; exact hdelivered), heq]

theorem rowsKept_append (rows more : List OutboxRecord) :
    RowsKept rows (rows ++ more) := by
  intro key row hrow
  exact ⟨row, by rw [List.find?_append, hrow]; rfl, rfl, rfl, fun _ => rfl⟩

namespace OutboxRecord

variable (ws cmd receiptJson : String) (row : OutboxRecord)

@[simp] theorem key_deliver : (row.deliver ws cmd receiptJson).key = row.key := by
  unfold deliver
  split <;> rfl

theorem deliver_frame :
    (row.deliver ws cmd receiptJson).effectType = row.effectType ∧
      (row.deliver ws cmd receiptJson).payloadJson = row.payloadJson ∧
      (row.isPending = false → row.deliver ws cmd receiptJson = row) := by
  unfold deliver
  split
  · next h =>
      refine ⟨rfl, rfl, ?_⟩
      intro hdelivered
      rw [h.2.2] at hdelivered
      cases hdelivered
  · exact ⟨rfl, rfl, fun _ => rfl⟩

theorem find?_deliver (rows : List OutboxRecord) (key : String × String) :
    (rows.map (OutboxRecord.deliver ws cmd receiptJson)).find?
        (fun row => decide (row.key = key)) =
      (rows.find? fun row => decide (row.key = key)).map
        (OutboxRecord.deliver ws cmd receiptJson) := by
  rw [List.find?_map]
  congr 2
  funext row
  simp

theorem rowsKept_deliver (rows : List OutboxRecord) :
    RowsKept rows (rows.map (OutboxRecord.deliver ws cmd receiptJson)) := by
  intro key row hrow
  refine ⟨row.deliver ws cmd receiptJson, ?_, row.deliver_frame ws cmd receiptJson⟩
  rw [find?_deliver, hrow]
  rfl

/-- A delivery with a receipt takes the row out of the pending ones. -/
theorem filter_pending_deliver {rows : List OutboxRecord}
    (hnamed : ∀ row ∈ rows, row.workspaceId ≠ "") (hreceipt : receiptJson ≠ "") :
    (rows.map (OutboxRecord.deliver ws cmd receiptJson)).filter isPending =
      (rows.filter isPending).filter fun row => row.key ≠ (ws, cmd) := by
  induction rows with
  | nil => rfl
  | cons row rest ih =>
      have hrest := ih fun other hother =>
        hnamed other (List.mem_cons_of_mem row hother)
      have hws := hnamed row List.mem_cons_self
      rw [List.map_cons, List.filter_cons, List.filter_cons, hrest]
      by_cases hkey : row.key = (ws, cmd)
      · have hown : row.workspaceId = ws := congrArg Prod.fst hkey
        have hname : ws ≠ "" := hown ▸ hws
        cases hpending : row.isPending with
        | false =>
            rw [(row.deliver_frame ws cmd receiptJson).2.2 hpending]
            simp [hpending]
        | true =>
            have hdelivered : (row.deliver ws cmd receiptJson).isPending =
                false := by
              rw [deliver, if_pos ⟨hname, hkey, hpending⟩]
              simp [isPending, hreceipt]
            simp [hdelivered, hkey]
      · have hsame : row.deliver ws cmd receiptJson = row := by
          simp [deliver, hkey]
        rw [hsame]
        cases hpending : row.isPending <;> simp [hkey]

end OutboxRecord

/-- A command parsed as a station record is the record command of its station,
with the text fields of its payload. -/
theorem domainCommand_recordStation {command : ControllerCommand}
    {station : Station} {fields : Dict String String}
    (hparsed : domainCommand command = some (.recordStation station fields)) :
    command.commandType = station.commandType ∧
      fields = command.payload.filterMap Json.text? := by
  unfold domainCommand at hparsed
  split at hparsed
  · cases htext : (command.payload.get? "text").bind Json.text? <;>
      simp [htext] at hparsed
  · split at hparsed
    · cases htext : (command.payload.get? "reason").bind Json.text? <;>
        simp [htext] at hparsed
    · obtain ⟨found, hfound, hrecord⟩ := Option.map_eq_some_iff.mp hparsed
      cases hrecord
      refine ⟨?_, rfl⟩
      unfold stationOf? at hfound
      grind [Station.commandType]

/-- Only a record of a `READY` verification publishes. -/
theorem publishes_iff {current state : PipelineState} {event : DomainEvent}
    {command : ControllerCommand} {parsed : DomainCommand}
    (hparsed : domainCommand command = some parsed)
    (happly : current.apply parsed = ⟨state, .accepted, some event⟩) :
    if command.commandType = "RECORD_VERIFY" ∧
        (command.payload.get? "verify_status").bind Json.text? = some "READY" then
      event = .stationRecorded .verify (command.payload.filterMap Json.text?) ∧
        event.publishes = true
    else event.publishes = false := by
  have hverify : command.commandType = "RECORD_VERIFY" → domainCommand command =
      some (.recordStation .verify (command.payload.filterMap Json.text?)) := by
    intro htype
    simp [domainCommand, htype, stationOf?]
  cases parsed with
  | confirmRequirement text | rejectRequirement reason =>
      rw [if_neg (by
        rintro ⟨htype, -⟩
        rw [hverify htype] at hparsed
        cases hparsed)]
      rcases PipelineState.apply_accepted_cases happly with
        ⟨station, fields, -, hevent, -⟩ | ⟨text, -, hevent, -⟩ | ⟨reason, -, hevent, -⟩
      · cases hevent
        simp only [PipelineState.apply, PipelineState.applyIntake] at happly
        split at happly
        · cases happly
        · split at happly <;> cases happly
      · cases hevent
        rfl
      · cases hevent
        rfl
  | recordStation station fields =>
      obtain ⟨htype, rfl⟩ := domainCommand_recordStation hparsed
      have hevent : event = .stationRecorded station
          (command.payload.filterMap Json.text?) := by
        simp only [PipelineState.apply] at happly
        split at happly <;> cases happly
        rfl
      subst hevent
      cases station <;>
        simp [htype, Station.commandType, DomainEvent.publishes,
          Dict.get?_filterMap]

/-- An accepted command commits the row of its publication, or a row that is
delivered from the start. -/
theorem KernelController.Acceptance.outbox_row {k : KernelController}
    {command : ControllerCommand} (a : k.Acceptance command) :
    (publishRow k.codec command = some a.write.outbox ∧
        a.write.outbox.isPending = true ∧
        a.write.outbox.effectType = "PUBLISH_PR" ∧
        a.write.outbox.deliveryReceiptJson = none) ∨
      (publishRow k.codec command = none ∧ a.write.outbox.isPending = false) := by
  have hpublishes := publishes_iff a.parsed_eq a.apply_eq
  unfold publishRow
  split at hpublishes
  · next hverify =>
      obtain ⟨hevent, hpublishes⟩ := hpublishes
      have hpayload := a.payload_eq
      rw [hevent] at hpayload
      refine Or.inl ⟨?_, ?_, ?_, ?_⟩
      · rw [if_pos hverify, hpayload]
        simp [Acceptance.write, acceptedWrite, DomainEvent.effectType, hpublishes]
      · simp [Acceptance.write, acceptedWrite, hpublishes, OutboxRecord.isPending]
      · simp [Acceptance.write, acceptedWrite, DomainEvent.effectType, hpublishes]
      · simp [Acceptance.write, acceptedWrite, hpublishes]
  · next hverify =>
      refine Or.inr ⟨if_neg hverify, ?_⟩
      simp [Acceptance.write, acceptedWrite, hpublishes, OutboxRecord.isPending]

/-- The ledger says what the store holds. -/
structure OutboxStore.Matches {σ : Type} (impl : OutboxStore σ)
    (ledger : OutboxLedger) (s : σ) : Prop where
  good : impl.Good s
  accepted : ∀ key, key ∈ impl.inboxKeys s ↔ key ∈ ledger.accepted
  owned : ∀ row ∈ impl.rows s, row.key ∈ impl.inboxKeys s
  unique : ((impl.rows s).map OutboxRecord.key).Nodup
  named : ∀ row ∈ impl.rows s, row.workspaceId ≠ ""
  pending : (impl.rows s).filter OutboxRecord.isPending = ledger.pending
  publishes : ∀ row ∈ impl.rows s, row.isPending = true →
    row.effectType = "PUBLISH_PR" ∧ row.deliveryReceiptJson = none

namespace OutboxStore.Matches

variable {σ : Type} {env : KernelEnv} {impl : OutboxStore σ}
  {ledger : OutboxLedger} {s s' : σ}

theorem init (impl : OutboxStore σ) : impl.Matches .empty impl.store.init where
  good := impl.good_init
  accepted := by simp [impl.inboxKeys_init, OutboxLedger.empty]
  owned := by simp [impl.rows_init]
  unique := by simp [impl.rows_init]
  named := by simp [impl.rows_init]
  pending := by simp [impl.rows_init, OutboxLedger.empty]
  publishes := by simp [impl.rows_init]

/-- A step that writes neither the outbox nor the inbox. -/
theorem of_same (h : impl.Matches ledger s) (hgood : impl.Good s')
    (hrows : impl.rows s' = impl.rows s)
    (hkeys : impl.inboxKeys s' = impl.inboxKeys s) : impl.Matches ledger s' where
  good := hgood
  accepted := by rw [hkeys]; exact h.accepted
  owned := by rw [hrows, hkeys]; exact h.owned
  unique := by rw [hrows]; exact h.unique
  named := by rw [hrows]; exact h.named
  pending := by rw [hrows]; exact h.pending
  publishes := by rw [hrows]; exact h.publishes

theorem deliver (h : impl.Matches ledger s) {ws cmd receiptJson : String}
    (hreceipt : receiptJson ≠ "") :
    impl.Matches (ledger.mark (ws, cmd))
      (impl.store.handle (.recordOutboxDelivery ws cmd receiptJson) s).2 := by
  obtain ⟨-, hrows, hkeys⟩ := impl.deliver s ws cmd receiptJson h.good
  refine ⟨impl.good_handle _ s h.good, ?_, ?_, ?_, ?_, ?_, ?_⟩
  · intro key
    rw [hkeys]
    exact h.accepted key
  · rw [hrows, hkeys]
    intro row hrow
    obtain ⟨old, hold, rfl⟩ := List.mem_map.mp hrow
    rw [OutboxRecord.key_deliver]
    exact h.owned old hold
  · have hsame : OutboxRecord.key ∘ OutboxRecord.deliver ws cmd receiptJson =
        OutboxRecord.key := by
      funext row
      exact row.key_deliver ws cmd receiptJson
    rw [hrows, List.map_map, hsame]
    exact h.unique
  · rw [hrows]
    intro row hrow
    obtain ⟨old, hold, rfl⟩ := List.mem_map.mp hrow
    have hkey := congrArg Prod.fst (old.key_deliver ws cmd receiptJson)
    change (old.deliver ws cmd receiptJson).workspaceId = old.workspaceId at hkey
    rw [hkey]
    exact h.named old hold
  · rw [hrows, OutboxRecord.filter_pending_deliver ws cmd receiptJson h.named hreceipt,
      h.pending]
    rfl
  · rw [hrows]
    intro row hrow hpending
    obtain ⟨old, hold, rfl⟩ := List.mem_map.mp hrow
    unfold OutboxRecord.deliver at hpending ⊢
    split at hpending
    · simp [OutboxRecord.isPending, hreceipt] at hpending
    · next hother =>
        rw [if_neg hother]
        exact h.publishes old hold hpending

theorem commit (h : impl.Matches ledger s) {paused : Bool}
    {command : ControllerCommand}
    (a : (env.controller paused).Acceptance command)
    (habsent : command.key ∉ impl.inboxKeys s)
    (hcommit : impl.store.handle (.commitAccepted a.write) s = (.ok (), s')) :
    impl.Matches (ledger.accept env.codec command) s' ∧
      RowsKept (impl.rows s) (impl.rows s') := by
  have hfresh : a.write.outbox.key ∉ (impl.rows s).map OutboxRecord.key := by
    intro hmem
    obtain ⟨row, hrow, hkey⟩ := List.mem_map.mp hmem
    have howned := h.owned row hrow
    rw [hkey] at howned
    exact habsent howned
  obtain ⟨hrows, hkeys⟩ := impl.commit s s' a.write h.good hcommit habsent hfresh
  have hnew : command.key ∉ ledger.accepted := fun hold =>
    habsent ((h.accepted command.key).mpr hold)
  refine ⟨⟨?_, ?_, ?_, ?_, ?_, ?_, ?_⟩, ?_⟩
  · have hgood := impl.good_handle (.commitAccepted a.write) s h.good
    rw [hcommit] at hgood
    exact hgood
  · intro key
    rw [hkeys, OutboxLedger.accept, if_neg hnew]
    simp only [List.mem_append, List.mem_singleton, h.accepted]
    rfl
  · rw [hrows, hkeys]
    intro row hrow
    rcases List.mem_append.mp hrow with hold | hnew
    · exact List.mem_append_left _ (h.owned row hold)
    · obtain rfl := List.mem_singleton.mp hnew
      exact List.mem_append_right _ List.mem_cons_self
  · rw [hrows, List.map_append]
    exact h.unique.append (List.nodup_singleton _) (by simpa using hfresh)
  · rw [hrows]
    intro row hrow
    rcases List.mem_append.mp hrow with hold | hnew
    · exact h.named row hold
    · obtain rfl := List.mem_singleton.mp hnew
      exact command.workspaceId_ne_empty
  · rw [hrows, List.filter_append, h.pending, OutboxLedger.accept, if_neg hnew]
    rcases a.outbox_row with ⟨hpublish, hpending, -⟩ | ⟨hpublish, hpending⟩
    · have hrow : publishRow env.codec command = some a.write.outbox := hpublish
      simp [hrow, hpending]
    · have hrow : publishRow env.codec command = none := hpublish
      simp [hrow, hpending]
  · rw [hrows]
    intro row hrow hpending
    rcases List.mem_append.mp hrow with hold | hnew
    · exact h.publishes row hold hpending
    · obtain rfl := List.mem_singleton.mp hnew
      rcases a.outbox_row with ⟨-, -, heffect, hnone⟩ | ⟨-, hdelivered⟩
      · exact ⟨heffect, hnone⟩
      · rw [hdelivered] at hpending
        cases hpending
  · rw [hrows]
    exact rowsKept_append _ _

/-- In such a state a row is returned as it is stored. -/
theorem shown_eq (h : impl.Matches ledger s) {key : String × String}
    {row : OutboxRecord} (hrow : impl.row s key = some row) :
    impl.shown row = row := by
  refine impl.shown_eq row ?_
  intro hempty
  have hpending : row.isPending = true := by simp [OutboxRecord.isPending, hempty]
  have hnone := (h.publishes row (List.mem_of_find?_eq_some hrow) hpending).2
  rw [hempty] at hnone
  cases hnone

/-- Marking a row that has its receipt changes nothing. -/
theorem mark_delivered (h : impl.Matches ledger s) {key : String × String}
    {row : OutboxRecord} (hrow : impl.row s key = some row)
    (hdelivered : row.isPending = false) : ledger.mark key = ledger := by
  have hmem := List.mem_of_find?_eq_some hrow
  have hkey : row.key = key := by simpa using List.find?_some hrow
  have hkept : ledger.pending.filter (fun other => other.key ≠ key) =
      ledger.pending := by
    rw [List.filter_eq_self]
    intro other hother
    rw [← h.pending, List.mem_filter] at hother
    obtain ⟨hother, hpending⟩ := hother
    simp only [ne_eq, decide_not, Bool.not_eq_eq_eq_not, Bool.not_true,
      decide_eq_false_iff_not]
    intro heq
    obtain rfl : other = row :=
      List.inj_on_of_nodup_map h.unique hother hmem (heq.trans hkey.symm)
    rw [hdelivered] at hpending
    cases hpending
  simp only [OutboxLedger.mark, hkept]

/-- The ways a replay can end. -/
theorem run_replay (h : impl.Matches ledger s) (k : KernelController)
    (htexts : ∀ value, k.codec.canonicalJson value ≠ some "") (ws cmd : String) :
    (∃ error, (k.replay ws cmd).run impl.store.handle s = (.error error, s)) ∨
      (∃ row, impl.row s (ws, cmd) = some row ∧ row.isPending = false ∧
        (k.replay ws cmd).run impl.store.handle s = (.ok row, s)) ∨
      ∃ row receiptJson, impl.row s (ws, cmd) = some row ∧ receiptJson ≠ "" ∧
        (row.deliver ws cmd receiptJson).isPending = false ∧
        (k.replay ws cmd).run impl.store.handle s =
          (.ok (row.deliver ws cmd receiptJson),
            (impl.store.handle (.recordOutboxDelivery ws cmd receiptJson) s).2) := by
  have hfind := impl.findOutbox s ws cmd h.good
  simp only [replay, ask, Program.run_bind, Program.run_perform, hfind]
  by_cases hws : ws = ""
  · simp only [hws, ↓reduceIte]
    exact Or.inl ⟨_, rfl⟩
  · simp only [hws, ↓reduceIte]
    cases hrow : (impl.rows s).find? fun row => decide (row.key = (ws, cmd)) with
    | none => exact Or.inl ⟨_, rfl⟩
    | some row =>
        have hstored : impl.row s (ws, cmd) = some row := hrow
        have hshown := h.shown_eq hstored
        simp only [Option.map_some, hshown]
        cases hpending : row.isPending with
        | false => exact Or.inr (Or.inl ⟨row, hrow, hpending, rfl⟩)
        | true =>
            simp only [↓reduceIte]
            cases hjson : k.codec.canonicalJson
                (Json.ofTexts (k.replayReceipt ws cmd).rows) with
            | none => exact Or.inl ⟨_, rfl⟩
            | some receiptJson =>
                have hreceipt : receiptJson ≠ "" := by
                  rintro rfl
                  exact htexts _ hjson
                have hafter : impl.Matches (ledger.mark (ws, cmd)) (impl.store.handle
                    (.recordOutboxDelivery ws cmd receiptJson) s).2 :=
                  h.deliver hreceipt
                obtain ⟨hanswer, hrows, -⟩ := impl.deliver s ws cmd receiptJson h.good
                have hkey : row.key = (ws, cmd) := by simpa using List.find?_some hrow
                have hnext : impl.row (impl.store.handle
                    (.recordOutboxDelivery ws cmd receiptJson) s).2 (ws, cmd) =
                    some (row.deliver ws cmd receiptJson) := by
                  rw [OutboxStore.row, hrows, OutboxRecord.find?_deliver, hrow]
                  rfl
                have hdelivered : (row.deliver ws cmd receiptJson).isPending =
                    false := by
                  rw [OutboxRecord.deliver, if_pos ⟨hws, hkey, hpending⟩]
                  simp [OutboxRecord.isPending, hreceipt]
                refine Or.inr (Or.inr ⟨row, receiptJson, hrow, hreceipt, hdelivered, ?_⟩)
                have hshown' := hafter.shown_eq hnext
                have hfind' := impl.findOutbox _ ws cmd hafter.good
                rw [OutboxStore.row] at hnext
                simp only [Program.run_bind, Program.run_perform]
                generalize impl.store.handle
                  (.recordOutboxDelivery ws cmd receiptJson) s = recorded
                    at hanswer hnext hshown' hfind'
                obtain ⟨answer, s'⟩ := recorded
                cases hanswer
                simp only [hfind', hws, ↓reduceIte, hnext, Option.map_some, hshown',
                  hdelivered, Bool.false_eq_true, Program.run_done]

/-- Programs that do not write the outbox. -/
theorem run_quiet (h : impl.Matches ledger s) {α : Type} {p : StoreProgram α}
    (hp : p.Calls fun op => ¬op.IsOutboxWrite) :
    impl.Matches ledger (p.run impl.store.handle s).2 ∧
      impl.rows (p.run impl.store.handle s).2 = impl.rows s := by
  refine hp.run_preserves (P := fun s' => impl.Matches ledger s' ∧
    impl.rows s' = impl.rows s) ?_ ⟨h, rfl⟩
  rintro op s' hop ⟨hmatches, hsame⟩
  obtain ⟨hrows, hkeys⟩ := impl.keeps op s' hop
  exact ⟨hmatches.of_same (impl.good_handle op s' hmatches.good) hrows hkeys,
    hrows.trans hsame⟩

end OutboxStore.Matches

/-- The calls other than submissions, deliveries and replays do not write the
outbox. -/
theorem KernelCall.calls_quiet (k : KernelController) {c : KernelCall}
    (hsubmit : (SessionOp.call c).submitted = none)
    (hdeliver : ∀ ws cmd receiptJson, c ≠ .recordOutboxDelivery ws cmd receiptJson)
    (hreplay : ∀ ws cmd, c ≠ .replay ws cmd) :
    (c.program k).Calls fun op => ¬op.IsOutboxWrite := by
  have hask : ∀ op : StoreOp, ¬op.IsOutboxWrite →
      (ask op).Calls fun op => ¬op.IsOutboxWrite :=
    fun op hop => Program.calls_perform hop
  have hread : ∀ query, (KernelController.read query).Calls
      fun op => ¬op.IsOutboxWrite := by
    intro query
    exact Program.Calls.ite trivial ((hask _ id).bind fun _ => trivial)
  cases c <;> refine Program.Calls.bind ?_ fun _ => trivial
  case submit | submitWithLease => simp [SessionOp.submitted] at hsubmit
  case replay ws cmd => exact absurd rfl (hreplay ws cmd)
  case recordOutboxDelivery ws cmd receiptJson =>
      exact absurd rfl (hdeliver ws cmd receiptJson)
  case read query => exact hread query
  case acquireLease ws pl holder now ttl replace =>
      refine (hask _ id).bind fun current => Program.Calls.ite trivial ?_
      exact (hask _ id).bind fun _ => trivial
  case heartbeatLease ws pl holder generation now ttl =>
      refine (hask _ id).bind fun current => ?_
      cases current with
      | none => trivial
      | some lease =>
          exact Program.Calls.ite ((hask _ id).bind fun _ => trivial) trivial
  case cancel ws pl => exact Program.Calls.ite trivial (hask _ id)
  case cleanup now => exact hask _ id
  case rebuild query =>
      exact Program.Calls.ite trivial ((hask _ id).bind fun _ => hread query)
  case listEvents | listPendingOutbox | findOutbox | counts => exact hask _ id

section Runs

variable {σ : Type} {env : KernelEnv} {impl : OutboxStore σ}
  {ledger : OutboxLedger} {s : Session σ}

theorem OutboxStore.good_run (impl : OutboxStore σ) {α : Type}
    (p : StoreProgram α) {s : σ} (hgood : impl.Good s) :
    impl.Good (p.run impl.store.handle s).2 := by
  induction p generalizing s with
  | done value => exact hgood
  | raise error => exact hgood
  | call op next ih => exact ih _ (impl.good_handle op s hgood)

section Submitted

variable {op : SessionOp} {command : ControllerCommand}
  (hop : op.submitted = some command)

include hop

theorem markedBy_submitted (answer : Except PyError KernelAnswer) :
    OutboxLedger.markedBy (.session op, answer) = none := by
  cases op with
  | pause | resume | tripCommitFailure | tripReadFailure => cases hop
  | call c =>
      cases c <;> simp only [SessionOp.submitted, reduceCtorEq] at hop <;> rfl

theorem note_refused (codec : Codec) (ledger : OutboxLedger)
    {outcome : Except PyError CommandReceipt}
    (hstatus : ∀ receipt, outcome = .ok receipt → receipt.status ≠ .accepted) :
    ledger.note codec (.session op, outcome.map .receipt) = ledger := by
  have hnone : OutboxLedger.acceptedBy (.session op, outcome.map .receipt) =
      none := by
    cases outcome with
    | error error => rfl
    | ok receipt => exact if_neg (hstatus receipt rfl)
  simp only [OutboxLedger.note, hnone, markedBy_submitted hop]

theorem note_accepted (codec : Codec) (ledger : OutboxLedger)
    {receipt : CommandReceipt} (hstatus : receipt.status = .accepted) :
    ledger.note codec (.session op, .ok (.receipt receipt)) =
      ledger.accept codec command := by
  have hsome : OutboxLedger.acceptedBy (.session op, .ok (.receipt receipt)) =
      some command := by
    rw [OutboxLedger.acceptedBy, if_pos hstatus, hop]
  simp only [OutboxLedger.note, hsome]

/-- A submission adds the row of its first acceptance and nothing else. -/
theorem OutboxStore.Matches.submit (h : impl.Matches ledger s.store) :
    impl.Matches (ledger.note env.codec
        (.session op, (Session.step env impl.store s op).1))
        (Session.step env impl.store s op).2.store ∧
      RowsKept (impl.rows s.store)
        (impl.rows (Session.step env impl.store s op).2.store) := by
  obtain ⟨outcome, hanswer, heffect⟩ :=
    s.step_submitted env impl.store impl.laws hop
  have hgood : impl.Good (Session.step env impl.store s op).2.store := by
    cases op with
    | pause | resume | tripCommitFailure | tripReadFailure => cases hop
    | call c => exact impl.good_run _ h.good
  rw [hanswer]
  generalize (Session.step env impl.store s op).2.store = s' at heffect hgood
  cases heffect with
  | kept same status =>
      obtain ⟨hrows, hkeys⟩ := Prod.mk.inj same
      rw [note_refused hop env.codec ledger status, hrows]
      exact ⟨h.of_same hgood hrows hkeys, .refl _⟩
  | @replayed fingerprint row stored hash_eq found same parsed =>
      refine ⟨?_, .refl _⟩
      by_cases hstatus : stored.status = .accepted
      · -- The inbox answers a second acceptance, so the identity is known.
        have hknown : command.key ∈ impl.inboxKeys s.store := by
          by_contra habsent
          have hnone := (impl.findInbox _ _ _ _ found).mpr habsent
          cases hnone
        have hold := (h.accepted command.key).mp hknown
        rw [Except.map, note_accepted hop env.codec ledger hstatus,
          OutboxLedger.accept, if_pos hold]
        exact h
      · rw [note_refused hop env.codec ledger (by
          rintro receipt hreceipt
          cases hreceipt
          exact hstatus)]
        exact h
  | accepted a absent loaded commit =>
      have habsent : command.key ∉ impl.inboxKeys s.store :=
        (impl.findInbox _ _ _ _ absent).mp rfl
      rw [Except.map, note_accepted hop env.codec ledger rfl]
      exact h.commit a habsent commit

end Submitted

theorem note_other {codec : Codec} {op : SessionOp} (hsubmit : op.submitted = none)
    (hdeliver : ∀ ws cmd receiptJson,
      op ≠ .call (.recordOutboxDelivery ws cmd receiptJson))
    (hreplay : ∀ ws cmd, op ≠ .call (.replay ws cmd))
    (answer : Except PyError KernelAnswer) :
    ledger.note codec (.session op, answer) = ledger := by
  have haccepted : OutboxLedger.acceptedBy (.session op, answer) = none := by
    unfold OutboxLedger.acceptedBy
    split
    · next heq =>
        cases heq
        rw [hsubmit]
        split <;> rfl
    · rfl
  have hmarked : OutboxLedger.markedBy (.session op, answer) = none := by
    unfold OutboxLedger.markedBy
    split
    · next heq =>
        cases heq
        exact absurd rfl (hdeliver _ _ _)
    · next heq =>
        cases heq
        exact absurd rfl (hreplay _ _)
    · rfl
  simp only [OutboxLedger.note, haccepted, hmarked]

theorem OutboxStore.Matches.replay (h : impl.Matches ledger s.store)
    (htexts : ∀ value, env.codec.canonicalJson value ≠ some "") (ws cmd : String) :
    impl.Matches (ledger.note env.codec (.session (.call (.replay ws cmd)),
        (Session.step env impl.store s (.call (.replay ws cmd))).1))
        (Session.step env impl.store s (.call (.replay ws cmd))).2.store ∧
      RowsKept (impl.rows s.store) (impl.rows
        (Session.step env impl.store s (.call (.replay ws cmd))).2.store) := by
  simp only [Session.step, KernelCall.program, Program.run_bind_done]
  rcases h.run_replay (env.controller s.paused) htexts ws cmd with
    ⟨error, hrun⟩ | ⟨row, hrow, hdelivered, hrun⟩ | ⟨row, receiptJson, -, hreceipt, -, hrun⟩
  · rw [hrun]
    exact ⟨h, .refl _⟩
  · rw [hrun]
    have hsame : ledger.mark (ws, cmd) = ledger := h.mark_delivered hrow hdelivered
    refine ⟨?_, .refl _⟩
    change impl.Matches (ledger.mark (ws, cmd)) s.store
    rw [hsame]
    exact h
  · rw [hrun]
    refine ⟨h.deliver hreceipt, ?_⟩
    rw [(impl.deliver s.store ws cmd receiptJson h.good).2.1]
    exact OutboxRecord.rowsKept_deliver ws cmd receiptJson _

/-- Every input of a run keeps the ledger true and the stored rows. -/
theorem OutboxStore.Matches.step (h : impl.Matches ledger s.store)
    (htexts : ∀ value, env.codec.canonicalJson value ≠ some "")
    {input : StoreInput} (hdelivers : input.Delivers) :
    impl.Matches (ledger.note env.codec (input, (impl.step env s input).1))
        (impl.step env s input).2.store ∧
      RowsKept (impl.rows s.store) (impl.rows (impl.step env s input).2.store) := by
  cases input with
  | reopen =>
      obtain ⟨hrows, hkeys⟩ := impl.reopened s.store h.good
      refine ⟨h.of_same (impl.good_reopen _ h.good) hrows hkeys, ?_⟩
      change RowsKept _ (impl.rows (impl.reopen s.store))
      rw [hrows]
      exact .refl _
  | session op =>
      cases hop : op.submitted with
      | some command => exact h.submit hop
      | none =>
          cases op with
          | pause | resume => exact ⟨h, .refl _⟩
          | tripCommitFailure =>
              obtain ⟨hrows, hkeys, -, -⟩ := impl.trips s.store
              refine ⟨h.of_same (impl.good_trips _ h.good).1 hrows hkeys, ?_⟩
              change RowsKept _ (impl.rows (impl.store.tripCommitFailure s.store))
              rw [hrows]
              exact .refl _
          | tripReadFailure =>
              obtain ⟨-, -, hrows, hkeys⟩ := impl.trips s.store
              refine ⟨h.of_same (impl.good_trips _ h.good).2 hrows hkeys, ?_⟩
              change RowsKept _ (impl.rows (impl.store.tripReadFailure s.store))
              rw [hrows]
              exact .refl _
          | call c =>
              by_cases hreplay : ∃ ws cmd, c = .replay ws cmd
              · obtain ⟨ws, cmd, rfl⟩ := hreplay
                exact h.replay htexts ws cmd
              · by_cases hdeliver : ∃ ws cmd receiptJson,
                    c = .recordOutboxDelivery ws cmd receiptJson
                · obtain ⟨ws, cmd, receiptJson, rfl⟩ := hdeliver
                  obtain ⟨hanswer, hrows, -⟩ :=
                    impl.deliver s.store ws cmd receiptJson h.good
                  have hmatches : impl.Matches (ledger.mark (ws, cmd)) _ :=
                    h.deliver hdelivers
                  simp only [OutboxStore.step, Session.step, KernelCall.program,
                    Program.run_bind_done, ask, Program.run_perform, hanswer]
                  refine ⟨hmatches, ?_⟩
                  rw [hrows]
                  exact OutboxRecord.rowsKept_deliver ws cmd receiptJson _
                · obtain ⟨hmatches, hrows⟩ := h.run_quiet (KernelCall.calls_quiet
                    (env.controller s.paused) hop
                    (fun ws cmd receiptJson heq =>
                      hdeliver ⟨ws, cmd, receiptJson, heq⟩)
                    (fun ws cmd heq => hreplay ⟨ws, cmd, heq⟩))
                  have hnote : ledger.note env.codec (.session (.call c),
                      (impl.step env s (.session (.call c))).1) = ledger :=
                    note_other hop
                      (fun ws cmd receiptJson heq => hdeliver ⟨ws, cmd, receiptJson,
                        SessionOp.call.inj heq⟩)
                      (fun ws cmd heq => hreplay ⟨ws, cmd, SessionOp.call.inj heq⟩) _
                  rw [hnote]
                  refine ⟨hmatches, ?_⟩
                  change RowsKept _ (impl.rows ((c.program _).run _ _).2)
                  rw [hrows]
                  exact .refl _

/-- A run keeps the ledger of its trace true. -/
theorem OutboxStore.matches_after (env : KernelEnv) (impl : OutboxStore σ)
    (htexts : ∀ value, env.codec.canonicalJson value ≠ some "")
    (inputs : List StoreInput) (hdelivers : ∀ input ∈ inputs, input.Delivers) :
    impl.Matches (OutboxLedger.ofTrace env.codec
        (trace (impl.step env) (Session.init impl.store) inputs))
      (impl.after env inputs).store := by
  induction inputs using List.reverseRecOn with
  | nil => exact .init impl
  | append_singleton before input ih =>
      have hbefore := ih fun other hother =>
        hdelivers other (List.mem_append_left [input] hother)
      have hinput := hdelivers input (by simp)
      rw [OutboxStore.after, exec_concat, trace_concat, OutboxLedger.ofTrace,
        List.foldl_concat]
      exact (OutboxStore.Matches.step hbefore htexts hinput).1

/-- Later inputs keep the rows. -/
theorem OutboxStore.rowsKept_after (env : KernelEnv) (impl : OutboxStore σ)
    (htexts : ∀ value, env.codec.canonicalJson value ≠ some "")
    (before later : List StoreInput)
    (hdelivers : ∀ input ∈ before ++ later, input.Delivers) :
    RowsKept (impl.rows (impl.after env before).store)
      (impl.rows (impl.after env (before ++ later)).store) := by
  induction later using List.reverseRecOn with
  | nil =>
      rw [List.append_nil]
      exact .refl _
  | append_singleton rest input ih =>
      rw [← List.append_assoc] at hdelivers ⊢
      have hrest := fun other hother =>
        hdelivers other (List.mem_append_left [input] hother)
      have hmatches := impl.matches_after env htexts (before ++ rest) hrest
      have hinput := hdelivers input (by simp)
      refine (ih hrest).trans ?_
      have hlast : impl.after env (before ++ rest ++ [input]) =
          (impl.step env (impl.after env (before ++ rest)) input).2 :=
        exec_concat (impl.step env) _ _ _
      rw [hlast]
      exact (OutboxStore.Matches.step hmatches htexts hinput).2

end Runs

/-- The outbox of a store is written once, in every run from the empty store
whose direct deliveries hand over a receipt. -/
structure OutboxStore.WriteOnce {σ : Type} (env : KernelEnv)
    (impl : OutboxStore σ) : Prop where
  /-- Effect and payload of a row never change after its commit. -/
  content : ∀ (before later : List StoreInput) key row,
    (∀ input ∈ before ++ later, input.Delivers) →
    impl.row (impl.after env before).store key = some row →
    ∃ row', impl.row (impl.after env (before ++ later)).store key = some row' ∧
      row'.effectType = row.effectType ∧ row'.payloadJson = row.payloadJson
  /-- A receipt that is not empty never changes. -/
  receipt : ∀ (before later : List StoreInput) key row,
    (∀ input ∈ before ++ later, input.Delivers) →
    impl.row (impl.after env before).store key = some row →
    row.isPending = false →
    impl.row (impl.after env (before ++ later)).store key = some row
  /-- What one replay returned, every later replay returns. -/
  replays : ∀ (before later : List StoreInput) (ws cmd : String)
    (record : OutboxRecord),
    (∀ input ∈ before ++ .session (.call (.replay ws cmd)) :: later,
      input.Delivers) →
    impl.replayed env before ws cmd = .ok (.outbox record) →
    impl.replayed env (before ++ .session (.call (.replay ws cmd)) :: later)
      ws cmd = .ok (.outbox record)
  /-- The pending rows are those of the accepted `READY` verifications that
  were not marked, in the order of their commands. -/
  pending : ∀ (inputs : List StoreInput) (ws : String),
    (∀ input ∈ inputs, input.Delivers) →
    impl.listed env inputs ws = .ok (.outboxRows (sortByCommandId
      ((OutboxLedger.ofTrace env.codec (trace (impl.step env)
        (Session.init impl.store) inputs)).pending.filter fun row =>
          row.workspaceId = ws)))

section WriteOnce

variable {σ : Type} {env : KernelEnv} {impl : OutboxStore σ}

/-- A replay that returned has left the returned row with its receipt. -/
theorem OutboxStore.Matches.replayed_row {ledger : OutboxLedger}
    {s : Session σ} (h : impl.Matches ledger s.store)
    (htexts : ∀ value, env.codec.canonicalJson value ≠ some "") {ws cmd : String}
    {record : OutboxRecord} (hanswer : (impl.step env s
      (.session (.call (.replay ws cmd)))).1 = .ok (.outbox record)) :
    record.isPending = false ∧ impl.row (impl.step env s
      (.session (.call (.replay ws cmd)))).2.store (ws, cmd) = some record := by
  simp only [OutboxStore.step, Session.step, KernelCall.program,
    Program.run_bind_done] at hanswer ⊢
  rcases h.run_replay (env.controller s.paused) htexts ws cmd with
    ⟨error, hrun⟩ | ⟨row, hrow, hdelivered, hrun⟩ |
      ⟨row, receiptJson, hrow, -, hdelivered, hrun⟩
  · rw [hrun] at hanswer
    cases hanswer
  · rw [hrun] at hanswer ⊢
    cases hanswer
    exact ⟨hdelivered, hrow⟩
  · rw [hrun] at hanswer ⊢
    cases hanswer
    refine ⟨hdelivered, ?_⟩
    obtain ⟨-, hrows, -⟩ := impl.deliver s.store ws cmd receiptJson h.good
    rw [OutboxStore.row] at hrow ⊢
    rw [hrows, OutboxRecord.find?_deliver, hrow]
    rfl

/-- A row with its receipt is what a replay returns. -/
theorem OutboxStore.Matches.replay_of_row {ledger : OutboxLedger}
    {s : Session σ} (h : impl.Matches ledger s.store) {ws cmd : String}
    (hws : ws ≠ "") {record : OutboxRecord}
    (hrow : impl.row s.store (ws, cmd) = some record)
    (hdelivered : record.isPending = false) :
    (impl.step env s (.session (.call (.replay ws cmd)))).1 =
      .ok (.outbox record) := by
  have hshown := h.shown_eq hrow
  have hfind := impl.findOutbox s.store ws cmd h.good
  rw [OutboxStore.row] at hrow
  have hrun : ((env.controller s.paused).replay ws cmd).run impl.store.handle
      s.store = (.ok record, s.store) := by
    simp only [KernelController.replay, ask, Program.run_bind, Program.run_perform,
      hfind, hws, ↓reduceIte, hrow, Option.map_some, hshown, hdelivered,
      Bool.false_eq_true, Program.run_done]
  simp only [OutboxStore.step, Session.step, KernelCall.program,
    Program.run_bind_done, hrun]
  rfl

/-- The rows a store lists as pending, read off the stored rows. -/
theorem OutboxStore.Matches.listed_eq {ledger : OutboxLedger} {s : σ}
    (h : impl.Matches ledger s) (ws : String) :
    (if ws = "" then [] else (sortByCommandId ((impl.rows s).filter
        fun row => row.workspaceId = ws ∧ row.isPending)).map impl.shown) =
      sortByCommandId (((impl.rows s).filter OutboxRecord.isPending).filter
        fun row => row.workspaceId = ws) := by
  have hfilter : (impl.rows s).filter
      (fun row => decide (row.workspaceId = ws ∧ row.isPending = true)) =
      ((impl.rows s).filter OutboxRecord.isPending).filter
        fun row => decide (row.workspaceId = ws) := by
    rw [List.filter_filter]
    congr 1
    funext row
    rw [Bool.decide_and, Bool.decide_eq_true]
  rw [hfilter]
  split
  · next hws =>
      have hnone : ((impl.rows s).filter OutboxRecord.isPending).filter
          (fun row => decide (row.workspaceId = ws)) = [] := by
        rw [List.filter_eq_nil_iff]
        intro row hrow
        rw [decide_eq_true_eq, hws]
        exact h.named row (List.mem_filter.mp hrow).1
      rw [hnone]
      rfl
  · rw [List.map_congr_left (g := id), List.map_id]
    intro row hrow
    have hmem : row ∈ (impl.rows s).filter OutboxRecord.isPending := by
      have hsorted := (List.mem_insertionSort _).mp hrow
      exact (List.mem_filter.mp hsorted).1
    obtain ⟨hmem, hpending⟩ := List.mem_filter.mp hmem
    refine impl.shown_eq row ?_
    rw [(h.publishes row hmem hpending).2]
    simp

/-- The laws of a store make its outbox write-once. -/
theorem OutboxStore.writeOnce (env : KernelEnv) (impl : OutboxStore σ)
    (htexts : ∀ value, env.codec.canonicalJson value ≠ some "") :
    impl.WriteOnce env where
  content := by
    intro before later key row hdelivers hrow
    obtain ⟨row', hrow', heffect, hpayload, -⟩ :=
      impl.rowsKept_after env htexts before later hdelivers key row hrow
    exact ⟨row', hrow', heffect, hpayload⟩
  receipt := by
    intro before later key row hdelivers hrow hdelivered
    obtain ⟨row', hrow', -, -, hsame⟩ :=
      impl.rowsKept_after env htexts before later hdelivers key row hrow
    rw [hsame hdelivered] at hrow'
    exact hrow'
  replays := by
    intro before later ws cmd record hdelivers hanswer
    have hlist : before ++ .session (.call (.replay ws cmd)) :: later =
        (before ++ [.session (.call (.replay ws cmd))]) ++ later := by simp
    rw [hlist] at hdelivers ⊢
    have hmatches := impl.matches_after env htexts before fun input hinput =>
      hdelivers input (by simp [hinput])
    obtain ⟨hdelivered, hrow⟩ := hmatches.replayed_row htexts hanswer
    have hlast : impl.after env (before ++ [.session (.call (.replay ws cmd))]) =
        (impl.step env (impl.after env before)
          (.session (.call (.replay ws cmd)))).2 :=
      exec_concat (impl.step env) _ _ _
    rw [← hlast] at hrow
    obtain ⟨row', hrow', -, -, hsame⟩ :=
      impl.rowsKept_after env htexts _ later hdelivers (ws, cmd) record hrow
    rw [hsame hdelivered] at hrow'
    have hfinal := impl.matches_after env htexts _ hdelivers
    refine hfinal.replay_of_row ?_ hrow' hdelivered
    have hnamed := hfinal.named record (List.mem_of_find?_eq_some hrow')
    have hkey : record.key = (ws, cmd) := by simpa using List.find?_some hrow'
    have hown : record.workspaceId = ws := congrArg Prod.fst hkey
    exact hown ▸ hnamed
  pending := by
    intro inputs ws hdelivers
    have hmatches := impl.matches_after env htexts inputs hdelivers
    have hlisted : impl.listed env inputs ws = .ok (.outboxRows (if ws = "" then []
        else (sortByCommandId ((impl.rows (impl.after env inputs).store).filter
          fun row => row.workspaceId = ws ∧ row.isPending)).map impl.shown)) := by
      simp only [OutboxStore.listed, OutboxStore.step, Session.step,
        KernelCall.program, Program.run_bind_done, ask, Program.run_perform,
        impl.listPending]
      rfl
    rw [hlisted, ← hmatches.pending]
    congr 2
    exact hmatches.listed_eq ws

end WriteOnce

section Memory

/-- Every entry of the two dictionaries is stored under its own key. -/
def MemoryKernelStore.OwnKeys (s : MemoryKernelStore) : Prop :=
  (∀ entry ∈ s.outbox.rows, entry.1 = entry.2.key) ∧
    ∀ entry ∈ s.inbox.rows, entry.1 = entry.2.key

namespace MemoryKernelStore.OwnKeys

variable {codec : Codec} {s : MemoryKernelStore}

theorem keys_values (h : s.OwnKeys) :
    s.outbox.values.map OutboxRecord.key = s.outbox.rows.map Prod.fst := by
  rw [Dict.values, List.map_map]
  exact List.map_congr_left fun entry hentry => (h.1 entry hentry).symm

theorem commit (h : s.OwnKeys) (write : AcceptedWrite) :
    (s.commitAccepted write).2.OwnKeys := by
  unfold MemoryKernelStore.commitAccepted
  split
  · exact h
  · refine ⟨?_, ?_⟩
    · intro entry hentry
      rcases (Keyed.mem_upsert _ _ _).mp hentry with rfl | ⟨hold, -⟩
      · rfl
      · exact h.1 entry hold
    · intro entry hentry
      rcases (Keyed.mem_upsert _ _ _).mp hentry with rfl | ⟨hold, -⟩
      · rfl
      · exact h.2 entry hold

/-- The stored row of an identity is the one found among the values. -/
theorem find?_values (h : s.OwnKeys) (key : String × String) :
    s.outbox.get? key =
      s.outbox.values.find? fun row => decide (row.key = key) := by
  rw [Dict.get?, Keyed.find?, Dict.values, List.find?_map]
  congr 1
  apply List.find?_congr
  intro entry hentry
  simp only [Function.comp_apply, h.1 entry hentry]

theorem values_deliver (h : s.OwnKeys) (ws cmd receiptJson : String) :
    (s.recordOutboxDelivery ws cmd receiptJson).outbox.values =
        s.outbox.values.map (OutboxRecord.deliver ws cmd receiptJson) ∧
      (s.recordOutboxDelivery ws cmd receiptJson).OwnKeys := by
  have hsame : (∀ entry ∈ s.outbox.rows,
      entry.2.deliver ws cmd receiptJson = entry.2) → s.outbox.values =
        s.outbox.values.map (OutboxRecord.deliver ws cmd receiptJson) := by
    intro hall
    rw [Dict.values, List.map_map]
    exact List.map_congr_left fun entry hentry => (hall entry hentry).symm
  unfold MemoryKernelStore.recordOutboxDelivery
  split
  · next hws => exact ⟨hsame fun entry _ => by simp [OutboxRecord.deliver, hws], h⟩
  · next hws =>
      split
      · next hnone =>
          refine ⟨hsame ?_, h⟩
          intro entry hentry
          have hkey : entry.1 ≠ (ws, cmd) :=
            (Keyed.find?_eq_none_iff _ _).mp
              ((Dict.find?_eq_none_iff_get? _ _).mpr hnone) entry hentry
          rw [h.1 entry hentry] at hkey
          simp [OutboxRecord.deliver, hkey]
      · next existing hexisting =>
          have hstored := (Dict.mem_rows_iff _ _ _).mpr hexisting
          have hown : existing.key = (ws, cmd) := (h.1 _ hstored).symm
          have heq : ∀ entry ∈ s.outbox.rows, entry.1 = (ws, cmd) →
              entry.2 = existing := by
            intro entry hentry hkey
            have hsame := Keyed.eq_of_key_eq _ hentry hstored hkey
            rw [hsame]
          split
          · next hpending =>
              have hpresent : s.outbox.find? (ws, cmd) ≠ none := by
                rw [ne_eq, Dict.find?_eq_none_iff_get?, hexisting]
                simp
              refine ⟨?_, ?_, h.2⟩
              · simp only [Dict.values, Dict.set]
                rw [Keyed.upsert_rows_of_present hpresent, List.map_map,
                  List.map_map]
                apply List.map_congr_left
                intro entry hentry
                by_cases hkey : entry.1 = (ws, cmd)
                · simp [hkey, heq entry hentry hkey, OutboxRecord.deliver, hws,
                    hown, hpending]
                · have hother := hkey
                  rw [h.1 entry hentry] at hother
                  simp [hkey, OutboxRecord.deliver, hother]
              · intro entry hentry
                rcases (Keyed.mem_upsert _ _ _).mp hentry with rfl | ⟨hold, -⟩
                · exact hown.symm
                · exact h.1 entry hold
          · next hpending =>
              refine ⟨hsame ?_, h⟩
              intro entry hentry
              by_cases hkey : entry.1 = (ws, cmd)
              · simp [heq entry hentry hkey, OutboxRecord.deliver, hpending]
              · rw [h.1 entry hentry] at hkey
                simp [OutboxRecord.deliver, hkey]

theorem handle (h : s.OwnKeys) (op : StoreOp) :
    (MemoryKernelStore.handle codec op s).2.OwnKeys := by
  cases op with
  | findInbox | listEvents | listPendingOutbox | findOutbox | loadLease
  | counts => exact h
  | loadPipeline ws pl =>
      simp only [MemoryKernelStore.handle, loadPipeline]
      split
      · exact h
      · split <;> exact h
  | commitAccepted write => exact h.commit write
  | rebuildPipeline ws pl =>
      obtain ⟨pipelines, hrebuilt⟩ := s.rebuildPipeline_frame codec ws pl
      simp only [MemoryKernelStore.handle, hrebuilt]
      exact h
  | deletePipeline ws pl =>
      simp only [MemoryKernelStore.handle, deletePipeline]
      split <;> exact h
  | recordOutboxDelivery ws cmd receiptJson =>
      exact (h.values_deliver ws cmd receiptJson).2
  | saveLease record =>
      simp only [MemoryKernelStore.handle, saveLease]
      split <;> exact h
  | deleteLease ws pl =>
      simp only [MemoryKernelStore.handle, deleteLease]
      split <;> exact h
  | deleteExpiredLeases now => exact h

theorem reopen (h : s.OwnKeys) :
    s.reopen.outbox = s.outbox ∧ s.reopen.inbox = s.inbox := by
  have houtbox : s.outbox.values.map (fun row => (row.key, row)) =
      s.outbox.rows := by
    rw [Dict.values, List.map_map]
    conv_rhs => rw [← List.map_id s.outbox.rows]
    exact List.map_congr_left fun entry hentry =>
      Prod.ext (h.1 entry hentry).symm rfl
  have hinbox : s.inbox.values.map (fun row => (row.key, row)) =
      s.inbox.rows := by
    rw [Dict.values, List.map_map]
    conv_rhs => rw [← List.map_id s.inbox.rows]
    exact List.map_congr_left fun entry hentry =>
      Prod.ext (h.2 entry hentry).symm rfl
  simp only [MemoryKernelStore.reopen, houtbox, hinbox, Dict.update_empty_rows]
  exact ⟨trivial, trivial⟩

end MemoryKernelStore.OwnKeys

/-- The memory store through its outbox. -/
def memoryOutbox (codec : Codec) : OutboxStore MemoryKernelStore where
  store := memoryStore codec
  reopen := MemoryKernelStore.reopen
  rows := fun s => s.outbox.values
  inboxKeys := fun s => s.inbox.rows.map Prod.fst
  shown := id
  Good := MemoryKernelStore.OwnKeys
  good_init := by
    constructor <;> intro entry hentry <;> cases hentry
  good_handle := fun op _ hgood => hgood.handle op
  good_trips := fun _ hgood => ⟨hgood, hgood⟩
  good_reopen := by
    intro s hgood
    unfold MemoryKernelStore.OwnKeys
    rw [hgood.reopen.1, hgood.reopen.2]
    exact hgood
  rows_init := rfl
  inboxKeys_init := rfl
  laws := MemoryKernelStore.storeLaws.comp fun t =>
    (t.outbox.values, t.inbox.rows.map Prod.fst)
  keeps := by
    intro op s hop
    cases op with
    | commitAccepted | recordOutboxDelivery => exact absurd trivial hop
    | findInbox | listEvents | listPendingOutbox | findOutbox | loadLease
    | counts | deleteExpiredLeases => exact ⟨rfl, rfl⟩
    | loadPipeline ws pl =>
        simp only [memoryStore, MemoryKernelStore.handle,
          MemoryKernelStore.loadPipeline]
        split
        · exact ⟨rfl, rfl⟩
        · split <;> exact ⟨rfl, rfl⟩
    | rebuildPipeline ws pl =>
        obtain ⟨pipelines, hrebuilt⟩ := s.rebuildPipeline_frame codec ws pl
        simp only [memoryStore, MemoryKernelStore.handle, hrebuilt]
        exact ⟨trivial, trivial⟩
    | deletePipeline ws pl =>
        simp only [memoryStore, MemoryKernelStore.handle,
          MemoryKernelStore.deletePipeline]
        split <;> exact ⟨rfl, rfl⟩
    | saveLease record =>
        simp only [memoryStore, MemoryKernelStore.handle,
          MemoryKernelStore.saveLease]
        split <;> exact ⟨rfl, rfl⟩
    | deleteLease ws pl =>
        simp only [memoryStore, MemoryKernelStore.handle,
          MemoryKernelStore.deleteLease]
        split <;> exact ⟨rfl, rfl⟩
  trips := fun _ => ⟨rfl, rfl, rfl, rfl⟩
  reopened := by
    intro s hgood
    rw [hgood.reopen.1, hgood.reopen.2]
    exact ⟨rfl, rfl⟩
  shown_eq := fun _ _ => rfl
  findInbox := by
    intro s ws cmd found hfound
    cases hfound
    change s.inbox.get? (ws, cmd) = none ↔ _
    rw [← Dict.find?_eq_none_iff_get?, Keyed.find?_eq_none_iff]
    constructor
    · intro habsent hmem
      obtain ⟨entry, hentry, hkey⟩ := List.mem_map.mp hmem
      exact habsent entry hentry hkey
    · intro habsent entry hentry hkey
      exact habsent (List.mem_map.mpr ⟨entry, hentry, hkey⟩)
  commit := by
    intro s s' write hgood hcommit hinbox houtbox
    have htables := MemoryKernelStore.commitAccepted_ok hcommit
    have habsent : ∀ {V : Type} (d : Dict (String × String) V) (key : String × String),
        key ∉ d.rows.map Prod.fst → d.get? key = none := by
      intro V d key hkey
      rw [← Dict.find?_eq_none_iff_get?, Keyed.find?_eq_none_iff]
      intro entry hentry heq
      exact hkey (List.mem_map.mpr ⟨entry, hentry, heq⟩)
    rw [hgood.keys_values] at houtbox
    have hrows := congrArg (fun t : MemoryKernelStore => t.outbox.values) htables
    have hkeys := congrArg (fun t : MemoryKernelStore =>
      t.inbox.rows.map Prod.fst) htables
    constructor
    · refine hrows.trans ?_
      change (s.outbox.set _ _).values = _
      rw [Dict.values, Dict.set_rows_of_absent (habsent _ _ houtbox),
        List.map_append]
      rfl
    · refine hkeys.trans ?_
      change (s.inbox.set _ _).rows.map _ = _
      rw [Dict.set_rows_of_absent (habsent _ _ hinbox), List.map_append]
      rfl
  deliver := by
    intro s ws cmd receiptJson hgood
    refine ⟨rfl, (hgood.values_deliver ws cmd receiptJson).1, ?_⟩
    obtain ⟨outbox, hmarked, -⟩ :=
      s.recordOutboxDelivery_frame ws cmd receiptJson
    change (s.recordOutboxDelivery ws cmd receiptJson).inbox.rows.map _ = _
    rw [hmarked]
  findOutbox := by
    intro s ws cmd hgood
    rw [← hgood.find?_values, Option.map_id]
    rfl
  listPending := by
    intro s ws
    rw [List.map_id]
    rfl

end Memory

section Sqlite

theorem SqliteKernelStore.rows_deliver (s : SqliteKernelStore)
    (ws cmd receiptJson : String) :
    (s.recordOutboxDelivery ws cmd receiptJson).outbox.rows =
        s.outbox.rows.map (OutboxRecord.deliver ws cmd receiptJson) ∧
      (s.recordOutboxDelivery ws cmd receiptJson).inbox = s.inbox := by
  unfold SqliteKernelStore.recordOutboxDelivery
  split
  · next hws =>
      refine ⟨?_, rfl⟩
      conv_lhs => rw [← List.map_id s.outbox.rows]
      exact List.map_congr_left fun row _ => by simp [OutboxRecord.deliver, hws]
  · next hws =>
      refine ⟨List.map_congr_left fun row _ => ?_, rfl⟩
      simp [OutboxRecord.deliver, hws, OutboxRecord.key, and_assoc]

/-- The SQLite store through its outbox. -/
def sqliteOutbox (codec : Codec) : OutboxStore SqliteKernelStore where
  store := sqliteStore codec
  reopen := SqliteKernelStore.reopen
  rows := fun s => s.outbox.rows
  inboxKeys := fun s => s.inbox.rows.map InboxRecord.key
  shown := SqliteKernelStore.outboxFromRow
  Good := fun _ => True
  good_init := trivial
  good_handle := fun _ _ _ => trivial
  good_trips := fun _ _ => ⟨trivial, trivial⟩
  good_reopen := fun _ _ => trivial
  rows_init := rfl
  inboxKeys_init := rfl
  laws := by
    have hlaws : StoreLaws (SqliteKernelStore.handle codec) fun s =>
        (s.asMemory.tables.outbox.values,
          s.asMemory.tables.inbox.rows.map Prod.fst) :=
      SqliteKernelStore.storeLaws.comp fun t =>
        (t.outbox.values, t.inbox.rows.map Prod.fst)
    simp only [SqliteKernelStore.asMemory, MemoryKernelStore.tables,
      Keyed.values_toDict, Keyed.toDict_rows, List.map_map] at hlaws
    exact hlaws
  keeps := by
    intro op s hop
    cases op with
    | commitAccepted | recordOutboxDelivery => exact absurd trivial hop
    | findInbox | listEvents | listPendingOutbox | findOutbox | loadLease
    | counts => exact ⟨rfl, rfl⟩
    | loadPipeline ws pl =>
        simp only [sqliteStore, SqliteKernelStore.handle,
          SqliteKernelStore.loadPipeline]
        split
        · exact ⟨rfl, rfl⟩
        · split <;> exact ⟨rfl, rfl⟩
    | rebuildPipeline ws pl =>
        simp only [sqliteStore, SqliteKernelStore.handle,
          SqliteKernelStore.rebuildPipeline, SqliteKernelStore.deletePipeline]
        split
        · exact ⟨rfl, rfl⟩
        · split
          · exact ⟨rfl, rfl⟩
          · split <;> exact ⟨rfl, rfl⟩
    | deletePipeline ws pl =>
        simp only [sqliteStore, SqliteKernelStore.handle,
          SqliteKernelStore.deletePipeline]
        split <;> exact ⟨rfl, rfl⟩
    | saveLease record =>
        simp only [sqliteStore, SqliteKernelStore.handle,
          SqliteKernelStore.saveLease]
        split
        · exact ⟨rfl, rfl⟩
        · split <;> exact ⟨rfl, rfl⟩
    | deleteLease ws pl =>
        simp only [sqliteStore, SqliteKernelStore.handle,
          SqliteKernelStore.deleteLease]
        split <;> exact ⟨rfl, rfl⟩
    | deleteExpiredLeases now =>
        simp only [sqliteStore, SqliteKernelStore.handle,
          SqliteKernelStore.deleteExpiredLeases]
        split <;> exact ⟨rfl, rfl⟩
  trips := fun _ => ⟨rfl, rfl, rfl, rfl⟩
  reopened := fun _ _ => ⟨rfl, rfl⟩
  shown_eq := by
    intro row hreceipt
    obtain ⟨ws, cmd, effect, payload, receipt⟩ := row
    cases receipt with
    | none => rfl
    | some receiptJson =>
        have hne : receiptJson ≠ "" := fun heq => hreceipt (by rw [heq])
        simp [SqliteKernelStore.outboxFromRow, Option.filter, hne]
  findInbox := by
    intro s ws cmd found hfound
    cases hfound
    change s.inbox.find? (ws, cmd) = none ↔ _
    rw [Keyed.find?_eq_none_iff]
    constructor
    · intro habsent hmem
      obtain ⟨row, hrow, hkey⟩ := List.mem_map.mp hmem
      exact habsent row hrow hkey
    · intro habsent row hrow hkey
      exact habsent (List.mem_map.mpr ⟨row, hrow, hkey⟩)
  commit := by
    intro s s' write _ hcommit _ _
    obtain ⟨-, inbox, events, outbox, hinbox, -, houtbox, rfl⟩ :=
      SqliteKernelStore.commitAccepted_ok hcommit
    refine ⟨((Keyed.insert?_eq_some_iff _ _ _).mp houtbox).2, ?_⟩
    change inbox.rows.map _ = _
    rw [((Keyed.insert?_eq_some_iff _ _ _).mp hinbox).2, List.map_append]
    rfl
  deliver := by
    intro s ws cmd receiptJson _
    obtain ⟨hrows, hinbox⟩ := s.rows_deliver ws cmd receiptJson
    refine ⟨rfl, hrows, ?_⟩
    change (s.recordOutboxDelivery ws cmd receiptJson).inbox.rows.map _ = _
    rw [hinbox]
  findOutbox := fun _ _ _ _ => rfl
  listPending := fun _ _ => rfl

end Sqlite

/-- The outbox is write-once in both stores. -/
theorem session_outbox_write_once (env : KernelEnv)
    (htexts : ∀ value, env.codec.canonicalJson value ≠ some "") :
    (memoryOutbox env.codec).WriteOnce env ∧
      (sqliteOutbox env.codec).WriteOnce env :=
  ⟨(memoryOutbox env.codec).writeOnce env htexts,
    (sqliteOutbox env.codec).writeOnce env htexts⟩

theorem session_outbox_write_once_at_sample :
    (∀ value, ReferenceCodec.sampleCodec.canonicalJson value ≠ some "") ∧
      (memoryOutbox ReferenceCodec.sampleCodec).WriteOnce
          ⟨ReferenceCodec.sampleCodec, "2026-08-06T00:00:00Z"⟩ ∧
      (sqliteOutbox ReferenceCodec.sampleCodec).WriteOnce
          ⟨ReferenceCodec.sampleCodec, "2026-08-06T00:00:00Z"⟩ := by
  have htexts : ∀ value, ReferenceCodec.sampleCodec.canonicalJson value ≠ some "" :=
    ReferenceCodec.canonicalJson_ne_empty _
  exact ⟨htexts, session_outbox_write_once ⟨ReferenceCodec.sampleCodec,
    "2026-08-06T00:00:00Z"⟩ htexts⟩

end HermesPipeline
