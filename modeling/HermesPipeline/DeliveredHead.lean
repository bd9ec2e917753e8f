/-
The delivered head.  A verification that ends ready publishes the integration
candidate, and the outbox that is drained in the same operation may publish
another candidate for the same pipeline.  Which of the two the delivery record
shows is decided by the rows that wait in the outbox and by the pull request
that the record names once the remote repository has answered.
-/
import HermesPipeline.StationLog

namespace HermesPipeline

open Lib KernelController KernelBridge

/-- A record with what the remote repository answered. -/
def DeliveryRecord.merged (record remote : DeliveryRecord) : DeliveryRecord :=
  { record with
    ok := true
    branch := if remote.branch = "" then record.branch else remote.branch
    prNumber := if remote.prNumber = 0 then record.prNumber else remote.prNumber
    prUrl := remote.prUrl }

namespace KernelBridge

/-- What the drain of a row publishes, if it publishes. -/
def drainRequest (env : BridgeCodec) (item : OutboxRecord) : DeliveryRequest :=
  let payload := match env.codec.loads item.payloadJson with
    | some (.obj members) => members
    | _ => []
  ⟨payloadText env payload "candidate_sha" "",
    payloadText env payload "project_id" "prj_local",
    payloadText env payload "pipeline_id" ""⟩

/-- The record that the drain of a row finds. -/
def drainStored (env : BridgeCodec) (item : OutboxRecord) (bridge : Bridge) :
    Option DeliveryRecord :=
  if (drainRequest env item).pipelineId = "" then none
  else bridge.delivery.lookup (drainRequest env item).pipelineId

/-- The drain of the row publishes: it finds no pull request, and the row names
a candidate. -/
def Republishes (env : BridgeCodec) (item : OutboxRecord) (bridge : Bridge) :
    Prop :=
  item.effectType = "PUBLISH_PR" ∧
    (drainStored env item bridge).elim "" DeliveryRecord.prUrl = "" ∧
    (drainRequest env item).name ≠ ""

/-- The publications that a drain of the workspace looks at. -/
def toPublish (env : BridgeCodec) (ws : String) (store : SqliteKernelStore) :
    List DeliveryRequest :=
  ((store.listPendingOutbox ws).filter fun item =>
    item.effectType = "PUBLISH_PR").map (drainRequest env)

/-- The drain of a publication, with what it finds and what it publishes. -/
theorem drainItem_publication (env : BridgeCodec) {item : OutboxRecord}
    (heffect : item.effectType = "PUBLISH_PR") (ws : String) :
    drainItem env ws item =
      (perform .memory).bind fun bridge : Bridge =>
        if (drainStored env item bridge).elim "" DeliveryRecord.prUrl = "" ∧
            (drainRequest env item).name ≠ "" then
          (perform (.assign { bridge with delivery :=
            (bridge.delivery.publish (drainRequest env item)).2 })).bind fun _ =>
          (mirrorGithub (bridge.delivery.publish (drainRequest env item)).1
            (drainRequest env item)).bind fun mirrored =>
          saveDelivery.bind fun _ =>
            kernel (ask (.recordOutboxDelivery ws item.commandId
              (publishReceipt env (some mirrored))))
        else
          kernel (ask (.recordOutboxDelivery ws item.commandId
            (publishReceipt env (drainStored env item bridge)))) := by
  unfold drainItem
  rw [if_neg (by simpa using heffect)]
  rfl

end KernelBridge

namespace RootState

variable {env : RootEnv} {s s' : RootState} {pl : String}

/-- The mirror asks the remote repository once and keeps what it answered. -/
theorem run_mirrorGithub (record : DeliveryRecord) (request : DeliveryRequest)
    (s : RootState) :
    (mirrorGithub record request).run (handleBridge env) s =
      match env.publishes s.effects with
      | .error error => (.error error, s.ticked)
      | .ok none => (.ok record, s.ticked)
      | .ok (some remote) =>
          if remote.ok then
            (.ok (record.merged remote), { s.ticked with
              bridge := { s.bridge with
                delivery := s.bridge.delivery.remember
                  (FakeDelivery.pipelineKey request) (record.merged remote) } })
          else (.ok record, s.ticked) := by
  simp only [mirrorGithub, perform, Program.perform, Program.bind_eq,
    Program.call_bind, Program.run_call, handleBridge]
  rcases env.publishes s.effects with error | _ | remote
  · rfl
  · rfl
  · by_cases hok : remote.ok = true
    · simp only [Program.ofExcept, Program.done_bind, hok, ↓reduceIte]
      rfl
    · simp only [Program.ofExcept, Program.done_bind, hok]
      rfl

/-- The mirror touches the record of its own key only, and keeps its head. -/
theorem lookup_mirrorGithub (env : RootEnv) (record : DeliveryRecord)
    (request : DeliveryRequest) (s : RootState) (p : String) :
    let s' := ((mirrorGithub record request).run (handleBridge env) s).2
    s'.bridge.delivery.lookup p = s.bridge.delivery.lookup p ∨
      p = FakeDelivery.pipelineKey request ∧
        ∃ merged, s'.bridge.delivery.lookup p = some merged ∧
          merged.headSha = record.headSha := by
  intro s'
  have hs' : s' = ((mirrorGithub record request).run (handleBridge env) s).2 := rfl
  rw [run_mirrorGithub] at hs'
  rcases hanswer : env.publishes s.effects with error | _ | remote
  · rw [hs', hanswer]
    exact .inl rfl
  · rw [hs', hanswer]
    exact .inl rfl
  · by_cases hok : remote.ok = true
    · simp only [hanswer, hok, ↓reduceIte] at hs'
      by_cases hp : p = FakeDelivery.pipelineKey request
      · refine .inr ⟨hp, record.merged remote, ?_, rfl⟩
        rw [hs', hp]
        exact Dict.get?_set_self _ _ _
      · left
        rw [hs']
        exact Dict.get?_set_of_ne _ _ hp
    · simp only [hanswer, hok] at hs'
      rw [hs']
      exact .inl rfl

/-- A step after which the deliveries are the same. -/
def SameDelivery (s s' : RootState) : Prop :=
  s'.bridge.delivery = s.bridge.delivery

theorem SameDelivery.trans {s s₁ s' : RootState} (first : SameDelivery s s₁)
    (second : SameDelivery s₁ s') : SameDelivery s s' :=
  Eq.trans second first

theorem moves_kernel_delivery {α : Type} (p : StoreProgram α) :
    (kernel p).Moves (handleBridge env) SameDelivery := by
  intro s
  obtain ⟨k, hrun⟩ := run_kernel env p s
  rw [hrun]
  rfl

theorem moves_write_delivery (file : String) :
    (perform (.write file)).Moves (handleBridge env) SameDelivery := by
  refine Program.moves_perform fun s => ?_
  simp only [handleBridge]
  split <;> rfl

/-- The record of a pipeline after the drain of a row that publishes. -/
theorem lookup_drainItem_publishes (ws : String) {item : OutboxRecord}
    (hpublishes : Republishes env.toBridgeCodec item s.bridge) (p : String) :
    let s' := ((drainItem env.toBridgeCodec ws item).run (handleBridge env) s).2
    let request := drainRequest env.toBridgeCodec item
    if p = FakeDelivery.pipelineKey request then
      ∃ record, s'.bridge.delivery.lookup p = some record ∧
        record.headSha = request.name
    else s'.bridge.delivery.lookup p = s.bridge.delivery.lookup p := by
  intro s' request
  -- the publication, the mirror, and what leaves the deliveries alone
  let s₁ : RootState := { s with bridge := { s.bridge with
    delivery := (s.bridge.delivery.publish request).2 } }
  have hafter : SameDelivery ((mirrorGithub (s.bridge.delivery.publish request).1
      request).run (handleBridge env) s₁).2 s' := by
    change SameDelivery _ (Program.run (handleBridge env) (drainItem
      env.toBridgeCodec ws item) s).2
    rw [drainItem_publication _ hpublishes.1, run_memory_bind,
      if_pos hpublishes.2, run_assign_bind]
    refine Program.Moves.following (R := SameDelivery) (fun _ => rfl) ?_ s₁
    intro mirrored
    have hwrite : saveDelivery.Moves (handleBridge env) SameDelivery :=
      moves_write_delivery _
    exact Program.Moves.bind (R := SameDelivery) SameDelivery.trans hwrite
      fun _ => moves_kernel_delivery _
  have hpublished := FakeDelivery.lookup_publish s.bridge.delivery request p
  have hhead := (FakeDelivery.publish_record s.bridge.delivery request).1
  rw [hafter]
  rcases lookup_mirrorGithub env (s.bridge.delivery.publish request).1
      request s₁ p with hsame | ⟨hp, merged, hmerged, hmergedHead⟩
  · rw [hsame]
    split
    · next hp =>
        rw [if_pos hp] at hpublished
        exact ⟨_, hpublished, hhead⟩
    · next hp =>
        rw [if_neg hp] at hpublished
        exact hpublished
  · rw [if_pos hp]
    exact ⟨merged, hmerged, hmergedHead.trans hhead⟩

/-- The drain of any other row leaves the deliveries alone. -/
theorem drainItem_rests (ws : String) {item : OutboxRecord}
    (hrests : ¬ Republishes env.toBridgeCodec item s.bridge) :
    SameDelivery s
      ((drainItem env.toBridgeCodec ws item).run (handleBridge env) s).2 := by
  by_cases heffect : item.effectType = "PUBLISH_PR"
  · rw [drainItem_publication _ heffect, run_memory_bind,
      if_neg fun hpublishes => hrests ⟨heffect, hpublishes⟩]
    exact moves_kernel_delivery _ s
  · unfold drainItem
    rw [if_pos heffect]
    exact moves_kernel_delivery _ s

/-- The head that a delivery record shows. -/
def shownHead (pl : String) (s : RootState) : Option String :=
  (s.bridge.delivery.lookup pl).map DeliveryRecord.headSha

/-- The pull request that a delivery record names. -/
def shownLink (pl : String) (s : RootState) : String :=
  (s.bridge.delivery.lookup pl).elim "" DeliveryRecord.prUrl

section Drain

variable {head : String} {ws : String} {item : OutboxRecord}
  {items : List OutboxRecord}

/-- A row that names its pipeline publishes for that pipeline or rests. -/
theorem lookup_drainItem (ws : String) (hnamed : item.effectType = "PUBLISH_PR" →
      (drainRequest env.toBridgeCodec item).pipelineId ≠ "") (pl : String)
    (s : RootState) :
    let s' := ((drainItem env.toBridgeCodec ws item).run (handleBridge env) s).2
    let request := drainRequest env.toBridgeCodec item
    if item.effectType = "PUBLISH_PR" ∧ request.pipelineId = pl ∧
        request.name ≠ "" ∧ shownLink pl s = "" then
      shownHead pl s' = some request.name
    else s'.bridge.delivery.lookup pl = s.bridge.delivery.lookup pl := by
  intro s' request
  have hstored : item.effectType = "PUBLISH_PR" → request.pipelineId = pl →
      (drainStored env.toBridgeCodec item s.bridge).elim ""
        DeliveryRecord.prUrl = shownLink pl s := by
    rintro heffect rfl
    rw [drainStored, if_neg (hnamed heffect), shownLink]
  by_cases hrepublishes : Republishes env.toBridgeCodec item s.bridge
  · have hlookup := lookup_drainItem_publishes ws hrepublishes pl
    have hkey : FakeDelivery.pipelineKey request = request.pipelineId :=
      if_neg (hnamed hrepublishes.1)
    simp only [show drainRequest env.toBridgeCodec item = request from rfl,
      hkey] at hlookup
    obtain ⟨heffect, hlink, hname⟩ := hrepublishes
    by_cases hpl : request.pipelineId = pl
    · rw [if_pos hpl.symm] at hlookup
      obtain ⟨record, hrecord, hhead⟩ := hlookup
      rw [if_pos ⟨heffect, hpl, hname, (hstored heffect hpl).symm.trans hlink⟩,
        shownHead, hrecord, Option.map_some, hhead]
    · rw [if_neg fun heq => hpl heq.symm] at hlookup
      rw [if_neg fun hall => hpl hall.2.1]
      exact hlookup
  · rw [if_neg]
    · rw [drainItem_rests ws hrepublishes]
    · rintro ⟨heffect, hpl, hname, hlink⟩
      exact hrepublishes ⟨heffect, (hstored heffect hpl).trans hlink, hname⟩

/-- What the drain of every row keeps, the drain keeps. -/
theorem drainItems_keeps {P : RootState → Prop}
    (hkeeps : ∀ item ∈ items, ∀ s, P s →
      P ((drainItem env.toBridgeCodec ws item).run (handleBridge env) s).2)
    (hs : P s) :
    P ((drainItems env.toBridgeCodec ws items).run (handleBridge env) s).2 := by
  induction items generalizing s with
  | nil => exact hs
  | cons item rest ih =>
      have hfirst := hkeeps item List.mem_cons_self s hs
      rw [drainItems]
      rcases hrun : (drainItem env.toBridgeCodec ws item).run (handleBridge env) s
        with ⟨error | value, s₁⟩
      · rw [Program.run_bind_of_error hrun]
        rw [hrun] at hfirst
        exact hfirst
      · rw [Program.run_bind_of_ok hrun]
        rw [hrun] at hfirst
        exact ih (fun item hitem => hkeeps item (List.mem_cons_of_mem _ hitem))
          hfirst

variable (hnamed : ∀ item ∈ items, item.effectType = "PUBLISH_PR" →
  (drainRequest env.toBridgeCodec item).pipelineId ≠ "")

include hnamed

/-- A record that names a pull request is not drained over. -/
theorem drainItems_linked (ws : String) (hlink : shownLink pl s ≠ "")
    (hhead : shownHead pl s = some head) :
    shownHead pl ((drainItems env.toBridgeCodec ws items).run
      (handleBridge env) s).2 = some head := by
  refine (drainItems_keeps (P := fun s => shownLink pl s ≠ "" ∧
    shownHead pl s = some head) ?_ ⟨hlink, hhead⟩).2
  rintro item hitem s ⟨hlink, hhead⟩
  have hlookup := lookup_drainItem ws (hnamed item hitem) pl s
  simp only [hlink, and_false, if_false] at hlookup
  simp only [shownLink, shownHead, hlookup] at hlink hhead ⊢
  exact ⟨hlink, hhead⟩

/-- Rows that name no other candidate keep the head. -/
theorem drainItems_agreeing (ws : String)
    (hagree : ∀ item ∈ items, item.effectType = "PUBLISH_PR" →
      (drainRequest env.toBridgeCodec item).pipelineId = pl →
      (drainRequest env.toBridgeCodec item).name ≠ "" →
      (drainRequest env.toBridgeCodec item).name = head)
    (hhead : shownHead pl s = some head) :
    shownHead pl ((drainItems env.toBridgeCodec ws items).run
      (handleBridge env) s).2 = some head := by
  refine drainItems_keeps (P := fun s => shownHead pl s = some head) ?_ hhead
  intro item hitem s hhead
  have hlookup := lookup_drainItem ws (hnamed item hitem) pl s
  dsimp only at hlookup
  split at hlookup
  · next hall => rw [hlookup, hagree item hitem hall.1 hall.2.1 hall.2.2.1]
  · rw [shownHead, hlookup]
    exact hhead

variable (hother : ∀ item ∈ items, item.effectType = "PUBLISH_PR" →
  (drainRequest env.toBridgeCodec item).pipelineId = pl →
  (drainRequest env.toBridgeCodec item).name ≠ head)

include hother

/-- Rows that name other candidates do not bring the head back. -/
theorem drainItems_lost (ws : String) (hlost : shownHead pl s ≠ some head) :
    shownHead pl ((drainItems env.toBridgeCodec ws items).run
      (handleBridge env) s).2 ≠ some head := by
  refine drainItems_keeps (P := fun s => shownHead pl s ≠ some head) ?_ hlost
  intro item hitem s hlost
  have hlookup := lookup_drainItem ws (hnamed item hitem) pl s
  dsimp only at hlookup
  split at hlookup
  · next hall =>
      rw [hlookup]
      intro heq
      exact hother item hitem hall.1 hall.2.1 (Option.some.inj heq)
  · rw [shownHead, hlookup]
    exact hlost

/-- A row with another candidate takes a record without a pull request over. -/
theorem drainItems_overwrites {value : Unit}
    (hrun : (drainItems env.toBridgeCodec ws items).run (handleBridge env) s =
      (.ok value, s')) (hlink : shownLink pl s = "")
    (hitem : item ∈ items) (heffect : item.effectType = "PUBLISH_PR")
    (hpl : (drainRequest env.toBridgeCodec item).pipelineId = pl)
    (hname : (drainRequest env.toBridgeCodec item).name ≠ "") :
    shownHead pl s' ≠ some head := by
  induction items generalizing s with
  | nil => cases hitem
  | cons first rest ih =>
      have hnamedRest : ∀ item ∈ rest, item.effectType = "PUBLISH_PR" →
          (drainRequest env.toBridgeCodec item).pipelineId ≠ "" :=
        fun item hitem => hnamed item (List.mem_cons_of_mem _ hitem)
      have hotherRest : ∀ item ∈ rest, item.effectType = "PUBLISH_PR" →
          (drainRequest env.toBridgeCodec item).pipelineId = pl →
          (drainRequest env.toBridgeCodec item).name ≠ head :=
        fun item hitem => hother item (List.mem_cons_of_mem _ hitem)
      rw [drainItems] at hrun
      obtain ⟨_, s₁, hfirst, hrest⟩ := Program.run_bind_eq_ok hrun
      have hlookup := lookup_drainItem ws
        (hnamed first List.mem_cons_self) pl s
      dsimp only at hlookup
      rw [hfirst] at hlookup
      split at hlookup
      · next hall =>
          have hlost : shownHead pl s₁ ≠ some head := by
            rw [hlookup]
            intro heq
            exact hother first List.mem_cons_self hall.1 hall.2.1
              (Option.some.inj heq)
          have hkept := drainItems_lost hnamedRest hotherRest ws hlost
          rw [hrest] at hkept
          exact hkept
      · next hskipped =>
          rcases List.mem_cons.mp hitem with rfl | hlater
          · exact absurd ⟨heffect, hpl, hname, hlink⟩ hskipped
          · refine ih hnamedRest hotherRest hrest ?_ hlater
            rw [shownLink, hlookup]
            exact hlink

end Drain

section Publications

variable {ws prj sha : String} {station : Station} {fields : Dict String String}

theorem mem_listPendingOutbox {store : SqliteKernelStore} {item : OutboxRecord} :
    item ∈ store.listPendingOutbox ws ↔ ws ≠ "" ∧ ∃ row ∈ store.outbox.rows,
      row.workspaceId = ws ∧ row.isPending ∧
        SqliteKernelStore.outboxFromRow row = item := by
  unfold SqliteKernelStore.listPendingOutbox
  split
  · next hws => simp [hws]
  · next hws => simp [hws, sortByCommandId, List.mem_insertionSort, and_assoc]

theorem mem_toPublish {store : SqliteKernelStore} {request : DeliveryRequest} :
    request ∈ toPublish env.toBridgeCodec ws store ↔ ws ≠ "" ∧
      ∃ row ∈ store.outbox.rows, row.workspaceId = ws ∧ row.isPending ∧
        row.effectType = "PUBLISH_PR" ∧
        drainRequest env.toBridgeCodec row = request := by
  simp only [toPublish, List.mem_map, List.mem_filter, mem_listPendingOutbox,
    decide_eq_true_eq]
  constructor
  · rintro ⟨item, ⟨⟨hws, row, hrow, hin, hpending, rfl⟩, heffect⟩, hrequest⟩
    exact ⟨hws, row, hrow, hin, hpending, heffect, hrequest⟩
  · rintro ⟨hws, row, hrow, hin, hpending, heffect, hrequest⟩
    exact ⟨_, ⟨⟨hws, row, hrow, hin, hpending, rfl⟩, heffect⟩, hrequest⟩

/-- The outbox row of a ready verification waits for the publication of its
candidate. -/
theorem drainRequest_recorded (hloads : env.codec.LoadsFields)
    {row : OutboxRecord} {verified : Dict String String}
    (hready : verified.get? "verify_status" = some "READY")
    (hrow : RecordsOutbox env.codec ws .verify
      (verifyRecord verified pl prj sha) row) :
    row.isPending = true ∧ row.effectType = "PUBLISH_PR" ∧
      drainRequest env.toBridgeCodec row = ⟨sha, prj, pl⟩ := by
  have hfields : ∀ name, name ≠ "station" →
      (DomainEvent.stationRecorded .verify
        (verifyRecord verified pl prj sha)).payload.get? name =
          (verifyRecord verified pl prj sha).get? name := by
    intro name hname
    rw [DomainEvent.payload, Dict.get?_update_rows,
      Dict.get?_set_of_ne _ _ hname, Dict.get?_empty, Option.or_none]
  have hstatus : (verifyRecord verified pl prj sha).get? "verify_status" =
      some "READY" := by
    simp [verifyRecord, Dict.update, Dict.get?_set_of_ne, hready]
  have hpublishes : (DomainEvent.stationRecorded .verify
      (verifyRecord verified pl prj sha)).publishes = true := by
    simp [DomainEvent.publishes, hstatus]
  obtain ⟨members, hparsed, -, hmembers⟩ := hloads _ _ hrow.payload
  refine ⟨?_, ?_, ?_⟩
  · rw [OutboxRecord.isPending, hrow.receipt, if_pos hpublishes]
    rfl
  · rw [hrow.effect, DomainEvent.effectType, if_pos hpublishes]
  · have hcandidate := hmembers "candidate_sha"
    have hproject := hmembers "project_id"
    have hpipeline := hmembers "pipeline_id"
    rw [hfields _ (by decide)] at hcandidate hproject hpipeline
    simp only [verifyRecord, Dict.update, List.foldl_cons, List.foldl_nil,
      Dict.get?_set_self, ne_eq, String.reduceEq, not_false_eq_true,
      Dict.get?_set_of_ne, Option.map_some] at hcandidate hproject hpipeline
    simp only [drainRequest, hparsed, payloadText, hcandidate, hproject,
      hpipeline, Option.getD_some]
    rfl

/-- The publications that wait once a ready verification has been recorded:
those of the outbox, and its own if the record goes through. -/
def Publication (env : BridgeCodec) (ws prj pl sha : String)
    (store : SqliteKernelStore) (request : DeliveryRequest) : Prop :=
  request ∈ toPublish env ws store ∨
    Recordable ws prj pl .verify store ∧ request = ⟨sha, prj, pl⟩

/-- A verification is recorded exactly when the record can go through. -/
theorem Recorded.store_iff (hcodec : env.codec.Serializes)
    {outcome : Except BridgeError Unit}
    (hrecorded : Recorded env ws prj pl station fields s outcome s') :
    s'.store ≠ s.store ↔ Recordable ws prj pl station s.store := by
  constructor
  · intro hnew
    rcases hrecorded.store with hsame | happends
    · exact absurd hsame hnew
    · obtain ⟨event, -, hgrows⟩ := happends.grows
      exact ⟨happends.can hcodec, vacant_of_grows hgrows⟩
  · rintro ⟨hcan, hvacant⟩ hsame
    obtain ⟨-, happends⟩ := hrecorded.settled hcodec hcan
      (hrecorded.quiet hcodec hcan hvacant)
    obtain ⟨event, -, hgrows⟩ := happends.grows
    have hlength := congrArg List.length hgrows.events
    rw [hsame, List.length_append, List.length_singleton] at hlength
    omega

/-- The outbox after the record of a ready verification. -/
theorem mem_toPublish_recorded (hcodec : env.codec.Serializes)
    (hloads : env.codec.LoadsFields) {verified : Dict String String}
    (hready : verified.get? "verify_status" = some "READY")
    {outcome : Except BridgeError Unit}
    (hrecorded : Recorded env ws prj pl .verify (verifyRecord verified pl prj sha)
      s outcome s') (request : DeliveryRequest) :
    request ∈ toPublish env.toBridgeCodec ws s'.store ↔
      Publication env.toBridgeCodec ws prj pl sha s.store request := by
  have hiff := hrecorded.store_iff hcodec
  rw [Publication, ← hiff]
  rcases hrecorded.outbox with hsame | ⟨row, hrow, hrows⟩
  · simp [hsame]
  · obtain ⟨hpending, heffect, hrequest⟩ :=
      drainRequest_recorded hloads hready hrow
    have hnew : s'.store ≠ s.store := by
      intro hsame
      rw [hsame] at hrows
      simp at hrows
    have hws : ws ≠ "" := (hiff.mp hnew).1.workspace
    rw [mem_toPublish, mem_toPublish, hrows]
    simp only [List.mem_append, List.mem_singleton]
    constructor
    · rintro ⟨-, stored, hold | rfl, hin, hwaits, hpublish, rfl⟩
      · exact .inl ⟨hws, stored, hold, hin, hwaits, hpublish, rfl⟩
      · exact .inr ⟨hnew, hrequest⟩
    · rintro (⟨-, stored, hold, hin, hwaits, hpublish, rfl⟩ | ⟨-, rfl⟩)
      · exact ⟨hws, stored, .inl hold, hin, hwaits, hpublish, rfl⟩
      · exact ⟨hws, row, .inr rfl, hrow.workspace, hpending, heffect, hrequest⟩

end Publications

/-- A step after which the deliveries, the verifications and the store are the
same. -/
structure Aside (s s' : RootState) : Prop where
  delivery : s'.bridge.delivery = s.bridge.delivery
  verify : s'.bridge.verify = s.bridge.verify
  store : s'.store = s.store

theorem Aside.refl (s : RootState) : Aside s s := ⟨rfl, rfl, rfl⟩

theorem Aside.trans {s s₁ s' : RootState} (first : Aside s s₁)
    (second : Aside s₁ s') : Aside s s' where
  delivery := second.delivery.trans first.delivery
  verify := second.verify.trans first.verify
  store := second.store.trans first.store

theorem aside_write (file : String) :
    (perform (.write file)).Moves (handleBridge env) Aside := by
  refine Program.moves_perform fun s => ?_
  simp only [handleBridge]
  split <;> exact ⟨rfl, rfl, rfl⟩

theorem aside_saveVerify : saveVerify.Moves (handleBridge env) Aside := by
  have hfile : (perform (.write "verify.json")).Moves (handleBridge env) Aside :=
    aside_write _
  exact Program.Moves.bind (R := Aside) Aside.trans hfile
    fun _ => aside_write "stages.json"

theorem aside_verifyFeedback (pl : String) (result : VerifyResult) :
    (verifyFeedback pl result).Moves (handleBridge env) Aside := by
  have hset : ∀ note, (setFeedback pl note).Moves (handleBridge env) Aside := by
    intro note
    unfold setFeedback
    split
    · exact Aside.refl
    · intro s
      simp only [Program.bind_eq, run_modify_bind]
      refine Aside.trans ?_ (aside_write "feedback.json" _)
      exact ⟨rfl, rfl, rfl⟩
  have hclear : (clearFeedback pl).Moves (handleBridge env) Aside := by
    intro s
    simp only [clearFeedback, Program.bind_eq]
    rw [run_memory_bind]
    split
    · exact Aside.refl s
    · rw [run_assign_bind]
      refine Aside.trans ?_ (aside_write "feedback.json" _)
      exact ⟨rfl, rfl, rfl⟩
  exact .ite (hset _) (.ite hclear Aside.refl)

/-- The pull request that the record names once the remote repository has
answered the mirror. -/
def mirroredLink (env : RootEnv) (pl : String) (s : RootState) : String :=
  match env.publishes s.effects with
  | .ok (some remote) => if remote.ok then remote.prUrl else shownLink pl s
  | _ => shownLink pl s

/-- Every publication that waits names its pipeline, and none of them takes the
record of this pipeline over: the record names a pull request after the mirror,
or no publication for the pipeline names another candidate. -/
structure KeepsHead (env : RootEnv) (ws prj pl sha : String) (s : RootState) :
    Prop where
  pipeline : pl ≠ ""
  named : ∀ request ∈ toPublish env.toBridgeCodec ws s.store,
    request.pipelineId ≠ ""
  linked : mirroredLink env pl s ≠ "" ∨ ∀ request,
    Publication env.toBridgeCodec ws prj pl sha s.store request →
      request.pipelineId = pl → request.name ≠ "" →
      request.name = integrationSha env.toBridgeCodec sha

/-- No candidate that waits has the name of the integration candidate. -/
structure Unlike (env : RootEnv) (ws prj pl sha : String) (s : RootState) :
    Prop where
  pipeline : pl ≠ ""
  named : ∀ request ∈ toPublish env.toBridgeCodec ws s.store,
    request.pipelineId ≠ ""
  distinct : ∀ request,
    Publication env.toBridgeCodec ws prj pl sha s.store request →
      request.pipelineId = pl →
      request.name ≠ integrationSha env.toBridgeCodec sha

section Verified

variable {ws prj sha : String} {result : VerifyResult}

/-- The ready candidate is published and then mirrored. -/
theorem run_publishReady_mirror (hready : result.status = .ready)
    (hpl : pl ≠ "") {value : Unit}
    (hrun : ((publishReady env.toBridgeCodec pl prj sha result).bind fun _ =>
      mirrorStored pl prj sha).run (handleBridge env) s = (.ok value, s')) :
    shownHead pl s' = some (integrationSha env.toBridgeCodec sha) ∧
      shownLink pl s' = mirroredLink env pl s ∧
      s'.bridge.verify = s.bridge.verify ∧ s'.store = s.store := by
  let request : DeliveryRequest :=
    ⟨integrationSha env.toBridgeCodec sha, prj, pl⟩
  have hkey : FakeDelivery.pipelineKey request = pl := if_neg hpl
  have hmirrorKey : FakeDelivery.pipelineKey ⟨sha, prj, pl⟩ = pl := if_neg hpl
  have hpublished := FakeDelivery.lookup_publish s.bridge.delivery request pl
  obtain ⟨hhead, hlink⟩ := FakeDelivery.publish_record s.bridge.delivery request
  rw [hkey, if_pos rfl] at hpublished
  rw [hkey] at hlink
  rw [publishReady, if_pos hready, run_modify_bind] at hrun
  simp only [mirrorStored, Program.bind_eq] at hrun
  rw [run_memory_bind] at hrun
  simp only [show FakeDelivery.lookup (s.bridge.delivery.publish
    ⟨integrationSha env.toBridgeCodec sha, prj, pl⟩).2 pl = _ from hpublished,
    Program.run_bind_done, run_mirrorGithub] at hrun
  rcases hanswer : env.publishes s.effects with error | _ | remote
  · simp only [hanswer] at hrun
    cases (Prod.mk.inj hrun).1
  · have hmirrored : mirroredLink env pl s = shownLink pl s := by
      simp only [mirroredLink, hanswer]
    simp only [hanswer] at hrun
    obtain ⟨-, rfl⟩ := Prod.mk.inj hrun
    refine ⟨?_, ?_, rfl, rfl⟩
    · exact (congrArg (Option.map DeliveryRecord.headSha) hpublished).trans
        (congrArg some hhead)
    · rw [hmirrored]
      exact (congrArg (fun stored : Option DeliveryRecord =>
        stored.elim "" DeliveryRecord.prUrl) hpublished).trans hlink
  · by_cases hok : remote.ok = true
    · have hmirrored : mirroredLink env pl s = remote.prUrl := by
        simp only [mirroredLink, hanswer, hok, ↓reduceIte]
      simp only [hanswer, hok, ↓reduceIte, hmirrorKey] at hrun
      obtain ⟨-, rfl⟩ := Prod.mk.inj hrun
      have hmerged := Dict.get?_set_self (s.bridge.delivery.publish request).2.records
        pl ((s.bridge.delivery.publish request).1.merged remote)
      refine ⟨?_, ?_, rfl, rfl⟩
      · exact (congrArg (Option.map DeliveryRecord.headSha) hmerged).trans
          (congrArg some hhead)
      · rw [hmirrored]
        exact congrArg (fun stored : Option DeliveryRecord =>
          stored.elim "" DeliveryRecord.prUrl) hmerged
    · have hmirrored : mirroredLink env pl s = shownLink pl s := by
        simp only [mirroredLink, hanswer, hok, Bool.false_eq_true, ↓reduceIte]
      simp only [hanswer, hok, Bool.false_eq_true, ↓reduceIte] at hrun
      obtain ⟨-, rfl⟩ := Prod.mk.inj hrun
      refine ⟨?_, ?_, rfl, rfl⟩
      · exact (congrArg (Option.map DeliveryRecord.headSha) hpublished).trans
          (congrArg some hhead)
      · rw [hmirrored]
        exact (congrArg (fun stored : Option DeliveryRecord =>
          stored.elim "" DeliveryRecord.prUrl) hpublished).trans hlink

/-- After the mirror nothing but the drain touches the deliveries, and it sees
the publications that wait. -/
theorem run_keepVerified_drain (hcodec : env.codec.Serializes)
    (hloads : env.codec.LoadsFields) (hhealthy : s.store.Healthy)
    (hready : result.status = .ready) (hpl : pl ≠ "") {value : Unit}
    (hrun : (keepVerified env.toBridgeCodec pl prj ws sha result).run
      (handleBridge env) s = (.ok value, s')) :
    ∃ (s₁ : RootState) (items : List OutboxRecord),
      shownHead pl s₁ = some (integrationSha env.toBridgeCodec sha) ∧
        shownLink pl s₁ = mirroredLink env pl s ∧
        (∀ request, Publication env.toBridgeCodec ws prj pl sha s.store request ↔
          ∃ item ∈ items, item.effectType = "PUBLISH_PR" ∧
            drainRequest env.toBridgeCodec item = request) ∧
        (drainItems env.toBridgeCodec ws items).run (handleBridge env) s₁ =
          (.ok value, s') := by
  simp only [keepVerified, Program.bind_eq] at hrun
  rw [← Program.bind_assoc] at hrun
  obtain ⟨_, m, hmirror, hrun⟩ := Program.run_bind_eq_ok hrun
  obtain ⟨hhead, hlink, -, hstore⟩ := run_publishReady_mirror hready hpl hmirror
  obtain ⟨_, m₁, hsave, hrun⟩ := Program.run_bind_eq_ok hrun
  rw [run_modify_bind] at hrun
  obtain ⟨_, m₂, hfeedback, hrun⟩ := Program.run_bind_eq_ok hrun
  obtain ⟨_, m₃, hsaved, hrun⟩ := Program.run_bind_eq_ok hrun
  -- what is saved and noted in between leaves store and deliveries alone
  have hside : Aside m m₁ := (aside_write "delivery.json").of_run hsave
  have hlater := ((aside_verifyFeedback pl result).of_run hfeedback).trans
    (aside_saveVerify.of_run hsaved)
  have hdelivery : m₃.bridge.delivery = m.bridge.delivery :=
    hlater.delivery.trans hside.delivery
  have hstored : m₃.store = s.store :=
    hlater.store.trans (hside.store.trans hstore)
  have hverify : (m₃.bridge.verify.getD pl .empty).get? "verify_status" =
      some "READY" := by
    rw [hlater.verify, Dict.getD, Dict.get?_set_self, Option.getD_some, hready]
    rfl
  simp only [recordVerify, Program.bind_eq] at hrun
  rw [run_memory_bind] at hrun
  obtain ⟨_, m₄, hrecord, hrun⟩ := Program.run_bind_eq_ok hrun
  have hrecorded := run_recordStation env (s := m₃) (by rwa [hstored]) ws prj pl
    .verify (verifyRecord (m₃.bridge.verify.getD pl .empty) pl prj sha)
  have hwaits := mem_toPublish_recorded hcodec hloads hverify hrecorded
  rw [show (recordStation env.toBridgeCodec ws prj pl .verify (verifyRecord
    (m₃.bridge.verify.getD pl .empty) pl prj sha)).run (handleBridge env) m₃ =
      (.ok _, m₄) from hrecord] at hrecorded hwaits
  have hbridge : m₄.bridge = m₃.bridge := by
    have hsame := congrArg bridge hrecorded.same
    exact hsame
  refine ⟨m₄, m₄.store.listPendingOutbox ws, ?_, ?_, ?_, ?_⟩
  · rw [shownHead, hbridge, hdelivery]
    exact hhead
  · rw [shownLink, hbridge, hdelivery]
    exact hlink
  · intro request
    rw [← hstored, ← hwaits]
    simp only [toPublish, List.mem_map, List.mem_filter, decide_eq_true_eq,
      and_assoc]
  · rw [← hrun, drainOutbox]
    split
    · next hws =>
        rw [hws]
        rfl
    · simp only [Program.bind_eq]
      rw [run_listPendingOutbox_bind]

/-- The head that the record shows when a ready verification has been kept. -/
theorem keepVerified_head (hcodec : env.codec.Serializes)
    (hloads : env.codec.LoadsFields) (hhealthy : s.store.Healthy)
    (hready : result.status = .ready) {value : Unit}
    (hrun : (keepVerified env.toBridgeCodec pl prj ws sha result).run
      (handleBridge env) s = (.ok value, s')) :
    (KeepsHead env ws prj pl sha s →
        shownHead pl s' = some (integrationSha env.toBridgeCodec sha)) ∧
      (Unlike env ws prj pl sha s →
        shownHead pl s' = some (integrationSha env.toBridgeCodec sha) →
        KeepsHead env ws prj pl sha s) := by
  have hnames : pl ≠ "" → (∀ request ∈ toPublish env.toBridgeCodec ws s.store,
      request.pipelineId ≠ "") → ∀ request,
      Publication env.toBridgeCodec ws prj pl sha s.store request →
        request.pipelineId ≠ "" := by
    rintro hpl hnamed request (hold | ⟨-, rfl⟩)
    · exact hnamed request hold
    · exact hpl
  constructor
  · rintro ⟨hpl, hnamed, hlinked⟩
    obtain ⟨s₁, items, hhead, hlink, hwaits, hdrain⟩ :=
      run_keepVerified_drain hcodec hloads hhealthy hready hpl hrun
    have hitems : ∀ item ∈ items, item.effectType = "PUBLISH_PR" →
        (drainRequest env.toBridgeCodec item).pipelineId ≠ "" :=
      fun item hitem heffect => hnames hpl hnamed _
        ((hwaits _).mpr ⟨item, hitem, heffect, rfl⟩)
    rcases hlinked with hset | hagree
    · have hkept := drainItems_linked hitems ws
        (by rwa [hlink]) hhead
      rw [hdrain] at hkept
      exact hkept
    · have hkept := drainItems_agreeing hitems ws
        (fun item hitem heffect => hagree _
          ((hwaits _).mpr ⟨item, hitem, heffect, rfl⟩)) hhead
      rw [hdrain] at hkept
      exact hkept
  · rintro ⟨hpl, hnamed, hdistinct⟩ hshown
    obtain ⟨s₁, items, -, hlink, hwaits, hdrain⟩ :=
      run_keepVerified_drain hcodec hloads hhealthy hready hpl hrun
    have hitems : ∀ item ∈ items, item.effectType = "PUBLISH_PR" →
        (drainRequest env.toBridgeCodec item).pipelineId ≠ "" :=
      fun item hitem heffect => hnames hpl hnamed _
        ((hwaits _).mpr ⟨item, hitem, heffect, rfl⟩)
    have hothers : ∀ item ∈ items, item.effectType = "PUBLISH_PR" →
        (drainRequest env.toBridgeCodec item).pipelineId = pl →
        (drainRequest env.toBridgeCodec item).name ≠
          integrationSha env.toBridgeCodec sha :=
      fun item hitem heffect => hdistinct _
        ((hwaits _).mpr ⟨item, hitem, heffect, rfl⟩)
    refine ⟨hpl, hnamed, ?_⟩
    by_contra hnot
    obtain ⟨hunset, hsome⟩ := not_or.mp hnot
    refine hsome fun request hpublication hfor hname => ?_
    -- such a publication would have taken the record over
    obtain ⟨item, hitem, heffect, rfl⟩ := (hwaits request).mp hpublication
    exact absurd hshown (drainItems_overwrites hitems hothers hdrain
      (by rw [hlink]; exact not_not.mp hunset) hitem heffect hfor hname)

end Verified

end RootState

/-- Every effect but the verification flow. -/
def BridgeOp.NoFlow : BridgeOp → Prop
  | .verify _ _ _ _ => False
  | _ => True

namespace KernelBridge

-- the elaborator would otherwise compute the stripped text of a symbolic note
attribute [local irreducible] pyStrip

variable (env : BridgeCodec)

theorem noFlow_kernel {α : Type} (p : StoreProgram α) :
    (kernel p).Calls BridgeOp.NoFlow :=
  calls_kernel (Program.calls_all p)

theorem noFlow_modify (change : Bridge → Bridge) :
    (modify change).Calls BridgeOp.NoFlow :=
  calls_modify trivial (fun _ => trivial) change

theorem noFlow_write (file : String) :
    (perform (.write file)).Calls BridgeOp.NoFlow :=
  calls_effect trivial

theorem noFlow_memory : (perform .memory).Calls BridgeOp.NoFlow :=
  calls_effect trivial

theorem noFlow_hydrateFromEvents (ws pl : String) :
    (hydrateFromEvents env ws pl).Calls BridgeOp.NoFlow :=
  (noFlow_kernel _).bind fun _ => noFlow_modify _

theorem noFlow_recordStation (ws prj pl : String) (station : Station)
    (fields : Dict String String) :
    (recordStation env ws prj pl station fields).Calls BridgeOp.NoFlow := by
  unfold recordStation
  split
  · trivial
  · refine (noFlow_kernel _).bind fun events => (noFlow_kernel _).bind
      fun snapshot => ?_
    cases snapshot with
    | none => trivial
    | some snapshot =>
        dsimp only
        split
        · trivial
        · exact (noFlow_kernel _).bind fun _ => trivial

theorem noFlow_mirrorGithub (record : DeliveryRecord) (request : DeliveryRequest) :
    (mirrorGithub record request).Calls BridgeOp.NoFlow := by
  refine (calls_effect trivial).bind fun remote => ?_
  cases remote with
  | none => trivial
  | some remote => exact .ite ((noFlow_modify _).bind fun _ => trivial) trivial

theorem noFlow_drainItems (ws : String) (items : List OutboxRecord) :
    (drainItems env ws items).Calls BridgeOp.NoFlow := by
  induction items with
  | nil => trivial
  | cons item rest ih =>
      refine Program.Calls.bind ?_ fun _ => ih
      refine .ite (noFlow_kernel _) ((calls_effect trivial).bind fun bridge => ?_)
      refine .ite ?_ (noFlow_kernel _)
      exact (calls_effect trivial).bind fun _ =>
        (noFlow_mirrorGithub _ _).bind fun _ =>
          (noFlow_write _).bind fun _ => noFlow_kernel _

theorem noFlow_drainOutbox (ws : String) :
    (drainOutbox env ws).Calls BridgeOp.NoFlow :=
  .ite trivial ((noFlow_kernel _).bind fun _ => noFlow_drainItems env ws _)

theorem noFlow_recordVerify (ws prj pl sha : String) :
    (recordVerify env ws prj pl sha).Calls BridgeOp.NoFlow :=
  (calls_effect trivial).bind fun _ =>
    (noFlow_recordStation env ws prj pl _ _).bind fun _ => noFlow_drainOutbox env ws

theorem noFlow_saveWithStages (file : String) :
    (saveWithStages file).Calls BridgeOp.NoFlow :=
  (noFlow_write _).bind fun _ => noFlow_write _

theorem noFlow_setFeedback (pl note : String) :
    (setFeedback pl note).Calls BridgeOp.NoFlow := by
  rw [setFeedback]
  split
  · trivial
  · exact (noFlow_modify _).bind fun _ => noFlow_write _

theorem noFlow_clearFeedback (pl : String) :
    (clearFeedback pl).Calls BridgeOp.NoFlow := by
  refine (calls_effect trivial).bind fun bridge => ?_
  exact .ite trivial ((calls_effect trivial).bind fun _ => noFlow_write _)

theorem noFlow_developmentFeedback (pl : String) (result : DevelopmentResult) :
    (developmentFeedback pl result).Calls BridgeOp.NoFlow := by
  rw [developmentFeedback]
  split
  · exact noFlow_setFeedback _ _
  · split
    · exact noFlow_clearFeedback _
    · trivial

theorem noFlow_verifyFeedback (pl : String) (result : VerifyResult) :
    (verifyFeedback pl result).Calls BridgeOp.NoFlow := by
  rw [verifyFeedback]
  split
  · exact noFlow_setFeedback _ _
  · split
    · exact noFlow_clearFeedback _
    · trivial

theorem noFlow_approveSolution (pl prj actor prd design testplan : String) :
    (approveSolution pl prj actor prd design testplan).Calls BridgeOp.NoFlow := by
  refine (calls_effect trivial).bind fun bridge => ?_
  cases bridge.approval.designate bridge.registry pl prj actor with
  | none => trivial
  | some designated =>
      refine (calls_effect trivial).bind fun _ => ?_
      cases designated.approve bridge.registry pl prj actor prd design testplan with
      | none => trivial
      | some approved => exact (calls_effect trivial).bind fun _ => trivial

theorem noFlow_advanceDevelopment (pl prj principal ws : String) :
    (advanceDevelopment env pl prj principal ws).Calls BridgeOp.NoFlow := by
  have hkeep : ∀ row, (keepDevelopment env ws prj pl row).Calls
      BridgeOp.NoFlow := fun row =>
    (noFlow_modify _).bind fun _ => (noFlow_saveWithStages _).bind fun _ =>
      noFlow_recordStation env ws prj pl _ row
  refine (noFlow_hydrateFromEvents env ws pl).bind fun _ =>
    (calls_effect trivial).bind fun bridge => .ite trivial ?_
  cases planned bridge pl with
  | none => trivial
  | some rows =>
      refine (noFlow_approveSolution _ _ _ _ _ _).bind fun allowed => .ite ?_
        (hkeep _)
      refine (calls_effect trivial).bind fun result =>
        Program.Calls.bind ?_ fun _ => hkeep _
      exact noFlow_developmentFeedback _ _

theorem noFlow_commitApproval (pl prj principal ws : String) :
    (commitApproval env pl prj principal ws).Calls BridgeOp.NoFlow := by
  refine (calls_effect trivial).bind fun bridge => ?_
  cases bridge.prd.get? pl with
  | none => trivial
  | some planning =>
      cases bridge.arch.get? pl with
      | none => trivial
      | some design =>
          refine (noFlow_approveSolution _ _ _ _ _ _).bind fun allowed =>
            .ite ?_ trivial
          exact (noFlow_modify _).bind fun _ =>
            (noFlow_saveWithStages _).bind fun _ =>
              (noFlow_recordStation env ws prj pl _ _).bind fun _ => trivial

theorem noFlow_keepInfra (pl prj ws : String) :
    (keepInfra env pl prj ws).Calls BridgeOp.NoFlow :=
  (noFlow_modify _).bind fun _ => (noFlow_saveWithStages _).bind fun _ =>
    noFlow_recordVerify env ws prj pl ""

theorem noFlow_keepVerified (pl prj ws sha : String) (result : VerifyResult) :
    (keepVerified env pl prj ws sha result).Calls BridgeOp.NoFlow := by
  have hmirror : (mirrorStored pl prj sha).Calls BridgeOp.NoFlow := by
    refine (calls_effect trivial).bind fun bridge => ?_
    cases bridge.delivery.lookup pl with
    | none => trivial
    | some stored => exact (noFlow_mirrorGithub _ _).bind fun _ => trivial
  refine Program.Calls.bind (.ite (noFlow_modify _) trivial) fun _ =>
    hmirror.bind fun _ => (noFlow_write _).bind fun _ =>
    (noFlow_modify _).bind fun _ => Program.Calls.bind ?_ fun _ =>
    (noFlow_saveWithStages _).bind fun _ => noFlow_recordVerify env ws prj pl sha
  exact noFlow_verifyFeedback _ _

end KernelBridge

namespace RootState

section Ends

variable {env : RootEnv} {ids : RequestIds} {α β : Type}

/-- A ready verification in a run of the program is of this request, it is kept,
and what the program does afterwards leaves the deliveries alone. -/
def EndsVerified (env : RootEnv) (ids : RequestIds) (p : BridgeProgram α) :
    Prop :=
  ∀ s t s' pl prj sha testplan result value,
    p.Performs (handleBridge env) (.verify pl prj sha testplan) t s →
    env.verifies t.effects = some result → result.status = .ready →
    p.run (handleBridge env) s = (.ok value, s') →
    pl = ids.pipelineId ∧ prj = ids.projectId ∧ ∃ s₁,
      (keepVerified env.toBridgeCodec pl prj ids.workspaceId sha result).run
        (handleBridge env) (t.launched (.verify pl sha)) = (.ok (), s₁) ∧
      SameDelivery s₁ s'

theorem endsVerified_of_noFlow {p : BridgeProgram α}
    (hp : p.Calls BridgeOp.NoFlow) : EndsVerified env ids p :=
  fun _ _ _ _ _ _ _ _ _ hperforms => (hp.performs hperforms).elim

theorem EndsVerified.ite {c : Prop} [Decidable c] {p q : BridgeProgram α}
    (hp : EndsVerified env ids p) (hq : EndsVerified env ids q) :
    EndsVerified env ids (if c then p else q) := by
  split
  · exact hp
  · exact hq

theorem endsVerified_after {p : BridgeProgram α} {f : α → BridgeProgram β}
    (hp : p.Calls BridgeOp.NoFlow) (hf : ∀ value, EndsVerified env ids (f value)) :
    EndsVerified env ids (p.bind f) := by
  intro s t s' pl prj sha testplan result value hperforms hanswer hready hrun
  obtain ⟨first, s₁, hfirst, hrest⟩ := Program.run_bind_eq_ok hrun
  rcases hperforms.of_bind with hflow | ⟨first', s₁', hfirst', hlater⟩
  · exact (hp.performs hflow).elim
  · rw [hfirst] at hfirst'
    obtain ⟨hvalue, rfl⟩ := Prod.mk.inj hfirst'
    obtain rfl := Except.ok.inj hvalue
    exact hf _ _ _ _ _ _ _ _ _ _ hlater hanswer hready hrest

theorem EndsVerified.followed {p : BridgeProgram α} {f : α → BridgeProgram β}
    (hp : EndsVerified env ids p) (hf : ∀ value, (f value).Calls BridgeOp.NoFlow)
    (hkeeps : ∀ value, (f value).Moves (handleBridge env) SameDelivery) :
    EndsVerified env ids (p.bind f) := by
  intro s t s' pl prj sha testplan result value hperforms hanswer hready hrun
  obtain ⟨first, s₁, hfirst, hrest⟩ := Program.run_bind_eq_ok hrun
  rcases hperforms.of_bind with hflow | ⟨first', s₁', -, hlater⟩
  · obtain ⟨hpl, hprj, s₂, hkept, hsame⟩ :=
      hp _ _ _ _ _ _ _ _ _ hflow hanswer hready hfirst
    exact ⟨hpl, hprj, s₂, hkept, hsame.trans ((hkeeps first).of_run hrest)⟩
  · exact ((hf first').performs hlater).elim

theorem EndsVerified.observed {p : BridgeProgram α}
    {f : Except BridgeError α → BridgeProgram β} (hp : p.Calls BridgeOp.NoFlow)
    (hf : ∀ outcome, EndsVerified env ids (f outcome)) :
    EndsVerified env ids (p.observe f) := by
  intro s t s' pl prj sha testplan result value hperforms hanswer hready hrun
  rw [Program.run_observe] at hrun
  rcases hperforms.of_observe with hflow | hlater
  · exact (hp.performs hflow).elim
  · exact hf _ _ _ _ _ _ _ _ _ _ hlater hanswer hready hrun

/-- A clean-up that leaves the deliveries alone. -/
theorem EndsVerified.cleaned {p : BridgeProgram α} {cleanup : BridgeProgram Unit}
    (hp : EndsVerified env ids p) (hcleanup : cleanup.Calls BridgeOp.NoFlow)
    (hkeeps : cleanup.Moves (handleBridge env) SameDelivery) :
    EndsVerified env ids (p.withCleanup cleanup) := by
  intro s t s' pl prj sha testplan result value hperforms hanswer hready hrun
  rw [Program.withCleanup, Program.run_observe] at hrun
  obtain ⟨_, s₁, hcleaned, hended⟩ := Program.run_bind_eq_ok hrun
  rw [Program.run_ofExcept] at hended
  obtain ⟨houtcome, rfl⟩ := Prod.mk.inj hended
  rcases hperforms.of_observe with hflow | hlater
  · obtain ⟨hpl, hprj, s₂, hkept, hsame⟩ := hp _ _ _ _ _ _ _ _ value hflow
      hanswer hready (Prod.ext houtcome rfl)
    exact ⟨hpl, hprj, s₂, hkept, hsame.trans (hkeeps.of_run hcleaned)⟩
  · exact ((hcleanup.bind fun _ => Program.calls_ofExcept _).performs
      hlater).elim

/-- The flow is asked, and its answer is kept. -/
theorem endsVerified_flow {sha testplan : String}
    {f : Option VerifyResult → BridgeProgram Unit}
    (hnone : (f none).Calls BridgeOp.NoFlow)
    (hsome : ∀ result, f (some result) = keepVerified env.toBridgeCodec
      ids.pipelineId ids.projectId ids.workspaceId sha result) :
    EndsVerified env ids ((perform (.verify ids.pipelineId ids.projectId sha
      testplan)).bind f) := by
  intro s t s' pl prj sha' testplan' result value hperforms hanswer hready hrun
  rcases hperforms.of_bind with hflow | ⟨answer, s₁, -, hlater⟩
  · rcases hflow with ⟨hop, rfl⟩ | hnever
    · cases hop
      refine ⟨rfl, rfl, s', ?_, rfl⟩
      rw [← hsome, ← hrun, perform, Program.perform, Program.call_bind,
        Program.run_call]
      simp only [handleBridge, hanswer]
      rfl
    · have hcalls : (Program.ofExcept (handleBridge env (.verify ids.pipelineId
          ids.projectId sha testplan) s).1 : BridgeProgram _).Calls
            BridgeOp.NoFlow := Program.calls_ofExcept _
      exact (hcalls.performs hnever).elim
  · cases answer with
    | none => exact (hnone.performs hlater).elim
    | some result =>
        rw [hsome] at hlater
        exact ((noFlow_keepVerified _ _ _ _ _ _).performs hlater).elim

/-- The verification stage of the pipeline of a request. -/
theorem endsVerified_advanceVerify (env : RootEnv) (ids : RequestIds) :
    EndsVerified env ids (advanceVerify env.toBridgeCodec ids.pipelineId
      ids.projectId ids.workspaceId) := by
  refine endsVerified_after (noFlow_hydrateFromEvents _ _ _) fun _ =>
    endsVerified_after (calls_effect trivial) fun bridge : Bridge => ?_
  refine .ite (endsVerified_of_noFlow trivial) ?_
  cases bridge.dev.get? ids.pipelineId with
  | none => exact endsVerified_of_noFlow trivial
  | some developed =>
      exact .ite (endsVerified_of_noFlow trivial)
        (endsVerified_flow (noFlow_keepInfra _ _ _ _) fun _ => rfl)

theorem endsVerified_runLeasedStages (env : RootEnv) (ids : RequestIds) :
    EndsVerified env ids (runLeasedStages env.toBridgeCodec ids.workspaceId
      ids.projectId ids.pipelineId ids.principalId) := by
  refine endsVerified_after (calls_effect trivial) fun _ => .cleaned ?_
    (calls_effect trivial) fun _ => rfl
  refine endsVerified_after (noFlow_hydrateFromEvents _ _ _) fun _ =>
    endsVerified_after (noFlow_advanceDevelopment _ _ _ _ _) fun _ =>
    (endsVerified_advanceVerify env ids).followed ?_ ?_
  · exact fun _ => (calls_effect trivial).bind fun _ => trivial
  · exact fun _ _ => rfl

theorem endsVerified_approveLeased (spawnWorker : Bool) (lease : LeaseRecord) :
    EndsVerified env ids (approveLeased env.toBridgeCodec spawnWorker
      ids.workspaceId ids.projectId ids.pipelineId ids.principalId lease) := by
  unfold approveLeased
  refine .ite (endsVerified_of_noFlow ?_) (.cleaned ?_ (noFlow_kernel _)
    (moves_kernel_delivery _))
  · refine (noFlow_commitApproval _ _ _ _ _).bind fun failed => ?_
    cases failed with
    | none => exact (calls_effect trivial).bind fun _ => trivial
    | some message => exact (noFlow_kernel _).bind fun _ => trivial
  · refine endsVerified_after (noFlow_commitApproval _ _ _ _ _) fun failed => ?_
    cases failed with
    | none =>
        exact (endsVerified_runLeasedStages env ids).followed
          (fun _ => trivial) fun _ _ => rfl
    | some message => exact endsVerified_of_noFlow trivial

/-- Taking the lease of a worker runs no verification. -/
theorem EndsVerified.leased {now : Int} {next : LeaseRecord → BridgeProgram Json}
    (hnext : ∀ lease, EndsVerified env ids (next lease)) :
    EndsVerified env ids (acquireOrBusy ids.workspaceId ids.pipelineId now
      next) := by
  refine .observed (noFlow_kernel _) fun outcome => ?_
  rcases outcome with error | lease
  · refine endsVerified_of_noFlow ?_
    cases error with
    | kernel error => cases error <;> trivial
    | os => trivial
    | value => trivial
  · exact hnext lease

theorem endsVerified_approveBaseline (spawnWorker : Bool)
    (payload : List (String × Json)) :
    EndsVerified env (requestIds env.toBridgeCodec payload)
      (approveBaseline env.toBridgeCodec spawnWorker payload) := by
  refine endsVerified_after (calls_effect trivial) fun now =>
    endsVerified_after (noFlow_kernel _) fun held =>
    .ite (endsVerified_of_noFlow trivial) ?_
  refine endsVerified_after (noFlow_hydrateFromEvents _ _ _) fun _ =>
    endsVerified_after (calls_effect trivial) fun bridge : Bridge =>
    .ite (endsVerified_of_noFlow trivial) (.ite (endsVerified_of_noFlow trivial) ?_)
  exact .leased fun lease => endsVerified_approveLeased spawnWorker lease

theorem noFlow_dropStages (pl : String) :
    (dropStages pl).Calls BridgeOp.NoFlow :=
  (noFlow_modify _).bind fun _ => (noFlow_saveWithStages _).bind fun _ =>
    noFlow_modify _

theorem sameDelivery_keepRetried (pl : String) (verified : Bool)
    (row : Dict String String) :
    (keepRetried pl verified row).Moves (handleBridge env) SameDelivery := by
  have hsave : ∀ file, (saveWithStages file).Moves (handleBridge env)
      SameDelivery := fun file =>
    Program.Moves.bind (R := SameDelivery) SameDelivery.trans
      (moves_write_delivery _) fun _ => moves_write_delivery _
  unfold keepRetried
  split
  · intro s
    exact hsave "verify.json" _
  · intro s
    exact hsave "development.json" _

theorem endsVerified_retryInline (infra : Bool) (used infraUsed : Int) :
    EndsVerified env ids (retryInline env.toBridgeCodec ids infra used
      infraUsed) := by
  refine endsVerified_after (noFlow_dropStages _) fun _ => .followed ?_ ?_ ?_
  · refine endsVerified_after (calls_effect trivial) fun _ => .cleaned ?_
      (calls_effect trivial) fun _ => rfl
    exact endsVerified_after (noFlow_advanceDevelopment _ _ _ _ _) fun _ =>
      endsVerified_advanceVerify env ids
  · refine fun _ => (calls_effect trivial).bind fun bridge : Bridge => ?_
    refine Program.Calls.bind ?_ fun _ => (calls_effect trivial).bind fun _ => trivial
    exact .ite ((noFlow_modify _).bind fun _ => noFlow_saveWithStages _)
      ((noFlow_modify _).bind fun _ => noFlow_saveWithStages _)
  · intro _ s
    simp only [Program.bind_eq]
    rw [run_memory_bind]
    refine SameDelivery.trans ?_
      (Program.Moves.following (R := SameDelivery) (fun _ => rfl) ?_ s)
    · exact sameDelivery_keepRetried _ _ _ s
    · exact fun _ _ => rfl

theorem endsVerified_retryVerify (spawnWorker : Bool)
    (payload : List (String × Json)) :
    EndsVerified env (requestIds env.toBridgeCodec payload)
      (retryVerify env.toBridgeCodec spawnWorker payload) := by
  refine endsVerified_after (noFlow_hydrateFromEvents _ _ _) fun _ =>
    endsVerified_after (calls_effect trivial) fun bridge : Bridge =>
    .ite (endsVerified_of_noFlow trivial) ?_
  split
  · refine .ite (endsVerified_of_noFlow trivial)
      (.ite (endsVerified_of_noFlow trivial) (.ite ?_ ?_))
    · refine endsVerified_after (calls_effect trivial) fun now =>
        .leased fun lease => endsVerified_of_noFlow ?_
      exact (noFlow_dropStages _).bind fun _ => (calls_effect trivial).bind
        fun _ => trivial
    · exact endsVerified_retryInline _ _ _
  · exact endsVerified_of_noFlow trivial

end Ends

end RootState

/-- Every effect of a request but the verification flow. -/
def RootOp.NoFlow : RootOp → Prop
  | .bridge op => op.NoFlow
  | _ => True

section Requests

variable {α : Type}

theorem noFlow_lift {p : BridgeProgram α} (hp : p.Calls BridgeOp.NoFlow) :
    (lift p).Calls RootOp.NoFlow := by
  induction p with
  | done value => trivial
  | raise error => trivial
  | call op next ih => exact ⟨hp.1, fun answer => ih answer (hp.2 answer)⟩

theorem calls_request {allowed : RootOp → Prop} {op : RootOp}
    (hop : allowed op) : (request op).Calls allowed :=
  Program.calls_perform hop

theorem noFlow_changeSettings (file : String) (change : Settings → Settings) :
    (changeSettings file change).Calls RootOp.NoFlow :=
  (calls_request trivial).bind fun _ => (calls_request trivial).bind fun _ =>
    calls_request trivial

theorem RootState.performs_lift {env : RootEnv} {p : BridgeProgram α}
    {op : BridgeOp} {s t : RootState}
    (hperforms : (lift p).Performs (handle env) (.bridge op) t s) :
    p.Performs (handleBridge env) op t s := by
  induction p generalizing s with
  | done value => exact hperforms
  | raise error => exact hperforms
  | call first next ih =>
      rcases hperforms with ⟨hop, rfl⟩ | hlater
      · exact .inl ⟨RootOp.bridge.inj hop, rfl⟩
      · exact .inr (ih _ hlater)

namespace KernelBridge

variable (env : BridgeCodec)

theorem noFlow_readPipeline (payload : List (String × Json)) :
    (readPipeline env payload).Calls RootOp.NoFlow :=
  (noFlow_lift (noFlow_drainOutbox env _)).bind fun _ =>
    (noFlow_lift (noFlow_kernel _)).bind fun _ =>
    (noFlow_lift noFlow_memory).bind fun _ =>
    (calls_request trivial).bind fun _ =>
    (noFlow_lift (noFlow_kernel _)).bind fun _ => trivial

theorem noFlow_deliver (payload : List (String × Json)) :
    (deliver env payload).Calls BridgeOp.NoFlow := by
  refine noFlow_memory.bind fun bridge : Bridge => ?_
  split
  · trivial
  · refine (calls_effect trivial).bind fun _ => .ite ?_ ?_
    · exact (noFlow_write _).bind fun _ => trivial
    · exact (noFlow_mirrorGithub _ _).bind fun _ => (noFlow_write _).bind
        fun _ => trivial

theorem noFlow_advancePrd (pl ws prj : String) :
    (advancePrd env pl ws prj).Calls RootOp.NoFlow := by
  refine (noFlow_lift (noFlow_hydrateFromEvents env ws pl)).bind fun _ =>
    (noFlow_lift noFlow_memory).bind fun bridge : Bridge =>
    .ite trivial ((calls_request trivial).bind fun _ =>
      (calls_request trivial).bind fun _ => noFlow_lift ?_)
  exact (noFlow_modify _).bind fun _ => (noFlow_write _).bind fun _ =>
    noFlow_recordStation env ws prj pl _ _

theorem noFlow_advanceArchitecture (pl ws prj : String) :
    (advanceArchitecture env pl ws prj).Calls RootOp.NoFlow := by
  refine (noFlow_lift (noFlow_hydrateFromEvents env ws pl)).bind fun _ =>
    (noFlow_lift noFlow_memory).bind fun bridge : Bridge =>
    .ite trivial ?_
  cases plannedPrd bridge pl with
  | none => trivial
  | some planning =>
      refine (calls_request trivial).bind fun result : ArchitectureResult =>
        (noFlow_lift ?_).bind fun _ => .ite (noFlow_lift ?_) trivial
      · exact (noFlow_modify _).bind fun _ => (noFlow_write _).bind fun _ =>
          noFlow_recordStation env ws prj pl _ _
      · refine (calls_effect trivial).bind fun bridge : Bridge => .ite trivial ?_
        exact (calls_effect trivial).bind fun _ => noFlow_saveWithStages _

theorem noFlow_intake (commandId text : String) (payload : List (String × Json)) :
    (intake env commandId text payload).Calls RootOp.NoFlow := by
  refine (noFlow_lift ?_).bind fun receipt => .ite ?_ trivial
  · refine (calls_effect trivial).bind fun bridge : Bridge => .ite trivial ?_
    split
    · trivial
    · trivial
    · split
      · trivial
      · exact noFlow_kernel _
  · exact (noFlow_changeSettings _ _).bind fun _ =>
      (noFlow_advancePrd env _ _ _).bind fun _ =>
      (noFlow_advanceArchitecture env _ _ _).bind fun _ => trivial

theorem noFlow_admitMember (payload : List (String × Json)) :
    (admitMember env payload).Calls BridgeOp.NoFlow := by
  refine (calls_effect trivial).bind fun bridge : Bridge => ?_
  split
  · trivial
  · split
    · trivial
    · exact (calls_effect trivial).bind fun _ => (noFlow_write _).bind
        fun _ => trivial

end KernelBridge

end Requests

namespace RootState

variable {env : RootEnv} {s s' t : RootState}

/-- A ready verification that is run for a request is kept, and the request
leaves the deliveries alone afterwards. -/
theorem process_endsVerified {spawnWorker : Bool} {commandId : String}
    {payload : List (String × Json)} {pl prj sha testplan : String}
    {result : VerifyResult} {answer : Json}
    (hperforms : (process env.toBridgeCodec spawnWorker commandId
      payload).Performs (handle env) (.bridge (.verify pl prj sha testplan)) t s)
    (hanswer : env.verifies t.effects = some result)
    (hready : result.status = .ready)
    (hrun : (process env.toBridgeCodec spawnWorker commandId payload).run
      (handle env) s = (.ok answer, s')) :
    ∃ s₁, (keepVerified env.toBridgeCodec pl prj
        (requestIds env.toBridgeCodec payload).workspaceId sha result).run
        (handleBridge env) (t.launched (.verify pl sha)) = (.ok (), s₁) ∧
      SameDelivery s₁ s' := by
  have hends : ∀ p : BridgeProgram Json,
      EndsVerified env (requestIds env.toBridgeCodec payload) p →
      (lift p).Performs (handle env) (.bridge (.verify pl prj sha testplan)) t s →
      (lift p).run (handle env) s = (.ok answer, s') →
      ∃ s₁, (keepVerified env.toBridgeCodec pl prj
          (requestIds env.toBridgeCodec payload).workspaceId sha result).run
          (handleBridge env) (t.launched (.verify pl sha)) = (.ok (), s₁) ∧
        SameDelivery s₁ s' := by
    intro p hp hperforms hrun
    rw [run_lift] at hrun
    obtain ⟨-, -, hkept⟩ := hp _ _ _ _ _ _ _ _ _ (performs_lift hperforms)
      hanswer hready hrun
    exact hkept
  have hnever : ∀ p : RootProgram Json, p.Calls RootOp.NoFlow →
      ¬ p.Performs (handle env) (.bridge (.verify pl prj sha testplan)) t s :=
    fun p hp hperforms => hp.performs hperforms
  simp only [KernelBridge.process, Program.bind_eq] at hperforms hrun
  rw [Program.run_bind_of_ok (run_memory_lift s)] at hrun
  rcases hperforms.of_bind with hmemory | ⟨bridge, s₁, hfirst, hperforms⟩
  · exact ((noFlow_lift noFlow_memory).performs hmemory).elim
  rw [run_memory_lift] at hfirst
  obtain ⟨hbridge, rfl⟩ := Prod.mk.inj hfirst
  obtain rfl := Except.ok.inj hbridge
  split at hrun
  · next hcorrupt =>
      rw [if_pos hcorrupt] at hperforms
      exact hperforms.elim
  next hsound =>
  rw [if_neg hsound] at hperforms
  cases hkind : requestKind payload with
  | register =>
      rw [hkind] at hperforms
      refine absurd hperforms (hnever _ (noFlow_lift ?_))
      exact (noFlow_modify _).bind fun _ => (noFlow_write _).bind fun _ => trivial
  | admission =>
      rw [hkind] at hperforms
      exact absurd hperforms (hnever _ (noFlow_lift (noFlow_admitMember _ _)))
  | bind =>
      rw [hkind] at hperforms
      refine absurd hperforms (hnever _ (.ite ?_ trivial))
      exact (noFlow_changeSettings _ _).bind fun _ => trivial
  | bindings =>
      rw [hkind] at hperforms
      exact absurd hperforms (hnever _ ((calls_request trivial).bind
        fun _ => trivial))
  | runtimes =>
      rw [hkind] at hperforms
      exact absurd hperforms (hnever _ ((calls_request trivial).bind
        fun _ => trivial))
  | github =>
      rw [hkind] at hperforms
      refine absurd hperforms (hnever _ (.ite ?_ trivial))
      exact (noFlow_changeSettings _ _).bind fun _ => trivial
  | deliver =>
      rw [hkind] at hperforms
      exact absurd hperforms (hnever _ (noFlow_lift (noFlow_deliver _ _)))
  | read =>
      rw [hkind] at hperforms
      exact absurd hperforms (hnever _ (noFlow_readPipeline _ _))
  | intake text =>
      rw [hkind] at hperforms
      exact absurd hperforms (hnever _ (noFlow_intake _ _ _ _))
  | approve =>
      rw [hkind] at hperforms hrun
      exact hends _ (endsVerified_approveBaseline _ _) hperforms hrun
  | retry =>
      rw [hkind] at hperforms hrun
      exact hends _ (endsVerified_retryVerify _ _) hperforms hrun
  | other =>
      rw [hkind] at hperforms
      exact absurd hperforms (hnever _ (calls_request trivial))

/-- No effect of a request puts a fault into the store. -/
theorem healthy_handle (op : RootOp) (s : RootState) (hhealthy : s.store.Healthy) :
    (handle env op s).2.store.Healthy := by
  cases op with
  | bridge op =>
      cases op with
      | store op =>
          simp only [handle, handleBridge, faulted]
          split <;> exact hhealthy.handle op
      | construct =>
          simp only [handle, handleBridge]
          split <;> exact hhealthy
      | write file =>
          simp only [handle, handleBridge]
          split <;> exact hhealthy
      | spawn args =>
          simp only [handle, handleBridge]
          split <;> exact hhealthy
      | _ => exact hhealthy
  | writeSettings file =>
      simp only [handle]
      split <;> exact hhealthy
  | _ => exact hhealthy

/-- Only the flow itself notes that it was launched. -/
theorem flow_of_launched {op : RootOp} {pl sha : String}
    (habsent : .verify pl sha ∉ s.launches)
    (hpresent : .verify pl sha ∈ (handle env op s).2.launches) :
    ∃ prj testplan, op = .bridge (.verify pl prj sha testplan) := by
  have hsame : (handle env op s).2.launches ≠ s.launches := by
    intro hsame
    rw [hsame] at hpresent
    exact habsent hpresent
  cases op with
  | bridge op =>
      cases op with
      | verify pl' prj sha' testplan =>
          have hmem : Launch.verify pl sha ∈ s.launches ++ [.verify pl' sha'] :=
            hpresent
          simp only [List.mem_append, habsent, List.mem_singleton, false_or,
            Launch.verify.injEq] at hmem
          obtain ⟨rfl, rfl⟩ := hmem
          exact ⟨prj, testplan, rfl⟩
      | develop pl' =>
          have hmem : Launch.verify pl sha ∈ s.launches ++ [.develop pl'] :=
            hpresent
          simp [habsent] at hmem
      | store op =>
          simp only [handle, handleBridge, faulted] at hsame
          split at hsame <;> exact absurd rfl hsame
      | construct =>
          simp only [handle, handleBridge] at hsame
          split at hsame <;> exact absurd rfl hsame
      | write file =>
          simp only [handle, handleBridge] at hsame
          split at hsame <;> exact absurd rfl hsame
      | spawn args =>
          simp only [handle, handleBridge] at hsame
          split at hsame <;> exact absurd rfl hsame
      | _ => exact absurd rfl hsame
  | plan pl' requirement =>
      have hmem : Launch.verify pl sha ∈ s.launches ++ [.plan pl'] := hpresent
      simp [habsent] at hmem
  | design pl' prdId =>
      have hmem : Launch.verify pl sha ∈ s.launches ++ [.design pl'] := hpresent
      simp [habsent] at hmem
  | writeSettings file =>
      simp only [handle] at hsame
      split at hsame <;> exact absurd rfl hsame
  | _ => exact absurd rfl hsame

/-- A request is served: its verification flow, asked in the state `t`, ends
ready, and the request returns. -/
structure ServesReady (env : RootEnv) (s : RootState) (commandId : String)
    (payload : List (String × Json)) (prj pl sha : String) (t s' : RootState) :
    Prop where
  running : s.running = true
  flow : ∃ testplan, (process env.toBridgeCodec s.spawnWorker commandId
    payload).Performs (handle env) (.bridge (.verify pl prj sha testplan)) t s
  ready : ∃ result, env.verifies t.effects = some result ∧
    result.status = .ready
  returns : ∃ answer, s.serve env commandId payload = (.ok answer, s')

/-- Whatever session led to it, a request that returns after a ready
verification leaves the verified head in the delivery record if no waiting
publication takes the record over, and only then, unless a waiting candidate has
the name of the integration candidate. -/
theorem delivered_head_verified (hcodec : env.codec.Serializes)
    (hloads : env.codec.LoadsFields) {spawnWorker : Bool}
    {inputs : List RootInput} {commandId : String}
    {payload : List (String × Json)} {prj pl sha : String}
    (hserves : ServesReady env ((init spawnWorker).after env inputs) commandId
      payload prj pl sha t s') :
    let ws := (requestIds env.toBridgeCodec payload).workspaceId
    let answered := t.launched (.verify pl sha)
    (KeepsHead env ws prj pl sha answered →
        shownHead pl s' = some (integrationSha env.toBridgeCodec sha)) ∧
      (Unlike env ws prj pl sha answered →
        shownHead pl s' = some (integrationSha env.toBridgeCodec sha) →
        KeepsHead env ws prj pl sha answered) := by
  intro ws answered
  obtain ⟨hrunning, ⟨testplan, hflow⟩, ⟨result, hanswer, hready⟩, answer,
    hreturns⟩ := hserves
  rw [serve, if_pos hrunning] at hreturns
  obtain ⟨s₁, hkept, hsame⟩ :=
    process_endsVerified hflow hanswer hready hreturns
  have hstart := (store_after env inputs (healthy_init spawnWorker)
    (numbered_init spawnWorker)).1
  have hhealthy : t.store.Healthy :=
    hflow.invariant (P := fun s => s.store.Healthy) healthy_handle hstart
  have hhead := keepVerified_head hcodec hloads (s := answered) hhealthy hready
    hkept
  have hshown : shownHead pl s' = shownHead pl s₁ := by
    rw [shownHead, hsame, shownHead]
  rw [hshown]
  exact hhead

end RootState

namespace DeliveredHeadWitness

open RootState SampleSession ReferenceCodec

def session : RootEnv :=
  sampleEnv ⟨.completed, some "art_impl", some ⟨"sha_a", "app.py"⟩, "", true⟩
    (some ⟨.ready, some "art_e2e", some "art_acceptance", ""⟩)

/-- The state in which the baseline of `pl_a` can be approved. -/
def planned : RootState := (init false).after session (enrolment ++ [intakeInput])

/-- Its approval, after which the candidate is developed and verified. -/
def approval : Except BridgeError Json × RootState :=
  planned.serve session "cmd_2" (approveRequest sampleIds)

theorem planned_facts : (planned.running,
    planned.launches.contains (.verify "pl_a" "sha_a")) = (true, false) := by
  rw [planned, session, sampleEnv_eq]
  decide +kernel

theorem approval_facts :
    (approval.1.toBool, approval.2.launches.contains (.verify "pl_a" "sha_a"),
      shownHead "pl_a" approval.2) = (true, true, some "sha_a") := by
  rw [approval, planned, session, sampleEnv_eq]
  decide +kernel

/-- The name of the integration candidate is the text it is made of. -/
theorem integrationSha_session : integrationSha session.toBridgeCodec "sha_a" =
    "sha_a" ++ ":" ++ String.ofList (List.replicate 64 '0') := by
  apply sampleDigest_of_head
  simp

theorem approval_serves : ∃ prj t, ServesReady session planned "cmd_2"
    (approveRequest sampleIds) prj "pl_a" "sha_a" t approval.2 := by
  obtain ⟨hrunning, habsent⟩ := Prod.mk.inj planned_facts
  obtain ⟨hreturns, hfacts⟩ := Prod.mk.inj approval_facts
  obtain ⟨hpresent, -⟩ := Prod.mk.inj hfacts
  have hrun : (process session.toBridgeCodec planned.spawnWorker "cmd_2"
      (approveRequest sampleIds)).run (handle session) planned = approval := by
    rw [approval, RootState.serve, if_pos hrunning]
  obtain ⟨op, t, hperforms, hbefore, hafter⟩ := Program.exists_performs_of_lost
    (I := fun s : RootState => .verify "pl_a" "sha_a" ∉ s.launches)
    (by simpa using habsent) (by rw [hrun]; simpa using hpresent)
  obtain ⟨prj, testplan, rfl⟩ := flow_of_launched hbefore (not_not.mp hafter)
  refine ⟨prj, t, hrunning, ⟨testplan, hperforms⟩, ⟨_, rfl, rfl⟩, ?_⟩
  rcases happroval : approval with ⟨error | answer, s'⟩
  · rw [happroval] at hreturns
    cases hreturns
  · exact ⟨answer, happroval⟩

theorem delivered_head_verified_at_approval : ∃ (prj : String) (t : RootState),
    (KeepsHead session "ws_a" prj "pl_a" "sha_a"
        (t.launched (.verify "pl_a" "sha_a")) →
      shownHead "pl_a" approval.2 =
        some (integrationSha session.toBridgeCodec "sha_a")) ∧
    (Unlike session "ws_a" prj "pl_a" "sha_a"
        (t.launched (.verify "pl_a" "sha_a")) →
      shownHead "pl_a" approval.2 =
        some (integrationSha session.toBridgeCodec "sha_a") →
      KeepsHead session "ws_a" prj "pl_a" "sha_a"
        (t.launched (.verify "pl_a" "sha_a"))) := by
  obtain ⟨prj, t, hserves⟩ := approval_serves
  exact ⟨prj, t, delivered_head_verified sampleJcs_serializes
    (loadsFields sampleDigest).asJcs hserves⟩

/-- Without a repository the drain publishes the candidate again, and the record
shows it in the place of the verified head. -/
theorem candidate_head_delivered : ∃ prj t,
    ServesReady session ((init false).after session (enrolment ++ [intakeInput]))
        "cmd_2" (approveRequest sampleIds) prj "pl_a" "sha_a" t approval.2 ∧
      shownHead "pl_a" approval.2 ≠
        some (integrationSha session.toBridgeCodec "sha_a") := by
  obtain ⟨prj, t, hserves⟩ := approval_serves
  refine ⟨prj, t, hserves, ?_⟩
  obtain ⟨-, hfacts⟩ := Prod.mk.inj approval_facts
  rw [(Prod.mk.inj hfacts).2, integrationSha_session]
  intro hsame
  have hlength := congrArg String.length (Option.some.inj hsame)
  have hcolon : ":".length = 1 := rfl
  rw [String.length_append, String.length_append, hcolon] at hlength
  omega

end DeliveredHeadWitness

end HermesPipeline
