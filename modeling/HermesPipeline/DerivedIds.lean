/-
Derived identities.  Event ids and lease names join the ids of a command with
underscores, which the ids may contain themselves: two workspaces make the same
names as soon as one of them reads like the other one with the start of a
command or of a pipeline behind it.
-/
import HermesPipeline.KernelSession
import HermesPipeline.RecordLog
import HermesPipeline.ReferenceCodec

namespace HermesPipeline

open Lib KernelController

namespace DerivedIds

/-- A workspace id that the command pattern admits. -/
abbrev WorkspaceId := { text : String // matchesScope "ws_" text = true }

/-- The second workspace reads like the first one with the start of a name of
the scope behind it. -/
def Extends (scope ws ws' : String) : Prop :=
  ws' = ws ++ "_" ++ scope ∨ (ws ++ "_" ++ scope ++ "_").toList <+: ws'.toList

/-- No workspace of the set extends another one by a command or a pipeline. -/
def Apart (scope : String) (ids : Set WorkspaceId) : Prop :=
  ∀ ws ∈ ids, ∀ ws' ∈ ids, ¬ Extends scope ws ws'

/-- A joined name that starts with the scope and an underscore leaves only two
readings of what stands before its last part. -/
theorem scoped_start {scope rest middle name : List Char} (hscope : '_' ∉ scope)
    (hsame : scope ++ '_' :: rest = middle ++ '_' :: name) :
    middle = scope ∨ scope ++ ['_'] <+: middle := by
  rcases List.append_eq_append_iff.mp hsame with ⟨more, rfl, hmore⟩ | ⟨more, rfl, hmore⟩
  · cases more with
    | nil => exact .inl (List.append_nil _)
    | cons mark more =>
        rw [List.cons_append, List.cons.injEq] at hmore
        obtain ⟨rfl, -⟩ := hmore
        exact .inr ⟨more, by simp⟩
  · cases more with
    | nil => exact .inl (List.append_nil _).symm
    | cons mark more =>
        rw [List.cons_append, List.cons.injEq] at hmore
        obtain ⟨rfl, -⟩ := hmore
        exact absurd (by simp) hscope

section Joined

variable {scope : String} (hscope : '_' ∉ scope.toList)

include hscope

/-- One side of the comparison of two joined names: the first workspace is the
start of the second one. -/
theorem extends_of_longer {ws ws' name name' : String} {between : List Char}
    (hws : ws'.toList = ws.toList ++ between)
    (hname : '_' :: name.toList = between ++ '_' :: name'.toList)
    (hmatch : matchesScope (scope ++ "_") name = true) :
    ws = ws' ∧ name = name' ∨ Extends scope ws ws' := by
  cases between with
  | nil =>
      rw [List.append_nil] at hws
      rw [List.nil_append, List.cons.injEq] at hname
      exact .inl ⟨(String.toList_injective hws).symm, String.toList_injective hname.2⟩
  | cons mark middle =>
      rw [List.cons_append, List.cons.injEq] at hname
      obtain ⟨rfl, hname⟩ := hname
      obtain ⟨rest, hrest, -, -⟩ := mem_of_matchesScope hmatch
      have hsame : scope.toList ++ '_' :: rest = middle ++ '_' :: name'.toList := by
        rw [← hname, hrest]
        simp
      right
      rcases scoped_start hscope hsame with rfl | ⟨more, rfl⟩
      · left
        apply String.toList_injective
        rw [hws]
        simp
      · right
        exact ⟨more, by rw [hws]; simp⟩

/-- Joined names are the same only for the same parts, or one workspace extends
the other one. -/
theorem joined_cases {ws ws' name name' : String}
    (hmatch : matchesScope (scope ++ "_") name = true)
    (hmatch' : matchesScope (scope ++ "_") name' = true)
    (hsame : ws.toList ++ '_' :: name.toList = ws'.toList ++ '_' :: name'.toList) :
    ws = ws' ∧ name = name' ∨ Extends scope ws ws' ∨ Extends scope ws' ws := by
  rcases List.append_eq_append_iff.mp hsame with ⟨between, hws, hname⟩ |
    ⟨between, hws, hname⟩
  · rcases extends_of_longer hscope hws hname hmatch with heq | hextends
    · exact .inl heq
    · exact .inr (.inl hextends)
  · rcases extends_of_longer hscope hws hname hmatch' with ⟨hleft, hright⟩ | hextends
    · exact .inl ⟨hleft.symm, hright.symm⟩
    · exact .inr (.inr hextends)

omit hscope in
/-- A workspace that extends another one makes one of its names. -/
theorem collision_of_extends {ws : String} {ws' : WorkspaceId}
    (hident : ∀ c ∈ scope.toList, isIdentChar c = true)
    (hextends : Extends scope ws ws') :
    ∃ name name', matchesScope (scope ++ "_") name = true ∧
      matchesScope (scope ++ "_") name' = true ∧ name ≠ name' ∧
      ws.toList ++ '_' :: name.toList = ws'.1.toList ++ '_' :: name'.toList := by
  have hmark : isIdentChar '_' = true := by decide
  have hx : isIdentChar 'x' = true := by decide
  have hws' : ∃ middle : List Char, ws'.1.toList = ws.toList ++ '_' :: middle ∧
      (middle = scope.toList ∨ ∃ more, middle = scope.toList ++ '_' :: more) := by
    rcases hextends with heq | ⟨more, hmore⟩
    · exact ⟨scope.toList, by rw [heq]; simp, .inl rfl⟩
    · exact ⟨scope.toList ++ '_' :: more, by rw [← hmore]; simp, .inr ⟨more, rfl⟩⟩
  obtain ⟨middle, hsplit, hmiddle⟩ := hws'
  have hchars : ∀ c ∈ middle, isIdentChar c = true := by
    intro c hc
    obtain ⟨rest, hrest, -, hidents⟩ := mem_of_matchesScope ws'.2
    have hmem : c ∈ ws'.1.toList := by
      rw [hsplit]
      simp [hc]
    rw [hrest, List.mem_append] at hmem
    rcases hmem with hstart | hmem
    · revert hstart
      have hall : "ws_".toList.all isIdentChar = true := by decide
      exact List.all_eq_true.mp hall c
    · exact hidents c hmem
  have hlast : String.toList (scope ++ "_x") = scope.toList ++ ['_', 'x'] := by simp
  refine ⟨String.ofList (middle ++ '_' :: (scope ++ "_x").toList), scope ++ "_x",
    ?_, ?_, ?_, ?_⟩
  · rcases hmiddle with rfl | ⟨more, rfl⟩
    · apply matchesScope_of_mem (scope ++ "_x").toList
      · simp
      · simp
      · simpa [or_imp, forall_and, hmark, hx] using hident
    · apply matchesScope_of_mem (more ++ '_' :: (scope ++ "_x").toList)
      · simp
      · simp
      · intro c hc
        have hmore : ∀ d ∈ more, isIdentChar d = true := by
          intro d hd
          exact hchars d (by simp [hd])
        simp only [hlast, List.mem_append, List.mem_cons, List.not_mem_nil,
          or_false] at hc
        rcases hc with hc | rfl | hc | rfl | rfl
        · exact hmore c hc
        · exact hmark
        · exact hident c hc
        · exact hmark
        · exact hx
  · apply matchesScope_of_mem ['x']
    · simp
    · simp
    · simpa using hx
  · intro heq
    have hlength := congrArg (fun text : String => text.toList.length) heq
    simp only [String.toList_ofList, List.length_append, List.length_cons] at hlength
    omega
  · rw [hsplit]
    simp

end Joined

/-- Two accepted commands have one event id only if they are the same. -/
def EventIdsUnique (ids : Set WorkspaceId) : Prop :=
  ∀ ws ∈ ids, ∀ ws' ∈ ids, ∀ cmd cmd', matchesScope "cmd_" cmd = true →
    matchesScope "cmd_" cmd' = true → eventId ws cmd = eventId ws' cmd' →
      ws = ws' ∧ cmd = cmd'

/-- Two leases have one attempt id, or one run id, only if they are the same. -/
def LeaseNamesUnique (ids : Set WorkspaceId) : Prop :=
  ∀ stem ∈ ["att_", "run_"], ∀ ws ∈ ids, ∀ ws' ∈ ids, ∀ pl pl',
    matchesScope "pl_" pl = true → matchesScope "pl_" pl' = true →
      ∀ generation generation' : Nat,
        leaseName stem ws pl generation = leaseName stem ws' pl' generation' →
          ws = ws' ∧ pl = pl' ∧ generation = generation'

theorem eventId_toList (ws cmd : String) :
    (eventId ws cmd).toList = "evt_".toList ++ (ws.toList ++ '_' :: cmd.toList) := by
  simp [eventId]

theorem eventIdsUnique_iff (ids : Set WorkspaceId) :
    EventIdsUnique ids ↔ Apart "cmd" ids := by
  constructor
  · intro hunique ws hws ws' hws' hextends
    obtain ⟨cmd, cmd', hcmd, hcmd', hne, hsame⟩ :=
      collision_of_extends (List.all_eq_true.mp (by decide)) hextends
    apply hne
    refine (hunique ws hws ws' hws' cmd cmd' hcmd hcmd' ?_).2
    apply String.toList_injective
    rw [eventId_toList, eventId_toList, hsame]
  · intro hapart ws hws ws' hws' cmd cmd' hcmd hcmd' hsame
    have hjoined := congrArg String.toList hsame
    rw [eventId_toList, eventId_toList, List.append_right_inj] at hjoined
    rcases joined_cases (by decide : '_' ∉ "cmd".toList) hcmd hcmd' hjoined with
      ⟨heq, hname⟩ | hextends | hextends
    · exact ⟨Subtype.ext heq, hname⟩
    · exact absurd hextends (hapart ws hws ws' hws')
    · exact absurd hextends (hapart ws' hws' ws hws)

theorem leaseName_toList (stem ws pl : String) (generation : Nat) :
    (leaseName stem ws pl generation).toList = (stem.toList ++
      (ws.toList ++ '_' :: pl.toList)) ++ '_' :: Nat.toDigits 10 generation := by
  simp [leaseName]

theorem leaseNamesUnique_iff (ids : Set WorkspaceId) :
    LeaseNamesUnique ids ↔ Apart "pl" ids := by
  constructor
  · intro hunique ws hws ws' hws' hextends
    obtain ⟨pl, pl', hpl, hpl', hne, hsame⟩ :=
      collision_of_extends (List.all_eq_true.mp (by decide)) hextends
    apply hne
    refine (hunique "att_" (by decide) ws hws ws' hws' pl pl' hpl hpl' 1 1 ?_).2.1
    apply String.toList_injective
    rw [leaseName_toList, leaseName_toList, hsame]
  · intro hapart stem _ ws hws ws' hws' pl pl' hpl hpl' generation generation' hsame
    have hchars := congrArg String.toList hsame
    rw [leaseName_toList, leaseName_toList] at hchars
    obtain ⟨hnames, hnumber⟩ := KernelBridge.split_last_inj _ _
      Nat.underscore_not_in_toDigits Nat.underscore_not_in_toDigits hchars
    rw [List.append_right_inj] at hnames
    rcases joined_cases (by decide : '_' ∉ "pl".toList) hpl hpl' hnames with
      ⟨heq, hname⟩ | hextends | hextends
    · exact ⟨Subtype.ext heq, hname, KernelBridge.toDigits_injective hnumber⟩
    · exact absurd hextends (hapart ws hws ws' hws')
    · exact absurd hextends (hapart ws' hws' ws hws)

/-- The event carries the id of a command of one of the workspaces. -/
def Named (ids : Set WorkspaceId) (event : EventWrite) : Prop :=
  ∃ ws ∈ ids, ∃ cmd, matchesScope "cmd_" cmd = true ∧ event.workspaceId = ws ∧
    event.eventId = eventId ws cmd

/-- A commit, if it is one, is named by one of the workspaces. -/
def NamedCommit (ids : Set WorkspaceId) : StoreOp → Prop
  | .commitAccepted write => Named ids write.event
  | _ => True

/-- The command of an input belongs to one of the workspaces. -/
def Within (ids : Set WorkspaceId) (op : SessionOp) : Prop :=
  ∀ command, op.submitted = some command →
    (⟨command.workspaceId, command.workspaceId_ok⟩ : WorkspaceId) ∈ ids

section Session

variable {ids : Set WorkspaceId}

theorem calls_submit_named (k : KernelController) {command : ControllerCommand}
    (hws : (⟨command.workspaceId, command.workspaceId_ok⟩ : WorkspaceId) ∈ ids) :
    (k.submit command).Calls (NamedCommit ids) := by
  apply calls_submit
  · trivial
  · trivial
  · intro fingerprint state event payloadJson
    exact ⟨_, hws, command.commandId, command.commandId_ok, rfl, rfl⟩

/-- Every call commits only events that are named by its workspace. -/
theorem calls_named (k : KernelController) {c : KernelCall}
    (hwithin : Within ids (.call c)) : (c.program k).Calls (NamedCommit ids) := by
  have hask : ∀ op : StoreOp, NamedCommit ids op → (ask op).Calls (NamedCommit ids) :=
    fun op hop => Program.calls_perform hop
  have hread : ∀ query, (KernelController.read query).Calls (NamedCommit ids) := by
    intro query
    exact Program.Calls.ite trivial ((hask _ (by trivial)).bind fun _ => trivial)
  cases c <;> refine Program.Calls.bind ?_ fun _ => trivial
  case submit command => exact calls_submit_named k (hwithin command rfl)
  case submitWithLease command holder generation now =>
      have hrefuse : ∀ status code message,
          (k.refuse command status code message).Calls (NamedCommit ids) :=
        fun status code message => calls_refuse k command trivial status code message
      refine Program.Calls.ite (hrefuse _ _ _) ⟨trivial, ?_⟩
      apply calls_catching
      · trivial
      · intro current
        exact Program.Calls.ite (calls_submit_named k (hwithin command rfl))
          (hrefuse _ _ _)
  case read query => exact hread query
  case replay ws cmd =>
      refine (hask _ (by trivial)).bind fun found => ?_
      cases found with
      | none => trivial
      | some record =>
          refine Program.Calls.ite ?_ trivial
          split
          · trivial
          · refine (hask _ (by trivial)).bind fun _ => (hask _ (by trivial)).bind fun found => ?_
            cases found with
            | none => trivial
            | some delivered => exact Program.Calls.ite trivial trivial
  case acquireLease ws pl holder now ttl replace =>
      refine (hask _ (by trivial)).bind fun current => Program.Calls.ite trivial ?_
      exact (hask _ (by trivial)).bind fun _ => trivial
  case heartbeatLease ws pl holder generation now ttl =>
      refine (hask _ (by trivial)).bind fun current => ?_
      cases current with
      | none => trivial
      | some lease =>
          exact Program.Calls.ite ((hask _ (by trivial)).bind fun _ => trivial) trivial
  case cancel ws pl => exact Program.Calls.ite trivial (hask _ (by trivial))
  case cleanup now => exact hask _ (by trivial)
  case rebuild query =>
      exact Program.Calls.ite trivial ((hask _ (by trivial)).bind fun _ => hread query)
  case recordOutboxDelivery => exact hask _ (by trivial)
  case listEvents | listPendingOutbox | findOutbox | counts => exact hask _ (by trivial)

/-- Every stored event is named by one of the workspaces. -/
def AllNamed (ids : Set WorkspaceId) (s : SqliteKernelStore) : Prop :=
  ∀ event ∈ s.events.rows, Named ids event

theorem allNamed_handle (codec : Codec) (op : StoreOp) (s : SqliteKernelStore)
    (hop : NamedCommit ids op) (hnamed : AllNamed ids s) :
    AllNamed ids (SqliteKernelStore.handle codec op s).2 := by
  cases op with
  | commitAccepted write =>
      cases hcommit : s.commitAccepted write with
      | mk answer next =>
          change AllNamed ids (s.commitAccepted write).2
          rw [hcommit]
          cases answer with
          | error error =>
              have htables : next.events.rows = s.events.rows :=
                congrArg MemoryKernelStore.events
                  (SqliteKernelStore.commitAccepted_error hcommit)
              intro event hevent
              rw [htables] at hevent
              exact hnamed event hevent
          | ok _ =>
              obtain ⟨-, inbox, events, outbox, -, hinsert, -, rfl⟩ :=
                SqliteKernelStore.commitAccepted_ok hcommit
              intro event hevent
              change event ∈ events.rows at hevent
              rw [((Keyed.insert?_eq_some_iff _ _ _).mp hinsert).2, List.mem_append,
                List.mem_singleton] at hevent
              rcases hevent with hold | rfl
              · exact hnamed event hold
              · exact hop
  | loadPipeline ws pl =>
      simp only [SqliteKernelStore.handle, SqliteKernelStore.loadPipeline]
      split
      · exact hnamed
      · split <;> exact hnamed
  | rebuildPipeline ws pl =>
      simp only [SqliteKernelStore.handle, SqliteKernelStore.rebuildPipeline,
        SqliteKernelStore.deletePipeline]
      split
      · exact hnamed
      · split
        · exact hnamed
        · split <;> exact hnamed
  | deletePipeline ws pl =>
      simp only [SqliteKernelStore.handle, SqliteKernelStore.deletePipeline]
      split <;> exact hnamed
  | recordOutboxDelivery ws cmd receipt =>
      simp only [SqliteKernelStore.handle, SqliteKernelStore.recordOutboxDelivery]
      split <;> exact hnamed
  | saveLease record =>
      simp only [SqliteKernelStore.handle, SqliteKernelStore.saveLease]
      split
      · exact hnamed
      · split <;> exact hnamed
  | deleteLease ws pl =>
      simp only [SqliteKernelStore.handle, SqliteKernelStore.deleteLease]
      split <;> exact hnamed
  | deleteExpiredLeases now =>
      simp only [SqliteKernelStore.handle, SqliteKernelStore.deleteExpiredLeases]
      split <;> exact hnamed
  | findInbox | listEvents | listPendingOutbox | findOutbox | loadLease | counts =>
      exact hnamed

theorem allNamed_after (env : KernelEnv) (ops : List SessionOp)
    (hwithin : ∀ op ∈ ops, Within ids op) :
    AllNamed ids (Session.after env (sqliteStore env.codec) ops).store := by
  induction ops using List.reverseRecOn with
  | nil =>
      intro event hevent
      cases hevent
  | append_singleton ops op ih =>
      have hbefore := ih fun other hother => hwithin other (by simp [hother])
      rw [Session.after, exec_concat]
      cases op with
      | call c =>
          have hcalls := calls_named (env.controller (Session.after env
            (sqliteStore env.codec) ops).paused) (hwithin (.call c) (by simp))
          exact hcalls.run_preserves
            (fun op s hop hnamed => allNamed_handle env.codec op s hop hnamed) hbefore
      | pause | resume => exact hbefore
      | tripCommitFailure => exact hbefore
      | tripReadFailure => exact hbefore

end Session

/-- The rows of one workspace. -/
def ownRows (s : SqliteKernelStore) (ws : String) : SqliteKernelStore :=
  { s with
    inbox := s.inbox.deleteWhere fun row => row.workspaceId != ws
    events := s.events.deleteWhere fun event => event.workspaceId != ws
    pipelines := s.pipelines.deleteWhere fun snapshot => snapshot.workspaceId != ws
    outbox := s.outbox.deleteWhere fun row => row.workspaceId != ws
    leases := s.leases.deleteWhere fun lease => lease.workspaceId != ws }

/-- The commit is refused as unavailable, and it would go through if only the
rows of its own workspace were there. -/
def RefusedByOthers (s : SqliteKernelStore) (write : AcceptedWrite) : Prop :=
  (s.commitAccepted write).1 = .error .persistence ∧
    ((ownRows s write.event.workspaceId).commitAccepted write).1 = .ok ()

/-- In every session of these workspaces, no acceptable command is refused
because of another workspace. -/
def NeverRefused (ids : Set WorkspaceId) : Prop :=
  ∀ (env : KernelEnv) (ops : List SessionOp), (∀ op ∈ ops, Within ids op) →
    ∀ (paused : Bool) (command : ControllerCommand),
      (⟨command.workspaceId, command.workspaceId_ok⟩ : WorkspaceId) ∈ ids →
        ∀ a : (env.controller paused).Acceptance command,
          ¬ RefusedByOthers
            (Session.after env (sqliteStore env.codec) ops).store a.write

/-- A commit goes through exactly when its keys are free, its numbers fit and no
fault was injected. -/
theorem commitAccepted_ok_iff (s : SqliteKernelStore) (write : AcceptedWrite) :
    (s.commitAccepted write).1 = .ok () ↔
      s.inbox.find? write.inbox.key = none ∧
        s.events.find? write.event.eventId = none ∧
        s.outbox.find? write.outbox.key = none ∧
        fitsInt64 write.event.pipelineRevision = true ∧ s.failAfter = false ∧
        fitsInt64 write.pipeline.revision = true := by
  constructor
  · intro hok
    unfold SqliteKernelStore.commitAccepted at hok
    split at hok
    · cases hok
    · next inserted hinsert =>
        obtain ⟨inbox, events, outbox, hinbox, hevents, houtbox, hfits, -⟩ :=
          SqliteKernelStore.insertAccepted_eq_some hinsert
        split at hok
        · cases hok
        · next hfault =>
            split at hok
            · next hrevision =>
                exact ⟨((Keyed.insert?_eq_some_iff _ _ _).mp hinbox).1,
                  ((Keyed.insert?_eq_some_iff _ _ _).mp hevents).1,
                  ((Keyed.insert?_eq_some_iff _ _ _).mp houtbox).1, hfits,
                  Bool.not_eq_true _ ▸ hfault, hrevision⟩
            · cases hok
  · rintro ⟨hinbox, hevents, houtbox, hfits, hfault, hrevision⟩
    obtain ⟨inbox, hinserted, -⟩ := Keyed.insert?_of_absent write.inbox hinbox
    obtain ⟨events, hstored, -⟩ := Keyed.insert?_of_absent write.event hevents
    obtain ⟨outbox, hqueued, -⟩ := Keyed.insert?_of_absent write.outbox houtbox
    simp [SqliteKernelStore.commitAccepted, SqliteKernelStore.insertAccepted,
      hinserted, hstored, hqueued, hfits, hfault, hrevision]

/-- A key of the own rows is free only if it is free. -/
theorem find?_own {R K : Type} [DecidableEq K] {key : R → K} (t : Keyed key)
    {drop : R → Bool} {k : K}
    (hkept : ∀ row, t.find? k = some row → drop row = false)
    (hnone : (t.deleteWhere drop).find? k = none) : t.find? k = none := by
  rw [Keyed.find?_deleteWhere] at hnone
  cases hfound : t.find? k with
  | none => rfl
  | some row =>
      rw [hfound, Option.filter_some, hkept row hfound] at hnone
      cases hnone

theorem neverRefused_of_apart {ids : Set WorkspaceId} (hapart : Apart "cmd" ids) :
    NeverRefused ids := by
  rintro env ops hwithin paused command hws a ⟨hrefused, hown⟩
  have hnamed := allNamed_after env ops hwithin
  generalize (Session.after env (sqliteStore env.codec) ops).store = s at *
  have hkept : ∀ ws : String, ws = command.workspaceId →
      (ws != a.write.event.workspaceId) = false := by
    rintro ws rfl
    exact bne_self_eq_false _
  obtain ⟨hinbox, hevents, houtbox, hfits⟩ := (commitAccepted_ok_iff _ _).mp hown
  have hgoes : (s.commitAccepted a.write).1 = .ok () := by
    refine (commitAccepted_ok_iff _ _).mpr ⟨?_, ?_, ?_, hfits⟩
    · apply find?_own s.inbox _ hinbox
      intro row hrow
      have hkey := ((s.inbox.find?_eq_some_iff _ _).mp hrow).2
      exact hkept _ (congrArg Prod.fst hkey)
    · apply find?_own s.events _ hevents
      intro event hevent
      obtain ⟨hmem, hid⟩ := (s.events.find?_eq_some_iff _ _).mp hevent
      obtain ⟨ws, hmember, cmd, hcmd, hworkspace, heventId⟩ := hnamed event hmem
      have hsame := (eventIdsUnique_iff ids).mpr hapart ws hmember _ hws cmd
        command.commandId hcmd command.commandId_ok (heventId.symm.trans hid)
      exact hkept _ (hworkspace.trans (congrArg Subtype.val hsame.1))
    · apply find?_own s.outbox _ houtbox
      intro row hrow
      have hkey := ((s.outbox.find?_eq_some_iff _ _).mp hrow).2
      exact hkept _ (congrArg Prod.fst hkey)
  rw [hgoes] at hrefused
  cases hrefused

/-- The derived names of a set of workspaces are unique, and no command is
refused because of another workspace, exactly when no workspace of the set reads
like another one with the start of a command or of a pipeline behind it. -/
theorem derived_ids_unique_iff (ids : Set WorkspaceId) :
    EventIdsUnique ids ∧ LeaseNamesUnique ids ∧ NeverRefused ids ↔
      Apart "cmd" ids ∧ Apart "pl" ids := by
  rw [eventIdsUnique_iff, leaseNamesUnique_iff]
  constructor
  · rintro ⟨hevents, hleases, -⟩
    exact ⟨hevents, hleases⟩
  · rintro ⟨hevents, hleases⟩
    exact ⟨hevents, hleases, neverRefused_of_apart hevents⟩

end DerivedIds

namespace DerivedIdsWitness

open DerivedIds ReferenceCodec

def env : KernelEnv := ⟨sampleCodec, "2026-08-06T00:00:00Z"⟩

/-- A confirmation in a workspace. -/
def confirm (workspaceId commandId : String)
    (workspaceId_ok : matchesScope "ws_" workspaceId = true)
    (commandId_ok : matchesScope "cmd_" commandId = true) : ControllerCommand :=
  { sampleConfirm with
    workspaceId := workspaceId
    commandId := commandId
    workspaceId_ok := workspaceId_ok
    commandId_ok := commandId_ok }

def first : ControllerCommand :=
  confirm "ws_a" "cmd_b_cmd_c" sampleConfirm.workspaceId_ok (by decide)

def second : ControllerCommand := confirm "ws_a_cmd_b" "cmd_c" (by decide) (by decide)

/-- Two commands with the event id `evt_ws_a_cmd_b_cmd_c`: the second one is
refused as unavailable, and it goes through on its own. -/
theorem same_event_id :
    first.workspaceId ≠ second.workspaceId ∧
      eventId first.workspaceId first.commandId =
        eventId second.workspaceId second.commandId ∧
      (Session.step env (sqliteStore env.codec)
          (Session.after env (sqliteStore env.codec) [.call (.submit first)])
          (.call (.submit second))).1 =
        .ok (.receipt ((env.controller false).unavailable second)) ∧
      (Session.step env (sqliteStore env.codec)
          (Session.after env (sqliteStore env.codec) [])
          (.call (.submit second))).1 =
        .ok (.receipt ((env.controller false).acceptedReceipt second
          ⟨.opened, 1, "Build the exporter"⟩)) := by
  refine ⟨by decide, by decide, by decide +kernel, by decide +kernel⟩

end DerivedIdsWitness

end HermesPipeline
