/-
What the logs of a session look like.  The command ids of records name the
pipeline, the station and the number of the record, so as long as no client
uses such an id, the next record of a station always has an id of its own; and
every record carries the fields of its station.
-/
import HermesPipeline.SessionMoves

namespace HermesPipeline

open Lib KernelController KernelBridge

namespace KernelBridge

/-- Texts that end in a separator and a tail without it. -/
theorem split_last_inj {sep : Char} (left right : List Char)
    {tail tail' : List Char} (htail : sep ∉ tail) (htail' : sep ∉ tail')
    (heq : left ++ sep :: tail = right ++ sep :: tail') :
    left = right ∧ tail = tail' := by
  rcases List.append_eq_append_iff.mp heq with
    ⟨between, hright, hsplit⟩ | ⟨between, hleft, hsplit⟩
  · cases between with
    | nil => exact ⟨by simpa using hright.symm, by simpa using hsplit⟩
    | cons c rest =>
        have hsame := (List.cons.inj hsplit).2
        exact absurd (by simp [hsame]) htail
  · cases between with
    | nil => exact ⟨by simpa using hleft, by simpa using hsplit.symm⟩
    | cons c rest =>
        have hsame := (List.cons.inj hsplit).2
        exact absurd (by simp [hsame]) htail'

theorem toDigits_injective {m n : Nat}
    (heq : Nat.toDigits 10 m = Nat.toDigits 10 n) : m = n := by
  have hnumber := congrArg (fun digits => Nat.ofDigitChars 10 digits 0) heq
  simpa using hnumber

theorem underscore_not_mem_station (station : Station) :
    '_' ∉ station.value.toList := by
  cases station <;> decide

theorem Station.value_injective {left right : Station}
    (heq : left.value.toList = right.value.toList) : left = right := by
  revert heq
  cases left <;> cases right <;> decide

/-- A record id names its pipeline, its station and its number. -/
theorem recordId_inj {pl pl' : String} {station station' : Station} {n n' : Nat}
    (heq : recordId pl station n = recordId pl' station' n') :
    pl = pl' ∧ station = station' ∧ n = n' := by
  have hchars := congrArg String.toList heq
  have hdigits : ∀ k : Nat, (toString k).toList = Nat.toDigits 10 k :=
    fun k => Nat.toList_repr
  simp only [recordId, String.toList_append, hdigits] at hchars
  have hsep : "_".toList = ['_'] := by decide
  simp only [hsep, List.append_assoc, List.singleton_append] at hchars
  obtain ⟨hfront, hnumber⟩ := split_last_inj
    ("cmd_".toList ++ (pl.toList ++ '_' :: station.value.toList))
    ("cmd_".toList ++ (pl'.toList ++ '_' :: station'.value.toList))
    Nat.underscore_not_in_toDigits Nat.underscore_not_in_toDigits
    (by simpa only [List.append_assoc, List.cons_append] using hchars)
  obtain ⟨hpl, hstation⟩ := split_last_inj _ _
    (underscore_not_mem_station station) (underscore_not_mem_station station')
    (List.append_cancel_left hfront)
  exact ⟨String.toList_inj.mp hpl, Station.value_injective hstation,
    toDigits_injective hnumber⟩

/-- A command id of the form that records use. -/
def Reserved (commandId : String) : Prop :=
  ∃ pl station n, commandId = recordId pl station n

/-- A record id that was used is the id of a record in the log. -/
def Tidy (s : SqliteKernelStore) : Prop :=
  ∀ ws pl station n, s.inbox.find? (ws, recordId pl station n) ≠ none →
    n ≤ (recordsOf station (s.listEvents ws pl)).length

section Tidy

variable {s s' : SqliteKernelStore} {ws prj pl cmd : String}
  {event : EventWrite}

theorem tidy_init : Tidy SqliteKernelStore.init := by
  intro ws pl station n hfound
  exact absurd rfl hfound

theorem Tidy.sameLog (htidy : Tidy s) (hsame : s.SameLog s') : Tidy s' := by
  intro ws pl station n
  rw [hsame.inbox, hsame.listEvents]
  exact htidy ws pl station n

theorem length_recordsOf_le (hlater : s.Later s') (hnumbered : s.Numbered)
    (ws pl : String) (station : Station) :
    (recordsOf station (s.listEvents ws pl)).length ≤
      (recordsOf station (s'.listEvents ws pl)).length :=
  ((hlater.log hnumbered ws pl).filter _).length_le

/-- A command of a client keeps the record ids in order. -/
theorem Tidy.grows (htidy : Tidy s) (hnumbered : s.Numbered)
    (hgrows : Grows ws pl cmd event s s') (hclient : ¬ Reserved cmd) :
    Tidy s' := by
  intro ws' pl' station n hfound
  refine le_trans ?_ (length_recordsOf_le
    (SqliteKernelStore.later_of_grows hgrows) hnumbered ws' pl' station)
  rcases hgrows.find?_inbox hfound with hold | hnew
  · exact htidy ws' pl' station n hold
  · exact absurd ⟨pl', station, n, (Prod.mk.inj hnew).2.symm⟩ hclient

/-- The record of a station keeps the record ids in order. -/
theorem Tidy.appends {codec : Codec} {station : Station}
    {fields : Dict String String} (htidy : Tidy s) (hnumbered : s.Numbered)
    (happends : Appends codec ws prj pl station fields s s') : Tidy s' := by
  obtain ⟨event, hrecords, hgrows⟩ := happends.grows
  intro ws' pl' station' n hfound
  rcases hgrows.find?_inbox hfound with hold | hnew
  · exact (htidy ws' pl' station' n hold).trans
      (length_recordsOf_le happends.later hnumbered ws' pl' station')
  · obtain ⟨rfl, hid⟩ := Prod.mk.inj hnew
    obtain ⟨rfl, rfl, rfl⟩ := recordId_inj hid
    rw [hgrows.listEvents_self hnumbered, recordsOf_append,
      hrecords.recordsOf_self, List.length_append, nextAttempt]
    simp [Nat.add_comm]

/-- The next record of a station has an id of its own. -/
theorem Tidy.fresh (htidy : Tidy s) (ws pl : String) (station : Station) :
    s.inbox.find? (ws, recordId pl station (nextAttempt s ws pl station)) =
      none := by
  by_contra hfound
  have hle := htidy ws pl station _ hfound
  rw [nextAttempt] at hle
  omega

theorem Tidy.canRecord {station : Station} (htidy : Tidy s)
    (hfits : IdsFit ws prj pl
      (recordId pl station (nextAttempt s ws pl station)))
    (hopened : ∃ snapshot, s.pipelines.find? (ws, pl) = some snapshot ∧
      snapshot.status = "OPEN")
    (hsmall : s.storedRevision ws pl ≤ maxSafeInteger) :
    CanRecord ws prj pl station s :=
  ⟨hfits, hopened, htidy.fresh ws pl station, hsmall⟩

end Tidy

end KernelBridge

namespace RootState

variable {env : RootEnv} {commandId : String} {ids : RequestIds}
  {phase : Phase} {s s' : RootState}

theorem Kept.tidy {ws prj pl : String} {station : Station}
    {fields : Dict String String} {names : List String} {bridge : Bridge}
    (hkept : Kept env ws prj pl station fields names bridge s s')
    (hnumbered : s.store.Numbered) (htidy : Tidy s.store) : Tidy s'.store := by
  rcases hkept.log with hsame | ⟨store, happends, hsame⟩
  · exact htidy.sameLog hsame
  · exact (htidy.appends hnumbered happends).sameLog hsame

theorem Move.tidy (hmove : Move env commandId ids phase s s')
    (hclient : ¬ Reserved commandId) (hnumbered : s.store.Numbered)
    (htidy : Tidy s.store) : Tidy s'.store := by
  cases hmove with
  | framed frame => exact htidy.sameLog frame.log
  | launched s launch => exact htidy
  | restored s => exact htidy
  | enrolled rewritten => exact rewritten.store ▸ htidy
  | confirmed k grows type => exact htidy.grows hnumbered grows hclient
  | planned absent kept => exact kept.tidy hnumbered htidy
  | designed absent planned kept => exact kept.tidy hnumbered htidy
  | pended absent rewritten => exact rewritten.store ▸ htidy
  | committed prd arch role kept => exact kept.tidy hnumbered htidy
  | approved develops role => exact htidy
  | denied develops kept => exact kept.tidy hnumbered htidy
  | developed develops kept => exact kept.tidy hnumbered htidy
  | infra verifies kept => exact kept.tidy hnumbered htidy
  | verified verifies kept => exact kept.tidy hnumbered htidy
  | dropped rewritten => exact rewritten.store ▸ htidy
  | forgotten s => exact htidy
  | counted rewritten => exact rewritten.store ▸ htidy

/-- Every event of the store is one that a bridge writes. -/
def Logged (codec : Codec) (store : SqliteKernelStore) : Prop :=
  ∀ event ∈ store.events.rows, BridgeEvent codec event

section Logged

variable {codec : Codec}

theorem logged_init (codec : Codec) : Logged codec .init := by
  intro event hevent
  cases hevent

theorem Logged.listEvents {store : SqliteKernelStore}
    (hlogged : Logged codec store) (ws pl : String) :
    ∀ event ∈ store.listEvents ws pl, BridgeEvent codec event := by
  intro event hevent
  unfold SqliteKernelStore.listEvents at hevent
  split at hevent
  · cases hevent
  · rw [SqliteKernelStore.listEventsOn, sortByRevision, List.mem_insertionSort]
      at hevent
    exact hlogged event (List.mem_of_mem_filter hevent)

theorem Logged.grows {ws pl cmd : String} {event : EventWrite}
    {store store' : SqliteKernelStore} (hlogged : Logged codec store)
    (hgrows : Grows ws pl cmd event store store')
    (hevent : BridgeEvent codec event) : Logged codec store' := by
  intro other hother
  rw [hgrows.events, List.mem_append, List.mem_singleton] at hother
  rcases hother with hold | rfl
  · exact hlogged other hold
  · exact hevent

theorem Logged.sameLog {store store' : SqliteKernelStore}
    (hlogged : Logged codec store) (hsame : store.SameLog store') :
    Logged codec store' := by
  intro event hevent
  rw [hsame.events] at hevent
  exact hlogged event hevent

end Logged

section Rows

theorem recordedFields_prdRow (result : PrdResult) :
    RecordedFields .prd (prdRow result) :=
  .of_keys (by simp [recordedFields, prdRow, rowOf, Dict.update, Dict.get?_set])
    (fun _ hname => Or.inl hname)

theorem recordedFields_archRow (result : ArchitectureResult) :
    RecordedFields .architecture (archRow result) :=
  .of_keys (by simp [recordedFields, archRow, rowOf, Dict.update, Dict.get?_set])
    (fun _ hname => Or.inl hname)

theorem recordedFields_developmentRow (result : DevelopmentResult) :
    RecordedFields .development (developmentRow result) :=
  .of_keys (by
    simp [recordedFields, developmentRow, rowOf, Dict.update, Dict.get?_set])
    (fun _ hname => Or.inl hname)

theorem recordedFields_deniedRow :
    RecordedFields .development deniedRow :=
  .of_keys (by simp [recordedFields, deniedRow, rowOf, Dict.update, Dict.get?_set])
    (by decide)

theorem recordedFields_approvalRecord (principal : String) :
    RecordedFields .approval (approvalRecord principal) :=
  .of_keys (by
    simp [recordedFields, approvalRecord, rowOf, Dict.update, Dict.get?_set])
    (fun _ hname => Or.inl hname)

theorem recordedFields_infraRow (pl prj sha : String) :
    RecordedFields .verify (verifyRecord infraRow pl prj sha) :=
  .of_keys (by
    simp [recordedFields, verifyRecord, infraRow, rowOf, Dict.update,
      Dict.get?_set])
    (by
      intro name hname
      change name ∈ ["verify_status", "e2e_id", "acceptance_id",
        "verify_attempts", "infra_attempts", "pipeline_id", "project_id",
        "candidate_sha"] at hname
      revert name
      decide)

theorem recordedFields_verifiedRow (result : VerifyResult) (pl prj sha : String) :
    RecordedFields .verify (verifyRecord (verifiedRow result) pl prj sha) := by
  refine .of_keys ?_ fun name hname => Or.inl ?_
  · simp [recordedFields, verifyRecord, verifiedRow, rowOf, Dict.update,
      Dict.get?_set]
  · by_contra hother
    simp only [recordedFields, List.mem_cons, List.not_mem_nil, or_false,
      not_or] at hother
    have hnone : (verifyRecord (verifiedRow result) pl prj sha).get? name =
        none := by
      simp [verifyRecord, verifiedRow, rowOf, Dict.update, Dict.get?_set, hother]
    exact absurd hname (by rw [Dict.mem_keys_iff, hnone]; simp)

end Rows

theorem Kept.logged {ws prj pl : String} {station : Station}
    {fields : Dict String String} {names : List String} {bridge : Bridge}
    (hkept : Kept env ws prj pl station fields names bridge s s')
    (hfields : RecordedFields station fields)
    (hlogged : Logged env.codec s.store) : Logged env.codec s'.store := by
  rcases hkept.log with hsame | ⟨store, happends, hsame⟩
  · exact hlogged.sameLog hsame
  · obtain ⟨event, hrecords, hgrows⟩ := happends.grows
    refine (hlogged.grows hgrows ?_).sameLog hsame
    exact Or.inr ⟨station, fields, hfields, hrecords⟩

/-- Every move writes only events of the bridge. -/
theorem Move.logged (hmove : Move env commandId ids phase s s')
    (hlogged : Logged env.codec s.store) : Logged env.codec s'.store := by
  cases hmove with
  | framed frame => exact hlogged.sameLog frame.log
  | launched s launch => exact hlogged
  | restored s => exact hlogged
  | enrolled rewritten => exact rewritten.store ▸ hlogged
  | confirmed k grows type =>
      refine hlogged.grows grows (Or.inl ?_)
      rw [type]
      decide
  | planned absent kept => exact kept.logged (recordedFields_prdRow _) hlogged
  | designed absent planned kept =>
      exact kept.logged (recordedFields_archRow _) hlogged
  | pended absent rewritten => exact rewritten.store ▸ hlogged
  | committed prd arch role kept =>
      exact kept.logged (recordedFields_approvalRecord _) hlogged
  | approved develops role => exact hlogged
  | denied develops kept => exact kept.logged recordedFields_deniedRow hlogged
  | developed develops kept =>
      exact kept.logged (recordedFields_developmentRow _) hlogged
  | infra verifies kept => exact kept.logged (recordedFields_infraRow _ _ _) hlogged
  | verified verifies kept =>
      exact kept.logged (recordedFields_verifiedRow _ _ _ _) hlogged
  | dropped rewritten => exact rewritten.store ▸ hlogged
  | forgotten s => exact hlogged
  | counted rewritten => exact rewritten.store ▸ hlogged

end RootState

end HermesPipeline
