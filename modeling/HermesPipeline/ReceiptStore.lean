/-
The receipt store of the runtime: one SQLite file with the receipts and the
counted effects, and any number of processes that process commands over it.  The
statements of a call run one by one inside its write transaction, and a process
may stop at any of them; still every command has one receipt and one effect.
-/
import HermesPipeline.EventChain
import HermesPipeline.KernelSqlite
import HermesPipeline.Lib.Pool
import HermesPipeline.ReferenceCodec

namespace HermesPipeline

open Lib

namespace ReceiptStore

/-- `json.dumps(value, sort_keys=True, separators=(",", ":"))` and `json.loads`
of an object; `none` stands for a raised exception. -/
structure PyJson where
  dumps : Json → Option String
  loads : String → Option (Dict String Json)

/-- The receipt of one command. -/
structure Receipt where
  commandId : String
  payloadHash : String
  effectCount : Int
  deduplicated : Bool := false
  processedAt : String := "2026-01-01T00:00:00Z"
deriving Repr, DecidableEq

def Receipt.asDict (receipt : Receipt) : Dict String Json where
  rows :=
    [("command_id", .str receipt.commandId),
      ("payload_hash", .str receipt.payloadHash),
      ("effect_count", .int receipt.effectCount),
      ("deduplicated", .bool receipt.deduplicated),
      ("processed_at", .str receipt.processedAt)]
  unique := by simp

/-- A receipt whose count fits its column is read back as it was written. -/
def PyJson.RoundTrips (json : PyJson) : Prop :=
  ∀ receipt : Receipt, fitsInt64 receipt.effectCount = true → ∃ text stored,
    json.dumps (.obj receipt.asDict.rows) = some text ∧
      json.loads text = some stored ∧
      ∀ name, stored.get? name = receipt.asDict.get? name

/-- A row of `receipts`. -/
structure ReceiptRow where
  commandId : String
  payloadHash : String
  receiptJson : String
  effectCount : Int
  createdAt : String
deriving Repr, DecidableEq

/-- The two tables. -/
structure Tables where
  receipts : Keyed ReceiptRow.commandId := .empty
  effects : Dict String Int := .empty
deriving DecidableEq

/-- The database file: what is committed, and the tables of the one write
transaction that may be open. -/
structure ReceiptFile where
  committed : Tables := {}
  writer : Option Tables := none
deriving DecidableEq

/-- `_stable_hash`. -/
def stableHash (json : PyJson) (sha : Sha256) (commandId : String)
    (payload : List (String × Json)) : Option String :=
  (json.dumps (.obj [("command_id", .str commandId), ("payload", .obj payload)])).map
    sha.hexdigest

/-- Where a call of `process` is: named by what it does next. -/
inductive Phase
  | hashPayload
  | beginImmediate (payloadHash : String)
  | selectReceipt (payloadHash : String)
  | commitFound (receiptJson : String)
  | loadReceipt (receiptJson : String)
  | selectEffect (payloadHash : String)
  | writeEffect (payloadHash : String) (stored : Option Int)
  | insertReceipt (payloadHash : String) (effectCount : Int)
  | commitReceipt (receipt : Receipt)
  | returnReceipt (receipt : Receipt)
  | returned (receipt : Dict String Json)
  /-- The call raised, or its process crashed. -/
  | ended

/-- The call holds the write transaction. -/
def Phase.inTransaction : Phase → Bool
  | .selectReceipt _ | .commitFound _ | .selectEffect _ | .writeEffect _ _
  | .insertReceipt _ _ | .commitReceipt _ => true
  | _ => false

def Phase.finished : Phase → Bool
  | .returned _ | .ended => true
  | _ => false

/-- One call of `process`, in a process that may stop after some steps. -/
structure ReceiptCall where
  commandId : String
  payload : List (String × Json)
  /-- After how many steps the process crashes or the driver raises, if ever. -/
  lifetime : Option Nat

structure ReceiptThread where
  call : ReceiptCall
  phase : Phase

section Steps

variable (json : PyJson) (sha : Sha256)

def ReceiptThread.at (thread : ReceiptThread) (phase : Phase) : ReceiptThread :=
  { thread with phase := phase }

/-- The call ends without an answer: an open transaction leaves no trace. -/
def ReceiptThread.stop (thread : ReceiptThread) (file : ReceiptFile) :
    ReceiptThread × ReceiptFile :=
  (thread.at .ended,
    if thread.phase.inTransaction then { file with writer := none } else file)

/-- A statement on the tables of the open transaction. -/
def ReceiptThread.statement (thread : ReceiptThread) (file : ReceiptFile)
    (run : Tables → Option (Phase × Tables)) : ReceiptThread × ReceiptFile :=
  match file.writer.bind run with
  | none => thread.stop file
  | some (phase, tables) => (thread.at phase, { file with writer := some tables })

/-- The open transaction becomes visible. -/
def ReceiptThread.commit (thread : ReceiptThread) (file : ReceiptFile)
    (phase : Phase) : ReceiptThread × ReceiptFile :=
  match file.writer with
  | none => thread.stop file
  | some tables => (thread.at phase, { committed := tables, writer := none })

/-- The effect of the command counted once more. -/
def countEffect (commandId : String) (stored : Option Int) (tables : Tables) :
    Option (Int × Tables) :=
  let effectCount := (stored.getD 0) + 1
  if fitsInt64 effectCount then
    some (effectCount,
      { tables with effects := tables.effects.set commandId effectCount })
  else none

/-- The row of a new receipt. -/
def storeReceipt (receipt : Receipt) (tables : Tables) : Option Tables := do
  let receiptJson ← json.dumps (.obj receipt.asDict.rows)
  let receipts ← tables.receipts.insert? ⟨receipt.commandId, receipt.payloadHash,
    receiptJson, receipt.effectCount, receipt.processedAt⟩
  pure { tables with receipts := receipts }

/-- The receipt of a command that is processed for the first time. -/
def newReceipt (commandId payloadHash : String) (effectCount : Int) : Receipt where
  commandId := commandId
  payloadHash := payloadHash
  effectCount := effectCount

/-- One step of `process`. -/
def ReceiptThread.move (thread : ReceiptThread) (file : ReceiptFile) :
    ReceiptThread × ReceiptFile :=
  let commandId := thread.call.commandId
  match thread.phase with
  | .hashPayload =>
      match stableHash json sha commandId thread.call.payload with
      | none => thread.stop file
      | some payloadHash => (thread.at (.beginImmediate payloadHash), file)
  | .beginImmediate payloadHash =>
      match file.writer with
      -- another transaction holds the write lock
      | some _ => (thread, file)
      | none => (thread.at (.selectReceipt payloadHash),
          { file with writer := some file.committed })
  | .selectReceipt payloadHash =>
      thread.statement file fun tables =>
        match tables.receipts.find? commandId with
        | some row => some (.commitFound row.receiptJson, tables)
        | none => some (.selectEffect payloadHash, tables)
  | .commitFound receiptJson => thread.commit file (.loadReceipt receiptJson)
  | .loadReceipt receiptJson =>
      match json.loads receiptJson with
      | none => thread.stop file
      | some receipt => (thread.at (.returned receipt), file)
  | .selectEffect payloadHash =>
      thread.statement file fun tables =>
        some (.writeEffect payloadHash (tables.effects.get? commandId), tables)
  | .writeEffect payloadHash stored =>
      thread.statement file fun tables =>
        (countEffect commandId stored tables).map fun counted =>
          (.insertReceipt payloadHash counted.1, counted.2)
  | .insertReceipt payloadHash effectCount =>
      thread.statement file fun tables =>
        let receipt := newReceipt commandId payloadHash effectCount
        (storeReceipt json receipt tables).map fun tables =>
          (.commitReceipt receipt, tables)
  | .commitReceipt receipt => thread.commit file (.returnReceipt receipt)
  | .returnReceipt receipt => (thread.at (.returned receipt.asDict), file)
  | .returned _ | .ended => (thread, file)

/-- A call that is not finished takes its next step, unless its time is up. -/
def ReceiptThread.advance (thread : ReceiptThread) (file : ReceiptFile) :
    ReceiptThread × ReceiptFile :=
  if thread.phase.finished then (thread, file)
  else
    match thread.call.lifetime with
    | some 0 => thread.stop file
    | lifetime =>
        let call := { thread.call with lifetime := lifetime.map (· - 1) }
        ReceiptThread.move json sha { thread with call := call } file

/-- Processes over one database file. -/
def receiptRules : Pool.Rules ReceiptFile ReceiptThread ReceiptCall Empty where
  spawn call _ := ⟨call, .hashPayload⟩
  advance := ReceiptThread.advance json sha
  fork _ _ := none
  change outside _ := outside.elim

end Steps

abbrev ReceiptPool := Pool ReceiptFile ReceiptThread

abbrev ReceiptLabel := Pool.Label ReceiptCall Empty

/-- The pool after a schedule on an empty file. -/
def after (json : PyJson) (sha : Sha256) (labels : List ReceiptLabel) :
    ReceiptPool :=
  Pool.run (receiptRules json sha) ⟨{}, []⟩ labels

/-- `get`: `none` when the stored text does not parse. -/
def get (json : PyJson) (tables : Tables) (commandId : String) :
    Option (Option (Dict String Json)) :=
  match tables.receipts.find? commandId with
  | none => some none
  | some row => (json.loads row.receiptJson).map some

/-- The total effect count for one command id. -/
def effectCount (tables : Tables) (commandId : String) : Int :=
  (tables.effects.get? commandId).getD 0

/-- The number that a value counts as. -/
def number? : Json → Option ℚ
  | .bool true => some 1
  | .bool false => some 0
  | .int n => some n
  | .float q => some q
  | _ => none

mutual

/-- Python's `==` on parsed values: `1`, `1.0` and `True` are equal, and the
members of an object have no order. -/
def pyEq : Json → Json → Bool
  | .null, .null => true
  | .str left, .str right => left = right
  | .arr left, .arr right => pyEqItems left right
  | .obj left, .obj right =>
      left.length = right.length && pyEqMembers left right
  | left, right =>
      match number? left, number? right with
      | some x, some y => x = y
      | _, _ => false

def pyEqItems : List Json → List Json → Bool
  | [], [] => true
  | left :: lefts, right :: rights => pyEq left right && pyEqItems lefts rights
  | _, _ => false

def pyEqMembers : List (String × Json) → List (String × Json) → Bool
  | [], _ => true
  | (name, left) :: rest, rights =>
      (match Json.member? rights name with
        | some right => pyEq left right
        | none => false) && pyEqMembers rest rights

end

/-- `compare != persisted_compare`, without the deduplicated flag; `none` when
the stored text does not parse. -/
def isForged (json : PyJson) (tables : Tables) (commandId : String)
    (receipt : Dict String Json) : Option Bool :=
  (get json tables commandId).map fun persisted =>
    match persisted with
    | none => true
    | some persisted =>
        !pyEq (.obj (receipt.pop "deduplicated").rows)
          (.obj (persisted.pop "deduplicated").rows)

section Exclusion

variable {json : PyJson} {sha : Sha256} {file file' : ReceiptFile}
  {thread thread' : ReceiptThread} {commandId text : String}

/-- A receipt with this text is stored. -/
def Stored (tables : Tables) (commandId text : String) : Prop :=
  ∃ row, tables.receipts.find? commandId = some row ∧ row.receiptJson = text

/-- The two tables move together: a receipt and one effect, or neither. -/
structure Tables.Sound (json : PyJson) (tables : Tables) : Prop where
  absent : ∀ commandId, tables.receipts.find? commandId = none →
    tables.effects.get? commandId = none
  present : ∀ commandId row, tables.receipts.find? commandId = some row →
    tables.effects.get? commandId = some 1 ∧ ∃ receipt : Receipt,
      json.dumps (.obj receipt.asDict.rows) = some row.receiptJson

/-- The tables once the effect of a new command is counted. -/
def Tables.withEffect (tables : Tables) (commandId : String) : Tables :=
  { tables with effects := tables.effects.set commandId 1 }

/-- What a call knows of the file at each of its steps. -/
def ReceiptThread.Sound (json : PyJson) (file : ReceiptFile)
    (thread : ReceiptThread) : Prop :=
  let commandId := thread.call.commandId
  let fresh := file.committed.receipts.find? commandId = none
  match thread.phase with
  | .selectReceipt _ => file.writer = some file.committed
  | .commitFound text =>
      file.writer = some file.committed ∧ Stored file.committed commandId text
  | .loadReceipt text => Stored file.committed commandId text
  | .selectEffect _ => file.writer = some file.committed ∧ fresh
  | .writeEffect _ stored =>
      file.writer = some file.committed ∧ fresh ∧ stored = none
  | .insertReceipt _ effectCount =>
      file.writer = some (file.committed.withEffect commandId) ∧ fresh ∧
        effectCount = 1
  | .commitReceipt receipt =>
      receipt.commandId = commandId ∧ receipt.effectCount = 1 ∧ fresh ∧
        ∃ tables, storeReceipt json receipt
          (file.committed.withEffect commandId) = some tables ∧
          file.writer = some tables
  | .returnReceipt receipt => receipt.effectCount = 1 ∧ ∃ text,
      json.dumps (.obj receipt.asDict.rows) = some text ∧
        Stored file.committed commandId text
  | .returned receipt => ∃ text stored, Stored file.committed commandId text ∧
      json.loads text = some stored ∧
      ∀ name, receipt.get? name = stored.get? name
  | _ => True

/-- Committed receipts stay as they are. -/
def Keeps (file file' : ReceiptFile) : Prop :=
  ∀ commandId row, file.committed.receipts.find? commandId = some row →
    file'.committed.receipts.find? commandId = some row

theorem Keeps.stored (h : Keeps file file')
    (hstored : Stored file.committed commandId text) :
    Stored file'.committed commandId text := by
  obtain ⟨row, hrow, htext⟩ := hstored
  exact ⟨row, h _ _ hrow, htext⟩

/-- What one step of one call does. -/
structure Moved (json : PyJson) (file : ReceiptFile) (thread : ReceiptThread)
    (moved : ReceiptThread × ReceiptFile) : Prop where
  tables : moved.2.committed.Sound json
  sound : moved.1.Sound json moved.2
  keeps : Keeps file moved.2
  /-- A call without the lock commits nothing and leaves an open transaction. -/
  outside : thread.phase.inTransaction = false →
    moved.2.committed = file.committed ∧
      (file.writer ≠ none → moved.2.writer = file.writer)
  /-- The lock is only taken when it is free. -/
  locks : moved.1.phase.inTransaction = true →
    thread.phase.inTransaction = true ∨ file.writer = none
  sameCommand : moved.1.call.commandId = thread.call.commandId

theorem moved_stop (htables : file.committed.Sound json) :
    Moved json file thread (thread.stop file) := by
  have hcommitted : (thread.stop file).2.committed = file.committed := by
    unfold ReceiptThread.stop
    split <;> rfl
  refine ⟨hcommitted ▸ htables, trivial, ?_, ?_, ?_, rfl⟩
  · intro commandId row hrow
    rw [hcommitted]
    exact hrow
  · intro houtside
    refine ⟨hcommitted, fun _ => ?_⟩
    simp [ReceiptThread.stop, houtside]
  · intro hlocked
    cases hlocked

/-- A step that changes no table and takes no lock. -/
theorem moved_at (thread : ReceiptThread) (htables : file.committed.Sound json)
    {phase : Phase}
    (hsound : (thread.at phase).Sound json file)
    (hlocks : phase.inTransaction = true → thread.phase.inTransaction = true) :
    Moved json file thread (thread.at phase, file) :=
  ⟨htables, hsound, fun _ _ hrow => hrow, fun _ => ⟨rfl, fun _ => rfl⟩,
    fun hlocked => .inl (hlocks hlocked), rfl⟩

/-- A statement that succeeds on the open transaction. -/
theorem moved_statement (phase : Phase) (result : Tables)
    (htables : file.committed.Sound json)
    {run : Tables → Option (Phase × Tables)} {tables : Tables}
    (hwriter : file.writer = some tables) (hrun : run tables = some (phase, result))
    (hinside : thread.phase.inTransaction = true)
    (hsound : (thread.at phase).Sound json { file with writer := some result }) :
    Moved json file thread (thread.statement file run) := by
  have hstatement : thread.statement file run =
      (thread.at phase, { file with writer := some result }) := by
    simp only [ReceiptThread.statement, hwriter, Option.bind_some, hrun]
  rw [hstatement]
  exact ⟨htables, hsound, fun _ _ hrow => hrow,
    fun houtside => absurd (hinside.symm.trans houtside) (by decide),
    fun _ => .inl hinside, rfl⟩

/-- A statement that raises. -/
theorem moved_statement_none (htables : file.committed.Sound json)
    {run : Tables → Option (Phase × Tables)} {tables : Tables}
    (hwriter : file.writer = some tables) (hrun : run tables = none) :
    Moved json file thread (thread.statement file run) := by
  have hstatement : thread.statement file run = thread.stop file := by
    simp only [ReceiptThread.statement, hwriter, Option.bind_some, hrun]
  rw [hstatement]
  exact moved_stop htables

/-- The row that a new receipt adds. -/
theorem storeReceipt_cases {receipt : Receipt} {tables result : Tables}
    (hstore : storeReceipt json receipt tables = some result) :
    ∃ row, row.commandId = receipt.commandId ∧
      json.dumps (.obj receipt.asDict.rows) = some row.receiptJson ∧
      tables.receipts.insert? row = some result.receipts ∧
      result.effects = tables.effects := by
  simp only [storeReceipt, Option.bind_eq_bind, Option.bind_eq_some_iff,
    Option.pure_def, Option.some.injEq] at hstore
  obtain ⟨text, htext, receipts, hinsert, rfl⟩ := hstore
  exact ⟨_, rfl, htext, hinsert, rfl⟩

/-- A committed receipt comes with its one effect. -/
theorem Tables.Sound.storeReceipt {receipt : Receipt} {tables result : Tables}
    (htables : tables.Sound json)
    (hfresh : tables.receipts.find? receipt.commandId = none)
    (hstore : storeReceipt json receipt (tables.withEffect receipt.commandId) =
      some result) :
    result.Sound json ∧
      (∀ commandId row, tables.receipts.find? commandId = some row →
        result.receipts.find? commandId = some row) ∧
      ∃ text, json.dumps (.obj receipt.asDict.rows) = some text ∧
        Stored result receipt.commandId text := by
  obtain ⟨row, hcommand, htext, hinsert, heffects⟩ := storeReceipt_cases hstore
  have hfind := Keyed.find?_of_insert? hinsert
  have heffect : ∀ commandId, result.effects.get? commandId =
      if commandId = receipt.commandId then some 1
      else tables.effects.get? commandId := fun commandId => by
    rw [heffects, Tables.withEffect, Dict.get?_set]
  refine ⟨⟨fun commandId habsent => ?_, fun commandId stored hstored => ?_⟩,
    fun commandId stored hstored => ?_, ?_⟩
  · rw [hfind, hcommand] at habsent
    rw [heffect]
    split at habsent
    · cases habsent
    · rename_i hother
      rw [if_neg (Ne.symm hother)]
      exact htables.absent _ habsent
  · rw [hfind, hcommand] at hstored
    rw [heffect]
    split at hstored
    · rename_i hsame
      cases hstored
      exact ⟨if_pos hsame.symm, receipt, htext⟩
    · rename_i hother
      rw [if_neg (Ne.symm hother)]
      exact htables.present _ _ hstored
  · rw [hfind, hcommand, if_neg]
    · exact hstored
    · rintro rfl
      rw [hfresh] at hstored
      cases hstored
  · refine ⟨row.receiptJson, htext, row, ?_, rfl⟩
    rw [hfind, if_pos hcommand]

/-- Every step of a call moves it on soundly. -/
theorem move_moved (hround : json.RoundTrips) (htables : file.committed.Sound json)
    (hsound : thread.Sound json file) :
    Moved json file thread (thread.move json sha file) := by
  rcases thread with ⟨call, phase⟩
  cases phase with
  | hashPayload =>
      simp only [ReceiptThread.move]
      split
      · exact moved_stop htables
      · exact moved_at ⟨call, .hashPayload⟩ htables trivial
          (fun hlocked => by cases hlocked)
  | beginImmediate payloadHash =>
      simp only [ReceiptThread.move]
      split
      · exact moved_at ⟨call, .beginImmediate payloadHash⟩ htables
          trivial (fun hlocked => by cases hlocked)
      · rename_i hfree
        exact ⟨htables, rfl, fun _ _ hrow => hrow,
          fun _ => ⟨rfl, fun hheld => absurd hfree hheld⟩, fun _ => .inr hfree, rfl⟩
  | selectReceipt payloadHash =>
      simp only [ReceiptThread.move]
      have hwriter : file.writer = some file.committed := hsound
      cases hfind : file.committed.receipts.find? call.commandId with
      | none =>
          exact moved_statement (.selectEffect payloadHash) file.committed htables
            hwriter (by rw [hfind]) rfl ⟨rfl, hfind⟩
      | some row =>
          exact moved_statement (.commitFound row.receiptJson) file.committed
            htables hwriter (by rw [hfind]) rfl ⟨rfl, row, hfind, rfl⟩
  | commitFound text =>
      obtain ⟨hwriter, hstored⟩ := hsound
      simp only [ReceiptThread.move, ReceiptThread.commit, hwriter]
      exact ⟨htables, hstored, fun _ _ hrow => hrow,
        (fun houtside => by cases houtside), (fun hlocked => by cases hlocked), rfl⟩
  | loadReceipt text =>
      have hstored : Stored file.committed call.commandId text := hsound
      simp only [ReceiptThread.move]
      split
      · exact moved_stop htables
      · rename_i receipt hloads
        exact moved_at ⟨call, .loadReceipt text⟩ htables
          ⟨text, receipt, hstored, hloads, fun _ => rfl⟩
          (fun hlocked => by cases hlocked)
  | selectEffect payloadHash =>
      obtain ⟨hwriter, hfresh⟩ := hsound
      simp only [ReceiptThread.move]
      exact moved_statement (.writeEffect payloadHash _) file.committed htables
        hwriter rfl rfl ⟨rfl, hfresh, htables.absent _ hfresh⟩
  | writeEffect payloadHash stored =>
      obtain ⟨hwriter, hfresh, rfl⟩ := hsound
      simp only [ReceiptThread.move]
      exact moved_statement (.insertReceipt payloadHash 1) _ htables hwriter rfl rfl
        ⟨rfl, hfresh, rfl⟩
  | insertReceipt payloadHash effectCount =>
      obtain ⟨hwriter, hfresh, rfl⟩ := hsound
      simp only [ReceiptThread.move]
      cases hstore : storeReceipt json (newReceipt call.commandId payloadHash 1)
          (file.committed.withEffect call.commandId) with
      | none =>
          exact moved_statement_none htables hwriter (by rw [hstore]; rfl)
      | some tables =>
          exact moved_statement
            (.commitReceipt (newReceipt call.commandId payloadHash 1)) tables htables
            hwriter (by rw [hstore]; rfl) rfl
            ⟨rfl, rfl, hfresh, tables, hstore, rfl⟩
  | commitReceipt receipt =>
      obtain ⟨hcommand, hcount, hfresh, tables, hstore, hwriter⟩ := hsound
      dsimp only at hcommand hfresh hstore
      rw [← hcommand] at hfresh hstore
      obtain ⟨hresult, hkeeps, hstored⟩ := htables.storeReceipt hfresh hstore
      simp only [ReceiptThread.move, ReceiptThread.commit, hwriter]
      refine ⟨hresult, ?_, hkeeps, (fun houtside => by cases houtside),
        (fun hlocked => by cases hlocked), rfl⟩
      change receipt.effectCount = 1 ∧ ∃ text, _ ∧ Stored tables call.commandId text
      rw [← hcommand]
      exact ⟨hcount, hstored⟩
  | returnReceipt receipt =>
      obtain ⟨hcount, text, htext, hstored⟩ := hsound
      have hfits : fitsInt64 receipt.effectCount = true := by
        rw [hcount]
        rfl
      obtain ⟨text', stored, htext', hloads, hsame⟩ := hround receipt hfits
      obtain rfl : text' = text := by
        rw [htext] at htext'
        exact (Option.some.inj htext').symm
      exact moved_at ⟨call, .returnReceipt receipt⟩ htables
        ⟨text', stored, hstored, hloads, fun name => (hsame name).symm⟩
        (fun hlocked => by cases hlocked)
  | returned receipt =>
      exact moved_at ⟨call, .returned receipt⟩ htables hsound
        (fun hlocked => by cases hlocked)
  | ended =>
      exact moved_at ⟨call, .ended⟩ htables trivial
        (fun hlocked => by cases hlocked)

theorem advance_moved (hround : json.RoundTrips)
    (htables : file.committed.Sound json) (hsound : thread.Sound json file) :
    Moved json file thread (thread.advance json sha file) := by
  unfold ReceiptThread.advance
  split
  · exact ⟨htables, hsound, fun _ _ hrow => hrow, fun _ => ⟨rfl, fun _ => rfl⟩,
      fun hlocked => .inl hlocked, rfl⟩
  · split
    · exact moved_stop htables
    · have hmove : Moved json file _ (ReceiptThread.move json sha
          ⟨{ thread.call with lifetime := thread.call.lifetime.map (· - 1) },
            thread.phase⟩ file) := move_moved hround htables hsound
      exact ⟨hmove.tables, hmove.sound, hmove.keeps, hmove.outside, hmove.locks,
        hmove.sameCommand⟩

/-- A call keeps what it knows while another one moves. -/
theorem ReceiptThread.Sound.other {moved : ReceiptThread × ReceiptFile}
    {other : ReceiptThread} (hother : other.Sound json file)
    (hmoved : Moved json file thread moved)
    (hexclusive : ¬ (other.phase.inTransaction = true ∧
      thread.phase.inTransaction = true)) : other.Sound json moved.2 := by
  rcases other with ⟨call, phase⟩
  by_cases hinside : phase.inTransaction = true
  · -- the lock is held, so the other step touched neither table
    have houtside : thread.phase.inTransaction = false := by
      simpa [hinside] using hexclusive
    obtain ⟨hcommitted, hwriter⟩ := hmoved.outside houtside
    have hheld : file.writer ≠ none := by
      intro hfree
      cases phase <;> simp [ReceiptThread.Sound, hfree] at hother <;>
        cases hinside
    have hfile : moved.2 = file := by
      rcases hmovedFile : moved.2 with ⟨committed, writer⟩
      rw [hmovedFile] at hcommitted hwriter
      cases hcommitted
      rw [show writer = file.writer from hwriter hheld]
    rw [hfile]
    exact hother
  · cases phase with
    | loadReceipt text => exact hmoved.keeps.stored hother
    | returnReceipt receipt =>
        obtain ⟨hcount, text, htext, hstored⟩ := hother
        exact ⟨hcount, text, htext, hmoved.keeps.stored hstored⟩
    | returned receipt =>
        obtain ⟨text, stored, hstored, hloads⟩ := hother
        exact ⟨text, stored, hmoved.keeps.stored hstored, hloads⟩
    | hashPayload => trivial
    | beginImmediate payloadHash => trivial
    | ended => trivial
    | _ => exact absurd rfl hinside

/-- The tables move together, every call knows what it knows, and at most one
call holds the lock. -/
structure Exclusive (json : PyJson) (pool : ReceiptPool) : Prop where
  tables : pool.shared.committed.Sound json
  threads : ∀ thread ∈ pool.threads, thread.Sound json pool.shared
  writers : ∀ (i j : Nat) a b, i ≠ j → pool.threads[i]? = some a →
    pool.threads[j]? = some b →
      ¬ (a.phase.inTransaction = true ∧ b.phase.inTransaction = true)

theorem exclusive_init : Exclusive json ⟨{}, []⟩ where
  tables := ⟨fun _ _ => rfl, fun _ _ hrow => by cases hrow⟩
  threads _ hmem := absurd hmem List.not_mem_nil
  writers _ _ _ _ _ hleft := by cases hleft

/-- A call that holds the lock sees an open transaction. -/
theorem ReceiptThread.Sound.writer (hsound : thread.Sound json file)
    (hinside : thread.phase.inTransaction = true) : file.writer ≠ none := by
  rcases thread with ⟨call, phase⟩
  intro hfree
  cases phase <;> simp [ReceiptThread.Sound, hfree] at hsound <;> cases hinside

variable {pool : ReceiptPool}

theorem Exclusive.step (sha : Sha256) (hround : json.RoundTrips) (h : Exclusive json pool)
    (label : ReceiptLabel) :
    Exclusive json (Pool.step (receiptRules json sha) pool label) ∧
      Keeps pool.shared (Pool.step (receiptRules json sha) pool label).shared := by
  have hmoved : ∀ i thread, pool.threads[i]? = some thread →
      Moved json pool.shared thread (thread.advance json sha pool.shared) :=
    fun i thread hthread => advance_moved hround h.tables
      (h.threads thread (List.mem_of_getElem? hthread))
  have hthreads := Pool.threads_step (I := fun file thread => thread.Sound json file)
    (receiptRules json sha) (l := label)
    (fun call _ => trivial)
    (fun i thread _ hthread => (hmoved i thread hthread).sound)
    (fun _ _ _ _ child hchild => by cases hchild)
  have hwriters := Pool.pairs_step (receiptRules json sha)
    (R := fun a b : ReceiptThread =>
      ¬ (a.phase.inTransaction = true ∧ b.phase.inTransaction = true))
    (fun a b hnot hboth => hnot hboth.symm) (l := label) h.writers
    (fun call k a _ _ hboth => by cases hboth.2)
    (fun i k old a _ hold hne ha hboth => by
      rcases (hmoved i old hold).locks hboth.2 with hinside | hfree
      · exact h.writers k i a old hne ha hold ⟨hboth.1, hinside⟩
      · exact (h.threads a (List.mem_of_getElem? ha)).writer hboth.1 hfree)
    (fun _ _ _ _ child _ _ hchild => by cases hchild)
    (fun _ _ child _ _ hchild => by cases hchild)
  cases label with
  | start call =>
      exact ⟨⟨h.tables, hthreads fun k thread _ hthread =>
        h.threads thread (List.mem_of_getElem? hthread), hwriters⟩,
        fun _ _ hrow => hrow⟩
  | advance i =>
      cases hold : pool.threads[i]? with
      | none =>
          rw [Pool.step_absent _ hold]
          exact ⟨h, fun _ _ hrow => hrow⟩
      | some old =>
          have hstep := hmoved i old hold
          refine ⟨⟨?_, hthreads fun k thread hne hthread => ?_, hwriters⟩, ?_⟩
          · rw [Pool.step_advance _ hold]
            exact hstep.tables
          · rw [Pool.step_advance _ hold]
            refine (h.threads thread (List.mem_of_getElem? hthread)).other hstep ?_
            exact h.writers k i thread old (fun heq => hne (heq ▸ rfl)) hthread hold
          · rw [Pool.step_advance _ hold]
            exact hstep.keeps
  | change outside => exact outside.elim

/-- Along every schedule. -/
theorem exclusive_run (sha : Sha256) (hround : json.RoundTrips) (h : Exclusive json pool)
    (labels : List ReceiptLabel) :
    Exclusive json (Pool.run (receiptRules json sha) pool labels) ∧
      Keeps pool.shared (Pool.run (receiptRules json sha) pool labels).shared := by
  induction labels generalizing pool with
  | nil => exact ⟨h, fun _ _ hrow => hrow⟩
  | cons label rest ih =>
      obtain ⟨hstep, hkeeps⟩ := h.step sha hround label
      obtain ⟨hfinal, hrest⟩ := ih hstep
      exact ⟨hfinal, fun commandId row hrow => hrest _ _ (hkeeps _ _ hrow)⟩

end Exclusion

section Forged

variable {json : PyJson} {tables : Tables} {commandId : String}

/-- Two members agree: both are missing, or both are there and equal. -/
def agree : Option Json → Option Json → Bool
  | none, none => true
  | some left, some right => pyEq left right
  | _, _ => false

theorem pyEqMembers_iff (lefts rights : List (String × Json)) :
    pyEqMembers lefts rights = true ↔ ∀ entry ∈ lefts,
      ∃ right, Json.member? rights entry.1 = some right ∧
        pyEq entry.2 right = true := by
  induction lefts with
  | nil => simp [pyEqMembers]
  | cons entry rest ih =>
      obtain ⟨name, left⟩ := entry
      rw [pyEqMembers, Bool.and_eq_true, ih, List.forall_mem_cons]
      cases Json.member? rights name <;> simp

theorem member?_rows (d : Dict String Json) (name : String) :
    Json.member? d.rows name = d.get? name := rfl

/-- Two dictionaries are equal when their members agree under every name. -/
theorem pyEq_rows_iff (left right : Dict String Json) :
    pyEq (.obj left.rows) (.obj right.rows) = true ↔
      ∀ name, agree (left.get? name) (right.get? name) = true := by
  rw [pyEq, Bool.and_eq_true, decide_eq_true_eq, pyEqMembers_iff]
  constructor
  · rintro ⟨hlength, hmembers⟩ name
    cases hleft : left.get? name with
    | some value =>
        obtain ⟨other, hother, heq⟩ :=
          hmembers _ ((Dict.get?_eq_some_iff left name value).mp hleft)
        rw [member?_rows] at hother
        rw [hother]
        exact heq
    | none =>
        cases hright : right.get? name with
        | none => rfl
        | some other =>
            -- as many names on both sides, so no name is only on the right
            have hsubset : left.rows.map Prod.fst ⊆ right.rows.map Prod.fst := by
              intro name' hname
              obtain ⟨entry, hentry, rfl⟩ := List.mem_map.mp hname
              obtain ⟨value, hvalue, -⟩ := hmembers entry hentry
              rw [Dict.mem_keys_iff, ← member?_rows, hvalue]
              exact Option.some_ne_none _
            have hperm := (List.subperm_of_subset left.unique
              hsubset).perm_of_length_le (by simp [hlength])
            have hname : name ∈ left.rows.map Prod.fst := by
              rw [hperm.mem_iff, Dict.mem_keys_iff, hright]
              exact Option.some_ne_none _
            exact absurd hleft ((Dict.mem_keys_iff left name).mp hname)
  · intro hagree
    have hsame : ∀ name, left.get? name ≠ none ↔ right.get? name ≠ none := by
      intro name
      have hname := hagree name
      cases hleft : left.get? name <;> cases hright : right.get? name <;>
        simp [hleft, hright, agree] at hname ⊢
    constructor
    · have hperm : (left.rows.map Prod.fst).Perm (right.rows.map Prod.fst) :=
        (List.perm_ext_iff_of_nodup left.unique right.unique).mpr fun name => by
          rw [Dict.mem_keys_iff, Dict.mem_keys_iff, hsame]
      simpa using hperm.length_eq
    · intro entry hentry
      have hleft := (Dict.get?_eq_some_iff left entry.1 entry.2).mpr hentry
      have hname := hagree entry.1
      rw [hleft] at hname
      rw [member?_rows]
      cases hright : right.get? entry.1 with
      | none => simp [hright, agree] at hname
      | some other =>
          rw [hright] at hname
          exact ⟨other, rfl, hname⟩

/-- A receipt is accepted when it agrees with the stored one apart from the
deduplicated flag. -/
theorem isForged_iff (receipt : Dict String Json) :
    isForged json tables commandId receipt = some false ↔
      ∃ stored, get json tables commandId = some (some stored) ∧
        ∀ name, name ≠ "deduplicated" →
          agree (receipt.get? name) (stored.get? name) = true := by
  have hpop : ∀ stored : Dict String Json,
      pyEq (.obj (receipt.pop "deduplicated").rows)
        (.obj (stored.pop "deduplicated").rows) = true ↔
      ∀ name, name ≠ "deduplicated" →
        agree (receipt.get? name) (stored.get? name) = true := by
    intro stored
    rw [pyEq_rows_iff]
    simp only [Dict.get?_pop]
    refine forall_congr' fun name => ?_
    by_cases hname : name = "deduplicated" <;> simp [hname, agree]
  unfold isForged
  cases hget : get json tables commandId with
  | none => simp
  | some persisted =>
      cases persisted with
      | none => simp
      | some stored => simp [← hpop]

end Forged

/-- Along every schedule of calls, with crashes anywhere: a command has at most
one effect, and one exactly when its receipt is stored; every call that returns
gives the stored receipt, which never changes again; and a receipt is accepted
exactly when it agrees with the stored one. -/
theorem receipts_exactly_once (json : PyJson) (sha : Sha256)
    (hround : json.RoundTrips) (labels : List ReceiptLabel) (commandId : String) :
    let pool := after json sha labels
    let tables := pool.shared.committed
    (effectCount tables commandId ≤ 1 ∧
      (effectCount tables commandId = 1 ↔
        tables.receipts.find? commandId ≠ none)) ∧
    (∀ thread ∈ pool.threads, thread.call.commandId = commandId →
      ∀ receipt, thread.phase = .returned receipt →
        ∃ stored, get json tables commandId = some (some stored) ∧
          ∀ name, receipt.get? name = stored.get? name) ∧
    (∀ row, tables.receipts.find? commandId = some row → ∀ more,
      (after json sha (labels ++ more)).shared.committed.receipts.find?
        commandId = some row) ∧
    ∀ receipt, isForged json tables commandId receipt = some false ↔
      ∃ stored, get json tables commandId = some (some stored) ∧
        ∀ name, name ≠ "deduplicated" →
          agree (receipt.get? name) (stored.get? name) = true := by
  intro pool tables
  have hrun : Exclusive json pool :=
    (exclusive_run sha hround exclusive_init labels).1
  have hcount : (tables.receipts.find? commandId = none ∧
      effectCount tables commandId = 0) ∨
      (tables.receipts.find? commandId ≠ none ∧
        effectCount tables commandId = 1) := by
    cases hfind : tables.receipts.find? commandId with
    | none =>
        have heffect : tables.effects.get? commandId = none :=
          hrun.tables.absent _ hfind
        exact .inl ⟨rfl, by rw [effectCount, heffect]; rfl⟩
    | some row =>
        have heffect : tables.effects.get? commandId = some 1 :=
          (hrun.tables.present _ _ hfind).1
        exact .inr ⟨Option.some_ne_none _, by rw [effectCount, heffect]; rfl⟩
  refine ⟨?_, ?_, ?_, fun receipt => isForged_iff receipt⟩
  · rcases hcount with ⟨habsent, hzero⟩ | ⟨hpresent, hone⟩
    · rw [hzero]
      exact ⟨by decide, by simp [habsent]⟩
    · rw [hone]
      exact ⟨le_refl _, by simp [hpresent]⟩
  · intro thread hthread hcommand receipt hreturned
    have hsound := hrun.threads thread hthread
    simp only [ReceiptThread.Sound, hreturned, hcommand] at hsound
    obtain ⟨text, stored, ⟨row, hrow, rfl⟩, hloads, hsame⟩ := hsound
    refine ⟨stored, ?_, hsame⟩
    change get json pool.shared.committed commandId = _
    simp only [get, hrow, hloads, Option.map_some]
  · intro row hrow more
    have hmore := (exclusive_run sha hround hrun more).2 commandId row hrow
    rw [after, Pool.run, List.foldl_append]
    exact hmore

/-! One command from three calls: the first crashes inside its transaction, the
second waits for the lock, the third sends another payload. -/

namespace ReceiptWitness

/-- The digests of the two payloads. -/
def hexdigest (text : String) : String :=
  if text = "\x7b\"command_id\":\"cmd_a\",\"payload\":\x7b\"op\":\"first\"\x7d\x7d" then
    "03da7e52d0fee2c50bed29c5c8e206982661be76e3832843841b79588ebdc38b"
  else if text =
      "\x7b\"command_id\":\"cmd_a\",\"payload\":\x7b\"op\":\"second\"\x7d\x7d" then
    "1d05b529b97b88d1d563fc04d3f2c1813c15ac751f43a1dd1bce0f2d290252ee"
  else "e3b0c44298fc1c149afbf4c8996fb92427ae41e4649b934ca495991b7852b855"

def sha : Sha256 where
  hexdigest := hexdigest
  length_hexdigest := by
    intro text
    unfold hexdigest
    split
    · decide +kernel
    · split <;> decide +kernel
  hex := by
    intro text
    apply Sha256.hex_of_all
    unfold hexdigest
    split
    · decide +kernel
    · split <;> decide +kernel

/-- Sorted members, compact text, and its parser. -/
def json : PyJson where
  dumps value := some value.canon.toText
  loads text :=
    match Json.parse text with
    | some (.obj members) => some (.update .empty members)
    | _ => none

/-- `json` with its texts as bytes, for the evaluation of runs. -/
def byteJson : PyJson where
  dumps value := some (AsciiText.toText value.canon)
  loads text :=
    match AsciiText.parse text with
    | some (.obj members) => some (.update .empty members)
    | _ => none

theorem json_eq : json = byteJson := by
  rw [byteJson, AsciiText.toText_eq, AsciiText.parse_eq]
  rfl

theorem json_roundTrips : json.RoundTrips := by
  intro receipt _
  have hcanon : (Json.obj receipt.asDict.rows).canon =
      .obj (Json.sortMembers receipt.asDict.rows) := by
    simp [Receipt.asDict, Json.canon, Json.canonMembers]
  have hunique : ((Json.sortMembers receipt.asDict.rows).map Prod.fst).Nodup :=
    ((List.perm_insertionSort _ _).map Prod.fst).nodup_iff.mpr receipt.asDict.unique
  refine ⟨_, .update .empty (Json.sortMembers receipt.asDict.rows), rfl, ?_, ?_⟩
  · simp only [json, hcanon, Json.parse_toText]
  · intro name
    rw [Dict.get?_update_of_nodup _ hunique, Dict.get?_empty, Option.or_none]
    exact ReferenceCodec.member?_sortMembers receipt.asDict.unique name

def call (op : String) (lifetime : Option Nat) : ReceiptLabel :=
  .start ⟨"cmd_a", [("op", .str op)], lifetime⟩

def labels : List ReceiptLabel :=
  [call "first" (some 4), call "first" none, call "second" none] ++
    List.replicate 4 (.advance 0) ++ List.replicate 2 (.advance 1) ++
    List.replicate 1 (.advance 0) ++ List.replicate 8 (.advance 1) ++
    List.replicate 6 (.advance 2)

theorem one_receipt_of_three_calls :
    (effectCount (after json sha labels).shared.committed "cmd_a" ≤ 1 ∧
      (effectCount (after json sha labels).shared.committed "cmd_a" = 1 ↔
        (after json sha labels).shared.committed.receipts.find? "cmd_a" ≠ none)) ∧
    (after json sha labels).threads.map (fun thread => thread.phase.finished) =
      [true, true, true] ∧
    effectCount (after json sha labels).shared.committed "cmd_a" = 1 := by
  have hfinished : (after json sha labels).threads.map
      (fun thread => thread.phase.finished) = [true, true, true] := by
    rw [json_eq]
    decide +kernel
  have hone : effectCount (after json sha labels).shared.committed "cmd_a" = 1 := by
    rw [json_eq]
    decide +kernel
  exact ⟨(receipts_exactly_once json sha json_roundTrips labels "cmd_a").1,
    hfinished, hone⟩

end ReceiptWitness

end ReceiptStore

end HermesPipeline
