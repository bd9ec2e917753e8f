/-
The three calls of the browser runtime over one pair of pipes: each call writes its
request and reads frames up to the first one with its own id.  A write may fail, and
the calls have a time limit together.
-/
import HermesPipeline.McpFraming

namespace HermesPipeline

namespace McpSession

open Lib McpFraming

/-- How a call ends without a result. -/
inductive CallFailure
  | read (failure : ReadFailure)
  /-- `RuntimeError("mcp error")`. -/
  | mcpError
  /-- `RuntimeError("stdio closed")`. -/
  | closed
  /-- The error of a write: the server has closed its end. -/
  | write
deriving Repr, DecidableEq

/-- `reply.get("id") == req_id`: numbers are compared by value, and `True` is one. -/
def answersTo (id : Int) (reply : Members) : Bool :=
  match Json.member? reply "id" with
  | some (.int n) => n = id
  | some (.float q) => q = id
  | some (.bool b) => (if b then 1 else 0) = id
  | _ => false

/-- `"error" in reply`, and `reply.get("result", "")`. -/
def replyResult (reply : Members) : Except CallFailure Json :=
  if (Json.member? reply "error").isSome then .error .mcpError
  else .ok ((Json.member? reply "result").getD (.str ""))

/-- The loop of `_rpc`: its result, and what is left of the stream. -/
def awaitReply (loads : Loads) (id : Int) (stream : Bytes) : Except CallFailure Json × Bytes :=
  let read := readFrame loads stream
  match _hread : read.1 with
  | .error failure => (.error (.read failure), read.2)
  | .ok reply =>
      if answersTo id reply then (replyResult reply, read.2)
      else awaitReply loads id read.2
termination_by stream.length
decreasing_by exact length_readFrame_lt (ne_nil_of_readFrame _hread)

/-- What was written to the server, how many writes its end still takes, and what is
still to be read; the ends that are no pipes are missing. -/
structure Pipes where
  written : List Members
  stdin : Option Nat
  stdout : Option Bytes

def request (id : Int) (method : String) (params : Members) : Members :=
  [("jsonrpc", .str "2.0"), ("id", .int id), ("method", .str method), ("params", .obj params)]

/-- `_write_frame`; a frame that was written in part is not counted. -/
def writeFrame (payload : Members) (pipes : Pipes) : Except CallFailure Unit × Pipes :=
  match pipes.stdin with
  | some (room + 1) =>
      (.ok (), { pipes with written := pipes.written ++ [payload], stdin := some room })
  | _ => (.error .write, pipes)

/-- `_rpc`. -/
def rpc (loads : Loads) (id : Int) (method : String) (params : Members) (pipes : Pipes) :
    Except CallFailure Json × Pipes :=
  match pipes.stdin, pipes.stdout with
  | some _, some stream =>
      match writeFrame (request id method params) pipes with
      | (.error e, pipes) => (.error e, pipes)
      | (.ok (), pipes) =>
          let reply := awaitReply loads id stream
          (reply.1, { pipes with stdout := some reply.2 })
  | _, _ => (.error .closed, pipes)

def notification (method : String) : Members :=
  [("jsonrpc", .str "2.0"), ("method", .str method)]

/-- `_notify`. -/
def notify (method : String) (pipes : Pipes) : Except CallFailure Unit × Pipes :=
  match pipes.stdin with
  | none => (.error .closed, pipes)
  | some _ => writeFrame (notification method) pipes

/-- Python's `json.dumps` and `str` of JSON values. -/
structure Texts where
  dumps : Json → String
  str : Json → String

/-- The texts of a list of content items. -/
def contentTexts (texts : Texts) (items : List Json) : List String :=
  items.filterMap fun item =>
    match item with
    | .obj item =>
        if (Json.member? item "type").bind Json.text? = some "text" then
          some (((Json.member? item "text").map texts.str).getD "")
        else none
    | _ => none

/-- `_tool_text`. -/
def toolText (texts : Texts) (result : Json) : String :=
  match result with
  | .str text => text
  | .obj payload =>
      let chunks := match Json.member? payload "content" with
        | some (.arr items) => contentTexts texts items
        | _ => []
      if chunks ≠ [] then String.intercalate "\n" chunks else texts.dumps (.obj payload)
  | result => texts.dumps result

def initializeParams : Members :=
  [("protocolVersion", .str "2024-11-05"), ("capabilities", .obj []),
    ("clientInfo", .obj [("name", .str "hermes-pipeline"), ("version", .str "0.1.0")])]

def navigateParams (origin : String) : Members :=
  [("name", .str "navigate_page"),
    ("arguments", .obj [("type", .str "url"), ("url", .str origin)])]

def evaluateParams : Members :=
  [("name", .str "evaluate_script"), ("arguments", .obj [("function",
    .str "() => document.body ? document.body.innerText : ''")])]

/-- `_run` of `drive_stdio_mcp`: the text, and the pipes. -/
def run (loads : Loads) (texts : Texts) (origin : String) (pipes : Pipes) :
    Except CallFailure String × Pipes :=
  match rpc loads 1 "initialize" initializeParams pipes with
  | (.error e, pipes) => (.error e, pipes)
  | (.ok _, pipes) =>
      match notify "notifications/initialized" pipes with
      | (.error e, pipes) => (.error e, pipes)
      | (.ok (), pipes) =>
          match rpc loads 2 "tools/call" (navigateParams origin) pipes with
          | (.error e, pipes) => (.error e, pipes)
          | (.ok _, pipes) =>
              match rpc loads 3 "tools/call" evaluateParams pipes with
              | (.error e, pipes) => (.error e, pipes)
              | (.ok result, pipes) => (.ok (toolText texts result), pipes)

/-- How a session ends without a text. -/
inductive DriveFailure
  | call (failure : CallFailure)
  /-- `TimeoutError("mcp timeout")`. -/
  | timeout
deriving Repr, DecidableEq

/-- `drive_stdio_mcp`; `late` says whether the time limit passes before the thread is
done. The thread is awaited all the same, and the pipes are as it leaves them. -/
def drive (loads : Loads) (texts : Texts) (origin : String) (late : Bool) (pipes : Pipes) :
    Except DriveFailure String × Pipes :=
  let ended := run loads texts origin pipes
  (if late then .error .timeout
    else match ended.1 with
      | .ok text => .ok text
      | .error e => .error (.call e), ended.2)

/-- Among frames, a call takes the first reply with its own id and passes over the
others before it. -/
def Takes (id : Int) (frames : List Members) (reply : Members) (later : List Members) : Prop :=
  ∃ skipped, frames = skipped ++ reply :: later ∧
    (∀ other ∈ skipped, answersTo id other = false) ∧ answersTo id reply = true

/-- A reply that is no error, with its result. -/
def Answers (reply : Members) (result : Json) : Prop :=
  Json.member? reply "error" = none ∧
    result = (Json.member? reply "result").getD (.str "")

theorem replyResult_eq_ok_iff (reply : Members) (result : Json) :
    replyResult reply = .ok result ↔ Answers reply result := by
  rw [replyResult, Answers]
  cases herror : Json.member? reply "error" with
  | none => simp [eq_comm]
  | some error => simp

theorem Takes.unique {id : Int} {frames : List Members} {reply other : Members}
    {later rest : List Members} (hfirst : Takes id frames reply later)
    (hsecond : Takes id frames other rest) : reply = other ∧ later = rest := by
  obtain ⟨skipped, rfl, hskipped, hreply⟩ := hfirst
  obtain ⟨passed, heq, hpassed, hother⟩ := hsecond
  induction skipped generalizing passed with
  | nil =>
      cases passed with
      | nil => exact List.cons.inj heq
      | cons head passed =>
          have hhead := hpassed head List.mem_cons_self
          rw [← (List.cons.inj heq).1, hreply] at hhead
          cases hhead
  | cons head skipped ih =>
      have hhead := hskipped head List.mem_cons_self
      cases passed with
      | nil =>
          rw [(List.cons.inj heq).1, hother] at hhead
          cases hhead
      | cons next passed =>
          exact ih (fun d hd => hskipped d (List.mem_cons_of_mem head hd)) passed
            (List.cons.inj heq).2 fun d hd => hpassed d (List.mem_cons_of_mem next hd)

section Calls

variable {loads : Loads} {id : Int} {stream rest : Bytes} {reply : Members}

theorem awaitReply_of_error {failure : ReadFailure}
    (hread : readFrame loads stream = (.error failure, rest)) :
    awaitReply loads id stream = (.error (.read failure), rest) := by
  rw [awaitReply]
  split
  · next e herror =>
      simp only [hread, Except.error.injEq] at herror
      rw [hread, herror]
  · next reply hok => simp [hread] at hok

theorem awaitReply_of_ok (hread : readFrame loads stream = (.ok reply, rest)) :
    awaitReply loads id stream =
      if answersTo id reply then (replyResult reply, rest) else awaitReply loads id rest := by
  rw [awaitReply]
  split
  · next e herror => simp [hread] at herror
  · next other hok =>
      simp only [hread, Except.ok.injEq] at hok
      rw [hread, hok]

/-- A call on any stream ends: with the first reply of its own among the frames, or as
the reading does where there is none. -/
theorem awaitReply_ends (loads : Loads) (id : Int) (stream : Bytes) :
    (∃ reply later, Takes id (frames loads stream).1 reply later ∧
        (awaitReply loads id stream).1 = replyResult reply ∧
          frames loads (awaitReply loads id stream).2 = (later, (frames loads stream).2)) ∨
      ((∀ reply ∈ (frames loads stream).1, answersTo id reply = false) ∧
        (awaitReply loads id stream).1 = .error (.read (frames loads stream).2)) := by
  induction hsize : stream.length using Nat.strong_induction_on generalizing stream with
  | h size ih =>
    cases hread : readFrame loads stream with
    | mk outcome rest =>
      cases outcome with
      | error failure =>
          refine .inr ?_
          rw [frames_of_error hread, awaitReply_of_error hread]
          exact ⟨List.forall_mem_nil _, rfl⟩
      | ok reply =>
          have hstream : stream ≠ [] := ne_nil_of_readFrame (by rw [hread])
          have hshort : rest.length < stream.length := by
            have hread' := @length_readFrame_lt loads stream hstream
            rwa [hread] at hread'
          rw [frames_of_ok hread, awaitReply_of_ok hread]
          by_cases hown : answersTo id reply = true
          · rw [if_pos hown]
            exact .inl ⟨reply, _, ⟨[], rfl, List.forall_mem_nil _, hown⟩, rfl, rfl⟩
          · rw [if_neg hown]
            have hother := Bool.not_eq_true _ ▸ hown
            rcases ih rest.length (by omega) rest rfl with
              ⟨own, later, ⟨skipped, hframes, hskipped, howner⟩, hresult, hrest⟩ |
                ⟨hnone, hresult⟩
            · refine .inl ⟨own, later, ⟨reply :: skipped, ?_, ?_, howner⟩, hresult, hrest⟩
              · rw [hframes]
                rfl
              · exact List.forall_mem_cons.mpr ⟨hother, hskipped⟩
            · exact .inr ⟨List.forall_mem_cons.mpr ⟨hother, hnone⟩, hresult⟩

theorem awaitReply_of_takes {later : List Members}
    (htakes : Takes id (frames loads stream).1 reply later) :
    (awaitReply loads id stream).1 = replyResult reply ∧
      (frames loads (awaitReply loads id stream).2).1 = later := by
  rcases awaitReply_ends loads id stream with ⟨own, rest, hown, hresult, hrest⟩ | ⟨hnone, -⟩
  · obtain ⟨rfl, rfl⟩ := htakes.unique hown
    exact ⟨hresult, by rw [hrest]⟩
  · obtain ⟨skipped, hframes, -, hreply⟩ := htakes
    have hmem : reply ∈ (frames loads stream).1 := by
      rw [hframes]
      exact List.mem_append_right skipped List.mem_cons_self
    rw [hnone reply hmem] at hreply
    cases hreply

theorem awaitReply_eq_ok_iff (result : Json) :
    (awaitReply loads id stream).1 = .ok result ↔
      ∃ reply later, Takes id (frames loads stream).1 reply later ∧ Answers reply result := by
  constructor
  · intro hok
    rcases awaitReply_ends loads id stream with ⟨reply, later, htakes, hresult, -⟩ | ⟨-, hfail⟩
    · exact ⟨reply, later, htakes, (replyResult_eq_ok_iff reply result).mp (hresult ▸ hok)⟩
    · rw [hfail] at hok
      cases hok
  · rintro ⟨reply, later, htakes, hanswers⟩
    rw [(awaitReply_of_takes htakes).1]
    exact (replyResult_eq_ok_iff reply result).mpr hanswers

end Calls

/-- A call without its pipes or whose write fails ends with that. On any stream every
other one writes its request and takes the first reply of its own, or fails as the
reading of the stream does. -/
theorem rpc_first_reply (loads : Loads) (id : Int) (method : String) (params : Members)
    (pipes : Pipes) :
    ((pipes.stdin = none ∨ pipes.stdout = none) ∧
      rpc loads id method params pipes = (.error .closed, pipes)) ∨
    (pipes.stdin = some 0 ∧ pipes.stdout ≠ none ∧
      rpc loads id method params pipes = (.error .write, pipes)) ∨
    ∃ room stream after, pipes.stdin = some (room + 1) ∧ pipes.stdout = some stream ∧
      (rpc loads id method params pipes).2 =
        ⟨pipes.written ++ [request id method params], some room, some after⟩ ∧
      ((∃ reply later, Takes id (frames loads stream).1 reply later ∧
          (rpc loads id method params pipes).1 = replyResult reply ∧
            frames loads after = (later, (frames loads stream).2)) ∨
        ((∀ reply ∈ (frames loads stream).1, answersTo id reply = false) ∧
          (rpc loads id method params pipes).1 =
            .error (.read (frames loads stream).2))) := by
  obtain ⟨written, stdin, stdout⟩ := pipes
  cases stdin with
  | none => exact .inl ⟨.inl rfl, rfl⟩
  | some room =>
      cases stdout with
      | none => exact .inl ⟨.inr rfl, rfl⟩
      | some stream =>
          cases room with
          | zero => exact .inr (.inl ⟨rfl, Option.some_ne_none _, rfl⟩)
          | succ room =>
              exact .inr (.inr ⟨room, stream, (awaitReply loads id stream).2, rfl, rfl, rfl,
                awaitReply_ends loads id stream⟩)

/-- Calls answered one after another: each in what the call before it left. -/
inductive Answered : List Int → List Members → List Json → List Members → Prop
  | nil (frames : List Members) : Answered [] frames [] frames
  | cons {id : Int} {ids : List Int} {frames later rest : List Members} {reply : Members}
      {result : Json} {results : List Json} (htakes : Takes id frames reply later)
      (hanswers : Answers reply result) (hrest : Answered ids later results rest) :
      Answered (id :: ids) frames (result :: results) rest

/-- What a session writes when nothing fails. -/
def script (origin : String) : List Members :=
  [request 1 "initialize" initializeParams, notification "notifications/initialized",
    request 2 "tools/call" (navigateParams origin), request 3 "tools/call" evaluateParams]

section Drive

variable {loads : Loads} {texts : Texts} {origin : String} {pipes : Pipes}

theorem answered_cons_iff {id : Int} {ids : List Int} {frames rest : List Members}
    {result : Json} {results : List Json} :
    Answered (id :: ids) frames (result :: results) rest ↔
      ∃ reply later, Takes id frames reply later ∧ Answers reply result ∧
        Answered ids later results rest := by
  constructor
  · intro hanswered
    cases hanswered with
    | cons htakes hanswers hrest => exact ⟨_, _, htakes, hanswers, hrest⟩
  · rintro ⟨reply, later, htakes, hanswers, hrest⟩
    exact .cons htakes hanswers hrest

/-- An answered call leaves what stands behind its reply. -/
theorem answered_step {id : Int} {ids : List Int} {results : List Json} {rest : List Members}
    {stream : Bytes} {result : Json} (hok : (awaitReply loads id stream).1 = .ok result) :
    (∃ first, Answered (id :: ids) (frames loads stream).1 (first :: results) rest) ↔
      Answered ids (frames loads (awaitReply loads id stream).2).1 results rest := by
  obtain ⟨reply, later, htakes, hanswers⟩ := (awaitReply_eq_ok_iff result).mp hok
  rw [(awaitReply_of_takes htakes).2]
  constructor
  · rintro ⟨first, hanswered⟩
    obtain ⟨other, behind, hother, -, hrest⟩ := answered_cons_iff.mp hanswered
    rwa [(htakes.unique hother).2]
  · exact fun hrest => ⟨result, .cons htakes hanswers hrest⟩

theorem not_answered {id : Int} {ids : List Int} {results : List Json} {rest : List Members}
    {stream : Bytes} {failure : CallFailure}
    (hfail : (awaitReply loads id stream).1 = .error failure) :
    ¬ Answered (id :: ids) (frames loads stream).1 results rest := by
  intro hanswered
  cases hanswered with
  | cons htakes hanswers hrest =>
      have hok := (awaitReply_eq_ok_iff _).mpr ⟨_, _, htakes, hanswers⟩
      rw [hfail] at hok
      cases hok

/-- The last call of several is answered. -/
theorem answered_last {id : Int} {stream : Bytes} {result : Json}
    (hok : (awaitReply loads id stream).1 = .ok result) :
    ∃ rest, Answered [id] (frames loads stream).1 [result] rest := by
  obtain ⟨reply, later, htakes, hanswers⟩ := (awaitReply_eq_ok_iff result).mp hok
  exact ⟨later, .cons htakes hanswers (.nil later)⟩

theorem run_of_closed (hclosed : pipes.stdin = none ∨ pipes.stdout = none) :
    run loads texts origin pipes = (.error .closed, pipes) := by
  obtain ⟨written, stdin, stdout⟩ := pipes
  rcases hclosed with rfl | rfl
  · rfl
  · cases stdin <;> rfl

variable {written : List Members} {stream : Bytes}

/-- A session ends at the first write that fails, or at the first call that is not
answered. -/
theorem run_of_first_error {e : CallFailure} (room : Nat)
    (hfirst : (awaitReply loads 1 stream).1 = .error e) :
    (run loads texts origin ⟨written, some room, some stream⟩).1 =
        .error (if room = 0 then .write else e) ∧
      (run loads texts origin ⟨written, some room, some stream⟩).2.written =
        written ++ (script origin).take (min room 1) := by
  cases room <;> simp [run, rpc, writeFrame, hfirst, script]

theorem run_of_second_error {first : Json} {e : CallFailure} (room : Nat)
    (hfirst : (awaitReply loads 1 stream).1 = .ok first)
    (hsecond : (awaitReply loads 2 (awaitReply loads 1 stream).2).1 = .error e) :
    (run loads texts origin ⟨written, some room, some stream⟩).1 =
        .error (if room < 3 then .write else e) ∧
      (run loads texts origin ⟨written, some room, some stream⟩).2.written =
        written ++ (script origin).take (min room 3) := by
  match room with
  | 0 | 1 | 2 | room + 3 =>
      simp [run, rpc, notify, writeFrame, hfirst, hsecond, script]

theorem run_of_third {first second : Json} (room : Nat)
    (hfirst : (awaitReply loads 1 stream).1 = .ok first)
    (hsecond : (awaitReply loads 2 (awaitReply loads 1 stream).2).1 = .ok second) :
    (run loads texts origin ⟨written, some room, some stream⟩).1 =
        (if room < 4 then .error .write
          else (awaitReply loads 3
            (awaitReply loads 2 (awaitReply loads 1 stream).2).2).1.map (toolText texts)) ∧
      (run loads texts origin ⟨written, some room, some stream⟩).2.written =
        written ++ (script origin).take (min room 4) := by
  match room with
  | 0 | 1 | 2 | 3 => simp [run, rpc, notify, writeFrame, hfirst, hsecond, script]
  | room + 4 =>
      cases hthird :
          (awaitReply loads 3 (awaitReply loads 2 (awaitReply loads 1 stream).2).2).1 <;>
        simp [run, rpc, notify, writeFrame, hfirst, hsecond, hthird, script, Except.map]

/-- A session with its pipes shows the text of the third answer, on any stream. -/
theorem run_text_iff (room : Nat) (text : String) :
    (run loads texts origin ⟨written, some room, some stream⟩).1 = .ok text ↔
      4 ≤ room ∧ ∃ first second third later,
        Answered [1, 2, 3] (frames loads stream).1 [first, second, third] later ∧
          text = toolText texts third := by
  cases hfirst : (awaitReply loads 1 stream).1 with
  | error e =>
      rw [(run_of_first_error room hfirst).1]
      refine iff_of_false (fun h => by cases h) ?_
      rintro ⟨-, first, second, third, later, hanswered, -⟩
      exact not_answered hfirst hanswered
  | ok first =>
      cases hsecond : (awaitReply loads 2 (awaitReply loads 1 stream).2).1 with
      | error e =>
          rw [(run_of_second_error room hfirst hsecond).1]
          refine iff_of_false (fun h => by cases h) ?_
          rintro ⟨-, other, second, third, later, hanswered, -⟩
          exact not_answered hsecond ((answered_step hfirst).mp ⟨other, hanswered⟩)
      | ok second =>
          rw [(run_of_third room hfirst hsecond).1]
          by_cases hroom : 4 ≤ room
          · rw [if_neg (Nat.not_lt.mpr hroom), and_iff_right hroom]
            cases hthird : (awaitReply loads 3
                (awaitReply loads 2 (awaitReply loads 1 stream).2).2).1 with
            | error e =>
                refine iff_of_false (fun h => by cases h) ?_
                rintro ⟨other, another, third, later, hanswered, -⟩
                have hopened := (answered_step hfirst).mp ⟨other, hanswered⟩
                exact not_answered hthird ((answered_step hsecond).mp ⟨another, hopened⟩)
            | ok third =>
                constructor
                · intro htext
                  obtain ⟨later, hlast⟩ := answered_last hthird
                  obtain ⟨another, hopened⟩ := (answered_step hsecond).mpr hlast
                  obtain ⟨other, hall⟩ := (answered_step hfirst).mpr hopened
                  exact ⟨other, another, third, later, hall, (Except.ok.inj htext).symm⟩
                · rintro ⟨other, another, last, later, hanswered, rfl⟩
                  have hopened := (answered_step hfirst).mp ⟨other, hanswered⟩
                  have hlast := (answered_step hsecond).mp ⟨another, hopened⟩
                  obtain ⟨reply, behind, htakes, hanswers, -⟩ := answered_cons_iff.mp hlast
                  have hsame :=
                    (awaitReply_eq_ok_iff last).mpr ⟨reply, behind, htakes, hanswers⟩
                  rw [hthird] at hsame
                  rw [Except.ok.inj hsame]
                  rfl
          · rw [if_pos (Nat.not_le.mp hroom)]
            exact iff_of_false (fun h => by cases h) fun h => hroom h.1

theorem drive_eq_ok_iff (late : Bool) (text : String) :
    (drive loads texts origin late pipes).1 = .ok text ↔
      late = false ∧ (run loads texts origin pipes).1 = .ok text := by
  cases late with
  | true => exact iff_of_false (fun h => by cases h) fun h => by cases h.1
  | false =>
      rw [drive]
      cases (run loads texts origin pipes).1 with
      | ok shown => simp
      | error e => simp

end Drive

/-- The page is opened only behind an answered greeting, and evaluated only when it was
answered that it is open; a write that fails is the last one, and a time limit that
passes stops none. -/
theorem drive_written (loads : Loads) (texts : Texts) (origin : String) (late : Bool)
    (pipes : Pipes) :
    ((pipes.stdin = none ∨ pipes.stdout = none) ∧
      (drive loads texts origin late pipes).2.written = pipes.written) ∨
    ∃ room stream n, pipes.stdin = some room ∧ pipes.stdout = some stream ∧
      (drive loads texts origin late pipes).2.written =
        pipes.written ++ (script origin).take (min room n) ∧
      (n = 1 ∨ n = 3 ∨ n = 4) ∧
      (1 < n ↔ ∃ first later, Answered [1] (frames loads stream).1 [first] later) ∧
      (3 < n ↔ ∃ first second later,
        Answered [1, 2] (frames loads stream).1 [first, second] later) := by
  obtain ⟨written, stdin, stdout⟩ := pipes
  cases stdin with
  | none => exact .inl ⟨.inl rfl, by rw [drive, run_of_closed (.inl rfl)]⟩
  | some room =>
    cases stdout with
    | none => exact .inl ⟨.inr rfl, by rw [drive, run_of_closed (.inr rfl)]⟩
    | some stream =>
      refine .inr ⟨room, stream, ?_⟩
      cases hfirst : (awaitReply loads 1 stream).1 with
      | error e =>
          refine ⟨1, rfl, rfl, (run_of_first_error room hfirst).2, .inl rfl,
            iff_of_false (by decide) ?_, iff_of_false (by decide) ?_⟩
          · rintro ⟨first, later, hanswered⟩
            exact not_answered hfirst hanswered
          · rintro ⟨first, second, later, hanswered⟩
            exact not_answered hfirst hanswered
      | ok first =>
          have hgreeted := answered_last hfirst
          cases hsecond : (awaitReply loads 2 (awaitReply loads 1 stream).2).1 with
          | error e =>
              refine ⟨3, rfl, rfl, (run_of_second_error room hfirst hsecond).2,
                .inr (.inl rfl), iff_of_true (by decide) ⟨first, hgreeted⟩,
                iff_of_false (by decide) ?_⟩
              rintro ⟨other, second, later, hanswered⟩
              exact not_answered hsecond ((answered_step hfirst).mp ⟨other, hanswered⟩)
          | ok second =>
              obtain ⟨later, hopened⟩ := answered_last hsecond
              obtain ⟨other, hboth⟩ := (answered_step hfirst).mpr hopened
              exact ⟨4, rfl, rfl, (run_of_third room hfirst hsecond).2, .inr (.inr rfl),
                iff_of_true (by decide) ⟨first, hgreeted⟩,
                iff_of_true (by decide) ⟨other, second, later, hboth⟩⟩

end McpSession

end HermesPipeline
