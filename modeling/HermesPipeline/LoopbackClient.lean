/-
The two ends of the loopback interface.  The server reads a body chunk by chunk
and stops behind its limit; the shim's client writes one command and reads one
answer.  Between them other clients may send anything, and the wire may lose a
request or its answer; still an answer tells the client whether the store was
given its command.
-/
import HermesPipeline.Lib.JsonText
import HermesPipeline.Lib.Machine
import HermesPipeline.Lib.PyInt
import HermesPipeline.Lib.Strip
import HermesPipeline.LoopbackProtocol

namespace HermesPipeline

open Lib

namespace LoopbackClient

open LoopbackProtocol

section Body

/-- `b"".join(chunks)`. -/
def joined : List ByteArray → ByteArray
  | [] => .empty
  | chunk :: rest => chunk ++ joined rest

/-- The chunks that `_read_bounded` takes from the stream, once `size` bytes are
read.  A chunk is kept before the sum is compared. -/
def readChunks (size : Nat) : List ByteArray → List ByteArray
  | [] => []
  | chunk :: rest =>
      chunk ::
        if size + chunk.size > bodyLimitBytes then []
        else readChunks (size + chunk.size) rest

/-- `_read_bounded`. -/
def readBounded (stream : List ByteArray) : ByteArray := joined (readChunks 0 stream)

theorem size_joined_cons (chunk : ByteArray) (rest : List ByteArray) :
    (joined (chunk :: rest)).size = chunk.size + (joined rest).size := by
  rw [joined, ByteArray.size_append]

/-- A body within the limit is read whole. -/
theorem readChunks_of_le {size : Nat} {stream : List ByteArray}
    (hsize : size + (joined stream).size ≤ bodyLimitBytes) :
    readChunks size stream = stream := by
  induction stream generalizing size with
  | nil => rfl
  | cons chunk rest ih =>
      rw [size_joined_cons] at hsize
      rw [readChunks, if_neg (by omega), ih (by omega)]

/-- Of a larger body more than the limit is read. -/
theorem size_readChunks_of_lt {size : Nat} {stream : List ByteArray}
    (hsize : bodyLimitBytes < size + (joined stream).size) (hread : size ≤ bodyLimitBytes) :
    bodyLimitBytes < size + (joined (readChunks size stream)).size := by
  induction stream generalizing size with
  | nil =>
      have hnone : (joined []).size = 0 := rfl
      omega
  | cons chunk rest ih =>
      rw [size_joined_cons] at hsize
      rw [readChunks, size_joined_cons]
      split
      · omega
      · have hrest := @ih (size + chunk.size) (by omega) (by omega)
        omega

/-- No more than one chunk is read behind the limit. -/
theorem size_readChunks_le {size bound : Nat} {stream : List ByteArray}
    (hbound : ∀ chunk ∈ stream, chunk.size ≤ bound) (hread : size ≤ bodyLimitBytes) :
    size + (joined (readChunks size stream)).size ≤ bodyLimitBytes + bound := by
  induction stream generalizing size with
  | nil =>
      have hnone : (joined []).size = 0 := rfl
      rw [readChunks]
      omega
  | cons chunk rest ih =>
      have hchunk := hbound chunk List.mem_cons_self
      rw [readChunks, size_joined_cons]
      split
      · have hnone : (joined []).size = 0 := rfl
        omega
      · have hrest := @ih (size + chunk.size)
          (fun other hother => hbound other (List.mem_cons_of_mem chunk hother)) (by omega)
        omega

end Body

section Server

variable {σ : Type} (backend : CommandBackend σ)

/-- `dispatch`: the request is handled with the body that was read. -/
def dispatch (s : ServerState σ) (head : RequestContext) (stream : List ByteArray) :
    Reply × ServerState σ :=
  validateAndHandle backend s { head with body := readBounded stream }

/-- Two bodies that are both too large are answered alike. -/
theorem handle_too_large (s : ServerState σ) (head : RequestContext)
    {left right : ByteArray} (hleft : bodyLimitBytes < left.size)
    (hright : bodyLimitBytes < right.size) :
    validateAndHandle backend s { head with body := left } =
      validateAndHandle backend s { head with body := right } := by
  have hrefusal : refusal? s { head with body := left } =
      refusal? s { head with body := right } := rfl
  unfold validateAndHandle
  rw [hrefusal]
  cases hpasses : refusal? s { head with body := right } with
  | some response => rfl
  | none =>
      by_cases hhealth : head.path = "/livez" ∨ head.path = "/readyz"
      · rcases hhealth with hlive | hready
        · simp only [hlive, if_true]
        · simp only [hready, if_true, readiness]
      · obtain ⟨hlive, hready⟩ := not_or.mp hhealth
        simp only [if_neg hlive, if_neg hready]
        by_cases hcommands : head.path = "/v1/commands"
        · simp only [handleCounted, hcommands, hleft, hright, and_self, if_true]
        · have hknown : knownPath head.path = true := by
            have hchecks := refusal?_eq_none_iff.mp hpasses
            simp only [passes, Bool.and_eq_true] at hchecks
            exact hchecks.1.2
          have hversion : head.path = "/v1/version" := by
            simpa [knownPath, hlive, hready, hcommands] using hknown
          have hother : "/v1/version" ≠ "/v1/commands" := by decide
          simp only [handleCounted, hversion, hother, false_and, if_true, if_false]

/-- However a body arrives in chunks, the request is handled as if it had been read
whole, and the server holds at most one chunk more than the limit. -/
theorem dispatch_chunks (s : ServerState σ) (head : RequestContext)
    (stream : List ByteArray) :
    dispatch backend s head stream =
        validateAndHandle backend s { head with body := joined stream } ∧
      ∀ bound, (∀ chunk ∈ stream, chunk.size ≤ bound) →
        (readBounded stream).size ≤ bodyLimitBytes + bound := by
  constructor
  · by_cases hsize : (joined stream).size ≤ bodyLimitBytes
    · rw [dispatch, readBounded, readChunks_of_le (by omega)]
    · have hread := @size_readChunks_of_lt 0 stream (by omega) (Nat.zero_le _)
      exact handle_too_large backend s head (by rw [readBounded]; omega) (by omega)
  · intro bound hbound
    have hread := @size_readChunks_le 0 bound stream hbound (Nat.zero_le _)
    rw [readBounded]
    omega

end Server

mutual

/-- The members of every object in the order of their names, as `sort_keys` writes
them. -/
def sortKeys : Json → Json
  | .arr items => .arr (sortItems items)
  | .obj members => .obj (Json.sortMembers (sortValues members))
  | .null => .null
  | .bool b => .bool b
  | .int n => .int n
  | .float q => .float q
  | .str s => .str s

def sortItems : List Json → List Json
  | [] => []
  | item :: rest => sortKeys item :: sortItems rest

def sortValues : List (String × Json) → List (String × Json)
  | [] => []
  | (name, value) :: rest => (name, sortKeys value) :: sortValues rest

end

/-- A number that a Python float holds. -/
def IsDouble (q : ℚ) : Prop :=
  ∃ (m : Int) (a b : Nat), m.natAbs < 2 ^ 53 ∧ a ≤ 971 ∧ b ≤ 1074 ∧
    q.num * 2 ^ b = m * 2 ^ a * q.den

mutual

/-- A value as Python holds it: integers of no more digits than are written, finite
floats, and no name twice in a dictionary. -/
def Held : Json → Prop
  | .int n => n.natAbs < 10 ^ maxStrDigits
  | .float q => IsDouble q
  | .arr items => HeldItems items
  | .obj members => (members.map Prod.fst).Nodup ∧ HeldValues members
  | .null | .bool _ | .str _ => True

def HeldItems : List Json → Prop
  | [] => True
  | item :: rest => Held item ∧ HeldItems rest

def HeldValues : List (String × Json) → Prop
  | [] => True
  | (_, value) :: rest => Held value ∧ HeldValues rest

end

/-- `json.dumps(value, sort_keys=True, separators=(",", ":"))`, the text that a
`JSONResponse` sends, and `json.loads`. -/
structure HttpJson where
  dumps : Json → String
  render : Json → String
  loads : String → Except LoadFailure Json

/-- What is written of a value that Python holds is read back, and an empty text is no
document. -/
structure HttpJson.RoundTrips (json : HttpJson) : Prop where
  dumps : ∀ value, Held value → json.loads (json.dumps value) = .ok (sortKeys value)
  render : ∀ value, Held value → json.loads (json.render value) = .ok value
  empty : json.loads "" = .error .value

/-- `ClientResult`. -/
structure ClientResult where
  ok : Bool
  status : Option Nat := none
  code : Option String := none
  body : Option (List (String × Json)) := none
  reason : Option String := none

/-- What `_request` raises: a `RuntimeUnavailableError`, or what `json.loads` raises
beside a `ValueError`. -/
inductive ClientError
  | unavailable
  | other
deriving Repr, DecidableEq

section Client

variable (json : HttpJson)

/-- The object in the bytes of an answer. -/
def parsedBody (raw : ByteArray) : Except ClientError (Option (List (String × Json))) :=
  if raw.size = 0 then .ok none
  else
    match String.fromUTF8? raw with
    | none => .ok none
    | some text =>
        match json.loads text with
        | .ok (.obj members) => .ok (some members)
        | .ok _ => .ok none
        | .error .value => .ok none
        | .error .other => .error .other

/-- The end of `_request`: what the client makes of an answer. -/
def clientResult (status : Nat) (raw : ByteArray) : Except ClientError ClientResult :=
  (parsedBody json raw).map fun payload =>
    { ok := decide (200 ≤ status ∧ status < 300)
      status := some status
      code := payload.bind fun members => (Json.member? members "code").bind Json.text?
      body := payload }

/-- The head of a request that the client sends; `urllib` takes the Host from the
base URL. -/
def requestHead (port : Int) (token method path : String) (now : Int) :
    RequestContext where
  method := method
  path := path
  host := "127.0.0.1:" ++ toString port
  origin := none
  protocolHeader := some "1"
  authorization := some ("Bearer " ++ token)
  body := .empty
  now := now

/-- The body of one command. -/
def commandBody (commandId : String) (payload : List (String × Json)) : ByteArray :=
  (json.dumps (.obj [("command_id", .str commandId), ("payload", .obj payload)])).toUTF8

/-- What the wire does to a request: it never arrives, or no answer of it comes back
in time, or both ends are served. -/
inductive Fate
  | lost
  | unanswered
  | answered
deriving Repr, DecidableEq

/-- One call of `submit_command`, with the time it arrives at and the chunks its body
is cut into. -/
structure Submission where
  commandId : String
  payload : List (String × Json)
  held : Held (.obj payload)
  now : Int
  chunks : List ByteArray
  whole : joined chunks = commandBody json commandId payload
  fate : Fate

/-- What the store is given for a submission that gets there. -/
def Submission.command (sub : Submission json) : String × List (String × Json) :=
  (sub.commandId, Json.sortMembers (sortValues sub.payload))

/-- The request of a submission as the server has it when the body is read. -/
def Submission.request (port : Int) (token : String) (sub : Submission json) :
    RequestContext :=
  { requestHead port token "POST" "/v1/commands" sub.now with
    body := commandBody json sub.commandId sub.payload }

/-- What the client's call comes to, and what the store was given for it. -/
structure Exchange where
  result : Except ClientError ClientResult
  processed : Option (String × List (String × Json))

variable {σ : Type} (process : σ → String → List (String × Json) →
  Except Unit (List (String × Json)) × σ)

/-- The receipts of a store are dictionaries that Python holds. -/
def HeldReceipts : Prop :=
  ∀ store commandId payload receipt,
    (process store commandId payload).1 = .ok receipt → Held (.obj receipt)

/-- The handlers of a server that reads JSON as the client does. -/
def backend : CommandBackend σ := ⟨json.loads, process⟩

/-- The server's part in `submit_command`. -/
def received (port : Int) (token : String) (s : ServerState σ) (sub : Submission json) :
    Reply × ServerState σ :=
  dispatch (backend json process) s
    (requestHead port token "POST" "/v1/commands" sub.now) sub.chunks

/-- `submit_command` over the wire. -/
def submitCommand (port : Int) (token : String) (s : ServerState σ)
    (sub : Submission json) : Exchange × ServerState σ :=
  match sub.fate with
  | .lost => (⟨.error .unavailable, none⟩, s)
  | .unanswered =>
      let reply := received json process port token s sub
      (⟨.error .unavailable, reply.1.processed⟩, reply.2)
  | .answered =>
      let reply := received json process port token s sub
      (⟨clientResult json reply.1.response.status
        (json.render (.obj reply.1.response.body)).toUTF8, reply.1.processed⟩, reply.2)

/-- What reaches the server: submissions of the shim, and requests of anybody else. -/
inductive Call
  | submit (sub : Submission json)
  | other (head : RequestContext) (stream : List ByteArray)

/-- One call, with what the store was given for it. -/
def serve (port : Int) (token : String) (s : ServerState σ) :
    Call json → Option (String × List (String × Json)) × ServerState σ
  | .submit sub =>
      let exchange := submitCommand json process port token s sub
      (exchange.1.processed, exchange.2)
  | .other head stream =>
      let reply := dispatch (backend json process) s head stream
      (reply.1.processed, reply.2)

end Client

section Headers

theorem isPySpace_of_toDigits {n : Nat} {c : Char} (hc : c ∈ Nat.toDigits 10 n) :
    isPySpace c = false := by
  have hdigit := Nat.isDigit_of_mem_toDigits (by omega) (by omega) hc
  simp only [Char.isDigit, Bool.and_eq_true, decide_eq_true_eq, ge_iff_le,
    UInt32.le_iff_toNat_le] at hdigit
  have hlow : 48 ≤ c.toNat := hdigit.1
  have hhigh : c.toNat ≤ 57 := hdigit.2
  simp only [isPySpace, Bool.or_eq_false_iff, Bool.and_eq_false_iff, decide_eq_false_iff_not]
  omega

/-- The Host that the client sends has no white space. -/
theorem pyStrip_host (port : Int) :
    pyStrip ("127.0.0.1:" ++ toString port) = "127.0.0.1:" ++ toString port := by
  apply Strip.pyStrip_of_solid
  have hport : ∀ c ∈ (toString port).toList, isPySpace c = false := by
    intro c hc
    cases port with
    | ofNat n =>
        have hrepr : (toString (Int.ofNat n)).toList = Nat.toDigits 10 n := by
          rw [show toString (Int.ofNat n) = n.repr from rfl, Nat.repr_eq_ofList_toDigits,
            String.toList_ofList]
        rw [hrepr] at hc
        exact isPySpace_of_toDigits hc
    | negSucc n =>
        have hrepr : (toString (Int.negSucc n)).toList = '-' :: Nat.toDigits 10 (n + 1) := by
          rw [show toString (Int.negSucc n) = "-" ++ (n + 1).repr from rfl,
            Nat.repr_eq_ofList_toDigits, String.toList_append, String.toList_ofList,
            String.toList_ofList, List.singleton_append]
        rw [hrepr, List.mem_cons] at hc
        rcases hc with rfl | hc
        · decide
        · exact isPySpace_of_toDigits hc
  intro c hc
  rw [String.toList_append, List.mem_append] at hc
  rcases hc with hc | hc
  · have hhost : ("127.0.0.1:".toList.all fun c => !isPySpace c) = true := by decide
    simpa using List.all_eq_true.mp hhost c hc
  · exact hport c hc

theorem bearerToken_request {token : String} (htoken : pyStrip token = token) :
    bearerToken (some ("Bearer " ++ token)) = some token := by
  have hletters : ("Bearer " ++ token).toList =
      ['B', 'e', 'a', 'r', 'e', 'r', ' '] ++ token.toList := String.toList_append
  have hsplit : splitOnce ("Bearer " ++ token) = some ("Bearer", token) := by
    rw [splitOnce, hletters]
    simp
  have hscheme : "Bearer".toLower = "bearer" := by
    apply String.toList_injective
    change ("Bearer".map Char.toLower).toList = "bearer".toList
    rw [String.toList_map]
    decide
  rw [bearerToken, Option.bind_some, hsplit]
  simp only [hscheme, if_true, htoken]

end Headers

section Answers

variable {json : HttpJson} {σ : Type} {process : σ → String → List (String × Json) →
  Except Unit (List (String × Json)) × σ}

theorem readText (text : String) : String.fromUTF8? text.toUTF8 = some text := by
  rw [String.fromUTF8?, dif_pos (show text.toUTF8.IsValidUTF8 from text.isValidUTF8)]
  rfl

/-- The client's own headers pass the five checks, and its request is no health
probe. -/
theorem counts_request {s : ServerState σ} (htoken : pyStrip s.token = s.token)
    (sub : Submission json) : counts s (sub.request json s.port s.token) = true := by
  have hhost : trustedHost s.port ("127.0.0.1:" ++ toString s.port) = true := by
    rw [trustedHost, pyStrip_host]
    simp
  have hversion : supportedProtocol (some "1") = true := by decide
  have hpath : knownPath "/v1/commands" = true := by decide
  have hhealth : healthPath "/v1/commands" = false := by decide
  simp only [counts, passes, Submission.request, requestHead, authenticated,
    bearerToken_request htoken, hhost, hversion, hpath, hhealth, trustedOrigin, decide_true,
    Bool.and_self, Bool.not_false]

/-- The envelope that the client writes is the command that the server reads. -/
theorem parseCommand_request (hjson : json.RoundTrips) (port : Int) (token : String)
    (sub : Submission json) :
    parseCommand (backend json process) (sub.request json port token) =
      if sub.commandId = "" then .error (invalid 400 "command_id required")
      else .ok (sub.command json) := by
  have hread : json.loads (json.dumps (.obj [("command_id", .str sub.commandId),
      ("payload", .obj sub.payload)])) =
      .ok (.obj [("command_id", .str sub.commandId),
        ("payload", .obj (Json.sortMembers (sortValues sub.payload)))]) := by
    have hheld : Held (.obj [("command_id", .str sub.commandId),
        ("payload", .obj sub.payload)]) :=
      ⟨by simp, trivial, sub.held, trivial⟩
    rw [hjson.dumps _ hheld]
    have horder : ("command_id" : String) ≤ "payload" := by decide
    simp [sortKeys, sortValues, Json.sortMembers, horder]
  have htext : String.fromUTF8? (commandBody json sub.commandId sub.payload) =
      some (json.dumps (.obj [("command_id", .str sub.commandId),
        ("payload", .obj sub.payload)])) := readText _
  simp only [parseCommand, Submission.request, requestHead, htext, backend, hread]
  simp [Json.member?, Submission.command]

/-- The client reads the object that the server answered with. -/
theorem clientResult_render (hjson : json.RoundTrips) (status : Nat)
    {body : List (String × Json)} (hbody : Held (.obj body)) :
    clientResult json status (json.render (.obj body)).toUTF8 =
      .ok {
        ok := decide (200 ≤ status ∧ status < 300)
        status := some status
        code := (Json.member? body "code").bind Json.text?
        body := some body } := by
  have hsize : (json.render (.obj body)).toUTF8.size ≠ 0 := by
    intro hzero
    have hempty := (@String.utf8ByteSize_eq_zero_iff (json.render (.obj body))).mp hzero
    have hread := hjson.render (.obj body) hbody
    rw [hempty, hjson.empty] at hread
    cases hread
  rw [clientResult, parsedBody, if_neg hsize, readText]
  simp only [hjson.render _ hbody]
  rfl

end Answers

section Runs

variable {json : HttpJson} {σ : Type} {process : σ → String → List (String × Json) →
  Except Unit (List (String × Json)) × σ}

/-- The store after what it was given for one request. -/
def ranFor (process : σ → String → List (String × Json) →
    Except Unit (List (String × Json)) × σ) (store : σ) :
    Option (String × List (String × Json)) → σ
  | none => store
  | some command => (process store command.1 command.2).2

/-- A request changes the store by the command that it hands over, and not
otherwise. -/
theorem receiptStore_handle (commands : CommandBackend σ) (s : ServerState σ)
    (ctx : RequestContext) :
    (validateAndHandle commands s ctx).2.receiptStore =
      ranFor commands.process s.receiptStore (validateAndHandle commands s ctx).1.processed := by
  cases hcounted : counts s ctx with
  | false =>
      obtain ⟨hstate, hnone⟩ := handle_uncounted commands hcounted
      rw [hstate, hnone, ranFor]
  | true =>
      rw [handle_counted commands hcounted]
      simp only [handleCounted]
      split
      · rfl
      split
      · rfl
      split
      · rfl
      · unfold handleCommand
        split <;> rfl

/-- What a submission that arrives is answered by a server that expects it: a refusal
before the store, or what the store makes of the command. -/
theorem received_eq (hjson : json.RoundTrips) {s : ServerState σ}
    (htoken : pyStrip s.token = s.token) (sub : Submission json) :
    (received json process s.port s.token s sub).1 =
      if (s.rateLimiter.allow sub.now).1 = false then
        ⟨errorResponse 429 "RATE_LIMITED" "rate limit exceeded", none⟩
      else if (commandBody json sub.commandId sub.payload).size > bodyLimitBytes then
        ⟨invalid 413 "request body too large", none⟩
      else if sub.commandId = "" then ⟨invalid 400 "command_id required", none⟩
      else
        ⟨match (process s.receiptStore (sub.command json).1 (sub.command json).2).1 with
          | .ok receipt => ⟨202, [("receipt", .obj receipt)]⟩
          | .error _ => internalError, some (sub.command json)⟩ := by
  have hversion : "/v1/commands" ≠ "/v1/version" := by decide
  have hwhole : { requestHead s.port s.token "POST" "/v1/commands" sub.now with
      body := joined sub.chunks } = sub.request json s.port s.token := by
    rw [sub.whole, Submission.request]
  rw [received, (dispatch_chunks _ s _ sub.chunks).1, hwhole,
    handle_counted _ (counts_request htoken sub), handleCounted]
  have hpath : (sub.request json s.port s.token).path = "/v1/commands" := rfl
  have hnow : (sub.request json s.port s.token).now = sub.now := rfl
  have hbody : (sub.request json s.port s.token).body =
      commandBody json sub.commandId sub.payload := rfl
  simp only [hpath, hnow, hbody, handleCommand, parseCommand_request hjson, true_and,
    if_neg hversion]
  cases hrate : (s.rateLimiter.allow sub.now).1 with
  | false => simp
  | true =>
      by_cases hlarge : (commandBody json sub.commandId sub.payload).size > bodyLimitBytes
      · simp [hlarge]
      · by_cases hid : sub.commandId = ""
        · simp only [if_neg hlarge, if_pos hid, Bool.not_true, Bool.true_eq_false, if_false,
            Bool.false_eq_true]
        · simp only [if_neg hlarge, if_neg hid, Bool.not_true, Bool.true_eq_false, if_false,
            Bool.false_eq_true]
          rfl

/-- The checks that the client's own requests may fail. -/
def Admitted (json : HttpJson) (s : ServerState σ) (sub : Submission json) : Prop :=
  (s.rateLimiter.allow sub.now).1 = true ∧
    (commandBody json sub.commandId sub.payload).size ≤ bodyLimitBytes ∧
    sub.commandId ≠ ""

/-- A refusal of the server that comes before the store. -/
def Refusal (response : Response) : Prop :=
  ∃ status code message, response = errorResponse status code message ∧ 300 ≤ status ∧
    (code = "RATE_LIMITED" ∨ code = "VALIDATION_ERROR")

theorem received_cases (hjson : json.RoundTrips) {s : ServerState σ}
    (htoken : pyStrip s.token = s.token) (sub : Submission json) :
    let reply := (received json process s.port s.token s sub).1
    (¬Admitted json s sub ∧ reply.processed = none ∧ Refusal reply.response) ∨
      (Admitted json s sub ∧ reply.processed = some (sub.command json) ∧
        reply.response =
          match (process s.receiptStore (sub.command json).1 (sub.command json).2).1 with
          | .ok receipt => ⟨202, [("receipt", .obj receipt)]⟩
          | .error _ => internalError) := by
  intro reply
  have hreply : reply = _ := received_eq hjson htoken sub
  rw [hreply]
  split
  · next hrate =>
      refine .inl ⟨?_, rfl, 429, _, _, rfl, by omega, .inl rfl⟩
      intro hadmitted
      rw [hadmitted.1] at hrate
      cases hrate
  · next hrate =>
      split
      · next hlarge =>
          refine .inl ⟨?_, rfl, 413, _, _, rfl, by omega, .inr rfl⟩
          intro hadmitted
          exact absurd hadmitted.2.1 (Nat.not_le_of_lt hlarge)
      · next hsmall =>
          split
          · next hid =>
              refine .inl ⟨?_, rfl, 400, _, _, rfl, by omega, .inr rfl⟩
              intro hadmitted
              exact hadmitted.2.2 hid
          · next hid =>
              exact .inr ⟨⟨Bool.eq_true_of_not_eq_false hrate, Nat.le_of_not_lt hsmall, hid⟩,
                rfl, rfl⟩

/-- What the client may take from an exchange with a server that was in the state
`found`. -/
structure Tells (json : HttpJson) (process : σ → String → List (String × Json) →
    Except Unit (List (String × Json)) × σ) (found : ServerState σ) (sub : Submission json)
    (exchange : Exchange) : Prop where
  /-- The store is given the command exactly when the request arrives and passes. -/
  given_iff : exchange.processed = some (sub.command json) ↔
    sub.fate ≠ .lost ∧ Admitted json found sub
  given_or_none : exchange.processed = some (sub.command json) ∨ exchange.processed = none
  unavailable_iff : exchange.result = .error .unavailable ↔ sub.fate ≠ .answered
  never_other : exchange.result ≠ .error .other
  /-- A success is a receipt that the store returned for this command. -/
  ok_iff : ∀ result, exchange.result = .ok result →
    (result.ok = true ↔ ∃ receipt, exchange.processed = some (sub.command json) ∧
      (process found.receiptStore (sub.command json).1 (sub.command json).2).1 =
        .ok receipt ∧ result.body = some [("receipt", .obj receipt)])
  /-- An internal error is an exception of the store. -/
  internal_iff : ∀ result, exchange.result = .ok result →
    (result.code = some "INTERNAL_ERROR" ↔
      exchange.processed = some (sub.command json) ∧
        (process found.receiptStore (sub.command json).1 (sub.command json).2).1 =
          .error ())
  /-- Every other refusal came before the store. -/
  refused : ∀ result, exchange.result = .ok result → result.ok = false →
    result.code ≠ some "INTERNAL_ERROR" → exchange.processed = none

/-- The server answers with dictionaries that Python holds. -/
theorem held_received (hjson : json.RoundTrips) (hprocess : HeldReceipts process)
    {s : ServerState σ} (htoken : pyStrip s.token = s.token) (sub : Submission json) :
    Held (.obj (received json process s.port s.token s sub).1.response.body) := by
  have herror : ∀ status code message,
      Held (.obj (errorResponse status code message).body) :=
    fun _ _ _ => ⟨by simp [errorResponse], trivial, trivial, trivial⟩
  rcases @received_cases json σ process hjson s htoken sub with
    ⟨-, -, status, code, message, hresponse, -⟩ | ⟨-, -, hresponse⟩
  · rw [hresponse]
    exact herror status code message
  · rw [hresponse]
    split
    · next receipt hreceipt =>
        exact ⟨List.nodup_singleton _, hprocess _ _ _ _ hreceipt, trivial⟩
    · exact herror _ _ _

/-- An answered submission tells its client what the store was given. -/
theorem tells_answered (hjson : json.RoundTrips) (hprocess : HeldReceipts process)
    {s : ServerState σ}
    (htoken : pyStrip s.token = s.token) {sub : Submission json} (hfate : sub.fate = .answered) :
    Tells json process s sub (submitCommand json process s.port s.token s sub).1 := by
  have hexchange : (submitCommand json process s.port s.token s sub).1 =
      ⟨clientResult json (received json process s.port s.token s sub).1.response.status
        (json.render (.obj (received json process s.port s.token s sub).1.response.body)).toUTF8,
        (received json process s.port s.token s sub).1.processed⟩ := by
    rw [submitCommand, hfate]
  rw [hexchange, clientResult_render hjson _ (held_received hjson hprocess htoken sub)]
  have hcases := @received_cases json σ process hjson s htoken sub
  generalize (received json process s.port s.token s sub).1 = reply at hcases
  rcases hcases with ⟨hnot, hnone, status, code, message, hresponse, hstatus, hcode⟩ |
    ⟨hadmitted, hgiven, hresponse⟩
  · have hread : (Json.member? reply.response.body "code").bind Json.text? = some code := by
      rw [hresponse]
      rfl
    have hfails : decide (200 ≤ reply.response.status ∧ reply.response.status < 300) =
        false := by
      rw [hresponse]
      exact decide_eq_false fun hok => absurd hok.2 (Nat.not_lt_of_le hstatus)
    have hother : code ≠ "INTERNAL_ERROR" := by
      rcases hcode with rfl | rfl <;> decide
    constructor <;> simp [hnone, hread, hfails, hnot, hfate, hother]
  · cases hran : (process s.receiptStore (sub.command json).1 (sub.command json).2).1 with
    | ok receipt =>
        rw [hran] at hresponse
        constructor <;> simp [hgiven, hresponse, hadmitted, hfate, hran, Json.member?]
    | error raised =>
        rw [hran] at hresponse
        constructor <;> simp [hgiven, hresponse, hadmitted, hfate, hran, Json.member?,
          internalError, errorResponse, Json.text?]

theorem tells_submit (hjson : json.RoundTrips) (hprocess : HeldReceipts process)
    {s : ServerState σ}
    (htoken : pyStrip s.token = s.token) (sub : Submission json) :
    Tells json process s sub (submitCommand json process s.port s.token s sub).1 := by
  cases hfate : sub.fate with
  | lost =>
      have hexchange : (submitCommand json process s.port s.token s sub).1 =
          ⟨.error .unavailable, none⟩ := by
        rw [submitCommand, hfate]
      rw [hexchange]
      constructor <;> simp [hfate]
  | unanswered =>
      have hexchange : (submitCommand json process s.port s.token s sub).1 =
          ⟨.error .unavailable, (received json process s.port s.token s sub).1.processed⟩ := by
        rw [submitCommand, hfate]
      rw [hexchange]
      rcases @received_cases json σ process hjson s htoken sub with
        ⟨hnot, hnone, -⟩ | ⟨hadmitted, hgiven, -⟩
      · constructor <;> simp [hnone, hnot, hfate]
      · constructor <;> simp [hgiven, hadmitted, hfate]
  | answered => exact tells_answered hjson hprocess htoken hfate

theorem receiptStore_dispatch (s : ServerState σ) (head : RequestContext)
    (stream : List ByteArray) :
    (dispatch (backend json process) s head stream).2.receiptStore =
      ranFor process s.receiptStore
        (dispatch (backend json process) s head stream).1.processed := by
  rw [dispatch]
  exact receiptStore_handle (backend json process) s { head with body := readBounded stream }

theorem dispatch_identity (commands : CommandBackend σ) (s : ServerState σ)
    (head : RequestContext) (stream : List ByteArray) :
    (dispatch commands s head stream).2.port = s.port ∧
      (dispatch commands s head stream).2.token = s.token := by
  rw [dispatch]
  exact handle_identity commands s { head with body := readBounded stream }

/-- A call changes the store by what it hands over. -/
theorem receiptStore_serve (port : Int) (token : String) (s : ServerState σ)
    (call : Call json) :
    (serve json process port token s call).2.receiptStore =
      ranFor process s.receiptStore (serve json process port token s call).1 := by
  cases call with
  | other head stream => simpa only [serve] using receiptStore_dispatch s head stream
  | submit sub =>
      have hreceived : (received json process port token s sub).2.receiptStore =
          ranFor process s.receiptStore
            (received json process port token s sub).1.processed := by
        rw [received]
        exact receiptStore_dispatch s _ sub.chunks
      cases hfate : sub.fate with
      | lost => simp only [serve, submitCommand, hfate, ranFor]
      | unanswered => simpa only [serve, submitCommand, hfate] using hreceived
      | answered => simpa only [serve, submitCommand, hfate] using hreceived

/-- No call changes the port or the token. -/
theorem serve_identity (port : Int) (token : String) (s : ServerState σ) (call : Call json) :
    (serve json process port token s call).2.port = s.port ∧
      (serve json process port token s call).2.token = s.token := by
  cases call with
  | other head stream =>
      simpa only [serve] using dispatch_identity (backend json process) s head stream
  | submit sub =>
      have hreceived : (received json process port token s sub).2.port = s.port ∧
          (received json process port token s sub).2.token = s.token := by
        rw [received]
        exact dispatch_identity (backend json process) s _ sub.chunks
      cases hfate : sub.fate with
      | lost => simp only [serve, submitCommand, hfate, and_self]
      | unanswered => simpa only [serve, submitCommand, hfate] using hreceived
      | answered => simpa only [serve, submitCommand, hfate] using hreceived

/-- The store of a run is made of the commands that were handed over, in order. -/
theorem receiptStore_run (port : Int) (token : String) (s : ServerState σ)
    (calls : List (Call json)) :
    (exec (serve json process port token) s calls).receiptStore =
      (answers (serve json process port token) s calls).foldl (ranFor process)
        s.receiptStore := by
  induction calls generalizing s with
  | nil => rfl
  | cons call rest ih => rw [exec_cons, ih, answers, List.foldl_cons, receiptStore_serve]

theorem run_identity (s : ServerState σ) (calls : List (Call json)) :
    (exec (serve json process s.port s.token) s calls).port = s.port ∧
      (exec (serve json process s.port s.token) s calls).token = s.token := by
  refine exec_invariant (P := fun t : ServerState σ => t.port = s.port ∧
    t.token = s.token) ?_ ⟨rfl, rfl⟩ calls
  rintro t call ⟨hport, htoken⟩
  obtain ⟨hport', htoken'⟩ := serve_identity s.port s.token t call
  exact ⟨hport'.trans hport, htoken'.trans htoken⟩

end Runs

namespace ClientWitness

def textJson : HttpJson where
  dumps value := (sortKeys value).toText
  render value := value.toText
  loads text :=
    match Json.parse text with
    | some value => .ok value
    | none => .error .value

theorem textJson_roundTrips : textJson.RoundTrips where
  dumps value _ := by simp only [textJson, Json.parse_toText]
  render value _ := by simp only [textJson, Json.parse_toText]
  empty := by
    have hempty : Json.parse "" = none := by decide
    simp only [textJson, hempty]

/-- A store that counts what it is given. -/
def count (given : Nat) (commandId : String) (_ : List (String × Json)) :
    Except Unit (List (String × Json)) × Nat :=
  (.ok [("command_id", .str commandId)], given + 1)

def server : ServerState Nat where
  token := "a1b2"
  port := 8181
  receiptStore := 0
  rateLimiter := {}
  stateRootIdentity := "root"

def submission : Submission textJson where
  commandId := "cmd_a"
  payload := [("op", .str "start"), ("at", .int 1)]
  held := ⟨by decide, trivial, Nat.one_lt_pow (by decide) (by decide), trivial⟩
  now := 7
  chunks := [commandBody textJson "cmd_a" [("op", .str "start"), ("at", .int 1)]]
  whole := by rw [joined, joined, ByteArray.append_empty]
  fate := .answered

theorem count_heldReceipts : HeldReceipts count := by
  rintro given commandId payload receipt ⟨⟩
  exact ⟨List.nodup_singleton _, trivial, trivial⟩

end ClientWitness

end LoopbackClient

end HermesPipeline
