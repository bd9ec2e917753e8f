/-
The loopback protocol of the runtime.  Seven checks in a fixed order stand
before the handlers, and a request that one of the first five refuses, like a
health probe, leaves no trace that a later request could see.
-/
import HermesPipeline.Lib.Json
import HermesPipeline.Lib.Unwinding
import Mathlib.Data.List.Basic

namespace HermesPipeline

open Lib

/-- One parsed inbound request. -/
structure RequestContext where
  method : String
  path : String
  host : String
  origin : Option String
  protocolHeader : Option String
  authorization : Option String
  body : ByteArray
  now : Int

/-- One typed loopback response. -/
structure Response where
  status : Nat
  body : List (String × Json)

/-- One client fixed-window rate limiter. -/
structure FixedWindowRateLimiter where
  windowSeconds : Int := 60
  maxRequests : Int := 60
  windowStart : Option Int := none
  count : Int := 0
deriving Repr, DecidableEq

namespace FixedWindowRateLimiter

/-- The window of a request: a new one when the last one is over. -/
def opened (limiter : FixedWindowRateLimiter) (now : Int) :
    FixedWindowRateLimiter :=
  match limiter.windowStart with
  | none => { limiter with windowStart := some now, count := 0 }
  | some start =>
      if now - start ≥ limiter.windowSeconds then
        { limiter with windowStart := some now, count := 0 }
      else limiter

def allow (limiter : FixedWindowRateLimiter) (now : Int) :
    Bool × FixedWindowRateLimiter :=
  let current := limiter.opened now
  let counted := { current with count := current.count + 1 }
  (decide (counted.count ≤ counted.maxRequests), counted)

end FixedWindowRateLimiter

/-- Why `json.loads` does not return. -/
inductive LoadFailure
  | value
  /-- An exception of another kind, such as a recursion that is too deep. -/
  | other
deriving Repr, DecidableEq

/-- What the handlers are given: the parser of bodies and the receipt store,
which keeps a state and may raise. -/
structure CommandBackend (σ : Type) where
  loads : String → Except LoadFailure Json
  process : σ → String → List (String × Json) →
    Except Unit (List (String × Json)) × σ

/-- Runtime-side state injected into the protocol handlers. -/
structure ServerState (σ : Type) where
  token : String
  port : Int
  receiptStore : σ
  rateLimiter : FixedWindowRateLimiter
  stateRootIdentity : String
  ready : Bool := true
  runtimeVersion : String := "0.1.0"
  protocolVersion : Int := 1
  contractSchemaRange : String :=
    "https://schemas.hermes-pipeline.dev/engineering/slice-contract/v1:1"
  release : String := "hermes-pipeline-0.1.0-slice-00-05-spike"

/-- A response with the call of `receipt_store.process` that was made for it. -/
structure Reply where
  response : Response
  processed : Option (String × List (String × Json))

namespace LoopbackProtocol

def bodyLimitBytes : Nat := 64 * 1024

def errorResponse (status : Nat) (code message : String) : Response :=
  ⟨status, [("code", .str code), ("message", .str message)]⟩

/-- `text.split(" ", 1)`, when it has two parts. -/
def splitOnce (text : String) : Option (String × String) :=
  let head := text.toList.takeWhile fun c => c ≠ ' '
  match text.toList.dropWhile fun c => c ≠ ' ' with
  | [] => none
  | _ :: rest => some (String.ofList head, String.ofList rest)

/-- `_bearer_token`.  No character outside ASCII is lowered to one of
`bearer`. -/
def bearerToken (authorization : Option String) : Option String :=
  match authorization.bind splitOnce with
  | none => none
  | some (scheme, token) =>
      if scheme.toLower = "bearer" then some (pyStrip token) else none

def trustedHost (port : Int) (host : String) : Bool :=
  pyStrip host ∈ ["127.0.0.1:" ++ toString port, "[::1]:" ++ toString port]

def trustedOrigin (port : Int) : Option String → Bool
  | none => true
  | some origin => pyStrip origin ∈ ["http://127.0.0.1:" ++ toString port,
      "http://[::1]:" ++ toString port]

def supportedProtocol (header : Option String) : Bool :=
  header.map pyStrip = some "1"

def knownPath (path : String) : Bool :=
  path ∈ ["/livez", "/readyz", "/v1/version", "/v1/commands"]

def healthPath (path : String) : Bool := path ∈ ["/livez", "/readyz"]

variable {σ : Type}

def authenticated (s : ServerState σ) (ctx : RequestContext) : Bool :=
  bearerToken ctx.authorization = some s.token

/-- The Host, the Origin, the protocol, the path and the token are in order. -/
def passes (s : ServerState σ) (ctx : RequestContext) : Bool :=
  trustedHost s.port ctx.host && trustedOrigin s.port ctx.origin &&
    supportedProtocol ctx.protocolHeader && knownPath ctx.path &&
    authenticated s ctx

/-- The first five checks, in their order: the response of the one that
fails. -/
def refusal? (s : ServerState σ) (ctx : RequestContext) : Option Response :=
  if !trustedHost s.port ctx.host then
    some (errorResponse 400 "POLICY_REJECTED" "untrusted Host header")
  else if !trustedOrigin s.port ctx.origin then
    some (errorResponse 403 "POLICY_REJECTED" "untrusted Origin header")
  else if !supportedProtocol ctx.protocolHeader then
    some (errorResponse 400 "VALIDATION_ERROR" "unsupported protocol version")
  else if !knownPath ctx.path then
    some (errorResponse 404 "NOT_FOUND" "unknown path")
  else if !authenticated s ctx then
    some (errorResponse 401 "AUTHENTICATION_FAILED" "authentication failed")
  else none

def handleVersion (s : ServerState σ) : Response :=
  ⟨200, [("runtime_version", .str s.runtimeVersion),
    ("protocol_version", .int s.protocolVersion),
    ("contract_schema_range", .str s.contractSchemaRange),
    ("release", .str s.release),
    ("state_root_identity", .str s.stateRootIdentity)]⟩

def internalError : Response := errorResponse 500 "INTERNAL_ERROR" "internal error"

def invalid (status : Nat) (message : String) : Response :=
  errorResponse status "VALIDATION_ERROR" message

/-- The command that a body names, or the response that refuses it. -/
def parseCommand (backend : CommandBackend σ) (ctx : RequestContext) :
    Except Response (String × List (String × Json)) :=
  if ctx.method ≠ "POST" then .error (invalid 405 "method not allowed")
  else
    match String.fromUTF8? ctx.body with
    | none => .error (invalid 400 "invalid JSON body")
    | some text =>
        match backend.loads text with
        | .error .value => .error (invalid 400 "invalid JSON body")
        | .error .other => .error internalError
        | .ok (.obj envelope) =>
            match Json.member? envelope "command_id" with
            | some (.str commandId) =>
                if commandId = "" then .error (invalid 400 "command_id required")
                else
                  match Json.member? envelope "payload" with
                  | some (.obj payload) => .ok (commandId, payload)
                  | _ => .error (invalid 400 "payload must be an object")
            | _ => .error (invalid 400 "command_id required")
        | .ok _ => .error (invalid 400 "envelope must be an object")

/-- `_handle_command`; an exception of the store is answered like any other. -/
def handleCommand (backend : CommandBackend σ) (ctx : RequestContext)
    (s : ServerState σ) : Reply × ServerState σ :=
  match parseCommand backend ctx with
  | .error response => (⟨response, none⟩, s)
  | .ok (commandId, payload) =>
      let answered := backend.process s.receiptStore commandId payload
      let response := match answered.1 with
        | .ok receipt => ⟨202, [("receipt", .obj receipt)]⟩
        | .error _ => internalError
      (⟨response, some (commandId, payload)⟩,
        { s with receiptStore := answered.2 })

def readiness (s : ServerState σ) : Response :=
  ⟨if s.ready then 200 else 503, [("ready", .bool s.ready),
    ("status", .str (if s.ready then "ready" else "not-ready"))]⟩

/-- The rate limit, the body limit and the handlers of the two paths that are
no health probes. -/
def handleCounted (backend : CommandBackend σ) (ctx : RequestContext)
    (s : ServerState σ) : Reply × ServerState σ :=
  let limited := s.rateLimiter.allow ctx.now
  let counted := { s with rateLimiter := limited.2 }
  if !limited.1 then
    (⟨errorResponse 429 "RATE_LIMITED" "rate limit exceeded", none⟩, counted)
  else if ctx.path = "/v1/commands" ∧ ctx.body.size > bodyLimitBytes then
    (⟨invalid 413 "request body too large", none⟩, counted)
  else if ctx.path = "/v1/version" then (⟨handleVersion counted, none⟩, counted)
  else handleCommand backend ctx counted

/-- `validate_and_handle`. -/
def validateAndHandle (backend : CommandBackend σ) (s : ServerState σ)
    (ctx : RequestContext) : Reply × ServerState σ :=
  match refusal? s ctx with
  | some response => (⟨response, none⟩, s)
  | none =>
      if ctx.path = "/livez" then (⟨⟨200, [("status", .str "alive")]⟩, none⟩, s)
      else if ctx.path = "/readyz" then (⟨readiness s, none⟩, s)
      else handleCounted backend ctx s

/-- The request passes the first five checks and is no health probe. -/
def counts (s : ServerState σ) (ctx : RequestContext) : Bool :=
  passes s ctx && !healthPath ctx.path

/-- The calls of `receipt_store.process` along a run. -/
def processCalls (replies : List Reply) : List (String × List (String × Json)) :=
  replies.filterMap Reply.processed

section Steps

variable (backend : CommandBackend σ) {s : ServerState σ} {ctx : RequestContext}

theorem refusal?_eq_none_iff : refusal? s ctx = none ↔ passes s ctx = true := by
  unfold refusal? passes
  cases trustedHost s.port ctx.host <;> cases trustedOrigin s.port ctx.origin <;>
    cases supportedProtocol ctx.protocolHeader <;> cases knownPath ctx.path <;>
    cases authenticated s ctx <;> simp

/-- The first five checks read the port and the token only. -/
theorem counts_congr {t : ServerState σ} (hport : s.port = t.port)
    (htoken : s.token = t.token) (ctx : RequestContext) :
    counts s ctx = counts t ctx := by
  have hauthenticated : authenticated s ctx = authenticated t ctx := by
    rw [authenticated, authenticated, htoken]
  rw [counts, counts, passes, passes, hport, hauthenticated]

/-- A request that does not count leaves the server as it is and calls no
store. -/
theorem handle_uncounted (huncounted : counts s ctx = false) :
    (validateAndHandle backend s ctx).2 = s ∧
      (validateAndHandle backend s ctx).1.processed = none := by
  unfold validateAndHandle
  cases hrefusal : refusal? s ctx with
  | some response => exact ⟨rfl, rfl⟩
  | none =>
      have hhealth : healthPath ctx.path = true := by
        simpa [counts, refusal?_eq_none_iff.mp hrefusal] using huncounted
      have hpath : ctx.path = "/livez" ∨ ctx.path = "/readyz" := by
        simpa [healthPath] using hhealth
      rcases hpath with hlive | hready
      · simp [hlive]
      · simp [hready]

theorem handle_counted (hcounted : counts s ctx = true) :
    validateAndHandle backend s ctx = handleCounted backend ctx s := by
  rw [counts, Bool.and_eq_true, Bool.not_eq_true', healthPath,
    decide_eq_false_iff_not, List.mem_cons, List.mem_singleton, not_or] at hcounted
  obtain ⟨hpasses, hlive, hready⟩ := hcounted
  simp only [validateAndHandle, refusal?_eq_none_iff.mpr hpasses, if_neg hlive,
    if_neg hready]

/-- No request changes the port or the token. -/
theorem handle_identity (s : ServerState σ) (ctx : RequestContext) :
    (validateAndHandle backend s ctx).2.port = s.port ∧
      (validateAndHandle backend s ctx).2.token = s.token := by
  cases hcounted : counts s ctx with
  | false =>
      rw [(handle_uncounted backend hcounted).1]
      exact ⟨rfl, rfl⟩
  | true =>
      rw [handle_counted backend hcounted]
      simp only [handleCounted]
      split
      · exact ⟨rfl, rfl⟩
      split
      · exact ⟨rfl, rfl⟩
      split
      · exact ⟨rfl, rfl⟩
      · unfold handleCommand
        split <;> exact ⟨rfl, rfl⟩

/-- The store is called for a counted request of the command path that is
within the rate and within the body limit. -/
theorem admitted_of_processed
    (hprocessed : (validateAndHandle backend s ctx).1.processed ≠ none) :
    counts s ctx = true ∧ ctx.path = "/v1/commands" ∧
      (s.rateLimiter.allow ctx.now).1 = true ∧
      ctx.body.size ≤ bodyLimitBytes := by
  cases hcounted : counts s ctx with
  | false => exact absurd (handle_uncounted backend hcounted).2 hprocessed
  | true =>
      have hpath : ctx.path = "/v1/version" ∨ ctx.path = "/v1/commands" := by
        have hknown : knownPath ctx.path = true ∧ healthPath ctx.path = false := by
          simp only [counts, passes, Bool.and_eq_true, Bool.not_eq_true'] at hcounted
          exact ⟨hcounted.1.1.2, hcounted.2⟩
        simp only [knownPath, healthPath, List.mem_cons, List.not_mem_nil,
          or_false, decide_eq_true_eq, decide_eq_false_iff_not, not_or] at hknown
        obtain ⟨hlive | hready | hother, hnlive, hnready⟩ := hknown
        · exact absurd hlive hnlive
        · exact absurd hready hnready
        · exact hother
      rw [handle_counted backend hcounted] at hprocessed
      unfold handleCounted at hprocessed
      cases hrate : (s.rateLimiter.allow ctx.now).1 with
      | false => simp [hrate] at hprocessed
      | true =>
          by_cases hlarge : ctx.path = "/v1/commands" ∧
              ctx.body.size > bodyLimitBytes
          · simp [hrate, hlarge] at hprocessed
          · rcases hpath with hversion | hcommands
            · simp [hrate, hversion] at hprocessed
            · exact ⟨rfl, hcommands, rfl, Nat.le_of_not_lt fun hbody =>
                hlarge ⟨hcommands, hbody⟩⟩

end Steps

/-- The requests that count drive the server alone. -/
theorem unwinds (backend : CommandBackend σ) (s : ServerState σ) :
    Unwinds (validateAndHandle backend) (fun _ => True) (counts s) (counts s)
      fun left right => left = right ∧ left.port = s.port ∧
        left.token = s.token where
  hides := by
    rintro left right ctx - hhidden ⟨rfl, hport, htoken⟩
    rw [← counts_congr hport htoken] at hhidden
    rw [(handle_uncounted backend hhidden).1]
    exact ⟨rfl, hport, htoken⟩
  keeps := by
    rintro left right ctx - - ⟨rfl, hport, htoken⟩
    obtain ⟨hport', htoken'⟩ := handle_identity backend left ctx
    exact ⟨rfl, hport'.trans hport, htoken'.trans htoken⟩
  answers_eq := by
    rintro left right ctx - - ⟨rfl, -, -⟩
    rfl
  kept_of_observed := fun _ hobserved => hobserved

section Runs

variable (backend : CommandBackend σ) (s : ServerState σ)

/-- A run keeps the port and the token. -/
theorem run_identity (requests : List RequestContext) :
    (exec (validateAndHandle backend) s requests).port = s.port ∧
      (exec (validateAndHandle backend) s requests).token = s.token := by
  refine exec_invariant (P := fun t : ServerState σ => t.port = s.port ∧
    t.token = s.token) ?_ ⟨rfl, rfl⟩ requests
  rintro t ctx ⟨hport, htoken⟩
  obtain ⟨hport', htoken'⟩ := handle_identity backend t ctx
  exact ⟨hport'.trans hport, htoken'.trans htoken⟩

/-- Only the requests that count are seen by the store. -/
theorem processCalls_eq (requests : List RequestContext) {t : ServerState σ}
    (hport : t.port = s.port) (htoken : t.token = s.token) :
    processCalls (answers (validateAndHandle backend) t requests) =
      processCalls ((observations (validateAndHandle backend) (counts s) t
        requests).map Prod.snd) := by
  induction requests generalizing t with
  | nil => rfl
  | cons ctx rest ih =>
      obtain ⟨hport', htoken'⟩ := handle_identity backend t ctx
      have hrest := ih (hport'.trans hport) (htoken'.trans htoken)
      rw [observations_cons, List.map_append]
      unfold processCalls at hrest ⊢
      rw [List.filterMap_append, ← hrest, answers]
      cases hcounted : counts s ctx with
      | true =>
          cases hprocessed : (validateAndHandle backend t ctx).1.processed <;>
            simp [hprocessed]
      | false =>
          have hnone := (handle_uncounted backend
            ((counts_congr hport htoken ctx).trans hcounted)).2
          simp [hnone]

/-- When every input is observed, the observations are the whole trace. -/
theorem observations_filter (t : ServerState σ) (requests : List RequestContext) :
    observations (validateAndHandle backend) (counts s) t
        (requests.filter (counts s)) =
      trace (validateAndHandle backend) t (requests.filter (counts s)) := by
  refine List.filter_eq_self.mpr ?_
  intro entry hentry
  have hinput : entry.1 ∈ requests.filter (counts s) :=
    (List.of_mem_zip hentry).1
  exact (List.mem_filter.mp hinput).2

/-- Rejected requests are invisible: without the requests that fail one of the
first five checks and without the health probes, the other requests get the
same responses and the store the same calls; and the store is called only for
a request that passed every check. -/
theorem rejected_requests_invisible (requests : List RequestContext) :
    observations (validateAndHandle backend) (counts s) s requests =
        trace (validateAndHandle backend) s (requests.filter (counts s)) ∧
      processCalls (answers (validateAndHandle backend) s requests) =
        processCalls (answers (validateAndHandle backend) s
          (requests.filter (counts s))) ∧
      ∀ before ctx after, requests = before ++ ctx :: after →
        let reached := exec (validateAndHandle backend) s before
        (validateAndHandle backend reached ctx).1.processed ≠ none →
          passes s ctx = true ∧ ctx.path = "/v1/commands" ∧
            (reached.rateLimiter.allow ctx.now).1 = true ∧
            ctx.body.size ≤ bodyLimitBytes := by
  have hsame := (unwinds backend s).observations_eq
    (fun _ _ => trivial : ∀ ctx ∈ requests, True) ⟨rfl, rfl, rfl⟩
  refine ⟨hsame.trans (observations_filter backend s s requests), ?_, ?_⟩
  · rw [processCalls_eq backend s requests rfl rfl,
      processCalls_eq backend s (requests.filter (counts s)) rfl rfl, hsame]
  · intro before ctx after hsplit reached hprocessed
    obtain ⟨hport, htoken⟩ := run_identity backend s before
    obtain ⟨hcounted, hadmitted⟩ := admitted_of_processed backend hprocessed
    rw [counts_congr hport htoken, counts, Bool.and_eq_true] at hcounted
    exact ⟨hcounted.1, hadmitted⟩

end Runs

end LoopbackProtocol

end HermesPipeline
