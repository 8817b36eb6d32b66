import CalvoProxy.Router.Stream

/-!
# One attempt

`executeAttempt` of `router_upstream.go`, cut where the source branches for good: before the request
is sent, and at the four kinds of answers. What the outside world does is a `Script`. `Locals` are
the variables that the deferred cleanup of the ticket reads.
-/

namespace CalvoProxy

/-- The text, and whether it is a timeout in one of the two senses of the classification. -/
structure TransportError where
  text : String
  deadlineExceeded : Bool
  netTimeout : Bool

/-- A body as `io.ReadAll` returns it, with at most one byte beyond the limit. -/
structure BufferedBody where
  readErr : Option String
  length : Int
  usage : Option Usage

/-- An upstream response; the status and the content type decide which of its readers sees the
body. -/
structure Response where
  status : Int
  header : String → String
  errorBody : ErrorBody
  errorBodyErr : Option ContextError
  firstEvent : FirstEvent
  stream : StreamRun
  buffered : BufferedBody

inductive Moment
  | startProvider
  | startAttempt
  | reserve
  | retryAfter
  | settle
  | cooldown
  | score
  | failure
  | providerFailure
  | cleanup
deriving DecidableEq, Repr

/-- The outside world during an attempt; `ctxAfterSend` is the context when the call of the client
has failed. -/
structure Script where
  body : RequestBody
  buildError : Option TransportError
  send : Except TransportError Response
  ctxAfterSend : Option ContextError
  tick : Moment → Tick

def classifyTransportError (e : TransportError) : AttemptError :=
  let timeout := e.deadlineExceeded || e.netTimeout
  let message := (if timeout then "upstream timeout: " else "transport error: ") ++ e.text
  { statusCode := if timeout then 504 else 502
    message := message
    breakerEligible := true
    retryable := true
    timeout := timeout
    eof := GoString.contains (GoString.toLower message) "eof" ||
      GoString.contains (GoString.toLower message) "connection reset" }

def classifyHTTPError (status : Int) : AttemptError where
  statusCode := classifiedStatus status
  message := classifiedMessage status
  breakerEligible := breakerEligibleStatus status
  retryable := breakerEligibleStatus status

def skipError (statusCode : Int) (retryable : Bool) (message : String) : AttemptError where
  statusCode := statusCode
  message := message
  retryable := retryable
  skipModel := true

def providerDisplayName : ProviderID → String
  | .openRouter => "OpenRouter"
  | .cerebras => "Cerebras"
  | .groq => "Groq"
  | provider => provider.text

def isUnsupportedSchemaError (status : Int) (body : String) : Bool :=
  status = 400 &&
    ["property '", "unsupported property", "field is not supported", "parameter is not supported",
      "not currently supported", "unsupported parameter"].any
      (GoString.contains (GoString.toLower body))

/-- `adapterForProvider(provider).IsCompatibilityError`. -/
def isCompatibilityError (provider : ProviderID) (status : Int) (body : String) : Bool :=
  match provider with
  | .cerebras => isUnsupportedSchemaError status body
  | .groq => isUnsupportedSchemaError status body
  | _ => false

/-- `ReserveFallback`; `none` when it never returns. -/
abbrev ReserveFallback := World → Option (World × Bool)

structure Locals where
  world : World
  ticket : QuotaTicket
  sent : Bool
  settled : Bool

namespace Attempt

variable (cfg : Settings) (x : Script) (credential : String) (attempt : ModelAttempt)

/-- The deferred function: an open ticket is released if nothing was sent, and settled with the
estimate otherwise. -/
def cleanup (l : Locals) : World :=
  if !l.ticket.valid || l.settled then l.world
  else if !l.sent then l.world.release l.ticket (x.tick .cleanup)
  else
    (l.world.observeAndSettleQuota cfg l.ticket attempt credential 0 (fun _ => "") .empty
      attempt.quotaEstimate.tokens (x.tick .cleanup)).1

def resolveProbes (w : World) : World :=
  (w.act cfg attempt (x.tick .score).now .resolveProbe).act cfg attempt (x.tick .score).now
    .resolveProviderProbe

def blame (statusCode : Int) (message : String) (retryAfter : Option Duration) (w : World) :
    World :=
  (w.act cfg attempt (x.tick .score).now (.penalizeScore statusCode)).act cfg attempt
    (x.tick .failure).now (.recordFailure statusCode message retryAfter)

def resolveProvider (w : World) : World :=
  w.act cfg attempt (x.tick .score).now .resolveProviderProbe

/-- `Client.Do` failed. -/
def transportFailed (ticket : QuotaTicket) (e : TransportError) (w : World) :
    Locals × Option AttemptError :=
  if x.ctxAfterSend = some .canceled then
    (⟨resolveProbes cfg x attempt w, ticket, true, false⟩,
      some (skipError 503 false "request cancelled before the upstream responded"))
  else
    let err := classifyTransportError e
    (⟨resolveProvider cfg x attempt (blame cfg x attempt err.statusCode err.message none w),
      ticket, true, false⟩, some err)

/-- The longest wait of the signals, and whether the shared free pool is exhausted. -/
def quotaVerdict (retryAfter : Duration) (observations : List ProviderQuotaObservation) :
    Duration × Bool :=
  (observations.foldl (fun wait o => if wait < o.retryAfter then o.retryAfter else wait) retryAfter,
    observations.any fun o => o.exhausted && o.scope = .freePool)

def responseError (resp : Response) (wait : Duration) (poolExhausted : Bool) : AttemptError :=
  let relayed := isProviderRelayedError resp.errorBody
  let quotaLimited := quotaLimitedStatus resp.status
  let incompatible := isCompatibilityError attempt.provider resp.status resp.errorBody.text
  { classifyHTTPError resp.status with
    providerUnavailable :=
      providerAccountFailure resp.status relayed && attempt.provider != .openRouter
    quotaLimited := quotaLimited
    skipModel := quotaLimited || resp.status = 400 || relayed || incompatible
    skipProvider := incompatible
    retryAfter := if quotaLimited then wait else 0
    quotaPool := if quotaLimited && poolExhausted then quotaFreePool else "" }

/-- The verdict of a response other than a 200 on the model and the provider. -/
def judge (resp : Response) (err : AttemptError) (wait : Duration) (w : World) : World :=
  let nonModelFailure := quotaLimitedStatus resp.status ||
    providerAccountFailure resp.status (isProviderRelayedError resp.errorBody)
  let w := if nonModelFailure then w
    else w.act cfg attempt (x.tick .score).now (.penalizeScore err.statusCode)
  let w := if err.breakerEligible && !nonModelFailure then
      w.act cfg attempt (x.tick .failure).now
        (.recordFailure err.statusCode err.message (some wait))
    else w
  let w := if err.providerUnavailable then
      w.act cfg attempt (x.tick .providerFailure).now
        (.recordProviderFailure err.statusCode err.message true wait)
    else resolveProvider cfg x attempt w
  if nonModelFailure || !err.breakerEligible then
    w.act cfg attempt (x.tick .score).now .resolveProbe
  else w

/-- A response other than a 200: the ticket is settled, and a quota refusal starts a cooldown. -/
def rejected (ticket : QuotaTicket) (resp : Response) (w : World) : Locals × Option AttemptError :=
  let retryAfter := parseRetryAfter cfg (resp.header "Retry-After") (x.tick .retryAfter).now
  let (w, observations) := w.observeAndSettleQuota cfg ticket attempt credential resp.status
    resp.header resp.errorBody attempt.quotaEstimate.tokens (x.tick .settle)
  let (retryAfter, poolExhausted) := quotaVerdict retryAfter observations
  if quotaLimitedStatus resp.status then
    let (service, wait) := w.service.setQuotaCooldown cfg attempt (x.tick .cooldown).now retryAfter
    let err := responseError attempt resp wait poolExhausted
    let w := resolveProbes cfg x attempt { w with service := service }
    (⟨judge cfg x attempt resp err wait w, ticket, true, true⟩, some err)
  else
    let err := responseError attempt resp retryAfter poolExhausted
    (⟨judge cfg x attempt resp err retryAfter w, ticket, true, true⟩, some err)

/-- The head is written, and the model is judged by how the stream ends. -/
def deliverStream (ticket : QuotaTicket) (resp : Response) (w : World) :
    Locals × Option AttemptError :=
  let w := w.emit (.head resp.status)
  let outcome := streamCopy resp.stream
  let w :=
    if outcome = .completed then
      (w.act cfg attempt (x.tick .score).now .recordSuccess).act cfg attempt (x.tick .score).now
        .resolveProviderSuccess
    else if outcome.upstreamFault then
      resolveProvider cfg x attempt
        (blame cfg x attempt 502 (Outcome.streamFaultMessage outcome) none w)
    else w
  (⟨w, ticket, true, true⟩, none)

/-- The stream is given up before anything was written to the client. -/
def abandon (ticket : QuotaTicket) (w : World) : Locals × Option AttemptError :=
  (⟨w.act cfg attempt (x.tick .score).now (.penalizeScore scoreStatusSoftOnly), ticket, true, true⟩,
    some (skipError 503 true
      ("no stream event from " ++ attempt.model ++ " within the first-event budget")))

/-- A 200 with an event stream: the probe claims are given back, and the first event is waited for
unless this is the last attempt. -/
def streamed (reserveFallback : Option ReserveFallback) (ticket : QuotaTicket) (resp : Response)
    (w : World) : Option (Locals × Option AttemptError) :=
  let w := (w.observeAndSettleQuota cfg ticket attempt credential resp.status resp.header .empty
    attempt.quotaEstimate.tokens (x.tick .settle)).1
  let w := resolveProbes cfg x attempt w
  if 0 < cfg.firstEventTimeout && !attempt.lastInChain && (awaitFirstStreamEvent resp.firstEvent).2
  then match reserveFallback with
    | none => some (abandon cfg x attempt ticket w)
    | some reserve =>
      match reserve w with
      | none => none
      | some (w, true) => some (abandon cfg x attempt ticket w)
      | some (w, false) => some (deliverStream cfg x attempt ticket resp w)
  else some (deliverStream cfg x attempt ticket resp w)

/-- A buffered 200: a body that is truncated or too large counts against the model, and the ticket
is left to the cleanup. -/
def buffered (ticket : QuotaTicket) (resp : Response) (w : World) : Locals × Option AttemptError :=
  let broken := fun message : String =>
    ((⟨resolveProvider cfg x attempt (blame cfg x attempt 502 message none w), ticket, true, false⟩,
      some { statusCode := 502, message := message, retryable := true }) :
      Locals × Option AttemptError)
  match resp.buffered.readErr with
  | some text => broken ("truncated upstream response: " ++ text)
  | none =>
    if cfg.maxResponseBytes < resp.buffered.length then
      broken "upstream response exceeds PROXY_MAX_RESPONSE_BYTES"
    else
      let w := (w.observeAndSettleQuota cfg ticket attempt credential resp.status resp.header
        resp.errorBody (actualResponseTokens resp.buffered.usage attempt.quotaEstimate.tokens)
        (x.tick .settle)).1
      let w := (w.act cfg attempt (x.tick .score).now .recordSuccess).act cfg attempt
        (x.tick .score).now .resolveProviderSuccess
      (⟨w.emit (.head resp.status), ticket, true, true⟩, none)

/-- From `Client.Do` on. -/
def sendRequest (reserveFallback : Option ReserveFallback) (ticket : QuotaTicket) (w : World) :
    Option (Locals × Option AttemptError) :=
  let w := w.emit (.send ticket)
  match x.send with
  | .error e => some (transportFailed cfg x attempt ticket e w)
  | .ok resp =>
    if resp.status ≠ 200 then some (rejected cfg x credential attempt ticket resp w)
    else if isEventStream (resp.header "Content-Type") then
      streamed cfg x credential attempt reserveFallback ticket resp w
    else some (buffered cfg x credential attempt ticket resp w)

def startRequest (reserveFallback : Option ReserveFallback) (w : World) :
    Option (Locals × Option AttemptError) :=
  match x.buildError with
  | some e =>
    some (⟨resolveProbes cfg x attempt w, attempt.quotaTicket, false, false⟩,
      some (classifyTransportError e))
  | none =>
    if attempt.quotaTicket.valid then
      sendRequest cfg x credential attempt reserveFallback attempt.quotaTicket w
    else match w.reserveFallbackQuota cfg attempt credential attempt.quotaEstimate
        (x.tick .reserve) with
      | none => none
      | some (w, none) =>
        some (⟨resolveProbes cfg x attempt w, .zero, false, false⟩,
          some { skipError 429 true (providerDisplayName attempt.provider ++
            " is temporarily rate-limited for this model; trying another provider") with
            quotaLimited := true })
      | some (w, some ticket) => sendRequest cfg x credential attempt reserveFallback ticket w

/-- By the breaker of the provider and then of the model. -/
def admission (w : World) : World × Option AttemptError :=
  let (service, started) := w.service.tryStartProvider cfg attempt (x.tick .startProvider).now
  let w := { w with service := service }
  if !started then
    (w, some (skipError 503 true ("provider " ++ attempt.provider.text ++ " is cooling down")))
  else
    let (service, started) := w.service.tryStartAttempt cfg attempt (x.tick .startAttempt).now
    let w := { w with service := service }
    if !started then
      (resolveProvider cfg x attempt w,
        some (skipError 503 true ("recovery probe already in flight for " ++ attempt.model)))
    else (w, none)

end Attempt

open Attempt in
/-- The world after the attempt, and its error; `none` when the search for a ticket id never
ends. -/
def executeAttempt (cfg : Settings) (x : Script) (reserveFallback : Option ReserveFallback)
    (attempt : ModelAttempt) (w : World) : Option (World × Option AttemptError) :=
  if !cfg.configured attempt then
    some (w, some (skipError 503 true
      ("provider " ++ attempt.provider.text ++ " is not configured")))
  else
    let credential := cfg.providerCredential attempt
    let attempt :=
      if attempt.quotaEstimate.requests ≤ 0 || attempt.quotaEstimate.tokens ≤ 0 then
        { attempt with quotaEstimate :=
            providerQuotaEstimate cfg attempt (estimateRequestQuota cfg x.body) }
      else attempt
    let result : Option (Locals × Option AttemptError) :=
      match admission cfg x attempt w with
      | (w, some err) => some (⟨w, attempt.quotaTicket, false, false⟩, some err)
      | (w, none) => startRequest cfg x credential attempt reserveFallback w
    result.map fun r => (cleanup cfg x credential attempt r.1, r.2)

end CalvoProxy
