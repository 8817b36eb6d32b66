import CalvoProxy.Router.ProviderQuota

/-!
# Quota in the routing

`router_quota_routing.go`: what a request is estimated to cost, which buckets an attempt reserves,
and how a ticket is settled. Reading a bucket can change the ledger, so these functions pass the
world on.
-/

namespace CalvoProxy

/-- The length of the encoding and the two limits on the answer, as far as they are integers. -/
structure RequestBody where
  encodedBytes : Nat
  maxCompletionTokens : Option Int64
  maxTokens : Option Int64

def estimateRequestQuota (cfg : Settings) (body : RequestBody) : QuotaEstimate :=
  let input := Int64.ofNat ((body.encodedBytes + 3) / 4)
  let input := if input < 1 then 1 else input
  let fallback := cfg.envInt "PROXY_DEFAULT_OUTPUT_TOKENS" 1024
  match [body.maxCompletionTokens, body.maxTokens].filterMap (·.filter (0 ≤ ·)) with
  | output :: _ => ⟨1, input + output, input, output, true⟩
  | [] => ⟨1, input + fallback, input, fallback, false⟩

/-- `estimateRequestContext`, which counts three bytes to a token. -/
def estimateRequestContext (cfg : Settings) (body : RequestBody) : QuotaEstimate :=
  let estimate := estimateRequestQuota cfg body
  let input := Int64.ofNat ((body.encodedBytes + 2) / 3)
  let input := if input < 1 then 1 else input
  { estimate with inputTokens := input, tokens := input + estimate.outputTokens }

/-- The output that a provider reserves when the request names none. -/
def providerQuotaEstimate (cfg : Settings) (attempt : ModelAttempt) (estimate : QuotaEstimate) :
    QuotaEstimate :=
  if estimate.outputExplicit || estimate.inputTokens ≤ 0 then estimate
  else
    let output := match attempt.provider with
      | .cerebras => cfg.envInt "PROXY_CEREBRAS_DEFAULT_MAX_COMPLETION_TOKENS" 32768
      | .groq => cfg.envInt "PROXY_GROQ_DEFAULT_MAX_COMPLETION_TOKENS" 4096
      | _ => estimate.outputTokens
    let output := if output < 0 then 0 else output
    { estimate with outputTokens := output, tokens := estimate.inputTokens + output }

/-- The token counts in the `usage` of a response. -/
structure Usage where
  totalTokens : Int64
  inputTokens : Int64
  outputTokens : Int64
  promptTokens : Int64
  completionTokens : Int64

def actualResponseTokens (usage : Option Usage) (fallback : Int64) : Int64 :=
  match usage with
  | none => fallback
  | some u =>
    if 0 < u.totalTokens then u.totalTokens
    else if 0 < u.inputTokens + u.outputTokens then u.inputTokens + u.outputTokens
    else if 0 < u.promptTokens + u.completionTokens then u.promptTokens + u.completionTokens
    else fallback

/-! ## Buckets of an attempt -/

def quotaFreePool : String := "free"

def freeModel (model : String) : Bool := GoString.endsWith (GoString.toLower model) ":free"

def Time.day : Duration := 86400000000000

def nextUTCReset (now : Time) : Time := (now / Time.day + 1) * Time.day

def nextMinuteReset (now : Time) : Time := Time.truncateMinute now + Time.minute

def credentialQuotaScope (cfg : Settings) (scope credential : String) : String :=
  let credential := GoString.trimSpace credential
  if credential = "" then scope else scope ++ ":" ++ cfg.fingerprint credential

abbrev PublishedLimit := QuotaBucketKey × Int64 × Time

/-- The published limits that `ensureBootstrapQuota` knows for an attempt. -/
def bootstrapLimits (cfg : Settings) (attempt : ModelAttempt) (credential : String) (now : Time) :
    List PublishedLimit :=
  let provider := (cfg.normalizedProvider attempt).text
  let limit := fun scope pool dimension window setting fallback reset =>
    ((⟨provider, scope, pool, dimension, window⟩ : QuotaBucketKey),
      cfg.envInt setting fallback, (reset : Time))
  match attempt.provider with
  | .openRouter =>
    if freeModel attempt.model then
      let scope := credentialQuotaScope cfg "free_pool" credential
      [limit scope quotaFreePool .requests .day "PROXY_OPENROUTER_FREE_RPD" 50 (nextUTCReset now),
        limit scope quotaFreePool .requests .minute "PROXY_OPENROUTER_FREE_RPM" 20
          (nextMinuteReset now)]
    else []
  | .cerebras =>
    let scope := credentialQuotaScope cfg "model" credential
    [limit scope attempt.model .requests .day "PROXY_CEREBRAS_RPD" 14400 (now + Time.day),
      limit scope attempt.model .requests .minute "PROXY_CEREBRAS_RPM" 30 (nextMinuteReset now),
      limit scope attempt.model .tokens .minute "PROXY_CEREBRAS_TPM" 64000 (nextMinuteReset now),
      limit scope attempt.model .tokens .day "PROXY_CEREBRAS_TPD" 1000000 (now + Time.day)]
  | .groq =>
    let scope := credentialQuotaScope cfg "model" credential
    let small := GoString.contains (GoString.toLower attempt.model) "llama-3.1-8b"
    let rpd := if small then 14400 else 1000
    let tpm := if small then 6000 else 8000
    let tpd := if small then 500000 else 200000
    [limit scope attempt.model .requests .day "PROXY_GROQ_RPD" rpd (now + Time.day),
      limit scope attempt.model .requests .minute "PROXY_GROQ_RPM" 30 (nextMinuteReset now),
      limit scope attempt.model .tokens .minute "PROXY_GROQ_TPM" tpm (nextMinuteReset now),
      limit scope attempt.model .tokens .day "PROXY_GROQ_TPD" tpd (now + Time.day)]
  | _ => []

namespace World

def observeIfUnknown (now : Time) (w : World) (published : PublishedLimit) : World :=
  let (key, limit, reset) := published
  if limit ≤ 0 then w
  else match w.snapshot key now with
    | (w, some _) => w
    | (w, none) => w.observe key ⟨limit, limit, reset, .config, .estimated, now⟩ now

variable (cfg : Settings) (attempt : ModelAttempt) (credential : String)

def ensureBootstrapQuota (now : Time) (w : World) : World :=
  (bootstrapLimits cfg attempt credential now).foldl (observeIfUnknown now) w

def limitsAttempt (key : QuotaBucketKey) : Bool :=
  let pooled := attempt.provider = .openRouter && freeModel attempt.model
  let scope := if pooled then "free_pool" else "model"
  key.provider = (cfg.normalizedProvider attempt).text &&
    key.scope = credentialQuotaScope cfg scope credential &&
    (key.modelOrPool = attempt.model || (pooled && key.modelOrPool = quotaFreePool))

/-- The cost of an attempt in every known bucket that limits it. -/
def quotaReservations (estimate : QuotaEstimate) (now : Time) (w : World) :
    World × List QuotaReservation :=
  let estimate := providerQuotaEstimate cfg attempt estimate
  let (w, keys) := (w.ensureBootstrapQuota cfg attempt credential now).keys now
  let cost := fun key : QuotaBucketKey =>
    if key.dimension = .tokens then estimate.tokens else estimate.requests
  (w, ((keys.filter (limitsAttempt cfg attempt credential)).filter fun key => 0 < cost key).map
    fun key => ⟨key, cost key⟩)

/-- The loop of `quotaCanFit`: every reservation fits, or falls short of an estimated limit that no
request has tested. -/
def allFit (now : Time) : List QuotaReservation → World → World × Bool
  | [], w => (w, true)
  | r :: rs, w =>
    match w.snapshot r.key now with
    | (w, none) => allFit now rs w
    | (w, some snapshot) =>
      if r.cost ≤ snapshot.available then allFit now rs w
      else if snapshot.observation.confidence = .estimated && snapshot.reserved = 0 &&
          !snapshot.probeSettled then allFit now rs w
      else (w, false)

def quotaCanFit (estimate : QuotaEstimate) (now : Time) (w : World) : World × Bool :=
  let (w, reservations) := w.quotaReservations cfg attempt credential estimate now
  allFit now reservations w

/-- The loop of `quotaPressure`: the largest predicted share of a bucket, one when a reservation
does not fit. -/
def pressureOf (now : Time) : List QuotaReservation → Rat → World → World × Rat
  | [], pressure, w => (w, pressure)
  | r :: rs, pressure, w =>
    match w.snapshot r.key now with
    | (w, none) => pressureOf now rs pressure w
    | (w, some snapshot) =>
      let limit := snapshot.observation.limit
      if limit ≤ 0 then pressureOf now rs pressure w
      else
        let predictedAvailable := snapshot.available - r.cost
        if predictedAvailable < 0 then (w, 1)
        else
          let candidate : Rat := ((limit - predictedAvailable).toInt : Rat) / (limit.toInt : Rat)
          pressureOf now rs (if pressure < candidate then candidate else pressure) w

def quotaPressure (estimate : QuotaEstimate) (now : Time) (w : World) : World × Option Rat :=
  let (w, reservations) := w.quotaReservations cfg attempt credential estimate now
  if reservations.isEmpty then (w, none)
  else
    let (w, pressure) := pressureOf now reservations 0 w
    (w, some pressure)

end World

namespace RouterService

variable (cfg : Settings) (attempt : ModelAttempt) (now : Time) (s : RouterService)

def quotaCooldownKey : String := (cfg.normalizedProvider attempt).text ++ "\x00" ++ attempt.model

def quotaCooldownUntil : Time := (s.quotaCooldowns.lookup (quotaCooldownKey cfg attempt)).getD 0

def quotaAttemptAvailable : Bool := !Time.after (s.quotaCooldownUntil cfg attempt) now

def quotaCooldownRemaining : Duration :=
  let until' := s.quotaCooldownUntil cfg attempt
  if Time.after until' now then until' - now else 0

/-- A cooldown is never shortened; the duration in force is returned. -/
def setQuotaCooldown (duration : Duration) : RouterService × Duration :=
  let duration := if duration ≤ 0 then 2 * Time.second else duration
  let until' := now + duration
  if Time.after until' (s.quotaCooldownUntil cfg attempt) then
    ({ s with quotaCooldowns :=
        s.quotaCooldowns.insert (quotaCooldownKey cfg attempt) until' }, duration)
  else (s, duration)

end RouterService

/-! ## Reserving and settling -/

namespace World

/-- `reserveFallbackQuota`; the ticket is `none` if it is refused. -/
def reserveFallbackQuota (cfg : Settings) (attempt : ModelAttempt) (credential : String)
    (estimate : QuotaEstimate) (t : Tick) (w : World) : Option (World × Option QuotaTicket) :=
  if w.service.quotaAttemptAvailable cfg attempt t.now then
    let (w, reservations) := w.quotaReservations cfg attempt credential estimate t.now
    w.reserveAll reservations t
  else some (w, none)

/-- The facts of a response, each observed at once; the last one for a key goes into the
settlement. -/
def observeFacts (cfg : Settings) (credential : String) (now : Time) :
    List ProviderQuotaObservation → GoMap QuotaBucketKey QuotaObservation → World →
      World × GoMap QuotaBucketKey QuotaObservation
  | [], facts, w => (w, facts)
  | o :: os, facts, w =>
    match o.ledgerFact with
    | none => observeFacts cfg credential now os facts w
    | some (key, fact) =>
      let key := { key with scope := credentialQuotaScope cfg o.scope.text credential }
      let fact := if Time.isZero fact.resetAt && key.window = .minute
        then { fact with resetAt := nextMinuteReset now } else fact
      observeFacts cfg credential now os (facts.insert key fact) (w.observe key fact now)

def settlementFor (attempt : ModelAttempt) (actualTokens : Int64)
    (facts : GoMap QuotaBucketKey QuotaObservation) (r : QuotaReservation) : QuotaSettlement where
  key := r.key
  actual :=
    if r.key.dimension = .tokens then
      if actualTokens ≤ 0 then attempt.quotaEstimate.tokens else actualTokens
    else attempt.quotaEstimate.requests
  observation := facts.lookup r.key

def observeAndSettleQuota (cfg : Settings) (ticket : QuotaTicket) (attempt : ModelAttempt)
    (credential : String) (status : Int) (header : String → String) (body : ErrorBody)
    (actualTokens : Int64) (t : Tick) (w : World) : World × List ProviderQuotaObservation :=
  let observations :=
    observeProviderQuota cfg attempt.provider attempt.model status header body t.now
  let (w, facts) := w.observeFacts cfg credential t.now observations ∅
  if !ticket.valid then (w, observations)
  else
    let settlements := (w.service.quota.reservations ticket).map
      (settlementFor attempt actualTokens facts)
    (w.reconcile ticket settlements t, observations)

def readyIn (now : Time) : List QuotaReservation → Duration → World → World × Duration
  | [], wait, w => (w, wait)
  | r :: rs, wait, w =>
    match w.snapshot r.key now with
    | (w, none) => readyIn now rs wait w
    | (w, some snapshot) =>
      let reset := snapshot.observation.resetAt
      if r.cost ≤ snapshot.available || Time.isZero reset || !Time.after reset now then
        readyIn now rs wait w
      else readyIn now rs (if wait < reset - now then reset - now else wait) w

def quotaRetryAfterForAttempts (cfg : Settings) (estimate : QuotaEstimate) (now : Time) :
    List ModelAttempt → Duration → World → World × Duration
  | [], soonest, w => (w, soonest)
  | attempt :: rest, soonest, w =>
    let credential := cfg.providerCredential attempt
    let (w, reservations) := w.quotaReservations cfg attempt credential estimate now
    let (w, wait) := readyIn now reservations (w.service.quotaCooldownRemaining cfg attempt now) w
    let soonest := if 0 < wait ∧ (soonest = 0 ∨ wait < soonest) then wait else soonest
    quotaRetryAfterForAttempts cfg estimate now rest soonest w

end World

end CalvoProxy
