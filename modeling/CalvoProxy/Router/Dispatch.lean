import CalvoProxy.Router.Fallback

/-!
# Dispatching a request

`dispatchChain` of `router.go`: plan, filter, rank and reserve, run the chain, answer with an error
if no attempt did, and park the request while quota is all that is missing. The plan, the ranking
and the outside world are given with the request.
-/

namespace CalvoProxy

structure PlannedAttempt where
  profile : String
  model : String
  provider : ProviderID
  breakerPolicy : BreakerPolicy

def PlannedAttempt.attempt (p : PlannedAttempt) : ModelAttempt :=
  ⟨p.profile, p.model, p.provider, p.breakerPolicy, 0, false, .zero, .zero⟩

structure ContextWindow where
  contextTokens : Int64
  outputReserveTokens : Int64

structure ProviderGroup where
  provider : ProviderID
  attempts : List ModelAttempt
  pressure : Option Rat

/-- The outside world in one round of the hold loop; `rankBase` is the order by score and session,
`sortGroups` the order by pressure, latency and reliability. -/
structure HoldRound where
  available : Time
  rankBase : List ModelAttempt → List ModelAttempt
  rankBase_perm : ∀ attempts, (rankBase attempts).Perm attempts
  rankNow : Time
  sortGroups : List ProviderGroup → List ProviderGroup
  sortGroups_perm : ∀ groups, (sortGroups groups).Perm groups
  reserve : Nat → Tick
  wait : Time
  held : Bool
  readmitted : Bool
  refuse : Time

structure Request where
  required : List String
  requestedModel : String
  satisfies : String → Bool
  planned : List PlannedAttempt
  rescue : List PlannedAttempt
  messages : Bool
  body : RequestBody
  contextWindow : ProviderID → String → Option ContextWindow
  retryPolicy : RetryPolicy
  admissionRetryAfter : Int
  round : Nat → HoldRound
  chain : ChainScript
  release : Tick

namespace Request

variable (cfg : Settings) (r : Request)

/-- The pinned model cannot do what the request needs. -/
def pinnedUnfit : Bool :=
  !r.required.isEmpty && r.requestedModel != "" &&
    GoString.toLower (GoString.trimSpace r.requestedModel) != "auto" &&
    !r.satisfies r.requestedModel

def filterConfiguredAttempts (attempts : List ModelAttempt) : List ModelAttempt :=
  attempts.filter fun a =>
    !(r.messages && (a.provider = .cerebras || a.provider = .groq)) && cfg.configured a

def applyCapabilityFilter (attempts : List ModelAttempt) : List ModelAttempt :=
  let capable := attempts.filter fun a => r.satisfies a.model
  if capable.isEmpty then r.rescue.map PlannedAttempt.attempt else capable

def attemptsToTry : List ModelAttempt :=
  let attempts := r.filterConfiguredAttempts cfg (r.planned.map PlannedAttempt.attempt)
  if r.required.isEmpty then attempts
  else r.filterConfiguredAttempts cfg (r.applyCapabilityFilter attempts)

def contextFits (estimate : QuotaEstimate) (a : ModelAttempt) : Bool :=
  match r.contextWindow a.provider a.model with
  | none => true
  | some window =>
    let output := if !estimate.outputExplicit && 0 < window.outputReserveTokens
      then window.outputReserveTokens else estimate.outputTokens
    estimate.inputTokens + output ≤ window.contextTokens

end Request

/-! ## Ranking and reserving -/

namespace World

/-- Keep the attempts that are not cooling down and whose quota fits. -/
def quotaFitting (cfg : Settings) (estimate : QuotaEstimate) (now : Time) :
    List ModelAttempt → World → World × List ModelAttempt
  | [], w => (w, [])
  | a :: rest, w =>
    let a := { a with provider := cfg.normalizedProvider a }
    if w.service.quotaAttemptAvailable cfg a now then
      match w.quotaCanFit cfg a (cfg.providerCredential a) estimate now with
      | (w, true) =>
        let (w, fitting) := quotaFitting cfg estimate now rest w
        (w, a :: fitting)
      | (w, false) => quotaFitting cfg estimate now rest w
    else quotaFitting cfg estimate now rest w

def groupAttempts (attempts : List ModelAttempt) : List ProviderGroup :=
  (attempts.map (·.provider)).eraseDups.map fun p =>
    ⟨p, attempts.filter fun a => a.provider = p, none⟩

def groupPressures (cfg : Settings) (estimate : QuotaEstimate) (now : Time) :
    List ProviderGroup → World → World × List ProviderGroup
  | [], w => (w, [])
  | g :: rest, w =>
    match g.attempts with
    | [] => groupPressures cfg estimate now rest w
    | a :: _ =>
      let (w, pressure) := w.quotaPressure cfg a (cfg.providerCredential a) estimate now
      let (w, groups) := groupPressures cfg estimate now rest w
      (w, { g with pressure := pressure } :: groups)

def interleave (groups : List ProviderGroup) : List ModelAttempt :=
  let depth := (groups.map (·.attempts.length)).foldl max 0
  (List.range depth).flatMap fun d => groups.filterMap (·.attempts[d]?)

/-- Reserve the first candidate that still has quota, and drop those before it. -/
def reservePrimary (cfg : Settings) (estimate : QuotaEstimate) (now : Time) (ticks : Nat → Tick) :
    List ModelAttempt → World → Option (World × List ModelAttempt)
  | [], w => some (w, [])
  | a :: rest, w =>
    let (w, reservations) :=
      w.quotaReservations cfg a (cfg.providerCredential a) estimate now
    match w.reserveAll reservations { ticks rest.length with now := now } with
    | none => none
    | some (w, some ticket) =>
      some (w, { a with
        quotaTicket := ticket
        quotaEstimate := providerQuotaEstimate cfg a estimate } :: rest)
    | some (w, none) => reservePrimary cfg estimate now ticks rest w

def quotaRankAndReserve (cfg : Settings) (round : HoldRound) (estimate : QuotaEstimate)
    (attempts : List ModelAttempt) (w : World) : Option (World × List ModelAttempt) :=
  if attempts.isEmpty then some (w, [])
  else
    let now := round.rankNow
    let (w, fitting) := quotaFitting cfg estimate now (round.rankBase attempts) w
    let (w, groups) := groupPressures cfg estimate now (groupAttempts fitting) w
    reservePrimary cfg estimate now round.reserve (interleave (round.sortGroups groups)) w

end World

/-! ## Answers without an attempt -/

namespace RouterService

variable (cfg : Settings) (now : Time) (s : RouterService)

/-- The soonest end of an open model circuit, or zero. -/
def retryAfterForAttempts (attempts : List ModelAttempt) : Duration :=
  attempts.foldl (fun soonest a =>
    let openUntil := (s.breakerOf cfg a).openUntil
    if Time.after openUntil now && (soonest = 0 || openUntil - now < soonest) then openUntil - now
    else soonest) 0

def openRouterDailyFreeQuotaPrefix : String := "OpenRouter daily free-model quota exhausted"

def dailyFreeQuotaReasonForAttempts (attempts : List ModelAttempt) : String :=
  let states := attempts.map (s.breakerOf cfg)
  if states.all fun state => Time.after state.openUntil now &&
      GoString.startsWith state.lastFailureReason openRouterDailyFreeQuotaPrefix then
    (states.head?.map (·.lastFailureReason)).getD ""
  else ""

end RouterService

def retryAfterSeconds (wait : Duration) : Option Int :=
  if 0 < wait then some (max 1 (wait / Time.second)) else none

def quotaHoldSettle : Duration := 150000000

def quotaHoldBudget (cfg : Settings) : Duration :=
  (cfg.envInt "PROXY_QUOTA_HOLD_MAX_MS" 75000 * 1000000).toInt

/-- Nothing can run: answer with the soonest time at which something may. -/
def refuseRequest (cfg : Settings) (round : HoldRound) (estimate : QuotaEstimate)
    (attempts : List ModelAttempt)
    (w : World) : World :=
  let breakerWait := w.service.retryAfterForAttempts cfg round.refuse attempts
  let (w, quotaWait) := w.quotaRetryAfterForAttempts cfg estimate round.refuse attempts 0
  let wait := if breakerWait ≤ 0 ∨ (0 < quotaWait ∧ quotaWait < breakerWait) then quotaWait
    else breakerWait
  let daily := w.service.dailyFreeQuotaReasonForAttempts cfg round.refuse attempts
  let message :=
    if daily != "" then daily
    else if 0 < quotaWait then
      "All configured model providers are temporarily rate-limited for this request size. " ++
        "Retrying after the earliest quota reset; your request was not sent upstream. " ++
        "Compact the conversation or start a new session if this repeats."
    else "All models are temporarily rate-limited or unhealthy. Cooling down before retry."
  w.emit (.jsonError 503 message (retryAfterSeconds wait))

namespace Request

variable (cfg : Settings) (r : Request)

theorem budget_spent {budget wait : Duration} (hpos : 0 < wait) (hle : wait ≤ budget) :
    (budget - (wait + quotaHoldSettle)).toNat < budget.toNat := by
  have hspent : budget - (wait + quotaHoldSettle) < budget :=
    Int.sub_lt_self budget (Int.add_pos hpos (by decide))
  exact (Int.toNat_lt_toNat (Int.lt_of_lt_of_le hpos hle)).mpr hspent

/-- The hold loop from round `k` on: the chain to run, or nothing when the request was answered. A
hold uses up its wait and the settling time of the budget. -/
def holdLoop (estimate contextEstimate : QuotaEstimate) (attempts : List ModelAttempt)
    (k : Nat) (budget : Duration) (w : World) : Option (World × Option (List ModelAttempt)) :=
  let round := r.round k
  let available := attempts.filter fun a => w.service.isModelAvailable cfg a round.available
  let fitting := available.filter (r.contextFits contextEstimate)
  if !available.isEmpty && fitting.isEmpty then
    some (w.emit (.jsonError 422 ("Request context exceeds every eligible model's safe window. " ++
      "Compact the conversation or start a new session.") none), none)
  else match w.quotaRankAndReserve cfg round estimate fitting with
    | none => none
    | some (w, first :: rest) => some (w, some (first :: rest))
    | some (w, []) =>
      if fitting.isEmpty then some (refuseRequest cfg round estimate attempts w, none)
      else
        let hold := w.quotaRetryAfterForAttempts cfg estimate round.wait fitting 0
        if _h : 0 < hold.2 ∧ hold.2 ≤ budget then
          if round.held then
            if round.readmitted then
              holdLoop estimate contextEstimate attempts (k + 1)
                (budget - (hold.2 + quotaHoldSettle)) hold.1
            else
              some (hold.1.emit (.jsonError 503
                ("Server at capacity (PROXY_MAX_CONCURRENT) after waiting for quota. " ++
                  "Retry shortly.") (some r.admissionRetryAfter)), none)
          else some (refuseRequest cfg round estimate attempts hold.1, none)
        else some (refuseRequest cfg round estimate attempts hold.1, none)
termination_by budget.toNat
decreasing_by exact budget_spent _h.1 _h.2

end Request

/-! ## The answer of a failed chain -/

def safeProviderFailureSummary (err : AttemptError) : String :=
  if GoString.startsWith err.message RouterService.openRouterDailyFreeQuotaPrefix then
    match GoString.after err.message "Resets: " with
    | some reset => "daily free-model quota exhausted; resets " ++ GoString.before reset '.'
    | none => "daily free-model quota exhausted"
  else if err.timeout then "timed out"
  else if err.statusCode = 401 ∨ err.statusCode = 403 then
    "authentication or account authorization failed"
  else if err.statusCode = 429 ∨ err.statusCode = 503 then "rate limited or temporarily unavailable"
  else if 500 ≤ err.statusCode then "temporarily unavailable"
  else "request rejected"

def multiProviderUnavailableMessage (failures : List (ProviderID × AttemptError)) : String :=
  "All configured model providers are temporarily rate-limited or unavailable. " ++
    "; ".intercalate (failures.map fun f =>
      providerDisplayName f.1 ++ ": " ++ safeProviderFailureSummary f.2) ++
    ". Automatic routing will retry them after their cooldowns."

def fallbackErrorResponse (e : ChainError) : Int × String :=
  if 1 < e.providerFailures.length then (503, multiProviderUnavailableMessage e.providerFailures)
  else match e.err with
    | none => (502, "all fallback models failed")
    | some err => (if err.statusCode ≠ 0 then err.statusCode else 502, err.message)

def fallbackRetryAfter (e : ChainError) : Duration :=
  e.providerFailures.foldl (fun soonest f =>
    if 0 < f.2.retryAfter ∧ (soonest = 0 ∨ f.2.retryAfter < soonest) then f.2.retryAfter
    else soonest) 0

def runChain (cfg : Settings) (r : Request) (first : ModelAttempt) (rest : List ModelAttempt)
    (w : World) : Option World :=
  let chain := first :: rest
  let chain := if 0 < r.retryPolicy.maxAttempts then chain.take r.retryPolicy.maxAttempts.toNat
    else chain
  match executeFallbacks cfg r.chain ⟨r.body, r.retryPolicy⟩
      { w with attempts := chain, unavailable := [] } with
  | none => none
  | some (w, err) =>
    let w := match err with
      | none => w
      | some e =>
        let (status, message) := fallbackErrorResponse e
        w.emit (.jsonError status message (retryAfterSeconds (fallbackRetryAfter e)))
    some (if first.quotaTicket.valid then w.release first.quotaTicket r.release else w)

def dispatchChain (cfg : Settings) (r : Request) (w : World) : Option World :=
  let wanted := "+".intercalate r.required
  if r.pinnedUnfit then
    some (w.emit (.jsonError 422 ("requested model " ++ r.requestedModel ++ " does not support " ++
      wanted) none))
  else
    let attempts := r.attemptsToTry cfg
    if !r.required.isEmpty && attempts.isEmpty then
      some (w.emit (.jsonError 503 ("No available model supports " ++ wanted ++
        " for this request.") none))
    else match r.holdLoop cfg (estimateRequestQuota cfg r.body) (estimateRequestContext cfg r.body)
        attempts 0 (quotaHoldBudget cfg) w with
      | none => none
      | some (w, some (first :: rest)) => runChain cfg r first rest w
      | some (w, _) => some w

def demoResponse (status : Int) (contentType : String) (last : Select)
    (lastEnds : last.ends.isSome = true) (readErr : Option String) : Response where
  status := status
  header := fun name => if name = "Content-Type" then contentType else ""
  errorBody := .empty
  errorBodyErr := none
  firstEvent := ⟨[], false⟩
  stream := ⟨[], last, lastEnds⟩
  buffered := ⟨readErr, 0, none⟩

def demoScript (send : Except TransportError Response) : Script where
  body := ⟨4, none, some 1⟩
  buildError := none
  send := send
  ctxAfterSend := some .canceled
  tick := fun _ => ⟨1, []⟩

def connectionReset : Script :=
  { demoScript (.error ⟨"connection reset", false, false⟩) with ctxAfterSend := none }

def demoRound : HoldRound where
  available := 1
  rankBase := id
  rankBase_perm := List.Perm.refl
  rankNow := 1
  sortGroups := id
  sortGroups_perm := List.Perm.refl
  reserve := fun _ => ⟨1, []⟩
  wait := 1
  held := false
  readmitted := false
  refuse := 1

def demoRequest (script : Script) : Request where
  required := []
  requestedModel := ""
  satisfies := fun _ => true
  planned := [⟨"default", "m", .openRouter, ⟨0, 0⟩⟩, ⟨"default", "n", .openRouter, ⟨0, 0⟩⟩]
  rescue := []
  messages := false
  body := script.body
  contextWindow := fun _ _ => none
  retryPolicy := ⟨0, [502], true, true⟩
  admissionRetryAfter := 1
  round := fun _ => demoRound
  chain := ⟨fun _ => script, fun _ _ => ⟨1, []⟩, fun _ => ⟨1, []⟩⟩
  release := ⟨1, []⟩

end CalvoProxy
