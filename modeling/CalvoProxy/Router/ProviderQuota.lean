import CalvoProxy.Router.Service

/-!
# Quota signals of the providers

`router_quota_providers.go`: which headers and error fields of a response become facts of the
ledger. A header lookup gives the trimmed value, empty for a missing header.
-/

namespace CalvoProxy

open List

variable {v : Int64}

/-! ## Numbers and times in headers -/

def parseDigits (acc : Nat) : List Char → Option Nat
  | [] => some acc
  | c :: cs => if c.isDigit then parseDigits (acc * 10 + (c.toNat - '0'.toNat)) cs else none

/-- `strconv.ParseInt(raw, 10, 64)`. -/
def parseInt64 (raw : String) : Option Int64 :=
  let (negative, digits) := match raw.toList with
    | '-' :: cs => (true, cs)
    | '+' :: cs => (false, cs)
    | cs => (false, cs)
  if digits.isEmpty then none
  else match parseDigits 0 digits with
    | none => none
    | some n =>
      let value : Int := if negative then -n else n
      if -2 ^ 63 ≤ value ∧ value < 2 ^ 63 then some (Int64.ofInt value) else none

theorem parseInt64_of_digits {raw : String} {negative : Bool} {digits : List Char}
    (h : (match raw.toList with
      | '-' :: cs => (true, cs)
      | '+' :: cs => (false, cs)
      | cs => (false, cs)) = (negative, digits)) :
    parseInt64 raw = if digits.isEmpty then none else (parseDigits 0 digits).bind fun n =>
      let value : Int := if negative then -n else n
      if -2 ^ 63 ≤ value ∧ value < 2 ^ 63 then some (Int64.ofInt value) else none := by
  unfold parseInt64
  rw [h]
  dsimp only
  split
  · rfl
  · cases parseDigits 0 digits with
    | none => rfl
    | some n => rw [Option.bind_some]

def parseNonNegativeInt64 (raw : String) : Option Int64 :=
  match parseInt64 (GoString.trimSpace raw) with
  | some v => if 0 ≤ v then some v else none
  | none => none

theorem parseNonNegativeInt64_nonneg {raw : String} (h : parseNonNegativeInt64 raw = some v) :
    0 ≤ v := by
  unfold parseNonNegativeInt64 at h
  split at h
  · split at h
    · next hv =>
      cases h
      exact hv
    · cases h
  · cases h

namespace Time

def unixEpoch : Time := 62135596800000000000

def second : Duration := 1000000000

def unixMilli (n : Int64) : Time := unixEpoch + n.toInt * 1000000

def unix (n : Int64) : Time := unixEpoch + n.toInt * second

end Time

def maxDurationSeconds : Int64 := 9223372036

variable (cfg : Settings)

def parseRetryAfterAt (raw : String) (now : Time) : Duration :=
  let raw := GoString.trimSpace raw
  match parseNonNegativeInt64 raw with
  | some seconds => if seconds ≤ maxDurationSeconds then seconds.toInt * Time.second else 0
  | none =>
    match cfg.parseTime raw with
    | some parsed => if Time.after parsed now then parsed - now else 0
    | none => 0

/-- `parseRetryAfter`, which multiplies without a check for overflow. -/
def parseRetryAfter (raw : String) (now : Time) : Duration :=
  let raw := GoString.trimSpace raw
  if raw = "" then 0
  else match parseInt64 raw with
    | some seconds => if seconds < 0 then 0 else (seconds * 1000000000).toInt
    | none =>
      match cfg.parseTime raw with
      | some parsed => if 0 < parsed - now then parsed - now else 0
      | none => 0

def resetUnixMilliseconds (raw : String) : Option Time :=
  match parseNonNegativeInt64 raw with
  | some millis => if millis = 0 then none else some (Time.unixMilli millis)
  | none => none

def resetDurationOrTimestamp (raw : String) (now : Time) : Option Time :=
  let raw := GoString.trimSpace raw
  -- the last resort: a bare number is a timestamp or, when small, a number of seconds
  let bare := match parseNonNegativeInt64 raw with
    | none => none
    | some n =>
      if 1000000000000 ≤ n then some (Time.unixMilli n)
      else if 1000000000 ≤ n then some (Time.unix n)
      else if maxDurationSeconds < n then none
      else some (now + n.toInt * Time.second)
  if raw = "" then none
  else match cfg.parseDuration raw with
    | some duration =>
      if 0 ≤ duration then some (now + duration)
      else (cfg.parseTime raw).or bare
    | none => (cfg.parseTime raw).or bare

inductive ProviderQuotaScope
  | unknown
  | account
  | freePool
  | model
deriving DecidableEq, Repr

def ProviderQuotaScope.text : ProviderQuotaScope → String
  | .unknown => "unknown"
  | .account => "account"
  | .freePool => "free_pool"
  | .model => "model"

inductive ProviderQuotaDimension
  | unknown
  | requests
  | tokens
deriving DecidableEq, Repr

inductive ProviderQuotaWindow
  | unknown
  | minute
  | day
deriving DecidableEq, Repr

inductive ProviderQuotaSource
  | header
  | errorMetadata
  | statusOnly
deriving DecidableEq, Repr

/-- A normalised signal; `limit` and `remaining` are missing when they were not
reported. -/
structure ProviderQuotaObservation where
  provider : ProviderID
  model : String
  scope : ProviderQuotaScope
  dimension : ProviderQuotaDimension
  window : ProviderQuotaWindow
  limit : Option Int64
  remaining : Option Int64
  resetAt : Time
  retryAfter : Duration
  observedAt : Time
  source : ProviderQuotaSource
  known : Bool
  exhausted : Bool

/-- The bucket and the observation of a signal, if it is known and has its numbers, a dimension and
a window. -/
def ProviderQuotaObservation.ledgerFact (o : ProviderQuotaObservation) :
    Option (QuotaBucketKey × QuotaObservation) :=
  let dimension : Option QuotaDimension := match o.dimension with
    | .unknown => none
    | .requests => some .requests
    | .tokens => some .tokens
  let window : Option QuotaWindow := match o.window with
    | .unknown => none
    | .minute => some .minute
    | .day => some .day
  match o.known, o.limit, o.remaining, dimension, window with
  | true, some limit, some remaining, some dimension, some window =>
    some (⟨o.provider.text, o.scope.text, if o.scope = .freePool then "free" else o.model,
        dimension, window⟩,
      ⟨limit, remaining, o.resetAt,
        if o.source = .errorMetadata then .providerBody else .providerHeader,
        .authoritative, o.observedAt⟩)
  | _, _, _, _, _ => none

def cappedRemaining (limit remaining : Option Int64) : Option Int64 :=
  match limit, remaining with
  | some limit, some remaining => some (if limit < remaining then limit else remaining)
  | _, remaining => remaining

/-- One observation, if one of the three fields can be read. -/
def observationsFromFields (provider : ProviderID) (model : String) (scope : ProviderQuotaScope)
    (dimension : ProviderQuotaDimension) (window : ProviderQuotaWindow)
    (limitRaw remainingRaw : String) (resetAt : Option Time) (now : Time)
    (source : ProviderQuotaSource) : List ProviderQuotaObservation :=
  let limit := parseNonNegativeInt64 limitRaw
  let remaining := cappedRemaining limit (parseNonNegativeInt64 remainingRaw)
  if limit.isNone ∧ remaining.isNone ∧ resetAt.isNone then []
  else
    [{ provider := provider, model := model, scope := scope, dimension := dimension,
       window := window, limit := limit, remaining := remaining, resetAt := resetAt.getD 0,
       retryAfter := 0, observedAt := now, source := source, known := true,
       exhausted := remaining = some 0 }]

/-- The text of an error body, the fields of the error, and the headers in the metadata of
OpenRouter's refusal of the daily free tier. -/
structure ErrorBody where
  text : String
  decodes : Bool
  message : String
  providerName : String
  freeTierDaily : Option (String → String)

def ErrorBody.empty : ErrorBody := ⟨"", false, "", "", none⟩

def isProviderRelayedError (body : ErrorBody) : Bool :=
  body.text != "" && GoString.contains body.text "Provider returned error" && body.decodes &&
    body.message = "Provider returned error" && GoString.trimSpace body.providerName != ""

def observeOpenRouterQuota (model : String) (status : Int) (header : String → String)
    (body : ErrorBody) (now : Time) : List ProviderQuotaObservation :=
  match (if status = 429 then body.freeTierDaily else none) with
  | some headers =>
    observationsFromFields .openRouter model .freePool .requests .day
      (headers "X-RateLimit-Limit") (headers "X-RateLimit-Remaining")
      (resetUnixMilliseconds (headers "X-RateLimit-Reset")) now .errorMetadata
  | none =>
    observationsFromFields .openRouter model .account .requests .unknown
      (header "X-RateLimit-Limit") (header "X-RateLimit-Remaining")
      (resetUnixMilliseconds (header "X-RateLimit-Reset")) now .header

def observeCerebrasQuota (model : String) (header : String → String) (now : Time) :
    List ProviderQuotaObservation :=
  observationsFromFields .cerebras model .model .requests .day
      (header "X-RateLimit-Limit-Requests-Day") (header "X-RateLimit-Remaining-Requests-Day")
      (resetDurationOrTimestamp cfg (header "X-RateLimit-Reset-Requests-Day") now) now .header ++
    observationsFromFields .cerebras model .model .tokens .minute
      (header "X-RateLimit-Limit-Tokens-Minute") (header "X-RateLimit-Remaining-Tokens-Minute")
      (resetDurationOrTimestamp cfg (header "X-RateLimit-Reset-Tokens-Minute") now) now .header

def observeGroqQuota (model : String) (header : String → String) (now : Time) :
    List ProviderQuotaObservation :=
  observationsFromFields .groq model .model .requests .day
      (header "X-RateLimit-Limit-Requests") (header "X-RateLimit-Remaining-Requests")
      (resetDurationOrTimestamp cfg (header "X-RateLimit-Reset-Requests") now) now .header ++
    observationsFromFields .groq model .model .tokens .minute
      (header "X-RateLimit-Limit-Tokens") (header "X-RateLimit-Remaining-Tokens")
      (resetDurationOrTimestamp cfg (header "X-RateLimit-Reset-Tokens") now) now .header

def providerSignals (provider : ProviderID) (model : String) (status : Int)
    (header : String → String) (body : ErrorBody) (now : Time) : List ProviderQuotaObservation :=
  match provider with
  | .openRouter => observeOpenRouterQuota model status header body now
  | .cerebras => observeCerebrasQuota cfg model header now
  | .groq => observeGroqQuota cfg model header now
  | _ => []

/-- `observeProviderQuota`; a refusal without any signal is one unknown observation. -/
def observeProviderQuota (provider : ProviderID) (model : String) (status : Int)
    (header : String → String) (body : ErrorBody) (now : Time) : List ProviderQuotaObservation :=
  let retryAfter := parseRetryAfterAt cfg (header "Retry-After") now
  let observations := (providerSignals cfg provider model status header body now).map fun o =>
    { o with retryAfter := retryAfter }
  if observations.isEmpty && status = 429 then
    [{ provider := provider, model := model, scope := .unknown, dimension := .unknown,
       window := .unknown, limit := none, remaining := none, resetAt := 0,
       retryAfter := retryAfter, observedAt := now, source := .statusOnly, known := false,
       exhausted := true }]
  else observations

/-! ## Reported numbers are not negative -/

def ProviderQuotaObservation.NonNeg (o : ProviderQuotaObservation) : Prop :=
  (∀ v, o.limit = some v → 0 ≤ v) ∧ ∀ v, o.remaining = some v → 0 ≤ v

theorem cappedRemaining_nonneg {limitRaw remainingRaw : String}
    (h : cappedRemaining (parseNonNegativeInt64 limitRaw) (parseNonNegativeInt64 remainingRaw) =
      some v) : 0 ≤ v := by
  unfold cappedRemaining at h
  split at h
  · next limit remaining hlimit hremaining =>
    cases h
    split
    · exact parseNonNegativeInt64_nonneg hlimit
    · exact parseNonNegativeInt64_nonneg hremaining
  · exact parseNonNegativeInt64_nonneg h

theorem observationsFromFields_nonneg (provider : ProviderID) (model : String)
    (scope : ProviderQuotaScope) (dimension : ProviderQuotaDimension)
    (window : ProviderQuotaWindow) (limitRaw remainingRaw : String) (resetAt : Option Time)
    (now : Time) (source : ProviderQuotaSource) :
    ∀ o ∈ observationsFromFields provider model scope dimension window limitRaw remainingRaw
      resetAt now source, o.NonNeg := by
  intro o ho
  simp only [observationsFromFields] at ho
  have hremaining : ∀ v, cappedRemaining (parseNonNegativeInt64 limitRaw)
      (parseNonNegativeInt64 remainingRaw) = some v → 0 ≤ v := fun _ => cappedRemaining_nonneg
  have hlimit : ∀ v, parseNonNegativeInt64 limitRaw = some v → 0 ≤ v :=
    fun _ => parseNonNegativeInt64_nonneg
  generalize cappedRemaining (parseNonNegativeInt64 limitRaw)
    (parseNonNegativeInt64 remainingRaw) = remaining at ho hremaining
  generalize parseNonNegativeInt64 limitRaw = limit at ho hlimit
  split at ho
  · exact absurd ho not_mem_nil
  · rw [mem_singleton.mp ho]
    exact ⟨hlimit, hremaining⟩

theorem providerSignals_nonneg (provider : ProviderID) (model : String)
    (status : Int) (header : String → String) (body : ErrorBody) (now : Time) :
    ∀ o ∈ providerSignals cfg provider model status header body now, o.NonNeg := by
  intro o ho
  unfold providerSignals at ho
  split at ho
  · unfold observeOpenRouterQuota at ho
    split at ho <;> exact observationsFromFields_nonneg _ _ _ _ _ _ _ _ _ _ o ho
  · unfold observeCerebrasQuota at ho
    rcases mem_append.mp ho with ho | ho <;>
      exact observationsFromFields_nonneg _ _ _ _ _ _ _ _ _ _ o ho
  · unfold observeGroqQuota at ho
    rcases mem_append.mp ho with ho | ho <;>
      exact observationsFromFields_nonneg _ _ _ _ _ _ _ _ _ _ o ho
  · exact absurd ho not_mem_nil

theorem observeProviderQuota_nonneg (provider : ProviderID) (model : String)
    (status : Int) (header : String → String) (body : ErrorBody) (now : Time) :
    ∀ o ∈ observeProviderQuota cfg provider model status header body now, o.NonNeg := by
  intro o ho
  unfold observeProviderQuota at ho
  simp only at ho
  generalize parseRetryAfterAt cfg (header "Retry-After") now = retryAfter at ho
  split at ho
  · rw [mem_singleton.mp ho]
    constructor <;> intro v hv <;> simp only [reduceCtorEq] at hv
  · obtain ⟨o', ho', rfl⟩ := mem_map.mp ho
    exact providerSignals_nonneg cfg provider model status header body now o' ho'

theorem ProviderQuotaObservation.NonNeg.ledgerFact {o : ProviderQuotaObservation} (h : o.NonNeg)
    {key : QuotaBucketKey} {fact : QuotaObservation} (hfact : o.ledgerFact = some (key, fact)) :
    0 ≤ fact.limit ∧ 0 ≤ fact.remaining := by
  unfold ProviderQuotaObservation.ledgerFact at hfact
  simp only at hfact
  split at hfact
  · next hlimit hremaining _ _ =>
    cases hfact
    exact ⟨h.1 _ hlimit, h.2 _ hremaining⟩
  · cases hfact

end CalvoProxy
