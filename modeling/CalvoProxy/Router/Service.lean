import CalvoProxy.Breaker.Outcome
import CalvoProxy.Quota.Tickets

/-!
# The router service

The state that requests share, what is fixed while a request runs (`Settings`), and the methods of
`RouterService`. A request is modelled alone. `World` adds the chain being executed and a log, which
the results about whole requests are stated over.
-/

namespace CalvoProxy

open ModelBreakerState

open QuotaLedger (LedgerEvent)

structure QuotaEstimate where
  requests : Int64
  tokens : Int64
  inputTokens : Int64
  outputTokens : Int64
  outputExplicit : Bool
deriving DecidableEq

def QuotaEstimate.zero : QuotaEstimate := ⟨0, 0, 0, 0, false⟩

structure ModelAttempt where
  profile : String
  model : String
  provider : ProviderID
  breakerPolicy : BreakerPolicy
  attemptIndex : Nat
  lastInChain : Bool
  quotaTicket : QuotaTicket
  quotaEstimate : QuotaEstimate
deriving DecidableEq

structure AttemptError where
  statusCode : Int
  message : String
  breakerEligible : Bool := false
  retryable : Bool := false
  timeout : Bool := false
  eof : Bool := false
  skipModel : Bool := false
  skipProvider : Bool := false
  providerUnavailable : Bool := false
  quotaLimited : Bool := false
  quotaPool : String := ""
  retryAfter : Duration := 0
deriving DecidableEq

/-- What is fixed while a request runs: `env` are the integer settings, `fingerprint` hashes a
credential, and the two parsers are those of the standard library. -/
structure Settings where
  breaker : BreakerConfig
  scores : ScoreWindow
  defaultProfile : String
  defaultExecutor : ProviderID
  env : String → Option Int64
  ambientAllowed : Bool
  cerebrasKey : String
  groqKey : String
  apiKey : String
  fingerprint : String → String
  parseDuration : String → Option Duration
  parseTime : String → Option Time
  firstEventTimeout : Duration
  maxResponseBytes : Int

namespace Settings

variable (cfg : Settings)

def envInt (key : String) (fallback : Int64) : Int64 := (cfg.env key).getD fallback

def defaultPolicyProvider : ProviderID :=
  if cfg.defaultExecutor.text != "" then cfg.defaultExecutor else .openRouter

variable (attempt : ModelAttempt)

/-- `normalizedProvider`, and `credentialProvider` for a service that exists. -/
def normalizedProvider : ProviderID :=
  if attempt.provider.text != "" then attempt.provider else cfg.defaultPolicyProvider

def providerCredential : String :=
  match attempt.provider with
  | .cerebras => if cfg.ambientAllowed then cfg.cerebrasKey else ""
  | .groq => if cfg.ambientAllowed then cfg.groqKey else ""
  | .ollama => if cfg.ambientAllowed then "local" else ""
  | .localModel => if cfg.ambientAllowed then "local" else ""
  | _ =>
    if cfg.normalizedProvider attempt = .openRouter then GoString.trimSpace cfg.apiKey else ""

def configured : Bool := cfg.providerCredential attempt != ""

def breakerKey : String :=
  let profile := GoString.trimSpace attempt.profile
  let profile := if profile = "" then cfg.defaultProfile else profile
  let provider := GoString.trimSpace attempt.provider.text
  let provider := if provider = "" then cfg.defaultPolicyProvider.text else provider
  if provider = ProviderID.openRouter.text then profile ++ ":" ++ GoString.trimSpace attempt.model
  else profile ++ ":" ++ provider ++ ":" ++ GoString.trimSpace attempt.model

end Settings

structure RouterService where
  quota : QuotaLedger
  modelBreakers : GoMap String ModelBreakerState
  providerBreakers : GoMap ProviderID ModelBreakerState
  quotaCooldowns : GoMap String Time
  scoreAttempts : Int

namespace RouterService

variable (cfg : Settings) (attempt : ModelAttempt) (now : Time) (s : RouterService)

/-- The breaker of the attempted model; a missing entry is empty. -/
def breakerOf : ModelBreakerState :=
  (s.modelBreakers.lookup (cfg.breakerKey attempt)).getD .empty

/-- A write creates the entry when it is missing. -/
def updateModel (f : ModelBreakerState → ModelBreakerState) : RouterService :=
  { s with modelBreakers :=
      s.modelBreakers.insert (cfg.breakerKey attempt) (f (s.breakerOf cfg attempt)) }

def updateProvider (f : ModelBreakerState → ModelBreakerState) : RouterService :=
  let state := (s.providerBreakers.lookup attempt.provider).getD .empty
  { s with providerBreakers := s.providerBreakers.insert attempt.provider (f state) }

/-- The next attempt number, and the environment of the score it gives. -/
def countScoredAttempt : RouterService × ScoreEnv :=
  ({ s with scoreAttempts := s.scoreAttempts + 1 },
    newScoreEnv cfg.scores now (s.scoreAttempts + 1))

def resolveProbe : RouterService := s.updateModel cfg attempt reset

def penalizeScore (statusCode : Int) : RouterService :=
  let (s, env) := s.countScoredAttempt cfg now
  s.updateModel cfg attempt (·.penalize statusCode env)

def recordFailure (statusCode : Int) (reason : String) (retryAfter : Option Duration) :
    RouterService :=
  s.updateModel cfg attempt
    (fail cfg.breaker attempt.breakerPolicy statusCode reason false retryAfter now)

def recordSuccess : RouterService :=
  let (s, env) := s.countScoredAttempt cfg now
  s.updateModel cfg attempt (·.succeed.applyScoreSuccess env)

def resolveProviderProbe : RouterService :=
  match s.providerBreakers.lookup attempt.provider with
  | none => s
  | some state =>
    { s with providerBreakers :=
        s.providerBreakers.insert attempt.provider { state with probeUntil := 0 } }

def resolveProviderSuccess : RouterService :=
  s.updateProvider attempt succeed

def recordProviderFailure (statusCode : Int) (reason : String) (immediateOpen : Bool)
    (retryAfter : Duration) : RouterService :=
  s.updateProvider attempt (fail cfg.breaker attempt.breakerPolicy statusCode reason immediateOpen
      (some retryAfter) now)

/-- Store what `tryStart` returned; it never creates an entry. -/
def tryStartAttempt : RouterService × Bool :=
  let r := tryStart cfg.breaker now (s.modelBreakers.lookup (cfg.breakerKey attempt))
  match r.1 with
  | none => (s, r.2)
  | some state =>
    ({ s with modelBreakers := s.modelBreakers.insert (cfg.breakerKey attempt) state }, r.2)

def tryStartProvider : RouterService × Bool :=
  let r := tryStart cfg.breaker now (s.providerBreakers.lookup attempt.provider)
  match r.1 with
  | none => (s, r.2)
  | some state =>
    ({ s with providerBreakers := s.providerBreakers.insert attempt.provider state }, r.2)

/-- The circuits of the provider and the model are not open. -/
def isModelAvailable : Bool :=
  let openAt := fun state : Option ModelBreakerState => Time.after (state.getD .empty).openUntil now
  !openAt (s.providerBreakers.lookup attempt.provider) &&
    !openAt (s.modelBreakers.lookup (cfg.breakerKey attempt))

end RouterService

/-! ## The world of a request -/

inductive BreakerAction
  | resolveProbe
  | penalizeScore (statusCode : Int)
  | recordFailure (statusCode : Int) (reason : String) (retryAfter : Option Duration)
  | recordSuccess
  | resolveProviderProbe
  | resolveProviderSuccess
  | recordProviderFailure (statusCode : Int) (reason : String) (immediateOpen : Bool)
      (retryAfter : Duration)
deriving DecidableEq

/-- The positions attempted, calls on the ledger and the breakers, upstream requests with their
tickets, and what was written to the client. -/
inductive Effect
  | attempt (position : Nat)
  | ledger (e : LedgerEvent)
  | breaker (key : String) (provider : ProviderID) (action : BreakerAction)
  | send (ticket : QuotaTicket)
  | head (status : Int)
  | jsonError (status : Int) (message : String) (retryAfter : Option Int)

/-- The service, the chain with the positions that lost their quota (`unavailableAttempts`), and the
log. -/
structure World where
  service : RouterService
  attempts : List ModelAttempt
  unavailable : List Nat
  log : List Effect

/-- The time of a call, and the order of its ranges over maps. -/
structure Tick where
  now : Time
  order : List QuotaBucketKey

namespace World

variable (w : World)

def emit (e : Effect) : World := { w with log := w.log ++ [e] }

def recordCall (op : QuotaLedger.Op) (quota : QuotaLedger) (res : QuotaLedger.Res) : World :=
  { w with
    service := { w.service with quota := quota }
    log := w.log ++ [.ledger ⟨w.service.quota, op, res⟩] }

def observe (key : QuotaBucketKey) (o : QuotaObservation) (now : Time) : World :=
  let r := w.service.quota.observe key o now
  w.recordCall (.observe key o now) r.1 (.done r.2)

def snapshot (key : QuotaBucketKey) (now : Time) : World × Option QuotaSnapshot :=
  let r := w.service.quota.snapshot key now
  (w.recordCall (.snapshot key now) r.1 (.snapshot r.2), r.2)

def keys (now : Time) : World × List QuotaBucketKey :=
  let r := w.service.quota.keys now
  (w.recordCall (.keys now) r.1 (.keys r.2), r.2)

def reserveAll (reservations : List QuotaReservation) (t : Tick) :
    Option (World × Option QuotaTicket) :=
  (w.service.quota.reserveAll reservations t.now t.order).map fun r =>
    (w.recordCall (.reserveAll reservations t.now t.order) r.1 (.ticket r.2), r.2)

def release (ticket : QuotaTicket) (t : Tick) : World :=
  let r := w.service.quota.release ticket t.now t.order
  w.recordCall (.release ticket t.now t.order) r.1 (.done r.2)

def reconcile (ticket : QuotaTicket) (settlements : List QuotaSettlement) (t : Tick) : World :=
  let r := w.service.quota.reconcile ticket settlements t.now t.order
  w.recordCall (.reconcile ticket settlements t.now t.order) r.1 (.done r.2)

def perform (cfg : Settings) (attempt : ModelAttempt) (now : Time) (action : BreakerAction)
    (s : RouterService) : RouterService :=
  match action with
  | .resolveProbe => s.resolveProbe cfg attempt
  | .penalizeScore code => s.penalizeScore cfg attempt now code
  | .recordFailure code reason retryAfter => s.recordFailure cfg attempt now code reason retryAfter
  | .recordSuccess => s.recordSuccess cfg attempt now
  | .resolveProviderProbe => s.resolveProviderProbe attempt
  | .resolveProviderSuccess => s.resolveProviderSuccess attempt
  | .recordProviderFailure code reason immediateOpen retryAfter =>
    s.recordProviderFailure cfg attempt now code reason immediateOpen retryAfter

def act (cfg : Settings) (attempt : ModelAttempt) (now : Time) (action : BreakerAction)
    (w : World) : World :=
  { w with
    service := perform cfg attempt now action w.service
    log := w.log ++ [.breaker (cfg.breakerKey attempt) attempt.provider action] }

end World

/-! ## A sample service -/

def demoSettings : Settings where
  breaker := sampleConfig
  scores := ⟨0, 0⟩
  defaultProfile := "default"
  defaultExecutor := .openRouter
  env := fun _ => none
  ambientAllowed := false
  cerebrasKey := ""
  groqKey := ""
  apiKey := "key"
  fingerprint := id
  parseDuration := fun _ => none
  parseTime := fun _ => none
  firstEventTimeout := 0
  maxResponseBytes := 100

def demoAttempt : ModelAttempt :=
  ⟨"default", "m", .openRouter, ⟨0, 0⟩, 1, true, .zero, ⟨1, 2, 1, 1, true⟩⟩

def demoWorld : World := ⟨⟨.new 0, ∅, ∅, ∅, 0⟩, [demoAttempt], [], []⟩

end CalvoProxy
