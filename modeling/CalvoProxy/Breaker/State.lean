import CalvoProxy.Lib.GoString
import CalvoProxy.Quota.Ledger

/-!
# Circuit breakers and reliability scores

The functions of `router_breaker.go`, `router_provider_breaker.go` and `router_scoring.go` on the
state of one model or provider. A circuit is closed while `openUntil` is the zero time, open before
`openUntil` and half-open from then on. A score is a rational number; the source keeps a `float64`.
-/

namespace CalvoProxy

/-- The configuration as `NewRouterService` builds it: a threshold of at least one, and the default
for a cooldown that is not positive. -/
structure BreakerConfig where
  failureThreshold : Nat
  cooldown : Duration
  requestTimeout : Duration
  threshold_pos : 0 < failureThreshold
  cooldown_pos : 0 < cooldown

/-- Three failures, a cooldown of 60 nanoseconds, requests of 45. -/
def sampleConfig : BreakerConfig := ⟨3, 60, 45, by decide, by decide⟩

/-- What a policy asks of the breaker of an attempt; a value that is not positive leaves the
configuration in force. -/
structure BreakerPolicy where
  failureThreshold : Int
  cooldown : Duration
deriving DecidableEq

structure ModelBreakerState where
  consecutiveFailures : Nat
  successes : Nat
  lastFailureCode : Int
  lastFailureReason : String
  lastFailureAt : Time
  openUntil : Time
  probeUntil : Time
  score : Rat
  scoreUpdatedAt : Time
  scoreAttemptSeq : Int
deriving DecidableEq

def ModelBreakerState.empty : ModelBreakerState := ⟨0, 0, 0, "", 0, 0, 0, 0, 0, 0⟩

namespace BreakerConfig

def probeTTL (config : BreakerConfig) : Duration :=
  if config.requestTimeout ≤ 0 then 45000000000 else config.requestTimeout

def threshold (config : BreakerConfig) (policy : BreakerPolicy) : Int :=
  if 0 < policy.failureThreshold then policy.failureThreshold else config.failureThreshold

def cooldownFor (config : BreakerConfig) (policy : BreakerPolicy) (retryAfter : Option Duration) :
    Duration :=
  let cooldown := if 0 < policy.cooldown then policy.cooldown else config.cooldown
  match retryAfter with
  | some wait => if cooldown < wait then wait else cooldown
  | none => cooldown

theorem threshold_pos' (config : BreakerConfig) (policy : BreakerPolicy) :
    0 < config.threshold policy := by
  unfold threshold
  split
  · next h => exact h
  · exact Int.natCast_pos.mpr config.threshold_pos

theorem cooldownFor_pos (config : BreakerConfig) (policy : BreakerPolicy)
    (retryAfter : Option Duration) : 0 < config.cooldownFor policy retryAfter := by
  have hbase : 0 < if 0 < policy.cooldown then policy.cooldown else config.cooldown := by
    split
    · next h => exact h
    · exact config.cooldown_pos
  unfold cooldownFor
  generalize (if 0 < policy.cooldown then policy.cooldown else config.cooldown) = base at hbase ⊢
  cases retryAfter with
  | none => exact hbase
  | some wait =>
    show 0 < if base < wait then wait else base
    split
    · next h => exact Int.lt_trans hbase h
    · exact hbase

end BreakerConfig

def scoreInitial : Rat := 1
def scoreNeutral : Rat := 4 / 5
def scoreSuccessStep : Rat := 1 / 5
def scorePenaltyHard : Rat := 2 / 5
def scorePenaltySoft : Rat := 1 / 5
def scoreUnproven : Rat := 1 / 2
def scoreStatusSoftOnly : Int := 0
def defaultScoreRecovery : Duration := 21600000000000
def defaultScoreRecoveryAttempts : Int := 50

/-- The configured window over which a score drifts back. -/
structure ScoreWindow where
  recovery : Duration
  recoveryAttempts : Int

structure ScoreEnv where
  now : Time
  seq : Int
  duration : Duration
  attempts : Int

def newScoreEnv (window : ScoreWindow) (now : Time) (seq : Int) : ScoreEnv where
  now := now
  seq := seq
  duration := if window.recovery ≤ 0 then defaultScoreRecovery else window.recovery
  attempts := if window.recoveryAttempts < 1 then defaultScoreRecoveryAttempts
    else window.recoveryAttempts

def clamp01 (v : Rat) : Rat := if v < 0 then 0 else if 1 < v then 1 else v

namespace ModelBreakerState

variable (state : ModelBreakerState)

def scoreBaseline : Rat :=
  if state.successes = 0 then scoreUnproven else scoreNeutral

/-- How far a score has drifted to its baseline, by the slower of two clocks. -/
def decayFraction (env : ScoreEnv) : Rat :=
  let elapsed := env.now - state.scoreUpdatedAt
  let evidence := env.seq - state.scoreAttemptSeq
  if elapsed ≤ 0 then 0
  else if evidence ≤ 0 then 0
  else
    let timeFrac : Rat := elapsed / env.duration
    let attemptFrac : Rat := evidence / env.attempts
    clamp01 (if attemptFrac < timeFrac then attemptFrac else timeFrac)

def decayedScore (state : Option ModelBreakerState) (env : ScoreEnv) : Rat :=
  match state with
  | none => scoreInitial
  | some state =>
    if Time.isZero state.scoreUpdatedAt then scoreInitial
    else clamp01 (state.score + (state.scoreBaseline - state.score) * state.decayFraction env)

def applyScoreSuccess (env : ScoreEnv) : ModelBreakerState :=
  let base := decayedScore (some state) env
  { state with
    score := clamp01 (base + (1 - base) * scoreSuccessStep)
    scoreUpdatedAt := env.now
    scoreAttemptSeq := env.seq }

/-- A rate limit, a server error or a timeout costs more. -/
def applyScoreFailure (statusCode : Int) (env : ScoreEnv) : ModelBreakerState :=
  let base := decayedScore (some state) env
  let penalty := if statusCode = 429 ∨ statusCode = 408 ∨ 500 ≤ statusCode
    then scorePenaltyHard else scorePenaltySoft
  { state with
    score := clamp01 (base * (1 - penalty))
    scoreUpdatedAt := env.now
    scoreAttemptSeq := env.seq }

/-! ## Transitions of one state -/

/-- Forget the failures, close the circuit and release the probe claim. -/
def reset : ModelBreakerState :=
  { state with
    consecutiveFailures := 0
    openUntil := 0
    probeUntil := 0
    lastFailureCode := 0
    lastFailureReason := ""
    lastFailureAt := 0 }

def truncateReason (reason : String) : String := GoString.truncate reason 240

/-- Count a failure; open the circuit at the threshold or if `immediateOpen`. An open window is
never shortened. -/
def fail (config : BreakerConfig) (policy : BreakerPolicy) (statusCode : Int) (reason : String)
    (immediateOpen : Bool) (retryAfter : Option Duration) (now : Time)
    (state : ModelBreakerState) : ModelBreakerState :=
  -- once the cooldown has elapsed the count starts anew
  let elapsed := !Time.isZero state.openUntil && Time.after now state.openUntil
  let failures := (if elapsed then 0 else state.consecutiveFailures) + 1
  let openUntil := if elapsed then 0 else state.openUntil
  let until' := now + config.cooldownFor policy retryAfter
  { state with
    consecutiveFailures := failures
    probeUntil := 0
    lastFailureCode := statusCode
    lastFailureReason := truncateReason reason
    lastFailureAt := now
    openUntil :=
      if immediateOpen || config.threshold policy ≤ failures then
        if Time.after until' openUntil then until' else openUntil
      else openUntil }

def succeed : ModelBreakerState :=
  { state.reset with successes := state.successes + 1 }

/-- Lower the score, and end a probe claim. -/
def penalize (statusCode : Int) (env : ScoreEnv) (state : ModelBreakerState) : ModelBreakerState :=
  { state with probeUntil := 0 }.applyScoreFailure statusCode env

/-- Start an attempt: on a closed circuit always, on an open one never, on a half-open one for the
caller that claims the probe. -/
def tryStart (config : BreakerConfig) (now : Time) :
    Option ModelBreakerState → Option ModelBreakerState × Bool
  | none => (none, true)
  | some state =>
    if Time.isZero state.openUntil then (some state, true)
    else if Time.before now state.openUntil then (some state, false)
    else if Time.before now state.probeUntil then (some state, false)
    else (some { state with probeUntil := now + config.probeTTL }, true)

end ModelBreakerState

end CalvoProxy
