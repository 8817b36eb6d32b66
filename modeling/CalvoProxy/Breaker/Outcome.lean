import CalvoProxy.Breaker.State

/-!
# What the end of an attempt does to the breakers

Each way in which a started attempt may end (`Outcome`) has a fixed effect on the breakers of its
model and of its provider, collected from the exits of `executeAttempt`.
-/

namespace CalvoProxy

/-- The named providers; the empty text is `other ""`. -/
inductive ProviderID
  | openRouter
  | cerebras
  | groq
  | ollama
  | localModel
  | other (text : String)
deriving DecidableEq, Repr

def ProviderID.text : ProviderID → String
  | .openRouter => "openrouter"
  | .cerebras => "cerebras"
  | .groq => "groq"
  | .ollama => "ollama"
  | .localModel => "local"
  | .other text => text

inductive StreamOutcome
  | completed
  | stalled
  | upstreamError
  | maxReached
  | clientGone
deriving DecidableEq, Repr

def StreamOutcome.upstreamFault : StreamOutcome → Bool
  | .stalled => true
  | .upstreamError => true
  | _ => false

def StreamOutcome.text : StreamOutcome → String
  | .completed => "completed"
  | .stalled => "stalled (idle timeout)"
  | .upstreamError => "upstream read error"
  | .maxReached => "max duration reached"
  | .clientGone => "client disconnected"

def classifiedStatus (status : Int) : Int :=
  if status = 429 then 503 else if 500 ≤ status then 502 else if status = 408 then 504 else status

/-- The statuses that count toward a breaker and may be tried again. -/
def breakerEligibleStatus (status : Int) : Bool := status = 429 || 500 ≤ status || status = 408

def classifiedMessage (status : Int) : String :=
  if status = 400 ∨ status = 422 then "request rejected"
  else if status = 401 ∨ status = 403 then "provider authentication failed"
  else if status = 429 then "rate limited"
  else if status = 504 ∨ status = 408 then "timeout"
  else "upstream unavailable"

def quotaLimitedStatus (status : Int) : Bool := status = 429 || status = 413

def providerAccountFailure (status : Int) (relayed : Bool) : Bool :=
  (status = 401 || status = 403 || status = 402) && !relayed

inductive Outcome
  /-- The request could not be built or reserved, or the client left before a response. -/
  | unjudged
  | transportError (statusCode : Int) (message : String)
  | rejected (status : Int) (relayed : Bool) (retryAfter : Duration)
  /-- The stream was given up before its first event. -/
  | abandoned
  | streamed (o : StreamOutcome)
  /-- A buffered response was truncated or too large. -/
  | broken (message : String)
  | delivered
deriving DecidableEq

namespace Outcome

def nonModelFailure (status : Int) (relayed : Bool) : Bool :=
  quotaLimitedStatus status || providerAccountFailure status relayed

def streamFaultMessage (o : StreamOutcome) : String := "stream ended abnormally: " ++ o.text

variable (config : BreakerConfig) (policy : BreakerPolicy) (env : ScoreEnv) (now : Time)

open ModelBreakerState in
def onModel (o : Outcome) (state : ModelBreakerState) : ModelBreakerState :=
  match o with
  | .unjudged => state.reset
  | .transportError code message =>
    fail config policy code message false none now (state.penalize code env)
  | .rejected status relayed retryAfter =>
    let state := if quotaLimitedStatus status then state.reset else state
    if nonModelFailure status relayed then state.reset
    else
      let state := state.penalize (classifiedStatus status) env
      if breakerEligibleStatus status then
        fail config policy (classifiedStatus status) (classifiedMessage status) false
          (some retryAfter) now state
      else state.reset
  | .abandoned => state.reset.penalize scoreStatusSoftOnly env
  | .streamed .completed => state.reset.succeed.applyScoreSuccess env
  | .streamed o =>
    if o.upstreamFault then
      fail config policy 502 (streamFaultMessage o) false none now (state.reset.penalize 502 env)
    else state.reset
  | .broken message => fail config policy 502 message false none now (state.penalize 502 env)
  | .delivered => state.succeed.applyScoreSuccess env

def clearProbe (state : Option ModelBreakerState) : Option ModelBreakerState :=
  state.map fun state => { state with probeUntil := 0 }

def onProvider (provider : ProviderID) (o : Outcome) (state : Option ModelBreakerState) :
    Option ModelBreakerState :=
  match o with
  | .rejected status relayed retryAfter =>
    if providerAccountFailure status relayed && provider != .openRouter then
      let state := if quotaLimitedStatus status then clearProbe state else state
      some (ModelBreakerState.fail config policy (classifiedStatus status)
        (classifiedMessage status) true (some retryAfter) now (state.getD .empty))
    else clearProbe state
  | .streamed .completed => some ((clearProbe state).getD .empty).succeed
  | .delivered => some (state.getD .empty).succeed
  | _ => clearProbe state

end Outcome

end CalvoProxy
