import CalvoProxy.Router.Dispatch

/-!
# Planning the attempts of a request

`PolicyModelAttemptPlanner.Plan` turns a category and a requested model into a chain: the targets of
the provider profiles, or every model of the policy's chain at every provider of the rule decision.
`capabilityRescue` looks among the configured profiles only.
-/

namespace CalvoProxy

/-! ## The model policy -/

structure ModelPolicy where
  defaultProfile : String
  profiles : GoMap String (List String)
deriving DecidableEq

structure ModelDecision where
  profile : String
  modelChain : List String

namespace ModelPolicy

variable (p : ModelPolicy)

def chain (profile : String) : List String := (p.profiles.lookup profile).getD []

/-- `Select`: an unknown profile gives way to the default one, and a requested model goes first. -/
def select (category requestedModel : String) : ModelDecision :=
  let profile := GoString.toLower (GoString.trimSpace category)
  let profile := if (p.profiles.lookup profile).isSome then profile else p.defaultProfile
  let profile := if (p.chain profile).isEmpty then p.defaultProfile else profile
  let trimmedModel := GoString.trimSpace requestedModel
  if trimmedModel = "" || GoString.equalFold trimmedModel "auto" then ⟨profile, p.chain profile⟩
  else ⟨profile, (trimmedModel :: p.chain profile).eraseDups⟩

end ModelPolicy

structure ProviderModelTarget where
  provider : ProviderID
  model : String
deriving DecidableEq

abbrev ProviderProfiles := GoMap String (List ProviderModelTarget)

structure PolicyDecision where
  executor : ProviderID
  fallbackExecutors : List ProviderID
  breakerPolicy : BreakerPolicy

structure PlanRequest where
  decision : PolicyDecision
  category : String
  requestedModel : String

def ProviderModelTarget.key (t : ProviderModelTarget) :
    String := t.provider.text ++ "\x00" ++ t.model

def distinctTargets (seen : List String) : List ProviderModelTarget → List ProviderModelTarget
  | [] => []
  | t :: ts =>
    if t.key ∈ seen then distinctTargets seen ts
    else t :: distinctTargets (t.key :: seen) ts

namespace PlanRequest

variable (q : PlanRequest)

def leavesChoice (profile : String) : Bool :=
  let trimmed := GoString.trimSpace q.requestedModel
  trimmed = "" || GoString.equalFold trimmed "auto" || GoString.equalFold trimmed profile

def providers : List ProviderID :=
  if q.decision.executor.text = "" then [.openRouter]
  else q.decision.executor :: q.decision.fallbackExecutors

def attemptsFor (targets : List ProviderModelTarget) (selected : ModelDecision) :
    List PlannedAttempt :=
  let targets :=
    if !targets.isEmpty && q.leavesChoice selected.profile then targets
    else distinctTargets [] (selected.modelChain.flatMap fun model =>
      q.providers.map fun provider => ⟨provider, model⟩)
  targets.map fun t => ⟨selected.profile, t.model, t.provider, q.decision.breakerPolicy⟩

def plan (profiles : ProviderProfiles) (model : ModelPolicy) : List PlannedAttempt :=
  let selected := model.select q.category q.requestedModel
  q.attemptsFor ((profiles.lookup selected.profile).getD []) selected

end PlanRequest

/-! ## The policy of a service -/

/-- What `policyMu` guards, as far as planning reads it. -/
structure PolicyState where
  policy : ModelPolicy
  providerProfiles : ProviderProfiles
  modelPolicy : ModelPolicy

namespace PolicyState

variable (s : PolicyState)

def planModelAttempts (q : PlanRequest) : List PlannedAttempt :=
  q.plan s.providerProfiles s.modelPolicy

/-- The targets of all profiles, in the order of the names of the profiles. -/
def allTargets : List ProviderModelTarget :=
  (s.providerProfiles.keys.insertionSort (· ≤ ·)).flatMap fun profile =>
    (s.providerProfiles.lookup profile).getD []

/-- `capabilityRescue`: the capable targets of the provider profiles, or else the capable models of
all chains. -/
def capabilityRescue (satisfies : String → Bool) (defaultProvider : ProviderID)
    (breaker : BreakerPolicy) (category : String) : List PlannedAttempt :=
  let targets :=
    if !s.providerProfiles.entries.isEmpty then
      distinctTargets [] ([ProviderID.openRouter, .cerebras, .groq].flatMap fun provider =>
        s.allTargets.filter fun t => t.provider = provider && satisfies t.model)
    else
      (((s.policy.profiles.entries.flatMap (·.2)).eraseDups.filter satisfies).insertionSort
        (· ≤ ·)).map fun model => ⟨defaultProvider, model⟩
  targets.map fun t => ⟨category, t.model, t.provider, breaker⟩

end PolicyState

end CalvoProxy
