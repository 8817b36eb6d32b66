import CalvoProxy.Router.Accounts
import CalvoProxy.Router.Environment
import CalvoProxy.Quota.Reading

/-!
# The health report

`Health` of `router_breaker.go`. The public form of a bucket hides the fingerprint of the
credential, but the list `Quotas` has it: replacing a credential changes the report exactly if it
changes the key of a bucket still reported (`health_alike_iff`).
-/

namespace CalvoProxy

open QuotaLedger Option GoString

inductive CircuitState
  | closed
  | halfOpen
  | opened
deriving DecidableEq, Repr

def circuitState (openUntil now : Time) : CircuitState :=
  if Time.after openUntil now then .opened
  else if !Time.isZero openUntil then .halfOpen
  else .closed

structure BreakerSnapshot where
  model : String
  consecutiveFailures : Nat
  successes : Nat
  lastFailureCode : Int
  lastFailureReason : String
  lastFailureAt : Time
  openUntil : Time
  score : Rat
  state : CircuitState
deriving DecidableEq

structure QuotaHealthSnapshot where
  scope : String
  modelOrPool : String
  dimension : QuotaDimension
  window : QuotaWindow
  limit : Int64
  remaining : Int64
  reserved : Int64
  available : Int64
  resetAt : Time
  source : QuotaSource
  confidence : QuotaConfidence
deriving DecidableEq

structure ProviderSnapshot where
  provider : String
  configured : Bool
  state : CircuitState
  attempts : Int64
  reliabilityScore : Rat
  consecutiveFailures : Nat
  lastFailureCode : Int
  lastFailureReason : String
  lastFailureAt : Time
  openUntil : Time
  quota : List QuotaHealthSnapshot
deriving DecidableEq

structure ModelPolicyHealth where
  defaultProfile : String
  profiles : List String
  aliases : List String
  strict : Bool
  validationWarnings : List String
deriving DecidableEq

inductive HealthStatus
  | ok
  | degraded
  | unavailable
deriving DecidableEq, Repr

structure ProxyHealth where
  service : String
  status : HealthStatus
  ready : Bool
  openCircuitCount : Nat
  configuredAPIKey : Bool
  defaultExecutor : String
  profiles : List String
  failureThreshold : Nat
  cooldownSeconds : Int
  requestTimeoutSecs : Int
  policyName : String
  policyDSLVersion : String
  policyHash : String
  policyVocabHash : String
  modelPolicy : ModelPolicyHealth
  providers : List ProviderSnapshot
  circuits : List BreakerSnapshot
  quotas : List QuotaSnapshot
  timestamp : Time
deriving DecidableEq

/-! ## What it is made from -/

/-- The attempts of all profiles, and what the report shows of the policies. -/
structure PolicyInfo where
  knownAttempts : List ModelAttempt
  name : String
  dslVersion : String
  hash : String
  vocabularyHash : String
  model : ModelPolicyHealth

structure Installation where
  service : RouterService
  providerAttempts : GoMap ProviderID Int64
  ambient : Ambient
  policy : PolicyInfo

def publicQuotaScope (scope : String) : String := before scope ':'

def QuotaSnapshot.public (q : QuotaSnapshot) : QuotaHealthSnapshot where
  scope := publicQuotaScope q.key.scope
  modelOrPool := q.key.modelOrPool
  dimension := q.key.dimension
  window := q.key.window
  limit := q.observation.limit
  remaining := q.observation.remaining
  reserved := q.reserved
  available := q.available
  resetAt := q.observation.resetAt
  source := q.observation.source
  confidence := q.observation.confidence

def QuotaLedger.quotaHealth (provider : ProviderID) (now : Time) (l : QuotaLedger) :
    QuotaLedger × List QuotaHealthSnapshot :=
  let (l, keys) := l.keys now
  let (l, snapshots) := l.collect now (keys.filter (·.provider = provider.text))
  (l, snapshots.map QuotaSnapshot.public)

namespace Installation

variable (cfg : Settings) (now : Time) (s : Installation)

def breakerSnapshots (env : ScoreEnv) : List BreakerSnapshot :=
  (s.service.modelBreakers.entries.map fun e : Sigma fun _ : String => ModelBreakerState =>
    (⟨e.1, e.2.consecutiveFailures, e.2.successes, e.2.lastFailureCode, e.2.lastFailureReason,
      e.2.lastFailureAt, e.2.openUntil, ModelBreakerState.decayedScore (some e.2) env,
      circuitState e.2.openUntil env.now⟩ : BreakerSnapshot)).insertionSort
    fun x y => x.model ≤ y.model

def providerReliability (provider : ProviderID) (env : ScoreEnv) : Rat :=
  let best := s.policy.knownAttempts.foldl (fun best attempt =>
    if cfg.normalizedProvider attempt ≠ provider then best
    else
      let score := ModelBreakerState.decayedScore
        (s.service.modelBreakers.lookup (cfg.breakerKey attempt)) env
      if best < score then score else best) (-1)
  if best < 0 then 0 else best

def providerSnapshot (env : ScoreEnv) (provider : ProviderID) (quota : List QuotaHealthSnapshot) :
    ProviderSnapshot :=
  let breaker := s.service.providerBreakers.lookup provider
  let state := breaker.getD .empty
  { provider := provider.text
    configured := s.ambient.providerConfigured provider
    state := (breaker.map fun state => circuitState state.openUntil env.now).getD .closed
    attempts := (s.providerAttempts.lookup provider).getD 0
    reliabilityScore := s.providerReliability cfg provider env
    consecutiveFailures := state.consecutiveFailures
    lastFailureCode := state.lastFailureCode
    lastFailureReason := state.lastFailureReason
    lastFailureAt := state.lastFailureAt
    openUntil := state.openUntil
    quota := quota }

def providerSnapshots (env : ScoreEnv) :
    List ProviderID → QuotaLedger → QuotaLedger × List ProviderSnapshot
  | [], l => (l, [])
  | provider :: rest, l =>
    let (l, quota) := l.quotaHealth provider env.now
    let (l, snapshots) := providerSnapshots env rest l
    (l, s.providerSnapshot cfg env provider quota :: snapshots)

/-- What `Health` returns once the providers and the buckets are read. -/
def report (providers : List ProviderSnapshot) (quotas : List QuotaSnapshot) : ProxyHealth :=
  let circuits := s.breakerSnapshots (newScoreEnv cfg.scores now s.service.scoreAttempts)
  let openCount := circuits.countP (·.state = .opened) + providers.countP (·.state = .opened)
  let anyAvailable := s.policy.knownAttempts.any fun a => s.service.isModelAvailable cfg a now
  let rejected := s.policy.model.strict && !s.policy.model.validationWarnings.isEmpty
  { service := "CalvoProxy"
    status := if !anyAvailable || rejected then .unavailable
      else if 0 < openCount then .degraded else .ok
    ready := anyAvailable && !rejected
    openCircuitCount := openCount
    configuredAPIKey := s.ambient.providerConfigured .openRouter ||
      s.ambient.providerConfigured .cerebras || s.ambient.providerConfigured .groq
    defaultExecutor := cfg.defaultPolicyProvider.text
    profiles := s.policy.model.profiles
    failureThreshold := cfg.breaker.failureThreshold
    cooldownSeconds := cfg.breaker.cooldown.tdiv Time.second
    requestTimeoutSecs := cfg.breaker.requestTimeout.tdiv Time.second
    policyName := s.policy.name
    policyDSLVersion := s.policy.dslVersion
    policyHash := s.policy.hash
    policyVocabHash := s.policy.vocabularyHash
    modelPolicy := s.policy.model
    providers := providers
    circuits := circuits
    quotas := quotas.insertionSort fun x y => quotaKeyString x.key ≤ quotaKeyString y.key
    timestamp := now }

/-- `Health`; reading the buckets may drop some of them. -/
def health : QuotaLedger × ProxyHealth :=
  let env := newScoreEnv cfg.scores now s.service.scoreAttempts
  let (l, providers) := s.providerSnapshots cfg env [.openRouter, .cerebras, .groq] s.service.quota
  let (l, keys) := l.keys now
  let (l, quotas) := l.collect now keys
  (l, s.report cfg now providers quotas)

end Installation

/-! ## The report reads the ledger through `reported` -/

section Reading

variable (now : Time)

def publicQuota (provider : ProviderID) (snapshots : List QuotaSnapshot) :
    List QuotaHealthSnapshot :=
  (snapshots.filter fun q => q.key.provider = provider.text).map QuotaSnapshot.public

theorem quotaHealth_eq (provider : ProviderID) (l : QuotaLedger) :
    Reread now l (l.quotaHealth provider now).1 ∧
      (l.quotaHealth provider now).2 = publicQuota provider (l.reported now) := by
  have hkeys : Reread now l (l.keys now).1 := .keysRead l
  obtain ⟨hread, hlist⟩ :=
    collect_eq now (l.keys now).1 ((l.keys now).2.filter (·.provider = provider.text))
  refine ⟨hkeys.trans hread, congrArg (List.map QuotaSnapshot.public) (hlist.trans ?_)⟩
  rw [funext hkeys.visible]
  unfold reported
  rw [List.filterMap_filter, List.filter_filterMap]
  refine List.filterMap_congr fun k _ => ?_
  cases hq : l.visible now k with
  | none => simp
  | some q => simp [filter_some, visible_key hq]

theorem providerSnapshots_eq (cfg : Settings) (s : Installation) (env : ScoreEnv)
    (providers : List ProviderID) (l : QuotaLedger) :
    Reread env.now l (s.providerSnapshots cfg env providers l).1 ∧
      (s.providerSnapshots cfg env providers l).2 = providers.map fun provider =>
        s.providerSnapshot cfg env provider (publicQuota provider (l.reported env.now)) := by
  induction providers generalizing l with
  | nil => exact ⟨.refl l, rfl⟩
  | cons provider rest ih =>
    obtain ⟨hread, hquota⟩ := quotaHealth_eq env.now provider l
    obtain ⟨hrest, hlist⟩ := ih (l.quotaHealth provider env.now).1
    rw [hread.reported] at hlist
    refine ⟨hread.trans hrest, ?_⟩
    rw [List.map_cons, ← hlist, ← hquota]
    rfl

theorem health_eq (cfg : Settings) (s : Installation) : (s.health cfg now).2 = s.report cfg now
      ([.openRouter, .cerebras, .groq].map fun provider =>
        s.providerSnapshot cfg (newScoreEnv cfg.scores now s.service.scoreAttempts) provider
          (publicQuota provider (s.service.quota.reported now)))
      (s.service.quota.reported now) := by
  obtain ⟨hread, hproviders⟩ := providerSnapshots_eq cfg s
    (newScoreEnv cfg.scores now s.service.scoreAttempts) [.openRouter, .cerebras, .groq]
    s.service.quota
  have hnow : (newScoreEnv cfg.scores now s.service.scoreAttempts).now = now := rfl
  rw [hnow] at hread hproviders
  obtain ⟨-, hquotas⟩ := collect_eq now _ (QuotaLedger.keys _ now).2
  unfold Installation.health
  simp only
  rw [hproviders]
  refine congrArg _ (hquotas.trans ?_)
  rw [funext (Reread.keysRead _).visible]
  exact hread.reported

end Reading

/-! ## Replacing a credential -/

structure Credential where
  text : String
  present : GoString.trimSpace text ≠ ""

namespace Credential

def tag (cfg : Settings) (c : Credential) : String := cfg.fingerprint (trimSpace c.text)

def replace (c c' : Credential) (value : String) : String :=
  if trimSpace value = trimSpace c.text then c'.text else value

/-- Put `c'` where `c` is among the keys that requests use. -/
def replaceIn (c c' : Credential) (cfg : Settings) : Settings :=
  { cfg with
    cerebrasKey := c.replace c' cfg.cerebrasKey
    groqKey := c.replace c' cfg.groqKey
    apiKey := c.replace c' cfg.apiKey }

theorem health_replaceIn (c c' : Credential) (cfg : Settings) (now : Time) (s : Installation) :
    s.health (c.replaceIn c' cfg) now = s.health cfg now := by
  unfold replaceIn
  generalize c.replace c' cfg.cerebrasKey = cerebrasKey
  generalize c.replace c' cfg.groqKey = groqKey
  generalize c.replace c' cfg.apiKey = apiKey
  rfl

theorem replace_blank (c c' : Credential) (value : String) :
    GoString.trimSpace (c.replace c' value) = "" ↔ GoString.trimSpace value = "" := by
  unfold replace
  split
  · next h =>
    rw [h]
    exact iff_of_false c'.present c.present
  · exact Iff.rfl

theorem replace_empty (c c' : Credential) (value : String) :
    c.replace c' value = "" ↔ value = "" := by
  have hblank : ∀ c : Credential, c.text ≠ "" := fun c h => c.present (by rw [h]; rfl)
  unfold replace
  split
  · next h => exact iff_of_false (hblank c') fun heq => c.present (by rw [← h, heq]; rfl)
  · exact Iff.rfl

end Credential

def retagScope (old new scope : String) : String :=
  if scope = taggedScope (publicQuotaScope scope) (some old) then
    taggedScope (publicQuotaScope scope) (some new)
  else scope

def QuotaBucketKey.retag (old new : String) (key : QuotaBucketKey) : QuotaBucketKey :=
  { key with scope := retagScope old new key.scope }

theorem publicQuotaScope_tagged {base : String} (h : ':' ∉ base.toList) (tag : String) :
    publicQuotaScope (taggedScope base (some tag)) = base := by
  have hbase : ∀ c ∈ base.toList, decide (c ≠ ':') = true := by
    intro c hc
    rw [decide_eq_true_eq]
    rintro rfl
    exact h hc
  unfold publicQuotaScope before taggedScope
  simp only [String.toList_append, List.append_assoc]
  rw [List.takeWhile_append_of_pos hbase]
  simp

theorem publicQuotaScope_no_colon (scope : String) : ':' ∉ (publicQuotaScope scope).toList := by
  unfold publicQuotaScope before
  rw [String.toList_ofList]
  intro h
  simpa using List.mem_takeWhile_imp h

theorem publicQuotaScope_retag (old new scope : String) :
    publicQuotaScope (retagScope old new scope) = publicQuotaScope scope := by
  unfold retagScope
  split
  · exact publicQuotaScope_tagged (publicQuotaScope_no_colon scope) new
  · rfl

theorem retagScope_retag (old new scope : String) :
    retagScope old new (retagScope old new scope) = retagScope old new scope := by
  have hnew : ∀ scope, scope = taggedScope (publicQuotaScope scope) (some new) →
      retagScope old new scope = scope := by
    intro scope h
    unfold retagScope
    split
    · exact h.symm
    · rfl
  by_cases h : scope = taggedScope (publicQuotaScope scope) (some old)
  · apply hnew
    rw [publicQuotaScope_retag]
    exact if_pos h
  · have hsame : retagScope old new scope = scope := if_neg h
    rw [hsame, hsame]

theorem retag_retag (old new : String) (key : QuotaBucketKey) :
    (key.retag old new).retag old new = key.retag old new := by
  unfold QuotaBucketKey.retag
  simp only [retagScope_retag]

/-- `s'` is `s` with `c'` for `c`, in the environment, the vault and the scopes of the buckets. -/
structure Replaced (cfg : Settings) (c c' : Credential) (s s' : Installation) : Prop where
  service : s'.service = { s.service with quota := s'.service.quota }
  buckets : Renamed (QuotaBucketKey.retag (c.tag cfg) (c'.tag cfg)) s.service.quota s'.service.quota
  env : ∀ name, s'.ambient.env name = c.replace c' (s.ambient.env name)
  managed : ∀ provider, s'.ambient.managed provider =
    (s.ambient.managed provider).map (c.replace c')
  providerAttempts : s'.providerAttempts = s.providerAttempts
  policy : s'.policy = s.policy

namespace Replaced

variable {cfg : Settings} {c c' : Credential} {s s' : Installation} (h : Replaced cfg c c' s s')
include h

theorem providerConfigured (provider : ProviderID) :
    s'.ambient.providerConfigured provider = s.ambient.providerConfigured provider := by
  have henv : ∀ name, (s'.ambient.envValue name != "") = (s.ambient.envValue name != "") := by
    intro name
    unfold Ambient.envValue
    rw [h.env, Bool.eq_iff_iff, bne_iff_ne, bne_iff_ne, Ne, Ne, Credential.replace_blank]
  have hsome : (s'.ambient.managed .openRouter).isSome = (s.ambient.managed .openRouter).isSome := by
    rw [h.managed, isSome_map]
  have hmanaged : ∀ provider, s'.ambient.ambientProviderCredentialConfigured provider =
      s.ambient.ambientProviderCredentialConfigured provider := by
    intro provider
    unfold Ambient.ambientProviderCredentialConfigured
    rw [h.managed]
    cases s.ambient.managed provider with
    | none => rfl
    | some secret =>
      rw [map_some, any_some, any_some, Bool.eq_iff_iff, bne_iff_ne, bne_iff_ne,
        Ne, Ne, Credential.replace_empty]
  cases provider <;>
    simp only [Ambient.providerConfigured, Ambient.ambientKeyConfigured, henv, hsome, hmanaged]

theorem report (now : Time) (providers : List ProviderSnapshot) (quotas : List QuotaSnapshot) :
    s'.report cfg now providers quotas = s.report cfg now providers quotas := by
  unfold Installation.report Installation.breakerSnapshots
  simp only [h.providerConfigured, h.policy]
  rw [h.service]
  rfl

theorem providerSnapshot (now : Time) (provider : ProviderID) (quota : List QuotaHealthSnapshot) :
    s'.providerSnapshot cfg (newScoreEnv cfg.scores now s'.service.scoreAttempts) provider quota =
      s.providerSnapshot cfg (newScoreEnv cfg.scores now s.service.scoreAttempts) provider quota := by
  unfold Installation.providerSnapshot Installation.providerReliability
  simp only [h.providerConfigured, h.policy, h.providerAttempts]
  rw [h.service]

end Replaced

/-- Replacing a credential changes the report exactly if it changes the key of a bucket still
reported. -/
theorem health_alike_iff {cfg : Settings} {c c' : Credential} {s s' : Installation}
    (h : Replaced cfg c c' s s') (now : Time) :
    (s'.health (c.replaceIn c' cfg) now).2 = (s.health cfg now).2 ↔
      ∀ q ∈ s.service.quota.reported now, q.key.retag (c.tag cfg) (c'.tag cfg) = q.key := by
  rw [Credential.health_replaceIn]
  constructor
  · intro heq q hq
    have hquotas := congrArg ProxyHealth.quotas heq
    rw [health_eq, health_eq] at hquotas
    have hsame : (s'.service.quota.reported now).Perm (s.service.quota.reported now) :=
      (List.perm_insertionSort _ _).symm.trans
        ((List.Perm.of_eq hquotas).trans (List.perm_insertionSort _ _))
    -- a key that the other ledger has is a renamed one, and renaming it again changes nothing
    have hmem := h.buckets.reported_perm.mem_iff.mp (hsame.mem_iff.mpr hq)
    obtain ⟨q0, -, rfl⟩ := List.mem_map.mp hmem
    exact retag_retag _ _ q0.key
  · intro hfixed
    rw [health_eq, health_eq, h.report, h.buckets.reported_eq_of_fixed hfixed]
    simp only [h.providerSnapshot]

def demoInstallation (groqKey user : String) : Installation where
  service := ⟨((new 0).observe
      ⟨"groq", credentialQuotaScope demoSettings "model" user, "m", .requests, .day⟩
      ⟨10, 5, 100, .providerHeader, .authoritative, 1⟩ 1).1, ∅, ∅, ∅, 0⟩
  providerAttempts := ∅
  ambient := ⟨fun name => if name = "GROQ_API_KEY" then groqKey else "", fun _ => none⟩
  policy := ⟨[], "", "", "", "", ⟨"default", [], [], false, []⟩⟩

theorem demo_replaced {user user' : String}
    (h : Renamed (QuotaBucketKey.retag "a" "b") (demoInstallation "a" user).service.quota
      (demoInstallation "b" user').service.quota) :
    Replaced demoSettings ⟨"a", by decide⟩ ⟨"b", by decide⟩ (demoInstallation "a" user)
      (demoInstallation "b" user') where
  service := rfl
  buckets := h
  env := fun name => by
    show (if name = "GROQ_API_KEY" then "b" else "") =
      Credential.replace _ _ (if name = "GROQ_API_KEY" then "a" else "")
    split <;> decide
  managed := fun _ => rfl
  providerAttempts := rfl
  policy := rfl

theorem health_alike_other_credential :
    (demoInstallation "a" "user").service.quota.reported 2 ≠ [] ∧
      ((demoInstallation "b" "user").health demoSettings 2).2 =
        ((demoInstallation "a" "user").health demoSettings 2).2 := by
  have hrenamed : Renamed (QuotaBucketKey.retag "a" "b") (demoInstallation "a" "user").service.quota
      (demoInstallation "b" "user").service.quota := ⟨fun _ => rfl, rfl, by decide +kernel⟩
  have hsame := (health_alike_iff (demo_replaced hrenamed) 2).mpr (by decide +kernel)
  rw [Credential.health_replaceIn] at hsame
  exact ⟨by decide +kernel, hsame⟩

/-- The key of a bucket shows whose it is. -/
theorem health_shows_fingerprint :
    Replaced demoSettings ⟨"a", by decide⟩ ⟨"b", by decide⟩ (demoInstallation "a" "a")
        (demoInstallation "b" "b") ∧
      ((demoInstallation "a" "a").health demoSettings 2).2.quotas.map (·.key.scope) = ["model:a"] ∧
      ((demoInstallation "b" "b").health demoSettings 2).2.quotas.map (·.key.scope) = ["model:b"] ∧
      ((demoInstallation "b" "b").health demoSettings 2).2 ≠
        ((demoInstallation "a" "a").health demoSettings 2).2 := by
  have ha : ((demoInstallation "a" "a").health demoSettings 2).2.quotas.map (·.key.scope) =
      ["model:a"] := by decide +kernel
  have hb : ((demoInstallation "b" "b").health demoSettings 2).2.quotas.map (·.key.scope) =
      ["model:b"] := by decide +kernel
  refine ⟨demo_replaced ⟨fun _ => rfl, by decide +kernel, by decide +kernel⟩, ha, hb, fun heq => ?_⟩
  rw [heq, ha] at hb
  exact absurd hb (by decide)

/-! ## The facts of the policy path -/

namespace Installation

variable (cfg : Settings) (now : Time) (s : Installation)

/-- `healthFacts`: the fields that the policy engine reads, and nothing in the others. -/
def healthFacts : ProxyHealth :=
  let openCount :=
    s.service.modelBreakers.entries.countP (fun e => Time.after e.2.openUntil now) +
      s.service.providerBreakers.entries.countP (fun e => Time.after e.2.openUntil now)
  let anyAvailable := s.policy.knownAttempts.any fun a => s.service.isModelAvailable cfg a now
  let rejected := s.policy.model.strict && !s.policy.model.validationWarnings.isEmpty
  { service := ""
    status := if !anyAvailable || rejected then .unavailable
      else if 0 < openCount then .degraded else .ok
    ready := anyAvailable && !rejected
    openCircuitCount := openCount
    configuredAPIKey := false
    defaultExecutor := ""
    profiles := []
    failureThreshold := 0
    cooldownSeconds := 0
    requestTimeoutSecs := 0
    policyName := ""
    policyDSLVersion := ""
    policyHash := ""
    policyVocabHash := ""
    modelPolicy := ⟨"", [], [], false, []⟩
    providers := []
    circuits := []
    quotas := []
    timestamp := 0 }

def reportedProviders : List ProviderID := [.openRouter, .cerebras, .groq]

def OpenAreReported : Prop :=
  ∀ provider state, s.service.providerBreakers.lookup provider = some state →
    Time.after state.openUntil now = true → provider ∈ reportedProviders

end Installation

/-- The same status, readiness and number of open circuits. -/
structure ProxyHealth.Agrees (h h' : ProxyHealth) : Prop where
  status : h.status = h'.status
  ready : h.ready = h'.ready
  openCircuitCount : h.openCircuitCount = h'.openCircuitCount

section Facts

open Installation

variable (cfg : Settings) (now : Time) (s : Installation)

theorem circuitState_opened (openUntil : Time) :
    circuitState openUntil now = .opened ↔ Time.after openUntil now = true := by
  unfold circuitState
  split
  · next h => exact ⟨fun _ => h, fun _ => rfl⟩
  · next h =>
    refine ⟨fun heq => ?_, fun hopen => absurd hopen h⟩
    split at heq <;> cases heq

theorem breakerSnapshots_opened (env : ScoreEnv) :
    (s.breakerSnapshots env).countP (·.state = .opened) =
      s.service.modelBreakers.entries.countP fun e => Time.after e.2.openUntil env.now := by
  unfold breakerSnapshots
  rw [(List.perm_insertionSort _ _).countP_eq, List.countP_map]
  refine List.countP_congr fun e _ => ?_
  rw [Function.comp_apply, decide_eq_true_iff]
  exact circuitState_opened env.now e.2.openUntil

theorem providerSnapshot_opened (env : ScoreEnv) (provider : ProviderID)
    (quota : List QuotaHealthSnapshot) :
    (s.providerSnapshot cfg env provider quota).state = .opened ↔
      (s.service.providerBreakers.lookup provider).any
        (fun state => Time.after state.openUntil env.now) = true := by
  unfold providerSnapshot
  cases s.service.providerBreakers.lookup provider with
  | none => simp
  | some state => exact circuitState_opened env.now state.openUntil

theorem health_openCircuitCount : (s.health cfg now).2.openCircuitCount =
      s.service.modelBreakers.entries.countP (fun e => Time.after e.2.openUntil now) +
        reportedProviders.countP fun provider =>
          (s.service.providerBreakers.lookup provider).any fun state =>
            Time.after state.openUntil now := by
  rw [health_eq]
  refine congrArg₂ (· + ·) (breakerSnapshots_opened s _) ?_
  rw [List.countP_map]
  refine List.countP_congr fun provider _ => ?_
  rw [Function.comp_apply, decide_eq_true_iff]
  exact providerSnapshot_opened cfg s _ provider _

theorem healthFacts_openCircuitCount :
    (s.healthFacts cfg now).openCircuitCount = (s.health cfg now).2.openCircuitCount +
      s.service.providerBreakers.entries.countP fun e =>
        Time.after e.2.openUntil now && decide (e.1 ∉ reportedProviders) := by
  rw [health_openCircuitCount, Nat.add_assoc]
  exact congrArg (_ + ·) (GoMap.countP_entries (fun state => Time.after state.openUntil now)
    (by decide : reportedProviders.Nodup) s.service.providerBreakers)

theorem openAreReported_iff : s.OpenAreReported now ↔
    s.service.providerBreakers.entries.countP (fun e =>
      Time.after e.2.openUntil now && decide (e.1 ∉ reportedProviders)) = 0 := by
  rw [List.countP_eq_zero]
  constructor
  · intro h e he hopen
    rw [Bool.and_eq_true, decide_eq_true_iff] at hopen
    exact hopen.2 (h e.1 e.2 (GoMap.mem_entries.mp he) hopen.1)
  · intro h provider state hstate hopen
    refine Classical.byContradiction fun hnot =>
      h ⟨provider, state⟩ (GoMap.mem_entries.mpr hstate) ?_
    rw [Bool.and_eq_true, decide_eq_true_iff]
    exact ⟨hopen, hnot⟩

/-- The policy path and the health endpoint see the same health exactly if every open circuit of a
provider is one of the three reported. -/
theorem healthFacts_agree_iff :
    (s.healthFacts cfg now).Agrees (s.health cfg now).2 ↔ s.OpenAreReported now := by
  rw [openAreReported_iff]
  have hcount := healthFacts_openCircuitCount cfg now s
  constructor
  · intro h
    have hsame := h.openCircuitCount
    omega
  · intro hnone
    rw [hnone, Nat.add_zero] at hcount
    refine ⟨?_, ?_, hcount⟩
    · -- the two statuses are the same function of the count
      have hfacts : (s.healthFacts cfg now).status =
          if !(s.policy.knownAttempts.any fun a => s.service.isModelAvailable cfg a now) ||
            (s.policy.model.strict && !s.policy.model.validationWarnings.isEmpty) then .unavailable
          else if 0 < (s.healthFacts cfg now).openCircuitCount then .degraded else .ok := rfl
      rw [hfacts, hcount, health_eq]
      rfl
    · rw [health_eq]
      rfl

/-- A model of OpenRouter and one of an Ollama next to the service, which has answered once, with
a 401 of its own. -/
def ollamaDown : Installation where
  service :=
    (⟨.new 0, ∅, ∅, ∅, 0⟩ : RouterService).recordProviderFailure demoSettings
      { demoAttempt with provider := .ollama } 1 401 "provider authentication failed" true 0
  providerAttempts := ∅
  ambient := ⟨fun _ => "", fun _ => none⟩
  policy := ⟨[demoAttempt, { demoAttempt with provider := .ollama }], "", "", "", "",
    ⟨"default", [], [], false, []⟩⟩

/-- The policy path sees a degraded service, the health endpoint a sound one. -/
theorem ollamaDown_disagrees : (ollamaDown.healthFacts demoSettings 2).status = .degraded ∧
      (ollamaDown.health demoSettings 2).2.status = .ok ∧
      (ollamaDown.healthFacts demoSettings 2).openCircuitCount = 1 ∧
      (ollamaDown.health demoSettings 2).2.openCircuitCount = 0 ∧
      ¬(ollamaDown.healthFacts demoSettings 2).Agrees (ollamaDown.health demoSettings 2).2 := by
  have hfacts : (ollamaDown.healthFacts demoSettings 2).openCircuitCount = 1 := by decide +kernel
  have hhealth : (ollamaDown.health demoSettings 2).2.openCircuitCount = 0 := by decide +kernel
  refine ⟨by decide +kernel, by decide +kernel, hfacts, hhealth, fun h => ?_⟩
  have hsame := h.openCircuitCount
  rw [hfacts, hhealth] at hsame
  cases hsame

end Facts

end CalvoProxy
