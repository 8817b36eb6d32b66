import CalvoProxy.Router.Environment
import CalvoProxy.Router.Answers

/-!
# Which credential goes where

`providerCredential` chooses the credential of an attempt and `Resolve` the place it is sent to.
They agree for every provider, except that `Resolve` looks for the endpoint of the agentic profiles
first (`credential_routed_iff`).
-/

namespace CalvoProxy

open List

variable {attempt : ModelAttempt} {x : Script} {reserveFallback : Option ReserveFallback}
  {w : World}

/-- The credential of the request, which is for OpenRouter, a key of the process, or the marker for
a local model. -/
inductive CredentialSource
  | request
  | cerebras
  | groq
  | localResource
deriving DecidableEq, Repr

def CredentialSource.endpoints (ambient : Ambient) (path : String) : CredentialSource → List String
  | .request => [ambient.openRouterChatURL, ambient.openRouterMessagesURL]
  | .cerebras => [ambient.cerebrasURL]
  | .groq => [ambient.groqURL]
  | .localResource => [ambient.ollamaURL path]

namespace Settings

variable (cfg : Settings) (attempt : ModelAttempt)

def credentialSource : Option CredentialSource :=
  match attempt.provider with
  | .cerebras => if cfg.ambientAllowed then some .cerebras else none
  | .groq => if cfg.ambientAllowed then some .groq else none
  | .ollama => if cfg.ambientAllowed then some .localResource else none
  | .localModel => if cfg.ambientAllowed then some .localResource else none
  | _ => if cfg.normalizedProvider attempt = .openRouter then some .request else none

def key : CredentialSource → String
  | .request => GoString.trimSpace cfg.apiKey
  | .cerebras => cfg.cerebrasKey
  | .groq => cfg.groqKey
  | .localResource => "local"

theorem providerCredential_eq :
    cfg.providerCredential attempt = ((cfg.credentialSource attempt).map cfg.key).getD "" := by
  unfold providerCredential credentialSource
  cases attempt.provider <;> simp only <;> split <;> rfl

theorem credentialSource_of_configured (h : cfg.configured attempt = true) :
    ∃ source, cfg.credentialSource attempt = some source := by
  unfold configured at h
  rw [providerCredential_eq] at h
  cases hsource : cfg.credentialSource attempt with
  | none => simp [hsource] at h
  | some source => exact ⟨source, rfl⟩

theorem providerURL_of_openRouter (ambient : Ambient) (path : String)
    (h : cfg.normalizedProvider attempt = .openRouter) :
    ambient.providerURL attempt.provider path = Ambient.providerURL.openRouterURL ambient path := by
  unfold normalizedProvider at h
  split at h
  · rw [h]
    rfl
  · next hblank =>
    have htext : attempt.provider.text = "" := by simpa using hblank
    cases hprovider : attempt.provider with
    | other text =>
      rw [hprovider] at htext
      simp only [ProviderID.text] at htext
      subst htext
      rfl
    | _ => simp [hprovider, ProviderID.text] at htext

theorem providerURL_mem_endpoints (ambient : Ambient) (path : String) {source : CredentialSource}
    (h : cfg.credentialSource attempt = some source) :
    ambient.providerURL attempt.provider path ∈ source.endpoints ambient path := by
  have hrequest : cfg.normalizedProvider attempt = .openRouter → source = .request →
      ambient.providerURL attempt.provider path ∈ source.endpoints ambient path := by
    rintro hnormal rfl
    rw [providerURL_of_openRouter cfg attempt ambient path hnormal]
    simp only [Ambient.providerURL.openRouterURL, CredentialSource.endpoints]
    split
    · exact mem_cons_of_mem _ mem_cons_self
    · exact mem_cons_self
  unfold credentialSource at h
  cases hprovider : attempt.provider with
  | cerebras | groq | ollama | localModel =>
    simp only [hprovider, Option.ite_none_right_eq_some, Option.some.injEq] at h
    exact h.2 ▸ mem_singleton_self _
  | openRouter | other text =>
    simp only [hprovider, Option.ite_none_right_eq_some, Option.some.injEq] at h
    exact hprovider ▸ hrequest h.1 h.2.symm

end Settings

structure UpstreamRequest where
  url : String
  bearer : String
  model : Option String
deriving DecidableEq

namespace Ambient

variable (ambient : Ambient) (cfg : Settings) (path : String)

def opPath : String := if path = "" then chatCompletionsPath else path

def request (attempt : ModelAttempt) : UpstreamRequest :=
  ⟨(ambient.resolve attempt (opPath path)).url, cfg.providerCredential attempt, some attempt.model⟩

def attemptRequests (x : Script) (reserveFallback : Option ReserveFallback) (attempt : ModelAttempt)
    (w : World) : Option (List UpstreamRequest) :=
  (executeAttempt cfg x reserveFallback attempt w).map fun r =>
    (r.1.sent.drop w.sent.length).map fun _ => ambient.request cfg path attempt

/-- The request carries a credential to an endpoint that it is for. -/
def Routed (attempt : ModelAttempt) (r : UpstreamRequest) : Prop :=
  ∃ source, cfg.credentialSource attempt = some source ∧ r.bearer = cfg.key source ∧
    r.url ∈ source.endpoints ambient (opPath path)

/-- The attempt goes to the agentic endpoint, for which its credential is not. -/
def Diverted (attempt : ModelAttempt) : Prop :=
  isAgenticProfile attempt.profile = true ∧ ambient.envValue "PROXY_AGENTIC_URL" ≠ "" ∧
    ∀ source, cfg.credentialSource attempt = some source →
      ambient.envValue "PROXY_AGENTIC_URL" ∉ source.endpoints ambient (opPath path)

theorem routed_iff (h : cfg.configured attempt = true) :
    ambient.Routed cfg path attempt (ambient.request cfg path attempt) ↔
      ¬ambient.Diverted cfg path attempt := by
  obtain ⟨source, hsource⟩ := cfg.credentialSource_of_configured attempt h
  have hbearer : cfg.providerCredential attempt = cfg.key source := by
    rw [cfg.providerCredential_eq, hsource]
    rfl
  have hrouted : ambient.Routed cfg path attempt (ambient.request cfg path attempt) ↔
      (ambient.resolve attempt (opPath path)).url ∈ source.endpoints ambient (opPath path) := by
    constructor
    · rintro ⟨source', hsource', -, hurl⟩
      cases hsource.symm.trans hsource'
      exact hurl
    · exact fun hurl => ⟨source, hsource, hbearer, hurl⟩
  rw [hrouted]
  unfold Diverted resolve
  simp only
  split
  · next hagentic =>
    obtain ⟨hprofile, hset⟩ := Bool.and_eq_true_iff.mp hagentic
    constructor
    · exact fun hurl hdiverted => hdiverted.2.2 source hsource hurl
    · intro hnot
      by_contra hurl
      refine hnot ⟨hprofile, bne_iff_ne.mp hset, fun source' hsource' => ?_⟩
      cases hsource.symm.trans hsource'
      exact hurl
  · next hordinary =>
    refine iff_of_true (cfg.providerURL_mem_endpoints attempt ambient _ hsource) fun hdiverted => ?_
    exact hordinary (Bool.and_eq_true_iff.mpr ⟨hdiverted.1, bne_iff_ne.mpr hdiverted.2.1⟩)

theorem attemptRequests_spec {rs : List UpstreamRequest} {r : UpstreamRequest}
    (h : ambient.attemptRequests cfg path x reserveFallback attempt w = some rs) (hr : r ∈ rs) :
    r = ambient.request cfg path attempt ∧ cfg.configured attempt = true := by
  obtain ⟨⟨w', err⟩, hrun, rfl⟩ := Option.map_eq_some_iff.mp h
  obtain ⟨ticket, hsent, rfl⟩ := mem_map.mp hr
  refine ⟨rfl, ?_⟩
  unfold executeAttempt at hrun
  split at hrun
  · cases hrun
    rw [drop_length] at hsent
    cases hsent
  · next hconfigured => simpa using hconfigured

end Ambient

/-- The credential goes to an endpoint of its own provider exactly if the attempt is not
diverted. -/
theorem credential_routed_iff (cfg : Settings) (ambient : Ambient) (allowed : Bool)
    (apiKey path : String) {rs : List UpstreamRequest} {r : UpstreamRequest}
    (h : ambient.attemptRequests (cfg.forRequest ambient allowed apiKey) path x reserveFallback
      attempt w = some rs) (hr : r ∈ rs) :
    ambient.Routed (cfg.forRequest ambient allowed apiKey) path attempt r ↔
      ¬ambient.Diverted (cfg.forRequest ambient allowed apiKey) path attempt := by
  obtain ⟨rfl, hconfigured⟩ := ambient.attemptRequests_spec _ path h hr
  exact ambient.routed_iff _ path hconfigured

/-- An environment with a key for Groq and an agentic endpoint. -/
def demoAmbient : Ambient where
  env := fun name => if name = "GROQ_API_KEY" then "gsk"
    else if name = "PROXY_AGENTIC_URL" then "http://agent.local" else ""
  managed := fun _ => none

def demoSent (profile : String) (provider : ProviderID) : Option (List UpstreamRequest) :=
  demoAmbient.attemptRequests (demoSettings.forRequest demoAmbient true "sk-or") "" connectionReset
    none { demoAttempt with profile := profile, provider := provider } demoWorld

theorem groq_key_routed : demoSent "default" .groq =
        some [⟨"https://api.groq.com/openai/v1/chat/completions", "gsk", some "m"⟩] ∧
      demoAmbient.Routed (demoSettings.forRequest demoAmbient true "sk-or") ""
        { demoAttempt with profile := "default", provider := .groq }
        ⟨"https://api.groq.com/openai/v1/chat/completions", "gsk", some "m"⟩ := by
  have hsent : demoSent "default" .groq =
      some [⟨"https://api.groq.com/openai/v1/chat/completions", "gsk", some "m"⟩] := by
    decide +kernel
  refine ⟨hsent, (credential_routed_iff demoSettings demoAmbient true "sk-or" "" hsent
    mem_cons_self).mpr fun hdiverted => ?_⟩
  exact nomatch hdiverted.1

/-- The agentic endpoint gets the keys of both providers. -/
theorem agentic_endpoint_gets_keys :
    demoSent "agent" .openRouter = some [⟨"http://agent.local", "sk-or", some "m"⟩] ∧
      demoSent "plan" .groq = some [⟨"http://agent.local", "gsk", some "m"⟩] ∧
      ∀ attempt bearer, ¬demoAmbient.Routed (demoSettings.forRequest demoAmbient true "sk-or") ""
        attempt ⟨"http://agent.local", bearer, some "m"⟩ := by
  have hforeign : ∀ source : CredentialSource,
      "http://agent.local" ∉ source.endpoints demoAmbient (Ambient.opPath "") := by
    intro source
    cases source <;> decide +kernel
  refine ⟨by decide +kernel, by decide +kernel, ?_⟩
  rintro attempt bearer ⟨source, -, -, hurl⟩
  exact hforeign source hurl

end CalvoProxy
