import CalvoProxy.Router.Keyless
import CalvoProxy.Router.Credentials

/-!
# From the listener to the chain

`proxyHandler` of `cmd/main.go` and `RouteRequestWithProvider` of `router.go`. The process lends its
own keys to requests without one, on a public interface only if the operator said so; otherwise they
do not matter to a request (`ambient_keys_unseen`).
-/

namespace CalvoProxy

open Ambient

/-- Where the process listens; `parseIP` tells the loopback addresses, `lookupIP` the addresses of a
name. -/
structure Listener where
  bindHost : String
  parseIP : String → Option Bool
  lookupIP : String → Option (List Bool)

namespace Listener

variable (l : Listener)

def isLoopbackHost (host : String) : Bool :=
  let h := GoString.trimSpace host
  if h = "" || h = "0.0.0.0" || h = "::" then false
  else if GoString.equalFold h "localhost" then true
  else match l.parseIP h with
    | some loopback => loopback
    | none =>
      match l.lookupIP h with
      | none => false
      | some addrs => !addrs.isEmpty && addrs.all id

def boundToPublicInterface : Bool := !l.isLoopbackHost l.bindHost

end Listener

namespace Ambient

variable (ambient : Ambient)

def switchedOn (name : String) : Bool :=
  ["1", "true", "yes", "on"].contains (GoString.toLower (ambient.envValue name))

def allowEnvKeyOnPublicBind : Bool := ambient.switchedOn "PROXY_ALLOW_ENV_KEY_PUBLIC"

def allowAmbient (l : Listener) : Bool :=
  !l.boundToPublicInterface || ambient.allowEnvKeyOnPublicBind

/-! ## The key of a request -/

def bearerToken (header : String) : String :=
  let value := GoString.trimSpace header
  if GoString.startsWith (GoString.toLower value) "bearer " then
    GoString.trimSpace (String.ofList (value.toList.drop 7))
  else value

def placeholderAPIKey (apiKey : String) : Bool :=
  let normalized := GoString.toLower (GoString.trimSpace apiKey)
  normalized = "" || normalized = "dummy" || normalized = "bearer" ||
    GoString.startsWith normalized "calvoproxy"

def resolveAPIKey (l : Listener) (authorization : String) : String :=
  let apiKey := bearerToken authorization
  if placeholderAPIKey apiKey then
    if l.boundToPublicInterface && !ambient.allowEnvKeyOnPublicBind then ""
    else ambient.directKey "OPENROUTER_API_KEY" .openRouter
  else apiKey

def ambientDirectProviderConfigured (l : Listener) : Bool :=
  if l.boundToPublicInterface && !ambient.allowEnvKeyOnPublicBind then false
  else ambient.envValue "CEREBRAS_API_KEY" != "" || ambient.envValue "GROQ_API_KEY" != "" ||
    (ambient.managed .cerebras).isSome || (ambient.managed .groq).isSome

/-- The key, or the status and text of the refusal. -/
def requirePostAPIKey (l : Listener) (method authorization : String) :
    Except (Int × String) String :=
  if method ≠ "POST" then .error (405, "Method not allowed")
  else
    let apiKey := ambient.resolveAPIKey l authorization
    if apiKey = "" && !ambient.ambientDirectProviderConfigured l then
      .error (401, "API Key required")
    else .ok apiKey

variable (cfg : Settings) (path : String)

/-- The requests in a log; an attempt marks its position and then sends. -/
def sentIn (attempts : List ModelAttempt) : List Effect → Option ModelAttempt → List UpstreamRequest
  | [], _ => []
  | .attempt i :: es, _ => sentIn attempts es attempts[i]?
  | .send _ :: es, current =>
    (current.map (ambient.request cfg path)).toList ++ sentIn attempts es current
  | .ledger _ :: es, current => sentIn attempts es current
  | .breaker _ _ _ :: es, current => sentIn attempts es current
  | .head _ :: es, current => sentIn attempts es current
  | .jsonError _ _ _ :: es, current => sentIn attempts es current

def upstreamRequests (w : World) : List UpstreamRequest :=
  ambient.sentIn cfg path w.attempts w.log none

end Ambient

inductive TunnelScript
  | unbuilt (text : String)
  | unsent (text : String)
  | response (status : Int)

/-- A request, and what happens before its chain runs: whether it is admitted, is read as JSON and
names a known profile, and what the policy decides. -/
structure Incoming where
  method : String
  authorization : String
  path : String
  admitted : Bool
  readable : Bool
  json : Bool
  unknownProfile : Option String
  denied : Option (Int × String)
  tunnel : TunnelScript
  request : Request

inductive Reply
  | error (status : Int) (message : String)
  | relayed (status : Int)
  | chain
deriving DecidableEq

/-- The reply, the requests to the upstreams, and the service with the log of the chain. -/
structure Handled where
  reply : Reply
  requests : List UpstreamRequest
  world : World

def Handled.refuse (w : World) (status : Int) (message : String) : Handled :=
  ⟨.error status message, [], w⟩

def tunnelTo (script : TunnelScript) (url apiKey : String) (w : World) : Handled :=
  match script with
  | .unbuilt text => ⟨.error 502 text, [], w⟩
  | .unsent text => ⟨.error 502 text, [⟨url, apiKey, none⟩], w⟩
  | .response status => ⟨.relayed status, [⟨url, apiKey, none⟩], w⟩

section Route

variable (ambient : Ambient) (cfg : Settings) (r : Incoming)

def routeChain (path : String) (w : World) : Option Handled :=
  (dispatchChain cfg { r.request with messages := path = messagesPath } w).map fun w =>
    ⟨.chain, ambient.upstreamRequests cfg path w, w⟩

def authorized (w : World) (k : Option Handled) : Option Handled :=
  match r.denied with
  | some (status, message) => some (.refuse w status message)
  | none => k

/-- A model that is no profile is refused if the operator wants that. -/
def profiled (w : World) (k : Option Handled) : Option Handled :=
  match r.unknownProfile with
  | some message => some (.refuse w 404 message)
  | none => k

/-- `RouteRequestWithProvider`. -/
def routeRequest (w : World) : Option Handled :=
  if !r.admitted then
    some (.refuse w 503 "Server at capacity (PROXY_MAX_CONCURRENT). Retry shortly.")
  else if !r.readable then some (.refuse w 413 "Request body too large or unreadable")
  else if GoString.contains r.path "embeddings" then
    if !ambient.switchedOn "PROXY_ALLOW_PAID_EMBEDDINGS" then
      some (.refuse w 402 ("/v1/embeddings is disabled: OpenRouter has no free embedding model, " ++
        "so this endpoint spends real credit and is not covered by the model chain, breaker or " ++
        "fallback. Set PROXY_ALLOW_PAID_EMBEDDINGS=true to allow it."))
    else authorized r w
      (some (tunnelTo r.tunnel "https://openrouter.ai/api/v1/embeddings" cfg.apiKey w))
  else if GoString.contains r.path "messages" then
    if !r.json then authorized r w
      (some (tunnelTo r.tunnel ambient.openRouterMessagesURL cfg.apiKey w))
    else profiled r w (authorized r w (routeChain ambient cfg r messagesPath w))
  else if !r.json then some (.refuse w 400 "Invalid JSON")
  else profiled r w (authorized r w (routeChain ambient cfg r "" w))

end Route

/-- `proxyHandler`; `none` when the search for a ticket id never ends. -/
def proxyHandler (l : Listener) (ambient : Ambient) (cfg : Settings) (r : Incoming)
    (s : RouterService) : Option Handled :=
  let w : World := ⟨s, [], [], []⟩
  match ambient.requirePostAPIKey l r.method r.authorization with
  | .error (status, message) => some (.refuse w status message)
  | .ok apiKey =>
    routeRequest ambient (cfg.forRequest ambient (ambient.allowAmbient l) apiKey) r w

/-! ## The keys of the process -/

def ambientKeys : List String := ["OPENROUTER_API_KEY", "CEREBRAS_API_KEY", "GROQ_API_KEY"]

/-- The environments differ in the keys of the process only. -/
def SameButKeys (a b : Ambient) : Prop := ∀ name, name ∉ ambientKeys → a.env name = b.env name

namespace SameButKeys

variable {a b : Ambient} {l : Listener}

section

variable (h : SameButKeys a b)
include h

theorem envValue (name : String) (hname : name ∉ ambientKeys) :
    a.envValue name = b.envValue name := by
  unfold Ambient.envValue
  rw [h name hname]

theorem switchedOn (name : String) (hname : name ∉ ambientKeys) :
    a.switchedOn name = b.switchedOn name := by
  unfold Ambient.switchedOn
  rw [h.envValue name hname]

theorem openRouterMessagesURL : a.openRouterMessagesURL = b.openRouterMessagesURL := by
  unfold Ambient.openRouterMessagesURL
  rw [h.envValue "PROXY_OPENROUTER_MESSAGES_URL" (by decide),
    h.envValue "PROXY_OPENROUTER_URL" (by decide)]

theorem resolve (attempt : ModelAttempt) (path : String) :
    a.resolve attempt path = b.resolve attempt path := by
  have hurl : ∀ name ∉ ambientKeys, a.targetURL name = b.targetURL name := by
    intro name hname
    funext fallback
    unfold targetURL
    rw [h.envValue name hname]
  unfold Ambient.resolve Ambient.providerURL Ambient.providerURL.openRouterURL
    cerebrasURL groqURL ollamaURL openRouterChatURL
  rw [h.envValue "PROXY_AGENTIC_URL" (by decide), h.openRouterMessagesURL,
    hurl "PROXY_OPENROUTER_URL" (by decide), hurl "PROXY_CEREBRAS_URL" (by decide),
    hurl "PROXY_GROQ_URL" (by decide), hurl "PROXY_OLLAMA_URL" (by decide),
    hurl "PROXY_ANTHROPIC_URL" (by decide), hurl "PROXY_OPENAI_URL" (by decide)]

end

theorem requirePostAPIKey (hpublic : l.boundToPublicInterface = true)
    (ha : a.allowEnvKeyOnPublicBind = false) (hb : b.allowEnvKeyOnPublicBind = false)
    (method authorization : String) :
    a.requirePostAPIKey l method authorization = b.requirePostAPIKey l method authorization := by
  unfold Ambient.requirePostAPIKey Ambient.resolveAPIKey Ambient.ambientDirectProviderConfigured
  simp only [hpublic, ha, hb, Bool.not_false, Bool.and_self, if_true]

variable (cfg : Settings) (apiKey : String)

theorem dispatchChain (r : Request) (w : World) :
    dispatchChain (cfg.forRequest a false apiKey) r w =
      dispatchChain (cfg.forRequest b false apiKey) r w := by
  have hkeyless : ∀ ambient : Ambient,
      CalvoProxy.dispatchChain (cfg.forRequest ambient false apiKey).withoutKeys r w =
        CalvoProxy.dispatchChain (cfg.forRequest ambient false apiKey) r w :=
    fun _ => dispatchChain_withoutKeys rfl r w
  exact (hkeyless a).symm.trans (hkeyless b)

variable (h : SameButKeys a b)
include h

theorem request (path : String) : a.request (cfg.forRequest a false apiKey) path =
      b.request (cfg.forRequest b false apiKey) path := by
  funext attempt
  have hkeyless : ∀ ambient : Ambient,
      (cfg.forRequest ambient false apiKey).withoutKeys.providerCredential attempt =
        (cfg.forRequest ambient false apiKey).providerCredential attempt :=
    fun _ => Settings.providerCredential_withoutKeys rfl attempt
  unfold Ambient.request
  rw [h.resolve, ← hkeyless a, ← hkeyless b]
  rfl

theorem upstreamRequests (path : String) (w : World) :
    a.upstreamRequests (cfg.forRequest a false apiKey) path w =
      b.upstreamRequests (cfg.forRequest b false apiKey) path w := by
  have hlog : ∀ es current, a.sentIn (cfg.forRequest a false apiKey) path w.attempts es current =
        b.sentIn (cfg.forRequest b false apiKey) path w.attempts es current := by
    intro es
    induction es with
    | nil => exact fun _ => rfl
    | cons e es ih =>
      intro current
      cases e <;> simp only [sentIn, ih, h.request]
  exact hlog w.log none

theorem routeRequest (r : Incoming) (w : World) :
    routeRequest a (cfg.forRequest a false apiKey) r w =
      routeRequest b (cfg.forRequest b false apiKey) r w := by
  have hchain : ∀ path, routeChain a (cfg.forRequest a false apiKey) r path w =
      routeChain b (cfg.forRequest b false apiKey) r path w := by
    intro path
    unfold routeChain
    simp only [h.upstreamRequests cfg apiKey]
    exact congrArg _ (dispatchChain cfg apiKey _ w)
  unfold CalvoProxy.routeRequest
  rw [h.switchedOn "PROXY_ALLOW_PAID_EMBEDDINGS" (by decide), h.openRouterMessagesURL, hchain,
    hchain]
  rfl

end SameButKeys

/-- On a public interface, unless the operator has opted in, the keys of the process make no
difference to a request: it is turned away or accepted alike, with the same requests upstream and
the same state after it. -/
theorem ambient_keys_unseen (l : Listener) {a b : Ambient} (h : SameButKeys a b)
    (hpublic : l.boundToPublicInterface = true) (hclosed : a.allowEnvKeyOnPublicBind = false)
    (cfg : Settings) (r : Incoming) (s : RouterService) :
    proxyHandler l a cfg r s = proxyHandler l b cfg r s := by
  have hclosed' : b.allowEnvKeyOnPublicBind = false :=
    (h.switchedOn "PROXY_ALLOW_ENV_KEY_PUBLIC" (by decide)).symm.trans hclosed
  have hforbidden : ∀ ambient : Ambient, ambient.allowEnvKeyOnPublicBind = false →
      ambient.allowAmbient l = false := by
    intro ambient hambient
    unfold allowAmbient
    rw [hpublic, hambient]
    rfl
  unfold proxyHandler
  simp only [SameButKeys.requirePostAPIKey hpublic hclosed hclosed', hforbidden a hclosed,
    hforbidden b hclosed', h.routeRequest]

/-- A chat request with a key, for a process that listens on all interfaces. -/
def demoIncoming (authorization : String) : Incoming where
  method := "POST"
  authorization := authorization
  path := "/v1/chat/completions"
  admitted := true
  readable := true
  json := true
  unknownProfile := none
  denied := none
  tunnel := .response 200
  request := demoRequest connectionReset

def publicListener : Listener := ⟨"0.0.0.0", fun _ => none, fun _ => none⟩

def demoKeys : Ambient where
  env := fun name => if name ∈ ambientKeys then "ambient" else ""
  managed := fun _ => some "vault"

/-- The request with a key is sent, the one without is refused, as if the process had no keys. -/
theorem keyed_process_unseen : (∀ authorization ∈ ["Bearer sk-or", ""],
      proxyHandler publicListener demoKeys demoSettings (demoIncoming authorization)
          demoWorld.service =
        proxyHandler publicListener ⟨fun _ => "", fun _ => none⟩ demoSettings
          (demoIncoming authorization) demoWorld.service) ∧
      (proxyHandler publicListener demoKeys demoSettings (demoIncoming "Bearer sk-or")
        demoWorld.service).map Handled.requests =
        some [⟨"https://openrouter.ai/api/v1/chat/completions", "sk-or", some "m"⟩,
          ⟨"https://openrouter.ai/api/v1/chat/completions", "sk-or", some "n"⟩] ∧
      (proxyHandler publicListener demoKeys demoSettings (demoIncoming "")
        demoWorld.service).map Handled.reply = some (.error 401 "API Key required") := by
  have hsame : SameButKeys demoKeys ⟨fun _ => "", fun _ => none⟩ := fun name hname => if_neg hname
  refine ⟨fun authorization _ => ?_, by decide +kernel, by decide +kernel⟩
  exact ambient_keys_unseen publicListener hsame (by decide) (by decide) demoSettings _ _

end CalvoProxy
