import CalvoProxy.Router.Service

/-!
# The environment

Environment variables and the credential vault decide which credential an attempt carries
(`router_provider_registry.go`) and where it is sent (`router_targets.go`).
-/

namespace CalvoProxy

/-- The credentials of the process: environment variables, and the vault of `calvoproxy login`. -/
structure Ambient where
  env : String → String
  managed : ProviderID → Option String

namespace Ambient

variable (ambient : Ambient)

def envValue (name : String) : String := GoString.trimSpace (ambient.env name)

/-- `AmbientKeyPresent` as the binary sets it. -/
def ambientKeyConfigured : Bool :=
  ambient.envValue "OPENROUTER_API_KEY" != "" || (ambient.managed .openRouter).isSome

def ambientProviderCredentialConfigured (provider : ProviderID) : Bool :=
  (ambient.managed provider).any (· != "")

def providerConfigured : ProviderID → Bool
  | .cerebras =>
    ambient.envValue "CEREBRAS_API_KEY" != "" ||
      ambient.ambientProviderCredentialConfigured .cerebras
  | .groq =>
    ambient.envValue "GROQ_API_KEY" != "" || ambient.ambientProviderCredentialConfigured .groq
  | _ => ambient.ambientKeyConfigured

def resolvedAmbientProviderCredential (provider : ProviderID) : String :=
  match ambient.managed provider with
  | none => ""
  | some secret => GoString.trimSpace secret

def directKey (name : String) (provider : ProviderID) : String :=
  let key := ambient.envValue name
  if key = "" then ambient.resolvedAmbientProviderCredential provider else key

end Ambient

def Settings.forRequest (cfg : Settings) (ambient : Ambient) (allowed : Bool) (apiKey : String) :
    Settings :=
  { cfg with
    ambientAllowed := allowed
    cerebrasKey := ambient.directKey "CEREBRAS_API_KEY" .cerebras
    groqKey := ambient.directKey "GROQ_API_KEY" .groq
    apiKey := apiKey }

def chatCompletionsPath : String := "/v1/chat/completions"
def messagesPath : String := "/v1/messages"

structure AttemptTarget where
  url : String
  agentic : Bool
deriving DecidableEq

namespace Ambient

variable (ambient : Ambient)

def targetURL (name fallback : String) : String :=
  let value := ambient.envValue name
  if value ≠ "" then value else fallback

def openRouterChatURL : String :=
  ambient.targetURL "PROXY_OPENROUTER_URL" "https://openrouter.ai/api/v1/chat/completions"

/-- The setting, or what the one for chat suggests, or the default. -/
def openRouterMessagesURL : String :=
  let url := ambient.envValue "PROXY_OPENROUTER_MESSAGES_URL"
  if url ≠ "" then url
  else
    let chat := ambient.envValue "PROXY_OPENROUTER_URL"
    if chat = "" then "https://openrouter.ai/api/v1/messages"
    else if GoString.contains chat "/chat/completions" then
      String.ofList (GoString.replaceFirst "/chat/completions".toList "/messages".toList chat.toList)
    else GoString.trimRight chat '/' ++ "/messages"

def cerebrasURL : String :=
  ambient.targetURL "PROXY_CEREBRAS_URL" "https://api.cerebras.ai/v1/chat/completions"

def groqURL : String :=
  ambient.targetURL "PROXY_GROQ_URL" "https://api.groq.com/openai/v1/chat/completions"

def ollamaURL (path : String) : String :=
  ambient.targetURL "PROXY_OLLAMA_URL" "http://ollama:11434" ++ path

/-- A provider without a rule is taken for OpenRouter. -/
def providerURL (provider : ProviderID) (path : String) : String :=
  match provider with
  | .cerebras => ambient.cerebrasURL
  | .groq => ambient.groqURL
  | .ollama => ambient.ollamaURL path
  | .localModel => ambient.ollamaURL path
  | .openRouter => openRouterURL
  | .other text =>
    if text = "anthropic" then
      ambient.targetURL "PROXY_ANTHROPIC_URL" "https://api.anthropic.com" ++ path
    else if text = "openai" then
      ambient.targetURL "PROXY_OPENAI_URL" "https://api.openai.com" ++ path
    else openRouterURL
where
  openRouterURL : String :=
    if path = messagesPath then ambient.openRouterMessagesURL else ambient.openRouterChatURL

def isAgenticProfile (profile : String) : Bool :=
  profile = "agent" || profile = "agentic" || profile = "plan"

/-- `Resolve`: the agentic profiles go to an endpoint of their own if one is set. -/
def resolve (attempt : ModelAttempt) (path : String) : AttemptTarget :=
  let agentic := ambient.envValue "PROXY_AGENTIC_URL"
  if isAgenticProfile attempt.profile && agentic != "" then ⟨agentic, true⟩
  else ⟨ambient.providerURL attempt.provider path, false⟩

end Ambient

end CalvoProxy
