import CalvoProxy.Lib.GoString
import CalvoProxy.Lib.OneShot

/-!
# The callback server of a login

`startCallbackServer` of `cmd/login.go` delivers the first callback that it can attribute to this
login. With a required state, that is the first decisive one with this state, whatever else is sent
(`stray_callbacks_ignored`).
-/

namespace CalvoProxy

structure CallbackRequest where
  method : String
  path : String
  /-- the path is in the form that the mux serves; it redirects the others -/
  canonical : Bool
  /-- the decoded query, in the order of the request -/
  query : List (String × String)
deriving DecidableEq, Repr

/-- `Values.Get`: the first value of the key, or the empty text. -/
def CallbackRequest.get (r : CallbackRequest) (key : String) : String :=
  (r.query.lookup key).getD ""

inductive CallbackResult
  | code (code : String)
  | denied
deriving DecidableEq, Repr

inductive CallbackPage
  | notFound
  | moved
  | closeTab (msg : String)
deriving DecidableEq, Repr

def isCodeChar (c : Char) : Bool :=
  ('a' ≤ c && c ≤ 'z') || ('A' ≤ c && c ≤ 'Z') || ('0' ≤ c && c ≤ '9') || c = '-' || c = '_' ||
    c = '.' || c = '~'

def validAuthCode (code : String) : Bool :=
  if code = "" || 512 < code.utf8ByteSize then false else code.toList.all isCodeChar

/-- `requireState`, from the value of `PROXY_OAUTH_REQUIRE_STATE`. -/
def requireState (value : String) : Bool :=
  let value := GoString.toLower (GoString.trimSpace value)
  !(value = "0" || value = "false" || value = "no" || value = "off")

structure CallbackServer where
  secret : String
  expectedState : String
  /-- the value of `PROXY_OAUTH_REQUIRE_STATE` -/
  stateSetting : String
deriving DecidableEq, Repr

namespace CallbackServer

variable (server : CallbackServer)

def callbackPath : String := "/callback/" ++ server.secret

variable (r : CallbackRequest)

def handle : CallbackPage × Option CallbackResult :=
  if r.method ≠ "GET" then (.notFound, none)
  else
    let stateOK : Bool := r.get "state" = server.expectedState
    if r.get "state" ≠ "" ∧ stateOK = false then (.closeTab "State check failed.", none)
    else if r.get "error" ≠ "" then
      if stateOK = false then (.closeTab "Ignoring an unattributed callback.", none)
      else (.closeTab "Authorization was denied.", some .denied)
    else
      let code := r.get "code"
      if validAuthCode code = false then (.closeTab "Missing authorization code.", none)
      else if stateOK = false ∧ requireState server.stateSetting = true then
        (.closeTab "Ignoring a callback with no matching state.", none)
      else (.closeTab "Login complete ✓", some (.code code))

/-- The mux: only the secret path has a handler that delivers. -/
def route : CallbackPage × Option CallbackResult :=
  if r.method ≠ "CONNECT" ∧ r.canonical = false then (.moved, none)
  else if r.path = server.callbackPath then server.handle r
  else (.notFound, none)

def serve (requests : List CallbackRequest) : OneShot.Cell CallbackResult :=
  requests.foldl (fun cell r => cell.offerOpt (server.route r).2) .new

/-! ## Decisive callbacks -/

def Carries : Prop := r.query.lookup "state" = some server.expectedState

instance (r : CallbackRequest) : Decidable (server.Carries r) :=
  inferInstanceAs (Decidable (r.query.lookup "state" = some server.expectedState))

/-- A `GET` on the secret path with the expected state and an error or a well formed code. -/
def Decisive : Prop :=
  r.method = "GET" ∧ r.canonical = true ∧ r.path = server.callbackPath ∧ server.Carries r ∧
    (r.get "error" ≠ "" ∨ validAuthCode (r.get "code") = true)

instance (r : CallbackRequest) : Decidable (server.Decisive r) :=
  inferInstanceAs (Decidable (_ ∧ _ ∧ _ ∧ server.Carries r ∧ (_ ∨ _)))

def answer : CallbackResult :=
  if r.get "error" ≠ "" then .denied else .code (r.get "code")

variable {server : CallbackServer}

theorem get_state_eq_iff (hstate : server.expectedState ≠ "") (r : CallbackRequest) :
    r.get "state" = server.expectedState ↔ server.Carries r := by
  unfold CallbackRequest.get Carries
  cases r.query.lookup "state" with
  | none => simp [hstate.symm]
  | some value => simp

theorem handle_eq (hrequired : requireState server.stateSetting = true)
    (hstate : server.expectedState ≠ "") (r : CallbackRequest) :
    (server.handle r).2 =
      if r.method = "GET" ∧ server.Carries r ∧
          (r.get "error" ≠ "" ∨ validAuthCode (r.get "code") = true) then
        some (answer r)
      else none := by
  unfold handle
  by_cases hmethod : r.method = "GET"
  · by_cases hcarries : server.Carries r
    · have hok := (get_state_eq_iff hstate r).mpr hcarries
      by_cases herror : r.get "error" = ""
      · cases hcode : validAuthCode (r.get "code") <;>
          simp [hmethod, hok, hcarries, herror, hcode, answer]
      · simp [hmethod, hok, hcarries, herror, answer]
    · -- every way through the handler ends before a delivery
      have hother : r.get "state" ≠ server.expectedState :=
        mt (get_state_eq_iff hstate r).mp hcarries
      simp only [hmethod, hother, hcarries, hrequired, decide_false, and_true, false_and, and_false,
        if_false, if_true, not_true_eq_false, ne_eq]
      split
      · rfl
      · split
        · rfl
        · split <;> rfl
  · simp [hmethod]

theorem route_eq (hrequired : requireState server.stateSetting = true)
    (hstate : server.expectedState ≠ "") (r : CallbackRequest) :
    (server.route r).2 = if server.Decisive r then some (answer r) else none := by
  unfold route Decisive
  by_cases hpath : r.path = server.callbackPath
  · by_cases hcanonical : r.canonical = true
    · simp [hcanonical, hpath, handle_eq hrequired hstate]
    · by_cases hconnect : r.method = "CONNECT"
      · simp [hconnect, hpath, handle_eq hrequired hstate]
      · simp [hconnect, hcanonical]
  · by_cases hmoved : r.method ≠ "CONNECT" ∧ r.canonical = false
    · simp [hmoved, hpath]
    · simp [hmoved, hpath]

/-- The login gets the answer of the first decisive callback, whatever else comes without the
state. -/
theorem stray_callbacks_ignored (server : CallbackServer)
    (hrequired : requireState server.stateSetting = true) (hstate : server.expectedState ≠ "")
    (requests extended : List CallbackRequest)
    (h : OneShot.Inserted (fun r => ¬server.Carries r) requests extended) :
    (server.serve extended).sent = (server.serve requests).sent ∧ (server.serve requests).sent =
        ((requests.find? fun r => server.Decisive r).map answer).toList ∧
      (server.serve requests).sent.length ≤ 1 := by
  have hstray : ∀ r, ¬server.Carries r → (server.route r).2 = none := by
    intro r hr
    rw [route_eq hrequired hstate, if_neg fun hdecisive => hr hdecisive.2.2.2.1]
  have hfirst : (server.serve requests).sent =
      ((requests.find? fun r => server.Decisive r).map answer).toList := by
    unfold serve
    rw [OneShot.Cell.sent_foldl, funext (route_eq hrequired hstate)]
    exact congrArg Option.toList (OneShot.findSome?_ite _ _ requests)
  refine ⟨?_, hfirst, ?_⟩
  · unfold serve
    rw [OneShot.Cell.sent_foldl, OneShot.Cell.sent_foldl, h.findSome?_eq hstray]
  · rw [hfirst]
    exact Option.length_toList_le

/-- A callback of its own after one with a foreign code. -/
theorem foreign_code_ignored : let server : CallbackServer := ⟨"s3cret", "st4te", ""⟩
    let own : CallbackRequest :=
      ⟨"GET", "/callback/s3cret", true, [("code", "abc"), ("state", "st4te")]⟩
    let foreign : CallbackRequest := ⟨"GET", "/callback/s3cret", true, [("code", "evil")]⟩
    (server.serve [foreign, own]).sent = [.code "abc"] := by
  intro server own foreign
  obtain ⟨hsame, hfirst, -⟩ := stray_callbacks_ignored server (by decide) (by decide) [own]
    [foreign, own] (.insert (by decide) (.keep own .nil))
  rw [hsame, hfirst]
  decide

end CallbackServer

end CalvoProxy
