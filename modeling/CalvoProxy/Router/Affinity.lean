import CalvoProxy.Router.Answers
import CalvoProxy.Router.Evidence

/-!
# Which responses a session remembers

`OnSuccess` pins a session to a route, and is documented to run only after a complete response. An
attempt that has committed a stream returns no error however the stream ends, and pins its route as
well (`stalled_stream_pinned`, `pinned_iff_complete_iff`).
-/

namespace CalvoProxy

open List

variable {cfg : Settings} {x : Script} {attempt : ModelAttempt}
  {reserveFallback : Option ReserveFallback} {w w' : World}

/-! ## The calls of the executor -/

inductive Callback
  | onSuccess
  | onFailure
deriving DecidableEq, Repr

structure AttemptCall where
  position : Nat
  attempt : ModelAttempt
  before : World
  after : World
  callback : Callback

/-- What the executor calls when an attempt has returned. -/
def Started.call (e : Started) : Option AttemptCall :=
  e.result.map fun r =>
    ⟨e.position, e.attempt, e.before, r.1, if r.2.isNone then .onSuccess else .onFailure⟩

def executorCalls (cfg : Settings) (x : ChainScript) (execution : FallbackExecution) (w : World) :
    List AttemptCall :=
  (executorRuns cfg x execution w).filterMap Started.call

theorem mem_executorCalls {x : ChainScript} {execution : FallbackExecution} {c : AttemptCall}
    (h : c ∈ executorCalls cfg x execution w) : ∃ reserveFallback err,
      ChainCallback cfg reserveFallback ∧
      executeAttempt cfg (x.attempt c.position) reserveFallback c.attempt c.before =
        some (c.after, err) ∧
      (c.callback = .onSuccess ↔ err = none) := by
  obtain ⟨e, he, hcall⟩ := mem_filterMap.mp h
  obtain ⟨s, i, hstarts⟩ := (chainLoop_run cfg x execution _ _ _).starts e he
  obtain ⟨⟨w', err⟩, hresult, rfl⟩ := Option.map_eq_some_iff.mp hcall
  refine ⟨e.reserveFallback, err, hstarts.callback, hstarts.result.symm.trans hresult, ?_⟩
  cases err <;> simp

/-! ## Complete responses -/

/-- Between `w` and `w'` a stream ended cleanly, or a body was read to its end and is not too
large. -/
def Script.CompleteResponse (cfg : Settings) (x : Script) (w w' : World) : Prop :=
  ∃ resp, x.send = .ok resp ∧ w'.responses = w.responses ++ [.head resp.status] ∧
    if isEventStream (resp.header "Content-Type") then streamCopy resp.stream = .completed
    else resp.buffered.readErr = none ∧ resp.buffered.length ≤ cfg.maxResponseBytes

def Script.StreamCompletes (x : Script) : Prop :=
  ∀ resp, x.buildError = none → x.send = .ok resp → resp.status = 200 →
    isEventStream (resp.header "Content-Type") = true → streamCopy resp.stream = .completed

theorem executeAttempt_unbuilt {e : TransportError} (hbuild : x.buildError = some e) :
    executeAttempt cfg x reserveFallback attempt w ≠ some (w', none) := by
  intro h
  unfold executeAttempt at h
  split at h
  · cases h
  obtain ⟨⟨l, err⟩, hresult, heq⟩ := Option.map_eq_some_iff.mp h
  cases heq
  split at hresult
  · cases hresult
  · unfold Attempt.startRequest at hresult
    rw [hbuild] at hresult
    cases hresult

theorem Script.StreamCompletes.success_iff {err : Option AttemptError}
    (hcompletes : x.StreamCompletes) (hcallback : ChainCallback cfg reserveFallback)
    (h : executeAttempt cfg x reserveFallback attempt w = some (w', err)) :
    err = none ↔ x.CompleteResponse cfg w w' := by
  have hsilent : w'.responses = w.responses → ¬x.CompleteResponse cfg w w' := by
    rintro hsame ⟨resp, -, hhead, -⟩
    rw [hsame] at hhead
    exact absurd hhead.symm (by simp)
  rcases executeAttempt_cases hcallback.harmless h with
    ⟨hnot, message, rfl⟩ | ⟨w1, l, sent, head, o, hadmitted, hends, rfl⟩
  · exact ⟨nofun, fun hcomplete => absurd hcomplete (hsilent hnot.responses)⟩
  have hresponses : l.world.responses = w.responses ++ (head.map Effect.head).toList := by
    have hstart : w1.responses = w.responses := by
      unfold World.responses
      rw [hadmitted.log]
    rw [hends.responses, hstart]
  have hanswered := hends.answered
  have hunanswered : head = none → (err = none ↔ x.CompleteResponse cfg w l.world) := by
    rintro rfl
    refine ⟨fun hnone => ?_, fun hcomplete => absurd hcomplete (hsilent (by simpa using hresponses))⟩
    rw [hnone] at hanswered
    cases hanswered
  have hsuccess : head = some 200 → err = none := by
    rintro rfl
    simpa using hanswered
  cases hends.ending with
  | streamed hsend hstatus hstream =>
    have hbuild : x.buildError = none := by
      cases hbuild : x.buildError with
      | none => rfl
      | some e => exact absurd (hsuccess rfl ▸ h) (executeAttempt_unbuilt hbuild)
    refine ⟨fun _ => ⟨_, hsend, hstatus ▸ hresponses, ?_⟩, fun _ => hsuccess rfl⟩
    rw [if_pos hstream]
    exact hcompletes _ hbuild hsend hstatus hstream
  | delivered hsend hstatus hstream hread hlength =>
    refine ⟨fun _ => ⟨_, hsend, hstatus ▸ hresponses, ?_⟩, fun _ => hsuccess rfl⟩
    rw [if_neg (by simp [hstream])]
    exact ⟨hread, Int.not_lt.mp hlength⟩
  | _ => exact hunanswered rfl

/-! ## A chain that gets to a position -/

def keylessAttempt : ModelAttempt := { demoAttempt with provider := .cerebras }

def ticketedAttempt : ModelAttempt := { demoAttempt with quotaTicket := ⟨some 0, 1⟩ }

def chainTo (i : Nat) : List ModelAttempt := List.replicate i keylessAttempt ++ [ticketedAttempt]

section Reaching

variable {x : ChainScript} {execution : FallbackExecution}

theorem admission_unrecorded {cfg : Settings} {script : Script} {a : ModelAttempt} {w : World}
    (hmodel : w.service.modelBreakers.lookup (cfg.breakerKey a) = none)
    (hprovider : w.service.providerBreakers.lookup a.provider = none) :
    ∃ w1, Attempt.admission cfg script a w = (w1, none) := by
  unfold Attempt.admission
  rw [RouterService.tryStartProvider_eq, hprovider]
  simp only [ModelBreakerState.tryStart, Bool.not_true, Bool.false_eq_true, if_false]
  rw [RouterService.tryStartAttempt_eq]
  simp only [hmodel, ModelBreakerState.tryStart, Bool.not_true, Bool.false_eq_true, if_false]
  exact ⟨_, rfl⟩

theorem executeAttempt_commits {cfg : Settings} {script : Script} {resp : Response}
    {a : ModelAttempt} {w : World} (hbuild : script.buildError = none)
    (hsend : script.send = .ok resp) (hstatus : resp.status = 200)
    (hstream : isEventStream (resp.header "Content-Type") = true)
    (hconfigured : cfg.configured a = true) (hticket : a.quotaTicket.valid = true)
    (hestimate : (a.quotaEstimate.requests ≤ 0 || a.quotaEstimate.tokens ≤ 0) = false)
    (hpatient : cfg.firstEventTimeout = 0)
    (hmodel : w.service.modelBreakers.lookup (cfg.breakerKey a) = none)
    (hprovider : w.service.providerBreakers.lookup a.provider = none) :
    ∃ w', executeAttempt cfg script none a w = some (w', none) := by
  obtain ⟨w1, hadmission⟩ := @admission_unrecorded cfg script a w hmodel hprovider
  unfold executeAttempt
  rw [if_neg (by simp [hconfigured])]
  simp only
  rw [if_neg (by simp [hestimate]), hadmission]
  unfold Attempt.startRequest Attempt.sendRequest Attempt.streamed
  rw [hbuild]
  simp only
  rw [if_pos hticket, hsend]
  simp only
  rw [if_neg (by simp [hstatus]), if_pos hstream, if_neg (by simp [hpatient])]
  exact ⟨_, rfl⟩

theorem chainRuns_keyless {n i : Nat} {s : ChainState}
    (hattempt : s.world.attempts[i]? = some keylessAttempt)
    (hunavailable : s.unavailable = ⟨[], []⟩) (hleft : s.world.unavailable = []) :
    ∃ c lastErr, chainRuns demoSettings x execution (n + 1) i s =
      c :: chainRuns demoSettings x execution n (i + 1)
        { s with world := s.world.emit (.attempt i), lastErr := lastErr } := by
  have hskips : s.world.skips s.unavailable keylessAttempt i = false := by
    simp [World.skips, hunavailable, hleft, quotaPoolUnavailable, keylessAttempt, demoAttempt]
  rw [chainRuns, hattempt]
  simp only
  rw [if_neg (by simp [hskips])]
  exact ⟨_, _, rfl⟩

theorem chainRuns_reaches {i d j : Nat} {s : ChainState} {resp : Response} (hposition : j + d = i)
    (hattempts : s.world.attempts = chainTo i) (hunavailable : s.unavailable = ⟨[], []⟩)
    (hleft : s.world.unavailable = []) (hmodels : s.world.service.modelBreakers = ∅)
    (hproviders : s.world.service.providerBreakers = ∅) (hbuild : (x.attempt i).buildError = none)
    (hsend : (x.attempt i).send = .ok resp) (hstatus : resp.status = 200)
    (hstream : isEventStream (resp.header "Content-Type") = true) :
    ∃ e ∈ chainRuns demoSettings x execution (d + 1) j s,
      e.position = i ∧ ∃ w', e.result = some (w', none) := by
  induction d generalizing j s with
  | zero =>
    obtain rfl : j = i := hposition
    have hattempt : s.world.attempts[j]? = some ticketedAttempt := by simp [hattempts, chainTo]
    have hskips : s.world.skips s.unavailable ticketedAttempt j = false := by
      simp [World.skips, hunavailable, hleft, quotaPoolUnavailable, ticketedAttempt, demoAttempt]
    have hnext : s.world.nextExecutableAttempt s.unavailable j = none := by
      have hremaining : s.world.remaining j = [] :=
        drop_eq_nil_of_le (by simp [hattempts, chainTo])
      rw [World.nextExecutableAttempt, hremaining]
      rfl
    obtain ⟨w', hexecute⟩ := @executeAttempt_commits demoSettings (x.attempt j) resp
      { ticketedAttempt with attemptIndex := j + 1, lastInChain := true }
      (s.world.emit (.attempt j)) hbuild hsend hstatus hstream rfl rfl rfl rfl
      (by rw [World.service_emit, hmodels]; rfl) (by rw [World.service_emit, hproviders]; rfl)
    have hresult : (startAt demoSettings x execution s ticketedAttempt j).result =
        some (w', none) := by
      unfold startAt
      rw [hnext]
      exact hexecute
    rw [chainRuns, hattempt]
    simp only
    rw [if_neg (by simp [hskips])]
    exact ⟨_, mem_cons_self, rfl, w', hresult⟩
  | succ d ih =>
    have hattempt : s.world.attempts[j]? = some keylessAttempt := by
      have hbefore : j < i := by omega
      simp [hattempts, chainTo, List.getElem?_append, hbefore]
    obtain ⟨c, lastErr, hcalls⟩ :=
      @chainRuns_keyless x execution (d + 1) j s hattempt hunavailable hleft
    obtain ⟨c', hc', hreached⟩ := @ih (j + 1)
      { s with world := s.world.emit (.attempt j), lastErr := lastErr } (by omega) hattempts
      hunavailable hleft hmodels hproviders
    rw [hcalls]
    exact ⟨c', mem_cons_of_mem c hc', hreached⟩

end Reaching

/-! ## When the callback keeps its word -/

/-- A model is pinned after exactly the complete responses if and only if every stream completes. -/
theorem pinned_iff_complete_iff (x : ChainScript) :
    (∀ cfg execution w, ∀ c ∈ executorCalls cfg x execution w,
      c.callback = .onSuccess ↔ (x.attempt c.position).CompleteResponse cfg c.before c.after) ↔
      ∀ i, (x.attempt i).StreamCompletes := by
  constructor
  · intro hpins i resp hbuild hsend hstatus hstream
    -- a chain that gets to position `i` commits the stream
    have hlength : (chainTo i).length = i + 1 := by simp [chainTo]
    let execution : FallbackExecution := ⟨(x.attempt i).body, ⟨0, [], false, false⟩⟩
    let w : World := { demoWorld with attempts := chainTo i }
    obtain ⟨e, he, hposition, w', hresult⟩ := @chainRuns_reaches x execution i i 0
      ⟨w, ⟨[], []⟩, none, []⟩ resp (Nat.zero_add i) rfl rfl rfl rfl rfl hbuild hsend hstatus hstream
    have hcalled : ⟨e.position, e.attempt, e.before, w', .onSuccess⟩ ∈
        executorCalls demoSettings x execution w := by
      refine mem_filterMap.mpr ⟨e, ?_, by rw [Started.call, hresult]; rfl⟩
      unfold executorRuns
      rw [hlength]
      exact he
    obtain ⟨resp', hsend', -, hcomplete⟩ := (hpins _ _ _ _ hcalled).mp rfl
    rw [hposition, hsend] at hsend'
    cases hsend'
    rwa [if_pos hstream] at hcomplete
  · intro hcompletes cfg execution w c hc
    obtain ⟨reserveFallback, err, hcallback, hexecute, hsuccess⟩ := mem_executorCalls hc
    exact hsuccess.trans ((hcompletes c.position).success_iff hcallback hexecute)

/-- A stalled stream is pinned. -/
theorem stalled_stream_pinned : ∃ c ∈ executorCalls demoSettings
      ⟨fun _ => stalledStream, fun _ _ => ⟨1, []⟩, fun _ => ⟨1, []⟩⟩
      ⟨stalledStream.body, ⟨0, [], false, false⟩⟩ demoWorld,
    c.attempt.model = "m" ∧ c.callback = .onSuccess ∧
      (∃ resp, stalledStream.send = .ok resp ∧ streamCopy resp.stream = .stalled) ∧
      ¬stalledStream.CompleteResponse demoSettings c.before c.after := by
  refine ⟨_, mem_singleton_self _, rfl, rfl, ⟨_, rfl, rfl⟩, ?_⟩
  rintro ⟨resp, hsend, -, hcomplete⟩
  cases hsend
  rw [if_pos (by decide +kernel)] at hcomplete
  exact absurd hcomplete (by decide)

end CalvoProxy
