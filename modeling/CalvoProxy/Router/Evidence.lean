import CalvoProxy.Router.Ending

/-!
# Evidence about a model

A client that leaves is not evidence about a model (`cancellation_blame_iff`), an ending without a
verdict should keep the evidence (`evidence_kept_iff`), and streams that break off should add up to
an open circuit (`dying_streams_open_iff`).
-/

namespace CalvoProxy

open Option ModelBreakerState Outcome

variable {reserveFallback : Option ReserveFallback} {o : Outcome} {inBody sent : Bool}
  {head : Option Int} {now t : Time} {key : String} {n threshold : Nat} {w0 w w' : World}
  {cfg : Settings} {x : Script} {attempt : ModelAttempt} {err : Option AttemptError}

/-! ## An attempt, seen from its model -/

/-- An attempt as the breaker of its model sees it, from the admission to the cleanup. -/
structure Completes (cfg : Settings) (x : Script) (attempt : ModelAttempt) (sent : Bool)
    (head : Option Int) (o : Outcome) (w w' : World) : Prop where
  ending : Ends cfg x attempt.lastInChain sent head o
  model : ∃ env probe, w'.service.breakerOf cfg attempt =
    o.onModel cfg.breaker attempt.breakerPolicy env (x.tick .failure).now
      { w.service.breakerOf cfg attempt with probeUntil := probe }
  others : ∀ key, key ≠ cfg.breakerKey attempt →
    w'.service.modelBreakers.lookup key = w.service.modelBreakers.lookup key
  blames : w'.blames = w.blames ↔ o.blamesModel = false
  sent_iff : w'.sent = w.sent ↔ sent = false
  head_iff : w'.responses = w.responses ↔ head = none

theorem Completes.sends (h : Completes cfg x attempt sent head o w w') (hsent : w'.sent ≠ w.sent) :
    Ends cfg x attempt.lastInChain true head o :=
  Bool.eq_true_of_not_eq_false (h.sent_iff.not.mp hsent) ▸ h.ending

theorem Admitted.breakerOf (h : Admitted cfg x attempt w w') :
    ∃ probe, w'.service.breakerOf cfg attempt =
      { w.service.breakerOf cfg attempt with probeUntil := probe } := by
  have hcases := tryStart_cases cfg.breaker (x.tick .startAttempt).now
    (w.service.modelBreakers.lookup (cfg.breakerKey attempt))
  rw [h.model] at hcases
  unfold RouterService.breakerOf
  rcases hcases with hsame | ⟨-, s, probe, hs, hclaim⟩
  · exact ⟨_, congrArg (Option.getD · empty) hsame⟩
  · refine ⟨probe, ?_⟩
    rw [hs]
    exact congrArg (Option.getD · empty) hclaim

theorem executeAttempt_completes (hcallback : ChainCallback cfg reserveFallback)
    (h : executeAttempt cfg x reserveFallback attempt w = some (w', err)) :
    (NotStarted w w' ∧ ∃ message, err = some (skipError 503 true message)) ∨
      ∃ sent head o, Completes cfg x attempt sent head o w w' := by
  rcases executeAttempt_cases hcallback.harmless h with
    hnot | ⟨w1, l, sent, head, o, hadm, hends, rfl⟩
  · exact .inl hnot
  have hlog : ∀ {β : Type} (f : List Effect → β), f w1.log = f w.log := fun f => by rw [hadm.log]
  obtain ⟨probe, hprobe⟩ := hadm.breakerOf
  refine .inr ⟨sent, head, o, hends.ending,
    ⟨newScoreEnv cfg.scores (x.tick .score).now ((w1.service.circuits cfg attempt).scored + 1),
      probe, ?_⟩, fun key hkey => ?_, ?_, ?_, ?_⟩
  · have hmodel := congrArg Circuits.model hends.performs.circuits
    rw [actions_model] at hmodel
    rw [← hprobe]
    exact hmodel
  · rw [hends.performs.elsewhere.models key hkey, hadm.elsewhere.models key hkey]
  · have hblames : w1.blames = w.blames := hlog (List.countP Effect.blames)
    rw [hends.performs.blames, hblames, ← o.actions_blames x attempt]
    exact Nat.add_eq_left
  · rw [hends.tickets]
    have hsent : w1.sent = w.sent := hlog (List.filterMap Effect.sentTicket)
    cases sent <;> simp [hsent]
  · rw [hends.responses]
    have hresponses : w1.responses = w.responses := hlog (List.filter Effect.isResponse)
    cases head <;> simp [hresponses]

namespace Outcome

/-- The circuit is reset and the score left alone. -/
def noVerdict : Outcome → Bool
  | .unjudged => true
  | .rejected status relayed _ => nonModelFailure status relayed
  | .streamed .clientGone => true
  | .streamed .maxReached => true
  | _ => false

variable {config : BreakerConfig} {policy : BreakerPolicy} {env : ScoreEnv}

theorem noVerdict_spec (h : o.noVerdict = true) : o.blamesModel = false ∧
      ∀ state, o.onModel config policy env now state = state.reset := by
  cases o with
  | unjudged => exact ⟨rfl, fun _ => rfl⟩
  | rejected status relayed wait =>
    change nonModelFailure status relayed = true at h
    refine ⟨by rw [blamesModel, h]; rfl, fun state => ?_⟩
    simp only [onModel, h, if_true]
    split <;> rfl
  | streamed o =>
    cases o with
    | clientGone | maxReached => exact ⟨rfl, fun _ => rfl⟩
    | completed | stalled | upstreamError => cases h
  | transportError | abandoned | broken | delivered => cases h

end Outcome

/-- Where the cancellation meets the attempt; the last two are races with a timer. -/
inductive CancelPoint
  | beforeSend
  | headers
  | errorBody
  | firstEvent
  | streaming
  | bufferedBody
  | firstEventTimer
  | idleTimer
deriving DecidableEq, Repr

inductive CancelledAt (cfg : Settings) (x : Script) (attempt : ModelAttempt) (w w' : World) :
    CancelPoint → Prop
  | beforeSend (hsent : w'.sent = w.sent) : CancelledAt cfg x attempt w w' .beforeSend
  | headers {e : TransportError} (hsent : w'.sent ≠ w.sent) (hsend : x.send = .error e)
      (hctx : x.ctxAfterSend = some .canceled) : CancelledAt cfg x attempt w w' .headers
  | errorBody {resp : Response} (hsent : w'.sent ≠ w.sent) (hsend : x.send = .ok resp)
      (hstatus : resp.status ≠ 200) (hread : resp.errorBodyErr = some .canceled) :
      CancelledAt cfg x attempt w w' .errorBody
  | firstEvent {resp : Response} (hsent : w'.sent ≠ w.sent) (hsend : x.send = .ok resp)
      (hstatus : resp.status = 200)
      (hstream : isEventStream (resp.header "Content-Type") = true)
      (hwaits : 0 < cfg.firstEventTimeout ∧ attempt.lastInChain = false)
      (hfirst : awaitFirstStreamEvent resp.firstEvent = (false, false))
      (hcancelled : resp.stream.Cancelled) : CancelledAt cfg x attempt w w' .firstEvent
  | streaming {resp : Response} (hsent : w'.sent ≠ w.sent) (hsend : x.send = .ok resp)
      (hstatus : resp.status = 200)
      (hstream : isEventStream (resp.header "Content-Type") = true)
      (hhead : w'.responses ≠ w.responses) (hcancelled : resp.stream.Cancelled) :
      CancelledAt cfg x attempt w w' .streaming
  | bufferedBody {resp : Response} {text : String} (hsent : w'.sent ≠ w.sent)
      (hsend : x.send = .ok resp) (hstatus : resp.status = 200)
      (hstream : isEventStream (resp.header "Content-Type") = false)
      (hread : resp.buffered.readErr = some text) : CancelledAt cfg x attempt w w' .bufferedBody
  | firstEventTimer {resp : Response} (hsent : w'.sent ≠ w.sent) (hsend : x.send = .ok resp)
      (hstatus : resp.status = 200)
      (hstream : isEventStream (resp.header "Content-Type") = true)
      (htimer : resp.firstEvent.timerWins = true) (hhead : w'.responses = w.responses) :
      CancelledAt cfg x attempt w w' .firstEventTimer
  | idleTimer {resp : Response} (hsent : w'.sent ≠ w.sent) (hsend : x.send = .ok resp)
      (hstatus : resp.status = 200)
      (hstream : isEventStream (resp.header "Content-Type") = true)
      (hhead : w'.responses ≠ w.responses) (hstalled : streamCopy resp.stream = .stalled) :
      CancelledAt cfg x attempt w w' .idleTimer

/-- The points at which the code does not ask whether the request was cancelled; the body of an
error response matters if its status is a verdict. -/
def CancelPoint.Unchecked (x : Script) : CancelPoint → Prop
  | .bufferedBody => True
  | .firstEventTimer => True
  | .idleTimer => True
  | .errorBody => ∃ resp, x.send = .ok resp ∧
      nonModelFailure resp.status (isProviderRelayedError resp.errorBody) = false
  | _ => False

theorem CancelledAt.outcome {p : CancelPoint}
    (h : CancelledAt cfg x attempt w w' p) (hdone : Completes cfg x attempt sent head o w w') :
    (p.Unchecked x → o.blamesModel = true) ∧ (¬p.Unchecked x → o.noVerdict = true) := by
  cases h with
  | beforeSend hsent =>
    have hends := hdone.ending
    rw [hdone.sent_iff.mp hsent] at hends
    refine ⟨False.elim, fun _ => ?_⟩
    cases hends with
    | unbuilt | refused => rfl
  | headers hsent hsend hctx =>
    refine ⟨False.elim, fun _ => ?_⟩
    rw [(hdone.sends hsent).of_error hsend hctx]
    rfl
  | @errorBody resp hsent hsend hstatus hread =>
    obtain ⟨wait, rfl⟩ := (hdone.sends hsent).of_status hsend hstatus
    constructor
    · rintro ⟨resp', hsend', hjudged⟩
      cases hsend.symm.trans hsend'
      show (!_) = true
      rw [hjudged]
      rfl
    · intro hchecked
      exact Bool.eq_true_of_not_eq_false fun hjudged => hchecked ⟨resp, hsend, hjudged⟩
  | firstEvent hsent hsend hstatus hstream hwaits hfirst hcancelled =>
    refine ⟨False.elim, fun _ => ?_⟩
    rcases (hdone.sends hsent).of_stream hsend hstatus hstream with ⟨-, -, htimer⟩ | ⟨rfl, -⟩
    · rw [awaitFirstStreamEvent, if_pos htimer] at hfirst
      cases hfirst
    · rw [hcancelled.streamCopy]
      rfl
  | streaming hsent hsend hstatus hstream hhead hcancelled =>
    refine ⟨False.elim, fun _ => ?_⟩
    rcases (hdone.sends hsent).of_stream hsend hstatus hstream with ⟨-, hnone, -⟩ | ⟨rfl, -⟩
    · exact absurd (hdone.head_iff.mpr hnone) hhead
    · rw [hcancelled.streamCopy]
      rfl
  | bufferedBody hsent hsend hstatus hstream hread =>
    refine ⟨fun _ => ?_, fun hchecked => absurd trivial hchecked⟩
    rw [(hdone.sends hsent).of_truncated hsend hstatus hstream hread]
    rfl
  | firstEventTimer hsent hsend hstatus hstream htimer hhead =>
    refine ⟨fun _ => ?_, fun hchecked => absurd trivial hchecked⟩
    rcases (hdone.sends hsent).of_stream hsend hstatus hstream with ⟨rfl, -, -⟩ | ⟨-, hsome⟩
    · rfl
    · exact nomatch (hdone.head_iff.mp hhead).symm.trans hsome
  | idleTimer hsent hsend hstatus hstream hhead hstalled =>
    refine ⟨fun _ => ?_, fun hchecked => absurd trivial hchecked⟩
    rcases (hdone.sends hsent).of_stream hsend hstatus hstream with ⟨-, hnone, -⟩ | ⟨rfl, -⟩
    · exact absurd (hdone.head_iff.mpr hnone) hhead
    · rw [hstalled]
      rfl

/-- The attempt lowers no score and counts no failure. -/
structure NotBlamed (cfg : Settings) (attempt : ModelAttempt) (w w' : World) : Prop where
  blames : w'.blames = w.blames
  score : (w'.service.breakerOf cfg attempt).score = (w.service.breakerOf cfg attempt).score
  scoreUpdatedAt : (w'.service.breakerOf cfg attempt).scoreUpdatedAt =
    (w.service.breakerOf cfg attempt).scoreUpdatedAt
  failures : (w'.service.breakerOf cfg attempt).consecutiveFailures ≤
    (w.service.breakerOf cfg attempt).consecutiveFailures

/-- A cancellation is not blamed on the model exactly where the code asks for it: while the headers,
the first event or the rest of a stream are to come. -/
theorem cancellation_blame_iff {p : CancelPoint} (hcallback : ChainCallback cfg reserveFallback)
    (h : executeAttempt cfg x reserveFallback attempt w = some (w', err))
    (hcancelled : CancelledAt cfg x attempt w w' p) :
    NotBlamed cfg attempt w w' ↔ ¬p.Unchecked x := by
  rcases executeAttempt_completes hcallback h with ⟨hnot, -⟩ | ⟨sent, head, o, hdone⟩
  · -- an attempt that was not started sends nothing
    have hsame : w'.service.breakerOf cfg attempt = w.service.breakerOf cfg attempt := by
      unfold RouterService.breakerOf
      rw [hnot.models]
    have hkept : NotBlamed cfg attempt w w' :=
      ⟨hnot.blames, by rw [hsame], by rw [hsame], by rw [hsame]⟩
    cases hcancelled with
    | beforeSend => exact iff_of_true hkept id
    | headers hsent | errorBody hsent | firstEvent hsent | streaming hsent
    | bufferedBody hsent | firstEventTimer hsent | idleTimer hsent => exact absurd hnot.sent hsent
  · obtain ⟨hunchecked, hchecked⟩ := hcancelled.outcome hdone
    constructor
    · intro hkept hpoint
      exact nomatch (hunchecked hpoint).symm.trans (hdone.blames.mp hkept.blames)
    · intro hpoint
      obtain ⟨env, probe, hmodel⟩ := hdone.model
      obtain ⟨hblames, hreset⟩ := noVerdict_spec (hchecked hpoint)
      rw [hreset] at hmodel
      exact ⟨hdone.blames.mpr hblames, by rw [hmodel]; rfl, by rw [hmodel]; rfl,
        by rw [hmodel]; exact Nat.zero_le _⟩

/-! ### A concrete attempt -/

def digest (r : World × Option AttemptError) : Nat × Nat × Nat :=
  (r.1.blames, r.1.sent.length, r.1.responses.length)

def cancelledBody : Script :=
  demoScript (.ok (demoResponse 200 "application/json" .contextDone rfl (some "context canceled")))

def cancelledStream : Script :=
  demoScript (.ok (demoResponse 200 "text/event-stream" .contextDone rfl none))

theorem cancelled_stream_not_blamed : ∃ w' err,
    executeAttempt demoSettings cancelledStream none demoAttempt demoWorld = some (w', err) ∧
      NotBlamed demoSettings demoAttempt demoWorld w' := by
  have hrun : (executeAttempt demoSettings cancelledStream none demoAttempt demoWorld).map digest =
      some (0, 1, 1) := by decide +kernel
  obtain ⟨⟨w', err⟩, hexec, hdigest⟩ := map_eq_some_iff.mp hrun
  obtain ⟨-, hsent, hresponses⟩ := Prod.mk.inj hdigest |>.imp id Prod.mk.inj
  have hcancelled :
      CancelledAt demoSettings cancelledStream demoAttempt demoWorld w' .streaming := by
    refine .streaming (fun hsame => ?_) rfl rfl (by decide) (fun hsame => ?_) ⟨nofun, trivial⟩
    · rw [hsame] at hsent
      cases hsent
    · rw [hsame] at hresponses
      cases hresponses
  exact ⟨w', err, hexec, (cancellation_blame_iff .last hexec hcancelled).mpr id⟩

/-- Cancelled while its body is read, the attempt is blamed. -/
theorem cancelled_body_blamed : ∃ w' err,
    executeAttempt demoSettings cancelledBody none demoAttempt demoWorld = some (w', err) ∧
      CancelledAt demoSettings cancelledBody demoAttempt demoWorld w' .bufferedBody ∧
      ¬NotBlamed demoSettings demoAttempt demoWorld w' := by
  have hrun : (executeAttempt demoSettings cancelledBody none demoAttempt demoWorld).map digest =
      some (2, 1, 0) := by decide +kernel
  obtain ⟨⟨w', err⟩, hexec, hdigest⟩ := map_eq_some_iff.mp hrun
  obtain ⟨hblames, hsent, -⟩ := Prod.mk.inj hdigest |>.imp id Prod.mk.inj
  refine ⟨w', err, hexec, .bufferedBody (fun hsame => ?_) rfl rfl (by decide) rfl, fun hkept => ?_⟩
  · rw [hsame] at hsent
    cases hsent
  · rw [hkept.blames] at hblames
    cases hblames

/-! ## Endings without a verdict -/

/-- An attempt without a verdict on the model; the flag says that the client left while a buffered
body was read. -/
inductive NoVerdictEnd (cfg : Settings) (x : Script) (attempt : ModelAttempt) (w w' : World)
    (err : Option AttemptError) : Bool → Prop
  | cancelled {p : CancelPoint} (hp : p = .headers ∨ p = .firstEvent ∨ p = .streaming)
      (h : CancelledAt cfg x attempt w w' p) : NoVerdictEnd cfg x attempt w w' err false
  | cancelledBody (h : CancelledAt cfg x attempt w w' .bufferedBody) :
      NoVerdictEnd cfg x attempt w w' err true
  | unbuilt {e : TransportError} (hbuild : x.buildError = some e) (hsent : w'.sent = w.sent)
      (herr : err = some (classifyTransportError e)) : NoVerdictEnd cfg x attempt w w' err false
  | refused {e : AttemptError} (hsent : w'.sent = w.sent) (herr : err = some e)
      (hlimited : e.quotaLimited = true) : NoVerdictEnd cfg x attempt w w' err false
  | quotaLimited {resp : Response} (hsent : w'.sent ≠ w.sent) (hsend : x.send = .ok resp)
      (hstatus : resp.status = 429 ∨ resp.status = 413) : NoVerdictEnd cfg x attempt w w' err false
  | accountFailure {resp : Response} (hsent : w'.sent ≠ w.sent) (hsend : x.send = .ok resp)
      (hstatus : resp.status = 401 ∨ resp.status = 402 ∨ resp.status = 403)
      (hrelayed : isProviderRelayedError resp.errorBody = false) :
      NoVerdictEnd cfg x attempt w w' err false

/-- The failures, the cooldown and the score of the model are as before. -/
structure EvidenceKept (cfg : Settings) (attempt : ModelAttempt) (w w' : World) : Prop where
  failures : (w'.service.breakerOf cfg attempt).consecutiveFailures =
    (w.service.breakerOf cfg attempt).consecutiveFailures
  openUntil : (w'.service.breakerOf cfg attempt).openUntil =
    (w.service.breakerOf cfg attempt).openUntil
  score : (w'.service.breakerOf cfg attempt).score = (w.service.breakerOf cfg attempt).score
  scoreUpdatedAt : (w'.service.breakerOf cfg attempt).scoreUpdatedAt =
    (w.service.breakerOf cfg attempt).scoreUpdatedAt

theorem ModelBreakerState.fail_moves (config : BreakerConfig) (policy : BreakerPolicy) (code : Int)
    (reason : String) (retryAfter : Option Duration) (now : Time) (state : ModelBreakerState) :
    let after := fail config policy code reason false retryAfter now state
    after.consecutiveFailures ≠ state.consecutiveFailures ∨ after.openUntil ≠ state.openUntil := by
  have hcooldown := config.cooldownFor_pos policy retryAfter
  by_cases helapsed : state.openUntil ≠ 0 ∧ state.openUntil < now
  · -- the count starts anew, and the circuit is closed or opened for later
    right
    obtain ⟨hopen, hpast⟩ := helapsed
    simp only [fail, Time.isZero, Time.after]
    grind
  · left
    simp only [fail, Time.isZero, Time.after]
    grind

theorem NoVerdictEnd.outcome (h : NoVerdictEnd cfg x attempt w w' err inBody)
    (hdone : Completes cfg x attempt sent head o w w') :
    (inBody = false ∧ o.noVerdict = true) ∨ (inBody = true ∧ ∃ message, o = .broken message) := by
  have hnone : w'.sent = w.sent → o.noVerdict = true := by
    intro hsent
    exact ((CancelledAt.beforeSend hsent).outcome hdone).2 id
  have hrejected : ∀ resp : Response, w'.sent ≠ w.sent → x.send = .ok resp → resp.status ≠ 200 →
      nonModelFailure resp.status (isProviderRelayedError resp.errorBody) = true →
      o.noVerdict = true := by
    intro resp hsent hsend hstatus hnonModel
    obtain ⟨wait, rfl⟩ := (hdone.sends hsent).of_status hsend hstatus
    exact hnonModel
  cases h with
  | cancelled hp h =>
    refine .inl ⟨rfl, (h.outcome hdone).2 ?_⟩
    rcases hp with rfl | rfl | rfl <;> exact id
  | cancelledBody h =>
    cases h with
    | bufferedBody hsent hsend hstatus hstream hread =>
      exact .inr ⟨rfl, _, (hdone.sends hsent).of_truncated hsend hstatus hstream hread⟩
  | unbuilt _ hsent _ | refused hsent _ _ => exact .inl ⟨rfl, hnone hsent⟩
  | @quotaLimited resp hsent hsend hstatus =>
    refine .inl ⟨rfl, hrejected resp hsent hsend ?_ ?_⟩
    · rcases hstatus with h | h <;> rw [h] <;> decide
    · rcases hstatus with h | h <;> rw [h] <;> rfl
  | @accountFailure resp hsent hsend hstatus hrelayed =>
    refine .inl ⟨rfl, hrejected resp hsent hsend ?_ ?_⟩
    · rcases hstatus with h | h | h <;> rw [h] <;> decide
    · rcases hstatus with h | h | h <;> rw [h, hrelayed] <;> rfl

theorem NoVerdictEnd.started {message : String}
    (h : NoVerdictEnd cfg x attempt w w' (some (skipError 503 true message)) inBody) :
    ¬NotStarted w w' := by
  intro hnot
  cases h with
  | cancelled hp h =>
    rcases hp with rfl | rfl | rfl <;> cases h <;> exact absurd hnot.sent ‹_›
  | cancelledBody h =>
    cases h with
    | bufferedBody hsent => exact hsent hnot.sent
  | unbuilt _ _ herr => exact nomatch congrArg AttemptError.breakerEligible (Option.some.inj herr)
  | refused _ herr hlimited =>
    rw [← Option.some.inj herr] at hlimited
    cases hlimited
  | quotaLimited hsent | accountFailure hsent => exact hsent hnot.sent

/-- An ending without a verdict keeps the evidence exactly if there was none to lose: the circuit
was closed without a failure, and the client did not leave in the middle of a buffered body. -/
theorem evidence_kept_iff (hcallback : ChainCallback cfg reserveFallback)
    (h : executeAttempt cfg x reserveFallback attempt w = some (w', err))
    (hend : NoVerdictEnd cfg x attempt w w' err inBody) :
    EvidenceKept cfg attempt w w' ↔ (w.service.breakerOf cfg attempt).consecutiveFailures = 0 ∧
        (w.service.breakerOf cfg attempt).openUntil = 0 ∧ inBody = false := by
  rcases executeAttempt_completes hcallback h with ⟨hnot, message, rfl⟩ | ⟨sent, head, o, hdone⟩
  · exact absurd hnot hend.started
  obtain ⟨env, probe, hmodel⟩ := hdone.model
  rcases hend.outcome hdone with ⟨rfl, hnoVerdict⟩ | ⟨rfl, message, rfl⟩
  · -- the circuit is reset, whatever it was
    rw [(noVerdict_spec hnoVerdict).2] at hmodel
    constructor
    · intro hkept
      have hfailures := hkept.failures
      have hopen := hkept.openUntil
      rw [hmodel] at hfailures hopen
      exact ⟨hfailures.symm, hopen.symm, rfl⟩
    · rintro ⟨hfailures, hopen, -⟩
      exact ⟨by rw [hmodel, hfailures]; rfl, by rw [hmodel, hopen]; rfl, by rw [hmodel]; rfl,
        by rw [hmodel]; rfl⟩
  · refine iff_of_false (fun hkept => ?_) (fun hcond => nomatch hcond.2.2)
    rcases fail_moves cfg.breaker attempt.breakerPolicy 502 message none (x.tick .failure).now
      (penalize 502 env
        { w.service.breakerOf cfg attempt with probeUntil := probe }) with hmoved | hmoved
    · exact hmoved ((congrArg _ hmodel).symm.trans hkept.failures)
    · exact hmoved ((congrArg _ hmodel).symm.trans hkept.openUntil)

def rateLimited : Script :=
  demoScript (.ok (demoResponse 429 "application/json" .contextDone rfl none))

def failuresAndSent (w : World) : Nat × Nat :=
  ((w.service.breakerOf demoSettings demoAttempt).consecutiveFailures, w.sent.length)

/-- A 429 on a model without a failure leaves nothing behind. -/
theorem rate_limit_keeps_clean_circuit : ∃ w' err,
    executeAttempt demoSettings rateLimited none demoAttempt demoWorld = some (w', err) ∧
      EvidenceKept demoSettings demoAttempt demoWorld w' := by
  have hrun : (executeAttempt demoSettings rateLimited none demoAttempt demoWorld).map
      (fun r => failuresAndSent r.1) = some (0, 1) := by decide +kernel
  obtain ⟨⟨w', err⟩, hexec, hdigest⟩ := map_eq_some_iff.mp hrun
  have hend : NoVerdictEnd demoSettings rateLimited demoAttempt demoWorld w' err false := by
    refine .quotaLimited (fun hsame => ?_) rfl (.inl rfl)
    have hsent := (Prod.mk.inj hdigest).2
    rw [hsame] at hsent
    cases hsent
  exact ⟨w', err, hexec, (evidence_kept_iff .last hexec hend).mpr ⟨rfl, rfl, rfl⟩⟩

/-- A 429 makes the breaker forget a broken connection. -/
theorem rate_limit_forgets_failure : ∃ w1 err1 w' err',
    executeAttempt demoSettings connectionReset none demoAttempt demoWorld = some (w1, err1) ∧
      executeAttempt demoSettings rateLimited none demoAttempt w1 = some (w', err') ∧
      NoVerdictEnd demoSettings rateLimited demoAttempt w1 w' err' false ∧
      ¬EvidenceKept demoSettings demoAttempt w1 w' := by
  have hrun : (executeAttempt demoSettings connectionReset none demoAttempt demoWorld).bind
      (fun r => (executeAttempt demoSettings rateLimited none demoAttempt r.1).map
        fun r' => (failuresAndSent r.1, failuresAndSent r'.1)) = some ((1, 1), (0, 2)) := by
    decide +kernel
  obtain ⟨⟨w1, err1⟩, hexec1, hrest⟩ := bind_eq_some_iff.mp hrun
  obtain ⟨⟨w', err'⟩, hexec, hdigest⟩ := map_eq_some_iff.mp hrest
  obtain ⟨⟨hbefore, hsent1⟩, hafter, hsent⟩ :=
    (Prod.mk.inj hdigest).imp Prod.mk.inj Prod.mk.inj
  refine ⟨w1, err1, w', err', hexec1, hexec, .quotaLimited (fun hsame => ?_) rfl (.inl rfl),
    fun hkept => ?_⟩
  · rw [hsame, hsent1] at hsent
    cases hsent
  · exact nomatch hafter.symm.trans (hkept.failures.trans hbefore)

/-! ## Streams that break off -/

/-- An attempt under `key` that streams a 200 until the upstream stalls or breaks off. -/
structure FaultyStream (cfg : Settings) (key : String) (threshold : Nat) (x : Script)
    (w w' : World) : Prop where
  runs : ∃ reserveFallback attempt err, ChainCallback cfg reserveFallback ∧
    executeAttempt cfg x reserveFallback attempt w = some (w', err) ∧
    cfg.breakerKey attempt = key ∧ cfg.breaker.threshold attempt.breakerPolicy = threshold
  response : ∃ resp, x.send = .ok resp ∧ resp.status = 200 ∧
    isEventStream (resp.header "Content-Type") = true ∧
    (streamCopy resp.stream).upstreamFault = true
  committed : w'.responses ≠ w.responses
  clock : 0 < (x.tick .failure).now

/-- The last `n` attempts under `key` were faulty streams, the last at `t`; other models and the
ledger may come between. -/
inductive DyingRun (cfg : Settings) (key : String) (threshold : Nat) (w0 : World) :
    Nat → Time → World → Prop
  | start : DyingRun cfg key threshold w0 0 0 w0
  | fault {n : Nat} {t : Time} {x : Script} {w w' : World}
      (hrun : DyingRun cfg key threshold w0 n t w)
      (hfault : FaultyStream cfg key threshold x w w') :
      DyingRun cfg key threshold w0 (n + 1) (x.tick .failure).now w'
  | other {n : Nat} {t : Time} {x : Script} {reserveFallback : Option ReserveFallback}
      {attempt : ModelAttempt} {w w' : World} {err : Option AttemptError}
      (hrun : DyingRun cfg key threshold w0 n t w)
      (hcallback : ChainCallback cfg reserveFallback)
      (hexec : executeAttempt cfg x reserveFallback attempt w = some (w', err))
      (hother : cfg.breakerKey attempt ≠ key) : DyingRun cfg key threshold w0 n t w'
  | between {n : Nat} {t : Time} {w w' : World} (hrun : DyingRun cfg key threshold w0 n t w)
      (hquiet : Untouched w w') : DyingRun cfg key threshold w0 n t w'

/-- After a faulty stream the count stands at one, and the circuit is open if that is enough. -/
structure CountedOnce (threshold : Nat) (t : Time) (state : Option ModelBreakerState) : Prop where
  failures : (state.getD .empty).consecutiveFailures = 1
  open_iff : Time.after (state.getD .empty).openUntil t = true ↔ threshold = 1

theorem ModelBreakerState.fail_of_closed (config : BreakerConfig) (policy : BreakerPolicy)
    (code : Int) (reason : String) (retryAfter : Option Duration) (hnow : 0 < now)
    {state : ModelBreakerState} (hfailures : state.consecutiveFailures = 0)
    (hopen : state.openUntil = 0) :
    let after := fail config policy code reason false retryAfter now state
    after.consecutiveFailures = 1 ∧
      (Time.after after.openUntil now = true ↔ config.threshold policy = 1) := by
  have hcooldown := config.cooldownFor_pos policy retryAfter
  have hthreshold := config.threshold_pos' policy
  simp only [fail, hfailures, hopen, Time.isZero, Time.after]
  grind

theorem Outcome.onModel_of_fault {config : BreakerConfig} {policy : BreakerPolicy} {env : ScoreEnv}
    {o : StreamOutcome} (h : o.upstreamFault = true) (state : ModelBreakerState) :
    (streamed o).onModel config policy env now state =
      fail config policy 502 (streamFaultMessage o) false none now
        (state.reset.penalize 502 env) := by
  cases o with
  | stalled | upstreamError => rfl
  | completed | maxReached | clientGone => cases h

theorem FaultyStream.counted (h : FaultyStream cfg key threshold x w w') :
    CountedOnce threshold (x.tick .failure).now (w'.service.modelBreakers.lookup key) := by
  obtain ⟨reserveFallback, attempt, err, hcallback, hexec, rfl, hthreshold⟩ := h.runs
  obtain ⟨resp, hsend, hstatus, hstream, hfault⟩ := h.response
  rcases executeAttempt_completes hcallback hexec with ⟨hnot, -⟩ | ⟨sent, head, o, hdone⟩
  · exact absurd hnot.responses h.committed
  have hhead := hdone.head_iff.not.mp h.committed
  have hends := hdone.ending
  cases sent with
  | false => cases hends <;> exact absurd rfl hhead
  | true =>
    rcases hends.of_stream hsend hstatus hstream with ⟨-, hnone, -⟩ | ⟨rfl, -⟩
    · exact absurd hnone hhead
    obtain ⟨env, probe, hmodel⟩ := hdone.model
    rw [onModel_of_fault hfault] at hmodel
    generalize hclosed : penalize 502 env (reset
      { w.service.breakerOf cfg attempt with probeUntil := probe }) = closed at hmodel
    obtain ⟨hfailures, hopen⟩ := fail_of_closed cfg.breaker attempt.breakerPolicy
      502 (streamFaultMessage (streamCopy resp.stream)) none h.clock
      (hclosed ▸ rfl : closed.consecutiveFailures = 0) (hclosed ▸ rfl)
    rw [← hmodel] at hfailures hopen
    refine ⟨hfailures, hopen.trans ?_⟩
    rw [hthreshold]
    exact Int.natCast_inj

theorem DyingRun.counted (h : DyingRun cfg key threshold w0 n t w) (hn : 0 < n) :
    CountedOnce threshold t (w.service.modelBreakers.lookup key) := by
  induction h with
  | start => cases hn
  | fault _ hfault _ => exact hfault.counted
  | other _ hcallback hexec hother ih =>
    rcases executeAttempt_completes hcallback hexec with ⟨hnot, -⟩ | ⟨sent, head, o, hdone⟩
    · rw [hnot.models]
      exact ih hn
    · rw [hdone.others key hother.symm]
      exact ih hn
  | between _ hquiet ih =>
    rw [hquiet.models]
    exact ih hn

/-- After as many faulty streams in a row as the threshold, the circuit is open exactly if the
threshold is one. -/
theorem dying_streams_open_iff (hpos : 1 ≤ threshold)
    (h : DyingRun cfg key threshold w0 threshold t w) :
    Time.after ((w.service.modelBreakers.lookup key).getD .empty).openUntil t = true ↔
      threshold = 1 :=
  (h.counted hpos).open_iff

def stalledStream : Script :=
  demoScript (.ok (demoResponse 200 "text/event-stream" (.idle none) rfl none))

def demoAttemptOf (threshold : Nat) : ModelAttempt :=
  { demoAttempt with breakerPolicy := ⟨threshold, 0⟩ }

theorem demoAttempt_key : demoSettings.breakerKey demoAttempt = "default:m" := by decide +kernel

theorem stalledStream_faulty (hpos : 0 < threshold)
    (hexec : executeAttempt demoSettings stalledStream none (demoAttemptOf threshold) w =
      some (w', err)) (hbefore : w.responses.length = n) (hafter : w'.responses.length = n + 1) :
    FaultyStream demoSettings "default:m" threshold stalledStream w w' where
  runs := ⟨none, demoAttemptOf threshold, err, .last, hexec, demoAttempt_key,
    if_pos (Int.natCast_pos.mpr hpos)⟩
  response := ⟨_, rfl, rfl, by decide +kernel, rfl⟩
  committed hsame := by
    rw [hsame, hbefore] at hafter
    exact absurd hafter (Nat.ne_add_one n)
  clock := by decide

/-- With a threshold of one, a stalled stream opens the circuit. -/
theorem one_stalled_stream_opens : ∃ w, DyingRun demoSettings "default:m" 1 demoWorld 1 1 w ∧
      Time.after ((w.service.modelBreakers.lookup "default:m").getD .empty).openUntil 1 = true := by
  have hrun : (executeAttempt demoSettings stalledStream none (demoAttemptOf 1) demoWorld).map
      (fun r => r.1.responses.length) = some 1 := by decide +kernel
  obtain ⟨⟨w, err⟩, hexec, hlength⟩ := map_eq_some_iff.mp hrun
  have hdying : DyingRun demoSettings "default:m" 1 demoWorld 1 1 w :=
    .fault .start (stalledStream_faulty (by decide) hexec rfl hlength)
  exact ⟨w, hdying, (dying_streams_open_iff (by decide) hdying).mpr rfl⟩

/-- With a threshold of two, two stalled streams leave it closed: each begins with a success. -/
theorem two_stalled_streams_stay_closed : ∃ w, DyingRun demoSettings "default:m" 2 demoWorld 2 1 w ∧
      Time.after ((w.service.modelBreakers.lookup "default:m").getD .empty).openUntil 1 = false := by
  have hrun : (executeAttempt demoSettings stalledStream none (demoAttemptOf 2) demoWorld).bind
      (fun r => (executeAttempt demoSettings stalledStream none (demoAttemptOf 2) r.1).map
        fun r' => (r.1.responses.length, r'.1.responses.length,
          ((r'.1.service.modelBreakers.lookup "default:m").getD .empty).openUntil)) =
      some (1, 2, 0) := by decide +kernel
  obtain ⟨⟨w1, err1⟩, hexec1, hrest⟩ := bind_eq_some_iff.mp hrun
  obtain ⟨⟨w2, err2⟩, hexec2, hdigest⟩ := map_eq_some_iff.mp hrest
  obtain ⟨hlength1, hrest⟩ := Prod.mk.inj hdigest
  obtain ⟨hlength2, hopen⟩ := Prod.mk.inj hrest
  refine ⟨w2, .fault (.fault .start (stalledStream_faulty (by decide) hexec1 rfl hlength1))
    (stalledStream_faulty (by decide) hexec2 hlength1 hlength2), ?_⟩
  rw [hopen]
  rfl

end CalvoProxy
