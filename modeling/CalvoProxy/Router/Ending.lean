import CalvoProxy.Router.Verdict

/-!
# How an attempt ends

`executeAttempt` inverted: an admitted attempt ends in exactly one of the ways of `Ends`, having
called the breaker methods of that outcome.
-/

namespace CalvoProxy

open ModelBreakerState World Effect Performs Outcome

variable {e : TransportError} {K : Type} {w w' : World} {cfg : Settings} {x : Script}
  {attempt : ModelAttempt} {estimate : QuotaEstimate} {err : Option AttemptError}
  {reserveFallback : Option ReserveFallback}

/-- How an admitted attempt ends: whether it was sent, the head that was written, and the outcome;
`last` says that no fallback is left. -/
inductive Ends (cfg : Settings) (x : Script) (last : Bool) : Bool → Option Int → Outcome → Prop
  | unbuilt {e : TransportError} (hbuild : x.buildError = some e) :
      Ends cfg x last false none .unjudged
  | refused (hbuild : x.buildError = none) : Ends cfg x last false none .unjudged
  | cancelled {e : TransportError} (hsend : x.send = .error e)
      (hctx : x.ctxAfterSend = some .canceled) : Ends cfg x last true none .unjudged
  | transport {e : TransportError} (hsend : x.send = .error e)
      (hctx : x.ctxAfterSend ≠ some .canceled) :
      Ends cfg x last true none
        (.transportError (classifyTransportError e).statusCode (classifyTransportError e).message)
  | rejected {resp : Response} (wait : Duration) (hsend : x.send = .ok resp)
      (hstatus : resp.status ≠ 200) :
      Ends cfg x last true none (.rejected resp.status (isProviderRelayedError resp.errorBody) wait)
  | abandoned {resp : Response} (hsend : x.send = .ok resp) (hstatus : resp.status = 200)
      (hstream : isEventStream (resp.header "Content-Type") = true)
      (htimeout : 0 < cfg.firstEventTimeout) (hlast : last = false)
      (htimer : resp.firstEvent.timerWins = true) : Ends cfg x last true none .abandoned
  | streamed {resp : Response} (hsend : x.send = .ok resp) (hstatus : resp.status = 200)
      (hstream : isEventStream (resp.header "Content-Type") = true) :
      Ends cfg x last true (some 200) (.streamed (streamCopy resp.stream))
  | truncated {resp : Response} {text : String} (hsend : x.send = .ok resp)
      (hstatus : resp.status = 200)
      (hstream : isEventStream (resp.header "Content-Type") = false)
      (hread : resp.buffered.readErr = some text) :
      Ends cfg x last true none (.broken ("truncated upstream response: " ++ text))
  | oversized {resp : Response} (hsend : x.send = .ok resp) (hstatus : resp.status = 200)
      (hstream : isEventStream (resp.header "Content-Type") = false)
      (hread : resp.buffered.readErr = none)
      (hlength : cfg.maxResponseBytes < resp.buffered.length) :
      Ends cfg x last true none (.broken "upstream response exceeds PROXY_MAX_RESPONSE_BYTES")
  | delivered {resp : Response} (hsend : x.send = .ok resp) (hstatus : resp.status = 200)
      (hstream : isEventStream (resp.header "Content-Type") = false)
      (hread : resp.buffered.readErr = none)
      (hlength : ¬cfg.maxResponseBytes < resp.buffered.length) :
      Ends cfg x last true (some 200) .delivered

namespace Ends

variable {last : Bool} {head : Option Int} {o : Outcome} {resp : Response}
  (h : Ends cfg x last true head o)
include h

theorem of_error (hsend : x.send = .error e)
    (hctx : x.ctxAfterSend = some .canceled) : o = .unjudged := by
  cases h with
  | cancelled => rfl
  | transport _ hctx' => exact absurd hctx hctx'
  | rejected _ hsend' | abandoned hsend' | streamed hsend' | truncated hsend'
  | oversized hsend' | delivered hsend' => exact nomatch hsend.symm.trans hsend'

variable (hsend : x.send = .ok resp)
include hsend

theorem of_status (hstatus : resp.status ≠ 200) :
    ∃ wait, o = .rejected resp.status (isProviderRelayedError resp.errorBody) wait := by
  cases h with
  | rejected wait hsend' =>
    cases hsend.symm.trans hsend'
    exact ⟨wait, rfl⟩
  | cancelled hsend' | transport hsend' => exact nomatch hsend.symm.trans hsend'
  | abandoned hsend' h200 | streamed hsend' h200 | truncated hsend' h200
  | oversized hsend' h200 | delivered hsend' h200 =>
    cases hsend.symm.trans hsend'; exact absurd h200 hstatus

theorem of_stream (hstatus : resp.status = 200)
    (hstream : isEventStream (resp.header "Content-Type") = true) :
    (o = .abandoned ∧ head = none ∧ resp.firstEvent.timerWins = true) ∨
      (o = .streamed (streamCopy resp.stream) ∧ head = some 200) := by
  cases h with
  | abandoned hsend' _ _ _ _ htimer =>
    cases hsend.symm.trans hsend'
    exact .inl ⟨rfl, rfl, htimer⟩
  | streamed hsend' =>
    cases hsend.symm.trans hsend'
    exact .inr ⟨rfl, rfl⟩
  | cancelled hsend' | transport hsend' => exact nomatch hsend.symm.trans hsend'
  | rejected _ hsend' h200 => cases hsend.symm.trans hsend'; exact absurd hstatus h200
  | truncated hsend' _ hno | oversized hsend' _ hno | delivered hsend' _ hno =>
    cases hsend.symm.trans hsend'; exact nomatch hstream.symm.trans hno

theorem of_truncated {text : String} (hstatus : resp.status = 200)
    (hstream : isEventStream (resp.header "Content-Type") = false)
    (hread : resp.buffered.readErr = some text) :
    o = .broken ("truncated upstream response: " ++ text) := by
  cases h with
  | truncated hsend' _ _ hread' =>
    cases hsend.symm.trans hsend'
    cases hread.symm.trans hread'
    rfl
  | cancelled hsend' | transport hsend' => exact nomatch hsend.symm.trans hsend'
  | rejected _ hsend' h200 => cases hsend.symm.trans hsend'; exact absurd hstatus h200
  | abandoned hsend' _ hyes | streamed hsend' _ hyes =>
    cases hsend.symm.trans hsend'; exact nomatch hstream.symm.trans hyes
  | oversized hsend' _ _ hnone | delivered hsend' _ _ hnone =>
    cases hsend.symm.trans hsend'; exact nomatch hread.symm.trans hnone

end Ends

structure EndsWith (cfg : Settings) (x : Script) (attempt : ModelAttempt) (sent : Bool)
    (head : Option Int) (o : Outcome) (w : World) (l : Locals) (err : Option AttemptError) :
    Prop where
  ending : Ends cfg x attempt.lastInChain sent head o
  performs : Performs cfg attempt (o.actions x attempt.provider) w l.world
  flag : l.sent = sent
  tickets : l.world.sent = w.sent ++ if sent then [l.ticket] else []
  responses : l.world.responses = w.responses ++ (head.map Effect.head).toList
  answered : err.isNone = head.isSome

namespace Attempt

variable {credential : String} {ticket : QuotaTicket} {resp : Response}

theorem resolveProbes_performs (w : World) :
    Performs cfg attempt (resolveActions x) w (resolveProbes cfg x attempt w) :=
  (act _ _ w).next _ _

theorem blame_performs (statusCode : Int) (message : String) (w : World) :
    Performs cfg attempt (blameActions x statusCode message) w
      (resolveProvider cfg x attempt (blame cfg x attempt statusCode message none w)) :=
  ((act _ _ w).next _ _).next _ _

theorem judge_performs (resp : Response) (wait : Duration) (poolExhausted : Bool) (w : World) :
    Performs cfg attempt
      (judgeActions x attempt.provider resp.status (isProviderRelayedError resp.errorBody) wait) w
      (judge cfg x attempt resp (responseError attempt resp wait poolExhausted) wait w) := by
  exact (((ite _ (.refl w) (.act _ _ w)).trans (.ite _ (.act _ _ _) (.refl _))).trans
    (.ite _ (.act _ _ _) (.act _ _ _))).trans (.ite _ (.act _ _ _) (.refl _))

@[simp] theorem judge_sent (resp : Response) (err : AttemptError) (wait : Duration) (w : World) :
    (judge cfg x attempt resp err wait w).sent = w.sent := by
  simp only [judge, resolveProvider, apply_ite sent, sent_act, ite_self]

@[simp] theorem judge_responses (resp : Response) (err : AttemptError) (wait : Duration)
    (w : World) :
    (judge cfg x attempt resp err wait w).responses = w.responses := by
  simp only [judge, resolveProvider, apply_ite responses, responses_act, ite_self]

theorem transportFailed_ends (hsend : x.send = .error e) (w : World) :
    let r := transportFailed cfg x attempt ticket e (w.emit (.send ticket))
    ∃ o, EndsWith cfg x attempt true none o w r.1 r.2 := by
  unfold transportFailed
  split
  · next hctx =>
    refine ⟨_, .cancelled hsend hctx, (emit rfl w).trans (resolveProbes_performs _), rfl,
      ?_, ?_, rfl⟩
    · simp [resolveProbes, sentTicket]
    · simp [resolveProbes, isResponse]
  · next hctx =>
    refine ⟨_, .transport hsend hctx, (emit rfl w).trans (blame_performs _ _ _), rfl, ?_, ?_, rfl⟩
    · simp [blame, resolveProvider, sentTicket]
    · simp [blame, resolveProvider, isResponse]

section

variable (hsend : x.send = .ok resp)
include hsend

theorem rejected_ends (hstatus : resp.status ≠ 200) (w : World) :
    let r := rejected cfg x credential attempt ticket resp (w.emit (.send ticket))
    ∃ o, EndsWith cfg x attempt true none o w r.1 r.2 := by
  have hsettle := Untouched.observeAndSettleQuota cfg ticket attempt credential resp.status
    resp.header resp.errorBody attempt.quotaEstimate.tokens (x.tick .settle) (w.emit (.send ticket))
  unfold rejected
  generalize (w.emit (.send ticket)).observeAndSettleQuota cfg ticket attempt credential resp.status
    resp.header resp.errorBody attempt.quotaEstimate.tokens (x.tick .settle) = settled at hsettle ⊢
  obtain ⟨w1, observations⟩ := settled
  have hstart : Performs cfg attempt [] w w1 := (emit rfl w).thenUntouched hsettle
  simp only
  generalize quotaVerdict _ observations = verdict
  obtain ⟨retryAfter, poolExhausted⟩ := verdict
  simp only
  split
  · next hlimited =>
    have hcool := Untouched.setQuotaCooldown cfg attempt (x.tick .cooldown).now retryAfter w1
    generalize w1.service.setQuotaCooldown cfg attempt (x.tick .cooldown).now retryAfter = cooldown
      at hcool ⊢
    obtain ⟨service, wait⟩ := cooldown
    refine ⟨_, .rejected wait hsend hstatus, ?_, rfl, ?_, ?_, rfl⟩
    · rw [actions, if_pos hlimited]
      exact ((hstart.thenUntouched hcool).trans (resolveProbes_performs _)).trans
        (judge_performs resp _ poolExhausted _)
    · simp [resolveProbes, hcool.sent, hsettle.sent, sentTicket]
    · simp [resolveProbes, hcool.responses, hsettle.responses, isResponse]
  · next hlimited =>
    refine ⟨_, .rejected retryAfter hsend hstatus, ?_, rfl, ?_, ?_, rfl⟩
    · rw [actions, if_neg hlimited]
      exact hstart.trans (judge_performs resp _ poolExhausted _)
    · simp [hsettle.sent, sentTicket]
    · simp [hsettle.responses, isResponse]

theorem deliverStream_ends (hstatus : resp.status = 200)
    (hstream : isEventStream (resp.header "Content-Type") = true)
    (hperforms : Performs cfg attempt (resolveActions x) w w')
    (hsent : w'.sent = w.sent ++ [ticket]) (hresponses : w'.responses = w.responses) :
    let r := deliverStream cfg x attempt ticket resp w'
    EndsWith cfg x attempt true (some 200) (.streamed (streamCopy resp.stream)) w r.1 r.2 := by
  refine ⟨.streamed hsend hstatus hstream, ?_, rfl, ?_, ?_, rfl⟩
  · exact (hperforms.thenEmit rfl).trans (.ite _ ((Performs.act _ _ _).next _ _)
      (.ite _ (blame_performs _ _ _) (.refl _)))
  · simp only [deliverStream, blame, resolveProvider, apply_ite sent, sent_act,
      sent_emit, ite_self, hsent]
    simp [sentTicket]
  · simp only [deliverStream, blame, resolveProvider, apply_ite responses,
      responses_act, responses_emit, ite_self, hresponses, hstatus]
    rfl

theorem abandon_ends (hstatus : resp.status = 200)
    (hstream : isEventStream (resp.header "Content-Type") = true)
    (htimeout : 0 < cfg.firstEventTimeout) (hlast : attempt.lastInChain = false)
    (htimer : resp.firstEvent.timerWins = true)
    (hperforms : Performs cfg attempt (resolveActions x) w w')
    (hsent : w'.sent = w.sent ++ [ticket]) (hresponses : w'.responses = w.responses) :
    let r := abandon cfg x attempt ticket w'
    EndsWith cfg x attempt true none .abandoned w r.1 r.2 := by
  refine ⟨.abandoned hsend hstatus hstream htimeout hlast htimer, hperforms.next _ _, rfl, ?_, ?_,
    rfl⟩
  · simp [abandon, hsent]
  · simp [abandon, hresponses]

end

/-- The callback that reserves for the next attempt leaves the breakers alone. -/
def Harmless (reserveFallback : Option ReserveFallback) : Prop :=
  ∀ reserve, reserveFallback = some reserve → ∀ w w' b, reserve w = some (w', b) → Untouched w w'

variable {l : Locals}

theorem streamed_ends (hharmless : Harmless reserveFallback) (hsend : x.send = .ok resp)
    (hstatus : resp.status = 200) (hstream : isEventStream (resp.header "Content-Type") = true)
    (h : streamed cfg x credential attempt reserveFallback ticket resp (w.emit (.send ticket)) =
      some (l, err)) : ∃ head o, EndsWith cfg x attempt true head o w l err := by
  have hsettle := Untouched.observeAndSettleQuota cfg ticket attempt credential resp.status
    resp.header .empty attempt.quotaEstimate.tokens (x.tick .settle) (w.emit (.send ticket))
  unfold streamed at h
  generalize ((w.emit (.send ticket)).observeAndSettleQuota cfg ticket attempt credential resp.status
    resp.header .empty attempt.quotaEstimate.tokens (x.tick .settle)).1 = w1 at hsettle h
  have hperforms : Performs cfg attempt (resolveActions x) w (resolveProbes cfg x attempt w1) :=
    ((emit rfl w).thenUntouched hsettle).trans (resolveProbes_performs w1)
  have hsent : (resolveProbes cfg x attempt w1).sent = w.sent ++ [ticket] := by
    simp [resolveProbes, hsettle.sent, sentTicket]
  have hresponses : (resolveProbes cfg x attempt w1).responses = w.responses := by
    simp [resolveProbes, hsettle.responses, isResponse]
  simp only at h
  generalize resolveProbes cfg x attempt w1 = w2 at *
  split at h
  · next hwait =>
    simp only [Bool.and_eq_true, decide_eq_true_eq, Bool.not_eq_true'] at hwait
    obtain ⟨⟨htimeout, hlast⟩, htimer⟩ := hwait
    have htimer : resp.firstEvent.timerWins = true := by
      unfold awaitFirstStreamEvent at htimer
      split at htimer
      · assumption
      · cases htimer
    cases reserveFallback with
    | none =>
      cases h
      exact ⟨_, _, abandon_ends hsend hstatus hstream htimeout hlast htimer hperforms hsent hresponses⟩
    | some reserve =>
      simp only at h
      split at h
      · cases h
      · next w3 hreserve =>
        cases h
        have hu := hharmless reserve rfl _ _ _ hreserve
        exact ⟨_, _, abandon_ends hsend hstatus hstream htimeout hlast htimer
          (hperforms.thenUntouched hu) (hu.sent.trans hsent) (hu.responses.trans hresponses)⟩
      · next w3 hreserve =>
        cases h
        have hu := hharmless reserve rfl _ _ _ hreserve
        exact ⟨_, _, deliverStream_ends hsend hstatus hstream (hperforms.thenUntouched hu)
          (hu.sent.trans hsent) (hu.responses.trans hresponses)⟩
  · cases h
    exact ⟨_, _, deliverStream_ends hsend hstatus hstream hperforms hsent hresponses⟩

theorem buffered_ends (hsend : x.send = .ok resp) (hstatus : resp.status = 200)
    (hstream : isEventStream (resp.header "Content-Type") = false) (w : World) :
    let r := buffered cfg x credential attempt ticket resp (w.emit (.send ticket))
    ∃ head o, EndsWith cfg x attempt true head o w r.1 r.2 := by
  have hsettle := Untouched.observeAndSettleQuota cfg ticket attempt credential resp.status
    resp.header resp.errorBody
    (actualResponseTokens resp.buffered.usage attempt.quotaEstimate.tokens) (x.tick .settle)
    (w.emit (.send ticket))
  -- a body that is truncated and one that is too large end the same way
  have hbroken : ∀ message, Ends cfg x attempt.lastInChain true none (.broken message) →
      EndsWith cfg x attempt true none (.broken message) w
        ⟨resolveProvider cfg x attempt (blame cfg x attempt 502 message none
          (w.emit (.send ticket))), ticket, true, false⟩
        (some { statusCode := 502, message := message, retryable := true }) := by
    intro message hends
    refine ⟨hends, (emit rfl w).trans (blame_performs _ _ _), rfl, ?_, ?_, rfl⟩
    · simp [blame, resolveProvider, sentTicket]
    · simp [blame, resolveProvider, isResponse]
  unfold buffered
  simp only
  split
  · next text hread => exact ⟨_, _, hbroken _ (.truncated hsend hstatus hstream hread)⟩
  next hread =>
  split
  · next hlength => exact ⟨_, _, hbroken _ (.oversized hsend hstatus hstream hread hlength)⟩
  next hlength =>
  refine ⟨_, _, .delivered hsend hstatus hstream hread hlength, ?_, rfl, ?_, ?_, rfl⟩
  · exact ((((emit rfl w).thenUntouched hsettle).next _ _).next _ _).thenEmit rfl
  · simp [hsettle.sent, sentTicket]
  · simpa [hsettle.responses, isResponse] using hstatus

theorem sendRequest_ends (hharmless : Harmless reserveFallback)
    (h : sendRequest cfg x credential attempt reserveFallback ticket w = some (l, err)) :
    ∃ head o, EndsWith cfg x attempt true head o w l err := by
  unfold sendRequest at h
  simp only at h
  split at h
  · next e hsend =>
    obtain ⟨o, hends⟩ := transportFailed_ends hsend w
    rw [Option.some.inj h] at hends
    exact ⟨_, o, hends⟩
  · next resp hsend =>
    split at h
    · next hstatus =>
      obtain ⟨o, hends⟩ := rejected_ends hsend hstatus w
      rw [Option.some.inj h] at hends
      exact ⟨_, o, hends⟩
    · next hstatus =>
      have hstatus := Decidable.not_not.mp hstatus
      split at h
      · next hstream => exact streamed_ends hharmless hsend hstatus hstream h
      next hstream =>
      obtain ⟨head, o, hends⟩ := buffered_ends hsend hstatus (Bool.eq_false_iff.mpr hstream) w
      rw [Option.some.inj h] at hends
      exact ⟨head, o, hends⟩

theorem startRequest_ends (hharmless : Harmless reserveFallback)
    (h : startRequest cfg x credential attempt reserveFallback w = some (l, err)) :
    ∃ sent head o, EndsWith cfg x attempt sent head o w l err := by
  unfold startRequest at h
  split at h
  · next e hbuild =>
    cases h
    refine ⟨_, _, _, .unbuilt hbuild, resolveProbes_performs w, rfl, ?_, ?_, rfl⟩ <;>
      simp [resolveProbes]
  · next hbuild =>
    split at h
    · exact ⟨_, sendRequest_ends hharmless h⟩
    split at h
    · cases h
    · next w1 hreserve =>
      cases h
      have hu := Untouched.ofReservation (reserveFallbackQuota_cases hreserve)
      refine ⟨_, _, _, .refused hbuild, .afterUntouched hu (resolveProbes_performs w1), rfl, ?_, ?_,
        rfl⟩
      · simp [resolveProbes, hu.sent]
      · simp [resolveProbes, hu.responses]
    · next w1 ticket hreserve =>
      have hu := Untouched.ofReservation (reserveFallbackQuota_cases hreserve)
      obtain ⟨head, o, hends, hperforms, hflag, htickets, hresponses, hanswered⟩ :=
        sendRequest_ends hharmless h
      exact ⟨_, _, _, hends, .afterUntouched hu hperforms, hflag, hu.sent ▸ htickets,
        hu.responses ▸ hresponses, hanswered⟩

end Attempt

structure Admitted (cfg : Settings) (x : Script) (attempt : ModelAttempt) (w w' : World) :
    Prop where
  model : tryStart cfg.breaker (x.tick .startAttempt).now
      (w.service.modelBreakers.lookup (cfg.breakerKey attempt)) =
    (w'.service.modelBreakers.lookup (cfg.breakerKey attempt), true)
  provider : tryStart cfg.breaker (x.tick .startProvider).now
      (w.service.providerBreakers.lookup attempt.provider) =
    (w'.service.providerBreakers.lookup attempt.provider, true)
  elsewhere : w.service.SameElsewhere cfg attempt w'.service
  scores : w'.service.scoreAttempts = w.service.scoreAttempts
  quota : w'.service.quota = w.service.quota
  log : w'.log = w.log
  attempts : w'.attempts = w.attempts
  unavailable : w'.unavailable = w.unavailable

namespace ModelBreakerState

theorem tryStart_cases (config : BreakerConfig) (now : Time) (state : Option ModelBreakerState) :
    (tryStart config now state).1 = state ∨ ((tryStart config now state).2 = true ∧
        ∃ s probe, state = some s ∧
          (tryStart config now state).1 = some { s with probeUntil := probe }) := by
  cases state with
  | none => exact .inl rfl
  | some s =>
    unfold tryStart
    simp only
    split
    · exact .inl rfl
    split
    · exact .inl rfl
    · split
      · exact .inl rfl
      · exact .inr ⟨rfl, s, _, rfl, rfl⟩

end ModelBreakerState

/-- The table of circuits after a start: a missing entry stays missing. -/
def startIn {K : Type} [DecidableEq K] (config : BreakerConfig) (now : Time) (key : K)
    (m : GoMap K ModelBreakerState) : GoMap K ModelBreakerState :=
  match (tryStart config now (m.lookup key)).1 with
  | none => m
  | some state => m.insert key state

theorem lookup_startIn [DecidableEq K] (config : BreakerConfig) (now : Time)
    (key key' : K) (m : GoMap K ModelBreakerState) :
    (startIn config now key m).lookup key' =
      if key' = key then (tryStart config now (m.lookup key)).1
      else m.lookup key' := by
  unfold startIn
  split
  · next hnone =>
    rcases tryStart_cases config now (m.lookup key) with hsame | hclaim
    · split
      · next hkey => rw [hsame, hkey]
      · rfl
    · obtain ⟨-, s, probe, -, hsome⟩ := hclaim
      exact nomatch hnone.symm.trans hsome
  · next state hsome => rw [GoMap.lookup_insert_eq, hsome]

theorem RouterService.tryStartAttempt_eq (cfg : Settings) (attempt : ModelAttempt) (now : Time)
    (s : RouterService) : s.tryStartAttempt cfg attempt now =
      ({ s with modelBreakers := startIn cfg.breaker now (cfg.breakerKey attempt) s.modelBreakers },
        (tryStart cfg.breaker now (s.modelBreakers.lookup (cfg.breakerKey attempt))).2) := by
  unfold tryStartAttempt startIn
  generalize tryStart cfg.breaker now _ = started
  obtain ⟨state, ok⟩ := started
  cases state <;> rfl

theorem RouterService.tryStartProvider_eq (cfg : Settings) (attempt : ModelAttempt) (now : Time)
    (s : RouterService) : s.tryStartProvider cfg attempt now =
      ({ s with providerBreakers := startIn cfg.breaker now attempt.provider s.providerBreakers },
        (tryStart cfg.breaker now (s.providerBreakers.lookup attempt.provider)).2) := by
  unfold tryStartProvider startIn
  generalize tryStart cfg.breaker now _ = started
  obtain ⟨state, ok⟩ := started
  cases state <;> rfl

theorem RouterService.resolveProviderProbe_models (attempt : ModelAttempt) (s : RouterService) :
    (s.resolveProviderProbe attempt).modelBreakers = s.modelBreakers := by
  unfold resolveProviderProbe
  split <;> rfl

theorem lookup_startIn_refused [DecidableEq K] {config : BreakerConfig} {now : Time}
    {key : K} {m : GoMap K ModelBreakerState}
    (h : (tryStart config now (m.lookup key)).2 = false) (key' : K) :
    (startIn config now key m).lookup key' = m.lookup key' := by
  rw [lookup_startIn]
  split
  · next hkey =>
    rcases tryStart_cases config now (m.lookup key) with hsame | ⟨hok, -⟩
    · rw [hsame, hkey]
    · exact nomatch h.symm.trans hok
  · rfl

/-- The attempt has touched no circuit, sent nothing and written nothing. -/
structure NotStarted (w w' : World) : Prop where
  models : ∀ key, w'.service.modelBreakers.lookup key = w.service.modelBreakers.lookup key
  blames : w'.blames = w.blames
  sent : w'.sent = w.sent
  responses : w'.responses = w.responses

theorem NotStarted.thenUntouched {w'' : World} (h : NotStarted w w') (hu : Untouched w' w'') :
    NotStarted w w'' where
  models key := by rw [hu.models, h.models]
  blames := hu.blames.trans h.blames
  sent := hu.sent.trans h.sent
  responses := hu.responses.trans h.responses

namespace Attempt

theorem admission_cases (cfg : Settings) (x : Script) (attempt : ModelAttempt) (w : World) :
    let r := admission cfg x attempt w
    (r.2 = none ∧ Admitted cfg x attempt w r.1) ∨
      ((∃ message, r.2 = some (skipError 503 true message)) ∧ NotStarted w r.1) := by
  unfold admission
  rw [RouterService.tryStartProvider_eq]
  cases hprovider : (tryStart cfg.breaker (x.tick .startProvider).now
    (w.service.providerBreakers.lookup attempt.provider)).2 with
  | false => exact .inr ⟨⟨_, rfl⟩, fun _ => rfl, rfl, rfl, rfl⟩
  | true =>
    simp only [Bool.not_true, Bool.false_eq_true, if_false]
    rw [RouterService.tryStartAttempt_eq]
    cases hmodel : (tryStart cfg.breaker (x.tick .startAttempt).now
      (w.service.modelBreakers.lookup (cfg.breakerKey attempt))).2 with
    | false =>
      -- only the claim on the provider has to be given back
      have hmodels := fun s : RouterService => s.resolveProviderProbe_models attempt
      simp only [Bool.not_false, if_true]
      refine .inr ⟨⟨_, rfl⟩, fun key => ?_, ?_, ?_, ?_⟩
      · simp only [resolveProvider, service_act, perform, hmodels]
        exact lookup_startIn_refused hmodel key
      · exact blames_act _ _ _ _ _
      · exact sent_act _ _ _ _ _
      · exact responses_act _ _ _ _ _
    | true =>
      refine .inl ⟨rfl, ?_, ?_, ⟨fun key hkey => ?_, fun provider hne => ?_⟩, rfl, rfl, rfl, rfl, rfl⟩
      · show _ = ((startIn _ _ _ w.service.modelBreakers).lookup _, true)
        rw [lookup_startIn, if_pos rfl, ← hmodel]
      · show _ = ((startIn _ _ _ w.service.providerBreakers).lookup _, true)
        rw [lookup_startIn, if_pos rfl, ← hprovider]
      · exact (lookup_startIn _ _ _ key w.service.modelBreakers).trans (if_neg hkey)
      · exact (lookup_startIn _ _ _ provider w.service.providerBreakers).trans (if_neg hne)

theorem cleanup_untouched (cfg : Settings) (x : Script) (credential : String)
    (attempt : ModelAttempt) (l : Locals) :
    Untouched l.world (cleanup cfg x credential attempt l) := by
  unfold cleanup
  split
  · exact .refl _
  · split
    · exact .ofRun (.release _ _ _)
    · exact .observeAndSettleQuota _ _ _ _ _ _ _ _ _ _

end Attempt

theorem EndsWith.ofEstimate {sent : Bool} {head : Option Int} {o : Outcome} {l : Locals}
    (h : EndsWith cfg x { attempt with quotaEstimate := estimate } sent head o w l err) :
    EndsWith cfg x attempt sent head o w l err :=
  ⟨h.ending, ⟨h.performs.circuits, ⟨h.performs.elsewhere.models, h.performs.elsewhere.providers⟩,
    h.performs.blames⟩, h.flag, h.tickets, h.responses, h.answered⟩

theorem Admitted.ofEstimate (h : Admitted cfg x { attempt with quotaEstimate := estimate } w w') :
    Admitted cfg x attempt w w' :=
  ⟨h.model, h.provider, ⟨h.elsewhere.models, h.elsewhere.providers⟩, h.scores, h.quota, h.log,
    h.attempts, h.unavailable⟩

theorem Attempt.admitted_cases {credential : String} (hharmless : Harmless reserveFallback)
    (h : (match admission cfg x attempt w with
      | (w, some err) => some (⟨w, attempt.quotaTicket, false, false⟩, some err)
      | (w, none) => startRequest cfg x credential attempt reserveFallback w :
        Option (Locals × Option AttemptError)).map
        (fun r => (cleanup cfg x credential attempt r.1, r.2)) = some (w', err)) :
    (NotStarted w w' ∧ ∃ message, err = some (skipError 503 true message)) ∨
      ∃ w1 l sent head o, Admitted cfg x attempt w w1 ∧
        EndsWith cfg x attempt sent head o w1 l err ∧ l.world = w' := by
  obtain ⟨⟨l, err'⟩, hresult, heq⟩ := Option.map_eq_some_iff.mp h
  cases heq
  have hclean := cleanup_untouched cfg x credential attempt l
  have hadmission := admission_cases cfg x attempt w
  generalize admission cfg x attempt w = admitted at hresult hadmission
  obtain ⟨w1, refusal⟩ := admitted
  cases refusal with
  | some e =>
    cases hresult
    rcases hadmission with ⟨hnone, -⟩ | ⟨hskip, hnot⟩
    · cases hnone
    · exact .inl ⟨hnot.thenUntouched hclean, hskip⟩
  | none =>
    rcases hadmission with ⟨-, hadmitted⟩ | ⟨⟨message, hsome⟩, -⟩
    · obtain ⟨sent, head, o, hends⟩ := startRequest_ends hharmless hresult
      refine .inr ⟨w1, { l with world := cleanup cfg x credential attempt l }, sent, head, o,
        hadmitted, ⟨hends.ending, hends.performs.thenUntouched hclean, hends.flag, ?_, ?_,
          hends.answered⟩, rfl⟩
      · exact hclean.sent.trans hends.tickets
      · exact hclean.responses.trans hends.responses
    · cases hsome

theorem executeAttempt_cases (hharmless : Attempt.Harmless reserveFallback)
    (h : executeAttempt cfg x reserveFallback attempt w = some (w', err)) :
    (NotStarted w w' ∧ ∃ message, err = some (skipError 503 true message)) ∨
      ∃ w1 l sent head o, Admitted cfg x attempt w w1 ∧
        EndsWith cfg x attempt sent head o w1 l err ∧ l.world = w' := by
  unfold executeAttempt at h
  split at h
  · cases h
    exact .inl ⟨⟨fun _ => rfl, rfl, rfl, rfl⟩, _, rfl⟩
  · simp only at h
    split at h
    · rcases Attempt.admitted_cases hharmless h with hnot | ⟨w1, l, sent, head, o, hadm, hends, hw⟩
      · exact .inl hnot
      · exact .inr ⟨w1, l, sent, head, o, hadm.ofEstimate, hends.ofEstimate, hw⟩
    · exact Attempt.admitted_cases hharmless h

/-! ## The callback of the chain -/

/-- What `executeFallbacks` installs as the callback of an attempt. -/
inductive ChainCallback (cfg : Settings) : Option ReserveFallback → Prop
  | last : ChainCallback cfg none
  | next (baseEstimate : QuotaEstimate) (ticks : Nat → Tick) (u : Unavailable) (current : Nat) :
      ChainCallback cfg (some (reserveNextExecutableAttempt cfg baseEstimate ticks u current))

theorem Starts.callback {x : ChainScript} {execution : FallbackExecution} {s : ChainState} {i : Nat}
    {e : Started} (h : Starts cfg x execution s i e) : ChainCallback cfg e.reserveFallback := by
  obtain ⟨planned, -, -, rfl⟩ := h
  unfold startAt
  simp only
  split
  · exact .next _ _ _ _
  · exact .last

/-- The candidates of `reserveNextExecutableAttempt`, one after the other. -/
inductive Offers (u : Unavailable) : List (ModelAttempt × Nat) → World → World → Bool → Prop
  | ended (w : World) : Offers u [] w w false
  | skipped {w w' : World} {a : ModelAttempt} {i : Nat} {rest : List (ModelAttempt × Nat)}
      {b : Bool} (hskips : w.skips u a i = true) (h : Offers u rest w w' b) :
      Offers u ((a, i) :: rest) w w' b
  | held {w : World} {a : ModelAttempt} {i : Nat} {rest : List (ModelAttempt × Nat)}
      (hskips : w.skips u a i = false) (hvalid : a.quotaTicket.valid = true) :
      Offers u ((a, i) :: rest) w w true
  | refused {w w1 w' : World} {a : ModelAttempt} {i : Nat} {rest : List (ModelAttempt × Nat)}
      {b : Bool} (hreads : Reads w w1)
      (h : Offers u rest { w1 with unavailable := i :: w1.unavailable } w' b) :
      Offers u ((a, i) :: rest) w w' b
  | drawn {w w1 : World} {a : ModelAttempt} {i : Nat} {rest : List (ModelAttempt × Nat)}
      {t : QuotaTicket} (hskips : w.skips u a i = false) (hvalid : a.quotaTicket.valid = false)
      (hreserves : Reserves w w1 (some t)) : Offers u ((a, i) :: rest) w
        { w1 with attempts := w1.attempts.set i { a with quotaTicket := t } } true

theorem World.reserveAmong_offers {baseEstimate : QuotaEstimate} {ticks : Nat → Tick}
    {u : Unavailable} {candidates : List (ModelAttempt × Nat)} {b : Bool}
    (h : reserveAmong cfg baseEstimate ticks u candidates w = some (w', b)) :
    Offers u candidates w w' b := by
  induction candidates generalizing w with
  | nil =>
    cases h
    exact .ended _
  | cons c rest ih =>
    unfold reserveAmong at h
    split at h
    · next hskips => exact .skipped hskips (ih h)
    next hskips =>
    split at h
    · next hvalid =>
      cases h
      exact .held (eq_false_of_ne_true hskips) hvalid
    next hvalid =>
    split at h
    · cases h
    · next hreserve =>
      cases reserveQuota_cases hreserve with
      | refused hread => exact .refused hread (ih h)
    · next hreserve =>
      cases h
      cases reserveQuota_cases hreserve with
      | drawn hreserves =>
        exact .drawn (eq_false_of_ne_true hskips) (eq_false_of_ne_true hvalid) hreserves

theorem ChainCallback.offers {reserve : ReserveFallback} {b : Bool}
    (h : ChainCallback cfg (some reserve)) (hcall : reserve w = some (w', b)) :
    ∃ u candidates, Offers u candidates w w' b := by
  cases h
  exact ⟨_, _, reserveAmong_offers hcall⟩

theorem Offers.untouched {u : Unavailable} {candidates : List (ModelAttempt × Nat)} {b : Bool}
    (h : Offers u candidates w w' b) : Untouched w w' := by
  induction h with
  | ended | held => exact .refl _
  | skipped _ _ ih => exact ih
  | @refused _ w1 _ _ i _ _ hreads _ ih =>
    have hmark : Untouched w1 { w1 with unavailable := i :: w1.unavailable } :=
      ⟨rfl, rfl, rfl, rfl, rfl, rfl⟩
    exact ((Untouched.ofReservation (.refused hreads)).trans hmark).trans ih
  | drawn _ _ hreserves =>
    exact (Untouched.ofReservation (.drawn hreserves)).trans ⟨rfl, rfl, rfl, rfl, rfl, rfl⟩

theorem ChainCallback.harmless (h : ChainCallback cfg reserveFallback) :
    Attempt.Harmless reserveFallback := by
  rintro reserve rfl w w' b hcall
  obtain ⟨_, _, hoffers⟩ := h.offers hcall
  exact hoffers.untouched

end CalvoProxy
