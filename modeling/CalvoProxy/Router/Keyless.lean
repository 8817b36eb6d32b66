import CalvoProxy.Router.Holding

/-!
# Requests that may not use the keys of the process

`providerCredential` is the only reader of the keys of the process, so a request that may not use
them is dispatched as if there were none (`dispatchChain_withoutKeys`). Each function of the
dispatch has a lemma that says so of it, and is only unfolded there.
-/

namespace CalvoProxy

open World

namespace Settings

def withoutKeys (cfg : Settings) : Settings := { cfg with cerebrasKey := "", groqKey := "" }

variable {cfg : Settings}

theorem providerCredential_withoutKeys (h : cfg.ambientAllowed = false) (attempt : ModelAttempt) :
    cfg.withoutKeys.providerCredential attempt = cfg.providerCredential attempt := by
  have h' : cfg.withoutKeys.ambientAllowed = false := h
  unfold providerCredential
  simp only [h, h', Bool.false_eq_true, if_false]
  rfl

theorem configured_withoutKeys (h : cfg.ambientAllowed = false) (attempt : ModelAttempt) :
    cfg.withoutKeys.configured attempt = cfg.configured attempt := by
  unfold configured
  rw [providerCredential_withoutKeys h]

end Settings

open Settings

section Attempt

variable {cfg : Settings} (x : Script) (credential : String) (attempt : ModelAttempt)

theorem observeFacts_withoutKeys (now : Time) (os : List ProviderQuotaObservation)
    (facts : GoMap QuotaBucketKey QuotaObservation) (w : World) :
    w.observeFacts cfg.withoutKeys credential now os facts =
      w.observeFacts cfg credential now os facts := by
  induction os generalizing facts w with
  | nil => rfl
  | cons o os ih =>
    unfold observeFacts
    simp only [ih]
    rfl

theorem observeProviderQuota_withoutKeys :
    observeProviderQuota cfg.withoutKeys = observeProviderQuota cfg := by
  have hduration : cfg.withoutKeys.parseDuration = cfg.parseDuration := rfl
  have htime : cfg.withoutKeys.parseTime = cfg.parseTime := rfl
  funext provider model status header body now
  unfold observeProviderQuota providerSignals observeCerebrasQuota observeGroqQuota
    parseRetryAfterAt resetDurationOrTimestamp
  rw [hduration, htime]

theorem observeAndSettleQuota_withoutKeys (ticket : QuotaTicket) (status : Int)
    (header : String → String) (body : ErrorBody) (actualTokens : Int64) (t : Tick) (w : World) :
    w.observeAndSettleQuota cfg.withoutKeys ticket attempt credential status header body
        actualTokens t =
      w.observeAndSettleQuota cfg ticket attempt credential status header body actualTokens t := by
  unfold observeAndSettleQuota
  simp only [observeFacts_withoutKeys, observeProviderQuota_withoutKeys]

namespace Attempt

theorem cleanup_withoutKeys (l : Locals) :
    cleanup cfg.withoutKeys x credential attempt l = cleanup cfg x credential attempt l := by
  unfold cleanup
  rw [observeAndSettleQuota_withoutKeys]

variable (ticket : QuotaTicket)

theorem rejected_withoutKeys (resp : Response) (w : World) :
    rejected cfg.withoutKeys x credential attempt ticket resp w =
      rejected cfg x credential attempt ticket resp w := by
  have htime : cfg.withoutKeys.parseTime = cfg.parseTime := rfl
  have hretry : parseRetryAfter cfg.withoutKeys = parseRetryAfter cfg := by
    unfold parseRetryAfter
    rw [htime]
  have hcooldown : RouterService.setQuotaCooldown cfg.withoutKeys =
      RouterService.setQuotaCooldown cfg := rfl
  have hprobes : resolveProbes cfg.withoutKeys x = resolveProbes cfg x := rfl
  have hjudge : judge cfg.withoutKeys x attempt = judge cfg x attempt := rfl
  unfold rejected
  simp only [observeAndSettleQuota_withoutKeys, hretry, hcooldown, hprobes, hjudge]

variable (reserveFallback : Option ReserveFallback)

theorem streamed_withoutKeys (ticket : QuotaTicket) (resp : Response) (w : World) :
    streamed cfg.withoutKeys x credential attempt reserveFallback ticket resp w =
      streamed cfg x credential attempt reserveFallback ticket resp w := by
  unfold streamed
  rw [observeAndSettleQuota_withoutKeys]
  rfl

theorem buffered_withoutKeys (resp : Response) (w : World) :
    buffered cfg.withoutKeys x credential attempt ticket resp w =
      buffered cfg x credential attempt ticket resp w := by
  unfold buffered
  simp only [observeAndSettleQuota_withoutKeys]
  rfl

theorem sendRequest_withoutKeys (ticket : QuotaTicket) (w : World) :
    sendRequest cfg.withoutKeys x credential attempt reserveFallback ticket w =
      sendRequest cfg x credential attempt reserveFallback ticket w := by
  unfold sendRequest
  simp only [rejected_withoutKeys, streamed_withoutKeys, buffered_withoutKeys]
  rfl

theorem startRequest_withoutKeys (w : World) :
    startRequest cfg.withoutKeys x credential attempt reserveFallback w =
      startRequest cfg x credential attempt reserveFallback w := by
  unfold startRequest
  simp only [sendRequest_withoutKeys]
  rfl

end Attempt

theorem executeAttempt_withoutKeys (h : cfg.ambientAllowed = false)
    (reserveFallback : Option ReserveFallback) (w : World) :
    executeAttempt cfg.withoutKeys x reserveFallback attempt w =
      executeAttempt cfg x reserveFallback attempt w := by
  unfold executeAttempt
  simp only [configured_withoutKeys h, providerCredential_withoutKeys h,
    Attempt.startRequest_withoutKeys, Attempt.cleanup_withoutKeys]
  rfl

end Attempt

section Chain

variable {cfg : Settings} (h : cfg.ambientAllowed = false) (baseEstimate : QuotaEstimate)
include h

theorem reserveQuota_withoutKeys (attempt : ModelAttempt) (t : Tick) (w : World) :
    w.reserveQuota cfg.withoutKeys baseEstimate attempt t =
      w.reserveQuota cfg baseEstimate attempt t := by
  unfold reserveQuota
  rw [configured_withoutKeys h, providerCredential_withoutKeys h]
  rfl

theorem reserveAmong_withoutKeys (ticks : Nat → Tick) (u : Unavailable)
    (candidates : List (ModelAttempt × Nat)) (w : World) :
    w.reserveAmong cfg.withoutKeys baseEstimate ticks u candidates =
      w.reserveAmong cfg baseEstimate ticks u candidates := by
  induction candidates generalizing w with
  | nil => rfl
  | cons c rest ih =>
    unfold reserveAmong
    simp only [reserveQuota_withoutKeys h, ih]

theorem reserveNext_withoutKeys (ticks : Nat → Tick) (u : Unavailable) (current : Nat) :
    reserveNextExecutableAttempt cfg.withoutKeys baseEstimate ticks u current =
      reserveNextExecutableAttempt cfg baseEstimate ticks u current :=
  funext fun w => reserveAmong_withoutKeys h baseEstimate ticks u (w.remaining current) w

omit baseEstimate in
theorem chainLoop_withoutKeys (x : ChainScript) (execution : FallbackExecution) (n i : Nat)
    (s : ChainState) :
    chainLoop cfg.withoutKeys x execution n i s = chainLoop cfg x execution n i s := by
  have hstart : ∀ s planned i, startAt cfg.withoutKeys x execution s planned i =
      startAt cfg x execution s planned i := by
    intro s planned i
    have hestimate : estimateRequestQuota cfg.withoutKeys execution.requestBody =
        estimateRequestQuota cfg execution.requestBody := rfl
    unfold startAt
    simp only [executeAttempt_withoutKeys _ _ h, reserveNext_withoutKeys h, hestimate]
  induction n generalizing i s with
  | zero => rfl
  | succ n ih =>
    unfold chainLoop
    simp only [ih, hstart]

omit baseEstimate in
theorem executeFallbacks_withoutKeys (x : ChainScript) (execution : FallbackExecution) (w : World) :
    executeFallbacks cfg.withoutKeys x execution w = executeFallbacks cfg x execution w := by
  unfold executeFallbacks
  rw [chainLoop_withoutKeys h]

end Chain

section Request

variable {cfg : Settings} (h : cfg.ambientAllowed = false) (estimate : QuotaEstimate) (now : Time)
include h

theorem quotaRetryAfter_withoutKeys (attempts : List ModelAttempt) (soonest : Duration)
    (w : World) :
    w.quotaRetryAfterForAttempts cfg.withoutKeys estimate now attempts soonest =
      w.quotaRetryAfterForAttempts cfg estimate now attempts soonest := by
  induction attempts generalizing soonest w with
  | nil => rfl
  | cons a rest ih =>
    unfold quotaRetryAfterForAttempts
    simp only [providerCredential_withoutKeys h, ih]
    rfl

theorem quotaFitting_withoutKeys (attempts : List ModelAttempt) (w : World) :
    w.quotaFitting cfg.withoutKeys estimate now attempts =
      w.quotaFitting cfg estimate now attempts := by
  induction attempts generalizing w with
  | nil => rfl
  | cons a rest ih =>
    unfold quotaFitting
    simp only [providerCredential_withoutKeys h, ih]
    rfl

theorem groupPressures_withoutKeys (groups : List ProviderGroup) (w : World) :
    w.groupPressures cfg.withoutKeys estimate now groups =
      w.groupPressures cfg estimate now groups := by
  induction groups generalizing w with
  | nil => rfl
  | cons g rest ih =>
    unfold groupPressures
    simp only [providerCredential_withoutKeys h, ih]
    rfl

theorem reservePrimary_withoutKeys (ticks : Nat → Tick) (attempts : List ModelAttempt) (w : World) :
    w.reservePrimary cfg.withoutKeys estimate now ticks attempts =
      w.reservePrimary cfg estimate now ticks attempts := by
  induction attempts generalizing w with
  | nil => rfl
  | cons a rest ih =>
    unfold reservePrimary
    simp only [providerCredential_withoutKeys h, ih]
    rfl

omit now in
theorem quotaRankAndReserve_withoutKeys (round : HoldRound) (attempts : List ModelAttempt)
    (w : World) :
    w.quotaRankAndReserve cfg.withoutKeys round estimate attempts =
      w.quotaRankAndReserve cfg round estimate attempts := by
  unfold quotaRankAndReserve
  simp only [quotaFitting_withoutKeys h, groupPressures_withoutKeys h, reservePrimary_withoutKeys h]

omit now in
theorem refuseRequest_withoutKeys (round : HoldRound) (attempts : List ModelAttempt) (w : World) :
    refuseRequest cfg.withoutKeys round estimate attempts w =
      refuseRequest cfg round estimate attempts w := by
  unfold refuseRequest
  rw [quotaRetryAfter_withoutKeys h]
  rfl

variable (r : Request)

omit estimate now in
theorem attemptsToTry_withoutKeys : r.attemptsToTry cfg.withoutKeys = r.attemptsToTry cfg := by
  have hfilter : ∀ attempts, r.filterConfiguredAttempts cfg.withoutKeys attempts =
      r.filterConfiguredAttempts cfg attempts := by
    intro attempts
    unfold Request.filterConfiguredAttempts
    simp only [configured_withoutKeys h]
  unfold Request.attemptsToTry
  simp only [hfilter]

omit now in
theorem holdLoop_withoutKeys (contextEstimate : QuotaEstimate) (attempts : List ModelAttempt)
    (k : Nat) (budget : Duration) (w : World) :
    r.holdLoop cfg.withoutKeys estimate contextEstimate attempts k budget w =
      r.holdLoop cfg estimate contextEstimate attempts k budget w := by
  refine @Request.holdRounds cfg r estimate contextEstimate attempts (fun k budget w =>
    r.holdLoop cfg.withoutKeys estimate contextEstimate attempts k budget w =
      r.holdLoop cfg estimate contextEstimate attempts k budget w)
    (fun k budget w hagain => ?_) k budget w
  have hround : r.holdRound cfg.withoutKeys estimate contextEstimate attempts k budget w =
      r.holdRound cfg estimate contextEstimate attempts k budget w := by
    have havailable : ∀ (s : RouterService) (t : Time) (a : ModelAttempt),
        s.isModelAvailable cfg.withoutKeys a t = s.isModelAvailable cfg a t := fun _ _ _ => rfl
    unfold Request.holdRound Request.eligible
    simp only [havailable, quotaRankAndReserve_withoutKeys h, quotaRetryAfter_withoutKeys h]
  rw [Request.holdLoop_eq, Request.holdLoop_eq, hround]
  split
  · rfl
  · rfl
  · rfl
  · rw [refuseRequest_withoutKeys h]
  · rfl
  · next wait w1 hnext => exact hagain wait w1 hnext

omit estimate now in
theorem runChain_withoutKeys (first : ModelAttempt) (rest : List ModelAttempt) (w : World) :
    runChain cfg.withoutKeys r first rest w = runChain cfg r first rest w := by
  unfold runChain
  simp only [executeFallbacks_withoutKeys h]

omit estimate now in
theorem dispatchChain_withoutKeys (w : World) :
    dispatchChain cfg.withoutKeys r w = dispatchChain cfg r w := by
  have hestimate : estimateRequestQuota cfg.withoutKeys = estimateRequestQuota cfg := rfl
  have hcontext : estimateRequestContext cfg.withoutKeys = estimateRequestContext cfg := rfl
  have hbudget : quotaHoldBudget cfg.withoutKeys = quotaHoldBudget cfg := rfl
  unfold dispatchChain
  simp only [attemptsToTry_withoutKeys h, holdLoop_withoutKeys h, runChain_withoutKeys h, hestimate,
    hcontext, hbudget]

end Request

end CalvoProxy
