import CalvoProxy.Quota.Held
import CalvoProxy.Router.Ending

/-!
# The steps of an attempt

What an attempt does to the world, one step at a time. `Steps n` draw at most `n` tickets, an
attempt at most two (`executeAttempt_steps`). What holds of every step holds of every attempt.
-/

namespace CalvoProxy

open List AttemptError RouterService QuotaLedger World

variable {w1 w2 w w' : World} {cfg : Settings} {reserveFallback : Option ReserveFallback}
  {es : List LedgerEvent} {k n : Nat}

inductive Calm : World → World → Prop
  | refl (w : World) : Calm w w
  | trans {w w1 w2 : World} (h : Calm w w1) (h' : Calm w1 w2) : Calm w w2
  | act (cfg : Settings) (attempt : ModelAttempt) (now : Time) (action : BreakerAction)
      (w : World) : Calm w (w.act cfg attempt now action)
  | head (status : Int) (w : World) : Calm w (w.emit (.head status))
  | reads {w w' : World} (h : Reads w w') : Calm w w'
  | service {s : RouterService} (w : World) (h : s.quota = w.service.quota) :
      Calm w { w with service := s }

theorem Calm.ite {p : Prop} [Decidable p] (h : Calm w w1) (h' : Calm w w2) :
    Calm w (if p then w1 else w2) := by
  split
  · exact h
  · exact h'

/-- Steps of an attempt that draw at most `n` tickets. -/
inductive Steps : Nat → World → World → Prop
  | calm {w w' : World} (h : Calm w w') (n : Nat) : Steps n w w'
  | trans {a b : Nat} {w w1 w2 : World} (h : Steps a w w1) (h' : Steps b w1 w2) : Steps (a + b) w w2
  | send (w : World) (t : QuotaTicket) : Steps 0 w (w.emit (.send t))
  | release (w : World) (t : QuotaTicket) (tick : Tick) : Steps 0 w (w.release t tick)
  | reconcile (w : World) (t : QuotaTicket) (settlements : List QuotaSettlement) (tick : Tick) :
      Steps 0 w (w.reconcile t settlements tick)
  | reserves {w w' : World} {t : QuotaTicket} (h : Reserves w w' (some t)) : Steps 1 w w'
  | plan (w : World) (attempts : List ModelAttempt) (unavailable : List Nat) :
      Steps 0 w { w with attempts := attempts, unavailable := unavailable }

def firstEventError (model : String) : AttemptError :=
  skipError 503 true ("no stream event from " ++ model ++ " within the first-event budget")

def Script.Streams (x : Script) (resp : Response) : Prop :=
  x.send = .ok resp ∧ resp.status = 200 ∧ isEventStream (resp.header "Content-Type") = true

namespace Attempt

variable {x : Script} {credential : String} {attempt : ModelAttempt} {ticket : QuotaTicket}
  {resp : Response}

theorem resolveProbes_calm (w : World) : Calm w (resolveProbes cfg x attempt w) :=
  (Calm.act _ _ _ _ w).trans (.act _ _ _ _ _)

theorem blame_calm (statusCode : Int) (message : String) (retryAfter : Option Duration)
    (w : World) :
    Calm w (resolveProvider cfg x attempt (blame cfg x attempt statusCode message retryAfter w)) :=
  ((Calm.act _ _ _ _ w).trans (.act _ _ _ _ _)).trans (.act _ _ _ _ _)

theorem judge_calm (err : AttemptError) (wait : Duration) (w : World) :
    Calm w (judge cfg x attempt resp err wait w) :=
  (((Calm.ite (.refl w) (.act _ _ _ _ w)).trans (.ite (.act _ _ _ _ _) (.refl _))).trans
    (.ite (.act _ _ _ _ _) (.act _ _ _ _ _))).trans (.ite (.act _ _ _ _ _) (.refl _))

theorem setQuotaCooldown_calm (now : Time) (duration : Duration) (w : World) :
    Calm w { w with service := (w.service.setQuotaCooldown cfg attempt now duration).1 } := by
  refine .service w ?_
  simp only [setQuotaCooldown]
  generalize (if duration ≤ 0 then 2 * Time.second else duration) = wait
  split <;> rfl

theorem deliverStream_calm (w : World) :
    Calm w (deliverStream cfg x attempt ticket resp w).1.world :=
  (Calm.head _ w).trans
    (.ite ((Calm.act _ _ _ _ _).trans (.act _ _ _ _ _)) (.ite (blame_calm _ _ _ _) (.refl _)))

theorem admission_calm (cfg : Settings) (x : Script) (attempt : ModelAttempt) (w : World) :
    Calm w (admission cfg x attempt w).1 := by
  unfold admission
  rw [tryStartProvider_eq]
  simp only
  split
  · exact .service w rfl
  rw [tryStartAttempt_eq]
  simp only
  split
  · refine Calm.trans ?_ (Calm.act cfg attempt (x.tick .score).now .resolveProviderProbe _)
    exact .service w rfl
  · exact .service w rfl

theorem settle_steps {status : Int} {header : String → String} {body : ErrorBody}
    {actualTokens : Int64} {tick : Tick} (w : World) :
    Steps 0 w (w.observeAndSettleQuota cfg ticket attempt credential status header body
      actualTokens tick).1 := by
  rw [observeAndSettleQuota_eq]
  have hread := Reads.observeFacts cfg credential tick.now
    (observeProviderQuota cfg attempt.provider attempt.model status header body tick.now) ∅ w
  simp only
  split
  · exact (Steps.calm (.reads hread) 0).trans (.reconcile _ _ _ _)
  · exact .calm (.reads hread) 0

theorem cleanup_steps (l : Locals) : Steps 0 l.world (cleanup cfg x credential attempt l) := by
  unfold cleanup
  split
  · exact .calm (.refl _) 0
  · split
    · exact .release _ _ _
    · exact settle_steps _

theorem cleanup_settled (w : World) (sent : Bool) :
    cleanup cfg x credential attempt ⟨w, ticket, sent, true⟩ = w := by
  simp [cleanup]

section

variable (cfg x credential attempt) (reserveFallback : Option ReserveFallback)

def Settles (ticket : QuotaTicket) (w w' : World) : Prop :=
  ∃ status header body tokens tick, w' =
    (w.observeAndSettleQuota cfg ticket attempt credential status header body tokens tick).1

/-- What an attempt with a ticket does, and its error: the ticket is settled with the response or by
the cleanup, and a stream that is given up asks the callback. -/
inductive Sends (ticket : QuotaTicket) (w : World) : World → Option AttemptError → Prop
  | failed {w1 : World} {err : AttemptError} (hcalm : Calm (w.emit (.send ticket)) w1)
      (herr : err ≠ firstEventError attempt.model) (hother : ∀ resp, ¬x.Streams resp) :
      Sends ticket w (cleanup cfg x credential attempt ⟨w1, ticket, true, false⟩) (some err)
  | settled {w1 w' : World} {err : Option AttemptError}
      (hsettle : Settles cfg credential attempt ticket (w.emit (.send ticket)) w1)
      (hcalm : Calm w1 w') (herr : err ≠ some (firstEventError attempt.model))
      (hstream : ∀ resp, x.Streams resp → err = none) : Sends ticket w w' err
  | unguarded {w1 w' : World}
      (hsettle : Settles cfg credential attempt ticket (w.emit (.send ticket)) w1)
      (hcalm : Calm w1 w') (hnone : reserveFallback = none) (hlast : attempt.lastInChain = false) :
      Sends ticket w w' (some (firstEventError attempt.model))
  | abandoned {reserve : ReserveFallback} {w1 w2 w3 : World}
      (hsettle : Settles cfg credential attempt ticket (w.emit (.send ticket)) w1)
      (hcalm : Calm w1 w2) (hreserve : reserveFallback = some reserve)
      (hcall : reserve w2 = some (w3, true)) (now : Time) (action : BreakerAction) :
      Sends ticket w (w3.act cfg attempt now action) (some (firstEventError attempt.model))
  | kept {reserve : ReserveFallback} {w1 w2 w3 w' : World}
      (hsettle : Settles cfg credential attempt ticket (w.emit (.send ticket)) w1)
      (hcalm : Calm w1 w2) (hreserve : reserveFallback = some reserve)
      (hcall : reserve w2 = some (w3, false)) (hcalm' : Calm w3 w') : Sends ticket w w' none

/-- What a configured attempt does, and its error: it sends with its ticket or with one that it
draws, or does not send. -/
inductive Runs (w : World) : World → Option AttemptError → Prop
  | unsent {w1 : World} {err : AttemptError} (hcalm : Calm w w1)
      (herr : err ≠ firstEventError attempt.model) :
      Runs w (cleanup cfg x credential attempt ⟨w1, attempt.quotaTicket, false, false⟩) (some err)
  | unreserved {w' : World} {err : AttemptError} (hinvalid : attempt.quotaTicket.valid = false)
      (hcalm : Calm w w') (herr : err ≠ firstEventError attempt.model) : Runs w w' (some err)
  | carried {w1 w' : World} {err : Option AttemptError} (hvalid : attempt.quotaTicket.valid = true)
      (hcalm : Calm w w1)
      (h : Sends cfg x credential attempt reserveFallback attempt.quotaTicket w1 w' err) :
      Runs w w' err
  | drawn {w1 w2 w' : World} {ticket : QuotaTicket} {err : Option AttemptError}
      (hinvalid : attempt.quotaTicket.valid = false) (hcalm : Calm w w1)
      (hreserves : Reserves w1 w2 (some ticket))
      (h : Sends cfg x credential attempt reserveFallback ticket w2 w' err) : Runs w w' err

end

variable {reserveFallback : Option ReserveFallback} {l : Locals} {err : Option AttemptError}

theorem classifyTransportError_ne (e : TransportError) (model : String) :
    classifyTransportError e ≠ firstEventError model := fun h => by
  have heligible := congrArg breakerEligible h
  cases heligible

theorem responseError_ne (wait : Duration) (poolExhausted : Bool) (model : String) :
    responseError attempt resp wait poolExhausted ≠ firstEventError model := fun h => by
  have heligible : breakerEligibleStatus resp.status = false :=
    congrArg breakerEligible h
  have hretryable : breakerEligibleStatus resp.status = true := congrArg retryable h
  cases heligible.symm.trans hretryable

theorem skipError_ne {message : String} (h : message.toList.head? ≠ some 'n') (model : String) :
    skipError 503 true message ≠ firstEventError model := fun heq => by
  have hmessage : message = "no stream event from " ++ model ++ " within the first-event budget" :=
    congrArg AttemptError.message heq
  rw [hmessage] at h
  simp at h

theorem rejected_sends (hother : ∀ resp, ¬x.Streams resp) (w : World) :
    let r := rejected cfg x credential attempt ticket resp (w.emit (.send ticket))
    Sends cfg x credential attempt reserveFallback ticket w (cleanup cfg x credential attempt r.1)
      r.2 := by
  unfold rejected
  generalize hsettled : (w.emit (.send ticket)).observeAndSettleQuota cfg ticket attempt credential
    resp.status resp.header resp.errorBody attempt.quotaEstimate.tokens (x.tick .settle) = settled
  have hsettle : Settles cfg credential attempt ticket (w.emit (.send ticket)) settled.1 :=
    ⟨_, _, _, _, _, congrArg Prod.fst hsettled.symm⟩
  obtain ⟨w1, observations⟩ := settled
  simp only
  generalize quotaVerdict _ observations = verdict
  obtain ⟨retryAfter, poolExhausted⟩ := verdict
  have hend : ∀ {w' : World} {wait : Duration}, Calm w1 w' →
      Sends cfg x credential attempt reserveFallback ticket w w'
        (some (responseError attempt resp wait poolExhausted)) := fun hcalm =>
    .settled hsettle hcalm (fun heq => responseError_ne _ _ _ (Option.some.inj heq))
      fun resp' hresp => absurd hresp (hother resp')
  simp only
  split
  · rw [cleanup_settled]
    exact hend (((setQuotaCooldown_calm _ _ w1).trans (resolveProbes_calm _)).trans
      (judge_calm _ _ _))
  · rw [cleanup_settled]
    exact hend (judge_calm _ _ _)

theorem streamed_sends
    (h : streamed cfg x credential attempt reserveFallback ticket resp (w.emit (.send ticket)) =
      some (l, err)) :
    Sends cfg x credential attempt reserveFallback ticket w (cleanup cfg x credential attempt l)
      err := by
  unfold streamed at h
  generalize hsettled : ((w.emit (.send ticket)).observeAndSettleQuota cfg ticket attempt credential
    resp.status resp.header .empty attempt.quotaEstimate.tokens (x.tick .settle)).1 = w1 at h
  have hsettle : Settles cfg credential attempt ticket (w.emit (.send ticket)) w1 :=
    ⟨_, _, _, _, _, hsettled.symm⟩
  have hresolved := @resolveProbes_calm cfg x attempt w1
  simp only at h
  generalize resolveProbes cfg x attempt w1 = w2 at hresolved h
  split at h
  · next hwait =>
    simp only [Bool.and_eq_true, Bool.not_eq_true'] at hwait
    cases reserveFallback with
    | none =>
      cases h
      rw [cleanup_settled]
      exact .unguarded hsettle (hresolved.trans (.act _ _ _ _ _)) rfl hwait.1.2
    | some reserve =>
      simp only at h
      split at h
      · cases h
      · next w3 hcall =>
        cases h
        rw [cleanup_settled]
        exact .abandoned hsettle hresolved rfl hcall _ _
      · next w3 hcall =>
        cases h
        have hdelivered := @deliverStream_calm cfg x attempt ticket resp w3
        rw [cleanup_settled]
        exact .kept hsettle hresolved rfl hcall hdelivered
  · cases h
    have hdelivered := @deliverStream_calm cfg x attempt ticket resp w2
    rw [cleanup_settled]
    exact .settled hsettle (hresolved.trans hdelivered) (fun hnone => by cases hnone) fun _ _ => rfl

theorem buffered_sends (hother : ∀ resp, ¬x.Streams resp) (w : World) :
    let r := buffered cfg x credential attempt ticket resp (w.emit (.send ticket))
    Sends cfg x credential attempt reserveFallback ticket w (cleanup cfg x credential attempt r.1)
      r.2 := by
  have hbroken : ∀ message : String, { statusCode := 502, message := message, retryable := true } ≠
      firstEventError attempt.model := fun message heq => by
    have hstatus := congrArg statusCode heq
    cases hstatus
  unfold buffered
  simp only
  split
  · exact .failed (blame_calm _ _ _ _) (hbroken _) hother
  split
  · exact .failed (blame_calm _ _ _ _) (hbroken _) hother
  rw [cleanup_settled]
  exact .settled ⟨_, _, _, _, _, rfl⟩
    (((Calm.act _ _ _ _ _).trans (.act _ _ _ _ _)).trans (.head _ _))
    (fun hnone => by cases hnone) fun _ _ => rfl

theorem sendRequest_sends
    (h : sendRequest cfg x credential attempt reserveFallback ticket w = some (l, err)) :
    Sends cfg x credential attempt reserveFallback ticket w (cleanup cfg x credential attempt l)
      err := by
  unfold sendRequest at h
  simp only at h
  split at h
  · next e hsend =>
    have hother : ∀ resp, ¬x.Streams resp := fun _ hresp => by cases hsend.symm.trans hresp.1
    unfold transportFailed at h
    split at h
    · cases h
      refine .failed (resolveProbes_calm _) (fun heq => ?_) hother
      have hretryable := congrArg retryable heq
      cases hretryable
    · cases h
      exact .failed (blame_calm _ _ _ _) (classifyTransportError_ne e _) hother
  · next resp hsend =>
    have hother : ∀ {p : Prop}, ¬p → (x.Streams resp → p) → ∀ resp', ¬x.Streams resp' := by
      intro p hnot hp resp' hresp
      cases hsend.symm.trans hresp.1
      exact hnot (hp hresp)
    split at h
    · next hstatus =>
      have hsends := @rejected_sends cfg x credential attempt ticket resp reserveFallback
        (hother hstatus (·.2.1)) w
      rwa [Option.some.inj h] at hsends
    · split at h
      · exact streamed_sends h
      next hstream =>
      have hsends := @buffered_sends cfg x credential attempt ticket resp reserveFallback
        (hother hstream (·.2.2)) w
      rwa [Option.some.inj h] at hsends

theorem startRequest_runs {w0 : World} (hcalm : Calm w0 w)
    (h : startRequest cfg x credential attempt reserveFallback w = some (l, err)) :
    Runs cfg x credential attempt reserveFallback w0 (cleanup cfg x credential attempt l) err := by
  unfold startRequest at h
  split at h
  · next e _ =>
    cases h
    exact .unsent (hcalm.trans (resolveProbes_calm w)) (classifyTransportError_ne e _)
  · split at h
    · next hvalid => exact .carried hvalid hcalm (sendRequest_sends h)
    next hvalid =>
    have hinvalid := Bool.eq_false_iff.mpr hvalid
    split at h
    · cases h
    · next w1 hreserve =>
      cases h
      cases reserveFallbackQuota_cases hreserve with
      | refused hread =>
        refine .unreserved hinvalid ((hcalm.trans (.reads hread)).trans (resolveProbes_calm w1))
          fun heq => ?_
        have hstatus := congrArg statusCode heq
        cases hstatus
    · next w1 ticket hreserve =>
      cases reserveFallbackQuota_cases hreserve with
      | drawn hreserves => exact .drawn hinvalid hcalm hreserves (sendRequest_sends h)

theorem admission_ne {e : AttemptError} (h : (admission cfg x attempt w).2 = some e)
    (model : String) : e ≠ firstEventError model := by
  unfold admission at h
  rw [tryStartProvider_eq] at h
  simp only at h
  split at h
  · cases h
    exact skipError_ne (by simp) model
  · rw [tryStartAttempt_eq] at h
    simp only at h
    split at h
    · cases h
      exact skipError_ne (by simp) model
    · cases h

theorem admitted_runs (h : (match admission cfg x attempt w with
      | (w, some err) => some (⟨w, attempt.quotaTicket, false, false⟩, some err)
      | (w, none) => startRequest cfg x credential attempt reserveFallback w :
        Option (Locals × Option AttemptError)).map
        (fun r => (cleanup cfg x credential attempt r.1, r.2)) = some (w', err)) :
    Runs cfg x credential attempt reserveFallback w w' err := by
  obtain ⟨⟨l, err'⟩, hresult, heq⟩ := Option.map_eq_some_iff.mp h
  cases heq
  have hadmission := admission_calm cfg x attempt w
  have hne : ∀ e, (admission cfg x attempt w).2 = some e → e ≠ firstEventError attempt.model :=
    fun _ h => admission_ne h _
  generalize admission cfg x attempt w = admitted at hadmission hne hresult
  obtain ⟨w1, refusal⟩ := admitted
  cases refusal with
  | some e =>
    cases hresult
    exact .unsent hadmission (hne e rfl)
  | none => exact startRequest_runs hadmission hresult

def DrawsOne (reserveFallback : Option ReserveFallback) : Prop :=
  ∀ reserve, reserveFallback = some reserve → ∀ w w' b, reserve w = some (w', b) → Steps 1 w w'

theorem Settles.steps (h : Settles cfg credential attempt ticket w w') : Steps 0 w w' := by
  obtain ⟨_, _, _, _, _, rfl⟩ := h
  exact settle_steps w

theorem Sends.steps (hdraws : DrawsOne reserveFallback)
    (h : Sends cfg x credential attempt reserveFallback ticket w w' err) : Steps 1 w w' := by
  have hsend := Steps.send w ticket
  cases h with
  | @failed w1 _ hcalm =>
    exact (hsend.trans (.calm hcalm 1)).trans (cleanup_steps ⟨w1, ticket, true, false⟩)
  | settled hsettle hcalm | unguarded hsettle hcalm =>
    exact (hsend.trans hsettle.steps).trans (.calm hcalm 1)
  | abandoned hsettle hcalm hreserve hcall =>
    exact (((hsend.trans hsettle.steps).trans (.calm hcalm 0)).trans
      (hdraws _ hreserve _ _ _ hcall)).trans (.calm (.act _ _ _ _ _) 0)
  | kept hsettle hcalm hreserve hcall hcalm' =>
    exact (((hsend.trans hsettle.steps).trans (.calm hcalm 0)).trans
      (hdraws _ hreserve _ _ _ hcall)).trans (.calm hcalm' 0)

theorem Runs.steps (hdraws : DrawsOne reserveFallback)
    (h : Runs cfg x credential attempt reserveFallback w w' err) : Steps 2 w w' := by
  cases h with
  | @unsent w1 _ hcalm =>
    exact (Steps.calm hcalm 2).trans (cleanup_steps ⟨w1, attempt.quotaTicket, false, false⟩)
  | unreserved _ hcalm => exact .calm hcalm 2
  | carried _ hcalm h => exact (Steps.calm hcalm 1).trans (h.steps hdraws)
  | drawn _ hcalm hreserves h =>
    exact ((Steps.calm hcalm 0).trans (.reserves hreserves)).trans (h.steps hdraws)

end Attempt

theorem executeAttempt_runs {x : Script} {attempt : ModelAttempt} {err : Option AttemptError}
    (h : executeAttempt cfg x reserveFallback attempt w = some (w', err)) :
    (w' = w ∧ err ≠ some (firstEventError attempt.model)) ∨
      ∃ estimate, (estimate = attempt.quotaEstimate ∧ 0 < estimate.requests ∧ 0 < estimate.tokens ∨
        estimate = providerQuotaEstimate cfg attempt (estimateRequestQuota cfg x.body)) ∧
        Attempt.Runs cfg x (cfg.providerCredential attempt)
          { attempt with quotaEstimate := estimate } reserveFallback w w' err := by
  unfold executeAttempt at h
  split at h
  · cases h
    exact .inl ⟨rfl, fun heq => Attempt.skipError_ne (by simp) _ (Option.some.inj heq)⟩
  · simp only at h
    split at h
    · exact .inr ⟨_, .inr rfl, Attempt.admitted_runs h⟩
    · next hgiven =>
      simp only [Bool.or_eq_true, decide_eq_true_eq, not_or, Int64.not_le] at hgiven
      exact .inr ⟨attempt.quotaEstimate, .inl ⟨rfl, hgiven⟩, Attempt.admitted_runs h⟩

theorem executeAttempt_steps {x : Script} {attempt : ModelAttempt} {err : Option AttemptError}
    (hdraws : Attempt.DrawsOne reserveFallback)
    (h : executeAttempt cfg x reserveFallback attempt w = some (w', err)) : Steps 2 w w' := by
  rcases executeAttempt_runs h with ⟨rfl, -⟩ | ⟨_, -, hruns⟩
  · exact .calm (.refl _) 2
  · exact hruns.steps hdraws

theorem Offers.steps {u : Unavailable} {candidates : List (ModelAttempt × Nat)} {b : Bool}
    (h : Offers u candidates w w' b) : Steps 1 w w' := by
  induction h with
  | ended | held => exact .calm (.refl _) 1
  | skipped _ _ ih => exact ih
  | @refused _ w1 _ _ _ _ _ hreads _ ih =>
    exact ((Steps.calm (.reads hreads) 0).trans (.plan w1 w1.attempts _)).trans ih
  | @drawn _ w1 _ _ _ _ _ _ hreserves =>
    exact (Steps.reserves hreserves).trans (.plan w1 _ w1.unavailable)

theorem ChainCallback.drawsOne (h : ChainCallback cfg reserveFallback) :
    Attempt.DrawsOne reserveFallback := by
  rintro reserve rfl w w' b hcall
  obtain ⟨_, _, hoffers⟩ := h.offers hcall
  exact hoffers.steps

/-! ## What every step does -/

def Continues (w w' : World) : Prop :=
  ∃ es, w'.log = w.log ++ es ∧ ∀ e ∈ es, ∀ i, e ≠ .attempt i

namespace Continues

theorem ofLog (h : w'.log = w.log) : Continues w w' :=
  ⟨[], by rw [h, append_nil], fun _ h => (nomatch h)⟩

theorem emit {e : Effect} {w w' : World} (h : w'.log = w.log ++ [e])
    (he : ∀ i, e ≠ .attempt i) : Continues w w' :=
  ⟨[e], h, fun e' he' => by cases mem_singleton.mp he'; exact he⟩

theorem trans (h : Continues w w1) (h' : Continues w1 w2) : Continues w w2 := by
  obtain ⟨es, hlog, hnone⟩ := h
  obtain ⟨es', hlog', hnone'⟩ := h'
  refine ⟨es ++ es', by rw [hlog', hlog, append_assoc], fun e he => ?_⟩
  exact (mem_append.mp he).elim (hnone e) (hnone' e)

theorem ofRun (h : QuotaRun w w' es) : Continues w w' := by
  refine ⟨es.map Effect.ledger, h.log, fun e he i => ?_⟩
  obtain ⟨_, -, rfl⟩ := mem_map.mp he
  exact nofun

end Continues

theorem Calm.continues (h : Calm w w') : Continues w w' := by
  induction h with
  | refl w | service w h => exact .ofLog rfl
  | trans _ _ ih ih' => exact ih.trans ih'
  | act cfg attempt now action w | head status w => exact .emit rfl nofun
  | reads h => obtain ⟨es, hrun, -⟩ := h.calls; exact .ofRun hrun

theorem Steps.continues (h : Steps n w w') : Continues w w' := by
  induction h with
  | calm h n => exact h.continues
  | trans _ _ ih ih' => exact ih.trans ih'
  | send w t => exact .emit rfl nofun
  | release w t tick => exact .ofRun (.release w t tick)
  | reconcile w t settlements tick => exact .ofRun (.reconcile w t settlements tick)
  | reserves h => obtain ⟨es, e, hrun, -⟩ := h.calls; exact .ofRun hrun
  | plan w attempts unavailable => exact .ofLog rfl

def Room (n : Nat) (w : World) : Prop := w.service.quota.ticketCount + n < 2 ^ 64

theorem QuotaRun.ticketCount (h : QuotaRun w w' es) (hgranted : granted es ≤ n) :
    w'.service.quota.ticketCount ≤ w.service.quota.ticketCount + n :=
  (run_ticketCount h.run).trans (Nat.add_le_add_left hgranted _)

theorem granted_of_quiet (h : ∀ e ∈ es, QuietCall e) : granted es = 0 := by
  refine countP_eq_zero.mpr fun e he => ?_
  rw [(h e he).1]
  exact Bool.false_ne_true

theorem World.act_quota (cfg : Settings) (attempt : ModelAttempt) (now : Time)
    (action : BreakerAction) (w : World) :
    (w.act cfg attempt now action).service.quota = w.service.quota := by
  cases action with
  | resolveProviderProbe =>
    show (w.service.resolveProviderProbe attempt).quota = _
    unfold resolveProviderProbe
    split <;> rfl
  | resolveProbe | penalizeScore | recordFailure | recordSuccess | resolveProviderSuccess
  | recordProviderFailure => rfl

theorem Calm.ticketCount (h : Calm w w') :
    w'.service.quota.ticketCount ≤ w.service.quota.ticketCount := by
  induction h with
  | refl w | head status w => exact Nat.le_refl _
  | trans _ _ ih ih' => exact ih'.trans ih
  | act cfg attempt now action w =>
    rw [act_quota]
  | reads h =>
    obtain ⟨es, hrun, hquiet⟩ := h.calls
    exact hrun.ticketCount (granted_of_quiet hquiet).le
  | service w h =>
    show QuotaLedger.ticketCount _ ≤ _
    rw [h]

theorem Steps.ticketCount (h : Steps n w w') :
    w'.service.quota.ticketCount ≤ w.service.quota.ticketCount + n := by
  induction h with
  | calm h n => exact Nat.le_add_right_of_le h.ticketCount
  | trans _ _ ih ih' =>
    rw [← Nat.add_assoc]
    exact ih'.trans (Nat.add_le_add_right ih _)
  | send w t | plan w attempts unavailable => exact Nat.le_refl _
  | release w t tick => exact (QuotaRun.release w t tick).ticketCount (Nat.le_refl 0)
  | reconcile w t settlements tick =>
    exact (QuotaRun.reconcile w t settlements tick).ticketCount (Nat.le_refl 0)
  | reserves h =>
    obtain ⟨es, e, hrun, hquiet, -⟩ := h.calls
    refine hrun.ticketCount ?_
    rw [granted_snoc, granted_of_quiet hquiet, Nat.zero_add]
    split
    · exact Nat.le_refl 1
    · exact Nat.zero_le 1

theorem Room.steps {m : Nat} (h : Room m w) (hsteps : Steps k w w') (hle : k + n ≤ m) : Room n w' :=
  calc w'.service.quota.ticketCount + n
    _ ≤ w.service.quota.ticketCount + k + n := Nat.add_le_add_right hsteps.ticketCount n
    _ = w.service.quota.ticketCount + (k + n) := Nat.add_assoc _ _ _
    _ ≤ w.service.quota.ticketCount + m := Nat.add_le_add_left hle _
    _ < 2 ^ 64 := h

theorem Room.mono (h : Room k w) (hle : n ≤ k) : Room n w :=
  Nat.lt_of_le_of_lt (Nat.add_le_add_left hle _) h

end CalvoProxy
