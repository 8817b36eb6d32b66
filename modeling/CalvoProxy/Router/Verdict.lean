import CalvoProxy.Router.Calls

/-!
# Verdicts

An attempt does a sequence of breaker methods (`Performs`); the calls on the ledger in between do
not touch the breakers (`Untouched`). The sequence of each `Outcome` does what the outcome says
(`actions_model`).
-/

namespace CalvoProxy

open List World

variable {ticket : Option QuotaTicket}

/-! ## What the log shows -/

def BreakerAction.blames : BreakerAction → Bool
  | .penalizeScore _ => true
  | .recordFailure _ _ _ => true
  | _ => false

namespace Effect

def blames : Effect → Bool
  | .breaker _ _ action => action.blames
  | _ => false

def sentTicket : Effect → Option QuotaTicket
  | .send ticket => some ticket
  | _ => none

def isResponse : Effect → Bool
  | .head _ => true
  | .jsonError _ _ _ => true
  | _ => false

end Effect

namespace World

def blames (w : World) : Nat := w.log.countP Effect.blames

def sent (w : World) : List QuotaTicket := w.log.filterMap Effect.sentTicket

def responses (w : World) : List Effect := w.log.filter Effect.isResponse

@[simp] theorem blames_emit (w : World) (e : Effect) :
    (w.emit e).blames = w.blames + e.blames.toNat := by
  cases h : e.blames <;> simp [blames, emit, h]

@[simp] theorem sent_emit (w : World) (e : Effect) :
    (w.emit e).sent = w.sent ++ e.sentTicket.toList := by
  cases h : e.sentTicket <;> simp [sent, emit, h]

@[simp] theorem responses_emit (w : World) (e : Effect) :
    (w.emit e).responses = w.responses ++ if e.isResponse then [e] else [] := by
  cases h : e.isResponse <;> simp [responses, emit, h]

@[simp] theorem service_emit (w : World) (e : Effect) : (w.emit e).service = w.service := rfl

section Act

variable (cfg : Settings) (attempt : ModelAttempt) (now : Time) (action : BreakerAction) (w : World)

@[simp] theorem blames_act :
    (w.act cfg attempt now action).blames = w.blames + action.blames.toNat := blames_emit _ _

@[simp] theorem sent_act : (w.act cfg attempt now action).sent = w.sent :=
  (sent_emit _ _).trans (append_nil _)

@[simp] theorem responses_act : (w.act cfg attempt now action).responses = w.responses :=
  (responses_emit _ _).trans (append_nil _)

@[simp] theorem service_act :
    (w.act cfg attempt now action).service = perform cfg attempt now action w.service := rfl

end Act

end World

/-! ## The circuits of an attempt -/

/-- The circuits of the model and the provider of an attempt, and the evidence clock. -/
structure Circuits where
  model : ModelBreakerState
  provider : Option ModelBreakerState
  scored : Int

namespace RouterService

def circuits (cfg : Settings) (attempt : ModelAttempt) (s : RouterService) : Circuits :=
  ⟨s.breakerOf cfg attempt, s.providerBreakers.lookup attempt.provider, s.scoreAttempts⟩

structure SameElsewhere (cfg : Settings) (attempt : ModelAttempt) (s s' : RouterService) : Prop where
  models : ∀ key, key ≠ cfg.breakerKey attempt →
    s'.modelBreakers.lookup key = s.modelBreakers.lookup key
  providers : ∀ provider, provider ≠ attempt.provider →
    s'.providerBreakers.lookup provider = s.providerBreakers.lookup provider

theorem SameElsewhere.refl (cfg : Settings) (attempt : ModelAttempt) (s : RouterService) :
    SameElsewhere cfg attempt s s := ⟨fun _ _ => rfl, fun _ _ => rfl⟩

theorem SameElsewhere.trans {cfg : Settings} {attempt : ModelAttempt} {s s' s'' : RouterService}
    (h : SameElsewhere cfg attempt s s') (h' : SameElsewhere cfg attempt s' s'') :
    SameElsewhere cfg attempt s s'' where
  models key hkey := (h'.models key hkey).trans (h.models key hkey)
  providers p hp := (h'.providers p hp).trans (h.providers p hp)

end RouterService

def BreakerAction.apply (cfg : Settings) (attempt : ModelAttempt) (now : Time)
    (action : BreakerAction) (c : Circuits) : Circuits :=
  let env := newScoreEnv cfg.scores now (c.scored + 1)
  match action with
  | .resolveProbe => { c with model := c.model.reset }
  | .penalizeScore code => { c with model := c.model.penalize code env, scored := c.scored + 1 }
  | .recordFailure code reason retryAfter =>
    let fail := ModelBreakerState.fail cfg.breaker attempt.breakerPolicy code reason false
    { c with model := fail retryAfter now c.model }
  | .recordSuccess =>
    { c with model := c.model.succeed.applyScoreSuccess env, scored := c.scored + 1 }
  | .resolveProviderProbe => { c with provider := Outcome.clearProbe c.provider }
  | .resolveProviderSuccess => { c with provider := some (c.provider.getD .empty).succeed }
  | .recordProviderFailure code reason immediateOpen retryAfter =>
    let fail := ModelBreakerState.fail cfg.breaker attempt.breakerPolicy code reason immediateOpen
    { c with provider := some (fail (some retryAfter) now (c.provider.getD .empty)) }

namespace RouterService

variable (cfg : Settings) (attempt : ModelAttempt) (now : Time) (action : BreakerAction)
  (s : RouterService)

@[simp] theorem circuits_updateModel (f : ModelBreakerState → ModelBreakerState) :
    (s.updateModel cfg attempt f).circuits cfg attempt =
      { s.circuits cfg attempt with model := f (s.breakerOf cfg attempt) } := by
  simp [circuits, updateModel, breakerOf, AList.lookup_insert]

@[simp] theorem circuits_updateProvider (f : ModelBreakerState → ModelBreakerState) :
    (s.updateProvider attempt f).circuits cfg attempt = { s.circuits cfg attempt with
        provider := some (f ((s.providerBreakers.lookup attempt.provider).getD .empty)) } := by
  simp [circuits, updateProvider, breakerOf, AList.lookup_insert]

@[simp] theorem circuits_resolveProviderProbe :
    (s.resolveProviderProbe attempt).circuits cfg attempt = { s.circuits cfg attempt with
        provider := Outcome.clearProbe (s.providerBreakers.lookup attempt.provider) } := by
  cases h : s.providerBreakers.lookup attempt.provider <;>
    simp [circuits, resolveProviderProbe, breakerOf, Outcome.clearProbe, h, AList.lookup_insert]

@[simp] theorem circuits_perform : (perform cfg attempt now action s).circuits cfg attempt =
    action.apply cfg attempt now (s.circuits cfg attempt) := by
  cases action with
  | resolveProviderProbe => exact circuits_resolveProviderProbe cfg attempt s
  | resolveProviderSuccess | recordProviderFailure => exact circuits_updateProvider cfg attempt s _
  | resolveProbe | recordFailure => exact circuits_updateModel cfg attempt s _
  | penalizeScore | recordSuccess => exact circuits_updateModel cfg attempt _ _

theorem SameElsewhere.perform : SameElsewhere cfg attempt s (perform cfg attempt now action s) := by
  cases action with
  | resolveProviderProbe =>
    show SameElsewhere cfg attempt s (s.resolveProviderProbe attempt)
    unfold resolveProviderProbe
    split
    · exact .refl cfg attempt s
    · exact ⟨fun _ _ => rfl, fun _ hp => AList.lookup_insert_ne hp⟩
  | resolveProviderSuccess | recordProviderFailure =>
    exact ⟨fun _ _ => rfl, fun _ hp => AList.lookup_insert_ne hp⟩
  | resolveProbe | recordFailure | penalizeScore | recordSuccess =>
    exact ⟨fun _ hkey => AList.lookup_insert_ne hkey, fun _ _ => rfl⟩

end RouterService

/-! ## What leaves the breakers alone -/

/-- The breakers and the scores are as before, and only calls on the ledger were logged. -/
structure Untouched (w w' : World) : Prop where
  models : w'.service.modelBreakers = w.service.modelBreakers
  providers : w'.service.providerBreakers = w.service.providerBreakers
  scores : w'.service.scoreAttempts = w.service.scoreAttempts
  blames : w'.blames = w.blames
  sent : w'.sent = w.sent
  responses : w'.responses = w.responses

namespace Untouched

variable {w w' w'' : World}

theorem refl (w : World) : Untouched w w := ⟨rfl, rfl, rfl, rfl, rfl, rfl⟩

theorem trans (h : Untouched w w') (h' : Untouched w' w'') : Untouched w w'' where
  models := h'.models.trans h.models
  providers := h'.providers.trans h.providers
  scores := h'.scores.trans h.scores
  blames := h'.blames.trans h.blames
  sent := h'.sent.trans h.sent
  responses := h'.responses.trans h.responses

theorem circuits (h : Untouched w w') (cfg : Settings) (attempt : ModelAttempt) :
    w'.service.circuits cfg attempt = w.service.circuits cfg attempt := by
  simp only [RouterService.circuits, RouterService.breakerOf, h.models, h.providers, h.scores]

theorem elsewhere (h : Untouched w w') (cfg : Settings) (attempt : ModelAttempt) :
    w.service.SameElsewhere cfg attempt w'.service :=
  ⟨fun _ _ => by rw [h.models], fun _ _ => by rw [h.providers]⟩

theorem ofRun {es : List QuotaLedger.LedgerEvent} (h : QuotaRun w w' es) : Untouched w w' where
  models := h.modelBreakers
  providers := h.providerBreakers
  scores := h.scoreAttempts
  blames := by
    have hnone : (es.map Effect.ledger).countP Effect.blames = 0 := by
      simp [countP_map, countP_eq_zero, Effect.blames]
    rw [World.blames, h.log, countP_append, hnone]
    rfl
  sent := by
    have hnone : (es.map Effect.ledger).filterMap Effect.sentTicket = [] := by
      simp [filterMap_eq_nil_iff, Effect.sentTicket]
    rw [World.sent, h.log, filterMap_append, hnone, append_nil]
    rfl
  responses := by
    have hnone : (es.map Effect.ledger).filter Effect.isResponse = [] := by
      simp [filter_eq_nil_iff, Effect.isResponse]
    rw [World.responses, h.log, filter_append, hnone, append_nil]
    rfl

theorem ofReads (h : Reads w w') : Untouched w w' := by
  obtain ⟨es, hrun, -⟩ := h.calls
  exact .ofRun hrun

theorem ofReserves (h : Reserves w w' ticket) : Untouched w w' := by
  obtain ⟨es, e, hrun, -⟩ := h.calls
  exact .ofRun hrun

theorem observeAndSettleQuota (cfg : Settings) (ticket : QuotaTicket) (attempt : ModelAttempt)
    (credential : String) (status : Int) (header : String → String) (body : ErrorBody)
    (actualTokens : Int64) (t : Tick) (w : World) :
    Untouched w (w.observeAndSettleQuota cfg ticket attempt credential status header body
      actualTokens t).1 := by
  have hread := Untouched.ofReads (Reads.observeFacts cfg credential t.now
    (observeProviderQuota cfg attempt.provider attempt.model status header body t.now) ∅ w)
  rw [observeAndSettleQuota_eq]
  show Untouched w (if ticket.valid then _ else _)
  split
  · exact hread.trans (.ofRun (.reconcile _ ticket _ t))
  · exact hread

theorem ofReservation (h : Reservation w w' ticket) : Untouched w w' := by
  cases h with
  | refused hread => exact .ofReads hread
  | drawn hreserves => exact .ofReserves hreserves

theorem setQuotaCooldown (cfg : Settings) (attempt : ModelAttempt) (now : Time)
    (duration : Duration) (w : World) :
    Untouched w { w with service := (w.service.setQuotaCooldown cfg attempt now duration).1 } := by
  simp only [RouterService.setQuotaCooldown]
  generalize (if duration ≤ 0 then 2 * Time.second else duration) = wait
  split <;> exact ⟨rfl, rfl, rfl, rfl, rfl, rfl⟩

end Untouched

/-! ## Sequences of breaker methods -/

abbrev Actions := List (Time × BreakerAction)

structure Performs (cfg : Settings) (attempt : ModelAttempt) (actions : Actions) (w w' : World) :
    Prop where
  circuits : w'.service.circuits cfg attempt =
    actions.foldl (fun c a => a.2.apply cfg attempt a.1 c) (w.service.circuits cfg attempt)
  elsewhere : w.service.SameElsewhere cfg attempt w'.service
  blames : w'.blames = w.blames + actions.countP (·.2.blames)

namespace Performs

variable {cfg : Settings} {attempt : ModelAttempt} {actions actions' : Actions} {w w' w'' : World}

theorem trans (h : Performs cfg attempt actions w w') (h' : Performs cfg attempt actions' w' w'') :
    Performs cfg attempt (actions ++ actions') w w'' where
  circuits := by rw [h'.circuits, h.circuits, foldl_append]
  elsewhere := h.elsewhere.trans h'.elsewhere
  blames := by rw [h'.blames, h.blames, countP_append, Nat.add_assoc]

theorem untouched (h : Untouched w w') : Performs cfg attempt [] w w' where
  circuits := h.circuits cfg attempt
  elsewhere := h.elsewhere cfg attempt
  blames := h.blames

theorem act (now : Time) (action : BreakerAction) (w : World) :
    Performs cfg attempt [(now, action)] w (w.act cfg attempt now action) where
  circuits := RouterService.circuits_perform cfg attempt now action w.service
  elsewhere := .perform cfg attempt now action w.service
  blames := by rw [blames_act, countP_singleton, Bool.toNat]; cases action.blames <;> rfl

theorem emit {e : Effect} (h : e.blames = false) (w : World) :
    Performs cfg attempt [] w (w.emit e) where
  circuits := rfl
  elsewhere := .refl cfg attempt w.service
  blames := by rw [blames_emit, h]; rfl

theorem next (h : Performs cfg attempt actions w w') (now : Time) (action : BreakerAction) :
    Performs cfg attempt (actions ++ [(now, action)]) w (w'.act cfg attempt now action) :=
  h.trans (act now action w')

theorem refl (w : World) : Performs cfg attempt [] w w := untouched (.refl w)

theorem ite (p : Prop) [Decidable p] (h : Performs cfg attempt actions w w')
    (h' : Performs cfg attempt actions' w w'') :
    Performs cfg attempt (if p then actions else actions') w (if p then w' else w'') := by
  split
  · exact h
  · exact h'

theorem thenUntouched (h : Performs cfg attempt actions w w') (hu : Untouched w' w'') :
    Performs cfg attempt actions w w'' := by
  have hboth := h.trans (untouched hu)
  rwa [append_nil] at hboth

theorem thenEmit (h : Performs cfg attempt actions w w') {e : Effect} (he : e.blames = false) :
    Performs cfg attempt actions w (w'.emit e) := by
  have hboth := h.trans (emit he w')
  rwa [append_nil] at hboth

theorem afterUntouched (hu : Untouched w w') (h : Performs cfg attempt actions w' w'') :
    Performs cfg attempt actions w w'' := (untouched hu).trans h

end Performs

/-! ## The actions of an outcome -/

namespace Outcome

variable (x : Script) (provider : ProviderID)

def resolveActions : Actions :=
  [((x.tick .score).now, .resolveProbe), ((x.tick .score).now, .resolveProviderProbe)]

def blameActions (statusCode : Int) (message : String) : Actions :=
  [((x.tick .score).now, .penalizeScore statusCode),
    ((x.tick .failure).now, .recordFailure statusCode message none),
    ((x.tick .score).now, .resolveProviderProbe)]

def successActions : Actions :=
  [((x.tick .score).now, .recordSuccess), ((x.tick .score).now, .resolveProviderSuccess)]

def judgeActions (status : Int) (relayed : Bool) (wait : Duration) : Actions :=
  let code := classifiedStatus status
  let message := classifiedMessage status
  let nonModel := nonModelFailure status relayed
  (if nonModel then [] else [((x.tick .score).now, .penalizeScore code)]) ++
    (if breakerEligibleStatus status && !nonModel then
      [((x.tick .failure).now, .recordFailure code message (some wait))] else []) ++
    (if providerAccountFailure status relayed && provider != .openRouter then
      [((x.tick .providerFailure).now, .recordProviderFailure code message true wait)]
      else [((x.tick .score).now, .resolveProviderProbe)]) ++
    (if nonModel || !breakerEligibleStatus status then [((x.tick .score).now, .resolveProbe)]
      else [])

/-- The breaker methods that an attempt with this outcome calls. -/
def actions : Outcome → Actions
  | .unjudged => resolveActions x
  | .transportError code message => blameActions x code message
  | .rejected status relayed wait =>
    (if quotaLimitedStatus status then resolveActions x else []) ++
      judgeActions x provider status relayed wait
  | .abandoned =>
    resolveActions x ++ [((x.tick .score).now, .penalizeScore scoreStatusSoftOnly)]
  | .streamed o =>
    resolveActions x ++
      if o = .completed then successActions x
      else if o.upstreamFault then blameActions x 502 (streamFaultMessage o) else []
  | .broken message => blameActions x 502 message
  | .delivered => successActions x

def blamesModel : Outcome → Bool
  | .transportError _ _ => true
  | .rejected status relayed _ => !nonModelFailure status relayed
  | .abandoned => true
  | .streamed o => o.upstreamFault
  | .broken _ => true
  | _ => false

end Outcome

section Apply

variable (cfg : Settings) (x : Script) (attempt : ModelAttempt) (o : Outcome) (c : Circuits)

theorem Outcome.actions_model :
    ((o.actions x attempt.provider).foldl (fun c a => a.2.apply cfg attempt a.1 c) c).model =
      o.onModel cfg.breaker attempt.breakerPolicy
        (newScoreEnv cfg.scores (x.tick .score).now (c.scored + 1)) (x.tick .failure).now c.model := by
  cases o with
  | unjudged | transportError | abandoned | broken | delivered => rfl
  | streamed o => cases o <;> rfl
  | rejected status relayed wait =>
    simp only [actions, judgeActions, onModel]
    cases nonModelFailure status relayed <;> cases breakerEligibleStatus status <;>
      cases quotaLimitedStatus status <;>
      cases providerAccountFailure status relayed && attempt.provider != .openRouter <;> rfl

theorem Outcome.actions_blames :
    (o.actions x attempt.provider).countP (·.2.blames) = 0 ↔ o.blamesModel = false := by
  cases o with
  | unjudged | delivered => exact ⟨fun _ => rfl, fun _ => rfl⟩
  | transportError | abandoned | broken => exact ⟨nofun, nofun⟩
  | streamed o =>
    cases o with
    | stalled | upstreamError => exact ⟨nofun, nofun⟩
    | completed | maxReached | clientGone => exact ⟨fun _ => rfl, fun _ => rfl⟩
  | rejected status relayed wait =>
    simp only [actions, judgeActions, blamesModel]
    cases nonModelFailure status relayed <;> cases breakerEligibleStatus status <;>
      cases quotaLimitedStatus status <;>
      cases providerAccountFailure status relayed && attempt.provider != .openRouter <;>
      simp [resolveActions, BreakerAction.blames]

end Apply

end CalvoProxy
