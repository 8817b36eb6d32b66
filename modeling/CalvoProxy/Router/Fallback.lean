import CalvoProxy.Router.Upstream

/-!
# The fallback chain

`router_fallback.go`: the loop that tries the attempts of a chain, what it learns from the errors,
and the callback by which a slow stream reserves quota for its successor.
-/

namespace CalvoProxy

/-! ## Which attempts are left -/

/-- The providers and quota pools that are out for this request. -/
structure Unavailable where
  providers : List ProviderID
  pools : List String

def quotaPoolKey (provider : ProviderID) (pool : String) : String := provider.text ++ "\x00" ++ pool

def quotaPoolUnavailable (attempt : ModelAttempt) (pools : List String) : Bool :=
  freeModel attempt.model && pools.contains (quotaPoolKey attempt.provider quotaFreePool)

namespace World

def skips (w : World) (u : Unavailable) (attempt : ModelAttempt) (i : Nat) : Bool :=
  w.unavailable.contains i || u.providers.contains attempt.provider ||
    quotaPoolUnavailable attempt u.pools

def remaining (w : World) (current : Nat) : List (ModelAttempt × Nat) :=
  w.attempts.zipIdx.drop (current + 1)

def nextExecutableAttempt (w : World) (u : Unavailable) (current : Nat) : Option ModelAttempt :=
  ((w.remaining current).find? fun c => !w.skips u c.1 c.2).map Prod.fst

/-- The callback `ReserveQuota` that `executeFallbacks` installs. -/
def reserveQuota (cfg : Settings) (baseEstimate : QuotaEstimate) (attempt : ModelAttempt) (t : Tick)
    (w : World) : Option (World × Option QuotaTicket) :=
  if !cfg.configured attempt then some (w, none)
  else
    let estimate :=
      if attempt.quotaEstimate.requests ≤ 0 || attempt.quotaEstimate.tokens ≤ 0 then
        providerQuotaEstimate cfg attempt baseEstimate
      else attempt.quotaEstimate
    w.reserveFallbackQuota cfg attempt (cfg.providerCredential attempt) estimate t

/-- The loop of `reserveNextExecutableAttempt`: the first attempt that can have quota gets a ticket;
one that cannot is out. -/
def reserveAmong (cfg : Settings) (baseEstimate : QuotaEstimate) (ticks : Nat → Tick)
    (u : Unavailable) : List (ModelAttempt × Nat) → World → Option (World × Bool)
  | [], w => some (w, false)
  | (candidate, i) :: rest, w =>
    if w.skips u candidate i then reserveAmong cfg baseEstimate ticks u rest w
    else if candidate.quotaTicket.valid then some (w, true)
    else match w.reserveQuota cfg baseEstimate candidate (ticks i) with
      | none => none
      | some (w, none) =>
        reserveAmong cfg baseEstimate ticks u rest { w with unavailable := i :: w.unavailable }
      | some (w, some ticket) =>
        some ({ w with attempts := w.attempts.set i { candidate with quotaTicket := ticket } }, true)

def reserveNextExecutableAttempt (cfg : Settings) (baseEstimate : QuotaEstimate)
    (ticks : Nat → Tick) (u : Unavailable) (current : Nat) (w : World) : Option (World × Bool) :=
  reserveAmong cfg baseEstimate ticks u (w.remaining current) w

end World

structure RetryPolicy where
  maxAttempts : Int
  retryHTTPStatuses : List Int
  retryOnEOF : Bool
  retryOnTimeout : Bool

def shouldRetryAttempt (policy : RetryPolicy) (err : AttemptError) : Bool :=
  (err.timeout && policy.retryOnTimeout) || (err.eof && policy.retryOnEOF) || err.retryable ||
    policy.retryHTTPStatuses.contains err.statusCode

def isModelUnavailable (err : AttemptError) : Bool :=
  err.statusCode = 404 || (err.statusCode = 400 &&
      ["no endpoints found", "not a valid model", "no allowed providers", "unavailable"].any
        (GoString.contains (GoString.toLower err.message)))

inductive ChainFailureReason
  | exhausted
  | terminal
  | cancelled
  | totalTimeout
deriving DecidableEq, Repr

/-- The last error, and the first error of every provider that was unavailable or out of quota. -/
structure ChainError where
  reason : ChainFailureReason
  err : Option AttemptError
  providerFailures : List (ProviderID × AttemptError)

/-- In `reserve` the running position comes first, that of the candidate second. -/
structure ChainScript where
  attempt : Nat → Script
  reserve : Nat → Nat → Tick
  release : Nat → Tick

structure ChainState where
  world : World
  unavailable : Unavailable
  lastErr : Option AttemptError
  providerFailures : List (ProviderID × AttemptError)

namespace ChainState

def report (s : ChainState) (provider : ProviderID) (err : AttemptError) : ChainState :=
  if s.providerFailures.any (·.1 = provider) then s
  else { s with providerFailures := s.providerFailures ++ [(provider, err)] }

def excludeProvider (s : ChainState) (provider : ProviderID) : ChainState :=
  { s with unavailable :=
      { s.unavailable with providers := provider :: s.unavailable.providers } }

def excludePool (s : ChainState) (provider : ProviderID) (pool : String) : ChainState :=
  { s with unavailable :=
      { s.unavailable with pools := quotaPoolKey provider pool :: s.unavailable.pools } }

def learn (policy : RetryPolicy) (attempt : ModelAttempt) (err : AttemptError) (s : ChainState) :
    ChainState × Bool :=
  let s := { s with lastErr := some err }
  if err.providerUnavailable then
    ((s.excludeProvider attempt.provider).report attempt.provider err, true)
  else if err.skipProvider then (s.excludeProvider attempt.provider, true)
  else
    let s := if err.quotaLimited then s.report attempt.provider err else s
    if err.quotaPool != "" then (s.excludePool attempt.provider err.quotaPool, true)
    else if isModelUnavailable err || err.skipModel then (s, true)
    else (s, shouldRetryAttempt policy err)

end ChainState

structure FallbackExecution where
  requestBody : RequestBody
  retryPolicy : RetryPolicy

/-- With a response, at a terminal error, or at the end of the chain. -/
inductive ChainEnd
  | served
  | stopped (early : Bool)
  | ran
deriving DecidableEq, Repr

/-- An attempt that the loop has started; the result is missing if it does not return. -/
structure Started where
  position : Nat
  attempt : ModelAttempt
  reserveFallback : Option ReserveFallback
  before : World
  result : Option (World × Option AttemptError)

/-- The body of the loop: an attempt that has another one behind it may reserve quota for that. -/
def startAt (cfg : Settings) (x : ChainScript) (execution : FallbackExecution) (s : ChainState)
    (planned : ModelAttempt) (i : Nat) : Started :=
  let next := s.world.nextExecutableAttempt s.unavailable i
  let attempt := { planned with attemptIndex := i + 1, lastInChain := next.isNone }
  let reserveFallback : Option ReserveFallback :=
    if next.isSome then
      some (World.reserveNextExecutableAttempt cfg
        (estimateRequestQuota cfg execution.requestBody) (x.reserve i) s.unavailable i)
    else none
  ⟨i, attempt, reserveFallback, s.world.emit (.attempt i),
    executeAttempt cfg (x.attempt i) reserveFallback attempt (s.world.emit (.attempt i))⟩

def chainLoop (cfg : Settings) (x : ChainScript) (execution : FallbackExecution) :
    Nat → Nat → ChainState → Option (ChainState × ChainEnd)
  | 0, _, s => some (s, .ran)
  | n + 1, i, s =>
    match s.world.attempts[i]? with
    | none => some (s, .ran)
    | some planned =>
      if s.world.skips s.unavailable planned i then chainLoop cfg x execution n (i + 1) s
      else
        let e := startAt cfg x execution s planned i
        match e.result with
        | none => none
        | some (w, none) => some ({ s with world := w }, .served)
        | some (w, some err) =>
          match { s with world := w }.learn execution.retryPolicy e.attempt err with
          | (s, true) => chainLoop cfg x execution n (i + 1) s
          | (s, false) =>
            some (s, .stopped (s.world.nextExecutableAttempt s.unavailable i).isSome)

/-- The deferred loop of `Execute`: release what the attempts still hold. -/
def releaseAttempts (ticks : Nat → Tick) : List (ModelAttempt × Nat) → World → World
  | [], w => w
  | (attempt, i) :: rest, w =>
    releaseAttempts ticks rest
      (if attempt.quotaTicket.valid then w.release attempt.quotaTicket (ticks i) else w)

def executeFallbacks (cfg : Settings) (x : ChainScript) (execution : FallbackExecution)
    (w : World) : Option (World × Option ChainError) :=
  match chainLoop cfg x execution w.attempts.length 0 ⟨w, ⟨[], []⟩, none, []⟩ with
  | none => none
  | some (s, last) =>
    let w := releaseAttempts x.release s.world.attempts.zipIdx s.world
    match last with
    | .served => some (w, none)
    | .stopped true => some (w, some ⟨.terminal, s.lastErr, s.providerFailures⟩)
    | _ => some (w, some ⟨.exhausted, s.lastErr, s.providerFailures⟩)

/-! ## The attempts of a run -/

theorem ChainState.learn_world {policy : RetryPolicy} {attempt : ModelAttempt}
    {err : AttemptError} {s s' : ChainState} {goesOn : Bool}
    (h : s.learn policy attempt err = (s', goesOn)) : s'.world = s.world := by
  have hreport : ∀ s : ChainState, (s.report attempt.provider err).world = s.world := by
    intro s
    unfold ChainState.report
    split <;> rfl
  have hlearn : (s.learn policy attempt err).1.world = s.world := by
    unfold ChainState.learn
    simp only
    split
    · exact hreport _
    split
    · rfl
    · split <;> split <;>
        first | exact hreport _ | rfl | (split <;> first | exact hreport _ | rfl)
  rwa [h] at hlearn

section Run

variable (cfg : Settings) (x : ChainScript) (execution : FallbackExecution)

/-- The attempts that `chainLoop` starts from position `i` on (`chainLoop_run`). -/
def chainRuns : Nat → Nat → ChainState → List Started
  | 0, _, _ => []
  | n + 1, i, s =>
    match s.world.attempts[i]? with
    | none => []
    | some planned =>
      if s.world.skips s.unavailable planned i then chainRuns n (i + 1) s
      else
        let e := startAt cfg x execution s planned i
        e :: match e.result with
          | some (w, some err) =>
            match { s with world := w }.learn execution.retryPolicy e.attempt err with
            | (s, true) => chainRuns n (i + 1) s
            | (_, false) => []
          | _ => []

def executorRuns (w : World) : List Started :=
  chainRuns cfg x execution w.attempts.length 0 ⟨w, ⟨[], []⟩, none, []⟩

def Starts (s : ChainState) (i : Nat) (e : Started) : Prop :=
  ∃ planned, s.world.attempts[i]? = some planned ∧
    s.world.skips s.unavailable planned i = false ∧ e = startAt cfg x execution s planned i

/-- The loop from position `i` on, for `n` more positions: what it starts and what it returns. -/
inductive ChainRun :
    Nat → Nat → ChainState → List Started → Option (ChainState × ChainEnd) → Prop
  | ended {n i : Nat} {s : ChainState} (h : n = 0 ∨ s.world.attempts[i]? = none) :
      ChainRun n i s [] (some (s, .ran))
  | skipped {n i : Nat} {s : ChainState} {planned : ModelAttempt} {es : List Started}
      {r : Option (ChainState × ChainEnd)} (hplanned : s.world.attempts[i]? = some planned)
      (hskips : s.world.skips s.unavailable planned i = true) (h : ChainRun n (i + 1) s es r) :
      ChainRun (n + 1) i s es r
  | stuck {n i : Nat} {s : ChainState} {e : Started} (he : Starts cfg x execution s i e)
      (hresult : e.result = none) : ChainRun (n + 1) i s [e] none
  | served {n i : Nat} {s : ChainState} {e : Started} {w : World}
      (he : Starts cfg x execution s i e) (hresult : e.result = some (w, none)) :
      ChainRun (n + 1) i s [e] (some ({ s with world := w }, .served))
  | failed {n i : Nat} {s s' : ChainState} {e : Started} {w : World} {err : AttemptError}
      {es : List Started} {r : Option (ChainState × ChainEnd)}
      (he : Starts cfg x execution s i e) (hresult : e.result = some (w, some err))
      (hlearn : { s with world := w }.learn execution.retryPolicy e.attempt err = (s', true))
      (h : ChainRun n (i + 1) s' es r) : ChainRun (n + 1) i s (e :: es) r
  | stopped {n i : Nat} {s s' : ChainState} {e : Started} {w : World} {err : AttemptError}
      (he : Starts cfg x execution s i e) (hresult : e.result = some (w, some err))
      (hlearn : { s with world := w }.learn execution.retryPolicy e.attempt err = (s', false)) :
      ChainRun (n + 1) i s [e]
        (some (s', .stopped (s'.world.nextExecutableAttempt s'.unavailable i).isSome))

/-- `chainRuns` and `chainLoop` are one run. -/
theorem chainLoop_run (n i : Nat) (s : ChainState) :
    ChainRun cfg x execution n i s (chainRuns cfg x execution n i s)
      (chainLoop cfg x execution n i s) := by
  induction n generalizing i s with
  | zero => exact .ended (.inl rfl)
  | succ n ih =>
    rw [chainRuns, chainLoop]
    split
    · next hplanned => exact .ended (.inr hplanned)
    next planned hplanned =>
    split
    · next hskips => exact .skipped hplanned hskips (ih (i + 1) s)
    next hskips =>
    have he : Starts cfg x execution s i (startAt cfg x execution s planned i) :=
      ⟨planned, hplanned, eq_false_of_ne_true hskips, rfl⟩
    generalize startAt cfg x execution s planned i = e at he
    rcases hresult : e.result with _ | ⟨w, _ | err⟩
    · simp only [hresult]
      exact .stuck he hresult
    · simp only [hresult]
      exact .served he hresult
    · simp only [hresult]
      rcases hlearn : { s with world := w }.learn execution.retryPolicy e.attempt err with
        ⟨s', _ | _⟩
      · simp only [hlearn]
        exact .stopped he hresult hlearn
      · simp only [hlearn]
        exact .failed he hresult hlearn (ih (i + 1) s')

variable {cfg x execution}

theorem ChainRun.starts {n i : Nat} {s : ChainState} {es : List Started}
    {r : Option (ChainState × ChainEnd)} (h : ChainRun cfg x execution n i s es r) :
    ∀ e ∈ es, ∃ s i, Starts cfg x execution s i e := by
  induction h with
  | ended => exact fun e he => absurd he List.not_mem_nil
  | skipped _ _ _ ih => exact ih
  | stuck he | served he | stopped he =>
    intro e' he'
    exact List.mem_singleton.mp he' ▸ ⟨_, _, he⟩
  | failed he _ _ _ ih => exact List.forall_mem_cons.mpr ⟨⟨_, _, he⟩, ih⟩

theorem Starts.result {s : ChainState} {i : Nat} {e : Started} (h : Starts cfg x execution s i e) :
    e.result = executeAttempt cfg (x.attempt e.position) e.reserveFallback e.attempt e.before := by
  obtain ⟨planned, -, -, rfl⟩ := h
  rfl

end Run

end CalvoProxy
