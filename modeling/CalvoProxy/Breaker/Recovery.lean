import CalvoProxy.Breaker.Outcome
import CalvoProxy.Lib.SingleFlight

/-!
# Recovery of a circuit

Attempts on one model or provider start and complete in any order. The claim of a probe is a
deadline without an owner: `single_flight_recovery` says which completions may not release the claim
of somebody else, and on a provider some do (`two_probes_after_stale_completion`).
-/

namespace CalvoProxy

open SingleFlight Machine Outcome

variable {g' : Gate} {state : ModelBreakerState}

/-! ## Breakers as gates -/

namespace ModelBreakerState

def gate (state : ModelBreakerState) : Gate := ⟨state.openUntil, state.probeUntil⟩

def gateOf (state : Option ModelBreakerState) : Gate := (state.getD .empty).gate

theorem gateOf_tryStart (config : BreakerConfig) (now : Time) (state : Option ModelBreakerState) :
    (gateOf (tryStart config now state).1, (tryStart config now state).2) =
      (gateOf state).tryPass config.probeTTL now := by
  cases state with
  | none => rfl
  | some state =>
    by_cases hzero : state.openUntil = 0
    · simp [tryStart, gateOf, gate, Gate.tryPass, Time.isZero, hzero]
    by_cases hopen : now < state.openUntil
    · simp [tryStart, gateOf, gate, Gate.tryPass, Time.isZero, Time.before, hzero, hopen]
    by_cases hprobe : now < state.probeUntil <;>
      simp [tryStart, gateOf, gate, Gate.tryPass, Time.isZero, Time.before, hzero, hopen, hprobe]

/-- A counted failure opens the circuit beyond `now`, closes it, or leaves it; a half-open one only
at the instant it became so, below the threshold. -/
theorem fail_gate (config : BreakerConfig) (policy : BreakerPolicy) (code : Int) (reason : String)
    (immediateOpen : Bool) (retryAfter : Option Duration) (now : Time)
    (state : ModelBreakerState) :
    let g := (fail config policy code reason immediateOpen retryAfter now state).gate
    g.openUntil = 0 ∨ now < g.openUntil ∨
      (g.openUntil = state.openUntil ∧ now ≤ state.openUntil ∧ immediateOpen = false ∧
        (state.consecutiveFailures : Int) + 1 < config.threshold policy) := by
  have hcooldown := config.cooldownFor_pos policy retryAfter
  have hbeyond : now < now + config.cooldownFor policy retryAfter :=
    Int.lt_add_of_pos_right now hcooldown
  simp only [gate, fail]
  by_cases hzero : state.openUntil = 0
  · -- a closed circuit
    simp only [hzero, Time.isZero, Time.after]
    grind
  by_cases helapsed : state.openUntil < now <;> simp only [helapsed, Time.isZero, Time.after] <;>
    grind

end ModelBreakerState

/-- How an attempt ended, what its policy asks of the breaker, and its number in the scoring
window. -/
structure Completion where
  outcome : Outcome
  policy : BreakerPolicy
  window : ScoreWindow
  seq : Int

inductive Circuit
  | model
  | provider (id : ProviderID)

def Circuit.complete (config : BreakerConfig) (circuit : Circuit) (completion : Completion)
    (now : Time) (state : Option ModelBreakerState) : Option ModelBreakerState :=
  match circuit with
  | .model =>
    some (completion.outcome.onModel config completion.policy
      (newScoreEnv completion.window now completion.seq) now (state.getD .empty))
  | .provider id => completion.outcome.onProvider config completion.policy now id state

def Outcome.countsFailure : Outcome → Bool
  | .transportError _ _ => true
  | .rejected status relayed _ =>
    !nonModelFailure status relayed && breakerEligibleStatus status
  | .broken _ => true
  | _ => false

def Outcome.settlesProvider (provider : ProviderID) : Outcome → Bool
  | .rejected status relayed _ =>
    providerAccountFailure status relayed && provider != .openRouter
  | .streamed .completed => true
  | .delivered => true
  | _ => false

/-- The completions that can release a claim and leave the circuit half-open: on a model, a failure
below the threshold at the very instant of `openUntil`; on a provider, every outcome that does not
settle it. -/
def Circuit.Releases (config : BreakerConfig) (circuit : Circuit) (completion : Completion)
    (now : Time) (state : ModelBreakerState) : Prop :=
  match circuit with
  | .model =>
    completion.outcome.countsFailure = true ∧ now = state.openUntil ∧
      (state.consecutiveFailures : Int) + 1 < config.threshold completion.policy
  | .provider id => completion.outcome.settlesProvider id = false

instance (config : BreakerConfig) (circuit : Circuit) (completion : Completion) (now : Time)
    (state : ModelBreakerState) : Decidable (circuit.Releases config completion now state) :=
  match circuit with
  | .model => inferInstanceAs (Decidable (_ ∧ _ ∧ _))
  | .provider _ => inferInstanceAs (Decidable (_ = _))

namespace Recovery

open ModelBreakerState

variable {config : BreakerConfig} {now : Time} {g : Gate}

/-- What a completion makes of a gate `g`: it drops a running claim only under `releases`. -/
def Settles (now : Time) (g g' : Gate) (releases : Prop) : Prop :=
  Move now g g' ∧ (Drops now g g' → releases)

variable {releases : Prop}

theorem settles_of_closed (h : g'.openUntil = 0) : Settles now g g' releases :=
  ⟨.close h, fun hdrops => absurd (hdrops.same.symm.trans h) hdrops.halfOpen.1⟩

theorem settles_of_reopened (h : now < g'.openUntil) : Settles now g g' releases := by
  refine ⟨.reopen h, fun hdrops => ?_⟩
  rw [hdrops.same] at h
  exact absurd hdrops.halfOpen.2 (Int.not_le.mpr h)

variable (policy : BreakerPolicy) (code : Int) (reason : String) (retryAfter : Option Duration)

theorem settles_fail {state' : ModelBreakerState} (hopen : state'.openUntil = state.openUntil)
    (hcount : state'.consecutiveFailures = state.consecutiveFailures) :
    Settles now state.gate (fail config policy code reason false retryAfter now state').gate
      (now = state.openUntil ∧
        (state.consecutiveFailures : Int) + 1 < config.threshold policy) := by
  have hgate := fail_gate config policy code reason false retryAfter now state'
  rw [hopen, hcount] at hgate
  rcases hgate with hclosed | hreopened | ⟨hsame, hbefore, -, hbelow⟩
  · exact settles_of_closed hclosed
  · exact settles_of_reopened hreopened
  · exact ⟨.same hsame, fun hdrops => ⟨Int.le_antisymm hbefore hdrops.halfOpen.2, hbelow⟩⟩

theorem settles_fail_closed (hclosed : state.openUntil = 0) :
    Settles now g (fail config policy code reason false none now state).gate releases := by
  have hgate := fail_gate config policy code reason false none now state
  rw [hclosed] at hgate
  rcases hgate with hclosed' | hreopened | ⟨hsame, -⟩
  · exact settles_of_closed hclosed'
  · exact settles_of_reopened hreopened
  · exact settles_of_closed hsame

theorem settles_open :
    Settles now g (fail config policy code reason true retryAfter now state).gate releases := by
  rcases fail_gate config policy code reason true retryAfter now state with
    hclosed | hreopened | ⟨-, -, hnot, -⟩
  · exact settles_of_closed hclosed
  · exact settles_of_reopened hreopened
  · cases hnot

theorem settles_clearProbe {state : Option ModelBreakerState} (h : releases) :
    Settles now (gateOf state) (gateOf (clearProbe state)) releases := by
  refine ⟨.same ?_, fun _ => h⟩
  cases state <;> rfl

theorem settles_onModel (completion : Completion) (state : ModelBreakerState) :
    Settles now state.gate (completion.outcome.onModel config completion.policy
        (newScoreEnv completion.window now completion.seq) now state).gate
      (Circuit.model.Releases config completion now state) := by
  obtain ⟨outcome, policy, window, seq⟩ := completion
  have hcounted : ∀ {code : Int} {reason : String} {retryAfter : Option Duration} {soft : Int},
      outcome.countsFailure = true →
      Settles now state.gate (fail config policy code reason false retryAfter now
          (state.penalize soft (newScoreEnv window now seq))).gate
        (Circuit.model.Releases config ⟨outcome, policy, window, seq⟩ now state) := by
    intro code reason retryAfter soft hcounts
    have hfail : Settles now state.gate (fail config policy code reason false retryAfter now
          (state.penalize soft (newScoreEnv window now seq))).gate _ :=
      settles_fail policy code reason retryAfter rfl rfl
    exact ⟨hfail.1, fun hdrops => ⟨hcounts, hfail.2 hdrops⟩⟩
  cases outcome with
  | unjudged | abandoned | delivered => exact settles_of_closed rfl
  | transportError code message | broken message => exact hcounted rfl
  | rejected status relayed retryAfter =>
    show Settles _ _ (onModel _ _ _ _ (.rejected status relayed retryAfter) _).gate _
    unfold onModel
    by_cases hnon : nonModelFailure status relayed = true
    · simp only [hnon, if_true]
      exact settles_of_closed rfl
    by_cases heligible : breakerEligibleStatus status = true
    · have hquota : quotaLimitedStatus status = false := by
        simp only [nonModelFailure, Bool.or_eq_true, not_or] at hnon
        exact Bool.eq_false_iff.mpr hnon.1
      simp only [hnon, heligible, hquota, if_true, if_false, Bool.false_eq_true]
      exact hcounted (by simp [countsFailure, hnon, heligible])
    · simp only [hnon, heligible, if_false, Bool.false_eq_true]
      exact settles_of_closed rfl
  | streamed o =>
    cases o
    case stalled => exact settles_fail_closed _ _ _ rfl
    case upstreamError => exact settles_fail_closed _ _ _ rfl
    all_goals exact settles_of_closed rfl

theorem settles_onProvider (id : ProviderID) (completion : Completion)
    (state : Option ModelBreakerState) :
    Settles now (gateOf state)
      (gateOf (completion.outcome.onProvider config completion.policy now id state))
      (completion.outcome.settlesProvider id = false) := by
  obtain ⟨outcome, policy, window, seq⟩ := completion
  cases outcome with
  | rejected status relayed retryAfter =>
    show Settles _ _ (gateOf (onProvider _ _ _ _ (.rejected status relayed retryAfter) _)) _
    unfold onProvider
    by_cases haccount : (providerAccountFailure status relayed && id != .openRouter) = true
    · simp only [haccount, if_true]
      exact settles_open _ _ _ _
    · simp only [haccount, if_false, Bool.false_eq_true]
      exact settles_clearProbe (Bool.eq_false_iff.mpr haccount)
  | streamed o =>
    cases o
    case completed => exact settles_of_closed rfl
    all_goals exact settles_clearProbe rfl
  | delivered => exact settles_of_closed rfl
  | unjudged | transportError code message | abandoned | broken message =>
    exact settles_clearProbe rfl

theorem settles_complete (circuit : Circuit) (completion : Completion)
    (state : Option ModelBreakerState) :
    Settles now (gateOf state) (gateOf (circuit.complete config completion now state))
      (circuit.Releases config completion now (state.getD .empty)) := by
  cases circuit with
  | model => exact settles_onModel completion (state.getD .empty)
  | provider id => exact settles_onProvider id completion state

end Recovery

/-- A breaker with the attempts that have not completed. -/
structure Recovery where
  state : Option ModelBreakerState
  pending : List Caller
  now : Time

namespace Recovery

open ModelBreakerState

inductive Op
  | start (id : Nat) (now : Time)
  | complete (id : Nat) (completion : Completion) (now : Time)

/-- One start or completion, with whether a start was admitted; the clock does not go back, and an
attempt starts and then completes once. -/
def step (config : BreakerConfig) (circuit : Circuit) (s : Recovery) : Op → Option (Recovery × Bool)
  | .start id now =>
    if now < s.now ∨ ∃ c ∈ s.pending, c.id = id then none
    else match tryStart config now s.state with
      | (state, true) => some (⟨state, ⟨id, now⟩ :: s.pending, now⟩, true)
      | (state, false) => some (⟨state, s.pending, now⟩, false)
  | .complete id completion now =>
    if now < s.now then none
    else match s.pending.find? (·.id = id) with
      | none => none
      | some c =>
        some (⟨circuit.complete config completion now s.state, s.pending.filter (· ≠ c), now⟩, true)

/-- The attempt was admitted since the circuit became half-open, and its claim still runs at
`now`. -/
def Probing (config : BreakerConfig) (s : Recovery) (now : Time) (c : Caller) : Prop :=
  Live config.probeTTL (gateOf s.state) now c

/-- A completion releases no running claim but its own: one that releases a claim on a half-open
circuit belongs to an attempt admitted since then. -/
def OwnClaim (config : BreakerConfig) (circuit : Circuit) (s : Recovery) : Op → Prop
  | .start _ _ => True
  | .complete id completion now =>
    let state := s.state.getD .empty
    ∀ c ∈ s.pending, c.id = id →
      state.openUntil ≠ 0 ∧ state.openUntil ≤ now ∧ now < state.probeUntil ∧
        circuit.Releases config completion now state →
      s.Probing config now c

instance (config : BreakerConfig) (s : Recovery) (now : Time) (c : Caller) :
    Decidable (s.Probing config now c) :=
  inferInstanceAs (Decidable (Live _ _ _ _))

instance (config : BreakerConfig) (circuit : Circuit) (s : Recovery) (op : Op) :
    Decidable (OwnClaim config circuit s op) :=
  match op with
  | .start _ _ => .isTrue trivial
  | .complete id _ _ =>
    inferInstanceAs (Decidable (∀ c ∈ s.pending, c.id = id → _ ∧ _ ∧ _ ∧ _ → s.Probing config _ c))

def flight (s : Recovery) : State := ⟨gateOf s.state, s.pending, s.now⟩

variable {config : BreakerConfig} {circuit : Circuit}

theorem exclusive_step {s s' : Recovery} {op : Op} {admitted : Bool}
    (h : Exclusive config.probeTTL s.flight) (hown : OwnClaim config circuit s op)
    (hstep : step config circuit s op = some (s', admitted)) :
    Exclusive config.probeTTL s'.flight := by
  cases op with
  | start id now =>
    simp only [step] at hstep
    split at hstep
    · cases hstep
    next hready =>
    have hnow : s.now ≤ now := Int.not_lt.mp fun hlt => hready (.inl hlt)
    have hpass := gateOf_tryStart config now s.state
    split at hstep
    · next state heq =>
      cases hstep
      rw [heq] at hpass
      exact h.pass hnow hpass.symm
    · next state heq =>
      cases hstep
      -- a refused start leaves the entry as it was
      have hsame : state = s.state := by
        unfold tryStart at heq
        grind
      subst hsame
      exact h.wait hnow
  | complete id completion now =>
    simp only [step] at hstep
    split at hstep
    · cases hstep
    next hnow =>
    split at hstep
    · cases hstep
    next c hfind =>
    cases hstep
    obtain ⟨hmove, hreleases⟩ := @settles_complete config now circuit completion s.state
    have hmem : c ∈ s.pending := List.mem_of_find?_eq_some hfind
    have hid : c.id = id := by simpa using List.find?_some hfind
    exact h.complete (Int.not_lt.mp hnow) hmove fun hdrops =>
      ⟨hown c hmem hid ⟨hdrops.halfOpen.1, hdrops.halfOpen.2, hdrops.running, hreleases hdrops⟩, hmem⟩

/-- At most one attempt admitted since the circuit became half-open is unresolved within its claim,
in every run in which a completion releases no claim but its own: for models and providers, from any
state. -/
theorem single_flight_recovery (config : BreakerConfig) (circuit : Circuit)
    (state : Option ModelBreakerState) (start : Time) {s : Recovery}
    {trace : List (Event Recovery Op Bool)}
    (hrun : Run (step config circuit) ⟨state, [], start⟩ trace s)
    (hown : ∀ e ∈ trace, OwnClaim config circuit e.before e.input) :
    ∀ now, s.now ≤ now → ∀ c ∈ s.pending, ∀ d ∈ s.pending,
      s.Probing config now c → s.Probing config now d → c = d := by
  have hexclusive : Exclusive config.probeTTL s.flight := by
    refine hrun.invariant (P := fun s => Exclusive config.probeTTL s.flight)
      (fun _ _ _ _ h hq hstep => exclusive_step h hq hstep) ?_ hown
    exact ⟨fun _ h => (nomatch h), fun _ h => (nomatch h), fun _ h => (nomatch h)⟩
  intro now hnow c hc d hd hpc hpd
  exact hexclusive.at_most_one hnow hc hd hpc hpd

/-! A provider of `sampleConfig`, with a claim of 45. -/

def sampleCompletion (outcome : Outcome) : Completion := ⟨outcome, ⟨0, 0⟩, ⟨0, 0⟩, 0⟩

/-- Attempt 1 opens the circuit, attempt 2 probes and fails, attempt 4 probes next. -/
def ownRelease : List Op :=
  [.start 1 1, .complete 1 (sampleCompletion (.rejected 401 false 0)) 2, .start 2 62, .start 3 63,
    .complete 2 (sampleCompletion (.transportError 502 "transport error: EOF")) 64, .start 4 65]

/-- Attempt 1 starts before attempt 2 opens the circuit, and ends while attempt 3 probes. -/
def staleRelease : List Op :=
  [.start 1 1, .start 2 1, .complete 2 (sampleCompletion (.rejected 401 false 0)) 2, .start 3 62,
    .complete 1 (sampleCompletion (.transportError 502 "transport error: EOF")) 63, .start 4 64]

/-- Along `ownRelease` the probe of attempt 4 is the only one. -/
theorem single_flight_after_own_release :
    ∃ trace s, Run (step sampleConfig (.provider .cerebras)) ⟨none, [], 0⟩ trace s ∧
      (∃ c ∈ s.pending, s.Probing sampleConfig s.now c) ∧
      ∀ c ∈ s.pending, ∀ d ∈ s.pending,
        s.Probing sampleConfig s.now c → s.Probing sampleConfig s.now d → c = d := by
  refine exists_run ownRelease rfl fun hrun => ⟨by decide, ?_⟩
  exact single_flight_recovery _ _ _ _ hrun (by decide) _ (Int.le_refl _)

/-- A completion from before the circuit opened releases the claim of a probe, and a second one is
admitted. -/
theorem two_probes_after_stale_completion :
    ∃ trace s, Run (step sampleConfig (.provider .cerebras)) ⟨none, [], 0⟩ trace s ∧
      ∃ c ∈ s.pending, ∃ d ∈ s.pending,
        c ≠ d ∧ s.Probing sampleConfig s.now c ∧ s.Probing sampleConfig s.now d := by
  exact exists_run staleRelease rfl fun _ => by decide

end Recovery

end CalvoProxy
