import CalvoProxy.Router.Service

/-!
# The circuit of a model

The five methods of `RouterService` that read or move the circuit of a model, called in any order at
times that do not go back, and how the circuit of one key relates to the failures that were
reported.
-/

namespace CalvoProxy

open Machine ModelBreakerState RouterService

variable {T : Int} {trace : Trace}

/-! ## A counted failure -/

namespace ModelBreakerState

variable (config : BreakerConfig) (policy : BreakerPolicy) (code : Int) (reason : String)
  (retryAfter : Option Duration) {now : Time} {state : ModelBreakerState}

def WindowElapsed (state : ModelBreakerState) (now : Time) : Prop :=
  state.openUntil ≠ 0 ∧ state.openUntil < now

instance (state : ModelBreakerState) (now : Time) : Decidable (state.WindowElapsed now) :=
  inferInstanceAs (Decidable (_ ∧ _))

/-- The end of the window that a failure finds, if it has not elapsed. -/
def standing (state : ModelBreakerState) (now : Time) : Time :=
  if state.WindowElapsed now then 0 else state.openUntil

theorem elapsed_eq (state : ModelBreakerState) (now : Time) :
    (!Time.isZero state.openUntil && Time.after now state.openUntil) =
      decide (state.WindowElapsed now) := by
  rw [Bool.eq_iff_iff, decide_eq_true_eq]
  simp [Time.isZero, Time.after, WindowElapsed]

theorem fail_consecutiveFailures :
    (fail config policy code reason false retryAfter now state).consecutiveFailures =
      if state.WindowElapsed now then 1 else state.consecutiveFailures + 1 := by
  simp only [fail, elapsed_eq, decide_eq_true_eq]
  split <;> simp

theorem fail_openUntil : (fail config policy code reason false retryAfter now state).openUntil =
      if config.threshold policy ≤
          ((fail config policy code reason false retryAfter now state).consecutiveFailures : Int)
      then max (now + config.cooldownFor policy retryAfter) (state.standing now)
      else state.standing now := by
  have hmax : ∀ t : Time, (if state.standing now < t then t else state.standing now) =
      max t (state.standing now) := by
    intro t
    split
    · next h => exact (max_eq_left (Int.le_of_lt h)).symm
    · next h => exact (max_eq_right (Int.not_lt.mp h)).symm
  simp only [fail, elapsed_eq, decide_eq_true_eq, Bool.false_or]
  rw [← standing]
  simp only [Time.after, decide_eq_true_eq, hmax]

theorem fail_extends (hnow : now < state.openUntil) :
    state.openUntil ≤ (fail config policy code reason false retryAfter now state).openUntil := by
  have hstanding : state.standing now = state.openUntil :=
    if_neg fun helapsed => absurd helapsed.2 (Int.not_lt.mpr (Int.le_of_lt hnow))
  rw [fail_openUntil, hstanding]
  split
  · exact le_max_right _ _
  · exact Int.le_refl _

theorem fail_open_counted
    (h : state.openUntil ≠ 0 → config.threshold policy ≤ (state.consecutiveFailures : Int))
    (hopen : (fail config policy code reason false retryAfter now state).openUntil ≠ 0) :
    config.threshold policy ≤
      ((fail config policy code reason false retryAfter now state).consecutiveFailures : Int) := by
  rw [fail_openUntil] at hopen
  split at hopen
  · next hcount => exact hcount
  -- the window that was standing is still there, and so is its count
  have hnot : ¬state.WindowElapsed now := fun helapsed => hopen (if_pos helapsed)
  rw [standing, if_neg hnot] at hopen
  rw [fail_consecutiveFailures, if_neg hnot]
  have hbefore := h hopen
  push_cast
  exact Int.le_add_one hbefore

theorem max_le_cooldownFor : max (config.cooldownFor policy none) (retryAfter.getD 0) ≤
      config.cooldownFor policy retryAfter := by
  cases retryAfter with
  | none => exact max_le (Int.le_refl _) (Int.le_of_lt (config.cooldownFor_pos policy none))
  | some wait =>
    unfold BreakerConfig.cooldownFor
    generalize (if 0 < policy.cooldown then policy.cooldown else config.cooldown) = base
    show max base wait ≤ if base < wait then wait else base
    split
    · next h => exact max_le (Int.le_of_lt h) (Int.le_refl _)
    · next h => exact max_le (Int.le_refl _) (Int.not_lt.mp h)

theorem tryStart_not_early {o : Option ModelBreakerState} (hnow : 0 ≤ now)
    (h : (tryStart config now o).2 = true) : (o.getD .empty).openUntil ≤ now := by
  cases o with
  | none => exact hnow
  | some state =>
    simp only [Option.getD_some]
    simp only [tryStart] at h
    split at h
    · next hzero =>
      rw [show state.openUntil = 0 by simpa [Time.isZero] using hzero]
      exact hnow
    split at h
    · cases h
    · next hbefore => exact Int.not_lt.mp (by simpa [Time.before] using hbefore)

theorem tryStart_keeps (o : Option ModelBreakerState) :
    ((tryStart config now o).1.getD .empty).consecutiveFailures =
        (o.getD .empty).consecutiveFailures ∧
      ((tryStart config now o).1.getD .empty).openUntil = (o.getD .empty).openUntil := by
  unfold tryStart
  grind

end ModelBreakerState

namespace ModelCircuit

inductive Call
  | tryStartAttempt
  | recordFailure (statusCode : Int) (reason : String) (retryAfter : Option Duration)
  | recordSuccess
  | resolveProbe
  | penalizeScore (statusCode : Int)

structure Op where
  attempt : ModelAttempt
  now : Time
  call : Call

structure Clocked where
  service : RouterService
  now : Time

def Call.perform (cfg : Settings) (attempt : ModelAttempt) (now : Time) (s : RouterService) :
    Call → RouterService × Option Bool
  | .tryStartAttempt =>
    let r := s.tryStartAttempt cfg attempt now
    (r.1, some r.2)
  | .recordFailure code reason retryAfter =>
    (s.recordFailure cfg attempt now code reason retryAfter, none)
  | .recordSuccess => (s.recordSuccess cfg attempt now, none)
  | .resolveProbe => (s.resolveProbe cfg attempt, none)
  | .penalizeScore code => (s.penalizeScore cfg attempt now code, none)

def step (cfg : Settings) (s : Clocked) (op : Op) : Option (Clocked × Option Bool) :=
  if op.now < s.now then none
  else
    let r := op.call.perform cfg op.attempt op.now s.service
    some (⟨r.1, op.now⟩, r.2)

def Clocked.breaker (s : Clocked) (key : String) : ModelBreakerState :=
  (s.service.modelBreakers.lookup key).getD .empty

abbrev Trace := List (Event Clocked Op (Option Bool))

/-- A success or a good response starts the count over, and a failure that finds a window elapsed is
the first of a new run. -/
def recount (cfg : Settings) (key : String) (count : Nat)
    (e : Event Clocked Op (Option Bool)) : Nat :=
  if cfg.breakerKey e.input.attempt = key then
    match e.input.call with
    | .recordFailure _ _ _ =>
      if (e.before.breaker key).WindowElapsed e.input.now then 1 else count + 1
    | .recordSuccess => 0
    | .resolveProbe => 0
    | .tryStartAttempt => count
    | .penalizeScore _ => count
  else count

/-- The failures of `key` in the current run. -/
def failuresInRun (cfg : Settings) (key : String) (trace : Trace) : Nat :=
  trace.foldl (recount cfg key) 0

variable {cfg : Settings} {s s' : Clocked} {op : Op} {o : Option Bool} {key : String}

theorem step_eq (h : step cfg s op = some (s', o)) :
    s.now ≤ op.now ∧ s' = ⟨(op.call.perform cfg op.attempt op.now s.service).1, op.now⟩ ∧
      o = (op.call.perform cfg op.attempt op.now s.service).2 := by
  unfold step at h
  split at h
  · cases h
  · next hnow =>
    cases h
    exact ⟨Int.not_lt.mp hnow, rfl, rfl⟩

def failed (cfg : Settings) (op : Op) (code : Int) (reason : String)
    (retryAfter : Option Duration) (state : ModelBreakerState) : ModelBreakerState :=
  state.fail cfg.breaker op.attempt.breakerPolicy code reason false retryAfter op.now

theorem perform_own (h : step cfg s op = some (s', o)) (hkey : cfg.breakerKey op.attempt = key) :
    match op.call with
    | .recordFailure code reason retryAfter =>
      s'.breaker key = failed cfg op code reason retryAfter (s.breaker key)
    | .recordSuccess => (s'.breaker key).consecutiveFailures = 0 ∧ (s'.breaker key).openUntil = 0
    | .resolveProbe => (s'.breaker key).consecutiveFailures = 0 ∧ (s'.breaker key).openUntil = 0
    | .tryStartAttempt | .penalizeScore _ =>
      (s'.breaker key).consecutiveFailures = (s.breaker key).consecutiveFailures ∧
        (s'.breaker key).openUntil = (s.breaker key).openUntil := by
  obtain ⟨-, rfl, -⟩ := step_eq h
  subst hkey
  obtain ⟨attempt, now, call⟩ := op
  have hupdate : ∀ (t : RouterService) (f : ModelBreakerState → ModelBreakerState),
      Clocked.breaker ⟨t.updateModel cfg attempt f, now⟩ (cfg.breakerKey attempt) =
        f ((t.modelBreakers.lookup (cfg.breakerKey attempt)).getD .empty) := by
    intro t f
    unfold Clocked.breaker updateModel breakerOf
    simp only [AList.lookup_insert, Option.getD_some]
  cases call with
  | recordFailure code reason retryAfter => exact hupdate _ _
  | recordSuccess | resolveProbe => exact ⟨congrArg _ (hupdate _ _), congrArg _ (hupdate _ _)⟩
  | penalizeScore code =>
    have hpenalized := hupdate (s.service.countScoredAttempt cfg now).1
      (·.penalize code (s.service.countScoredAttempt cfg now).2)
    exact ⟨(congrArg consecutiveFailures hpenalized).trans rfl,
      (congrArg openUntil hpenalized).trans rfl⟩
  | tryStartAttempt =>
    have hkeeps := @ModelBreakerState.tryStart_keeps cfg.breaker now
      (s.service.modelBreakers.lookup (cfg.breakerKey attempt))
    simp only [Call.perform, tryStartAttempt, Clocked.breaker]
    split
    · next hnone =>
      exact ⟨rfl, rfl⟩
    · next state hsome =>
      rw [hsome] at hkeeps
      simpa only [AList.lookup_insert, Option.getD_some] using hkeeps

theorem perform_other (h : step cfg s op = some (s', o)) (hkey : cfg.breakerKey op.attempt ≠ key) :
    s'.breaker key = s.breaker key := by
  obtain ⟨-, rfl, -⟩ := step_eq h
  obtain ⟨attempt, now, call⟩ := op
  have hupdate : ∀ (t : RouterService) (f : ModelBreakerState → ModelBreakerState),
      Clocked.breaker ⟨t.updateModel cfg attempt f, now⟩ key =
        (t.modelBreakers.lookup key).getD .empty := by
    intro t f
    unfold Clocked.breaker updateModel
    rw [AList.lookup_insert_ne (Ne.symm hkey)]
  cases call with
  | recordFailure code reason retryAfter | recordSuccess | resolveProbe | penalizeScore code =>
    exact hupdate _ _
  | tryStartAttempt =>
    simp only [Call.perform, tryStartAttempt, Clocked.breaker]
    split
    · rfl
    · rw [AList.lookup_insert_ne (Ne.symm hkey)]

def Thresholded (cfg : Settings) (key : String) (T : Int) (op : Op) : Prop :=
  cfg.breakerKey op.attempt = key → cfg.breaker.threshold op.attempt.breakerPolicy = T

instance (cfg : Settings) (key : String) (T : Int) (op : Op) :
    Decidable (Thresholded cfg key T op) :=
  inferInstanceAs (Decidable (_ → _))

/-- The counter is the count of the history, and the circuit is not closed only from the threshold
on. -/
structure Counted (cfg : Settings) (key : String) (T : Int) (trace : Trace) (s : Clocked) :
    Prop where
  clock : 0 ≤ s.now
  count : (s.breaker key).consecutiveFailures = failuresInRun cfg key trace
  open_counted : (s.breaker key).openUntil ≠ 0 → T ≤ ((s.breaker key).consecutiveFailures : Int)

theorem counted_step (h : Counted cfg key T trace s)
    (hT : Thresholded cfg key T op) (hstep : step cfg s op = some (s', o)) :
    Counted cfg key T (trace ++ [⟨s, op, o⟩]) s' := by
  have hclock : 0 ≤ s'.now := by
    obtain ⟨hnow, rfl, -⟩ := step_eq hstep
    exact Int.le_trans h.clock hnow
  have hcount : failuresInRun cfg key (trace ++ [⟨s, op, o⟩]) =
      recount cfg key (failuresInRun cfg key trace) ⟨s, op, o⟩ := by
    simp [failuresInRun]
  by_cases hkey : cfg.breakerKey op.attempt = key
  · have hown := perform_own hstep hkey
    rw [recount, if_pos hkey, ← h.count] at hcount
    obtain ⟨attempt, now, call⟩ := op
    cases call with
    | recordFailure code reason retryAfter =>
      simp only at hown hcount
      refine ⟨hclock, ?_, ?_⟩
      · rw [hown, hcount]
        exact fail_consecutiveFailures _ _ _ _ _
      · rw [hown, ← hT hkey]
        refine fail_open_counted _ _ _ _ _ ?_
        rw [hT hkey]
        exact h.open_counted
    | recordSuccess | resolveProbe =>
      exact ⟨hclock, hown.1.trans hcount.symm, fun hopen => absurd hown.2 hopen⟩
    | tryStartAttempt | penalizeScore code =>
      exact ⟨hclock, hown.1.trans hcount.symm, by rw [hown.1, hown.2]; exact h.open_counted⟩
  · have hother := perform_other hstep hkey
    rw [recount, if_neg hkey] at hcount
    exact ⟨hclock, by rw [hother, hcount]; exact h.count, by rw [hother]; exact h.open_counted⟩

theorem counted_run {s0 : Clocked} (hstart : 0 ≤ s0.now)
    (hfresh : (s0.breaker key).consecutiveFailures = 0 ∧ (s0.breaker key).openUntil = 0)
    (hrun : Run (step cfg) s0 trace s) (hT : ∀ e ∈ trace, Thresholded cfg key T e.input) :
    Counted cfg key T trace s := by
  induction hrun with
  | start => exact ⟨hstart, hfresh.1, fun hopen => absurd hfresh.2 hopen⟩
  | @next tr s s' op o _ hstep ih =>
    have hbefore := ih fun e he => hT e (List.mem_append_left _ he)
    exact counted_step hbefore (hT ⟨s, op, o⟩ (by simp)) hstep

/-- What a further call may do to the circuit of `key`. -/
def Respects (cfg : Settings) (key : String) (T : Int) (trace : Trace) (s s' : Clocked) (op : Op)
    (o : Option Bool) : Prop :=
  match op.call with
  | .recordFailure _ _ retryAfter =>
    let wait := max (cfg.breaker.cooldownFor op.attempt.breakerPolicy none) (retryAfter.getD 0)
    (op.now < (s.breaker key).openUntil → (s.breaker key).openUntil ≤ (s'.breaker key).openUntil) ∧
      (T ≤ failuresInRun cfg key (trace ++ [⟨s, op, o⟩]) →
        op.now + wait ≤ (s'.breaker key).openUntil)
  | .tryStartAttempt => o = some true → (s.breaker key).openUntil ≤ op.now
  | _ => True

theorem respects_step (h : Counted cfg key T trace s)
    (hT : Thresholded cfg key T op) (hkey : cfg.breakerKey op.attempt = key)
    (hstep : step cfg s op = some (s', o)) : Respects cfg key T trace s s' op o := by
  have hown := perform_own hstep hkey
  have hafter := counted_step h hT hstep
  have hout := (step_eq hstep).2.2
  have hnow : 0 ≤ op.now := Int.le_trans h.clock (step_eq hstep).1
  obtain ⟨attempt, now, call⟩ := op
  cases call with
  | recordFailure code reason retryAfter =>
    simp only at hown
    refine ⟨fun hbefore => ?_, fun hcount => ?_⟩
    · rw [hown]
      exact fail_extends _ _ _ _ _ hbefore
    · rw [← hafter.count, hown, ← hT hkey] at hcount
      have hwait := max_le_cooldownFor cfg.breaker attempt.breakerPolicy retryAfter
      calc now + max _ _ ≤ now + cfg.breaker.cooldownFor attempt.breakerPolicy retryAfter :=
            Int.add_le_add_left hwait now
        _ ≤ (s'.breaker key).openUntil := by
            rw [failed] at hown hcount
            rw [hown, fail_openUntil, if_pos hcount]
            exact le_max_left _ _
  | tryStartAttempt =>
    intro htrue
    rw [hout] at htrue
    subst hkey
    refine tryStart_not_early cfg.breaker hnow ?_
    simp only [Call.perform, tryStartAttempt, Option.some.injEq] at htrue
    split at htrue <;> exact htrue
  | recordSuccess | resolveProbe | penalizeScore code => trivial

/-- For any calls at times that do not go back, where those about a model share a threshold: its
circuit is not closed only if the failures of the current run have reached the threshold; a failure
does not shorten a window; one that reaches the threshold keeps it open for the longer of its
cooldown and its `Retry-After`; and no attempt starts before the end of a window. -/
theorem model_circuit_counts (cfg : Settings) (key : String) (T : Int) {s0 s : Clocked}
    (hstart : 0 ≤ s0.now)
    (hfresh : (s0.breaker key).consecutiveFailures = 0 ∧ (s0.breaker key).openUntil = 0)
    (hrun : Run (step cfg) s0 trace s)
    (hT : ∀ e ∈ trace, Thresholded cfg key T e.input) :
    ((s.breaker key).openUntil ≠ 0 → T ≤ failuresInRun cfg key trace) ∧
      ∀ op s' o, cfg.breakerKey op.attempt = key →
        cfg.breaker.threshold op.attempt.breakerPolicy = T → step cfg s op = some (s', o) →
        Respects cfg key T trace s s' op o := by
  have hcounted := counted_run hstart hfresh hrun hT
  refine ⟨fun hopen => ?_, fun op s' o hkey hop hstep =>
    respects_step hcounted (fun _ => hop) hkey hstep⟩
  rw [← hcounted.count]
  exact hcounted.open_counted hopen

def sampleStart : Clocked := ⟨demoWorld.service, 0⟩

def threeFailures : List Op :=
  [⟨demoAttempt, 1, .recordFailure 502 "" none⟩, ⟨demoAttempt, 2, .recordFailure 502 "" none⟩,
    ⟨demoAttempt, 3, .recordFailure 503 "" (some 100)⟩]

/-- After `threeFailures` the circuit is open until 103, and a fourth leaves it so. -/
theorem three_failures_open : ∃ trace s, Run (step demoSettings) sampleStart trace s ∧
      (s.breaker "default:m").openUntil = 103 ∧
      (3 : Int) ≤ failuresInRun demoSettings "default:m" trace ∧
      ∀ s' o, step demoSettings s ⟨demoAttempt, 4, .recordFailure 502 "" none⟩ = some (s', o) →
        103 ≤ (s'.breaker "default:m").openUntil := by
  refine exists_run threeFailures rfl fun hrun => ?_
  have hcircuit := model_circuit_counts demoSettings "default:m" 3 (by decide) (by decide +kernel)
    hrun (by decide +kernel)
  refine ⟨by decide +kernel, hcircuit.1 (by decide +kernel), fun s' o hstep => ?_⟩
  have hopen := (hcircuit.2 _ s' o (by decide +kernel) (by decide) hstep).1 (by decide +kernel)
  exact Int.le_trans (by decide +kernel) hopen

end ModelCircuit

end CalvoProxy
