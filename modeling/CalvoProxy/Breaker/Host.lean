import CalvoProxy.Breaker.Recovery

/-!
# The circuit of a host

`GlobalBreakerTransport` of `router_breaker.go`: all models on a host share its circuit. Entry and
exit of a request each run under the mutex, and the request remembers whether it entered as a probe.
Both results need a condition on the exits of requests that outlived the circuit they entered
through.
-/

namespace CalvoProxy

open SingleFlight List Machine

variable {now start : Time} {id : Nat}

structure HostBreakerState where
  failures : Nat
  openUntil : Time
  probeUntil : Time
deriving DecidableEq

/-- How a round trip ended; a request whose context has ended counts as cancelled. -/
inductive HostResult
  | cancelled
  | transportError
  | response (status : Int)
deriving DecidableEq

def HostResult.recount (count : Nat) : HostResult → Nat
  | .cancelled => count
  | .transportError => count + 1
  | .response status => if status = 429 ∨ 500 ≤ status then count else 0

def BreakerConfig.hostProbeTTL (config : BreakerConfig) : Duration :=
  if config.cooldown < 60000000000 then 60000000000 else config.cooldown

namespace HostBreakerState

def empty : HostBreakerState := ⟨0, 0, 0⟩

/-- The first half of `RoundTrip`: refuse, or admit and say whether it is a probe. -/
def enter (config : BreakerConfig) (host : String) (now : Time) (hb : HostBreakerState) :
    HostBreakerState × Except String Bool :=
  if Time.before now hb.openUntil then
    (hb, .error s!"circuit breaker open for host {host}: temporarily unreachable")
  else if !Time.isZero hb.openUntil then
    if Time.before now hb.probeUntil then
      (hb, .error s!"circuit breaker recovering for host {host}: probe in flight")
    else ({ hb with probeUntil := now + config.hostProbeTTL }, .ok true)
  else (hb, .ok false)

/-- The second half of `RoundTrip`. -/
def exit (config : BreakerConfig) (probing : Bool) (now : Time) (hb : HostBreakerState) :
    HostResult → HostBreakerState
  | .cancelled => { hb with probeUntil := 0 }
  | .transportError =>
    { failures := hb.failures + 1
      openUntil := if config.failureThreshold ≤ hb.failures + 1 then now + config.cooldown
        else hb.openUntil
      probeUntil := 0 }
  | .response status =>
    if 500 ≤ status ∧ probing = true then
      { hb with openUntil := now + config.cooldown, probeUntil := 0 }
    else if status = 429 ∨ 500 ≤ status then { hb with probeUntil := 0 }
    else ⟨0, 0, 0⟩

def gate (hb : HostBreakerState) : Gate := ⟨hb.openUntil, hb.probeUntil⟩

variable (config : BreakerConfig) (host : String)

theorem enter_cases {hb hb' : HostBreakerState} {answer : Except String Bool}
    (h : hb.enter config host now = (hb', answer)) :
    hb'.failures = hb.failures ∧ hb'.openUntil = hb.openUntil ∧
      ((∃ message, answer = .error message ∧ hb' = hb) ∨ ∃ probing, answer = .ok probing ∧
          hb.gate.tryPass config.hostProbeTTL now = (hb'.gate, true)) := by
  unfold enter at h
  split at h
  · cases h
    exact ⟨rfl, rfl, .inl ⟨_, rfl, rfl⟩⟩
  next hopen =>
  have hopen : ¬now < hb.openUntil := by simpa [Time.before] using hopen
  split at h
  · next hset =>
    have hset : hb.openUntil ≠ 0 := by simpa [Time.isZero] using hset
    split at h
    · cases h
      exact ⟨rfl, rfl, .inl ⟨_, rfl, rfl⟩⟩
    · next hprobe =>
      have hprobe : ¬now < hb.probeUntil := by simpa [Time.before] using hprobe
      cases h
      refine ⟨rfl, rfl, .inr ⟨true, rfl, ?_⟩⟩
      simp [Gate.tryPass, gate, hset, hopen, hprobe]
  · next hclosed =>
    have hclosed : hb.openUntil = 0 := by simpa [Time.isZero] using hclosed
    cases h
    refine ⟨rfl, rfl, .inr ⟨false, rfl, ?_⟩⟩
    simp [Gate.tryPass, gate, hclosed]

def Releases (probing : Bool) (hb : HostBreakerState) : HostResult → Prop
  | .cancelled => True
  | .transportError => hb.failures + 1 < config.failureThreshold
  | .response status => status = 429 ∨ (500 ≤ status ∧ probing = false)

instance (probing : Bool) (hb : HostBreakerState) (result : HostResult) :
    Decidable (hb.Releases config probing result) :=
  match result with
  | .cancelled => .isTrue trivial
  | .transportError => inferInstanceAs (Decidable (_ < _))
  | .response _ => inferInstanceAs (Decidable (_ ∨ _ ∧ _))

theorem settles_exit (probing : Bool) (now : Time) (hb : HostBreakerState) (result : HostResult) :
    Recovery.Settles now hb.gate (hb.exit config probing now result).gate
      (hb.Releases config probing result) := by
  have hbeyond : now < now + config.cooldown := Int.lt_add_of_pos_right now config.cooldown_pos
  cases result with
  | cancelled => exact ⟨.same rfl, fun _ => trivial⟩
  | transportError =>
    by_cases hcount : config.failureThreshold ≤ hb.failures + 1
    · apply Recovery.settles_of_reopened
      simpa only [exit, gate, hcount, if_true] using hbeyond
    · refine ⟨.same ?_, fun _ => Nat.not_le.mp hcount⟩
      simp only [exit, gate, hcount, if_false]
  | response status =>
    simp only [exit]
    split
    · exact Recovery.settles_of_reopened hbeyond
    next hprobe =>
    split
    · next hneutral =>
      refine ⟨.same rfl, fun _ => ?_⟩
      unfold Releases
      grind
    · exact Recovery.settles_of_closed rfl

@[simp] theorem exit_failures (probing : Bool) (now : Time) (hb : HostBreakerState)
    (result : HostResult) :
    (hb.exit config probing now result).failures = result.recount hb.failures := by
  cases result with
  | cancelled | transportError => rfl
  | response status =>
    simp only [exit, HostResult.recount]
    grind

def ClosedBelow (hb : HostBreakerState) : Prop :=
  hb.openUntil = 0 → hb.failures < config.failureThreshold

def OpenFrom (hb : HostBreakerState) : Prop :=
  hb.openUntil ≠ 0 → config.failureThreshold ≤ hb.failures

theorem cooldown_ne_zero (hnow : 0 ≤ now) : now + config.cooldown ≠ 0 :=
  Int.ne_of_gt (Int.add_pos_of_nonneg_of_pos hnow config.cooldown_pos)

theorem closedBelow_exit (hnow : 0 ≤ now) (probing : Bool) {hb : HostBreakerState}
    (result : HostResult) (h : hb.ClosedBelow config) :
    (hb.exit config probing now result).ClosedBelow config := by
  have hne := cooldown_ne_zero config hnow
  cases result with
  | cancelled => exact h
  | transportError =>
    intro hclosed
    simp only [exit] at hclosed ⊢
    split at hclosed
    · exact absurd hclosed hne
    · next hcount => exact Nat.not_le.mp hcount
  | response status =>
    simp only [exit]
    split
    · exact fun hclosed => absurd hclosed hne
    split
    · exact h
    · exact fun _ => config.threshold_pos

theorem openFrom_exit_iff (hnow : 0 ≤ now) (probing : Bool) {hb : HostBreakerState}
    (result : HostResult) (hbelow : hb.ClosedBelow config) (h : hb.OpenFrom config) :
    (hb.exit config probing now result).OpenFrom config ↔
      ∀ status, result = .response status → 500 ≤ status → probing = true → hb.openUntil ≠ 0 := by
  have hne := cooldown_ne_zero config hnow
  cases result with
  | cancelled => exact ⟨fun _ => nofun, fun _ => h⟩
  | transportError =>
    refine ⟨fun _ => nofun, fun _ hopen => ?_⟩
    simp only [exit] at hopen ⊢
    split at hopen
    · next hcount => exact hcount
    · exact Nat.le_succ_of_le (h hopen)
  | response status =>
    simp only [exit]
    split
    · next hprobe =>
      -- the circuit opens, and the count stays
      constructor
      · intro hopen _ _ _ _ hclosed
        exact absurd (hopen hne) (Nat.not_le.mpr (hbelow hclosed))
      · exact fun hstill _ => h (hstill status rfl hprobe.1 hprobe.2)
    next hprobe =>
    have hstill : ∀ status', HostResult.response status = .response status' → 500 ≤ status' →
        probing = true → hb.openUntil ≠ 0 := by
      rintro _ ⟨⟩ hserver hprobing
      exact absurd ⟨hserver, hprobing⟩ hprobe
    split
    · exact ⟨fun _ => hstill, fun _ => h⟩
    · exact ⟨fun _ => hstill, fun _ hopen => absurd rfl hopen⟩

end HostBreakerState

structure RoundTrip extends Caller where
  host : String
  probing : Bool
deriving DecidableEq

/-- The circuits of all hosts and the requests that have entered and not exited. -/
structure GlobalBreakerTransport where
  hosts : GoMap String HostBreakerState
  pending : List RoundTrip
  now : Time

namespace GlobalBreakerTransport

inductive Op
  | enter (id : Nat) (host : String) (now : Time)
  | exit (id : Nat) (result : HostResult) (now : Time)

/-- The host of a step, with the answer of an entry or the result of an exit. -/
inductive Output
  | entered (host : String) (answer : Except String Bool)
  | exited (host : String) (result : HostResult)

def Output.host : Output → String
  | .entered host _ => host
  | .exited host _ => host

/-- `hostState`: a host that was never asked has a closed circuit. -/
def hostState (s : GlobalBreakerTransport) (host : String) : HostBreakerState :=
  (s.hosts.lookup host).getD .empty

def fresh (now : Time) : GlobalBreakerTransport := ⟨∅, [], now⟩

/-- One entry or exit: the clock does not go back, and a request enters and then exits once. -/
def step (config : BreakerConfig) (s : GlobalBreakerTransport) :
    Op → Option (GlobalBreakerTransport × Output)
  | .enter id host now =>
    if now < s.now ∨ ∃ r ∈ s.pending, r.id = id then none
    else
      let (hb, answer) := (s.hostState host).enter config host now
      let pending := match answer with
        | .ok probing => ⟨⟨id, now⟩, host, probing⟩ :: s.pending
        | .error _ => s.pending
      some (⟨s.hosts.insert host hb, pending, now⟩, .entered host answer)
  | .exit id result now =>
    if now < s.now then none
    else match s.pending.find? (·.id = id) with
      | none => none
      | some r =>
        let hb := (s.hostState r.host).exit config r.probing now result
        some (⟨s.hosts.insert r.host hb, s.pending.filter (·.id ≠ id), now⟩, .exited r.host result)

variable {config : BreakerConfig} {s s' : GlobalBreakerTransport} {o : Output}

theorem hostState_insert (s : GlobalBreakerTransport) (host host' : String) (hb : HostBreakerState)
    (pending : List RoundTrip) (now : Time) :
    hostState ⟨s.hosts.insert host hb, pending, now⟩ host' =
      if host' = host then hb else s.hostState host' := by
  unfold hostState
  rw [GoMap.lookup_insert_eq]
  split <;> rfl

theorem step_enter {host : String} (h : step config s (.enter id host now) = some (s', o)) :
    s.now ≤ now ∧ (∀ r ∈ s.pending, r.id ≠ id) ∧
      ∃ hb answer, (s.hostState host).enter config host now = (hb, answer) ∧
        o = .entered host answer ∧
        s' = ⟨s.hosts.insert host hb,
          match answer with
          | .ok probing => ⟨⟨id, now⟩, host, probing⟩ :: s.pending
          | .error _ => s.pending, now⟩ := by
  simp only [step] at h
  split at h
  · cases h
  next hready =>
  obtain ⟨hnow, hnew⟩ := not_or.mp hready
  cases h
  exact ⟨Int.not_lt.mp hnow, fun r hr hid => hnew ⟨r, hr, hid⟩, _, _, rfl, rfl, rfl⟩

theorem step_exit {result : HostResult} (h : step config s (.exit id result now) = some (s', o)) :
    s.now ≤ now ∧ ∃ r, s.pending.find? (·.id = id) = some r ∧ o = .exited r.host result ∧
      s' = ⟨s.hosts.insert r.host ((s.hostState r.host).exit config r.probing now result),
        s.pending.filter (·.id ≠ id), now⟩ := by
  simp only [step] at h
  split at h
  · cases h
  next hnow =>
  split at h
  · cases h
  next r hfind =>
  cases h
  exact ⟨Int.not_lt.mp hnow, r, hfind, rfl, rfl⟩

theorem step_frame {op : Op} (h : step config s op = some (s', o)) {host : String}
    (hne : host ≠ o.host) : s'.hosts.lookup host = s.hosts.lookup host := by
  cases op with
  | enter id host' now =>
    obtain ⟨-, -, hb, answer, -, rfl, rfl⟩ := step_enter h
    exact AList.lookup_insert_ne hne
  | exit id result now =>
    obtain ⟨-, r, -, rfl, rfl⟩ := step_exit h
    exact AList.lookup_insert_ne hne

theorem step_now {op : Op} (h : step config s op = some (s', o)) : s.now ≤ s'.now := by
  cases op with
  | enter id host now =>
    obtain ⟨hnow, -, _, _, -, -, rfl⟩ := step_enter h
    exact hnow
  | exit id result now =>
    obtain ⟨hnow, _, -, -, rfl⟩ := step_exit h
    exact hnow

/-! ## One probe at a time -/

/-- The request was admitted since the circuit became half-open, and its claim still runs at
`now`. -/
def Probing (config : BreakerConfig) (s : GlobalBreakerTransport) (now : Time) (r : RoundTrip) :
    Prop :=
  Live config.hostProbeTTL (s.hostState r.host).gate now r.toCaller

/-- An exit releases no running claim but its own: if it leaves a half-open circuit as it is, the
request was admitted since then. -/
def OwnClaim (config : BreakerConfig) (s : GlobalBreakerTransport) : Op → Prop
  | .enter _ _ _ => True
  | .exit id result now =>
    ∀ r ∈ s.pending, r.id = id →
      let hb := s.hostState r.host
      hb.openUntil ≠ 0 ∧ hb.openUntil ≤ now ∧ now < hb.probeUntil ∧
        hb.Releases config r.probing result →
      s.Probing config now r

instance (config : BreakerConfig) (s : GlobalBreakerTransport) (now : Time) (r : RoundTrip) :
    Decidable (s.Probing config now r) :=
  inferInstanceAs (Decidable (Live _ _ _ _))

instance (config : BreakerConfig) (s : GlobalBreakerTransport) (op : Op) :
    Decidable (OwnClaim config s op) :=
  match op with
  | .enter _ _ _ => .isTrue trivial
  | .exit id _ _ =>
    inferInstanceAs (Decidable (∀ r ∈ s.pending, r.id = id → _ ∧ _ ∧ _ ∧ _ → s.Probing config _ r))

def callersOf (host : String) (pending : List RoundTrip) : List Caller :=
  (pending.filter (·.host = host)).map (·.toCaller)

theorem mem_callersOf {host : String} {pending : List RoundTrip} {c : Caller} :
    c ∈ callersOf host pending ↔ ∃ r ∈ pending, r.host = host ∧ r.toCaller = c := by
  simp [callersOf, and_assoc]

def flight (s : GlobalBreakerTransport) (host : String) : State :=
  ⟨(s.hostState host).gate, callersOf host s.pending, s.now⟩

/-- One claim at a time on every host, and requests told apart by their number. -/
structure SingleProbe (config : BreakerConfig) (s : GlobalBreakerTransport) : Prop where
  exclusive : ∀ host, Exclusive config.hostProbeTTL (s.flight host)
  distinct : ∀ r ∈ s.pending, ∀ r' ∈ s.pending, r.id = r'.id → r = r'

theorem exclusive_other {host host' : String} {hb : HostBreakerState} {pending : List RoundTrip}
    (h : Exclusive config.hostProbeTTL (s.flight host')) (hnow : s.now ≤ now)
    (hne : host' ≠ host) (hsub : ∀ r ∈ pending, r.host = host' → r ∈ s.pending) :
    Exclusive config.hostProbeTTL (flight ⟨s.hosts.insert host hb, pending, now⟩ host') := by
  have hfewer : callersOf host' pending ⊆ (s.flight host').pending := by
    intro c hc
    obtain ⟨r, hr, hhost, rfl⟩ := mem_callersOf.mp hc
    exact mem_callersOf.mpr ⟨r, hsub r hr hhost, hhost, rfl⟩
  have hwait := (h.wait hnow).fewer hfewer
  unfold flight
  rw [hostState_insert, if_neg hne]
  exact hwait

theorem singleProbe_enter {host : String} (h : SingleProbe config s)
    (hstep : step config s (.enter id host now) = some (s', o)) : SingleProbe config s' := by
  obtain ⟨hnow, hnew, hb, answer, henter, -, rfl⟩ := step_enter hstep
  obtain ⟨-, -, hcase⟩ := HostBreakerState.enter_cases config host henter
  rcases hcase with ⟨message, rfl, rfl⟩ | ⟨probing, rfl, hpass⟩
  · -- refused: the host keeps its state, and nobody joins
    refine ⟨fun host' => ?_, h.distinct⟩
    by_cases hhost : host' = host
    · subst hhost
      have hwait := (h.exclusive host').wait hnow
      unfold flight
      rw [hostState_insert, if_pos rfl]
      exact hwait
    · exact exclusive_other (h.exclusive host') hnow hhost fun r hr _ => hr
  · refine ⟨fun host' => ?_, fun r hr r' hr' hid => ?_⟩
    · by_cases hhost : host' = host
      · subst hhost
        have hjoin := @Exclusive.pass _ now _ (h.exclusive host') hnow id _ hpass
        unfold flight
        rw [hostState_insert, if_pos rfl, callersOf, filter_cons_of_pos (by simp), map_cons]
        exact hjoin
      · refine exclusive_other (h.exclusive host') hnow hhost fun r hr hr' => ?_
        rcases mem_cons.mp hr with rfl | hold
        · exact absurd hr'.symm hhost
        · exact hold
    · rcases mem_cons.mp hr with rfl | hold <;> rcases mem_cons.mp hr' with rfl | hold'
      · rfl
      · exact absurd hid.symm (hnew r' hold')
      · exact absurd hid (hnew r hold)
      · exact h.distinct r hold r' hold' hid

theorem singleProbe_exit {result : HostResult} (h : SingleProbe config s)
    (hown : OwnClaim config s (.exit id result now))
    (hstep : step config s (.exit id result now) = some (s', o)) : SingleProbe config s' := by
  obtain ⟨hnow, r, hfind, -, rfl⟩ := step_exit hstep
  have hr : r ∈ s.pending := mem_of_find?_eq_some hfind
  have hid : r.id = id := by simpa using List.find?_some hfind
  have hleft : ∀ {q : RoundTrip}, q ∈ s.pending.filter (·.id ≠ id) → q ∈ s.pending ∧ q.id ≠ id := by
    intro q hq
    simpa using mem_filter.mp hq
  refine ⟨fun host' => ?_, fun q hq q' hq' => h.distinct q (hleft hq).1 q' (hleft hq').1⟩
  by_cases hhost : host' = r.host
  · subst hhost
    obtain ⟨hmove, hreleases⟩ :=
      HostBreakerState.settles_exit config r.probing now (s.hostState r.host) result
    have hdone := (h.exclusive r.host).complete (c := r.toCaller) hnow hmove fun hdrops =>
      ⟨hown r hr hid ⟨hdrops.halfOpen.1, hdrops.halfOpen.2, hdrops.running, hreleases hdrops⟩,
        mem_callersOf.mpr ⟨r, hr, rfl, rfl⟩⟩
    have hfewer : callersOf r.host (s.pending.filter (·.id ≠ id)) ⊆
        (s.flight r.host).pending.filter (· ≠ r.toCaller) := by
      intro c hc
      obtain ⟨q, hq, hhost, rfl⟩ := mem_callersOf.mp hc
      obtain ⟨hq, hne⟩ := hleft hq
      refine mem_filter.mpr ⟨mem_callersOf.mpr ⟨q, hq, hhost, rfl⟩, ?_⟩
      refine decide_eq_true fun heq => hne ?_
      rw [heq]
      exact hid
    have hrest := hdone.fewer hfewer
    unfold flight
    rw [hostState_insert, if_pos rfl]
    exact hrest
  · exact exclusive_other (h.exclusive host') hnow hhost fun q hq _ => (hleft hq).1

theorem singleProbe_step {op : Op} (h : SingleProbe config s) (hown : OwnClaim config s op)
    (hstep : step config s op = some (s', o)) : SingleProbe config s' := by
  cases op with
  | enter id host now => exact singleProbe_enter h hstep
  | exit id result now => exact singleProbe_exit h hown hstep

/-- At most one request admitted since the circuit became half-open is in flight within its claim,
in every run in which an exit releases no claim but its own. -/
theorem single_flight_host (config : BreakerConfig) {s : GlobalBreakerTransport}
    {trace : List (Event GlobalBreakerTransport Op Output)}
    (hrun : Run (step config) (fresh start) trace s)
    (hown : ∀ e ∈ trace, OwnClaim config e.before e.input) :
    ∀ now, s.now ≤ now → ∀ r ∈ s.pending, ∀ r' ∈ s.pending, r.host = r'.host →
      s.Probing config now r → s.Probing config now r' → r = r' := by
  have hsingle : SingleProbe config s := by
    refine hrun.invariant (P := SingleProbe config)
      (fun _ _ _ _ h hq hstep => singleProbe_step h hq hstep) ?_ hown
    exact ⟨fun _ => ⟨nofun, nofun, nofun⟩, nofun⟩
  intro now hnow r hr r' hr' hhost hlive hlive'
  unfold Probing at hlive'
  rw [← hhost] at hlive'
  have hsame : r.toCaller = r'.toCaller :=
    (hsingle.exclusive r.host).at_most_one hnow (mem_callersOf.mpr ⟨r, hr, rfl, rfl⟩)
      (mem_callersOf.mpr ⟨r', hr', hhost.symm, rfl⟩) hlive hlive'
  exact hsingle.distinct r hr r' hr' (congrArg Caller.id hsame)

/-! A threshold of one, a cooldown of 60 nanoseconds and a claim of a minute. -/

def oneFailure : BreakerConfig :=
  { sampleConfig with failureThreshold := 1, threshold_pos := Nat.one_pos }

/-- Request 1 opens the circuit, request 2 probes and is cancelled, request 4 probes next. -/
def ownRelease : List Op :=
  [.enter 1 "openrouter.ai" 1, .exit 1 .transportError 2, .enter 2 "openrouter.ai" 62,
    .enter 3 "openrouter.ai" 63, .exit 2 .cancelled 64, .enter 4 "openrouter.ai" 65]

/-- Request 1 enters before request 2 opens the circuit, and is rate limited while
request 3 probes. -/
def staleRelease : List Op :=
  [.enter 1 "openrouter.ai" 1, .enter 2 "openrouter.ai" 1, .exit 2 .transportError 2,
    .enter 3 "openrouter.ai" 62, .exit 1 (.response 429) 63, .enter 4 "openrouter.ai" 64]

/-- Along `ownRelease` request 4 is the only probe. -/
theorem single_flight_host_after_own_release : ∃ trace s, Run (step oneFailure) (fresh 0) trace s ∧
      (∃ r ∈ s.pending, s.Probing oneFailure s.now r) ∧
      ∀ r ∈ s.pending, ∀ r' ∈ s.pending, r.host = r'.host →
        s.Probing oneFailure s.now r → s.Probing oneFailure s.now r' → r = r' := by
  refine exists_run ownRelease rfl fun hrun => ⟨by decide +kernel, ?_⟩
  exact single_flight_host _ hrun (by decide +kernel) _ (Int.le_refl _)

/-- A request from before the circuit opened releases the claim of the probe, and a second one is
admitted. -/
theorem two_host_probes_after_stale_exit : ∃ trace s, Run (step oneFailure) (fresh 0) trace s ∧
      ∃ r ∈ s.pending, ∃ r' ∈ s.pending, r ≠ r' ∧ r.host = r'.host ∧
        s.Probing oneFailure s.now r ∧ s.Probing oneFailure s.now r' := by
  exact exists_run staleRelease rfl fun _ => by decide +kernel

/-! ## Open on evidence -/

def Output.recount (host : String) (count : Nat) : Output → Nat
  | .entered _ _ => count
  | .exited host' result => if host' = host then result.recount count else count

def errorsSince (host : String) (trace : List (Event GlobalBreakerTransport Op Output)) :
    Nat :=
  trace.foldl (fun count e => e.output.recount host count) 0

/-- A circuit is not closed only if the transport errors of its host have reached the threshold. -/
def OnEvidence (config : BreakerConfig)
    (trace : List (Event GlobalBreakerTransport Op Output)) (s : GlobalBreakerTransport) :
    Prop :=
  ∀ host, (s.hostState host).openUntil ≠ 0 → config.failureThreshold ≤ errorsSince host trace

/-- The exit of a probe with a server error finds its circuit not closed. -/
def StillProbed (s : GlobalBreakerTransport) : Op → Prop
  | .exit id (.response status) _ =>
    500 ≤ status → ∀ r ∈ s.pending.find? (·.id = id), r.probing = true →
      (s.hostState r.host).openUntil ≠ 0
  | _ => True

instance (s : GlobalBreakerTransport) (op : Op) : Decidable (StillProbed s op) :=
  match op with
  | .enter _ _ _ => .isTrue trivial
  | .exit _ .cancelled _ => .isTrue trivial
  | .exit _ .transportError _ => .isTrue trivial
  | .exit id (.response status) _ =>
    inferInstanceAs (Decidable (500 ≤ status → ∀ r ∈ s.pending.find? (·.id = id),
      r.probing = true → (s.hostState r.host).openUntil ≠ 0))

/-- The counter of a host is the count of its trace; with enough errors the circuit is not
closed. -/
structure Counted (config : BreakerConfig)
    (trace : List (Event GlobalBreakerTransport Op Output)) (s : GlobalBreakerTransport) :
    Prop where
  clock : 0 ≤ s.now
  count : ∀ host, (s.hostState host).failures = errorsSince host trace
  below : ∀ host, (s.hostState host).ClosedBelow config

section Counted

variable {trace : List (Event GlobalBreakerTransport Op Output)}

theorem errorsSince_append (host : String) (e : Event GlobalBreakerTransport Op Output) :
    errorsSince host (trace ++ [e]) = e.output.recount host (errorsSince host trace) := by
  simp [errorsSince]

theorem Counted.onEvidence_iff (h : Counted config trace s) :
    OnEvidence config trace s ↔ ∀ host, (s.hostState host).OpenFrom config := by
  unfold OnEvidence HostBreakerState.OpenFrom
  refine forall_congr' fun host => ?_
  rw [h.count host]

theorem hostState_enter {host : String} (hstep : step config s (.enter id host now) = some (s', o))
    (host' : String) :
    (s'.hostState host').failures = (s.hostState host').failures ∧
      (s'.hostState host').openUntil = (s.hostState host').openUntil := by
  obtain ⟨-, -, hb, answer, henter, -, rfl⟩ := step_enter hstep
  rw [hostState_insert]
  split
  · next hhost =>
    obtain ⟨hfailures, hopen, -⟩ := HostBreakerState.enter_cases config host henter
    rw [hhost]
    exact ⟨hfailures, hopen⟩
  · exact ⟨rfl, rfl⟩

theorem counted_step {op : Op} (h : Counted config trace s)
    (hstep : step config s op = some (s', o)) : Counted config (trace ++ [⟨s, op, o⟩]) s' := by
  have hclock : 0 ≤ s'.now := Int.le_trans h.clock (step_now hstep)
  cases op with
  | enter id host now =>
    have hsame := hostState_enter hstep
    obtain ⟨-, -, _, _, -, rfl, -⟩ := step_enter hstep
    refine ⟨hclock, fun host' => ?_, fun host' => ?_⟩
    · rw [errorsSince_append, (hsame host').1]
      exact h.count host'
    · unfold HostBreakerState.ClosedBelow
      rw [(hsame host').1, (hsame host').2]
      exact h.below host'
  | exit id result now =>
    obtain ⟨-, r, -, rfl, rfl⟩ := step_exit hstep
    refine ⟨hclock, fun host' => ?_, fun host' => ?_⟩
    · rw [errorsSince_append, hostState_insert, ← h.count host']
      by_cases hhost : host' = r.host
      · subst hhost
        simp [Output.recount]
      · simp [Output.recount, hhost, Ne.symm hhost]
    · rw [hostState_insert]
      split
      · exact HostBreakerState.closedBelow_exit config hclock r.probing result (h.below r.host)
      · exact h.below host'

theorem counted_run (hstart : 0 ≤ start)
    (hrun : Run (step config) (fresh start) trace s) : Counted config trace s := by
  induction hrun with
  | start => exact ⟨hstart, fun _ => rfl, fun _ _ => config.threshold_pos⟩
  | next _ hstep ih => exact counted_step ih hstep

theorem openFrom_step_iff {op : Op} (h : Counted config trace s)
    (hopen : ∀ host, (s.hostState host).OpenFrom config)
    (hstep : step config s op = some (s', o)) :
    (∀ host, (s'.hostState host).OpenFrom config) ↔ StillProbed s op := by
  have hclock : 0 ≤ s'.now := Int.le_trans h.clock (step_now hstep)
  cases op with
  | enter id host now =>
    refine ⟨fun _ => trivial, fun _ host' => ?_⟩
    unfold HostBreakerState.OpenFrom
    rw [(hostState_enter hstep host').1, (hostState_enter hstep host').2]
    exact hopen host'
  | exit id result now =>
    obtain ⟨-, r, hfind, -, rfl⟩ := step_exit hstep
    have hiff := HostBreakerState.openFrom_exit_iff config hclock r.probing result (h.below r.host)
      (hopen r.host)
    have hstill : StillProbed s (.exit id result now) ↔ ∀ status, result = .response status →
        500 ≤ status → r.probing = true → (s.hostState r.host).openUntil ≠ 0 := by
      cases result with
      | cancelled | transportError => exact ⟨fun _ => nofun, fun _ => trivial⟩
      | response status =>
        unfold StillProbed
        simp [hfind]
    rw [hstill, ← hiff]
    constructor
    · intro hall
      have hthis := hall r.host
      rwa [hostState_insert, if_pos rfl] at hthis
    · intro hthis host'
      rw [hostState_insert]
      split
      · exact hthis
      · exact hopen host'

end Counted

/-- The circuits are on evidence throughout a run exactly if no probe exits with a server error from
a circuit closed in the meantime; a step changes the circuit of its own host only. -/
theorem circuits_on_evidence_iff (config : BreakerConfig) (hstart : 0 ≤ start)
    {s : GlobalBreakerTransport} {trace : List (Event GlobalBreakerTransport Op Output)}
    (hrun : Run (step config) (fresh start) trace s) :
    ((∀ tr1 tr2 s1, trace = tr1 ++ tr2 → Run (step config) (fresh start) tr1 s1 →
        OnEvidence config tr1 s1) ↔
      ∀ e ∈ trace, StillProbed e.before e.input) ∧
    ∀ e ∈ trace, ∀ s', step config e.before e.input = some (s', e.output) →
      ∀ host, host ≠ e.output.host → s'.hosts.lookup host = e.before.hosts.lookup host := by
  refine ⟨?_, fun e _ s' hstep host hne => step_frame hstep hne⟩
  refine hrun.throughout_iff (fun host hopen => absurd rfl hopen) ?_
  intro tr s i s' o htr hevidence hstep
  have hcounted := counted_run hstart htr
  rw [(counted_step hcounted hstep).onEvidence_iff]
  exact openFrom_step_iff hcounted (hcounted.onEvidence_iff.mp hevidence) hstep

/-- A transport error opens the circuit and the probe of it gets a server error. -/
def failedProbe : List Op :=
  [.enter 1 "openrouter.ai" 1, .exit 1 .transportError 2, .enter 2 "openrouter.ai" 62,
    .exit 2 (.response 503) 63]

/-- The same, but an earlier request closes the circuit while the probe runs. -/
def outlivedProbe : List Op :=
  [.enter 1 "openrouter.ai" 1, .enter 2 "openrouter.ai" 1, .exit 1 .transportError 2,
    .enter 3 "openrouter.ai" 62, .exit 2 (.response 200) 63, .exit 3 (.response 503) 64]

/-- Along `failedProbe` the circuit is open on the evidence of one transport error. -/
theorem failed_probe_on_evidence : ∃ trace s, Run (step oneFailure) (fresh 0) trace s ∧
      (s.hostState "openrouter.ai").openUntil ≠ 0 ∧ OnEvidence oneFailure trace s := by
  refine exists_run failedProbe rfl fun hrun => ⟨by decide +kernel, ?_⟩
  have hiff := (circuits_on_evidence_iff oneFailure (Int.le_refl 0) hrun).1
  exact hiff.mpr (by decide +kernel) _ [] _ (append_nil _).symm hrun

/-- A probe that outlives its circuit opens it with no transport error since it was closed. -/
theorem circuit_open_without_evidence : ∃ trace s, Run (step oneFailure) (fresh 0) trace s ∧
      (s.hostState "openrouter.ai").openUntil ≠ 0 ∧ errorsSince "openrouter.ai" trace = 0 ∧
      ¬OnEvidence oneFailure trace s := by
  refine exists_run outlivedProbe rfl fun _ => ⟨by decide +kernel, by decide +kernel, fun h => ?_⟩
  exact absurd (h "openrouter.ai" (by decide +kernel)) (by decide +kernel)

end GlobalBreakerTransport

end CalvoProxy
