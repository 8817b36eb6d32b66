import CalvoProxy.Router.Ranking

/-!
# The discipline of the fallback executor

`Execute` of `DefaultFallbackExecutor`. In a `Course` a position is passed over exactly if an
attempt before it excludes it. The loop runs such a course (`execLoop_course`), and
`execute_disciplined` collects its laws.
-/

namespace CalvoProxy

open List

variable {b a : ModelAttempt} {i n j : Nat} {attempts : List ModelAttempt} {policy : RetryPolicy}
  {err : AttemptError} {e : Ran}

/-- Another executor may fail with an error of its own. -/
inductive AttemptResult
  | success
  | failed (err : AttemptError)
  | otherError (text : String)

/-- An attempt returns, or calls `ReserveFallback` and goes on with the answer. -/
inductive AttemptRun
  | returns (result : AttemptResult)
  | reserves (next : Bool → AttemptRun)

/-- What `Execute` is given; `ReserveQuota` may be missing, and depends on the running attempt, the
number of the call and the candidate. -/
structure Execution where
  retryPolicy : RetryPolicy
  outcome : Nat → ModelAttempt → AttemptRun
  reserveQuota : Option (Nat → Nat → Nat → ModelAttempt → Option QuotaTicket)

/-- The attempts, the positions whose reservation was refused, and what was learned from errors. -/
structure Chain where
  attempts : List ModelAttempt
  refused : List Nat
  unavailable : Unavailable

namespace Chain

def skips (c : Chain) (attempt : ModelAttempt) (i : Nat) : Bool :=
  c.refused.contains i || c.unavailable.providers.contains attempt.provider ||
    quotaPoolUnavailable attempt c.unavailable.pools

def remaining (c : Chain) (current : Nat) : List (ModelAttempt × Nat) :=
  c.attempts.zipIdx.drop (current + 1)

def nextExecutableAttempt (c : Chain) (current : Nat) : Option ModelAttempt :=
  ((c.remaining current).find? fun q => !c.skips q.1 q.2).map Prod.fst

def reserveAmong (grant : Nat → ModelAttempt → Option QuotaTicket) :
    List (ModelAttempt × Nat) → Chain → Chain × Bool
  | [], c => (c, false)
  | (candidate, i) :: rest, c =>
    if c.skips candidate i then reserveAmong grant rest c
    else if candidate.quotaTicket.valid then (c, true)
    else match grant i candidate with
      | none => reserveAmong grant rest { c with refused := i :: c.refused }
      | some ticket =>
        ({ c with attempts := c.attempts.set i { candidate with quotaTicket := ticket } }, true)

def reserveNextExecutableAttempt (grant : Nat → ModelAttempt → Option QuotaTicket) (current : Nat)
    (c : Chain) : Chain × Bool :=
  reserveAmong grant (c.remaining current) c

end Chain

def AttemptRun.run (callback : Option (Nat → Chain → Chain × Bool)) :
    Nat → AttemptRun → Chain → Chain × AttemptResult
  | _, .returns result, c => (c, result)
  | k, .reserves next, c =>
    match callback with
    | none => (next true).run callback (k + 1) c
    | some reserve =>
      let (c, ok) := reserve k c
      (next ok).run callback (k + 1) c

structure Executing where
  chain : Chain
  lastErr : Option AttemptResult
  providerFailures : List (ProviderID × AttemptError)

namespace Executing

def report (s : Executing) (provider : ProviderID) (err : AttemptError) : Executing :=
  if s.providerFailures.any (·.1 = provider) then s
  else { s with providerFailures := s.providerFailures ++ [(provider, err)] }

def excludeProvider (s : Executing) (provider : ProviderID) : Executing :=
  { s with chain.unavailable.providers := provider :: s.chain.unavailable.providers }

def excludePool (s : Executing) (provider : ProviderID) (pool : String) : Executing :=
  { s with chain.unavailable.pools := quotaPoolKey provider pool :: s.chain.unavailable.pools }

/-- What the loop learns from an error, and whether it goes on. -/
def learn (policy : RetryPolicy) (attempt : ModelAttempt) (result : AttemptResult)
    (s : Executing) : Executing × Bool :=
  let s := { s with lastErr := some result }
  match result with
  | .success => (s, false)
  | .otherError _ => (s, true)
  | .failed err =>
    if err.providerUnavailable then
      ((s.excludeProvider attempt.provider).report attempt.provider err, true)
    else if err.skipProvider then (s.excludeProvider attempt.provider, true)
    else
      let s := if err.quotaLimited then s.report attempt.provider err else s
      if err.quotaPool != "" then (s.excludePool attempt.provider err.quotaPool, true)
      else if isModelUnavailable err || err.skipModel then (s, true)
      else (s, shouldRetryAttempt policy err)

end Executing

/-- The position of an attempt, what the executor was passed, what it came to, and the positions
refused by then. -/
structure Ran where
  index : Nat
  attempt : ModelAttempt
  result : AttemptResult
  refused : List Nat

/-- The loop from position `i` on, for `n` more positions. -/
def execLoop (x : Execution) : Nat → Nat → Executing → Executing × ChainEnd × List Ran
  | 0, _, s => (s, .ran, [])
  | n + 1, i, s =>
    match s.chain.attempts[i]? with
    | none => (s, .ran, [])
    | some planned =>
      if s.chain.skips planned i then execLoop x n (i + 1) s
      else
        let next := s.chain.nextExecutableAttempt i
        let attempt := { planned with attemptIndex := i + 1, lastInChain := next.isNone }
        let callback := if next.isSome then x.reserveQuota.map fun reserve k =>
          Chain.reserveNextExecutableAttempt (reserve i k) i else none
        let (chain, result) := (x.outcome i attempt).run callback 0 s.chain
        let ran : Ran := ⟨i, attempt, result, chain.refused⟩
        match result with
        | .success => ({ s with chain := chain }, .served, [ran])
        | result =>
          match { s with chain := chain }.learn x.retryPolicy attempt result with
          | (s, true) =>
            let (s, last, rest) := execLoop x n (i + 1) s
            (s, last, ran :: rest)
          | (s, false) => (s, .stopped (s.chain.nextExecutableAttempt i).isSome, [ran])

structure ExecutionError where
  reason : ChainFailureReason
  err : Option AttemptResult
  providerFailures : List (ProviderID × AttemptError)

/-- `Execute`: the attempts that ran, and the error of the chain. -/
def execute (x : Execution) (attempts : List ModelAttempt) : List Ran × Option ExecutionError :=
  match execLoop x attempts.length 0 ⟨⟨attempts, [], ⟨[], []⟩⟩, none, []⟩ with
  | (_, .served, ran) => (ran, none)
  | (s, .stopped true, ran) => (ran, some ⟨.terminal, s.lastErr, s.providerFailures⟩)
  | (s, _, ran) => (ran, some ⟨.exhausted, s.lastErr, s.providerFailures⟩)

/-! ## What an attempt says about the others -/

namespace AttemptResult

/-- `ProviderUnavailable` or `SkipProvider`. -/
def excludesProvider : AttemptResult → Bool
  | .failed err => err.providerUnavailable || err.skipProvider
  | _ => false

def pool : AttemptResult → Option String
  | .failed err =>
    if err.providerUnavailable || err.skipProvider || err.quotaPool = "" then none
    else some err.quotaPool
  | _ => none

def nonRetryable (policy : RetryPolicy) : AttemptResult → Bool
  | .failed err =>
    !(err.providerUnavailable || err.skipProvider || err.quotaPool != "" ||
      isModelUnavailable err || err.skipModel || shouldRetryAttempt policy err)
  | _ => false

end AttemptResult

def Ran.Excludes (e : Ran) (a : ModelAttempt) (j : Nat) : Prop :=
  j ∈ e.refused ∨ (e.result.excludesProvider = true ∧ a.provider = e.attempt.provider) ∨
    ∃ pool, e.result.pool = some pool ∧ freeModel a.model = true ∧
      quotaPoolKey a.provider quotaFreePool = quotaPoolKey e.attempt.provider pool

def Excluded (ran : List Ran) (a : ModelAttempt) (j : Nat) : Prop := ∃ e ∈ ran, e.Excludes a j

def Left (attempts : List ModelAttempt) (ran : List Ran) (i : Nat) : Prop :=
  ∃ j a, i < j ∧ attempts[j]? = some a ∧ ¬ Excluded ran a j

section

/- `refuses i j`: a reservation for position `j` is refused while the attempt at `i` runs. -/
variable (refuses : Nat → Nat → Prop) (policy : RetryPolicy) (attempts : List ModelAttempt)

structure RunsAt (before : List Ran) (i : Nat) (e : Ran) : Prop where
  index : e.index = i
  planned : ∃ a, attempts[i]? = some a ∧ e.attempt.route = a.route ∧ ¬ Excluded before a i
  number : e.attempt.attemptIndex = i + 1
  last : e.attempt.lastInChain = true ↔ ¬ Left attempts before i
  refused : ∀ j ∈ e.refused, (∃ e' ∈ before, j ∈ e'.refused) ∨ refuses i j

/-- The loop from position `i` on, when `before` has run. -/
inductive Course : List Ran → Nat → List Ran → ChainEnd → Prop
  | ended {before : List Ran} {i : Nat} (h : attempts.length ≤ i) : Course before i [] .ran
  | skip {before ran : List Ran} {i : Nat} {last : ChainEnd} {a : ModelAttempt}
      (ha : attempts[i]? = some a) (hexcluded : Excluded before a i)
      (h : Course before (i + 1) ran last) : Course before i ran last
  | served {before : List Ran} {i : Nat} {e : Ran} (he : RunsAt refuses attempts before i e)
      (hsuccess : e.result = .success) : Course before i [e] .served
  | goesOn {before ran : List Ran} {i : Nat} {last : ChainEnd} {e : Ran}
      (he : RunsAt refuses attempts before i e) (hfailed : e.result ≠ .success)
      (hretry : e.result.nonRetryable policy = false)
      (h : Course (before ++ [e]) (i + 1) ran last) : Course before i (e :: ran) last
  | stopped {before : List Ran} {i : Nat} {e : Ran} {early : Bool}
      (he : RunsAt refuses attempts before i e) (hstop : e.result.nonRetryable policy = true)
      (hearly : early = true ↔ Left attempts (before ++ [e]) i) :
      Course before i [e] (.stopped early)

end

/-! ## What the loop knows -/

structure Chain.Knows (attempts : List ModelAttempt) (before : List Ran) (c : Chain) : Prop where
  routes : c.attempts.map (·.route) = attempts.map (·.route)
  skips : ∀ a j, c.skips a j = true ↔ Excluded before a j
  refused : ∀ j ∈ c.refused, ∃ e ∈ before, j ∈ e.refused

namespace Chain

theorem skips_congr (c : Chain) (h : a.route = b.route) (j : Nat) : c.skips a j = c.skips b j := by
  obtain ⟨-, hmodel, hprovider, -⟩ := PlannedAttempt.mk.inj h
  unfold skips quotaPoolUnavailable
  rw [hmodel, hprovider]

theorem mem_remaining {c : Chain} : (a, j) ∈ c.remaining i ↔ i < j ∧ c.attempts[j]? = some a := by
  unfold remaining
  rw [mem_iff_getElem?]
  simp only [List.getElem?_drop, List.getElem?_zipIdx, Option.map_eq_some_iff, Prod.mk.injEq,
    Nat.zero_add]
  constructor
  · rintro ⟨k, b, hb, rfl, rfl⟩
    exact ⟨by omega, hb⟩
  · rintro ⟨hlt, ha⟩
    have hj : i + 1 + (j - (i + 1)) = j := by omega
    exact ⟨j - (i + 1), a, by rw [hj]; exact ha, rfl, hj⟩

/-- The same attempts but for their tickets, and only refusals are added. -/
structure Extends (refuses : Nat → Prop) (c c' : Chain) : Prop where
  routes : c'.attempts.map (·.route) = c.attempts.map (·.route)
  unavailable : c'.unavailable = c.unavailable
  refused : ∀ j ∈ c.refused, j ∈ c'.refused
  new : ∀ j ∈ c'.refused, j ∈ c.refused ∨ refuses j

variable {refuses : Nat → Prop}

theorem Extends.refl (c : Chain) : Extends refuses c c :=
  ⟨rfl, rfl, fun _ hj => hj, fun _ hj => .inl hj⟩

theorem Extends.trans {c c' c'' : Chain} (h : Extends refuses c c') (h' : Extends refuses c' c'') :
    Extends refuses c c'' where
  routes := h'.routes.trans h.routes
  unavailable := h'.unavailable.trans h.unavailable
  refused j hj := h'.refused j (h.refused j hj)
  new j hj := (h'.new j hj).elim (h.new j) .inr

theorem set_routes (ha : attempts[i]? = some a) (h : b.route = a.route) :
    (attempts.set i b).map (·.route) = attempts.map (·.route) := by
  have hroute : (attempts.map (·.route))[i]? = some a.route := by simp [ha]
  obtain ⟨hi, hget⟩ := List.getElem?_eq_some_iff.mp hroute
  rw [map_set, h, ← hget, set_getElem_self]

theorem reserveAmong_extends {grant : Nat → ModelAttempt → Option QuotaTicket}
    {candidates : List (ModelAttempt × Nat)} {c : Chain}
    (h : ∀ q ∈ candidates, c.attempts[q.2]? = some q.1)
    (hrefuses : ∀ q ∈ candidates, grant q.2 q.1 = none → refuses q.2) :
    Extends refuses c (reserveAmong grant candidates c).1 := by
  induction candidates generalizing c with
  | nil => exact .refl c
  | cons q rest ih =>
    obtain ⟨candidate, i⟩ := q
    have hrest := fun q hq => h q (mem_cons_of_mem _ hq)
    have hlater := fun q hq => hrefuses q (mem_cons_of_mem _ hq)
    unfold reserveAmong
    split
    · exact ih hrest hlater
    split
    · exact .refl c
    split
    · next hnone =>
      have hrefused : Extends refuses c { c with refused := i :: c.refused } := by
        refine ⟨rfl, rfl, fun j hj => mem_cons_of_mem i hj, fun j hj => ?_⟩
        rcases mem_cons.mp hj with rfl | hj
        · exact .inr (hrefuses _ mem_cons_self hnone)
        · exact .inl hj
      exact hrefused.trans (ih hrest hlater)
    · exact ⟨set_routes (h _ mem_cons_self) rfl, rfl, fun j hj => hj, fun j hj => .inl hj⟩

namespace Knows

variable {before : List Ran} {c : Chain} (h : c.Knows attempts before)
include h

theorem getElem? (ha : c.attempts[j]? = some a) :
    ∃ b, attempts[j]? = some b ∧ a.route = b.route := by
  have hroute := congrArg (·[j]?) h.routes
  simp only [List.getElem?_map, ha, Option.map_some] at hroute
  obtain ⟨b, hb, heq⟩ := Option.map_eq_some_iff.mp hroute.symm
  exact ⟨b, hb, heq.symm⟩

theorem getElem?_of
    (hb : attempts[j]? = some b) : ∃ a, c.attempts[j]? = some a ∧ a.route = b.route := by
  have hroute := congrArg (·[j]?) h.routes
  simp only [List.getElem?_map, hb, Option.map_some] at hroute
  exact Option.map_eq_some_iff.mp hroute

theorem length : c.attempts.length = attempts.length := by
  simpa using congrArg List.length h.routes

theorem next_isSome (i : Nat) :
    (c.nextExecutableAttempt i).isSome = true ↔ Left attempts before i := by
  unfold nextExecutableAttempt
  rw [Option.isSome_map, List.find?_isSome]
  constructor
  · rintro ⟨⟨a, j⟩, hmem, hskips⟩
    obtain ⟨hlt, ha⟩ := mem_remaining.mp hmem
    obtain ⟨b, hb, hroute⟩ := h.getElem? ha
    refine ⟨j, b, hlt, hb, fun hexcluded => ?_⟩
    rw [← h.skips, ← c.skips_congr hroute] at hexcluded
    simp [hexcluded] at hskips
  · rintro ⟨j, b, hlt, hb, hleft⟩
    obtain ⟨a, ha, hroute⟩ := h.getElem?_of hb
    refine ⟨(a, j), mem_remaining.mpr ⟨hlt, ha⟩, ?_⟩
    rw [← h.skips, ← c.skips_congr hroute] at hleft
    simpa using hleft

end Knows

end Chain

theorem AttemptRun.run_extends {refuses : Nat → Prop}
    {callback : Option (Nat → Chain → Chain × Bool)}
    (h : ∀ reserve, callback = some reserve → ∀ k c, Chain.Extends refuses c (reserve k c).1)
    (k : Nat) (r : AttemptRun) (c : Chain) : Chain.Extends refuses c (r.run callback k c).1 := by
  induction r generalizing k c with
  | returns result => exact .refl c
  | reserves next ih =>
    unfold AttemptRun.run
    split
    · exact ih true (k + 1) c
    · next reserve => exact (h reserve rfl k c).trans (ih _ (k + 1) _)

/-! ## What the loop learns -/

namespace Executing

theorem report_chain (s : Executing) (provider : ProviderID) (err : AttemptError) :
    (s.report provider err).chain = s.chain := by
  unfold report
  split <;> rfl

theorem learn_chain (policy : RetryPolicy) (s : Executing) (attempt : ModelAttempt)
    (result : AttemptResult) :
    (s.learn policy attempt result).1.chain = { s.chain with
        unavailable :=
          ⟨(if result.excludesProvider then [attempt.provider] else []) ++
              s.chain.unavailable.providers,
            result.pool.toList.map (quotaPoolKey attempt.provider) ++
              s.chain.unavailable.pools⟩ } := by
  cases result with
  | success | otherError text => rfl
  | failed err =>
    unfold learn AttemptResult.excludesProvider AttemptResult.pool
    simp only
    split
    · next hp =>
      simp only [hp, Bool.true_or, if_true]
      rw [report_chain]
      rfl
    · next hp =>
      split
      · next hs =>
        simp only [hs, Bool.or_true, Bool.true_or, if_true]
        rfl
      · next hs =>
        have hlimited : ∀ s : Executing,
            (if err.quotaLimited then s.report attempt.provider err else s).chain = s.chain := by
          intro s
          split
          · exact report_chain _ _ _
          · rfl
        split
        · next hpool =>
          simp only [bne_iff_ne, ne_eq] at hpool
          simp only [excludePool, hlimited]
          simp [hp, hs, hpool]
        · next hpool =>
          have hempty : err.quotaPool = "" := by simpa using hpool
          split
          · simp [hlimited, hp, hs, hempty]
          · simp [hlimited, hp, hs, hempty]

theorem learn_knows {before : List Ran} {s : Executing} {e : Ran} {c : Chain} {refuses : Nat → Prop}
    (hknows : c.Knows attempts before)
    (hextends : Chain.Extends refuses c s.chain) (hrefused : e.refused = s.chain.refused) :
    (s.learn policy e.attempt e.result).1.chain.Knows attempts (before ++ [e]) := by
  rw [learn_chain]
  refine ⟨hextends.routes.trans hknows.routes, fun a j => ?_, fun j hj =>
    ⟨e, mem_append_right before mem_cons_self, hrefused ▸ hj⟩⟩
  have hbefore := hknows.skips a j
  have hkept := hextends.refused j
  have hall : Excluded (before ++ [e]) a j ↔ Excluded before a j ∨ e.Excludes a j := by
    simp [Excluded, or_and_right, exists_or]
  rw [hall, ← hbefore, Ran.Excludes, hrefused]
  unfold Chain.skips quotaPoolUnavailable
  simp only [hextends.unavailable, Bool.or_eq_true, Bool.and_eq_true, contains_iff_mem,
    mem_append, mem_map, Option.mem_toList]
  cases hprovider : e.result.excludesProvider with
  | false =>
    simp only [Bool.false_eq_true, if_false, not_mem_nil, false_or, false_and]
    grind
  | true =>
    simp only [if_true, mem_singleton, true_and]
    grind

theorem learn_goesOn {s : Executing} {attempt : ModelAttempt}
    {result : AttemptResult} (h : result ≠ .success) :
    (s.learn policy attempt result).2 = !result.nonRetryable policy := by
  cases result with
  | success => exact absurd rfl h
  | otherError text => rfl
  | failed err =>
    unfold learn AttemptResult.nonRetryable
    simp only
    split
    · next hp => simp [hp]
    split
    · next hs => simp [hs]
    split
    · next hpool => simp [hpool]
    split
    · next hmodel =>
      simp only [Bool.or_eq_true] at hmodel
      rcases hmodel with hmodel | hmodel <;> simp [hmodel]
    · next hp hs hpool hmodel => simp_all

end Executing

/-! ## The course of the loop -/

def execNext (x : Execution) (n : Nat) (s : Executing) (e : Ran) :
    Executing × ChainEnd × List Ran :=
  match e.result with
  | .success => (s, .served, [e])
  | result =>
    match s.learn x.retryPolicy e.attempt result with
    | (s, true) =>
      let (s, last, rest) := execLoop x n (e.index + 1) s
      (s, last, e :: rest)
    | (s, false) => (s, .stopped (s.chain.nextExecutableAttempt e.index).isSome, [e])

theorem execNext_success {x : Execution} {s : Executing} (h : e.result = .success) :
    execNext x n s e = (s, .served, [e]) := by
  unfold execNext
  rw [h]

theorem execNext_failed {x : Execution} {s : Executing} (h : e.result ≠ .success) :
    execNext x n s e =
      let learned := (s.learn x.retryPolicy e.attempt e.result).1
      if e.result.nonRetryable x.retryPolicy then
        (learned, .stopped (learned.chain.nextExecutableAttempt e.index).isSome, [e])
      else
        let rest := execLoop x n (e.index + 1) learned
        (rest.1, rest.2.1, e :: rest.2.2) := by
  have hgoes :
      (s.learn x.retryPolicy e.attempt e.result).2 = !e.result.nonRetryable x.retryPolicy :=
    Executing.learn_goesOn h
  have hnext : execNext x n s e =
      match s.learn x.retryPolicy e.attempt e.result with
      | (s, true) =>
        let (s, last, rest) := execLoop x n (e.index + 1) s
        (s, last, e :: rest)
      | (s, false) => (s, .stopped (s.chain.nextExecutableAttempt e.index).isSome, [e]) := by
    unfold execNext
    cases hresult : e.result with
    | success => exact absurd hresult h
    | failed err | otherError text => rfl
  rw [hnext]
  generalize s.learn x.retryPolicy e.attempt e.result = learned at hgoes
  obtain ⟨s', goes⟩ := learned
  simp only at hgoes
  subst hgoes
  cases e.result.nonRetryable x.retryPolicy <;> rfl

/-- `ReserveQuota` refuses `j` while the attempt at `i` runs. -/
def Execution.Refuses (x : Execution) (i j : Nat) : Prop :=
  i < j ∧ ∃ reserve k a, x.reserveQuota = some reserve ∧ reserve i k j a = none

theorem execLoop_runs {x : Execution} {n i : Nat} {s : Executing} {planned : ModelAttempt}
    (hplanned : s.chain.attempts[i]? = some planned) (hskips : s.chain.skips planned i = false) :
    ∃ e chain, execLoop x (n + 1) i s = execNext x n { s with chain := chain } e ∧
      Chain.Extends (x.Refuses i) s.chain chain ∧ e.refused = chain.refused ∧ e.index = i ∧
      e.attempt = { planned with
        attemptIndex := i + 1
        lastInChain := (s.chain.nextExecutableAttempt i).isNone } := by
  let attempt : ModelAttempt := { planned with
    attemptIndex := i + 1
    lastInChain := (s.chain.nextExecutableAttempt i).isNone }
  let callback : Option (Nat → Chain → Chain × Bool) :=
    if (s.chain.nextExecutableAttempt i).isSome then x.reserveQuota.map fun reserve k =>
      Chain.reserveNextExecutableAttempt (reserve i k) i else none
  have hcallback : ∀ reserve, callback = some reserve →
      ∀ k c, Chain.Extends (x.Refuses i) c (reserve k c).1 := by
    intro reserve hreserve k c
    simp only [callback] at hreserve
    split at hreserve
    · obtain ⟨quota, hquota, rfl⟩ := Option.map_eq_some_iff.mp hreserve
      refine Chain.reserveAmong_extends (fun _ hq => (Chain.mem_remaining.mp hq).2) ?_
      intro q hq hnone
      exact ⟨(Chain.mem_remaining.mp hq).1, quota, k, q.1, hquota, hnone⟩
    · cases hreserve
  have hextends := AttemptRun.run_extends hcallback 0 (x.outcome i attempt) s.chain
  refine ⟨⟨i, attempt, ((x.outcome i attempt).run callback 0 s.chain).2,
    ((x.outcome i attempt).run callback 0 s.chain).1.refused⟩,
    ((x.outcome i attempt).run callback 0 s.chain).1, ?_, hextends, rfl, rfl, rfl⟩
  rw [execLoop]
  simp only [hplanned, hskips, Bool.false_eq_true, if_false]
  rfl

theorem execLoop_course (x : Execution) {attempts : List ModelAttempt} {before : List Ran}
    {n i : Nat} {s : Executing} (hknows : s.chain.Knows attempts before)
    (hn : attempts.length ≤ i + n) :
    Course x.Refuses x.retryPolicy attempts before i (execLoop x n i s).2.2
      (execLoop x n i s).2.1 := by
  induction n generalizing before i s with
  | zero => exact .ended hn
  | succ n ih =>
    cases hplanned : s.chain.attempts[i]? with
    | none =>
      rw [execLoop, hplanned]
      exact .ended (hknows.length ▸ List.getElem?_eq_none_iff.mp hplanned)
    | some planned =>
      obtain ⟨a, ha, hroute⟩ := hknows.getElem? hplanned
      have hexcluded := hknows.skips a i
      rw [← s.chain.skips_congr hroute] at hexcluded
      cases hskips : s.chain.skips planned i with
      | true =>
        have hloop : execLoop x (n + 1) i s = execLoop x n (i + 1) s := by
          rw [execLoop, hplanned]
          simp only [hskips, if_true]
        rw [hloop]
        exact .skip ha (hexcluded.mp hskips) (ih hknows (by omega))
      | false =>
        obtain ⟨e, chain, hloop, hextends, hrefused, hindex, hattempt⟩ :=
          @execLoop_runs x n i s planned hplanned hskips
        have hruns : RunsAt x.Refuses attempts before i e := by
          refine ⟨hindex, ⟨a, ha, by rw [hattempt]; exact hroute, fun h => ?_⟩,
            by rw [hattempt], ?_, fun j hj => ?_⟩
          · rw [hexcluded.mpr h] at hskips
            cases hskips
          · rw [hattempt, ← hknows.next_isSome i]
            simp
          · exact (hextends.new j (hrefused ▸ hj)).imp (hknows.refused j) id
        have hlearned : ({ s with chain := chain }.learn x.retryPolicy e.attempt
            e.result).1.chain.Knows attempts (before ++ [e]) :=
          Executing.learn_knows hknows hextends hrefused
        rw [hloop]
        by_cases hsuccess : e.result = .success
        · rw [execNext_success hsuccess]
          exact .served hruns hsuccess
        · rw [execNext_failed hsuccess, hindex]
          dsimp only
          split
          · next hstop => exact .stopped hruns hstop (hlearned.next_isSome i)
          · next hretry =>
            exact .goesOn hruns hsuccess (eq_false_of_ne_true hretry) (ih hlearned (by omega))

/-! ## The laws of a course -/

theorem single_split {e0 : Ran} {pre post : List Ran} (h : [e0] = pre ++ e :: post) :
    pre = [] ∧ e = e0 := by
  cases pre with
  | nil => exact ⟨rfl, (List.cons.inj h).1.symm⟩
  | cons _ pre =>
    have hnil := (List.cons.inj h).2
    exact absurd hnil.symm (append_ne_nil_of_right_ne_nil pre (cons_ne_nil e post))

namespace Course

variable {refuses : Nat → Nat → Prop} {before ran : List Ran} {last : ChainEnd}
  (h : Course refuses policy attempts before i ran last)

include h

theorem increasing : (∀ e ∈ ran, i ≤ e.index) ∧ (ran.map (·.index)).Pairwise (· < ·) := by
  induction h with
  | ended => exact ⟨fun e he => absurd he not_mem_nil, .nil⟩
  | skip _ _ _ ih => exact ⟨fun e he => Nat.le_of_succ_le (ih.1 e he), ih.2⟩
  | served he _ | stopped he _ _ =>
    refine ⟨fun e' he' => ?_, pairwise_singleton _ _⟩
    rw [mem_singleton.mp he', he.index]
  | goesOn he _ _ _ ih =>
    refine ⟨fun e' he' => ?_, pairwise_cons.mpr ⟨fun j hj => ?_, ih.2⟩⟩
    · rcases mem_cons.mp he' with rfl | he'
      · rw [he.index]
      · exact Nat.le_of_succ_le (ih.1 e' he')
    · obtain ⟨e', he', rfl⟩ := mem_map.mp hj
      have hlater := ih.1 e' he'
      rw [← he.index] at hlater
      exact hlater

theorem runsAt {pre post : List Ran}
    (hsplit : ran = pre ++ e :: post) : RunsAt refuses attempts (before ++ pre) e.index e := by
  induction h generalizing pre with
  | ended => exact absurd hsplit.symm (append_ne_nil_of_right_ne_nil _ (cons_ne_nil _ _))
  | skip _ _ _ ih => exact ih hsplit
  | served he _ | stopped he _ _ =>
    obtain ⟨rfl, rfl⟩ := single_split hsplit
    rw [append_nil, he.index]
    exact he
  | goesOn he _ _ _ ih =>
    cases pre with
    | nil =>
      obtain ⟨rfl, rfl⟩ := List.cons.inj hsplit
      rw [append_nil, he.index]
      exact he
    | cons e' pre =>
      obtain ⟨rfl, hrest⟩ := List.cons.inj hsplit
      have hrun := ih hrest
      rwa [append_assoc, singleton_append] at hrun

theorem not_excludes :
    ran.Pairwise fun e e' => ∃ a, attempts[e'.index]? = some a ∧ e'.attempt.route = a.route ∧
      ¬ e.Excludes a e'.index := by
  induction h with
  | ended => exact .nil
  | skip _ _ _ ih => exact ih
  | served | stopped => exact pairwise_singleton _ _
  | goesOn _ _ _ hrest ih =>
    refine pairwise_cons.mpr ⟨fun e' he' => ?_, ih⟩
    obtain ⟨pre, post, hsplit⟩ := append_of_mem he'
    obtain ⟨a, ha, hroute, hexcluded⟩ := (hrest.runsAt hsplit).planned
    refine ⟨a, ha, hroute, fun h => hexcluded ⟨_, ?_, h⟩⟩
    exact mem_append_left pre (mem_append_right _ mem_cons_self)

theorem passed (hbefore : ∀ e ∈ before, e.index < i) (hj : i ≤ j) (ha : attempts[j]? = some a)
    (hnot : j ∉ ran.map (·.index)) :
    (∃ e ∈ before ++ ran, e.index < j ∧ e.Excludes a j) ∨
      ∃ e ∈ ran, e.index < j ∧ (e.result = .success ∨ e.result.nonRetryable policy = true) := by
  have hbehind : ∀ {before ran : List Ran} {i : Nat} {e : Ran}, RunsAt refuses attempts before i e →
      i ≤ j → j ∉ (e :: ran).map (·.index) → e.index < j := by
    intro before ran i e he hj hnot
    refine Nat.lt_of_le_of_ne (he.index ▸ hj) fun heq => hnot ?_
    rw [← heq]
    exact mem_cons_self
  induction h with
  | ended hend =>
    obtain ⟨hlt, -⟩ := List.getElem?_eq_some_iff.mp ha
    exact absurd hlt (Nat.not_lt.mpr (hend.trans hj))
  | @skip before ran i _ b hb hexcluded _ ih =>
    rcases Nat.eq_or_lt_of_le hj with rfl | hlt
    · cases Option.some.inj (hb.symm.trans ha)
      obtain ⟨e, he, hexcludes⟩ := hexcluded
      exact .inl ⟨e, mem_append_left ran he, hbefore e he, hexcludes⟩
    · exact ih (fun e he => Nat.lt_succ_of_lt (hbefore e he)) hlt hnot
  | served he hsuccess => exact .inr ⟨_, mem_cons_self, hbehind he hj hnot, .inl hsuccess⟩
  | stopped he hstop _ => exact .inr ⟨_, mem_cons_self, hbehind he hj hnot, .inr hstop⟩
  | @goesOn before ran i _ e he _ _ _ ih =>
    have hindex : ∀ e' ∈ before ++ [e], e'.index < i + 1 := by
      intro e' he'
      rcases mem_append.mp he' with he' | he'
      · exact Nat.lt_succ_of_lt (hbefore e' he')
      · rw [mem_singleton.mp he', he.index]
        exact Nat.lt_succ_self i
    have hrest := ih hindex (he.index ▸ hbehind he hj hnot) fun hmem =>
      hnot (mem_cons_of_mem _ hmem)
    rw [append_assoc, singleton_append] at hrest
    exact hrest.imp id fun ⟨e', he', hend⟩ => ⟨e', mem_cons_of_mem e he', hend⟩

/-- A success and an error that is not retried are the end. -/
theorem ends_last : ∀ e ∈ ran, e.result = .success ∨ e.result.nonRetryable policy = true →
      ran.getLast? = some e := by
  induction h with
  | ended => exact fun e he => absurd he not_mem_nil
  | skip _ _ _ ih => exact ih
  | served | stopped =>
    intro e he _
    rw [mem_singleton.mp he]
    rfl
  | goesOn _ hfailed hretry _ ih =>
    intro e' he' hends
    rcases mem_cons.mp he' with rfl | he'
    · simp [hfailed, hretry] at hends
    · rw [List.getLast?_cons, ih e' he' hends]
      rfl

theorem served_iff : last = .served ↔ ∃ e ∈ ran, e.result = .success := by
  induction h with
  | ended => simp
  | skip _ _ _ ih => exact ih
  | served _ hsuccess => simp [hsuccess]
  | @stopped _ _ e early _ hstop _ =>
    have hfailed : e.result ≠ .success := by
      intro hsuccess
      rw [hsuccess] at hstop
      cases hstop
    simp [hfailed]
  | goesOn _ hfailed _ _ ih =>
    rw [ih]
    simp [hfailed]

theorem stopped_early :
    last = .stopped true ↔ ∃ pre e, ran = pre ++ [e] ∧ e.result.nonRetryable policy = true ∧
      Left attempts (before ++ ran) e.index := by
  induction h with
  | ended => simp
  | skip _ _ _ ih => exact ih
  | served _ hsuccess =>
    constructor
    · intro h
      cases h
    · rintro ⟨pre, e, hsplit, hstop, -⟩
      obtain ⟨rfl, rfl⟩ := single_split hsplit
      rw [hsuccess] at hstop
      cases hstop
  | @stopped _ _ e _ he hstop hearly =>
    rw [ChainEnd.stopped.injEq, hearly]
    constructor
    · intro hleft
      exact ⟨[], e, rfl, hstop, he.index.symm ▸ hleft⟩
    · rintro ⟨pre, e', hsplit, -, hleft⟩
      obtain ⟨rfl, rfl⟩ := single_split hsplit
      exact he.index ▸ hleft
  | @goesOn before ran _ _ e _ _ hretry _ ih =>
    rw [ih, append_assoc, singleton_append]
    constructor
    · rintro ⟨pre, e', rfl, hstop, hleft⟩
      exact ⟨e :: pre, e', rfl, hstop, hleft⟩
    · rintro ⟨pre, e', hsplit, hstop, hleft⟩
      cases pre with
      | nil =>
        obtain ⟨rfl, rfl⟩ := List.cons.inj hsplit
        rw [hretry] at hstop
        cases hstop
      | cons _ pre =>
        obtain ⟨rfl, rfl⟩ := List.cons.inj hsplit
        exact ⟨pre, e', rfl, hstop, hleft⟩

omit h in
theorem refused_by (h : Course refuses policy attempts [] i ran last) {pre post : List Ran}
    (hsplit : ran = pre ++ e :: post) : ∀ j ∈ e.refused, ∃ i, refuses i j := by
  induction hn : pre.length using Nat.strong_induction_on generalizing pre e post with
  | _ n ih =>
    intro j hj
    rcases (h.runsAt hsplit).refused j hj with ⟨e', he', hj'⟩ | hrefuses
    · obtain ⟨front, back, rfl⟩ := append_of_mem he'
      rw [append_assoc, cons_append] at hsplit
      refine ih front.length ?_ hsplit rfl j hj'
      rw [← hn, length_append]
      exact Nat.lt_add_of_pos_right (Nat.succ_pos _)
    · exact ⟨_, hrefuses⟩

end Course

/-! ## The laws of the executor -/

structure Disciplined (x : Execution) (attempts : List ModelAttempt) (ran : List Ran)
    (reason : Option ChainFailureReason) : Prop where
  /-- Each position runs at most once, and in order. -/
  increasing : (ran.map (·.index)).Pairwise (· < ·)
  /-- Each attempt that runs is the planned one, not excluded, and told to be the last exactly if
  all behind it are excluded. -/
  runs : ∀ pre e post, ran = pre ++ e :: post → RunsAt x.Refuses attempts pre e.index e
  provider : ran.Pairwise fun e e' => ∀ err, e.result = .failed err →
    err.providerUnavailable = true ∨ err.skipProvider = true →
    e'.attempt.provider ≠ e.attempt.provider
  pool : ran.Pairwise fun e e' => ∀ err, e.result = .failed err → err.quotaPool = quotaFreePool →
    freeModel e'.attempt.model = true → e'.attempt.provider ≠ e.attempt.provider
  /-- The first success is the end. -/
  success : ∀ e ∈ ran, e.result = .success → ran.getLast? = some e
  /-- So is the first error that is not retried. -/
  stopped : ∀ e ∈ ran, e.result.nonRetryable x.retryPolicy = true → ran.getLast? = some e
  answered : reason = none ↔ ∃ e ∈ ran, e.result = .success
  /-- A position that does not run is excluded before, or behind the end. -/
  passed : ∀ j a, attempts[j]? = some a → j ∉ ran.map (·.index) →
    (∃ e ∈ ran, e.index < j ∧ e.Excludes a j) ∨ ∃ e ∈ ran, e.index < j ∧
      (e.result = .success ∨ e.result.nonRetryable x.retryPolicy = true)
  /-- What an attempt excludes by its refusals was refused by `ReserveQuota`. -/
  refused : ∀ e ∈ ran, ∀ j ∈ e.refused, ∃ i, x.Refuses i j
  terminal : reason = some .terminal ↔ ∃ pre e, ran = pre ++ [e] ∧
    e.result.nonRetryable x.retryPolicy = true ∧ Left attempts ran e.index
  exhausted : reason ≠ none → reason ≠ some .terminal → reason = some .exhausted

theorem Ran.Excludes.of_provider (herr : e.result = .failed err)
    (h : err.providerUnavailable = true ∨ err.skipProvider = true)
    (ha : a.provider = e.attempt.provider) : e.Excludes a j := by
  refine .inr (.inl ⟨?_, ha⟩)
  rw [herr]
  simpa [AttemptResult.excludesProvider] using h

theorem Ran.Excludes.of_pool (herr : e.result = .failed err)
    (h : err.quotaPool = quotaFreePool) (hfree : freeModel a.model = true)
    (ha : a.provider = e.attempt.provider) : e.Excludes a j := by
  by_cases hp : err.providerUnavailable = true ∨ err.skipProvider = true
  · exact .of_provider herr hp ha
  refine .inr (.inr ⟨quotaFreePool, ?_, hfree, by rw [ha]⟩)
  rw [herr]
  simp only [not_or, Bool.not_eq_true] at hp
  simp [AttemptResult.pool, hp.1, hp.2, h, quotaFreePool]

theorem execute_reason (x : Execution) (attempts : List ModelAttempt) :
    ∃ last, Course x.Refuses x.retryPolicy attempts [] 0 (execute x attempts).1 last ∧
      (execute x attempts).2.map (·.reason) =
        match last with
        | .served => none
        | .stopped true => some .terminal
        | _ => some .exhausted := by
  have hknows : (⟨attempts, [], ⟨[], []⟩⟩ : Chain).Knows attempts [] := by
    refine ⟨rfl, fun a j => ?_, fun j hj => absurd hj not_mem_nil⟩
    simp [Chain.skips, quotaPoolUnavailable, Excluded]
  have hcourse := @execLoop_course x attempts [] attempts.length 0
    ⟨⟨attempts, [], ⟨[], []⟩⟩, none, []⟩ hknows (by simp)
  unfold execute
  generalize execLoop x attempts.length 0 ⟨⟨attempts, [], ⟨[], []⟩⟩, none, []⟩ = r at hcourse
  obtain ⟨s, last, ran⟩ := r
  refine ⟨last, ?_, ?_⟩
  · rcases last with _ | ⟨_ | _⟩ | _ <;> exact hcourse
  · rcases last with _ | ⟨_ | _⟩ | _ <;> rfl

/-- For any attempts, retry policy, executor of attempts and reservations, the run of `Execute` and
the reason it returns are disciplined. -/
theorem execute_disciplined (x : Execution) (attempts : List ModelAttempt) :
    Disciplined x attempts (execute x attempts).1 ((execute x attempts).2.map (·.reason)) := by
  obtain ⟨last, hcourse, hreason⟩ := execute_reason x attempts
  rw [hreason]
  generalize (execute x attempts).1 = ran at hcourse
  have hexcludes := hcourse.not_excludes
  refine ⟨hcourse.increasing.2, fun pre e post hsplit => ?_, ?_, ?_, fun e he h => ?_, fun e he h => ?_,
    ?_, fun j a ha hnot => ?_, ?_, ?_, ?_⟩
  · simpa using hcourse.runsAt hsplit
  · refine hexcludes.imp ?_
    rintro e e' ⟨a, -, hroute, hexcludes⟩ err herr hflag hprovider
    obtain ⟨-, -, hsame, -⟩ := PlannedAttempt.mk.inj hroute
    exact hexcludes (.of_provider herr hflag (hsame.symm.trans hprovider))
  · refine hexcludes.imp ?_
    rintro e e' ⟨a, -, hroute, hexcludes⟩ err herr hpool hfree hprovider
    obtain ⟨-, hmodel, hsame, -⟩ := PlannedAttempt.mk.inj hroute
    exact hexcludes (.of_pool herr hpool (hmodel ▸ hfree) (hsame.symm.trans hprovider))
  · exact hcourse.ends_last e he (.inl h)
  · exact hcourse.ends_last e he (.inr h)
  · rw [← hcourse.served_iff]
    rcases last with _ | ⟨_ | _⟩ | _ <;> simp
  · simpa using hcourse.passed (fun e he => absurd he not_mem_nil) (Nat.zero_le j) ha hnot
  · intro e he
    obtain ⟨pre, post, hsplit⟩ := append_of_mem he
    exact hcourse.refused_by hsplit
  · have hearly := hcourse.stopped_early
    rw [nil_append] at hearly
    rw [← hearly]
    rcases last with _ | ⟨_ | _⟩ | _ <;> simp
  · rcases last with _ | ⟨_ | _⟩ | _ <;> simp

def poolAttempts : List ModelAttempt :=
  [{ demoAttempt with model := "m:free" }, { demoAttempt with model := "n:free" }]

/-- Each attempt is refused because of a pool other than that of the free models. -/
def poolExecution : Execution where
  retryPolicy := ⟨0, [], false, false⟩
  outcome := fun _ _ => .returns (.failed
    { statusCode := 429, message := "", quotaLimited := true, quotaPool := "daily" })
  reserveQuota := none

/-- A free model runs although a pool of its provider is exhausted. -/
theorem other_pool_keeps_free :
    ∃ e e' err, (execute poolExecution poolAttempts).1 = [e, e'] ∧ e.result = .failed err ∧
      err.quotaPool ≠ "" ∧ freeModel e'.attempt.model = true ∧
      e'.attempt.provider = e.attempt.provider :=
  ⟨_, _, _, rfl, rfl, by decide, by decide, rfl⟩

end CalvoProxy
