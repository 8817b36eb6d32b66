import CalvoProxy.Router.Diversity
import CalvoProxy.Router.Handover
import CalvoProxy.Router.QualityFloor

/-!
# The records of a route trace

The scores are read a second time for the trace, and of two attempts with one model the last ranked
gives its score to both (`traced_score_iff`), what
the breakers removed is computed as a rest (`exclusions_truthful_iff`), and only three of the ways
to fail are recorded (`failures_traced_iff`).
-/

namespace CalvoProxy

open List

/-! ## The scores -/

def recordScores (models : List String) (scores : List Rat) (recorded : GoMap String Rat) :
    GoMap String Rat :=
  if models.length ≠ scores.length then recorded
  else (models.zip scores).foldl (fun m e => m.insert e.1 e.2) ∅

/-- What the second reading of the scores finds: its own clocks, and at each attempt the service as
other requests have left it. -/
structure TraceReading where
  env : ScoreEnv
  service : Nat → ScoredService

namespace RankingCall

variable (cfg : Settings) (c : RankingCall) (attempts : List ModelAttempt) (r : TraceReading)

/-- `scores` of `quotaRankAndReserve`, as the trace records them. -/
def scores : GoMap String Rat :=
  recordScores ((c.base cfg attempts).map (·.model))
    ((c.base cfg attempts).zipIdx.map fun e => (r.service e.2).scoreForAttempt cfg r.env e.1) ∅

variable {cfg c attempts r} {chain : List ModelAttempt} {w w' : World} {a : ModelAttempt}

end RankingCall

/-! ## One model at two providers -/

structure ChainCounts where
  planned : Nat
  afterCaps : Nat
  eligible : Nat
  capsRequired : List String
  excludedByBreaker : Int
  excludedByQuota : Int

namespace ChainCounts

def recordQuotaExclusions (n : Int) (t : ChainCounts) : ChainCounts :=
  if n ≤ 0 then t else { t with excludedByQuota := n }

def recordChain (planned afterCaps eligible : Nat) (required : List String) (t : ChainCounts) :
    ChainCounts :=
  let missing : Int := afterCaps - eligible - t.excludedByQuota
  { t with
    planned := planned
    afterCaps := afterCaps
    eligible := eligible
    capsRequired := required
    excludedByBreaker := if missing < 0 then 0 else missing }

/-- The counts of a chain cut from `all` to `healthy`, `fitting`, `chosen` and `left` attempts. -/
theorem truthful_iff {all healthy fitting chosen left : Nat} (t : ChainCounts)
    (hhealthy : healthy ≤ all) (hfitting : fitting ≤ healthy) (hchosen : chosen ≤ fitting)
    (hleft : left ≤ chosen) (planned : Nat) (required : List String) :
    let t' := (t.recordQuotaExclusions (fitting - chosen)).recordChain planned all left required
    (t'.excludedByBreaker = all - healthy ∧ t'.excludedByQuota = fitting - chosen) ↔
      fitting = healthy ∧ left = chosen ∧ (t.excludedByQuota = 0 ∨ chosen < fitting) := by
  unfold recordChain recordQuotaExclusions
  dsimp only
  by_cases hquota : (fitting : Int) - chosen ≤ 0
  · rw [if_pos hquota]
    split <;> omega
  · rw [if_neg hquota, if_neg (by dsimp only; omega)]
    dsimp only
    omega

end ChainCounts

namespace Request

variable (cfg : Settings) (r : Request) (estimate contextEstimate : QuotaEstimate)
  (attempts : List ModelAttempt)

def recordRound (k : Nat) (w : World) (t : ChainCounts) : ChainCounts :=
  let fitting := r.eligible cfg contextEstimate attempts k w
  match w.quotaRankAndReserve cfg (r.round k) estimate fitting with
  | none => t
  | some (_, chain) => t.recordQuotaExclusions (fitting.length - chain.length)

def recordRounds (k : Nat) (budget : Duration) (w : World) (t : ChainCounts) : ChainCounts :=
  match _h : r.holdRound cfg estimate contextEstimate attempts k budget w with
  | .tooLarge => t
  | .again wait w' => recordRounds (k + 1) (budget - (wait + quotaHoldSettle)) w'
      (r.recordRound cfg estimate contextEstimate attempts k w t)
  | _ => r.recordRound cfg estimate contextEstimate attempts k w t
termination_by budget.toNat
decreasing_by
  obtain ⟨hpos, hle⟩ := holdRound_again _h
  exact budget_spent hpos hle

def chainCounts (w : World) : Option ChainCounts :=
  (r.handedOver cfg w).map fun chain =>
    (r.recordRounds cfg (estimateRequestQuota cfg r.body) (estimateRequestContext cfg r.body)
      (r.attemptsToTry cfg) 0 (quotaHoldBudget cfg) w ⟨0, 0, 0, [], 0, 0⟩).recordChain
        r.planned.length (r.attemptsToTry cfg).length chain.length r.required

def healthy (k : Nat) (w : World) : List ModelAttempt :=
  (r.attemptsToTry cfg).filter fun a => w.service.isModelAvailable cfg a (r.round k).available

/-- The attempts that fit besides, of which the quota stage makes the chain. -/
def ranked (k : Nat) (w : World) : List ModelAttempt :=
  r.eligible cfg (estimateRequestContext cfg r.body) (r.attemptsToTry cfg) k w

def Truthful (k : Nat) (found : World) (chain : List ModelAttempt) (t : ChainCounts) : Prop :=
  t.excludedByBreaker = (r.attemptsToTry cfg).length - (r.healthy cfg k found).length ∧
    t.excludedByQuota = (r.ranked cfg k found).length - chain.length

/-- Only the breakers and quota remove something in round `k`, and quota does if it did before. -/
structure Plain (k : Nat) (found : World) (chain : List ModelAttempt) : Prop where
  fits : ∀ a ∈ r.healthy cfg k found, r.contextFits (estimateRequestContext cfg r.body) a = true
  whole : 0 < r.retryPolicy.maxAttempts → chain.length ≤ r.retryPolicy.maxAttempts.toNat
  fresh : k = 0 ∨ chain.length < (r.ranked cfg k found).length

variable {cfg r estimate contextEstimate attempts} {k j : Nat} {budget wait : Duration}
  {w w' w1 found : World} {first : ModelAttempt} {rest chain : List ModelAttempt}

theorem recordRounds_again
    (h : r.holdRound cfg estimate contextEstimate attempts k budget w = .again wait w')
    (t : ChainCounts) : r.recordRounds cfg estimate contextEstimate attempts k budget w t =
      r.recordRounds cfg estimate contextEstimate attempts (k + 1)
        (budget - (wait + quotaHoldSettle)) w'
        (r.recordRound cfg estimate contextEstimate attempts k w t) := by
  rw [recordRounds]
  split
  · next heq => cases h.symm.trans heq
  · next heq =>
    cases h.symm.trans heq
    rfl
  · next hnot => exact absurd h (hnot wait w')

theorem recordRound_eq (h : w.quotaRankAndReserve cfg (r.round k) estimate
    (r.eligible cfg contextEstimate attempts k w) = some (w', chain)) (t : ChainCounts) :
    r.recordRound cfg estimate contextEstimate attempts k w t = t.recordQuotaExclusions
      ((r.eligible cfg contextEstimate attempts k w).length - chain.length) := by
  unfold recordRound
  simp only [h]

theorem recordRounds_chain
    (h : r.holdRound cfg estimate contextEstimate attempts k budget w = .chain w' first rest)
    (t : ChainCounts) : r.recordRounds cfg estimate contextEstimate attempts k budget w t =
      t.recordQuotaExclusions ((r.eligible cfg contextEstimate attempts k w).length -
        (first :: rest).length) := by
  have hcase := r.holdRound_cases cfg estimate contextEstimate attempts k budget w
  rw [h] at hcase
  rw [recordRounds]
  split
  · next heq => cases h.symm.trans heq
  · next heq => cases h.symm.trans heq
  · exact recordRound_eq hcase t

theorem recordRound_held
    (h : r.holdRound cfg estimate contextEstimate attempts k budget w = .again wait w')
    (t : ChainCounts) :
    0 < (r.recordRound cfg estimate contextEstimate attempts k w t).excludedByQuota := by
  have hcase := r.holdRound_cases cfg estimate contextEstimate attempts k budget w
  rw [h] at hcase
  obtain ⟨w1, hrank, hwait, hpos, -⟩ := hcase
  have hsome : r.eligible cfg contextEstimate attempts k w ≠ [] := by
    intro hnone
    rw [hnone] at hwait
    cases hwait
    exact absurd hpos (Int.lt_irrefl 0)
  have hlength := length_pos_iff.mpr hsome
  rw [recordRound_eq hrank]
  unfold ChainCounts.recordQuotaExclusions
  rw [length_nil, if_neg (by omega)]
  exact Int.sub_pos.mpr (Int.ofNat_lt.mpr hlength)

theorem EndsIn.recorded (h : r.EndsIn cfg estimate contextEstimate attempts k found
    (.chain w1 first rest) j budget w) (t : ChainCounts) :
    ∃ t', r.recordRounds cfg estimate contextEstimate attempts j budget w t =
        t'.recordQuotaExclusions ((r.eligible cfg contextEstimate attempts k found).length -
          (first :: rest).length) ∧
      (j = k ∧ t' = t ∨ j < k ∧ 0 < t'.excludedByQuota) := by
  induction h generalizing t with
  | here h => exact ⟨t, recordRounds_chain h t, .inl ⟨rfl, rfl⟩⟩
  | later h _ ih =>
    obtain ⟨t', hrecorded, hkept⟩ := ih (r.recordRound cfg estimate contextEstimate attempts _ _ t)
    refine ⟨t', (recordRounds_again h t).trans hrecorded, .inr ?_⟩
    rcases hkept with ⟨rfl, rfl⟩ | ⟨hlt, hpos⟩
    · exact ⟨Nat.lt_succ_self _, recordRound_held h t⟩
    · exact ⟨Nat.lt_of_succ_lt hlt, hpos⟩

theorem truncated_length_iff (chain : List ModelAttempt) :
    (r.truncated chain).length = chain.length ↔
      (0 < r.retryPolicy.maxAttempts → chain.length ≤ r.retryPolicy.maxAttempts.toNat) := by
  unfold truncated
  split
  · next hlimited =>
    rw [length_take, min_eq_right_iff]
    exact ⟨fun h _ => h, fun h => h hlimited⟩
  · next hfree => exact ⟨fun _ h => absurd h hfree, fun _ => rfl⟩

/-- The counts are right exactly if only the breakers and quota have removed attempts, and quota one
if it did so in an earlier round. -/
theorem exclusions_truthful_iff (h : r.Gated cfg w k found (.chain w1 first rest)) :
    ∃ t, r.chainCounts cfg w = some t ∧
      (r.Truthful cfg k found (first :: rest) t ↔ r.Plain cfg k found (first :: rest)) := by
  obtain ⟨t, hrecorded, hkept⟩ := h.rounds.recorded ⟨0, 0, 0, [], 0, 0⟩
  refine ⟨_, by rw [chainCounts, h.handedOver, Option.map_some, hrecorded], ?_⟩
  obtain ⟨left, hround, -⟩ := h.rounds.last
  have hcase := r.holdRound_cases cfg (estimateRequestQuota cfg r.body)
    (estimateRequestContext cfg r.body) (r.attemptsToTry cfg) k left found
  rw [hround] at hcase
  refine (t.truthful_iff (length_filter_le _ _) (length_filter_le _ _)
    (World.quotaRankAndReserve_length hcase) (r.truncated_sublist _).length_le _ _).trans ?_
  have hfits : (r.ranked cfg k found).length = (r.healthy cfg k found).length ↔
      ∀ a ∈ r.healthy cfg k found, r.contextFits (estimateRequestContext cfg r.body) a = true :=
    length_filter_eq_length_iff
  have hquota : t.excludedByQuota = 0 ↔ k = 0 := by
    rcases hkept with ⟨rfl, rfl⟩ | ⟨hlt, hpos⟩
    · exact ⟨fun _ => rfl, fun _ => rfl⟩
    · exact ⟨fun h => absurd h (Int.ne_of_gt hpos), fun h => absurd h (Nat.ne_of_gt hlt)⟩
  rw [hquota, r.truncated_length_iff]
  exact ⟨fun ⟨h1, h2, h3⟩ => ⟨hfits.mp h1, h2, h3⟩, fun h => ⟨hfits.mpr h.fits, h.whole, h.fresh⟩⟩

end Request

/-- The circuit of the model `n` is open. -/
def openWorld : World :=
  { demoWorld with service := { demoWorld.service with
      modelBreakers := AList.insert "default:n" { ModelBreakerState.empty with openUntil := 60 } ∅ } }

/-- One of the two attempts is removed by its circuit, and counted as such. -/
theorem open_circuit_counted : ∃ t chain,
    (demoRequest connectionReset).chainCounts demoSettings openWorld = some t ∧
      t.excludedByBreaker = 1 ∧
      (demoRequest connectionReset).Truthful demoSettings 0 openWorld chain t := by
  have hgated : (demoRequest connectionReset).Gated demoSettings openWorld 0 openWorld
      (.chain _ _ _) := ⟨by decide, by decide +kernel, .here rfl⟩
  obtain ⟨t, ht, hiff⟩ := Request.exclusions_truthful_iff hgated
  have htruthful := hiff.mpr ⟨fun _ _ => rfl, fun h => absurd h (by decide), .inl rfl⟩
  exact ⟨t, _, ht, htruthful.1.trans (by decide +kernel), htruthful⟩

/-- Two attempts, of which one may be made. -/
def cutRequest : Request := { demoRequest connectionReset with retryPolicy := ⟨1, [502], true, true⟩ }

/-- The attempt that the retry policy cuts off counts as removed by a breaker. -/
theorem cut_counted_as_breaker : (cutRequest.chainCounts demoSettings demoWorld).map
    (·.excludedByBreaker) = some 1 ∧
      cutRequest.healthy demoSettings 0 demoWorld = cutRequest.attemptsToTry demoSettings := by
  have hgated : cutRequest.Gated demoSettings demoWorld 0 demoWorld (.chain _ _ _) :=
    ⟨by decide, by decide +kernel, .here rfl⟩
  refine ⟨?_, by decide +kernel⟩
  rw [Request.chainCounts, hgated.handedOver, Option.map_some, Request.recordRounds_chain rfl]
  decide +kernel

/-! ## The failures -/

/-- An entry of `Attempts`; its score is `tracedScore`. -/
structure TraceAttempt where
  model : String
  index : Nat
  status : Int
  kind : String
  reason : String

def recordTraceFailure (attempt : ModelAttempt) (status : Int) (kind reason : String) :
    TraceAttempt :=
  ⟨attempt.model, attempt.attemptIndex, status, kind, ModelBreakerState.truncateReason reason⟩

def traceKindFor (err : AttemptError) : String :=
  if err.skipModel then "skip" else if err.timeout then "timeout" else "http"

namespace Attempt

variable (cfg : Settings) (x : Script) (credential : String) (attempt : ModelAttempt)

/-- What `executeAttempt` records from `Client.Do` on. -/
def sendTrace (ticket : QuotaTicket) (w : World) : List TraceAttempt :=
  match x.send with
  | .error e =>
    if x.ctxAfterSend = some .canceled then []
    else [recordTraceFailure attempt 0 "transport" (classifyTransportError e).message]
  | .ok resp =>
    if resp.status ≠ 200 then
      ((rejected cfg x credential attempt ticket resp (w.emit (.send ticket))).2.map fun err =>
        recordTraceFailure attempt resp.status (traceKindFor err) err.message).toList
    else []

def startTrace (w : World) : List TraceAttempt :=
  if x.buildError.isSome then []
  else if attempt.quotaTicket.valid then sendTrace cfg x credential attempt attempt.quotaTicket w
  else match w.reserveFallbackQuota cfg attempt credential attempt.quotaEstimate
      (x.tick .reserve) with
    | some (w, some ticket) => sendTrace cfg x credential attempt ticket w
    | _ => []

def estimated : ModelAttempt :=
  if attempt.quotaEstimate.requests ≤ 0 || attempt.quotaEstimate.tokens ≤ 0 then
    { attempt with quotaEstimate :=
        providerQuotaEstimate cfg attempt (estimateRequestQuota cfg x.body) }
  else attempt

def executeTrace (w : World) : List TraceAttempt :=
  if !cfg.configured attempt then []
  else
    let credential := cfg.providerCredential attempt
    let attempt := estimated cfg x attempt
    match admission cfg x attempt w with
    | (_, some _) =>
      if (w.service.tryStartProvider cfg attempt (x.tick .startProvider).now).2 then
        [recordTraceFailure attempt 0 "probe" "recovery probe already in flight"]
      else []
    | (w, none) => startTrace cfg x credential attempt w

/-- The upstream answers with another status than 200, or not although nobody has cancelled. -/
def answersBadly : Bool :=
  match x.send with
  | .error _ => x.ctxAfterSend ≠ some .canceled
  | .ok resp => resp.status ≠ 200

/-- The request is built and has its quota. -/
def sends (w : World) : Bool :=
  x.buildError.isNone && (attempt.quotaTicket.valid ||
    (w.reserveFallbackQuota cfg attempt credential attempt.quotaEstimate (x.tick .reserve)).any
      (·.2.isSome))

/-- The circuit of the model alone refuses the attempt, or the upstream answers badly. -/
def reports (w : World) : Bool :=
  let credential := cfg.providerCredential attempt
  let started := estimated cfg x attempt
  cfg.configured attempt &&
    ((w.service.tryStartProvider cfg started (x.tick .startProvider).now).2 &&
      match admission cfg x started w with
      | (_, some _) => true
      | (w, none) => sends cfg x credential started w && answersBadly x)

variable {cfg x credential attempt}

theorem sendTrace_eq (reserveFallback : Option ReserveFallback) (ticket : QuotaTicket) (w : World) :
    (sendTrace cfg x credential attempt ticket w).map (fun t => (t.model, t.index)) =
      if (sendRequest cfg x credential attempt reserveFallback ticket w).any (·.2.isSome) &&
        answersBadly x then [(attempt.model, attempt.attemptIndex)] else [] := by
  unfold sendRequest sendTrace answersBadly
  cases x.send with
  | error e =>
    by_cases hcancelled : x.ctxAfterSend = some .canceled
    · simp [hcancelled]
    · simp [hcancelled, transportFailed, recordTraceFailure]
  | ok resp =>
    by_cases hstatus : resp.status = 200
    · simp [hstatus]
    have hrejected : (rejected cfg x credential attempt ticket resp
        (w.emit (.send ticket))).2.isSome = true := by
      unfold rejected
      dsimp only
      split <;> rfl
    obtain ⟨e, he⟩ := Option.isSome_iff_exists.mp hrejected
    simp [hstatus, he, recordTraceFailure]

theorem startTrace_eq (reserveFallback : Option ReserveFallback) (w : World) :
    (startTrace cfg x credential attempt w).map (fun t => (t.model, t.index)) =
      if (startRequest cfg x credential attempt reserveFallback w).any (·.2.isSome) &&
        (sends cfg x credential attempt w && answersBadly x) then
          [(attempt.model, attempt.attemptIndex)] else [] := by
  unfold startRequest startTrace sends
  cases x.buildError with
  | some e => simp
  | none =>
    by_cases hticket : attempt.quotaTicket.valid = true
    · simpa [hticket] using sendTrace_eq reserveFallback _ w
    rcases w.reserveFallbackQuota cfg attempt credential attempt.quotaEstimate
      (x.tick .reserve) with _ | ⟨w1, _ | ticket⟩
    · simp [hticket]
    · simp [hticket]
    · simpa [hticket] using sendTrace_eq reserveFallback ticket w1

theorem admission_started {w : World} (h : (admission cfg x attempt w).2 = none) :
    (w.service.tryStartProvider cfg attempt (x.tick .startProvider).now).2 = true := by
  unfold admission at h
  by_contra hnot
  rw [Bool.not_eq_true] at hnot
  simp [hnot] at h

theorem executeTrace_eq (reserveFallback : Option ReserveFallback) (w : World) :
    (executeTrace cfg x attempt w).map (fun t => (t.model, t.index)) =
      if (executeAttempt cfg x reserveFallback attempt w).any (·.2.isSome) &&
        reports cfg x attempt w then [(attempt.model, attempt.attemptIndex)] else [] := by
  have hsame : ((estimated cfg x attempt).model, (estimated cfg x attempt).attemptIndex) =
      (attempt.model, attempt.attemptIndex) := by
    unfold estimated
    split <;> rfl
  unfold executeAttempt executeTrace reports
  by_cases hconfigured : cfg.configured attempt = true
  · simp only [hconfigured, Bool.not_true, Bool.false_eq_true, if_false, Bool.true_and,
      Option.any_map]
    rw [← hsame]
    change _ = if (match admission cfg x (estimated cfg x attempt) w with
      | (w, some err) => _
      | (w, none) => _ : Option (Locals × Option AttemptError)).any _ && _ then _ else _
    rcases hadmission : admission cfg x (estimated cfg x attempt) w with ⟨w1, _ | e⟩
    · have hstarted := admission_started (congrArg Prod.snd hadmission)
      rw [hstarted]
      exact startTrace_eq reserveFallback w1
    · simp only [Option.any_some, Option.isSome_some, Bool.true_and, Bool.and_true]
      split <;> rfl
  · simp [hconfigured]

end Attempt

def Started.failed (e : Started) : Bool := e.result.any (·.2.isSome)

section Chain

variable (cfg : Settings) (x : ChainScript) (execution : FallbackExecution) (w : World)

def failureTrace : List TraceAttempt :=
  (executorRuns cfg x execution w).flatMap fun e =>
    Attempt.executeTrace cfg (x.attempt e.position) e.attempt e.before

theorem failureTrace_eq : (failureTrace cfg x execution w).map (fun t => (t.model, t.index)) =
    (((executorRuns cfg x execution w).filter (·.failed)).filter fun e =>
      Attempt.reports cfg (x.attempt e.position) e.attempt e.before).map fun e =>
        (e.attempt.model, e.attempt.attemptIndex) := by
  unfold failureTrace
  have hresult : ∀ e ∈ executorRuns cfg x execution w, e.result =
      executeAttempt cfg (x.attempt e.position) e.reserveFallback e.attempt e.before :=
    fun e he => by
      obtain ⟨s, i, hstarts⟩ := (chainLoop_run cfg x execution _ _ _).starts e he
      exact hstarts.result
  generalize executorRuns cfg x execution w = runs at hresult ⊢
  induction runs with
  | nil => rfl
  | cons e rest ih =>
    rw [flatMap_cons, map_append, ih fun e' he' => hresult e' (mem_cons_of_mem e he'),
      Attempt.executeTrace_eq e.reserveFallback, ← hresult e mem_cons_self]
    change (if e.failed && _ then _ else _) ++ _ = _
    by_cases hfailed : e.failed = true
    · by_cases hreports : Attempt.reports cfg (x.attempt e.position) e.attempt e.before = true
      · simp [hfailed, hreports]
      · simp [hfailed, hreports]
    · simp [hfailed]

/-- Every failed attempt has its entry, in order, exactly if each fails in a way that is
reported. -/
theorem failures_traced_iff : (failureTrace cfg x execution w).map (fun t => (t.model, t.index)) =
      ((executorRuns cfg x execution w).filter (·.failed)).map (fun e =>
        (e.attempt.model, e.attempt.attemptIndex)) ↔
    ∀ e ∈ executorRuns cfg x execution w, e.failed = true →
      Attempt.reports cfg (x.attempt e.position) e.attempt e.before = true := by
  rw [failureTrace_eq]
  constructor
  · intro h e he hfailed
    have hlength := congrArg length h
    rw [length_map, length_map, length_filter_eq_length_iff] at hlength
    exact hlength e (mem_filter.mpr ⟨he, hfailed⟩)
  · intro h
    rw [filter_eq_self.mpr fun e he => h e (mem_filter.mp he).1 (mem_filter.mp he).2]

end Chain

/-- The first attempt is given up before the first event of its stream. -/
theorem abandoned_untraced :
    silentRuns.map (fun e => (e.attempt.model, e.failed)) = [("m", true), ("n", false)] ∧
      (failureTrace { demoSettings with firstEventTimeout := 1 } silentChain
        ⟨silentStream.body, ⟨0, [502], true, true⟩⟩ { demoWorld with
          attempts := [ticketedAttempt, { demoAttempt with model := "n" }] }).length = 0 := by
  decide +kernel

end CalvoProxy
