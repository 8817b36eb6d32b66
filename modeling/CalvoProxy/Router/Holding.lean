import CalvoProxy.Router.Calls

/-!
# Before the chain

Before an attempt runs, `dispatchChain` only reads the ledger, until it answers by itself or has
drawn the ticket of the first attempt (`dispatchChain_cases`).
-/

namespace CalvoProxy

open List

variable {a : ModelAttempt} {attempts : List ModelAttempt} {j k : Nat}
  {found w w' w1 : World} {contextEstimate estimate : QuotaEstimate}
  {result : Option (List ModelAttempt)} {cfg : Settings} {budget : Duration} {r : Request}

def Unreserved (attempts : List ModelAttempt) : Prop :=
  ∀ a ∈ attempts, a.quotaTicket.valid = false

theorem Unreserved.subset {attempts' : List ModelAttempt} (h : Unreserved attempts)
    (hsub : ∀ a ∈ attempts', a ∈ attempts) : Unreserved attempts' :=
  fun a ha => h a (hsub a ha)

theorem planned_unreserved (planned : List PlannedAttempt) :
    Unreserved (planned.map PlannedAttempt.attempt) := by
  intro a ha
  obtain ⟨p, -, rfl⟩ := mem_map.mp ha
  rfl

namespace Request

variable (cfg : Settings) (r : Request)

theorem filterConfiguredAttempts_unreserved (h : Unreserved attempts) : Unreserved
    (r.filterConfiguredAttempts cfg attempts) :=
  h.subset fun _ ha => (mem_filter.mp ha).1

theorem applyCapabilityFilter_unreserved (h : Unreserved attempts) : Unreserved
    (r.applyCapabilityFilter attempts) := by
  unfold applyCapabilityFilter
  simp only
  split
  · exact planned_unreserved r.rescue
  · exact h.subset fun _ ha => (mem_filter.mp ha).1

theorem attemptsToTry_unreserved : Unreserved (r.attemptsToTry cfg) := by
  have hconfigured :=
    r.filterConfiguredAttempts_unreserved cfg (planned_unreserved r.planned)
  unfold attemptsToTry
  simp only
  split
  · exact hconfigured
  · exact r.filterConfiguredAttempts_unreserved cfg (r.applyCapabilityFilter_unreserved hconfigured)

theorem attemptsToTry_usable (ha : a ∈ r.attemptsToTry cfg) :
    (r.messages = true → a.provider ≠ .cerebras ∧ a.provider ≠ .groq) ∧
      cfg.configured a = true := by
  have hfilter : ∀ {attempts : List ModelAttempt}, a ∈ r.filterConfiguredAttempts cfg attempts →
      (r.messages = true → a.provider ≠ .cerebras ∧ a.provider ≠ .groq) ∧
        cfg.configured a = true := by
    intro attempts ha
    have hkept := (mem_filter.mp ha).2
    simp only [Bool.and_eq_true] at hkept
    refine ⟨fun hmessages => ?_, hkept.2⟩
    simpa [hmessages] using hkept.1
  unfold attemptsToTry at ha
  simp only at ha
  split at ha <;> exact hfilter ha

end Request

namespace World

/-! ## Reserving the first attempt -/

structure Ready (w w' : World) (first : ModelAttempt) (rest : List ModelAttempt) : Prop where
  reserves : Reserves w w' (some first.quotaTicket)
  unreserved : Unreserved rest

theorem Ready.afterReads {first : ModelAttempt} {rest : List ModelAttempt} (hread : Reads w w1)
    (h : Ready w1 w' first rest) :
    Ready w w' first rest := by
  obtain ⟨⟨hread', hreserve⟩, hunreserved⟩ := h
  exact ⟨⟨hread.trans hread', hreserve⟩, hunreserved⟩

/-- Reserving ends with a chain that is ready, or with none and nothing drawn. -/
inductive Reserving (w w' : World) : List ModelAttempt → Prop
  | empty (hread : Reads w w') : Reserving w w' []
  | ready {first rest} (h : Ready w w' first rest) : Reserving w w' (first :: rest)

theorem quotaRankAndReserve_cases {round : HoldRound} {chain : List ModelAttempt}
    (hunreserved : Unreserved attempts)
    (h : w.quotaRankAndReserve cfg round estimate attempts = some (w', chain)) :
    Reserving w w' chain := by
  obtain ⟨hreservation, hchain⟩ := (Drawing.chain (P := fun a => a.quotaTicket.valid = false) cfg
    estimate round hunreserved).reservation (congrArg (Option.map _) h)
  cases chain with
  | nil => cases hreservation with
    | refused hread => exact .empty hread
  | cons first rest => cases hreservation with
    | drawn hreserves => exact .ready ⟨hreserves, (hchain _ rfl).rest⟩

end World

/-! ## The hold loop -/

/-- The request was answered with a JSON error, and nothing else happened. -/
inductive Answered (w : World) : World → Prop
  | intro {w1 : World} (hread : Reads w w1) (status : Int) (message : String)
      (retryAfter : Option Int) : Answered w (w1.emit (.jsonError status message retryAfter))

theorem Answered.afterReads (hread : Reads w w1) (h : Answered w1 w') : Answered w w' := by
  obtain ⟨hread', status, message, retryAfter⟩ := h
  exact .intro (hread.trans hread') status message retryAfter

inductive RoundOutcome
  | stuck
  | tooLarge
  | chain (w : World) (first : ModelAttempt) (rest : List ModelAttempt)
  | refused (w : World)
  | atCapacity (w : World)
  | again (wait : Duration) (w : World)

namespace Request

variable (cfg : Settings) (r : Request) (estimate contextEstimate : QuotaEstimate)
  (attempts : List ModelAttempt)

/-- The attempts that pass the breakers and the windows, in round `k`. -/
def eligible (k : Nat) (w : World) : List ModelAttempt :=
  (attempts.filter fun a => w.service.isModelAvailable cfg a (r.round k).available).filter
    (r.contextFits contextEstimate)

def holdRound (k : Nat) (budget : Duration) (w : World) : RoundOutcome :=
  let fitting := r.eligible cfg contextEstimate attempts k w
  if !(attempts.filter fun a => w.service.isModelAvailable cfg a (r.round k).available).isEmpty &&
      fitting.isEmpty then .tooLarge
  else match w.quotaRankAndReserve cfg (r.round k) estimate fitting with
    | none => .stuck
    | some (w, first :: rest) => .chain w first rest
    | some (w, []) =>
      if fitting.isEmpty then .refused w
      else
        let hold := w.quotaRetryAfterForAttempts cfg estimate (r.round k).wait fitting 0
        if 0 < hold.2 ∧ hold.2 ≤ budget then
          if (r.round k).held then
            if (r.round k).readmitted then .again hold.2 hold.1 else .atCapacity hold.1
          else .refused hold.1
        else .refused hold.1

theorem holdLoop_eq (k : Nat) (budget : Duration) (w : World) :
    r.holdLoop cfg estimate contextEstimate attempts k budget w =
      match r.holdRound cfg estimate contextEstimate attempts k budget w with
      | .stuck => none
      | .tooLarge => some (w.emit (.jsonError 422
          ("Request context exceeds every eligible model's safe window. " ++
            "Compact the conversation or start a new session.") none), none)
      | .chain w first rest => some (w, some (first :: rest))
      | .refused w => some (refuseRequest cfg (r.round k) estimate attempts w, none)
      | .atCapacity w => some (w.emit (.jsonError 503
          ("Server at capacity (PROXY_MAX_CONCURRENT) after waiting for quota. " ++
            "Retry shortly.") (some r.admissionRetryAfter)), none)
      | .again wait w => r.holdLoop cfg estimate contextEstimate attempts (k + 1)
          (budget - (wait + quotaHoldSettle)) w := by
  rw [holdLoop]
  unfold holdRound eligible
  simp only
  split
  · rfl
  cases w.quotaRankAndReserve cfg (r.round k) estimate _ with
  | none => rfl
  | some reserved =>
    obtain ⟨w1, _ | ⟨first, rest⟩⟩ := reserved
    · simp only
      split
      · rfl
      split
      · split
        · split <;> rfl
        · rfl
      · rfl
    · rfl

def RoundCase (k : Nat) (budget : Duration) (w : World) : RoundOutcome → Prop
  | .stuck => w.quotaRankAndReserve cfg (r.round k) estimate
      (r.eligible cfg contextEstimate attempts k w) = none
  | .tooLarge => r.eligible cfg contextEstimate attempts k w = []
  | .chain w' first rest => w.quotaRankAndReserve cfg (r.round k) estimate
      (r.eligible cfg contextEstimate attempts k w) = some (w', first :: rest)
  | .refused w' => ∃ w1, w.quotaRankAndReserve cfg (r.round k) estimate
      (r.eligible cfg contextEstimate attempts k w) = some (w1, []) ∧
      (w' = w1 ∨ w' = (w1.quotaRetryAfterForAttempts cfg estimate (r.round k).wait
        (r.eligible cfg contextEstimate attempts k w) 0).1)
  | .atCapacity w' => ∃ w1, w.quotaRankAndReserve cfg (r.round k) estimate
      (r.eligible cfg contextEstimate attempts k w) = some (w1, []) ∧
      w' = (w1.quotaRetryAfterForAttempts cfg estimate (r.round k).wait
        (r.eligible cfg contextEstimate attempts k w) 0).1
  | .again wait w' => ∃ w1, w.quotaRankAndReserve cfg (r.round k) estimate
      (r.eligible cfg contextEstimate attempts k w) = some (w1, []) ∧
      w1.quotaRetryAfterForAttempts cfg estimate (r.round k).wait
        (r.eligible cfg contextEstimate attempts k w) 0 = (w', wait) ∧ 0 < wait ∧ wait ≤ budget

theorem holdRound_cases (k : Nat) (budget : Duration) (w : World) :
    r.RoundCase cfg estimate contextEstimate attempts k budget w
      (r.holdRound cfg estimate contextEstimate attempts k budget w) := by
  unfold holdRound
  simp only
  split
  · next hlarge =>
    have hempty : (r.eligible cfg contextEstimate attempts k w).isEmpty = true := by
      simp only [Bool.and_eq_true] at hlarge
      exact hlarge.2
    exact isEmpty_iff.mp hempty
  · cases hreserve : w.quotaRankAndReserve cfg (r.round k) estimate
      (r.eligible cfg contextEstimate attempts k w) with
    | none => exact hreserve
    | some reserved =>
      obtain ⟨w1, _ | ⟨first, rest⟩⟩ := reserved
      · simp only
        split
        · exact ⟨w1, hreserve, .inl rfl⟩
        split
        · next hbudget =>
          split
          · split
            · exact ⟨w1, hreserve, rfl, hbudget⟩
            · exact ⟨w1, hreserve, rfl⟩
          · exact ⟨w1, hreserve, .inr rfl⟩
        · exact ⟨w1, hreserve, .inr rfl⟩
      · exact hreserve

variable {cfg r estimate contextEstimate attempts}

theorem holdRound_again {wait : Duration}
    (h : r.holdRound cfg estimate contextEstimate attempts k budget w = .again wait w') :
    0 < wait ∧ wait ≤ budget := by
  have hcase := r.holdRound_cases cfg estimate contextEstimate attempts k budget w
  rw [h] at hcase
  obtain ⟨-, -, -, hbudget⟩ := hcase
  exact hbudget

theorem holdRounds {P : Nat → Duration → World → Prop} (hround : ∀ k budget w, (∀ wait w',
      r.holdRound cfg estimate contextEstimate attempts k budget w = .again wait w' →
        P (k + 1) (budget - (wait + quotaHoldSettle)) w') → P k budget w)
    (k : Nat) (budget : Duration) (w : World) : P k budget w := by
  -- on what is left of the budget
  induction hn : budget.toNat using Nat.strong_induction_on generalizing k budget w with
  | _ n ih =>
    refine hround k budget w fun wait w' hagain => ?_
    obtain ⟨hpos, hle⟩ := holdRound_again hagain
    exact ih _ (hn ▸ budget_spent hpos hle) _ _ _ rfl

/-- The last round of the hold loop is `k`, which finds `found` and comes to `out`. -/
inductive EndsIn (cfg : Settings) (r : Request) (estimate contextEstimate : QuotaEstimate)
    (attempts : List ModelAttempt) (k : Nat) (found : World) (out : RoundOutcome) :
    Nat → Duration → World → Prop
  | here {budget : Duration}
      (h : r.holdRound cfg estimate contextEstimate attempts k budget found = out) :
      EndsIn cfg r estimate contextEstimate attempts k found out k budget found
  | later {j : Nat} {budget wait : Duration} {w w1 : World}
      (h : r.holdRound cfg estimate contextEstimate attempts j budget w = .again wait w1)
      (hnext : EndsIn cfg r estimate contextEstimate attempts k found out (j + 1)
        (budget - (wait + quotaHoldSettle)) w1) :
      EndsIn cfg r estimate contextEstimate attempts k found out j budget w

theorem EndsIn.last {out : RoundOutcome}
    (h : r.EndsIn cfg estimate contextEstimate attempts k found out j budget w) : ∃ left,
    r.holdRound cfg estimate contextEstimate attempts k left found = out ∧
      r.holdLoop cfg estimate contextEstimate attempts j budget w =
        r.holdLoop cfg estimate contextEstimate attempts k left found := by
  induction h with
  | @here budget h => exact ⟨budget, h, rfl⟩
  | later h _ ih =>
    obtain ⟨left, hround, hloop⟩ := ih
    refine ⟨left, hround, ?_⟩
    rw [holdLoop_eq, h]
    exact hloop

/-- `dispatchChain` gets to the gates, whose last round is `k`. -/
structure Gated (cfg : Settings) (r : Request) (w : World) (k : Nat) (found : World)
    (out : RoundOutcome) : Prop where
  fit : r.pinnedUnfit = false
  capable : (!r.required.isEmpty && (r.attemptsToTry cfg).isEmpty) = false
  rounds : r.EndsIn cfg (estimateRequestQuota cfg r.body) (estimateRequestContext cfg r.body)
    (r.attemptsToTry cfg) k found out 0 (quotaHoldBudget cfg) w

theorem Gated.refused {before : World} (h : r.Gated cfg w k found (.refused before)) :
    dispatchChain cfg r w = some (refuseRequest cfg (r.round k) (estimateRequestQuota cfg r.body)
      (r.attemptsToTry cfg) before) := by
  obtain ⟨left, hround, hloop⟩ := h.rounds.last
  unfold dispatchChain
  simp only
  rw [if_neg (by simp [h.fit]), if_neg (by simp [h.capable]), hloop, holdLoop_eq, hround]

end Request

/-- A round has only read the ledger, or made a chain ready. -/
def RoundOutcome.Follows (w : World) : RoundOutcome → Prop
  | .stuck => True
  | .tooLarge => True
  | .chain w' first rest => World.Ready w w' first rest
  | .refused w' => Reads w w'
  | .atCapacity w' => Reads w w'
  | .again _ w' => Reads w w'

theorem Request.holdRound_follows {cfg : Settings} {r : Request}
    {estimate contextEstimate : QuotaEstimate} {attempts : List ModelAttempt}
    (hunreserved : Unreserved attempts) (k : Nat) (budget : Duration) (w : World) :
    (r.holdRound cfg estimate contextEstimate attempts k budget w).Follows w := by
  have hfitting : Unreserved (r.eligible cfg contextEstimate attempts k w) :=
    hunreserved.subset fun a ha => (mem_filter.mp (mem_filter.mp ha).1).1
  have hempty : ∀ {w1 : World}, w.quotaRankAndReserve cfg (r.round k) estimate
      (r.eligible cfg contextEstimate attempts k w) = some (w1, []) → Reads w w1 := by
    intro w1 hreserve
    cases World.quotaRankAndReserve_cases hfitting hreserve with
    | empty hread => exact hread
  have hwait := fun w1 => Reads.quotaRetryAfterForAttempts cfg estimate (r.round k).wait
    (r.eligible cfg contextEstimate attempts k w) 0 w1
  have hcase := r.holdRound_cases cfg estimate contextEstimate attempts k budget w
  cases hround : r.holdRound cfg estimate contextEstimate attempts k budget w with
  | stuck | tooLarge => trivial
  | chain w' first rest =>
    rw [hround] at hcase
    cases World.quotaRankAndReserve_cases hfitting hcase with
    | ready hready => exact hready
  | refused w' =>
    rw [hround] at hcase
    obtain ⟨w1, hreserve, rfl | rfl⟩ := hcase
    · exact hempty hreserve
    · exact (hempty hreserve).trans (hwait w1)
  | atCapacity w' =>
    rw [hround] at hcase
    obtain ⟨w1, hreserve, rfl⟩ := hcase
    exact (hempty hreserve).trans (hwait w1)
  | again wait w' =>
    rw [hround] at hcase
    obtain ⟨w1, hreserve, hhold, -⟩ := hcase
    have hafter := hwait w1
    rw [hhold] at hafter
    exact (hempty hreserve).trans hafter

theorem Request.EndsIn.reads {out : RoundOutcome} (hunreserved : Unreserved attempts)
    (h : r.EndsIn cfg estimate contextEstimate attempts k found out j budget w) :
    Reads w found := by
  induction h with
  | here h => exact .refl found
  | @later j budget wait w w1 h _ ih =>
    have hfollows := @holdRound_follows cfg r estimate contextEstimate _ hunreserved j budget w
    rw [h] at hfollows
    exact Reads.trans hfollows ih

/-- The hold loop ends with an answer or with a chain that is ready. -/
inductive Held (w w' : World) : Option (List ModelAttempt) → Prop
  | answered (h : Answered w w') : Held w w' none
  | ready {first rest} (h : World.Ready w w' first rest) : Held w w' (some (first :: rest))

theorem Held.afterReads (hread : Reads w w1) (h : Held w1 w' result) : Held w w' result := by
  cases h with
  | answered hanswered => exact .answered (hanswered.afterReads hread)
  | ready hready => exact .ready (hready.afterReads hread)

theorem Request.holdLoop_held (hunreserved : Unreserved attempts)
    (h : r.holdLoop cfg estimate contextEstimate attempts k budget w = some (w', result)) :
    Held w w' result := by
  refine @holdRounds cfg r estimate contextEstimate attempts (fun k budget w =>
    r.holdLoop cfg estimate contextEstimate attempts k budget w = some (w', result) →
      Held w w' result) (fun k budget w hagain hloop => ?_) k budget w h
  have hfollows := @holdRound_follows cfg r estimate contextEstimate _ hunreserved k budget w
  rw [holdLoop_eq] at hloop
  cases hround : r.holdRound cfg estimate contextEstimate attempts k budget w with
  | stuck =>
    rw [hround] at hloop
    cases hloop
  | tooLarge =>
    rw [hround] at hloop
    cases hloop
    exact .answered (.intro (.refl w) _ _ _)
  | chain w1 first rest =>
    rw [hround] at hloop hfollows
    cases hloop
    exact .ready hfollows
  | refused w1 =>
    rw [hround] at hloop hfollows
    cases hloop
    exact .answered (.intro (hfollows.trans (.quotaRetryAfterForAttempts _ _ _ _ 0 _)) _ _ _)
  | atCapacity w1 =>
    rw [hround] at hloop hfollows
    cases hloop
    exact .answered (.intro hfollows _ _ _)
  | again wait w1 =>
    rw [hround] at hloop hfollows
    exact .afterReads hfollows (hagain wait w1 hround hloop)

theorem dispatchChain_cases (h : dispatchChain cfg r w = some w') :
    Answered w w' ∨ ∃ w1 first rest, World.Ready w w1 first rest ∧
      runChain cfg r first rest w1 = some w' := by
  unfold dispatchChain at h
  simp only at h
  split at h
  · cases h
    exact .inl (.intro (.refl w) _ _ _)
  · split at h
    · cases h
      exact .inl (.intro (.refl w) _ _ _)
    · split at h
      · cases h
      · next w1 first rest hhold =>
        cases Request.holdLoop_held (r.attemptsToTry_unreserved cfg) hhold with
        | ready hready => exact .inr ⟨w1, first, rest, hready, h⟩
      · next w1 result hnot hhold =>
        cases h
        cases Request.holdLoop_held (r.attemptsToTry_unreserved cfg) hhold with
        | answered hanswered => exact .inl hanswered
        | ready => exact absurd rfl (hnot _ _)

/-! ## The chain and after -/

/-- The answer after a chain: a JSON error if no attempt answered. -/
inductive Closing (w : World) : Option ChainError → World → Prop
  | served : Closing w none w
  | failed (e : ChainError) (status : Int) (message : String) (retryAfter : Option Int) :
      Closing w (some e) (w.emit (.jsonError status message retryAfter))

theorem runChain_cases {first : ModelAttempt} {rest : List ModelAttempt}
    (h : runChain cfg r first rest w = some w') :
    ∃ w1 err w2, executeFallbacks cfg r.chain ⟨r.body, r.retryPolicy⟩ { w with
          attempts := if 0 < r.retryPolicy.maxAttempts then
            (first :: rest).take r.retryPolicy.maxAttempts.toNat else first :: rest
          unavailable := [] } = some (w1, err) ∧
      Closing w1 err w2 ∧
      w' = if first.quotaTicket.valid then w2.release first.quotaTicket r.release else w2 := by
  unfold runChain at h
  simp only at h
  split at h
  · cases h
  next w1 err hexecute =>
  cases err with
  | none => exact ⟨w1, none, w1, hexecute, .served, (Option.some.inj h).symm⟩
  | some e => exact ⟨w1, some e, _, hexecute, .failed e _ _ _, (Option.some.inj h).symm⟩

end CalvoProxy
