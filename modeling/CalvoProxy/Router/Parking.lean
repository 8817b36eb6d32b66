import CalvoProxy.Router.Holding

/-!
# The hold loop ends

A hold starts only if its wait is within the budget, and takes the wait and the settling time off it
(`holds_within_budget`). `holdWaits` is the loop over arbitrary gates (`holdLoop_rounds`).
-/

namespace CalvoProxy

open List

/-- There may be no room for a hold before the deadline, or the client goes away meanwhile; after it
the request needs a slot again. -/
inductive Park
  | declined
  | interrupted
  | held (readmitted : Bool)

/-- The loop ends, with a chain or an answer, or only quota is missing. -/
inductive GateOutcome (σ : Type)
  | ended
  | blocked (wait : Duration) (park : Park) (s : σ)

section

variable {σ : Type} (gate : Nat → σ → GateOutcome σ)

def holdWaits (k : Nat) (budget : Duration) (s : σ) : List Duration :=
  match gate k s with
  | .ended => []
  | .blocked wait park s =>
    if _h : 0 < wait ∧ wait ≤ budget then
      match park with
      | .declined => []
      | .interrupted => [wait]
      | .held false => [wait]
      | .held true => wait :: holdWaits (k + 1) (budget - (wait + quotaHoldSettle)) s
    else []
termination_by budget.toNat
decreasing_by exact Request.budget_spent _h.1 _h.2

theorem holdWaits_cases (k : Nat) (budget : Duration) (s : σ) : holdWaits gate k budget s = [] ∨
      ∃ wait, 0 < wait ∧ wait ≤ budget ∧
        (holdWaits gate k budget s = [wait] ∨ ∃ s', holdWaits gate k budget s =
          wait :: holdWaits gate (k + 1) (budget - (wait + quotaHoldSettle)) s') := by
  rw [holdWaits]
  split
  · exact .inl rfl
  next wait park s' _ =>
  split
  · next hbudget =>
    split
    · exact .inl rfl
    · exact .inr ⟨wait, hbudget.1, hbudget.2, .inl rfl⟩
    · exact .inr ⟨wait, hbudget.1, hbudget.2, .inl rfl⟩
    · exact .inr ⟨wait, hbudget.1, hbudget.2, .inr ⟨s', rfl⟩⟩
  · exact .inl rfl

theorem holdWaits_spent (k : Nat) (budget : Duration) (s : σ) : holdWaits gate k budget s = [] ∨
      (((holdWaits gate k budget s).length : Int) - 1) * quotaHoldSettle < budget ∧
        ((holdWaits gate k budget s).map (· + quotaHoldSettle)).sum ≤ budget + quotaHoldSettle := by
  -- on what is left of the budget
  induction hn : budget.toNat using Nat.strong_induction_on generalizing k budget s with
  | _ n ih =>
    have hsettle : (0 : Int) < quotaHoldSettle := by decide
    rcases holdWaits_cases gate k budget s with hnone | ⟨wait, hpos, hle, hone | ⟨s', hmore⟩⟩
    · exact .inl hnone
    · rw [hone]
      refine .inr ⟨?_, ?_⟩
      · simpa using Int.lt_of_lt_of_le hpos hle
      · simpa using Int.add_le_add_right hle quotaHoldSettle
    · rw [hmore]
      have hrest := ih _ (hn ▸ Request.budget_spent hpos hle) (k + 1) _ s' rfl
      generalize holdWaits gate (k + 1) (budget - (wait + quotaHoldSettle)) s' = rest at hrest
      refine .inr ?_
      rcases hrest with rfl | ⟨hcount, hslept⟩
      · exact ⟨by simpa using Int.lt_of_lt_of_le hpos hle,
          by simpa using Int.add_le_add_right hle quotaHoldSettle⟩
      · rw [length_cons, map_cons, sum_cons]
        rw [Int.sub_mul, Int.one_mul] at hcount
        push_cast
        rw [Int.add_sub_cancel]
        generalize (rest.map (· + quotaHoldSettle)).sum = slept at hslept
        generalize (rest.length : Int) * quotaHoldSettle = settled at hcount
        exact ⟨by grind, by grind⟩

end

structure WithinBudget (B : Duration) (waits : List Duration) : Prop where
  count : (waits.length : Int) ≤ B / quotaHoldSettle + 1
  slept : (waits.map (· + quotaHoldSettle)).sum ≤ B + quotaHoldSettle
  disabled : B = 0 → waits = []

/-- The waits of a request stay within the budget, up to the last settling time. -/
theorem holds_within_budget {σ : Type} (gate : Nat → σ → GateOutcome σ) (cfg : Settings) (s : σ)
    {B : Duration} (hB : 0 ≤ B) (hcfg : quotaHoldBudget cfg ≤ B) :
    WithinBudget B (holdWaits gate 0 (quotaHoldBudget cfg) s) := by
  have hsettle : (0 : Int) < quotaHoldSettle := by decide
  rcases holdWaits_spent gate 0 (quotaHoldBudget cfg) s with hnone | ⟨hcount, hslept⟩
  · rw [hnone]
    refine ⟨?_, ?_, fun _ => rfl⟩
    · have hquotient := Int.ediv_nonneg hB (Int.le_of_lt hsettle)
      simp only [length_nil]
      omega
    · simpa using Int.add_nonneg hB (Int.le_of_lt hsettle)
  · refine ⟨?_, hslept.trans (Int.add_le_add_right hcfg _), ?_⟩
    · have hwhole := Int.le_ediv_of_mul_le hsettle (Int.le_of_lt (Int.lt_of_lt_of_le hcount hcfg))
      omega
    · rintro rfl
      rcases holdWaits_cases gate 0 (quotaHoldBudget cfg) s with hnone | ⟨wait, hpos, hle, -⟩
      · exact hnone
      · exact absurd (Int.lt_of_lt_of_le hpos (hle.trans hcfg)) (Int.lt_irrefl 0)

/-- A minute of waiting, twice, is more than the default budget. -/
theorem two_minutes_within_budget : WithinBudget 75000000000
      (holdWaits (fun _ _ => .blocked 60000000000 (.held true) ()) 0 (quotaHoldBudget demoSettings)
        ()) ∧
      holdWaits (fun _ _ => .blocked 60000000000 (.held true) ()) 0 (quotaHoldBudget demoSettings)
        () = [60000000000] := by
  have hbudget : quotaHoldBudget demoSettings = 75000000000 := by decide +kernel
  refine ⟨holds_within_budget _ demoSettings () (by decide) (by rw [hbudget]), ?_⟩
  rw [hbudget]
  simp [holdWaits, quotaHoldSettle]

/-! ## The gates of a request -/

namespace Request

variable (cfg : Settings) (r : Request) (estimate contextEstimate : QuotaEstimate)
  (attempts : List ModelAttempt)

def gate (k : Nat) (w : World) : GateOutcome World :=
  let fitting := r.eligible cfg contextEstimate attempts k w
  if !(attempts.filter fun a => w.service.isModelAvailable cfg a (r.round k).available).isEmpty &&
      fitting.isEmpty then .ended
  else match w.quotaRankAndReserve cfg (r.round k) estimate fitting with
    | none => .ended
    | some (_, _ :: _) => .ended
    | some (w, []) =>
      if fitting.isEmpty then .ended
      else
        let hold := w.quotaRetryAfterForAttempts cfg estimate (r.round k).wait fitting 0
        .blocked hold.2 (if (r.round k).held then .held (r.round k).readmitted else .interrupted)
          hold.1

variable {cfg r estimate contextEstimate attempts}

theorem gate_of_again {k : Nat} {budget wait : Duration} {w w' : World}
    (h : r.holdRound cfg estimate contextEstimate attempts k budget w = .again wait w') :
    r.gate cfg estimate contextEstimate attempts k w = .blocked wait (.held true) w' := by
  unfold holdRound at h
  unfold gate
  simp only at h ⊢
  split at h
  · cases h
  next hfits =>
  rw [if_neg hfits]
  generalize w.quotaRankAndReserve cfg (r.round k) estimate _ = reserved at h
  rcases reserved with _ | ⟨w1, _ | ⟨first, rest⟩⟩
  · cases h
  · simp only at h ⊢
    split at h
    · cases h
    next hany =>
    rw [if_neg hany]
    split at h
    · split at h
      · next hheld =>
        split at h
        · next hadmitted =>
          cases h
          rw [if_pos hheld, hadmitted]
        · cases h
      · cases h
    · cases h
  · cases h

/-- The loop ends in a round that is not held, after no more rounds than there are waits. -/
theorem holdLoop_rounds (k : Nat) (budget : Duration) (w : World) :
    ∃ n found out, n ≤ (holdWaits (r.gate cfg estimate contextEstimate attempts) k budget w).length ∧
      r.EndsIn cfg estimate contextEstimate attempts (k + n) found out k budget w ∧
        ∀ wait w', out ≠ .again wait w' := by
  refine @holdRounds cfg r estimate contextEstimate attempts (fun k budget w => ∃ n found out,
    n ≤ (holdWaits (r.gate cfg estimate contextEstimate attempts) k budget w).length ∧
      r.EndsIn cfg estimate contextEstimate attempts (k + n) found out k budget w ∧
        ∀ wait w', out ≠ .again wait w') ?_ k budget w
  intro k budget w ih
  by_cases hagain : ∃ wait w', r.holdRound cfg estimate contextEstimate attempts k budget w =
      .again wait w'
  · obtain ⟨wait, w', hagain⟩ := hagain
    obtain ⟨n, found, out, hlength, hends, hlast⟩ := ih wait w' hagain
    refine ⟨n + 1, found, out, ?_, ?_, hlast⟩
    · rw [holdWaits, gate_of_again hagain]
      simp only [dif_pos (holdRound_again hagain), length_cons]
      exact Nat.succ_le_succ hlength
    · rw [← Nat.add_assoc, Nat.add_right_comm]
      exact .later hagain hends
  · exact ⟨0, w, _, Nat.zero_le _, .here rfl, fun wait w' h => hagain ⟨wait, w', h⟩⟩

end Request

end CalvoProxy
