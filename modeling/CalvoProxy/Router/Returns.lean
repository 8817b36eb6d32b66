import Mathlib.Algebra.Order.Ring.Nat
import CalvoProxy.Router.Ranking
import CalvoProxy.Router.Steps

/-!
# A request returns

The only search that may not end is the one for a free ticket id. A request draws one ticket for its
first attempt and at most two for each of the chain, so room for these is enough
(`dispatchChain_returns`).
-/

namespace CalvoProxy

open List World

variable {cfg : Settings} {r : Request} {baseEstimate : QuotaEstimate} {attempt : ModelAttempt}
  {credential : String} {estimate : QuotaEstimate} {t : Tick} {ticks : Nat → Tick}
  {attempts : List ModelAttempt} {execution : FallbackExecution}
  {reserveFallback : Option ReserveFallback} {w : World}

theorem Room.calm {n : Nat} {w' : World} (h : Room n w) (hcalm : Calm w w') : Room n w' :=
  Nat.lt_of_le_of_lt (Nat.add_le_add_right hcalm.ticketCount n) h

theorem World.reserveAll_returns (h : Room 1 w) (rs : List QuotaReservation)
    (t : Tick) : ∃ r, w.reserveAll rs t = some r := by
  obtain ⟨r, hr⟩ := Option.isSome_iff_exists.mp (QuotaLedger.reserveAll_isSome rs t.now t.order h)
  unfold reserveAll
  rw [hr]
  exact ⟨_, rfl⟩

theorem Drawing.returns {K : QuotaBucketKey → Prop} {C : String → Prop} {now : Time} {α : Type}
    {Q : α → Prop} {f : World → Option (World × Option (QuotaTicket × α))} (h : Drawing K C now Q f)
    (hroom : Room 1 w) : ∃ r, f w = some r := by
  induction h generalizing w with
  | nothing => exact ⟨_, rfl⟩
  | inquire hg _ ih => exact ih _ (hg.result w) (hroom.calm (.reads (hg.reads w)))
  | @reserve rs _ t _ _ _ f _ ih =>
    obtain ⟨⟨w1, out⟩, hreserve⟩ := World.reserveAll_returns hroom rs t
    simp only [hreserve, Option.bind_some]
    cases out with
    | some t => exact ⟨_, rfl⟩
    | none =>
      have hrefused : Reserves w w1 none := ⟨.refl w, hreserve⟩
      exact ih (hroom.calm (.reads hrefused.reads))

theorem World.reserveFallbackQuota_returns (h : Room 1 w) :
    ∃ r, w.reserveFallbackQuota cfg attempt credential estimate t = some r := by
  obtain ⟨r, hr⟩ := (Drawing.fallback cfg estimate attempt credential t).returns h
  exact (Option.map_eq_some_iff.mp hr).imp fun _ => And.left

theorem World.reserveQuota_returns (h : Room 1 w) :
    ∃ r, w.reserveQuota cfg baseEstimate attempt t = some r := by
  unfold reserveQuota
  split
  · exact ⟨_, rfl⟩
  · exact reserveFallbackQuota_returns h

theorem reserveAmong_returns {u : Unavailable} {candidates : List (ModelAttempt × Nat)}
    (h : Room 1 w) : ∃ r, reserveAmong cfg baseEstimate ticks u candidates w = some r := by
  induction candidates generalizing w with
  | nil => exact ⟨_, rfl⟩
  | cons c rest ih =>
    obtain ⟨candidate, j⟩ := c
    obtain ⟨⟨w1, ticket⟩, hreserve⟩ := @World.reserveQuota_returns cfg baseEstimate candidate
      (ticks j) w h
    unfold reserveAmong
    split
    · exact ih h
    split
    · exact ⟨_, rfl⟩
    rw [hreserve]
    cases ticket with
    | none =>
      cases reserveQuota_cases hreserve with
      | refused hread =>
        have hroom : Room 1 w1 := h.calm (.reads hread)
        exact ih hroom
    | some t => exact ⟨_, rfl⟩

namespace Attempt

def Returning (reserveFallback : Option ReserveFallback) : Prop :=
  ∀ reserve, reserveFallback = some reserve → ∀ w, Room 1 w → ∃ r, reserve w = some r

variable {x : Script} {ticket : QuotaTicket} {resp : Response}
  (hreturning : Returning reserveFallback)
include hreturning

theorem streamed_returns (h : Room 1 w) :
    ∃ r, streamed cfg x credential attempt reserveFallback ticket resp w = some r := by
  have hsettle := @settle_steps cfg credential attempt ticket resp.status resp.header .empty
    attempt.quotaEstimate.tokens (x.tick .settle) w
  unfold streamed
  generalize (w.observeAndSettleQuota cfg ticket attempt credential resp.status
    resp.header .empty attempt.quotaEstimate.tokens (x.tick .settle)).1 = w1 at hsettle ⊢
  have hsettled : Room 1 w1 := h.steps hsettle (Nat.le_refl 1)
  have hroom := hsettled.calm (@resolveProbes_calm cfg x attempt w1)
  simp only
  split
  · cases reserveFallback with
    | none => exact ⟨_, rfl⟩
    | some reserve =>
      obtain ⟨⟨w2, reserved⟩, hreserve⟩ := hreturning reserve rfl _ hroom
      simp only [hreserve]
      cases reserved <;> exact ⟨_, rfl⟩
  · exact ⟨_, rfl⟩

theorem sendRequest_returns (h : Room 1 w) :
    ∃ r, sendRequest cfg x credential attempt reserveFallback ticket w = some r := by
  unfold sendRequest
  simp only
  split
  · exact ⟨_, rfl⟩
  split
  · exact ⟨_, rfl⟩
  · split
    · exact streamed_returns hreturning (h.steps (.send w ticket) (Nat.le_refl 1))
    · exact ⟨_, rfl⟩

theorem startRequest_returns (h : Room 2 w) :
    ∃ r, startRequest cfg x credential attempt reserveFallback w = some r := by
  unfold startRequest
  split
  · exact ⟨_, rfl⟩
  split
  · exact sendRequest_returns hreturning (h.mono (Nat.le_succ 1))
  obtain ⟨⟨w1, drawn⟩, hreserve⟩ := @World.reserveFallbackQuota_returns cfg attempt credential
    attempt.quotaEstimate (x.tick .reserve) w (h.mono (Nat.le_succ 1))
  rw [hreserve]
  cases drawn with
  | none => exact ⟨_, rfl⟩
  | some t =>
    cases reserveFallbackQuota_cases hreserve with
    | drawn hreserves =>
      exact sendRequest_returns hreturning (h.steps (.reserves hreserves) (Nat.le_refl 2))

end Attempt

theorem executeAttempt_returns {x : Script} (hreturning : Attempt.Returning reserveFallback)
    (h : Room 2 w) : ∃ r, executeAttempt cfg x reserveFallback attempt w = some r := by
  unfold executeAttempt
  split
  · exact ⟨_, rfl⟩
  simp only
  generalize (if attempt.quotaEstimate.requests ≤ 0 || attempt.quotaEstimate.tokens ≤ 0 then _
    else attempt : ModelAttempt) = attempt'
  have hroom := h.calm (Attempt.admission_calm cfg x attempt' w)
  generalize Attempt.admission cfg x attempt' w = admitted at hroom
  obtain ⟨w1, refusal⟩ := admitted
  cases refusal with
  | some e => exact ⟨_, rfl⟩
  | none =>
    obtain ⟨r, hr⟩ := @Attempt.startRequest_returns cfg attempt' (cfg.providerCredential attempt)
      reserveFallback w1 x hreturning hroom
    simp only [hr]
    exact ⟨_, rfl⟩

theorem ChainCallback.returning (h : ChainCallback cfg reserveFallback) :
    Attempt.Returning reserveFallback := by
  intro reserve hreserve w hroom
  cases h with
  | last => cases hreserve
  | next baseEstimate ticks u current =>
    cases hreserve
    exact reserveAmong_returns hroom

section Chain

variable {x : ChainScript} {n i : Nat} {s : ChainState}

theorem Starts.returns {e : Started} (he : Starts cfg x execution s i e)
    (h : Room (2 * (n + 1)) s.world) : ∃ w err, e.result = some (w, err) ∧ Room (2 * n) w := by
  have hcallback := he.callback
  obtain ⟨planned, -, -, rfl⟩ := he
  have hroom : Room (2 * (n + 1)) (s.world.emit (.attempt i)) := h
  obtain ⟨⟨w, err⟩, hattempt⟩ := executeAttempt_returns hcallback.returning
    (hroom.mono (Nat.le_mul_of_pos_right 2 (Nat.succ_pos n)))
  exact ⟨w, err, hattempt, hroom.steps (executeAttempt_steps hcallback.drawsOne hattempt)
    (Nat.add_comm 2 (2 * n)).le⟩

theorem ChainRun.returns {es : List Started} {r : Option (ChainState × ChainEnd)}
    (h : ChainRun cfg x execution n i s es r) (hroom : Room (2 * n) s.world) : r.isSome = true := by
  induction h with
  | ended | served | stopped => rfl
  | @skipped n _ _ _ _ _ _ _ _ ih => exact ih (hroom.mono (Nat.mul_le_mul_left 2 (Nat.le_succ n)))
  | stuck he hresult =>
    obtain ⟨w, err, hsome, -⟩ := he.returns hroom
    cases hresult.symm.trans hsome
  | failed he hresult hlearn _ ih =>
    obtain ⟨w, err, hsome, hleft⟩ := he.returns hroom
    cases hresult.symm.trans hsome
    exact ih (ChainState.learn_world hlearn ▸ hleft)

end Chain

theorem executeFallbacks_returns {x : ChainScript} (h : Room (2 * w.attempts.length) w) :
    ∃ r, executeFallbacks cfg x execution w = some r := by
  obtain ⟨⟨s, last⟩, hloop⟩ := Option.isSome_iff_exists.mp
    ((chainLoop_run cfg x execution w.attempts.length 0 ⟨w, ⟨[], []⟩, none, []⟩).returns h)
  unfold executeFallbacks
  rw [hloop]
  cases last with
  | served | ran => exact ⟨_, rfl⟩
  | stopped early => cases early <;> exact ⟨_, rfl⟩

theorem runChain_returns {first : ModelAttempt}
    {rest : List ModelAttempt} (h : Room (2 * (first :: rest).length) w) :
    ∃ w', runChain cfg r first rest w = some w' := by
  have hlength : (if 0 < r.retryPolicy.maxAttempts then
      (first :: rest).take r.retryPolicy.maxAttempts.toNat else first :: rest).length ≤
      (first :: rest).length := by
    split
    · exact length_take_le' _ _
    · exact Nat.le_refl _
  unfold runChain
  simp only
  generalize (if 0 < r.retryPolicy.maxAttempts then
      (first :: rest).take r.retryPolicy.maxAttempts.toNat else first :: rest) = chain at hlength ⊢
  obtain ⟨result, hexecute⟩ := @executeFallbacks_returns cfg ⟨r.body, r.retryPolicy⟩
    { w with attempts := chain, unavailable := [] } r.chain (h.mono (Nat.mul_le_mul_left 2 hlength))
  rw [hexecute]
  exact ⟨_, rfl⟩

/-! ## The length of a chain -/

def Request.size (r : Request) : Nat := r.planned.length + r.rescue.length

theorem Request.attemptsToTry_length (cfg : Settings) (r : Request) :
    (r.attemptsToTry cfg).length ≤ r.size := by
  have hconfigured : (r.filterConfiguredAttempts cfg (r.planned.map PlannedAttempt.attempt)).length ≤
      r.planned.length := (length_filter_le _ _).trans (length_map _).le
  unfold attemptsToTry
  simp only
  split
  · exact Nat.le_add_right_of_le hconfigured
  refine (length_filter_le _ _).trans ?_
  unfold applyCapabilityFilter
  simp only
  split
  · rw [length_map]
    exact Nat.le_add_left _ _
  · exact Nat.le_add_right_of_le ((length_filter_le _ _).trans hconfigured)

/-! ## The hold loop -/

namespace World

theorem quotaRankAndReserve_returns {round : HoldRound} (h : Room 1 w) :
    ∃ r, w.quotaRankAndReserve cfg round estimate attempts = some r := by
  obtain ⟨r, hr⟩ := (Drawing.chain (P := fun _ => True) cfg estimate round
    fun a (_ : a ∈ attempts) => trivial).returns h
  exact (Option.map_eq_some_iff.mp hr).imp fun _ => And.left

end World

theorem Request.holdLoop_returns {contextEstimate : QuotaEstimate}
    (hunreserved : Unreserved attempts) {k : Nat} {budget : Duration} (h : Room 1 w) :
    ∃ w' result, r.holdLoop cfg estimate contextEstimate attempts k budget w = some (w', result) ∧
      ∀ chain, result = some chain → chain.length ≤ attempts.length := by
  refine @holdRounds cfg r estimate contextEstimate attempts (fun k budget w => Room 1 w →
    ∃ w' result, r.holdLoop cfg estimate contextEstimate attempts k budget w = some (w', result) ∧
      ∀ chain, result = some chain → chain.length ≤ attempts.length)
    (fun k budget w hagain hroom => ?_) k budget w h
  have hfollows := @holdRound_follows cfg r estimate contextEstimate _ hunreserved k budget w
  have hcase := r.holdRound_cases cfg estimate contextEstimate attempts k budget w
  have hlength : (r.eligible cfg contextEstimate attempts k w).length ≤ attempts.length :=
    (length_filter_le _ _).trans (length_filter_le _ _)
  obtain ⟨reserved, hreserve⟩ := @World.quotaRankAndReserve_returns cfg estimate
    (r.eligible cfg contextEstimate attempts k w) w (r.round k) hroom
  rw [holdLoop_eq]
  cases hround : r.holdRound cfg estimate contextEstimate attempts k budget w with
  | stuck =>
    rw [hround] at hcase
    exact nomatch hreserve.symm.trans hcase
  | tooLarge | refused w1 | atCapacity w1 => exact ⟨_, none, rfl, nofun⟩
  | chain w1 first rest =>
    rw [hround] at hcase
    have hchain := (quotaRankAndReserve_length hcase).trans hlength
    exact ⟨_, some _, rfl, fun chain hsome => Option.some.inj hsome ▸ hchain⟩
  | again wait w1 =>
    rw [hround] at hfollows
    exact hagain wait w1 hround (hroom.calm (.reads hfollows))

theorem dispatchChain_returns (h : Room (1 + 2 * (r.size * r.size)) w) :
    ∃ w', dispatchChain cfg r w = some w' := by
  have hattempts := r.attemptsToTry_length cfg
  obtain ⟨w1, result, hhold, hlength⟩ := @Request.holdLoop_returns cfg r
    (estimateRequestQuota cfg r.body) (r.attemptsToTry cfg) w (estimateRequestContext cfg r.body)
    (r.attemptsToTry_unreserved cfg) 0 (quotaHoldBudget cfg) (h.mono (Nat.le_add_right 1 _))
  unfold dispatchChain
  simp only
  split
  · exact ⟨_, rfl⟩
  split
  · exact ⟨_, rfl⟩
  rw [hhold]
  cases Request.holdLoop_held (r.attemptsToTry_unreserved cfg) hhold with
  | answered => exact ⟨_, rfl⟩
  | @ready first rest hready =>
    have hroom : Room (2 * (r.size * r.size)) w1 :=
      h.steps (.reserves hready.reserves) (Nat.le_refl _)
    have hchain := ((hlength _ rfl).trans hattempts).trans (Nat.le_mul_self r.size)
    exact runChain_returns (hroom.mono (Nat.mul_le_mul_left 2 hchain))

end CalvoProxy
