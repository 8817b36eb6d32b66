import CalvoProxy.Router.Holding
import CalvoProxy.Router.Ownership

/-!
# No ticket leaks

An attempt ends with its ticket settled if the request was sent and released if not, the end of the
chain releases what the attempts passed over still hold, and nothing is left for the last release of
the dispatch.
-/

namespace CalvoProxy

open List Option QuotaLedger Accounted World Attempt

variable {w2 w w' w1 : World} {i : Nat} {x : ChainScript} {execution : FallbackExecution}
  {first : ModelAttempt} {rest : List ModelAttempt} {r : Request} {cfg : Settings}
  {l0 : QuotaLedger}

namespace Attempt

variable {x : Script} {credential : String} {attempt : ModelAttempt} {ticket : QuotaTicket}
  {reserveFallback : Option ReserveFallback} {err : Option AttemptError}

def Tracks (l0 : QuotaLedger) (i : Nat) (reserveFallback : Option ReserveFallback) : Prop :=
  ∀ reserve, reserveFallback = some reserve → ∀ w w' b, Owned l0 i none w →
    reserve w = some (w', b) → Owned l0 i none w' ∧ Accounted l0 w w'

theorem Sends.owned (htracks : Tracks l0 i reserveFallback)
    (howned : Owned l0 i (some ticket) w) (hvalid : ticket.valid = true)
    (hestimate : 0 ≤ attempt.quotaEstimate.requests ∧ 0 ≤ attempt.quotaEstimate.tokens)
    (h : Sends cfg x credential attempt reserveFallback ticket w w' err) :
    Owned l0 i none w' ∧ Accounted l0 w w' := by
  have hemit : Owned l0 i (some ticket) (w.emit (.send ticket)) :=
    howned.congr rfl rfl fun _ => rfl
  have hidle : ∀ {w1 w2 : World}, Owned l0 i none w1 ∧ Accounted l0 w w1 → Idle w1 w2 →
      Owned l0 i none w2 ∧ Accounted l0 w w2 := fun h hidle =>
    ⟨h.1.idle hidle, h.2.trans (.ofIdle hidle)⟩
  have hsettled : ∀ {w1 w2 : World},
      Settles cfg credential attempt ticket (w.emit (.send ticket)) w1 → Calm w1 w2 →
      Owned l0 i none w2 ∧ Accounted l0 w w2 := by
    rintro _ _ ⟨_, _, _, _, _, rfl⟩ hcalm
    exact hidle (hemit.settle hvalid (.refl _) hestimate) hcalm.idle
  have hasked : ∀ {reserve : ReserveFallback} {w1 w2 : World} {b : Bool},
      Owned l0 i none w1 ∧ Accounted l0 w w1 → reserveFallback = some reserve →
      reserve w1 = some (w2, b) → Owned l0 i none w2 ∧ Accounted l0 w w2 := by
    intro reserve w1 w2 b h hreserve hcall
    obtain ⟨howned2, haccounted2⟩ := htracks reserve hreserve _ _ _ h.1 hcall
    exact ⟨howned2, h.2.trans haccounted2⟩
  cases h with
  | failed hcalm =>
    rw [cleanup, hvalid]
    exact (hemit.idle hcalm.idle).settle hvalid hcalm.idle hestimate
  | settled hsettle hcalm | unguarded hsettle hcalm => exact hsettled hsettle hcalm
  | abandoned hsettle hcalm hreserve hcall =>
    exact hidle (hasked (hsettled hsettle hcalm) hreserve hcall) (.act _ _ _ _ _)
  | kept hsettle hcalm hreserve hcall hcalm' =>
    exact hidle (hasked (hsettled hsettle hcalm) hreserve hcall) hcalm'.idle

def carried (attempt : ModelAttempt) : Option QuotaTicket :=
  if attempt.quotaTicket.valid then some attempt.quotaTicket else none

theorem Runs.owned (htracks : Tracks l0 i reserveFallback)
    (howned : Owned l0 i (Attempt.carried attempt) w)
    (hestimate : 0 ≤ attempt.quotaEstimate.requests ∧ 0 ≤ attempt.quotaEstimate.tokens)
    (h : Runs cfg x credential attempt reserveFallback w w' err) :
    Owned l0 i none w' ∧ Accounted l0 w w' := by
  unfold Attempt.carried at howned
  cases h with
  | unsent hcalm =>
    unfold cleanup
    split at howned
    · next hvalid =>
      rw [hvalid]
      exact ⟨(howned.idle hcalm.idle).released _, (ofIdle hcalm.idle).trans (.released _ _ _)⟩
    · next hvalid =>
      rw [Bool.eq_false_iff.mpr hvalid]
      exact ⟨howned.idle hcalm.idle, .ofIdle hcalm.idle⟩
  | unreserved hinvalid hcalm =>
    rw [hinvalid] at howned
    exact ⟨howned.idle hcalm.idle, .ofIdle hcalm.idle⟩
  | carried hvalid hcalm h =>
    rw [hvalid] at howned
    obtain ⟨hfinal, hrest⟩ := h.owned htracks (howned.idle hcalm.idle) hvalid hestimate
    exact ⟨hfinal, (ofIdle hcalm.idle).trans hrest⟩
  | @drawn w1 w2 _ ticket _ hinvalid hcalm hreserves h =>
    rw [hinvalid] at howned
    obtain ⟨hdrawn, hdrawnValid⟩ := (howned.idle hcalm.idle).reserves hreserves
    obtain ⟨hfinal, hrest⟩ := h.owned htracks hdrawn hdrawnValid hestimate
    have hreserved : Accounted l0 w1 w2 := .reserves hreserves (hdrawn.fresh ticket mem_cons_self)
    exact ⟨hfinal, (ofIdle hcalm.idle).trans (hreserved.trans hrest)⟩

end Attempt

theorem executeAttempt_owned {cfg : Settings} {x : Script} {planned attempt : ModelAttempt}
    {reserveFallback : Option ReserveFallback} {l0 : QuotaLedger} {i : Nat} {w w' : World}
    {err : Option AttemptError} (howned : Owned l0 i none w) (hat : w.attempts[i]? = some planned)
    (hticket : attempt.quotaTicket = planned.quotaTicket)
    (htracks : Tracks l0 (i + 1) reserveFallback)
    (hfits : EstimateFits cfg attempt x.body)
    (h : executeAttempt cfg x reserveFallback attempt w = some (w', err)) :
    Owned l0 (i + 1) none w' ∧ Accounted l0 w w' := by
  have hcarried : Owned l0 (i + 1) (carried attempt) w := by
    unfold carried
    split
    · next hvalid => exact hticket ▸ howned.take hat (hticket ▸ hvalid)
    · exact howned.skip
  rcases executeAttempt_runs h with ⟨rfl, -⟩ | ⟨estimate, hestimate, hruns⟩
  · exact ⟨howned.skip, .ofIdle (.refl _)⟩
  have hcarried : Owned l0 (i + 1)
      (carried { attempt with quotaEstimate := estimate }) w := hcarried
  refine hruns.owned htracks hcarried ?_
  rcases hestimate with ⟨-, hrequests, htokens⟩ | rfl
  · exact ⟨Int64.le_of_lt hrequests, Int64.le_of_lt htokens⟩
  · exact hfits.nonneg

theorem World.mem_remaining {current : Nat} {c : ModelAttempt × Nat}
    (h : c ∈ w.remaining current) : w.attempts[c.2]? = some c.1 ∧ current + 1 ≤ c.2 := by
  obtain ⟨k, hk⟩ := mem_iff_getElem?.mp h
  unfold remaining at hk
  rw [List.getElem?_drop, List.getElem?_zipIdx] at hk
  obtain ⟨a, ha, rfl⟩ := map_eq_some_iff.mp hk
  rw [Nat.zero_add]
  exact ⟨ha, Nat.le_add_right _ _⟩

theorem Offers.owned {u : Unavailable} {candidates : List (ModelAttempt × Nat)} {b : Bool}
    (h : Offers u candidates w w' b) (howned : Owned l0 i none w)
    (hcandidates : ∀ c ∈ candidates, w.attempts[c.2]? = some c.1 ∧ i ≤ c.2) :
    Owned l0 i none w' ∧ Accounted l0 w w' := by
  induction h with
  | ended | held => exact ⟨howned, .ofIdle (.refl _)⟩
  | skipped _ _ ih => exact ih howned fun c hc => hcandidates c (mem_cons_of_mem _ hc)
  | @refused w w1 _ _ j _ _ hreads _ ih =>
    have hmark : Idle w { w1 with unavailable := j :: w1.unavailable } :=
      (Idle.ofReads hreads).trans (.ofEq rfl rfl rfl rfl)
    obtain ⟨hfinal, haccounted⟩ := ih (howned.idle hmark)
      fun c hc => hmark.attempts ▸ hcandidates c (mem_cons_of_mem _ hc)
    exact ⟨hfinal, (ofIdle hmark).trans haccounted⟩
  | @drawn w w1 a j _ t _ hvalid hreserves =>
    obtain ⟨hdrawn, hticket⟩ := howned.reserves hreserves
    obtain ⟨hat, hj⟩ := hcandidates (a, j) mem_cons_self
    have hat : w1.attempts[j]? = some a := hreserves.attempts ▸ hat
    exact ⟨hdrawn.place hj hat hvalid hticket, (reserves hreserves
      (hdrawn.fresh t mem_cons_self)).trans (.plan w1 _ w1.unavailable)⟩

theorem reserveNext_tracks (cfg : Settings) (baseEstimate : QuotaEstimate) (ticks : Nat → Tick)
    (u : Unavailable) (l0 : QuotaLedger) (i : Nat) :
    Tracks l0 (i + 1) (some (reserveNextExecutableAttempt cfg baseEstimate ticks u i)) := by
  intro reserve hreserve w w' b howned hcall
  cases hreserve
  exact (reserveAmong_offers hcall).owned howned fun c hc => mem_remaining hc

/-- Every position of the chain gets a body whose estimate fits. -/
def ChainScript.Fits (cfg : Settings) (x : ChainScript) : Prop :=
  ∀ i attempt, EstimateFits cfg attempt (x.attempt i).body

theorem Starts.owned {s : ChainState} {e : Started} {err : Option AttemptError}
    (hfits : x.Fits cfg) (howned : Owned l0 i none s.world) (he : Starts cfg x execution s i e)
    (h : e.result = some (w', err)) : Owned l0 (i + 1) none w' ∧ Accounted l0 s.world w' := by
  obtain ⟨planned, hplanned, -, rfl⟩ := he
  have htracks : Tracks l0 (i + 1) (startAt cfg x execution s planned i).reserveFallback := by
    unfold startAt
    simp only
    split
    · exact reserveNext_tracks _ _ _ _ l0 i
    · exact fun _ hnone => nomatch hnone
  have hidle : Idle s.world (s.world.emit (.attempt i)) := .emit rfl rfl s.world
  obtain ⟨hnext, haccounted⟩ :=
    @executeAttempt_owned cfg _ planned (startAt cfg x execution s planned i).attempt _ l0 i _ w' err
      (howned.idle hidle) hplanned rfl htracks (hfits i _) h
  exact ⟨hnext, (ofIdle hidle).trans haccounted⟩

theorem ChainRun.owned {n : Nat} {s s' : ChainState} {last : ChainEnd} {es : List Started}
    (hfits : x.Fits cfg) (howned : Owned l0 i none s.world)
    (h : ChainRun cfg x execution n i s es (some (s', last))) :
    (∃ k, Owned l0 k none s'.world) ∧ Accounted l0 s.world s'.world := by
  generalize hr : some (s', last) = r at h
  induction h with
  | ended =>
    cases hr
    exact ⟨⟨_, howned⟩, .ofIdle (.refl _)⟩
  | skipped _ _ _ ih => exact ih howned.skip hr
  | stuck => cases hr
  | served he hresult =>
    cases hr
    obtain ⟨hfinal, haccounted⟩ := he.owned hfits howned hresult
    exact ⟨⟨_, hfinal⟩, haccounted⟩
  | failed he hresult hlearn _ ih =>
    obtain ⟨hnext, haccounted⟩ := he.owned hfits howned hresult
    rw [ChainState.learn_world hlearn] at ih
    obtain ⟨hfinal, hrest⟩ := ih hnext hr
    exact ⟨hfinal, haccounted.trans hrest⟩
  | stopped he hresult hlearn =>
    cases hr
    obtain ⟨hfinal, haccounted⟩ := he.owned hfits howned hresult
    rw [ChainState.learn_world hlearn]
    exact ⟨⟨_, hfinal⟩, haccounted⟩

/-! ## What is left is released -/

theorem releaseAttempts_tickets (ticks : Nat → Tick) (attempts : List (ModelAttempt × Nat))
    (w : World) :
    (releaseAttempts ticks attempts w).service.quota.self = w.service.quota.self ∧
      ∀ t, (releaseAttempts ticks attempts w).service.quota.held t =
        if t ∈ (attempts.map Prod.fst).map ModelAttempt.quotaTicket then none
        else w.service.quota.held t := by
  induction attempts generalizing w with
  | nil => exact ⟨rfl, fun t => rfl⟩
  | cons c rest ih =>
    obtain ⟨attempt, i⟩ := c
    -- one round, whether or not there is anything to release
    have hround : ∀ w1 : World, w1 = (if attempt.quotaTicket.valid then
        w.release attempt.quotaTicket (ticks i) else w) →
        w1.service.quota.self = w.service.quota.self ∧ ∀ t, w1.service.quota.held t =
          if t = attempt.quotaTicket then none else w.service.quota.held t := by
      rintro w1 rfl
      split
      · exact w.service.quota.release_tickets attempt.quotaTicket (ticks i).now (ticks i).order
      next hinvalid =>
      refine ⟨rfl, fun t => ?_⟩
      split
      · next heq =>
        rw [heq]
        exact held_of_not_valid (Bool.eq_false_iff.mpr hinvalid)
      · rfl
    obtain ⟨hself, hheld⟩ := hround _ rfl
    obtain ⟨hself', hheld'⟩ := ih (if attempt.quotaTicket.valid then
      w.release attempt.quotaTicket (ticks i) else w)
    unfold releaseAttempts
    refine ⟨hself'.trans hself, fun t => ?_⟩
    rw [hheld' t, hheld t]
    simp only [map_cons, mem_cons]
    by_cases heq : t = attempt.quotaTicket
    · simp only [heq, if_true, ite_self, true_or]
    · simp only [heq, if_false, false_or]

theorem releaseAttempts_accounted (l0 : QuotaLedger) (ticks : Nat → Tick)
    (attempts : List (ModelAttempt × Nat))
    (w : World) : Accounted l0 w (releaseAttempts ticks attempts w) := by
  induction attempts generalizing w with
  | nil => exact .ofIdle (.refl w)
  | cons c rest ih =>
    obtain ⟨attempt, i⟩ := c
    unfold releaseAttempts
    split
    · exact (Accounted.released w attempt.quotaTicket (ticks i)).trans (ih _)
    · exact ih w

theorem Owned.swept {k : Nat} (h : Owned l0 k none w) (ticks : Nat → Tick) (t : QuotaTicket) :
    (releaseAttempts ticks w.attempts.zipIdx w).service.quota.held t = l0.held t := by
  rw [(releaseAttempts_tickets ticks w.attempts.zipIdx w).2 t, zipIdx_map_fst]
  cases hvalid : t.valid with
  | false =>
    rw [held_of_not_valid hvalid, held_of_not_valid hvalid, ite_self]
  | true =>
    have hlisted : t ∈ w.attempts.map ModelAttempt.quotaTicket ↔ t ∈ ticketsFrom w.attempts 0 := by
      simp [ticketsFrom, hvalid]
    split
    · next hmem => exact (h.fresh t (hlisted.mp hmem)).symm
    next hnot =>
    cases hheld : w.service.quota.held t with
    | some state =>
      rcases h.covers t (isSome_iff_exists.mpr ⟨state, hheld⟩) with hold | hin
      · exact hheld.symm.trans (h.keeps t hold)
      · exact absurd (hlisted.mpr hin) hnot
    | none =>
      by_contra hold
      exact hold (hheld.symm.trans (h.keeps t (isSome_iff_ne_none.mpr (Ne.symm hold))))

/-- The tickets stand as they do on `l0`. -/
def Restored (l0 : QuotaLedger) (w : World) : Prop :=
  ∀ t, w.service.quota.held t = l0.held t

theorem Restored.idle (h : Restored l0 w) (hidle : Idle w w') :
    Restored l0 w' := fun t => (hidle.held.2 t).trans (h t)

theorem executeFallbacks_restores {err : Option ChainError}
    (hfits : x.Fits cfg) (howned : Owned l0 0 none w)
    (h : executeFallbacks cfg x execution w = some (w', err)) :
    Restored l0 w' ∧ Accounted l0 w w' := by
  unfold executeFallbacks at h
  split at h
  · cases h
  next s last hloop =>
  have hrun := chainLoop_run cfg x execution w.attempts.length 0 ⟨w, ⟨[], []⟩, none, []⟩
  rw [hloop] at hrun
  obtain ⟨⟨k, hleft⟩, haccounted⟩ := hrun.owned hfits howned
  have hw' : w' = releaseAttempts x.release s.world.attempts.zipIdx s.world := by
    cases last with
    | served | ran => exact (congrArg Prod.fst (Option.some.inj h)).symm
    | stopped early => cases early <;> exact (congrArg Prod.fst (Option.some.inj h)).symm
  rw [hw']
  exact ⟨hleft.swept x.release, haccounted.trans (releaseAttempts_accounted l0 _ _ _)⟩

theorem Unreserved.ticketsFrom {attempts : List ModelAttempt} (h : Unreserved attempts) :
    ticketsFrom attempts 0 = [] := by
  refine filter_eq_nil_iff.mpr fun t ht => ?_
  obtain ⟨a, ha, rfl⟩ := mem_map.mp ht
  simp [h a ha]

theorem World.Ready.owned (h : Ready w w1 first rest) :
    Owned w.service.quota 0 none { w1 with attempts := first :: rest, unavailable := [] } := by
  obtain ⟨state, hstate, hvalid, hself, hfree, hheld⟩ := h.reserves.draws
  -- the chain before its first attempt was given the ticket
  let blank : World :=
    { w with attempts := { first with quotaTicket := .zero } :: rest, unavailable := [] }
  have hblank : Unreserved blank.attempts := by
    intro a ha
    rcases mem_cons.mp ha with rfl | ha
    · rfl
    · exact h.unreserved a ha
  have hstart : Owned w.service.quota 0 none blank :=
    .start rfl (fun _ => rfl) hblank.ticketsFrom
  have hdrawn : Owned w.service.quota 0 (some first.quotaTicket)
      { w1 with attempts := blank.attempts, unavailable := [] } :=
    hstart.draw rfl hself hfree hstate hheld
  exact hdrawn.place (c := { first with quotaTicket := .zero }) (Nat.le_refl 0) rfl rfl hvalid

theorem World.Ready.limited (h : Ready w w1 first rest) (limit : Int) :
    ∃ rest', (if 0 < limit then (first :: rest).take limit.toNat else first :: rest) =
      first :: rest' ∧ Ready w w1 first rest' := by
  split
  · next hlimit =>
    obtain ⟨n, hn⟩ := Nat.exists_eq_succ_of_ne_zero
      (Nat.ne_of_gt (Int.lt_toNat.mpr (show ((0 : Nat) : Int) < limit from hlimit)))
    exact ⟨rest.take n, by rw [hn, take_succ_cons],
      h.reserves, h.unreserved.subset fun _ => mem_of_mem_take⟩
  · exact ⟨rest, rfl, h⟩

theorem runChain_restores (hfits : r.chain.Fits cfg)
    (hready : Ready w w1 first rest) (h : runChain cfg r first rest w1 = some w') :
    Restored w.service.quota w' ∧ Accounted w.service.quota w w' := by
  obtain ⟨rest', hchain, hready⟩ := hready.limited r.retryPolicy.maxAttempts
  have howned := hready.owned
  obtain ⟨-, -, hvalid, -⟩ := hready.reserves.draws
  have hfresh := howned.fresh first.quotaTicket
    (mem_append_right _ (mem_filter.mpr ⟨mem_cons_self, hvalid⟩))
  obtain ⟨w2, err, w3, hexecute, hclosing, rfl⟩ := runChain_cases h
  rw [hchain] at hexecute
  obtain ⟨hrestored, haccounted⟩ := executeFallbacks_restores hfits howned hexecute
  have hidle : Idle w2 w3 := by
    cases hclosing with
    | served => exact .refl w2
    | failed => exact .emit rfl rfl w2
  have hrestored := hrestored.idle hidle
  have haccounted : Accounted w.service.quota w w3 :=
    (((reserves hready.reserves hfresh).trans (.plan w1 _ _)).trans haccounted).trans
      (.ofIdle hidle)
  rw [if_pos hvalid]
  refine ⟨fun t => ?_, haccounted.trans (.released _ _ _)⟩
  have hreleased := (w3.service.quota.release_tickets first.quotaTicket r.release.now
    r.release.order).2 t
  refine Eq.trans hreleased ?_
  split
  · next heq => rw [heq, hfresh]
  · exact hrestored t

/-- None of the tickets that a request drew is active when it returns; each was settled as often as
a request was sent under it, and otherwise released. The others stay as they are. -/
theorem dispatchChain_leaks_no_ticket (hfits : r.chain.Fits cfg)
    (h : dispatchChain cfg r w = some w') :
    ∃ es sent, Machine.Run step w.service.quota es w'.service.quota ∧
      w'.calls = w.calls ++ es ∧ w'.sent = w.sent ++ sent ∧
      (∀ t, 0 < issued t es → w'.service.quota.active t = false) ∧
      (∀ t, w'.service.quota.active t = w.service.quota.active t) ∧
      ∀ t, reconciled t es = sent.count t ∧ released t es + sent.count t = issued t es := by
  have hdone : Restored w.service.quota w' ∧ Accounted w.service.quota w w' := by
    rcases dispatchChain_cases h with hanswered | ⟨w1, first, rest, hready, hrun⟩
    · obtain ⟨hread, status, message, retryAfter⟩ := hanswered
      have hidle := (Idle.ofReads hread).trans
        (@Idle.emit (.jsonError status message retryAfter) rfl rfl _)
      exact ⟨hidle.held.2, .ofIdle hidle⟩
    · exact runChain_restores hfits hready hrun
  obtain ⟨hrestored, ⟨es, sent, hrun, hcalls, hsent, hcount, hfresh⟩⟩ := hdone
  have hactive : ∀ t, w'.service.quota.active t = w.service.quota.active t := by
    intro t
    rw [active_eq_held, active_eq_held, hrestored t]
  refine ⟨es, sent, hrun, hcalls, hsent, fun t ht => ?_, hactive, fun t => ⟨hcount t, ?_⟩⟩
  · obtain ⟨e, he, hissued⟩ := countP_pos_iff.mp ht
    rw [hactive, active_eq_held, hfresh e he t (of_decide_eq_true hissued)]
    rfl
  · have hbalance := run_conserves_tickets hrun t
    rw [hactive, consumed_eq, Nat.add_right_cancel_iff, hcount t, Nat.add_comm] at hbalance
    exact hbalance

/-- Two models fail after they were sent: both tickets were settled. -/
theorem two_failures_leak_nothing : ∃ w' es sent,
    dispatchChain demoSettings (demoRequest connectionReset) demoWorld = some w' ∧
      w'.calls = es ∧ w'.sent = sent ∧ sent.length = 2 ∧
      ∀ t, reconciled t es = sent.count t ∧ released t es + sent.count t = issued t es := by
  have hrun : (dispatchChain demoSettings (demoRequest connectionReset) demoWorld).map
      (fun w => w.sent.length) = some 2 := by decide +kernel
  obtain ⟨w', hdispatch, hlength⟩ := map_eq_some_iff.mp hrun
  have hfits : (demoRequest connectionReset).chain.Fits demoSettings := by
    have hestimate : estimateRequestQuota demoSettings connectionReset.body = ⟨1, 2, 1, 1, true⟩ := by
      decide
    intro i attempt
    show EstimateFits demoSettings attempt connectionReset.body
    simp only [EstimateFits, hestimate, providerQuotaEstimate, Bool.true_or, if_true]
    decide
  obtain ⟨es, sent, -, hcalls, hsent, -, -, hcount⟩ :=
    dispatchChain_leaks_no_ticket hfits hdispatch
  have hsent : w'.sent = sent := hsent
  exact ⟨w', es, sent, hdispatch, hcalls, hsent, hsent ▸ hlength, hcount⟩

end CalvoProxy
