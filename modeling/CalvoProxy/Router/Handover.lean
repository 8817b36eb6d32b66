import CalvoProxy.Router.Affinity
import CalvoProxy.Router.FirstEvent
import CalvoProxy.Router.Ownership

/-!
# Handing a slow stream over

A stream without an event within its budget is abandoned only if the attempt that runs next has a
ticket, which a callback draws and writes into the chain. `Consults` says what an attempt does to
the chain.
-/

namespace CalvoProxy

open List Machine Option World

variable {cfg : Settings} {x : Script} {reserveFallback : Option ReserveFallback}
  {attempt planned : ModelAttempt} {err : Option AttemptError} {u : Unavailable} {k i n : Nat}
  {candidates : List (ModelAttempt × Nat)}
  {resp : Response} {w w' : World} {s : ChainState}

/-! ## The chain during an attempt -/

/-- The attempts of the chain, and the positions that are out. -/
def World.plan (w : World) : List ModelAttempt × List Nat := (w.attempts, w.unavailable)

theorem Reads.plan (h : Reads w w') : w'.plan = w.plan :=
  Prod.ext h.attempts h.unavailable

theorem Calm.plan (h : Calm w w') : w'.plan = w.plan := by
  induction h with
  | refl | act | head | service => rfl
  | trans _ _ ih ih' => exact ih'.trans ih
  | reads h => exact h.plan

namespace Attempt

inductive Consults (x : Script) (reserveFallback : Option ReserveFallback) (attempt : ModelAttempt)
    (w w' : World) : Option AttemptError → Prop
  | alone {err : Option AttemptError} (hplan : w'.plan = w.plan)
      (herr : err ≠ some (firstEventError attempt.model))
      (hstream : ∀ resp, x.Streams resp → err = none ∨ w'.sent = w.sent) :
      Consults x reserveFallback attempt w w' err
  | unguarded (hnone : reserveFallback = none) (hlast : attempt.lastInChain = false)
      (hplan : w'.plan = w.plan) :
      Consults x reserveFallback attempt w w' (some (firstEventError attempt.model))
  | granted {reserve : ReserveFallback} {w1 w2 : World} (hreserve : reserveFallback = some reserve)
      (hbefore : w1.plan = w.plan) (hcall : reserve w1 = some (w2, true))
      (hafter : w'.plan = w2.plan) (hquota : w'.service.quota = w2.service.quota) :
      Consults x reserveFallback attempt w w' (some (firstEventError attempt.model))
  | refused {reserve : ReserveFallback} {w1 w2 : World} (hreserve : reserveFallback = some reserve)
      (hbefore : w1.plan = w.plan) (hcall : reserve w1 = some (w2, false))
      (hafter : w'.plan = w2.plan) : Consults x reserveFallback attempt w w' none

section

variable {credential : String} {ticket : QuotaTicket}

theorem Settles.plan (h : Settles cfg credential attempt ticket w w') : w'.plan = w.plan := by
  obtain ⟨status, header, body, tokens, tick, rfl⟩ := h
  rw [observeAndSettleQuota_eq]
  have hread := Reads.observeFacts cfg credential tick.now
    (observeProviderQuota cfg attempt.provider attempt.model status header body tick.now) ∅ w
  simp only
  split
  · exact hread.plan
  · exact hread.plan

theorem cleanup_plan (l : Locals) : (cleanup cfg x credential attempt l).plan = l.world.plan := by
  unfold cleanup
  split
  · rfl
  · split
    · rfl
    · exact Settles.plan ⟨_, _, _, _, _, rfl⟩

theorem Sends.consults {w0 : World} (hplan : w.plan = w0.plan)
    (h : Sends cfg x credential attempt reserveFallback ticket w w' err) :
    Consults x reserveFallback attempt w0 w' err := by
  have hsettled : ∀ {w1 w2 : World},
      Settles cfg credential attempt ticket (w.emit (.send ticket)) w1 → Calm w1 w2 →
      w2.plan = w0.plan := fun hsettle hcalm => hcalm.plan.trans (hsettle.plan.trans hplan)
  cases h with
  | failed hcalm herr hother =>
    exact .alone ((cleanup_plan _).trans (hcalm.plan.trans hplan))
      (fun heq => herr (Option.some.inj heq)) fun resp hresp => absurd hresp (hother resp)
  | settled hsettle hcalm herr hstream =>
    exact .alone (hsettled hsettle hcalm) herr fun resp hresp => .inl (hstream resp hresp)
  | unguarded hsettle hcalm hnone hlast => exact .unguarded hnone hlast (hsettled hsettle hcalm)
  | abandoned hsettle hcalm hreserve hcall =>
    exact .granted hreserve (hsettled hsettle hcalm) hcall rfl (act_quota _ _ _ _ _)
  | kept hsettle hcalm hreserve hcall hcalm' =>
    exact .refused hreserve (hsettled hsettle hcalm) hcall hcalm'.plan

theorem Runs.consults (h : Runs cfg x credential attempt reserveFallback w w' err) :
    Consults x reserveFallback attempt w w' err := by
  cases h with
  | @unsent w1 _ hcalm herr =>
    have hclean := cleanup_untouched cfg x credential attempt
      ⟨w1, attempt.quotaTicket, false, false⟩
    exact .alone ((cleanup_plan _).trans hcalm.plan) (fun heq => herr (Option.some.inj heq))
      fun _ _ => .inr (hclean.sent.trans hcalm.idle.sent)
  | unreserved _ hcalm herr =>
    exact .alone hcalm.plan (fun heq => herr (Option.some.inj heq)) fun _ _ => .inr hcalm.idle.sent
  | carried _ hcalm h => exact h.consults hcalm.plan
  | drawn _ hcalm hreserves h =>
    exact h.consults ((Prod.ext hreserves.attempts hreserves.unavailable).trans hcalm.plan)

theorem Consults.ofEstimate {estimate : QuotaEstimate}
    (h : Consults x reserveFallback { attempt with quotaEstimate := estimate } w w' err) :
    Consults x reserveFallback attempt w w' err := by
  cases h with
  | alone hplan herr hstream => exact .alone hplan herr hstream
  | unguarded hnone hlast hplan => exact .unguarded hnone hlast hplan
  | granted hreserve hbefore hcall hafter hquota =>
    exact .granted hreserve hbefore hcall hafter hquota
  | refused hreserve hbefore hcall hafter => exact .refused hreserve hbefore hcall hafter

end

end Attempt

theorem executeAttempt_consults
    (h : executeAttempt cfg x reserveFallback attempt w = some (w', err)) :
    Attempt.Consults x reserveFallback attempt w w' err := by
  rcases executeAttempt_runs h with ⟨rfl, herr⟩ | ⟨_, -, hruns⟩
  · exact .alone rfl herr fun _ _ => .inr rfl
  · exact hruns.consults.ofEstimate

structure HandsOver (u : Unavailable) (i : Nat) (w w' : World) (j : Nat) : Prop where
  after : i < j
  ready : ∃ a, w'.attempts[j]? = some a ∧ w'.skips u a j = false ∧ a.quotaTicket.valid = true ∧
    (w.attempts[j]? = some a ∨ (w'.service.quota.held a.quotaTicket).isSome = true)
  passed : ∀ k, i < k → k < j → ∃ a, w'.attempts[k]? = some a ∧ w'.skips u a k = true

theorem World.skips_mono (h : ∀ k ∈ w.unavailable, k ∈ w'.unavailable) {a : ModelAttempt}
    (hskips : w.skips u a k = true) :
    w'.skips u a k = true := by
  simp only [skips, Bool.or_eq_true, contains_iff_mem] at hskips ⊢
  exact hskips.imp_left (Or.imp_left (h k))

theorem HandsOver.pass {u : Unavailable} {i j : Nat} {w w0 w' : World}
    (h : HandsOver u (i + 1) w0 w' j) (hattempts : w0.attempts = w.attempts)
    (hpassed : ∃ a, w'.attempts[i + 1]? = some a ∧ w'.skips u a (i + 1) = true) :
    HandsOver u i w w' j := by
  refine ⟨Nat.lt_of_succ_lt h.after, hattempts ▸ h.ready, fun k hik hkj => ?_⟩
  rcases Nat.eq_or_lt_of_le (Nat.succ_le_of_lt hik) with rfl | hlt
  · exact hpassed
  · exact h.passed k hlt hkj

theorem Reserves.issued {t : QuotaTicket} (h : Reserves w w' (some t)) :
    t.valid = true ∧ (w'.service.quota.held t).isSome = true := by
  obtain ⟨-, hreserve⟩ := h
  obtain ⟨⟨quota, ticket⟩, hall, heq⟩ := map_eq_some_iff.mp hreserve
  cases heq
  obtain ⟨state, -, hvalid, -, -, hheld⟩ := QuotaLedger.reserveAll_issues hall
  refine ⟨hvalid, ?_⟩
  show (quota.held t).isSome = true
  rw [hheld, if_pos rfl]
  rfl

theorem World.remaining_cons {candidate : ModelAttempt}
    {rest : List (ModelAttempt × Nat)} (h : (candidate, k) :: rest = w.remaining i) :
    k = i + 1 ∧ w.attempts[i + 1]? = some candidate ∧ rest = w.remaining (i + 1) := by
  have hhead : (w.remaining i)[0]? = some (candidate, k) := by rw [← h]; rfl
  have htail : (w.remaining i).tail = rest := by rw [← h]; rfl
  unfold remaining at hhead htail ⊢
  rw [List.getElem?_drop, List.getElem?_zipIdx] at hhead
  obtain ⟨a, ha, heq⟩ := map_eq_some_iff.mp hhead
  cases heq
  refine ⟨by omega, by simpa using ha, ?_⟩
  rw [← htail, tail_drop]

theorem Offers.handsOver {b : Bool} (h : Offers u candidates w w' b) (hb : b = true)
    (hcandidates : candidates = w.remaining i) :
    (∃ j, HandsOver u i w w' j ∧ ∀ k, k ≠ j → w'.attempts[k]? = w.attempts[k]?) ∧
      ∀ k ∈ w.unavailable, k ∈ w'.unavailable := by
  have hbetween : ∀ i k, i < k → ¬k < i + 1 := fun i k hk hk' => by omega
  induction h generalizing i with
  | ended => cases hb
  | @skipped _ _ candidate _ _ _ hskips _ ih =>
    obtain ⟨rfl, hcandidate, hrest⟩ := remaining_cons hcandidates
    obtain ⟨⟨j, hover, hsame⟩, hmarked⟩ := ih hb hrest
    have hcurrent := (hsame (i + 1) (Nat.ne_of_lt hover.after)).trans hcandidate
    exact ⟨⟨j, hover.pass rfl ⟨_, hcurrent, skips_mono hmarked hskips⟩, hsame⟩, hmarked⟩
  | @held _ candidate _ _ hskips hvalid =>
    obtain ⟨rfl, hcandidate, -⟩ := remaining_cons hcandidates
    refine ⟨⟨i + 1, ⟨Nat.lt_succ_self i, ?_, fun k hk hk' => absurd hk' (hbetween i k hk)⟩,
      fun _ _ => rfl⟩, fun _ hk => hk⟩
    exact ⟨candidate, hcandidate, hskips, hvalid, .inl hcandidate⟩
  | @refused w w1 w' candidate _ rest _ hreads _ ih =>
    obtain ⟨rfl, hcandidate, hrest⟩ := remaining_cons hcandidates
    have hrest' : rest = remaining { w1 with unavailable := (i + 1) :: w1.unavailable }
        (i + 1) := by
      rw [hrest]
      unfold remaining
      rw [← hreads.attempts]
    obtain ⟨⟨j, hover, hsame⟩, hmarked⟩ := ih hb hrest'
    have hcurrent : w'.attempts[i + 1]? = some candidate := by
      rw [hsame (i + 1) (Nat.ne_of_lt hover.after), ← hcandidate, ← hreads.attempts]
    have hout : w'.skips u candidate (i + 1) = true := by
      have hmem := hmarked (i + 1) mem_cons_self
      simp [skips, hmem]
    refine ⟨⟨j, hover.pass hreads.attempts ⟨_, hcurrent, hout⟩, fun k hk => ?_⟩, fun k hk => ?_⟩
    · rw [hsame k hk, ← hreads.attempts]
    · exact hmarked k (mem_cons_of_mem _ (hreads.unavailable ▸ hk))
  | @drawn w w1 candidate _ _ ticket hskips _ hreserves =>
    obtain ⟨rfl, hcandidate, -⟩ := remaining_cons hcandidates
    obtain ⟨hvalid, hheld⟩ := hreserves.issued
    have hlength : i + 1 < w1.attempts.length := by
      rw [hreserves.attempts]
      exact (List.getElem?_eq_some_iff.mp hcandidate).1
    refine ⟨⟨i + 1, ⟨Nat.lt_succ_self i, ⟨_, List.getElem?_set_self hlength, ?_, hvalid,
      .inr hheld⟩, fun k hk hk' => absurd hk' (hbetween i k hk)⟩, fun k hk => ?_⟩,
      fun k hk => hreserves.unavailable ▸ hk⟩
    · rw [← hskips]
      simp only [skips, hreserves.unavailable]
      rfl
    · rw [List.getElem?_set_ne (Ne.symm hk), hreserves.attempts]

section Followed

variable {x : ChainScript} {execution : FallbackExecution}

/-! ## After an abandoned stream -/

theorem chainRuns_reach {n i j : Nat} {s : ChainState} {a : ModelAttempt} (hij : i ≤ j)
    (hj : j < i + n)
    (hpassed : ∀ k, i ≤ k → k < j →
      ∃ b, s.world.attempts[k]? = some b ∧ s.world.skips s.unavailable b k = true)
    (ha : s.world.attempts[j]? = some a) (hskips : s.world.skips s.unavailable a j = false) :
    ∃ post, chainRuns cfg x execution n i s = startAt cfg x execution s a j :: post := by
  induction n generalizing i with
  | zero => omega
  | succ n ih =>
    rw [chainRuns]
    rcases Nat.eq_or_lt_of_le hij with rfl | hlt
    · simp only [ha, hskips, Bool.false_eq_true, if_false]
      exact ⟨_, rfl⟩
    · obtain ⟨b, hb, hout⟩ := hpassed i (Nat.le_refl i) hlt
      simp only [hb, hout, if_true]
      exact ih hlt (by omega) fun k hk hkj => hpassed k (Nat.le_of_succ_le hk) hkj

theorem learn_firstEventError (policy : RetryPolicy) (attempt : ModelAttempt) (model : String)
    (s : ChainState) : s.learn policy attempt (firstEventError model) =
      ({ s with lastErr := some (firstEventError model) }, true) := by
  simp [ChainState.learn, firstEventError, skipError]

/-- The attempt that follows an abandoned one is the one with the ticket. -/
structure Followed (e : Started) (w : World) (e' : Started) : Prop where
  later : e.position < e'.position
  ticket : ∃ a, w.attempts[e'.position]? = some a ∧ a.quotaTicket.valid = true ∧
    (e.before.attempts[e'.position]? = some a ∨
      (w.service.quota.held a.quotaTicket).isSome = true) ∧
    e'.attempt.quotaTicket = a.quotaTicket

theorem startAt_abandoned (h : (startAt cfg x execution s planned i).result =
      some (w, some (firstEventError (startAt cfg x execution s planned i).attempt.model))) :
    ∃ j, HandsOver s.unavailable i s.world w j := by
  generalize herr : some (firstEventError (startAt cfg x execution s planned i).attempt.model) = err
    at h
  cases executeAttempt_consults h with
  | alone _ hne => exact absurd herr.symm hne
  | unguarded hnone hlast =>
    -- without a callback there is no attempt behind it, and it is told to be the last one
    simp only at hlast
    split at hnone
    · cases hnone
    · next hnext =>
      rw [isNone_eq_false_iff] at hlast
      exact absurd hlast hnext
  | @granted reserve w1 w2 hreserve hbefore hcall hafter hquota =>
    split at hreserve
    · cases hreserve
      obtain ⟨⟨j, hover, -⟩, -⟩ := (reserveAmong_offers hcall).handsOver rfl rfl
      have h1 : w1.attempts = s.world.attempts := congrArg Prod.fst hbefore
      have h2 : w.attempts = w2.attempts := congrArg Prod.fst hafter
      have h3 : w.unavailable = w2.unavailable := congrArg Prod.snd hafter
      have hskips : ∀ a k, w.skips s.unavailable a k = w2.skips s.unavailable a k := fun a k => by
        simp only [skips, h3]
      refine ⟨j, hover.after, ?_, fun k hk hkj => ?_⟩
      · rw [h2, hquota, ← h1]
        simp only [hskips]
        exact hover.ready
      · rw [h2]
        simp only [hskips]
        exact hover.passed k hk hkj
    · cases hreserve
  | refused => cases herr

theorem Offers.length {b : Bool} (h : Offers u candidates w w' b) :
    w'.attempts.length = w.attempts.length := by
  induction h with
  | ended | held => rfl
  | skipped _ _ ih => exact ih
  | refused hreads _ ih => exact ih.trans (congrArg List.length hreads.attempts)
  | drawn _ _ hreserves => exact length_set.trans (congrArg List.length hreserves.attempts)

theorem startAt_length (h : (startAt cfg x execution s planned i).result = some (w, err)) :
    w.attempts.length = s.world.attempts.length := by
  have hcalled : ∀ reserve w1 w2 b,
      (startAt cfg x execution s planned i).reserveFallback = some reserve →
      w1.plan = s.world.plan → reserve w1 = some (w2, b) → w.plan = w2.plan →
      w.attempts.length = s.world.attempts.length := by
    intro reserve w1 w2 b hreserve hbefore hcall hafter
    simp only [startAt] at hreserve
    split at hreserve
    · cases hreserve
      exact (congrArg (·.1.length) hafter).trans
        ((reserveAmong_offers hcall).length.trans (congrArg (·.1.length) hbefore))
    · cases hreserve
  cases executeAttempt_consults h with
  | alone hplan | unguarded _ _ hplan => exact congrArg (·.1.length) hplan
  | granted hreserve hbefore hcall hafter | refused hreserve hbefore hcall hafter =>
    exact hcalled _ _ _ _ hreserve hbefore hcall hafter

theorem chainRuns_abandoned {n i : Nat} {s : ChainState} {planned : ModelAttempt} {w : World}
    (hn : s.world.attempts.length ≤ i + (n + 1))
    (h : (startAt cfg x execution s planned i).result =
      some (w, some (firstEventError (startAt cfg x execution s planned i).attempt.model)))
    {lastErr : Option AttemptError} :
    ∃ e' post, chainRuns cfg x execution n (i + 1) { s with world := w, lastErr := lastErr } =
      e' :: post ∧ Followed (startAt cfg x execution s planned i) w e' := by
  obtain ⟨j, hover⟩ := startAt_abandoned h
  obtain ⟨a, ha, hskips, hvalid, hheld⟩ := hover.ready
  have hj : j < i + 1 + n := by
    have hlength := (List.getElem?_eq_some_iff.mp ha).1
    rw [startAt_length h] at hlength
    omega
  obtain ⟨post, hruns⟩ := @chainRuns_reach cfg x execution n (i + 1) j
    { s with world := w, lastErr := lastErr } a hover.after hj hover.passed ha hskips
  exact ⟨_, post, hruns, hover.after, a, ha, hvalid, hheld, rfl⟩

theorem chainRuns_followed (hn : s.world.attempts.length ≤ i + n)
    {pre post : List Started} {e : Started}
    (hruns : chainRuns cfg x execution n i s = pre ++ e :: post)
    (he : e.result = some (w, some (firstEventError e.attempt.model))) :
    ∃ e' post', post = e' :: post' ∧ Followed e w e' := by
  have hempty : ∀ {pre : List Started}, [] ≠ pre ++ e :: post := fun heq =>
    append_ne_nil_of_right_ne_nil _ (cons_ne_nil e post) heq.symm
  induction n generalizing i s pre with
  | zero => exact absurd hruns hempty
  | succ n ih =>
    rw [chainRuns] at hruns
    cases hplanned : s.world.attempts[i]? with
    | none =>
      rw [hplanned] at hruns
      exact absurd hruns hempty
    | some planned =>
      simp only [hplanned] at hruns
      split at hruns
      · exact ih (by omega) hruns
      cases pre with
      | nil =>
        obtain ⟨rfl, htail⟩ := List.cons.inj hruns
        simp only [he, learn_firstEventError] at htail
        obtain ⟨e', post', hpost, hfollowed⟩ :=
          @chainRuns_abandoned cfg x execution n i s planned w hn he
            (some (firstEventError (startAt cfg x execution s planned i).attempt.model))
        exact ⟨e', post', htail.symm.trans hpost, hfollowed⟩
      | cons _ pre =>
        obtain ⟨-, htail⟩ := List.cons.inj hruns
        split at htail
        · next w1 err hresult =>
          split at htail
          · next s1 hlearn =>
            refine ih ?_ htail
            rw [ChainState.learn_world hlearn]
            have hlength := startAt_length hresult
            dsimp only
            omega
          · exact absurd htail hempty
        · exact absurd htail hempty

end Followed

theorem executeAttempt_streams (hcallback : ChainCallback cfg reserveFallback)
    (h : executeAttempt cfg x reserveFallback attempt w = some (w', err))
    (hstreams : x.Streams resp) (hsent : w'.sent ≠ w.sent)
    (hkept : err ≠ some (firstEventError attempt.model)) :
    err = none ∧ w'.responses = w.responses ++ [.head 200] := by
  have hnone : err = none := by
    cases executeAttempt_consults h with
    | alone _ _ hstream => exact (hstream resp hstreams).resolve_right hsent
    | unguarded | granted => exact absurd rfl hkept
    | refused => rfl
  subst hnone
  rcases executeAttempt_cases hcallback.harmless h with
    ⟨-, message, hskip⟩ | ⟨w1, l, sent, head, o, hadmitted, hends, rfl⟩
  · cases hskip
  have hlog : w1.responses = w.responses ∧ w1.sent = w.sent := by
    unfold World.responses World.sent
    rw [hadmitted.log]
    exact ⟨rfl, rfl⟩
  cases sent with
  | false =>
    refine absurd ?_ hsent
    rw [hends.tickets, hlog.2]
    simp
  | true =>
    rcases hends.ending.of_stream hstreams.1 hstreams.2.1 hstreams.2.2 with
      ⟨-, rfl, -⟩ | ⟨-, rfl⟩
    · cases hends.answered
    · refine ⟨rfl, ?_⟩
      rw [hends.responses, hlog.1]
      rfl

/-! ## What the client gets -/

def streamBuffer : Nat := 16 * 1024

/-- What the client has got when the stream has ended, from the body or the wrapper of it. -/
inductive Delivered (resp : Response) (body : Body) : Octets → Prop
  | direct {max : Bool} {s : CopyState}
      (hcopy : Reachable (CopyState.step body max) (CopyState.start body) s)
      (hend : s.point = .returned (streamCopy resp.stream)) : Delivered resp body s.written
  | waited {tr tr' : AwaitTrace} {t t' : AwaitState} {gotEvent max : Bool}
      {e : Event AwaitState AwaitEvent AwaitOutput} {data : Octets} {x : ReadEnd}
      {s : CopyState} (hwait : Run AwaitState.step (AwaitState.start body) tr t)
      (hreturned : ∃ e ∈ tr, e.output = .returned gotEvent resp.firstEvent.timerWins)
      (hfresh : readsOf tr = [])
      (hreads : Run AwaitState.step t (tr' ++ [e]) t')
      (hopen : ReadsOn streamBuffer false (tr' ++ [e])) (hlast : e.output = .read data (some x))
      (hcopy : Reachable (CopyState.step ⟨readsOf tr', data, x = .eof⟩ max)
        (CopyState.start ⟨readsOf tr', data, x = .eof⟩) s)
      (hend : s.point = .returned (streamCopy resp.stream)) : Delivered resp body s.written

theorem Delivered.faithful {body : Body} {written : Octets} (h : Delivered resp body written) :
    written <+: body.bytes ∧ (streamCopy resp.stream = .completed → written = body.bytes) := by
  cases h with
  | direct hcopy hend =>
    have hkeeps := copied_keeps hcopy
    exact ⟨hkeeps.written_le, fun hcompleted => hkeeps.completed (hcompleted ▸ hend)⟩
  | @waited tr tr' t t' gotEvent max e data x s hwait _ hfresh hreads hopen hlast hcopy hend =>
    have hmem : e ∈ tr' ++ [e] := mem_append_right tr' mem_cons_self
    obtain ⟨hbytes, -⟩ := awaited_ended (hwait.append hreads) (mem_append_right tr hmem)
      (hopen e hmem).2 hlast
    rw [handed_append, handed_append, handed_eq tr, hfresh, handed_eq tr'] at hbytes
    have hsame : Body.bytes ⟨readsOf tr', data, x = .eof⟩ = body.bytes := by
      rw [← hbytes]
      simp [Body.bytes, handed, hlast, AwaitOutput.data]
    have hkeeps := copied_keeps hcopy
    rw [← hsame]
    exact ⟨hkeeps.written_le, fun hcompleted => hkeeps.completed (hcompleted ▸ hend)⟩

/-- An attempt is abandoned for its first event only if the next one has a ticket; otherwise the
client gets the body from its first byte. -/
theorem firstEvent_keeps_answer (cfg : Settings) (x : ChainScript) (execution : FallbackExecution)
    (w : World) {pre post : List Started} {e : Started}
    (hruns : executorRuns cfg x execution w = pre ++ e :: post) {w' : World}
    {err : Option AttemptError} (he : e.result = some (w', err)) :
    (err = some (firstEventError e.attempt.model) →
      ∃ e' post', post = e' :: post' ∧ Followed e w' e') ∧
    (err ≠ some (firstEventError e.attempt.model) →
      ∀ resp, (x.attempt e.position).Streams resp → w'.sent ≠ e.before.sent →
        (err = none ∧ w'.responses = e.before.responses ++ [.head 200]) ∧
        ∀ body written, Delivered resp body written → written <+: body.bytes ∧
            (streamCopy resp.stream = .completed → written = body.bytes)) := by
  have hmem : e ∈ executorRuns cfg x execution w := by
    rw [hruns]
    exact mem_append_right pre mem_cons_self
  obtain ⟨s, i, hstarts⟩ := (chainLoop_run cfg x execution _ _ _).starts e hmem
  constructor
  · rintro rfl
    have hlength : w.attempts.length ≤ 0 + w.attempts.length := Nat.le_of_eq (Nat.zero_add _).symm
    exact chainRuns_followed (s := ⟨w, ⟨[], []⟩, none, []⟩) hlength hruns he
  · intro hkept resp hstreams hsent
    rw [hstarts.result] at he
    exact ⟨executeAttempt_streams hstarts.callback he hstreams hsent hkept,
      fun body written hdelivered => hdelivered.faithful⟩

def silentStream : Script :=
  demoScript (.ok { demoResponse 200 "text/event-stream" (.idle none) Select.idle_ends none with
    firstEvent := ⟨[], true⟩ })

def silentChain : ChainScript := ⟨fun _ => silentStream, fun _ _ => ⟨1, []⟩, fun _ => ⟨1, []⟩⟩

/-- Two models, of which only the first has its ticket. -/
def silentRuns : List Started :=
  executorRuns { demoSettings with firstEventTimeout := 1 } silentChain
    ⟨silentStream.body, ⟨0, [502], true, true⟩⟩
    { demoWorld with attempts := [ticketedAttempt, { demoAttempt with model := "n" }] }

/-- The first stream is abandoned, and the second one goes on. -/
theorem silentRuns_handed_over : ∃ (e e' : Started) (w w' : World), silentRuns = [e, e'] ∧
    Followed e w e' ∧ w'.responses = e'.before.responses ++ [.head 200] := by
  have hshape : silentRuns.map (fun e => (e.attempt.model, e.result.map fun r =>
      (r.2, decide (r.1.sent = e.before.sent)))) =
      [("m", some (some (firstEventError "m"), false)), ("n", some (none, false))] := by
    decide +kernel
  obtain ⟨e, rest, hruns, he, hrest⟩ := map_eq_cons_iff.mp hshape
  obtain ⟨e', rest', rfl, he', hrest'⟩ := map_eq_cons_iff.mp hrest
  obtain rfl := map_eq_nil_iff.mp hrest'
  obtain ⟨hmodel, hresult⟩ := Prod.mk.inj he
  obtain ⟨-, hresult'⟩ := Prod.mk.inj he'
  obtain ⟨⟨w, err⟩, hw, herr⟩ := map_eq_some_iff.mp hresult
  obtain ⟨⟨w', err'⟩, hw', herr'⟩ := map_eq_some_iff.mp hresult'
  obtain ⟨rfl, -⟩ := Prod.mk.inj herr
  obtain ⟨rfl, hsent⟩ := Prod.mk.inj herr'
  obtain ⟨e1, post, hpost, hfollowed⟩ :=
    (@firstEvent_keeps_answer _ _ _ _ [] [e'] e hruns w _ hw).1 (by rw [hmodel])
  obtain ⟨rfl, -⟩ := List.cons.inj hpost
  have hgoes := (@firstEvent_keeps_answer _ _ _ _ [e] [] e' hruns w' _ hw').2 (fun h => by cases h)
  exact ⟨e, e', w, w', hruns, hfollowed,
    (hgoes _ ⟨rfl, rfl, by decide +kernel⟩ (of_decide_eq_false hsent)).1.2⟩

end CalvoProxy
