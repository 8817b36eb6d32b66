import CalvoProxy.Router.Inquiry

/-!
# The calls of the routing on the ledger

Every function of the quota routing is a run of the ledger, which is what the log records. Most of
them only read (`Reads`): they issue no ticket and use none.
-/

namespace CalvoProxy

open List World QuotaLedger

open QuotaLedger (LedgerEvent)

variable {op : Op} {quota : QuotaLedger} {res : Res} {t : Tick}
  {cfg : Settings} {attempt : ModelAttempt} {w w' : World} {ticket : Option QuotaTicket}

/-- `w'` comes from `w` by the calls `es` on the ledger. -/
structure QuotaRun (w w' : World) (es : List LedgerEvent) : Prop where
  run : Machine.Run step w.service.quota es w'.service.quota
  log : w'.log = w.log ++ es.map Effect.ledger
  service : w'.service = { w.service with quota := w'.service.quota }

def QuietCall (e : LedgerEvent) : Prop := e.output.issued = none ∧ e.input.uses = none

/-- `w'` comes from `w` by quiet calls on the ledger. -/
structure Reads (w w' : World) : Prop where
  calls : ∃ es, QuotaRun w w' es ∧ ∀ e ∈ es, QuietCall e
  attempts : w'.attempts = w.attempts
  unavailable : w'.unavailable = w.unavailable

namespace QuotaRun

variable {w'' : World} {es es' : List LedgerEvent}

theorem refl (w : World) : QuotaRun w w [] := ⟨.start, by simp, rfl⟩

theorem trans (h : QuotaRun w w' es) (h' : QuotaRun w' w'' es') : QuotaRun w w'' (es ++ es') where
  run := h.run.append h'.run
  log := by rw [h'.log, h.log, map_append, append_assoc]
  service := by rw [h'.service, h.service]

theorem recordCall (h : w.service.quota.step op = some (quota, res)) :
    QuotaRun w (w.recordCall op quota res) [⟨w.service.quota, op, res⟩] where
  run := Machine.Run.start.next h
  log := rfl
  service := rfl

variable (h : QuotaRun w w' es)
include h

theorem modelBreakers : w'.service.modelBreakers = w.service.modelBreakers := by rw [h.service]

theorem providerBreakers :
    w'.service.providerBreakers = w.service.providerBreakers := by rw [h.service]

theorem scoreAttempts : w'.service.scoreAttempts = w.service.scoreAttempts := by rw [h.service]

theorem tickets (hquiet : ∀ e ∈ es, QuietCall e) : w'.service.quota.self = w.service.quota.self ∧
      w'.service.quota.tickets = w.service.quota.tickets := by
  refine h.run.invariant (Q := QuietCall) (P := fun l =>
    l.self = w.service.quota.self ∧ l.tickets = w.service.quota.tickets) ?_ ⟨rfl, rfl⟩ hquiet
  intro s op s' res ih hq hstep
  obtain ⟨hself, hticket⟩ := step_tickets hstep
  refine ⟨hself.trans ih.1, ?_⟩
  cases hticket with
  | idle htickets => exact htickets.trans ih.2
  | issue id state hissued => exact nomatch hq.1.symm.trans hissued
  | consume t hused => exact nomatch hq.2.symm.trans hused

end QuotaRun

namespace Reads

variable {w'' : World}

theorem refl (w : World) : Reads w w := ⟨⟨[], .refl w, fun _ h => (nomatch h)⟩, rfl, rfl⟩

theorem trans (h : Reads w w') (h' : Reads w' w'') : Reads w w'' := by
  obtain ⟨es, hrun, hquiet⟩ := h.calls
  obtain ⟨es', hrun', hquiet'⟩ := h'.calls
  refine ⟨⟨es ++ es', hrun.trans hrun', fun e he => ?_⟩, h'.attempts.trans h.attempts,
    h'.unavailable.trans h.unavailable⟩
  rcases mem_append.mp he with he | he
  · exact hquiet e he
  · exact hquiet' e he

theorem recordCall (h : w.service.quota.step op = some (quota, res)) (hissued : res.issued = none)
    (huses : op.uses = none) : Reads w (w.recordCall op quota res) := by
  refine ⟨⟨_, QuotaRun.recordCall h, fun e he => ?_⟩, rfl, rfl⟩
  cases mem_singleton.mp he
  exact ⟨hissued, huses⟩

theorem observe (w : World) (key : QuotaBucketKey) (o : QuotaObservation) (now : Time) :
    Reads w (w.observe key o now) := recordCall rfl rfl rfl

theorem snapshot (w : World) (key : QuotaBucketKey) (now : Time) :
    Reads w (w.snapshot key now).1 := recordCall rfl rfl rfl

theorem keys (w : World) (now : Time) : Reads w (w.keys now).1 := recordCall rfl rfl rfl

theorem observeIfUnknown (now : Time) (w : World) (published : PublishedLimit) :
    Reads w (w.observeIfUnknown now published) := by
  obtain ⟨key, limit, reset⟩ := published
  simp only [World.observeIfUnknown]
  split
  · exact .refl w
  have hread := snapshot w key now
  split
  · next w' _ heq => rwa [heq] at hread
  · next w' heq =>
    rw [heq] at hread
    exact hread.trans (observe w' _ _ _)

end Reads

theorem Inquiry.reads {K : QuotaBucketKey → Prop} {C : String → Prop} {now : Time} {α : Type}
    {Q : α → Prop} {f : World → World × α} (h : Inquiry K C now Q f) (w : World) :
    Reads w (f w).1 := by
  induction h generalizing w with
  | pure _ => exact .refl w
  | install _ _ _ ih => exact (Reads.observeIfUnknown now w _).trans (ih _)
  | snapshot _ _ ih => exact (Reads.snapshot w _ now).trans (ih _ _)
  | keys hP _ ih =>
    exact (Reads.keys w now).trans (ih _ (fun key hk => hP key (mem_filter.mp hk).2) _)
  | cooldown _ _ ih => exact ih _ w

namespace Reads

theorem quotaReservations (cfg : Settings) (attempt : ModelAttempt) (credential : String)
    (estimate : QuotaEstimate) (now : Time) (w : World) :
    Reads w (w.quotaReservations cfg attempt credential estimate now).1 :=
  (Inquiry.reservations cfg attempt credential estimate now).reads w

theorem quotaRetryAfterForAttempts (cfg : Settings) (estimate : QuotaEstimate) (now : Time)
    (attempts : List ModelAttempt) (soonest : Duration) (w : World) :
    Reads w (quotaRetryAfterForAttempts cfg estimate now attempts soonest w).1 :=
  (Inquiry.quotaRetryAfter cfg estimate now attempts soonest).reads w

theorem observeFacts (cfg : Settings) (credential : String) (now : Time)
    (os : List ProviderQuotaObservation) (facts : GoMap QuotaBucketKey QuotaObservation)
    (w : World) : Reads w (observeFacts cfg credential now os facts w).1 := by
  induction os generalizing facts w with
  | nil => exact .refl w
  | cons o os ih =>
    unfold World.observeFacts
    split
    · exact ih facts w
    · exact (observe w _ _ now).trans (ih _ _)

end Reads

/-! ## Calls with tickets -/

namespace QuotaRun

theorem release (w : World) (ticket : QuotaTicket) (t : Tick) :
    QuotaRun w (w.release ticket t) [⟨w.service.quota, .release ticket t.now t.order,
      .done (w.service.quota.release ticket t.now t.order).2⟩] := recordCall rfl

theorem reconcile (w : World) (ticket : QuotaTicket) (settlements : List QuotaSettlement)
    (t : Tick) : QuotaRun w (w.reconcile ticket settlements t)
      [⟨w.service.quota, .reconcile ticket settlements t.now t.order,
        .done (w.service.quota.reconcile ticket settlements t.now t.order).2⟩] := recordCall rfl

theorem reserveAll {rs : List QuotaReservation} (h : w.reserveAll rs t = some (w', ticket)) :
    QuotaRun w w' [⟨w.service.quota, .reserveAll rs t.now t.order, .ticket ticket⟩] ∧
      w'.attempts = w.attempts ∧ w'.unavailable = w.unavailable := by
  obtain ⟨⟨quota, ticket'⟩, hreserve, heq⟩ := Option.map_eq_some_iff.mp h
  cases heq
  refine ⟨recordCall ?_, rfl, rfl⟩
  simp only [step, hreserve, Option.map_some]

end QuotaRun

/-- `w'` comes from `w` by quiet calls and a reservation that gave `ticket`. -/
inductive Reserves (w w' : World) (ticket : Option QuotaTicket) : Prop
  | intro {w1 : World} {rs : List QuotaReservation} {t : Tick} (hread : Reads w w1)
      (hreserve : w1.reserveAll rs t = some (w', ticket))

namespace Reserves

theorem calls (h : Reserves w w' ticket) : ∃ es e, QuotaRun w w' (es ++ [e]) ∧
    (∀ e ∈ es, QuietCall e) ∧ e.output.issued = ticket ∧ e.input.uses = none := by
  obtain ⟨hread, hreserve⟩ := h
  obtain ⟨es, hrun, hquiet⟩ := hread.calls
  exact ⟨es, _, hrun.trans (QuotaRun.reserveAll hreserve).1, hquiet, rfl, rfl⟩

theorem attempts (h : Reserves w w' ticket) : w'.attempts = w.attempts := by
  obtain ⟨hread, hreserve⟩ := h
  exact (QuotaRun.reserveAll hreserve).2.1.trans hread.attempts

theorem unavailable (h : Reserves w w' ticket) : w'.unavailable = w.unavailable := by
  obtain ⟨hread, hreserve⟩ := h
  exact (QuotaRun.reserveAll hreserve).2.2.trans hread.unavailable

theorem reads (h : Reserves w w' none) : Reads w w' := by
  obtain ⟨es, e, hrun, hquiet, hissued, huses⟩ := h.calls
  refine ⟨⟨es ++ [e], hrun, fun e' he' => ?_⟩, h.attempts, h.unavailable⟩
  rcases mem_append.mp he' with hold | hnew
  · exact hquiet e' hold
  · rw [mem_singleton.mp hnew]
    exact ⟨hissued, huses⟩

end Reserves

inductive Reservation (w w' : World) : Option QuotaTicket → Prop
  | refused (h : Reads w w') : Reservation w w' none
  | drawn {t : QuotaTicket} (h : Reserves w w' (some t)) : Reservation w w' (some t)

theorem Reservation.afterReads {w1 : World} (hread : Reads w w1) (h : Reservation w1 w' ticket) :
    Reservation w w' ticket := by
  cases h with
  | refused hread' => exact .refused (hread.trans hread')
  | drawn h =>
    obtain ⟨hread', hreserve⟩ := h
    exact .drawn ⟨hread.trans hread', hreserve⟩

theorem Drawing.reservation {K : QuotaBucketKey → Prop} {C : String → Prop} {now : Time} {α : Type}
    {Q : α → Prop} {f : World → Option (World × Option (QuotaTicket × α))}
    {out : Option (QuotaTicket × α)} (h : Drawing K C now Q f) (hf : f w = some (w', out)) :
    Reservation w w' (out.map Prod.fst) ∧ ∀ p ∈ out, Q p.2 := by
  induction h generalizing w with
  | nothing =>
    cases hf
    exact ⟨.refused (.refl _), fun _ hp => nomatch hp⟩
  | inquire hg _ ih =>
    exact (ih _ (hg.result w) hf).imp_left (Reservation.afterReads (hg.reads w))
  | reserve hrs ht ha _ ih =>
    obtain ⟨⟨w1, ticket⟩, hreserve, hout⟩ := Option.bind_eq_some_iff.mp hf
    have hfirst : Reserves w w1 ticket := ⟨.refl w, hreserve⟩
    cases ticket with
    | none => exact (ih hout).imp_left (Reservation.afterReads hfirst.reads)
    | some t =>
      cases hout
      exact ⟨.drawn hfirst, fun _ hp => Option.some.inj hp ▸ ha⟩

theorem World.reserveFallbackQuota_cases {credential : String} {estimate : QuotaEstimate}
    (h : w.reserveFallbackQuota cfg attempt credential estimate t = some (w', ticket)) :
    Reservation w w' ticket := by
  have hdrawn := ((Drawing.fallback cfg estimate attempt credential t).reservation
    (congrArg (Option.map _) h)).1
  cases ticket <;> exact hdrawn

theorem World.reserveQuota_cases {baseEstimate : QuotaEstimate}
    (h : w.reserveQuota cfg baseEstimate attempt t = some (w', ticket)) :
    Reservation w w' ticket := by
  unfold reserveQuota at h
  split at h
  · cases h
    exact .refused (.refl _)
  · exact reserveFallbackQuota_cases h

theorem World.observeAndSettleQuota_eq (cfg : Settings) (ticket : QuotaTicket)
    (attempt : ModelAttempt) (credential : String) (status : Int) (header : String → String)
    (body : ErrorBody) (actualTokens : Int64) (t : Tick) (w : World) :
    let observations := observeProviderQuota cfg attempt.provider attempt.model status header body t.now
    let r := observeFacts cfg credential t.now observations ∅ w
    w.observeAndSettleQuota cfg ticket attempt credential status header body actualTokens t =
      (if ticket.valid then r.1.reconcile ticket ((r.1.service.quota.reservations ticket).map
        (settlementFor attempt actualTokens r.2)) t else r.1, observations) := by
  simp only [observeAndSettleQuota]
  cases ticket.valid <;> rfl

end CalvoProxy
