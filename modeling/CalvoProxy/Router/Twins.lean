import CalvoProxy.Quota.Alike
import CalvoProxy.Router.Holding

/-!
# Inquiries and drawings in two worlds

An inquiry is a run of quiet calls on the keys it names (`Inquiry.visits`). Two worlds alike in what
it uses give it one answer (`Inquiry.agrees`), and a drawing corresponding tickets
(`Drawing.agrees`).
-/

namespace CalvoProxy

open QuotaLedger List RouterService

variable {key : QuotaBucketKey} {α : Type} {attempt : ModelAttempt} {credential : String}
  {chain chain1 chain2 attempts : List ModelAttempt} {round : HoldRound} {cfg : Settings}
  {rs : List QuotaReservation} {w w' : World} {t : Tick}

/-! ## Runs of quiet calls -/

theorem QuotaRun.sound {es : List LedgerEvent} (h : QuotaRun w w' es)
    (hs : w.service.quota.Sound) : w'.service.quota.Sound :=
  h.run.invariant (P := Sound) (Q := fun _ => True)
    (fun _ _ _ _ hs _ hstep => hs.step hstep) hs fun _ _ => trivial

theorem Reads.sound (h : Reads w w') (hs : w.service.quota.Sound) : w'.service.quota.Sound := by
  obtain ⟨es, hrun, -⟩ := h.calls
  exact hrun.sound hs

theorem Reads.cooldowns (h : Reads w w') :
    w'.service.quotaCooldowns = w.service.quotaCooldowns := by
  obtain ⟨es, hrun, -⟩ := h.calls
  rw [hrun.service]

theorem Reads.held (h : Reads w w') (t : QuotaTicket) :
    w'.service.quota.held t = w.service.quota.held t := by
  obtain ⟨es, hrun, hquiet⟩ := h.calls
  obtain ⟨hself, htickets⟩ := hrun.tickets hquiet
  exact held_congr hself htickets t

section Calls

variable {K : QuotaBucketKey → Prop} {C : String → Prop} {now : Time} {Q : α → Prop}
  {f : World → World × α}

theorem QuotaLedger.Visits.snapshot (hkey : K key) (l : QuotaLedger) :
    Visits K now l (l.snapshot key now).1 :=
  .call (i := .snapshot key now) rfl rfl rfl fun _ hk => mem_singleton.mp hk ▸ hkey

theorem QuotaLedger.Visits.observe (hkey : K key) (o : QuotaObservation) (l : QuotaLedger) :
    Visits K now l (l.observe key o now).1 :=
  .call (i := .observe key o now) rfl rfl rfl fun _ hk => mem_singleton.mp hk ▸ hkey

theorem QuotaLedger.Visits.observeIfUnknown {p : PublishedLimit} (hkey : K p.1) (w : World) :
    Visits K now w.service.quota (w.observeIfUnknown now p).service.quota := by
  obtain ⟨key, limit, reset⟩ := p
  have hread : Visits K now w.service.quota (w.snapshot key now).1.service.quota :=
    .snapshot hkey w.service.quota
  simp only [World.observeIfUnknown]
  split
  · exact .refl _
  generalize w.snapshot key now = r at hread
  obtain ⟨w', _ | s⟩ := r
  · exact hread.trans (.observe hkey _ w'.service.quota)
  · exact hread

theorem Inquiry.visits (h : Inquiry K C now Q f) (w : World) :
    Visits K now w.service.quota (f w).1.service.quota := by
  induction h generalizing w with
  | pure _ => exact .refl _
  | install hkey _ _ ih => exact (Visits.observeIfUnknown hkey w).trans (ih _)
  | snapshot hkey _ ih =>
    exact (Visits.snapshot hkey w.service.quota).trans (ih _ (w.snapshot _ now).1)
  | keys hP _ ih =>
    refine Visits.trans (.call (i := .keys now) rfl rfl rfl fun key hk => ?_)
      (ih _ ?_ (w.keys now).1)
    · exact absurd hk not_mem_nil
    · exact fun key hk => hP key (mem_filter.mp hk).2
  | cooldown _ _ ih => exact ih _ w

/-- What the calls of an inquiry do to a sound ledger, it does. -/
theorem Inquiry.relates {R : QuotaLedger → QuotaLedger → Prop} (hrefl : ∀ l, R l l)
    (htrans : ∀ {l l' l''}, R l l' → R l' l'' → R l l'')
    (hinstall : ∀ {w : World} {p : PublishedLimit}, w.service.quota.Sound → now < p.2.2 →
      R w.service.quota (w.observeIfUnknown now p).service.quota)
    (hsnapshot : ∀ l key, R l (l.snapshot key now).1) (hkeys : ∀ l, R l (l.purgeExpiredLocked now))
    (h : Inquiry K C now Q f) {w : World} (hs : w.service.quota.Sound) :
    R w.service.quota (f w).1.service.quota := by
  induction h generalizing w with
  | pure _ => exact hrefl _
  | @install p _ hreset _ _ ih =>
    exact htrans (hinstall hs hreset) (ih ((Reads.observeIfUnknown now w p).sound hs))
  | @snapshot key _ _ _ ih =>
    exact htrans (hsnapshot _ key) (ih _ ((Reads.snapshot w key now).sound hs))
  | keys hP _ ih =>
    exact htrans (hkeys _)
      (ih _ (fun key hk => hP key (mem_filter.mp hk).2) ((Reads.keys w now).sound hs))
  | cooldown _ _ ih => exact ih _ hs

/-- The facts of a response are about keys in `K`. -/
def FactsIn (K : QuotaBucketKey → Prop) (cfg : Settings) (credential : String)
    (os : List ProviderQuotaObservation) : Prop :=
  ∀ o ∈ os, ∀ key fact, o.ledgerFact = some (key, fact) →
    K { key with scope := credentialQuotaScope cfg o.scope.text credential }

theorem observeFacts_visits {os : List ProviderQuotaObservation} (hos : FactsIn K cfg credential os)
    (facts : GoMap QuotaBucketKey QuotaObservation) (w : World) : Visits K now w.service.quota
      (w.observeFacts cfg credential now os facts).1.service.quota := by
  induction os generalizing facts w with
  | nil => exact .refl _
  | cons o os ih =>
    have hrest : FactsIn K cfg credential os := fun o' ho' => hos o' (mem_cons_of_mem o ho')
    unfold World.observeFacts
    split
    · exact ih hrest facts w
    · next key fact hfact =>
      exact Visits.trans (.observe (hos o mem_cons_self key fact hfact) _ _)
        (ih hrest _ (w.observe ..))

end Calls

/-! ## Inquiries in two worlds -/

structure Twins (low : QuotaBucketKey → Prop) [DecidablePred low] (C : String → Prop) (now : Time)
    (w1 w2 : World) : Prop where
  alike : AlikeAt low now w1.service.quota w2.service.quota
  sound1 : w1.service.quota.Sound
  sound2 : w2.service.quota.Sound
  cooldown : ∀ name, C name →
    w1.service.quotaCooldowns.lookup name = w2.service.quotaCooldowns.lookup name

/-- Two worlds that look alike made quiet calls and still look alike. -/
structure Same (low : QuotaBucketKey → Prop) [DecidablePred low] (now : Time)
    (w1 w1' w2 w2' : World) : Prop where
  moved : MovedAt low now w1.service.quota w1'.service.quota w2.service.quota w2'.service.quota
  reads1 : Reads w1 w1'
  reads2 : Reads w2 w2'

section Two

variable {low : QuotaBucketKey → Prop} [DecidablePred low] {C : String → Prop} {now : Time}
  {w1 w1' w1'' w2 w2' w2'' : World}

theorem Same.refl (h : Twins low C now w1 w2) : Same low now w1 w1 w2 w2 :=
  ⟨.refl h.alike, .refl w1, .refl w2⟩

theorem Same.trans (h : Same low now w1 w1' w2 w2') (h' : Same low now w1' w1'' w2' w2'') :
    Same low now w1 w1'' w2 w2'' :=
  ⟨h.moved.trans h'.moved, h.reads1.trans h'.reads1, h.reads2.trans h'.reads2⟩

theorem Same.twins (h : Same low now w1 w1' w2 w2') (ht : Twins low C now w1 w2) :
    Twins low C now w1' w2' where
  alike := h.moved.alike
  sound1 := h.reads1.sound ht.sound1
  sound2 := h.reads2.sound ht.sound2
  cooldown := by
    rw [h.reads1.cooldowns, h.reads2.cooldowns]
    exact ht.cooldown

theorem Twins.observe (ht : Twins low C now w1 w2) (hkey : low key) (o : QuotaObservation) :
    Same low now w1 (w1.observe key o now) w2 (w2.observe key o now) :=
  ⟨.observe ht.alike ht.sound1.pointed ht.sound2.pointed hkey o, .observe w1 key o now,
    .observe w2 key o now⟩

theorem Twins.snapshot (ht : Twins low C now w1 w2) (hkey : low key) :
    Same low now w1 (w1.snapshot key now).1 w2 (w2.snapshot key now).1 ∧
      (w1.snapshot key now).2 = (w2.snapshot key now).2 :=
  (MovedAt.snapshot ht.alike hkey).imp_left fun hmoved =>
    ⟨hmoved, .snapshot w1 key now, .snapshot w2 key now⟩

theorem Twins.observeIfUnknown {p : PublishedLimit} (ht : Twins low C now w1 w2) (hkey : low p.1) :
    Same low now w1 (w1.observeIfUnknown now p) w2 (w2.observeIfUnknown now p) := by
  obtain ⟨key, limit, reset⟩ := p
  obtain ⟨hread, hsame⟩ := ht.snapshot hkey
  simp only [World.observeIfUnknown]
  split
  · exact .refl ht
  dsimp only at hread hsame
  generalize w1.snapshot key now = r1 at hread hsame
  generalize w2.snapshot key now = r2 at hread hsame
  obtain ⟨v1, s⟩ := r1
  obtain ⟨v2, s'⟩ := r2
  cases hsame
  cases s with
  | some s => exact hread
  | none => exact hread.trans ((hread.twins ht).observe hkey _)

theorem Inquiry.agrees {Q : α → Prop} {f : World → World × α}
    (h : Inquiry low C now Q f) (ht : Twins low C now w1 w2) :
    Same low now w1 (f w1).1 w2 (f w2).1 ∧ (f w1).2 = (f w2).2 := by
  induction h generalizing w1 w2 with
  | pure _ => exact ⟨.refl ht, rfl⟩
  | install hkey _ _ ih =>
    have hone := ht.observeIfUnknown hkey
    exact (ih (hone.twins ht)).imp_left hone.trans
  | @snapshot key hkey f _ ih =>
    obtain ⟨hone, hsame⟩ := ht.snapshot hkey
    simp only
    rw [← hsame]
    exact (ih _ (hone.twins ht)).imp_left hone.trans
  | @keys P hP f _ ih =>
    have hone : Same low now w1 (w1.keys now).1 w2 (w2.keys now).1 :=
      ⟨.purge ht.alike, .keys w1 now, .keys w2 now⟩
    have hpick : ∀ w : World, (w.keys now).2.filter P =
        ((w.keys now).2.filter fun key => low key).filter P := by
      intro w
      rw [filter_filter]
      refine filter_congr fun key _ => ?_
      cases hkey : P key with
      | false => rfl
      | true => simp [hP key hkey]
    have hsame : (w1.keys now).2.filter P = (w2.keys now).2.filter P := by
      rw [hpick w1, hpick w2]
      exact congrArg _ ht.alike.callerKeys
    simp only
    rw [← hsame]
    exact (ih _ (fun key hk => hP key (mem_filter.mp hk).2) (hone.twins ht)).imp_left hone.trans
  | cooldown hname _ ih =>
    simp only
    rw [← ht.cooldown _ hname]
    exact ih _ ht

theorem observeFacts_agrees {os : List ProviderQuotaObservation}
    (hos : FactsIn low cfg credential os) (ht : Twins low C now w1 w2)
    (facts : GoMap QuotaBucketKey QuotaObservation) :
    Same low now w1 (w1.observeFacts cfg credential now os facts).1 w2
        (w2.observeFacts cfg credential now os facts).1 ∧
      (w1.observeFacts cfg credential now os facts).2 =
        (w2.observeFacts cfg credential now os facts).2 := by
  induction os generalizing facts w1 w2 with
  | nil => exact ⟨.refl ht, rfl⟩
  | cons o os ih =>
    have hrest : FactsIn low cfg credential os := fun o' ho' => hos o' (mem_cons_of_mem o ho')
    unfold World.observeFacts
    cases hfact : o.ledgerFact with
    | none => exact ih hrest ht facts
    | some p =>
      have hone := ht.observe (hos o mem_cons_self p.1 p.2 hfact)
      exact (ih hrest ((hone _).twins ht) _).imp_left (hone _).trans

end Two

/-! ## Drawings -/

/-- Asking for a ticket: calls within `K`, and a ticket that is new. -/
structure Draws (K : QuotaBucketKey → Prop) (now : Time) (w w' : World)
    (out : Option QuotaTicket) : Prop where
  visits : Visits K now w.service.quota w'.service.quota
  cooldowns : w'.service.quotaCooldowns = w.service.quotaCooldowns
  issued : ∀ t, out = some t → Issued K w.service.quota w'.service.quota t

structure Paired (low : QuotaBucketKey → Prop) [DecidablePred low] (now : Time)
    (w1 w1' w2 w2' : World) (out1 out2 : Option QuotaTicket) : Prop where
  moved : MovedAt low now w1.service.quota w1'.service.quota w2.service.quota w2'.service.quota
  tickets : TicketsAlike low now w1'.service.quota w2'.service.quota out1 out2

namespace Draws

variable {K : QuotaBucketKey → Prop} {now : Time} {w1 : World} {out : Option QuotaTicket}

theorem afterReads (hv : Visits K now w.service.quota w1.service.quota) (hr : Reads w w1)
    (h : Draws K now w1 w' out) : Draws K now w w' out where
  visits := hv.trans h.visits
  cooldowns := h.cooldowns.trans hr.cooldowns
  issued := fun t ht => ⟨(hr.held t).symm.trans (h.issued t ht).fresh, (h.issued t ht).held⟩

theorem reserveAll (hrs : ∀ r ∈ rs, K r.key)
    (h : w.reserveAll rs t = some (w', out)) : Draws K t.now w w' out := by
  obtain ⟨⟨quota, out'⟩, hreserve, heq⟩ := Option.map_eq_some_iff.mp h
  cases heq
  have hstep : w.service.quota.step (.reserveAll rs t.now t.order) = some (quota, .ticket out') := by
    simp only [QuotaLedger.step, hreserve, Option.map_some]
  refine ⟨.call hstep rfl rfl fun key hkey => ?_, rfl, ?_⟩
  · obtain ⟨r, hr, rfl⟩ := mem_map.mp hkey
    exact hrs r hr
  · rintro ticket rfl
    exact reserveAll_issued hrs hreserve

end Draws

theorem Drawing.draws {K : QuotaBucketKey → Prop} {C : String → Prop} {now : Time} {Q : α → Prop}
    {f : World → Option (World × Option (QuotaTicket × α))} {out : Option (QuotaTicket × α)}
    (h : Drawing K C now Q f) (hf : f w = some (w', out)) : Draws K now w w' (out.map Prod.fst) := by
  induction h generalizing w with
  | nothing =>
    cases hf
    exact ⟨.refl _, rfl, fun _ ht => nomatch ht⟩
  | inquire hg _ ih => exact (ih _ (hg.result w) hf).afterReads (hg.visits w) (hg.reads w)
  | reserve hrs ht _ _ ih =>
    obtain ⟨⟨w1, ticket⟩, hreserve, hout⟩ := Option.bind_eq_some_iff.mp hf
    have hone := ht ▸ Draws.reserveAll hrs hreserve
    cases ticket with
    | none => exact (ih hout).afterReads hone.visits (Reserves.intro (.refl w) hreserve).reads
    | some t =>
      cases hout
      exact hone

theorem Drawing.agrees {low : QuotaBucketKey → Prop} [DecidablePred low] {C : String → Prop}
    {now : Time} {Q : α → Prop} {f : World → Option (World × Option (QuotaTicket × α))}
    {w1 w1' w2 w2' : World} {out1 out2 : Option (QuotaTicket × α)} (h : Drawing low C now Q f)
    (ht : Twins low C now w1 w2) (h1 : f w1 = some (w1', out1)) (h2 : f w2 = some (w2', out2)) :
    Paired low now w1 w1' w2 w2' (out1.map Prod.fst) (out2.map Prod.fst) ∧
      out1.map Prod.snd = out2.map Prod.snd := by
  induction h generalizing w1 w2 with
  | nothing =>
    cases h1
    cases h2
    exact ⟨⟨.refl ht.alike, .none⟩, rfl⟩
  | inquire hg _ ih =>
    obtain ⟨hsame, hresult⟩ := hg.agrees ht
    simp only [hresult] at h1
    obtain ⟨hrest, heq⟩ := ih _ (hg.result w2) (hsame.twins ht) h1 h2
    exact ⟨⟨hsame.moved.trans hrest.moved, hrest.tickets⟩, heq⟩
  | @reserve rs hrs t hnow a _ f _ ih =>
    subst hnow
    obtain ⟨⟨u1, ticket1⟩, hr1, hout1⟩ := Option.bind_eq_some_iff.mp h1
    obtain ⟨⟨u2, ticket2⟩, hr2, hout2⟩ := Option.bind_eq_some_iff.mp h2
    have hread1 := Reserves.intro (.refl w1) hr1
    have hread2 := Reserves.intro (.refl w2) hr2
    obtain ⟨quota1, hquota1, heq1⟩ := Option.map_eq_some_iff.mp hr1
    obtain ⟨quota2, hquota2, heq2⟩ := Option.map_eq_some_iff.mp hr2
    obtain ⟨hmoved, htickets⟩ := MovedAt.reserveAll ht.alike ht.sound1.pointed ht.sound2.pointed hrs
      hquota1 hquota2
    cases heq1
    cases heq2
    generalize quota1.2 = ticket1 at htickets hread1 hout1
    generalize quota2.2 = ticket2 at htickets hread2 hout2
    cases htickets with
    | none =>
      have hone : Same low t.now w1 _ w2 _ := ⟨hmoved, hread1.reads, hread2.reads⟩
      obtain ⟨hrest, heq⟩ := ih (hone.twins ht) hout1 hout2
      exact ⟨⟨hmoved.trans hrest.moved, hrest.tickets⟩, heq⟩
    | some hpair =>
      cases hout1
      cases hout2
      exact ⟨⟨hmoved, .some hpair⟩, rfl⟩

end CalvoProxy
