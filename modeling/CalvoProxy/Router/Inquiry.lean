import CalvoProxy.Router.Accounts
import CalvoProxy.Router.Dispatch

/-!
# Inquiries and drawings

What the quota routing does to the ledger, as programs. An inquiry issues no ticket: it takes
snapshots of buckets, picks among the keys, reads cooldowns and installs published limits. A drawing
makes inquiries and asks for reservations until one is granted.
-/

namespace CalvoProxy

open QuotaLedger List RouterService

variable {key : QuotaBucketKey} {α β : Type} {attempt : ModelAttempt} {credential : String}
  {attempts : List ModelAttempt} {rs : List QuotaReservation} {cfg : Settings}
  {K : QuotaBucketKey → Prop} {C : String → Prop} {now : Time} {Q : α → Prop} {R : β → Prop}

theorem World.mem_interleave {a : ModelAttempt} {groups : List ProviderGroup}
    (h : a ∈ interleave groups) : ∃ g ∈ groups, a ∈ g.attempts := by
  obtain ⟨d, -, hd⟩ := mem_flatMap.mp h
  obtain ⟨g, hg, hat⟩ := mem_filterMap.mp hd
  exact ⟨g, hg, mem_of_getElem? hat⟩

/-- The computation takes snapshots of keys in `K`, picks among them, reads cooldowns in `C`, and
installs published limits that end after `now`; its result is in `Q`. -/
inductive Inquiry (K : QuotaBucketKey → Prop) (C : String → Prop) (now : Time) {α : Type}
    (Q : α → Prop) : (World → World × α) → Prop
  | pure {a : α} (ha : Q a) : Inquiry K C now Q fun w => (w, a)
  | install {published : PublishedLimit} (hkey : K published.1) (hreset : now < published.2.2)
      {f : World → World × α} (h : Inquiry K C now Q f) :
      Inquiry K C now Q fun w => f (w.observeIfUnknown now published)
  | snapshot {key : QuotaBucketKey} (hkey : K key) {f : Option QuotaSnapshot → World → World × α}
      (h : ∀ s, Inquiry K C now Q (f s)) :
      Inquiry K C now Q fun w => f (w.snapshot key now).2 (w.snapshot key now).1
  | keys {P : QuotaBucketKey → Bool} (hP : ∀ key, P key = true → K key)
      {f : List QuotaBucketKey → World → World × α}
      (h : ∀ ks, (∀ key ∈ ks, K key) → Inquiry K C now Q (f ks)) :
      Inquiry K C now Q fun w => f ((w.keys now).2.filter P) (w.keys now).1
  | cooldown {name : String} (hname : C name) {f : Option Time → World → World × α}
      (h : ∀ t, Inquiry K C now Q (f t)) :
      Inquiry K C now Q fun w => f (w.service.quotaCooldowns.lookup name) w

namespace Inquiry

theorem bind {f : World → World × α} {g : α → World → World × β} (hf : Inquiry K C now Q f)
    (hg : ∀ a, Q a → Inquiry K C now R (g a)) :
    Inquiry K C now R fun w => g (f w).2 (f w).1 := by
  induction hf with
  | pure ha => exact hg _ ha
  | install hkey hreset _ ih => exact .install hkey hreset ih
  | @snapshot key hkey f _ ih =>
    exact .snapshot (f := fun s w => g (f s w).2 (f s w).1) hkey ih
  | @keys P hP f _ ih => exact .keys (f := fun ks w => g (f ks w).2 (f ks w).1) hP ih
  | @cooldown name hname f _ ih =>
    exact .cooldown (f := fun t w => g (f t w).2 (f t w).1) hname ih

theorem congr {f g : World → World × α} (h : Inquiry K C now Q g) (heq : ∀ w, f w = g w) :
    Inquiry K C now Q f := by
  rw [funext heq]
  exact h

/-- A computation that starts with the inquiry `f` and goes on by its answer. -/
theorem cases {f : World → World × α} {g : World → World × β} (hf : Inquiry K C now Q f)
    (h : ∀ a, ∃ g', (Q a → Inquiry K C now R g') ∧ ∀ w w', f w = (w', a) → g w = g' w') :
    Inquiry K C now R g := by
  choose g' hg' heq using h
  exact (hf.bind hg').congr fun w => heq _ w _ rfl

theorem look (hkey : K key) : Inquiry K C now (fun _ => True) fun w => w.snapshot key now :=
  .snapshot (f := fun s w => (w, s)) hkey fun _ => .pure trivial

theorem available (hname : C (quotaCooldownKey cfg attempt)) : Inquiry K C now (fun _ => True)
    fun w => (w, w.service.quotaAttemptAvailable cfg attempt now) :=
  .cooldown (f := fun t w => (w, !Time.after (t.getD 0) now)) hname fun _ => .pure trivial

theorem remaining (hname : C (quotaCooldownKey cfg attempt)) : Inquiry K C now (fun _ => True)
    fun w => (w, w.service.quotaCooldownRemaining cfg attempt now) :=
  .cooldown (f := fun t w => (w, if Time.after (t.getD 0) now then t.getD 0 - now else 0)) hname
    fun _ => .pure trivial

theorem result {f : World → World × α} (h : Inquiry K C now Q f) (w : World) : Q (f w).2 := by
  induction h generalizing w with
  | pure ha => exact ha
  | install _ _ _ ih => exact ih _
  | snapshot _ _ ih => exact ih _ _
  | keys hP _ ih => exact ih _ (fun key hk => hP key (mem_filter.mp hk).2) _
  | cooldown _ _ ih => exact ih _ w

/-! ## The functions that issue no ticket -/

def Covers (K : QuotaBucketKey → Prop) (cfg : Settings) (attempt : ModelAttempt)
    (credential : String) : Prop :=
  ∀ key, (cfg.account attempt credential).owns key = true → K key

structure Admissible (K : QuotaBucketKey → Prop) (C : String → Prop) (cfg : Settings)
    (attempt : ModelAttempt) : Prop where
  keys : Covers K cfg attempt (cfg.providerCredential attempt)
  cooldown : C (quotaCooldownKey cfg attempt)

theorem ensureBootstrapQuota (hK : Covers K cfg attempt credential) :
    Inquiry K C now (fun _ => True)
      fun w => (w.ensureBootstrapQuota cfg attempt credential now, ()) := by
  unfold World.ensureBootstrapQuota
  have hkeys : ∀ p ∈ bootstrapLimits cfg attempt credential now, K p.1 :=
    fun p hp => hK p.1 (bootstrapLimits_owned cfg attempt credential now p hp)
  have hresets := bootstrapLimits_reset cfg attempt credential now
  generalize bootstrapLimits cfg attempt credential now = limits at hkeys hresets
  induction limits with
  | nil => exact .pure trivial
  | cons p limits ih =>
    exact .install (hkeys p mem_cons_self) (hresets p mem_cons_self)
      (ih (fun p' hp' => hkeys p' (mem_cons_of_mem _ hp'))
        fun p' hp' => hresets p' (mem_cons_of_mem _ hp'))

theorem quotaReservations (hK : Covers K cfg attempt credential) (estimate : QuotaEstimate) :
    Inquiry K C now (fun rs => ∀ r ∈ rs, K r.key)
      fun w => w.quotaReservations cfg attempt credential estimate now := by
  let cost := fun key : QuotaBucketKey =>
    if key.dimension = .tokens then (providerQuotaEstimate cfg attempt estimate).tokens
    else (providerQuotaEstimate cfg attempt estimate).requests
  refine (ensureBootstrapQuota hK).bind fun _ _ => .keys (f := fun ks w =>
      (w, (ks.filter fun key => 0 < cost key).map fun key => (⟨key, cost key⟩ : QuotaReservation)))
    (fun key hkey => hK key (limitsAttempt_owned cfg attempt credential hkey))
    fun ks hks => .pure fun r hr => ?_
  obtain ⟨key, hkey, rfl⟩ := mem_map.mp hr
  exact hks key (mem_filter.mp hkey).1

/-- The same on every key. -/
theorem reservations (cfg : Settings) (attempt : ModelAttempt) (credential : String)
    (estimate : QuotaEstimate) (now : Time) :
    Inquiry (fun _ => True) (fun _ => True) now (fun _ => True)
      fun w => w.quotaReservations cfg attempt credential estimate now :=
  (quotaReservations (K := fun _ => True) (fun _ _ => trivial) estimate).bind
    fun rs _ => .pure (a := rs) trivial

theorem allFit (hrs : ∀ r ∈ rs, K r.key) :
    Inquiry K C now (fun _ => True) (World.allFit now rs) := by
  induction rs with
  | nil => exact .pure trivial
  | cons r rs ih =>
    have hrest := ih fun r' hr' => hrs r' (mem_cons_of_mem _ hr')
    refine (look (hrs r mem_cons_self)).cases fun s => ?_
    cases s with
    | none => exact ⟨_, fun _ => hrest, fun w w' hs => by simp only [World.allFit, hs]⟩
    | some s =>
      refine ⟨_, fun _ => ?_, fun w w' hs => by simp only [World.allFit, hs]; rfl⟩
      split
      · exact hrest
      split
      · exact hrest
      · exact .pure trivial

theorem quotaCanFit (hK : Covers K cfg attempt credential) (estimate : QuotaEstimate) :
    Inquiry K C now (fun _ => True) fun w => w.quotaCanFit cfg attempt credential estimate now :=
  (quotaReservations hK estimate).bind fun _ hrs => allFit hrs

theorem fits (cfg : Settings) (attempt : ModelAttempt) (credential : String)
    (estimate : QuotaEstimate) (now : Time) :
    Inquiry (fun _ => True) (fun _ => True) now (fun _ => True)
      fun w => w.quotaCanFit cfg attempt credential estimate now :=
  quotaCanFit (fun _ _ => trivial) estimate

theorem pressureOf (hrs : ∀ r ∈ rs, K r.key) (pressure : Rat) :
    Inquiry K C now (fun _ => True) (World.pressureOf now rs pressure) := by
  induction rs generalizing pressure with
  | nil => exact .pure trivial
  | cons r rs ih =>
    have hrest := ih fun r' hr' => hrs r' (mem_cons_of_mem _ hr')
    refine (look (hrs r mem_cons_self)).cases fun s => ?_
    cases s with
    | none => exact ⟨_, fun _ => hrest pressure, fun w w' hs => by simp only [World.pressureOf, hs]⟩
    | some s =>
      refine ⟨_, fun _ => ?_, fun w w' hs => by simp only [World.pressureOf, hs]; rfl⟩
      split
      · exact hrest pressure
      split
      · exact .pure trivial
      · exact hrest _

theorem quotaPressure (hK : Covers K cfg attempt credential) (estimate : QuotaEstimate) :
    Inquiry K C now (fun _ => True)
      fun w => w.quotaPressure cfg attempt credential estimate now := by
  refine (quotaReservations hK estimate).cases fun rs =>
    ⟨_, fun hrs => ?_, fun w w' hs => by simp only [World.quotaPressure, hs]; rfl⟩
  split
  · exact .pure trivial
  · exact (pressureOf hrs 0).bind fun p _ => .pure (a := some p) trivial

theorem readyIn (rs : List QuotaReservation) (hrs : ∀ r ∈ rs, K r.key) (wait : Duration) :
    Inquiry K C now (fun _ => True) (World.readyIn now rs wait) := by
  induction rs generalizing wait with
  | nil => exact .pure trivial
  | cons r rs ih =>
    have hrest := ih fun r' hr' => hrs r' (mem_cons_of_mem _ hr')
    refine (look (hrs r mem_cons_self)).cases fun s => ?_
    cases s with
    | none => exact ⟨_, fun _ => hrest wait, fun w w' hs => by simp only [World.readyIn, hs]⟩
    | some s =>
      refine ⟨_, fun _ => ?_, fun w w' hs => by simp only [World.readyIn, hs]; rfl⟩
      split
      · exact hrest wait
      · exact hrest _

theorem quotaRetryAfter (cfg : Settings) (estimate : QuotaEstimate) (now : Time)
    (attempts : List ModelAttempt) (soonest : Duration) :
    Inquiry (fun _ => True) (fun _ => True) now (fun _ => True)
      (World.quotaRetryAfterForAttempts cfg estimate now attempts soonest) := by
  induction attempts generalizing soonest with
  | nil => exact .pure trivial
  | cons a rest ih =>
    exact (reservations cfg a _ estimate now).bind fun rs _ =>
      (remaining trivial).bind fun cooldown _ =>
        (readyIn rs (fun _ _ => trivial) cooldown).bind fun wait _ =>
          ih (if 0 < wait ∧ (soonest = 0 ∨ wait < soonest) then wait else soonest)

section Ranking

variable {P : ModelAttempt → Prop} (hP : ∀ a, P a → Admissible K C cfg a)
include hP

theorem quotaFitting (estimate : QuotaEstimate)
    (hall : ∀ a ∈ attempts, P { a with provider := cfg.normalizedProvider a }) :
    Inquiry K C now (fun fitting => ∀ a ∈ fitting, P a)
      (World.quotaFitting cfg estimate now attempts) := by
  induction attempts with
  | nil => exact .pure fun a ha => nomatch ha
  | cons a rest ih =>
    have hrest := ih fun a' ha' => hall a' (mem_cons_of_mem _ ha')
    have hfirst := hall a mem_cons_self
    have hadmissible := hP _ hfirst
    refine (available hadmissible.cooldown).cases fun opened => ?_
    cases opened with
    | false =>
      refine ⟨_, fun _ => hrest, fun w w' h => ?_⟩
      obtain ⟨rfl, hclosed⟩ := Prod.mk.inj h
      simp only [World.quotaFitting, hclosed, Bool.false_eq_true, if_false]
    | true =>
      refine ⟨_, fun _ => ?_, fun w w' h => by
        obtain ⟨rfl, hopen⟩ := Prod.mk.inj h
        simp only [World.quotaFitting, hopen, if_true]
        rfl⟩
      refine (quotaCanFit hadmissible.keys estimate).cases fun fits => ?_
      cases fits with
      | false => exact ⟨_, fun _ => hrest, fun w w' hfits => by simp only [hfits]⟩
      | true =>
        exact ⟨_, fun _ => hrest.bind fun fitting hfitting => .pure (a := _ :: fitting)
          (forall_mem_cons.mpr ⟨hfirst, hfitting⟩), fun w w' hfits => by simp only [hfits]⟩

theorem groupPressures (estimate : QuotaEstimate) {groups : List ProviderGroup}
    (hall : ∀ g ∈ groups, ∀ a ∈ g.attempts, P a) :
    Inquiry K C now (fun groups => ∀ g ∈ groups, ∀ a ∈ g.attempts, P a)
      (World.groupPressures cfg estimate now groups) := by
  induction groups with
  | nil => exact .pure fun g hg => nomatch hg
  | cons g rest ih =>
    have hrest := ih fun g' hg' => hall g' (mem_cons_of_mem _ hg')
    obtain ⟨provider, attempts, pressure⟩ := g
    cases attempts with
    | nil => exact hrest.congr fun w => by simp only [World.groupPressures]
    | cons a as =>
      have hfirst := hall _ mem_cons_self
      refine ((quotaPressure (hP a (hfirst a mem_cons_self)).keys estimate).bind fun p _ =>
        hrest.bind fun groups hgroups => .pure (a := ⟨provider, a :: as, p⟩ :: groups)
          fun g' hg' => ?_).congr fun w => by simp only [World.groupPressures]
      rcases mem_cons.mp hg' with rfl | hold
      · exact hfirst
      · exact hgroups g' hold

theorem ranked (round : HoldRound) (estimate : QuotaEstimate)
    (hall : ∀ a ∈ attempts, P { a with provider := cfg.normalizedProvider a }) :
    Inquiry K C round.rankNow (fun chain => ∀ a ∈ chain, P a) fun w =>
      let r := World.quotaFitting cfg estimate round.rankNow (round.rankBase attempts) w
      let r' := World.groupPressures cfg estimate round.rankNow (World.groupAttempts r.2) r.1
      (r'.1, World.interleave (round.sortGroups r'.2)) := by
  refine (quotaFitting hP estimate fun a ha =>
    hall a ((round.rankBase_perm attempts).mem_iff.mp ha)).bind (g := fun fitting w =>
      let r := World.groupPressures cfg estimate round.rankNow (World.groupAttempts fitting) w
      (r.1, World.interleave (round.sortGroups r.2))) fun fitting hfitting => ?_
  have hgroups : ∀ g ∈ World.groupAttempts fitting, ∀ a ∈ g.attempts, P a := by
    intro g hg a ha
    obtain ⟨p, -, rfl⟩ := mem_map.mp hg
    exact hfitting a (mem_filter.mp ha).1
  refine (groupPressures hP estimate hgroups).bind fun groups hgroups' =>
    .pure (a := World.interleave (round.sortGroups groups)) fun a ha => ?_
  obtain ⟨g, hg, hin⟩ := World.mem_interleave ha
  exact hgroups' g ((round.sortGroups_perm _).mem_iff.mp hg) a hin

end Ranking

end Inquiry

/-! ## The functions that ask for a ticket -/

def ModelAttempt.unticketed (a : ModelAttempt) : ModelAttempt := { a with quotaTicket := .zero }

/-- The computation makes inquiries, and asks for reservations in `K` until one is granted: its
ticket comes with a result in `Q` that does not depend on it. -/
inductive Drawing (K : QuotaBucketKey → Prop) (C : String → Prop) (now : Time) {α : Type}
    (Q : α → Prop) : (World → Option (World × Option (QuotaTicket × α))) → Prop
  | nothing : Drawing K C now Q fun w => some (w, none)
  | inquire {β : Type} {R : β → Prop} {f : World → World × β} (hf : Inquiry K C now R f)
      {g : β → World → Option (World × Option (QuotaTicket × α))}
      (hg : ∀ b, R b → Drawing K C now Q (g b)) : Drawing K C now Q fun w => g (f w).2 (f w).1
  | reserve {rs : List QuotaReservation} (hrs : ∀ r ∈ rs, K r.key) {t : Tick} (ht : t.now = now)
      {a : α} (ha : Q a) {f : World → Option (World × Option (QuotaTicket × α))}
      (h : Drawing K C now Q f) :
      Drawing K C now Q fun w => (w.reserveAll rs t).bind fun r =>
        r.2.elim (f r.1) fun ticket => some (r.1, some (ticket, a))

namespace Drawing

theorem cases {f : World → World × β} {g : World → Option (World × Option (QuotaTicket × α))}
    (hf : Inquiry K C now R f)
    (h : ∀ b, ∃ g', (R b → Drawing K C now Q g') ∧ ∀ w w', f w = (w', b) → g w = g' w') :
    Drawing K C now Q g := by
  choose g' hg' heq using h
  have hall := inquire hf hg'
  rwa [← funext fun w => heq _ w _ rfl] at hall

theorem reserveFallbackQuota (hK : Inquiry.Covers K cfg attempt credential)
    (hC : C (quotaCooldownKey cfg attempt)) (estimate : QuotaEstimate) (t : Tick) :
    Drawing K C t.now (fun _ => True) fun w =>
      (w.reserveFallbackQuota cfg attempt credential estimate t).map fun r =>
        (r.1, r.2.map fun ticket => (ticket, ())) := by
  refine cases (Inquiry.available hC) fun opened => ?_
  cases opened with
  | false =>
    refine ⟨_, fun _ => .nothing, fun w w' h => ?_⟩
    obtain ⟨rfl, hclosed⟩ := Prod.mk.inj h
    simp only [World.reserveFallbackQuota, hclosed, Bool.false_eq_true, if_false, Option.map_some,
      Option.map_none]
  | true =>
    refine ⟨_, fun _ => cases (Inquiry.quotaReservations hK estimate) fun rs =>
      ⟨_, fun hrs => .reserve hrs rfl (a := ()) trivial .nothing, fun w w' h => ?_⟩,
      fun w w' h => by
        obtain ⟨rfl, hopen⟩ := Prod.mk.inj h
        simp only [World.reserveFallbackQuota, hopen, if_true]
        rfl⟩
    rw [h]
    rcases w'.reserveAll rs t with _ | ⟨w'', _ | ticket⟩ <;> rfl

/-- The ticket of a chain, its first attempt without it, and the others. -/
def split : List ModelAttempt → Option (QuotaTicket × ModelAttempt × List ModelAttempt)
  | [] => none
  | a :: rest => some (a.quotaTicket, a.unticketed, rest)

structure Chained (K : QuotaBucketKey → Prop) (P : ModelAttempt → Prop) (cfg : Settings)
    (chain : ModelAttempt × List ModelAttempt) : Prop where
  first : Inquiry.Covers K cfg chain.1 (cfg.providerCredential chain.1)
  rest : ∀ a ∈ chain.2, P a

variable {P : ModelAttempt → Prop}

theorem reservePrimary {ticks : Nat → Tick} (estimate : QuotaEstimate)
    (hP : ∀ a, P a → Inquiry.Covers K cfg a (cfg.providerCredential a)) (hall : ∀ a ∈ attempts, P a) :
    Drawing K C now (Chained K P cfg) fun w =>
      (World.reservePrimary cfg estimate now ticks attempts w).map fun r => (r.1, split r.2) := by
  induction attempts with
  | nil => exact .nothing
  | cons a rest ih =>
    obtain ⟨hfirst, hrest⟩ := forall_mem_cons.mp hall
    let t : Tick := { ticks rest.length with now := now }
    let first := { a with quotaTicket := .zero, quotaEstimate := providerQuotaEstimate cfg a estimate }
    have hchain : Chained K P cfg (first, rest) := ⟨hP a hfirst, hrest⟩
    refine cases (Inquiry.quotaReservations (hP a hfirst) estimate) fun rs =>
      ⟨_, fun hrs => .reserve hrs (t := t) rfl hchain (ih hrest), fun w w' h => ?_⟩
    simp only [World.reservePrimary, h]
    rcases w'.reserveAll rs t with _ | ⟨w'', _ | ticket⟩ <;> rfl

theorem quotaRankAndReserve (round : HoldRound) (estimate : QuotaEstimate)
    (hP : ∀ a, P a → Inquiry.Admissible K C cfg a)
    (hall : ∀ a ∈ attempts, P { a with provider := cfg.normalizedProvider a }) :
    Drawing K C round.rankNow (Chained K P cfg) fun w =>
      (w.quotaRankAndReserve cfg round estimate attempts).map fun r => (r.1, split r.2) := by
  unfold World.quotaRankAndReserve
  split
  · exact .nothing
  · exact .inquire (Inquiry.ranked hP round estimate hall) fun chain hchain =>
      reservePrimary estimate (fun a ha => (hP a ha).keys) hchain

section Everywhere

variable (cfg : Settings) (estimate : QuotaEstimate)

theorem fallback (attempt : ModelAttempt) (credential : String) (t : Tick) :
    Drawing (fun _ => True) (fun _ => True) t.now (fun _ => True) fun w =>
      (w.reserveFallbackQuota cfg attempt credential estimate t).map fun r =>
        (r.1, r.2.map fun ticket => (ticket, ())) :=
  reserveFallbackQuota (fun _ _ => trivial) trivial estimate t

theorem chain (round : HoldRound)
    (hall : ∀ a ∈ attempts, P { a with provider := cfg.normalizedProvider a }) :
    Drawing (fun _ => True) (fun _ => True) round.rankNow (Chained (fun _ => True) P cfg) fun w =>
      (w.quotaRankAndReserve cfg round estimate attempts).map fun r => (r.1, split r.2) :=
  quotaRankAndReserve round estimate (fun _ _ => ⟨fun _ _ => trivial, trivial⟩) hall

end Everywhere

end Drawing

end CalvoProxy
