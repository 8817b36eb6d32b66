import CalvoProxy.Lib.Waits
import CalvoProxy.Router.Admission
import CalvoProxy.Router.Ranking

/-!
# When a refused request may come back

A request without an attempt to run is answered with `503` and the soonest moment at which something
changes (`Awaited`). The wait is sufficient exactly if some attempt has nothing left to wait for by
then (`retryAfter_suffices_iff`).
-/

namespace CalvoProxy

open QuotaLedger Waits List RouterService World

variable {credential message : String} {p : PublishedLimit} {key : QuotaBucketKey}
  {found w' w : World} {a b : ModelAttempt} {t : Time} {cfg : Settings} {estimate : QuotaEstimate}
  {n : Int}

def World.passes (cfg : Settings) (estimate : QuotaEstimate) (t : Time) (w : World)
    (a : ModelAttempt) : Bool :=
  let named := { a with provider := cfg.normalizedProvider a }
  w.service.isModelAvailable cfg a t && w.service.quotaAttemptAvailable cfg named t &&
    (w.quotaCanFit cfg named (cfg.providerCredential named) estimate t).2

/-- The bucket has less than `cost`, and is renewed after `now`. -/
@[mk_iff]
structure QuotaSnapshot.Lacks (now : Time) (cost : Int64) (q : QuotaSnapshot) : Prop where
  short : q.available < cost
  dated : q.observation.resetAt ≠ 0
  later : now < q.observation.resetAt

section

variable (cfg : Settings) (estimate : QuotaEstimate) (now : Time) (w : World)

/-- A reason of the quota routing not to try `a` before a given time. -/
inductive Delays (a : ModelAttempt) : Time → Prop
  | cooldown (h : now < w.service.quotaCooldownUntil cfg a) :
      Delays a (w.service.quotaCooldownUntil cfg a)
  | bucket {key : QuotaBucketKey} {q : QuotaSnapshot}
      (hseen : seen cfg a (cfg.providerCredential a) now w.service.quota key = some q)
      (hlimits : limitsAttempt cfg a (cfg.providerCredential a) key = true)
      (hcost : 0 < attemptCost cfg a estimate key)
      (hlacks : q.Lacks now (attemptCost cfg a estimate key)) : Delays a q.observation.resetAt

/-- The quota routing does not try `a` before `u`, and has no reason not to try it then. -/
@[mk_iff]
structure WaitsUntil (a : ModelAttempt) (u : Time) : Prop where
  delays : Delays cfg estimate now w a u
  latest : ∀ u', Delays cfg estimate now w a u' → u' ≤ u

/-- The moments that the answer to a refused chain goes by. -/
inductive Awaited (attempts : List ModelAttempt) : Time → Prop
  | circuit {a : ModelAttempt} (ha : a ∈ attempts)
      (hopen : now < (w.service.breakerOf cfg a).openUntil) :
      Awaited attempts (w.service.breakerOf cfg a).openUntil
  | quota {a : ModelAttempt} {u : Time} (ha : a ∈ attempts)
      (hwaits : WaitsUntil cfg estimate now w a u) : Awaited attempts u

omit now in
/-- At `t` the circuits and the cooldown of `a` are over, and the buckets left have room for it or
their probe. -/
structure Unblocked (t : Time) (a : ModelAttempt) : Prop where
  provider : ((w.service.providerBreakers.lookup a.provider).getD .empty).openUntil ≤ t
  model : (w.service.breakerOf cfg a).openUntil ≤ t
  cooldown : w.service.quotaCooldownUntil cfg { a with provider := cfg.normalizedProvider a } ≤ t
  quota : ∀ key q, w.service.quota.visible t key = some q →
    limitsAttempt cfg { a with provider := cfg.normalizedProvider a }
      (cfg.providerCredential { a with provider := cfg.normalizedProvider a }) key = true →
    0 < attemptCost cfg { a with provider := cfg.normalizedProvider a } estimate key →
    q.fits (attemptCost cfg { a with provider := cfg.normalizedProvider a } estimate key) = true

end

def wholeSeconds (d : Duration) : Duration := max 1 (d / Time.second) * Time.second

theorem Delays.later {now u : Time} (h : Delays cfg estimate now w a u) : now < u := by
  cases h with
  | cooldown hcooldown => exact hcooldown
  | bucket _ _ _ hlacks => exact hlacks.later

/-! ## The wait of one attempt -/

namespace World

variable {now : Time}

def attemptWait (cfg : Settings) (estimate : QuotaEstimate) (now : Time) (a : ModelAttempt)
    (w : World) : World × Duration :=
  let planned := w.quotaReservations cfg a (cfg.providerCredential a) estimate now
  readyIn now planned.2 (planned.1.service.quotaCooldownRemaining cfg a now) planned.1

theorem quotaRetryAfter_cons (a : ModelAttempt) (rest : List ModelAttempt) (soonest : Duration)
    (w : World) :
    w.quotaRetryAfterForAttempts cfg estimate now (a :: rest) soonest =
      (w.attemptWait cfg estimate now a).1.quotaRetryAfterForAttempts cfg estimate now rest
        (sooner soonest (w.attemptWait cfg estimate now a).2) := rfl

theorem readyIn_cons (r : QuotaReservation) (rs : List QuotaReservation) (wait : Duration)
    (w : World) : ∃ wait', readyIn now (r :: rs) wait w =
        readyIn now rs wait' (w.snapshot r.key now).1 ∧
      ∀ {P : Duration → Prop}, IsLatest P wait → IsLatest (fun d => P d ∨ ∃ q,
        w.service.quota.visible now r.key = some q ∧ q.Lacks now r.cost ∧
          d = q.observation.resetAt - now) wait' := by
  rw [show w.service.quota.visible now r.key = (w.snapshot r.key now).2 from rfl]
  simp only [readyIn]
  rcases w.snapshot r.key now with ⟨w1, _ | q⟩
  · exact ⟨wait, rfl, fun hwait => hwait.congr fun d _ => by simp⟩
  have hcond : (r.cost ≤ q.available || Time.isZero q.observation.resetAt ||
      !Time.after q.observation.resetAt now) = true ↔ ¬q.Lacks now r.cost := by
    simp only [QuotaSnapshot.lacks_iff, Bool.or_eq_true, decide_eq_true_eq, Time.isZero, beq_iff_eq,
      Bool.not_eq_true', Time.after, decide_eq_false_iff_not, not_and_or, ne_eq, not_not,
      Int64.not_lt, or_assoc]
  by_cases hlacks : q.Lacks now r.cost
  · refine ⟨_, if_neg fun h => hcond.mp h hlacks, fun hwait => ?_⟩
    refine (hwait.later (Int.sub_pos_of_lt hlacks.later)).congr fun d _ => ?_
    simp only [Option.some.injEq, exists_eq_left', hlacks, true_and]
  · refine ⟨wait, if_pos (hcond.mpr hlacks), fun hwait => hwait.congr fun d _ => ?_⟩
    simp only [Option.some.injEq, exists_eq_left', hlacks, false_and, or_false]

theorem readyIn_reread (rs : List QuotaReservation) (wait : Duration) (w : World) :
    Reread now w.service.quota (readyIn now rs wait w).1.service.quota := by
  induction rs generalizing wait w with
  | nil => exact .refl _
  | cons r rs ih =>
    obtain ⟨wait', heq, -⟩ := @readyIn_cons now r rs wait w
    rw [heq]
    exact (Reread.snapshot w.service.quota r.key).trans (ih wait' (w.snapshot r.key now).1)

theorem readyIn_latest {P : Duration → Prop} (rs : List QuotaReservation) {wait : Duration}
    (hwait : IsLatest P wait) (w : World) :
    IsLatest (fun d => P d ∨ ∃ r ∈ rs, ∃ q, w.service.quota.visible now r.key = some q ∧
      q.Lacks now r.cost ∧ d = q.observation.resetAt - now) (readyIn now rs wait w).2 := by
  induction rs generalizing P wait w with
  | nil => exact hwait.congr fun d _ => by simp
  | cons r rs ih =>
    obtain ⟨wait', heq, hlatest⟩ := @readyIn_cons now r rs wait w
    have hsame : ∀ k, (w.snapshot r.key now).1.service.quota.visible now k =
        w.service.quota.visible now k := (Reread.snapshot w.service.quota r.key).visible
    rw [heq]
    refine (ih (hlatest hwait) _).congr fun d _ => ?_
    simp only [hsame, mem_cons, exists_eq_or_imp, or_assoc]

theorem attemptWait_reads (a : ModelAttempt) : Reads w (w.attemptWait cfg estimate now a).1 :=
  (Reads.quotaReservations cfg a _ estimate now w).trans
    ((Inquiry.readyIn (K := fun _ => True) (C := fun _ => True) _ (fun _ _ => trivial) _).reads _)

variable (hs : w.service.quota.Sound)
include hs

theorem visible_attemptWait (a : ModelAttempt) (key : QuotaBucketKey) :
    (w.attemptWait cfg estimate now a).1.service.quota.visible now key =
      seen cfg a (cfg.providerCredential a) now w.service.quota key :=
  ((readyIn_reread _ _ _).visible key).trans (visible_quotaReservations hs key)

theorem attemptWait_latest (a : ModelAttempt) :
    IsLatest (fun d => Delays cfg estimate now w a (now + d))
      (w.attemptWait cfg estimate now a).2 := by
  have hvisible := fun key => @visible_quotaReservations now w cfg a (cfg.providerCredential a)
    estimate hs key
  have hmem := fun r q => @mem_quotaReservations now w cfg a (cfg.providerCredential a) estimate hs
    r q
  have hcooldowns := (Reads.quotaReservations cfg a (cfg.providerCredential a) estimate now w).cooldowns
  unfold attemptWait
  simp only
  generalize w.quotaReservations cfg a (cfg.providerCredential a) estimate now = planned
    at hvisible hmem hcooldowns
  have huntil : planned.1.service.quotaCooldownUntil cfg a = w.service.quotaCooldownUntil cfg a := by
    unfold quotaCooldownUntil
    rw [hcooldowns]
  have hcooldown : IsLatest (fun d => d = w.service.quotaCooldownUntil cfg a - now)
      (planned.1.service.quotaCooldownRemaining cfg a now) := by
    have hsingle := IsLatest.single (w.service.quotaCooldownUntil cfg a - now)
    unfold quotaCooldownRemaining
    rw [huntil]
    simpa only [Time.after, decide_eq_true_eq, Int.sub_pos] using hsingle
  refine (readyIn_latest planned.2 hcooldown planned.1).congr fun d hd => ⟨?_, ?_⟩
  · rintro (rfl | ⟨r, hr, q, hq, hlacks, rfl⟩)
    · rw [Int.add_comm, Int.sub_add_cancel]
      exact .cooldown (Int.sub_pos.mp hd)
    · rw [hvisible] at hq
      obtain ⟨hlimits, hcost, heq⟩ := (hmem r q hq).mp hr
      rw [heq] at hlacks
      rw [Int.add_comm, Int.sub_add_cancel]
      exact .bucket hq hlimits hcost hlacks
  · intro hdelays
    generalize hu : now + d = u at hdelays
    have hd' : d = u - now := eq_sub_of_add_eq' hu
    cases hdelays with
    | cooldown h => exact .inl hd'
    | @bucket key q hseen hlimits hcost hlacks =>
      refine .inr ⟨⟨key, attemptCost cfg a estimate key⟩, ?_, q, ?_, hlacks, hd'⟩
      · exact (hmem ⟨key, _⟩ q hseen).mpr ⟨hlimits, hcost, rfl⟩
      · rw [hvisible]
        exact hseen

theorem attemptWait_soonest (a : ModelAttempt) :
    IsSoonest (fun d => WaitsUntil cfg estimate now w a (now + d))
      (w.attemptWait cfg estimate now a).2 := by
  have hlatest := @attemptWait_latest w cfg estimate now hs a
  refine ⟨hlatest.nonneg, fun hpos => ⟨hlatest.attained hpos, fun u hu => ?_⟩, fun e he hwaits => ?_⟩
  · have hle := hlatest.greatest (u - now) (Int.sub_pos_of_lt hu.later) (by
      rwa [Int.add_comm, Int.sub_add_cancel])
    exact Int.le_add_of_sub_left_le hle
  · have hle := hlatest.greatest e he hwaits.delays
    have hpos := Int.lt_of_lt_of_le he hle
    exact ⟨hpos, Int.le_of_add_le_add_left (hwaits.latest _ (hlatest.attained hpos))⟩

end World

/-! ## Attempts do not add to each other's waits -/

section Shared

variable {now : Time}

theorem freePool_scope_ne (cfg : Settings) (c c' : String) :
    credentialQuotaScope cfg "free_pool" c ≠ credentialQuotaScope cfg "model" c' := by
  have hhead : ∀ (scope : String) (tag : Option String), scope ≠ "" →
      (taggedScope scope tag).toList.head? = scope.toList.head? := by
    intro scope tag hscope
    cases tag with
    | none => rfl
    | some tag =>
      have hne : scope.toList ≠ [] := fun h => hscope (String.toList_injective h)
      simp only [taggedScope, String.toList_append, append_assoc]
      exact List.head?_append_of_ne_nil _ hne
  rw [credentialQuotaScope_eq, credentialQuotaScope_eq]
  intro heq
  have hheads := congrArg (fun s : String => s.toList.head?) heq
  simp only [hhead "free_pool" _ (by decide), hhead "model" _ (by decide)] at hheads
  exact absurd hheads (by decide)

theorem bootstrapLimits_key (hp : p ∈ bootstrapLimits cfg a credential now) :
    a.provider = .openRouter ∧ freeModel a.model = true ∧
        p.1.scope = credentialQuotaScope cfg "free_pool" credential ∨
      (a.provider = .cerebras ∨ a.provider = .groq) ∧ p.1.modelOrPool = a.model := by
  unfold bootstrapLimits at hp
  simp only at hp
  split at hp
  · next hprovider =>
    split at hp
    · next hfree =>
      simp only [mem_cons, not_mem_nil, or_false] at hp
      rcases hp with rfl | rfl <;> exact .inl ⟨hprovider, hfree, rfl⟩
    · cases hp
  · next hprovider =>
    simp only [mem_cons, not_mem_nil, or_false] at hp
    rcases hp with rfl | rfl | rfl | rfl <;> exact .inr ⟨.inl hprovider, rfl⟩
  · next hprovider =>
    simp only [mem_cons, not_mem_nil, or_false] at hp
    rcases hp with rfl | rfl | rfl | rfl <;> exact .inr ⟨.inr hprovider, rfl⟩
  · cases hp

theorem bootstrapLimits_congr (hprovider : a.provider = b.provider) (hmodel : a.model = b.model ∨
      a.provider = .openRouter ∧ freeModel a.model = freeModel b.model) :
    bootstrapLimits cfg a credential now = bootstrapLimits cfg b credential now := by
  have hnamed : cfg.normalizedProvider a = cfg.normalizedProvider b := by
    unfold Settings.normalizedProvider
    rw [hprovider]
  rcases hmodel with hmodel | ⟨hrouter, hfree⟩
  · unfold bootstrapLimits
    rw [hnamed, hprovider, hmodel]
  · unfold bootstrapLimits
    rw [hnamed, ← hprovider, hrouter]
    simp only [hfree]

theorem bootstrapLimits_shared (hb : cfg.configured b = true)
    (hp : p ∈ bootstrapLimits cfg a (cfg.providerCredential a) now)
    (hlimits : limitsAttempt cfg b (cfg.providerCredential b) p.1 = true) :
    bootstrapLimits cfg a (cfg.providerCredential a) now =
      bootstrapLimits cfg b (cfg.providerCredential b) now := by
  have haccount := Account.owns_unique (bootstrapLimits_owned cfg a _ now p hp)
    (limitsAttempt_owned cfg b _ hlimits)
  have hnames : (cfg.normalizedProvider a).text = (cfg.normalizedProvider b).text :=
    congrArg Account.provider haccount
  unfold limitsAttempt at hlimits
  simp only [Bool.and_eq_true, Bool.or_eq_true, decide_eq_true_eq] at hlimits
  obtain ⟨⟨-, hscope⟩, hmodel⟩ := hlimits
  rcases bootstrapLimits_key hp with ⟨ha, hfree, hpool⟩ | ⟨ha, hpmodel⟩
  · -- the free pool limits no attempts but those of the free models of OpenRouter
    have hpooled : b.provider = .openRouter ∧ freeModel b.model = true := by
      by_contra hnot
      rw [if_neg hnot, hpool] at hscope
      exact freePool_scope_ne cfg _ _ hscope
    have hprovider : a.provider = b.provider := ha.trans hpooled.1.symm
    rw [Settings.credential_congr hprovider]
    exact bootstrapLimits_congr hprovider (.inr ⟨ha, hfree.trans hpooled.2.symm⟩)
  · have hnamed : a.provider.text ≠ "" := by rcases ha with ha | ha <;> (rw [ha]; decide)
    rw [cfg.normalizedProvider_named hnamed] at hnames
    have hprovider : a.provider = b.provider := by
      rcases Settings.configured_cases hb with ⟨hbnamed, hmem⟩ | ⟨hrouter, -⟩
      · rw [cfg.normalizedProvider_named hbnamed] at hnames
        generalize b.provider = provider at hnames hmem
        simp only [mem_cons, not_mem_nil, or_false] at hmem
        rcases ha with ha | ha <;> rw [ha] at hnames ⊢ <;>
          rcases hmem with rfl | rfl | rfl | rfl | rfl <;>
            first | rfl | exact absurd hnames (by decide)
      · rw [hrouter] at hnames
        rcases ha with ha | ha <;> (rw [ha] at hnames; exact absurd hnames (by decide))
    have hrouter : b.provider ≠ .openRouter := by
      rw [← hprovider]
      rcases ha with ha | ha <;> (rw [ha]; decide)
    rw [Settings.credential_congr hprovider]
    refine bootstrapLimits_congr hprovider (.inl ?_)
    rcases hmodel with hmodel | hpooled
    · exact hpmodel.symm.trans hmodel
    · exact absurd hpooled.1.1 hrouter

theorem seen_after {l l' : QuotaLedger} (hb : cfg.configured b = true)
    (hl : ∀ key, l'.visible now key = seen cfg a (cfg.providerCredential a) now l key)
    (hlimits : limitsAttempt cfg b (cfg.providerCredential b) key = true) :
    seen cfg b (cfg.providerCredential b) now l' key =
      seen cfg b (cfg.providerCredential b) now l key := by
  unfold seen at hl ⊢
  rw [hl]
  cases l.visible now key with
  | some q => rfl
  | none =>
    simp only [Option.none_or]
    cases hfind : (bootstrapLimits cfg a (cfg.providerCredential a) now).find? (publishes key) with
    | none => rfl
    | some p =>
      have hkey : p.1 = key := by
        have hpublishes := List.find?_some hfind
        unfold publishes at hpublishes
        simp only [Bool.and_eq_true, decide_eq_true_eq] at hpublishes
        exact hpublishes.1.1
      rw [← bootstrapLimits_shared hb (mem_of_find?_eq_some hfind) (hkey.symm ▸ hlimits), hfind]
      rfl

end Shared

/-! ## The soonest of all waits -/

section Soonest

variable {now : Time}

theorem Delays.congr {u : Time} (h : Delays cfg estimate now w b u)
    (huntil : w'.service.quotaCooldownUntil cfg b = w.service.quotaCooldownUntil cfg b)
    (hseen : ∀ key, limitsAttempt cfg b (cfg.providerCredential b) key = true →
      seen cfg b (cfg.providerCredential b) now w'.service.quota key =
        seen cfg b (cfg.providerCredential b) now w.service.quota key) :
    Delays cfg estimate now w' b u := by
  cases h with
  | cooldown h =>
    rw [← huntil] at h ⊢
    exact .cooldown h
  | bucket hq hlimits hcost hlacks =>
    rw [← hseen _ hlimits] at hq
    exact .bucket hq hlimits hcost hlacks

theorem waitsUntil_congr
    (huntil : w'.service.quotaCooldownUntil cfg b = w.service.quotaCooldownUntil cfg b)
    (hseen : ∀ key, limitsAttempt cfg b (cfg.providerCredential b) key = true →
      seen cfg b (cfg.providerCredential b) now w'.service.quota key =
        seen cfg b (cfg.providerCredential b) now w.service.quota key) (u : Time) :
    WaitsUntil cfg estimate now w' b u ↔ WaitsUntil cfg estimate now w b u := by
  have hdelays : ∀ u, Delays cfg estimate now w' b u ↔ Delays cfg estimate now w b u := fun u =>
    ⟨fun h => h.congr huntil.symm fun key hlimits => (hseen key hlimits).symm,
      fun h => h.congr huntil hseen⟩
  simp only [waitsUntil_iff, hdelays]

theorem waitsUntil_after (hs : w.service.quota.Sound) (a : ModelAttempt)
    (hb : cfg.configured b = true) (u : Time) :
    WaitsUntil cfg estimate now (w.attemptWait cfg estimate now a).1 b u ↔
      WaitsUntil cfg estimate now w b u := by
  have hcooldowns := (@World.attemptWait_reads w cfg estimate now a).cooldowns
  refine waitsUntil_congr ?_ (fun key hlimits => ?_) u
  · unfold quotaCooldownUntil
    rw [hcooldowns]
  · exact seen_after hb (fun key => visible_attemptWait hs a key) hlimits

theorem quotaRetryAfter_soonest {P : Duration → Prop} {attempts : List ModelAttempt}
    (hattempts : ∀ a ∈ attempts, cfg.configured a = true) {soonest : Duration}
    (hsoonest : IsSoonest P soonest) {w : World} (hs : w.service.quota.Sound) :
    IsSoonest (fun d => P d ∨ ∃ a ∈ attempts, WaitsUntil cfg estimate now w a (now + d))
      (w.quotaRetryAfterForAttempts cfg estimate now attempts soonest).2 := by
  induction attempts generalizing P soonest w with
  | nil => exact hsoonest.congr fun d _ => by simp
  | cons a rest ih =>
    have hfirst := hsoonest.sooner (@World.attemptWait_soonest w cfg estimate now hs a)
    have hrest := ih (fun b hb => hattempts b (mem_cons_of_mem a hb)) hfirst
      ((@World.attemptWait_reads w cfg estimate now a).sound hs)
    rw [quotaRetryAfter_cons]
    refine hrest.congr fun d _ => ?_
    simp only [mem_cons, exists_eq_or_imp, or_assoc]
    refine or_congr_right (or_congr_right (exists_congr fun b => and_congr_right fun hb => ?_))
    exact waitsUntil_after hs a (hattempts b (mem_cons_of_mem a hb)) _

theorem sooner_circuit (soonest : Duration) (openUntil : Time) :
    (if Time.after openUntil now && (soonest = 0 || openUntil - now < soonest) then openUntil - now
      else soonest) = sooner soonest (if 0 < openUntil - now then openUntil - now else 0) := by
  unfold sooner Time.after
  by_cases hopen : now < openUntil
  · simp [hopen]
  · simp [hopen]

theorem retryAfter_soonest (s : RouterService) (attempts : List ModelAttempt) :
    IsSoonest (fun d => ∃ a ∈ attempts, now + d = (s.breakerOf cfg a).openUntil)
      (s.retryAfterForAttempts cfg now attempts) := by
  have hfold : ∀ {P : Duration → Prop} {soonest : Duration}, IsSoonest P soonest →
      IsSoonest (fun d => P d ∨ ∃ a ∈ attempts, now + d = (s.breakerOf cfg a).openUntil)
        (attempts.foldl (fun soonest a => sooner soonest
          (if 0 < (s.breakerOf cfg a).openUntil - now then (s.breakerOf cfg a).openUntil - now
            else 0)) soonest) := by
    induction attempts with
    | nil => exact fun hsoonest => hsoonest.congr fun d _ => by simp
    | cons a rest ih =>
      intro P soonest hsoonest
      have hfirst := hsoonest.sooner (IsSoonest.single ((s.breakerOf cfg a).openUntil - now))
      refine (ih hfirst).congr fun d _ => ?_
      simp only [mem_cons, exists_eq_or_imp, or_assoc, eq_sub_iff_add_eq']
  unfold retryAfterForAttempts
  simp only [sooner_circuit]
  exact (hfold IsSoonest.none).congr fun d _ => by simp

end Soonest

/-! ## What the readings leave -/

/-- From `now` on `l'` shows what `l` shows, and besides only buckets that fit every cost. -/
def Stocks (now : Time) (l l' : QuotaLedger) : Prop :=
  ∀ t, now ≤ t → ∀ key, l'.visible t key = l.visible t key ∨
    l.visible t key = none ∧ ∀ q, l'.visible t key = some q → ∀ cost, q.fits cost = true

namespace Stocks

variable {l l' l'' : QuotaLedger} {now : Time}

theorem of_reread (h : Reread now l l') : Stocks now l l' :=
  fun _ ht key => .inl ((h.later ht).visible key)

theorem trans (h : Stocks now l l') (h' : Stocks now l' l'') : Stocks now l l'' := by
  intro t ht key
  rcases h t ht key with heq | ⟨hnone, hfits⟩
  · rcases h' t ht key with heq' | ⟨hnone', hfits'⟩
    · exact .inl (heq'.trans heq)
    · exact .inr ⟨heq ▸ hnone', hfits'⟩
  · rcases h' t ht key with heq' | ⟨-, hfits'⟩
    · exact .inr ⟨hnone, heq' ▸ hfits⟩
    · exact .inr ⟨hnone, hfits'⟩

theorem shown_fits {limit : Int64} {reset : Time}
    {q : QuotaSnapshot} (h : shown t key ⟨published limit reset now, 0, false⟩ = some q)
    (cost : Int64) : q.fits cost = true := by
  unfold shown at h
  split at h
  · cases h
  · cases h
    simp [QuotaSnapshot.fits, published]

theorem observeIfUnknown (hs : w.service.quota.Sound) (hreset : now < p.2.2) :
    Stocks now w.service.quota (w.observeIfUnknown now p).service.quota := by
  have hread : Reread now w.service.quota (w.service.quota.snapshot p.1 now).1 := .snapshot _ p.1
  rcases observeIfUnknown_cases hs hreset with ⟨-, hl | hl⟩ | ⟨-, hnone, hnew, hl⟩
  · rw [hl]
    exact of_reread (.refl _)
  · rw [hl]
    exact of_reread hread
  have hpurge : Reread now w.service.quota
      ((w.service.quota.snapshot p.1 now).1.purgeExpiredLocked now) := hread.trans (.purge _)
  have hpointed := ((hs.snapshot p.1 now).purgeExpiredLocked now).pointed
  intro t ht key
  rw [hl, visible_eq _ _ key, Moved.bucketOf_store_new hpointed hnew]
  by_cases heq : key = p.1
  · subst heq
    rw [if_pos rfl, Option.bind_some]
    refine .inr ⟨?_, fun q hq => shown_fits hq⟩
    by_contra hsome
    have hnow := visible_earlier ht (Option.isSome_iff_ne_none.mpr hsome)
    rw [hnone] at hnow
    cases hnow
  · rw [if_neg heq, ← visible_eq]
    exact .inl ((hpurge.later ht).visible key)

theorem quotaRetryAfter (cfg : Settings) (estimate : QuotaEstimate) (attempts : List ModelAttempt)
    (soonest : Duration) (hs : w.service.quota.Sound) :
    Stocks now w.service.quota
      (w.quotaRetryAfterForAttempts cfg estimate now attempts soonest).1.service.quota :=
  (Inquiry.quotaRetryAfter cfg estimate now attempts soonest).relates (fun _ => of_reread (.refl _))
    trans observeIfUnknown (fun _ key => of_reread (.snapshot _ key)) (fun _ => of_reread (.purge _))
    hs

end Stocks

theorem quotaCanFit_after {now : Time} (hs : w'.service.quota.Sound)
    (hstocks : Stocks now w.service.quota w'.service.quota) (ht : now ≤ t) :
    (w'.quotaCanFit cfg a credential estimate t).2 = true ↔
      ∀ key q, w.service.quota.visible t key = some q →
        limitsAttempt cfg a credential key = true → 0 < attemptCost cfg a estimate key →
        q.fits (attemptCost cfg a estimate key) = true := by
  rw [quotaCanFit_iff hs]
  constructor
  · intro hquota key q hq hlimits hcost
    have hseen := hquota key hlimits hcost
    rcases hstocks t ht key with heq | ⟨hnone, -⟩
    · unfold seen at hseen
      rw [heq, hq, Option.some_or] at hseen
      exact hseen
    · cases hnone.symm.trans hq
  · intro hquota key hlimits hcost
    unfold seen
    cases hq : w'.service.quota.visible t key with
    | some q =>
      rw [Option.some_or, Option.all_some]
      rcases hstocks t ht key with heq | ⟨-, hfits⟩
      · exact hquota key q (heq ▸ hq) hlimits hcost
      · exact hfits q hq _
    | none =>
      -- a limit that is only published lets its probe through
      rw [Option.none_or, Option.all_map]
      cases List.find? (publishes key) _ with
      | none => rfl
      | some p => simp [publishedSnapshot, QuotaSnapshot.fits, published]

theorem passes_iff {cfg : Settings} {estimate : QuotaEstimate} {now t : Time} {w w' : World}
    {a : ModelAttempt} (hs : w'.service.quota.Sound)
    (hservice : w'.service = { w.service with quota := w'.service.quota })
    (hstocks : Stocks now w.service.quota w'.service.quota) (ht : now ≤ t) :
    w'.passes cfg estimate t a = true ↔ Unblocked cfg estimate w t a := by
  have hmodels : w'.service.modelBreakers = w.service.modelBreakers := by rw [hservice]
  have hproviders : w'.service.providerBreakers = w.service.providerBreakers := by rw [hservice]
  have hcooldowns : w'.service.quotaCooldowns = w.service.quotaCooldowns := by rw [hservice]
  unfold passes
  simp only [Bool.and_eq_true]
  rw [quotaCanFit_after hs hstocks ht]
  unfold isModelAvailable quotaAttemptAvailable quotaCooldownUntil
  simp only [hmodels, hproviders, hcooldowns, Time.after, Bool.and_eq_true, Bool.not_eq_true',
    decide_eq_false_iff_not, Int.not_lt]
  constructor
  · rintro ⟨⟨⟨hprovider, hmodel⟩, hcooldown⟩, hquota⟩
    exact ⟨hprovider, hmodel, hcooldown, hquota⟩
  · rintro ⟨hprovider, hmodel, hcooldown, hquota⟩
    exact ⟨⟨⟨hprovider, hmodel⟩, hcooldown⟩, hquota⟩

namespace Request

variable {r : Request} {before : World} {k : Nat}

theorem Gated.refused_reads (h : r.Gated cfg w k found (.refused before)) : Reads w before := by
  have hunreserved := r.attemptsToTry_unreserved cfg
  obtain ⟨left, hround, -⟩ := h.rounds.last
  have hfollows := @holdRound_follows cfg r (estimateRequestQuota cfg r.body)
    (estimateRequestContext cfg r.body) _ hunreserved k left found
  rw [hround] at hfollows
  exact (h.rounds.reads hunreserved).trans hfollows

theorem refusal_soonest {estimate : QuotaEstimate} {now : Time} {attempts : List ModelAttempt}
    (hattempts : ∀ a ∈ attempts, cfg.configured a = true) (hs : before.service.quota.Sound) :
    IsSoonest (fun d => Awaited cfg estimate now before attempts (now + d))
      (sooner (before.service.retryAfterForAttempts cfg now attempts)
        (before.quotaRetryAfterForAttempts cfg estimate now attempts 0).2) := by
  have hcircuits := @retryAfter_soonest cfg now before.service attempts
  have hquota := @quotaRetryAfter_soonest cfg estimate now _ attempts hattempts 0 IsSoonest.none
    before hs
  refine (hcircuits.sooner hquota).congr fun d hd => ⟨?_, fun h => ?_⟩
  · rintro (⟨a, ha, heq⟩ | hfalse | ⟨a, ha, hwaits⟩)
    · rw [heq]
      exact .circuit ha (heq ▸ Int.lt_add_of_pos_right now hd)
    · exact hfalse.elim
    · exact .quota ha hwaits
  · generalize hu : now + d = u at h ⊢
    cases h with
    | circuit ha hopen => exact .inl ⟨_, ha, rfl⟩
    | quota ha hwaits => exact .inr (.inr ⟨_, ha, hwaits⟩)

theorem refusal_answer {attempts : List ModelAttempt}
    {round : HoldRound} (hattempts : ∀ a ∈ attempts, cfg.configured a = true)
    (hs : before.service.quota.Sound)
    (hanswer : (refuseRequest cfg round estimate attempts before).log.getLast? =
      some (.jsonError 503 message (some n))) :
    ∃ d, IsSoonest (fun d => Awaited cfg estimate round.refuse before attempts (round.refuse + d)) d ∧
      0 < d ∧ n * Time.second = wholeSeconds d := by
  have hcircuits := (@retryAfter_soonest cfg round.refuse before.service attempts).nonneg
  have hquota := (@quotaRetryAfter_soonest cfg estimate round.refuse _ attempts hattempts 0
    IsSoonest.none before hs).nonneg
  have hsoonest := @refusal_soonest cfg before estimate round.refuse attempts hattempts hs
  unfold refuseRequest emit at hanswer
  simp only [List.getLast?_append, List.getLast?_singleton, Option.some_or, Option.some.injEq,
    Effect.jsonError.injEq, true_and] at hanswer
  obtain ⟨-, hn⟩ := hanswer
  generalize before.service.retryAfterForAttempts cfg round.refuse attempts = d at *
  generalize (before.quotaRetryAfterForAttempts cfg estimate round.refuse attempts 0).2 = e at *
  rw [sooner_eq hcircuits hquota] at hn
  unfold retryAfterSeconds at hn
  split at hn
  · next hpos => exact ⟨_, hsoonest, hpos, by rw [← Option.some.inj hn]; rfl⟩
  · cases hn

end Request

theorem Unblocked.mono {t' : Time} (h : Unblocked cfg estimate w t a) (ht : t ≤ t') :
    Unblocked cfg estimate w t' a where
  provider := Int.le_trans h.provider ht
  model := Int.le_trans h.model ht
  cooldown := Int.le_trans h.cooldown ht
  quota := fun key q hq => h.quota key q (visible_same ht hq)

theorem Awaited.later {now u : Time} {attempts : List ModelAttempt}
    (h : Awaited cfg estimate now w attempts u) : now < u := by
  cases h with
  | circuit _ hopen => exact hopen
  | quota _ hwaits => exact hwaits.delays.later

theorem wholeSeconds_mono {d e : Duration} (h : d ≤ e) : wholeSeconds d ≤ wholeSeconds e := by
  have hdiv : d / Time.second ≤ e / Time.second := Int.ediv_le_ediv (by decide) h
  have hmax : max 1 (d / Time.second) ≤ max 1 (e / Time.second) :=
    max_le_max le_rfl hdiv
  exact Int.mul_le_mul_of_nonneg_right hmax (by decide)

theorem wholeSeconds_pos (d : Duration) : 0 < wholeSeconds d :=
  Int.mul_pos (lt_of_lt_of_le Int.one_pos (le_max_left 1 _)) (by decide)

/-- The time that a refused request is told suffices exactly if one of its attempts is unblocked as
many whole seconds later as there are until the soonest awaited moment, and at least one. -/
theorem Request.retryAfter_suffices_iff {r : Request} {before : World}
    {k : Nat} (hs : w.service.quota.Sound)
    (hrefused : r.Gated cfg w k found (.refused before))
    (hdispatch : dispatchChain cfg r w = some w')
    (hanswer : w'.log.getLast? = some (.jsonError 503 message (some n))) :
    (∃ a ∈ r.attemptsToTry cfg, w'.passes cfg (estimateRequestQuota cfg r.body)
        ((r.round k).refuse + n * Time.second) a = true) ↔
      ∃ a ∈ r.attemptsToTry cfg, ∀ u, Awaited cfg (estimateRequestQuota cfg r.body)
          (r.round k).refuse before (r.attemptsToTry cfg) u →
        Unblocked cfg (estimateRequestQuota cfg r.body) before
          ((r.round k).refuse + wholeSeconds (u - (r.round k).refuse)) a := by
  have hsound := hrefused.refused_reads.sound hs
  rw [hrefused.refused] at hdispatch
  cases hdispatch
  obtain ⟨d, hsoonest, hpos, hn⟩ := refusal_answer
    (fun a ha => (r.attemptsToTry_usable cfg ha).2) hsound hanswer
  have hlater : (r.round k).refuse ≤ (r.round k).refuse + wholeSeconds d :=
    Int.le_add_of_nonneg_right (wholeSeconds_pos d).le
  have hreads := Reads.quotaRetryAfterForAttempts cfg (estimateRequestQuota cfg r.body)
    (r.round k).refuse (r.attemptsToTry cfg) 0 before
  obtain ⟨es, hrun, -⟩ := hreads.calls
  have hgates := fun a => @passes_iff cfg (estimateRequestQuota cfg r.body) (r.round k).refuse
    ((r.round k).refuse + wholeSeconds d) before
    (refuseRequest cfg (r.round k) (estimateRequestQuota cfg r.body) (r.attemptsToTry cfg) before) a
    (hreads.sound hsound) hrun.service (.quotaRetryAfter cfg _ _ _ hsound) hlater
  rw [hn]
  constructor
  · rintro ⟨a, ha, hpasses⟩
    refine ⟨a, ha, fun u hu => ((hgates a).mp hpasses).mono ?_⟩
    have hlate : (r.round k).refuse < u := hu.later
    have hleast := hsoonest.least (u - (r.round k).refuse) (Int.sub_pos_of_lt hlate)
      ((add_sub_cancel (r.round k).refuse u).symm ▸ hu)
    exact Int.add_le_add_left (wholeSeconds_mono hleast.2) _
  · rintro ⟨a, ha, hunblocked⟩
    have hopen := hunblocked _ (hsoonest.attained hpos)
    rw [add_sub_cancel_left] at hopen
    exact ⟨a, ha, (hgates a).mpr hopen⟩

/-! ## A chain of one model -/

def coolingRequest : Request :=
  { demoRequest connectionReset with planned := [⟨"default", "m", .openRouter, ⟨0, 0⟩⟩] }

def coolingAttempt : ModelAttempt :=
  ⟨"default", "m", .openRouter, ⟨0, 0⟩, 0, false, .zero, .zero⟩

def coolingWorld (openUntil : Time) : World :=
  { demoWorld with
    service := { demoWorld.service with
      modelBreakers := AList.insert "default:m" { ModelBreakerState.empty with
          openUntil := openUntil } ∅ } }

theorem coolingRequest_refused {openUntil : Time} (h : 1 < openUntil) :
    coolingRequest.Gated demoSettings (coolingWorld openUntil) 0 (coolingWorld openUntil)
      (.refused (coolingWorld openUntil)) := by
  have hattempts : coolingRequest.attemptsToTry demoSettings = [coolingAttempt] := by decide +kernel
  have hkey : demoSettings.breakerKey coolingAttempt = "default:m" := by decide +kernel
  have hstate : (coolingWorld openUntil).service.modelBreakers.lookup
      (demoSettings.breakerKey coolingAttempt) = some { ModelBreakerState.empty with
          openUntil := openUntil } := by
    rw [hkey]
    exact AList.lookup_insert ∅
  have hopen : (coolingWorld openUntil).service.isModelAvailable demoSettings coolingAttempt
      (coolingRequest.round 0).available = false := by
    have hlater : (coolingRequest.round 0).available < openUntil := h
    unfold isModelAvailable
    simp only [hstate, Option.getD_some, Time.after, hlater, decide_true, Bool.not_true,
      Bool.and_false]
  refine ⟨by decide, by decide +kernel, .here ?_⟩
  unfold Request.holdRound Request.eligible
  rw [hattempts, filter_cons_of_neg (by simp [hopen]), filter_nil]
  rfl

/-- Open for two seconds more: after the two seconds of the answer the model is tried again. -/
theorem wholeSeconds_suffice : ∃ w', dispatchChain demoSettings coolingRequest
      (coolingWorld 2000000001) = some w' ∧
    w'.log.getLast? = some (.jsonError 503
      "All models are temporarily rate-limited or unhealthy. Cooling down before retry." (some 2)) ∧
    ∃ a ∈ coolingRequest.attemptsToTry demoSettings, w'.passes demoSettings
      (estimateRequestQuota demoSettings coolingRequest.body) (1 + 2 * Time.second) a = true := by
  have hrefused : coolingRequest.Gated demoSettings (coolingWorld 2000000001) 0 _ _ :=
    coolingRequest_refused (by decide)
  have hanswer : (refuseRequest demoSettings demoRound
      (estimateRequestQuota demoSettings coolingRequest.body)
      (coolingRequest.attemptsToTry demoSettings) (coolingWorld 2000000001)).log.getLast? =
      some (.jsonError 503
        "All models are temporarily rate-limited or unhealthy. Cooling down before retry."
        (some 2)) := by rfl
  refine ⟨_, hrefused.refused, hanswer, (Request.retryAfter_suffices_iff (sound_new 0) hrefused
    hrefused.refused hanswer).mpr ⟨coolingAttempt, ?_, fun u hu => ?_⟩⟩
  · decide +kernel
  · have hattempts : coolingRequest.attemptsToTry demoSettings = [coolingAttempt] := by
      decide +kernel
    have hempty : ∀ t key, (coolingWorld 2000000001).service.quota.visible t key = none :=
      fun t key => rfl
    have hlimits : bootstrapLimits demoSettings coolingAttempt
        (demoSettings.providerCredential coolingAttempt) (coolingRequest.round 0).refuse = [] := by
      rfl
    -- nothing but the circuit is awaited
    have hu : u = 2000000001 := by
      cases hu with
      | circuit ha _ =>
        rw [hattempts] at ha
        rw [mem_singleton.mp ha]
        rfl
      | quota ha hwaits =>
        rw [hattempts] at ha
        rw [mem_singleton.mp ha] at hwaits
        cases hwaits.delays with
        | cooldown h => exact absurd h (by decide +kernel)
        | bucket hseen =>
          unfold seen at hseen
          rw [hempty, hlimits] at hseen
          cases hseen
    rw [hu]
    refine ⟨by decide +kernel, by decide +kernel, by decide +kernel, fun key q hq => ?_⟩
    rw [hempty] at hq
    cases hq

/-- Open for a second and a half more: after the one second of the answer the only model is still
kept out. -/
theorem halfSecond_dropped : ∃ w',
    coolingRequest.Gated demoSettings (coolingWorld 1500000001) 0 (coolingWorld 1500000001)
      (.refused (coolingWorld 1500000001)) ∧
    dispatchChain demoSettings coolingRequest (coolingWorld 1500000001) = some w' ∧
    w'.log.getLast? = some (.jsonError 503
      "All models are temporarily rate-limited or unhealthy. Cooling down before retry." (some 1)) ∧
    ∀ a ∈ coolingRequest.attemptsToTry demoSettings, w'.passes demoSettings
      (estimateRequestQuota demoSettings coolingRequest.body)
      ((coolingRequest.round 0).refuse + 1 * Time.second) a = false := by
  have hrefused : coolingRequest.Gated demoSettings (coolingWorld 1500000001) 0 _ _ :=
    coolingRequest_refused (by decide)
  refine ⟨_, hrefused, hrefused.refused, ?_, ?_⟩
  · rfl
  · decide +kernel

end CalvoProxy
