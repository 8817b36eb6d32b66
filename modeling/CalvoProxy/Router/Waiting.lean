import CalvoProxy.Router.Agreement
import CalvoProxy.Router.RetryAfter

/-!
# Whether a quota hold is worth its wait

`dispatchChain` parks a request until an attempt has nothing known left to wait for (`ReadyAt`). A
bucket without a known reset is left out of this, so the wait is worth it exactly if some attempt is
then refused by no bucket (`quota_hold_worth_iff`).
-/

namespace CalvoProxy

open QuotaLedger Waits List Option RouterService World

variable {key : QuotaBucketKey} {q : QuotaSnapshot}

def World.admissible (cfg : Settings) (estimate : QuotaEstimate) (t : Time) (w : World)
    (a : ModelAttempt) : Bool :=
  w.service.quotaAttemptAvailable cfg a t &&
    (w.quotaCanFit cfg a (cfg.providerCredential a) estimate t).2

section

variable (cfg : Settings) (estimate : QuotaEstimate) (now : Time)

/-- The bucket is shown, limits the attempt, and lets neither its cost nor a probe through. -/
structure Refuses (w : World) (a : ModelAttempt) (key : QuotaBucketKey) (q : QuotaSnapshot) :
    Prop where
  shown : w.service.quota.visible now key = some q
  limits : limitsAttempt cfg a (cfg.providerCredential a) key = true
  cost : 0 < attemptCost cfg a estimate key
  refused : q.fits (attemptCost cfg a estimate key) = false

/-- By `t` the reset of the bucket has passed, or the minute that was reported without one. -/
def Lapsed (t : Time) (key : QuotaBucketKey) (q : QuotaSnapshot) : Prop :=
  expired q.observation t = true ∨ staleMinute key q.observation t = true

/-- At `t` the cooldown of `a` is over, and no bucket that refuses it is left. -/
structure Freed (w : World) (t : Time) (a : ModelAttempt) : Prop where
  cooldown : w.service.quotaCooldownUntil cfg a ≤ t
  buckets : ∀ key q, Refuses cfg estimate now w a key q → Lapsed t key q

/-- At `u` one of the attempts has nothing known to wait for; the published limits of an attempt are
installed before the next one is looked at. -/
inductive ReadyAt (u : Time) : World → List ModelAttempt → Prop
  | here {w : World} {a : ModelAttempt} {rest : List ModelAttempt}
      (h : WaitsUntil cfg estimate now w a u) : ReadyAt u w (a :: rest)
  | after {w : World} {a : ModelAttempt} {rest : List ModelAttempt}
      (h : ReadyAt u (w.ensureBootstrapQuota cfg a (cfg.providerCredential a) now) rest) :
      ReadyAt u w (a :: rest)

end

variable {cfg : Settings} {estimate : QuotaEstimate} {now t u : Time} {w w' : World}
  {a : ModelAttempt} {attempts : List ModelAttempt}

/-! ## Later readings -/

theorem visible_later {l : QuotaLedger} (ht : now ≤ t) :
    l.visible t key = some q ↔ l.visible now key = some q ∧ ¬ Lapsed t key q := by
  constructor
  · intro h
    refine ⟨visible_same ht h, ?_⟩
    rw [visible_eq] at h
    obtain ⟨b, -, hshown⟩ := bind_eq_some_iff.mp h
    obtain ⟨hlive, hfresh, hobs⟩ := shown_live hshown
    rintro (hexpired | hstale)
    · rw [hobs, hlive] at hexpired
      cases hexpired
    · rw [hobs, hfresh] at hstale
      cases hstale
  · rintro ⟨h, hlapsed⟩
    rw [visible_eq] at h ⊢
    obtain ⟨b, hb, hshown⟩ := bind_eq_some_iff.mp h
    obtain ⟨hlive, hfresh, hobs⟩ := shown_live hshown
    rw [Lapsed, hobs, not_or, Bool.not_eq_true, Bool.not_eq_true] at hlapsed
    rw [hb, bind_some, ← hshown, shown, shown, hlive, hfresh, hlapsed.1, hlapsed.2]

theorem admissible_iff (hs : w'.service.quota.Sound)
    (hcooldowns : w'.service.quotaCooldowns = w.service.quotaCooldowns)
    (hstocks : Stocks now w.service.quota w'.service.quota) (ht : now ≤ t) :
    w'.admissible cfg estimate t a = true ↔ Freed cfg estimate now w t a := by
  have huntil : w'.service.quotaCooldownUntil cfg a = w.service.quotaCooldownUntil cfg a := by
    unfold quotaCooldownUntil
    rw [hcooldowns]
  have havailable : w'.service.quotaAttemptAvailable cfg a t = true ↔
      w.service.quotaCooldownUntil cfg a ≤ t := by
    simp [quotaAttemptAvailable, huntil, Time.after]
  rw [admissible, Bool.and_eq_true, havailable, quotaCanFit_after hs hstocks ht]
  constructor
  · rintro ⟨hcooldown, hfits⟩
    refine ⟨hcooldown, fun key q hrefuses => ?_⟩
    by_contra hlapsed
    have hfit := hfits key q ((visible_later ht).mpr ⟨hrefuses.shown, hlapsed⟩) hrefuses.limits
      hrefuses.cost
    rw [hrefuses.refused] at hfit
    cases hfit
  · rintro ⟨hcooldown, hfreed⟩
    refine ⟨hcooldown, fun key q hq hlimits hcost => ?_⟩
    obtain ⟨hshown, hlapsed⟩ := (visible_later ht).mp hq
    by_contra hfit
    exact hlapsed (hfreed key q ⟨hshown, hlimits, hcost, Bool.eq_false_iff.mpr hfit⟩)

/-! ## The named wait -/

/-- What the waits depend on: the cooldowns and what is shown. -/
structure SameView (now : Time) (w w' : World) : Prop where
  visible : ∀ key, w'.service.quota.visible now key = w.service.quota.visible now key
  cooldowns : w'.service.quotaCooldowns = w.service.quotaCooldowns

theorem SameView.waitsUntil (h : SameView now w w') (a : ModelAttempt) (u : Time) :
    WaitsUntil cfg estimate now w' a u ↔ WaitsUntil cfg estimate now w a u := by
  refine waitsUntil_congr ?_ (fun key _ => ?_) u
  · unfold quotaCooldownUntil
    rw [h.cooldowns]
  · rw [seen, h.visible, seen]

theorem ensureBootstrapQuota_reads (cfg : Settings) (a : ModelAttempt) (now : Time) (w : World) :
    Reads w (w.ensureBootstrapQuota cfg a (cfg.providerCredential a) now) := by
  have hinquiry : Inquiry (fun _ => True) (fun _ => True) now (fun _ => True) fun w =>
      (w.ensureBootstrapQuota cfg a (cfg.providerCredential a) now, ()) :=
    Inquiry.ensureBootstrapQuota fun _ _ => trivial
  exact hinquiry.reads w

theorem SameView.install (h : SameView now w w') (hs : w.service.quota.Sound)
    (hs' : w'.service.quota.Sound) (a : ModelAttempt) :
    SameView now (w.ensureBootstrapQuota cfg a (cfg.providerCredential a) now)
      (w'.ensureBootstrapQuota cfg a (cfg.providerCredential a) now) where
  visible key := by
    rw [visible_ensureBootstrapQuota hs', visible_ensureBootstrapQuota hs, seen, h.visible, seen]
  cooldowns := by
    rw [(ensureBootstrapQuota_reads cfg a now w').cooldowns,
      (ensureBootstrapQuota_reads cfg a now w).cooldowns, h.cooldowns]

theorem SameView.readyAt (h : SameView now w w') (hs : w.service.quota.Sound)
    (hs' : w'.service.quota.Sound) (hready : ReadyAt cfg estimate now u w attempts) :
    ReadyAt cfg estimate now u w' attempts := by
  induction hready generalizing w' with
  | @here w a rest hwaits => exact .here ((h.waitsUntil a u).mpr hwaits)
  | @after w a rest _ ih =>
    exact .after (ih (h.install hs hs' a) ((ensureBootstrapQuota_reads cfg a now w).sound hs)
      ((ensureBootstrapQuota_reads cfg a now w').sound hs'))

theorem SameView.symm (h : SameView now w w') : SameView now w' w :=
  ⟨fun key => (h.visible key).symm, h.cooldowns.symm⟩

theorem attemptWait_sameView (hs : w.service.quota.Sound) (a : ModelAttempt) :
    SameView now (w.ensureBootstrapQuota cfg a (cfg.providerCredential a) now)
      (w.attemptWait cfg estimate now a).1 where
  visible key := by
    rw [visible_attemptWait hs, visible_ensureBootstrapQuota hs]
  cooldowns := by
    rw [attemptWait_reads a |>.cooldowns, (ensureBootstrapQuota_reads cfg a now w).cooldowns]

theorem quotaRetryAfter_ready {P : Duration → Prop} {soonest : Duration}
    (hsoonest : IsSoonest P soonest) (hs : w.service.quota.Sound) :
    IsSoonest (fun d => P d ∨ ReadyAt cfg estimate now (now + d) w attempts)
      (w.quotaRetryAfterForAttempts cfg estimate now attempts soonest).2 := by
  induction attempts generalizing P soonest w with
  | nil =>
    refine hsoonest.congr fun d _ => ⟨Or.inl, ?_⟩
    rintro (h | h)
    · exact h
    · cases h
  | cons a rest ih =>
    have hview := @attemptWait_sameView cfg estimate now w hs a
    have hs1 := (ensureBootstrapQuota_reads cfg a now w).sound hs
    have hs2 := (@World.attemptWait_reads w cfg estimate now a).sound hs
    have hfirst := hsoonest.sooner (@World.attemptWait_soonest w cfg estimate now hs a)
    rw [quotaRetryAfter_cons]
    refine (ih hfirst hs2).congr fun d _ => ?_
    constructor
    · rintro ((h | h) | h)
      · exact Or.inl h
      · exact Or.inr (.here h)
      · exact Or.inr (.after (hview.symm.readyAt hs2 hs1 h))
    · rintro (h | h)
      · exact Or.inl (Or.inl h)
      · cases h with
        | here h => exact Or.inl (Or.inr h)
        | after h => exact Or.inr (hview.readyAt hs1 hs2 h)

theorem ReadyAt.later (h : ReadyAt cfg estimate now u w attempts) : now < u := by
  induction h with
  | here h => exact h.delays.later
  | after _ ih => exact ih

/-! ## When no wait is named -/

theorem Refuses.short (h : Refuses cfg estimate now w a key q) :
    q.available < attemptCost cfg a estimate key := by
  have hrefused := h.refused
  unfold QuotaSnapshot.fits at hrefused
  rw [Bool.or_eq_false_iff, decide_eq_false_iff_not] at hrefused
  exact Int64.not_le.mp hrefused.1

theorem Refuses.delays (h : Refuses cfg estimate now w a key q)
    (hdated : q.observation.resetAt ≠ 0) :
    Delays cfg estimate now w a q.observation.resetAt := by
  have hlive := (visible_later (Int.le_refl now)).mp h.shown
  have hlater : now < q.observation.resetAt := by
    by_contra hpast
    exact hlive.2 (Or.inl (by simp [expired, Time.isZero, Time.after, hdated, hpast]))
  exact .bucket (by rw [seen, h.shown, some_or]) h.limits h.cost ⟨h.short, hdated, hlater⟩

theorem Delays.waits (h : Delays cfg estimate now w a u) (hs : w.service.quota.Sound) :
    ∃ u', WaitsUntil cfg estimate now w a u' := by
  have hlatest := @World.attemptWait_latest w cfg estimate now hs a
  have hle := hlatest.greatest (u - now) (Int.sub_pos_of_lt h.later)
    (by rwa [Int.add_comm, Int.sub_add_cancel])
  have hpos := Int.lt_of_lt_of_le (Int.sub_pos_of_lt h.later) hle
  exact ⟨_, (attemptWait_soonest hs a).attained hpos⟩

theorem Refuses.install {key : QuotaBucketKey} {q : QuotaSnapshot}
    (h : Refuses cfg estimate now w a key q) (hs : w.service.quota.Sound) (b : ModelAttempt) :
    Refuses cfg estimate now (w.ensureBootstrapQuota cfg b (cfg.providerCredential b) now) a key
      q where
  shown := by rw [visible_ensureBootstrapQuota hs, seen, h.shown, some_or]
  limits := h.limits
  cost := h.cost
  refused := h.refused

theorem undated_of_not_readyAt (hs : w.service.quota.Sound)
    (hnone : ∀ u, ¬ ReadyAt cfg estimate now u w attempts) (ha : a ∈ attempts) :
    w.service.quotaCooldownUntil cfg a ≤ now ∧
      ∀ key q, Refuses cfg estimate now w a key q → q.observation.resetAt = 0 := by
  induction attempts generalizing w with
  | nil => cases ha
  | cons b rest ih =>
    rcases mem_cons.mp ha with rfl | ha
    · have hdelays : ∀ u, ¬ Delays cfg estimate now w a u := by
        intro u h
        obtain ⟨u', hwaits⟩ := h.waits hs
        exact hnone u' (.here hwaits)
      refine ⟨Int.not_lt.mp fun h => hdelays _ (.cooldown h), fun key q h => ?_⟩
      by_contra hdated
      exact hdelays _ (h.delays hdated)
    · have hreads := ensureBootstrapQuota_reads cfg b now w
      obtain ⟨hcooldown, hundated⟩ := ih (hreads.sound hs) (fun u h => hnone u (.after h)) ha
      refine ⟨?_, fun key q h => hundated key q (h.install hs b)⟩
      unfold quotaCooldownUntil at hcooldown ⊢
      rwa [hreads.cooldowns] at hcooldown

/-- For every reachable ledger and all cooldowns: after a named wait some attempt is admissible
exactly if one has been freed at the soonest moment at which one is ready. If no wait is named
although none is admissible, no cooldown is pending, and every refusing bucket has no known reset
and admits the attempt only once it is stale. -/
theorem quota_hold_worth_iff {self : LedgerId}
    (hreach : Machine.Reachable QuotaLedger.step (.new self) w.service.quota) (cfg : Settings)
    (estimate : QuotaEstimate) (now : Time) (attempts : List ModelAttempt) (w' : World)
    (wait : Duration)
    (hwait : w.quotaRetryAfterForAttempts cfg estimate now attempts 0 = (w', wait)) :
    ((0 < wait → ∃ a ∈ attempts, w'.admissible cfg estimate (now + wait) a = true) ↔
      ∀ u, IsLeast {u | ReadyAt cfg estimate now u w attempts} u →
        ∃ a ∈ attempts, Freed cfg estimate now w u a) ∧
    (wait = 0 → (∀ a ∈ attempts, w.admissible cfg estimate now a = false) →
      ∀ a ∈ attempts, w.service.quotaCooldownUntil cfg a ≤ now ∧
        (∃ key q, Refuses cfg estimate now w a key q) ∧
        ∀ key q, Refuses cfg estimate now w a key q → q.observation.resetAt = 0 ∧
          ∀ t, now ≤ t → w'.admissible cfg estimate t a = true →
            staleMinute key q.observation t = true) := by
  have hs := reachable_sound hreach
  have hreads := Reads.quotaRetryAfterForAttempts cfg estimate now attempts 0 w
  have hstocks := @Stocks.quotaRetryAfter w now cfg estimate attempts 0 hs
  have hsoonest := @quotaRetryAfter_ready cfg estimate now w attempts _ 0 IsSoonest.none hs
  rw [hwait] at hreads hstocks hsoonest
  have hafter : ∀ {t a}, now ≤ t → (w'.admissible cfg estimate t a = true ↔
      Freed cfg estimate now w t a) :=
    fun ht => admissible_iff (hreads.sound hs) hreads.cooldowns hstocks ht
  have hleast : ∀ u, IsLeast {u | ReadyAt cfg estimate now u w attempts} u ↔
      0 < wait ∧ u = now + wait :=
    fun u => (hsoonest.congr fun e _ => or_iff_right id).isLeast_iff fun _ h => h.later
  refine ⟨⟨fun hworth u hu => ?_, fun hfreed hpos => ?_⟩, fun hzero hnone a ha => ?_⟩
  · obtain ⟨hpos, rfl⟩ := (hleast u).mp hu
    obtain ⟨a, ha, hadmissible⟩ := hworth hpos
    exact ⟨a, ha, (hafter (Int.le_add_of_nonneg_right hpos.le)).mp hadmissible⟩
  · obtain ⟨a, ha, h⟩ := hfreed _ ((hleast _).mpr ⟨hpos, rfl⟩)
    exact ⟨a, ha, (hafter (Int.le_add_of_nonneg_right hpos.le)).mpr h⟩
  · have hnever : ∀ u, ¬ ReadyAt cfg estimate now u w attempts := by
      intro u h
      obtain ⟨hpos, -⟩ := hsoonest.least (u - now) (Int.sub_pos_of_lt h.later)
        (Or.inr (by rwa [Int.add_comm, Int.sub_add_cancel]))
      exact absurd hpos (by rw [hzero]; exact Int.lt_irrefl 0)
    obtain ⟨hcooldown, hundated⟩ := undated_of_not_readyAt hs hnever ha
    refine ⟨hcooldown, ?_, fun key q h => ⟨hundated key q h, fun t ht hadmissible => ?_⟩⟩
    · by_contra hrefused
      have hfreed : Freed cfg estimate now w now a :=
        ⟨hcooldown, fun key q h => absurd ⟨key, q, h⟩ hrefused⟩
      have hyes := (@admissible_iff cfg estimate now now w w a hs rfl
        (Stocks.of_reread (.refl _)) (Int.le_refl now)).mpr hfreed
      rw [hnone a ha] at hyes
      cases hyes
    · rcases ((hafter ht).mp hadmissible).buckets key q h with hexpired | hstale
      · simp [expired, Time.isZero, hundated key q h] at hexpired
      · exact hstale

def groqSettings : Settings := { demoSettings with ambientAllowed := true, groqKey := "g" }

/-- The model is cooling down until 14, and `remaining` requests of the day are left. -/
def coolingGroq (remaining : Int64) : World :=
  { groqWorld remaining with
    service := { (groqWorld remaining).service with
      quotaCooldowns :=
        AList.insert (quotaCooldownKey groqSettings groqAttempt) 14 ∅ } }

/-- With a request left, the attempt is freed when the cooldown is over. With none left and no
cooldown no wait is named. -/
theorem cooldown_wait_worth : (∀ u, IsLeast
        {u | ReadyAt groqSettings ⟨1, 2, 1, 1, true⟩ 9 u (coolingGroq 1) [groqAttempt]} u →
      ∃ a ∈ [groqAttempt], Freed groqSettings ⟨1, 2, 1, 1, true⟩ 9 (coolingGroq 1) u a) ∧
    ∃ key q, Refuses groqSettings ⟨1, 2, 1, 1, true⟩ 9 (groqWorld 0) groqAttempt key q ∧
      q.observation.resetAt = 0 := by
  have hworth := (quota_hold_worth_iff (w := coolingGroq 1) (reachable_groqLedger (.inr rfl))
    groqSettings ⟨1, 2, 1, 1, true⟩ 9 [groqAttempt] _ _ rfl).1
  have hunknown := (quota_hold_worth_iff (w := groqWorld 0) (reachable_groqLedger (.inl rfl))
    groqSettings ⟨1, 2, 1, 1, true⟩ 9 [groqAttempt] _ _ rfl).2
  refine ⟨hworth.mp fun _ => ⟨groqAttempt, mem_singleton.mpr rfl, by decide +kernel⟩, ?_⟩
  obtain ⟨-, ⟨key, q, hrefuses⟩, hundated⟩ := hunknown (by decide +kernel)
    (forall_mem_singleton.mpr (by decide +kernel)) groqAttempt (mem_singleton.mpr rfl)
  exact ⟨key, q, hrefuses, (hundated key q hrefuses).1⟩

/-- The requests of the day are spent without a known reset: the request is told to wait for the
cooldown, and refused after it. -/
theorem undated_bucket_refuses :
    Machine.Reachable QuotaLedger.step (.new 0) (coolingGroq 0).service.quota ∧
      ((coolingGroq 0).quotaRetryAfterForAttempts groqSettings ⟨1, 2, 1, 1, true⟩ 9
        [groqAttempt] 0).2 = 5 ∧
      ((coolingGroq 0).quotaRetryAfterForAttempts groqSettings ⟨1, 2, 1, 1, true⟩ 9
        [groqAttempt] 0).1.admissible groqSettings ⟨1, 2, 1, 1, true⟩ (9 + 5) groqAttempt = false :=
  ⟨reachable_groqLedger (.inl rfl), by decide +kernel, by decide +kernel⟩

end CalvoProxy
