import CalvoProxy.Quota.Reading
import CalvoProxy.Router.Twins

/-!
# What `quotaCanFit` answers

`quotaCanFit` reads the ledger through `Snapshot` at one time, so its answer is a property of what
the ledger shows: every bucket that limits the attempt has room for the cost or still has its probe
(`quotaCanFit_iff`).
-/

namespace CalvoProxy

open QuotaLedger List World

def QuotaSnapshot.fits (cost : Int64) (q : QuotaSnapshot) : Bool :=
  cost ≤ q.available || (q.observation.confidence = .estimated && q.reserved = 0 && !q.probeSettled)

def attemptCost (cfg : Settings) (attempt : ModelAttempt) (estimate : QuotaEstimate)
    (key : QuotaBucketKey) : Int64 :=
  if key.dimension = .tokens then (providerQuotaEstimate cfg attempt estimate).tokens
  else (providerQuotaEstimate cfg attempt estimate).requests

def publishes (key : QuotaBucketKey) (p : PublishedLimit) : Bool :=
  p.1 = key && 0 < p.2.1 && validQuotaKey key

def publishedSnapshot (now : Time) (p : PublishedLimit) : QuotaSnapshot :=
  ⟨published p.2.1 p.2.2 now, p.1, 0, p.2.1, false⟩

/-- What `quotaCanFit` is shown under `key`. -/
def seen (cfg : Settings) (attempt : ModelAttempt) (credential : String) (now : Time)
    (l : QuotaLedger) (key : QuotaBucketKey) : Option QuotaSnapshot :=
  (l.visible now key).or (((bootstrapLimits cfg attempt credential now).find? (publishes key)).map
    (publishedSnapshot now))

section

variable {now : Time} {w : World}

theorem World.allFit_eq (now : Time) (rs : List QuotaReservation) (w : World) :
    (allFit now rs w).2 =
      rs.all fun r => (w.service.quota.visible now r.key).all (·.fits r.cost) := by
  induction rs generalizing w with
  | nil => rfl
  | cons r rs ih =>
    have hread : Reread now _ _ := Reread.snapshot w.service.quota r.key
    have hvisible : w.service.quota.visible now r.key = (w.snapshot r.key now).2 := rfl
    have hrest := ih (w.snapshot r.key now).1
    -- the snapshot of `r` does not change what the later ones are shown
    have hsame : (w.snapshot r.key now).1.service.quota.visible now = w.service.quota.visible now :=
      funext hread.visible
    rw [hsame] at hrest
    rw [all_cons, hvisible, ← hrest]
    cases hs : w.snapshot r.key now with
    | mk w' s =>
      cases s with
      | none => simp only [allFit, hs, Option.all_none, Bool.true_and]
      | some q =>
        simp only [allFit, hs, Option.all_some, QuotaSnapshot.fits]
        split
        · next hroom => simp [hroom]
        next hroom =>
        split
        · next hprobe => simp [hprobe]
        · next hprobe => simp [hroom, hprobe]

theorem shown_published {p : PublishedLimit} (hlimit : 0 < p.2.1) (hreset : now < p.2.2) :
    shown now p.1 ⟨published p.2.1 p.2.2 now, 0, false⟩ = some (publishedSnapshot now p) := by
  have hstale : staleMinute p.1 (published p.2.1 p.2.2 now) now = false := by
    unfold staleMinute Time.after
    simp [published]
  have havailable : (if p.2.1 - 0 < 0 then 0 else p.2.1 - 0) = p.2.1 := by
    rw [Int64.sub_zero, if_neg (Int64.not_lt.mpr (Int64.le_of_lt hlimit))]
  unfold shown
  rw [expired_published hreset, hstale]
  show some (⟨_, _, 0, if p.2.1 - 0 < 0 then 0 else p.2.1 - 0, false⟩ : QuotaSnapshot) = _
  rw [havailable]
  rfl

section

variable (hs : w.service.quota.Sound)
include hs

/-- A published limit is passed over, or it is new and is stored. -/
theorem observeIfUnknown_cases {p : PublishedLimit} (hreset : now < p.2.2) :
    ((publishes p.1 p = true → (w.service.quota.visible now p.1).isSome = true) ∧
      ((w.observeIfUnknown now p).service.quota = w.service.quota ∨
        (w.observeIfUnknown now p).service.quota = (w.service.quota.snapshot p.1 now).1)) ∨
    publishes p.1 p = true ∧ w.service.quota.visible now p.1 = none ∧
      ((w.service.quota.snapshot p.1 now).1.purgeExpiredLocked now).buckets.lookup p.1 = none ∧
      (w.observeIfUnknown now p).service.quota =
        ((w.service.quota.snapshot p.1 now).1.purgeExpiredLocked now).storeObservation p.1
          (published p.2.1 p.2.2 now) := by
  obtain ⟨k, limit, reset⟩ := p
  unfold observeIfUnknown publishes
  by_cases hlimit : limit ≤ 0
  · simp [hlimit, Int64.not_lt.mpr hlimit]
  have hpos : 0 < limit := Int64.not_le.mp hlimit
  simp only [if_neg hlimit]
  cases hk : w.service.quota.visible now k with
  | some q =>
    have hsnapshot : w.snapshot k now = ((w.snapshot k now).1, some q) := Prod.ext rfl hk
    rw [hsnapshot]
    exact .inl ⟨fun _ => rfl, .inr rfl⟩
  | none =>
    have hsnapshot : w.snapshot k now = ((w.snapshot k now).1, none) := Prod.ext rfl hk
    rw [hsnapshot]
    have hstored := @observe_published (w.service.quota.snapshot k now).1 now k limit reset hreset
    by_cases hvalid : validQuotaKey k = true ∧ 0 ≤ limit
    · exact .inr ⟨by simp [hvalid.1, hpos], rfl,
        GoMap.lookup_keep_eq_none (snapshot_lookup hs.pointed hk), hstored.trans (if_pos hvalid)⟩
    · refine .inl ⟨fun hp => absurd ⟨?_, Int64.le_of_lt hpos⟩ hvalid,
        .inr (hstored.trans (if_neg hvalid))⟩
      exact (Bool.and_eq_true_iff.mp hp).2

theorem visible_observeIfUnknown {p : PublishedLimit}
    (hreset : now < p.2.2) (key : QuotaBucketKey) :
    (w.observeIfUnknown now p).service.quota.visible now key = (w.service.quota.visible now key).or
        (if publishes key p then some (publishedSnapshot now p) else none) := by
  have hread : Reread now _ _ := Reread.snapshot w.service.quota p.1
  have hkey : publishes key p = true → p.1 = key := by
    simp only [publishes, Bool.and_eq_true, decide_eq_true_eq]
    exact fun h => h.1.1
  rcases observeIfUnknown_cases hs hreset with ⟨hknown, hl⟩ | ⟨hpublishes, hnone, hnew, hl⟩
  · have hsame : (w.observeIfUnknown now p).service.quota.visible now key =
        w.service.quota.visible now key := by
      rcases hl with hl | hl
      · rw [hl]
      · rw [hl, hread.visible key]
    rw [hsame]
    split
    · next hp =>
      cases hkey hp
      rw [Option.or_of_isSome (hknown hp)]
    · rw [Option.or_none]
  · have hpointed := ((hs.snapshot p.1 now).purgeExpiredLocked now).pointed
    rw [hl, visible_eq, Moved.bucketOf_store_new hpointed hnew]
    by_cases heq : key = p.1
    · subst heq
      have hpos : 0 < p.2.1 := by simp_all [publishes]
      rw [if_pos rfl, Option.bind_some, shown_published hpos hreset, hnone, if_pos hpublishes]
      rfl
    · have hpurge : Reread now _ _ := Reread.purge (w.service.quota.snapshot p.1 now).1
      rw [if_neg heq, ← visible_eq, hpurge.visible key, hread.visible key,
        if_neg fun hp => heq (hkey hp).symm, Option.or_none]

theorem World.visible_ensureBootstrapQuota (cfg : Settings)
    (attempt : ModelAttempt) (credential : String) (now : Time) (key : QuotaBucketKey) :
    (w.ensureBootstrapQuota cfg attempt credential now).service.quota.visible now key =
      seen cfg attempt credential now w.service.quota key := by
  unfold ensureBootstrapQuota seen
  have hresets := bootstrapLimits_reset cfg attempt credential now
  generalize bootstrapLimits cfg attempt credential now = limits at hresets
  induction limits generalizing w with
  | nil => simp
  | cons p limits ih =>
    have hfirst := visible_observeIfUnknown hs (hresets p mem_cons_self) key
    rw [foldl_cons, ih ((Reads.observeIfUnknown now w p).sound hs)
      fun q hq => hresets q (mem_cons_of_mem p hq), hfirst, Option.or_assoc]
    congr 1
    cases hp : publishes key p with
    | true | false => simp [hp]

end

theorem mem_keys_of_visible {l : QuotaLedger} {key : QuotaBucketKey} {q : QuotaSnapshot}
    (h : l.visible now key = some q) : key ∈ (l.keys now).2 := by
  have hkey := visible_key h
  have hreported : q ∈ l.reported now := mem_reported.mpr (by rw [hkey, h])
  obtain ⟨k, hk, hq⟩ := mem_filterMap.mp hreported
  rw [← hkey, visible_key hq]
  exact hk

section Reservations

variable {cfg : Settings} {attempt : ModelAttempt} {credential : String} {estimate : QuotaEstimate}
  (hs : w.service.quota.Sound)
include hs

theorem World.visible_quotaReservations (key : QuotaBucketKey) :
    (w.quotaReservations cfg attempt credential estimate now).1.service.quota.visible now key =
      seen cfg attempt credential now w.service.quota key := by
  have hboot := visible_ensureBootstrapQuota hs cfg attempt credential now
  unfold quotaReservations
  simp only
  generalize w.ensureBootstrapQuota cfg attempt credential now = w1 at hboot
  have hread : Reread now _ _ := Reread.keysRead w1.service.quota
  exact (hread.visible key).trans (hboot key)

theorem World.mem_quotaReservations {r : QuotaReservation}
    {q : QuotaSnapshot} (hq : seen cfg attempt credential now w.service.quota r.key = some q) :
    r ∈ (w.quotaReservations cfg attempt credential estimate now).2 ↔
      limitsAttempt cfg attempt credential r.key = true ∧
        0 < attemptCost cfg attempt estimate r.key ∧
        r.cost = attemptCost cfg attempt estimate r.key := by
  have hboot := visible_ensureBootstrapQuota hs cfg attempt credential now
  unfold quotaReservations
  simp only
  generalize w.ensureBootstrapQuota cfg attempt credential now = w1 at hboot
  simp only [mem_map, mem_filter, decide_eq_true_eq]
  constructor
  · rintro ⟨key, ⟨⟨-, hlimits⟩, hcost⟩, rfl⟩
    exact ⟨hlimits, hcost, rfl⟩
  · rintro ⟨hlimits, hcost, heq⟩
    rw [← hboot] at hq
    refine ⟨r.key, ⟨⟨mem_keys_of_visible hq, hlimits⟩, hcost⟩, ?_⟩
    obtain ⟨key, cost⟩ := r
    exact congrArg (QuotaReservation.mk key) heq.symm

theorem quotaCanFit_iff : (w.quotaCanFit cfg attempt credential estimate now).2 = true ↔
      ∀ key, limitsAttempt cfg attempt credential key = true →
        0 < attemptCost cfg attempt estimate key →
        (seen cfg attempt credential now w.service.quota key).all
          (·.fits (attemptCost cfg attempt estimate key)) = true := by
  have hvisible := fun key => @World.visible_quotaReservations now w cfg attempt credential estimate
    hs key
  have hmem := fun r q => @World.mem_quotaReservations now w cfg attempt credential estimate hs r q
  unfold quotaCanFit
  simp only
  generalize w.quotaReservations cfg attempt credential estimate now = planned at hvisible hmem
  rw [allFit_eq]
  simp only [all_eq_true, hvisible]
  constructor
  · intro hall key hlimits hcost
    cases hq : seen cfg attempt credential now w.service.quota key with
    | none => rfl
    | some q =>
      have hfits := hall ⟨key, attemptCost cfg attempt estimate key⟩
        ((hmem ⟨key, attemptCost cfg attempt estimate key⟩ q hq).mpr ⟨hlimits, hcost, rfl⟩)
      simp only [hq] at hfits
      exact hfits
  · intro hall r hr
    cases hq : seen cfg attempt credential now w.service.quota r.key with
    | none => rfl
    | some q =>
      obtain ⟨hlimits, hcost, heq⟩ := (hmem r q hq).mp hr
      rw [heq, ← hq]
      exact hall r.key hlimits hcost

end Reservations

end

end CalvoProxy
