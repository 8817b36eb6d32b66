import CalvoProxy.Router.Restart
import CalvoProxy.Router.Steps

/-!
# The filter and the reservation

`quotaCanFit` and `ReserveAll` make the same test, but a snapshot hides a stale minute bucket. It
also drops it, so that they agree: after a yes none of the buckets that limit the attempt is stale
(`allFit_tidy`).
-/

namespace CalvoProxy

open QuotaLedger List World QuotaLedger

variable {rs : List QuotaReservation} {p : PublishedLimit}

namespace QuotaLedger

variable {l : QuotaLedger} {now : Time} {key k : QuotaBucketKey}

/-! ## Buckets that are present and shown -/

theorem mem_keys_iff : key ∈ (l.keys now).2 ↔
    ∃ a, (l.purgeExpiredLocked now).buckets.lookup key = some a := by
  unfold keys
  simp only
  rw [(perm_insertionSort _ _).mem_iff, ← Option.isSome_iff_exists, AList.lookup_isSome]
  rfl

def Tidy (now : Time) (l : QuotaLedger) (key : QuotaBucketKey) : Prop :=
  key ∈ (l.keys now).2 → (l.visible now key).isSome = true

theorem Tidy.purge (h : l.Tidy now key) : (l.purgeExpiredLocked now).Tidy now key := by
  have hread : Reread now _ _ := Reread.purge l
  intro hmem
  rw [hread.visible key]
  refine h (mem_keys_iff.mpr ?_)
  rw [← purge_purge l (Int.le_refl now)]
  exact mem_keys_iff.mp hmem

theorem snapshot_lookup_some {a : Addr} (h : (l.snapshot k now).1.buckets.lookup key = some a) :
    (l.purgeExpiredLocked now).buckets.lookup key = some a := by
  unfold snapshot at h
  simp only at h
  split at h
  · exact h
  split at h
  · rw [GoMap.lookup_erase_eq] at h
    split at h
    · cases h
    · exact h
  · exact h

theorem mem_keys_of_snapshot (h : key ∈ ((l.snapshot k now).1.keys now).2) :
    key ∈ (l.keys now).2 := by
  obtain ⟨a, ha⟩ := mem_keys_iff.mp h
  exact mem_keys_iff.mpr ⟨a, snapshot_lookup_some (GoMap.lookup_keep.mp ha).1⟩

theorem Tidy.snapshot (h : l.Tidy now key) (k : QuotaBucketKey) :
    (l.snapshot k now).1.Tidy now key := by
  have hread : Reread now _ _ := Reread.snapshot l k
  intro hmem
  rw [hread.visible key]
  exact h (mem_keys_of_snapshot hmem)

theorem tidy_snapshot_self (hp : l.Pointed) (key : QuotaBucketKey) :
    (l.snapshot key now).1.Tidy now key := by
  have hread : Reread now _ _ := Reread.snapshot l key
  intro hmem
  rw [hread.visible key]
  cases hv : l.visible now key with
  | some q => rfl
  | none =>
    obtain ⟨a, ha⟩ := mem_keys_iff.mp hmem
    have hsome := (GoMap.lookup_keep.mp ha).1
    rw [snapshot_lookup hp hv] at hsome
    cases hsome

/-! ## Reservations under different keys -/

theorem aggregate_distinct {rs : List QuotaReservation} {amounts : GoMap QuotaBucketKey Int64}
    (hnodup : (rs.map (·.key)).Nodup) (hvalid : ∀ r ∈ rs, validQuotaKey r.key = true ∧ 0 < r.cost)
    (hnew : ∀ r ∈ rs, amounts.lookup r.key = none) :
    ∃ amounts', aggregate amounts rs = some amounts' ∧
      ∀ k c, amounts'.lookup k = some c ↔ amounts.lookup k = some c ∨ ⟨k, c⟩ ∈ rs := by
  induction rs generalizing amounts with
  | nil => exact ⟨amounts, rfl, by simp⟩
  | cons r rs ih =>
    obtain ⟨hfirst, hrest⟩ := nodup_cons.mp hnodup
    obtain ⟨hkey, hcost⟩ := hvalid r mem_cons_self
    have hne : ∀ r' ∈ rs, r'.key ≠ r.key :=
      fun r' hr' heq => hfirst (mem_map.mpr ⟨r', hr', heq⟩)
    obtain ⟨amounts', hagg, hlookup⟩ := @ih (amounts.insert r.key r.cost) hrest
      (fun r' hr' => hvalid r' (mem_cons_of_mem r hr')) fun r' hr' => by
        rw [GoMap.lookup_insert_eq, if_neg (hne r' hr')]
        exact hnew r' (mem_cons_of_mem r hr')
    refine ⟨amounts', ?_, fun k c => ?_⟩
    · have hpos : ¬r.cost < 0 := Int64.not_lt.mpr (Int64.le_of_lt hcost)
      have hzero : r.cost ≠ 0 := fun h => Int64.lt_irrefl (h ▸ hcost)
      have hsum : (amounts.lookup r.key).getD 0 + r.cost = r.cost := by
        rw [hnew r mem_cons_self, Option.getD_none, Int64.zero_add]
      simp only [aggregate, hkey, hpos, hzero, hsum, Bool.not_true, decide_false, Bool.or_self,
        Bool.false_eq_true, if_false]
      exact hagg
    · rw [hlookup k c, GoMap.lookup_insert_eq, mem_cons]
      constructor
      · rintro (h | h)
        · split at h
          · next heq =>
            cases h
            exact Or.inr (Or.inl (by rw [heq]))
          · exact Or.inl h
        · exact Or.inr (Or.inr h)
      · rintro (h | rfl | h)
        · refine Or.inl ?_
          rw [if_neg]
          · exact h
          · rintro rfl
            rw [hnew r mem_cons_self] at h
            cases h
        · exact Or.inl (if_pos rfl)
        · exact Or.inr h

theorem reserveAll_refused_distinct (order : List QuotaBucketKey) (hnodup : (rs.map (·.key)).Nodup)
    (hvalid : ∀ r ∈ rs, validQuotaKey r.key = true ∧ 0 < r.cost) :
    (l.reserveAll rs now order).map Prod.snd = some none ↔
      ∃ r ∈ rs, (l.purgeExpiredLocked now).admits r.key r.cost = false := by
  obtain ⟨amounts, hagg, hlookup⟩ := @aggregate_distinct rs ∅ hnodup hvalid
    fun _ _ => AList.lookup_empty _
  rw [reserveAll_refused]
  constructor
  · intro h
    obtain ⟨k, c, hk, hadmits⟩ := h amounts hagg
    rcases (hlookup k c).mp hk with hempty | hmem
    · rw [AList.lookup_empty] at hempty
      cases hempty
    · exact ⟨⟨k, c⟩, hmem, hadmits⟩
  · rintro ⟨r, hr, hadmits⟩ amounts' hagg'
    rw [show aggregateReservations rs = some amounts from hagg] at hagg'
    cases hagg'
    exact ⟨r.key, r.cost, (hlookup _ _).mpr (Or.inr hr), hadmits⟩

end QuotaLedger

/-! ## Reading on behalf of an attempt -/

section

variable {now : Time} {w : World} {key : QuotaBucketKey}

theorem mem_keys_observeIfUnknown (hs : w.service.quota.Sound) (hreset : now < p.2.2)
    (h : key ∈ ((w.observeIfUnknown now p).service.quota.keys now).2) :
    key ∈ (w.service.quota.keys now).2 ∨ publishes key p = true := by
  rcases observeIfUnknown_cases hs hreset with ⟨-, hl | hl⟩ | ⟨hpublishes, -, hnew, hl⟩
  · exact .inl (hl ▸ h)
  · rw [hl] at h
    exact .inl (mem_keys_of_snapshot h)
  · rw [hl, storeObservation, hnew] at h
    obtain ⟨a, ha⟩ := mem_keys_iff.mp h
    have hinsert := (GoMap.lookup_keep.mp ha).1
    rw [GoMap.lookup_insert_eq] at hinsert
    split at hinsert
    · next heq => exact .inr (heq ▸ hpublishes)
    · exact .inl (mem_keys_of_snapshot (mem_keys_iff.mpr ⟨a, hinsert⟩))

theorem observeIfUnknown_tidy (hs : w.service.quota.Sound) (hreset : now < p.2.2)
    (h : w.service.quota.Tidy now key) :
    (w.observeIfUnknown now p).service.quota.Tidy now key := by
  intro hmem
  rw [visible_observeIfUnknown hs hreset key]
  rcases mem_keys_observeIfUnknown hs hreset hmem with hold | hnew
  · rw [Option.isSome_or, h hold, Bool.true_or]
  · rw [if_pos hnew, Option.isSome_or, Option.isSome_some, Bool.or_true]

theorem Inquiry.tidy {K : QuotaBucketKey → Prop} {C : String → Prop} {α : Type} {Q : α → Prop}
    {f : World → World × α} (h : Inquiry K C now Q f) (hs : w.service.quota.Sound)
    (ht : w.service.quota.Tidy now key) : (f w).1.service.quota.Tidy now key :=
  h.relates (R := fun l l' => l.Tidy now key → l'.Tidy now key) (fun _ => id)
    (fun h h' ht => h' (h ht)) observeIfUnknown_tidy (fun _ k ht => ht.snapshot k) (fun _ => .purge) hs
    ht

theorem allFit_tidy (hs : w.service.quota.Sound) (hfit : (allFit now rs w).2 = true)
    (h : w.service.quota.Tidy now key ∨ key ∈ rs.map (·.key)) :
    (allFit now rs w).1.service.quota.Tidy now key := by
  induction rs generalizing w with
  | nil =>
    rcases h with h | h
    · exact h
    · cases h
  | cons r rs ih =>
    have hnext : (w.snapshot r.key now).1.service.quota.Tidy now key ∨ key ∈ rs.map (·.key) := by
      rcases h with h | h
      · exact Or.inl (h.snapshot r.key)
      · rcases mem_cons.mp h with rfl | h
        · exact Or.inl (tidy_snapshot_self hs.pointed r.key)
        · exact Or.inr h
    have hsound : (w.snapshot r.key now).1.service.quota.Sound := hs.snapshot r.key now
    have hread : w.snapshot r.key now = ((w.snapshot r.key now).1, (w.snapshot r.key now).2) := rfl
    generalize (w.snapshot r.key now).1 = w' at hread hnext hsound
    generalize (w.snapshot r.key now).2 = q at hread
    cases q with
    | none =>
      simp only [allFit, hread] at hfit ⊢
      exact ih hsound hfit hnext
    | some q =>
      simp only [allFit, hread] at hfit ⊢
      split
      · next hroom =>
        rw [if_pos hroom] at hfit
        exact ih hsound hfit hnext
      · next hroom =>
        rw [if_neg hroom] at hfit
        split
        · next hprobe =>
          rw [if_pos hprobe] at hfit
          exact ih hsound hfit hnext
        · next hprobe =>
          rw [if_neg hprobe] at hfit
          cases hfit

theorem allFit_reread (now : Time) (rs : List QuotaReservation) (w : World) :
    Reread now w.service.quota (allFit now rs w).1.service.quota := by
  induction rs generalizing w with
  | nil => exact .refl _
  | cons r rs ih =>
    have hfirst : Reread now w.service.quota (w.snapshot r.key now).1.service.quota :=
      Reread.snapshot w.service.quota r.key
    unfold allFit
    split
    · next w' hread =>
      rw [hread] at hfirst
      exact hfirst.trans (ih w')
    · next w' q hread =>
      rw [hread] at hfirst
      split
      · exact hfirst.trans (ih w')
      · split
        · exact hfirst.trans (ih w')
        · exact hfirst

variable {cfg : Settings} {attempt : ModelAttempt} {credential : String} {estimate : QuotaEstimate}

theorem mem_quotaReservations_iff {r : QuotaReservation} :
    r ∈ (w.quotaReservations cfg attempt credential estimate now).2 ↔
      r.key ∈ ((w.quotaReservations cfg attempt credential estimate now).1.service.quota.keys
          now).2 ∧
        limitsAttempt cfg attempt credential r.key = true ∧
        0 < attemptCost cfg attempt estimate r.key ∧
        r.cost = attemptCost cfg attempt estimate r.key := by
  have hkeys : ∀ w1 : World, ((w1.keys now).1.service.quota.keys now).2 = (w1.keys now).2 := by
    intro w1
    show (((w1.service.quota.purgeExpiredLocked now).purgeExpiredLocked now).buckets.keys.insertionSort
      fun x y => quotaKeyString x ≤ quotaKeyString y) = _
    rw [purge_purge _ (Int.le_refl now)]
    rfl
  unfold quotaReservations
  simp only [hkeys, mem_map, mem_filter, decide_eq_true_eq]
  constructor
  · rintro ⟨key, ⟨⟨hmem, hlimits⟩, hcost⟩, rfl⟩
    exact ⟨hmem, hlimits, hcost, rfl⟩
  · rintro ⟨hmem, hlimits, hcost, heq⟩
    refine ⟨r.key, ⟨⟨hmem, hlimits⟩, hcost⟩, ?_⟩
    obtain ⟨key, cost⟩ := r
    exact congrArg (QuotaReservation.mk key) heq.symm

theorem quotaReservations_nodup :
    ((w.quotaReservations cfg attempt credential estimate now).2.map (·.key)).Nodup := by
  unfold quotaReservations
  simp only [map_map]
  have hid : ((fun r : QuotaReservation => r.key) ∘ fun key => (⟨key, if key.dimension = .tokens then
      (providerQuotaEstimate cfg attempt estimate).tokens
      else (providerQuotaEstimate cfg attempt estimate).requests⟩ : QuotaReservation)) = id := rfl
  rw [hid, map_id]
  refine ((List.Nodup.filter _ (List.Nodup.filter _ ?_)))
  exact (perm_insertionSort _ _).nodup_iff.mpr (AList.keys_nodup _)

theorem quotaCanFit_tidy (hs : w.service.quota.Sound)
    (hfit : (w.quotaCanFit cfg attempt credential estimate now).2 = true)
    (hlimits : limitsAttempt cfg attempt credential key = true)
    (hcost : 0 < attemptCost cfg attempt estimate key) :
    (w.quotaCanFit cfg attempt credential estimate now).1.service.quota.Tidy now key := by
  refine allFit_tidy ((Reads.quotaReservations cfg attempt credential estimate now w).sound hs)
    hfit ?_
  by_cases hmem : key ∈ ((w.quotaReservations cfg attempt credential estimate
      now).1.service.quota.keys now).2
  · refine Or.inr (mem_map.mpr ⟨⟨key, attemptCost cfg attempt estimate key⟩, ?_, rfl⟩)
    exact mem_quotaReservations_iff.mpr ⟨hmem, hlimits, hcost, rfl⟩
  · exact Or.inl fun h => absurd h hmem

def World.planAfterFit (cfg : Settings) (attempt : ModelAttempt) (credential : String)
    (estimate : QuotaEstimate) (now : Time) (w : World) : World × List QuotaReservation :=
  (w.quotaCanFit cfg attempt credential estimate now).1.quotaReservations cfg attempt credential
    estimate now

/-- The answer of `ReserveAll` to them, with nothing in between. -/
def World.reserveAfterFit (cfg : Settings) (attempt : ModelAttempt) (credential : String)
    (estimate : QuotaEstimate) (now : Time) (order : List QuotaBucketKey) (w : World) :
    Option (QuotaLedger × Option QuotaTicket) :=
  (w.planAfterFit cfg attempt credential estimate now).1.service.quota.reserveAll
    (w.planAfterFit cfg attempt credential estimate now).2 now order

section Plan

theorem planAfterFit_reads : Reads w (w.planAfterFit cfg attempt credential estimate now).1 :=
  ((Inquiry.fits cfg attempt credential estimate now).reads w).trans (.quotaReservations ..)

variable (hs : w.service.quota.Sound)
include hs

theorem visible_planAfterFit (key : QuotaBucketKey) :
    (w.planAfterFit cfg attempt credential estimate now).1.service.quota.visible now key =
      seen cfg attempt credential now w.service.quota key := by
  have hsound := ((Inquiry.fits cfg attempt credential estimate now).reads w).sound hs
  have hfirst : (w.quotaCanFit cfg attempt credential estimate now).1.service.quota.visible now key =
      seen cfg attempt credential now w.service.quota key :=
    ((allFit_reread now _ _).visible key).trans
      (@World.visible_quotaReservations now w cfg attempt credential estimate hs key)
  rw [planAfterFit, visible_quotaReservations hsound, seen, hfirst, seen,
    Option.or_assoc, Option.or_self]

theorem seen_fits {q : QuotaSnapshot}
    (hq : seen cfg attempt credential now w.service.quota key = some q)
    (hcost : 0 < attemptCost cfg attempt estimate key) :
    q.fits (attemptCost cfg attempt estimate key) = ((w.planAfterFit cfg attempt credential estimate
        now).1.service.quota.purgeExpiredLocked now).admits key
          (attemptCost cfg attempt estimate key) :=
  fits_eq_admits hcost ((visible_planAfterFit hs key).trans hq)

theorem reserveAfterFit_refused
    (hkeys : (w.planAfterFit cfg attempt credential estimate now).1.service.quota.ValidKeys)
    (order : List QuotaBucketKey) :
    (w.quotaCanFit cfg attempt credential estimate now).2 = false ↔
      (w.reserveAfterFit cfg attempt credential estimate now order).map Prod.snd = some none := by
  have hvalid : ∀ r ∈ (w.planAfterFit cfg attempt credential estimate now).2,
      validQuotaKey r.key = true ∧ 0 < r.cost := by
    intro r hr
    obtain ⟨hmem, -, hcost, heq⟩ := mem_quotaReservations_iff.mp hr
    obtain ⟨a, ha⟩ := mem_keys_iff.mp hmem
    exact ⟨hkeys r.key a (GoMap.lookup_keep.mp ha).1, heq ▸ hcost⟩
  have hnodup : ((w.planAfterFit cfg attempt credential estimate now).2.map (·.key)).Nodup :=
    quotaReservations_nodup
  rw [reserveAfterFit, reserveAll_refused_distinct order hnodup hvalid]
  constructor
  · intro hno
    have hnot := mt (quotaCanFit_iff hs).mpr (Bool.eq_false_iff.mp hno)
    push Not at hnot
    obtain ⟨key, hlimits, hcost, hfits⟩ := hnot
    cases hq : seen cfg attempt credential now w.service.quota key with
    | none =>
      rw [hq] at hfits
      exact absurd rfl hfits
    | some q =>
      rw [hq, Option.all_some, seen_fits hs hq hcost] at hfits
      refine ⟨⟨key, attemptCost cfg attempt estimate key⟩, ?_, Bool.eq_false_iff.mpr hfits⟩
      exact mem_quotaReservations_iff.mpr
        ⟨mem_keys_of_visible ((visible_planAfterFit hs key).trans hq), hlimits, hcost, rfl⟩
  · rintro ⟨r, hr, hadmits⟩
    refine Bool.eq_false_iff.mpr fun hyes => ?_
    obtain ⟨hmem, hlimits, hcost, heq⟩ := mem_quotaReservations_iff.mp hr
    -- the bucket is not stale, so the filter has been shown it
    have htidy : (w.planAfterFit cfg attempt credential estimate now).1.service.quota.Tidy now
        r.key :=
      (Inquiry.reservations cfg attempt credential estimate now).tidy
        (((Inquiry.fits cfg attempt credential estimate now).reads w).sound hs)
        (quotaCanFit_tidy hs hyes hlimits hcost)
    obtain ⟨q, hq⟩ := Option.isSome_iff_exists.mp (htidy hmem)
    rw [visible_planAfterFit hs] at hq
    have hfits := (quotaCanFit_iff hs).mp hyes r.key hlimits hcost
    rw [hq, Option.all_some, seen_fits hs hq hcost, ← heq, hadmits] at hfits
    cases hfits

end Plan

/-- For every reachable ledger, `quotaCanFit` says no exactly if the reservation that follows is
refused; while there are ticket ids, yes exactly if it succeeds. -/
theorem quotaCanFit_agrees {self : LedgerId}
    (hreach : Machine.Reachable step (.new self) w.service.quota) (cfg : Settings)
    (attempt : ModelAttempt) (credential : String) (estimate : QuotaEstimate) (now : Time)
    (order : List QuotaBucketKey) :
    ((w.quotaCanFit cfg attempt credential estimate now).2 = false ↔
        (w.reserveAfterFit cfg attempt credential estimate now order).map Prod.snd = some none) ∧
      (w.service.quota.ticketCount + 2 ≤ 2 ^ 64 →
        ((w.quotaCanFit cfg attempt credential estimate now).2 = true ↔
          ∃ l ticket, w.reserveAfterFit cfg attempt credential estimate now order =
            some (l, some ticket))) := by
  obtain ⟨es, hrun, hquiet⟩ := (@planAfterFit_reads now w cfg attempt credential estimate).calls
  have hrefused := reserveAfterFit_refused (reachable_sound hreach)
    (reachable_validKeys (hreach.run hrun.run)) order
  refine ⟨hrefused, fun hroom => ?_⟩
  have hcount := hrun.ticketCount (granted_of_quiet hquiet).le
  obtain ⟨⟨l, ticket⟩, hreserved⟩ := Option.isSome_iff_exists.mp
    (@reserveAll_isSome (w.planAfterFit cfg attempt credential estimate now).1.service.quota
      (w.planAfterFit cfg attempt credential estimate now).2 now order (by omega))
  change w.reserveAfterFit cfg attempt credential estimate now order = some (l, ticket) at hreserved
  rw [hreserved] at hrefused ⊢
  cases ticket with
  | none => simpa using hrefused.mpr rfl
  | some ticket =>
    have hyes : (w.quotaCanFit cfg attempt credential estimate now).2 ≠ false := fun hno => by
      have hnone := hrefused.mp hno
      simp at hnone
    simpa using hyes

/-- A provider that has told how many requests remain. -/
def groqLedger (remaining : Int64) : QuotaLedger :=
  ⟨0, [⟨⟨1, remaining, 0, .providerHeader, .authoritative, 5⟩, 0, false⟩],
    AList.insert ScoredService.groqDay 0 ∅, ∅, 0⟩

def groqWorld (remaining : Int64) : World :=
  ⟨(ScoredService.ofLedger (groqLedger remaining)).service, [], [], []⟩

def groqAttempt : ModelAttempt := { demoAttempt with provider := .groq }

theorem reachable_groqLedger {remaining : Int64} (h : remaining = 0 ∨ remaining = 1) :
    Machine.Reachable step (.new 0) (groqLedger remaining) := by
  have hrun : (Machine.exec step (.new 0) [.observe ScoredService.groqDay
      ⟨1, remaining, 0, .providerHeader, .authoritative, 0⟩ 5]).map Prod.snd =
        some (groqLedger remaining) := by
    rcases h with rfl | rfl <;> rfl
  obtain ⟨⟨tr, l⟩, h, heq⟩ := Option.map_eq_some_iff.mp hrun
  cases heq
  exact ⟨tr, Machine.run_of_exec h⟩

/-- The last request of the day is granted, the next one refused. -/
theorem last_request_agrees :
    (∃ l ticket, (groqWorld 1).reserveAfterFit demoSettings groqAttempt "g" ⟨1, 2, 1, 1, true⟩ 9 [] =
        some (l, some ticket)) ∧
      ((groqWorld 0).reserveAfterFit demoSettings groqAttempt "g" ⟨1, 2, 1, 1, true⟩ 9 []).map
        Prod.snd = some none := by
  have hone := quotaCanFit_agrees (w := groqWorld 1) (reachable_groqLedger (.inr rfl)) demoSettings
    groqAttempt "g" ⟨1, 2, 1, 1, true⟩ 9 []
  have hnone := quotaCanFit_agrees (w := groqWorld 0) (reachable_groqLedger (.inl rfl)) demoSettings
    groqAttempt "g" ⟨1, 2, 1, 1, true⟩ 9 []
  exact ⟨(hone.2 (by decide)).mp (by decide +kernel), hnone.1.mp (by decide +kernel)⟩

end

end CalvoProxy
