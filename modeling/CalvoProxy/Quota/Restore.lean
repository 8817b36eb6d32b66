import CalvoProxy.Quota.Expiry

/-!
# Loading what a ledger shows into a new ledger

A new ledger observes the saved snapshots one by one, and has every bucket that was shown with no
reservation and the probe unspent (`reloaded_live`). `Survives` says when this cannot be told from
the answers of `ReserveAll`.
-/

namespace CalvoProxy

open List Option Int64

variable {b : QuotaBucket} {qs : List QuotaSnapshot} {c : Int64} {order : List QuotaBucketKey}
  {q : QuotaSnapshot}

namespace QuotaLedger

variable {l l' : QuotaLedger} {now : Time} {key k : QuotaBucketKey}

/-! ## The keys of a ledger are valid -/

/-- Every key of the map passes the check that `Observe` makes. -/
def ValidKeys (l : QuotaLedger) : Prop :=
  ∀ k a, l.buckets.lookup k = some a → validQuotaKey k = true

namespace ValidKeys

variable (h : l.ValidKeys)
include h

theorem storeObservation (hkey : validQuotaKey key = true)
    (o : QuotaObservation) : (l.storeObservation key o).ValidKeys := by
  unfold QuotaLedger.storeObservation
  split
  · exact h
  intro k a hk
  rw [GoMap.lookup_insert_eq] at hk
  split at hk
  · next heq =>
    subst heq
    exact hkey
  · exact h k a hk

theorem of_writes {now : Time} {E : QuotaBucketKey → Prop} {T : Addr → Prop} {C : Prop} (hw : Writes now E T C (fun k _ => validQuotaKey k = true) l l') :
    l'.ValidKeys := by
  induction hw with
  | drop hdrops => exact fun k a hk => h k a (hdrops.sub hk)
  | count | charge =>
    intro k a hk
    rw [updateBucket_buckets] at hk
    exact h k a hk
  | store _ hkey => exact h.storeObservation hkey _
  | trans _ _ ih ih' => exact ih' (ih h)

theorem step {i : Op} {o : Res} (hs : l.step i = some (l', o)) : l'.ValidKeys :=
  h.of_writes (.step (fun _ hk => hk) (fun _ ha => ha) trivial (fun _ _ hvalid => hvalid) hs)

end ValidKeys

theorem reachable_validKeys {self : LedgerId} (h : Machine.Reachable step (new self) l) :
    l.ValidKeys :=
  h.invariant (P := ValidKeys) (fun _ _ _ _ hp hs => hp.step hs) fun _ _ hk => by cases hk

theorem reserved_of_no_tickets (hs : l.Sound) (hidle : l.tickets = ∅)
    (hb : l.bucketOf key = some b) : b.reserved = 0 := by
  obtain ⟨a, -, hobject⟩ := bucketOf_eq_some.mp hb
  refine eq_of_toInt ((hs.object a b hobject).reserved_eq.trans ?_)
  unfold heldOn
  rw [hidle]
  rfl

/-! ## Observing one by one -/

def revived (now : Time) (o : QuotaObservation) : QuotaBucket :=
  ⟨normaliseQuotaObservation o now, 0, false⟩

/-- `Observe` accepts the snapshot at `now` and stores its numbers as they are. -/
structure Loadable (now : Time) (q : QuotaSnapshot) : Prop where
  valid : validQuotaKey q.key = true
  limit : 0 ≤ q.observation.limit
  remaining : 0 ≤ q.observation.remaining
  capped : q.observation.remaining ≤ q.observation.limit
  live : expired q.observation now = false

def reload (now : Time) (l : QuotaLedger) (qs : List QuotaSnapshot) : QuotaLedger :=
  qs.foldl (fun l q => (l.observe q.key q.observation now).1) l

theorem expired_normalise (o : QuotaObservation) (now : Time) :
    expired (normaliseQuotaObservation o now) now = expired o now := by
  unfold expired
  rw [Dated.normaliseQuotaObservation_resetAt]

theorem observe_live (hp : l.Pointed) (hq : Loadable now q)
    (hnone : (l.purgeExpiredLocked now).bucketOf q.key = none) (k : QuotaBucketKey) :
    ((l.observe q.key q.observation now).1.purgeExpiredLocked now).bucketOf k =
      if k = q.key then some (revived now q.observation)
      else (l.purgeExpiredLocked now).bucketOf k := by
  have hpurge := (evolves_purgeExpiredLocked l now).pointed hp
  have hvalid : ¬(!validQuotaKey q.key || q.observation.limit < 0 ||
      q.observation.remaining < 0) = true := by
    simp [hq.valid, Int64.not_lt.mpr hq.limit, Int64.not_lt.mpr hq.remaining]
  rw [observe_eq hvalid, hq.live, bucketOf_purge]
  simp only [Bool.false_eq_true, if_false]
  rw [Moved.bucketOf_store_new hpurge (hpurge.lookup_eq_none hnone)]
  split
  · rw [filter_some, expired_normalise, hq.live]
    rfl
  · rw [bucketOf_purge]
    cases l.bucketOf k with
    | none => rfl
    | some b =>
      rw [filter_some]
      cases hexp : expired b.observation now <;> simp [hexp]

theorem reload_sound (hs : l.Sound) : (reload now l qs).Sound := by
  induction qs generalizing l with
  | nil => exact hs
  | cons q qs ih => exact ih (hs.observe q.key q.observation now)

theorem reload_tickets (l : QuotaLedger) (qs : List QuotaSnapshot) :
    (reload now l qs).tickets = l.tickets := by
  induction qs generalizing l with
  | nil => rfl
  | cons q qs ih => exact (ih _).trans (observe_fields l q.key q.observation now).2.1

theorem reload_live (hs : l.Sound) (hqs : ∀ q ∈ qs, Loadable now q)
    (hnodup : (qs.map (·.key)).Nodup)
    (hfree : ∀ q ∈ qs, (l.purgeExpiredLocked now).bucketOf q.key = none) (k : QuotaBucketKey) :
    ((reload now l qs).purgeExpiredLocked now).bucketOf k =
      ((qs.find? fun q => q.key = k).map fun q => revived now q.observation).or
        ((l.purgeExpiredLocked now).bucketOf k) := by
  induction qs generalizing l with
  | nil => rfl
  | cons q qs ih =>
    obtain ⟨hq, hrest⟩ := nodup_cons.mp hnodup
    have hone := observe_live hs.pointed (hqs q mem_cons_self) (hfree q mem_cons_self)
    -- the keys that are still to come stay free
    have hfree' : ∀ q' ∈ qs, ((l.observe q.key q.observation now).1.purgeExpiredLocked now).bucketOf
        q'.key = none := by
      intro q' hq'
      have hne : q'.key ≠ q.key := fun heq => hq (mem_map.mpr ⟨q', hq', heq⟩)
      rw [hone, if_neg hne]
      exact hfree q' (mem_cons_of_mem q hq')
    have htail := ih (hs.observe q.key q.observation now)
      (fun q' hq' => hqs q' (mem_cons_of_mem q hq')) hrest hfree'
    refine htail.trans ?_
    rw [hone, List.find?_cons]
    by_cases hk : q.key = k
    · subst hk
      have hgone : qs.find? (fun q' => q'.key = q.key) = none := by
        rw [List.find?_eq_none]
        intro q' hq' heq
        exact hq (mem_map.mpr ⟨q', hq', of_decide_eq_true heq⟩)
      simp [hgone]
    · simp [hk, Ne.symm hk]

/-! ## Loading what a ledger shows -/

theorem shown_live (h : shown now key b = some q) :
    expired b.observation now = false ∧ staleMinute key b.observation now = false ∧
      q.observation = b.observation := by
  unfold shown at h
  split at h
  · cases h
  · next hlive =>
    simp only [Bool.or_eq_true, not_or, Bool.not_eq_true] at hlive
    exact ⟨hlive.1, hlive.2, (Option.some.inj h) ▸ rfl⟩

theorem reported_keys_nodup (l : QuotaLedger) (now : Time) :
    ((l.reported now).map (·.key)).Nodup := by
  have hkeys : (l.keys now).2.Nodup :=
    (perm_insertionSort _ _).nodup_iff.mpr (l.purgeExpiredLocked now).buckets.nodupKeys
  unfold reported List.Nodup
  rw [pairwise_map]
  refine List.Pairwise.filterMap _ (fun k k' hne q hq q' hq' => ?_) hkeys
  rw [visible_key hq, visible_key hq']
  exact hne

theorem loadable_of_visible (hs : l.Sound) (hkeys : l.ValidKeys) (h : l.visible now key = some q) :
    Loadable now q := by
  have hkey := visible_key h
  rw [visible_eq] at h
  obtain ⟨b, hb, hshown⟩ := bind_eq_some_iff.mp h
  obtain ⟨hlive, -, hobs⟩ := shown_live hshown
  obtain ⟨a, ha, hobject⟩ := bucketOf_eq_some.mp hb
  have hok := hs.object a b hobject
  refine ⟨hkey ▸ hkeys key a ha, ?_, ?_, ?_, hobs ▸ hlive⟩
  all_goals rw [hobs, le_def]
  · exact Int.le_trans hok.remaining_nonneg hok.remaining_le
  · exact hok.remaining_nonneg
  · exact hok.remaining_le

def reloaded (self : LedgerId) (now : Time) (l : QuotaLedger) : QuotaLedger :=
  reload now (new self) (l.reported now)

section Reloaded

variable {self : LedgerId}

theorem find_reported (l : QuotaLedger) (now : Time) (k : QuotaBucketKey) :
    ((l.reported now).find? fun q => q.key = k) = l.visible now k := by
  cases hfind : (l.reported now).find? fun q => q.key = k with
  | some q =>
    have hkey : q.key = k := by simpa using List.find?_some hfind
    rw [← hkey]
    exact (mem_reported.mp (mem_of_find?_eq_some hfind)).symm
  | none =>
    cases hk : l.visible now k with
    | none => rfl
    | some q =>
      have hkey := visible_key hk
      have hmem : q ∈ l.reported now := mem_reported.mpr (hkey ▸ hk)
      exact absurd (decide_eq_true hkey) (List.find?_eq_none.mp hfind q hmem)

theorem reloaded_live (hs : l.Sound) (hkeys : l.ValidKeys) (k : QuotaBucketKey) :
    ((reloaded self now l).purgeExpiredLocked now).bucketOf k =
      (l.visible now k).map fun q => revived now q.observation := by
  have hload := reload_live (sound_new self) (fun q hq =>
    loadable_of_visible hs hkeys (mem_reported.mp hq)) (reported_keys_nodup l now)
    (fun _ _ => rfl) k
  rw [find_reported] at hload
  exact hload.trans (or_none)

end Reloaded

/-- After a reload the bucket admits what it admitted before: it is shown and no estimate, or admits
everything. -/
def Survives (now : Time) (key : QuotaBucketKey) (b : QuotaBucket) : Prop :=
  staleMinute key b.observation now = true ∨ b.observation.confidence = .estimated →
    b.observation.confidence = .estimated ∧ b.probeSettled = false ∨
      b.observation.remaining = Int64.maxValue

theorem revived_observation (h : Loadable now q) : (revived now q.observation).observation =
      { q.observation with
        observedAt := if Time.isZero q.observation.observedAt then now
          else q.observation.observedAt } := by
  have hcapped : ¬q.observation.limit < q.observation.remaining := Int64.not_lt.mpr h.capped
  unfold revived normaliseQuotaObservation
  by_cases hzero : Time.isZero q.observation.observedAt = true
  · simp [hzero, hcapped]
  · simp [hzero, hcapped]

theorem admits_iff (hs : l.Sound) (hidle : l.tickets = ∅) :
    (l.purgeExpiredLocked now).admits k c = true ↔
      ∀ b, l.bucketOf k = some b → expired b.observation now = false → c ≤ b.observation.remaining ∨
          b.observation.confidence = .estimated ∧ b.probeSettled = false := by
  unfold admits
  rw [bucketOf_purge]
  cases hb : l.bucketOf k with
  | none => simp
  | some b =>
    have hreserved := reserved_of_no_tickets hs hidle hb
    rw [filter_some]
    cases hexp : expired b.observation now with
    | true => simp [hexp]
    | false => simp [hexp, hreserved]

section Reloaded

variable {self : LedgerId}

theorem admits_reloaded_iff (hs : l.Sound) (hkeys : l.ValidKeys) :
    ((reloaded self now l).purgeExpiredLocked now).admits k c = true ↔
      ∀ b, l.bucketOf k = some b → expired b.observation now = false →
        staleMinute k b.observation now = false →
        c ≤ b.observation.remaining ∨ b.observation.confidence = .estimated := by
  have hlive := @reloaded_live l now self hs hkeys k
  unfold admits
  rw [hlive, visible_eq]
  cases hb : l.bucketOf k with
  | none => simp
  | some b =>
    cases hq : shown now k b with
    | none =>
      have hhidden : expired b.observation now = true ∨ staleMinute k b.observation now = true := by
        unfold shown at hq
        split at hq
        · next hor => simpa using hor
        · cases hq
      rcases hhidden with hexp | hstale
      · simp [hq, hexp]
      · simp [hq, hstale]
    | some q =>
      obtain ⟨hexp, hstale, hobs⟩ := shown_live hq
      have hload : Loadable now q := by
        have hvisible : l.visible now k = some q := by
          rw [visible_eq, hb]
          exact hq
        exact loadable_of_visible hs hkeys hvisible
      have hrevived := revived_observation hload
      have hremaining := congrArg QuotaObservation.remaining hrevived
      have hconfidence := congrArg QuotaObservation.confidence hrevived
      simp only [hobs] at hremaining hconfidence
      have hreserved : (revived now b.observation).reserved = 0 := rfl
      have hprobe : (revived now b.observation).probeSettled = false := rfl
      simp only [bind_some, hq, map_some, hobs]
      simp [hremaining, hconfidence, hreserved, hprobe, hexp, hstale]

theorem admits_reloaded (hs : l.Sound) (hkeys : l.ValidKeys) (hidle : l.tickets = ∅)
    (h : ∀ b, l.bucketOf k = some b → expired b.observation now = false → Survives now k b)
    (c : Int64) :
    ((reloaded self now l).purgeExpiredLocked now).admits k c =
      (l.purgeExpiredLocked now).admits k c := by
  rw [Bool.eq_iff_iff, admits_reloaded_iff hs hkeys, admits_iff hs hidle]
  refine forall_congr' fun b => forall_congr' fun hb => forall_congr' fun hexp => ?_
  have hsurvives := h b hb hexp
  constructor
  · intro hnew
    by_cases hspecial : staleMinute k b.observation now = true ∨
        b.observation.confidence = .estimated
    · rcases hsurvives hspecial with hprobe | hmax
      · exact .inr hprobe
      · exact .inl (hmax ▸ le_maxValue c)
    · obtain ⟨hstale, hcertain⟩ := not_or.mp hspecial
      exact .inl ((hnew (Bool.eq_false_of_not_eq_true hstale)).resolve_right hcertain)
  · rintro (hroom | hprobe) -
    · exact .inl hroom
    · exact .inr hprobe.1

theorem survives_of_admits (hs : l.Sound) (hkeys : l.ValidKeys) (hidle : l.tickets = ∅)
    (h : ((reloaded self now l).purgeExpiredLocked now).admits k Int64.maxValue =
      (l.purgeExpiredLocked now).admits k Int64.maxValue)
    (hb : l.bucketOf k = some b) (hexp : expired b.observation now = false) :
    Survives now k b := by
  intro hspecial
  have hnew : ((reloaded self now l).purgeExpiredLocked now).admits k Int64.maxValue = true := by
    refine (admits_reloaded_iff hs hkeys).mpr fun b' hb' _ hshown => ?_
    cases hb.symm.trans hb'
    rcases hspecial with hstale | hestimated
    · exact absurd hstale (Bool.eq_false_iff.mp hshown)
    · exact .inr hestimated
  rcases (admits_iff hs hidle).mp (h ▸ hnew) b hb hexp with hroom | hprobe
  · exact .inr (Int64.le_antisymm (Int64.le_maxValue _) hroom)
  · exact .inl hprobe

end Reloaded

theorem reserveAll_congr {rs : List QuotaReservation} {order' : List QuotaBucketKey}
    (hroom : l.ticketCount + 2 ≤ 2 ^ 64) (hroom' : l'.ticketCount + 2 ≤ 2 ^ 64)
    (h : ∀ k c, (l'.purgeExpiredLocked now).admits k c = (l.purgeExpiredLocked now).admits k c) :
    (l'.reserveAll rs now order').map (fun r => r.2.isSome) =
      (l.reserveAll rs now order).map fun r => r.2.isSome := by
  have hiff : (l'.reserveAll rs now order').map Prod.snd = some none ↔
      (l.reserveAll rs now order).map Prod.snd = some none := by
    rw [reserveAll_refused, reserveAll_refused]
    simp only [h]
  obtain ⟨⟨l1, out⟩, hr⟩ := isSome_iff_exists.mp (reserveAll_isSome rs now order hroom)
  obtain ⟨⟨l1', out'⟩, hr'⟩ := isSome_iff_exists.mp (reserveAll_isSome rs now order' hroom')
  rw [hr, hr'] at hiff
  rw [hr, hr']
  simp only [map_some, Option.some.injEq] at hiff ⊢
  cases out <;> cases out' <;> simp_all

theorem reserveAll_single (hvalid : validQuotaKey key = true) (hc : 0 < c)
    (hroom : l.ticketCount + 2 ≤ 2 ^ 64) :
    (l.reserveAll [⟨key, c⟩] now order).map (fun r => r.2.isSome) =
      some ((l.purgeExpiredLocked now).admits key c) := by
  have hagg : aggregateReservations [⟨key, c⟩] = some (AList.insert key c ∅) := by
    have hzero : c ≠ 0 := fun h => Int64.lt_irrefl (h ▸ hc)
    have hneg : ¬c < 0 := Int64.not_lt.mpr (Int64.le_of_lt hc)
    simp [aggregateReservations, aggregate, hvalid, hzero, hneg]
  have hrefused := @reserveAll_refused l now [⟨key, c⟩] order
  rw [hagg] at hrefused
  obtain ⟨⟨l1, out⟩, hr⟩ :=
    isSome_iff_exists.mp (reserveAll_isSome [⟨key, c⟩] now order hroom)
  rw [hr] at hrefused ⊢
  have honly : (∃ k c', (AList.insert key c (∅ : GoMap QuotaBucketKey Int64)).lookup k = some c' ∧
      (l.purgeExpiredLocked now).admits k c' = false) ↔
        (l.purgeExpiredLocked now).admits key c = false := by
    constructor
    · rintro ⟨k, c', hk, hadmits⟩
      rw [GoMap.lookup_insert_eq] at hk
      split at hk
      · next heq =>
        cases hk
        exact heq ▸ hadmits
      · cases hk
    · exact fun hadmits => ⟨key, c, AList.lookup_insert _, hadmits⟩
  simp only [Option.some.injEq, forall_eq', honly, map_some] at hrefused ⊢
  cases out with
  | none => exact (hrefused.mp rfl).symm
  | some t =>
    cases hadmits : (l.purgeExpiredLocked now).admits key c with
    | true => rfl
    | false => exact nomatch hrefused.mpr hadmits

end QuotaLedger

end CalvoProxy
