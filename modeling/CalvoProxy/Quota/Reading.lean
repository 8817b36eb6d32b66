import CalvoProxy.Quota.Isolation

/-!
# What a reader of the ledger is shown

`Snapshot` and `Keys` only drop what they do not show, so readings at one time do not disturb each
other (`Reread`): a walk over the keys is given `reported`, whatever was read before.
-/

namespace CalvoProxy

open List QuotaLedger QuotaSnapshot

variable {t : Time} {q : QuotaSnapshot}

def QuotaSnapshot.rename (r : QuotaBucketKey → QuotaBucketKey) (q : QuotaSnapshot) :
    QuotaSnapshot :=
  { q with key := r q.key }

namespace QuotaLedger

variable {l l' l'' : QuotaLedger} {now : Time} {key k : QuotaBucketKey}

def shown (now : Time) (key : QuotaBucketKey) (b : QuotaBucket) : Option QuotaSnapshot :=
  if expired b.observation now || staleMinute key b.observation now then none
  else
    let available := b.observation.remaining - b.reserved
    some ⟨b.observation, key, b.reserved, if available < 0 then 0 else available, b.probeSettled⟩

theorem truncateMinute_le {t' : Time} (h : t ≤ t') :
    Time.truncateMinute t ≤ Time.truncateMinute t' := by
  have hdiv : ∀ n : Int, n - n % 60000000000 = 60000000000 * (n / 60000000000) := by
    intro n
    have := Int.mul_ediv_add_emod n 60000000000
    omega
  show t - t % 60000000000 ≤ t' - t' % 60000000000
  rw [hdiv, hdiv]
  exact Int.mul_le_mul_of_nonneg_left (Int.ediv_le_ediv (by decide) h) (by decide)

def visible (l : QuotaLedger) (now : Time) (key : QuotaBucketKey) : Option QuotaSnapshot :=
  (l.snapshot key now).2

def reported (l : QuotaLedger) (now : Time) : List QuotaSnapshot :=
  (l.keys now).2.filterMap (l.visible now)

theorem visible_eq (l : QuotaLedger) (now : Time) (key : QuotaBucketKey) :
    l.visible now key = (l.bucketOf key).bind (shown now key) := by
  unfold visible snapshot
  simp only [bucketOf_purge]
  cases l.bucketOf key with
  | none => rfl
  | some b =>
    simp only [Option.bind_some, shown, Option.filter_some]
    cases expired b.observation now with
    | true => rfl
    | false => cases hstale : staleMinute key b.observation now <;> simp [hstale]

theorem shown_key {b : QuotaBucket} (h : shown now key b = some q) : q.key = key := by
  unfold shown at h
  split at h
  · cases h
  · exact (Option.some.inj h) ▸ rfl

theorem visible_key (h : l.visible now key = some q) : q.key = key := by
  rw [visible_eq] at h
  obtain ⟨b, -, hb⟩ := Option.bind_eq_some_iff.mp h
  exact shown_key hb

theorem visible_stays (h : (l.visible now key).isSome = true) : l.stays now key = true := by
  rw [visible_eq] at h
  unfold stays
  cases hb : l.bucketOf key with
  | none => rfl
  | some b =>
    rw [hb] at h
    simp only [Option.bind_some, shown] at h
    cases hexp : expired b.observation now with
    | true => simp [hexp] at h
    | false => simp [hexp]

theorem filterMap_visible (f : QuotaBucketKey → Option QuotaSnapshot) (ks : List QuotaBucketKey) :
    ks.filterMap f = (ks.filter fun k => (f k).isSome).filterMap f := by
  rw [filterMap_filter]
  refine filterMap_congr fun k _ => ?_
  cases f k <;> rfl

def shownKeys (l : QuotaLedger) (now : Time) : List QuotaBucketKey :=
  lowKeys (fun k => (l.visible now k).isSome = true) l

theorem reported_eq (l : QuotaLedger) (now : Time) :
    l.reported now = ((l.shownKeys now).insertionSort fun x y =>
      quotaKeyString x ≤ quotaKeyString y).filterMap (l.visible now) := by
  have hstay : lowKeys (fun k => (l.visible now k).isSome = true) (l.purgeExpiredLocked now) =
      l.shownKeys now := by
    rw [lowKeys_purge]
    exact filter_eq_self.mpr fun k hk => visible_stays ((mem_lowKeys _).mp hk).2
  unfold reported
  rw [filterMap_visible, ← hstay, ← keys_filter]
  simp only [Bool.decide_eq_true]

theorem mem_reported : q ∈ l.reported now ↔ l.visible now q.key = some q := by
  have hmem : ∀ k, k ∈ l.shownKeys now ↔ (l.visible now k).isSome = true := by
    intro k
    refine (mem_lowKeys _).trans (and_iff_right_of_imp fun h => ?_)
    rw [visible_eq] at h
    unfold bucketOf at h
    cases ha : l.buckets.lookup k with
    | none => simp [ha] at h
    | some a => exact ⟨a, rfl⟩
  rw [reported_eq, mem_filterMap]
  constructor
  · rintro ⟨k, -, hk⟩
    rw [visible_key hk]
    exact hk
  · intro h
    refine ⟨q.key, ?_, h⟩
    rw [(perm_insertionSort _ _).mem_iff, hmem, h]
    rfl

theorem visible_earlier (ht : now ≤ t) (h : (l.visible t key).isSome = true) :
    (l.visible now key).isSome = true := by
  rw [visible_eq] at h ⊢
  cases hb : l.bucketOf key with
  | none => simp [hb] at h
  | some b =>
    rw [hb] at h
    simp only [Option.bind_some, shown] at h ⊢
    have hexp : expired b.observation now = true → expired b.observation t = true := by
      unfold expired Time.after
      simp only [Bool.and_eq_true, Bool.not_eq_true', decide_eq_false_iff_not, Int.not_lt]
      exact fun hreset => ⟨hreset.1, Int.le_trans hreset.2 ht⟩
    have hstale : staleMinute key b.observation now = true →
        staleMinute key b.observation t = true := by
      unfold staleMinute Time.after
      simp only [Bool.and_eq_true, decide_eq_true_eq]
      exact fun hminute => ⟨hminute.1, Int.lt_of_lt_of_le hminute.2 (truncateMinute_le ht)⟩
    by_cases hhidden : (expired b.observation now || staleMinute key b.observation now) = true
    · have hlater : (expired b.observation t || staleMinute key b.observation t) = true := by
        rcases Bool.or_eq_true _ _ ▸ hhidden with hone | htwo
        · simp [hexp hone]
        · simp [hstale htwo]
      simp [hlater] at h
    · simp [hhidden]

theorem visible_same (ht : now ≤ t) (h : l.visible t key = some q) :
    l.visible now key = some q := by
  obtain ⟨q', hq'⟩ := Option.isSome_iff_exists.mp (visible_earlier ht (Option.isSome_of_eq_some h))
  rw [hq']
  rw [visible_eq] at h hq'
  obtain ⟨b, hb, hshown⟩ := Option.bind_eq_some_iff.mp h
  rw [hb, Option.bind_some] at hq'
  unfold shown at hshown hq'
  split at hshown
  · cases hshown
  · split at hq'
    · cases hq'
    · exact hq'.symm.trans hshown

/-- `l'` shows at `now` what `l` shows. -/
structure Reread (now : Time) (l l' : QuotaLedger) : Prop where
  visible : ∀ k, l'.visible now k = l.visible now k
  keys : Hides (fun k => (l.visible now k).isSome = true) now l l'

namespace Reread

theorem refl (l : QuotaLedger) : Reread now l l := ⟨fun _ => rfl, .refl l⟩

theorem trans (h : Reread now l l') (h' : Reread now l' l'') : Reread now l l'' where
  visible := fun k => (h'.visible k).trans (h.visible k)
  keys := by
    have hlow : (fun k => (l'.visible now k).isSome = true) =
        fun k => (l.visible now k).isSome = true := funext fun k => by rw [h.visible]
    have hkeys := h'.keys
    simp only [hlow] at hkeys
    exact h.keys.trans hkeys

theorem reported (h : Reread now l l') : l'.reported now = l.reported now := by
  have hkeys := (h.keys now (Int.le_refl now)).keys
  have hvisible : l'.visible now = l.visible now := funext h.visible
  unfold QuotaLedger.reported
  rw [hvisible, filterMap_visible, filterMap_visible _ (l.keys now).2]
  have hfilter : ∀ l : QuotaLedger, _ := fun l0 =>
    keys_filter (fun k => (l.visible now k).isSome = true) l0 now
  simp only [Bool.decide_eq_true] at hfilter
  rw [hfilter, hfilter, hkeys]

theorem purge (l : QuotaLedger) : Reread now l (l.purgeExpiredLocked now) where
  visible := fun k => by
    unfold QuotaLedger.visible QuotaLedger.snapshot
    rw [purge_purge l (Int.le_refl now)]
  keys := .purge l

theorem erase (h : l.visible now key = none) :
    Reread now l { l with buckets := l.buckets.erase key } where
  visible := fun k => by
    rw [visible_eq]
    by_cases hk : k = key
    · subst hk
      simp [h, bucketOf, AList.lookup_erase]
    · rw [visible_eq, bucketOf, bucketOf, AList.lookup_erase_ne hk]
  keys := fun t _ => (Frame.erase (by simp [h]) l).purge t

theorem snapshot (l : QuotaLedger) (key : QuotaBucketKey) :
    Reread now l (l.snapshot key now).1 := by
  have hpurge : Reread now l (l.purgeExpiredLocked now) := purge l
  cases hkey : l.visible now key with
  | some q =>
    unfold QuotaLedger.visible QuotaLedger.snapshot at hkey
    unfold QuotaLedger.snapshot
    simp only at hkey ⊢
    split
    · exact hpurge
    next b hb =>
    rw [hb] at hkey
    split
    · next hstale => simp [hstale] at hkey
    · exact hpurge
  | none =>
    have hgone := hpurge.trans (erase ((hpurge.visible key).trans hkey))
    unfold QuotaLedger.snapshot
    simp only
    split
    · exact hpurge
    · split
      · exact hgone
      · exact hpurge

theorem keysRead (l : QuotaLedger) : Reread now l (l.keys now).1 := purge l

theorem later (h : Reread now l l') {t : Time} (ht : now ≤ t) : Reread t l l' := by
  have hframe := h.keys t ht
  have hsub : ∀ k, (l.visible t k).isSome = true → (l.visible now k).isSome = true :=
    fun k => visible_earlier ht
  have hsub' : ∀ k, (l'.visible t k).isSome = true → (l'.visible now k).isSome = true :=
    fun k => visible_earlier ht
  have hvisible : ∀ k, l'.visible t k = l.visible t k := by
    intro k
    have hpurged : ∀ l : QuotaLedger, l.visible t k =
        ((l.purgeExpiredLocked t).bucketOf k).bind (shown t k) := by
      intro l
      rw [← (purge l : Reread t l _).visible k, visible_eq]
    cases hk : (l.visible now k).isSome with
    | true =>
      have hbucket := hframe.bucket hk
      rw [hpurged l', hpurged l, hbucket]
    | false =>
      have hgone : l.visible t k = none := by
        by_contra hsome
        simp [hsub k (Option.isSome_iff_ne_none.mpr hsome)] at hk
      have hgone' : l'.visible t k = none := by
        by_contra hsome
        have hnow := hsub' k (Option.isSome_iff_ne_none.mpr hsome)
        rw [h.visible k, hk] at hnow
        cases hnow
      rw [hgone, hgone']
  refine ⟨hvisible, fun t' ht' => ?_⟩
  exact (h.keys t' (Int.le_trans ht ht')).mono hsub

end Reread

/-! ## A walk over keys -/

/-- The loop that takes snapshots of `keys` and leaves out what is absent. -/
def collect (now : Time) : List QuotaBucketKey → QuotaLedger → QuotaLedger × List QuotaSnapshot
  | [], l => (l, [])
  | key :: keys, l =>
    match l.snapshot key now with
    | (l, none) => collect now keys l
    | (l, some snapshot) =>
      let r := collect now keys l
      (r.1, snapshot :: r.2)

theorem collect_eq (now : Time) (l : QuotaLedger) (ks : List QuotaBucketKey) :
    Reread now l (l.collect now ks).1 ∧ (l.collect now ks).2 = ks.filterMap (l.visible now) := by
  induction ks generalizing l with
  | nil => exact ⟨.refl l, rfl⟩
  | cons key ks ih =>
    have hread : Reread now l (l.snapshot key now).1 := .snapshot l key
    have hvisible : l.visible now key = (l.snapshot key now).2 := rfl
    obtain ⟨hrest, hlist⟩ := ih (l.snapshot key now).1
    rw [funext hread.visible] at hlist
    cases hsnapshot : l.snapshot key now with
    | mk l1 shown =>
      rw [hsnapshot] at hread hvisible hrest hlist
      cases shown with
      | none =>
        rw [filterMap_cons_none hvisible]
        simp only [collect, hsnapshot]
        exact ⟨hread.trans hrest, hlist⟩
      | some q =>
        rw [filterMap_cons_some hvisible]
        simp only [collect, hsnapshot]
        exact ⟨hread.trans hrest, congrArg _ hlist⟩

/-! ## Renaming the keys -/

/-- `l'` has the buckets of `l` under other keys, of the same windows. -/
structure Renamed (r : QuotaBucketKey → QuotaBucketKey) (l l' : QuotaLedger) : Prop where
  window : ∀ k, (r k).window = k.window
  heap : l'.heap = l.heap
  entries : l'.buckets.entries = l.buckets.entries.map fun e => ⟨r e.1, e.2⟩

namespace Renamed

variable {r : QuotaBucketKey → QuotaBucketKey} (h : Renamed r l l')
include h

theorem bucketOf (hk : k ∈ l.buckets.keys) : l'.bucketOf (r k) = l.bucketOf k := by
  obtain ⟨e, he, rfl⟩ := mem_map.mp hk
  have hentry : (⟨r e.1, e.2⟩ : Sigma fun _ => Addr) ∈ l'.buckets.entries := by
    rw [h.entries]
    exact mem_map_of_mem he
  unfold bucketOf
  have ha : l.buckets.lookup e.1 = some e.2 := GoMap.mem_entries.mp he
  rw [GoMap.mem_entries.mp hentry, ha, h.heap]

theorem visible (hk : k ∈ l.buckets.keys) :
    l'.visible now (r k) = (l.visible now k).map (rename r) := by
  rw [visible_eq, visible_eq, h.bucketOf hk]
  cases l.bucketOf k with
  | none => rfl
  | some b =>
    have hstale : staleMinute (r k) b.observation now = staleMinute k b.observation now := by
      unfold staleMinute
      rw [h.window]
    simp only [Option.bind_some, shown, hstale]
    split <;> rfl

theorem shownKeys : l'.shownKeys now = (l.shownKeys now).map r := by
  have hkeys : l'.buckets.keys = l.buckets.keys.map r := by
    show l'.buckets.entries.map Sigma.fst = (l.buckets.entries.map Sigma.fst).map r
    rw [h.entries, map_map, map_map]
    rfl
  unfold QuotaLedger.shownKeys lowKeys
  rw [hkeys, filter_map]
  refine congrArg _ (filter_congr fun k hk => ?_)
  simp only [Function.comp_apply, h.visible hk, Option.isSome_map]

theorem reported_perm : (l'.reported now).Perm ((l.reported now).map (rename r)) := by
  have hsorted : ∀ l : QuotaLedger,
      (l.reported now).Perm ((l.shownKeys now).filterMap (l.visible now)) := by
    intro l
    rw [reported_eq]
    exact (perm_insertionSort _ _).filterMap _
  have hrenamed : (l'.shownKeys now).filterMap (l'.visible now) =
      ((l.shownKeys now).filterMap (l.visible now)).map (rename r) := by
    rw [h.shownKeys, filterMap_map, map_filterMap]
    exact filterMap_congr fun k hk => h.visible (mem_filter.mp hk).1
  exact (hsorted l').trans (hrenamed ▸ ((hsorted l).map _).symm)

theorem reported_eq_of_fixed
    (hfixed : ∀ q ∈ l.reported now, r q.key = q.key) : l'.reported now = l.reported now := by
  have hshown : ∀ k ∈ l.shownKeys now, r k = k := by
    intro k hk
    obtain ⟨q, hq⟩ := Option.isSome_iff_exists.mp ((mem_lowKeys _).mp hk).2
    have hkey := visible_key hq
    rw [← hkey]
    exact hfixed q (mem_reported.mpr (hkey ▸ hq))
  have hkeys : l'.shownKeys now = l.shownKeys now := by
    rw [h.shownKeys]
    exact (map_congr_left hshown).trans (map_id _)
  rw [reported_eq, reported_eq, hkeys]
  refine filterMap_congr fun k hk => ?_
  have hk : k ∈ l.shownKeys now := (perm_insertionSort _ _).mem_iff.mp hk
  have hvisible : l'.visible now (r k) = _ := h.visible (mem_filter.mp hk).1
  rw [hshown k hk] at hvisible
  rw [hvisible]
  cases hq : l.visible now k with
  | none => rfl
  | some q =>
    have hrename : q.rename r = q := by
      unfold rename
      rw [visible_key hq, hshown k hk, ← visible_key hq]
    rw [Option.map_some, hrename]

end Renamed

/-! ## Installing a limit -/

section Install

def published (limit : Int64) (reset now : Time) : QuotaObservation :=
  ⟨limit, limit, reset, .config, .estimated, now⟩

variable {limit : Int64} {reset : Time}

theorem normalise_published :
    normaliseQuotaObservation (published limit reset now) now = published limit reset now := by
  have hsame : (if Time.isZero (published limit reset now).observedAt
      then { published limit reset now with observedAt := now } else published limit reset now) =
      published limit reset now := by
    split <;> rfl
  unfold normaliseQuotaObservation
  rw [hsame]
  exact if_neg (Int64.lt_irrefl (a := limit))

theorem expired_published (hreset : now < reset) :
    expired (published limit reset now) now = false := by
  unfold expired Time.after
  simp [published, hreset]

theorem snapshot_lookup (hp : l.Pointed) (h : l.visible now key = none) :
    (l.snapshot key now).1.buckets.lookup key = none := by
  have hpurge := (evolves_purgeExpiredLocked l now).pointed hp
  unfold visible snapshot at h
  unfold snapshot
  simp only at h ⊢
  cases hb : (l.purgeExpiredLocked now).bucketOf key with
  | none =>
    exact hpurge.lookup_eq_none hb
  | some b =>
    rw [hb] at h
    simp only at h ⊢
    split at h
    · next hstale =>
      rw [if_pos hstale]
      exact AList.lookup_erase _ _
    · cases h

theorem observe_published (hreset : now < reset) :
    (l.observe key (published limit reset now) now).1 =
      if validQuotaKey key = true ∧ 0 ≤ limit then
        (l.purgeExpiredLocked now).storeObservation key (published limit reset now)
      else l := by
  by_cases hvalid : (!validQuotaKey key || (published limit reset now).limit < 0 ||
      (published limit reset now).remaining < 0) = true
  · rw [if_neg ?_]
    · unfold observe
      rw [if_pos hvalid]
    · rintro ⟨hkey, hlimit⟩
      have hpos : ¬limit < 0 := Int64.not_lt.mpr hlimit
      simp [published, hkey, hpos] at hvalid
  · have hok : validQuotaKey key = true ∧ 0 ≤ limit := by
      simp only [Bool.or_eq_true, decide_eq_true_eq, not_or, Bool.not_eq_true',
        Bool.not_eq_false] at hvalid
      exact ⟨hvalid.1.1, Int64.not_lt.mp hvalid.1.2⟩
    rw [if_pos hok, observe_eq hvalid, expired_published hreset, normalise_published]
    rfl

end Install

end QuotaLedger

end CalvoProxy
