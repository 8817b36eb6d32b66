import CalvoProxy.Quota.Objects
import CalvoProxy.Quota.Held
import Mathlib.Data.List.Forall2

/-!
# Operations on the ledger that some of its keys do not see

An operation that only names other keys leaves the low keys, their pointers and their objects
(`Frame`). Since every operation first drops what has expired, this is said of the ledgers once
everything has been dropped that has expired at a later time (`Hides`).
-/

namespace CalvoProxy

open List GoMap AList

variable {a : Addr} {amounts : GoMap QuotaBucketKey Int64} {e : HoldEntry} {ok : Bool}
  {state : QuotaTicketState} {t : QuotaTicket} {l : QuotaLedger} {k : QuotaBucketKey}
  {rs : List QuotaReservation} {order : List QuotaBucketKey}

namespace QuotaLedger

theorem expired_later {o : QuotaObservation} {t t' : Time} (h : expired o t = true) (ht : t ≤ t') :
    expired o t' = true := by
  unfold expired Time.after at h ⊢
  simp only [Bool.and_eq_true, Bool.not_eq_true', decide_eq_false_iff_not, Int.not_lt] at h ⊢
  exact ⟨h.1, Int.le_trans h.2 ht⟩

theorem purge_purge (l : QuotaLedger) {t t' : Time} (ht : t ≤ t') :
    (l.purgeExpiredLocked t).purgeExpiredLocked t' = l.purgeExpiredLocked t' := by
  have hbuckets : ((l.purgeExpiredLocked t).purgeExpiredLocked t').buckets =
      (l.purgeExpiredLocked t').buckets := by
    apply ext
    show (l.buckets.entries.filter _).filter _ = l.buckets.entries.filter _
    rw [filter_filter]
    refine filter_congr fun e _ => ?_
    show (_ && _) = _
    cases hb : l.heap[e.2]? with
    | none => simp [purgeExpiredLocked, hb]
    | some b =>
      simp only [purgeExpiredLocked, hb]
      cases hexp : expired b.observation t with
      | false => simp
      | true => simp [expired_later hexp ht]
  unfold purgeExpiredLocked at hbuckets ⊢
  simp only at hbuckets
  rw [hbuckets]

theorem lookup_purge {t : Time} :
    (l.purgeExpiredLocked t).buckets.lookup k = some a ↔ l.buckets.lookup k = some a ∧
      ∀ b, l.bucketOf k = some b → expired b.observation t = false := by
  show (keep _ l.buckets).lookup k = some a ↔ _
  refine lookup_keep.trans (and_congr_right fun ha => ?_)
  simp only [bucketOf, ha, Option.bind_some]
  cases l.heap[a]? with
  | none | some b => simp

theorem bucketOf_purge (l : QuotaLedger) (t : Time) (k : QuotaBucketKey) :
    (l.purgeExpiredLocked t).bucketOf k =
      (l.bucketOf k).filter fun b => !expired b.observation t := by
  refine Option.ext fun b => ?_
  rw [bucketOf_eq_some, Option.filter_eq_some_iff]
  constructor
  · rintro ⟨a, ha, hb⟩
    obtain ⟨ha, hlive⟩ := lookup_purge.mp ha
    have hbucket : l.bucketOf k = some b := bucketOf_eq_some.mpr ⟨a, ha, hb⟩
    exact ⟨hbucket, by simp [hlive b hbucket]⟩
  · rintro ⟨hbucket, hlive⟩
    obtain ⟨a, ha, hb⟩ := bucketOf_eq_some.mp hbucket
    refine ⟨a, lookup_purge.mpr ⟨ha, fun b' hb' => ?_⟩, hb⟩
    rw [hbucket] at hb'
    cases hb'
    simpa using hlive

section Low

variable (low : QuotaBucketKey → Prop) [DecidablePred low]

def lowKeys (l : QuotaLedger) : List QuotaBucketKey := l.buckets.keys.filter fun k => low k

theorem mem_lowKeys : k ∈ lowKeys low l ↔ (∃ a, l.buckets.lookup k = some a) ∧ low k := by
  rw [lowKeys, mem_filter, decide_eq_true_eq, ← Option.isSome_iff_exists, lookup_isSome]
  rfl

def stays (l : QuotaLedger) (t : Time) (k : QuotaBucketKey) : Bool :=
  (l.bucketOf k).all fun b => !expired b.observation t

theorem lowKeys_purge (l : QuotaLedger) (t : Time) :
    lowKeys low (l.purgeExpiredLocked t) = (lowKeys low l).filter (l.stays t) := by
  have hkeys : (l.purgeExpiredLocked t).buckets.keys = l.buckets.keys.filter (l.stays t) := by
    show (l.buckets.entries.filter _).map Sigma.fst = (l.buckets.entries.map Sigma.fst).filter _
    rw [filter_map]
    congr 1
    refine filter_congr fun e he => ?_
    have ha : l.buckets.lookup e.1 = some e.2 := mem_entries.mp he
    simp only [stays, bucketOf, ha, Option.bind_some, Function.comp_apply]
    cases l.heap[e.2]? <;> rfl
  rw [lowKeys, lowKeys, hkeys, filter_filter, filter_filter]
  exact filter_congr fun _ _ => Bool.and_comm _ _

theorem keys_filter (l : QuotaLedger) (t : Time) :
    (l.keys t).2.filter (fun k => low k) = (lowKeys low (l.purgeExpiredLocked t)).insertionSort
      fun x y => quotaKeyString x ≤ quotaKeyString y := by
  unfold QuotaLedger.keys
  simp only
  rw [@GoMap.filter_insertionSort _ (fun x y => quotaKeyString x ≤ quotaKeyString y) _
    (fun x y z hxy hyz => String.le_trans hxy hyz) fun x y => String.le_total _ _]
  rfl

/-! ## What is not seen -/

/-- `l'` is `l` as far as the low keys go. -/
structure Frame (l l' : QuotaLedger) : Prop where
  keys : lowKeys low l' = lowKeys low l
  pointer : ∀ k, low k → l'.buckets.lookup k = l.buckets.lookup k
  object : ∀ k a, low k → l.buckets.lookup k = some a → l'.heap[a]? = l.heap[a]?

variable {low} {l' l'' : QuotaLedger}

namespace Frame

theorem refl (l : QuotaLedger) : Frame low l l := ⟨rfl, fun _ _ => rfl, fun _ _ _ _ => rfl⟩

theorem trans (h : Frame low l l') (h' : Frame low l' l'') : Frame low l l'' where
  keys := h'.keys.trans h.keys
  pointer := fun k hk => (h'.pointer k hk).trans (h.pointer k hk)
  object := fun k a hk ha =>
    (h'.object k a hk ((h.pointer k hk).trans ha)).trans (h.object k a hk ha)

theorem mono {low' : QuotaBucketKey → Prop} [DecidablePred low'] (h : Frame low l l')
    (hsub : ∀ k, low' k → low k) : Frame low' l l' where
  keys := by
    have hfilter : ∀ l : QuotaLedger, lowKeys low' l = (lowKeys low l).filter fun k => low' k := by
      intro l
      unfold lowKeys
      rw [filter_filter]
      refine filter_congr fun k _ => ?_
      by_cases hk : low' k
      · simp [hk, hsub k hk]
      · simp [hk]
    rw [hfilter, hfilter, h.keys]
  pointer := fun k hk => h.pointer k (hsub k hk)
  object := fun k a hk => h.object k a (hsub k hk)

theorem bucket (h : Frame low l l') {k : QuotaBucketKey} (hk : low k) :
    l'.bucketOf k = l.bucketOf k := by
  unfold bucketOf
  rw [h.pointer k hk]
  cases ha : l.buckets.lookup k with
  | none => rfl
  | some a => exact h.object k a hk ha

theorem purge (h : Frame low l l') (t : Time) :
    Frame low (l.purgeExpiredLocked t) (l'.purgeExpiredLocked t) where
  keys := by
    rw [lowKeys_purge, lowKeys_purge, h.keys]
    refine filter_congr fun k hk => ?_
    unfold stays
    rw [h.bucket ((mem_lowKeys low).mp hk).2]
  pointer := fun k hk => by
    refine Option.ext fun a => ?_
    rw [lookup_purge, lookup_purge, h.pointer k hk, h.bucket hk]
  object := fun k a hk ha => h.object k a hk (lookup_purge.mp ha).1

theorem erase (hk : ¬low k) (l : QuotaLedger) :
    Frame low l { l with buckets := l.buckets.erase k } where
  keys := by
    show (l.buckets.erase k).keys.filter _ = l.buckets.keys.filter _
    rw [keys_erase, l.buckets.keys_nodup.erase_eq_filter, filter_filter]
    refine filter_congr fun k' _ => ?_
    by_cases hk' : low k'
    · have hne : k' ≠ k := fun heq => hk (heq ▸ hk')
      simp [hk', hne]
    · simp [hk']
  pointer := fun k' hk' => lookup_erase_ne fun heq => hk (heq ▸ hk')
  object := fun _ _ _ _ => rfl

theorem update {bucket : Option Addr} (f : QuotaBucket → QuotaBucket)
    (h : ∀ a, bucket = some a → ∀ k, low k → l.buckets.lookup k ≠ some a) :
    Frame low l (l.updateBucket bucket f) where
  keys := by unfold lowKeys; rw [updateBucket_buckets]
  pointer := fun _ _ => by rw [updateBucket_buckets]
  object := fun k a hk ha => by
    rw [getElem?_updateBucket, if_neg]
    exact fun heq => h a heq k hk ha

theorem store (hk : ¬low k) (hp : l.Pointed) (o : QuotaObservation) :
    Frame low l (l.storeObservation k o) := by
  unfold storeObservation
  split
  · next a ha =>
    have hframe : Frame low l (l.updateBucket (some a) fun b => { b with observation := o }) :=
      update _ fun a' heq k' hk' ha' => hk (hp.inj k' k a' ha' (heq ▸ ha) ▸ hk')
    exact hframe
  · next hnone =>
    refine ⟨?_, fun k' hk' => ?_, fun k' a hk' ha => ?_⟩
    · show (l.buckets.insert k l.heap.length).keys.filter _ = l.buckets.keys.filter _
      have hkeys : (l.buckets.insert k l.heap.length).keys = k :: l.buckets.keys := by
        show (l.buckets.insert k l.heap.length).entries.map Sigma.fst = _
        rw [entries_insert_of_lookup hnone]
        rfl
      rw [hkeys, filter_cons_of_neg (by simpa using hk)]
    · exact lookup_insert_ne fun heq => hk (heq ▸ hk')
    · exact List.getElem?_append_left (hp.addr k' a ha)

end Frame

def Hides (low : QuotaBucketKey → Prop) [DecidablePred low] (now : Time) (l l' : QuotaLedger) :
    Prop :=
  ∀ t, now ≤ t → Frame low (l.purgeExpiredLocked t) (l'.purgeExpiredLocked t)

namespace Hides

variable {now : Time}

theorem refl (l : QuotaLedger) : Hides low now l l := fun _ _ => .refl _

theorem trans (h : Hides low now l l') (h' : Hides low now l' l'') : Hides low now l l'' :=
  fun t ht => (h t ht).trans (h' t ht)

theorem of_frame (h : Frame low (l.purgeExpiredLocked now) l') : Hides low now l l' := by
  intro t ht
  have hpurged := h.purge t
  rwa [purge_purge l ht] at hpurged

theorem purge (l : QuotaLedger) : Hides low now l (l.purgeExpiredLocked now) := of_frame (.refl _)

end Hides

/-! ## Operations that are not seen -/

def HighTicket (low : QuotaBucketKey → Prop) (l : QuotaLedger) (t : QuotaTicket) : Prop :=
  ∀ state, l.tickets.lookup t.id = some state → ∀ e ∈ state.holds.entries, ¬low e.1

theorem Writes.hides {now : Time} {T : Addr → Prop} {C : Prop}
    {S : QuotaBucketKey → QuotaObservation → Prop}
    (h : Writes now (fun k => ¬low k) T C S l l') (hp : l.Pointed)
    (hT : ∀ a, T a → ∀ k, low k → l.buckets.lookup k ≠ some a) :
    Hides low now l l' ∧
      ∀ k a, low k → l'.buckets.lookup k = some a → l.buckets.lookup k = some a := by
  have hframe : ∀ {l l' : QuotaLedger}, Frame low l l' → Hides low now l l' ∧
      ∀ k a, low k → l'.buckets.lookup k = some a → l.buckets.lookup k = some a :=
    fun h => ⟨fun t _ => h.purge t, fun k a hk ha => (h.pointer k hk) ▸ ha⟩
  induction h with
  | drop hdrops =>
    refine ⟨?_, fun k a _ => hdrops.sub⟩
    cases hdrops with
    | purge => exact .purge _
    | erase hk => exact (hframe (.erase hk _)).1
    | tickets hheap hbuckets =>
      refine (hframe ⟨?_, fun _ _ => by rw [hbuckets], fun _ _ _ _ => by rw [hheap]⟩).1
      rw [lowKeys, lowKeys, hbuckets]
  | count touches | charge touches => exact hframe (.update _ fun a ha => hT a (touches a ha))
  | store named => exact hframe (.store named hp _)
  | trans h1 _ ih ih' =>
    obtain ⟨hides, hsub⟩ := ih hp hT
    obtain ⟨hides', hsub'⟩ := ih' (h1.evolves.pointed hp) fun a ha k hk hka =>
      hT a ha k hk (hsub k a hk hka)
    exact ⟨hides.trans hides', fun k a hk ha => hsub k a hk (hsub' k a hk ha)⟩

theorem Hides.step {i : Op} {o : Res} (hs : l.Sound) (hnames : ∀ k ∈ i.names, ¬low k)
    (huses : ∀ t, i.uses = some t → HighTicket low l t) (h : l.step i = some (l', o)) :
    Hides low i.now l l' := by
  have hkeys : ∀ k, i.Keys l k → ¬low k := by
    rintro k (hk | ⟨t, ht, e, ⟨state, hstate, he⟩, rfl⟩)
    · exact hnames k hk
    · exact huses t ht state hstate e he
  refine (Writes.hides (.step (S := fun _ _ => True) hkeys (fun _ ha => ha) trivial
    (fun _ _ _ => trivial) h) hs.pointed ?_).1
  rintro a (⟨k, hk, ha⟩ | ⟨t, ht, e, hhold, ha⟩) k' hk' hka
  · exact hkeys k (.inl hk) (hs.pointed.inj k' k a hka ha ▸ hk')
  · obtain ⟨state, hstate, he⟩ := hhold
    have howner := (hs.holds t.id state hstate e he).owner a k' ha hka
    exact hkeys e.1 (.inr ⟨t, ht, e, ⟨state, hstate, he⟩, rfl⟩) (howner ▸ hk')

end Low

/-! ## Runs that stay within some keys -/

structure Visit (K : QuotaBucketKey → Prop) (now : Time) (e : LedgerEvent) : Prop where
  uses : e.input.uses = none
  time : e.input.now = now
  names : ∀ key ∈ e.input.names, K key

/-- `l'` comes from `l` by such calls. -/
def Visits (K : QuotaBucketKey → Prop) (now : Time) (l l' : QuotaLedger) : Prop :=
  ∃ es, Machine.Run step l es l' ∧ ∀ e ∈ es, Visit K now e

namespace Visits

variable {K : QuotaBucketKey → Prop} {now : Time} {l' l'' : QuotaLedger}

theorem refl (l : QuotaLedger) : Visits K now l l := ⟨[], .start, fun _ he => nomatch he⟩

theorem trans (h : Visits K now l l') (h' : Visits K now l' l'') : Visits K now l l'' := by
  obtain ⟨es, hrun, hes⟩ := h
  obtain ⟨es', hrun', hes'⟩ := h'
  refine ⟨es ++ es', hrun.append hrun', fun e he => ?_⟩
  rcases mem_append.mp he with he | he
  · exact hes e he
  · exact hes' e he

theorem call {i : Op} {o : Res} (h : l.step i = some (l', o)) (huses : i.uses = none)
    (htime : i.now = now) (hnames : ∀ key ∈ i.names, K key) : Visits K now l l' := by
  refine ⟨_, Machine.Run.start.next h, fun e he => ?_⟩
  cases mem_singleton.mp he
  exact ⟨huses, htime, hnames⟩

theorem hides {low : QuotaBucketKey → Prop} [DecidablePred low]
    (h : Visits (fun key => ¬low key) now l l') (hs : l.Sound) : Hides low now l l' := by
  obtain ⟨es, hrun, hes⟩ := h
  have hboth := hrun.invariant (P := fun m => m.Sound ∧ Hides low now l m)
    (Q := Visit (fun key => ¬low key) now) ?_ ⟨hs, .refl _⟩ hes
  · exact hboth.2
  intro m i m' o hm hvisit hstep
  refine ⟨hm.1.step hstep, hm.2.trans ?_⟩
  have hone := Hides.step hm.1 hvisit.names (fun t ht => nomatch hvisit.uses.symm.trans ht) hstep
  rwa [show i.now = now from hvisit.time] at hone

variable (h : Visits K now l l')
include h

theorem sound (hs : l.Sound) : l'.Sound := by
  obtain ⟨es, hrun, -⟩ := h
  exact hrun.invariant (P := Sound) (Q := fun _ => True)
    (fun _ _ _ _ hs _ hstep => hs.step hstep) hs fun _ _ => trivial

theorem length : l.heap.length ≤ l'.heap.length := by
  obtain ⟨es, hrun, -⟩ := h
  exact hrun.invariant (P := fun m => l.heap.length ≤ m.heap.length) (Q := fun _ => True)
    (fun _ _ _ _ hle _ hstep => Nat.le_trans hle (step_length hstep)) (Nat.le_refl _)
    fun _ _ => trivial

theorem held (ht : l.held t = some state) : l'.held t = some state := by
  obtain ⟨es, hrun, hes⟩ := h
  refine run_held hrun ht fun e he huse => ?_
  rw [(hes e he).uses] at huse
  cases huse

end Visits

/-- `t` is a new ticket with holds on keys in `K`. -/
structure Issued (K : QuotaBucketKey → Prop) (l l' : QuotaLedger) (t : QuotaTicket) : Prop where
  fresh : l.held t = none
  held : ∃ state, l'.held t = some state ∧ ∀ e ∈ state.holds.entries, K e.1

theorem reserveAll_issued {K : QuotaBucketKey → Prop} {l' : QuotaLedger} {now : Time}
    (hrs : ∀ r ∈ rs, K r.key) (h : l.reserveAll rs now order = some (l', some t)) :
    Issued K l l' t := by
  obtain ⟨state, hkeys, -, -, hfresh, hheld⟩ := reserveAll_issues h
  refine ⟨hfresh, state, (hheld t).trans (if_pos rfl), fun e he => ?_⟩
  obtain ⟨-, r, hr, hkey⟩ := hkeys e.1 e.2 (mem_entries.mp he)
  exact hkey ▸ hrs r hr

theorem highTicket_of_held {low : QuotaBucketKey → Prop} (h : l.held t = some state)
    (hhigh : ∀ e ∈ state.holds.entries, ¬low e.1) : HighTicket low l t := by
  intro state' hstate' e he
  rw [(held_eq_some.mp h).2] at hstate'
  cases hstate'
  exact hhigh e he

end QuotaLedger

end CalvoProxy
