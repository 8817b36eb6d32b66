import CalvoProxy.Quota.Isolation

/-!
# Ledgers that look alike

Two ledgers are alike if a caller that only names low keys cannot tell them apart. The holds of two
tickets correspond if they have the same keys and costs and point to the bucket of the key on both
sides or on neither.
-/

namespace CalvoProxy

open List

variable {p : Option Addr} {t1 t2 : QuotaTicket} {state1 state2 : QuotaTicketState} {id : UInt64}
  {out1 out2 : Option QuotaTicket} {k : QuotaBucketKey} {l : QuotaLedger} {e e' : HoldEntry}
  {es es' : List HoldEntry}

namespace QuotaLedger

variable (low : QuotaBucketKey → Prop) [DecidablePred low]

structure Alike (l1 l2 : QuotaLedger) : Prop where
  keys : lowKeys low l1 = lowKeys low l2
  bucket : ∀ k, low k → l1.bucketOf k = l2.bucketOf k

def LiveAt (l : QuotaLedger) (k : QuotaBucketKey) (pointer : Option Addr) : Prop :=
  ∃ a, pointer = some a ∧ l.buckets.lookup k = some a

/-- Ledgers that were alike are alike after the step, and an old pair of pointers is live on both
sides or on neither. -/
structure Moved (l1 l1' l2 l2' : QuotaLedger) : Prop where
  alike : Alike low l1' l2'
  live : ∀ {k}, low k → ∀ {p q : Option Addr}, (∀ a, p = some a → a < l1.heap.length) →
    (∀ b, q = some b → b < l2.heap.length) → (LiveAt l1 k p ↔ LiveAt l2 k q) →
    (LiveAt l1' k p ↔ LiveAt l2' k q)
  length1 : l1.heap.length ≤ l1'.heap.length
  length2 : l2.heap.length ≤ l2'.heap.length

variable {low} {l1 l1' l1'' l2 l2' l2'' : QuotaLedger}

theorem Alike.symm (h : Alike low l1 l2) : Alike low l2 l1 :=
  ⟨h.keys.symm, fun k hk => (h.bucket k hk).symm⟩

theorem Alike.trans (h : Alike low l1 l2) (h' : Alike low l2 l2') : Alike low l1 l2' :=
  ⟨h.keys.trans h'.keys, fun k hk => (h.bucket k hk).trans (h'.bucket k hk)⟩

theorem Frame.alike (h : Frame low l1 l1') : Alike low l1' l1 :=
  ⟨h.keys, fun _ hk => h.bucket hk⟩

theorem Alike.present (h : Alike low l1 l2) (hk : low k) :
    (∃ a, l1.buckets.lookup k = some a) ↔ ∃ b, l2.buckets.lookup k = some b := by
  have hmem : k ∈ lowKeys low l1 ↔ k ∈ lowKeys low l2 := by rw [h.keys]
  rw [mem_lowKeys, mem_lowKeys] at hmem
  exact ⟨fun ha => (hmem.mp ⟨ha, hk⟩).1, fun hb => (hmem.mpr ⟨hb, hk⟩).1⟩

/-! ## Writes on both sides -/

namespace Moved

theorem refl (h : Alike low l1 l2) : Moved low l1 l1 l2 l2 :=
  ⟨h, fun _ _ _ _ _ hlive => hlive, Nat.le_refl _, Nat.le_refl _⟩

theorem trans (h : Moved low l1 l1' l2 l2') (h' : Moved low l1' l1'' l2' l2'') :
    Moved low l1 l1'' l2 l2'' where
  alike := h'.alike
  live := fun hk _ _ hp hq hlive =>
    h'.live hk (fun a ha => Nat.lt_of_lt_of_le (hp a ha) h.length1)
      (fun b hb => Nat.lt_of_lt_of_le (hq b hb) h.length2) (h.live hk hp hq hlive)
  length1 := Nat.le_trans h.length1 h'.length1
  length2 := Nat.le_trans h.length2 h'.length2

theorem purge (h : Alike low l1 l2) (t : Time) :
    Moved low l1 (l1.purgeExpiredLocked t) l2 (l2.purgeExpiredLocked t) where
  alike := by
    refine ⟨?_, fun k hk => by rw [bucketOf_purge, bucketOf_purge, h.bucket k hk]⟩
    rw [lowKeys_purge, lowKeys_purge, h.keys]
    refine filter_congr fun k hk => ?_
    unfold stays
    rw [h.bucket k ((mem_lowKeys low).mp hk).2]
  live := by
    intro k hk p q _ _ hlive
    have hsplit : ∀ (l : QuotaLedger) (p : Option Addr), LiveAt (l.purgeExpiredLocked t) k p ↔
        LiveAt l k p ∧ ∀ b, l.bucketOf k = some b → expired b.observation t = false := by
      intro l p
      unfold LiveAt
      simp only [lookup_purge]
      exact ⟨fun ⟨a, hp, ha, hb⟩ => ⟨⟨a, hp, ha⟩, hb⟩, fun ⟨⟨a, hp, ha⟩, hb⟩ => ⟨a, hp, ha, hb⟩⟩
    rw [hsplit, hsplit, hlive, h.bucket k hk]
  length1 := Nat.le_refl _
  length2 := Nat.le_refl _

theorem erase (h : Alike low l1 l2) (k : QuotaBucketKey) :
    Moved low l1 { l1 with buckets := l1.buckets.erase k } l2
      { l2 with buckets := l2.buckets.erase k } where
  alike := by
    have hkeys : ∀ l : QuotaLedger, lowKeys low { l with buckets := l.buckets.erase k } =
        (lowKeys low l).filter (· ≠ k) := by
      intro l
      show (l.buckets.erase k).keys.filter _ = (l.buckets.keys.filter _).filter _
      rw [AList.keys_erase, l.buckets.keys_nodup.erase_eq_filter, filter_filter, filter_filter]
      refine filter_congr fun k' _ => ?_
      by_cases hk' : k' = k <;> simp [hk']
    refine ⟨by rw [hkeys, hkeys, h.keys], fun k' hk' => ?_⟩
    unfold bucketOf
    rw [GoMap.lookup_erase_eq, GoMap.lookup_erase_eq]
    split
    · rfl
    · exact h.bucket k' hk'
  live := by
    intro k' _ p q _ _ hlive
    have hsplit : ∀ (l : QuotaLedger) (p : Option Addr),
        LiveAt { l with buckets := l.buckets.erase k } k' p ↔ k' ≠ k ∧ LiveAt l k' p := by
      intro l p
      unfold LiveAt
      simp only [GoMap.lookup_erase_eq]
      by_cases hk : k' = k <;> simp [hk]
    rw [hsplit, hsplit, hlive]
  length1 := Nat.le_refl _
  length2 := Nat.le_refl _

theorem bucketOf_update_live (h : LiveAt l k p) (f : QuotaBucket → QuotaBucket) :
    (l.updateBucket p f).bucketOf k = (l.bucketOf k).map f := by
  obtain ⟨a, rfl, ha⟩ := h
  unfold bucketOf
  rw [updateBucket_buckets, ha, Option.bind_some, Option.bind_some, getElem?_updateBucket,
    if_pos rfl]

theorem bucketOf_update_dead (h : ¬LiveAt l k p) (f : QuotaBucket → QuotaBucket) :
    (l.updateBucket p f).bucketOf k = l.bucketOf k := by
  unfold bucketOf
  rw [updateBucket_buckets]
  cases ha : l.buckets.lookup k with
  | none => rfl
  | some a =>
    rw [Option.bind_some, Option.bind_some, getElem?_updateBucket, if_neg]
    exact fun hp => h ⟨a, hp, ha⟩

theorem update (h : Alike low l1 l2) {q : Option Addr} (hlive : LiveAt l1 k p ↔ LiveAt l2 k q)
    (hp : ∀ a k', p = some a → l1.buckets.lookup k' = some a → k' = k)
    (hq : ∀ b k', q = some b → l2.buckets.lookup k' = some b → k' = k)
    (f : QuotaBucket → QuotaBucket) :
    Moved low l1 (l1.updateBucket p f) l2 (l2.updateBucket q f) where
  alike := by
    refine ⟨by unfold lowKeys; rw [updateBucket_buckets, updateBucket_buckets]; exact h.keys, ?_⟩
    intro k' hk'
    by_cases hkey : k' = k
    · subst hkey
      by_cases hl : LiveAt l1 k' p
      · rw [bucketOf_update_live hl, bucketOf_update_live (hlive.mp hl), h.bucket k' hk']
      · rw [bucketOf_update_dead hl, bucketOf_update_dead (mt hlive.mpr hl), h.bucket k' hk']
    · have hdead1 : ¬LiveAt l1 k' p := fun ⟨a, ha, hka⟩ => hkey (hp a k' ha hka)
      have hdead2 : ¬LiveAt l2 k' q := fun ⟨b, hb, hkb⟩ => hkey (hq b k' hb hkb)
      rw [bucketOf_update_dead hdead1, bucketOf_update_dead hdead2, h.bucket k' hk']
  live := by
    intro k' _ p' q' _ _ hlive'
    unfold LiveAt at hlive' ⊢
    rw [updateBucket_buckets, updateBucket_buckets]
    exact hlive'
  length1 := Nat.le_of_eq (updateBucket_length _ _ _).symm
  length2 := Nat.le_of_eq (updateBucket_length _ _ _).symm

theorem bucketOf_store_new (hp : l.Pointed) (hnone : l.buckets.lookup k = none)
    (o : QuotaObservation) (k' : QuotaBucketKey) : (l.storeObservation k o).bucketOf k' =
      if k' = k then some ⟨o, 0, false⟩ else l.bucketOf k' := by
  unfold storeObservation bucketOf
  rw [hnone]
  dsimp only
  rw [GoMap.lookup_insert_eq]
  split
  · exact List.getElem?_concat_length
  · cases ha : l.buckets.lookup k' with
    | none => rfl
    | some a => exact List.getElem?_append_left (hp.addr k' a ha)

theorem store (h : Alike low l1 l2) (hp1 : l1.Pointed) (hp2 : l2.Pointed) (hk : low k)
    (o : QuotaObservation) :
    Moved low l1 (l1.storeObservation k o) l2 (l2.storeObservation k o) := by
  cases ha : l1.buckets.lookup k with
  | some a =>
    obtain ⟨b, hb⟩ := (h.present hk).mp ⟨a, ha⟩
    have hstore : ∀ (l : QuotaLedger) (c : Addr), l.buckets.lookup k = some c →
        l.storeObservation k o = l.updateBucket (some c) fun b => { b with observation := o } := by
      intro l c hc
      unfold storeObservation
      rw [hc]
      rfl
    rw [hstore l1 a ha, hstore l2 b hb]
    refine update h (k := k) ⟨fun _ => ⟨b, rfl, hb⟩, fun _ => ⟨a, rfl, ha⟩⟩ ?_ ?_ _
    · rintro _ k' ⟨⟩ hk'
      exact hp1.inj k' k a hk' ha
    · rintro _ k' ⟨⟩ hk'
      exact hp2.inj k' k b hk' hb
  | none =>
    have hb : l2.buckets.lookup k = none := by
      cases hb : l2.buckets.lookup k with
      | none => rfl
      | some b =>
        obtain ⟨a, ha'⟩ := (h.present hk).mpr ⟨b, hb⟩
        rw [ha] at ha'
        cases ha'
    have hstore : ∀ l : QuotaLedger, l.buckets.lookup k = none → l.storeObservation k o = { l with
          heap := l.heap ++ [⟨o, 0, false⟩]
          buckets := l.buckets.insert k l.heap.length } := by
      intro l hnone
      unfold storeObservation
      rw [hnone]
    have hbucket : ∀ k', low k' →
        (l1.storeObservation k o).bucketOf k' = (l2.storeObservation k o).bucketOf k' := by
      intro k' hk'
      rw [bucketOf_store_new hp1 ha, bucketOf_store_new hp2 hb, h.bucket k' hk']
    rw [hstore l1 ha, hstore l2 hb] at hbucket ⊢
    refine ⟨⟨?_, hbucket⟩, ?_, ?_, ?_⟩
    · have hkeys : ∀ l : QuotaLedger, l.buckets.lookup k = none →
          (l.buckets.insert k l.heap.length).keys = k :: l.buckets.keys := by
        intro l hnone
        show (l.buckets.insert k l.heap.length).entries.map Sigma.fst = _
        rw [GoMap.entries_insert_of_lookup hnone]
        rfl
      unfold lowKeys
      rw [hkeys l1 ha, hkeys l2 hb, filter_cons_of_pos (by simpa using hk),
        filter_cons_of_pos (by simpa using hk)]
      exact congrArg (k :: ·) h.keys
    · intro k' _ p q hp hq hlive
      by_cases hkey : k' = k
      · -- the new object is at neither pointer
        subst hkey
        have hdead : ∀ (l : QuotaLedger) (p : Option Addr), (∀ a, p = some a → a < l.heap.length) →
            ¬LiveAt { l with
              heap := l.heap ++ [⟨o, 0, false⟩]
              buckets := l.buckets.insert k' l.heap.length } k' p := by
          rintro l p hp ⟨a, ha, hka⟩
          rw [AList.lookup_insert] at hka
          cases hka
          exact absurd (hp _ ha) (Nat.lt_irrefl _)
        exact ⟨fun hl => absurd hl (hdead l1 p hp), fun hl => absurd hl (hdead l2 q hq)⟩
      · unfold LiveAt at hlive ⊢
        simp only [GoMap.lookup_insert_eq, if_neg hkey]
        exact hlive
    · simp
    · simp

theorem issue (h : Moved low l1 l1' l2 l2') (ts1 ts2 : GoMap UInt64 QuotaTicketState)
    (id1 id2 : UInt64) :
    Moved low l1 { l1' with nextTicketID := id1, tickets := ts1 } l2
      { l2' with nextTicketID := id2, tickets := ts2 } :=
  ⟨⟨h.alike.keys, h.alike.bucket⟩, h.live, h.length1, h.length2⟩

theorem consume {ts1 ts2 : GoMap UInt64 QuotaTicketState}
    (h : Moved low { l1 with tickets := ts1 } l1' { l2 with tickets := ts2 } l2') :
    Moved low l1 l1' l2 l2' :=
  ⟨h.alike, h.live, h.length1, h.length2⟩

theorem of_frame (h : Frame low l1 l1') (hlength : l1.heap.length ≤ l1'.heap.length)
    (ha : Alike low l1 l2) : Moved low l1 l1' l2 l2 where
  alike := h.alike.trans ha
  live := fun {k} hk _ _ _ _ hlive => by
    unfold LiveAt at hlive ⊢
    rw [h.pointer k hk]
    exact hlive
  length1 := hlength
  length2 := Nat.le_refl _

end Moved

/-! ## Corresponding holds -/

structure HoldPair (low : QuotaBucketKey → Prop) (l1 l2 : QuotaLedger) (e e' : HoldEntry) :
    Prop where
  key : e.1 = e'.1
  cost : e.2.cost = e'.2.cost
  low : low e.1
  live : LiveAt l1 e.1 e.2.bucket ↔ LiveAt l2 e.1 e'.2.bucket
  addr1 : ∀ a, e.2.bucket = some a → a < l1.heap.length
  addr2 : ∀ b, e'.2.bucket = some b → b < l2.heap.length

abbrev HoldPairs (low : QuotaBucketKey → Prop) (l1 l2 : QuotaLedger) :
    List HoldEntry → List HoldEntry → Prop :=
  List.Forall₂ (HoldPair low l1 l2)

theorem HoldPair.moved (h : HoldPair low l1 l2 e e')
    (hm : Moved low l1 l1' l2 l2') : HoldPair low l1' l2' e e' where
  key := h.key
  cost := h.cost
  low := h.low
  live := hm.live h.low h.addr1 h.addr2 h.live
  addr1 := fun a ha => Nat.lt_of_lt_of_le (h.addr1 a ha) hm.length1
  addr2 := fun b hb => Nat.lt_of_lt_of_le (h.addr2 b hb) hm.length2

theorem HoldPairs.moved (h : HoldPairs low l1 l2 es es')
    (hm : Moved low l1 l1' l2 l2') : HoldPairs low l1' l2' es es' :=
  h.imp fun _ _ hpair => hpair.moved hm

omit [DecidablePred low] in
theorem HoldPairs.reservations (h : HoldPairs low l1 l2 es es') :
    (es.map fun e => (⟨e.1, e.2.cost⟩ : QuotaReservation)) = es'.map fun e => ⟨e.1, e.2.cost⟩ := by
  induction h with
  | nil => rfl
  | cons hpair _ ih => rw [map_cons, map_cons, ih, hpair.key, hpair.cost]

omit [DecidablePred low] in
theorem HoldPairs.keys {es es' : List HoldEntry} (h : HoldPairs low l1 l2 es es') :
    es.map Sigma.fst = es'.map Sigma.fst := by
  induction h with
  | nil => rfl
  | cons hpair _ ih => rw [map_cons, map_cons, ih, hpair.key]

omit [DecidablePred low] in
theorem HoldPairs.kerase (h : HoldPairs low l1 l2 es es')
    (k : QuotaBucketKey) : HoldPairs low l1 l2 (es.kerase k) (es'.kerase k) := by
  induction h with
  | nil => exact .nil
  | @cons e e' es es' hpair hrest ih =>
    by_cases hk : k = e.1
    · rw [kerase_cons_eq hk, kerase_cons_eq (hk.trans hpair.key)]
      exact hrest
    · rw [kerase_cons_ne hk, kerase_cons_ne fun hk' => hk (hk'.trans hpair.key.symm)]
      exact .cons hpair ih

omit [DecidablePred low] in
theorem HoldPairs.insertionSort (h : HoldPairs low l1 l2 es es') (order : List QuotaBucketKey) :
    HoldPairs low l1 l2 (es.insertionSort fun x y => order.idxOf x.1 ≤ order.idxOf y.1)
      (es'.insertionSort fun x y => order.idxOf x.1 ≤ order.idxOf y.1) := by
  have hinsert : ∀ {e e' : HoldEntry} {es es' : List HoldEntry}, HoldPair low l1 l2 e e' →
      HoldPairs low l1 l2 es es' →
      HoldPairs low l1 l2 (es.orderedInsert (fun x y => order.idxOf x.1 ≤ order.idxOf y.1) e)
        (es'.orderedInsert (fun x y => order.idxOf x.1 ≤ order.idxOf y.1) e') := by
    intro e e' es es' hpair h
    induction h with
    | nil => exact .cons hpair .nil
    | @cons d d' es es' hd hrest ih =>
      rw [orderedInsert_cons, orderedInsert_cons, ← hpair.key, ← hd.key]
      split
      · exact .cons hpair (.cons hd hrest)
      · exact .cons hd ih
  induction h with
  | nil => exact .nil
  | cons hpair _ ih =>
    rw [insertionSort_cons, insertionSort_cons]
    exact hinsert hpair ih

/-! ## Reserving and consuming on both sides -/

theorem Alike.admits (h : Alike low l1 l2) (hk : low k) (cost : Int64) :
    l1.admits k cost = l2.admits k cost := by
  unfold QuotaLedger.admits
  rw [h.bucket k hk]

theorem Alike.live_lookup (h : Alike low l1 l2) (hk : low k) :
    LiveAt l1 k (l1.buckets.lookup k) ↔ LiveAt l2 k (l2.buckets.lookup k) := by
  have hself : ∀ l : QuotaLedger, LiveAt l k (l.buckets.lookup k) ↔
      ∃ a, l.buckets.lookup k = some a :=
    fun l => ⟨fun ⟨a, ha, _⟩ => ⟨a, ha⟩, fun ⟨a, ha⟩ => ⟨a, ha, ha⟩⟩
  rw [hself, hself]
  exact h.present hk

theorem Moved.reserveOne (h : Alike low l1 l2) (hp1 : l1.Pointed) (hp2 : l2.Pointed) (hk : low k)
    (cost : Int64) :
    Moved low l1 (l1.reserveOne k cost) l2 (l2.reserveOne k cost) := by
  rw [reserveOne_eq, reserveOne_eq]
  exact .update h (h.live_lookup hk) (fun a k' ha hk' => hp1.inj k' k a hk' ha)
    (fun b k' hb hk' => hp2.inj k' k b hk' hb) _

theorem reserveHolds_pairs {es : List (Sigma fun _ : QuotaBucketKey => Int64)}
    (hes : ∀ e ∈ es, low e.1) {holds1 holds2 : GoMap QuotaBucketKey QuotaHold}
    (h : Alike low l1 l2) (hp1 : l1.Pointed) (hp2 : l2.Pointed)
    (hholds : HoldPairs low l1 l2 holds1.entries holds2.entries) :
    Moved low l1 (l1.reserveHolds holds1 es).1 l2 (l2.reserveHolds holds2 es).1 ∧
      HoldPairs low (l1.reserveHolds holds1 es).1 (l2.reserveHolds holds2 es).1
        (l1.reserveHolds holds1 es).2.entries (l2.reserveHolds holds2 es).2.entries := by
  induction es generalizing l1 l2 holds1 holds2 with
  | nil => exact ⟨.refl h, hholds⟩
  | cons e es ih =>
    have hk : low e.1 := hes e mem_cons_self
    have hone := Moved.reserveOne h hp1 hp2 hk e.2
    have hnew : HoldPair low l1 l2 ⟨e.1, ⟨e.1, e.2, l1.buckets.lookup e.1⟩⟩
        ⟨e.1, ⟨e.1, e.2, l2.buckets.lookup e.1⟩⟩ :=
      ⟨rfl, rfl, hk, h.live_lookup hk, fun a ha => hp1.addr e.1 a ha,
        fun b hb => hp2.addr e.1 b hb⟩
    have hinsert : HoldPairs low (l1.reserveOne e.1 e.2) (l2.reserveOne e.1 e.2)
        (holds1.insert e.1 ⟨e.1, e.2, l1.buckets.lookup e.1⟩).entries
        (holds2.insert e.1 ⟨e.1, e.2, l2.buckets.lookup e.1⟩).entries :=
      HoldPairs.moved (.cons hnew (hholds.kerase e.1)) hone
    have hev : ∀ l : QuotaLedger, l.Pointed → (l.reserveOne e.1 e.2).Pointed := by
      intro l hp
      rw [reserveOne_eq]
      exact (evolves_updateBucket l _ _).pointed hp
    obtain ⟨hmoved, hpairs⟩ := ih (fun e' he' => hes e' (mem_cons_of_mem _ he')) hone.alike
      (hev l1 hp1) (hev l2 hp2) hinsert
    exact ⟨hone.trans hmoved, hpairs⟩

theorem Moved.throughHold (h : Alike low l1 l2) (hpair : HoldPair low l1 l2 e e')
    (hok : l1.HoldOk e) (hok' : l2.HoldOk e') (f : QuotaBucket → QuotaBucket) :
    Moved low l1 (l1.updateBucket e.2.bucket f) l2 (l2.updateBucket e'.2.bucket f) :=
  .update h hpair.live (fun a k ha hk => hok.owner a k ha hk)
    (fun b k hb hk => (hok'.owner b k hb hk).trans hpair.key.symm) f

theorem Moved.releaseHoldsLocked {es es' : List HoldEntry} (hpairs : HoldPairs low l1 l2 es es')
    (h : Alike low l1 l2) (hok : ∀ e ∈ es, l1.HoldOk e) (hok' : ∀ e ∈ es', l2.HoldOk e) :
    Moved low l1 (l1.releaseHoldsLocked es) l2 (l2.releaseHoldsLocked es') := by
  induction es generalizing l1 l2 es' with
  | nil =>
    cases hpairs
    exact .refl h
  | cons e es ih =>
    cases hpairs with
    | @cons _ e' _ es' hpair hrest =>
      have hone := Moved.throughHold h hpair (hok e mem_cons_self) (hok' e' mem_cons_self)
        (unreserve e.2.cost)
      unfold QuotaLedger.releaseHoldsLocked
      rw [← hpair.cost]
      refine hone.trans (ih (HoldPairs.moved hrest hone) hone.alike (fun d hd => ?_) fun d hd => ?_)
      · exact (hok d (mem_cons_of_mem _ hd)).evolve (evolves_updateBucket l1 _ _)
      · exact (hok' d (mem_cons_of_mem _ hd)).evolve (evolves_updateBucket l2 _ _)

theorem Moved.settleHold (hpair : HoldPair low l1 l2 e e') (h : Alike low l1 l2)
    (hp1 : l1.Pointed) (hp2 : l2.Pointed) (hok : l1.HoldOk e) (hok' : l2.HoldOk e')
    (byKey : GoMap QuotaBucketKey QuotaSettlement) (now : Time) :
    Moved low l1 (l1.settleHold byKey now e.1 e.2) l2 (l2.settleHold byKey now e'.1 e'.2) := by
  have hev1 := evolves_updateBucket l1 e.2.bucket (settleBucket e.2.cost)
  have hev2 := evolves_updateBucket l2 e'.2.bucket (settleBucket e.2.cost)
  have hone := Moved.throughHold h hpair hok hok' (settleBucket e.2.cost)
  unfold QuotaLedger.settleHold
  simp only
  rw [← hpair.key, ← hpair.cost]
  split
  · split
    · exact hone.trans (.erase hone.alike e.1)
    · exact hone.trans (.store hone.alike (hev1.pointed hp1) (hev2.pointed hp2) hpair.low _)
  · have hactual : actualOf byKey e.1 e.2 = actualOf byKey e.1 e'.2 := by
      unfold actualOf
      rw [hpair.cost]
    rw [hactual]
    exact hone.trans (Moved.throughHold hone.alike (hpair.moved hone) (hok.evolve hev1)
      (hok'.evolve hev2) _)

theorem Moved.settleHolds (hpairs : HoldPairs low l1 l2 es es')
    (h : Alike low l1 l2) (hp1 : l1.Pointed) (hp2 : l2.Pointed) (hok : ∀ e ∈ es, l1.HoldOk e)
    (hok' : ∀ e ∈ es', l2.HoldOk e) (byKey : GoMap QuotaBucketKey QuotaSettlement) (now : Time) :
    Moved low l1 (l1.settleHolds byKey now es) l2 (l2.settleHolds byKey now es') := by
  induction es generalizing l1 l2 es' with
  | nil =>
    cases hpairs
    exact .refl h
  | cons e es ih =>
    cases hpairs with
    | @cons _ e' _ es' hpair hrest =>
      have hev1 := evolves_settleHold l1 byKey now e.1 e.2
      have hev2 := evolves_settleHold l2 byKey now e'.1 e'.2
      have hone := Moved.settleHold hpair h hp1 hp2 (hok e mem_cons_self)
        (hok' e' mem_cons_self) byKey now
      refine hone.trans (ih (HoldPairs.moved hrest hone) hone.alike (hev1.pointed hp1)
        (hev2.pointed hp2) (fun d hd => ?_) fun d hd => ?_)
      · exact (hok d (mem_cons_of_mem _ hd)).evolve hev1
      · exact (hok' d (mem_cons_of_mem _ hd)).evolve hev2

/-! ## Operations on both sides -/

/-- The ledgers are alike without what has expired at `t`. -/
abbrev AlikeAt (low : QuotaBucketKey → Prop) [DecidablePred low] (t : Time)
    (l1 l2 : QuotaLedger) : Prop :=
  Alike low (l1.purgeExpiredLocked t) (l2.purgeExpiredLocked t)

abbrev MovedAt (low : QuotaBucketKey → Prop) [DecidablePred low] (t : Time)
    (l1 l1' l2 l2' : QuotaLedger) : Prop :=
  Moved low (l1.purgeExpiredLocked t) (l1'.purgeExpiredLocked t) (l2.purgeExpiredLocked t)
    (l2'.purgeExpiredLocked t)

variable {t t' now : Time}

theorem Moved.at (h : Moved low (l1.purgeExpiredLocked t) l1' (l2.purgeExpiredLocked t) l2') :
    MovedAt low t l1 l1' l2 l2' :=
  h.trans (.purge h.alike t)

theorem Moved.later (h : AlikeAt low t l1 l2) (ht : t ≤ t') :
    Moved low (l1.purgeExpiredLocked t) (l1.purgeExpiredLocked t') (l2.purgeExpiredLocked t)
      (l2.purgeExpiredLocked t') := by
  have hpurge := Moved.purge h t'
  rwa [purge_purge l1 ht, purge_purge l2 ht] at hpurge

theorem MovedAt.purge (h : AlikeAt low t l1 l2) :
    MovedAt low t l1 (l1.purgeExpiredLocked t) l2 (l2.purgeExpiredLocked t) :=
  Moved.at (.refl h)

theorem pointed_purge (h : l.Pointed) (t : Time) : (l.purgeExpiredLocked t).Pointed :=
  (evolves_purgeExpiredLocked l t).pointed h

theorem MovedAt.observe (h : AlikeAt low now l1 l2) (hp1 : l1.Pointed) (hp2 : l2.Pointed)
    (hk : low k) (o : QuotaObservation) :
    MovedAt low now l1 (l1.observe k o now).1 l2 (l2.observe k o now).1 := by
  by_cases hvalid : (!validQuotaKey k || o.limit < 0 || o.remaining < 0) = true
  · unfold QuotaLedger.observe
    rw [if_pos hvalid, if_pos hvalid]
    exact .refl h
  · rw [observe_eq hvalid, observe_eq hvalid]
    split
    · exact Moved.at (.erase h k)
    · exact Moved.at (.store h (pointed_purge hp1 now) (pointed_purge hp2 now) hk _)

theorem MovedAt.snapshot (h : AlikeAt low now l1 l2) (hk : low k) :
    MovedAt low now l1 (l1.snapshot k now).1 l2 (l2.snapshot k now).1 ∧
      (l1.snapshot k now).2 = (l2.snapshot k now).2 := by
  unfold QuotaLedger.snapshot
  simp only
  rw [h.bucket k hk]
  split
  · exact ⟨.purge h, rfl⟩
  · split
    · exact ⟨Moved.at (.erase h k), rfl⟩
    · exact ⟨.purge h, rfl⟩

theorem AlikeAt.callerKeys (h : AlikeAt low now l1 l2) :
    (l1.keys now).2.filter (fun k => low k) = (l2.keys now).2.filter fun k => low k := by
  rw [keys_filter, keys_filter, h.keys]

/-- Corresponding tickets: both are active, and their holds correspond. -/
structure TicketPair (low : QuotaBucketKey → Prop) (t : Time) (l1 l2 : QuotaLedger)
    (t1 t2 : QuotaTicket) (state1 state2 : QuotaTicketState) : Prop where
  held1 : l1.held t1 = some state1
  held2 : l2.held t2 = some state2
  pairs : HoldPairs low (l1.purgeExpiredLocked t) (l2.purgeExpiredLocked t) state1.holds.entries
    state2.holds.entries

inductive TicketsAlike (low : QuotaBucketKey → Prop) (t : Time) (l1 l2 : QuotaLedger) :
    Option QuotaTicket → Option QuotaTicket → Prop
  | none : TicketsAlike low t l1 l2 none none
  | some {t1 t2 : QuotaTicket} {state1 state2 : QuotaTicketState}
      (h : TicketPair low t l1 l2 t1 t2 state1 state2) :
      TicketsAlike low t l1 l2 (some t1) (some t2)

theorem TicketPair.moved (h : TicketPair low t l1 l2 t1 t2 state1 state2)
    (hm : Moved low (l1.purgeExpiredLocked t) (l1'.purgeExpiredLocked t')
      (l2.purgeExpiredLocked t) (l2'.purgeExpiredLocked t'))
    (h1 : l1'.held t1 = l1.held t1) (h2 : l2'.held t2 = l2.held t2) :
    TicketPair low t' l1' l2' t1 t2 state1 state2 :=
  ⟨h1.trans h.held1, h2.trans h.held2, HoldPairs.moved h.pairs hm⟩

theorem held_new {es : List (Sigma fun _ : QuotaBucketKey => Int64)}
    (hid : ((l.purgeExpiredLocked now).reserveHolds ∅ es).1.newTicketIDLocked = some id) :
    held { ((l.purgeExpiredLocked now).reserveHolds ∅ es).1 with
      nextTicketID := id
      tickets := ((l.purgeExpiredLocked now).reserveHolds ∅ es).1.tickets.insert id
        ⟨((l.purgeExpiredLocked now).reserveHolds ∅ es).2⟩ } ⟨some l.self, id⟩ =
      some ⟨((l.purgeExpiredLocked now).reserveHolds ∅ es).2⟩ := by
  have hself := (reserveHolds_fields (l.purgeExpiredLocked now) ∅ es).1
  refine held_eq_some.mpr ⟨owns_iff.mpr ⟨?_, (drawTicketID_spec hid).1⟩, AList.lookup_insert _⟩
  exact congrArg some hself.symm

theorem MovedAt.reserveAll {rs : List QuotaReservation} {order : List QuotaBucketKey}
    (h : AlikeAt low now l1 l2) (hp1 : l1.Pointed)
    (hp2 : l2.Pointed) (hrs : ∀ r ∈ rs, low r.key)
    (h1 : l1.reserveAll rs now order = some (l1', out1))
    (h2 : l2.reserveAll rs now order = some (l2', out2)) :
    MovedAt low now l1 l1' l2 l2' ∧ TicketsAlike low now l1' l2' out1 out2 := by
  unfold QuotaLedger.reserveAll at h1 h2
  cases hagg : aggregateReservations rs with
  | none =>
    rw [hagg] at h1 h2
    cases h1
    cases h2
    exact ⟨.refl h, .none⟩
  | some amounts =>
    rw [hagg] at h1 h2
    simp only at h1 h2
    have hlow : ∀ e ∈ amounts.range order, low e.1 := by
      intro e he
      obtain ⟨-, -, r, hr, hkey⟩ := aggregateReservations_pos hagg e.1 e.2 (GoMap.mem_range.mp he)
      rw [← hkey]
      exact hrs r hr
    have hsame : ((amounts.range order).all fun e => (l1.purgeExpiredLocked now).admits e.1 e.2) =
        (amounts.range order).all fun e => (l2.purgeExpiredLocked now).admits e.1 e.2 := by
      rw [Bool.eq_iff_iff, all_eq_true, all_eq_true]
      exact forall₂_congr fun e he => by rw [h.admits (hlow e he)]
    rw [hsame] at h1
    split at h1
    · next hall =>
      rw [if_pos hall] at h2
      have hempty : HoldPairs low (l1.purgeExpiredLocked now) (l2.purgeExpiredLocked now)
          (∅ : GoMap QuotaBucketKey QuotaHold).entries
          (∅ : GoMap QuotaBucketKey QuotaHold).entries := .nil
      obtain ⟨hmoved, hpairs⟩ := reserveHolds_pairs hlow h (pointed_purge hp1 now)
        (pointed_purge hp2 now) hempty
      split at h1
      · cases h1
      next id1 hid1 =>
      split at h2
      · cases h2
      next id2 hid2 =>
      cases h1
      cases h2
      have hissued := hmoved.issue
      refine ⟨(hissued _ _ _ _).at, .some ⟨held_new hid1, held_new hid2, HoldPairs.moved ?_
        (.purge (hissued _ _ _ _).alike now)⟩⟩
      exact hpairs.imp fun _ _ hpair =>
        ⟨hpair.key, hpair.cost, hpair.low, hpair.live, hpair.addr1, hpair.addr2⟩
    · next hall =>
      rw [if_neg hall] at h2
      cases h1
      cases h2
      exact ⟨.purge h, .none⟩

omit [DecidablePred low] in
theorem HoldPair.symm (h : HoldPair low l1 l2 e e') : HoldPair low l2 l1 e' e where
  key := h.key.symm
  cost := h.cost.symm
  low := h.key ▸ h.low
  live := by
    rw [← h.key]
    exact h.live.symm
  addr1 := h.addr2
  addr2 := h.addr1

omit [DecidablePred low] in
theorem TicketsAlike.symm (h : TicketsAlike low t l1 l2 out1 out2) :
    TicketsAlike low t l2 l1 out2 out1 := by
  cases h with
  | none => exact .none
  | some h => exact .some ⟨h.held2, h.held1, (h.pairs.flip).imp fun _ _ hpair => hpair.symm⟩

omit [DecidablePred low] in
theorem TicketPair.reservations (h : TicketPair low t l1 l2 t1 t2 state1 state2) :
    l1.reservations t1 = l2.reservations t2 := by
  have hheld : ∀ {l : QuotaLedger} {t : QuotaTicket} {state : QuotaTicketState},
      l.held t = some state → l.reservations t =
        (state.holds.entries.map fun e => (⟨e.1, e.2.cost⟩ : QuotaReservation)).insertionSort
          fun x y => quotaKeyString x.key ≤ quotaKeyString y.key := by
    intro l t state hstate
    obtain ⟨hown, hlookup⟩ := held_eq_some.mp hstate
    obtain ⟨hledger, hid⟩ := owns_iff.mp hown
    unfold QuotaLedger.reservations
    rw [if_neg (by simp [hledger, hid]), hlookup]
  rw [hheld h.held1, hheld h.held2, HoldPairs.reservations h.pairs]

section Consume

variable (order : List QuotaBucketKey)

omit [DecidablePred low] in
theorem TicketPair.range (ht : TicketPair low now l1 l2 t1 t2 state1 state2) :
    HoldPairs low { l1.purgeExpiredLocked now with tickets := l1.tickets.erase t1.id }
      { l2.purgeExpiredLocked now with tickets := l2.tickets.erase t2.id }
      (state1.holds.range order) (state2.holds.range order) :=
  (ht.pairs.insertionSort order).imp fun _ _ hpair =>
    ⟨hpair.key, hpair.cost, hpair.low, hpair.live, hpair.addr1, hpair.addr2⟩

theorem Sound.holdOk_range (hs : l.Sound) {state : QuotaTicketState}
    (hstate : l.tickets.lookup id = some state) (now : Time)
    (he : e ∈ state.holds.range order) :
    HoldOk { l.purgeExpiredLocked now with tickets := l.tickets.erase id } e := by
  have hmem := (GoMap.range_perm order state.holds).mem_iff.mp he
  exact (hs.holds id state hstate e hmem).evolve
    (Evolves.of_sub rfl fun _ _ hk => (GoMap.lookup_keep.mp hk).1)

theorem MovedAt.release (h : AlikeAt low now l1 l2) (hs1 : l1.Sound) (hs2 : l2.Sound)
    (ht : TicketPair low now l1 l2 t1 t2 state1 state2) :
    MovedAt low now l1 (l1.release t1 now order).1 l2 (l2.release t2 now order).1 := by
  have hrelease : ∀ {l : QuotaLedger} {t : QuotaTicket} {state : QuotaTicketState},
      l.owns t = true → l.tickets.lookup t.id = some state →
      (l.release t now order).1 =
        { l.purgeExpiredLocked now with tickets := l.tickets.erase t.id }.releaseHoldsLocked
          (state.holds.range order) := by
    intro l t state howns hstate
    have hstate' : (l.purgeExpiredLocked now).tickets.lookup t.id = some state := hstate
    simp only [QuotaLedger.release, howns, hstate']
    rfl
  obtain ⟨hown1, hstate1⟩ := held_eq_some.mp ht.held1
  obtain ⟨hown2, hstate2⟩ := held_eq_some.mp ht.held2
  rw [hrelease hown1 hstate1, hrelease hown2 hstate2]
  exact Moved.at (Moved.consume (Moved.releaseHoldsLocked (ht.range order) ⟨h.keys, h.bucket⟩
    (fun e he => hs1.holdOk_range order hstate1 now he)
    fun e he => hs2.holdOk_range order hstate2 now he))

theorem MovedAt.reconcile (h : AlikeAt low now l1 l2) (hs1 : l1.Sound) (hs2 : l2.Sound)
    (ht : TicketPair low now l1 l2 t1 t2 state1 state2) (ss : List QuotaSettlement) :
    MovedAt low now l1 (l1.reconcile t1 ss now order).1 l2 (l2.reconcile t2 ss now order).1 := by
  have hheld : ∀ {l : QuotaLedger} {t : QuotaTicket} {state : QuotaTicketState},
      l.tickets.lookup t.id = some state →
      (l.purgeExpiredLocked now).tickets.lookup t.id = some state := fun hstate => hstate
  have hlookup : ∀ k, (state1.holds.lookup k).isSome = (state2.holds.lookup k).isSome := by
    intro k
    have hkeys : state1.holds.keys = state2.holds.keys := ht.pairs.keys
    rw [Bool.eq_iff_iff, AList.lookup_isSome, AList.lookup_isSome, AList.mem_keys, AList.mem_keys,
      hkeys]
  obtain ⟨hown1, hstate1⟩ := held_eq_some.mp ht.held1
  obtain ⟨hown2, hstate2⟩ := held_eq_some.mp ht.held2
  unfold QuotaLedger.reconcile
  simp only [hown1, hown2, hheld hstate1, hheld hstate2, hlookup, Bool.not_true,
    Bool.false_eq_true, if_false]
  split
  · exact .refl h
  split
  · exact Moved.at (Moved.consume (Moved.settleHolds (ht.range order) ⟨h.keys, h.bucket⟩
      ⟨(pointed_purge hs1.pointed now).addr, (pointed_purge hs1.pointed now).inj⟩
      ⟨(pointed_purge hs2.pointed now).addr, (pointed_purge hs2.pointed now).inj⟩
      (fun e he => hs1.holdOk_range order hstate1 now he)
      (fun e he => hs2.holdOk_range order hstate2 now he) _ now))
  · exact .purge h

end Consume

end QuotaLedger

end CalvoProxy
