import CalvoProxy.Quota.Ledger

/-!
# The books of the quota ledger

A bucket's `reserved` is a running total. In every ledger that calls can produce it is the sum of
the holds that active tickets have on that object. `Balanced pending` is this invariant inside a
call, with the holds that are in only one of the two places listed on the side.
-/

namespace CalvoProxy

open List Option GoMap Int64 QuotaLedger

variable {h : QuotaHold} {actual cost : Int64} {byKey' byKey : GoMap QuotaBucketKey QuotaSettlement}
  {id : UInt64} {amounts : GoMap QuotaBucketKey Int64} {out : Option QuotaTicket} {a : Addr}
  {b : QuotaBucket} {l l' : QuotaLedger} {key : QuotaBucketKey} {o : QuotaObservation}
  {ss : List QuotaSettlement} {rs : List QuotaReservation} {now : Time}
  {order : List QuotaBucketKey} {t : QuotaTicket} {ok : Bool}

namespace QuotaLedger

abbrev HoldEntry := Sigma fun _ : QuotaBucketKey => QuotaHold

/-! ## What is held on an object -/

def heldBy (a : Addr) (h : QuotaHold) : Int := if h.bucket = some a then h.cost.toInt else 0

def pendingOn (a : Addr) (es : List HoldEntry) : Int := (es.map fun e => heldBy a e.2).sum

/-- What the active tickets reserve on the object `a`. -/
def heldOn (l : QuotaLedger) (a : Addr) : Int :=
  l.tickets.total fun _ state => pendingOn a state.holds.entries

@[simp]
theorem pendingOn_nil (a : Addr) : pendingOn a [] = 0 := rfl

theorem pendingOn_cons (a : Addr) (e : HoldEntry) (es : List HoldEntry) :
    pendingOn a (e :: es) = heldBy a e.2 + pendingOn a es := by
  simp [pendingOn]

theorem pendingOn_perm {es es' : List HoldEntry} (h : es.Perm es') :
    pendingOn a es = pendingOn a es' :=
  (h.map _).sum_eq

theorem pendingOn_nonneg {es : List HoldEntry} (h : ∀ e ∈ es, 0 < e.2.cost.toInt) :
    0 ≤ pendingOn a es := by
  induction es with
  | nil => rfl
  | cons e es ih =>
    have hrest := ih fun x hx => h x (mem_cons_of_mem e hx)
    have hhead := h e mem_cons_self
    rw [pendingOn_cons]
    unfold heldBy
    split <;> omega

theorem heldBy_some (hb : h.bucket = some a) : heldBy a h = h.cost.toInt := if_pos hb

theorem heldBy_ne (hb : h.bucket ≠ some a) : heldBy a h = 0 :=
  if_neg hb

/-- What is known of every hold: its object is under no other key than its own. -/
structure HoldOk (l : QuotaLedger) (e : HoldEntry) : Prop where
  key_eq : e.2.key = e.1
  valid : validQuotaKey e.1 = true
  cost_pos : 0 < e.2.cost.toInt
  addr : ∀ a, e.2.bucket = some a → a < l.heap.length
  owner : ∀ a k, e.2.bucket = some a → l.buckets.lookup k = some a → k = e.1

/-- A bucket object charged with `held`, with a sane observation. -/
structure BucketOk (held : Int) (b : QuotaBucket) : Prop where
  reserved_eq : b.reserved.toInt = held
  remaining_nonneg : 0 ≤ b.observation.remaining.toInt
  remaining_le : b.observation.remaining.toInt ≤ b.observation.limit.toInt

/-- The map points to objects that exist, and to each from one key only. -/
structure Pointed (l : QuotaLedger) : Prop where
  addr : ∀ k a, l.buckets.lookup k = some a → a < l.heap.length
  inj : ∀ k k' a, l.buckets.lookup k = some a → l.buckets.lookup k' = some a → k = k'

/-- The books are right when `pending` counts as held too. -/
structure Balanced (pending : List HoldEntry) (l : QuotaLedger) : Prop where
  pointed : l.Pointed
  holds : ∀ id state, l.tickets.lookup id = some state → ∀ e ∈ state.holds.entries, l.HoldOk e
  pending_ok : ∀ e ∈ pending, l.HoldOk e
  object : ∀ a b, l.heap[a]? = some b → BucketOk (l.heldOn a + pendingOn a pending) b

abbrev Sound (l : QuotaLedger) : Prop := Balanced [] l

theorem sound_new (self : LedgerId) : (new self).Sound where
  pointed := ⟨fun _ _ h => (nomatch h), fun _ _ _ h => (nomatch h)⟩
  holds := fun _ _ h => nomatch h
  pending_ok := fun _ h => nomatch h
  object := fun _ _ h => nomatch h

namespace Balanced

variable {pending : List HoldEntry}

theorem heldOn_nonneg (h : Balanced pending l) (a : Addr) : 0 ≤ l.heldOn a := by
  apply total_nonneg
  intro t ht
  have hlook := mem_entries.mp ht
  exact pendingOn_nonneg fun e he => (h.holds _ _ hlook e he).cost_pos

theorem reserved_nonneg (h : Balanced pending l) (hb : l.heap[a]? = some b) :
    0 ≤ b.reserved.toInt := by
  have hheld := h.heldOn_nonneg a
  have hpend := pendingOn_nonneg (a := a) fun e he => (h.pending_ok e he).cost_pos
  rw [(h.object a b hb).reserved_eq]
  omega

theorem heldOn_fresh (h : Balanced pending l) (ha : l.heap.length ≤ a) : l.heldOn a = 0 := by
  unfold heldOn
  have hzero : l.tickets.total (fun _ state => pendingOn a state.holds.entries)
      = l.tickets.total fun _ _ => 0 := by
    apply total_congr
    rintro ⟨id, state⟩ ht
    have hlook := mem_entries.mp ht
    have hall : ∀ e ∈ state.holds.entries, heldBy a e.2 = 0 := by
      intro e he
      apply heldBy_ne
      intro hbucket
      exact Nat.not_lt.mpr ha ((h.holds _ _ hlook e he).addr a hbucket)
    show ((state.holds.entries.map fun e => heldBy a e.2).sum : Int) = 0
    rw [map_congr_left hall]
    simp
  rw [hzero]
  simp [total]

theorem pendingOn_fresh (h : Balanced pending l) (ha : l.heap.length ≤ a) :
    pendingOn a pending = 0 := by
  have hall : ∀ e ∈ pending, heldBy a e.2 = 0 := by
    intro e he
    apply heldBy_ne
    intro hbucket
    exact Nat.not_lt.mpr ha ((h.pending_ok e he).addr a hbucket)
  unfold pendingOn
  rw [map_congr_left hall]
  simp

end Balanced

/-! ## How an operation may move the pointers -/

/-- `l'` has the objects of `l` and perhaps new ones, and a new pointer points to a new one. -/
structure Evolves (l l' : QuotaLedger) : Prop where
  length : l.heap.length ≤ l'.heap.length
  pointer : ∀ k a, l'.buckets.lookup k = some a → l.buckets.lookup k = some a ∨ l.heap.length ≤ a
  pointed : l.Pointed → l'.Pointed

theorem Evolves.trans {l1 l2 l3 : QuotaLedger} (h1 : Evolves l1 l2) (h2 : Evolves l2 l3) :
    Evolves l1 l3 where
  length := Nat.le_trans h1.length h2.length
  pointer := by
    intro k a hk
    rcases h2.pointer k a hk with hold | hnew
    · exact h1.pointer k a hold
    · exact Or.inr (Nat.le_trans h1.length hnew)
  pointed := fun h => h2.pointed (h1.pointed h)

theorem HoldOk.evolve {e : HoldEntry} (h : l.HoldOk e) (ev : Evolves l l') : l'.HoldOk e where
  key_eq := h.key_eq
  valid := h.valid
  cost_pos := h.cost_pos
  addr := fun a ha => Nat.lt_of_lt_of_le (h.addr a ha) ev.length
  owner := by
    intro a k ha hk
    rcases ev.pointer k a hk with hold | hnew
    · exact h.owner a k ha hold
    · exact absurd (h.addr a ha) (Nat.not_lt.mpr hnew)

theorem Evolves.of_sub (hlen : l'.heap.length = l.heap.length)
    (h : ∀ k a, l'.buckets.lookup k = some a → l.buckets.lookup k = some a) :
    Evolves l l' where
  length := Nat.le_of_eq hlen.symm
  pointer := fun k a hk => Or.inl (h k a hk)
  pointed := fun hp =>
    { addr := fun k a hk => Nat.lt_of_lt_of_eq (hp.addr k a (h k a hk)) hlen.symm
      inj := fun k k' a hk hk' => hp.inj k k' a (h k a hk) (h k' a hk') }

theorem evolves_purgeExpiredLocked (l : QuotaLedger) (now : Time) :
    Evolves l (l.purgeExpiredLocked now) :=
  Evolves.of_sub rfl fun _ _ hk => (lookup_keep.mp hk).1

theorem evolves_erase (l : QuotaLedger) (key : QuotaBucketKey) :
    Evolves l { l with buckets := l.buckets.erase key } := by
  refine Evolves.of_sub rfl fun k a hk => ?_
  rw [lookup_erase_eq] at hk
  split at hk
  · cases hk
  · exact hk

theorem evolves_updateBucket (l : QuotaLedger) (bucket : Option Addr)
    (f : QuotaBucket → QuotaBucket) : Evolves l (l.updateBucket bucket f) := by
  cases bucket with
  | none => exact Evolves.of_sub rfl fun _ _ hk => hk
  | some a => exact Evolves.of_sub (length_modify f l.heap a) fun _ _ hk => hk

theorem evolves_storeObservation (l : QuotaLedger) (key : QuotaBucketKey) (o : QuotaObservation) :
    Evolves l (l.storeObservation key o) := by
  unfold storeObservation
  split
  · exact Evolves.of_sub (length_modify _ l.heap _) fun _ _ hk => hk
  next hnone =>
  have hcases : ∀ k a, (l.buckets.insert key l.heap.length).lookup k = some a →
      (k = key ∧ a = l.heap.length) ∨ l.buckets.lookup k = some a := by
    intro k a hk
    rw [lookup_insert_eq] at hk
    split at hk
    · next heq => exact Or.inl ⟨heq, (Option.some.inj hk).symm⟩
    · exact Or.inr hk
  refine ⟨by simp, fun k a hk => ?_, fun hp => ⟨fun k a hk => ?_, fun k k' a hk hk' => ?_⟩⟩
  · rcases hcases k a hk with ⟨_, rfl⟩ | hold
    · exact Or.inr (Nat.le_refl _)
    · exact Or.inl hold
  · show a < (l.heap ++ [_]).length
    rw [length_append]
    rcases hcases k a hk with ⟨_, rfl⟩ | hold
    · exact Nat.lt_succ_self _
    · exact Nat.lt_succ_of_lt (hp.addr k a hold)
  · rcases hcases k a hk with ⟨rfl, rfl⟩ | hold <;> rcases hcases k' _ hk' with ⟨rfl, ha⟩ | hold'
    · rfl
    · exact absurd (hp.addr _ _ hold') (Nat.lt_irrefl _)
    · exact absurd (ha ▸ hp.addr _ _ hold) (Nat.lt_irrefl _)
    · exact hp.inj k k' a hold hold'

/-! ## Steps of the books -/

section Fields

variable (l : QuotaLedger) (bucket : Option Addr) (f : QuotaBucket → QuotaBucket)
  (key : QuotaBucketKey) (o : QuotaObservation)

@[simp]
theorem updateBucket_self : (l.updateBucket bucket f).self = l.self := by cases bucket <;> rfl

@[simp]
theorem updateBucket_buckets : (l.updateBucket bucket f).buckets = l.buckets := by
  cases bucket <;> rfl

@[simp]
theorem updateBucket_tickets : (l.updateBucket bucket f).tickets = l.tickets := by
  cases bucket <;> rfl

@[simp]
theorem updateBucket_nextTicketID :
    (l.updateBucket bucket f).nextTicketID = l.nextTicketID := by cases bucket <;> rfl

@[simp]
theorem storeObservation_self : (l.storeObservation key o).self = l.self := by
  unfold storeObservation; split <;> rfl

@[simp]
theorem storeObservation_tickets : (l.storeObservation key o).tickets = l.tickets := by
  unfold storeObservation; split <;> rfl

@[simp]
theorem storeObservation_nextTicketID :
    (l.storeObservation key o).nextTicketID = l.nextTicketID := by
  unfold storeObservation; split <;> rfl

end Fields

theorem getElem?_updateBucket (l : QuotaLedger) (bucket : Option Addr)
    (f : QuotaBucket → QuotaBucket) (a : Addr) :
    (l.updateBucket bucket f).heap[a]? =
      if bucket = some a then l.heap[a]?.map f else l.heap[a]? := by
  cases bucket with
  | none => rfl
  | some c =>
    show (l.heap.modify c f)[a]? = _
    rw [List.getElem?_modify]
    by_cases hc : c = a
    · subst hc
      simp
    · simp [hc]

theorem object_updateBucket {l : QuotaLedger} {bucket : Option Addr}
    {f : QuotaBucket → QuotaBucket} {a : Addr} {b' : QuotaBucket}
    (h : (l.updateBucket bucket f).heap[a]? = some b') :
    ∃ b, l.heap[a]? = some b ∧ ((bucket = some a ∧ b' = f b) ∨ (bucket ≠ some a ∧ b' = b)) := by
  rw [getElem?_updateBucket] at h
  split at h
  · next heq =>
    obtain ⟨b, hb, hfb⟩ := map_eq_some_iff.mp h
    exact ⟨b, hb, Or.inl ⟨heq, hfb.symm⟩⟩
  · next hne => exact ⟨b', h, Or.inr ⟨hne, rfl⟩⟩

/-- After an observation was stored, an object has a new observation at most, or is new with nothing
reserved. -/
theorem object_storeObservation {b' : QuotaBucket}
    (h : (l.storeObservation key o).heap[a]? = some b') :
    (∃ b, l.heap[a]? = some b ∧
      ((l.buckets.lookup key = some a ∧ b' = { b with observation := o }) ∨
        (l.buckets.lookup key ≠ some a ∧ b' = b))) ∨
    (a = l.heap.length ∧ l.buckets.lookup key = none ∧ b' = ⟨o, 0, false⟩) := by
  unfold storeObservation at h
  split at h
  · next c hc =>
    left
    rw [hc]
    exact @object_updateBucket l (some c) _ a b' h
  · next hnone =>
    rw [hnone]
    rcases Nat.lt_trichotomy a l.heap.length with hlt | heq | hgt
    · left
      rw [List.getElem?_append_left hlt] at h
      exact ⟨b', h, Or.inr ⟨fun hc => (nomatch hc), rfl⟩⟩
    · right
      subst heq
      rw [List.getElem?_concat_length] at h
      exact ⟨rfl, rfl, (Option.some.inj h).symm⟩
    · have hlen : (l.heap ++ [(⟨o, 0, false⟩ : QuotaBucket)]).length ≤ a := by
        rw [length_append]
        exact hgt
      rw [List.getElem?_eq_none hlen] at h
      cases h

namespace Balanced

variable {pending : List HoldEntry}

theorem evolve {pending' : List HoldEntry} (h : Balanced pending l) (ev : Evolves l l')
    (ht : l'.tickets = l.tickets) (hp : ∀ e ∈ pending', l'.HoldOk e)
    (hobj : ∀ a b', l'.heap[a]? = some b' → BucketOk (l.heldOn a + pendingOn a pending') b') :
    Balanced pending' l' where
  pointed := ev.pointed h.pointed
  holds := by
    intro id state hlook e he
    rw [ht] at hlook
    exact (h.holds id state hlook e he).evolve ev
  pending_ok := hp
  object := by
    intro a b' hb
    have hheld : l'.heldOn a = l.heldOn a := by unfold heldOn; rw [ht]
    rw [hheld]
    exact hobj a b' hb

theorem purgeExpiredLocked (h : Balanced pending l) (now : Time) :
    Balanced pending (l.purgeExpiredLocked now) :=
  h.evolve (evolves_purgeExpiredLocked l now) rfl
    (fun e he => (h.pending_ok e he).evolve (evolves_purgeExpiredLocked l now)) h.object

theorem eraseBucket (h : Balanced pending l) (key : QuotaBucketKey) :
    Balanced pending { l with buckets := l.buckets.erase key } :=
  h.evolve (evolves_erase l key) rfl
    (fun e he => (h.pending_ok e he).evolve (evolves_erase l key)) h.object

theorem storeObservation (h : Balanced pending l) (key : QuotaBucketKey)
    (h0 : 0 ≤ o.remaining.toInt) (hle : o.remaining.toInt ≤ o.limit.toInt) :
    Balanced pending (l.storeObservation key o) := by
  have ev := evolves_storeObservation l key o
  refine h.evolve ev (storeObservation_tickets l key o)
    (fun e he => (h.pending_ok e he).evolve ev) fun a b' hb' => ?_
  rcases object_storeObservation hb' with ⟨b, hb, ⟨_, rfl⟩ | ⟨_, rfl⟩⟩ | ⟨ha, _, rfl⟩
  · exact ⟨(h.object a b hb).reserved_eq, h0, hle⟩
  · exact h.object a b' hb
  have hfresh : l.heap.length ≤ a := Nat.le_of_eq ha.symm
  refine ⟨?_, h0, hle⟩
  rw [h.heldOn_fresh hfresh, h.pendingOn_fresh hfresh]
  rfl

end Balanced

/-! ## Closing the books of a ticket -/

theorem minInt64_eq_right {left right : Int64} (h : right.toInt ≤ left.toInt) :
    minInt64 left right = right := by
  apply if_neg
  rw [lt_def]
  omega

theorem charge_remaining (ha : 0 ≤ actual.toInt) (hb : 0 ≤ b.observation.remaining.toInt) :
    (charge actual b).observation.remaining.toInt =
      max 0 (b.observation.remaining.toInt - actual.toInt) := by
  show (b.observation.remaining - minInt64 b.observation.remaining actual).toInt = _
  unfold minInt64
  split
  · next hlt =>
    rw [lt_def] at hlt
    rw [toInt_sub_of_nonneg hb hb]
    omega
  · next hge =>
    rw [lt_def] at hge
    rw [toInt_sub_of_nonneg hb ha]
    omega

/-- What is known of settlements that `Reconcile` accepts. -/
structure SettlementOk (key : QuotaBucketKey) (s : QuotaSettlement) : Prop where
  key_eq : s.key = key
  actual_nonneg : 0 ≤ s.actual.toInt
  observed : ∀ o, s.observation = some o → 0 ≤ o.limit.toInt ∧ 0 ≤ o.remaining.toInt

theorem settlementsByKey_ok (hold : ∀ k s, byKey.lookup k = some s → SettlementOk k s)
    (h : settlementsByKey byKey ss = some byKey') :
    ∀ k s, byKey'.lookup k = some s → SettlementOk k s := by
  induction ss generalizing byKey with
  | nil =>
    cases h
    exact hold
  | cons s ss ih =>
    unfold settlementsByKey at h
    split at h
    · cases h
    next hvalid =>
    split at h
    · cases h
    split at h
    · cases h
    next hobs =>
    refine ih (fun k s' hk => ?_) h
    rw [lookup_insert_eq] at hk
    split at hk
    · next heq =>
      subst heq
      cases hk
      simp only [Bool.or_eq_true, decide_eq_true_eq, not_or, lt_def, toInt_zero',
        Int.not_lt] at hvalid
      refine ⟨rfl, hvalid.2, fun o ho => ?_⟩
      simpa [ho, lt_def] using hobs
    · exact hold k s' hk

theorem settlementsByKey_mem (h : settlementsByKey byKey ss = some byKey') {k : QuotaBucketKey}
    {s : QuotaSettlement}
    (hk : byKey'.lookup k = some s) :
    byKey.lookup k = some s ∨ s ∈ ss ∧ s.key = k ∧ validQuotaKey k = true := by
  induction ss generalizing byKey with
  | nil =>
    cases h
    exact Or.inl hk
  | cons s' ss ih =>
    unfold settlementsByKey at h
    split at h
    · cases h
    next hvalid =>
    split at h
    · cases h
    split at h
    · cases h
    rcases ih h with hold | ⟨hmem, hkey⟩
    · rw [lookup_insert_eq] at hold
      split at hold
      · next heq =>
        cases hold
        exact Or.inr ⟨mem_cons_self, heq.symm, heq ▸ by simp_all⟩
      · exact Or.inl hold
    · exact Or.inr ⟨mem_cons_of_mem s' hmem, hkey⟩

theorem settlementsByKey_empty_ok (h : settlementsByKey ∅ ss = some byKey) :
    ∀ k s, byKey.lookup k = some s → SettlementOk k s :=
  settlementsByKey_ok (fun k s hk => by rw [AList.lookup_empty] at hk; exact nomatch hk) h

theorem normaliseQuotaObservation_bounds (now : Time)
    (h : 0 ≤ o.limit.toInt ∧ 0 ≤ o.remaining.toInt) :
    0 ≤ (normaliseQuotaObservation o now).remaining.toInt ∧
      (normaliseQuotaObservation o now).remaining.toInt ≤
        (normaliseQuotaObservation o now).limit.toInt := by
  obtain ⟨hlimit, hremaining⟩ := h
  have hsame : (if Time.isZero o.observedAt then { o with observedAt := now } else o).limit = o.limit
      ∧ (if Time.isZero o.observedAt then { o with observedAt := now } else o).remaining
        = o.remaining := by
    split <;> exact ⟨rfl, rfl⟩
  unfold normaliseQuotaObservation
  simp only [hsame]
  split
  · exact ⟨hlimit, Int.le_refl _⟩
  next hle =>
  rw [lt_def] at hle
  rw [hsame.1, hsame.2]
  exact ⟨hremaining, Int.not_lt.mp hle⟩

namespace Balanced

variable {pending es : List HoldEntry} {e : HoldEntry}

theorem unreserve_eq (h : Balanced (e :: es) l) (hb : l.heap[a]? = some b)
    (ha : e.2.bucket = some a) :
    e.2.cost.toInt ≤ b.reserved.toInt ∧ minInt64 b.reserved e.2.cost = e.2.cost ∧
      (unreserve e.2.cost b).reserved.toInt = b.reserved.toInt - e.2.cost.toInt := by
  have hcost := (h.pending_ok e mem_cons_self).cost_pos
  have hheld := h.heldOn_nonneg a
  have hrest : 0 ≤ pendingOn a es :=
    pendingOn_nonneg fun x hx => (h.pending_ok x (mem_cons_of_mem e hx)).cost_pos
  have hres := (h.object a b hb).reserved_eq
  rw [pendingOn_cons, heldBy_some ha] at hres
  have hle : e.2.cost.toInt ≤ b.reserved.toInt := by omega
  have hmin := minInt64_eq_right hle
  refine ⟨hle, hmin, ?_⟩
  show (b.reserved - minInt64 b.reserved e.2.cost).toInt = _
  rw [hmin]
  exact toInt_sub_of_nonneg (by omega) (by omega)

theorem take (h : Balanced (e :: es) l) {f : QuotaBucket → QuotaBucket}
    (hf : ∀ b, (f b).observation = b.observation ∧
      (f b).reserved = (unreserve e.2.cost b).reserved) :
    Balanced es (l.updateBucket e.2.bucket f) := by
  have ev := evolves_updateBucket l e.2.bucket f
  refine h.evolve ev (updateBucket_tickets l e.2.bucket f)
    (fun x hx => (h.pending_ok x (mem_cons_of_mem e hx)).evolve ev) fun a b' hb' => ?_
  obtain ⟨b, hb, ⟨ha, rfl⟩ | ⟨hne, rfl⟩⟩ := object_updateBucket hb'
  · have hok := h.object a b hb
    obtain ⟨hobs, hres⟩ := hf b
    refine ⟨?_, by rw [hobs]; exact hok.remaining_nonneg, by rw [hobs]; exact hok.remaining_le⟩
    rw [hres, (h.unreserve_eq hb ha).2.2, hok.reserved_eq, pendingOn_cons, heldBy_some ha]
    omega
  · have hok := h.object a b' hb
    rw [pendingOn_cons, heldBy_ne hne, Int.zero_add] at hok
    exact hok

theorem charge (h : Balanced pending l) (bucket : Option Addr) (hactual : 0 ≤ actual.toInt) :
    Balanced pending (l.updateBucket bucket (charge actual)) := by
  have ev := evolves_updateBucket l bucket (QuotaLedger.charge actual)
  refine h.evolve ev (updateBucket_tickets l bucket _)
    (fun x hx => (h.pending_ok x hx).evolve ev) fun a b' hb' => ?_
  obtain ⟨b, hb, ⟨_, rfl⟩ | ⟨_, rfl⟩⟩ := object_updateBucket hb'
  · have hok := h.object a b hb
    have hrem := charge_remaining hactual hok.remaining_nonneg
    have hle := hok.remaining_le
    have h0 := hok.remaining_nonneg
    refine ⟨hok.reserved_eq, ?_, ?_⟩
    · rw [hrem]
      exact Int.le_max_left _ _
    · rw [hrem]
      show max 0 _ ≤ b.observation.limit.toInt
      omega
  · exact h.object a b' hb

theorem releaseHoldsLocked {done : List HoldEntry} (h : Balanced (done ++ es) l) :
    Balanced es (l.releaseHoldsLocked done) := by
  induction done generalizing l with
  | nil => exact h
  | cons e done ih => exact ih (h.take fun _ => ⟨rfl, rfl⟩)

theorem settleHold (now : Time)
    (hby : ∀ k s, byKey.lookup k = some s → SettlementOk k s) (h : Balanced (e :: es) l) :
    Balanced es (l.settleHold byKey now e.1 e.2) := by
  have htake : Balanced es (l.updateBucket e.2.bucket (settleBucket e.2.cost)) :=
    h.take fun _ => ⟨rfl, rfl⟩
  unfold QuotaLedger.settleHold
  simp only
  split
  · next o ho =>
    obtain ⟨s, hs, hso⟩ := bind_eq_some_iff.mp ho
    have hbounds := normaliseQuotaObservation_bounds now ((hby _ s hs).observed o hso)
    split
    · exact htake.eraseBucket e.1
    · exact htake.storeObservation e.1 hbounds.1 hbounds.2
  · apply htake.charge
    unfold actualOf
    split
    · next s hs => exact (hby _ s hs).actual_nonneg
    · exact Int.le_of_lt (h.pending_ok e mem_cons_self).cost_pos

theorem settleHolds (now : Time)
    (hby : ∀ k s, byKey.lookup k = some s → SettlementOk k s) {done : List HoldEntry}
    (h : Balanced (done ++ es) l) : Balanced es (l.settleHolds byKey now done) := by
  induction done generalizing l with
  | nil => exact h
  | cons e done ih => exact ih (h.settleHold now hby)

theorem eraseTicket {state : QuotaTicketState} (h : Sound l)
    (hlook : l.tickets.lookup id = some state) (order : List QuotaBucketKey) :
    Balanced (state.holds.range order) { l with tickets := l.tickets.erase id } := by
  have ev : Evolves l { l with tickets := l.tickets.erase id } :=
    Evolves.of_sub rfl fun _ _ hk => hk
  refine ⟨ev.pointed h.pointed, fun id' state' hlook' e he => ?_, fun e he => ?_, fun a b hb => ?_⟩
  · have hold := mem_entries_erase (mem_entries.mpr hlook')
    exact (h.holds id' state' (mem_entries.mp hold.1) e he).evolve ev
  · exact (h.holds id state hlook e ((range_perm order state.holds).mem_iff.mp he)).evolve ev
  · have hok := h.object a b hb
    have hsplit := total_erase (fun _ state => pendingOn a state.holds.entries) hlook
    have heq : l.heldOn a + pendingOn a [] = heldOn { l with tickets := l.tickets.erase id } a +
          pendingOn a (state.holds.range order) := by
      rw [pendingOn_perm (range_perm order state.holds), pendingOn_nil]
      show total _ l.tickets + 0 = total _ (l.tickets.erase id) + _
      omega
    rw [heq] at hok
    exact hok

end Balanced

/-! ## Opening the books of a ticket -/

theorem aggregate_pos {amounts' : GoMap QuotaBucketKey Int64} {K : QuotaBucketKey → Prop}
    (hold : ∀ k c, amounts.lookup k = some c → validQuotaKey k = true ∧ 0 < c.toInt ∧ K k)
    (hrs : ∀ r ∈ rs, K r.key) (h : aggregate amounts rs = some amounts') :
    ∀ k c, amounts'.lookup k = some c → validQuotaKey k = true ∧ 0 < c.toInt ∧ K k := by
  induction rs generalizing amounts with
  | nil =>
    cases h
    exact hold
  | cons r rs ih =>
    obtain ⟨hfirst, hrest⟩ := forall_mem_cons.mp hrs
    unfold aggregate at h
    split at h
    · cases h
    next hvalid =>
    split at h
    · exact ih hold hrest h
    next hcost =>
    simp only at h
    split at h
    · cases h
    next hsum =>
    simp only [Bool.or_eq_true, Bool.not_eq_true', decide_eq_true_eq, not_or, lt_def,
      toInt_zero', Int.not_lt, Bool.not_eq_false] at hvalid hsum
    refine ih (fun k c hk => ?_) hrest h
    rw [lookup_insert_eq] at hk
    split at hk
    · next heq =>
      subst heq
      refine ⟨hvalid.1, ?_, hfirst⟩
      have hprev : 0 ≤ ((amounts.lookup r.key).getD 0).toInt := by
        cases hl : amounts.lookup r.key with
        | none => exact Int.le_refl 0
        | some v => exact Int.le_of_lt (hold _ v hl).2.1
      have hpos : r.cost.toInt ≠ 0 := fun h0 => hcost (eq_of_toInt h0)
      -- the sum is not negative, so it did not wrap
      have hsmall : ((amounts.lookup r.key).getD 0).toInt + r.cost.toInt < 2 ^ 63 := by
        by_contra hbig
        have := toInt_add_neg hprev hvalid.2 (Int.not_lt.mp hbig)
        omega
      rw [← Option.some.inj hk, toInt_add_of_lt hprev hvalid.2 hsmall]
      omega
    · exact hold k c hk

theorem aggregateReservations_pos (h : aggregateReservations rs = some amounts) :
    ∀ k c, amounts.lookup k = some c → validQuotaKey k = true ∧ 0 < c.toInt ∧ ∃ r ∈ rs, r.key = k :=
  aggregate_pos (fun k c hk => by rw [AList.lookup_empty] at hk; exact nomatch hk)
    (fun r hr => ⟨r, hr, rfl⟩) h

def Room (l : QuotaLedger) (key : QuotaBucketKey) (cost : Int64) : Prop :=
  ∀ b, l.bucketOf key = some b → b.reserved.toInt + cost.toInt < 2 ^ 63

theorem reserveOne_eq (l : QuotaLedger) (key : QuotaBucketKey) (cost : Int64) :
    l.reserveOne key cost = l.updateBucket (l.buckets.lookup key)
      fun b => { b with reserved := b.reserved + cost } := by
  unfold reserveOne updateBucket
  cases l.buckets.lookup key <;> rfl

theorem bucketOf_eq_some :
    l.bucketOf key = some b ↔ ∃ a, l.buckets.lookup key = some a ∧ l.heap[a]? = some b :=
  bind_eq_some_iff

theorem Pointed.lookup_eq_none (hp : l.Pointed) (h : l.bucketOf key = none) :
    l.buckets.lookup key = none := by
  cases ha : l.buckets.lookup key with
  | none => rfl
  | some a =>
    rw [bucketOf, ha, bind_some, List.getElem?_eq_getElem (hp.addr key a ha)] at h
    cases h

theorem bucketOf_reserveOne_ne (hp : l.Pointed) {key' : QuotaBucketKey}
    (hne : key' ≠ key) (cost : Int64) :
    (l.reserveOne key cost).bucketOf key' = l.bucketOf key' := by
  rw [reserveOne_eq]
  unfold bucketOf
  rw [updateBucket_buckets]
  cases ha : l.buckets.lookup key' with
  | none => rfl
  | some a =>
    show (l.updateBucket _ _).heap[a]? = l.heap[a]?
    rw [getElem?_updateBucket, if_neg]
    intro hkey
    exact hne (hp.inj key' key a ha hkey)

theorem Balanced.room_of_admits {pending : List HoldEntry} (h : Balanced pending l)
    (hc : 0 < cost.toInt)
    (hadm : l.admits key cost = true) : l.Room key cost := by
  intro b hb
  obtain ⟨a, _, hobj⟩ := bucketOf_eq_some.mp hb
  have hok := h.object a b hobj
  have hlim := b.observation.limit.toInt_lt
  have hcost := cost.toInt_lt
  have hrem := hok.remaining_le
  unfold admits at hadm
  rw [hb] at hadm
  simp only [Bool.or_eq_true, Bool.and_eq_true, decide_eq_true_eq, beq_iff_eq, le_def] at hadm
  rcases hadm with hfit | ⟨⟨_, hzero⟩, _⟩
  · rw [toInt_sub_of_nonneg hok.remaining_nonneg (h.reserved_nonneg hobj)] at hfit
    omega
  · rw [hzero, toInt_zero']
    omega

namespace Balanced

variable {pending : List HoldEntry}

theorem reserveOne (h : Balanced pending l) (hvalid : validQuotaKey key = true)
    (hc : 0 < cost.toInt) (hroom : l.Room key cost) :
    Balanced (⟨key, ⟨key, cost, l.buckets.lookup key⟩⟩ :: pending) (l.reserveOne key cost) := by
  rw [reserveOne_eq]
  have ev := evolves_updateBucket l (l.buckets.lookup key)
    fun b => { b with reserved := b.reserved + cost }
  have hnew : l.HoldOk ⟨key, ⟨key, cost, l.buckets.lookup key⟩⟩ :=
    ⟨rfl, hvalid, hc, fun a ha => h.pointed.addr key a ha,
      fun a k ha hk => h.pointed.inj k key a hk ha⟩
  refine h.evolve ev (updateBucket_tickets l _ _) (fun e he => ?_) fun a b' hb' => ?_
  · rcases mem_cons.mp he with rfl | hold
    · exact hnew.evolve ev
    · exact (h.pending_ok e hold).evolve ev
  · obtain ⟨b, hb, ⟨ha, rfl⟩ | ⟨hne, rfl⟩⟩ := object_updateBucket hb'
    · have hok := h.object a b hb
      refine ⟨?_, hok.remaining_nonneg, hok.remaining_le⟩
      show (b.reserved + cost).toInt = _
      have hheld : heldBy a ⟨key, cost, l.buckets.lookup key⟩ = cost.toInt := heldBy_some ha
      rw [toInt_add_of_lt (h.reserved_nonneg hb) (Int.le_of_lt hc)
        (hroom b (bucketOf_eq_some.mpr ⟨a, ha, hb⟩)), hok.reserved_eq, pendingOn_cons, hheld]
      omega
    · have hok := h.object a b' hb
      rw [pendingOn_cons, heldBy_ne hne, Int.zero_add]
      exact hok

/-- The second loop of `ReserveAll`: its keys are distinct, so the test of the first loop is still
good. -/
theorem reserveHolds {es : List (Sigma fun _ : QuotaBucketKey => Int64)}
    {holds : GoMap QuotaBucketKey QuotaHold} (h : Balanced holds.entries l)
    (hnodup : es.NodupKeys) (hnew : ∀ e ∈ es, holds.lookup e.1 = none)
    (hval : ∀ e ∈ es, validQuotaKey e.1 = true ∧ 0 < e.2.toInt)
    (hroom : ∀ e ∈ es, l.Room e.1 e.2) :
    Balanced (l.reserveHolds holds es).2.entries (l.reserveHolds holds es).1 := by
  induction es generalizing l holds with
  | nil => exact h
  | cons e es ih =>
    have hdistinct : ∀ x ∈ es, x.1 ≠ e.1 := fun x hx heq =>
      (nodupKeys_cons.mp hnodup).1 (heq ▸ mem_keys_of_mem hx)
    have hhead := hval e mem_cons_self
    have hone := h.reserveOne hhead.1 hhead.2 (hroom e mem_cons_self)
    apply ih
    · rw [entries_insert_of_lookup (hnew e mem_cons_self)]
      exact hone
    · exact (nodupKeys_cons.mp hnodup).2
    · intro x hx
      rw [lookup_insert_eq, if_neg (hdistinct x hx)]
      exact hnew x (mem_cons_of_mem e hx)
    · exact fun x hx => hval x (mem_cons_of_mem e hx)
    · intro x hx b hb
      rw [bucketOf_reserveOne_ne h.pointed (hdistinct x hx)] at hb
      exact hroom x (mem_cons_of_mem e hx) b hb

theorem insertTicket {id : UInt64} {state : QuotaTicketState}
    (h : Balanced state.holds.entries l) (hfree : l.tickets.lookup id = none) :
    Sound { l with nextTicketID := id, tickets := l.tickets.insert id state } := by
  have ev : Evolves l { l with nextTicketID := id, tickets := l.tickets.insert id state } :=
    Evolves.of_sub rfl fun _ _ hk => hk
  refine ⟨ev.pointed h.pointed, fun id' state' hlook e he => ?_, fun _ he => (nomatch he),
    fun a b hb => ?_⟩
  · rw [lookup_insert_eq] at hlook
    split at hlook
    · cases hlook
      exact (h.pending_ok e he).evolve ev
    · exact (h.holds id' state' hlook e he).evolve ev
  · have hok := h.object a b hb
    have hsplit := total_insert (v := state) (fun _ state => pendingOn a state.holds.entries) hfree
    have heq : l.heldOn a + pendingOn a state.holds.entries =
        heldOn { l with nextTicketID := id, tickets := l.tickets.insert id state } a +
          pendingOn a [] := by
      rw [pendingOn_nil]
      show total _ l.tickets + _ = total _ (l.tickets.insert id state) + 0
      omega
    rw [heq] at hok
    exact hok

end Balanced

/-! ## Every call keeps the books right -/

theorem drawTicketID_spec {tickets : GoMap UInt64 QuotaTicketState} {fuel : Nat} {next : UInt64}
    (h : drawTicketID tickets fuel next = some id) : id ≠ 0 ∧ tickets.lookup id = none := by
  induction fuel generalizing next with
  | zero => cases h
  | succ fuel ih =>
    unfold drawTicketID at h
    simp only at h
    split at h
    · exact ih h
    next hzero =>
    split at h
    · exact ih h
    next htaken =>
    cases h
    refine ⟨hzero, ?_⟩
    simpa using htaken

section Fields

variable (l : QuotaLedger) (holds : GoMap QuotaBucketKey QuotaHold)
  (es : List (Sigma fun _ : QuotaBucketKey => Int64)) (hs : List HoldEntry)
  (byKey : GoMap QuotaBucketKey QuotaSettlement) (now : Time)

theorem reserveHolds_fields : (l.reserveHolds holds es).1.self = l.self ∧
      (l.reserveHolds holds es).1.buckets = l.buckets ∧
      (l.reserveHolds holds es).1.tickets = l.tickets ∧
      (l.reserveHolds holds es).1.nextTicketID = l.nextTicketID := by
  induction es generalizing l holds with
  | nil => exact ⟨rfl, rfl, rfl, rfl⟩
  | cons e es ih =>
    have h := ih (l.reserveOne e.1 e.2) (holds.insert e.1 ⟨e.1, e.2, l.buckets.lookup e.1⟩)
    rw [reserveOne_eq] at h
    simp only [updateBucket_self, updateBucket_buckets, updateBucket_tickets,
      updateBucket_nextTicketID] at h
    unfold reserveHolds
    rw [reserveOne_eq]
    exact h

theorem releaseHoldsLocked_fields :
    (l.releaseHoldsLocked hs).self = l.self ∧ (l.releaseHoldsLocked hs).buckets = l.buckets ∧
      (l.releaseHoldsLocked hs).tickets = l.tickets ∧
      (l.releaseHoldsLocked hs).nextTicketID = l.nextTicketID := by
  induction hs generalizing l with
  | nil => exact ⟨rfl, rfl, rfl, rfl⟩
  | cons e hs ih =>
    have h := ih (l.updateBucket e.2.bucket (unreserve e.2.cost))
    simp only [updateBucket_self, updateBucket_buckets, updateBucket_tickets,
      updateBucket_nextTicketID] at h
    exact h

theorem settleHold_fields (key : QuotaBucketKey) (hold : QuotaHold) :
    (l.settleHold byKey now key hold).self = l.self ∧
      (l.settleHold byKey now key hold).tickets = l.tickets ∧
      (l.settleHold byKey now key hold).nextTicketID = l.nextTicketID := by
  unfold settleHold
  simp only
  split
  · split <;> simp
  · simp

theorem settleHolds_fields : (l.settleHolds byKey now hs).self = l.self ∧
      (l.settleHolds byKey now hs).tickets = l.tickets ∧
      (l.settleHolds byKey now hs).nextTicketID = l.nextTicketID := by
  induction hs generalizing l with
  | nil => exact ⟨rfl, rfl, rfl⟩
  | cons e hs ih =>
    have h := ih (l.settleHold byKey now e.1 e.2)
    have hone := settleHold_fields l byKey now e.1 e.2
    rw [hone.1, hone.2.1, hone.2.2] at h
    exact h

end Fields

/-- What a granted reservation did: `amounts` by key, the ledger `mid` with the holds in their
buckets, the `holds` of the ticket. -/
theorem reserveAll_cases (h : l.reserveAll rs now order = some (l', out)) :
    (out = none ∧ (l' = l ∨ l' = l.purgeExpiredLocked now)) ∨
    ∃ amounts id, aggregateReservations rs = some amounts ∧
      (∀ e ∈ amounts.range order, (l.purgeExpiredLocked now).admits e.1 e.2 = true) ∧
      ((l.purgeExpiredLocked now).reserveHolds ∅ (amounts.range order)).1.newTicketIDLocked =
        some id ∧
      out = some ⟨some l.self, id⟩ ∧
      l' = { ((l.purgeExpiredLocked now).reserveHolds ∅ (amounts.range order)).1 with
        nextTicketID := id
        tickets := l.tickets.insert id
          ⟨((l.purgeExpiredLocked now).reserveHolds ∅ (amounts.range order)).2⟩ } := by
  unfold reserveAll at h
  split at h
  · cases h
    exact Or.inl ⟨rfl, Or.inl rfl⟩
  next amounts hagg =>
  simp only at h
  split at h
  · next hall =>
    split at h
    · cases h
    next id hid =>
    cases h
    right
    have hfields := reserveHolds_fields (l.purgeExpiredLocked now) ∅ (amounts.range order)
    refine ⟨amounts, id, hagg, all_eq_true.mp hall, hid, rfl, ?_⟩
    rw [hfields.2.2.1]
    rfl
  · cases h
    exact Or.inl ⟨rfl, Or.inr rfl⟩

theorem release_cases (h : l.release t now order = (l', ok)) :
    (ok = false ∧ (l.owns t = true → l.tickets.lookup t.id = none) ∧
      (l' = l ∨ l' = l.purgeExpiredLocked now)) ∨
    (ok = true ∧ l.owns t = true ∧ ∃ state, l.tickets.lookup t.id = some state ∧
      l' = { l.purgeExpiredLocked now with tickets := l.tickets.erase t.id }.releaseHoldsLocked
        (state.holds.range order)) := by
  unfold release at h
  split at h
  · next hown =>
    cases h
    refine Or.inl ⟨rfl, fun howns => ?_, Or.inl rfl⟩
    rw [howns] at hown
    cases hown
  next hown =>
  simp only at h
  split at h
  · next hnone =>
    cases h
    exact Or.inl ⟨rfl, fun _ => hnone, Or.inr rfl⟩
  · next state hstate =>
    cases h
    exact Or.inr ⟨rfl, by simpa using hown, state, hstate, rfl⟩

theorem reconcile_cases (h : l.reconcile t ss now order = (l', ok)) :
    (ok = false ∧ (l' = l ∨ l' = l.purgeExpiredLocked now)) ∨
    (ok = true ∧ l.owns t = true ∧ ∃ byKey state, settlementsByKey ∅ ss = some byKey ∧
      l.tickets.lookup t.id = some state ∧
      (∀ k ∈ byKey.keys, (state.holds.lookup k).isSome = true) ∧
      l' = { l.purgeExpiredLocked now with tickets := l.tickets.erase t.id }.settleHolds byKey now
        (state.holds.range order)) := by
  unfold reconcile at h
  split at h
  · cases h
    exact Or.inl ⟨rfl, Or.inl rfl⟩
  next hown =>
  split at h
  · cases h
    exact Or.inl ⟨rfl, Or.inl rfl⟩
  next byKey hby =>
  simp only at h
  split at h
  · cases h
    exact Or.inl ⟨rfl, Or.inr rfl⟩
  next state hstate =>
  split at h
  · next hall =>
    cases h
    exact Or.inr ⟨rfl, by simpa using hown, byKey, state, hby, hstate, all_eq_true.mp hall, rfl⟩
  · cases h
    exact Or.inl ⟨rfl, Or.inr rfl⟩

theorem observe_eq (hvalid : ¬(!validQuotaKey key || o.limit < 0 || o.remaining < 0) = true) :
    l.observe key o now =
      if expired o now then
        ({ l.purgeExpiredLocked now with
          buckets := (l.purgeExpiredLocked now).buckets.erase key }, false)
      else
        ((l.purgeExpiredLocked now).storeObservation key (normaliseQuotaObservation o now),
          true) := by
  unfold observe normaliseQuotaObservation
  rw [if_neg hvalid]
  by_cases hzero : Time.isZero o.observedAt = true
  · simp only [hzero, if_true]
    rfl
  · simp only [hzero]
    rfl

/-! ## What a call writes -/

def HasHold (l : QuotaLedger) (t : QuotaTicket) (e : HoldEntry) : Prop :=
  ∃ state, l.tickets.lookup t.id = some state ∧ e ∈ state.holds.entries

/-- The keys that the call names or its ticket has holds on. -/
def Op.Keys (l : QuotaLedger) (i : Op) (k : QuotaBucketKey) : Prop :=
  k ∈ i.names ∨ ∃ t, i.uses = some t ∧ ∃ e, l.HasHold t e ∧ e.1 = k

/-- The objects behind them. -/
def Op.Touches (l : QuotaLedger) (i : Op) (a : Addr) : Prop :=
  (∃ k ∈ i.names, l.buckets.lookup k = some a) ∨
    ∃ t, i.uses = some t ∧ ∃ e, l.HasHold t e ∧ e.2.bucket = some a

/-- The map loses what has expired or a key in `E`, or only the tickets change. -/
inductive Drops (now : Time) (E : QuotaBucketKey → Prop) : QuotaLedger → QuotaLedger → Prop
  | purge (l : QuotaLedger) : Drops now E l (l.purgeExpiredLocked now)
  | erase (l : QuotaLedger) {k : QuotaBucketKey} (hk : E k) :
      Drops now E l { l with buckets := l.buckets.erase k }
  | tickets {l l' : QuotaLedger} (hheap : l'.heap = l.heap) (hbuckets : l'.buckets = l.buckets) :
      Drops now E l l'

/-- The writes of a call: entries of the map go, the counters of objects in `T` change, with `C`
their remaining quota too, and observations in `S` are stored under keys in `E`. -/
inductive Writes (now : Time) (E : QuotaBucketKey → Prop) (T : Addr → Prop) (C : Prop)
    (S : QuotaBucketKey → QuotaObservation → Prop) : QuotaLedger → QuotaLedger → Prop
  | drop {l l' : QuotaLedger} (h : Drops now E l l') : Writes now E T C S l l'
  | count {l : QuotaLedger} {bucket : Option Addr} {f : QuotaBucket → QuotaBucket}
      (touches : ∀ a, bucket = some a → T a) (kept : ∀ b, (f b).observation = b.observation) :
      Writes now E T C S l (l.updateBucket bucket f)
  | charge {l : QuotaLedger} {bucket : Option Addr} (touches : ∀ a, bucket = some a → T a)
      (charges : C) (actual : Int64) :
      Writes now E T C S l (l.updateBucket bucket (QuotaLedger.charge actual))
  | store {l : QuotaLedger} {key : QuotaBucketKey} {o : QuotaObservation} (named : E key)
      (stores : S key o) : Writes now E T C S l (l.storeObservation key o)
  | trans {l1 l2 l3 : QuotaLedger} (h : Writes now E T C S l1 l2) (h' : Writes now E T C S l2 l3) :
      Writes now E T C S l1 l3

namespace Drops

variable {E : QuotaBucketKey → Prop}

theorem heap (h : Drops now E l l') : l'.heap = l.heap := by
  cases h with
  | purge | erase => rfl
  | tickets hheap => exact hheap

theorem sub (h : Drops now E l l') {k : QuotaBucketKey} (hk : l'.buckets.lookup k = some a) :
    l.buckets.lookup k = some a := by
  cases h with
  | purge => exact (lookup_keep.mp hk).1
  | erase =>
    rw [lookup_erase_eq] at hk
    split at hk
    · cases hk
    · exact hk
  | tickets _ hbuckets => rwa [hbuckets] at hk

theorem evolves (h : Drops now E l l') : Evolves l l' :=
  .of_sub (congrArg length h.heap) fun _ _ => h.sub

end Drops

namespace Writes

variable {E : QuotaBucketKey → Prop} {T : Addr → Prop} {C : Prop}
  {S : QuotaBucketKey → QuotaObservation → Prop}

theorem refl (l : QuotaLedger) : Writes now E T C S l l := .drop (.tickets rfl rfl)

theorem purge (l : QuotaLedger) : Writes now E T C S l (l.purgeExpiredLocked now) :=
  .drop (.purge l)

theorem observe (hE : E key)
    (hS : validQuotaKey key = true → S key (normaliseQuotaObservation o now)) :
    Writes now E T C S l (l.observe key o now).1 := by
  by_cases hvalid : (!validQuotaKey key || o.limit < 0 || o.remaining < 0) = true
  · unfold QuotaLedger.observe
    rw [if_pos hvalid]
    exact refl l
  · rw [observe_eq hvalid]
    split
    · exact (purge l).trans (.drop (.erase _ hE))
    · simp only [Bool.or_eq_true, not_or, Bool.not_eq_true', Bool.not_eq_false] at hvalid
      exact (purge l).trans (.store hE (hS hvalid.1.1))

theorem snapshot (l : QuotaLedger) (hE : E key) : Writes now E T C S l (l.snapshot key now).1 := by
  unfold QuotaLedger.snapshot
  simp only
  split
  · exact purge l
  · split
    · exact (purge l).trans (.drop (.erase _ hE))
    · exact purge l

theorem reserveHolds {holds : GoMap QuotaBucketKey QuotaHold}
    {es : List (Sigma fun _ : QuotaBucketKey => Int64)}
    (hT : ∀ e ∈ es, ∀ a, l.buckets.lookup e.1 = some a → T a) :
    Writes now E T C S l (l.reserveHolds holds es).1 := by
  induction es generalizing l holds with
  | nil => exact refl l
  | cons e es ih =>
    unfold QuotaLedger.reserveHolds
    rw [reserveOne_eq]
    refine .trans ?_ (ih fun e' he' a ha => hT e' (mem_cons_of_mem e he') a ?_)
    · exact .count (hT e mem_cons_self) fun _ => rfl
    · rwa [updateBucket_buckets] at ha

theorem reserveAll (hT : ∀ r ∈ rs, ∀ a, l.buckets.lookup r.key = some a → T a)
    (h : l.reserveAll rs now order = some (l', out)) : Writes now E T C S l l' := by
  rcases reserveAll_cases h with ⟨-, rfl | rfl⟩ | ⟨amounts, id, hagg, -, -, -, rfl⟩
  · exact refl l'
  · exact purge l
  refine (purge l).trans (.trans (reserveHolds fun e he a ha => ?_) (.drop (.tickets rfl rfl)))
  obtain ⟨-, -, r, hr, hkey⟩ := aggregateReservations_pos hagg e.1 e.2 (mem_range.mp he)
  exact hT r hr a (hkey ▸ (lookup_keep.mp ha).1)

theorem releaseHoldsLocked {es : List HoldEntry} (hT : ∀ e ∈ es, ∀ a, e.2.bucket = some a → T a) :
    Writes now E T C S l (l.releaseHoldsLocked es) := by
  induction es generalizing l with
  | nil => exact refl l
  | cons e es ih =>
    refine .trans ?_ (ih fun e' he' => hT e' (mem_cons_of_mem e he'))
    exact .count (hT e mem_cons_self) fun _ => rfl

theorem settleHolds {es : List HoldEntry} (hE : ∀ e ∈ es, E e.1)
    (hT : ∀ e ∈ es, ∀ a, e.2.bucket = some a → T a) (hC : C)
    (hS : ∀ k s o, byKey.lookup k = some s → s.observation = some o →
      S k (normaliseQuotaObservation o now)) :
    Writes now E T C S l (l.settleHolds byKey now es) := by
  induction es generalizing l with
  | nil => exact refl l
  | cons e es ih =>
    refine .trans ?_ (ih (fun e' he' => hE e' (mem_cons_of_mem e he')) fun e' he' =>
      hT e' (mem_cons_of_mem e he'))
    have hE := hE e mem_cons_self
    have hT := hT e mem_cons_self
    have hfirst : Writes now E T C S l (l.updateBucket e.2.bucket (settleBucket e.2.cost)) :=
      .count hT fun _ => rfl
    unfold settleHold
    simp only
    split
    · next o ho =>
      obtain ⟨s, hs, hso⟩ := bind_eq_some_iff.mp ho
      split
      · exact hfirst.trans (.drop (.erase _ hE))
      · exact hfirst.trans (.store hE (hS e.1 s o hs hso))
    · exact hfirst.trans (.charge hT hC _)

theorem opened (l : QuotaLedger) (t : QuotaTicket) : Writes now E T C S l
    { l.purgeExpiredLocked now with tickets := l.tickets.erase t.id } :=
  (purge l).trans (.drop (.tickets rfl rfl))

theorem release (hT : ∀ e, l.HasHold t e → ∀ a, e.2.bucket = some a → T a)
    (h : l.release t now order = (l', ok)) : Writes now E T C S l l' := by
  rcases release_cases h with ⟨-, -, rfl | rfl⟩ | ⟨-, -, state, hstate, rfl⟩
  · exact refl l'
  · exact purge l
  refine .trans (opened l t) (releaseHoldsLocked fun e he => hT e ⟨state, hstate, ?_⟩)
  exact (range_perm order _).mem_iff.mp he

theorem reconcile (hE : ∀ e, l.HasHold t e → E e.1)
    (hT : ∀ e, l.HasHold t e → ∀ a, e.2.bucket = some a → T a) (hC : C)
    (hS : ∀ s ∈ ss, ∀ o, s.observation = some o →
      validQuotaKey s.key = true → S s.key (normaliseQuotaObservation o now))
    (h : l.reconcile t ss now order = (l', ok)) : Writes now E T C S l l' := by
  rcases reconcile_cases h with ⟨-, rfl | rfl⟩ | ⟨-, -, byKey, state, hby, hstate, -, rfl⟩
  · exact refl l'
  · exact purge l
  have hholds : ∀ e ∈ state.holds.range order, l.HasHold t e := fun e he =>
    ⟨state, hstate, (range_perm order _).mem_iff.mp he⟩
  refine .trans (opened l t) (settleHolds (fun e he => hE e (hholds e he))
    (fun e he => hT e (hholds e he)) hC fun k s o hk ho => ?_)
  rcases settlementsByKey_mem hby hk with hempty | ⟨hmem, rfl, hvalid⟩
  · cases hempty
  · exact hS s hmem o ho hvalid

theorem step {i : Op} {r : Res} (hE : ∀ k, i.Keys l k → E k) (hT : ∀ a, i.Touches l a → T a)
    (hC : C) (hS : ∀ k o, validQuotaKey k = true → S k o) (h : l.step i = some (l', r)) :
    Writes i.now E T C S l l' := by
  cases i with
  | observe key o now => cases h; exact observe (hE key (.inl mem_cons_self)) (hS key _)
  | snapshot key now => cases h; exact snapshot l (hE key (.inl mem_cons_self))
  | keys now => cases h; exact purge l
  | reserveAll rs now order =>
    obtain ⟨r, hr, heq⟩ := map_eq_some_iff.mp h
    cases heq
    exact reserveAll (fun r hr a ha => hT a (.inl ⟨r.key, mem_map_of_mem hr, ha⟩)) hr
  | release t now order =>
    cases h
    exact release (fun e he a ha => hT a (.inr ⟨t, rfl, e, he, ha⟩)) rfl
  | reconcile t ss now order =>
    cases h
    exact reconcile (fun e he => hE e.1 (.inr ⟨t, rfl, e, he, rfl⟩))
      (fun e he a ha => hT a (.inr ⟨t, rfl, e, he, ha⟩)) hC (fun s _ o _ => hS s.key _) rfl

theorem evolves (h : Writes now E T C S l l') : Evolves l l' := by
  induction h with
  | drop h => exact h.evolves
  | count | charge => exact evolves_updateBucket _ _ _
  | store => exact evolves_storeObservation _ _ _
  | trans _ _ ih ih' => exact ih.trans ih'

end Writes

namespace Sound

theorem observe (h : Sound l) (key : QuotaBucketKey) (o : QuotaObservation) (now : Time) :
    Sound (l.observe key o now).1 := by
  by_cases hvalid : (!validQuotaKey key || o.limit < 0 || o.remaining < 0) = true
  · unfold QuotaLedger.observe
    rw [if_pos hvalid]
    exact h
  rw [observe_eq hvalid]
  have hpurge := h.purgeExpiredLocked now
  simp only [Bool.or_eq_true, decide_eq_true_eq, not_or, lt_def, toInt_zero', Int.not_lt] at hvalid
  split
  · exact hpurge.eraseBucket key
  · have hbounds := normaliseQuotaObservation_bounds now ⟨hvalid.1.2, hvalid.2⟩
    exact hpurge.storeObservation key hbounds.1 hbounds.2

theorem snapshot (h : Sound l) (key : QuotaBucketKey) (now : Time) :
    Sound (l.snapshot key now).1 := by
  have hpurge := h.purgeExpiredLocked now
  unfold QuotaLedger.snapshot
  simp only
  split
  · exact hpurge
  · split
    · exact hpurge.eraseBucket key
    · exact hpurge

theorem reserveAll (h : Sound l) (hr : l.reserveAll rs now order = some (l', out)) : Sound l' := by
  have hpurge := h.purgeExpiredLocked now
  rcases reserveAll_cases hr with ⟨_, rfl | rfl⟩ | ⟨amounts, id, hagg, hadm, hid, _, rfl⟩
  · exact h
  · exact hpurge
  have hval : ∀ e ∈ amounts.range order, validQuotaKey e.1 = true ∧ 0 < e.2.toInt :=
    fun e he => (aggregateReservations_pos hagg e.1 e.2 (mem_range.mp he)).imp_right And.left
  have hopen := @Balanced.reserveHolds _ _ ∅ hpurge (range_nodupKeys order amounts)
    (fun e _ => AList.lookup_empty e.1) hval
    fun e he => hpurge.room_of_admits (hval e he).2 (hadm e he)
  have hfields := reserveHolds_fields (l.purgeExpiredLocked now) ∅ (amounts.range order)
  have hfree := (drawTicketID_spec hid).2
  have hclose := @Balanced.insertTicket _ id ⟨_⟩ hopen hfree
  rw [hfields.2.2.1] at hclose
  exact hclose

theorem release (h : Sound l) (hr : l.release t now order = (l', ok)) : Sound l' := by
  have hpurge := h.purgeExpiredLocked now
  rcases release_cases hr with ⟨_, _, rfl | rfl⟩ | ⟨_, _, state, hstate, rfl⟩
  · exact h
  · exact hpurge
  · have hopen := hpurge.eraseTicket hstate order
    rw [← append_nil (state.holds.range order)] at hopen
    exact hopen.releaseHoldsLocked

theorem reconcile (h : Sound l) (hr : l.reconcile t ss now order = (l', ok)) : Sound l' := by
  have hpurge := h.purgeExpiredLocked now
  rcases reconcile_cases hr with ⟨_, rfl | rfl⟩ | ⟨_, _, byKey, state, hby, hstate, _, rfl⟩
  · exact h
  · exact hpurge
  · have hopen := hpurge.eraseTicket hstate order
    rw [← append_nil (state.holds.range order)] at hopen
    exact hopen.settleHolds now (settlementsByKey_empty_ok hby)

theorem step {i : Op} {o : Res} (h : Sound l) (hs : l.step i = some (l', o)) : Sound l' := by
  cases i with
  | observe key ob now => cases hs; exact h.observe key ob now
  | snapshot key now => cases hs; exact h.snapshot key now
  | keys now => cases hs; exact h.purgeExpiredLocked now
  | reserveAll rs now order =>
    obtain ⟨r, hr, heq⟩ := map_eq_some_iff.mp hs
    cases heq
    exact h.reserveAll hr
  | release t now order => cases hs; exact h.release rfl
  | reconcile t ss now order => cases hs; exact h.reconcile rfl

end Sound

theorem reachable_sound {self : LedgerId} (h : Machine.Reachable step (new self) l) : Sound l :=
  h.invariant (fun _ _ _ _ hp hs => Sound.step hp hs) (sound_new self)

end QuotaLedger

end CalvoProxy
