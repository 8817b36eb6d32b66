import CalvoProxy.Quota.Tickets

/-!
# One bucket object through a call

Which calls leave the observation of an object alone, how much a settlement takes, and what
`ReserveAll` must have found to let a ticket in (`step_object`).
-/

namespace CalvoProxy

open List GoMap

variable {byKey : GoMap QuotaBucketKey QuotaSettlement} {key : QuotaBucketKey} {o : Res}
  {order : List QuotaBucketKey} {t : QuotaTicket} {ok : Bool} {i : Op} {l' l : QuotaLedger}
  {a : Addr} {es : List HoldEntry} {now : Time}

namespace QuotaLedger

/-! ## What a call charges to an object -/

def chargeOn (byKey : GoMap QuotaBucketKey QuotaSettlement) (a : Addr) (es : List HoldEntry) :
    Int :=
  (es.map fun e => if e.2.bucket = some a then (actualOf byKey e.1 e.2).toInt else 0).sum

/-- The actual use that a successful `Reconcile` settles for the holds on `a`. -/
def charged (a : Addr) (e : LedgerEvent) : Int :=
  match e.input, e.output with
  | .reconcile t ss _ _, .done true =>
    match settlementsByKey ∅ ss, e.before.tickets.lookup t.id with
    | some byKey, some state => chargeOn byKey a state.holds.entries
    | _, _ => 0
  | _, _ => 0

def HoldsOn (state : QuotaTicketState) (a : Addr) : Prop :=
  ∃ e ∈ state.holds.entries, e.2.bucket = some a

instance (state : QuotaTicketState) (a : Addr) : Decidable (HoldsOn state a) :=
  inferInstanceAs (Decidable (∃ e ∈ state.holds.entries, e.2.bucket = some a))

/-- The call reconciled a ticket that held the object `a`. -/
def SettlesOn (a : Addr) (e : LedgerEvent) : Prop :=
  ∃ t ss now order state, e.input = .reconcile t ss now order ∧ e.output = .done true ∧
    e.before.tickets.lookup t.id = some state ∧ HoldsOn state a

/-- The call does not observe `a` anew, and settles a hold on it with at most what it reserved. -/
def Keeps (a : Addr) (e : LedgerEvent) : Prop :=
  match e.input with
  | .observe key _ _ => e.before.buckets.lookup key ≠ some a
  | .reconcile t ss _ _ => ∀ s ∈ ss,
      (e.before.buckets.lookup s.key = some a → s.observation = none) ∧
      ∀ state hold, e.before.tickets.lookup t.id = some state →
        state.holds.lookup s.key = some hold → hold.bucket = some a →
        s.observation = none ∧ s.actual.toInt ≤ hold.cost.toInt
  | _ => True

theorem chargeOn_cons (byKey : GoMap QuotaBucketKey QuotaSettlement) (a : Addr) (e : HoldEntry)
    (es : List HoldEntry) : chargeOn byKey a (e :: es) =
      (if e.2.bucket = some a then (actualOf byKey e.1 e.2).toInt else 0) + chargeOn byKey a es := by
  simp [chargeOn]

theorem chargeOn_perm {es' : List HoldEntry}
    (h : es.Perm es') : chargeOn byKey a es = chargeOn byKey a es' :=
  (h.map _).sum_eq

theorem chargeOn_bounds (h : ∀ e ∈ es, e.2.bucket = some a →
      0 ≤ (actualOf byKey e.1 e.2).toInt ∧ (actualOf byKey e.1 e.2).toInt ≤ e.2.cost.toInt) :
    0 ≤ chargeOn byKey a es ∧ chargeOn byKey a es ≤ pendingOn a es := by
  induction es with
  | nil => exact ⟨Int.le_refl 0, Int.le_refl 0⟩
  | cons e es ih =>
    obtain ⟨hlow, hhigh⟩ := ih fun x hx => h x (mem_cons_of_mem e hx)
    rw [chargeOn_cons, pendingOn_cons]
    by_cases ha : e.2.bucket = some a
    · obtain ⟨hl, hh⟩ := h e mem_cons_self ha
      rw [if_pos ha, heldBy_some ha]
      exact ⟨Int.add_nonneg hl hlow, Int.add_le_add hh hhigh⟩
    · rw [if_neg ha, heldBy_ne ha, Int.zero_add, Int.zero_add]
      exact ⟨hlow, hhigh⟩

theorem pendingOn_eq_zero (h : ∀ e ∈ es, e.2.bucket ≠ some a) : pendingOn a es = 0 := by
  unfold pendingOn
  rw [map_congr_left fun e he => heldBy_ne (h e he)]
  simp

theorem pendingOn_pos {a : Addr} {state : QuotaTicketState}
    (hcost : ∀ e ∈ state.holds.entries, 0 < e.2.cost.toInt) :
    0 < pendingOn a state.holds.entries ↔ HoldsOn state a := by
  constructor
  · intro hpos
    by_contra hnone
    have hzero : pendingOn a state.holds.entries = 0 :=
      pendingOn_eq_zero fun e he ha => hnone ⟨e, he, ha⟩
    rw [hzero] at hpos
    exact Int.lt_irrefl 0 hpos
  · rintro ⟨e, he, ha⟩
    rw [pendingOn_perm (perm_cons_erase he), pendingOn_cons, heldBy_some ha]
    have hrest : 0 ≤ pendingOn a (state.holds.entries.erase e) :=
      pendingOn_nonneg fun x hx => hcost x (mem_of_mem_erase hx)
    have hhead := hcost e he
    omega

/-! ## The loops, seen from one object -/

section Loops

variable {b : QuotaBucket}

theorem updateBucket_object {bucket : Option Addr} {f : QuotaBucket → QuotaBucket}
    (hb : l.heap[a]? = some b) :
    (l.updateBucket bucket f).heap[a]? = some (if bucket = some a then f b else b) := by
  rw [getElem?_updateBucket, hb]
  split <;> rfl

theorem storeObservation_object {key : QuotaBucketKey} {o : QuotaObservation}
    (hb : l.heap[a]? = some b) (hkey : l.buckets.lookup key ≠ some a) :
    (l.storeObservation key o).heap[a]? = some b := by
  unfold storeObservation
  split
  · next c hc =>
    rw [hc] at hkey
    show (l.updateBucket (some c) fun b => { b with observation := o }).heap[a]? = some b
    rw [updateBucket_object hb, if_neg hkey]
  · obtain ⟨hlt, _⟩ := List.getElem?_eq_some_iff.mp hb
    show (l.heap ++ [_])[a]? = some b
    rw [List.getElem?_append_left hlt]
    exact hb

theorem reserveHolds_object {es : List (Sigma fun _ : QuotaBucketKey => Int64)}
    {holds : GoMap QuotaBucketKey QuotaHold} (hb : l.heap[a]? = some b) :
    ∃ b', (l.reserveHolds holds es).1.heap[a]? = some b' ∧ b'.observation = b.observation ∧
      b'.probeSettled = b.probeSettled := by
  induction es generalizing l holds b with
  | nil => exact ⟨b, hb, rfl, rfl⟩
  | cons e es ih =>
    have hone : (l.reserveOne e.1 e.2).heap[a]? = some (if l.buckets.lookup e.1 = some a
        then { b with reserved := b.reserved + e.2 } else b) := by
      rw [reserveOne_eq]
      exact updateBucket_object hb
    obtain ⟨b', hb', hobs, hprobe⟩ :=
      @ih _ _ (holds.insert e.1 ⟨e.1, e.2, l.buckets.lookup e.1⟩) hone
    refine ⟨b', hb', hobs.trans ?_, hprobe.trans ?_⟩
    · split <;> rfl
    · split <;> rfl

theorem reserveHolds_on {es : List (Sigma fun _ : QuotaBucketKey => Int64)}
    {holds : GoMap QuotaBucketKey QuotaHold} (hp : l.Pointed) (hnodup : es.NodupKeys)
    (hnew : ∀ e ∈ es, holds.lookup e.1 = none) :
    pendingOn a (l.reserveHolds holds es).2.entries = pendingOn a holds.entries ∨
    ∃ e ∈ es, l.buckets.lookup e.1 = some a ∧ pendingOn a (l.reserveHolds holds es).2.entries =
        pendingOn a holds.entries + e.2.toInt := by
  induction es generalizing l holds with
  | nil => exact Or.inl rfl
  | cons e es ih =>
    have hdistinct : ∀ x ∈ es, x.1 ≠ e.1 := fun x hx heq =>
      (nodupKeys_cons.mp hnodup).1 (heq ▸ mem_keys_of_mem hx)
    have hbuckets : (l.reserveOne e.1 e.2).buckets = l.buckets := by
      rw [reserveOne_eq, updateBucket_buckets]
    have hpointed : (l.reserveOne e.1 e.2).Pointed := by
      rw [reserveOne_eq]
      exact (evolves_updateBucket _ _ _).pointed hp
    have hrest := @ih _ (holds.insert e.1 ⟨e.1, e.2, l.buckets.lookup e.1⟩) hpointed
      (nodupKeys_cons.mp hnodup).2 fun x hx => by
        rw [lookup_insert_eq, if_neg (hdistinct x hx)]
        exact hnew x (mem_cons_of_mem e hx)
    rw [entries_insert_of_lookup (hnew e mem_cons_self), pendingOn_cons, hbuckets] at hrest
    by_cases ha : l.buckets.lookup e.1 = some a
    · have hheld : heldBy a ⟨e.1, e.2, l.buckets.lookup e.1⟩ = e.2.toInt := heldBy_some ha
      rw [hheld] at hrest
      rcases hrest with hrest | ⟨x, hx, hxa, _⟩
      · exact Or.inr ⟨e, mem_cons_self, ha, hrest.trans (Int.add_comm _ _)⟩
      · exact absurd (hp.inj x.1 e.1 a hxa ha) (hdistinct x hx)
    · have hheld : heldBy a ⟨e.1, e.2, l.buckets.lookup e.1⟩ = 0 := heldBy_ne ha
      rw [hheld, Int.zero_add] at hrest
      rcases hrest with hrest | ⟨x, hx, hxa, hsum⟩
      · exact Or.inl hrest
      · exact Or.inr ⟨x, mem_cons_of_mem e hx, hxa, hsum⟩

theorem releaseHoldsLocked_object {es : List HoldEntry} (hb : l.heap[a]? = some b) :
    ∃ b', (l.releaseHoldsLocked es).heap[a]? = some b' ∧ b'.observation = b.observation ∧
      b'.probeSettled = b.probeSettled := by
  induction es generalizing l b with
  | nil => exact ⟨b, hb, rfl, rfl⟩
  | cons e es ih =>
    obtain ⟨b', hb', hobs, hprobe⟩ := ih (@updateBucket_object _ _ _ e.2.bucket
      (unreserve e.2.cost) hb)
    refine ⟨b', hb', hobs.trans ?_, hprobe.trans ?_⟩
    · split <;> rfl
    · split <;> rfl

theorem evolves_settleHold (l : QuotaLedger) (byKey : GoMap QuotaBucketKey QuotaSettlement)
    (now : Time) (key : QuotaBucketKey) (hold : QuotaHold) :
    Evolves l (l.settleHold byKey now key hold) :=
  have hwrites : Writes now (fun _ => True) (fun _ => True) True (fun _ _ => True) l
      (l.settleHolds byKey now [⟨key, hold⟩]) :=
    .settleHolds (fun _ _ => trivial) (fun _ _ _ _ => trivial) trivial fun _ _ _ _ _ => trivial
  hwrites.evolves

theorem settleHold_object {byKey : GoMap QuotaBucketKey QuotaSettlement} {now : Time}
    {e : HoldEntry} (hb : l.heap[a]? = some b)
    (hno : l.buckets.lookup e.1 = some a ∨ e.2.bucket = some a →
      (byKey.lookup e.1).bind (·.observation) = none) :
    (l.settleHold byKey now e.1 e.2).heap[a]? = some (if e.2.bucket = some a
      then charge (actualOf byKey e.1 e.2) (settleBucket e.2.cost b) else b) := by
  have hfirst := @updateBucket_object _ _ _ e.2.bucket (settleBucket e.2.cost) hb
  unfold settleHold
  simp only
  by_cases ha : e.2.bucket = some a
  · rw [hno (Or.inr ha), if_pos ha]
    rw [if_pos ha] at hfirst
    simp only
    rw [updateBucket_object hfirst, if_pos ha]
  · rw [if_neg ha] at hfirst ⊢
    split
    · next o ho =>
      split
      · exact hfirst
      apply storeObservation_object hfirst
      rw [updateBucket_buckets]
      intro hkey
      rw [hno (Or.inl hkey)] at ho
      cases ho
    · rw [updateBucket_object hfirst, if_neg ha]

/-- The loop of `Reconcile` that does not observe `a` anew: the charges go out of the remaining
quota, down to nothing at most, and the probe is spent. -/
theorem settleHolds_object {byKey : GoMap QuotaBucketKey QuotaSettlement} {now : Time}
    {es : List HoldEntry} (hb : l.heap[a]? = some b) (hrem : 0 ≤ b.observation.remaining.toInt)
    (hno : ∀ e ∈ es, l.buckets.lookup e.1 = some a ∨ e.2.bucket = some a →
      (byKey.lookup e.1).bind (·.observation) = none)
    (hact : ∀ e ∈ es, e.2.bucket = some a → 0 ≤ (actualOf byKey e.1 e.2).toInt) :
    ∃ b', (l.settleHolds byKey now es).heap[a]? = some b' ∧
      b'.observation = { b.observation with remaining := b'.observation.remaining } ∧
      b'.observation.remaining.toInt = max 0 (b.observation.remaining.toInt - chargeOn byKey a es) ∧
      (b'.probeSettled = true ↔ b.probeSettled = true ∨ ∃ e ∈ es, e.2.bucket = some a) := by
  induction es generalizing l b with
  | nil =>
    refine ⟨b, hb, rfl, ?_, ?_⟩
    · show _ = max 0 (_ - 0)
      rw [Int.sub_zero, Int.max_eq_right hrem]
    · simp
  | cons e es ih =>
    have hone := @settleHold_object _ _ _ _ now _ hb (hno e mem_cons_self)
    have hlen := (List.getElem?_eq_some_iff.mp hb).1
    have ev := evolves_settleHold l byKey now e.1 e.2
    -- a pointer to `a` during the loop was there before it: `a` is not a new object
    have hrest : ∀ x ∈ es, (l.settleHold byKey now e.1 e.2).buckets.lookup x.1 = some a ∨
        x.2.bucket = some a → (byKey.lookup x.1).bind (·.observation) = none := by
      intro x hx hxa
      apply hno x (mem_cons_of_mem e hx)
      rcases hxa with hptr | hheld
      · rcases ev.pointer x.1 a hptr with hold | hfresh
        · exact Or.inl hold
        · exact absurd hlen (Nat.not_lt.mpr hfresh)
      · exact Or.inr hheld
    have hact' : ∀ x ∈ es, x.2.bucket = some a → 0 ≤ (actualOf byKey x.1 x.2).toInt :=
      fun x hx => hact x (mem_cons_of_mem e hx)
    by_cases ha : e.2.bucket = some a
    · rw [if_pos ha] at hone
      have hactual := hact e mem_cons_self ha
      have hsettle : 0 ≤ (settleBucket e.2.cost b).observation.remaining.toInt := hrem
      have hcharge := charge_remaining hactual hsettle
      have hpos : 0 ≤ (charge (actualOf byKey e.1 e.2)
          (settleBucket e.2.cost b)).observation.remaining.toInt := by
        rw [hcharge]
        exact Int.le_max_left _ _
      obtain ⟨b', hb', hconf, hrem', hprobe⟩ := ih hone hpos hrest hact'
      refine ⟨b', hb', hconf, ?_, ?_⟩
      · rw [hrem', hcharge, chargeOn_cons, if_pos ha]
        show max 0 (max 0 (b.observation.remaining.toInt - _) - _) = _
        have hnonneg : 0 ≤ chargeOn byKey a es := by
          unfold chargeOn
          apply sum_nonneg
          intro v hv
          obtain ⟨x, hx, rfl⟩ := mem_map.mp hv
          split
          · next hxa => exact hact' x hx hxa
          · exact Int.le_refl 0
        omega
      · rw [hprobe]
        exact ⟨fun _ => Or.inr ⟨e, mem_cons_self, ha⟩, fun _ => Or.inl rfl⟩
    · rw [if_neg ha] at hone
      obtain ⟨b', hb', hconf, hrem', hprobe⟩ := ih hone hrem hrest hact'
      refine ⟨b', hb', hconf, ?_, ?_⟩
      · rw [hrem', chargeOn_cons, if_neg ha, Int.zero_add]
      · rw [hprobe]
        simp [ha]

end Loops

/-! ## One call, seen from one object -/

def Fits (b : QuotaBucket) (cost : Int) : Prop :=
  cost ≤ b.observation.remaining.toInt - b.reserved.toInt

/-- An estimate with nothing reserved and nothing settled. -/
def Probes (b : QuotaBucket) : Prop :=
  b.observation.confidence = .estimated ∧ b.reserved.toInt = 0 ∧ b.probeSettled = false

structure ObjectStep (a : Addr) (l l' : QuotaLedger) (i : Op) (o : Res) (b b' : QuotaBucket) :
    Prop where
  observation : b'.observation = { b.observation with remaining := b'.observation.remaining }
  remaining : b'.observation.remaining.toInt =
    max 0 (b.observation.remaining.toInt - charged a ⟨l, i, o⟩)
  probe : b'.probeSettled = true ↔ b.probeSettled = true ∨ SettlesOn a ⟨l, i, o⟩
  nonneg : 0 ≤ charged a ⟨l, i, o⟩
  covered : ∀ t state, i.uses = some t → l.tickets.lookup t.id = some state →
    charged a ⟨l, i, o⟩ ≤ pendingOn a state.holds.entries
  admitted : ∀ t state, o.issued = some t → l'.tickets.lookup t.id = some state →
    pendingOn a state.holds.entries = 0 ∨ Fits b (pendingOn a state.holds.entries) ∨ Probes b

theorem admits_object (h : Sound l) {b : QuotaBucket} {cost : Int64} (hb : l.heap[a]? = some b)
    (hkey : l.buckets.lookup key = some a) (hadm : l.admits key cost = true) :
    Fits b cost.toInt ∨ Probes b := by
  have hof : l.bucketOf key = some b := bucketOf_eq_some.mpr ⟨a, hkey, hb⟩
  unfold admits at hadm
  rw [hof] at hadm
  simp only [Bool.or_eq_true, Bool.and_eq_true, decide_eq_true_eq, beq_iff_eq,
    Bool.not_eq_true', Int64.le_def] at hadm
  rcases hadm with hfit | ⟨⟨hconf, hzero⟩, hprobe⟩
  · left
    rw [Int64.toInt_sub_of_nonneg (h.object a b hb).remaining_nonneg (h.reserved_nonneg hb)] at hfit
    exact hfit
  · right
    exact ⟨hconf, by rw [hzero]; rfl, hprobe⟩

section Step

variable {b : QuotaBucket}

theorem Sound.pending_nonneg_of_ticket {id : UInt64} {state : QuotaTicketState} (h : Sound l)
    (hstate : l.tickets.lookup id = some state) (a : Addr) :
    0 ≤ pendingOn a state.holds.entries :=
  pendingOn_nonneg fun e he => (h.holds _ _ hstate e he).cost_pos

theorem charged_eq_zero (h : ¬SettlesOn a ⟨l, i, o⟩) : charged a ⟨l, i, o⟩ = 0 := by
  unfold charged
  split
  · next t ss now order hinput houtput =>
    split
    · next state _ hstate =>
      refine sum_eq_zero fun v hv => ?_
      obtain ⟨e, he, rfl⟩ := mem_map.mp hv
      refine if_neg fun hbucket => h ?_
      exact ⟨t, ss, now, order, state, hinput, houtput, hstate, e, he, hbucket⟩
    · rfl
  · rfl

/-- A call that settles nothing. -/
theorem ObjectStep.of_unsettled {b' : QuotaBucket} (h : Sound l) (hb : l.heap[a]? = some b)
    (hobs : b'.observation = b.observation) (hprobe : b'.probeSettled = b.probeSettled)
    (hnot : ∀ t ss now order, i = .reconcile t ss now order → o = .done false)
    (hadmitted : ∀ t state, o.issued = some t → l'.tickets.lookup t.id = some state →
      pendingOn a state.holds.entries = 0 ∨ Fits b (pendingOn a state.holds.entries) ∨ Probes b) :
    ObjectStep a l l' i o b b' := by
  have hsettles : ¬SettlesOn a ⟨l, i, o⟩ := by
    rintro ⟨t, ss, now, order, state, hinput, houtput, -⟩
    cases houtput.symm.trans (hnot t ss now order hinput)
  have hzero := charged_eq_zero hsettles
  refine ⟨by rw [hobs], ?_, ?_, Int.le_of_eq hzero.symm, fun t state _ hstate => ?_, hadmitted⟩
  · rw [hzero, hobs, Int.sub_zero, Int.max_eq_right (h.object a b hb).remaining_nonneg]
  · rw [hprobe, or_iff_left hsettles]
  · rw [hzero]
    exact h.pending_nonneg_of_ticket hstate a

theorem observe_object {o : QuotaObservation} (hb : l.heap[a]? = some b)
    (hkey : l.buckets.lookup key ≠ some a) :
    (l.observe key o now).1.heap[a]? = some b := by
  by_cases hvalid : (!validQuotaKey key || o.limit < 0 || o.remaining < 0) = true
  · unfold observe
    rw [if_pos hvalid]
    exact hb
  · rw [observe_eq hvalid]
    split
    · exact hb
    · apply @storeObservation_object (l.purgeExpiredLocked now) a b _ _ hb
      intro hpurged
      exact hkey (lookup_keep.mp hpurged).1

variable (h : Sound l)
include h

theorem reserveAll_object {rs : List QuotaReservation} {out : Option QuotaTicket}
    (hb : l.heap[a]? = some b)
    (hr : l.reserveAll rs now order = some (l', out)) :
    ∃ b', l'.heap[a]? = some b' ∧
      ObjectStep a l l' (.reserveAll rs now order) (.ticket out) b b' := by
  have hpurge := h.purgeExpiredLocked now
  rcases reserveAll_cases hr with ⟨rfl, rfl | rfl⟩ | ⟨amounts, id, hagg, hadm, hid, rfl, rfl⟩
  · exact ⟨b, hb, .of_unsettled h hb rfl rfl nofun nofun⟩
  · exact ⟨b, hb, .of_unsettled h hb rfl rfl nofun nofun⟩
  obtain ⟨b', hb', hobs, hprobe⟩ := @reserveHolds_object (l.purgeExpiredLocked now) a b
    (amounts.range order) ∅ hb
  refine ⟨b', hb', .of_unsettled h hb hobs hprobe nofun fun t state ht hstate => ?_⟩
  cases ht
  cases (AList.lookup_insert _).symm.trans hstate
  rcases @reserveHolds_on (l.purgeExpiredLocked now) a (amounts.range order) ∅ hpurge.pointed
      (range_nodupKeys order amounts) (fun e _ => AList.lookup_empty e.1) with
    hzero | ⟨e, he, hkey, hsum⟩
  · exact Or.inl hzero
  right
  have hcost : pendingOn a ((l.purgeExpiredLocked now).reserveHolds ∅
      (amounts.range order)).2.entries = e.2.toInt := hsum.trans (Int.zero_add _)
  show Fits b (pendingOn a ((l.purgeExpiredLocked now).reserveHolds ∅
    (amounts.range order)).2.entries) ∨ _
  rw [hcost]
  exact admits_object hpurge hb hkey (hadm e he)

theorem release_object (hb : l.heap[a]? = some b) (hr : l.release t now order = (l', ok)) :
    ∃ b', l'.heap[a]? = some b' ∧ ObjectStep a l l' (.release t now order) (.done ok) b b' := by
  rcases release_cases hr with ⟨rfl, _, rfl | rfl⟩ | ⟨rfl, hown, state, hstate, rfl⟩
  · exact ⟨b, hb, .of_unsettled h hb rfl rfl nofun nofun⟩
  · exact ⟨b, hb, .of_unsettled h hb rfl rfl nofun nofun⟩
  obtain ⟨b', hb', hobs, hprobe⟩ := @releaseHoldsLocked_object
    { l.purgeExpiredLocked now with tickets := l.tickets.erase t.id } a b
    (state.holds.range order) hb
  exact ⟨b', hb', .of_unsettled h hb hobs hprobe nofun nofun⟩

theorem reconcile_object {ss : List QuotaSettlement} (hb : l.heap[a]? = some b)
    (hkeeps : Keeps a ⟨l, .reconcile t ss now order, .done ok⟩)
    (hr : l.reconcile t ss now order = (l', ok)) :
    ∃ b', l'.heap[a]? = some b' ∧
      ObjectStep a l l' (.reconcile t ss now order) (.done ok) b b' := by
  rcases reconcile_cases hr with ⟨rfl, rfl | rfl⟩ | ⟨rfl, hown, byKey, state, hby, hstate, _, rfl⟩
  · exact ⟨b, hb, .of_unsettled h hb rfl rfl (fun _ _ _ _ _ => rfl) nofun⟩
  · exact ⟨b, hb, .of_unsettled h hb rfl rfl (fun _ _ _ _ _ => rfl) nofun⟩
  have hperm := range_perm order state.holds
  have hmem : ∀ k s, byKey.lookup k = some s → s ∈ ss ∧ s.key = k := by
    intro k s hk
    rcases settlementsByKey_mem hby hk with hempty | hin
    · rw [AList.lookup_empty] at hempty
      cases hempty
    · exact ⟨hin.1, hin.2.1⟩
  have hlook : ∀ e ∈ state.holds.range order, state.holds.lookup e.1 = some e.2 :=
    fun e he => mem_range.mp he
  -- no round of the loop stores an observation in `a`
  have hno : ∀ e ∈ state.holds.range order,
      (l.purgeExpiredLocked now).buckets.lookup e.1 = some a ∨ e.2.bucket = some a →
      (byKey.lookup e.1).bind (·.observation) = none := by
    intro e he hea
    cases hs : byKey.lookup e.1 with
    | none => rfl
    | some s =>
      obtain ⟨hin, hkey⟩ := hmem e.1 s hs
      obtain ⟨hlive, hheld⟩ := hkeeps s hin
      rw [hkey] at hlive hheld
      rcases hea with hptr | hbucket
      · exact hlive (lookup_keep.mp hptr).1
      · exact (hheld state e.2 hstate (hlook e he) hbucket).1
  have hbounds : ∀ e ∈ state.holds.range order, e.2.bucket = some a →
      0 ≤ (actualOf byKey e.1 e.2).toInt ∧ (actualOf byKey e.1 e.2).toInt ≤ e.2.cost.toInt := by
    intro e he hbucket
    unfold actualOf
    split
    · next s hs =>
      obtain ⟨hin, hkey⟩ := hmem e.1 s hs
      have hheld := (hkeeps s hin).2
      rw [hkey] at hheld
      exact ⟨(settlementsByKey_empty_ok hby e.1 s hs).actual_nonneg,
        (hheld state e.2 hstate (hlook e he) hbucket).2⟩
    · have hpos := (h.holds _ _ hstate e (hperm.mem_iff.mp he)).cost_pos
      exact ⟨Int.le_of_lt hpos, Int.le_refl _⟩
  obtain ⟨b', hb', hobs, hrem, hprobe⟩ := @settleHolds_object
    { l.purgeExpiredLocked now with tickets := l.tickets.erase t.id } a b byKey now
    (state.holds.range order) hb (h.object a b hb).remaining_nonneg hno
    fun e he hbucket => (hbounds e he hbucket).1
  have hcharged : charged a ⟨l, .reconcile t ss now order, .done true⟩ =
      chargeOn byKey a (state.holds.range order) := by
    rw [chargeOn_perm hperm]
    show (match settlementsByKey ∅ ss, l.tickets.lookup t.id with
      | some byKey, some state => chargeOn byKey a state.holds.entries
      | _, _ => 0) = _
    rw [hby, hstate]
  obtain ⟨hlow, hhigh⟩ := chargeOn_bounds hbounds
  rw [pendingOn_perm hperm] at hhigh
  have hsettles : SettlesOn a ⟨l, .reconcile t ss now order, .done true⟩ ↔ HoldsOn state a := by
    constructor
    · rintro ⟨t', ss', now', order', state', hinput, _, hstate', hholds⟩
      cases hinput
      cases hstate.symm.trans hstate'
      exact hholds
    · exact fun hholds => ⟨t, ss, now, order, state, rfl, rfl, hstate, hholds⟩
  refine ⟨b', hb', hobs, ?_, ?_, ?_, fun t' state' hu hstate' => ?_, nofun⟩
  · rw [hcharged]
    exact hrem
  · rw [hprobe, hsettles]
    unfold HoldsOn
    simp only [hperm.mem_iff]
  · rw [hcharged]
    exact hlow
  · cases hu
    cases hstate.symm.trans hstate'
    rw [hcharged]
    exact hhigh

theorem step_object (hb : l.heap[a]? = some b)
    (hkeeps : Keeps a ⟨l, i, o⟩) (hs : l.step i = some (l', o)) :
    ∃ b', l'.heap[a]? = some b' ∧ ObjectStep a l l' i o b b' := by
  cases i with
  | observe key ob now =>
    cases hs
    exact ⟨b, observe_object hb hkeeps, .of_unsettled h hb rfl rfl nofun nofun⟩
  | snapshot key now =>
    cases hs
    have hheap := (snapshot_fields l key now).2.2.2
    exact ⟨b, by rw [hheap]; exact hb, .of_unsettled h hb rfl rfl nofun nofun⟩
  | keys now =>
    cases hs
    exact ⟨b, hb, .of_unsettled h hb rfl rfl nofun nofun⟩
  | reserveAll rs now order =>
    obtain ⟨⟨l1, out⟩, hr, heq⟩ := Option.map_eq_some_iff.mp hs
    cases heq
    exact reserveAll_object h hb hr
  | release t now order =>
    cases hs
    exact release_object h hb rfl
  | reconcile t ss now order =>
    cases hs
    exact reconcile_object h hb hkeeps rfl

end Step

@[simp]
theorem updateBucket_length (l : QuotaLedger) (bucket : Option Addr)
    (f : QuotaBucket → QuotaBucket) : (l.updateBucket bucket f).heap.length = l.heap.length := by
  cases bucket with
  | none => rfl
  | some c => exact length_modify f l.heap c

/-- If the object `a` exists, nothing is reserved on it and its probe is not spent. -/
def Untouched (a : Addr) (l : QuotaLedger) : Prop :=
  ∀ b, l.heap[a]? = some b → b.reserved = 0 ∧ b.probeSettled = false

theorem untouched_of_length (h : l.heap.length ≤ a) : Untouched a l := by
  intro b hb
  rw [List.getElem?_eq_none h] at hb
  cases hb

theorem Untouched.updateBucket (h : Untouched a l)
    {bucket : Option Addr} (f : QuotaBucket → QuotaBucket) (hne : bucket ≠ some a) :
    Untouched a (l.updateBucket bucket f) := by
  intro b hb
  rw [getElem?_updateBucket, if_neg hne] at hb
  exact h b hb

theorem Untouched.storeObservation (h : Untouched a l)
    (key : QuotaBucketKey) (o : QuotaObservation) : Untouched a (l.storeObservation key o) := by
  intro b' hb'
  rcases object_storeObservation hb' with ⟨b, hb, ⟨_, rfl⟩ | ⟨_, rfl⟩⟩ | ⟨_, _, rfl⟩
  · exact h b hb
  · exact h b' hb
  · exact ⟨rfl, rfl⟩

theorem Untouched.of_writes {now : Time} {E : QuotaBucketKey → Prop} {T : Addr → Prop} {C : Prop}
    {S : QuotaBucketKey → QuotaObservation → Prop} (h : Untouched a l)
    (hw : Writes now E T C S l l') (hT : ¬T a) : Untouched a l' := by
  induction hw with
  | drop hdrops => exact fun b hb => h b (hdrops.heap ▸ hb)
  | count touches | charge touches => exact h.updateBucket _ fun heq => hT (touches a heq)
  | store => exact h.storeObservation _ _
  | trans _ _ ih ih' => exact ih' (ih h)

theorem step_writes (hs : l.step i = some (l', o)) :
    Writes i.now (i.Keys l) (i.Touches l) True (fun _ _ => True) l l' :=
  .step (fun _ hk => hk) (fun _ ha => ha) trivial (fun _ _ _ => trivial) hs

theorem step_created (h : Sound l)
    (hs : l.step i = some (l', o)) (ha : l.heap.length ≤ a) : Untouched a l' := by
  refine (untouched_of_length ha).of_writes (step_writes hs) ?_
  rintro (⟨k, -, hk⟩ | ⟨t, -, e, ⟨state, hstate, he⟩, hbucket⟩)
  · exact Nat.not_lt.mpr ha (h.pointed.addr k a hk)
  · exact Nat.not_lt.mpr ha ((h.holds _ _ hstate e he).addr a hbucket)

theorem step_length (hs : l.step i = some (l', o)) : l.heap.length ≤ l'.heap.length :=
  (step_writes hs).evolves.length

end QuotaLedger

end CalvoProxy
