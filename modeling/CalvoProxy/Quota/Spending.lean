import CalvoProxy.Quota.Objects

/-!
# What can be spent on a bucket

On an authoritative bucket the settled and reserved amounts never exceed what remained at the start.
On an estimated one a single ticket may go beyond it, as a probe, while nothing is reserved or
settled. What is released comes back (`released_without_trace`).
-/

namespace CalvoProxy

open List Machine GoMap

variable {known : QuotaTicket → Bool} {i : Op} {o : Res} {id : UInt64} {state : QuotaTicketState}
  {R : Int} {l' l0 l : QuotaLedger} {b0 b : QuotaBucket} {t : QuotaTicket} {e : LedgerEvent}
  {a : Addr} {self : LedgerId} {tr : List LedgerEvent}

namespace QuotaLedger

/-! ## Spending, ticket by ticket -/

def countIssued (known : QuotaTicket → Bool) (e : LedgerEvent) : QuotaTicket → Bool :=
  fun t => known t || e.output.issued == some t

def knows (known : QuotaTicket → Bool) (tr : List LedgerEvent) : QuotaTicket → Bool :=
  tr.foldl countIssued known

/-- What the calls of a run charged to the object `a` for tickets that count. -/
def spent (a : Addr) (known : QuotaTicket → Bool) : List LedgerEvent → Int
  | [] => 0
  | e :: tr => (if e.input.uses.any known then charged a e else 0) + spent a (countIssued known e) tr

/-- What the active tickets that count reserve on the object `a`. -/
def inFlight (l : QuotaLedger) (a : Addr) (known : QuotaTicket → Bool) : Int :=
  l.tickets.total fun id state =>
    if known ⟨some l.self, id⟩ then pendingOn a state.holds.entries else 0

theorem knows_snoc (known : QuotaTicket → Bool) (tr : List LedgerEvent) (e : LedgerEvent) :
    knows known (tr ++ [e]) = countIssued (knows known tr) e := by
  simp [knows, foldl_append]

theorem spent_snoc (a : Addr) (known : QuotaTicket → Bool) (tr : List LedgerEvent)
    (e : LedgerEvent) : spent a known (tr ++ [e]) =
      spent a known tr + if e.input.uses.any (knows known tr) then charged a e else 0 := by
  induction tr generalizing known with
  | nil =>
    show _ + 0 = 0 + _
    rw [Int.add_zero, Int.zero_add]
    rfl
  | cons x tr ih =>
    show _ + spent a (countIssued known x) (tr ++ [e]) = _ + spent a (countIssued known x) tr + _
    rw [ih, Int.add_assoc]
    rfl

theorem countIssued_none (h : e.output.issued = none) : countIssued known e = known := by
  funext t
  simp [countIssued, h]

theorem countIssued_all (e : LedgerEvent) : countIssued (fun _ => true) e = fun _ => true := rfl

theorem knows_all (tr : List LedgerEvent) : knows (fun _ => true) tr = fun _ => true := by
  induction tr with
  | nil => rfl
  | cons e tr ih => exact ih

theorem SettlesOn.consumes (h : SettlesOn a e) : ∃ t, Consumes t e := by
  obtain ⟨t, ss, now, order, state, hinput, houtput, -⟩ := h
  exact ⟨t, congrArg Op.uses hinput, houtput⟩

theorem charged_of_not_consumes (h : ∀ t, ¬Consumes t ⟨l, i, o⟩) : charged a ⟨l, i, o⟩ = 0 :=
  charged_eq_zero fun hsettles => h _ hsettles.consumes.choose_spec

theorem spent_all (a : Addr) (tr : List LedgerEvent) :
    spent a (fun _ => true) tr = (tr.map (charged a)).sum := by
  induction tr with
  | nil => rfl
  | cons e tr ih =>
    have hhead : (if e.input.uses.any (fun _ => true) then charged a e else 0) = charged a e := by
      cases hu : e.input.uses with
      | none => exact (charged_of_not_consumes (not_consumes (by simp [hu]))).symm
      | some t => rfl
    unfold spent
    rw [hhead, countIssued_all, ih, map_cons, sum_cons]

theorem inFlight_all (l : QuotaLedger) (a : Addr) : l.inFlight a (fun _ => true) = l.heldOn a := rfl

theorem inFlight_issue (hself : l'.self = l.self)
    (hissued : e.output.issued = some ⟨some l.self, id⟩) (hfree : l.tickets.lookup id = none)
    (htickets : l'.tickets = l.tickets.insert id state) (known : QuotaTicket → Bool) :
    l'.inFlight a (countIssued known e) = l.inFlight a known + pendingOn a state.holds.entries := by
  have hnew : countIssued known e ⟨some l.self, id⟩ = true := by
    simp [countIssued, hissued]
  have hold : l.tickets.total (fun id state => if countIssued known e ⟨some l.self, id⟩
        then pendingOn a state.holds.entries else 0) = l.inFlight a known := by
    apply total_congr
    rintro ⟨id', st⟩ hmem
    have hne : id ≠ id' := by
      rintro rfl
      cases hfree.symm.trans (mem_entries.mp hmem)
    simp [countIssued, hissued, hne]
  unfold inFlight
  rw [hself, htickets, total_insert _ hfree, if_pos hnew, hold, Int.add_comm]
  rfl

theorem inFlight_consume (hself : l'.self = l.self) (hown : l.owns t = true)
    (hstate : l.tickets.lookup t.id = some state)
    (htickets : l'.tickets = l.tickets.erase t.id) (known : QuotaTicket → Bool) :
    l.inFlight a known =
      (if known t then pendingOn a state.holds.entries else 0) + l'.inFlight a known := by
  have ht : (⟨some l.self, t.id⟩ : QuotaTicket) = t := by
    cases t
    cases (owns_iff.mp hown).1
    rfl
  unfold inFlight
  rw [hself, htickets, total_erase _ hstate, ht]

theorem Sound.inFlight_bounds (h : Sound l) (a : Addr)
    (known : QuotaTicket → Bool) : 0 ≤ l.inFlight a known ∧ l.inFlight a known ≤ l.heldOn a := by
  constructor
  · apply total_nonneg
    rintro ⟨id, state⟩ hmem
    have hpend := h.pending_nonneg_of_ticket (mem_entries.mp hmem) a
    split
    · exact hpend
    · exact Int.le_refl 0
  · apply List.sum_le_sum
    rintro ⟨id, state⟩ hmem
    have hpend := h.pending_nonneg_of_ticket (mem_entries.mp hmem) a
    dsimp only
    split
    · exact Int.le_refl _
    · exact hpend

theorem Sound.reserved_eq_heldOn (h : Sound l) (hb : l.heap[a]? = some b) :
    b.reserved.toInt = l.heldOn a := by
  rw [(h.object a b hb).reserved_eq, pendingOn_nil, Int.add_zero]

/-! ## An authoritative bucket -/

/-- The object `a` within the budget `R`: once something that counts is in flight, all reservations
fit into the remaining quota. -/
structure Budget (a : Addr) (R : Int) (known : QuotaTicket → Bool) (tr : List LedgerEvent)
    (l : QuotaLedger) (b : QuotaBucket) : Prop where
  object : l.heap[a]? = some b
  authoritative : b.observation.confidence = .authoritative
  fits : l.inFlight a (knows known tr) = 0 ∨ b.reserved.toInt ≤ b.observation.remaining.toInt
  left : spent a known tr + b.observation.remaining.toInt ≤ R

theorem Budget.step {a : Addr} {R : Int} {known : QuotaTicket → Bool} {tr : List LedgerEvent}
    {l l' : QuotaLedger} {b : QuotaBucket} {i : Op} {o : Res} (h : Budget a R known tr l b)
    (hsound : Sound l) (hkeeps : Keeps a ⟨l, i, o⟩) (hs : l.step i = some (l', o)) :
    ∃ b', Budget a R known (tr ++ [⟨l, i, o⟩]) l' b' := by
  obtain ⟨b', hb', hobject⟩ := step_object hsound h.object hkeeps hs
  obtain ⟨hself, hstep⟩ := step_tickets hs
  have hsound' := hsound.step hs
  have hres := hsound.reserved_eq_heldOn h.object
  have hres' := hsound'.reserved_eq_heldOn hb'
  have hrem := (hsound.object a b h.object).remaining_nonneg
  obtain ⟨hlow', hhigh'⟩ := hsound'.inFlight_bounds a (knows known tr)
  have hafter := hobject.remaining
  have hcharged := hobject.nonneg
  obtain ⟨_, hauth, hfits, hleft⟩ := h
  have hauth' : b'.observation.confidence = .authoritative := by
    rw [hobject.observation]
    exact hauth
  cases hstep with
  | idle htickets _ hissued hused =>
    have hzero := @charged_of_not_consumes _ _ _ a (not_consumes (l := l) fun t h => (hused t h).1)
    have hflight : ∀ known, l'.inFlight a known = l.inFlight a known := fun known => by
      unfold inFlight
      rw [hself, htickets]
    have hheld : l'.heldOn a = l.heldOn a := hflight fun _ => true
    refine ⟨b', hb', hauth', ?_, ?_⟩
    · rw [knows_snoc, countIssued_none hissued, hflight]
      omega
    · rw [spent_snoc, hzero, ite_self]
      omega
  | issue id state hissued hdraw htickets _ hused =>
    have hnot : ∀ t, ¬Consumes t ⟨l, i, o⟩ := not_consumes (by simp [hused])
    have hzero := @charged_of_not_consumes _ _ _ a hnot
    have hflight := @inFlight_issue _ _ _ _ ⟨l, i, o⟩ a hself hissued (drawTicketID_spec hdraw).2
      htickets
    have hheld : l'.heldOn a = l.heldOn a + _ := hflight fun _ => true
    refine ⟨b', hb', hauth', ?_, ?_⟩
    · rw [knows_snoc, hflight]
      rcases hobject.admitted _ state hissued (by rw [htickets]; exact AList.lookup_insert _) with
        hnone | hfit | ⟨hest, _⟩
      · omega
      · right
        unfold Fits at hfit
        omega
      · rw [hauth] at hest
        cases hest
    · rw [spent_snoc, hzero, ite_self]
      omega
  | consume t hused hdone hactive htickets _ =>
    obtain ⟨hown, hlook⟩ := Bool.and_eq_true_iff.mp hactive
    obtain ⟨state, hstate⟩ := Option.isSome_iff_exists.mp hlook
    have hflight := @inFlight_consume _ _ _ _ a hself hown hstate htickets
    have hheld : l.heldOn a = pendingOn a state.holds.entries + l'.heldOn a :=
      hflight fun _ => true
    have hpend := hsound.pending_nonneg_of_ticket hstate a
    have hcovered := hobject.covered t state hused hstate
    replace hflight := hflight (knows known tr)
    have hissued : o.issued = none := by rw [hdone]; rfl
    refine ⟨b', hb', hauth', ?_, ?_⟩
    · rw [knows_snoc, countIssued_none hissued]
      split at hflight <;> omega
    · -- a ticket that counts is charged what its own reservation covers
      rw [spent_snoc]
      simp only [hused, Option.any_some]
      split at hflight <;> split <;> first | omega | contradiction

theorem Budget.run (h : Budget a R known [] l0 b0)
    (hreach : Reachable QuotaLedger.step (new self) l0)
    (hrun : Run QuotaLedger.step l0 tr l) (hkeeps : ∀ e ∈ tr, Keeps a e) :
    ∃ b, Budget a R known tr l b := by
  induction hrun with
  | start => exact ⟨b0, h⟩
  | @next tr s s' i o hrun hs ih =>
    obtain ⟨b, hb⟩ := ih fun e he => hkeeps e (mem_append_left _ he)
    have hlast : Keeps a ⟨s, i, o⟩ := hkeeps _ (mem_append_right _ mem_cons_self)
    exact hb.step (reachable_sound (hreach.run hrun)) hlast hs

theorem Budget.bound (h : Budget a R known tr l b) (hsound : Sound l) :
    spent a known tr + l.inFlight a (knows known tr) ≤ R := by
  obtain ⟨_, hhigh⟩ := hsound.inFlight_bounds a (knows known tr)
  have hres := hsound.reserved_eq_heldOn h.object
  have hrem := (hsound.object a b h.object).remaining_nonneg
  have hleft := h.left
  rcases h.fits with hnone | hfit <;> omega

/-- An authoritative bucket that is not observed anew is not overspent: if what was reserved at the
start fits, all that is settled and in flight stays within the remaining quota; in any case the
later tickets do. A refused `ReserveAll` moves no bucket. -/
theorem no_overspend (hreach : Reachable step (new self) l0)
    (hb : l0.heap[a]? = some b0) (hauth : b0.observation.confidence = .authoritative)
    (hrun : Run step l0 tr l) (hkeeps : ∀ e ∈ tr, Keeps a e) :
    (b0.reserved ≤ b0.observation.remaining →
      (tr.map (charged a)).sum + l.heldOn a ≤ b0.observation.remaining.toInt) ∧
    spent a (fun _ => false) tr + l.inFlight a (knows (fun _ => false) tr) ≤
      b0.observation.remaining.toInt ∧
    ∀ rs now order l', l.reserveAll rs now order = some (l', none) → l'.heap = l.heap := by
  have hsound := reachable_sound (hreach.run hrun)
  refine ⟨fun hfit => ?_, ?_, fun rs now order l' hr => ?_⟩
  · rw [Int64.le_def] at hfit
    have hstart : Budget a b0.observation.remaining.toInt (fun _ => true) [] l0 b0 :=
      ⟨hb, hauth, Or.inr hfit, Int.le_of_eq (Int.zero_add _)⟩
    obtain ⟨b, hend⟩ := hstart.run hreach hrun hkeeps
    have hbound := hend.bound hsound
    rw [knows_all, inFlight_all, spent_all] at hbound
    exact hbound
  · have hnone : l0.inFlight a (knows (fun _ => false) []) = 0 := by
      show l0.tickets.total (fun _ _ => 0) = 0
      simp [total]
    have hstart : Budget a b0.observation.remaining.toInt (fun _ => false) [] l0 b0 :=
      ⟨hb, hauth, Or.inl hnone, Int.le_of_eq (Int.zero_add _)⟩
    obtain ⟨b, hend⟩ := hstart.run hreach hrun hkeeps
    exact hend.bound hsound
  · rcases reserveAll_cases hr with ⟨_, rfl | rfl⟩ | ⟨_, _, _, _, _, hout, _⟩
    · rfl
    · rfl
    · cases hout

section Sample

def sampleKey : QuotaBucketKey := ⟨"p", "account", "m", .requests, .minute⟩

def sampleObservation (remaining : Int64) (confidence : QuotaConfidence) : QuotaObservation :=
  ⟨10, remaining, 0, .providerHeader, confidence, 1⟩

def sampleFree (b : QuotaBucket) : QuotaLedger :=
  { new 0 with heap := [b], buckets := AList.insert sampleKey 0 ∅ }

def sampleHeld (b : QuotaBucket) (cost : Int64) : QuotaLedger :=
  { sampleFree b with
    tickets := AList.insert 1 ⟨AList.insert sampleKey ⟨sampleKey, cost, some 0⟩ ∅⟩ ∅
    nextTicketID := 1 }

theorem sampleFree_reachable (confidence : QuotaConfidence) :
    Reachable step (new 0) (sampleFree ⟨sampleObservation 10 confidence, 0, false⟩) :=
  ⟨_, Run.start.next (i := .observe sampleKey (sampleObservation 10 confidence) 1) rfl⟩

theorem sampleHeld_keeps {cost actual : Int64} {ok : Bool} (h : actual.toInt ≤ cost.toInt) :
    Keeps 0 ⟨sampleHeld b cost, .reconcile ⟨some 0, 1⟩ [⟨sampleKey, actual, none⟩] 3 [],
      .done ok⟩ := by
  intro s hs
  cases mem_singleton.mp hs
  refine ⟨fun _ => rfl, fun state hold hstate hhold _ => ⟨rfl, ?_⟩⟩
  have hlook : (sampleHeld b cost).tickets.lookup 1 =
      some ⟨AList.insert sampleKey ⟨sampleKey, cost, some 0⟩ ∅⟩ := AList.lookup_insert ∅
  cases hlook.symm.trans hstate
  cases (AList.lookup_insert ∅).symm.trans hhold
  exact h

/-- One ticket of 4 on a bucket with 10 remaining, settled with 3. -/
theorem no_overspend_settled : ∃ l0 tr l b0, Reachable step (new 0) l0 ∧ l0.heap[0]? = some b0 ∧
      b0.observation.remaining = 10 ∧ Run step l0 tr l ∧
      (tr.map (charged 0)).sum = 3 ∧
      (tr.map (charged 0)).sum + l.heldOn 0 ≤ b0.observation.remaining.toInt := by
  have hreach := sampleFree_reachable .authoritative
  have hreserve : step (sampleFree ⟨sampleObservation 10 .authoritative, 0, false⟩)
      (.reserveAll [⟨sampleKey, 4⟩] 2 []) =
      some (sampleHeld ⟨sampleObservation 10 .authoritative, 4, false⟩ 4,
        .ticket (some ⟨some 0, 1⟩)) := rfl
  have hsettle : step (sampleHeld ⟨sampleObservation 10 .authoritative, 4, false⟩ 4)
      (.reconcile ⟨some 0, 1⟩ [⟨sampleKey, 3, none⟩] 3 []) =
      some ({ sampleFree ⟨sampleObservation 7 .authoritative, 0, true⟩ with nextTicketID := 1 },
        .done true) := rfl
  have hrun := (Run.start.next hreserve).next hsettle
  refine ⟨_, _, _, _, hreach, rfl, rfl, hrun, by decide, ?_⟩
  refine (no_overspend hreach rfl rfl hrun ?_).1 (by decide)
  intro e he
  rcases mem_cons.mp he with rfl | he
  · trivial
  · cases mem_singleton.mp he
    exact sampleHeld_keeps (by decide)

/-- A ticket of 10 is in flight when the provider reports 3 remaining, and is then settled with
10. -/
theorem overspend_of_earlier_ticket :
    ¬∀ (self : LedgerId) (l0 l : QuotaLedger) (a : Addr) (b0 : QuotaBucket)
      (tr : List LedgerEvent), Reachable step (new self) l0 → l0.heap[a]? = some b0 →
      b0.observation.confidence = .authoritative → Run step l0 tr l →
      (∀ e ∈ tr, Keeps a e) →
      (tr.map (charged a)).sum + l.heldOn a ≤ b0.observation.remaining.toInt := by
  intro hall
  have hreserve : step (sampleFree ⟨sampleObservation 10 .authoritative, 0, false⟩)
      (.reserveAll [⟨sampleKey, 10⟩] 2 []) =
      some (sampleHeld ⟨sampleObservation 10 .authoritative, 10, false⟩ 10,
        .ticket (some ⟨some 0, 1⟩)) := rfl
  have hobserve : step (sampleHeld ⟨sampleObservation 10 .authoritative, 10, false⟩ 10)
      (.observe sampleKey (sampleObservation 3 .authoritative) 2) =
      some (sampleHeld ⟨sampleObservation 3 .authoritative, 10, false⟩ 10, .done true) := rfl
  have hsettle : step (sampleHeld ⟨sampleObservation 3 .authoritative, 10, false⟩ 10)
      (.reconcile ⟨some 0, 1⟩ [⟨sampleKey, 10, none⟩] 3 []) =
      some ({ sampleFree ⟨sampleObservation 0 .authoritative, 0, true⟩ with nextTicketID := 1 },
        .done true) := rfl
  have hreach := (sampleFree_reachable .authoritative).run ((Run.start.next hreserve).next hobserve)
  have hbound := hall 0 _ _ 0 _ _ hreach rfl rfl (Run.start.next hsettle) fun e he => by
    cases mem_singleton.mp he
    exact sampleHeld_keeps (by decide)
  revert hbound
  decide

end Sample

/-! ## An estimated bucket -/

/-- `t` is the one active ticket that holds the object `a`. -/
structure SoleHolder (l : QuotaLedger) (a : Addr) (t : QuotaTicket) : Prop where
  owned : l.owns t = true
  holds : ∃ state, l.tickets.lookup t.id = some state ∧ HoldsOn state a
  only : ∀ id state, l.tickets.lookup id = some state → HoldsOn state a → id = t.id

/-- `t` was issued when nothing was reserved on `a` and nothing reconciled, and has not been
consumed. -/
def AdmittedAsProbe (a : Addr) (tr : List LedgerEvent) (t : QuotaTicket) : Prop :=
  ∃ pre e post, tr = pre ++ e :: post ∧ e.output.issued = some t ∧
    (∃ b, e.before.heap[a]? = some b ∧ b.reserved.toInt = 0) ∧
    (∀ e' ∈ pre, ¬SettlesOn a e') ∧ ∀ e' ∈ post, ¬Consumes t e'

/-- What a run has done to an estimated object `a` that it never observed anew. -/
structure ProbeState (a : Addr) (tr : List LedgerEvent) (l : QuotaLedger) (b : QuotaBucket) :
    Prop where
  settled : b.probeSettled = true ↔ ∃ e ∈ tr, SettlesOn a e
  bounded : b.reserved.toInt ≤ b.observation.remaining.toInt ∨
    ∃ t, SoleHolder l a t ∧ AdmittedAsProbe a tr t

theorem heldOn_eq_zero (h : ∀ id state, l.tickets.lookup id = some state → ¬HoldsOn state a) :
    l.heldOn a = 0 := by
  have hzero : l.heldOn a = l.tickets.total fun _ _ => 0 := by
    apply total_congr
    rintro ⟨id, state⟩ hmem
    exact pendingOn_eq_zero fun e he ha => h id state (mem_entries.mp hmem) ⟨e, he, ha⟩
  rw [hzero]
  simp [total]

theorem Sound.not_holdsOn (h : Sound l) (hzero : l.heldOn a = 0)
    (hstate : l.tickets.lookup id = some state) :
    ¬HoldsOn state a := by
  intro hholds
  have hpos := (pendingOn_pos fun e he => (h.holds _ _ hstate e he).cost_pos).mpr hholds
  have hsplit := total_erase (fun _ state => pendingOn a state.holds.entries) hstate
  have hrest : 0 ≤ total (fun _ state => pendingOn a state.holds.entries) (l.tickets.erase id) := by
    apply total_nonneg
    intro e he
    have hmem := (mem_entries_erase he).1
    exact h.pending_nonneg_of_ticket (mem_entries.mp hmem) a
  unfold heldOn at hzero
  omega

theorem AdmittedAsProbe.snoc (h : AdmittedAsProbe a tr t) (he : ¬Consumes t e) :
    AdmittedAsProbe a (tr ++ [e]) t := by
  obtain ⟨pre, e0, post, rfl, hissued, hzero, hpre, hpost⟩ := h
  refine ⟨pre, e0, post ++ [e], by simp, hissued, hzero, hpre, fun e' he' => ?_⟩
  rcases mem_append.mp he' with hold | hnew
  · exact hpost e' hold
  · rw [mem_singleton.mp hnew]
    exact he

theorem exists_settles_snoc :
    (∃ x ∈ tr ++ [e], SettlesOn a x) ↔ (∃ x ∈ tr, SettlesOn a x) ∨ SettlesOn a e := by
  simp only [mem_append, mem_singleton, or_and_right, exists_or, exists_eq_left]

theorem SoleHolder.of_same (h : SoleHolder l a t) (hself : l'.self = l.self)
    (hsame : ∀ id state, HoldsOn state a →
      (l'.tickets.lookup id = some state ↔ l.tickets.lookup id = some state)) :
    SoleHolder l' a t := by
  obtain ⟨hown, ⟨state, hstate, hholds⟩, honly⟩ := h
  refine ⟨?_, ⟨state, (hsame _ _ hholds).mpr hstate, hholds⟩, fun id st hst hon =>
    honly id st ((hsame _ _ hon).mp hst) hon⟩
  unfold owns
  rw [hself]
  exact hown

theorem SoleHolder.heldOn_consumed (h : SoleHolder l a t)
    (htickets : l'.tickets = l.tickets.erase t.id) : l'.heldOn a = 0 := by
  apply heldOn_eq_zero
  intro id state hstate hholds
  rw [htickets, lookup_erase_eq] at hstate
  split at hstate
  · cases hstate
  · next hne => exact hne (h.only id state hstate hholds)

theorem SoleHolder.after {t1 : QuotaTicket} {i : Op} {o : Res} (h : SoleHolder l a t)
    (hadm : AdmittedAsProbe a tr t) (hself : l'.self = l.self) (hown : l.owns t1 = true)
    (htickets : l'.tickets = l.tickets.erase t1.id) (hused : i.uses = some t1) :
    l'.heldOn a = 0 ∨ ∃ t, SoleHolder l' a t ∧ AdmittedAsProbe a (tr ++ [⟨l, i, o⟩]) t := by
  by_cases heq : t1 = t
  · subst heq
    exact .inl (h.heldOn_consumed htickets)
  · have hne := id_ne_of_owns h.owned hown (Ne.symm heq)
    refine .inr ⟨t, h.of_same hself fun id state hholds => ?_, hadm.snoc ?_⟩
    · rw [htickets, lookup_erase_eq]
      split
      · next hid =>
        refine ⟨nofun, fun hstate => absurd ?_ hne⟩
        exact (h.only id state hstate hholds).symm.trans hid
      · rfl
    · rintro ⟨hu, _⟩
      exact heq (Option.some.inj (hused.symm.trans hu))

theorem ProbeState.step {a : Addr} {tr : List LedgerEvent} {l l' : QuotaLedger}
    {b b' : QuotaBucket} {i : Op} {o : Res} (h : ProbeState a tr l b) (hsound : Sound l)
    (hb : l.heap[a]? = some b) (hb' : l'.heap[a]? = some b')
    (hs : l.step i = some (l', o)) (hobject : ObjectStep a l l' i o b b') :
    ProbeState a (tr ++ [⟨l, i, o⟩]) l' b' := by
  obtain ⟨hself, hstep⟩ := step_tickets hs
  have hsound' := hsound.step hs
  have hres := hsound.reserved_eq_heldOn hb
  have hres' := hsound'.reserved_eq_heldOn hb'
  have hrem' := (hsound'.object a b' hb').remaining_nonneg
  have hafter := hobject.remaining
  obtain ⟨hsettled, hbounded⟩ := h
  refine ⟨by rw [exists_settles_snoc, hobject.probe, hsettled], ?_⟩
  cases hstep with
  | idle htickets _ hissued hused =>
    have hnot := not_consumes (l := l) fun t h => (hused t h).1
    have hzero := @charged_of_not_consumes _ _ _ a hnot
    rcases hbounded with hle | ⟨t, hsole, hadm⟩
    · left
      rw [hres', heldOn, htickets, ← heldOn]
      omega
    · exact .inr ⟨t, hsole.of_same hself fun _ _ _ => by rw [htickets], hadm.snoc (hnot t)⟩
  | issue id state hissued hdraw htickets _ hused =>
    obtain ⟨hid, hfree⟩ := drawTicketID_spec hdraw
    have hnot : ∀ t, ¬Consumes t ⟨l, i, o⟩ := not_consumes (by simp [hused])
    have hzero := @charged_of_not_consumes _ _ _ a hnot
    have hheld : l'.heldOn a = l.heldOn a + _ :=
      inFlight_issue (e := ⟨l, i, o⟩) hself hissued hfree htickets fun _ => true
    have hnew : l'.tickets.lookup id = some state := by
      rw [htickets]
      exact AList.lookup_insert _
    have hpos := @pendingOn_pos a _ fun e he => (hsound'.holds _ _ hnew e he).cost_pos
    by_cases hholds : HoldsOn state a
    · rcases hobject.admitted _ state hissued hnew with hnone | hfit | ⟨_, hnone, hunspent⟩
      · rw [← hpos, hnone] at hholds
        exact absurd hholds (Int.lt_irrefl 0)
      · left
        unfold Fits at hfit
        omega
      · -- a probe: nobody else holds the object
        refine .inr ⟨⟨some l.self, id⟩, ⟨?_, ⟨state, hnew, hholds⟩, fun id' st hst hon => ?_⟩, ?_⟩
        · exact owns_iff.mpr ⟨congrArg some hself.symm, hid⟩
        · rw [htickets, lookup_insert_eq] at hst
          split at hst
          · next heq => exact heq
          · exact absurd hon (hsound.not_holdsOn (hres.symm.trans hnone) hst)
        · refine ⟨tr, ⟨l, i, o⟩, [], rfl, hissued, ⟨b, hb, hnone⟩, fun e he hsettles => ?_,
            fun _ he => (nomatch he)⟩
          have hspent := hsettled.mpr ⟨e, he, hsettles⟩
          rw [hunspent] at hspent
          cases hspent
    · rcases hbounded with hle | ⟨t, hsole, hadm⟩
      · left
        have hle : pendingOn a state.holds.entries ≤ 0 := Int.not_lt.mp fun hlt => hholds (hpos.mp hlt)
        omega
      · refine .inr ⟨t, hsole.of_same hself fun id' st hon => ?_, hadm.snoc (hnot t)⟩
        rw [htickets, lookup_insert_eq]
        split
        · next heq =>
          rw [heq, hfree]
          exact ⟨fun h => absurd (Option.some.inj h ▸ hon) hholds, nofun⟩
        · rfl
  | consume t1 hused hdone hactive htickets _ =>
    obtain ⟨hown, hlook⟩ := Bool.and_eq_true_iff.mp hactive
    obtain ⟨state, hstate⟩ := Option.isSome_iff_exists.mp hlook
    rcases hbounded with hle | ⟨t, hsole, hadm⟩
    · left
      have hheld : l.heldOn a = pendingOn a state.holds.entries + l'.heldOn a :=
        inFlight_consume hself hown hstate htickets fun _ => true
      have hcovered := hobject.covered t1 state hused hstate
      omega
    · refine (hsole.after hadm hself hown htickets hused).imp_left fun hzero => ?_
      rw [hres', hzero]
      exact hrem'

theorem run_settlesOn_lt (hrun : Run step (new self) tr l) (he : e ∈ tr)
    (hsettles : SettlesOn a e) : a < l.heap.length := by
  induction hrun with
  | start => cases he
  | @next tr s s' i o hrun hs ih =>
    refine Nat.lt_of_lt_of_le ?_ (step_length hs)
    rcases mem_append.mp he with hold | hnew
    · exact ih hold
    · cases mem_singleton.mp hnew
      obtain ⟨t, _, _, _, state, _, _, hstate, x, hx, hbucket⟩ := hsettles
      exact ((reachable_sound ⟨tr, hrun⟩).holds _ _ hstate x hx).addr a hbucket

theorem run_probeState (hrun : Run step (new self) tr l)
    (hkeeps : ∀ e ∈ tr, a < e.before.heap.length → Keeps a e) (hb : l.heap[a]? = some b) :
    ProbeState a tr l b := by
  induction hrun generalizing b with
  | start => cases hb
  | @next tr s s' i o hrun hs ih =>
    have hsound := reachable_sound ⟨tr, hrun⟩
    have hmem : (⟨s, i, o⟩ : LedgerEvent) ∈ tr ++ [⟨s, i, o⟩] :=
      mem_append_right _ mem_cons_self
    rcases Nat.lt_or_ge a s.heap.length with hlt | hge
    · obtain ⟨b0, hb0⟩ : ∃ b0, s.heap[a]? = some b0 := ⟨_, List.getElem?_eq_getElem hlt⟩
      have hprev := ih (fun e he => hkeeps e (mem_append_left _ he)) hb0
      obtain ⟨b', hb', hobject⟩ := step_object hsound hb0 (hkeeps _ hmem hlt) hs
      rw [hb] at hb'
      cases hb'
      exact hprev.step hsound hb0 hb hs hobject
    · -- the call creates the object
      obtain ⟨hzero, hunspent⟩ := step_created hsound hs hge b hb
      have hnone : ¬∃ e ∈ tr ++ [⟨s, i, o⟩], SettlesOn a e := by
        rw [exists_settles_snoc]
        rintro (⟨e, he, hsettles⟩ | ⟨t, _, _, _, state, _, _, hstate, x, hx, hbucket⟩)
        · exact Nat.not_lt.mpr hge (run_settlesOn_lt hrun he hsettles)
        · exact Nat.not_lt.mpr hge ((hsound.holds _ _ hstate x hx).addr a hbucket)
      refine ⟨?_, Or.inl ?_⟩
      · rw [hunspent]
        exact ⟨fun h => (nomatch h), fun h => absurd h hnone⟩
      · rw [hzero]
        exact ((hsound.step hs).object a b hb).remaining_nonneg

/-- On a bucket not observed anew, the reservations fit into the remaining quota, or one ticket
alone holds it, let in when nothing was reserved or reconciled. After the first reconciliation every
admitted cost fits into what is left. -/
theorem one_probe (hrun : Run step (new self) tr l)
    (hkeeps : ∀ e ∈ tr, a < e.before.heap.length → Keeps a e) (hb : l.heap[a]? = some b) :
    (b.reserved.toInt ≤ b.observation.remaining.toInt ∨
      ∃ t, SoleHolder l a t ∧ AdmittedAsProbe a tr t) ∧
    ((∃ e ∈ tr, SettlesOn a e) → ∀ rs now order l' t,
      l.reserveAll rs now order = some (l', some t) → ∀ amounts key cost,
      aggregateReservations rs = some amounts → amounts.lookup key = some cost →
      (l.purgeExpiredLocked now).buckets.lookup key = some a →
      cost.toInt ≤ b.observation.remaining.toInt - b.reserved.toInt) := by
  have hstate := run_probeState hrun hkeeps hb
  have hsound := reachable_sound ⟨tr, hrun⟩
  refine ⟨hstate.bounded, fun hsettles rs now order l' t hr amounts key cost hagg hcost hkey => ?_⟩
  rcases reserveAll_cases hr with ⟨hout, _⟩ | ⟨amounts', id, hagg', hadm, _⟩
  · cases hout
  cases hagg.symm.trans hagg'
  have hvisit : (⟨key, cost⟩ : Sigma fun _ : QuotaBucketKey => Int64) ∈ amounts.range order :=
    mem_range.mpr hcost
  rcases admits_object (hsound.purgeExpiredLocked now) hb hkey (hadm _ hvisit) with
    hfit | ⟨_, _, hunspent⟩
  · exact hfit
  · have hspent := hstate.settled.mpr hsettles
    rw [hunspent] at hspent
    cases hspent

/-- A probe of 12 on an estimate of 10: the ticket is the only holder. -/
theorem one_probe_beyond_estimate : ∃ tr l b, Run step (new 0) tr l ∧ l.heap[0]? = some b ∧
      b.observation.remaining.toInt < b.reserved.toInt ∧
      ∃ t, SoleHolder l 0 t ∧ AdmittedAsProbe 0 tr t := by
  have hobserve : step (new 0) (.observe sampleKey (sampleObservation 10 .estimated) 1) =
      some (sampleFree ⟨sampleObservation 10 .estimated, 0, false⟩, .done true) := rfl
  have hreserve : step (sampleFree ⟨sampleObservation 10 .estimated, 0, false⟩)
      (.reserveAll [⟨sampleKey, 12⟩] 2 []) =
      some (sampleHeld ⟨sampleObservation 10 .estimated, 12, false⟩ 12,
        .ticket (some ⟨some 0, 1⟩)) := rfl
  have hrun := (Run.start.next hobserve).next hreserve
  refine ⟨_, _, _, hrun, rfl, by decide, ?_⟩
  refine ((one_probe hrun ?_ rfl).1).resolve_left (by decide)
  intro e he hlt
  rcases mem_cons.mp he with rfl | he
  · exact absurd hlt (Nat.lt_irrefl 0)
  · cases mem_singleton.mp he
    trivial

/-! ## A bucket on which nothing is settled -/

/-- The call stores no observation in `a`, and settles no ticket that holds it. -/
def Leaves (a : Addr) (e : LedgerEvent) : Prop :=
  match e.input with
  | .observe key _ _ => e.before.buckets.lookup key ≠ some a
  | .reconcile t ss _ _ => (∀ s ∈ ss, e.before.buckets.lookup s.key ≠ some a) ∧
      ∀ state, e.before.tickets.lookup t.id = some state → ¬HoldsOn state a
  | _ => True

theorem Leaves.keeps (h : Leaves a ⟨l, i, o⟩) : Keeps a ⟨l, i, o⟩ := by
  cases i with
  | observe key ob now => exact h
  | reconcile t ss now order =>
    intro s hs
    refine ⟨fun hkey => absurd hkey (h.1 s hs), fun state hold hstate hhold hbucket => ?_⟩
    exact absurd ⟨⟨s.key, hold⟩, mem_entries.mpr hhold, hbucket⟩ (h.2 state hstate)
  | snapshot key now | keys now | reserveAll rs now order | release t now order => trivial

theorem leaves_step (h : Sound l) (hb : l.heap[a]? = some b) (he : Leaves a ⟨l, i, o⟩)
    (hs : l.step i = some (l', o)) : ∃ b', l'.heap[a]? = some b' ∧
      b'.observation = b.observation ∧ b'.probeSettled = b.probeSettled := by
  obtain ⟨b', hb', hobject⟩ := step_object h hb he.keeps hs
  have hsettles : ¬SettlesOn a ⟨l, i, o⟩ := by
    rintro ⟨t, ss, now, order, state, hinput, -, hstate, hholds⟩
    cases hinput
    exact he.2 state hstate hholds
  refine ⟨b', hb', ?_, Bool.eq_iff_iff.mpr (hobject.probe.trans (or_iff_left hsettles))⟩
  have hrem := hobject.remaining
  rw [charged_eq_zero hsettles, Int.sub_zero,
    Int.max_eq_right (h.object a b hb).remaining_nonneg] at hrem
  rw [hobject.observation, Int64.toInt_inj.mp hrem]

/-- Whatever other calls do, a bucket that is not observed anew and on which nothing is settled is
as it was as soon as the tickets hold as much of it: a released ticket leaves no trace. -/
theorem released_without_trace (hreach : Reachable step (new self) l0)
    (hb : l0.heap[a]? = some b) (hrun : Run step l0 tr l) (hleaves : ∀ e ∈ tr, Leaves a e)
    (hheld : l.heldOn a = l0.heldOn a) : l.heap[a]? = some b := by
  have hsound0 := reachable_sound hreach
  obtain ⟨hsound, b', hb', hobs, hprobe⟩ := hrun.invariant
    (P := fun s => s.Sound ∧ ∃ b', s.heap[a]? = some b' ∧
      b'.observation = b.observation ∧ b'.probeSettled = b.probeSettled)
    (fun s i s' o ⟨hs, b1, hb1, hobs, hprobe⟩ he hstep => by
      obtain ⟨b2, hb2, hobs', hprobe'⟩ := leaves_step hs hb1 he hstep
      exact ⟨hs.step hstep, b2, hb2, hobs'.trans hobs, hprobe'.trans hprobe⟩)
    ⟨hsound0, b, hb, rfl, rfl⟩ hleaves
  have hreserved : b'.reserved = b.reserved := by
    apply Int64.toInt_inj.mp
    rw [hsound.reserved_eq_heldOn hb', hheld, hsound0.reserved_eq_heldOn hb]
  rw [hb']
  cases b
  cases b'
  cases hobs
  cases hprobe
  cases hreserved
  rfl

/-- Two requests overlap, and both are given up. -/
theorem overlapping_requests_released : ∃ tr l, Run step
    (sampleFree ⟨sampleObservation 10 .estimated, 0, false⟩) tr l ∧ granted tr = 2 ∧
      l.heap[0]? = some ⟨sampleObservation 10 .estimated, 0, false⟩ := by
  refine exists_run [.reserveAll [⟨sampleKey, 3⟩] 2 [], .reserveAll [⟨sampleKey, 4⟩] 3 [],
    .release ⟨some 0, 1⟩ 4 [], .release ⟨some 0, 2⟩ 5 []] rfl fun hrun => ⟨rfl, ?_⟩
  exact released_without_trace (sampleFree_reachable .estimated) rfl hrun (by simp [Leaves]) rfl

end QuotaLedger

end CalvoProxy
