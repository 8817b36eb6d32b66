import CalvoProxy.Quota.Accounting

/-!
# The life of a ticket

`ReserveAll` issues a ticket, the first `Release` or `Reconcile` consumes it, and both are counted
over a run. Ids come from a 64-bit counter that skips `0` and the ids in use.
-/

namespace CalvoProxy

open List Machine

variable {i : Op} {state : QuotaTicketState} {self : LedgerId} {l l' : QuotaLedger}
  {t : QuotaTicket} {id : UInt64}

namespace QuotaLedger

/-! ## Issues, uses and consumptions -/

abbrev LedgerEvent := Event QuotaLedger Op Res

def Res.issued : Res → Option QuotaTicket
  | .ticket t => t
  | _ => none

def Consumes (t : QuotaTicket) (e : LedgerEvent) : Prop :=
  e.input.uses = some t ∧ e.output = .done true

instance (t : QuotaTicket) (e : LedgerEvent) : Decidable (Consumes t e) := by
  unfold Consumes
  infer_instance

def consumed (t : QuotaTicket) (tr : List LedgerEvent) : Nat := tr.countP fun e => Consumes t e

def issued (t : QuotaTicket) (tr : List LedgerEvent) : Nat :=
  tr.countP fun e => e.output.issued = some t

def granted (tr : List LedgerEvent) : Nat := tr.countP fun e => e.output.issued.isSome

def active (l : QuotaLedger) (t : QuotaTicket) : Bool := l.owns t && (l.tickets.lookup t.id).isSome

theorem owns_iff : l.owns t = true ↔ t.ledger = some l.self ∧ t.id ≠ 0 := by
  simp [owns]

/-! ## What one call does to the table of tickets -/

/-- A call leaves the tickets, issues one with a free id, or consumes an active one. -/
inductive TicketStep (l l' : QuotaLedger) (i : Op) (o : Res) : Prop
  | idle (htickets : l'.tickets = l.tickets) (hnext : l'.nextTicketID = l.nextTicketID)
      (hissued : o.issued = none)
      (hused : ∀ t, i.uses = some t → o = .done false ∧ l'.heap = l.heap)
  | issue (id : UInt64) (state : QuotaTicketState) (hissued : o.issued = some ⟨some l.self, id⟩)
      (hdraw : l.newTicketIDLocked = some id)
      (htickets : l'.tickets = l.tickets.insert id state) (hnext : l'.nextTicketID = id)
      (hused : i.uses = none)
  | consume (t : QuotaTicket) (hused : i.uses = some t) (hdone : o = .done true)
      (hactive : l.active t = true) (htickets : l'.tickets = l.tickets.erase t.id)
      (hnext : l'.nextTicketID = l.nextTicketID)

theorem observe_fields (l : QuotaLedger) (key : QuotaBucketKey) (o : QuotaObservation)
    (now : Time) :
    (l.observe key o now).1.self = l.self ∧ (l.observe key o now).1.tickets = l.tickets ∧
      (l.observe key o now).1.nextTicketID = l.nextTicketID := by
  by_cases hvalid : (!validQuotaKey key || o.limit < 0 || o.remaining < 0) = true
  · unfold observe
    rw [if_pos hvalid]
    exact ⟨rfl, rfl, rfl⟩
  · rw [observe_eq hvalid]
    split
    · exact ⟨rfl, rfl, rfl⟩
    · simp only [storeObservation_self, storeObservation_tickets, storeObservation_nextTicketID]
      exact ⟨rfl, rfl, rfl⟩

theorem snapshot_fields (l : QuotaLedger) (key : QuotaBucketKey) (now : Time) :
    (l.snapshot key now).1.self = l.self ∧ (l.snapshot key now).1.tickets = l.tickets ∧
      (l.snapshot key now).1.nextTicketID = l.nextTicketID ∧
      (l.snapshot key now).1.heap = l.heap := by
  unfold snapshot
  simp only
  split
  · exact ⟨rfl, rfl, rfl, rfl⟩
  · split <;> exact ⟨rfl, rfl, rfl, rfl⟩

theorem step_tickets {o : Res} (hs : l.step i = some (l', o)) :
    l'.self = l.self ∧ TicketStep l l' i o := by
  cases i with
  | observe key ob now =>
    cases hs
    obtain ⟨hself, htickets, hnext⟩ := observe_fields l key ob now
    exact ⟨hself, .idle htickets hnext rfl fun _ h => (nomatch h)⟩
  | snapshot key now =>
    cases hs
    obtain ⟨hself, htickets, hnext, _⟩ := snapshot_fields l key now
    exact ⟨hself, .idle htickets hnext rfl fun _ h => (nomatch h)⟩
  | keys now =>
    cases hs
    exact ⟨rfl, .idle rfl rfl rfl fun _ h => (nomatch h)⟩
  | reserveAll rs now order =>
    obtain ⟨⟨l1, out⟩, hr, heq⟩ := Option.map_eq_some_iff.mp hs
    cases heq
    rcases reserveAll_cases hr with ⟨rfl, rfl | rfl⟩ | ⟨amounts, id, _, _, hid, rfl, rfl⟩
    · exact ⟨rfl, .idle rfl rfl rfl fun _ h => (nomatch h)⟩
    · exact ⟨rfl, .idle rfl rfl rfl fun _ h => (nomatch h)⟩
    have hfields := reserveHolds_fields (l.purgeExpiredLocked now) ∅ (amounts.range order)
    obtain ⟨hself, _, htickets, hnext⟩ := hfields
    unfold newTicketIDLocked at hid
    rw [htickets, hnext] at hid
    exact ⟨hself, .issue id _ rfl hid rfl rfl rfl⟩
  | release t now order =>
    cases hs
    rcases release_cases (Prod.eta (l.release t now order)).symm with
      ⟨hok, _, hl⟩ | ⟨hok, hown, state, hstate, hl⟩
    · rw [hok]
      rcases hl with hl | hl <;> rw [hl] <;> exact ⟨rfl, .idle rfl rfl rfl fun _ _ => ⟨rfl, rfl⟩⟩
    · obtain ⟨hself, _, htickets, hnext⟩ := releaseHoldsLocked_fields
        { l.purgeExpiredLocked now with tickets := l.tickets.erase t.id } (state.holds.range order)
      rw [hok, hl]
      refine ⟨hself, .consume t rfl rfl ?_ htickets hnext⟩
      simp [active, hown, hstate]
  | reconcile t ss now order =>
    cases hs
    rcases reconcile_cases (Prod.eta (l.reconcile t ss now order)).symm with
      ⟨hok, hl⟩ | ⟨hok, hown, byKey, state, _, hstate, _, hl⟩
    · rw [hok]
      rcases hl with hl | hl <;> rw [hl] <;> exact ⟨rfl, .idle rfl rfl rfl fun _ _ => ⟨rfl, rfl⟩⟩
    · obtain ⟨hself, htickets, hnext⟩ := settleHolds_fields
        { l.purgeExpiredLocked now with tickets := l.tickets.erase t.id } (state.holds.range order)
        byKey now
      rw [hok, hl]
      refine ⟨hself, .consume t rfl rfl ?_ htickets hnext⟩
      simp [active, hown, hstate]

theorem not_consumes {o : Res} (h : ∀ t, i.uses = some t → o = .done false) (t : QuotaTicket) :
    ¬Consumes t ⟨l, i, o⟩ := by
  rintro ⟨huse, hdone⟩
  cases (h t huse).symm.trans hdone

/-! ## Counting over a run -/

theorem active_congr (hself : l'.self = l.self)
    (hlook : l.owns t = true → l'.tickets.lookup t.id = l.tickets.lookup t.id) :
    l'.active t = l.active t := by
  have hown : l'.owns t = l.owns t := by
    unfold owns
    rw [hself]
  unfold active
  rw [hown]
  cases ho : l.owns t with
  | false => rfl
  | true => rw [hlook ho]

theorem id_ne_of_owns {t' : QuotaTicket} (h : l.owns t = true)
    (h' : l.owns t' = true) (hne : t ≠ t') : t.id ≠ t'.id := by
  intro hid
  apply hne
  cases t
  cases t'
  have hl := (owns_iff.mp h).1.trans (owns_iff.mp h').1.symm
  simp only at hl hid
  rw [hl, hid]

theorem active_issue (hself : l'.self = l.self) (hdraw : l.newTicketIDLocked = some id)
    (htickets : l'.tickets = l.tickets.insert id state) (t : QuotaTicket) :
    (l'.active t).toNat =
      (l.active t).toNat + if some (⟨some l.self, id⟩ : QuotaTicket) = some t then 1 else 0 := by
  obtain ⟨hid, hfree⟩ := drawTicketID_spec hdraw
  split
  · next heq =>
    cases heq
    have hbefore : l.active ⟨some l.self, id⟩ = false := by
      simp [active, hfree]
    have hafter : l'.active ⟨some l.self, id⟩ = true := by
      simp [active, owns, hself, hid, htickets]
    rw [hbefore, hafter]
    rfl
  · next hne =>
    rw [active_congr hself fun hown => ?_]
    · rfl
    have hnew : l.owns ⟨some l.self, id⟩ = true := owns_iff.mpr ⟨rfl, hid⟩
    have hids := id_ne_of_owns hown hnew fun h => hne (congrArg some h.symm)
    rw [htickets, GoMap.lookup_insert_eq, if_neg hids]

theorem active_consume {t0 : QuotaTicket} (hself : l'.self = l.self)
    (hactive : l.active t0 = true) (htickets : l'.tickets = l.tickets.erase t0.id)
    (t : QuotaTicket) :
    (l.active t).toNat = (l'.active t).toNat + if some t0 = some t then 1 else 0 := by
  have hown0 : l.owns t0 = true := (Bool.and_eq_true_iff.mp hactive).1
  split
  · next heq =>
    cases heq
    have hafter : l'.active t0 = false := by
      simp [active, htickets]
    rw [hactive, hafter]
    rfl
  · next hne =>
    rw [active_congr hself fun hown => ?_]
    · rfl
    have hids := id_ne_of_owns hown hown0 fun h => hne (congrArg some h.symm)
    rw [htickets, GoMap.lookup_erase_eq, if_neg hids]

section Counts

variable (t : QuotaTicket) (tr : List LedgerEvent) (e : LedgerEvent)

theorem consumed_snoc : consumed t (tr ++ [e]) = consumed t tr + if Consumes t e then 1 else 0 := by
  simp [consumed, countP_append, countP_singleton]

theorem issued_snoc :
    issued t (tr ++ [e]) = issued t tr + if e.output.issued = some t then 1 else 0 := by
  simp [issued, countP_append, countP_singleton]

theorem granted_snoc :
    granted (tr ++ [e]) = granted tr + if e.output.issued.isSome then 1 else 0 := by
  simp [granted, countP_append, countP_singleton]

end Counts

theorem run_conserves_tickets {l0 : QuotaLedger} {tr : List LedgerEvent}
    (h : Run step l0 tr l) (t : QuotaTicket) :
    consumed t tr + (l.active t).toNat = issued t tr + (l0.active t).toNat := by
  induction h with
  | start => rfl
  | @next tr s s' i o _ hs ih =>
    obtain ⟨hself, hstep⟩ := step_tickets hs
    rw [consumed_snoc, issued_snoc]
    cases hstep with
    | idle htickets _ hissued hused =>
      have hactive : s'.active t = s.active t := active_congr hself fun _ => by rw [htickets]
      have hno : ¬Consumes t ⟨s, i, o⟩ := not_consumes (fun t h => (hused t h).1) t
      rw [hactive, hissued, if_neg hno, if_neg (nofun : ¬(none : Option QuotaTicket) = some t)]
      exact ih
    | issue id state hissued hdraw htickets _ hused =>
      have hno : ¬Consumes t ⟨s, i, o⟩ := not_consumes (by simp [hused]) t
      rw [active_issue hself hdraw htickets t, hissued, if_neg hno]
      omega
    | consume t0 hused hdone hactive htickets _ =>
      have hiff : Consumes t ⟨s, i, o⟩ ↔ some t0 = some t := by
        unfold Consumes
        rw [hused, hdone]
        exact and_iff_left rfl
      have hnone : ¬(o.issued = some t) := by
        rw [hdone]
        exact nofun
      rw [active_consume hself hactive htickets t] at ih
      simp only [hiff, if_neg hnone]
      omega

/-! ## Ids are not drawn twice before the counter wraps -/

theorem drawTicketID_next {tickets : GoMap UInt64 QuotaTicketState} {fuel : Nat} {next : UInt64}
    (h : drawTicketID tickets fuel next = some id) (hzero : next + 1 ≠ 0)
    (hfree : tickets.lookup (next + 1) = none) : id = next + 1 := by
  cases fuel with
  | zero => cases h
  | succ fuel =>
    unfold drawTicketID at h
    rw [if_neg hzero, hfree] at h
    exact (Option.some.inj h).symm

/-- While the counter has not wrapped, it is the number of tickets issued, each with an id up to
it. -/
structure Fresh (tr : List LedgerEvent) (l : QuotaLedger) : Prop where
  counter : l.nextTicketID.toNat = granted tr
  once : ∀ t, issued t tr ≤ 1
  bound : ∀ t, issued t tr ≠ 0 → t.id.toNat ≤ granted tr

theorem run_fresh {tr : List LedgerEvent}
    (h : Run step (new self) tr l) (hbound : granted tr < 2 ^ 64) : Fresh tr l := by
  induction h with
  | start => exact ⟨rfl, fun _ => Nat.zero_le 1, fun _ h => absurd rfl h⟩
  | @next tr s s' i o hrun hs ih =>
    rw [granted_snoc] at hbound
    obtain ⟨hcounter, honce, hid⟩ := ih (Nat.lt_of_le_of_lt (Nat.le_add_right _ _) hbound)
    obtain ⟨_, hstep⟩ := step_tickets hs
    have hquiet : o.issued = none → s'.nextTicketID = s.nextTicketID →
        Fresh (tr ++ [⟨s, i, o⟩]) s' := by
      intro hnone hnext
      refine ⟨?_, fun t => ?_, fun t => ?_⟩
      · rw [granted_snoc, hnext, hnone]
        exact hcounter
      · rw [issued_snoc, hnone]
        exact honce t
      · rw [issued_snoc, granted_snoc, hnone]
        exact hid t
    cases hstep with
    | idle _ hnext hissued _ => exact hquiet hissued hnext
    | consume _ _ hdone _ _ hnext => exact hquiet (by rw [hdone]; rfl) hnext
    | issue id state hissued hdraw htickets hnext _ =>
      have hgrant : granted (tr ++ [⟨s, i, o⟩]) = granted tr + 1 := by
        rw [granted_snoc, hissued]
        rfl
      rw [hissued] at hbound
      simp only [Option.isSome_some, if_true] at hbound
      have hsucc : (s.nextTicketID + 1).toNat = granted tr + 1 := by
        rw [UInt64.toNat_add, hcounter]
        exact Nat.mod_eq_of_lt hbound
      -- the next id is above everything issued so far, so no active ticket has it
      have hnew : ∀ t, t.id = s.nextTicketID + 1 → issued t tr = 0 := by
        intro t ht
        by_contra hne
        have hle := hid t hne
        rw [ht, hsucc] at hle
        exact Nat.not_succ_le_self _ hle
      have hnonzero : s.nextTicketID + 1 ≠ 0 := by
        intro h0
        rw [h0] at hsucc
        cases hsucc
      have hfree : s.tickets.lookup (s.nextTicketID + 1) = none := by
        cases hlook : s.tickets.lookup (s.nextTicketID + 1) with
        | none => rfl
        | some st =>
          have hcount := run_conserves_tickets hrun ⟨some s.self, s.nextTicketID + 1⟩
          have hact : s.active ⟨some s.self, s.nextTicketID + 1⟩ = true := by
            simp [active, owns, hnonzero, hlook]
          have hnot : (new self).active ⟨some s.self, s.nextTicketID + 1⟩ = false :=
            Bool.and_false _
          rw [hnew _ rfl, hact, hnot] at hcount
          cases hcount
      have hidEq : id = s.nextTicketID + 1 := drawTicketID_next hdraw hnonzero hfree
      refine ⟨?_, fun t => ?_, fun t => ?_⟩
      · rw [hnext, hidEq, hsucc, hgrant]
      · rw [issued_snoc, hissued]
        split
        · next heq =>
          cases heq
          rw [hnew _ hidEq]
        · exact honce t
      · rw [issued_snoc, hissued, hgrant]
        split
        · next heq =>
          cases heq
          intro _
          show id.toNat ≤ _
          rw [hidEq, hsucc]
        · exact fun hne => Nat.le_succ_of_le (hid t hne)

/-! ## The ledger over a whole run -/

/-- The ledger in which `Release` and `Reconcile` start to go over the holds of `t`. -/
def opened (l : QuotaLedger) (t : QuotaTicket) (now : Time) : QuotaLedger :=
  { l.purgeExpiredLocked now with tickets := l.tickets.erase t.id }

/-- In every round of `Release` and `Reconcile`, the clamped amount is the cost of the hold. -/
structure ClampIdle (l : QuotaLedger) (t : QuotaTicket) (state : QuotaTicketState) : Prop where
  release : ∀ now order done e rest, state.holds.range order = done ++ e :: rest →
    ∀ a b, e.2.bucket = some a → ((l.opened t now).releaseHoldsLocked done).heap[a]? = some b →
      minInt64 b.reserved e.2.cost = e.2.cost
  reconcile : ∀ now order ss byKey done e rest, settlementsByKey ∅ ss = some byKey →
    state.holds.range order = done ++ e :: rest →
    ∀ a b, e.2.bucket = some a → ((l.opened t now).settleHolds byKey now done).heap[a]? = some b →
      minInt64 b.reserved e.2.cost = e.2.cost

theorem Sound.clampIdle (h : Sound l) (hstate : l.tickets.lookup t.id = some state) :
    l.ClampIdle t state where
  release := by
    intro now order done e rest hsplit a b ha hb
    have hopen := (h.purgeExpiredLocked now).eraseTicket hstate order
    rw [hsplit] at hopen
    exact (hopen.releaseHoldsLocked.unreserve_eq hb ha).2.1
  reconcile := by
    intro now order ss byKey done e rest hby hsplit a b ha hb
    have hopen := (h.purgeExpiredLocked now).eraseTicket hstate order
    rw [hsplit] at hopen
    exact ((hopen.settleHolds now (settlementsByKey_empty_ok hby)).unreserve_eq hb ha).2.1

/-- After any sequence of calls, a bucket object has reserved what active tickets hold on it and
reports between nothing and its limit; the clamp never bites. A ticket is consumed once at most
while fewer than `2 ^ 64` were issued, and a call that does not consume its ticket fails and moves
no bucket. -/
theorem books_and_tickets {tr : List LedgerEvent} (h : Run step (new self) tr l) :
    (∀ a b, l.heap[a]? = some b → b.reserved.toInt = l.heldOn a ∧ 0 ≤ b.reserved.toInt ∧
        0 ≤ b.observation.remaining.toInt ∧
        b.observation.remaining.toInt ≤ b.observation.limit.toInt) ∧
    (∀ t state, l.tickets.lookup t.id = some state → l.ClampIdle t state) ∧
    (∀ t, consumed t tr + (l.active t).toNat = issued t tr) ∧
    (granted tr < 2 ^ 64 → ∀ t, consumed t tr ≤ 1) ∧
    (∀ e ∈ tr, ∀ t, e.input.uses = some t → ¬Consumes t e → e.output = .done false ∧
        (step e.before e.input).map (·.1.heap) = some e.before.heap) := by
  have hsound := reachable_sound ⟨tr, h⟩
  have hcount : ∀ t, consumed t tr + (l.active t).toNat = issued t tr := by
    intro t
    have hempty : (new self).active t = false := Bool.and_false _
    have hrun := run_conserves_tickets h t
    rw [hempty] at hrun
    exact hrun
  refine ⟨fun a b hb => ?_, fun t state hstate => hsound.clampIdle hstate, hcount,
    fun hbound t => ?_, ?_⟩
  · have hok := hsound.object a b hb
    refine ⟨?_, hsound.reserved_nonneg hb, hok.remaining_nonneg, hok.remaining_le⟩
    rw [hok.reserved_eq, pendingOn_nil, Int.add_zero]
  · calc consumed t tr ≤ issued t tr := by rw [← hcount t]; exact Nat.le_add_right _ _
      _ ≤ 1 := (run_fresh h hbound).once t
  · intro e he t huse hnot
    obtain ⟨l', hs⟩ := h.event_step he
    obtain ⟨_, hstep⟩ := step_tickets hs
    rw [hs]
    cases hstep with
    | idle _ _ _ hused => exact ⟨(hused t huse).1, congrArg some (hused t huse).2⟩
    | issue _ _ _ _ _ _ hused =>
      rw [hused] at huse
      cases huse
    | consume t0 hused hdone _ _ _ =>
      rw [hused] at huse
      cases huse
      exact absurd ⟨hused, hdone⟩ hnot

/-- Reserve on an observed bucket and release the ticket. -/
theorem books_and_tickets_one_round :
    ∃ tr l, Run step (new 0) tr l ∧ granted tr = 1 ∧ consumed ⟨some 0, 1⟩ tr = 1 ∧
      (∀ t, consumed t tr ≤ 1) := by
  let key : QuotaBucketKey := ⟨"p", "account", "m", .requests, .minute⟩
  refine exists_run
    [.observe key ⟨10, 10, 0, .config, .authoritative, 0⟩ 1, .reserveAll [⟨key, 3⟩] 2 [],
      .release ⟨some 0, 1⟩ 3 []] rfl fun hrun => ⟨rfl, rfl, ?_⟩
  exact (books_and_tickets hrun).2.2.2.1 (by decide)

/-! ## When the counter wraps -/

def idleAt (n : UInt64) : QuotaLedger := { new 0 with nextTicketID := n }

/-- The same ledger after it issued a ticket that holds nothing. -/
def heldAt (n : UInt64) : QuotaLedger :=
  { new 0 with nextTicketID := n, tickets := AList.insert n ⟨∅⟩ ∅ }

theorem idleAt_reserve {n : UInt64} (h : drawTicketID ∅ 2 n = some id) :
    step (idleAt n) (.reserveAll [] 0 []) = some (heldAt id, .ticket (some ⟨some 0, id⟩)) := by
  have hempty : aggregateReservations [] = some ∅ := rfl
  have hvisits : GoMap.range [] (∅ : GoMap QuotaBucketKey Int64) = [] := rfl
  have hdraw : (((idleAt n).purgeExpiredLocked 0).reserveHolds ∅ []).1.newTicketIDLocked =
      some id := h
  show Option.map _ (reserveAll _ _ _ _) = _
  simp only [reserveAll, hempty, hvisits, all_nil, if_true, hdraw]
  rfl

theorem heldAt_release (h : id ≠ 0) :
    step (heldAt id) (.release ⟨some 0, id⟩ 0 []) = some (idleAt id, .done true) := by
  have hown : (!(heldAt id).owns ⟨some 0, id⟩) = false := by
    rw [owns_iff.mpr ⟨rfl, h⟩]
    rfl
  have hlook : (heldAt id).tickets.lookup id = some ⟨∅⟩ := AList.lookup_insert ∅
  have herase : (heldAt id).tickets.erase id = ∅ := AList.ext (kerase_cons_eq rfl)
  show some _ = _
  unfold release
  rw [hown]
  simp only [purgeExpiredLocked, hlook, herase]
  rfl

theorem idleAt_spin {n id : UInt64} (h : drawTicketID ∅ 2 n = some id) :
    ∃ tr, Run step (idleAt n) tr (idleAt id) ∧ consumed ⟨some 0, id⟩ tr = 1 := by
  have hne := (drawTicketID_spec h).1
  refine ⟨_, (Run.start.next (idleAt_reserve h)).next (heldAt_release hne), ?_⟩
  rw [consumed_snoc, consumed_snoc]
  have hlast : Consumes ⟨some 0, id⟩ ⟨heldAt id, .release ⟨some 0, id⟩ 0 [], .done true⟩ :=
    ⟨rfl, rfl⟩
  rw [if_pos hlast]
  rfl

theorem consumed_append (t : QuotaTicket) (tr tr' : List LedgerEvent) :
    consumed t (tr ++ tr') = consumed t tr + consumed t tr' :=
  countP_append

theorem idleAt_spins {n : Nat} (h : n + 1 < 2 ^ 64) :
    ∃ tr, Run step (new 0) tr (idleAt (.ofNat (n + 1))) ∧ 1 ≤ consumed ⟨some 0, 1⟩ tr := by
  induction n with
  | zero =>
    obtain ⟨tr, hrun, hone⟩ := @idleAt_spin 0 1 (by decide)
    exact ⟨tr, hrun, Nat.le_of_eq hone.symm⟩
  | succ n ih =>
    have hnonzero : UInt64.ofNat (n + 2) ≠ 0 := by
      intro h0
      have hnat := congrArg UInt64.toNat h0
      rw [UInt64.toNat_ofNat', Nat.mod_eq_of_lt h] at hnat
      cases hnat
    have hdraw : drawTicketID ∅ 2 (.ofNat (n + 1)) = some (.ofNat (n + 2)) := by
      have hsucc : UInt64.ofNat (n + 1) + 1 = .ofNat (n + 2) := (UInt64.ofNat_add (n + 1) 1).symm
      unfold drawTicketID
      rw [hsucc, if_neg hnonzero]
      rfl
    obtain ⟨tr, hrun, hone⟩ := ih (Nat.lt_of_succ_lt h)
    obtain ⟨tr', hrun', _⟩ := idleAt_spin hdraw
    refine ⟨tr ++ tr', hrun.append hrun', ?_⟩
    rw [consumed_append]
    exact Nat.le_trans hone (Nat.le_add_right _ _)

/-- After `2 ^ 64 - 1` tickets the counter comes back to `1`, and that ticket can be consumed
again. -/
theorem ticket_consumed_twice_after_wrap :
    ¬∀ (self : LedgerId) (tr : List LedgerEvent) (l : QuotaLedger),
      Run step (new self) tr l → ∀ t, consumed t tr ≤ 1 := by
  intro hall
  obtain ⟨tr, hrun, hone⟩ := @idleAt_spins (2 ^ 64 - 2) (by decide)
  obtain ⟨tr', hrun', hone'⟩ := @idleAt_spin (.ofNat (2 ^ 64 - 2 + 1)) 1 (by decide)
  have htwice := hall 0 _ _ (hrun.append hrun') ⟨some 0, 1⟩
  rw [consumed_append, hone'] at htwice
  exact Nat.not_succ_le_self 1 (Nat.le_trans (Nat.add_le_add_right hone 1) htwice)

end QuotaLedger

end CalvoProxy
