import CalvoProxy.Quota.Tickets

/-!
# What a ticket holds

The table of tickets as a function to what they hold, which a call leaves alone, sets at the ticket
it issues or clears at the one it consumes. A ticket that is held can be released and settled, and a
reservation returns as long as the table has room.
-/

namespace CalvoProxy

open List UInt64

variable {es : List LedgerEvent} {l l' : QuotaLedger} {t : QuotaTicket} {state : QuotaTicketState}

namespace QuotaLedger

def held (l : QuotaLedger) (t : QuotaTicket) : Option QuotaTicketState :=
  if l.owns t then l.tickets.lookup t.id else none

theorem active_eq_held (l : QuotaLedger) (t : QuotaTicket) : l.active t = (l.held t).isSome := by
  unfold active held
  cases l.owns t <;> rfl

theorem held_of_not_valid (h : t.valid = false) : l.held t = none := by
  refine if_neg fun hown => ?_
  obtain ⟨hledger, hid⟩ := owns_iff.mp hown
  simp [QuotaTicket.valid, hledger, hid] at h

theorem valid_of_held (h : l.held t = some state) : t.valid = true := by
  by_contra hinvalid
  rw [held_of_not_valid (Bool.eq_false_iff.mpr hinvalid)] at h
  cases h

theorem held_congr (hself : l'.self = l.self)
    (htickets : l'.tickets = l.tickets) (t : QuotaTicket) : l'.held t = l.held t := by
  unfold held owns
  rw [hself, htickets]

theorem held_issue {id : UInt64} (hself : l'.self = l.self) (hid : id ≠ 0)
    (htickets : l'.tickets = l.tickets.insert id state) (t : QuotaTicket) :
    l'.held t = if t = ⟨some l.self, id⟩ then some state else l.held t := by
  have hnew : l.owns ⟨some l.self, id⟩ = true := owns_iff.mpr ⟨rfl, hid⟩
  have howns : l'.owns t = l.owns t := by
    unfold owns
    rw [hself]
  unfold held
  rw [howns, htickets]
  split
  · next hown =>
    rw [GoMap.lookup_insert_eq]
    by_cases heq : t = ⟨some l.self, id⟩
    · rw [if_pos heq, if_pos (congrArg QuotaTicket.id heq)]
    · rw [if_neg heq, if_neg (id_ne_of_owns hown hnew heq)]
  · next hown =>
    have hne : t ≠ ⟨some l.self, id⟩ := fun heq => hown (heq.symm ▸ hnew)
    rw [if_neg hne]

theorem held_consume {t0 : QuotaTicket} (hself : l'.self = l.self)
    (hactive : l.active t0 = true) (htickets : l'.tickets = l.tickets.erase t0.id)
    (t : QuotaTicket) : l'.held t = if t = t0 then none else l.held t := by
  have hold : l.owns t0 = true := (Bool.and_eq_true_iff.mp hactive).1
  have howns : l'.owns t = l.owns t := by
    unfold owns
    rw [hself]
  unfold held
  rw [howns, htickets]
  split
  · next hown =>
    rw [GoMap.lookup_erase_eq]
    by_cases heq : t = t0
    · rw [if_pos heq, if_pos (congrArg QuotaTicket.id heq)]
    · rw [if_neg heq, if_neg (id_ne_of_owns hown hold heq)]
  · next hown =>
    have hne : t ≠ t0 := fun heq => hown (heq.symm ▸ hold)
    rw [if_neg hne]

theorem held_eq_some :
    l.held t = some state ↔ l.owns t = true ∧ l.tickets.lookup t.id = some state := by
  unfold held
  split
  · next hown => exact ⟨fun h => ⟨hown, h⟩, fun h => h.2⟩
  · next hown => exact ⟨nofun, fun h => absurd h.1 hown⟩

theorem run_held (h : Machine.Run step l es l') (hheld : l.held t = some state)
    (huses : ∀ e ∈ es, e.input.uses ≠ some t) : l'.held t = some state := by
  refine h.invariant (P := fun l => l.held t = some state)
    (Q := fun e => e.input.uses ≠ some t) ?_ hheld huses
  intro l i l' o hheld huse hstep
  obtain ⟨hself, hticket⟩ := step_tickets hstep
  cases hticket with
  | idle htickets => rw [held_congr hself htickets, hheld]
  | issue id new _ hdraw htickets =>
    obtain ⟨hid, hfree⟩ := drawTicketID_spec hdraw
    rw [held_issue hself hid htickets, if_neg, hheld]
    rintro rfl
    exact nomatch hfree.symm.trans (held_eq_some.mp hheld).2
  | consume t0 hused _ hactive htickets =>
    rw [held_consume hself hactive htickets, if_neg, hheld]
    rintro rfl
    exact huse hused

/-! ## Calls that succeed -/

def ValidState (state : QuotaTicketState) : Prop :=
  ∀ key hold, state.holds.lookup key = some hold → validQuotaKey key = true

def Settleable (l : QuotaLedger) (t : QuotaTicket) : Prop :=
  ∃ state, l.held t = some state ∧ ValidState state

theorem reserveHolds_keys {P : QuotaBucketKey → Prop} {holds : GoMap QuotaBucketKey QuotaHold}
    {es : List (Sigma fun _ : QuotaBucketKey => Int64)}
    (hholds : ∀ key hold, holds.lookup key = some hold → P key) (hes : ∀ e ∈ es, P e.1) :
    ∀ key hold, (l.reserveHolds holds es).2.lookup key = some hold → P key := by
  induction es generalizing l holds with
  | nil => exact hholds
  | cons e es ih =>
    refine ih (fun key hold hlook => ?_) fun e' he' => hes e' (mem_cons_of_mem e he')
    rw [GoMap.lookup_insert_eq] at hlook
    split at hlook
    · next hkey => exact hkey ▸ hes e mem_cons_self
    · exact hholds key hold hlook

theorem reserveAll_issues {rs : List QuotaReservation} {now : Time}
    {order : List QuotaBucketKey} (h : l.reserveAll rs now order = some (l', some t)) :
    ∃ state, (∀ key hold, state.holds.lookup key = some hold →
        validQuotaKey key = true ∧ ∃ r ∈ rs, r.key = key) ∧
      t.valid = true ∧ l'.self = l.self ∧ l.held t = none ∧
      ∀ t', l'.held t' = if t' = t then some state else l.held t' := by
  rcases reserveAll_cases h with ⟨hnone, -⟩ | ⟨amounts, id, hagg, -, hid, hout, rfl⟩
  · cases hnone
  cases hout
  obtain ⟨hself, -, htickets, hnext⟩ :=
    reserveHolds_fields (l.purgeExpiredLocked now) ∅ (amounts.range order)
  obtain ⟨hzero, hfree⟩ := drawTicketID_spec hid
  rw [htickets] at hfree
  refine ⟨⟨((l.purgeExpiredLocked now).reserveHolds ∅ (amounts.range order)).2⟩, ?_, ?_, hself, ?_,
    held_issue hself hzero rfl⟩
  · refine reserveHolds_keys (fun key hold hlook => ?_) fun e he => ?_
    · rw [AList.lookup_empty] at hlook
      cases hlook
    · obtain ⟨hvalid, -, hkey⟩ := aggregateReservations_pos hagg e.1 e.2 (GoMap.mem_range.mp he)
      exact ⟨hvalid, hkey⟩
  · simp [QuotaTicket.valid, hzero]
  · unfold held
    split
    · exact hfree
    · rfl

theorem release_held (now : Time) (order : List QuotaBucketKey)
    (h : l.active t = true) : (l.release t now order).2 = true := by
  obtain ⟨hown, hlook⟩ := Bool.and_eq_true_iff.mp h
  obtain ⟨state, hstate⟩ := Option.isSome_iff_exists.mp hlook
  have hpurged : (l.purgeExpiredLocked now).tickets.lookup t.id = some state := hstate
  unfold release
  simp only [hown, hpurged, Bool.not_true, Bool.false_eq_true, if_false]

theorem release_tickets (l : QuotaLedger) (t : QuotaTicket) (now : Time)
    (order : List QuotaBucketKey) :
    (l.release t now order).1.self = l.self ∧
      ∀ t', (l.release t now order).1.held t' = if t' = t then none else l.held t' := by
  have hstep : l.step (.release t now order) =
    some ((l.release t now order).1, .done (l.release t now order).2) := rfl
  obtain ⟨hself, hticket⟩ := step_tickets hstep
  refine ⟨hself, fun t' => ?_⟩
  cases hticket with
  | idle htickets _ _ hused =>
    rw [held_congr hself htickets]
    split
    · next heq =>
      by_contra hheld
      have hactive : l.active t = true := by
        rw [active_eq_held, ← heq]
        exact Option.isSome_iff_ne_none.mpr hheld
      exact nomatch (hused t rfl).1.symm.trans (congrArg Res.done (release_held now order hactive))
    · rfl
  | issue _ _ _ _ _ _ hused => cases hused
  | consume t0 hused _ hactive htickets _ =>
    cases hused
    exact held_consume hself hactive htickets t'

theorem settlementsByKey_isSome {ss : List QuotaSettlement}
    {byKey : GoMap QuotaBucketKey QuotaSettlement}
    (hok : ∀ s ∈ ss, validQuotaKey s.key = true ∧ 0 ≤ s.actual ∧
      ∀ o, s.observation = some o → 0 ≤ o.limit ∧ 0 ≤ o.remaining)
    (hnodup : (ss.map (·.key)).Nodup) (hnew : ∀ s ∈ ss, byKey.lookup s.key = none) :
    (settlementsByKey byKey ss).isSome = true := by
  induction ss generalizing byKey with
  | nil => rfl
  | cons s ss ih =>
    obtain ⟨hvalid, hactual, hobservation⟩ := hok s mem_cons_self
    obtain ⟨hhead, htail⟩ := nodup_cons.mp hnodup
    have hbad : (!validQuotaKey s.key || decide (s.actual < 0)) = false := by
      rw [hvalid, decide_eq_false (Int64.not_lt.mpr hactual)]
      rfl
    have hobs : (s.observation.any fun o =>
        decide (o.limit < 0) || decide (o.remaining < 0)) = false := by
      cases ho : s.observation with
      | none => rfl
      | some o =>
        obtain ⟨hlimit, hremaining⟩ := hobservation o ho
        rw [Option.any_some, decide_eq_false (Int64.not_lt.mpr hlimit),
          decide_eq_false (Int64.not_lt.mpr hremaining)]
        rfl
    unfold settlementsByKey
    rw [hbad, hnew s mem_cons_self, hobs]
    refine ih (fun s' hs' => hok s' (mem_cons_of_mem s hs')) htail fun s' hs' => ?_
    have hne : s'.key ≠ s.key := fun heq => hhead (mem_map.mpr ⟨s', hs', heq⟩)
    rw [GoMap.lookup_insert_eq, if_neg hne]
    exact hnew s' (mem_cons_of_mem s hs')

theorem reservations_perm (h : l.held t = some state) : (l.reservations t).Perm
      (state.holds.entries.map fun e => (⟨e.1, e.2.cost⟩ : QuotaReservation)) := by
  obtain ⟨hown, hlook⟩ := held_eq_some.mp h
  obtain ⟨hledger, hid⟩ := owns_iff.mp hown
  unfold reservations
  rw [if_neg (not_or.mpr ⟨not_not.mpr hledger, hid⟩), hlook]
  exact perm_insertionSort _ _

theorem reconcile_held (now : Time)
    (order : List QuotaBucketKey) (h : l.Settleable t) {f : QuotaReservation → QuotaSettlement}
    (hkey : ∀ r, (f r).key = r.key) (hactual : ∀ r, 0 ≤ (f r).actual)
    (hobservation : ∀ r o, (f r).observation = some o → 0 ≤ o.limit ∧ 0 ≤ o.remaining) :
    (l.reconcile t ((l.reservations t).map f) now order).2 = true := by
  obtain ⟨state, hheld, hvalid⟩ := h
  obtain ⟨hown, hlook⟩ := held_eq_some.mp hheld
  have hperm := reservations_perm hheld
  have hmem : ∀ r ∈ l.reservations t, ∃ hold, state.holds.lookup r.key = some hold := by
    intro r hr
    obtain ⟨e, he, rfl⟩ := mem_map.mp (hperm.mem_iff.mp hr)
    exact ⟨e.2, GoMap.mem_entries.mp he⟩
  have hkeys : ((l.reservations t).map f).map (·.key) = (l.reservations t).map (·.key) := by
    rw [map_map]
    exact map_congr_left fun r _ => hkey r
  have hnodup : (((l.reservations t).map f).map (·.key)).Nodup := by
    rw [hkeys, (hperm.map _).nodup_iff, map_map]
    exact state.holds.nodupKeys
  have hsome : (settlementsByKey ∅ ((l.reservations t).map f)).isSome = true := by
    refine settlementsByKey_isSome (fun s hs => ?_) hnodup fun s _ => AList.lookup_empty s.key
    obtain ⟨r, hr, rfl⟩ := mem_map.mp hs
    obtain ⟨hold, hhold⟩ := hmem r hr
    exact ⟨(hkey r).symm ▸ hvalid r.key hold hhold, hactual r, hobservation r⟩
  obtain ⟨byKey, hbyKey⟩ := Option.isSome_iff_exists.mp hsome
  have hall : (byKey.keys.all fun key => (state.holds.lookup key).isSome) = true := by
    refine all_eq_true.mpr fun key hin => ?_
    obtain ⟨s, hs⟩ := Option.isSome_iff_exists.mp (AList.lookup_isSome.mpr hin)
    rcases settlementsByKey_mem hbyKey hs with hempty | ⟨hin, hskey, -⟩
    · rw [AList.lookup_empty] at hempty
      cases hempty
    · obtain ⟨r, hr, rfl⟩ := mem_map.mp hin
      obtain ⟨hold, hhold⟩ := hmem r hr
      rw [← hskey, hkey, hhold]
      rfl
  have hpurged : (l.purgeExpiredLocked now).tickets.lookup t.id = some state := hlook
  unfold reconcile
  simp only [hown, hbyKey, hpurged, hall, Bool.not_true, Bool.false_eq_true, if_false, if_true]

/-! ## Room for tickets -/

theorem drawTicketID_none {tickets : GoMap UInt64 QuotaTicketState} {fuel : Nat} {next : UInt64}
    (h : drawTicketID tickets fuel next = none) :
    ∀ k, k < fuel → next + ofNat (k + 1) ∈ (0 : UInt64) :: tickets.keys := by
  induction fuel generalizing next with
  | zero => exact fun k hk => absurd hk (Nat.not_lt_zero k)
  | succ fuel ih =>
    unfold drawTicketID at h
    simp only at h
    have hfirst : next + 1 ∈ (0 : UInt64) :: tickets.keys ∧
        drawTicketID tickets fuel (next + 1) = none := by
      split at h
      · next hzero => exact ⟨hzero ▸ mem_cons_self, h⟩
      · split at h
        · next htaken => exact ⟨mem_cons_of_mem 0 (AList.lookup_isSome.mp htaken), h⟩
        · cases h
    intro k hk
    cases k with
    | zero => exact hfirst.1
    | succ k =>
      have hrest := ih hfirst.2 k (Nat.lt_of_succ_lt_succ hk)
      have hshift : next + 1 + ofNat (k + 1) = next + ofNat (k + 1 + 1) := by
        rw [UInt64.ofNat_add (k + 1) 1, UInt64.add_assoc, UInt64.add_comm 1]
        rfl
      rwa [hshift] at hrest

def ticketCount (l : QuotaLedger) : Nat := l.tickets.entries.length

theorem newTicketIDLocked_isSome (h : l.ticketCount + 2 ≤ 2 ^ 64) :
    l.newTicketIDLocked.isSome = true := by
  rw [Option.isSome_iff_ne_none]
  intro hnone
  have htaken := drawTicketID_none hnone
  let ids := (List.range (l.tickets.entries.length + 2)).map fun k => l.nextTicketID + ofNat (k + 1)
  have hnodup : ids.Nodup := by
    refine List.Nodup.map_on (fun a ha b hb heq => ?_) nodup_range
    have ha' := mem_range.mp ha
    have hb' := mem_range.mp hb
    have hofNat := congrArg UInt64.toNat (UInt64.add_right_inj _ |>.mp heq)
    rw [toNat_ofNat', toNat_ofNat'] at hofNat
    unfold ticketCount at h
    omega
  have hsubset : ids ⊆ (0 : UInt64) :: l.tickets.keys := by
    intro id hid
    obtain ⟨k, hk, rfl⟩ := mem_map.mp hid
    exact htaken k (mem_range.mp hk)
  have hlength := (subperm_of_subset hnodup hsubset).length_le
  simp only [ids, length_map, length_range, length_cons, AList.keys, List.keys] at hlength
  omega

theorem reserveAll_isSome {l : QuotaLedger} (rs : List QuotaReservation) (now : Time)
    (order : List QuotaBucketKey) (h : l.ticketCount + 2 ≤ 2 ^ 64) :
    (l.reserveAll rs now order).isSome = true := by
  unfold reserveAll
  split
  · rfl
  next amounts _ =>
  simp only
  split
  · obtain ⟨-, -, htickets, -⟩ :=
      reserveHolds_fields (l.purgeExpiredLocked now) ∅ (amounts.range order)
    have hroom : ((l.purgeExpiredLocked now).reserveHolds ∅ (amounts.range order)).1.ticketCount
        + 2 ≤ 2 ^ 64 := by
      unfold ticketCount
      rw [htickets]
      exact h
    obtain ⟨id, hid⟩ := Option.isSome_iff_exists.mp (newTicketIDLocked_isSome hroom)
    rw [hid]
    rfl
  · rfl

theorem step_ticketCount {i : Op} {o : Res} (hs : l.step i = some (l', o)) :
    l'.ticketCount ≤ l.ticketCount + if o.issued.isSome then 1 else 0 := by
  unfold ticketCount
  cases (step_tickets hs).2 with
  | idle htickets => rw [htickets]; exact Nat.le_add_right _ _
  | issue id state hissued hdraw htickets =>
    rw [htickets, hissued, GoMap.entries_insert_of_lookup (drawTicketID_spec hdraw).2]
    exact Nat.le_refl _
  | consume t hused hdone hactive htickets =>
    rw [htickets]
    refine Nat.le_add_right_of_le ?_
    exact (kerase_sublist t.id l.tickets.entries).length_le

theorem run_ticketCount (h : Machine.Run step l es l') :
    l'.ticketCount ≤ l.ticketCount + granted es := by
  induction h with
  | start => exact Nat.le_refl _
  | @next tr s s' i o _ hs ih =>
    rw [granted_snoc, ← Nat.add_assoc]
    exact (step_ticketCount hs).trans (Nat.add_le_add_right ih _)

end QuotaLedger

end CalvoProxy
