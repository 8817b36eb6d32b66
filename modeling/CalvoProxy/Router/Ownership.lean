import CalvoProxy.Router.Steps

/-!
# Who owns a ticket

`Owned`: each open ticket is that of the running attempt (`extra`), of an attempt still to come, or
of one passed over. `Accounted`: the log is a run of the ledger that reconciled as many tickets as
requests were sent.
-/

namespace CalvoProxy

open List Option QuotaLedger World Int64

open QuotaLedger (LedgerEvent Consumes)

variable {e : LedgerEvent} {es : List LedgerEvent} {w' w1 w : World} {t : QuotaTicket}
  {l0 : QuotaLedger} {settlements : List QuotaSettlement} {tick : Tick} {cfg : Settings}
  {attempt : ModelAttempt}

/-! ## The calls of a request -/

def Effect.call : Effect → Option LedgerEvent
  | .ledger e => some e
  | _ => none

def World.calls (w : World) : List LedgerEvent := w.log.filterMap Effect.call

def Reconciles (t : QuotaTicket) (e : LedgerEvent) : Bool :=
  match e.input, e.output with
  | .reconcile t' _ _ _, .done true => t' = t
  | _, _ => false

def Releases (t : QuotaTicket) (e : LedgerEvent) : Bool :=
  match e.input, e.output with
  | .release t' _ _, .done true => t' = t
  | _, _ => false

/-- How often the calls settled `t`. -/
def reconciled (t : QuotaTicket) (es : List LedgerEvent) : Nat := es.countP (Reconciles t)

def released (t : QuotaTicket) (es : List LedgerEvent) : Nat := es.countP (Releases t)

theorem consumes_cases (t : QuotaTicket) (e : LedgerEvent) : (if Consumes t e then 1 else 0) =
      (if Reconciles t e then 1 else 0) + (if Releases t e then 1 else 0) := by
  obtain ⟨before, input, output⟩ := e
  cases input <;> cases output <;> simp only [Consumes, Reconciles, Releases, Op.uses] <;> grind

theorem consumed_eq (t : QuotaTicket) (es : List LedgerEvent) :
    consumed t es = reconciled t es + released t es := by
  induction es with
  | nil => rfl
  | cons e es ih =>
    have hcase := consumes_cases t e
    simp only [consumed, reconciled, released, countP_cons, decide_eq_true_eq] at ih ⊢
    omega

def Inert (e : LedgerEvent) : Prop := e.output.issued = none ∧ ∀ t, ¬Consumes t e

theorem QuietCall.inert (h : QuietCall e) : Inert e :=
  ⟨h.1, fun _ hc => nomatch h.2.symm.trans hc.1⟩

theorem reconciled_of_inert (h : ∀ e ∈ es, Inert e) (t : QuotaTicket) : reconciled t es = 0 := by
  refine countP_eq_zero.mpr fun e he hrec => (h e he).2 t ?_
  by_contra hnot
  have hcase := consumes_cases t e
  rw [if_neg hnot, if_pos hrec] at hcase
  omega

/-! ## Steps that leave the tickets alone -/

structure Idle (w w' : World) : Prop where
  calls : ∃ es, Machine.Run step w.service.quota es w'.service.quota ∧
    w'.calls = w.calls ++ es ∧ ∀ e ∈ es, Inert e
  sent : w'.sent = w.sent
  attempts : w'.attempts = w.attempts

theorem QuotaRun.calls (h : QuotaRun w w' es) : w'.calls = w.calls ++ es := by
  have hcalls : (es.map Effect.ledger).filterMap Effect.call = es := by
    rw [filterMap_map]
    exact filterMap_some
  unfold World.calls
  rw [h.log, filterMap_append, hcalls]

namespace Idle

variable {w'' : World}

theorem ofEq (hquota : w'.service.quota = w.service.quota) (hcalls : w'.calls = w.calls)
    (hsent : w'.sent = w.sent) (hattempts : w'.attempts = w.attempts) : Idle w w' :=
  ⟨⟨[], hquota ▸ .start, by rw [hcalls, append_nil], fun _ h => (nomatch h)⟩, hsent, hattempts⟩

theorem refl (w : World) : Idle w w := ofEq rfl rfl rfl rfl

theorem trans (h : Idle w w') (h' : Idle w' w'') : Idle w w'' := by
  obtain ⟨es, hrun, hcalls, hinert⟩ := h.calls
  obtain ⟨es', hrun', hcalls', hinert'⟩ := h'.calls
  refine ⟨⟨es ++ es', hrun.append hrun', ?_, fun e he => ?_⟩, h'.sent.trans h.sent,
    h'.attempts.trans h.attempts⟩
  · rw [hcalls', hcalls, append_assoc]
  · rcases mem_append.mp he with he | he
    · exact hinert e he
    · exact hinert' e he

theorem ofReads (h : Reads w w') : Idle w w' := by
  obtain ⟨es, hrun, hquiet⟩ := h.calls
  exact ⟨⟨es, hrun.run, hrun.calls, fun e he => (hquiet e he).inert⟩, (Untouched.ofRun hrun).sent,
    h.attempts⟩

theorem act (cfg : Settings) (attempt : ModelAttempt) (now : Time) (action : BreakerAction)
    (w : World) : Idle w (w.act cfg attempt now action) := by
  refine ofEq (act_quota cfg attempt now action w) ?_ (sent_act _ _ _ _ w) rfl
  unfold World.calls World.act
  rw [filterMap_append]
  exact append_nil _

theorem emit {e : Effect} (hcall : e.call = none) (hsent : e.sentTicket = none) (w : World) :
    Idle w (w.emit e) := by
  refine ofEq rfl ?_ ?_ rfl
  · unfold World.calls World.emit
    rw [filterMap_append, filterMap_cons_none hcall]
    exact append_nil _
  · rw [sent_emit, hsent]
    exact append_nil _

theorem held (h : Idle w w') : w'.service.quota.self = w.service.quota.self ∧
    ∀ t, w'.service.quota.held t = w.service.quota.held t := by
  obtain ⟨es, hrun, -, hinert⟩ := h.calls
  refine hrun.invariant (Q := Inert) (P := fun l => l.self = w.service.quota.self ∧
    ∀ t, l.held t = w.service.quota.held t) ?_ ⟨rfl, fun _ => rfl⟩ hinert
  intro l op l' res ih hq hstep
  obtain ⟨hself, hticket⟩ := step_tickets hstep
  refine ⟨hself.trans ih.1, ?_⟩
  cases hticket with
  | idle htickets => exact fun t => (held_congr hself htickets t).trans (ih.2 t)
  | issue id state hissued => exact nomatch hq.1.symm.trans hissued
  | consume t hused hdone => exact absurd ⟨hused, hdone⟩ (hq.2 t)

end Idle

theorem Calm.idle (h : Calm w w') : Idle w w' := by
  induction h with
  | refl w => exact .refl w
  | trans _ _ ih ih' => exact ih.trans ih'
  | act cfg attempt now action w => exact .act cfg attempt now action w
  | head status w => exact .emit rfl rfl w
  | reads h => exact .ofReads h
  | service w h => exact .ofEq h rfl rfl rfl

theorem Reserves.draws (h : Reserves w w' (some t)) : ∃ state, ValidState state ∧ t.valid = true ∧
      w'.service.quota.self = w.service.quota.self ∧ w.service.quota.held t = none ∧
      ∀ t', w'.service.quota.held t' = if t' = t then some state else w.service.quota.held t' := by
  obtain ⟨hread, hreserve⟩ := h
  obtain ⟨hself, hheld⟩ := (Idle.ofReads hread).held
  obtain ⟨⟨quota, ticket⟩, hledger, heq⟩ := map_eq_some_iff.mp hreserve
  cases heq
  obtain ⟨state, hstate, hvalid, hself', hfree, hheld'⟩ := reserveAll_issues hledger
  refine ⟨state, fun key hold hlook => (hstate key hold hlook).1, hvalid, hself'.trans hself,
    (hheld t).symm.trans hfree, fun t' => ?_⟩
  rw [← hheld t']
  exact hheld' t'

/-! ## Sent and settled -/

def IssuesFresh (l0 : QuotaLedger) (e : LedgerEvent) : Prop :=
  ∀ t, e.output.issued = some t → l0.held t = none

theorem issuesFresh_of_none (h : e.output.issued = none) :
    IssuesFresh l0 e := fun _ ht => nomatch h.symm.trans ht

/-- Every request that was sent had its ticket settled, and no ticket was issued that was held on
`l0`. -/
structure Accounted (l0 : QuotaLedger) (w w' : World) : Prop where
  run : ∃ es sent, Machine.Run step w.service.quota es w'.service.quota ∧
    w'.calls = w.calls ++ es ∧ w'.sent = w.sent ++ sent ∧
    (∀ t, reconciled t es = sent.count t) ∧ ∀ e ∈ es, IssuesFresh l0 e

namespace Accounted

variable {w'' : World}

theorem ofIdle (h : Idle w w') : Accounted l0 w w' := by
  obtain ⟨es, hrun, hcalls, hinert⟩ := h.calls
  exact ⟨es, [], hrun, hcalls, by rw [h.sent, append_nil], reconciled_of_inert hinert,
    fun e he => issuesFresh_of_none (hinert e he).1⟩

theorem trans (h : Accounted l0 w w') (h' : Accounted l0 w' w'') : Accounted l0 w w'' := by
  obtain ⟨es, sent, hrun, hcalls, hsent, hcount, hfresh⟩ := h.run
  obtain ⟨es', sent', hrun', hcalls', hsent', hcount', hfresh'⟩ := h'.run
  refine ⟨es ++ es', sent ++ sent', hrun.append hrun', ?_, ?_, fun t => ?_, fun e he => ?_⟩
  · rw [hcalls', hcalls, append_assoc]
  · rw [hsent', hsent, append_assoc]
  · rw [reconciled, countP_append, count_append, ← hcount t, ← hcount' t]
    rfl
  · exact (mem_append.mp he).elim (hfresh e) (hfresh' e)

theorem plan (w : World) (attempts : List ModelAttempt) (unavailable : List Nat) :
    Accounted l0 w { w with attempts := attempts, unavailable := unavailable } :=
  ⟨[], [], .start, (append_nil _).symm, (append_nil _).symm, fun _ => rfl, fun _ h => (nomatch h)⟩

theorem calls (h : QuotaRun w w' es)
    (hnot : ∀ e ∈ es, ∀ t, Reconciles t e = false) (hfresh : ∀ e ∈ es, IssuesFresh l0 e) :
    Accounted l0 w w' := by
  refine ⟨es, [], h.run, h.calls, ?_, fun t => ?_, hfresh⟩
  · rw [(Untouched.ofRun h).sent, append_nil]
  · refine countP_eq_zero.mpr fun e he => ?_
    rw [hnot e he t]
    exact Bool.false_ne_true

theorem reconciles_of_not_used (h : e.input.uses = none) (t : QuotaTicket) :
    Reconciles t e = false := by
  unfold Reconciles
  split
  · next hinput _ =>
    rw [hinput] at h
    cases h
  · rfl

theorem reserves (h : Reserves w w' (some t)) (hfresh : l0.held t = none) : Accounted l0 w w' := by
  obtain ⟨es, e, hrun, hquiet, hissued, huses⟩ := h.calls
  refine .calls hrun (fun e' he' => ?_) (fun e' he' => ?_)
  · rcases mem_append.mp he' with hold | hnew
    · exact reconciles_of_not_used (hquiet e' hold).2
    · cases mem_singleton.mp hnew
      exact reconciles_of_not_used huses
  · rcases mem_append.mp he' with hold | hnew
    · exact issuesFresh_of_none (hquiet e' hold).1
    cases mem_singleton.mp hnew
    intro t' ht'
    cases hissued.symm.trans ht'
    exact hfresh

theorem released (w : World) (t : QuotaTicket) (tick : Tick) :
    Accounted l0 w (w.release t tick) := by
  refine .calls (.release w t tick) (fun e he => ?_) (fun e he => ?_)
  · cases mem_singleton.mp he
    exact fun _ => rfl
  · cases mem_singleton.mp he
    exact issuesFresh_of_none rfl

theorem settled (h : Idle (w.emit (.send t)) w1)
    (hok : (w1.service.quota.reconcile t settlements tick.now tick.order).2 = true) :
    Accounted l0 w (w1.reconcile t settlements tick) := by
  obtain ⟨es, hrun, hcalls, hinert⟩ := h.calls
  have hcall := QuotaRun.reconcile w1 t settlements tick
  rw [hok] at hcall
  have hemit : (w.emit (.send t)).calls = w.calls := by
    unfold World.calls World.emit
    rw [filterMap_append]
    exact append_nil _
  refine ⟨es ++ [_], [t], hrun.append hcall.run, ?_, ?_, fun t' => ?_, fun e he => ?_⟩
  · rw [hcall.calls, hcalls, hemit, append_assoc]
  · rw [(Untouched.ofRun hcall).sent, h.sent, sent_emit]
    rfl
  · rw [reconciled, countP_append, ← reconciled, reconciled_of_inert hinert t',
      countP_singleton, count_singleton]
    simp [Reconciles, beq_iff_eq]
  · rcases mem_append.mp he with hold | hnew
    · exact issuesFresh_of_none (hinert e hold).1
    · cases mem_singleton.mp hnew
      exact issuesFresh_of_none rfl

end Accounted

/-- The tickets that the attempts from position `i` on carry. -/
def ticketsFrom (attempts : List ModelAttempt) (i : Nat) : List QuotaTicket :=
  ((attempts.drop i).map (·.quotaTicket)).filter (·.valid)

theorem ticketsFrom_sublist (attempts : List ModelAttempt) {i j : Nat} (h : i ≤ j) :
    ticketsFrom attempts j <+ ticketsFrom attempts i :=
  ((drop_sublist_drop_left attempts h).map _).filter _

theorem ticketsFrom_getElem {attempts : List ModelAttempt} {i : Nat} {a : ModelAttempt}
    (h : attempts[i]? = some a) (hvalid : a.quotaTicket.valid = true) :
    ticketsFrom attempts i = a.quotaTicket :: ticketsFrom attempts (i + 1) := by
  obtain ⟨hlt, rfl⟩ := List.getElem?_eq_some_iff.mp h
  unfold ticketsFrom
  rw [drop_eq_getElem_cons hlt, map_cons, filter_cons_of_pos hvalid]

theorem ticketsFrom_set {attempts : List ModelAttempt} {i j : Nat} {c : ModelAttempt} (hj : i ≤ j)
    (hc : attempts[j]? = some c) (hnone : c.quotaTicket.valid = false) (hvalid : t.valid = true) :
    (ticketsFrom (attempts.set j { c with quotaTicket := t }) i).Perm
      (t :: ticketsFrom attempts i) := by
  have hset : ∀ (l : List ModelAttempt) (k : Nat), l[k]? = some c →
      (((l.set k { c with quotaTicket := t }).map (·.quotaTicket)).filter (·.valid)).Perm
        (t :: (l.map (·.quotaTicket)).filter (·.valid)) := by
    intro l
    induction l with
    | nil => exact fun k hk => by cases hk
    | cons b l ih =>
      intro k hk
      cases k with
      | zero =>
        cases hk
        simp [hvalid, hnone]
      | succ k =>
        simp only [set_cons_succ, map_cons, filter_cons]
        split
        · exact ((ih k hk).cons _).trans (.swap _ _ _)
        · exact ih k hk
  unfold ticketsFrom
  rw [drop_set, if_neg (Nat.not_lt.mpr hj)]
  refine hset _ _ ?_
  rw [List.getElem?_drop, Nat.add_sub_cancel' hj]
  exact hc

structure Owned (l0 : QuotaLedger) (i : Nat) (extra : Option QuotaTicket) (w : World) : Prop where
  self : w.service.quota.self = l0.self
  /-- The tickets of others are not touched. -/
  keeps : ∀ t, (l0.held t).isSome = true → w.service.quota.held t = l0.held t
  /-- Every other ticket that is held has an owner. -/
  covers : ∀ t, (w.service.quota.held t).isSome = true →
    (l0.held t).isSome = true ∨ t ∈ extra.toList ++ ticketsFrom w.attempts 0
  fresh : ∀ t ∈ extra.toList ++ ticketsFrom w.attempts 0, l0.held t = none
  /-- The tickets still needed can be settled, and no two owners share one. -/
  settleable : ∀ t ∈ extra.toList ++ ticketsFrom w.attempts i, w.service.quota.Settleable t
  nodup : (extra.toList ++ ticketsFrom w.attempts i).Nodup

namespace Owned

variable {i : Nat} {extra : Option QuotaTicket}

theorem congr (h : Owned l0 i extra w) (hattempts : w'.attempts = w.attempts)
    (hself : w'.service.quota.self = w.service.quota.self)
    (hheld : ∀ t, w'.service.quota.held t = w.service.quota.held t) : Owned l0 i extra w' where
  self := hself.trans h.self
  keeps t ht := (hheld t).trans (h.keeps t ht)
  covers t ht := hattempts ▸ h.covers t (hheld t ▸ ht)
  fresh := hattempts ▸ h.fresh
  settleable t ht := by
    obtain ⟨state, hstate, hvalid⟩ := h.settleable t (hattempts ▸ ht)
    exact ⟨state, (hheld t).trans hstate, hvalid⟩
  nodup := hattempts ▸ h.nodup

theorem idle (h : Owned l0 i extra w) (hidle : Idle w w') : Owned l0 i extra w' :=
  h.congr hidle.attempts hidle.held.1 hidle.held.2

theorem start (hself : w.service.quota.self = l0.self)
    (hheld : ∀ t, w.service.quota.held t = l0.held t)
    (hnone : ticketsFrom w.attempts 0 = []) : Owned l0 0 none w where
  self := hself
  keeps t _ := hheld t
  covers t ht := .inl (hheld t ▸ ht)
  fresh t ht := by simp [hnone] at ht
  settleable t ht := by simp [hnone] at ht
  nodup := by simp [hnone]

theorem skip (h : Owned l0 i extra w) : Owned l0 (i + 1) extra w :=
  have hless := (ticketsFrom_sublist w.attempts (Nat.le_succ i)).append_left extra.toList
  ⟨h.self, h.keeps, h.covers, h.fresh, fun t ht => h.settleable t (hless.subset ht),
    h.nodup.sublist hless⟩

theorem take {a : ModelAttempt} (h : Owned l0 i none w) (ha : w.attempts[i]? = some a)
    (hvalid : a.quotaTicket.valid = true) : Owned l0 (i + 1) (some a.quotaTicket) w := by
  have hsplit := ticketsFrom_getElem ha hvalid
  have hin : a.quotaTicket ∈ ticketsFrom w.attempts 0 :=
    (ticketsFrom_sublist w.attempts (Nat.zero_le i)).subset (hsplit ▸ mem_cons_self)
  refine ⟨h.self, h.keeps, fun t ht => (h.covers t ht).imp_right (mem_append_right _),
    fun t ht => ?_, fun t ht => h.settleable t (hsplit ▸ ht), ?_⟩
  · rcases mem_cons.mp ht with rfl | ht
    · exact h.fresh _ hin
    · exact h.fresh t ht
  · have hnodup := h.nodup
    rw [hsplit] at hnodup
    exact hnodup

theorem draw {state : QuotaTicketState} (h : Owned l0 i none w)
    (hattempts : w'.attempts = w.attempts)
    (hself : w'.service.quota.self = w.service.quota.self) (hfree : w.service.quota.held t = none)
    (hvalid : ValidState state)
    (hheld : ∀ t', w'.service.quota.held t' =
      if t' = t then some state else w.service.quota.held t') : Owned l0 i (some t) w' := by
  -- nobody else can own a ticket that was free
  have hother : ∀ t', (∃ s, w.service.quota.held t' = some s) → t' ≠ t := by
    rintro t' ⟨s, hs⟩ rfl
    exact nomatch hfree.symm.trans hs
  have hunowned : ∀ t' ∈ ticketsFrom w.attempts i, t' ≠ t := fun t' ht' =>
    hother t' ((h.settleable t' ht').imp fun _ => And.left)
  refine ⟨hself.trans h.self, fun t' ht' => ?_, fun t' ht' => ?_, fun t' ht' => ?_,
    fun t' ht' => ?_, ?_⟩
  · have hkept := h.keeps t' ht'
    obtain ⟨s, hs⟩ := isSome_iff_exists.mp ht'
    rw [hheld, if_neg (hother t' ⟨s, hkept.trans hs⟩), hkept]
  · rw [hattempts]
    by_cases heq : t' = t
    · exact .inr (heq ▸ mem_cons_self)
    rw [hheld, if_neg heq] at ht'
    exact (h.covers t' ht').imp_right (mem_cons_of_mem t)
  · rw [hattempts] at ht'
    rcases mem_cons.mp ht' with rfl | ht'
    · by_contra hold
      exact hold ((h.keeps t' (isSome_iff_ne_none.mpr hold)).symm.trans hfree)
    · exact h.fresh t' ht'
  · rw [hattempts] at ht'
    rcases mem_cons.mp ht' with rfl | ht'
    · exact ⟨state, by rw [hheld, if_pos rfl], hvalid⟩
    · obtain ⟨s, hs, hsvalid⟩ := h.settleable t' ht'
      exact ⟨s, by rw [hheld, if_neg (hunowned t' ht'), hs], hsvalid⟩
  · rw [hattempts]
    exact nodup_cons.mpr ⟨fun hin => hunowned t hin rfl, h.nodup⟩

theorem consume (h : Owned l0 i (some t) w) (hattempts : w'.attempts = w.attempts)
    (hself : w'.service.quota.self = w.service.quota.self)
    (hheld : ∀ t', w'.service.quota.held t' = if t' = t then none else w.service.quota.held t') :
    Owned l0 i none w' := by
  obtain ⟨hlast, hnodup⟩ := nodup_cons.mp h.nodup
  have hne : ∀ t', t' ≠ t → w'.service.quota.held t' = w.service.quota.held t' :=
    fun t' ht' => (hheld t').trans (if_neg ht')
  refine ⟨hself.trans h.self, fun t' ht' => ?_, fun t' ht' => ?_, fun t' ht' => ?_,
    fun t' ht' => ?_, hattempts ▸ hnodup⟩
  · refine (hne t' ?_).trans (h.keeps t' ht')
    rintro rfl
    rw [h.fresh t' mem_cons_self] at ht'
    cases ht'
  · have heq : t' ≠ t := by
      rintro rfl
      rw [hheld, if_pos rfl] at ht'
      cases ht'
    rw [hne t' heq] at ht'
    rw [hattempts]
    exact (h.covers t' ht').imp_right fun hin => (mem_cons.mp hin).resolve_left heq
  · exact h.fresh t' (mem_cons_of_mem t (hattempts ▸ ht'))
  · rw [hattempts] at ht'
    obtain ⟨s, hs, hvalid⟩ := h.settleable t' (mem_cons_of_mem t ht')
    exact ⟨s, (hne t' fun heq => hlast (heq ▸ ht')).trans hs, hvalid⟩

theorem place {j : Nat} {c : ModelAttempt} (h : Owned l0 i (some t) w) (hj : i ≤ j)
    (hc : w.attempts[j]? = some c) (hnone : c.quotaTicket.valid = false) (hvalid : t.valid = true) :
    Owned l0 i none { w with attempts := w.attempts.set j { c with quotaTicket := t } } := by
  have hall := ticketsFrom_set (Nat.zero_le j) hc hnone hvalid
  have hrest := ticketsFrom_set hj hc hnone hvalid
  exact ⟨h.self, h.keeps, fun t' ht' => (h.covers t' ht').imp_right hall.mem_iff.mpr,
    fun t' ht' => h.fresh t' (hall.mem_iff.mp ht'),
    fun t' ht' => h.settleable t' (hrest.mem_iff.mp ht'), hrest.nodup_iff.mpr h.nodup⟩

/-! ### Steps of the world -/

theorem reserves (h : Owned l0 i none w) (hreserves : Reserves w w' (some t)) :
    Owned l0 i (some t) w' ∧ t.valid = true := by
  obtain ⟨state, hstate, hvalid, hself, hfree, hheld⟩ := hreserves.draws
  exact ⟨h.draw hreserves.attempts hself hfree hstate hheld, hvalid⟩

theorem released (h : Owned l0 i (some t) w) (tick : Tick) : Owned l0 i none (w.release t tick) :=
  have htickets := w.service.quota.release_tickets t tick.now tick.order
  h.consume rfl htickets.1 htickets.2

theorem reconciled (h : Owned l0 i (some t) w)
    (hok : (w.service.quota.reconcile t settlements tick.now tick.order).2 = true) :
    Owned l0 i none (w.reconcile t settlements tick) := by
  have hstep : w.service.quota.step (.reconcile t settlements tick.now tick.order) =
    some ((w.service.quota.reconcile t settlements tick.now tick.order).1,
      .done (w.service.quota.reconcile t settlements tick.now tick.order).2) := rfl
  obtain ⟨hself, hticket⟩ := step_tickets hstep
  cases hticket with
  | idle _ _ _ hused => exact nomatch hok.symm.trans (Res.done.inj (hused t rfl).1)
  | issue _ _ _ _ _ _ hused => cases hused
  | consume t' hused _ hactive htickets _ =>
    cases hused
    exact h.consume rfl hself (held_consume hself hactive htickets)

end Owned

def EstimateFits (cfg : Settings) (attempt : ModelAttempt) (body : RequestBody) : Prop :=
  let estimate := providerQuotaEstimate cfg attempt (estimateRequestQuota cfg body)
  estimate.inputTokens.toInt + estimate.outputTokens.toInt < 2 ^ 63

theorem estimateRequestQuota_spec (cfg : Settings) (body : RequestBody) :
    let estimate := estimateRequestQuota cfg body
    estimate.requests = 1 ∧ 0 < estimate.inputTokens ∧
      estimate.tokens = estimate.inputTokens + estimate.outputTokens ∧
      (estimate.outputExplicit = true → 0 ≤ estimate.outputTokens) := by
  have hinput : ∀ n : Int64, 0 < if n < 1 then 1 else n := by
    intro n
    split
    · decide
    · next hn =>
      rw [Int64.not_lt] at hn
      exact Int64.lt_of_lt_of_le (by decide) hn
  unfold estimateRequestQuota
  simp only
  split
  · next output rest hfilter =>
    refine ⟨rfl, hinput _, rfl, fun _ => ?_⟩
    have hmem : output ∈ [body.maxCompletionTokens, body.maxTokens].filterMap
        (·.filter (0 ≤ ·)) := hfilter ▸ mem_cons_self
    obtain ⟨v, -, hv⟩ := mem_filterMap.mp hmem
    exact of_decide_eq_true (filter_eq_some_iff.mp hv).2
  · exact ⟨rfl, hinput _, rfl, fun h => nomatch h⟩

theorem EstimateFits.nonneg {body : RequestBody} (h : EstimateFits cfg attempt body) :
    let estimate := providerQuotaEstimate cfg attempt (estimateRequestQuota cfg body)
    0 ≤ estimate.requests ∧ 0 ≤ estimate.tokens := by
  obtain ⟨hrequests, hinput, htokens, hexplicit⟩ := estimateRequestQuota_spec cfg body
  unfold EstimateFits at h
  generalize estimateRequestQuota cfg body = base at *
  -- the output is never negative, so the sum is the exact one
  have hsum : ∀ output : Int64, 0 ≤ output → base.inputTokens.toInt + output.toInt < 2 ^ 63 →
      0 ≤ base.inputTokens + output := by
    intro output houtput hfits
    have hin : 0 ≤ base.inputTokens.toInt := (Int64.le_def _ _).mp (Int64.le_of_lt hinput)
    have hout : 0 ≤ output.toInt := (le_def _ _).mp houtput
    rw [le_def, toInt_add_of_lt hin hout hfits]
    exact Int.add_nonneg hin hout
  have hclamp : ∀ n : Int64, 0 ≤ if n < 0 then 0 else n := by
    intro n
    split
    · decide
    · next hneg => exact Int64.not_lt.mp hneg
  unfold providerQuotaEstimate at h ⊢
  split at h
  · next hkept =>
    rw [if_pos hkept]
    have hout : base.outputExplicit = true := by
      rcases Bool.or_eq_true_iff.mp hkept with hyes | hno
      · exact hyes
      · exact absurd (of_decide_eq_true hno) (Int64.not_le.mpr hinput)
    refine ⟨by rw [hrequests]; decide, ?_⟩
    show 0 ≤ base.tokens
    rw [htokens]
    exact hsum _ (hexplicit hout) h
  · next hreplaced =>
    rw [if_neg hreplaced]
    exact ⟨by rw [hrequests]; decide, hsum _ (hclamp _) h⟩

theorem observeFacts_nonneg {cfg : Settings} {credential : String} {now : Time}
    {os : List ProviderQuotaObservation} (hos : ∀ o ∈ os, o.NonNeg)
    {facts : GoMap QuotaBucketKey QuotaObservation}
    (hfacts : ∀ key fact, facts.lookup key = some fact → 0 ≤ fact.limit ∧ 0 ≤ fact.remaining)
    (w : World) : ∀ key fact,
      (observeFacts cfg credential now os facts w).2.lookup key = some fact →
        0 ≤ fact.limit ∧ 0 ≤ fact.remaining := by
  induction os generalizing facts w with
  | nil => exact hfacts
  | cons o os ih =>
    have hrest := fun o' ho' => hos o' (mem_cons_of_mem o ho')
    unfold observeFacts
    split
    · exact ih hrest hfacts w
    next key fact hfact =>
    obtain ⟨hlimit, hremaining⟩ := (hos o mem_cons_self).ledgerFact hfact
    refine ih hrest (fun key' fact' hlook => ?_) _
    rw [GoMap.lookup_insert_eq] at hlook
    split at hlook
    · rw [← Option.some.inj hlook]
      split <;> exact ⟨hlimit, hremaining⟩
    · exact hfacts key' fact' hlook

theorem Owned.settle {i : Nat} {credential : String} {status : Int}
    {header : String → String} {body : ErrorBody} {actualTokens : Int64}
    (h : Owned l0 i (some t) w1) (hvalid : t.valid = true) (hsent : Idle (w.emit (.send t)) w1)
    (hestimate : 0 ≤ attempt.quotaEstimate.requests ∧ 0 ≤ attempt.quotaEstimate.tokens) :
    let w' := (w1.observeAndSettleQuota cfg t attempt credential status header body actualTokens
      tick).1
    Owned l0 i none w' ∧ Accounted l0 w w' := by
  intro w'
  have hread := Idle.ofReads (Reads.observeFacts cfg credential tick.now
    (observeProviderQuota cfg attempt.provider attempt.model status header body tick.now) ∅ w1)
  have hfacts := @observeFacts_nonneg cfg credential tick.now _
    (observeProviderQuota_nonneg cfg attempt.provider attempt.model status header body tick.now) ∅
    (fun key fact hlook => by rw [AList.lookup_empty] at hlook; exact nomatch hlook) w1
  have heq := congrArg Prod.fst (observeAndSettleQuota_eq cfg t attempt credential status
    header body actualTokens tick w1)
  rw [if_pos hvalid] at heq
  generalize observeFacts cfg credential tick.now
    (observeProviderQuota cfg attempt.provider attempt.model status header body tick.now) ∅ w1 =
    observed at hread hfacts heq
  have howned := h.idle hread
  have hok := reconcile_held tick.now tick.order (howned.settleable t mem_cons_self)
    (f := settlementFor attempt actualTokens observed.2) (fun _ => rfl) (fun r => ?_)
    fun r o ho => hfacts r.key o ho
  · show Owned l0 i none (observeAndSettleQuota _ _ _ _ _ _ _ _ _ _).1 ∧
      Accounted l0 w (observeAndSettleQuota _ _ _ _ _ _ _ _ _ _).1
    rw [heq]
    exact ⟨howned.reconciled hok, .settled (hsent.trans hread) hok⟩
  · unfold settlementFor
    simp only
    split
    · split
      · exact hestimate.2
      · next hpos => exact Int64.le_of_lt (Int64.not_le.mp hpos)
    · exact hestimate.1

end CalvoProxy
