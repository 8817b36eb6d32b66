import CalvoProxy.Quota.Isolation
import Mathlib.Logic.Function.Basic

/-!
# Responses that are settled out of order

A provider stamps its responses, in the order in which it serves the requests, with what is left,
and the ledger takes the stamp. Settled in this order, no more than `limit` reservations are
admitted (`admitted_le_limit`); a late response brings back what was spent since.
-/

namespace CalvoProxy

open List Machine Option Function Int64 GoMap

variable {id : UInt64} {left' : Nat} {o : Res} {t' : QuotaTicket} {order : List QuotaBucketKey}
  {now : Time}

namespace QuotaLedger

variable {l l' : QuotaLedger} {key : QuotaBucketKey} {a : Addr} {b : QuotaBucket}

/-! ## Tickets for one request -/

def oneHold (key : QuotaBucketKey) (a : Addr) : GoMap QuotaBucketKey QuotaHold :=
  AList.insert key ⟨key, 1, some a⟩ ∅

def oneSettlement (key : QuotaBucketKey) (o : QuotaObservation) :
    GoMap QuotaBucketKey QuotaSettlement :=
  AList.insert key ⟨key, 1, some o⟩ ∅

structure Shows (l : QuotaLedger) (key : QuotaBucketKey) (a : Addr) (b : QuotaBucket) : Prop where
  pointer : l.buckets.lookup key = some a
  object : l.heap[a]? = some b

section

variable (h : l.Shows key a b)
include h

theorem Shows.bucketOf : l.bucketOf key = some b :=
  bucketOf_eq_some.mpr ⟨a, h.pointer, h.object⟩

theorem Shows.purge (hlive : expired b.observation now = false) :
    (l.purgeExpiredLocked now).Shows key a b where
  pointer := lookup_purge.mpr ⟨h.pointer, fun b' hb' => by
    cases h.bucketOf.symm.trans hb'
    exact hlive⟩
  object := h.object

theorem Shows.update (f : QuotaBucket → QuotaBucket) :
    (l.updateBucket (some a) f).Shows key a (f b) where
  pointer := h.pointer
  object := by rw [getElem?_updateBucket, if_pos rfl, h.object, map_some]

theorem Shows.store (o : QuotaObservation) :
    (l.storeObservation key o).Shows key a { b with observation := o } := by
  have hstore : l.storeObservation key o =
      l.updateBucket (some a) fun b => { b with observation := o } := by
    unfold storeObservation
    rw [h.pointer]
    rfl
  rw [hstore]
  exact h.update _

end

theorem range_oneHold (key : QuotaBucketKey) (a : Addr) (order : List QuotaBucketKey) :
    (oneHold key a).range order = [⟨key, ⟨key, 1, some a⟩⟩] := rfl

theorem pendingOn_oneHold (key : QuotaBucketKey) (a : Addr) :
    pendingOn a (QuotaTicketState.mk (oneHold key a)).holds.entries = 1 := by
  simp [oneHold, pendingOn, heldBy]

theorem active_iff {t : QuotaTicket} : l.active t = true ↔
    l.owns t = true ∧ ∃ state, l.tickets.lookup t.id = some state := by
  rw [active, Bool.and_eq_true, isSome_iff_exists]

/-- A call leaves the tickets as they are, issues one for one request, or uses up the ticket `gone`;
`d` is the change of what is held. -/
inductive Trades (key : QuotaBucketKey) (a : Addr) (l l' : QuotaLedger) :
    Option QuotaTicket → Int → Prop
  | keeps (hself : l'.self = l.self) (h : l'.tickets = l.tickets) : Trades key a l l' none 0
  | issues {id : UInt64} (hself : l'.self = l.self) (hfree : l.tickets.lookup id = none)
      (h : l'.tickets = l.tickets.insert id ⟨oneHold key a⟩) : Trades key a l l' none 1
  | uses {t : QuotaTicket} (hself : l'.self = l.self) (hown : l.owns t = true)
      (hstate : l.tickets.lookup t.id = some ⟨oneHold key a⟩)
      (h : l'.tickets = l.tickets.erase t.id) : Trades key a l l' (some t) (-1)

namespace Trades

variable {gone : Option QuotaTicket} {d : Int} (h : Trades key a l l' gone d)
include h

theorem one (hone : ∀ id state, l.tickets.lookup id = some state → state = ⟨oneHold key a⟩) :
    ∀ id state, l'.tickets.lookup id = some state → state = ⟨oneHold key a⟩ := by
  intro id state hstate
  cases h with
  | keeps _ h => exact hone id state (h ▸ hstate)
  | issues _ _ h =>
    rw [h, lookup_insert_eq] at hstate
    split at hstate
    · exact (Option.some.inj hstate).symm
    · exact hone id state hstate
  | uses _ _ _ h =>
    rw [h, lookup_erase_eq] at hstate
    split at hstate
    · cases hstate
    · exact hone id state hstate

theorem active {t : QuotaTicket} (ht : l.active t = true)
    (hne : gone ≠ some t) : l'.active t = true := by
  obtain ⟨hown, state, hstate⟩ := active_iff.mp ht
  refine active_iff.mpr ⟨?_, state, ?_⟩
  · cases h with
    | keeps hself | issues hself | uses hself => rwa [owns, hself]
  · cases h with
    | keeps _ h => rwa [h]
    | issues _ hfree h =>
      rw [h, lookup_insert_eq, if_neg, hstate]
      rintro rfl
      cases hfree.symm.trans hstate
    | uses _ hown' _ h =>
      rw [h, lookup_erase_eq, if_neg, hstate]
      exact id_ne_of_owns hown hown' fun heq => hne (congrArg some heq.symm)

theorem heldOn : l'.heldOn a = l.heldOn a + d := by
  unfold QuotaLedger.heldOn
  cases h with
  | keeps _ h => rw [h, Int.add_zero]
  | issues _ hfree h => rw [h, total_insert _ hfree, pendingOn_oneHold, Int.add_comm]
  | uses _ _ hstate h =>
    rw [h, total_erase (m := l.tickets) _ hstate, pendingOn_oneHold]
    omega

end Trades

theorem reserveAll_one {out : Option QuotaTicket}
    (hb : l.Shows key a b) (hlive : expired b.observation now = false)
    (hvalid : validQuotaKey key = true) (hfact : b.observation.confidence = .authoritative)
    (h : l.reserveAll [⟨key, 1⟩] now order = some (l', out)) :
    Trades key a l l' none out.isSome.toNat ∧
      (out.isSome = true → 1 ≤ b.observation.remaining - b.reserved) ∧
      ∃ b', l'.Shows key a b' ∧ b'.observation = b.observation := by
  have hpurge := hb.purge hlive
  have hagg : aggregateReservations [⟨key, 1⟩] = some (AList.insert key 1 ∅) := by
    simp only [aggregateReservations, aggregate, hvalid]
    rfl
  rcases reserveAll_cases h with ⟨rfl, rfl | rfl⟩ | ⟨amounts, id, hamounts, hadmits, hid, rfl, rfl⟩
  · exact ⟨.keeps rfl rfl, nofun, b, hb, rfl⟩
  · exact ⟨.keeps rfl rfl, nofun, b, hpurge, rfl⟩
  rw [hagg] at hamounts
  cases hamounts
  have hone : range order (AList.insert key (1 : Int64) ∅) = [⟨key, 1⟩] := rfl
  rw [hone] at hadmits hid ⊢
  have hadmission := hadmits ⟨key, 1⟩ mem_cons_self
  have hroom : 1 ≤ b.observation.remaining - b.reserved := by
    simpa [admits, hpurge.bucketOf, hfact] using hadmission
  have hholds : (l.purgeExpiredLocked now).reserveHolds ∅ [⟨key, 1⟩] =
      ((l.purgeExpiredLocked now).updateBucket (some a)
        fun b => { b with reserved := b.reserved + 1 }, oneHold key a) := by
    simp only [reserveHolds, reserveOne_eq, hpurge.pointer]
    rfl
  have hspec := drawTicketID_spec hid
  rw [hholds] at hspec ⊢
  have hreserved := hpurge.update fun b => { b with reserved := b.reserved + 1 }
  exact ⟨.issues rfl hspec.2 rfl, fun _ => hroom, _, ⟨hreserved.pointer, hreserved.object⟩, rfl⟩

theorem release_one {t : QuotaTicket} {ok : Bool}
    (hb : l.Shows key a b) (hlive : expired b.observation now = false)
    (hone : ∀ id state, l.tickets.lookup id = some state → state = ⟨oneHold key a⟩)
    (h : l.release t now order = (l', ok)) :
    Trades key a l l' (if ok then some t else none) (-ok.toNat) ∧
      ∃ b', l'.Shows key a b' ∧ b'.observation = b.observation := by
  have hpurge := hb.purge hlive
  rcases release_cases h with ⟨rfl, -, rfl | rfl⟩ | ⟨rfl, hown, state, hstate, rfl⟩
  · exact ⟨.keeps rfl rfl, b, hb, rfl⟩
  · exact ⟨.keeps rfl rfl, b, hpurge, rfl⟩
  cases hone t.id state hstate
  rw [range_oneHold]
  have hopen : Shows { l.purgeExpiredLocked now with tickets := l.tickets.erase t.id } key a b :=
    ⟨hpurge.pointer, hpurge.object⟩
  exact ⟨.uses rfl hown hstate rfl, _, hopen.update (unreserve 1), rfl⟩

theorem reconcile_one {t : QuotaTicket} {order : List QuotaBucketKey} {o : QuotaObservation}
    (hb : l.Shows key a b) (hlive : expired b.observation now = false)
    (hvalid : validQuotaKey key = true) (hlimit : 0 ≤ o.limit) (hremaining : 0 ≤ o.remaining)
    (hcapped : o.remaining ≤ o.limit) (hobserved : o.observedAt = now)
    (hnew : expired o now = false) (hown : l.owns t = true)
    (hstate : l.tickets.lookup t.id = some ⟨oneHold key a⟩) :
    ∃ l', l.reconcile t [⟨key, 1, some o⟩] now order = (l', true) ∧
      l'.Shows key a { settleBucket 1 b with observation := o } ∧
      Trades key a l l' (some t) (-1) := by
  have hpurge := hb.purge hlive
  have hby : settlementsByKey ∅ [⟨key, 1, some o⟩] = some (oneSettlement key o) := by
    have hone : ¬(1 : Int64) < 0 := by decide
    simp [settlementsByKey, oneSettlement, hvalid, hone, Int64.not_lt.mpr hlimit,
      Int64.not_lt.mpr hremaining]
  have hstored : normaliseQuotaObservation o now = o := by
    have hsame : (if Time.isZero o.observedAt then { o with observedAt := now } else o) = o := by
      subst hobserved
      split <;> rfl
    unfold normaliseQuotaObservation
    rw [hsame]
    exact if_neg (Int64.not_lt.mpr hcapped)
  have hopen : Shows { l.purgeExpiredLocked now with tickets := l.tickets.erase t.id } key a b :=
    ⟨hpurge.pointer, hpurge.object⟩
  have hsettle : settleHolds { l.purgeExpiredLocked now with tickets := l.tickets.erase t.id }
      (oneSettlement key o) now [⟨key, ⟨key, 1, some a⟩⟩] =
      (({ l.purgeExpiredLocked now with tickets := l.tickets.erase t.id } :
        QuotaLedger).updateBucket (some a) (settleBucket 1)).storeObservation key o := by
    have hfound : ((oneSettlement key o).lookup key).bind (·.observation) = some o := by
      rw [oneSettlement, AList.lookup_insert]
      rfl
    simp only [settleHolds, settleHold, hfound, hstored, hnew]
    rfl
  refine ⟨_, ?_, (hopen.update (settleBucket 1)).store o, .uses ?_ hown hstate ?_⟩
  · unfold reconcile
    have hlookup : (l.purgeExpiredLocked now).tickets.lookup t.id = some ⟨oneHold key a⟩ := hstate
    have hkeys : (oneSettlement key o).keys.all
        (fun k => ((oneHold key a).lookup k).isSome) = true := by
      have hheld : (oneHold key a).lookup key = some ⟨key, 1, some a⟩ := AList.lookup_insert _
      simp [oneSettlement, hheld]
    rw [hown, hby]
    simp only [hlookup, hkeys]
    rw [range_oneHold]
    exact congrArg (·, true) hsettle
  · rw [storeObservation_self]
    rfl
  · rw [storeObservation_tickets, updateBucket_tickets]

end QuotaLedger

/-! ## An honest provider -/

/-- A ledger in front of a provider that has served `served` requests; `stamps` has the responses
not settled yet, with what was left after each. -/
structure Metered where
  ledger : QuotaLedger
  served : Nat
  stamps : QuotaTicket → Option Nat

namespace Metered

open QuotaLedger

inductive Op
  | reserve (now : Time) (order : List QuotaBucketKey)
  | serve (t : QuotaTicket)
  | reconcile (t : QuotaTicket) (now : Time) (order : List QuotaBucketKey)
  | release (t : QuotaTicket) (now : Time) (order : List QuotaBucketKey)

def stamp (limit left : Nat) (reset now : Time) : QuotaObservation :=
  ⟨.ofNat limit, .ofNat left, reset, .providerHeader, .authoritative, now⟩

section Machine

variable (key : QuotaBucketKey) (limit : Nat) (reset : Time)

/-- A request is served once, while its reservation is held. -/
def step (s : Metered) : Op → Option (Metered × Res)
  | .reserve now order =>
    if now < reset then
      (s.ledger.reserveAll [⟨key, 1⟩] now order).map fun r =>
        ({ s with ledger := r.1 }, .ticket r.2)
    else none
  | .serve t =>
    if s.ledger.active t && (s.stamps t).isNone then
      some ({ s with
        served := s.served + 1
        stamps := update s.stamps t (some (limit - (s.served + 1))) }, .done true)
    else none
  | .reconcile t now order =>
    match s.stamps t with
    | none => none
    | some left =>
      if now < reset then
        let r := s.ledger.reconcile t [⟨key, 1, some (stamp limit left reset now)⟩] now order
        some (⟨r.1, s.served, update s.stamps t none⟩, .done r.2)
      else none
  | .release t now order =>
    if now < reset then
      let r := s.ledger.release t now order
      some (⟨r.1, s.served, update s.stamps t none⟩, .done r.2)
    else none

/-- The stamp of a settlement is not larger than the remainder it replaces. -/
def InServiceOrder (e : Event Metered Op Res) : Prop :=
  ∀ t now order left b, e.input = .reconcile t now order → e.before.stamps t = some left →
    e.before.ledger.bucketOf key = some b → (left : Int) ≤ b.observation.remaining.toInt

end Machine

def Op.admits (_ : Op) (o : Res) : Bool := o.issued.isSome

def Op.releases (op : Op) (o : Res) : Bool :=
  match op, o with
  | .release .., .done true => true
  | _, _ => false

def Op.settles (op : Op) (o : Res) : Bool :=
  match op, o with
  | .reconcile .., .done true => true
  | _, _ => false

def count (kind : Op → Res → Bool) (tr : List (Event Metered Op Res)) : Nat :=
  tr.countP fun e => kind e.input e.output

theorem count_snoc (kind : Op → Res → Bool) (tr : List (Event Metered Op Res))
    (s : Metered) (op : Op) (o : Res) :
    count kind (tr ++ [⟨s, op, o⟩]) = count kind tr + (kind op o).toNat := by
  cases h : kind op o <;> simp [count, countP_append, h]

structure Start (key : QuotaBucketKey) (limit : Nat) (reset : Time) (l : QuotaLedger) : Prop where
  sound : l.Sound
  valid : validQuotaKey key = true
  idle : l.tickets = ∅
  small : limit < 2 ^ 63
  bucket : ∃ b, l.bucketOf key = some b ∧ b.observation.limit.toInt = limit ∧
    b.observation.remaining.toInt = limit ∧ b.observation.resetAt = reset ∧
    b.observation.confidence = .authoritative

def start (l : QuotaLedger) : Metered := ⟨l, 0, fun _ => none⟩

/-! ## The books of a window -/

/-- `left` is the remainder in the ledger, `settled` the number of settled reservations. -/
structure Books (key : QuotaBucketKey) (limit : Nat) (reset : Time) (a : Addr) (left settled : Nat)
    (s : Metered) : Prop where
  sound : s.ledger.Sound
  bucket : ∃ b, s.ledger.Shows key a b ∧ b.observation.remaining.toInt = left ∧
    b.observation.resetAt = reset ∧ b.observation.confidence = .authoritative
  one : ∀ id state, s.ledger.tickets.lookup id = some state → state = ⟨oneHold key a⟩
  held : ∀ t left', s.stamps t = some left' → s.ledger.active t = true
  stamped : ∀ t left', s.stamps t = some left' → limit - s.served ≤ left' ∧ left' ≠ limit
  distinct : ∀ t t' left', s.stamps t = some left' → s.stamps t' = some left' → 0 < left' → t = t'
  late : ∀ t, 0 < left → s.stamps t ≠ some left
  served : limit - s.served ≤ left
  room : 0 < left → settled + left ≤ limit
  spent : settled + s.ledger.heldOn a ≤ limit

section

variable {key : QuotaBucketKey} {limit : Nat} {reset : Time} {a : Addr} {left settled : Nat}
  {s s' : Metered} {l l' : QuotaLedger} {b : QuotaBucket} {t : QuotaTicket}

namespace Books

variable (h : Books key limit reset a left settled s)

include h

theorem reserved_eq (hb : s.ledger.Shows key a b) : b.reserved.toInt = s.ledger.heldOn a := by
  have hreserved := (h.sound.object a b hb.object).reserved_eq
  simpa using hreserved

theorem live (hb : s.ledger.Shows key a b)
    (hnow : now < reset) : expired b.observation now = false := by
  obtain ⟨b', hb', -, hreset, -⟩ := h.bucket
  cases hb.object.symm.trans hb'.object
  unfold expired Time.after
  simp [hreset, hnow]

theorem serve (hactive : s.ledger.active t = true) : Books key limit reset a left settled { s with
      served := s.served + 1
      stamps := update s.stamps t (some (limit - (s.served + 1))) } := by
  have hpos : 0 < limit := by
    obtain ⟨hown, state, hstate⟩ := active_iff.mp hactive
    cases h.one t.id state hstate
    have htrades : Trades key a s.ledger { s.ledger with tickets := s.ledger.tickets.erase t.id }
        (some t) (-1) := .uses rfl hown hstate rfl
    have hheld := htrades.heldOn
    have hnonneg : 0 ≤ heldOn { s.ledger with tickets := s.ledger.tickets.erase t.id } a :=
      (h.sound.eraseTicket hstate []).heldOn_nonneg a
    have hspent := h.spent
    omega
  refine ⟨h.sound, h.bucket, h.one, fun t' left' hstamp => ?_, fun t' left' hstamp => ?_,
    fun t1 t2 left' h1 h2 hleft => ?_, fun t' hleft hstamp => ?_, ?_, h.room, h.spent⟩
  · by_cases ht : t' = t
    · exact ht ▸ hactive
    · exact h.held t' left' (by simpa [ht] using hstamp)
  · show limit - (s.served + 1) ≤ left' ∧ left' ≠ limit
    by_cases ht : t' = t
    · simp only [ht, update_self, Option.some.injEq] at hstamp
      omega
    · have hold := h.stamped t' left' (by simpa [ht] using hstamp)
      exact ⟨by omega, hold.2⟩
  · -- an older stamp that is not zero is larger than the new one
    have hnew : ∀ t', t' ≠ t → update s.stamps t (some (limit - (s.served + 1))) t' =
        some left' → limit - s.served ≤ left' := by
      intro t' ht hstamp
      exact (h.stamped t' left' (by simpa [ht] using hstamp)).1
    by_cases ht1 : t1 = t
    · by_cases ht2 : t2 = t
      · rw [ht1, ht2]
      · have hle := hnew t2 ht2 h2
        simp only [ht1, update_self, Option.some.injEq] at h1
        omega
    · by_cases ht2 : t2 = t
      · have hle := hnew t1 ht1 h1
        simp only [ht2, update_self, Option.some.injEq] at h2
        omega
      · exact h.distinct t1 t2 left' (by simpa [ht1] using h1) (by simpa [ht2] using h2) hleft
  · by_cases ht : t' = t
    · have hserved := h.served
      simp only [ht, update_self, Option.some.injEq] at hstamp
      omega
    · exact h.late t' hleft (by simpa [ht] using hstamp)
  · have hserved := h.served
    show limit - (s.served + 1) ≤ left
    omega

theorem admitted (hb : s.ledger.Shows key a b) (hroom : 1 ≤ b.observation.remaining - b.reserved) :
    settled + (s.ledger.heldOn a + 1) ≤ limit := by
  have hok := h.sound.object a b hb.object
  obtain ⟨b', hb', hleft, -, -⟩ := h.bucket
  cases hb.object.symm.trans hb'.object
  have hreserved := h.reserved_eq hb
  have hnonneg := h.sound.heldOn_nonneg a
  rw [le_def, toInt_sub_of_nonneg hok.remaining_nonneg (by omega)] at hroom
  have hone : (1 : Int64).toInt = 1 := rfl
  have hbound := h.room (by omega)
  omega

theorem ledgerStep {settled' : Nat} {stamps : QuotaTicket → Option Nat} {gone : Option QuotaTicket}
    {d : Int} (hsound : l'.Sound)
    (htrades : Trades key a s.ledger l' gone d) (hb : l'.Shows key a b)
    (hleft : b.observation.remaining.toInt = left') (hreset : b.observation.resetAt = reset)
    (hfact : b.observation.confidence = .authoritative)
    (hstamps : ∀ t left', stamps t = some left' → s.stamps t = some left' ∧ gone ≠ some t)
    (hlate : ∀ t, 0 < left' → stamps t ≠ some left') (hserved : limit - s.served ≤ left')
    (hroom : 0 < left' → settled' + left' ≤ limit)
    (hspent : settled' + (s.ledger.heldOn a + d) ≤ limit) :
    Books key limit reset a left' settled' ⟨l', s.served, stamps⟩ where
  sound := hsound
  bucket := ⟨b, hb, hleft, hreset, hfact⟩
  one := htrades.one h.one
  held t left' hstamp := by
    obtain ⟨hold, hne⟩ := hstamps t left' hstamp
    exact htrades.active (h.held t left' hold) hne
  stamped t left' hstamp := h.stamped t left' (hstamps t left' hstamp).1
  distinct t t' left' ht ht' :=
    h.distinct t t' left' (hstamps t left' ht).1 (hstamps t' left' ht').1
  late := hlate
  served := hserved
  room := hroom
  spent := by
    rw [htrades.heldOn]
    exact hspent

end Books

def Moves (a : Addr) (s s' : Metered) (op : Op) (o : Res) : Prop :=
  s'.ledger.heldOn a + (op.releases o).toNat + (op.settles o).toNat =
    s.ledger.heldOn a + (op.admits o).toNat

theorem step_reserve (hvalid : validQuotaKey key = true)
    (h : Books key limit reset a left settled s)
    (hstep : s.step key limit reset (.reserve now order) = some (s', o)) :
    Books key limit reset a left settled s' ∧ Moves a s s' (.reserve now order) o := by
  unfold step at hstep
  simp only at hstep
  split at hstep
  · next hnow =>
    obtain ⟨⟨l1, out⟩, hr, heq⟩ := map_eq_some_iff.mp hstep
    cases heq
    obtain ⟨b, hb, hleft, hreset, hfact⟩ := h.bucket
    obtain ⟨htrades, hadmits, b', hb', hsame⟩ :=
      reserveAll_one hb (h.live hb hnow) hvalid hfact hr
    rw [← hsame] at hleft hreset hfact
    refine ⟨h.ledgerStep (h.sound.reserveAll hr) htrades hb' hleft hreset hfact
      (fun t left' hstamp => ⟨hstamp, nofun⟩) h.late h.served h.room ?_, ?_⟩
    · cases out with
      | none => simpa using h.spent
      | some t => exact h.admitted hb (hadmits rfl)
    · simp [Moves, htrades.heldOn, Op.releases, Op.settles, Op.admits, Res.issued]
  · cases hstep

theorem update_stamp (h : update s.stamps t none t' = some left') :
    s.stamps t' = some left' ∧ some t ≠ some t' := by
  by_cases ht : t' = t
  · simp [ht] at h
  · exact ⟨by simpa [ht] using h, fun heq => ht (Option.some.inj heq).symm⟩

theorem step_release (h : Books key limit reset a left settled s)
    (hstep : s.step key limit reset (.release t now order) = some (s', o)) :
    Books key limit reset a left settled s' ∧ Moves a s s' (.release t now order) o := by
  unfold step at hstep
  simp only at hstep
  split at hstep
  · next hnow =>
    cases hstep
    obtain ⟨b, hb, hleft, hreset, hfact⟩ := h.bucket
    obtain ⟨⟨l1, ok⟩, hr⟩ : ∃ r, s.ledger.release t now order = r := ⟨_, rfl⟩
    obtain ⟨htrades, b', hb', hsame⟩ := release_one hb (h.live hb hnow) h.one hr
    rw [← hsame] at hleft hreset hfact
    rw [hr]
    refine ⟨h.ledgerStep (h.sound.release hr) htrades hb' hleft hreset hfact
      (fun t' left' hstamp => ?_) (fun t' hpos hstamp => h.late t' hpos (update_stamp hstamp).1)
      h.served h.room ?_, ?_⟩
    · obtain ⟨hold, hne⟩ := update_stamp hstamp
      refine ⟨hold, ?_⟩
      split
      · exact hne
      · exact nofun
    · have hspent := h.spent
      omega
    · cases ok <;> simp [Moves, htrades.heldOn, Op.releases, Op.settles, Op.admits, Res.issued]
  · cases hstep

theorem step_reconcile (hvalid : validQuotaKey key = true) (hsmall : limit < 2 ^ 63)
    (h : Books key limit reset a left settled s)
    (horder : InServiceOrder key ⟨s, .reconcile t now order, o⟩)
    (hstep : s.step key limit reset (.reconcile t now order) = some (s', o)) :
    ∃ left', Books key limit reset a left' (settled + 1) s' ∧
      o = .done true ∧ Moves a s s' (.reconcile t now order) o := by
  unfold step at hstep
  simp only at hstep
  split at hstep
  · cases hstep
  next left' hstamp =>
  split at hstep
  · next hnow =>
    obtain ⟨b, hb, hleft, hreset, hfact⟩ := h.bucket
    have hle : left' ≤ left := by
      have := horder t now order left' b rfl hstamp hb.bucketOf
      omega
    have hcap : left' ≤ limit := by
      by_cases hpos : 0 < left
      · have := h.room hpos
        omega
      · omega
    obtain ⟨hown, state, hstate⟩ := active_iff.mp (h.held t left' hstamp)
    cases h.one t.id state hstate
    have hnew : expired (stamp limit left' reset now) now = false := by
      unfold expired Time.after
      simp [stamp, hnow]
    have hlimit : (Int64.ofNat limit).toInt = limit := toInt_ofNat_of_lt hsmall
    have hstamped : (Int64.ofNat left').toInt = left' := toInt_ofNat_of_lt (by omega)
    obtain ⟨l1, hr, hb', htrades⟩ := @reconcile_one now _ key a b t order
      (stamp limit left' reset now) hb (h.live hb hnow) hvalid
      (by rw [le_def]; simp [stamp, hlimit]) (by rw [le_def]; simp [stamp, hstamped])
      (by rw [le_def]; simp [stamp, hlimit, hstamped, hcap]) rfl hnew hown hstate
    rw [hr] at hstep
    cases hstep
    refine ⟨left', h.ledgerStep (h.sound.reconcile hr) htrades hb' hstamped rfl rfl
      (fun t' left'' => update_stamp) (fun t' hpos hstamp' => ?_) (h.stamped t left' hstamp).1
      (fun hpos => ?_) ?_, rfl, ?_⟩
    · obtain ⟨hold, hne⟩ := update_stamp hstamp'
      exact hne (congrArg some (h.distinct t t' left' hstamp hold hpos))
    · -- the stamp is a new one, so it is smaller than the remainder
      have hne : left' ≠ left := fun heq => h.late t (heq ▸ hpos) (heq ▸ hstamp)
      have hroom := h.room (by omega)
      omega
    · have hspent := h.spent
      push_cast
      omega
    · simp [Moves, htrades.heldOn, Op.releases, Op.settles, Op.admits, Res.issued]
  · cases hstep

/-! ## Whole windows -/

theorem books_start (h : Start key limit reset l) :
    ∃ a, Books key limit reset a limit 0 (start l) ∧ l.heldOn a = 0 := by
  obtain ⟨b, hb, -, hremaining, hreset, hfact⟩ := h.bucket
  obtain ⟨a, hpointer, hobject⟩ := bucketOf_eq_some.mp hb
  have hheld : l.heldOn a = 0 := by
    rw [heldOn, h.idle]
    rfl
  refine ⟨a, ⟨h.sound, ⟨b, ⟨hpointer, hobject⟩, hremaining, hreset, hfact⟩, fun id state hstate => ?_,
    fun _ _ hstamp => (nomatch hstamp), fun _ _ hstamp => (nomatch hstamp),
    fun _ _ _ hstamp => (nomatch hstamp), fun _ _ hstamp => (nomatch hstamp), Nat.sub_le _ _,
    fun _ => by omega, ?_⟩, hheld⟩
  · have hnone : l.tickets.lookup id = none := by
      rw [h.idle]
      rfl
    exact nomatch hnone.symm.trans hstate
  · show ((0 : Nat) : Int) + l.heldOn a ≤ limit
    omega

/-- No more requests are admitted than the limit and those given back, if the answers are settled in
the order of service. -/
theorem admitted_le_limit {tr : List (Event Metered Op Res)} (hstart : Start key limit reset l)
    (hrun : Run (step key limit reset) (start l) tr s)
    (horder : ∀ e ∈ tr, InServiceOrder key e) :
    count Op.admits tr ≤ count Op.releases tr + limit := by
  obtain ⟨a, hbooks0, hheld0⟩ := books_start hstart
  have hall : ∃ left, Books key limit reset a left (count Op.settles tr) s ∧
      (count Op.admits tr : Int) =
        count Op.releases tr + count Op.settles tr + s.ledger.heldOn a := by
    induction hrun with
    | start => exact ⟨limit, hbooks0, by simp [count, start, hheld0]⟩
    | @next tr s s' op o hrun hstep ih =>
      obtain ⟨left, hbooks, hcount⟩ := ih fun e he => horder e (mem_append_left _ he)
      rw [count_snoc, count_snoc, count_snoc]
      cases op with
      | reserve now order =>
        obtain ⟨hbooks', hmoves⟩ := step_reserve hstart.valid hbooks hstep
        unfold Moves at hmoves
        refine ⟨left, by simpa [Op.settles] using hbooks', ?_⟩
        push_cast
        omega
      | serve t =>
        unfold step at hstep
        simp only at hstep
        split at hstep
        · next hguard =>
          cases hstep
          have hactive : s.ledger.active t = true := (Bool.and_eq_true_iff.mp hguard).1
          refine ⟨left, by simpa [Op.settles] using hbooks.serve hactive, ?_⟩
          simpa [Op.releases, Op.settles, Op.admits, Res.issued] using hcount
        · cases hstep
      | reconcile t now order =>
        have hlast := horder _ (mem_append_right tr mem_cons_self)
        obtain ⟨left', hbooks', rfl, hmoves⟩ :=
          step_reconcile hstart.valid hstart.small hbooks hlast hstep
        refine ⟨left', by simpa [Op.settles] using hbooks', ?_⟩
        unfold Moves at hmoves
        push_cast
        omega
      | release t now order =>
        obtain ⟨hbooks', hmoves⟩ := step_release hbooks hstep
        unfold Moves at hmoves
        refine ⟨left, by simpa [Op.settles] using hbooks', ?_⟩
        push_cast
        omega
  obtain ⟨left, hbooks, hcount⟩ := hall
  have hspent := hbooks.spent
  omega

end

def demoKey : QuotaBucketKey := ⟨"p", "account", "m", .requests, .minute⟩

def twoLeft : QuotaLedger := ((new 0).observe demoKey (stamp 2 2 100 1) 1).1

theorem start_twoLeft : Start demoKey 2 100 twoLeft where
  sound := (sound_new 0).observe _ _ _
  valid := by decide
  idle := rfl
  small := by decide
  bucket := ⟨⟨stamp 2 2 100 1, 0, false⟩, rfl, rfl, rfl, rfl, rfl⟩

/-- Two responses are settled as they were served, and a third request finds nothing left. -/
def inOrder : List Op :=
  [.reserve 1 [], .reserve 1 [], .serve ⟨some 0, 1⟩, .serve ⟨some 0, 2⟩,
    .reconcile ⟨some 0, 1⟩ 1 [], .reconcile ⟨some 0, 2⟩ 1 [], .reserve 1 []]

def stampFits (e : Event Metered Op Res) : Bool :=
  match e.input with
  | .reconcile t _ _ => (e.before.stamps t).all fun left =>
      (e.before.ledger.bucketOf demoKey).all fun b => (left : Int) ≤ b.observation.remaining.toInt
  | _ => true

theorem inOrder_admitted : ∃ tr s, Run (step demoKey 2 100) (start twoLeft) tr s ∧
    tr.map Event.input = inOrder ∧ count Op.settles tr = 2 ∧
      count Op.admits tr ≤ count Op.releases tr + 2 := by
  have hcheck : (exec (step demoKey 2 100) (start twoLeft) inOrder).map
      (fun r => (r.1.all stampFits, count Op.settles r.1)) = some (true, 2) := by decide +kernel
  obtain ⟨⟨tr, s⟩, h, heq⟩ := map_eq_some_iff.mp hcheck
  obtain ⟨hall, hsettles⟩ := Prod.ext_iff.mp heq
  refine ⟨tr, s, run_of_exec h, exec_inputs h, hsettles,
    admitted_le_limit start_twoLeft (run_of_exec h) fun e he => ?_⟩
  intro t now order left b hinput hstamp hb
  have hfits := all_eq_true.mp hall e he
  simpa [stampFits, hinput, hstamp, hb] using hfits

/-- Two responses are settled the other way round. -/
def late : List Op :=
  [.reserve 1 [], .reserve 1 [], .serve ⟨some 0, 1⟩, .serve ⟨some 0, 2⟩,
    .reconcile ⟨some 0, 2⟩ 1 [], .reconcile ⟨some 0, 1⟩ 1 [], .reserve 1 []]

/-- The stamp of the first request brings back what the second has spent. -/
theorem late_response_overspends : Start demoKey 2 100 twoLeft ∧
    ∃ tr s, Run (step demoKey 2 100) (start twoLeft) tr s ∧
      tr.map Event.input = late ∧ count Op.admits tr = 3 ∧ count Op.releases tr = 0 := by
  have hcheck : (exec (step demoKey 2 100) (start twoLeft) late).map
      (fun r => (count Op.admits r.1, count Op.releases r.1)) = some (3, 0) := by decide +kernel
  obtain ⟨⟨tr, s⟩, h, heq⟩ := map_eq_some_iff.mp hcheck
  obtain ⟨hadmits, hreleases⟩ := Prod.ext_iff.mp heq
  exact ⟨start_twoLeft, tr, s, run_of_exec h, exec_inputs h, hadmits, hreleases⟩

end Metered

end CalvoProxy
