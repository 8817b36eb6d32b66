import CalvoProxy.Quota.Confidence
import CalvoProxy.Quota.Reading
import CalvoProxy.Router.Quota
import Mathlib.Logic.Function.Basic

/-!
# Installing defaults while responses are settled

`ensureBootstrapQuota` looks whether a bucket is known and, if not, stores its published limit, in
two critical sections. A fact of the provider stays one if no response stores an observation in
between (`fact_stays`).
-/

namespace CalvoProxy

open List Machine Option Function

open QuotaLedger (published)

variable {l' : QuotaLedger} {s : Booting}

/-! ## The calls, step by step -/

/-- A call of `ensureBootstrapQuota`: the limits still to look at, and whether the bucket of the
first was missing. -/
structure BootstrapCall where
  now : Time
  limits : List PublishedLimit
  missing : Bool

/-- The next critical section; `none` when the call has returned. -/
def BootstrapCall.step (c : BootstrapCall) (l : QuotaLedger) : QuotaLedger × Option BootstrapCall :=
  match c.limits with
  | [] => (l, none)
  | (key, limit, reset) :: rest =>
    if c.missing then
      ((l.observe key (published limit reset c.now) c.now).1, some ⟨c.now, rest, false⟩)
    else if limit ≤ 0 then (l, some ⟨c.now, rest, false⟩)
    else match l.snapshot key c.now with
      | (l, some _) => (l, some ⟨c.now, rest, false⟩)
      | (l, none) => (l, some ⟨c.now, c.limits, true⟩)

def BootstrapCall.aims (c : BootstrapCall) : Option QuotaBucketKey :=
  if c.missing then c.limits.head?.map (·.1) else none

/-- The fact of a signal, with the scope and the reset that `observeAndSettleQuota` fills in. -/
def settledFact (cfg : Settings) (credential : String) (now : Time)
    (o : ProviderQuotaObservation) : Option (QuotaBucketKey × QuotaObservation) :=
  match o.ledgerFact with
  | none => none
  | some (key, fact) =>
    let key := { key with scope := credentialQuotaScope cfg o.scope.text credential }
    some (key, if Time.isZero fact.resetAt && key.window = .minute
      then { fact with resetAt := nextMinuteReset now } else fact)

/-- A call of `observeAndSettleQuota`: the signals still to observe, the facts so far, and the
settlements. -/
structure SettleCall where
  cfg : Settings
  ticket : QuotaTicket
  attempt : ModelAttempt
  credential : String
  actualTokens : Int64
  tick : Tick
  observations : List ProviderQuotaObservation
  facts : GoMap QuotaBucketKey QuotaObservation
  settlements : Option (List QuotaSettlement)

def SettleCall.start (cfg : Settings) (ticket : QuotaTicket) (attempt : ModelAttempt)
    (credential : String) (status : Int) (header : String → String) (body : ErrorBody)
    (actualTokens : Int64) (t : Tick) : SettleCall :=
  ⟨cfg, ticket, attempt, credential, actualTokens, t,
    observeProviderQuota cfg attempt.provider attempt.model status header body t.now, ∅, none⟩

def SettleCall.step (c : SettleCall) (l : QuotaLedger) : QuotaLedger × Option SettleCall :=
  match c.observations, c.settlements with
  | o :: os, _ =>
    match settledFact c.cfg c.credential c.tick.now o with
    | none => (l, some { c with observations := os })
    | some (key, fact) =>
      ((l.observe key fact c.tick.now).1,
        some { c with observations := os, facts := c.facts.insert key fact })
  | [], none =>
    if !c.ticket.valid then (l, none)
    else (l, some { c with settlements := some ((l.reservations c.ticket).map
      (World.settlementFor c.attempt c.actualTokens c.facts)) })
  | [], some settlements =>
    ((l.reconcile c.ticket settlements c.tick.now c.tick.order).1, none)

def SettleCall.stores (c : SettleCall) (key : QuotaBucketKey) : Prop :=
  match c.observations, c.settlements with
  | o :: _, _ => ∃ fact, settledFact c.cfg c.credential c.tick.now o = some (key, fact)
  | [], none => False
  | [], some settlements => ∃ s ∈ settlements, s.key = key ∧ s.observation.isSome = true

structure Booting where
  ledger : QuotaLedger
  boots : Nat → Option BootstrapCall
  settles : Nat → Option SettleCall

namespace Booting

inductive Op
  | ensureBootstrapQuota (i : Nat) (cfg : Settings) (attempt : ModelAttempt)
      (credential : String) (now : Time)
  | boot (i : Nat)
  | observeAndSettleQuota (j : Nat) (cfg : Settings) (ticket : QuotaTicket)
      (attempt : ModelAttempt) (credential : String) (status : Int) (header : String → String)
      (body : ErrorBody) (actualTokens : Int64) (t : Tick)
  | settle (j : Nat)
  | snapshot (key : QuotaBucketKey) (now : Time)
  | keys (now : Time)
  | reserveAll (reservations : List QuotaReservation) (t : Tick)
  | release (ticket : QuotaTicket) (t : Tick)

/-- A call starts where no other has its number, and goes on until it returns. -/
def step (s : Booting) : Op → Option (Booting × Unit)
  | .ensureBootstrapQuota i cfg attempt credential now =>
    match s.boots i with
    | some _ => none
    | none =>
      let call := ⟨now, bootstrapLimits cfg attempt credential now, false⟩
      some ({ s with boots := update s.boots i (some call) }, ())
  | .boot i =>
    match s.boots i with
    | none => none
    | some c =>
      let r := c.step s.ledger
      some ({ s with ledger := r.1, boots := update s.boots i r.2 }, ())
  | .observeAndSettleQuota j cfg ticket attempt credential status header body actualTokens t =>
    match s.settles j with
    | some _ => none
    | none =>
      let call := .start cfg ticket attempt credential status header body actualTokens t
      some ({ s with settles := update s.settles j (some call) }, ())
  | .settle j =>
    match s.settles j with
    | none => none
    | some c =>
      let r := c.step s.ledger
      some ({ s with ledger := r.1, settles := update s.settles j r.2 }, ())
  | .snapshot key now => some ({ s with ledger := (s.ledger.snapshot key now).1 }, ())
  | .keys now => some ({ s with ledger := (s.ledger.keys now).1 }, ())
  | .reserveAll reservations t =>
    (s.ledger.reserveAll reservations t.now t.order).map fun r => ({ s with ledger := r.1 }, ())
  | .release ticket t =>
    some ({ s with ledger := (s.ledger.release ticket t.now t.order).1 }, ())

def start (l : QuotaLedger) : Booting := ⟨l, fun _ => none, fun _ => none⟩

/-- The step stores no fact where a call of `ensureBootstrapQuota` is about to store a default. -/
def Clear (e : Event Booting Op Unit) : Prop :=
  ∀ j c, e.input = .settle j → e.before.settles j = some c →
    ∀ i c' key, e.before.boots i = some c' → c'.aims = some key → ¬c.stores key

end Booting

/-! ## A call by itself -/

/-- The call goes on from `l` without other calls in between, and returns with `l'`. -/
inductive Alone {α : Type} (step : α → QuotaLedger → QuotaLedger × Option α) :
    Option α → QuotaLedger → QuotaLedger → Prop
  | returned (l : QuotaLedger) : Alone step none l l
  | goes {call : α} {l l' : QuotaLedger} (h : Alone step (step call l).2 (step call l).1 l') :
      Alone step (some call) l l'

theorem ensureBootstrapQuota_alone (cfg : Settings) (attempt : ModelAttempt) (credential : String)
    (now : Time) (w : World) :
    Alone BootstrapCall.step (some ⟨now, bootstrapLimits cfg attempt credential now, false⟩)
      w.service.quota (w.ensureBootstrapQuota cfg attempt credential now).service.quota := by
  unfold World.ensureBootstrapQuota
  generalize bootstrapLimits cfg attempt credential now = limits
  induction limits generalizing w with
  | nil => exact .goes (.returned _)
  | cons p limits ih =>
    have hrest := ih (w.observeIfUnknown now p)
    rw [foldl_cons]
    refine .goes ?_
    simp only [BootstrapCall.step, World.observeIfUnknown, World.snapshot, Bool.false_eq_true,
      if_false] at hrest ⊢
    split
    · next hlimit => rwa [if_pos hlimit] at hrest
    next hlimit =>
    rw [if_neg hlimit] at hrest
    cases hshown : w.service.quota.snapshot p.1 now with
    | mk l shown =>
      rw [hshown] at hrest
      cases shown with
      | some _ => exact hrest
      | none => exact .goes hrest

theorem observeAndSettleQuota_alone (cfg : Settings) (ticket : QuotaTicket)
    (attempt : ModelAttempt) (credential : String) (status : Int) (header : String → String)
    (body : ErrorBody) (actualTokens : Int64) (t : Tick) (w : World) :
    Alone SettleCall.step
      (some (.start cfg ticket attempt credential status header body actualTokens t))
      w.service.quota (w.observeAndSettleQuota cfg ticket attempt credential status header body
        actualTokens t).1.service.quota := by
  unfold SettleCall.start World.observeAndSettleQuota
  generalize observeProviderQuota cfg attempt.provider attempt.model status header body t.now = os
  generalize (∅ : GoMap QuotaBucketKey QuotaObservation) = facts
  simp only [apply_ite Prod.fst]
  induction os generalizing facts w with
  | nil =>
    refine .goes ?_
    simp only [SettleCall.step, World.observeFacts]
    split
    · exact .returned _
    · exact .goes (.returned _)
  | cons o os ih =>
    refine .goes ?_
    simp only [SettleCall.step, World.observeFacts, settledFact]
    rcases o.ledgerFact with _ | ⟨key, fact⟩
    · exact ih w facts
    · exact ih (w.observe _ _ t.now) _

/-! ## What the steps of a call do -/

open QuotaLedger

theorem settledFact_confidence {cfg : Settings} {credential : String} {now : Time}
    {o : ProviderQuotaObservation} {key : QuotaBucketKey} {fact : QuotaObservation}
    (h : settledFact cfg credential now o = some (key, fact)) :
    fact.confidence = .authoritative := by
  unfold settledFact at h
  split at h
  · cases h
  next key' fact' hfact =>
  have hauthoritative : fact'.confidence = .authoritative := by
    unfold ProviderQuotaObservation.ledgerFact at hfact
    simp only at hfact
    split at hfact
    · cases hfact
      rfl
    · cases hfact
  cases h
  split
  · exact hauthoritative
  · exact hauthoritative

namespace BootstrapCall

variable {l : QuotaLedger}

/-- A step stores an estimate where the call aims at, and a call aims only where it found
nothing. -/
theorem step_stores_estimate (c : BootstrapCall) (h : l.Sound) :
    Restated (fun key => c.aims = some key) .estimated l (c.step l).1 ∧ (c.step l).1.Sound ∧
      ∀ c' key, (c.step l).2 = some c' → c'.aims = some key → (c.step l).1.Free key := by
  unfold step
  split
  · exact ⟨.refl l, h, fun _ _ hc => nomatch hc⟩
  next k limit reset rest hlimits =>
  have hnext : ∀ (l' : QuotaLedger) (c' : BootstrapCall) (key : QuotaBucketKey),
      some ⟨c.now, rest, false⟩ = some c' → c'.aims = some key → l'.Free key := by
    rintro _ _ _ ⟨⟩ ⟨⟩
  split
  · next hmissing =>
    refine ⟨(Restated.observe l k (published limit reset c.now) c.now).mono fun key hk => ?_,
      h.observe k _ c.now, hnext _⟩
    rw [aims, if_pos hmissing, hlimits, hk]
    rfl
  split
  · exact ⟨.refl l, h, hnext _⟩
  have hsnapshot : Restated (fun key => c.aims = some key) .estimated l
      (l.snapshot k c.now).1 := .snapshot l k c.now
  have hsound := h.snapshot k c.now
  split
  · next hshown =>
    rw [hshown] at hsnapshot hsound
    exact ⟨hsnapshot, hsound, hnext _⟩
  · next hnone =>
    have hlookup := snapshot_lookup h.pointed (congrArg Prod.snd hnone)
    rw [hnone] at hsnapshot hsound hlookup
    refine ⟨hsnapshot, hsound, fun c' key hc haims b hb => ?_⟩
    cases hc
    rw [aims, if_pos rfl, hlimits] at haims
    cases haims
    obtain ⟨a, ha, -⟩ := bucketOf_eq_some.mp hb
    cases hlookup.symm.trans ha

end BootstrapCall

namespace SettleCall

variable {c : SettleCall} {l : QuotaLedger}

structure Factual (c : SettleCall) : Prop where
  facts : ∀ k o, c.facts.lookup k = some o → o.confidence = .authoritative
  settlements : ∀ ss, c.settlements = some ss → ∀ s ∈ ss, ∀ o, s.observation = some o →
    o.confidence = .authoritative

/-- A step stores facts, and hands facts on to the next. -/
theorem Factual.step_stores_facts (h : c.Factual) (hl : l.Sound) :
    Restated c.stores .authoritative l (c.step l).1 ∧ (c.step l).1.Sound ∧
      ∀ c', (c.step l).2 = some c' → c'.Factual := by
  unfold step
  split
  · next o os hobservations =>
    split
    · exact ⟨.refl l, hl, fun c' hc => by cases hc; exact ⟨h.facts, h.settlements⟩⟩
    next key fact hfact =>
    have hobserve := Restated.observe l key fact c.tick.now
    rw [settledFact_confidence hfact] at hobserve
    refine ⟨hobserve.mono fun k hk => ?_, hl.observe _ _ c.tick.now, fun c' hc => ?_⟩
    · rw [stores, hobservations]
      exact ⟨fact, hk ▸ hfact⟩
    · cases hc
      refine ⟨fun k o hk => ?_, h.settlements⟩
      rw [GoMap.lookup_insert_eq] at hk
      split at hk
      · cases hk
        exact settledFact_confidence hfact
      · exact h.facts k o hk
  · split
    · exact ⟨.refl l, hl, fun _ hc => nomatch hc⟩
    refine ⟨.refl l, hl, fun c' hc => ?_⟩
    cases hc
    refine ⟨h.facts, fun ss hss s hs o ho => ?_⟩
    cases hss
    obtain ⟨r, -, rfl⟩ := mem_map.mp hs
    exact h.facts r.key o ho
  · next ss hobservations hss =>
    refine ⟨.reconcile (fun s hs o ho => ⟨?_, h.settlements ss hss s hs o ho⟩) rfl,
      hl.reconcile rfl, fun _ hc => nomatch hc⟩
    rw [stores, hobservations, hss]
    exact ⟨s, hs, rfl, by rw [ho]; rfl⟩

end SettleCall

namespace Booting

variable {s' : Booting} {op : Op}

/-- The books are right, no fact is stored where a call aims at, and responses bring
facts. -/
structure Orderly (s : Booting) : Prop where
  sound : s.ledger.Sound
  free : ∀ i c key, s.boots i = some c → c.aims = some key → s.ledger.Free key
  factual : ∀ j c, s.settles j = some c → c.Factual

/-- A step stores defaults where there is no fact, or facts where no call aims at. -/
inductive Stores (s : Booting) (l' : QuotaLedger) : Prop
  | defaults (S : QuotaBucketKey → Prop) (hstored : Restated S .estimated s.ledger l')
      (hfree : ∀ key, S key → s.ledger.Free key)
  | facts (S : QuotaBucketKey → Prop) (hstored : Restated S .authoritative s.ledger l')
      (hclear : ∀ i c key, s.boots i = some c → c.aims = some key → ¬S key)

theorem Stores.none (h : Restated (fun _ => False) .estimated s.ledger l') : s.Stores l' :=
  .defaults (fun _ => False) h fun _ hno => hno.elim

theorem Stores.free (h : s.Stores l') (ho : s.Orderly) :
    ∀ i c key, s.boots i = some c → c.aims = some key → l'.Free key := by
  intro i c key hc haims
  have hfree := ho.free i c key hc haims
  cases h with
  | defaults S hstored _ =>
    exact hstored.free ho.sound.pointed hfree fun _ heq => nomatch heq
  | facts S hstored hclear =>
    exact hstored.free ho.sound.pointed hfree fun hS => absurd hS (hclear i c key hc haims)

theorem Stores.object (h : s.Stores l') {a : Addr} {b : QuotaBucket}
    (hb : s.ledger.heap[a]? = some b) (hfact : b.observation.confidence = .authoritative) :
    ∃ b' : QuotaBucket, l'.heap[a]? = some b' ∧ b'.observation.confidence = .authoritative := by
  cases h with
  | defaults S hstored hfree => exact hstored.object_fact (fun _ => hfree) hb hfact
  | facts S hstored _ => exact hstored.object_fact (fun hne => absurd rfl hne) hb hfact

theorem Stores.bucket {l' : QuotaLedger} (h : s.Stores l') {key : QuotaBucketKey}
    {b b' : QuotaBucket} (hb : s.ledger.bucketOf key = some b)
    (hfact : b.observation.confidence = .authoritative) (hb' : l'.bucketOf key = some b') :
    b'.observation.confidence = .authoritative := by
  cases h with
  | defaults S hstored hfree => exact hstored.bucket_fact (fun _ => hfree) hb hfact hb'
  | facts S hstored _ => exact hstored.bucket_fact (fun hne => absurd rfl hne) hb hfact hb'

theorem step_stores (ho : s.Orderly) (hclear : Clear ⟨s, op, ()⟩)
    (hstep : s.step op = some (s', ())) : s.Stores s'.ledger ∧ s'.Orderly := by
  cases op with
  | ensureBootstrapQuota i cfg attempt credential now =>
    unfold step at hstep
    simp only at hstep
    split at hstep
    · cases hstep
    cases hstep
    refine ⟨.none (.refl _), ho.sound, fun i' c key hc haims => ?_, ho.factual⟩
    by_cases hi : i' = i
    · subst hi
      simp only [update_self, Option.some.injEq] at hc
      exact nomatch hc ▸ haims
    · exact ho.free i' c key (by simpa [hi] using hc) haims
  | boot i =>
    unfold step at hstep
    simp only at hstep
    split at hstep
    · cases hstep
    next c hc =>
    cases hstep
    obtain ⟨hstored, hsound, haimed⟩ := c.step_stores_estimate ho.sound
    have hstores : s.Stores (c.step s.ledger).1 :=
      .defaults _ hstored fun key haims => ho.free i c key hc haims
    refine ⟨hstores, hsound, fun i' c' key hc' haims => ?_, ho.factual⟩
    by_cases hi : i' = i
    · subst hi
      exact haimed c' key (by simpa using hc') haims
    · exact hstores.free ho i' c' key (by simpa [hi] using hc') haims
  | observeAndSettleQuota j cfg ticket attempt credential status header body actualTokens t =>
    unfold step at hstep
    simp only at hstep
    split at hstep
    · cases hstep
    cases hstep
    refine ⟨.none (.refl _), ho.sound, ho.free, fun j' c hc => ?_⟩
    by_cases hj : j' = j
    · subst hj
      simp only [update_self, Option.some.injEq] at hc
      subst hc
      exact ⟨fun _ _ hk => (nomatch hk), fun _ hss => nomatch hss⟩
    · exact ho.factual j' c (by simpa [hj] using hc)
  | settle j =>
    unfold step at hstep
    simp only at hstep
    split at hstep
    · cases hstep
    next c hc =>
    cases hstep
    obtain ⟨hstored, hsound, hfactual⟩ := (ho.factual j c hc).step_stores_facts ho.sound
    have hstores : s.Stores (c.step s.ledger).1 := .facts _ hstored (hclear j c rfl hc)
    refine ⟨hstores, hsound, hstores.free ho, fun j' c' hc' => ?_⟩
    by_cases hj : j' = j
    · subst hj
      exact hfactual c' (by simpa using hc')
    · exact ho.factual j' c' (by simpa [hj] using hc')
  | snapshot key now =>
    cases hstep
    have hstores := Stores.none (.snapshot s.ledger key now)
    exact ⟨hstores, ho.sound.snapshot key now, hstores.free ho, ho.factual⟩
  | keys now =>
    cases hstep
    have hstores := Stores.none (.purge s.ledger now)
    exact ⟨hstores, ho.sound.purgeExpiredLocked now, hstores.free ho, ho.factual⟩
  | reserveAll reservations t =>
    obtain ⟨⟨l1, out⟩, hr, heq⟩ := map_eq_some_iff.mp hstep
    cases heq
    have hstores := Stores.none (.reserveAll hr)
    exact ⟨hstores, ho.sound.reserveAll hr, hstores.free ho, ho.factual⟩
  | release ticket t =>
    cases hstep
    have hstores : s.Stores (s.ledger.release ticket t.now t.order).1 := .none (.release rfl)
    exact ⟨hstores, ho.sound.release rfl, hstores.free ho, ho.factual⟩

/-- From a ledger with right books, an object that has a fact keeps one, and no step leaves an
estimate under a key that had one. -/
theorem fact_stays {l : QuotaLedger} (hl : l.Sound)
    {tr1 tr2 : List (Event Booting Op Unit)} {s1 s2 : Booting}
    (hrun1 : Run step (start l) tr1 s1) (hrun2 : Run step s1 tr2 s2)
    (hclear : ∀ e ∈ tr1 ++ tr2, Clear e) :
    (∀ (a : Addr) (b : QuotaBucket), s1.ledger.heap[a]? = some b →
      b.observation.confidence = .authoritative →
      ∃ b' : QuotaBucket, s2.ledger.heap[a]? = some b' ∧
        b'.observation.confidence = .authoritative) ∧
    ∀ e ∈ tr2, ∀ s', e.before.step e.input = some (s', ()) → ∀ key b b',
      e.before.ledger.bucketOf key = some b → b.observation.confidence = .authoritative →
      s'.ledger.bucketOf key = some b' → b'.observation.confidence = .authoritative := by
  have hstart : (start l).Orderly :=
    ⟨hl, fun _ _ _ hc => (nomatch hc), fun _ _ hc => nomatch hc⟩
  have horderly1 : s1.Orderly := hrun1.invariant
    (fun _ _ _ _ ho hc hs => (step_stores ho hc hs).2) hstart
    fun e he => hclear e (mem_append_left tr2 he)
  have hclear2 : ∀ e ∈ tr2, Clear e := fun e he => hclear e (mem_append_right tr1 he)
  clear hclear hrun1 hstart
  suffices hall : s2.Orderly ∧ _ from hall.2
  induction hrun2 with
  | start => exact ⟨horderly1, fun _ b hb hfact => ⟨b, hb, hfact⟩, fun _ he => nomatch he⟩
  | @next tr s s' op _ hrun hstep ih =>
    obtain ⟨ho, hobject, hkey⟩ := ih fun e he => hclear2 e (mem_append_left _ he)
    have hclear : Clear ⟨s, op, ()⟩ := hclear2 _ (mem_append_right _ mem_cons_self)
    obtain ⟨hstores, ho'⟩ := step_stores ho hclear hstep
    refine ⟨ho', fun a b hb hfact => ?_, fun e he s'' hs'' => ?_⟩
    · obtain ⟨b', hb', hfact'⟩ := hobject a b hb hfact
      exact hstores.object hb' hfact'
    · rcases mem_append.mp he with hold | hnew
      · exact hkey e hold s'' hs''
      · rw [mem_singleton.mp hnew] at hs'' ⊢
        cases hstep.symm.trans hs''
        exact fun key b b' hb hfact hb' => hstores.bucket hb hfact hb'

def look : Op := .ensureBootstrapQuota 0 demoSettings { demoAttempt with provider := .groq } "g" 1

/-- Groq answers that of 1000 requests 3 are left until a minute from now. -/
def respond : Op :=
  let header := fun name => if name = "X-RateLimit-Limit-Requests" then "1000"
    else if name = "X-RateLimit-Remaining-Requests" then "3"
    else if name = "X-RateLimit-Reset-Requests" then "60" else ""
  .observeAndSettleQuota 0 demoSettings .zero { demoAttempt with provider := .groq } "g" 200
    header .empty 0 ⟨1, []⟩

def groqRequests : QuotaBucketKey := ⟨"groq", "model:g", "m", .requests, .day⟩

def known (s : Booting) : Option (Int64 × Time × QuotaConfidence) :=
  (s.ledger.bucketOf groqRequests).map fun b =>
    (b.observation.remaining, b.observation.resetAt, b.observation.confidence)

/-- The answer comes first, and the look leaves it alone. -/
theorem look_leaves_fact : ∃ tr1 s1 tr2 s2, Run step (start (.new 0)) tr1 s1 ∧
    tr1.map Event.input = [respond, .settle 0] ∧ Run step s1 tr2 s2 ∧
    tr2.map Event.input = [look, .boot 0] ∧
    ∃ b : QuotaBucket, s2.ledger.heap[0]? = some b ∧ b.observation.confidence = .authoritative := by
  obtain ⟨⟨tr1, s1⟩, h1⟩ : ∃ r, exec step (start (.new 0)) [respond, .settle 0] = some r :=
    ⟨_, rfl⟩
  obtain ⟨⟨tr2, s2⟩, h2⟩ : ∃ r, exec step s1 [look, .boot 0] = some r := by
    cases h1
    exact ⟨_, rfl⟩
  have hboots : ∀ e ∈ tr1, ∀ i, e.before.boots i = none := by
    cases h1
    simp [start]
  have hclear : ∀ e ∈ tr1 ++ tr2, Clear e := by
    intro e he j c hinput _ i c' key hc'
    rcases mem_append.mp he with hfirst | hsecond
    · rw [hboots e hfirst i] at hc'
      cases hc'
    · -- the second part settles nothing
      have hop : e.input ∈ [look, .boot 0] :=
        exec_inputs h2 ▸ mem_map_of_mem hsecond
      rw [hinput] at hop
      simp [look] at hop
  have hfact : ∃ b : QuotaBucket, s1.ledger.heap[0]? = some b ∧
      b.observation.confidence = .authoritative := by
    cases h1
    exact ⟨_, rfl, rfl⟩
  obtain ⟨b, hb, hconfidence⟩ := hfact
  have hstays := fact_stays (sound_new 0) (run_of_exec h1) (run_of_exec h2) hclear
  exact ⟨tr1, s1, tr2, s2, run_of_exec h1, exec_inputs h1,
    run_of_exec h2, exec_inputs h2, hstays.1 0 b hb hconfidence⟩

/-- The answer comes between the look and the store, and the default replaces it. -/
theorem default_replaces_fact : ∃ tr s s', Run step (start (.new 0)) tr s ∧
    tr.map Event.input = [look, .boot 0, respond, .settle 0] ∧
    step s (.boot 0) = some (s', ()) ∧
    s.known = some (3, 60000000001, .authoritative) ∧
    s'.known = some (1000, 86400000000001, .estimated) := by
  obtain ⟨⟨tr, s⟩, hexec, s', hstep, hs, hs'⟩ : ∃ r,
      exec step (start (.new 0)) [look, .boot 0, respond, .settle 0] = some r ∧
      ∃ s', step r.2 (.boot 0) = some (s', ()) ∧ r.2.known = some (3, 60000000001, .authoritative) ∧
        s'.known = some (1000, 86400000000001, .estimated) :=
    ⟨_, rfl, _, rfl, by decide +kernel, by decide +kernel⟩
  exact ⟨tr, s, s', run_of_exec hexec, exec_inputs hexec, hstep, hs, hs'⟩

end Booting

end CalvoProxy
