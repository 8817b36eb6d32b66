import CalvoProxy.Router.Twins
import CalvoProxy.Lib.Unwinding

/-!
# Requests with several credentials

The quota steps of requests with their own credentials, in any order. Two runs differ in what one
account `X` does. Cooldowns are kept without the credential (`cooldown_shared`); apart from that,
and unless a ranking mixes `X` with others, the others are admitted alike (`others_admitted_alike`).
-/

namespace CalvoProxy

open QuotaLedger List Machine Option RouterService Inquiry AList World Function

variable {X : Account} {key : QuotaBucketKey} {cfg : Settings} {w w1 w2 : World}
  {l1 l2 : QuotaLedger} {estimate : QuotaEstimate} {attempt : ModelAttempt} {credential : String}
  {op : Op} {o : Output} {request : Nat} {t : Tick} {out1 out2 : Option QuotaTicket}

structure Credentials where
  ambientAllowed : Bool
  cerebrasKey : String
  groqKey : String
  apiKey : String

def Settings.withCredentials (cfg : Settings) (c : Credentials) : Settings :=
  { cfg with
    ambientAllowed := c.ambientAllowed
    cerebrasKey := c.cerebrasKey
    groqKey := c.groqKey
    apiKey := c.apiKey }

/-- What the upstream said about quota: `Retry-After` is read at `asked`, a cooldown set at
`cooled`. -/
structure QuotaOutcome where
  status : Int
  header : String → String
  body : ErrorBody
  actualTokens : Int64
  asked : Time
  cooled : Time

def World.settleOutcome (cfg : Settings) (ticket : QuotaTicket) (attempt : ModelAttempt)
    (credential : String) (outcome : QuotaOutcome) (t : Tick) (w : World) : World :=
  let r := w.observeAndSettleQuota cfg ticket attempt credential outcome.status outcome.header
    outcome.body outcome.actualTokens t
  if quotaLimitedStatus outcome.status then
    let retryAfter := parseRetryAfter cfg (outcome.header "Retry-After") outcome.asked
    { r.1 with service := (r.1.service.setQuotaCooldown cfg attempt outcome.cooled
        (Attempt.quotaVerdict retryAfter r.2).1).1 }
  else r.1

structure Holder where
  request : Nat
  account : Account
deriving DecidableEq

structure Traffic where
  world : World
  tickets : GoMap Holder QuotaTicket
  now : Time

namespace Traffic

inductive Op
  | available (attempt : ModelAttempt) (credential : String) (now : Time)
  | canFit (attempt : ModelAttempt) (credential : String) (estimate : QuotaEstimate) (now : Time)
  | reserve (request : Nat) (attempt : ModelAttempt) (credential : String)
      (estimate : QuotaEstimate) (t : Tick)
  | rank (request : Nat) (credentials : Credentials) (round : HoldRound) (estimate : QuotaEstimate)
      (attempts : List ModelAttempt)
  | settle (request : Nat) (attempt : ModelAttempt) (credential : String) (outcome : QuotaOutcome)
      (t : Tick)
  | release (request : Nat) (attempt : ModelAttempt) (credential : String) (t : Tick)

inductive Output
  | available (open' : Bool)
  | fits (fits : Bool)
  | reserved (reservations : Option (List QuotaReservation))
  | ranked (chain : List ModelAttempt) (reservations : Option (List QuotaReservation))
  | done
deriving DecidableEq

def Op.now : Op → Time
  | .available _ _ now => now
  | .canFit _ _ _ now => now
  | .reserve _ _ _ _ t => t.now
  | .rank _ _ round _ _ => round.rankNow
  | .settle _ _ _ _ t => t.now
  | .release _ _ _ t => t.now

def rankedAttempt (cfg : Settings) (a : ModelAttempt) : ModelAttempt :=
  { a with provider := cfg.normalizedProvider a }

def Op.accounts (cfg : Settings) : Op → List Account
  | .available attempt credential _ => [cfg.account attempt credential]
  | .canFit attempt credential _ _ => [cfg.account attempt credential]
  | .reserve _ attempt credential _ _ => [cfg.account attempt credential]
  | .rank _ credentials _ _ attempts =>
    let cfg := cfg.withCredentials credentials
    attempts.map fun a =>
      cfg.account (rankedAttempt cfg a) (cfg.providerCredential (rankedAttempt cfg a))
  | .settle _ attempt credential _ _ => [cfg.account attempt credential]
  | .release _ attempt credential _ => [cfg.account attempt credential]

def Op.reads (cfg : Settings) : Op → List String
  | .available attempt _ _ => [quotaCooldownKey cfg attempt]
  | .reserve _ attempt _ _ _ => [quotaCooldownKey cfg attempt]
  | .rank _ credentials _ _ attempts =>
    let cfg := cfg.withCredentials credentials
    attempts.map fun a => quotaCooldownKey cfg (rankedAttempt cfg a)
  | _ => []

/-- The cooldown that an answer of 429 or 413 starts. -/
def Op.cools (cfg : Settings) : Op → List String
  | .settle _ attempt _ outcome _ =>
    if quotaLimitedStatus outcome.status then [quotaCooldownKey cfg attempt] else []
  | _ => []

def Op.responds : Op → Bool
  | .settle .. => true
  | _ => false

abbrev quota (s : Traffic) : QuotaLedger := s.world.service.quota

def draw (s : Traffic) (w : World) (now : Time) : Option (Holder × QuotaTicket) → Option Traffic
  | none => some { s with world := w, now := now }
  | some (holder, ticket) =>
    if (s.tickets.lookup holder).isSome then none
    else some ⟨w, s.tickets.insert holder ticket, now⟩

def step (cfg : Settings) (s : Traffic) (op : Op) : Option (Traffic × Output) :=
  if op.now < s.now then none
  else match op with
  | .available attempt _ now =>
    some ({ s with now := now }, .available (s.world.service.quotaAttemptAvailable cfg attempt now))
  | .canFit attempt credential estimate now =>
    let r := s.world.quotaCanFit cfg attempt credential estimate now
    some ({ s with world := r.1, now := now }, .fits r.2)
  | .reserve request attempt credential estimate t =>
    match s.world.reserveFallbackQuota cfg attempt credential estimate t with
    | none => none
    | some (w, out) =>
      (s.draw w t.now (out.map fun ticket =>
          (⟨request, cfg.account attempt credential⟩, ticket))).map fun s' =>
        (s', .reserved (out.map w.service.quota.reservations))
  | .rank request credentials round estimate attempts =>
    let cfg := cfg.withCredentials credentials
    match s.world.quotaRankAndReserve cfg round estimate attempts with
    | none => none
    | some (w, chain) =>
      (s.draw w round.rankNow (chain.head?.map fun a =>
          (⟨request, cfg.account a (cfg.providerCredential a)⟩, a.quotaTicket))).map fun s' =>
        (s', .ranked (chain.map (·.unticketed))
          ((chain.head?.map (·.quotaTicket)).map w.service.quota.reservations))
  | .settle request attempt credential outcome t =>
    let holder := ⟨request, cfg.account attempt credential⟩
    let ticket := (s.tickets.lookup holder).getD .zero
    some (⟨s.world.settleOutcome cfg ticket attempt credential outcome t,
      s.tickets.erase holder, t.now⟩, .done)
  | .release request attempt credential t =>
    let holder := ⟨request, cfg.account attempt credential⟩
    match s.tickets.lookup holder with
    | none => some ({ s with now := t.now }, .done)
    | some ticket => some (⟨s.world.release ticket t, s.tickets.erase holder, t.now⟩, .done)

def fresh (self : LedgerId) : Traffic := ⟨⟨⟨.new self, ∅, ∅, ∅, 0⟩, [], [], []⟩, ∅, 0⟩

/-! ## Accounts and holders -/

end Traffic

def Account.Others (X : Account) (key : QuotaBucketKey) : Prop := X.owns key = false

instance (X : Account) : DecidablePred X.Others := fun key => by
  unfold Account.Others
  infer_instance

theorem Account.not_others : ¬X.Others key ↔ X.owns key = true := by
  unfold Others
  simp

theorem Account.owns_some (acc : Account) : ∃ key, acc.owns key = true :=
  ⟨⟨acc.provider, taggedScope ProviderQuotaScope.model.text acc.tag, "", .requests, .day⟩,
    owns_iff.mpr ⟨rfl, .model, rfl⟩⟩

theorem Account.others_of_ne {acc : Account} (h : acc ≠ X) (hkey : acc.owns key = true) :
    X.Others key := by
  unfold Others
  rw [Bool.eq_false_iff]
  exact fun hX => h (owns_unique hkey hX)

theorem Account.ne_of_others {acc : Account} (h : ∀ key, acc.owns key = true → X.Others key) :
    acc ≠ X := by
  intro heq
  obtain ⟨key, hkey⟩ := acc.owns_some
  have hother := h key hkey
  rw [heq] at hkey
  exact nomatch hother.symm.trans hkey

theorem Inquiry.Covers.facts {K : QuotaBucketKey → Prop} (h : Covers K cfg attempt credential)
    (status : Int) (header : String → String) (body : ErrorBody) (now : Time) :
    FactsIn K cfg credential
      (observeProviderQuota cfg attempt.provider attempt.model status header body now) :=
  fun _ ho _ _ hfact =>
    h _ (ledgerFact_owned cfg attempt credential attempt.model status header body now ho hfact)

namespace Traffic

/-- Every ticket in the table is active with one holder, and those of `X` hold keys of `X`. -/
structure Wf (X : Account) (s : Traffic) : Prop where
  sound : s.quota.Sound
  held : ∀ h t, s.tickets.lookup h = some t → ∃ state, s.quota.held t = some state ∧
    (h.account = X → ∀ e ∈ state.holds.entries, ¬X.Others e.1)
  distinct : ∀ h h' t, s.tickets.lookup h = some t → s.tickets.lookup h' = some t → h = h'

/-! ## What a step does -/

def Spends (t : QuotaTicket) (now : Time) (l l' : QuotaLedger) : Prop :=
  ∃ op o, op.uses = some t ∧ op.now = now ∧ op.names = [] ∧ l.step op = some (l', o)

/-- A step reads buckets, or a holder draws a ticket or uses it up; keys outside `K` are not
named. -/
inductive Move (K : QuotaBucketKey → Prop) (now : Time) (s s' : Traffic) : Option Holder → Prop
  | read (hv : Visits K now s.quota s'.quota)
      (ht : ∀ h, s'.tickets.lookup h = s.tickets.lookup h) : Move K now s s' none
  | draw {h : Holder} {t : QuotaTicket} (hv : Visits K now s.quota s'.quota)
      (hi : Issued K s.quota s'.quota t) (hnew : s.tickets.lookup h = none)
      (ht : ∀ h', s'.tickets.lookup h' = if h' = h then some t else s.tickets.lookup h') :
      Move K now s s' (some h)
  | spend {h : Holder} {t : QuotaTicket} {l : QuotaLedger} (hv : Visits K now s.quota l)
      (hheld : s.tickets.lookup h = some t) (hspends : Spends t now l s'.quota)
      (ht : ∀ h', s'.tickets.lookup h' = if h' = h then none else s.tickets.lookup h') :
      Move K now s s' (some h)

section Moves

variable {K : QuotaBucketKey → Prop} {C : String → Prop} {now : Time} {s s' : Traffic}

theorem draw_fields {drawn : Option (Holder × QuotaTicket)}
    (h : s.draw w now drawn = some s') : s'.world = w ∧ s'.now = now := by
  cases drawn with
  | none =>
    cases h
    exact ⟨rfl, rfl⟩
  | some p =>
    simp only [draw] at h
    split at h
    · cases h
    · cases h
      exact ⟨rfl, rfl⟩

theorem le_of_step (h : step cfg s op = some (s', o)) : s.now ≤ op.now := by
  unfold step at h
  split at h
  · cases h
  · next hlate => exact Int.not_lt.mp hlate

theorem draw_move {drawn : Option (Holder × QuotaTicket)}
    (hd : Draws K now s.world w (drawn.map Prod.snd)) (h : s.draw w now drawn = some s') :
    Move K now s s' (drawn.map Prod.fst) := by
  cases drawn with
  | none =>
    cases h
    exact .read hd.visits fun _ => rfl
  | some p =>
    obtain ⟨holder, ticket⟩ := p
    simp only [draw] at h
    split at h
    · cases h
    next hfree =>
    cases h
    refine .draw hd.visits (hd.issued ticket rfl) ?_ fun h' => GoMap.lookup_insert_eq _ _ _ _
    simpa using hfree

/-- The step draws a ticket: `f` gives it, for the holder and with the output that the result
names. -/
inductive Asks (K : QuotaBucketKey → Prop) (C : String → Prop) (cfg : Settings) (op : Op) : Prop
  | intro {α : Type} {Q : α → Prop} {f : World → Option (World × Option (QuotaTicket × α))}
      (hf : Drawing K C op.now Q f) (holder : α → Holder)
      (hholder : ∀ a, Q a → ∀ key, (holder a).account.owns key = true → K key)
      (output : Option α → Option (List QuotaReservation) → Output)
      (hstep : ∀ s : Traffic, s.now ≤ op.now → step cfg s op = (f s.world).bind fun r =>
        (s.draw r.1 op.now (r.2.map fun p => (holder p.2, p.1))).map fun s' =>
          (s', output (r.2.map Prod.snd) ((r.2.map Prod.fst).map r.1.service.quota.reservations)))

theorem Asks.drawn (h : Asks K C cfg op) (hstep : step cfg s op = some (s', o)) :
    ∃ drawn w, s.draw w op.now drawn = some s' ∧ Draws K op.now s.world w (drawn.map Prod.snd) ∧
      ∀ holder ∈ drawn.map Prod.fst, ∀ key, holder.account.owns key = true → K key := by
  obtain ⟨hf, holder, hholder, output, heq⟩ := h
  rw [heq s (le_of_step hstep)] at hstep
  obtain ⟨⟨w, out⟩, hout, hmap⟩ := bind_eq_some_iff.mp hstep
  obtain ⟨s1, hdraw, hpair⟩ := map_eq_some_iff.mp hmap
  cases hpair
  have hresult := (hf.reservation hout).2
  refine ⟨_, w, hdraw, ?_, fun h hmem => ?_⟩
  · rw [Option.map_map]
    exact hf.draws hout
  · rw [Option.map_map] at hmem
    obtain ⟨p, hp, rfl⟩ := map_eq_some_iff.mp hmem
    exact hholder p.2 (hresult p hp)

theorem settle_quota (ticket : QuotaTicket) (attempt : ModelAttempt) (credential : String)
    (outcome : QuotaOutcome) (t : Tick) (w : World) :
    (w.settleOutcome cfg ticket attempt credential outcome t).service.quota =
      (w.observeAndSettleQuota cfg ticket attempt credential outcome.status outcome.header
        outcome.body outcome.actualTokens t).1.service.quota := by
  unfold settleOutcome
  split
  · unfold setQuotaCooldown
    simp only
    generalize (if (_ : Duration) ≤ 0 then _ else _) = duration
    split <;> rfl
  · rfl

variable [DecidablePred K]

/-- The step gives the ticket of `holder` back, if there is one; `f` is what it does. -/
structure Gives (K : QuotaBucketKey → Prop) [DecidablePred K] (C : String → Prop) (cfg : Settings)
    (op : Op) (holder : Holder) (f : Option QuotaTicket → World → World) : Prop where
  step_eq : ∀ s : Traffic, s.now ≤ op.now → step cfg s op =
    some (⟨f (s.tickets.lookup holder) s.world, s.tickets.erase holder, op.now⟩, .done)
  keys : ∀ key, holder.account.owns key = true → K key
  read : ∀ w, Visits K op.now w.service.quota (f none w).service.quota
  spend : ∀ w t, t.valid = true → ∃ l, Visits K op.now w.service.quota l ∧
    Spends t op.now l (f (some t) w).service.quota
  moved : ∀ {w1 w2 out1 out2}, Twins K C op.now w1 w2 →
    TicketsAlike K op.now w1.service.quota w2.service.quota out1 out2 →
    MovedAt K op.now w1.service.quota (f out1 w1).service.quota w2.service.quota
      (f out2 w2).service.quota
  sound : ∀ w out, w.service.quota.Sound → (f out w).service.quota.Sound
  released : op.responds = false → ∀ w out, ∃ t, f out w = out.elim w fun ticket => w.release ticket t
  cools : ∀ {name} w out, name ∉ op.cools cfg →
    (f out w).service.quotaCooldowns.lookup name = w.service.quotaCooldowns.lookup name
  cooldown : ∀ {name w1 w2} out1 out2,
    w1.service.quotaCooldowns.lookup name = w2.service.quotaCooldowns.lookup name →
    (f out1 w1).service.quotaCooldowns.lookup name = (f out2 w2).service.quotaCooldowns.lookup name

theorem setQuotaCooldown_lookup (cfg : Settings) (attempt : ModelAttempt) (now : Time)
    (s : RouterService) (duration : Duration) (name : String) :
    let until' := now + if duration ≤ 0 then 2 * Time.second else duration
    (s.setQuotaCooldown cfg attempt now duration).1.quotaCooldowns.lookup name =
      if name = quotaCooldownKey cfg attempt ∧
          Time.after until' ((s.quotaCooldowns.lookup name).getD 0) = true
      then some until' else s.quotaCooldowns.lookup name := by
  unfold setQuotaCooldown quotaCooldownUntil
  simp only
  generalize (if duration ≤ 0 then 2 * Time.second else duration) = d
  by_cases hname : name = quotaCooldownKey cfg attempt
  · subst hname
    split
    · next hafter => rw [if_pos ⟨rfl, hafter⟩, lookup_insert]
    · next hafter => rw [if_neg (fun h => hafter h.2)]
  · have hother : ¬(name = quotaCooldownKey cfg attempt ∧
        Time.after (now + d) ((s.quotaCooldowns.lookup name).getD 0) = true) := fun h => hname h.1
    rw [if_neg hother]
    split
    · rw [GoMap.lookup_insert_eq, if_neg hname]
    · rfl

theorem settleOutcome_cooldown (cfg : Settings) (attempt : ModelAttempt) (credential : String)
    (outcome : QuotaOutcome) (t : Tick) : ∃ until' : Time, ∀ (ticket : QuotaTicket)
    (w : World) name,
      (w.settleOutcome cfg ticket attempt credential outcome t).service.quotaCooldowns.lookup name =
        if quotaLimitedStatus outcome.status ∧ name = quotaCooldownKey cfg attempt ∧
            Time.after until' ((w.service.quotaCooldowns.lookup name).getD 0) = true
        then some until' else w.service.quotaCooldowns.lookup name := by
  let observations :=
    observeProviderQuota cfg attempt.provider attempt.model outcome.status outcome.header outcome.body
      t.now
  let asked := (Attempt.quotaVerdict
    (parseRetryAfter cfg (outcome.header "Retry-After") outcome.asked) observations).1
  refine ⟨outcome.cooled + if asked ≤ 0 then 2 * Time.second else asked, fun ticket w name => ?_⟩
  have hsettled : (w.observeAndSettleQuota cfg ticket attempt credential outcome.status
      outcome.header outcome.body outcome.actualTokens t).1.service.quotaCooldowns =
      w.service.quotaCooldowns := by
    rw [observeAndSettleQuota_eq]
    split
    · exact (Reads.observeFacts cfg credential t.now _ ∅ w).cooldowns
    · exact (Reads.observeFacts cfg credential t.now _ ∅ w).cooldowns
  unfold settleOutcome
  split
  · next hlimited =>
    simp only [hlimited, true_and]
    have hasked : (Attempt.quotaVerdict (parseRetryAfter cfg (outcome.header "Retry-After")
        outcome.asked) (w.observeAndSettleQuota cfg ticket attempt credential outcome.status
          outcome.header outcome.body outcome.actualTokens t).2).1 = asked := by
      rw [observeAndSettleQuota_eq]
    rw [hasked]
    generalize w.observeAndSettleQuota cfg ticket attempt credential outcome.status outcome.header
      outcome.body outcome.actualTokens t = r at hsettled
    rw [setQuotaCooldown_lookup, hsettled]
  · next hlimited =>
    rw [if_neg (fun h => hlimited h.1), hsettled]

theorem settleOutcome_moved {low : QuotaBucketKey → Prop} [DecidablePred low]
    {C : String → Prop} (ht : Twins low C t.now w1 w2)
    (hK : Covers low cfg attempt credential)
    (htickets : TicketsAlike low t.now w1.service.quota w2.service.quota out1 out2)
    (outcome : QuotaOutcome) :
    MovedAt low t.now w1.service.quota
      (w1.settleOutcome cfg (out1.getD .zero) attempt credential outcome t).service.quota
      w2.service.quota
      (w2.settleOutcome cfg (out2.getD .zero) attempt credential outcome t).service.quota := by
  obtain ⟨hsame, hresult⟩ := observeFacts_agrees
    (hK.facts outcome.status outcome.header outcome.body t.now) ht ∅
  have hnext := hsame.twins ht
  rw [settle_quota, settle_quota, observeAndSettleQuota_eq, observeAndSettleQuota_eq]
  rw [hresult]
  generalize observeFacts cfg credential t.now _ ∅ w1 = r1 at hsame hnext
  generalize observeFacts cfg credential t.now _ ∅ w2 = r2 at hsame hnext
  cases htickets with
  | none => exact hsame.moved
  | @some t1 t2 state1 state2 hpair =>
    have hafter := hpair.moved hsame.moved (hsame.reads1.held t1) (hsame.reads2.held t2)
    simp only [getD_some, valid_of_held hpair.held1, valid_of_held hpair.held2, if_true]
    rw [hafter.reservations]
    exact hsame.moved.trans
      (MovedAt.reconcile t.order hnext.alike hnext.sound1 hnext.sound2 hafter _)

/-- The step looks at the ledger, asks for a ticket or gives one back. -/
inductive Form (K : QuotaBucketKey → Prop) [DecidablePred K] (C : String → Prop) (cfg : Settings)
    (op : Op) : Prop
  | looks {α : Type} {Q : α → Prop} {f : World → World × α} (hf : Inquiry K C op.now Q f)
      (output : α → Output)
      (hstep : ∀ s : Traffic, s.now ≤ op.now → step cfg s op =
        some ({ s with world := (f s.world).1, now := op.now }, output (f s.world).2))
  | asks (h : Asks K C cfg op)
  | gives {holder : Holder} {f : Option QuotaTicket → World → World}
      (h : Gives K C cfg op holder f)

theorem gives_settle {outcome : QuotaOutcome} (hK : Covers K cfg attempt credential) :
    Gives K C cfg (.settle request attempt credential outcome t)
      ⟨request, cfg.account attempt credential⟩
      fun out w => w.settleOutcome cfg (out.getD .zero) attempt credential outcome t where
  step_eq _ hs := if_neg (Int.not_lt.mpr hs)
  keys := hK
  read w := by
    rw [settle_quota, observeAndSettleQuota_eq]
    exact observeFacts_visits (hK.facts outcome.status outcome.header outcome.body t.now) ∅ w
  spend w ticket hvalid := by
    refine ⟨_, observeFacts_visits (hK.facts outcome.status outcome.header outcome.body t.now) ∅ w, ?_⟩
    rw [settle_quota, observeAndSettleQuota_eq]
    simp only [getD_some, hvalid, if_true]
    exact ⟨.reconcile ticket _ t.now t.order, _, rfl, rfl, rfl, rfl⟩
  moved ht htickets := settleOutcome_moved ht hK htickets outcome
  sound w _ hs := by
    have hreads := (Reads.observeFacts cfg credential t.now (observeProviderQuota cfg attempt.provider
      attempt.model outcome.status outcome.header outcome.body t.now) ∅ w).sound hs
    rw [settle_quota, observeAndSettleQuota_eq]
    dsimp only
    split
    · exact hreads.reconcile rfl
    · exact hreads
  released hop := by cases hop
  cools {name} w out hname := by
    obtain ⟨until', hcooldown⟩ := settleOutcome_cooldown cfg attempt credential outcome t
    refine (hcooldown _ w name).trans (if_neg ?_)
    rintro ⟨hlimited, rfl, -⟩
    exact hname (by simp [Op.cools, hlimited])
  cooldown {name w1 w2} out1 out2 hbefore := by
    obtain ⟨until', hcooldown⟩ := settleOutcome_cooldown cfg attempt credential outcome t
    refine (hcooldown _ w1 name).trans (Eq.trans ?_ (hcooldown _ w2 name).symm)
    rw [hbefore]

theorem gives_release (hK : Covers K cfg attempt credential) :
    Gives K C cfg (.release request attempt credential t)
      ⟨request, cfg.account attempt credential⟩
      fun out w => out.elim w fun ticket => w.release ticket t where
  step_eq s hs := by
    unfold step
    rw [if_neg (Int.not_lt.mpr hs)]
    dsimp only
    cases hlookup : s.tickets.lookup ⟨request, cfg.account attempt credential⟩ with
    | none =>
      rw [GoMap.erase_of_lookup hlookup]
      rfl
    | some ticket => rfl
  keys := hK
  read _ := .refl _
  spend _ ticket _ := ⟨_, .refl _, .release ticket t.now t.order, _, rfl, rfl, rfl, rfl⟩
  moved ht htickets := by
    cases htickets with
    | none => exact .refl ht.alike
    | some hpair => exact MovedAt.release t.order ht.alike ht.sound1 ht.sound2 hpair
  sound _ out hs := by
    cases out with
    | none => exact hs
    | some ticket => exact hs.release rfl
  released _ _ _ := ⟨t, rfl⟩
  cools _ out _ := by cases out <;> rfl
  cooldown out1 out2 hbefore := by cases out1 <;> cases out2 <;> exact hbefore

theorem form (hK : ∀ acc ∈ op.accounts cfg, ∀ key, acc.owns key = true → K key)
    (hC : ∀ name ∈ op.reads cfg, C name) : Form K C cfg op := by
  cases op with
  | available attempt credential now =>
    exact .looks (.available (hC _ mem_cons_self)) .available fun _ hs => if_neg (Int.not_lt.mpr hs)
  | canFit attempt credential estimate now =>
    exact .looks (.quotaCanFit (hK _ mem_cons_self) estimate) .fits
      fun _ hs => if_neg (Int.not_lt.mpr hs)
  | reserve request attempt credential estimate t =>
    refine .asks (.intro (.reserveFallbackQuota (hK _ mem_cons_self) (hC _ mem_cons_self) estimate t)
      (fun _ => ⟨request, cfg.account attempt credential⟩) (fun _ _ => hK _ mem_cons_self)
      (fun _ => .reserved) fun s hs => ?_)
    unfold step
    rw [if_neg (Int.not_lt.mpr hs)]
    dsimp only
    rcases s.world.reserveFallbackQuota cfg attempt credential estimate t with
      _ | ⟨w, _ | ticket⟩ <;> rfl
  | rank request credentials round estimate attempts =>
    have hall : ∀ a ∈ attempts, Admissible K C (cfg.withCredentials credentials)
        (rankedAttempt (cfg.withCredentials credentials) a) := fun a ha =>
      ⟨hK _ (mem_map_of_mem ha), hC _ (mem_map_of_mem ha)⟩
    refine .asks (.intro (.quotaRankAndReserve round estimate (fun _ ha => ha) hall)
      (fun a => ⟨request, (cfg.withCredentials credentials).account a.1
        ((cfg.withCredentials credentials).providerCredential a.1)⟩) (fun _ ha => ha.first)
      (fun a => .ranked (a.elim [] fun a => a.1 :: a.2.map (·.unticketed))) fun s hs => ?_)
    unfold step
    rw [if_neg (Int.not_lt.mpr hs)]
    dsimp only
    rcases s.world.quotaRankAndReserve (cfg.withCredentials credentials) round estimate attempts
      with _ | ⟨w, _ | ⟨first, rest⟩⟩ <;> rfl
  | settle request attempt credential outcome t => exact .gives (gives_settle (hK _ mem_cons_self))
  | release request attempt credential t => exact .gives (gives_release (hK _ mem_cons_self))

theorem formed (cfg : Settings) (op : Op) : Form (fun _ => True) (fun _ => True) cfg op :=
  form (fun _ _ _ _ => trivial) fun _ _ => trivial

theorem step_time (h : step cfg s op = some (s', o)) : s'.now = op.now := by
  cases formed cfg op with
  | looks _ _ heq =>
    rw [heq s (le_of_step h)] at h
    cases h
    rfl
  | asks hasks =>
    obtain ⟨drawn, w, hdraw, -⟩ := hasks.drawn h
    exact (draw_fields hdraw).2
  | gives hgives =>
    rw [hgives.step_eq s (le_of_step h)] at h
    cases h
    rfl

theorem Gives.move {holder : Holder} {f : Option QuotaTicket → World → World}
    (h : Gives K C cfg op holder f) (hw : Wf X s) (hstep : step cfg s op = some (s', o)) :
    Move K op.now s s' ((s.tickets.lookup holder).map fun _ => holder) := by
  rw [h.step_eq s (le_of_step hstep)] at hstep
  have htable : ∀ h', (s.tickets.erase holder).lookup h' =
      if h' = holder then none else s.tickets.lookup h' := fun h' => GoMap.lookup_erase_eq _ _ _
  cases hlookup : s.tickets.lookup holder with
  | none =>
    rw [hlookup] at hstep
    cases hstep
    refine .read (h.read s.world) fun h' => (htable h').trans ?_
    split
    · next heq => rw [heq, hlookup]
    · rfl
  | some ticket =>
    rw [hlookup] at hstep
    cases hstep
    obtain ⟨state, hstate, -⟩ := hw.held holder ticket hlookup
    obtain ⟨l, hv, hspends⟩ := h.spend s.world ticket (valid_of_held hstate)
    exact .spend hv hlookup hspends htable

theorem Form.move (h : Form K C cfg op) (hw : Wf X s) (hstep : step cfg s op = some (s', o)) :
    ∃ touched, Move K op.now s s' touched ∧
      ∀ holder ∈ touched, ∀ key, holder.account.owns key = true → K key := by
  cases h with
  | looks hf _ heq =>
    rw [heq s (le_of_step hstep)] at hstep
    cases hstep
    exact ⟨none, .read (hf.visits s.world) fun _ => rfl, fun _ hmem => nomatch hmem⟩
  | asks hasks =>
    obtain ⟨drawn, w, hdraw, hd, hholder⟩ := hasks.drawn hstep
    exact ⟨_, draw_move hd hdraw, hholder⟩
  | gives hgives =>
    refine ⟨_, hgives.move hw hstep, fun holder hmem => ?_⟩
    obtain ⟨ticket, -, rfl⟩ := map_eq_some_iff.mp hmem
    exact hgives.keys

theorem Form.cools (h : Form K C cfg op) (hstep : step cfg s op = some (s', o)) {name : String}
    (hname : name ∉ op.cools cfg) :
    s'.world.service.quotaCooldowns.lookup name = s.world.service.quotaCooldowns.lookup name := by
  cases h with
  | looks hf _ heq =>
    rw [heq s (le_of_step hstep)] at hstep
    cases hstep
    exact congrArg (AList.lookup name) (hf.reads s.world).cooldowns
  | asks hasks =>
    obtain ⟨drawn, w, hdraw, hd, -⟩ := hasks.drawn hstep
    rw [(draw_fields hdraw).1, hd.cooldowns]
  | gives hgives =>
    rw [hgives.step_eq s (le_of_step hstep)] at hstep
    cases hstep
    exact hgives.cools s.world _ hname

end Moves

namespace Move

variable {K : QuotaBucketKey → Prop} {now : Time} {s s' : Traffic} {touched : Option Holder}

theorem sound (h : Move K now s s' touched) (hs : s.quota.Sound) : s'.quota.Sound := by
  cases h with
  | read hv | draw hv => exact hv.sound hs
  | spend hv _ hspends =>
    obtain ⟨op, o, -, -, -, hstep⟩ := hspends
    exact (hv.sound hs).step hstep

theorem length (h : Move K now s s' touched) : s.quota.heap.length ≤ s'.quota.heap.length := by
  cases h with
  | read hv | draw hv => exact hv.length
  | spend hv _ hspends =>
    obtain ⟨op, o, -, -, -, hstep⟩ := hspends
    exact Nat.le_trans hv.length (step_length hstep)

theorem held_other {t t0 : QuotaTicket} {l l' : QuotaLedger} (h : Spends t now l l') (hne : t0 ≠ t)
    {state : QuotaTicketState} (ht0 : l.held t0 = some state) : l'.held t0 = some state := by
  obtain ⟨op, o, huses, -, -, hstep⟩ := h
  refine run_held (Run.start.next hstep) ht0 fun e he huse => ?_
  cases mem_singleton.mp he
  rw [huses] at huse
  exact hne (Option.some.inj huse).symm

theorem others (h : Move K now s s' touched) (hw : Wf X s) {holder : Holder}
    (hother : holder ∉ touched) :
    s'.tickets.lookup holder = s.tickets.lookup holder ∧
      ∀ t, s.tickets.lookup holder = some t → s'.quota.held t = s.quota.held t := by
  have hkeep : ∀ {l : QuotaLedger}, Visits K now s.quota l → ∀ t,
      s.tickets.lookup holder = some t → l.held t = s.quota.held t := by
    intro l hv t ht
    obtain ⟨state, hstate, -⟩ := hw.held holder t ht
    rw [hstate, hv.held hstate]
  cases h with
  | read hv ht => exact ⟨ht holder, hkeep hv⟩
  | draw hv _ _ ht =>
    have hne : holder ≠ _ := fun heq => hother (congrArg some heq.symm)
    rw [ht, if_neg hne]
    exact ⟨rfl, hkeep hv⟩
  | @spend h t l hv hheld hspends ht =>
    have hne : holder ≠ h := fun heq => hother (congrArg some heq.symm)
    rw [ht, if_neg hne]
    refine ⟨rfl, fun t0 ht0 => ?_⟩
    obtain ⟨state, hstate, -⟩ := hw.held holder t0 ht0
    have hne' : t0 ≠ t := by
      rintro rfl
      exact hne (hw.distinct _ _ _ ht0 hheld)
    rw [held_other hspends hne' (hv.held hstate), hstate]

theorem wf (h : Move K now s s' touched) (hw : Wf X s)
    (hX : ∀ holder ∈ touched, holder.account = X → ∀ key, K key → ¬X.Others key) : Wf X s' := by
  -- the tickets that were in the table before
  have hold : ∀ holder t, holder ∉ touched → s'.tickets.lookup holder = some t →
      s.tickets.lookup holder = some t ∧ s'.quota.held t = s.quota.held t := by
    intro holder t hother ht
    obtain ⟨hlookup, hheld⟩ := h.others hw hother
    rw [hlookup] at ht
    exact ⟨ht, hheld t ht⟩
  have hheld : ∀ holder t, holder ∉ touched → s'.tickets.lookup holder = some t →
      ∃ state, s'.quota.held t = some state ∧
        (holder.account = X → ∀ e ∈ state.holds.entries, ¬X.Others e.1) := by
    intro holder t hother ht
    obtain ⟨hbefore, hsame⟩ := hold holder t hother ht
    rw [hsame]
    exact hw.held holder t hbefore
  refine ⟨h.sound hw.sound, fun holder t ht => ?_, fun holder holder' t ht ht' => ?_⟩
  · by_cases htouched : holder ∈ touched
    · cases h with
      | read => cases htouched
      | draw hv hi hnew htable =>
        cases htouched
        rw [htable, if_pos rfl] at ht
        cases ht
        obtain ⟨state, hstate, hkeys⟩ := hi.held
        exact ⟨state, hstate, fun hacc e he => hX _ rfl hacc e.1 (hkeys e he)⟩
      | spend hv _ _ htable =>
        cases htouched
        rw [htable, if_pos rfl] at ht
        cases ht
    · exact hheld holder t htouched ht
  · cases h with
    | read _ htable =>
      rw [htable] at ht ht'
      exact hw.distinct _ _ _ ht ht'
    | @draw h0 t0 hv hi hnew htable =>
      have hclash : ∀ holder, s.tickets.lookup holder ≠ some t0 := by
        intro holder hlookup
        obtain ⟨state, hstate, -⟩ := hw.held holder t0 hlookup
        rw [hi.fresh] at hstate
        cases hstate
      rw [htable] at ht ht'
      split at ht <;> split at ht'
      · next heq heq' => rw [heq, heq']
      · cases ht
        exact absurd ht' (hclash holder')
      · cases ht'
        exact absurd ht (hclash holder)
      · exact hw.distinct _ _ _ ht ht'
    | spend hv _ _ htable =>
      rw [htable] at ht ht'
      split at ht
      · cases ht
      split at ht'
      · cases ht'
      exact hw.distinct _ _ _ ht ht'

theorem hides (h : Move (fun key => ¬X.Others key) now s s' touched) (hw : Wf X s)
    (hX : ∀ holder ∈ touched, holder.account = X) : Hides X.Others now s.quota s'.quota := by
  cases h with
  | read hv | draw hv => exact hv.hides hw.sound
  | @spend h t l hv hheld hspends _ =>
    obtain ⟨state, hstate, hhigh⟩ := hw.held h t hheld
    obtain ⟨op, o, huses, htime, hnames, hstep⟩ := hspends
    have hcall := @Hides.step l X.Others _ _ op o (hv.sound hw.sound)
      (fun key hkey => by rw [hnames] at hkey; exact nomatch hkey) (fun t' ht' => ?_) hstep
    · rw [htime] at hcall
      exact (hv.hides hw.sound).trans hcall
    · rw [huses] at ht'
      cases ht'
      exact highTicket_of_held (hv.held hstate) (hhigh (hX h rfl))

end Move

/-! ## Two runs -/

structure Abreast (X : Account) (C : String → Prop) (now : Time) (s1 s2 : Traffic) : Prop where
  wf1 : Wf X s1
  wf2 : Wf X s2
  alike : AlikeAt X.Others now s1.quota s2.quota
  cooldown : ∀ name, C name → s1.world.service.quotaCooldowns.lookup name =
    s2.world.service.quotaCooldowns.lookup name
  tickets : ∀ h, h.account ≠ X → TicketsAlike X.Others now s1.quota s2.quota
    (s1.tickets.lookup h) (s2.tickets.lookup h)

namespace Abreast

variable {C : String → Prop} {now now' : Time} {s1 s1' s2 s2' : Traffic} {o1 o2 : Output}

theorem twins (h : Abreast X C now s1 s2) : Twins X.Others C now s1.world s2.world :=
  ⟨h.alike, h.wf1.sound, h.wf2.sound, h.cooldown⟩

theorem symm (h : Abreast X C now s1 s2) : Abreast X C now s2 s1 where
  wf1 := h.wf2
  wf2 := h.wf1
  alike := h.alike.symm
  cooldown := fun name hname => (h.cooldown name hname).symm
  tickets := fun holder hacc => (h.tickets holder hacc).symm

theorem ticketsMoved {t t' : Time} {l1' l2' : QuotaLedger}
    (h : TicketsAlike X.Others t l1 l2 out1 out2)
    (hm : Moved X.Others (l1.purgeExpiredLocked t) (l1'.purgeExpiredLocked t')
      (l2.purgeExpiredLocked t) (l2'.purgeExpiredLocked t'))
    (h1 : ∀ ticket, out1 = some ticket → l1'.held ticket = l1.held ticket)
    (h2 : ∀ ticket, out2 = some ticket → l2'.held ticket = l2.held ticket) :
    TicketsAlike X.Others t' l1' l2' out1 out2 := by
  cases h with
  | none => exact .none
  | some hpair => exact .some (hpair.moved hm (h1 _ rfl) (h2 _ rfl))

section

variable (h : Abreast X C now s1 s2)
include h

theorem later (hle : now ≤ now') : Abreast X C now' s1 s2 := by
  have hmoved := Moved.later h.alike hle
  exact ⟨h.wf1, h.wf2, hmoved.alike, h.cooldown, fun holder hacc =>
    ticketsMoved (h.tickets holder hacc) hmoved (fun _ _ => rfl) fun _ _ => rfl⟩

theorem step_own (hnow : op.now ≤ now)
    (hpure : ∀ acc ∈ op.accounts cfg, acc = X) (hcool : ∀ name ∈ op.cools cfg, ¬C name)
    (hstep : step cfg s1 op = some (s1', o1)) : Abreast X C now s1' s2 := by
  have hown : ∀ acc ∈ op.accounts cfg, ∀ key, acc.owns key = true → ¬X.Others key := by
    intro acc hacc key hkey
    rw [hpure acc hacc] at hkey
    exact Account.not_others.mpr hkey
  have hform : Form (fun key => ¬X.Others key) (fun _ => True) cfg op := form hown fun _ _ => trivial
  obtain ⟨touched, hmove, htouched⟩ := hform.move h.wf1 hstep
  have haccount : ∀ holder ∈ touched, holder.account = X := by
    intro holder hmem
    obtain ⟨key, hkey⟩ := holder.account.owns_some
    exact Account.owns_unique hkey (Account.not_others.mp (htouched holder hmem key hkey))
  have hframe := hmove.hides h.wf1 haccount now hnow
  have hmoved := Moved.of_frame hframe hmove.length h.alike
  refine ⟨hmove.wf h.wf1 fun _ _ _ _ hkey => hkey, h.wf2, hmoved.alike, fun name hname => ?_,
    fun holder hacc => ?_⟩
  · rw [hform.cools hstep fun hmem => hcool name hmem hname, h.cooldown name hname]
  · have hother : holder ∉ touched := fun hmem => hacc (haccount holder hmem)
    obtain ⟨hlookup, hheld⟩ := hmove.others h.wf1 hother
    rw [hlookup]
    exact ticketsMoved (h.tickets holder hacc) hmoved hheld fun _ _ => rfl

theorem advance {touched : Option Holder}
    (hmove1 : Move X.Others now s1 s1' touched) (hmove2 : Move X.Others now s2 s2' touched)
    (haccount : ∀ holder ∈ touched, holder.account ≠ X)
    (hmoved : MovedAt X.Others now s1.quota s1'.quota s2.quota s2'.quota)
    (hcooldown : ∀ name, C name → s1'.world.service.quotaCooldowns.lookup name =
      s2'.world.service.quotaCooldowns.lookup name)
    (htouched : ∀ holder ∈ touched, TicketsAlike X.Others now s1'.quota s2'.quota
      (s1'.tickets.lookup holder) (s2'.tickets.lookup holder)) : Abreast X C now s1' s2' := by
  refine ⟨hmove1.wf h.wf1 fun holder hmem hacc => absurd hacc (haccount holder hmem),
    hmove2.wf h.wf2 fun holder hmem hacc => absurd hacc (haccount holder hmem), hmoved.alike,
    hcooldown, fun holder hacc => ?_⟩
  by_cases hmem : holder ∈ touched
  · exact htouched holder hmem
  obtain ⟨hlookup1, hheld1⟩ := hmove1.others h.wf1 hmem
  obtain ⟨hlookup2, hheld2⟩ := hmove2.others h.wf2 hmem
  rw [hlookup1, hlookup2]
  exact ticketsMoved (h.tickets holder hacc) hmoved hheld1 hheld2

theorem advance_draw {drawn1 drawn2 : Option (Holder × QuotaTicket)}
    (hd1 : Draws X.Others now s1.world w1 (drawn1.map Prod.snd))
    (hd2 : Draws X.Others now s2.world w2 (drawn2.map Prod.snd))
    (hpaired : Paired X.Others now s1.world w1 s2.world w2 (drawn1.map Prod.snd)
      (drawn2.map Prod.snd))
    (hholder : drawn1.map Prod.fst = drawn2.map Prod.fst)
    (haccount : ∀ holder ∈ drawn1.map Prod.fst, holder.account ≠ X)
    (h1 : s1.draw w1 now drawn1 = some s1') (h2 : s2.draw w2 now drawn2 = some s2') :
    Abreast X C now s1' s2' := by
  have hmove1 := draw_move hd1 h1
  have hmove2 := draw_move hd2 h2
  have hw1 := (draw_fields h1).1
  have hw2 := (draw_fields h2).1
  rw [← hholder] at hmove2
  have hmoved : MovedAt X.Others now s1.quota s1'.quota s2.quota s2'.quota := by
    unfold quota
    rw [hw1, hw2]
    exact hpaired.moved
  refine h.advance hmove1 hmove2 haccount hmoved (fun name hname => ?_) fun holder hmem => ?_
  · rw [hw1, hw2, hd1.cooldowns, hd2.cooldowns]
    exact h.cooldown name hname
  · have htable : ∀ {s s' : Traffic} {w : World} {drawn : Option (Holder × QuotaTicket)},
        s.draw w now drawn = some s' → holder ∈ drawn.map Prod.fst →
        s'.tickets.lookup holder = drawn.map Prod.snd := by
      intro s s' w drawn hdraw hin
      cases drawn with
      | none => cases hin
      | some p =>
        cases hin
        simp only [draw] at hdraw
        split at hdraw
        · cases hdraw
        · cases hdraw
          exact lookup_insert _
    rw [htable h1 hmem, htable h2 (hholder ▸ hmem)]
    unfold quota
    rw [hw1, hw2]
    exact hpaired.tickets

end

theorem shown {t : Time} (h : TicketsAlike X.Others t l1 l2 out1 out2) :
    out1.map l1.reservations = out2.map l2.reservations := by
  cases h with
  | none => rfl
  | some hpair => exact congrArg some hpair.reservations

theorem drawnAlike {t : Time} (h : TicketsAlike X.Others t l1 l2 out1 out2) (holder : Holder) :
    out1.map (fun _ => holder) = out2.map fun _ => holder := by
  cases h <;> rfl

variable (h : Abreast X C op.now s1 s2)
include h

theorem ask (hasks : Asks X.Others C cfg op)
    (h1 : step cfg s1 op = some (s1', o1)) (h2 : step cfg s2 op = some (s2', o2)) :
    Abreast X C op.now s1' s2' ∧ o1 = o2 := by
  obtain ⟨hf, holder, hholder, output, heq⟩ := hasks
  rw [heq s1 (le_of_step h1)] at h1
  rw [heq s2 (le_of_step h2)] at h2
  obtain ⟨⟨w1, out1⟩, hout1, hmap1⟩ := bind_eq_some_iff.mp h1
  obtain ⟨⟨w2, out2⟩, hout2, hmap2⟩ := bind_eq_some_iff.mp h2
  obtain ⟨u1, hdraw1, hpair1⟩ := map_eq_some_iff.mp hmap1
  obtain ⟨u2, hdraw2, hpair2⟩ := map_eq_some_iff.mp hmap2
  cases hpair1
  cases hpair2
  obtain ⟨hpaired, hresult⟩ := hf.agrees h.twins hout1 hout2
  have hd1 := hf.draws hout1
  have hd2 := hf.draws hout2
  refine ⟨h.advance_draw (by simpa [comp_def] using hd1) (by simpa [comp_def] using hd2)
    (by simpa [comp_def] using hpaired) ?_ (fun holder' hmem => ?_) hdraw1 hdraw2, ?_⟩
  · have hholders := congrArg (Option.map holder) hresult
    rw [Option.map_map, Option.map_map] at hholders
    rw [Option.map_map, Option.map_map]
    exact hholders
  · rw [Option.map_map] at hmem
    obtain ⟨p, hp, rfl⟩ := map_eq_some_iff.mp hmem
    exact Account.ne_of_others (hholder p.2 ((hf.reservation hout1).2 p hp))
  · rw [hresult, shown hpaired.tickets]

theorem give {holder : Holder} {f : Option QuotaTicket → World → World} (hgives : Gives X.Others C cfg op holder f)
    (h1 : step cfg s1 op = some (s1', o1)) (h2 : step cfg s2 op = some (s2', o2)) :
    Abreast X C op.now s1' s2' ∧ o1 = o2 := by
  have haccount : holder.account ≠ X := Account.ne_of_others hgives.keys
  have htickets := h.tickets holder haccount
  have hmove1 := hgives.move h.wf1 h1
  have hmove2 := hgives.move h.wf2 h2
  rw [hgives.step_eq s1 (le_of_step h1)] at h1
  rw [hgives.step_eq s2 (le_of_step h2)] at h2
  cases h1
  cases h2
  rw [← drawnAlike htickets holder] at hmove2
  refine ⟨h.advance hmove1 hmove2 (fun holder' hmem => ?_) (hgives.moved h.twins htickets)
    (fun name hname => hgives.cooldown _ _ (h.cooldown name hname)) fun holder' hmem => ?_, rfl⟩
  · obtain ⟨ticket, -, rfl⟩ := map_eq_some_iff.mp hmem
    exact haccount
  · obtain ⟨ticket, -, rfl⟩ := map_eq_some_iff.mp hmem
    show TicketsAlike X.Others op.now _ _ ((s1.tickets.erase holder).lookup holder)
      ((s2.tickets.erase holder).lookup holder)
    rw [lookup_erase, lookup_erase]
    exact .none

theorem step_others (hothers : X ∉ op.accounts cfg)
    (hreads : ∀ name ∈ op.reads cfg, C name) (h1 : step cfg s1 op = some (s1', o1))
    (h2 : step cfg s2 op = some (s2', o2)) : Abreast X C op.now s1' s2' ∧ o1 = o2 := by
  have hform : Form X.Others C cfg op := by
    refine form (fun acc hacc key hkey => Account.others_of_ne ?_ hkey) hreads
    rintro rfl
    exact hothers hacc
  cases hform with
  | looks hf output heq =>
    obtain ⟨hsame, hresult⟩ := hf.agrees h.twins
    rw [heq s1 (le_of_step h1)] at h1
    rw [heq s2 (le_of_step h2)] at h2
    cases h1
    cases h2
    exact ⟨h.advance (.read (hf.visits _) fun _ => rfl) (.read (hf.visits _) fun _ => rfl)
      (fun _ hmem => nomatch hmem) hsame.moved (hsame.twins h.twins).cooldown
      fun _ hmem => (nomatch hmem), congrArg output hresult⟩
  | asks hasks => exact h.ask hasks h1 h2
  | gives hgives => exact h.give hgives h1 h2

end Abreast

/-- The step is for `X` alone or for others alone. -/
def Op.Unmixed (cfg : Settings) (X : Account) (op : Op) : Prop :=
  X ∈ op.accounts cfg → ∀ acc ∈ op.accounts cfg, acc = X

/-- A step of which the others do not notice `X`: it is not mixed, others look at cooldowns in `C`
only, and `X` starts none of these. -/
structure Op.Apart (cfg : Settings) (X : Account) (C : String → Prop) (op : Op) : Prop where
  unmixed : op.Unmixed cfg X
  reads : X ∉ op.accounts cfg → ∀ name ∈ op.reads cfg, C name
  cools : X ∈ op.accounts cfg → ∀ name ∈ op.cools cfg, ¬C name

theorem unwinding (cfg : Settings) (X : Account) (C : String → Prop) :
    Unwinding (step cfg) (fun op => X ∉ op.accounts cfg) (Op.Apart cfg X C)
      fun s1 s2 => Abreast X C (max s1.now s2.now) s1 s2 where
  symm := by
    intro s1 s2 h
    rw [max_comm]
    exact h.symm
  high := by
    intro s1 s2 op s1' o h hapart hown hstep
    have hmem : X ∈ op.accounts cfg := not_not.mp hown
    have hnow := step_time hstep
    have hle : max s1.now s2.now ≤ max s1'.now s2.now := by
      rw [hnow]
      exact max_le_max_right _ (le_of_step hstep)
    refine (h.later hle).step_own ?_ (hapart.unmixed hmem) (hapart.cools hmem) hstep
    rw [hnow]
    exact le_max_left _ _
  low := by
    intro s1 s2 op s1' s2' o1 o2 h hapart hothers h1 h2
    have hnext := (h.later (max_le (le_of_step h1) (le_of_step h2))).step_others hothers
      (hapart.reads hothers) h1 h2
    rw [step_time h1, step_time h2, max_self]
    exact hnext

theorem wf_fresh (X : Account) (self : LedgerId) : Wf X (fresh self) where
  sound := sound_new self
  held := fun h t ht => by
    rw [show (fresh self).tickets.lookup h = none from lookup_empty h] at ht
    cases ht
  distinct := fun h h' t ht => by
    rw [show (fresh self).tickets.lookup h = none from lookup_empty h] at ht
    cases ht

theorem abreast_fresh (X : Account) (C : String → Prop) (now : Time) (self : LedgerId) :
    Abreast X C now (fresh self) (fresh self) where
  wf1 := wf_fresh X self
  wf2 := wf_fresh X self
  alike := ⟨rfl, fun _ _ => rfl⟩
  cooldown := fun _ _ => rfl
  tickets := fun h _ => by
    rw [show (fresh self).tickets.lookup h = none from lookup_empty h]
    exact .none

def demoOutcome (status : Int) : QuotaOutcome := ⟨status, fun _ => "", .empty, 0, 1, 1⟩

/-- One credential is answered for a model, then another asks for `demoAttempt`. -/
def demoTraffic (model : String) (status : Int) : List Op :=
  [.settle 1 { demoAttempt with model := model } "a" (demoOutcome status) ⟨1, []⟩,
    .available demoAttempt "b" 2]

def demoAccount : Account := ⟨"openrouter", some "a"⟩

/-- Requests of other accounts get the same answers whatever `X` does, as long as it starts no
cooldown that they look at. -/
theorem others_admitted_alike (cfg : Settings) (X : Account) (self : LedgerId)
    {tr tr' : List (Event Traffic Op Output)} {s s' : Traffic}
    (hrun : Run (step cfg) (fresh self) tr s)
    (hrun' : Run (step cfg) (fresh self) tr' s')
    (hsame : lowInputs (fun op => X ∉ Op.accounts cfg op) tr =
      lowInputs (fun op => X ∉ Op.accounts cfg op) tr')
    (hunmixed : ∀ e ∈ tr ++ tr', e.input.Unmixed cfg X)
    (hcools : ∀ e ∈ tr ++ tr', X ∈ e.input.accounts cfg → ∀ name ∈ e.input.cools cfg,
      ∀ op ∈ lowInputs (fun op => X ∉ Op.accounts cfg op) tr, name ∉ op.reads cfg) :
    lowOutputs (fun op => X ∉ Op.accounts cfg op) tr =
      lowOutputs (fun op => X ∉ Op.accounts cfg op) tr' := by
  -- the cooldowns that matter are those that the others look at
  let C : String → Prop := fun name =>
    ∃ op ∈ lowInputs (fun op => X ∉ Op.accounts cfg op) tr, name ∈ op.reads cfg
  have hlow : ∀ {tr : List (Event Traffic Op Output)} {e : Event Traffic Op Output},
      e ∈ tr → X ∉ e.input.accounts cfg →
      e.input ∈ lowInputs (fun op => X ∉ Op.accounts cfg op) tr :=
    fun he hothers => mem_map_of_mem (mem_filter.mpr ⟨he, by simpa using hothers⟩)
  have hcool : ∀ e ∈ tr ++ tr', X ∈ e.input.accounts cfg → ∀ name ∈ e.input.cools cfg, ¬C name := by
    rintro e he hown name hname ⟨op, hop, hreads⟩
    exact hcools e he hown name hname op hop hreads
  have hapart : ∀ e ∈ tr, e.input.Apart cfg X C := fun e he =>
    ⟨hunmixed e (mem_append_left _ he), fun hothers name hname => ⟨e.input, hlow he hothers, hname⟩,
      hcool e (mem_append_left _ he)⟩
  have hapart' : ∀ e ∈ tr', e.input.Apart cfg X C := fun e he =>
    ⟨hunmixed e (mem_append_right _ he),
      fun hothers name hname => ⟨e.input, hsame ▸ hlow he hothers, hname⟩,
      hcool e (mem_append_right _ he)⟩
  exact ((unwinding cfg X C).run (abreast_fresh X C _ self) hrun hrun' hapart hapart' hsame).2

theorem refusal_of_other_model_unseen : ∃ tr tr' s s', Run (step demoSettings) (fresh 0) tr s ∧
    Run (step demoSettings) (fresh 0) tr' s' ∧
    tr.map Event.input = demoTraffic "n" 429 ∧
    tr'.map Event.input = demoTraffic "n" 200 ∧
    lowOutputs (fun op => demoAccount ∉ Op.accounts demoSettings op) tr =
      lowOutputs (fun op => demoAccount ∉ Op.accounts demoSettings op) tr' := by
  have hreturns : ∀ status ∈ [429, 200], (exec (step demoSettings) (fresh 0)
      (demoTraffic "n" status)).isSome = true := by decide +kernel
  obtain ⟨⟨tr, s⟩, h⟩ := isSome_iff_exists.mp (hreturns 429 (by decide))
  obtain ⟨⟨tr', s'⟩, h'⟩ := isSome_iff_exists.mp (hreturns 200 (by decide))
  have hinputs := exec_inputs h
  have hinputs' := exec_inputs h'
  have hmem : ∀ e ∈ tr ++ tr', ∃ status, e.input ∈ demoTraffic "n" status := by
    intro e he
    rcases mem_append.mp he with he | he
    · exact ⟨429, hinputs ▸ mem_map_of_mem he⟩
    · exact ⟨200, hinputs' ▸ mem_map_of_mem he⟩
  have hlow : ∀ status, (demoTraffic "n" status).filter
      (fun op => demoAccount ∉ Op.accounts demoSettings op) = [.available demoAttempt "b" 2] :=
    fun _ => rfl
  refine ⟨tr, tr', s, s', run_of_exec h, run_of_exec h', hinputs, hinputs',
    others_admitted_alike demoSettings demoAccount 0 (run_of_exec h) (run_of_exec h') ?_ ?_ ?_⟩
  · rw [lowInputs_eq, lowInputs_eq, hinputs, hinputs', hlow, hlow]
  · intro e he
    obtain ⟨status, hop⟩ := hmem e he
    simp only [demoTraffic, mem_cons, not_mem_nil, or_false] at hop
    rcases hop with hop | hop
    · rw [hop]
      exact fun _ acc hacc => mem_singleton.mp hacc ▸ by decide +kernel
    · rw [hop]
      exact fun hmem => absurd hmem (by decide +kernel)
  · intro e he hown name hname op hop
    rw [lowInputs_eq, hinputs, hlow, mem_singleton] at hop
    obtain ⟨status, hin⟩ := hmem e he
    simp only [demoTraffic, mem_cons, not_mem_nil, or_false] at hin
    rcases hin with hin | hin
    · rw [hin] at hname
      simp only [Op.cools] at hname
      split at hname
      · rw [mem_singleton.mp hname, hop]
        decide +kernel
      · cases hname
    · rw [hin] at hname
      cases hname

/-- What the upstream says to the credential `a` decides whether `b` may ask. -/
theorem cooldown_shared : demoSettings.credentialTag "a" ≠ demoSettings.credentialTag "b" ∧
    (exec (step demoSettings) (fresh 0) (demoTraffic "m" 200)).map (fun r =>
      lowOutputs (fun op => demoAccount ∉ Op.accounts demoSettings op) r.1) =
        some [.available true] ∧
    (exec (step demoSettings) (fresh 0) (demoTraffic "m" 429)).map (fun r =>
      lowOutputs (fun op => demoAccount ∉ Op.accounts demoSettings op) r.1) =
        some [.available false] := by
  decide +kernel

end Traffic

end CalvoProxy
