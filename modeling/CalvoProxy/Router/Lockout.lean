import CalvoProxy.Quota.Expiry
import CalvoProxy.Router.Admission
import CalvoProxy.Router.Traffic

/-!
# Buckets that refuse for ever

A bucket that says that nothing is left keeps responses from correcting it, so it must go away by
itself. The bucket of a day without a time of renewal does not (`undated_day_refuses`); every other
one does (`bucket_lets_go`).
-/

namespace CalvoProxy

open QuotaLedger List Machine Option

variable {provider : ProviderID} {credential model : String} {o : ProviderQuotaObservation}
  {fact : QuotaObservation} {cfg : Settings} {outcome : QuotaOutcome} {out : Option QuotaTicket}
  {attempts chain : List ModelAttempt} {tr : List (Event Traffic Op Output)} {w : World}
  {now : Time} {key : QuotaBucketKey} {attempt : ModelAttempt} {t : Tick}

/-! ## Responses that name the reset -/

/-- Where both numbers of a quota are readable, so is its reset. -/
def datedFields (limitRaw remainingRaw : String) (resetAt : Option Time) : Bool :=
  (parseNonNegativeInt64 limitRaw).isNone || (parseNonNegativeInt64 remainingRaw).isNone ||
    !Time.isZero (resetAt.getD 0)

/-- The response names the reset of a day if it names its limit and its rest. -/
def datedResponse (cfg : Settings) (provider : ProviderID) (status : Int)
    (header : String → String) (body : ErrorBody) (now : Time) : Bool :=
  match provider with
  | .openRouter =>
    match (if status = 429 then body.freeTierDaily else none) with
    | some headers => datedFields (headers "X-RateLimit-Limit") (headers "X-RateLimit-Remaining")
        (resetUnixMilliseconds (headers "X-RateLimit-Reset"))
    | none => true
  | .cerebras => datedFields (header "X-RateLimit-Limit-Requests-Day")
      (header "X-RateLimit-Remaining-Requests-Day")
      (resetDurationOrTimestamp cfg (header "X-RateLimit-Reset-Requests-Day") now)
  | .groq => datedFields (header "X-RateLimit-Limit-Requests")
      (header "X-RateLimit-Remaining-Requests")
      (resetDurationOrTimestamp cfg (header "X-RateLimit-Reset-Requests") now)
  | _ => true

theorem observationsFromFields_fact {scope : ProviderQuotaScope}
    {dimension : ProviderQuotaDimension} {window : ProviderQuotaWindow}
    {limitRaw remainingRaw : String} {resetAt : Option Time} {source : ProviderQuotaSource}
    (ho : o ∈ observationsFromFields provider model scope dimension window limitRaw remainingRaw
      resetAt now source) (hfact : o.ledgerFact = some (key, fact)) :
    fact.resetAt = resetAt.getD 0 ∧ (parseNonNegativeInt64 limitRaw).isSome = true ∧
      (parseNonNegativeInt64 remainingRaw).isSome = true ∧
      (window = .minute ∧ key.window = .minute ∨ window = .day) := by
  have hremaining : ∀ {limit remaining : Option Int64} {v : Int64},
      cappedRemaining limit remaining = some v → remaining.isSome = true := by
    intro limit remaining v hv
    cases remaining with
    | none => cases limit <;> cases hv
    | some => rfl
  simp only [observationsFromFields] at ho
  generalize parseNonNegativeInt64 limitRaw = limit at ho ⊢
  generalize parseNonNegativeInt64 remainingRaw = remaining at ho ⊢
  split at ho
  · exact absurd ho not_mem_nil
  rw [mem_singleton.mp ho] at hfact
  unfold ProviderQuotaObservation.ledgerFact at hfact
  simp only at hfact
  split at hfact
  · next hwindow _ hrest =>
    cases hfact
    refine ⟨rfl, rfl, hremaining hrest, ?_⟩
    cases window with
    | unknown => cases hwindow
    | minute => exact .inl ⟨rfl, (Option.some.inj hwindow).symm⟩
    | day => exact .inr rfl
  · cases hfact

theorem ledgerFact_dated {status : Int} {header : String → String} {body : ErrorBody}
    (hdated : datedResponse cfg provider status header body now = true)
    (ho : o ∈ observeProviderQuota cfg provider model status header body now)
    (hfact : o.ledgerFact = some (key, fact)) :
    key.window = .minute ∨ fact.resetAt ≠ 0 := by
  -- the fields of a day are the ones that the response must date
  have hday : ∀ {provider : ProviderID} {scope : ProviderQuotaScope}
      {dimension : ProviderQuotaDimension} {window : ProviderQuotaWindow}
      {limitRaw remainingRaw : String} {resetAt : Option Time} {source : ProviderQuotaSource}
      {o : ProviderQuotaObservation},
      o ∈ observationsFromFields provider model scope dimension window limitRaw remainingRaw resetAt
        now source → o.ledgerFact = some (key, fact) →
      (window = .day → datedFields limitRaw remainingRaw resetAt = true) →
      key.window = .minute ∨ fact.resetAt ≠ 0 := by
    intro provider scope dimension window limitRaw remainingRaw resetAt source o ho hfact hwindow
    obtain ⟨hreset, hlimit, hremaining, ⟨-, hminute⟩ | hday⟩ := observationsFromFields_fact ho hfact
    · exact .inl hminute
    right
    have hfields := hwindow hday
    unfold datedFields at hfields
    rw [← not_isSome, ← not_isSome, hlimit, hremaining, ← hreset] at hfields
    simpa [Time.isZero] using hfields
  unfold observeProviderQuota at ho
  simp only at ho
  generalize parseRetryAfterAt cfg (header "Retry-After") now = retryAfter at ho
  split at ho
  · rw [mem_singleton.mp ho] at hfact
    cases hfact
  · obtain ⟨o', ho', rfl⟩ := mem_map.mp ho
    have hfact' : o'.ledgerFact = some (key, fact) := hfact
    unfold providerSignals at ho'
    unfold datedResponse at hdated
    cases provider with
    | openRouter =>
      simp only [observeOpenRouterQuota] at ho' hdated
      split at ho'
      · next headers hheaders =>
        rw [hheaders] at hdated
        exact hday ho' hfact' fun _ => hdated
      · exact hday ho' hfact' fun h => by cases h
    | cerebras =>
      simp only [observeCerebrasQuota, mem_append] at ho' hdated
      rcases ho' with ho' | ho'
      · exact hday ho' hfact' fun _ => hdated
      · exact hday ho' hfact' fun h => by cases h
    | groq =>
      simp only [observeGroqQuota, mem_append] at ho' hdated
      rcases ho' with ho' | ho'
      · exact hday ho' hfact' fun _ => hdated
      · exact hday ho' hfact' fun h => by cases h
    | _ => exact absurd ho' not_mem_nil

/-! ## The ledger stays dated -/

section Settling

theorem observeFacts_dated {os : List ProviderQuotaObservation}
    {facts : GoMap QuotaBucketKey QuotaObservation} (hnow : 0 ≤ now)
    (hos : ∀ o ∈ os, ∀ key fact, o.ledgerFact = some (key, fact) →
      key.window = .minute ∨ fact.resetAt ≠ 0)
    (hd : w.service.quota.Dated) (hfacts : ∀ k o, facts.lookup k = some o → o.resetAt ≠ 0) :
    (World.observeFacts cfg credential now os facts w).1.service.quota.Dated ∧
      ∀ k o, (World.observeFacts cfg credential now os facts w).2.lookup k = some o →
        o.resetAt ≠ 0 := by
  induction os generalizing facts w with
  | nil => exact ⟨hd, hfacts⟩
  | cons o os ih =>
    have hrest : ∀ o' ∈ os, ∀ key fact, o'.ledgerFact = some (key, fact) →
        key.window = .minute ∨ fact.resetAt ≠ 0 :=
      fun o' ho' => hos o' (mem_cons_of_mem o ho')
    unfold World.observeFacts
    cases hfact : o.ledgerFact with
    | none => exact ih hrest hd hfacts
    | some p =>
      obtain ⟨key, fact⟩ := p
      simp only
      -- a minute without a reset is given the end of the minute
      have hstored : (if Time.isZero fact.resetAt && decide (key.window = .minute)
          then { fact with resetAt := nextMinuteReset now } else fact).resetAt ≠ 0 := by
        split
        · exact Int.ne_of_gt (Int.lt_of_le_of_lt hnow (nextMinuteReset_after now))
        next hkeep =>
        rcases hos o mem_cons_self key fact hfact with hminute | hreset
        · simpa [hminute, Time.isZero] using hkeep
        · exact hreset
      refine ih hrest (hd.observe hstored) fun k o' hk => ?_
      rw [GoMap.lookup_insert_eq] at hk
      split at hk
      · exact Option.some.inj hk ▸ hstored
      · exact hfacts k o' hk

theorem settleOutcome_dated {ticket : QuotaTicket} (hnow : 0 ≤ t.now)
    (hdated : datedResponse cfg attempt.provider outcome.status outcome.header outcome.body
      t.now = true) (hd : w.service.quota.Dated) :
    (w.settleOutcome cfg ticket attempt credential outcome t).service.quota.Dated := by
  have hfacts := @observeFacts_dated credential cfg w t.now
    (observeProviderQuota cfg attempt.provider attempt.model outcome.status outcome.header
      outcome.body t.now) ∅ hnow
    (fun o ho key fact hfact => ledgerFact_dated hdated ho hfact) hd fun k o hk => by
      rw [AList.lookup_empty] at hk
      cases hk
  rw [Traffic.settle_quota, World.observeAndSettleQuota_eq]
  simp only
  generalize World.observeFacts cfg credential t.now _ ∅ w = r at hfacts
  split
  · refine hfacts.1.reconcile (fun s hs o ho => ?_) rfl
    obtain ⟨reservation, -, rfl⟩ := mem_map.mp hs
    exact hfacts.2 reservation.key o ho
  · exact hfacts.1

end Settling

/-! ## Steps without a response -/

section Quiet

variable {K : QuotaBucketKey → Prop} {C : String → Prop} {α : Type} {Q : α → Prop}
  {f : World → World × α} {w' : World}

theorem observeIfUnknown_undisturbed {p : PublishedLimit} (hs : w.service.quota.Sound)
    (hnow : 0 ≤ now) (hreset : now < p.2.2) :
    Undisturbed w.service.quota (w.observeIfUnknown now p).service.quota := by
  rcases observeIfUnknown_cases hs hreset with ⟨-, hl | hl⟩ | ⟨-, -, hnew, hl⟩
  · rw [hl]
    exact .refl _
  · rw [hl]
    exact .snapshot _ p.1 now
  · rw [hl]
    exact ((Undisturbed.snapshot _ p.1 now).trans (.purge _ now)).trans (.install hnew hnow hreset)

theorem Inquiry.undisturbed (h : Inquiry K C now Q f) (hs : w.service.quota.Sound)
    (hnow : 0 ≤ now) : Undisturbed w.service.quota (f w).1.service.quota :=
  h.relates .refl .trans (fun hs hreset => observeIfUnknown_undisturbed hs hnow hreset)
    (.snapshot · · now) (.purge · now) hs

theorem Drawing.undisturbed {g : World → Option (World × Option (QuotaTicket × α))}
    {drawn : Option (QuotaTicket × α)} (h : Drawing K C now Q g) (hs : w.service.quota.Sound)
    (hnow : 0 ≤ now) (hg : g w = some (w', drawn)) :
    Undisturbed w.service.quota w'.service.quota := by
  induction h generalizing w with
  | nothing =>
    cases hg
    exact .refl _
  | inquire hf _ ih =>
    exact (hf.undisturbed hs hnow).trans (ih _ (hf.result w) ((hf.reads w).sound hs) hg)
  | reserve _ _ _ _ ih =>
    obtain ⟨⟨w1, ticket⟩, hreserve, hrest⟩ := bind_eq_some_iff.mp hg
    obtain ⟨quota, hquota, heq⟩ := map_eq_some_iff.mp hreserve
    have hfirst : Undisturbed w.service.quota w1.service.quota := by
      cases heq
      exact .reserveAll hquota
    cases ticket with
    | none => exact hfirst.trans (ih ((Reserves.intro (.refl w) hreserve).reads.sound hs) hrest)
    | some ticket =>
      cases hrest
      exact hfirst

end Quiet

namespace Traffic

def Op.Dated (cfg : Settings) : Op → Prop
  | .settle _ attempt _ outcome t =>
    datedResponse cfg attempt.provider outcome.status outcome.header outcome.body t.now = true
  | _ => True

variable {s s' : Traffic} {op : Op} {o : Output}

theorem step_sound (hs : s.quota.Sound) (h : step cfg s op = some (s', o)) : s'.quota.Sound := by
  cases formed cfg op with
  | looks hf _ heq =>
    rw [heq s (le_of_step h)] at h
    cases h
    exact (hf.reads s.world).sound hs
  | asks hasks =>
    obtain ⟨drawn, w, hdraw, hd, -⟩ := hasks.drawn h
    unfold quota
    rw [(draw_fields hdraw).1]
    exact hd.visits.sound hs
  | gives hgives =>
    rw [hgives.step_eq s (le_of_step h)] at h
    cases h
    exact hgives.sound s.world _ hs

theorem step_undisturbed (hs : s.quota.Sound) (hnow : 0 ≤ op.now) (hop : op.responds = false)
    (h : step cfg s op = some (s', o)) : Undisturbed s.quota s'.quota := by
  cases formed cfg op with
  | looks hf _ heq =>
    rw [heq s (le_of_step h)] at h
    cases h
    exact hf.undisturbed hs hnow
  | asks hasks =>
    obtain ⟨hf, holder, hholder, output, heq⟩ := hasks
    rw [heq s (le_of_step h)] at h
    obtain ⟨⟨w, drawn⟩, hdrawn, hmap⟩ := bind_eq_some_iff.mp h
    obtain ⟨s1, hdraw, hpair⟩ := map_eq_some_iff.mp hmap
    cases hpair
    unfold quota
    rw [(draw_fields hdraw).1]
    exact hf.undisturbed hs hnow hdrawn
  | @gives holder f hgives =>
    rw [hgives.step_eq s (le_of_step h)] at h
    cases h
    obtain ⟨t, heq⟩ := hgives.released hop s.world (s.tickets.lookup holder)
    unfold quota
    dsimp only
    rw [heq]
    cases s.tickets.lookup holder with
    | none => exact .refl _
    | some ticket => exact .release rfl

theorem step_settle {request : Nat}
    (h : step cfg s (.settle request attempt credential outcome t) = some (s', o)) (hnow : 0 ≤ t.now)
    (hdated : (Op.settle request attempt credential outcome t).Dated cfg) (hd : s.quota.Dated) :
    s'.quota.Dated := by
  unfold step at h
  split at h
  · cases h
  cases h
  exact settleOutcome_dated hnow hdated hd

structure Running (s : Traffic) : Prop where
  sound : s.quota.Sound
  time : 0 ≤ s.now

theorem Running.step (hs : Running s) (h : step cfg s op = some (s', o)) : Running s' :=
  ⟨step_sound hs.sound h, step_time h ▸ Int.le_trans hs.time (le_of_step h)⟩

theorem running_fresh (self : LedgerId) : Running (fresh self) := ⟨sound_new self, Int.le_refl 0⟩

theorem run_dated {self : LedgerId} (h : Run (Traffic.step cfg) (fresh self) tr s)
    (hdated : ∀ e ∈ tr, e.input.Dated cfg) : Running s ∧ s.quota.Dated := by
  refine h.invariant (P := fun s => Running s ∧ s.quota.Dated)
    (Q := fun e => e.input.Dated cfg) (fun s op s' o hs hop hstep => ?_)
    ⟨running_fresh self, fun a b hb => nomatch hb⟩ hdated
  refine ⟨hs.1.step hstep, ?_⟩
  have htime := Int.le_trans hs.1.time (le_of_step hstep)
  cases hquiet : op.responds with
  | false => exact hs.2.of_undisturbed (step_undisturbed hs.1.sound htime hquiet hstep)
  | true =>
    cases op with
    | settle => exact step_settle hstep htime hop hs.2
    | _ => cases hquiet

theorem run_undisturbed (h : Run (Traffic.step cfg) s tr s') (hs : Running s)
    (hquiet : ∀ e ∈ tr, e.input.responds = false) : Running s' ∧ Undisturbed s.quota s'.quota := by
  refine h.invariant (P := fun s' => Running s' ∧ Undisturbed s.quota s'.quota)
    (Q := fun e => e.input.responds = false) (fun s1 op s2 o hs1 hop hstep => ?_)
    ⟨hs, .refl _⟩ hquiet
  have htime := Int.le_trans hs1.1.time (le_of_step hstep)
  exact ⟨hs1.1.step hstep, hs1.2.trans (step_undisturbed hs1.1.sound htime hop hstep)⟩

end Traffic

/-! ## Letting go -/

theorem quotaCanFit_refuses {estimate : QuotaEstimate} {q : QuotaSnapshot}
    (hs : w.service.quota.Sound)
    (hlimits : World.limitsAttempt cfg attempt credential key = true)
    (hcost : 0 < attemptCost cfg attempt estimate key)
    (hq : w.service.quota.visible now key = some q)
    (hfits : q.fits (attemptCost cfg attempt estimate key) = false) :
    (w.quotaCanFit cfg attempt credential estimate now).2 = false := by
  rw [Bool.eq_false_iff]
  intro hfit
  have hall := (quotaCanFit_iff hs).mp hfit key hlimits hcost
  rw [seen, hq, some_or, all_some, hfits] at hall
  cases hall

def World.without (w : World) (key : QuotaBucketKey) : World :=
  { w with service := { w.service with quota := w.service.quota.without key } }

/-- At `now` the answers are those of the ledger without the bucket under `key`. -/
structure Harmless (key : QuotaBucketKey) (now : Time) (w : World) : Prop where
  canFit : ∀ cfg attempt credential estimate,
    (w.quotaCanFit cfg attempt credential estimate now).2 =
      ((w.without key).quotaCanFit cfg attempt credential estimate now).2
  reserveAll : ∀ rs order, (w.service.quota.reserveAll rs now order).map Prod.snd =
    ((w.without key).service.quota.reserveAll rs now order).map Prod.snd

theorem harmless_of_expired {b : QuotaBucket}
    (hs : w.service.quota.Sound) (hb : w.service.quota.bucketOf key = some b)
    (hexp : expired b.observation now = true) : Harmless key now w := by
  have hpurge := purge_without hb hexp
  refine ⟨fun cfg attempt credential estimate => ?_, fun rs order =>
    (reserveAll_of_purge_eq hpurge rs order).symm⟩
  have hsound : (w.without key).service.quota.Sound := hs.eraseBucket key
  have hseen : ∀ k, seen cfg attempt credential now (w.without key).service.quota k =
      seen cfg attempt credential now w.service.quota k := by
    intro k
    unfold seen visible QuotaLedger.snapshot
    rw [show (w.without key).service.quota.purgeExpiredLocked now = _ from hpurge]
  rw [Bool.eq_iff_iff, quotaCanFit_iff hs, quotaCanFit_iff hsound]
  simp only [hseen]

namespace Traffic

/-- If every response that names the limit and the rest of a day also names its reset, every bucket
lets go: after some time without a response, what is under the key is a new default, or makes no
difference to any answer. -/
theorem bucket_lets_go (cfg : Settings) (self : LedgerId) {s : Traffic}
    (hrun : Run (step cfg) (fresh self) tr s) (hdated : ∀ e ∈ tr, e.input.Dated cfg)
    {a : Addr} (hbucket : s.quota.buckets.lookup key = some a) :
    ∃ T : Time, ∀ tr' s', Run (step cfg) s tr' s' →
      (∀ e ∈ tr', e.input.responds = false) → ∀ now, T ≤ now →
      (∀ a', (s'.quota.purgeExpiredLocked now).buckets.lookup key = some a' → a' ≠ a ∧
        ∃ b, s'.quota.heap[a']? = some b ∧ IsDefault b.observation) ∧
      (s'.quota.buckets.lookup key = some a → Harmless key now s'.world) := by
  obtain ⟨hs, hd⟩ := run_dated hrun hdated
  have hlt : a < s.quota.heap.length := hs.sound.pointed.addr key a hbucket
  obtain ⟨b, hb⟩ : ∃ b, s.quota.heap[a]? = some b := ⟨_, List.getElem?_eq_getElem hlt⟩
  refine ⟨b.observation.resetAt, fun tr' s' hrun' hquiet now hnow => ?_⟩
  obtain ⟨hs', hsame⟩ := run_undisturbed hrun' hs hquiet
  obtain ⟨b', hb', hobs⟩ := hsame.kept a b hb
  -- the object is what it was, and its reset has passed
  have hexp : expired b'.observation now = true := by
    unfold expired Time.isZero Time.after
    rw [hobs]
    simpa using ⟨hd a b hb, hnow⟩
  have hgone : s'.quota.buckets.lookup key = some a → s'.quota.bucketOf key = some b' := by
    intro hkey
    rw [bucketOf, hkey]
    exact hb'
  refine ⟨fun a' ha' => ?_, fun hkey => harmless_of_expired hs'.sound (hgone hkey) hexp⟩
  obtain ⟨hkey, hlive⟩ := lookup_purge.mp ha'
  have hne : a' ≠ a := by
    rintro rfl
    rw [hlive b' (hgone hkey)] at hexp
    cases hexp
  refine ⟨hne, ?_⟩
  -- another object under the key was made after the last response
  rcases hsame.evolves.pointer key a' hkey with hold | hnew
  · rw [hbucket] at hold
    exact absurd (Option.some.inj hold).symm hne
  · have hlt' := hs'.sound.pointed.addr key a' hkey
    exact ⟨_, List.getElem?_eq_getElem hlt', hsame.added a' _ (List.getElem?_eq_getElem hlt')
      (List.getElem?_eq_none_iff.mpr hnew)⟩

/-- Groq says that of 1000 requests a day none is left until `reset`. -/
def groqSpent (reset : String) : Op :=
  let header := fun name => if name = "X-RateLimit-Limit-Requests" then "1000"
    else if name = "X-RateLimit-Remaining-Requests" then "0"
    else if name = "X-RateLimit-Reset-Requests" then reset else ""
  .settle 1 { demoAttempt with provider := .groq } "g" ⟨200, header, .empty, 0, 1, 1⟩ ⟨1, []⟩

def groqDayKey : QuotaBucketKey := ⟨"groq", "model:g", "m", .requests, .day⟩

/-- With a reset after a minute the bucket lets go. -/
theorem groq_spent_lets_go : ∃ tr s, Run (step demoSettings) (fresh 0) tr s ∧
    tr.map Event.input = [groqSpent "60"] ∧
    s.quota.buckets.lookup groqDayKey = some 0 ∧
    ∃ T : Time, ∀ tr' s', Run (step demoSettings) s tr' s' →
      (∀ e ∈ tr', e.input.responds = false) → ∀ now, T ≤ now →
      (∀ a', (s'.quota.purgeExpiredLocked now).buckets.lookup groqDayKey = some a' → a' ≠ 0 ∧
        ∃ b, s'.quota.heap[a']? = some b ∧ IsDefault b.observation) ∧
      (s'.quota.buckets.lookup groqDayKey = some 0 → Harmless groqDayKey now s'.world) := by
  have hkey : (exec (step demoSettings) (fresh 0) [groqSpent "60"]).map
      (fun r => r.2.quota.buckets.lookup groqDayKey) = some (some 0) := by decide +kernel
  obtain ⟨⟨tr, s⟩, h, hbucket⟩ := map_eq_some_iff.mp hkey
  have hinputs := exec_inputs h
  have hdated : ∀ e ∈ tr, e.input.Dated demoSettings := by
    intro e he
    have hop : e.input ∈ [groqSpent "60"] := hinputs ▸ mem_map_of_mem he
    rw [mem_singleton.mp hop]
    show datedResponse _ _ _ _ _ _ = true
    decide +kernel
  exact ⟨tr, s, run_of_exec h, hinputs, hbucket,
    bucket_lets_go demoSettings 0 (run_of_exec h) hdated hbucket⟩

/-- Without a reset the bucket alone refuses at every later time. -/
theorem undated_day_refuses : ∃ tr s, Run (step demoSettings) (fresh 0) tr s ∧
    tr.map Event.input = [groqSpent ""] ∧
    s.quota.buckets.lookup groqDayKey = some 0 ∧
    ∀ now, (s.world.quotaCanFit demoSettings { demoAttempt with provider := .groq } "g"
        demoAttempt.quotaEstimate now).2 = false ∧
      (s.quota.reserveAll [⟨groqDayKey, 1⟩] now []).map Prod.snd = some none ∧
      ((s.quota.without groqDayKey).reserveAll [⟨groqDayKey, 1⟩] now []).map Prod.snd ≠
        some none := by
  have hkey : (exec (step demoSettings) (fresh 0) [groqSpent ""]).map
      (fun r => (r.2.quota.buckets.lookup groqDayKey, r.2.quota.heap)) =
        some (some 0, [⟨⟨1000, 0, 0, .providerHeader, .authoritative, 1⟩, 0, false⟩]) := by
    decide +kernel
  obtain ⟨⟨tr, s⟩, h, heq⟩ := map_eq_some_iff.mp hkey
  have hrun := run_of_exec h
  obtain ⟨hbucket, hheap⟩ := Prod.ext_iff.mp heq
  simp only at hbucket hheap
  have hs : s.quota.Sound := (hrun.invariant (P := Running) (Q := fun _ => True)
    (fun _ _ _ _ hs _ hstep => hs.step hstep) (running_fresh 0) fun _ _ => trivial).sound
  have hobject : s.quota.bucketOf groqDayKey =
      some ⟨⟨1000, 0, 0, .providerHeader, .authoritative, 1⟩, 0, false⟩ := by
    rw [bucketOf, hbucket, hheap]
    rfl
  refine ⟨tr, s, hrun, exec_inputs h, hbucket, fun now => ⟨?_, ?_, ?_⟩⟩
  · -- it is shown at every time, since it neither expires nor goes stale
    have hvisible : s.quota.visible now groqDayKey =
        some ⟨⟨1000, 0, 0, .providerHeader, .authoritative, 1⟩, groqDayKey, 0, 0, false⟩ := by
      rw [visible_eq, hobject]
      rfl
    exact quotaCanFit_refuses hs (by decide +kernel) (by decide +kernel) hvisible
      (by decide +kernel)
  · refine reserveAll_refused.mpr fun amounts hagg => ⟨groqDayKey, 1, ?_, ?_⟩
    · exact (Option.some.inj hagg) ▸ rfl
    · rw [admits, bucketOf_purge, hobject]
      rfl
  · intro hrefused
    obtain ⟨k, c, hk, hadmits⟩ := reserveAll_refused.mp hrefused _ rfl
    have hkey : k = groqDayKey := by
      by_contra hne
      rw [GoMap.lookup_insert_eq, if_neg hne] at hk
      cases hk
    have hnone : (s.quota.without groqDayKey).bucketOf groqDayKey = none := by
      rw [bucketOf, without, AList.lookup_erase]
      rfl
    rw [hkey, admits, bucketOf_purge, hnone] at hadmits
    cases hadmits

end Traffic

end CalvoProxy
