import CalvoProxy.Quota.Restore
import CalvoProxy.Router.Admission
import CalvoProxy.Router.ScoreStore

/-!
# Quota admission after a restart

A process that loads what the old one saved admits the same requests exactly if every bucket
survives (`admission_restarts_iff`): the file does not say that the probe of an estimate is spent.
-/

namespace CalvoProxy

open QuotaLedger List Machine Option QuotaLedger QuotaSnapshot

variable {q : QuotaSnapshot} {c : Int64} {l : QuotaLedger} {key : QuotaBucketKey}
  {confidence : QuotaConfidence}

namespace QuotaLedger

variable {now : Time}

theorem fits_eq_admits (hc : 0 < c) (h : l.visible now key = some q) :
    q.fits c = (l.purgeExpiredLocked now).admits key c := by
  rw [visible_eq] at h
  obtain ⟨b, hb, hshown⟩ := bind_eq_some_iff.mp h
  obtain ⟨hlive, hstale, -⟩ := shown_live hshown
  have hq : q = ⟨b.observation, key, b.reserved,
      if b.observation.remaining - b.reserved < 0 then 0
        else b.observation.remaining - b.reserved, b.probeSettled⟩ := by
    unfold shown at hshown
    simp only [hlive, hstale, Bool.or_self, Bool.false_eq_true, if_false, Option.some.injEq]
      at hshown
    exact hshown.symm
  have havailable : decide (c ≤ q.available) =
      decide (c ≤ b.observation.remaining - b.reserved) := by
    rw [hq]
    simp only
    split
    · next hneg =>
      have hzero : ¬c ≤ 0 := Int64.not_le.mpr hc
      have hover : ¬c ≤ b.observation.remaining - b.reserved :=
        fun hle => hzero (Int64.le_trans hle (Int64.le_of_lt hneg))
      simp [hzero, hover]
    · rfl
  unfold fits admits
  rw [havailable, bucketOf_purge, hb, filter_some, hlive, hq]
  rfl

theorem visible_reloaded {self : LedgerId} (hs : l.Sound) (hkeys : l.ValidKeys)
    (key : QuotaBucketKey) :
    ((reloaded self now l).visible now key).isSome = (l.visible now key).isSome := by
  have hpurge : Reread now _ _ := Reread.purge (reloaded self now l)
  rw [← hpurge.visible key, visible_eq, reloaded_live hs hkeys]
  cases hq : l.visible now key with
  | none => rfl
  | some q =>
    have hload := loadable_of_visible hs hkeys hq
    have hstale : staleMinute key (revived now q.observation).observation now = false := by
      rw [visible_eq] at hq
      obtain ⟨b, -, hshown⟩ := bind_eq_some_iff.mp hq
      obtain ⟨-, hfresh, hobs⟩ := shown_live hshown
      rw [revived_observation hload]
      by_cases hzero : Time.isZero q.observation.observedAt = true
      · simp [staleMinute, Time.after, hzero]
      · rw [← hobs] at hfresh
        simpa [staleMinute, hzero] using hfresh
    have hlive : expired (revived now q.observation).observation now = false :=
      (expired_normalise q.observation now).trans hload.live
    simp [shown, hlive, hstale]

end QuotaLedger

theorem seen_reloaded {self : LedgerId} {now : Time} {cfg : Settings} {attempt : ModelAttempt}
    {credential : String} (hc : 0 < c)
    (hs : l.Sound) (hkeys : l.ValidKeys) (hidle : l.tickets = ∅)
    (h : ∀ b, l.bucketOf key = some b → expired b.observation now = false → Survives now key b) :
    (seen cfg attempt credential now (reloaded self now l) key).all (·.fits c) =
      (seen cfg attempt credential now l key).all (·.fits c) := by
  have hsome := @visible_reloaded l now self hs hkeys key
  unfold seen
  cases hq : l.visible now key with
  | none =>
    rw [hq] at hsome
    rw [isNone_iff_eq_none.mp (isSome_eq_false_iff.mp hsome)]
  | some q =>
    rw [hq] at hsome
    obtain ⟨q', hq'⟩ := isSome_iff_exists.mp hsome
    rw [hq', some_or, some_or, all_some, all_some,
      fits_eq_admits hc hq, fits_eq_admits hc hq', admits_reloaded hs hkeys hidle h]

namespace ScoredService

def restarted (self : LedgerId) (known : String → Bool) (now : Time) (maxAge : Duration)
    (order : List String) (s : ScoredService) : ScoredService :=
  ((fresh self).restoreScores (s.snapshotScores now).2 known now maxAge order).1

variable {self : LedgerId} {known : String → Bool} {now : Time} {maxAge : Duration}
  {order : List String} {s : ScoredService}

theorem supportedProvider_text : ∀ p ∈ supportedDirectProviders,
    supportedProvider p.text = some p := by
  decide +kernel

theorem restoreQuota_persisted {p : ProviderID}
    (hp : p ∈ supportedDirectProviders) (hprovider : q.key.provider = p.text)
    (hlive : expired q.observation now = false) :
    restoreQuota now l q.persisted = (l.observe q.key q.observation now).1 := by
  have hnamed : supportedProvider q.persisted.provider = some p := by
    rw [← supportedProvider_text p hp, ← hprovider]
    rfl
  have hkey : (⟨p.text, q.key.scope, q.key.modelOrPool, q.key.dimension, q.key.window⟩ :
      QuotaBucketKey) = q.key := by
    rw [← hprovider]
  unfold restoreQuota
  rw [hnamed]
  simp only
  rw [if_neg]
  · exact congrArg (fun key => (l.observe key q.observation now).1) hkey
  · exact Bool.eq_false_iff.mp hlive

theorem restored_quota {qs : List QuotaSnapshot}
    (hqs : ∀ q ∈ qs, expired q.observation now = false ∧
      ∃ p ∈ supportedDirectProviders, q.key.provider = p.text) :
    (qs.map persisted).foldl (restoreQuota now) l = reload now l qs := by
  induction qs generalizing l with
  | nil => rfl
  | cons q qs ih =>
    obtain ⟨hlive, p, hp, hprovider⟩ := hqs q mem_cons_self
    rw [map_cons, foldl_cons, restoreQuota_persisted hp hprovider hlive]
    exact ih fun q' hq' => hqs q' (mem_cons_of_mem q hq')

theorem snapshotScores_quota (now : Time) (s : ScoredService) : (s.snapshotScores now).2.quota =
      (s.service.quota.reported now).map persisted := by
  have hkeys : Reread now _ _ := Reread.keysRead s.service.quota
  obtain ⟨-, hlist⟩ := collect_eq now (s.service.quota.keys now).1 (s.service.quota.keys now).2
  rw [funext hkeys.visible] at hlist
  exact congrArg (List.map persisted) hlist

theorem restarted_quota (hs : s.service.quota.Sound) (hkeys : s.service.quota.ValidKeys)
    (hprovider : ∀ key b, s.service.quota.bucketOf key = some b →
      ∃ p ∈ supportedDirectProviders, key.provider = p.text) :
    (s.restarted self known now maxAge order).service.quota =
      reloaded self now s.service.quota := by
  have hload : ∀ q ∈ s.service.quota.reported now, expired q.observation now = false ∧
      ∃ p ∈ supportedDirectProviders, q.key.provider = p.text := by
    intro q hq
    have hvisible := mem_reported.mp hq
    refine ⟨(loadable_of_visible hs hkeys hvisible).live, ?_⟩
    rw [visible_eq] at hvisible
    obtain ⟨b, hb, -⟩ := bind_eq_some_iff.mp hvisible
    exact hprovider q.key b hb
  show ((s.snapshotScores now).2.quota).foldl (restoreQuota now) (new self) = _
  rw [snapshotScores_quota]
  exact restored_quota hload

/-- A restart admits what would have been admitted without it exactly if every live bucket survives
in the store. -/
theorem admission_restarts_iff {self self' : LedgerId}
    (hreach : Reachable step (.new self) s.service.quota)
    (hidle : s.service.quota.tickets = ∅)
    (hprovider : ∀ key b, s.service.quota.bucketOf key = some b →
      ∃ p ∈ supportedDirectProviders, key.provider = p.text)
    (known : String → Bool) (maxAge : Duration) (order : List String) (now : Time) :
    ((∀ (cfg : Settings) (attempt : ModelAttempt) (credential : String) (estimate : QuotaEstimate)
        (w w' : World), w.service = s.service →
        w'.service = (s.restarted self' known now maxAge order).service →
        (w'.quotaCanFit cfg attempt credential estimate now).2 =
          (w.quotaCanFit cfg attempt credential estimate now).2) ∧
      ∀ (rs : List QuotaReservation) (visits visits' : List QuotaBucketKey),
        ((s.restarted self' known now maxAge order).service.quota.reserveAll rs now visits').map
            (fun r => r.2.isSome) =
          (s.service.quota.reserveAll rs now visits).map fun r => r.2.isSome) ↔
      ∀ key b, s.service.quota.bucketOf key = some b → expired b.observation now = false →
        Survives now key b := by
  have hs := reachable_sound hreach
  have hkeys := reachable_validKeys hreach
  have hquota : (s.restarted self' known now maxAge order).service.quota =
      reloaded self' now s.service.quota := restarted_quota hs hkeys hprovider
  have hs' : (reloaded self' now s.service.quota).Sound := reload_sound (sound_new self')
  have hidle' : (reloaded self' now s.service.quota).tickets = ∅ := reload_tickets _ _
  have hroom : ∀ l : QuotaLedger, l.tickets = ∅ → l.ticketCount + 2 ≤ 2 ^ 64 := by
    intro l hl
    unfold ticketCount
    rw [hl]
    decide
  constructor
  · rintro ⟨-, hreserve⟩ key b hb hexp
    obtain ⟨a, ha, -⟩ := bucketOf_eq_some.mp hb
    have hvalid := hkeys key a ha
    -- ask for as much as there can be
    have hsame := hreserve [⟨key, Int64.maxValue⟩] [] []
    rw [hquota] at hsame
    have hgranted : ∀ l : QuotaLedger, l.tickets = ∅ →
        (l.reserveAll [⟨key, Int64.maxValue⟩] now []).map (fun r => r.2.isSome) =
          some ((l.purgeExpiredLocked now).admits key Int64.maxValue) :=
      fun l hl => reserveAll_single hvalid (by decide) (hroom l hl)
    rw [hgranted _ hidle', hgranted _ hidle] at hsame
    exact survives_of_admits hs hkeys hidle (Option.some.inj hsame) hb hexp
  · intro hsurvives
    refine ⟨?_, fun rs visits visits' => ?_⟩
    · intro cfg attempt credential estimate w w' hw hw'
      have hw1 : w.service.quota = s.service.quota := congrArg _ hw
      have hw2 : w'.service.quota = reloaded self' now s.service.quota :=
        (congrArg RouterService.quota hw').trans hquota
      rw [Bool.eq_iff_iff, quotaCanFit_iff (hw2 ▸ hs'), quotaCanFit_iff (hw1 ▸ hs), hw1, hw2]
      refine forall_congr' fun key => forall_congr' fun _ => forall_congr' fun hc => ?_
      rw [seen_reloaded hc hs hkeys hidle (hsurvives key)]
    · rw [hquota]
      exact reserveAll_congr (hroom _ hidle) (hroom _ hidle') fun k c =>
        admits_reloaded hs hkeys hidle (hsurvives k) c

def ofLedger (l : QuotaLedger) : ScoredService := ⟨⟨l, ∅, ∅, ∅, 0⟩, ∅, ∅⟩

def groqDay : QuotaBucketKey := ⟨"groq", "model:g", "m", .requests, .day⟩

def usedUp (confidence : QuotaConfidence) : List Op :=
  [.observe groqDay ⟨1, 1, 0, .config, confidence, 0⟩ 5, .reserveAll [⟨groqDay, 1⟩] 5 [],
    .reconcile ⟨some 0, 1⟩ [⟨groqDay, 1, none⟩] 5 []]

def usedUpLedger (confidence : QuotaConfidence) : QuotaLedger :=
  ⟨0, [⟨⟨1, 0, 0, .config, confidence, 5⟩, 0, true⟩], AList.insert groqDay 0 ∅, ∅, 1⟩

theorem reachable_usedUp (h : confidence = .authoritative ∨ confidence = .estimated) :
    Reachable step (.new 0) (usedUpLedger confidence) := by
  have hrun : (exec step (.new 0) (usedUp confidence)).map Prod.snd =
      some (usedUpLedger confidence) := by
    rcases h with rfl | rfl <;> rfl
  obtain ⟨⟨tr, l⟩, h, heq⟩ := map_eq_some_iff.mp hrun
  cases heq
  exact ⟨tr, run_of_exec h⟩

theorem usedUpLedger_bucketOf {b : QuotaBucket}
    (h : (usedUpLedger confidence).bucketOf key = some b) :
    key = groqDay ∧ b.observation.confidence = confidence := by
  obtain ⟨a, ha, hb⟩ := bucketOf_eq_some.mp h
  have hkey : key = groqDay := by
    by_contra hne
    rw [usedUpLedger, GoMap.lookup_insert_eq, if_neg hne] at ha
    cases ha
  subst hkey
  cases ha
  cases hb
  exact ⟨rfl, rfl⟩

theorem authoritative_restarts :
    (∀ (cfg : Settings) (attempt : ModelAttempt) (credential : String) (estimate : QuotaEstimate)
        (w w' : World), w.service = (ofLedger (usedUpLedger .authoritative)).service →
        w'.service =
          ((ofLedger (usedUpLedger .authoritative)).restarted 1 (fun _ => true) 9 0 []).service →
        (w'.quotaCanFit cfg attempt credential estimate 9).2 =
          (w.quotaCanFit cfg attempt credential estimate 9).2) ∧
      ∀ (rs : List QuotaReservation) (visits visits' : List QuotaBucketKey),
        (((ofLedger (usedUpLedger .authoritative)).restarted 1 (fun _ => true) 9 0
            []).service.quota.reserveAll rs 9 visits').map (fun r => r.2.isSome) =
          ((usedUpLedger .authoritative).reserveAll rs 9 visits).map fun r => r.2.isSome := by
  refine (admission_restarts_iff (s := ofLedger (usedUpLedger .authoritative))
    (reachable_usedUp (.inl rfl)) rfl ?_ (fun _ => true) 0 [] 9).mpr ?_
  · intro key b hb
    exact ⟨.groq, by decide, (usedUpLedger_bucketOf hb).1 ▸ rfl⟩
  · rintro key b hb - (hstale | hestimated)
    · rw [(usedUpLedger_bucketOf hb).1] at hstale
      cases hstale
    · rw [(usedUpLedger_bucketOf hb).2] at hestimated
      cases hestimated

/-- An estimate that is used up refuses the attempt, and lets it through after a restart. -/
theorem spent_probe_returns : Reachable step (.new 0) (usedUpLedger .estimated) ∧
      (usedUpLedger .estimated).tickets = ∅ ∧
      (∀ key b, (usedUpLedger .estimated).bucketOf key = some b →
        ∃ p ∈ supportedDirectProviders, key.provider = p.text) ∧
      ((World.mk (ofLedger (usedUpLedger .estimated)).service [] [] []).quotaCanFit demoSettings
        { demoAttempt with provider := .groq } "g" demoAttempt.quotaEstimate 9).2 = false ∧
      ((World.mk ((ofLedger (usedUpLedger .estimated)).restarted 1 (fun _ => true) 9 0
        []).service [] [] []).quotaCanFit demoSettings { demoAttempt with provider := .groq } "g"
        demoAttempt.quotaEstimate 9).2 = true :=
  ⟨reachable_usedUp (.inr rfl), rfl,
    fun _ _ hb => ⟨.groq, by decide, (usedUpLedger_bucketOf hb).1 ▸ rfl⟩,
    by decide +kernel, by decide +kernel⟩

end ScoredService

end CalvoProxy
