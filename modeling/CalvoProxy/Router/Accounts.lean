import CalvoProxy.Router.Quota
import Mathlib.Data.List.TakeWhile

/-!
# Quota accounts

An account is a provider with the fingerprint of a credential; the key of a bucket names both. A
function of the quota routing only names buckets of the account it is called for, so that it does
not change what the other accounts see.
-/

namespace CalvoProxy

open QuotaLedger List

variable {o : ProviderQuotaObservation} {key : QuotaBucketKey}

structure Account where
  provider : String
  tag : Option String
deriving DecidableEq

namespace Settings

def credentialTag (cfg : Settings) (credential : String) : Option String :=
  let credential := GoString.trimSpace credential
  if credential = "" then none else some (cfg.fingerprint credential)

def account (cfg : Settings) (attempt : ModelAttempt) (credential : String) : Account :=
  ⟨(cfg.normalizedProvider attempt).text, cfg.credentialTag credential⟩

end Settings

/-! ## The account of a key -/

def taggedScope (scope : String) : Option String → String
  | none => scope
  | some tag => scope ++ ":" ++ tag

theorem credentialQuotaScope_eq (cfg : Settings) (scope credential : String) :
    credentialQuotaScope cfg scope credential = taggedScope scope (cfg.credentialTag credential) := by
  unfold credentialQuotaScope Settings.credentialTag
  simp only
  split <;> rfl

def Account.owns (acc : Account) (key : QuotaBucketKey) : Bool :=
  key.provider = acc.provider &&
    [.unknown, .account, .freePool, .model].any fun scope : ProviderQuotaScope =>
      key.scope = taggedScope scope.text acc.tag

theorem scope_no_colon (scope : ProviderQuotaScope) : ':' ∉ scope.text.toList := by
  cases scope <;> decide

theorem taggedScope_dropWhile (scope : ProviderQuotaScope) (tag : Option String) :
    (taggedScope scope.text tag).toList.dropWhile (· ≠ ':') =
      tag.elim [] fun tag => ':' :: tag.toList := by
  have hscope : ∀ c ∈ scope.text.toList, decide (c ≠ ':') = true := by
    intro c hc
    rw [decide_eq_true_eq]
    rintro rfl
    exact scope_no_colon scope hc
  cases tag with
  | none => exact dropWhile_eq_nil_iff.mpr hscope
  | some tag =>
    simp only [taggedScope, String.toList_append, append_assoc]
    rw [dropWhile_append_of_pos hscope]
    rfl

theorem taggedScope_tag {scope scope' : ProviderQuotaScope} {tag tag' : Option String}
    (h : taggedScope scope.text tag = taggedScope scope'.text tag') : tag = tag' := by
  have hrest := taggedScope_dropWhile scope tag
  rw [h, taggedScope_dropWhile] at hrest
  cases tag with
  | none =>
    cases tag' with
    | none => rfl
    | some tag' => cases hrest
  | some tag =>
    cases tag' with
    | none => cases hrest
    | some tag' => rw [String.toList_injective (List.cons.inj hrest).2]

theorem Account.owns_iff {acc : Account} : acc.owns key = true ↔ key.provider = acc.provider ∧
      ∃ scope : ProviderQuotaScope, key.scope = taggedScope scope.text acc.tag := by
  unfold Account.owns
  simp only [any_cons, any_nil, Bool.or_false, Bool.and_eq_true, Bool.or_eq_true, decide_eq_true_eq]
  refine and_congr_right fun _ => ⟨?_, ?_⟩
  · rintro (h | h | h | h)
    exacts [⟨_, h⟩, ⟨_, h⟩, ⟨_, h⟩, ⟨_, h⟩]
  · rintro ⟨scope, h⟩
    cases scope <;> simp [h]

theorem Account.owns_unique {acc acc' : Account} (h : acc.owns key = true)
    (h' : acc'.owns key = true) : acc = acc' := by
  obtain ⟨hprovider, scope, hscope⟩ := owns_iff.mp h
  obtain ⟨hprovider', scope', hscope'⟩ := owns_iff.mp h'
  obtain ⟨provider, tag⟩ := acc
  obtain ⟨provider', tag'⟩ := acc'
  have htag := taggedScope_tag (hscope.symm.trans hscope')
  simp only at hprovider hprovider' htag
  rw [← hprovider, ← hprovider', htag]

section Keys

variable (cfg : Settings) (attempt : ModelAttempt) (credential : String)

theorem owns_scoped (scope : ProviderQuotaScope)
    (hprovider : key.provider = (cfg.normalizedProvider attempt).text)
    (hscope : key.scope = credentialQuotaScope cfg scope.text credential) :
    (cfg.account attempt credential).owns key = true := by
  rw [credentialQuotaScope_eq] at hscope
  exact Account.owns_iff.mpr ⟨hprovider, scope, hscope⟩

theorem bootstrapLimits_owned (now : Time) : ∀ p ∈ bootstrapLimits cfg attempt credential now,
      (cfg.account attempt credential).owns p.1 = true := by
  have hall : ∀ (scope : ProviderQuotaScope) (ps : List PublishedLimit),
      (∀ p ∈ ps, p.1.provider = (cfg.normalizedProvider attempt).text ∧
        p.1.scope = credentialQuotaScope cfg scope.text credential) →
      ∀ p ∈ ps, (cfg.account attempt credential).owns p.1 = true :=
    fun scope ps h p hp => owns_scoped cfg attempt credential scope (h p hp).1 (h p hp).2
  unfold bootstrapLimits
  simp only
  split
  · split
    · exact hall .freePool _ (by simp [ProviderQuotaScope.text])
    · exact fun p hp => nomatch hp
  · exact hall .model _ (by simp [ProviderQuotaScope.text])
  · exact hall .model _ (by simp [ProviderQuotaScope.text])
  · exact fun p hp => nomatch hp

theorem nextMinuteReset_after (now : Time) : now < nextMinuteReset now := by
  have hround : ∀ n : Int, n < n - n % 60000000000 + 60000000000 := by
    intro n
    omega
  exact hround now

theorem nextUTCReset_after (now : Time) : now < nextUTCReset now := by
  have hround : ∀ n : Int, n < (n / 86400000000000 + 1) * 86400000000000 := by
    intro n
    omega
  exact hround now

theorem bootstrapLimits_reset (now : Time) :
    ∀ p ∈ bootstrapLimits cfg attempt credential now, now < p.2.2 := by
  have hminute := nextMinuteReset_after now
  have hutc := nextUTCReset_after now
  have hday : now < now + Time.day := Int.lt_add_of_pos_right now (by decide)
  unfold bootstrapLimits
  simp only
  split
  · split
    · simp [hminute, hutc]
    · exact fun p hp => nomatch hp
  · simp [hminute, hday]
  · simp [hminute, hday]
  · exact fun p hp => nomatch hp

theorem limitsAttempt_owned (h : World.limitsAttempt cfg attempt credential key = true) :
    (cfg.account attempt credential).owns key = true := by
  unfold World.limitsAttempt at h
  simp only [Bool.and_eq_true, decide_eq_true_eq] at h
  obtain ⟨⟨hprovider, hscope⟩, -⟩ := h
  split at hscope
  · exact owns_scoped cfg attempt credential .freePool hprovider hscope
  · exact owns_scoped cfg attempt credential .model hprovider hscope

theorem providerSignals_provider (model : String) (status : Int) (header : String → String)
    (body : ErrorBody) (now : Time)
    (ho : o ∈ providerSignals cfg attempt.provider model status header body now) :
    o.provider.text = (cfg.normalizedProvider attempt).text := by
  have hfields : ∀ {provider : ProviderID} {scope : ProviderQuotaScope}
      {dimension : ProviderQuotaDimension} {window : ProviderQuotaWindow} {limit remaining : String}
      {resetAt : Option Time} {source : ProviderQuotaSource},
      o ∈ observationsFromFields provider model scope dimension window limit remaining resetAt now
        source → o.provider = provider := by
    intro provider scope dimension window limit remaining resetAt source ho
    simp only [observationsFromFields] at ho
    split at ho
    · cases ho
    · rw [mem_singleton.mp ho]
  have hprovider : o.provider = attempt.provider ∧ attempt.provider.text ≠ "" := by
    unfold providerSignals at ho
    split at ho
    · next heq =>
      unfold observeOpenRouterQuota at ho
      rw [heq]
      split at ho <;> exact ⟨hfields ho, by decide⟩
    · next heq =>
      unfold observeCerebrasQuota at ho
      rw [heq]
      rcases mem_append.mp ho with ho | ho <;> exact ⟨hfields ho, by decide⟩
    · next heq =>
      unfold observeGroqQuota at ho
      rw [heq]
      rcases mem_append.mp ho with ho | ho <;> exact ⟨hfields ho, by decide⟩
    · cases ho
  unfold Settings.normalizedProvider
  rw [hprovider.1, if_pos (by simpa using hprovider.2)]

theorem ledgerFact_owned (model : String) (status : Int) (header : String → String)
    (body : ErrorBody) (now : Time)
    (ho : o ∈ observeProviderQuota cfg attempt.provider model status header body now)
    {fact : QuotaObservation} (hfact : o.ledgerFact = some (key, fact)) :
    (cfg.account attempt credential).owns
      { key with scope := credentialQuotaScope cfg o.scope.text credential } = true := by
  have hkey : o.known = true ∧ key.provider = o.provider.text := by
    unfold ProviderQuotaObservation.ledgerFact at hfact
    simp only at hfact
    split at hfact
    · next hknown _ _ _ _ =>
      cases hfact
      exact ⟨hknown, rfl⟩
    · cases hfact
  unfold observeProviderQuota at ho
  simp only at ho
  generalize parseRetryAfterAt cfg (header "Retry-After") now = retryAfter at ho
  split at ho
  · -- the observation that stands for no signal establishes nothing
    rw [mem_singleton.mp ho] at hkey
    exact nomatch hkey.1
  · obtain ⟨o', ho', rfl⟩ := mem_map.mp ho
    have hprovider := providerSignals_provider cfg attempt model status header body now ho'
    exact owns_scoped cfg attempt credential o'.scope (hkey.2.trans hprovider) rfl

end Keys

end CalvoProxy
