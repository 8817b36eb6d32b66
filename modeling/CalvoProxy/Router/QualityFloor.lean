import CalvoProxy.Router.Planning
import CalvoProxy.Router.Ranking

/-!
# The quality floor of a chain

From the planner to the executor a chain is filtered by credential, wire format, capability,
breaker, context window and quota, and cut to `MaxAttempts`. What is left has all required
capabilities and is configured (`PolicyState.chain_floor`).
-/

namespace CalvoProxy

open List PlannedAttempt

variable {t : ProviderModelTarget} {cfg : Settings} {breaker : BreakerPolicy} {w w1 : World}
  {a first : ModelAttempt} {chain rest : List ModelAttempt}

structure CapabilityIndex where
  caps : GoMap String (List String)

namespace CapabilityIndex

variable (idx : CapabilityIndex)

def Has (model capability : String) : Prop :=
  ∃ known, idx.caps.lookup (GoString.trimSpace model) = some known ∧ capability ∈ known

def satisfies (required : List String) (model : String) : Bool :=
  if required.isEmpty then true
  else match idx.caps.lookup (GoString.trimSpace model) with
    | none => false
    | some known => required.all (· ∈ known)

variable {idx}

theorem satisfies_has {required : List String} {model : String}
    (h : idx.satisfies required model = true) : ∀ c ∈ required, idx.Has model c := by
  intro c hc
  have hsome : required.isEmpty = false := isEmpty_eq_false_iff.mpr (ne_nil_of_mem hc)
  unfold satisfies at h
  rw [hsome] at h
  simp only [Bool.false_eq_true, if_false] at h
  split at h
  · cases h
  · next known hknown => exact ⟨known, hknown, by simpa using all_eq_true.mp h c hc⟩

end CapabilityIndex

theorem mem_of_mem_distinctTargets {seen : List String}
    {ts : List ProviderModelTarget} (h : t ∈ distinctTargets seen ts) : t ∈ ts := by
  induction ts generalizing seen with
  | nil => exact h
  | cons t' ts ih =>
    unfold distinctTargets at h
    split at h
    · exact mem_cons_of_mem t' (ih h)
    · rcases mem_cons.mp h with rfl | h
      · exact mem_cons_self
      · exact mem_cons_of_mem t' (ih h)

namespace PolicyState

variable (s : PolicyState)

def Configures (cfg : Settings) (provider : ProviderID) (model : String) : Prop :=
  (∃ profile targets, s.providerProfiles.lookup profile = some targets ∧
    ⟨provider, model⟩ ∈ targets) ∨
  (provider = cfg.defaultPolicyProvider ∧
    ∃ profile chain, s.policy.profiles.lookup profile = some chain ∧ model ∈ chain)

theorem mem_allTargets (h : t ∈ s.allTargets) :
    ∃ profile targets, s.providerProfiles.lookup profile = some targets ∧ t ∈ targets := by
  obtain ⟨profile, -, ht⟩ := mem_flatMap.mp h
  cases htargets : s.providerProfiles.lookup profile with
  | none =>
    rw [htargets] at ht
    exact absurd ht not_mem_nil
  | some targets =>
    rw [htargets] at ht
    exact ⟨profile, targets, htargets, ht⟩

theorem mem_capabilityRescue {satisfies : String → Bool} {category : String} {p : PlannedAttempt}
    (h : p ∈ s.capabilityRescue satisfies cfg.defaultPolicyProvider breaker category) :
    satisfies p.model = true ∧ p.provider.text ≠ "" ∧ s.Configures cfg p.provider p.model := by
  unfold capabilityRescue at h
  obtain ⟨t, ht, rfl⟩ := mem_map.mp h
  split at ht
  · obtain ⟨provider, hprovider, hin⟩ := mem_flatMap.mp (mem_of_mem_distinctTargets ht)
    obtain ⟨hall, hkept⟩ := mem_filter.mp hin
    simp only [Bool.and_eq_true, decide_eq_true_eq] at hkept
    obtain ⟨rfl, hsatisfies⟩ := hkept
    refine ⟨hsatisfies, ?_, .inl (s.mem_allTargets hall)⟩
    simp only [mem_cons, not_mem_nil, or_false] at hprovider
    show t.provider.text ≠ ""
    rcases hprovider with hp | hp | hp <;> rw [hp] <;> decide
  · obtain ⟨model, hmodel, rfl⟩ := mem_map.mp ht
    obtain ⟨hlisted, hsatisfies⟩ := mem_filter.mp ((mem_insertionSort _).mp hmodel)
    obtain ⟨e, he, hin⟩ := mem_flatMap.mp (mem_eraseDups.mp hlisted)
    refine ⟨hsatisfies, ?_, .inr ⟨rfl, e.1, e.2, ?_, hin⟩⟩
    · exact cfg.normalizedProvider_text ⟨"", "", .other "", breaker, 0, false, .zero, .zero⟩
    · exact AList.mem_lookup_iff.mpr he

def request (idx : CapabilityIndex) (cfg : Settings) (breaker : BreakerPolicy) (q : PlanRequest)
    (r : Request) : Request :=
  { r with
    requestedModel := q.requestedModel
    satisfies := idx.satisfies r.required
    planned := s.planModelAttempts q
    rescue := s.capabilityRescue (idx.satisfies r.required) cfg.defaultPolicyProvider breaker
      q.category }

end PolicyState

/-! ## What is handed to the executor -/

namespace Request

variable (cfg : Settings) (r : Request)

def truncated (chain : List ModelAttempt) : List ModelAttempt :=
  if 0 < r.retryPolicy.maxAttempts then chain.take r.retryPolicy.maxAttempts.toNat else chain

theorem truncated_sublist (chain : List ModelAttempt) : (r.truncated chain).Sublist chain := by
  unfold truncated
  split
  · exact take_sublist _ _
  · exact .refl chain

theorem truncated_length (chain : List ModelAttempt) (h : 0 < r.retryPolicy.maxAttempts) :
    ((r.truncated chain).length : Int) ≤ r.retryPolicy.maxAttempts := by
  unfold truncated
  rw [if_pos h, length_take]
  omega

def handedOver (w : World) : Option (List ModelAttempt) :=
  if r.pinnedUnfit || (!r.required.isEmpty && (r.attemptsToTry cfg).isEmpty) then none
  else match r.holdLoop cfg (estimateRequestQuota cfg r.body) (estimateRequestContext cfg r.body)
      (r.attemptsToTry cfg) 0 (quotaHoldBudget cfg) w with
    | some (_, some (first :: rest)) => some (r.truncated (first :: rest))
    | _ => none

variable {cfg r}

theorem holdLoop_chain {estimate contextEstimate : QuotaEstimate} {attempts : List ModelAttempt}
    {j : Nat} {budget : Duration} (h : r.holdLoop cfg estimate contextEstimate attempts j budget w =
      some (w1, some (first :: rest))) :
    ∃ k found, r.EndsIn cfg estimate contextEstimate attempts k found (.chain w1 first rest) j
      budget w := by
  refine @holdRounds cfg r estimate contextEstimate attempts (fun j budget w =>
    r.holdLoop cfg estimate contextEstimate attempts j budget w = some (w1, some (first :: rest)) →
      ∃ k found, r.EndsIn cfg estimate contextEstimate attempts k found (.chain w1 first rest) j
        budget w) (fun j budget w hagain hloop => ?_) j budget w h
  rw [holdLoop_eq] at hloop
  cases hround : r.holdRound cfg estimate contextEstimate attempts j budget w with
  | chain w2 first2 rest2 =>
    rw [hround] at hloop
    cases hloop
    exact ⟨j, w, .here hround⟩
  | again wait w2 =>
    rw [hround] at hloop
    obtain ⟨k, found, hends⟩ := hagain wait w2 hround hloop
    exact ⟨k, found, .later hround hends⟩
  | _ =>
    rw [hround] at hloop
    cases hloop

theorem handedOver_gated (h : r.handedOver cfg w = some chain) : ∃ k found w1 first rest,
      r.Gated cfg w k found (.chain w1 first rest) ∧ chain = r.truncated (first :: rest) := by
  unfold handedOver at h
  split at h
  · cases h
  next hgates =>
  simp only [Bool.or_eq_true, not_or, Bool.not_eq_true] at hgates
  split at h
  · next w1 first rest hloop =>
    obtain ⟨k, found, hends⟩ := holdLoop_chain hloop
    exact ⟨k, found, w1, first, rest, ⟨hgates.1, hgates.2, hends⟩, (Option.some.inj h).symm⟩
  · cases h

theorem Gated.handedOver {w found w1 : World} {k : Nat} {first : ModelAttempt}
    {rest : List ModelAttempt} (h : r.Gated cfg w k found (.chain w1 first rest)) :
    r.handedOver cfg w = some (r.truncated (first :: rest)) := by
  obtain ⟨left, hround, hloop⟩ := h.rounds.last
  unfold Request.handedOver
  rw [if_neg (by simp [h.fit, h.capable]), hloop, holdLoop_eq, hround]

end Request

theorem Settings.credential_filled {b : ModelAttempt}
    (ha : cfg.configured a = true) (hb : b.provider = cfg.normalizedProvider a) :
    cfg.providerCredential b = cfg.providerCredential a := by
  rcases configured_cases ha with ⟨hnamed, -⟩ | ⟨hrouter, hother⟩
  · rw [cfg.normalizedProvider_named hnamed] at hb
    exact credential_congr hb
  · -- a provider without a name stands for OpenRouter, and so its key is the caller's
    rw [hrouter] at hb
    have hbrouter : cfg.normalizedProvider b = .openRouter :=
      (cfg.normalizedProvider_named (hb ▸ by decide)).trans hb
    unfold providerCredential
    rw [hb]
    simp only [hbrouter, hrouter, if_true]
    cases hprovider : a.provider with
    | openRouter => exact absurd hprovider hother
    | other text => rfl
    | _ =>
      rw [cfg.normalizedProvider_named (hprovider ▸ by decide), hprovider] at hrouter
      cases hrouter

structure QualityFloor (cfg : Settings) (s : PolicyState) (idx : CapabilityIndex)
    (q : PlanRequest) (r : Request) (w : World) (chain : List ModelAttempt) : Prop where
  /-- Without requirements they are a sub-multiset of the plan, with the default provider. -/
  planned : r.required = [] → (chain.map (·.route)).Subperm
    ((s.planModelAttempts q).map fun p => (cfg.filled p.attempt).route)
  capable : ∀ b ∈ chain, ∀ c ∈ r.required, idx.Has b.model c
  /-- No attempt comes from outside the plan and the configured profiles. -/
  known : ∀ b ∈ chain, (∃ p ∈ s.planModelAttempts q,
      b.provider = cfg.normalizedProvider p.attempt ∧ b.model = p.model) ∨
    s.Configures cfg b.provider b.model
  usable : ∀ b ∈ chain, cfg.providerCredential b ≠ ""
  compatible : r.messages = true → ∀ b ∈ chain, b.provider ≠ .cerebras ∧ b.provider ≠ .groq
  /-- In the last round `k` of the hold loop, the attempt has passed the breakers and the
  windows. -/
  gates : ∃ k found w1 first rest, r.Gated cfg w k found (.chain w1 first rest) ∧
    chain = r.truncated (first :: rest) ∧
    ∀ b ∈ chain, ∃ a ∈ r.attemptsToTry cfg, b.route = (cfg.filled a).route ∧
      found.service.isModelAvailable cfg a (r.round k).available = true ∧
      r.contextFits (estimateRequestContext cfg r.body) a = true
  bounded : 0 < r.retryPolicy.maxAttempts → (chain.length : Int) ≤ r.retryPolicy.maxAttempts

namespace Request

variable {r : Request}

theorem attemptsToTry_origin (ha : a ∈ r.attemptsToTry cfg) :
    (∃ p ∈ r.planned, a = p.attempt ∧ (r.required = [] ∨ r.satisfies a.model = true)) ∨
      ∃ p ∈ r.rescue, a = p.attempt := by
  have hplanned : ∀ {a}, a ∈ r.filterConfiguredAttempts cfg
      (r.planned.map attempt) → ∃ p ∈ r.planned, a = p.attempt := by
    intro a ha
    obtain ⟨p, hp, rfl⟩ := mem_map.mp (mem_filter.mp ha).1
    exact ⟨p, hp, rfl⟩
  unfold attemptsToTry at ha
  simp only at ha
  split at ha
  · next hnone =>
    obtain ⟨p, hp, rfl⟩ := hplanned ha
    exact .inl ⟨p, hp, rfl, .inl (isEmpty_iff.mp hnone)⟩
  · have hcapable := (mem_filter.mp ha).1
    unfold applyCapabilityFilter at hcapable
    simp only at hcapable
    split at hcapable
    · obtain ⟨p, hp, rfl⟩ := mem_map.mp hcapable
      exact .inr ⟨p, hp, rfl⟩
    · obtain ⟨hin, hsatisfies⟩ := mem_filter.mp hcapable
      obtain ⟨p, hp, rfl⟩ := hplanned hin
      exact .inl ⟨p, hp, rfl, .inr hsatisfies⟩

theorem attemptsToTry_planned (h : r.required = []) :
    (r.attemptsToTry cfg).Sublist (r.planned.map attempt) := by
  unfold attemptsToTry
  rw [if_pos (isEmpty_iff.mpr h)]
  exact filter_sublist

theorem Gated.chain_subperm {found : World} {k : Nat}
    (h : r.Gated cfg w k found (.chain w1 first rest)) :
    ((r.truncated (first :: rest)).map (·.route)).Subperm
      ((r.eligible cfg (estimateRequestContext cfg r.body) (r.attemptsToTry cfg) k found).map
        fun a => (cfg.filled a).route) := by
  obtain ⟨left, hround, -⟩ := h.rounds.last
  have hcase := r.holdRound_cases cfg (estimateRequestQuota cfg r.body)
    (estimateRequestContext cfg r.body) (r.attemptsToTry cfg) k left found
  rw [hround] at hcase
  exact ((r.truncated_sublist _).map _).subperm.trans (World.quotaRankAndReserve_subperm hcase)

end Request

/-- A chain handed over keeps the quality floor of its request. -/
theorem PolicyState.chain_floor {s : PolicyState} {idx : CapabilityIndex} {q : PlanRequest}
    {r : Request} (h : (s.request idx cfg breaker q r).handedOver cfg w = some chain) :
    QualityFloor cfg s idx q (s.request idx cfg breaker q r) w chain := by
  obtain ⟨k, found, w1, first, rest, hgated, rfl⟩ := Request.handedOver_gated h
  have hsub := hgated.chain_subperm
  generalize hr : s.request idx cfg breaker q r = r' at hgated hsub ⊢
  -- where an attempt of the chain comes from
  have horigin : ∀ b ∈ r'.truncated (first :: rest), ∃ a ∈ r'.attemptsToTry cfg,
      b.route = (cfg.filled a).route ∧
      found.service.isModelAvailable cfg a (r'.round k).available = true ∧
      r'.contextFits (estimateRequestContext cfg r'.body) a = true := by
    intro b hb
    obtain ⟨a, ha, hroute⟩ := mem_map.mp (hsub.subset (mem_map_of_mem hb))
    obtain ⟨havailable, hfits⟩ := mem_filter.mp ha
    obtain ⟨ha, havailable⟩ := mem_filter.mp havailable
    exact ⟨a, ha, hroute.symm, havailable, hfits⟩
  have hprovider : ∀ {a b : ModelAttempt}, b.route = (cfg.filled a).route →
      b.provider = cfg.normalizedProvider a := fun h => congrArg provider h
  have hmodel : ∀ {a b : ModelAttempt}, b.route = (cfg.filled a).route → b.model = a.model :=
    fun h => congrArg model h
  have hplanned : r'.planned = s.planModelAttempts q := hr ▸ rfl
  have hsatisfies : r'.satisfies = idx.satisfies r'.required := hr ▸ rfl
  have hrescue : ∀ p ∈ r'.rescue, idx.satisfies r'.required p.model = true ∧
      p.provider.text ≠ "" ∧ s.Configures cfg p.provider p.model := by
    subst hr
    exact fun p hp => s.mem_capabilityRescue hp
  refine ⟨fun hnone => ?_, fun b hb c hc => ?_, fun b hb => ?_, fun b hb => ?_,
    fun hmessages b hb => ?_, ⟨k, found, w1, first, rest, hgated, rfl, horigin⟩,
    r'.truncated_length _⟩
  · have heligible : (r'.eligible cfg (estimateRequestContext cfg r'.body) (r'.attemptsToTry cfg)
        k found).Sublist (r'.planned.map attempt) :=
      (filter_sublist.trans filter_sublist).trans (Request.attemptsToTry_planned hnone)
    have hplan := (heligible.map fun a => (cfg.filled a).route).subperm
    rw [map_map, hplanned] at hplan
    exact hsub.trans hplan
  · obtain ⟨a, ha, hroute, -⟩ := horigin b hb
    rw [hmodel hroute]
    rcases Request.attemptsToTry_origin ha with ⟨p, -, rfl, hnone | hcapable⟩ | ⟨p, hp, rfl⟩
    · rw [hnone] at hc
      exact absurd hc not_mem_nil
    · exact CapabilityIndex.satisfies_has (hsatisfies ▸ hcapable) c hc
    · exact CapabilityIndex.satisfies_has (hrescue p hp).1 c hc
  · obtain ⟨a, ha, hroute, -⟩ := horigin b hb
    rw [hprovider hroute, hmodel hroute]
    rcases Request.attemptsToTry_origin ha with ⟨p, hp, rfl, -⟩ | ⟨p, hp, rfl⟩
    · exact .inl ⟨p, hplanned ▸ hp, rfl, rfl⟩
    · obtain ⟨-, hnamed, hconfigures⟩ := hrescue p hp
      rw [cfg.normalizedProvider_named hnamed]
      exact .inr hconfigures
  · obtain ⟨a, ha, hroute, -⟩ := horigin b hb
    have hconfigured := (r'.attemptsToTry_usable cfg ha).2
    rw [Settings.credential_filled hconfigured (hprovider hroute)]
    simpa [Settings.configured] using hconfigured
  · obtain ⟨a, ha, hroute, -⟩ := horigin b hb
    obtain ⟨hwire, hconfigured⟩ := r'.attemptsToTry_usable cfg ha
    rw [hprovider hroute]
    rcases Settings.configured_cases hconfigured with ⟨hnamed, -⟩ | ⟨hrouter, -⟩
    · rw [cfg.normalizedProvider_named hnamed]
      exact hwire hmessages
    · rw [hrouter]
      exact ⟨nofun, nofun⟩

/-- The model `m` in the default profile, `v` in another one. -/
def rescuePolicy : PolicyState :=
  let model : ModelPolicy :=
    ⟨"default", AList.insert "default" ["m"] (AList.insert "vision" ["v"] ∅)⟩
  ⟨model, ∅, model⟩

def rescueIndex : CapabilityIndex := ⟨AList.insert "v" ["vision"] ∅⟩

def rescuePlan : PlanRequest := ⟨⟨.openRouter, [], ⟨0, 0⟩⟩, "default", ""⟩

def visionRequest : Request :=
  rescuePolicy.request rescueIndex demoSettings ⟨0, 0⟩ rescuePlan { demoRequest connectionReset with
      required := ["vision"] }

/-- The planned model cannot see, so the other one is handed over. -/
theorem vision_rescued : ∃ chain, visionRequest.handedOver demoSettings demoWorld = some chain ∧
    chain.map (·.model) = ["v"] ∧
    QualityFloor demoSettings rescuePolicy rescueIndex rescuePlan visionRequest demoWorld chain := by
  have hgated : visionRequest.Gated demoSettings demoWorld 0 demoWorld (.chain _ _ _) :=
    ⟨by decide, by decide +kernel, .here rfl⟩
  exact ⟨_, hgated.handedOver, rfl, PolicyState.chain_floor hgated.handedOver⟩

end CalvoProxy
