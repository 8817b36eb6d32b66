import CalvoProxy.Lib.Grouping
import CalvoProxy.Router.Holding
import CalvoProxy.Router.ScoreStore

/-!
# Ranking only drops and reorders

What `quotaRankAndReserve` leaves is a sub-multiset of what it was given, up to the provider that is
filled in (`quotaRankAndReserve_subperm`). The order by score is a permutation in the model of a
round; the one of the source is one of these (`rankBase_covers`).
-/

namespace CalvoProxy

open List

variable {a b : ModelAttempt} {attempts chain : List ModelAttempt} {w w' : World}
  {round : HoldRound}

def ModelAttempt.route (a : ModelAttempt) : PlannedAttempt :=
  ⟨a.profile, a.model, a.provider, a.breakerPolicy⟩

namespace Settings

variable (cfg : Settings)

def filled (a : ModelAttempt) : ModelAttempt :=
  { a with provider := cfg.normalizedProvider a }

theorem normalizedProvider_named (h : a.provider.text ≠ "") :
    cfg.normalizedProvider a = a.provider := by
  unfold normalizedProvider
  rw [if_pos (by simpa using h)]

theorem normalizedProvider_text (a : ModelAttempt) : (cfg.normalizedProvider a).text ≠ "" := by
  unfold normalizedProvider defaultPolicyProvider
  split
  · next h => simpa using h
  · split
    · next h => simpa using h
    · decide

@[simp] theorem filled_filled (a : ModelAttempt) : cfg.filled (cfg.filled a) = cfg.filled a := by
  have hnamed : cfg.normalizedProvider (cfg.filled a) = cfg.normalizedProvider a :=
    cfg.normalizedProvider_named (cfg.normalizedProvider_text a)
  unfold filled at hnamed ⊢
  rw [hnamed]

variable {cfg}

theorem configured_cases (hb : cfg.configured b = true) :
    b.provider.text ≠ "" ∧ b.provider ∈ [.openRouter, .cerebras, .groq, .ollama, .localModel] ∨
      cfg.normalizedProvider b = .openRouter ∧ b.provider ≠ .openRouter := by
  unfold configured providerCredential at hb
  cases hprovider : b.provider with
  | other text =>
    rw [hprovider] at hb
    simp only at hb
    split at hb
    · next hnormalized => exact .inr ⟨hnormalized, nofun⟩
    · exact absurd hb (by decide)
  | _ => exact .inl ⟨by decide, by decide⟩

theorem credential_congr (h : a.provider = b.provider) :
    cfg.providerCredential a = cfg.providerCredential b := by
  unfold providerCredential normalizedProvider
  rw [h]

end Settings

/-! ## The order by score and session -/

structure AffinityRoute where
  provider : ProviderID
  model : String

namespace ScoredService

variable (cfg : Settings) (scoring : Bool) (env : ScoreEnv) (s : ScoredService)

def scoreForAttempt (a : ModelAttempt) : Rat :=
  ModelBreakerState.decayedScore (s.service.modelBreakers.lookup (cfg.breakerKey a)) env

def sortGroup (g : ProviderGroup) : ProviderGroup :=
  if scoring then
    { g with
      attempts := g.attempts.mergeSort fun a b =>
        s.scoreForAttempt cfg env b ≤ s.scoreForAttempt cfg env a }
  else g

def reliability (g : ProviderGroup) : Rat :=
  match g.attempts with
  | [] => scoreInitial
  | a :: _ => if scoring then s.scoreForAttempt cfg env a else scoreInitial

def effectiveUse (g : ProviderGroup) : Rat :=
  ((s.providerBalance.lookup g.provider).getD 0).toInt - s.reliability cfg scoring env g

def rankAttemptsLocked (attempts : List ModelAttempt) : List ModelAttempt :=
  let groups := (World.groupAttempts (attempts.map cfg.filled)).map (s.sortGroup cfg scoring env)
  (groups.mergeSort fun g h =>
    s.effectiveUse cfg scoring env g ≤ s.effectiveUse cfg scoring env h).flatMap (·.attempts)

def rankAttemptsByScore (attempts : List ModelAttempt) : List ModelAttempt :=
  if attempts.length < 2 then attempts else s.rankAttemptsLocked cfg scoring env attempts

end ScoredService

def AffinityRoute.isOf (preferred : AffinityRoute) (a : ModelAttempt) : Bool :=
  a.provider = preferred.provider && a.model = preferred.model

def applySessionAffinity (preferred : Option AffinityRoute) (attempts : List ModelAttempt) :
    List ModelAttempt :=
  match preferred with
  | none => attempts
  | some route =>
    match attempts.find? route.isOf with
    | none => attempts
    | some a => a :: attempts.eraseP route.isOf

theorem applySessionAffinity_perm (preferred : Option AffinityRoute)
    (attempts : List ModelAttempt) : (applySessionAffinity preferred attempts).Perm attempts := by
  unfold applySessionAffinity
  split
  · exact .refl _
  next route =>
  split
  · exact .refl _
  next a hfound =>
  induction attempts with
  | nil => cases hfound
  | cons b rest ih =>
    rw [List.find?_cons] at hfound
    rw [eraseP_cons]
    split at hfound
    · next hb =>
      cases hfound
      rw [hb]
      exact .refl _
    · next hb =>
      rw [hb]
      exact (List.Perm.swap b a _).trans ((ih hfound).cons b)

namespace World

theorem groupAttempts_perm (attempts : List ModelAttempt) :
    ((groupAttempts attempts).flatMap (·.attempts)).Perm attempts := by
  unfold groupAttempts
  rw [flatMap_map]
  exact Grouping.groups_perm ModelAttempt.provider (Grouping.eraseDups_nodup _) fun a ha =>
    mem_eraseDups.mpr (mem_map_of_mem ha)

theorem groupPressures_flatMap (cfg : Settings) (estimate : QuotaEstimate) (now : Time)
    (groups : List ProviderGroup) (w : World) :
    (groupPressures cfg estimate now groups w).2.flatMap (·.attempts) =
      groups.flatMap (·.attempts) := by
  induction groups generalizing w with
  | nil => rfl
  | cons g rest ih =>
    unfold groupPressures
    split
    · next hempty => rw [ih, flatMap_cons, hempty, nil_append]
    · simp only [flatMap_cons]
      rw [ih]

theorem interleave_perm (groups : List ProviderGroup) :
    (interleave groups).Perm (groups.flatMap (·.attempts)) := by
  have hdepth : ∀ row ∈ groups.map (·.attempts),
      row.length ≤ (groups.map (·.attempts.length)).foldl max 0 := by
    intro row hrow
    obtain ⟨g, hg, rfl⟩ := mem_map.mp hrow
    exact (Grouping.le_foldl_max _ 0).2 _ (mem_map_of_mem hg)
  have hcolumns := Grouping.columns_perm (groups.map (·.attempts)) hdepth
  simp only [filterMap_map] at hcolumns
  exact hcolumns

end World

theorem ScoredService.rankAttemptsLocked_perm (cfg : Settings) (scoring : Bool) (env : ScoreEnv)
    (s : ScoredService) (attempts : List ModelAttempt) :
    (s.rankAttemptsLocked cfg scoring env attempts).Perm (attempts.map cfg.filled) := by
  have hgroup : ∀ g : ProviderGroup, (s.sortGroup cfg scoring env g).attempts.Perm g.attempts := by
    intro g
    unfold sortGroup
    split
    · exact mergeSort_perm _ _
    · exact .refl _
  have hgroups : ∀ groups : List ProviderGroup,
      ((groups.map (s.sortGroup cfg scoring env)).flatMap (·.attempts)).Perm
        (groups.flatMap (·.attempts)) := by
    intro groups
    induction groups with
    | nil => exact .refl _
    | cons g rest ih => exact (hgroup g).append ih
  unfold rankAttemptsLocked
  exact (((mergeSort_perm _ _).flatMap_right _).trans (hgroups _)).trans
    (World.groupAttempts_perm _)

/-! ## The order of the source is covered -/

namespace World

variable (cfg : Settings) (estimate : QuotaEstimate) (now : Time)

theorem quotaFitting_filled (attempts : List ModelAttempt) (w : World) :
    quotaFitting cfg estimate now (attempts.map cfg.filled) w =
      quotaFitting cfg estimate now attempts w := by
  induction attempts generalizing w with
  | nil => rfl
  | cons a rest ih =>
    have ha : { cfg.filled a with provider := cfg.normalizedProvider (cfg.filled a) } =
        { a with provider := cfg.normalizedProvider a } := cfg.filled_filled a
    rw [map_cons]
    unfold quotaFitting
    simp only [ha, ih]

/-- What quota lets through of the ranked attempts, it lets through of a permutation of the given
ones. -/
theorem rankBase_covers (scoring : Bool) (env : ScoreEnv) (s : ScoredService)
    (preferred : Option AffinityRoute) (attempts : List ModelAttempt) (w : World) :
    ∃ base, base.Perm attempts ∧ quotaFitting cfg estimate now
        (applySessionAffinity preferred (s.rankAttemptsByScore cfg scoring env attempts)) w =
        quotaFitting cfg estimate now base w := by
  have hfilled : ((applySessionAffinity preferred
      (s.rankAttemptsByScore cfg scoring env attempts)).map cfg.filled).Perm
        (attempts.map cfg.filled) := by
    refine ((applySessionAffinity_perm preferred _).map cfg.filled).trans ?_
    unfold ScoredService.rankAttemptsByScore
    split
    · exact .refl _
    · have hranked := (s.rankAttemptsLocked_perm cfg scoring env attempts).map cfg.filled
      simpa [Function.comp_def] using hranked
  -- undo the filling in, place by place
  have hpairs : List.Forall₂ (fun b a => b = cfg.filled a) (attempts.map cfg.filled) attempts :=
    forall₂_map_left_iff.mpr (forall₂_same.mpr fun a _ => rfl)
  obtain ⟨base, hbase, hperm⟩ := perm_comp_forall₂ hfilled hpairs
  refine ⟨base, hperm, ?_⟩
  have heq : (applySessionAffinity preferred
      (s.rankAttemptsByScore cfg scoring env attempts)).map cfg.filled = base.map cfg.filled :=
    forall₂_eq_eq_eq ▸ forall₂_map_right_iff.mpr hbase
  rw [← quotaFitting_filled, heq, quotaFitting_filled]

/-! ## What ranking leaves -/

theorem quotaFitting_sublist (attempts : List ModelAttempt) (w : World) :
    (quotaFitting cfg estimate now attempts w).2.Sublist (attempts.map cfg.filled) := by
  induction attempts generalizing w with
  | nil => exact .slnil
  | cons a rest ih =>
    unfold quotaFitting
    simp only
    split
    · split
      · exact (ih _).cons_cons _
      · exact (ih _).cons _
    · exact (ih _).cons _

variable {cfg estimate now}

theorem reservePrimary_routes {ticks : Nat → Tick}
    (h : reservePrimary cfg estimate now ticks attempts w = some (w', chain)) :
    (chain.map (·.route)).Sublist (attempts.map (·.route)) := by
  induction attempts generalizing w with
  | nil =>
    cases h
    exact .slnil
  | cons a rest ih =>
    unfold reservePrimary at h
    simp only at h
    split at h
    · cases h
    · cases h
      exact .refl _
    · exact (ih h).cons _

theorem quotaRankAndReserve_subperm
    (h : w.quotaRankAndReserve cfg round estimate attempts = some (w', chain)) :
    (chain.map (·.route)).Subperm (attempts.map fun a => (cfg.filled a).route) := by
  unfold quotaRankAndReserve at h
  split at h
  · cases h
    exact nil_subperm
  · simp only at h
    have hfitting := quotaFitting_sublist cfg estimate round.rankNow (round.rankBase attempts) w
    have hbase := (round.rankBase_perm attempts).map cfg.filled
    generalize quotaFitting cfg estimate round.rankNow (round.rankBase attempts) w = fitted
      at h hfitting
    have hgroups : (interleave (round.sortGroups (groupPressures cfg estimate round.rankNow
        (groupAttempts fitted.2) fitted.1).2)).Perm fitted.2 := by
      refine (interleave_perm _).trans (((round.sortGroups_perm _).flatMap_right _).trans ?_)
      rw [groupPressures_flatMap]
      exact groupAttempts_perm fitted.2
    have hranked : (interleave (round.sortGroups (groupPressures cfg estimate round.rankNow
        (groupAttempts fitted.2) fitted.1).2)).Subperm (attempts.map cfg.filled) :=
      hgroups.subperm.trans (hfitting.subperm.trans hbase.subperm)
    obtain ⟨kept, hkept, hsublist⟩ := hranked
    have hroutes := (reservePrimary_routes h).subperm.trans (hkept.symm.map (·.route)).subperm
    have hgiven := (hsublist.map (·.route)).subperm
    rw [map_map] at hgiven
    exact hroutes.trans hgiven

theorem quotaRankAndReserve_length
    (h : w.quotaRankAndReserve cfg round estimate attempts = some (w', chain)) :
    chain.length ≤ attempts.length := by
  simpa using (quotaRankAndReserve_subperm h).length_le

end World

end CalvoProxy
