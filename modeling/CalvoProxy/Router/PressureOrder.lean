import Mathlib.Algebra.Ring.Rat
import CalvoProxy.Lib.Insertion
import CalvoProxy.Router.Ranking

/-!
# The order of the providers

`quotaRankAndReserve` compares providers by session, then by quota pressure beyond a band, by speed
and by reliability. This is no order: a group with a lower pressure goes first however the groups
are given exactly if no chain of groups leads back to it (`lower_pressure_first_iff`).
-/

namespace CalvoProxy

open List

variable {cfg : Settings}

/-- What the sort reads besides the pressures. -/
structure GroupRanking where
  preferred : Option AffinityRoute
  score : ModelAttempt → Rat
  latency : ModelAttempt → Duration
  latencySamples : ModelAttempt → Int64
  order : ProviderID → Nat
  minSamples : Int64
  latencyBudget : Duration

namespace GroupRanking

variable (f : GroupRanking)

def isPreferred (g : ProviderGroup) : Bool := f.preferred.any fun route => g.attempts.any route.isOf

def ofFirst {β : Type} (value : ModelAttempt → β) (none : β) (g : ProviderGroup) : β :=
  (g.attempts.head?.map value).getD none

def pressureBand : Rat := 1 / 20

/-- The first pressure is known to be lower by more than the band. -/
def lower (g h : ProviderGroup) : Bool :=
  match g.pressure, h.pressure with
  | some p, some q => p + pressureBand < q
  | _, _ => false

def less (g h : ProviderGroup) : Bool :=
  let samples := ofFirst f.latencySamples 0
  let latency := ofFirst f.latency 0
  let reliability := ofFirst f.score 0
  if f.isPreferred g != f.isPreferred h then f.isPreferred g
  else if lower g h || lower h g then lower g h
  else if f.minSamples ≤ samples g ∧ f.minSamples ≤ samples h ∧
      f.latencyBudget < (latency g - latency h).natAbs then latency g < latency h
  else if reliability g ≠ reliability h then reliability h < reliability g
  else f.order g.provider < f.order h.provider

/-- `sort.SliceStable`, which sorts up to twenty elements by insertion. -/
def sortGroups (groups : List ProviderGroup) : List ProviderGroup := Insertion.sort f.less groups

theorem sortGroups_perm (groups : List ProviderGroup) : (f.sortGroups groups).Perm groups :=
  Insertion.sort_perm groups

theorem lower_asymm {g h : ProviderGroup} (hlower : lower g h = true) : lower h g = false := by
  unfold lower at hlower ⊢
  cases hp : g.pressure with
  | none => simp [hp] at hlower
  | some p =>
    cases hq : h.pressure with
    | none => rfl
    | some q =>
      simp only [hp, hq, pressureBand] at hlower ⊢
      grind

variable {f}

theorem less_asymm (g h : ProviderGroup) (hless : f.less g h = true) : f.less h g = false := by
  unfold less at hless ⊢
  have hpreferred : (f.isPreferred h != f.isPreferred g) = (f.isPreferred g != f.isPreferred h) := by
    cases f.isPreferred g <;> cases f.isPreferred h <;> rfl
  have habs : (ofFirst f.latency 0 h - ofFirst f.latency 0 g).natAbs =
      (ofFirst f.latency 0 g - ofFirst f.latency 0 h).natAbs := by
    rw [← Int.natAbs_neg, Int.neg_sub]
  simp only [hpreferred, habs, Bool.or_comm (lower h g)] at hless ⊢
  split at hless
  · next hdiffers =>
    rw [if_pos hdiffers]
    simpa [hless] using hdiffers
  · next hsame =>
    rw [if_neg hsame]
    split at hless
    · next hband =>
      rw [if_pos hband]
      exact lower_asymm hless
    · next hband =>
      rw [if_neg hband]
      split at hless
      · next hslower =>
        rw [if_pos ⟨hslower.2.1, hslower.1, hslower.2.2⟩]
        simp only [decide_eq_true_eq, decide_eq_false_iff_not] at hless ⊢
        exact Int.not_lt.mpr (Int.le_of_lt hless)
      · next hfast =>
        rw [if_neg fun hslower => hfast ⟨hslower.2.1, hslower.1, hslower.2.2⟩]
        split at hless
        · next hdiffers =>
          rw [if_pos (Ne.symm hdiffers)]
          simp only [decide_eq_true_eq, decide_eq_false_iff_not] at hless ⊢
          grind
        · next hequal =>
          rw [if_neg fun hdiffers => hequal (Ne.symm hdiffers)]
          simp only [decide_eq_true_eq, decide_eq_false_iff_not] at hless ⊢
          omega

/-- `g` should come before `h`: neither or both hold the route of the session, and its pressure is
lower by more than the band. -/
structure Outranks (f : GroupRanking) (g h : ProviderGroup) : Prop where
  preferred : f.isPreferred g = f.isPreferred h
  pressure : ∃ p q, g.pressure = some p ∧ h.pressure = some q ∧ q - p > 1 / 20

/-- However the groups are given, none stands before one that outranks it, exactly if no drift leads
from one to the other. -/
theorem lower_pressure_first_iff (f : GroupRanking) (groups : List ProviderGroup) :
    (∀ given, given.Perm groups → (f.sortGroups given).Pairwise fun g h => ¬ f.Outranks h g) ↔
      ∀ g h, Insertion.Drift f.less groups g h → ¬ f.Outranks h g :=
  Insertion.sort_pairwise_iff less_asymm groups

end GroupRanking

/-! ## The groups of a request -/

def ScoredService.ranking (cfg : Settings) (env : ScoreEnv) (s : ScoredService)
    (preferred : Option AffinityRoute) (latency : ModelAttempt → Duration)
    (latencySamples : ModelAttempt → Int64) (attempts : List ModelAttempt) : GroupRanking where
  preferred := preferred
  score := s.scoreForAttempt cfg env
  latency := latency
  latencySamples := latencySamples
  order := (attempts.map cfg.normalizedProvider).eraseDups.idxOf
  minSamples := cfg.envInt "PROXY_QUOTA_LATENCY_MIN_SAMPLES" 3
  latencyBudget := (cfg.envInt "PROXY_QUOTA_LATENCY_BUDGET_MS" 1000 * 1000000).toInt

def World.builtGroups (cfg : Settings) (estimate : QuotaEstimate) (now : Time)
    (base : List ModelAttempt) (w : World) : World × List ProviderGroup :=
  let fitted := World.quotaFitting cfg estimate now base w
  World.groupPressures cfg estimate now (World.groupAttempts fitted.2) fitted.1

def bandSettings : Settings where
  __ := demoSettings
  env := fun key =>
    if key = "PROXY_OPENROUTER_FREE_RPM" then some 10
    else if key = "PROXY_CEREBRAS_RPM" then some 15
    else none
  ambientAllowed := true
  cerebrasKey := "c"
  groqKey := "g"

def bandAttempts : List ModelAttempt :=
  [{ demoAttempt with model := "m:free" }, { demoAttempt with provider := .cerebras },
    { demoAttempt with provider := .groq }]

def scoredState (score : Rat) : ModelBreakerState :=
  { ModelBreakerState.empty with successes := 1, score := score, scoreUpdatedAt := 1 }

def bandService : ScoredService where
  service :=
    { demoWorld.service with
      modelBreakers :=
        ((AList.insert "default:m:free" (scoredState (9 / 10)) ∅).insert "default:cerebras:m"
          (scoredState (5 / 10))).insert "default:groq:m" (scoredState (1 / 10)) }
  providerAttempts := ∅
  providerBalance := ∅

def bandEnv : ScoreEnv := newScoreEnv bandSettings.scores 1 0

def bandWorld : World := { demoWorld with service := bandService.service }

def bandRanking : GroupRanking :=
  bandService.ranking bandSettings bandEnv none (fun _ => 0) (fun _ => 0) bandAttempts

def bandGroups : List ProviderGroup :=
  (bandWorld.builtGroups bandSettings ⟨1, 2, 1, 1, true⟩ 1
    (bandService.rankAttemptsByScore bandSettings true bandEnv bandAttempts)).2

theorem bandAttempts_ranked :
    bandService.rankAttemptsByScore bandSettings true bandEnv bandAttempts = bandAttempts := by
  have hgroups : (World.groupAttempts (bandAttempts.map bandSettings.filled)).map
      (bandService.sortGroup bandSettings true bandEnv) =
        bandAttempts.map fun a => ⟨a.provider, [a], none⟩ := by
    have hplain : World.groupAttempts (bandAttempts.map bandSettings.filled) =
        bandAttempts.map fun a => ⟨a.provider, [a], none⟩ := by rfl
    rw [hplain, map_map]
    refine map_congr_left fun a _ => ?_
    simp [ScoredService.sortGroup]
  unfold ScoredService.rankAttemptsByScore ScoredService.rankAttemptsLocked
  rw [if_neg (by decide), hgroups]
  dsimp only
  rw [mergeSort_of_pairwise (by decide +kernel)]
  rfl

theorem bandGroups_sorted :
    (bandRanking.sortGroups bandGroups).map (fun g => (g.provider, g.pressure)) =
      [(.openRouter, some (1 / 10)), (.cerebras, some (1 / 15)), (.groq, some (1 / 30))] := by
  rw [bandGroups, bandAttempts_ranked]
  decide +kernel

/-- Each provider is more reliable than the next, with a higher pressure within the band: the first
one stays first, although the last has less by more than the band. -/
theorem reliable_group_stays_first :
    ¬ (bandRanking.sortGroups bandGroups).Pairwise fun g h => ¬ bandRanking.Outranks h g := by
  have hsorted := bandGroups_sorted
  have hpreferred : ∀ g, bandRanking.isPreferred g = false := fun _ => rfl
  generalize bandRanking.sortGroups bandGroups = sorted at hsorted
  intro hlaw
  obtain ⟨g, rest, rfl, hg, hrest⟩ := map_eq_cons_iff.mp hsorted
  obtain ⟨g', rest, rfl, -, hrest⟩ := map_eq_cons_iff.mp hrest
  obtain ⟨h, rest, rfl, hh, -⟩ := map_eq_cons_iff.mp hrest
  have hmem : h ∈ g' :: h :: rest := mem_cons_of_mem g' mem_cons_self
  refine (pairwise_cons.mp hlaw).1 h hmem ⟨?_, 1 / 30, 1 / 10, ?_, ?_, ?_⟩
  · rw [hpreferred, hpreferred]
  · exact congrArg Prod.snd hh
  · exact congrArg Prod.snd hg
  · decide +kernel

end CalvoProxy
