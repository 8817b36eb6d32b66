import CalvoProxy.Router.Verdict

/-!
# The keys of the circuits

A model has its circuit under `profile:provider:model`, or `profile:model` for OpenRouter,
unescaped. Two circuits have one key exactly if a colon in one can be read as a separator of the
other (`CircuitID.key_eq_iff`).
-/

namespace CalvoProxy

open List

theorem append_cons_eq_iff {α : Type} {c : α} {a b x y : List α} :
    a ++ c :: x = b ++ c :: y ↔ (a = b ∧ x = y) ∨
      (∃ d, b = a ++ c :: d ∧ x = d ++ c :: y) ∨ ∃ d, a = b ++ c :: d ∧ y = d ++ c :: x := by
  rw [append_eq_append_iff]
  constructor
  · rintro (⟨d, rfl, hd⟩ | ⟨d, rfl, hd⟩)
    · cases d with
      | nil => exact .inl ⟨(append_nil a).symm, (List.cons.inj hd).2⟩
      | cons _ d =>
        obtain ⟨rfl, rfl⟩ := List.cons.inj hd
        exact .inr (.inl ⟨d, rfl, rfl⟩)
    · cases d with
      | nil => exact .inl ⟨append_nil b, (List.cons.inj hd).2.symm⟩
      | cons _ d =>
        obtain ⟨rfl, rfl⟩ := List.cons.inj hd
        exact .inr (.inr ⟨d, rfl, rfl⟩)
  · rintro (⟨rfl, rfl⟩ | ⟨d, rfl, rfl⟩ | ⟨d, rfl, rfl⟩)
    · exact .inl ⟨[], (append_nil a).symm, rfl⟩
    · exact .inl ⟨c :: d, rfl, rfl⟩
    · exact .inr ⟨c :: d, rfl, rfl⟩

theorem colon_eq_iff {a b x y : String} : a ++ ":" ++ x = b ++ ":" ++ y ↔ (a = b ∧ x = y) ∨
      (∃ d, b = a ++ ":" ++ d ∧ x = d ++ ":" ++ y) ∨ ∃ d, a = b ++ ":" ++ d ∧ y = d ++ ":" ++ x := by
  have hcut : ∀ s t : String, (s ++ ":" ++ t).toList = s.toList ++ ':' :: t.toList := fun s t => by
    simp
  have hpiece : ∀ s t u v : String, (∃ d, s = t ++ ":" ++ d ∧ u = d ++ ":" ++ v) ↔
      ∃ d, s.toList = t.toList ++ ':' :: d ∧ u.toList = d ++ ':' :: v.toList := by
    intro s t u v
    simp only [← String.toList_inj, hcut]
    exact ⟨fun ⟨d, h⟩ => ⟨d.toList, h⟩, fun ⟨d, h⟩ => ⟨String.ofList d, by simpa using h⟩⟩
  rw [hpiece, hpiece, ← String.toList_inj, hcut, hcut, ← @String.toList_inj a b,
    ← @String.toList_inj x y]
  exact append_cons_eq_iff

structure CircuitID where
  profile : String
  provider : String
  model : String
deriving DecidableEq

/-- An empty profile or provider stands for the default one. -/
def Settings.circuitOf (cfg : Settings) (attempt : ModelAttempt) : CircuitID :=
  let profile := GoString.trimSpace attempt.profile
  let provider := GoString.trimSpace attempt.provider.text
  { profile := if profile = "" then cfg.defaultProfile else profile
    provider := if provider = "" then cfg.defaultPolicyProvider.text else provider
    model := GoString.trimSpace attempt.model }

namespace CircuitID

def route (x : CircuitID) : String :=
  if x.provider = ProviderID.openRouter.text then x.model else x.provider ++ ":" ++ x.model

def key (x : CircuitID) : String := x.profile ++ ":" ++ x.route

/-- A colon in a field of `x` is where `y` has a separator. -/
inductive Confused : CircuitID → CircuitID → Prop
  | model {profile provider model : String} (h : provider ≠ ProviderID.openRouter.text) :
      Confused ⟨profile, ProviderID.openRouter.text, provider ++ ":" ++ model⟩
        ⟨profile, provider, model⟩
  | provider {profile provider piece model : String} (h : provider ≠ ProviderID.openRouter.text) :
      Confused ⟨profile, provider, piece ++ ":" ++ model⟩ ⟨profile, provider ++ ":" ++ piece, model⟩
  | profile {x y : CircuitID} {piece : String} (hprofile : y.profile = x.profile ++ ":" ++ piece)
      (hroute : x.route = piece ++ ":" ++ y.route) : Confused x y

variable {x y : CircuitID}

theorem colon_ne_openRouter (s t : String) : s ++ ":" ++ t ≠ ProviderID.openRouter.text := by
  intro h
  have hmem : ':' ∈ (s ++ ":" ++ t).toList := by simp
  rw [h] at hmem
  exact absurd hmem (by decide)

theorem ne_piece (s piece : String) : s ≠ s ++ ":" ++ piece := by
  intro h
  have hlength := congrArg String.length h
  simp only [String.length_append] at hlength
  have hcolon : ":".length = 1 := rfl
  omega

theorem Confused.ne (h : Confused x y) : x ≠ y := by
  intro heq
  cases h with
  | model h => exact h (congrArg CircuitID.provider heq).symm
  | provider => exact ne_piece _ _ (congrArg CircuitID.provider heq)
  | profile hprofile => exact ne_piece _ _ (heq ▸ hprofile)

theorem Confused.key_eq (h : Confused x y) : x.key = y.key := by
  cases h with
  | model h => simp only [key, route, if_true, if_neg h]
  | provider h =>
    simp only [key, route, if_neg h, if_neg (colon_ne_openRouter _ _)]
    simp only [String.append_assoc]
  | profile hprofile hroute => simp only [key, hprofile, hroute, String.append_assoc]

theorem route_eq (hprofile : x.profile = y.profile) (h : x.route = y.route) :
    x = y ∨ Confused x y ∨ Confused y x := by
  obtain ⟨profile, provider, model⟩ := x
  obtain ⟨profile', provider', model'⟩ := y
  obtain rfl : profile = profile' := hprofile
  simp only [route] at h
  split at h
  · next hx =>
    obtain rfl : provider = _ := hx
    split at h
    · next hy =>
      obtain rfl : provider' = _ := hy
      exact .inl (by rw [h])
    · next hy =>
      subst h
      exact .inr (.inl (.model hy))
  · next hx =>
    split at h
    · next hy =>
      obtain rfl : provider' = _ := hy
      subst h
      exact .inr (.inr (.model hx))
    · next hy =>
      rcases colon_eq_iff.mp h with ⟨rfl, rfl⟩ | ⟨d, rfl, rfl⟩ | ⟨d, rfl, rfl⟩
      · exact .inl rfl
      · exact .inr (.inl (.provider hx))
      · exact .inr (.inr (.provider hy))

theorem key_eq_iff : x.key = y.key ↔ x = y ∨ Confused x y ∨ Confused y x := by
  constructor
  · intro h
    rcases colon_eq_iff.mp h with ⟨hprofile, hroute⟩ | ⟨d, hprofile, hroute⟩ | ⟨d, hprofile, hroute⟩
    · exact route_eq hprofile hroute
    · exact .inr (.inl (.profile hprofile hroute))
    · exact .inr (.inr (.profile hprofile hroute))
  · rintro (rfl | h | h)
    · rfl
    · exact h.key_eq
    · exact h.key_eq.symm

end CircuitID

section Attempts

variable (cfg : Settings)

theorem breakerKey_eq (a : ModelAttempt) : cfg.breakerKey a = (cfg.circuitOf a).key := by
  simp only [Settings.breakerKey, CircuitID.key, CircuitID.route, Settings.circuitOf]
  split <;> split <;> simp_all [String.append_assoc]

def RouterService.readCircuit (b : ModelAttempt) (env : ScoreEnv) (s : RouterService) :
    Option ModelBreakerState × Rat :=
  let state := s.modelBreakers.lookup (cfg.breakerKey b)
  (state, ModelBreakerState.decayedScore state env)

/-- Two circuits are kept apart, and no breaker method of the one changes what is read for the
other, exactly if neither can be read as the other. -/
theorem circuits_apart_iff (a b : ModelAttempt) :
    ((cfg.breakerKey a = cfg.breakerKey b → cfg.circuitOf a = cfg.circuitOf b) ∧
      (cfg.circuitOf a ≠ cfg.circuitOf b → ∀ now action env s,
        (World.perform cfg a now action s).readCircuit cfg b env = s.readCircuit cfg b env)) ↔
      ¬((cfg.circuitOf a).Confused (cfg.circuitOf b) ∨
        (cfg.circuitOf b).Confused (cfg.circuitOf a)) := by
  rw [breakerKey_eq, breakerKey_eq, CircuitID.key_eq_iff]
  constructor
  · rintro ⟨hinjective, -⟩ hconfused
    have hsame := hinjective (.inr hconfused)
    exact hconfused.elim (fun h => h.ne hsame) fun h => h.ne hsame.symm
  · intro hapart
    refine ⟨fun h => h.resolve_right hapart, fun hne now action env s => ?_⟩
    have hkey : cfg.breakerKey b ≠ cfg.breakerKey a := by
      rw [breakerKey_eq, breakerKey_eq]
      exact fun h => (CircuitID.key_eq_iff.mp h.symm).elim hne hapart
    have hframe := @RouterService.SameElsewhere.perform cfg a now action s
    simp only [RouterService.readCircuit, hframe.models _ hkey]

def groqLlama : ModelAttempt := { demoAttempt with provider := .groq, model := "llama" }

def namesakeModel : ModelAttempt := { demoAttempt with model := "groq:llama" }

/-- Three failures at Groq open the circuit of the other model. -/
theorem namesake_shares_circuit : demoSettings.circuitOf groqLlama = ⟨"default", "groq", "llama"⟩ ∧
      demoSettings.circuitOf namesakeModel = ⟨"default", "openrouter", "groq:llama"⟩ ∧
      demoSettings.breakerKey groqLlama = demoSettings.breakerKey namesakeModel ∧
      let fail := World.perform demoSettings groqLlama 1 (.recordFailure 502 "" none)
      (demoWorld.service.isModelAvailable demoSettings namesakeModel 2 = true) ∧
        (fail (fail (fail demoWorld.service))).isModelAvailable demoSettings namesakeModel 2 =
          false := by
  decide +kernel

end Attempts

end CalvoProxy
