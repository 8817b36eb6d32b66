import CalvoProxy.Router.Planning

/-!
# Reloading the policy while a request is planned

`ReloadModelPolicy` writes the policy in five critical sections and `planModelAttempts` reads it in
three. A plan agrees with one of the two configurations exactly when the two mixtures plan nothing
else (`planned_from_one_iff`).
-/

namespace CalvoProxy

open Machine

variable {o : Unit} {phase : Phase}

structure PolicyRuntime where
  config : ModelPolicy
  providerProfiles : ProviderProfiles
  warnings : List String
  strict : Bool

namespace PolicyRuntime

variable (rt : PolicyRuntime)

def refused : Bool := rt.strict && !rt.warnings.isEmpty

def installed : PolicyState := ⟨rt.config, rt.providerProfiles, rt.config⟩

end PolicyRuntime

/-- The critical sections of `ReloadModelPolicy`; the last three write nothing that planning
reads. -/
inductive ReloadSection
  | setModelPolicyConfig
  | setProviderProfiles
  | setReasoningProfiles
  | setProfileTimeouts
  | setWarnings
deriving DecidableEq

def ReloadSection.write (rt : PolicyRuntime) (s : PolicyState) : ReloadSection → PolicyState
  | .setModelPolicyConfig => ⟨rt.config, ∅, rt.config⟩
  | .setProviderProfiles => { s with providerProfiles := rt.providerProfiles }
  | .setReasoningProfiles => s
  | .setProfileTimeouts => s
  | .setWarnings => s

def PolicyRuntime.sections (rt : PolicyRuntime) : List ReloadSection :=
  if rt.refused then []
  else [.setModelPolicyConfig, .setProviderProfiles, .setReasoningProfiles, .setProfileTimeouts,
    .setWarnings]

inductive PlanStage
  | start
  | policyRead
  | profilesRead (profiles : ProviderProfiles)
  | planned (attempts : List PlannedAttempt)

structure Reloading where
  shared : PolicyState
  pending : List ReloadSection
  planner : PlanStage

namespace Reloading

inductive Turn
  | reload
  | plan
deriving DecidableEq

/-- The next section of one of the two calls, unless it has returned. -/
def step (rt : PolicyRuntime) (q : PlanRequest) (s : Reloading) : Turn → Option (Reloading × Unit)
  | .reload =>
    match s.pending with
    | [] => none
    | next :: pending => some ({ s with shared := next.write rt s.shared, pending := pending }, ())
  | .plan =>
    match s.planner with
    | .start => some ({ s with planner := .policyRead }, ())
    | .policyRead => some ({ s with planner := .profilesRead s.shared.providerProfiles }, ())
    | .profilesRead profiles =>
      some ({ s with planner := .planned (q.plan profiles s.shared.modelPolicy) }, ())
    | .planned _ => none

def start (old : PolicyState) (rt : PolicyRuntime) : Reloading := ⟨old, rt.sections, .start⟩

variable {rt : PolicyRuntime} {q : PlanRequest} {old : PolicyState}

/-! ## Calls one after the other -/

theorem plan_alone : ∃ tr, Run (step rt q) (start old rt) tr
    ⟨old, rt.sections, .planned (old.planModelAttempts q)⟩ :=
  ⟨_, .next (.next (.next .start (i := .plan) rfl) (i := .plan) rfl) (i := .plan) rfl⟩

theorem reload_alone (h : rt.refused = false) : ∃ tr, Run (step rt q) (start old rt) tr
    ⟨rt.installed, [], .start⟩ := by
  rw [start, PolicyRuntime.sections, h]
  exact ⟨_, .next (.next (.next (.next (.next .start (i := .reload) rfl) (i := .reload) rfl)
    (i := .reload) rfl) (i := .reload) rfl) (i := .reload) rfl⟩

/-! ## What can be planned -/

/-- The lists of the two configurations and, unless the reload is refused, of their mixtures. -/
def Plannable (old : PolicyState) (rt : PolicyRuntime) (q : PlanRequest)
    (attempts : List PlannedAttempt) : Prop :=
  attempts = old.planModelAttempts q ∨ attempts = rt.installed.planModelAttempts q ∨
    rt.refused = false ∧ (attempts = q.plan ∅ rt.config ∨
      attempts = q.plan old.providerProfiles rt.config)

inductive Phase
  | before
  | between
  | after

namespace Phase

def shared (old : PolicyState) (rt : PolicyRuntime) : Phase → PolicyState
  | .before => old
  | .between => ⟨rt.config, ∅, rt.config⟩
  | .after => rt.installed

def Pending (rt : PolicyRuntime) : Phase → List ReloadSection → Prop
  | .before, pending => pending = rt.sections
  | .between, pending => rt.refused = false ∧
      pending = [.setProviderProfiles, .setReasoningProfiles, .setProfileTimeouts, .setWarnings]
  | .after, pending => rt.refused = false ∧
      ∀ x ∈ pending, x ≠ .setModelPolicyConfig ∧ x ≠ .setProviderProfiles

def Readable (old : PolicyState) (rt : PolicyRuntime) : Phase → ProviderProfiles → Prop
  | .before, profiles => profiles = old.providerProfiles
  | .between, profiles => profiles = old.providerProfiles ∨ profiles = ∅
  | .after, profiles =>
    profiles = old.providerProfiles ∨ profiles = ∅ ∨ profiles = rt.providerProfiles

end Phase

def PlannerFits (old : PolicyState) (rt : PolicyRuntime) (q : PlanRequest) (phase : Phase) :
    PlanStage → Prop
  | .start => True
  | .policyRead => True
  | .profilesRead profiles => phase.Readable old rt profiles
  | .planned attempts => Plannable old rt q attempts

structure Fits (old : PolicyState) (rt : PolicyRuntime) (q : PlanRequest) (phase : Phase)
    (s : Reloading) : Prop where
  shared : s.shared = phase.shared old rt
  pending : phase.Pending rt s.pending
  planner : PlannerFits old rt q phase s.planner

theorem plannable_of_readable {pending : List ReloadSection}
    {profiles : ProviderProfiles} (hpending : phase.Pending rt pending)
    (h : phase.Readable old rt profiles) :
    Plannable old rt q (q.plan profiles (phase.shared old rt).modelPolicy) := by
  cases phase with
  | before =>
    have hold : profiles = old.providerProfiles := h
    rw [hold]
    exact .inl rfl
  | between =>
    rcases h with hold | hnone
    · rw [hold]
      exact .inr (.inr ⟨hpending.1, .inr rfl⟩)
    · rw [hnone]
      exact .inr (.inr ⟨hpending.1, .inl rfl⟩)
  | after =>
    rcases h with hold | hnone | hnew
    · rw [hold]
      exact .inr (.inr ⟨hpending.1, .inr rfl⟩)
    · rw [hnone]
      exact .inr (.inr ⟨hpending.1, .inl rfl⟩)
    · rw [hnew]
      exact .inr (.inl rfl)

theorem PlannerFits.advance {phase' : Phase} {stage : PlanStage}
    (hphase : ∀ profiles, phase.Readable old rt profiles → phase'.Readable old rt profiles)
    (h : PlannerFits old rt q phase stage) : PlannerFits old rt q phase' stage := by
  cases stage with
  | start | policyRead => trivial
  | profilesRead profiles => exact hphase profiles h
  | planned attempts => exact h

theorem fits_reload {s s' : Reloading} (h : Fits old rt q phase s)
    (hstep : step rt q s .reload = some (s', o)) : ∃ phase', Fits old rt q phase' s' := by
  obtain ⟨hshared, hpending, hplanner⟩ := h
  unfold step at hstep
  simp only at hstep
  split at hstep
  · cases hstep
  next section' pending heq =>
  cases hstep
  rw [heq] at hpending
  cases phase with
  | before =>
    -- the first section of a reload that is not refused
    have hsections : section' :: pending = rt.sections := hpending
    unfold PolicyRuntime.sections at hsections
    split at hsections
    · cases hsections
    next hrefused =>
    cases hsections
    have hkept : ∀ profiles, Phase.before.Readable old rt profiles →
        Phase.between.Readable old rt profiles := fun _ h => .inl h
    exact ⟨.between, rfl, ⟨by simpa using hrefused, rfl⟩, hplanner.advance hkept⟩
  | between =>
    obtain ⟨hrefused, hlist⟩ := hpending
    cases hlist
    have hrest : ∀ x ∈ [ReloadSection.setReasoningProfiles, .setProfileTimeouts, .setWarnings],
        x ≠ .setModelPolicyConfig ∧ x ≠ .setProviderProfiles := by decide
    refine ⟨.after, ?_, ⟨hrefused, hrest⟩, hplanner.advance fun _ h => ?_⟩
    · show { s.shared with providerProfiles := rt.providerProfiles } = _
      rw [hshared]
      rfl
    · exact h.elim .inl fun h => .inr (.inl h)
  | after =>
    obtain ⟨hrefused, hlist⟩ := hpending
    refine ⟨.after, ?_, ⟨hrefused, fun x hx => hlist x (List.mem_cons_of_mem _ hx)⟩, hplanner⟩
    obtain ⟨hfirst, hsecond⟩ := hlist section' List.mem_cons_self
    cases section' with
    | setModelPolicyConfig => exact absurd rfl hfirst
    | setProviderProfiles => exact absurd rfl hsecond
    | setReasoningProfiles | setProfileTimeouts | setWarnings => exact hshared

theorem fits_plan {s s' : Reloading} (h : Fits old rt q phase s)
    (hstep : step rt q s .plan = some (s', o)) : Fits old rt q phase s' := by
  obtain ⟨hshared, hpending, hplanner⟩ := h
  unfold step at hstep
  simp only at hstep
  split at hstep
  · cases hstep
    exact ⟨hshared, hpending, trivial⟩
  · cases hstep
    refine ⟨hshared, hpending, ?_⟩
    show phase.Readable old rt s.shared.providerProfiles
    rw [hshared]
    cases phase with
    | before => exact rfl
    | between => exact .inr rfl
    | after => exact .inr (.inr rfl)
  · next profiles hstage =>
    cases hstep
    rw [hstage] at hplanner
    refine ⟨hshared, hpending, ?_⟩
    show Plannable old rt q (q.plan profiles s.shared.modelPolicy)
    rw [hshared]
    exact plannable_of_readable hpending hplanner
  · cases hstep

theorem run_fits {tr : List (Event Reloading Turn Unit)} {s : Reloading}
    (h : Run (step rt q) (start old rt) tr s) : ∃ phase, Fits old rt q phase s := by
  have hstart : ∃ phase, Fits old rt q phase (start old rt) := ⟨.before, rfl, rfl, trivial⟩
  refine Reachable.invariant (P := fun s => ∃ phase, Fits old rt q phase s) ?_ hstart ⟨tr, h⟩
  rintro s turn s' o ⟨phase, hfits⟩ hstep
  cases turn with
  | reload => exact fits_reload hfits hstep
  | plan => exact ⟨phase, fits_plan hfits hstep⟩

/-! ## Atomic planning -/

/-- The new model policy plans nothing new, without provider profiles or with the old ones. -/
def Seamless (old : PolicyState) (rt : PolicyRuntime) (q : PlanRequest) : Prop :=
  let selected := rt.config.select q.category q.requestedModel
  ∀ targets, targets = [] ∨ targets = (old.providerProfiles.lookup selected.profile).getD [] →
    q.attemptsFor targets selected = old.planModelAttempts q ∨
      q.attemptsFor targets selected = rt.installed.planModelAttempts q

theorem mixtures_planned (h : rt.refused = false) {attempts : List PlannedAttempt}
    (hmixed : attempts = q.plan ∅ rt.config ∨ attempts = q.plan old.providerProfiles rt.config) :
    ∃ tr s, Run (step rt q) (start old rt) tr s ∧ s.planner = .planned attempts := by
  have hstart : start old rt = ⟨old, [.setModelPolicyConfig, .setProviderProfiles,
      .setReasoningProfiles, .setProfileTimeouts, .setWarnings], .start⟩ := by
    unfold start PolicyRuntime.sections
    rw [h]
    rfl
  rw [hstart]
  rcases hmixed with rfl | rfl
  · -- the reload has dropped the provider profiles
    exact ⟨_, _, .next (.next (.next (.next .start (i := .reload) rfl) (i := .plan) rfl)
      (i := .plan) rfl) (i := .plan) rfl, rfl⟩
  · -- the provider profiles were read before the reload
    exact ⟨_, _, .next (.next (.next (.next .start (i := .plan) rfl) (i := .plan) rfl)
      (i := .reload) rfl) (i := .plan) rfl, rfl⟩

/-- A request is planned by the old policy or the new one exactly if the reload is refused or
seamless. -/
theorem planned_from_one_iff (old : PolicyState) (rt : PolicyRuntime) (q : PlanRequest) :
    (∀ tr s attempts, Run (step rt q) (start old rt) tr s → s.planner = .planned attempts →
        attempts = old.planModelAttempts q ∨ attempts = rt.installed.planModelAttempts q) ↔
      rt.refused = true ∨ Seamless old rt q := by
  constructor
  · intro hall
    cases hrefused : rt.refused with
    | true => exact .inl rfl
    | false =>
      refine .inr fun targets htargets => ?_
      have hmixed : ∀ attempts, attempts = q.plan ∅ rt.config ∨
          attempts = q.plan old.providerProfiles rt.config →
          attempts = old.planModelAttempts q ∨ attempts = rt.installed.planModelAttempts q := by
        intro attempts hattempts
        obtain ⟨tr, s, hrun, hplanned⟩ := mixtures_planned hrefused hattempts
        exact hall tr s attempts hrun hplanned
      rcases htargets with rfl | rfl
      · exact hmixed _ (.inl rfl)
      · exact hmixed _ (.inr rfl)
  · intro hcond tr s attempts hrun hplanned
    obtain ⟨phase, hfits⟩ := run_fits hrun
    have hplannable := hfits.planner
    rw [hplanned] at hplannable
    rcases hplannable with hold | hnew | ⟨hrefused, hmixed⟩
    · exact .inl hold
    · exact .inr hnew
    rcases hcond with htrue | hseamless
    · rw [hrefused] at htrue
      cases htrue
    · rcases hmixed with rfl | rfl
      · exact hseamless _ (.inl rfl)
      · exact hseamless _ (.inr rfl)

/-! ## A request between the two sections -/

def formerPolicy : PolicyState :=
  ⟨⟨"default", AList.insert "default" ["a"] ∅⟩, ∅, ⟨"default", AList.insert "default" ["a"] ∅⟩⟩

/-- A model at Groq, and another one for services without provider profiles. -/
def nextPolicy : PolicyRuntime :=
  ⟨⟨"default", AList.insert "default" ["b"] ∅⟩, AList.insert "default" [⟨.groq, "c"⟩] ∅, [], false⟩

def demoPlan : PlanRequest := ⟨⟨.openRouter, [], ⟨0, 0⟩⟩, "default", "auto"⟩

/-- Between the first two sections a request is sent to a model that neither configuration has for
it. -/
theorem default_chain_planned : ∃ tr s attempts,
    Run (step nextPolicy demoPlan) (start formerPolicy nextPolicy) tr s ∧
      s.planner = .planned attempts ∧ attempts = [⟨"default", "b", .openRouter, ⟨0, 0⟩⟩] ∧
      attempts ≠ formerPolicy.planModelAttempts demoPlan ∧
      attempts ≠ nextPolicy.installed.planModelAttempts demoPlan := by
  obtain ⟨tr, s, hrun, hplanned⟩ := @mixtures_planned nextPolicy demoPlan formerPolicy rfl _
    (.inl rfl)
  refine ⟨tr, s, _, hrun, hplanned, rfl, fun h => ?_, fun h => ?_⟩
  · exact absurd (congrArg (List.map (·.model)) h) (by decide +kernel)
  · exact absurd (congrArg (List.map (·.model)) h) (by decide +kernel)

end Reloading

end CalvoProxy
