import CalvoProxy.Router.Service

/-!
# The clocks of a score

`recordSuccess` and `penalizeScore` take an attempt number and the time, and then write both into
the state of the model under its lock. A call that has been overtaken sets the clocks back
(`overtaken_sets_back`): they never run backwards exactly if the updates come in the order of their
numbers (`score_clocks_iff`).
-/

namespace CalvoProxy.ScoreClocks

open List Machine RouterService ModelBreakerState

structure ScoreCall where
  attempt : ModelAttempt
  /-- the status, if the call is `penalizeScore` -/
  failure : Option Int
  env : ScoreEnv

namespace ScoreCall

def update (c : ScoreCall) (state : ModelBreakerState) : ModelBreakerState :=
  match c.failure with
  | none => state.succeed.applyScoreSuccess c.env
  | some code => state.penalize code c.env

def clocks (c : ScoreCall) : Int × Time := (c.env.seq, c.env.now)

end ScoreCall

/-- `calls` have taken a number, the newest first; `updated` have made their update as well. -/
structure Scorer where
  service : RouterService
  now : Time
  calls : List ScoreCall
  updated : List ScoreCall

inductive ScoreStep
  | count (attempt : ModelAttempt) (failure : Option Int) (now : Time)
  | update (i : Nat)

/-- The output is the service after the step. -/
def step (cfg : Settings) (s : Scorer) : ScoreStep → Option (Scorer × RouterService)
  | .count attempt failure now =>
    if now < s.now then none
    else
      let r := s.service.countScoredAttempt cfg now
      some (⟨r.1, now, ⟨attempt, failure, r.2⟩ :: s.calls, s.updated⟩, r.1)
  | .update i =>
    match s.calls[i]? with
    | none => none
    | some c =>
      if ∃ d ∈ s.updated, d.env.seq = c.env.seq then none
      else
        let service := s.service.updateModel cfg c.attempt c.update
        some (⟨service, s.now, s.calls, c :: s.updated⟩, service)

/-- `ScoreAttemptSeq` and `ScoreUpdatedAt` of a model. -/
def clocks (service : RouterService) (key : String) : Int × Time :=
  let state := (service.modelBreakers.lookup key).getD .empty
  (state.scoreAttemptSeq, state.scoreUpdatedAt)

abbrev NotBack (key : String) (e : Event Scorer ScoreStep RouterService) : Prop :=
  clocks e.before.service key ≤ clocks e.output key

/-- An update comes after those with earlier numbers only, and not behind the `first` clocks. -/
def InTurn (cfg : Settings) (key : String) (first : Int × Time)
    (e : Event Scorer ScoreStep RouterService) : Prop :=
  ∀ i c, e.input = .update i → e.before.calls[i]? = some c → cfg.breakerKey c.attempt = key →
    first ≤ c.clocks ∧
      ∀ d ∈ e.before.updated, cfg.breakerKey d.attempt = key → d.env.seq < c.env.seq

variable {cfg : Settings} {key : String} {first : Int × Time} {s s' : Scorer} {i : Nat}
  {c d : ScoreCall} {o : RouterService}

/-- The later number has the later time, and the clocks are the greatest of the updates. -/
structure Numbered (cfg : Settings) (key : String) (first : Int × Time) (s : Scorer) : Prop where
  past : ∀ c ∈ s.calls, c.clocks ≤ (s.service.scoreAttempts, s.now)
  ordered : ∀ c ∈ s.calls, ∀ d ∈ s.calls, c.env.seq ≤ d.env.seq → c.env.now ≤ d.env.now
  known : s.updated ⊆ s.calls
  since : first ≤ clocks s.service key
  latest : ∀ d ∈ s.updated, cfg.breakerKey d.attempt = key → d.clocks ≤ clocks s.service key
  reached : clocks s.service key = first ∨
    ∃ d ∈ s.updated, cfg.breakerKey d.attempt = key ∧ clocks s.service key = d.clocks

theorem clocks_update (service : RouterService) (c : ScoreCall) :
    clocks (service.updateModel cfg c.attempt c.update) key =
      if cfg.breakerKey c.attempt = key then c.clocks else clocks service key := by
  unfold clocks updateModel
  by_cases hkey : cfg.breakerKey c.attempt = key
  · subst hkey
    rw [if_pos rfl]
    simp only [AList.lookup_insert, Option.getD_some, ScoreCall.update, ScoreCall.clocks]
    cases c.failure <;> rfl
  · rw [if_neg hkey]
    simp only [AList.lookup_insert_ne (Ne.symm hkey)]

theorem Numbered.count_step {attempt : ModelAttempt} {failure : Option Int} {now : Time}
    (h : Numbered cfg key first s) (hs : step cfg s (.count attempt failure now) = some (s', o)) :
    Numbered cfg key first s' ∧ clocks o key = clocks s.service key := by
  by_cases hnow : now < s.now
  · rw [step, if_pos hnow] at hs
    cases hs
  · rw [step, if_neg hnow] at hs
    have hnow : s.now ≤ now := not_lt.mp hnow
    cases hs
    have hpast : ∀ c ∈ s.calls, c.env.seq < s.service.scoreAttempts + 1 ∧ c.env.now ≤ now :=
      fun c hc => ⟨Int.lt_add_one_of_le (h.past c hc).1, (h.past c hc).2.trans hnow⟩
    refine ⟨⟨?_, ?_, fun d hd => mem_cons_of_mem _ (h.known hd), h.since, h.latest, h.reached⟩, rfl⟩
    · rintro c (_ | ⟨_, hc⟩)
      · exact le_refl (s.service.scoreAttempts + 1, now)
      · exact ⟨(hpast c hc).1.le, (hpast c hc).2⟩
    · rintro c (_ | ⟨_, hc⟩) d (_ | ⟨_, hd⟩) hseq
      · exact le_refl now
      · exact absurd (hpast d hd).1 (not_lt.mpr hseq)
      · exact (hpast c hc).2
      · exact h.ordered c hc d hd hseq

theorem update_step (hs : step cfg s (.update i) = some (s', o)) : ∃ c, s.calls[i]? = some c ∧
    (∀ d ∈ s.updated, d.env.seq ≠ c.env.seq) ∧ o = s.service.updateModel cfg c.attempt c.update ∧
    s' = ⟨o, s.now, s.calls, c :: s.updated⟩ := by
  cases hc : s.calls[i]? with
  | none =>
    simp only [step, hc] at hs
    cases hs
  | some c =>
    by_cases hi : ∃ d ∈ s.updated, d.env.seq = c.env.seq
    · simp only [step, hc, if_pos hi] at hs
      cases hs
    · simp only [step, hc, if_neg hi, Option.some.injEq, Prod.mk.injEq] at hs
      obtain ⟨rfl, rfl⟩ := hs
      exact ⟨c, rfl, fun d hd heq => hi ⟨d, hd, heq⟩, rfl, rfl⟩

section

variable (h : Numbered cfg key first s)
include h

/-- The clocks are behind those of a call exactly if its update is in turn. -/
theorem Numbered.le_iff (hc : c ∈ s.calls)
    (hnew : ∀ d ∈ s.updated, d.env.seq ≠ c.env.seq) : clocks s.service key ≤ c.clocks ↔
      first ≤ c.clocks ∧
        ∀ d ∈ s.updated, cfg.breakerKey d.attempt = key → d.env.seq < c.env.seq := by
  constructor
  · refine fun hle => ⟨h.since.trans hle, fun d hd hkey => ?_⟩
    exact lt_of_le_of_ne ((h.latest d hd hkey).trans hle).1 (hnew d hd)
  · rintro ⟨hfirst, hlater⟩
    rcases h.reached with heq | ⟨d, hd, hkey, heq⟩
    · exact heq ▸ hfirst
    · have hseq := (hlater d hd hkey).le
      exact heq ▸ ⟨hseq, h.ordered d (h.known hd) c hc hseq⟩

theorem Numbered.update_step (hs : step cfg s (.update i) = some (s', o)) :
    (NotBack key ⟨s, .update i, o⟩ ↔ InTurn cfg key first ⟨s, .update i, o⟩) ∧
      (NotBack key ⟨s, .update i, o⟩ → Numbered cfg key first s') := by
  obtain ⟨c, hc, hnew, rfl, rfl⟩ := ScoreClocks.update_step hs
  have hmem : c ∈ s.calls := mem_of_getElem? hc
  have hknown : c :: s.updated ⊆ s.calls := cons_subset.mpr ⟨hmem, h.known⟩
  have hclocks := @clocks_update cfg key s.service c
  by_cases hkey : cfg.breakerKey c.attempt = key
  · rw [if_pos hkey] at hclocks
    refine ⟨?_, fun hle => ?_⟩
    · rw [NotBack, hclocks, h.le_iff hmem hnew]
      constructor
      · rintro hone i' c' ⟨⟩ hc' -
        rw [Option.some.inj (hc'.symm.trans hc)]
        exact hone
      · exact fun hall => hall i c rfl hc hkey
    · rw [NotBack, hclocks] at hle
      refine ⟨h.past, h.ordered, hknown, ?_, ?_, .inr ⟨c, mem_cons_self, hkey, hclocks⟩⟩
      · rw [hclocks]
        exact h.since.trans hle
      · rintro d (_ | ⟨_, hd⟩) hkey' <;> rw [hclocks]
        exact (h.latest d hd hkey').trans hle
  · rw [if_neg hkey] at hclocks
    refine ⟨iff_of_true hclocks.ge ?_, fun _ => ⟨h.past, h.ordered, hknown, ?_, ?_, ?_⟩⟩
    · rintro i' c' ⟨⟩ hc' hkey'
      exact absurd (Option.some.inj (hc'.symm.trans hc) ▸ hkey') hkey
    · exact h.since.trans hclocks.ge
    · rintro d (_ | ⟨_, hd⟩) hkey'
      · exact absurd hkey' hkey
      · exact (h.latest d hd hkey').trans hclocks.ge
    · rcases h.reached with heq | ⟨d, hd, hkey', heq⟩
      · exact .inl (hclocks.trans heq)
      · exact .inr ⟨d, mem_cons_of_mem _ hd, hkey', hclocks.trans heq⟩

theorem Numbered.step_iff {input : ScoreStep} (hs : step cfg s input = some (s', o)) :
    (NotBack key ⟨s, input, o⟩ ↔ InTurn cfg key first ⟨s, input, o⟩) ∧
      (NotBack key ⟨s, input, o⟩ → Numbered cfg key first s') := by
  cases input with
  | count attempt failure now =>
    obtain ⟨hnext, hclocks⟩ := h.count_step hs
    refine ⟨iff_of_true hclocks.ge ?_, fun _ => hnext⟩
    rintro i c ⟨⟩
  | update i => exact h.update_step hs

end

/-- The clocks of a score go back nowhere exactly if the calls are in turn. -/
theorem score_clocks_iff {tr : List (Event Scorer ScoreStep RouterService)} (cfg : Settings)
    (key : String) (service : RouterService) (now : Time)
    (hrun : Run (step cfg) ⟨service, now, [], []⟩ tr s) :
    (∀ e ∈ tr, NotBack key e) ↔ ∀ e ∈ tr, InTurn cfg key (clocks service key) e := by
  -- The two sides fail first at the same step: up to it the clocks are the greatest so far.
  have hall : ((∀ e ∈ tr, NotBack key e) ↔ ∀ e ∈ tr, InTurn cfg key (clocks service key) e) ∧
      ((∀ e ∈ tr, NotBack key e) → Numbered cfg key (clocks service key) s) := by
    induction hrun with
    | start =>
      refine ⟨iff_of_true (forall_mem_nil _) (forall_mem_nil _), fun _ => ?_⟩
      exact ⟨forall_mem_nil _, forall_mem_nil _, Subset.refl _, le_refl _, forall_mem_nil _,
        .inl rfl⟩
    | @next tr s s' input o hrun hs ih =>
      simp only [forall_mem_append, forall_mem_singleton]
      refine ⟨?_, fun hback => ((ih.2 hback.1).step_iff hs).2 hback.2⟩
      rw [← ih.1]
      exact and_congr_right fun hback => ((ih.2 hback).step_iff hs).1
  exact hall.1

/-- Two successes of a model, and the order in which they make their updates. -/
def successes (i j : Nat) : List ScoreStep :=
  [.count demoAttempt none 1, .count demoAttempt none 2, .update i, .update j]

def fresh : Scorer := ⟨⟨.new 0, ∅, ∅, ∅, 0⟩, 0, [], []⟩

theorem score_clocks_in_turn : ∃ tr s, Run (step demoSettings) fresh tr s ∧
    tr.map Event.input = successes 1 0 ∧ (∀ e ∈ tr, NotBack "default:m" e) ∧
    ∀ e ∈ tr, InTurn demoSettings "default:m" (clocks fresh.service "default:m") e := by
  refine exists_run (successes 1 0) rfl fun hrun => ⟨rfl, by decide +kernel, ?_⟩
  exact (score_clocks_iff _ _ _ _ hrun).mp (by decide +kernel)

/-- The call with the first number stores last and sets the clocks back. -/
theorem overtaken_sets_back : ∃ tr s, Run (step demoSettings) fresh tr s ∧
    tr.map Event.input = successes 0 1 ∧ tr.map (fun e => clocks e.output "default:m") =
      [(0, 0), (0, 0), (2, 2), (1, 1)] := by
  exact exists_run (successes 0 1) rfl fun _ => ⟨rfl, by decide +kernel⟩

end CalvoProxy.ScoreClocks
