import Mathlib.Algebra.Order.Ring.Rat
import Mathlib.Algebra.Field.Rat
import CalvoProxy.Lib.Drift
import CalvoProxy.Router.Service

/-!
# The laws of the scores

A stored score drifts to its baseline by the slower of two clocks (`decayedScore_eq`), with the laws
of `ScoreLaws`. A failure is one more attempt on the evidence clock, so that it also forgives
(`standing_kept_iff`).
-/

namespace CalvoProxy

open Drift RouterService

theorem clamp01_eq (v : Rat) : clamp01 v = max 0 (min 1 v) := by
  unfold clamp01
  split
  · next h => rw [max_eq_left ((min_le_right 1 v).trans h.le)]
  next h =>
  split
  · next h' => rw [min_eq_left h'.le, max_eq_right zero_le_one]
  · next h' => rw [min_eq_right (not_lt.mp h'), max_eq_right (not_lt.mp h)]

theorem clamp01_mem (v : Rat) : 0 ≤ clamp01 v ∧ clamp01 v ≤ 1 := by
  rw [clamp01_eq]
  exact ⟨le_max_left .., max_le zero_le_one (min_le_left ..)⟩

theorem clamp01_of_mem {v : Rat} (h : 0 ≤ v ∧ v ≤ 1) : clamp01 v = v := by
  rw [clamp01_eq, min_eq_right h.2, max_eq_right h.1]

/-- The windows have some length, as `newScoreEnv` gives them. -/
structure ScoreEnv.Windowed (env : ScoreEnv) : Prop where
  duration : 0 < env.duration
  attempts : 0 < env.attempts

theorem newScoreEnv_windowed (window : ScoreWindow) (now : Time) (seq : Int) :
    (newScoreEnv window now seq).Windowed := by
  constructor
  · show 0 < if window.recovery ≤ 0 then defaultScoreRecovery else window.recovery
    split
    · decide
    · next h => exact Int.not_le.mp h
  · show 0 < if window.recoveryAttempts < 1 then defaultScoreRecoveryAttempts
      else window.recoveryAttempts
    split
    · decide
    · next h => omega

namespace ModelBreakerState

variable {state : ModelBreakerState} {env : ScoreEnv}

theorem decayFraction_eq (henv : env.Windowed) :
    state.decayFraction env = slower ((env.now - state.scoreUpdatedAt : Int) : Rat) env.duration
      ((env.seq - state.scoreAttemptSeq : Int) : Rat) env.attempts := by
  have hduration : (0 : Rat) ≤ env.duration := Int.cast_nonneg henv.duration.le
  have hattempts : (0 : Rat) ≤ env.attempts := Int.cast_nonneg henv.attempts.le
  unfold decayFraction
  simp only
  split
  · next h => exact (slower_zero hduration hattempts (.inl (Int.cast_nonpos.mpr h))).symm
  split
  · next h => exact (slower_zero hduration hattempts (.inr (Int.cast_nonpos.mpr h))).symm
  rw [clamp01_eq, slower]
  congr 2
  split
  · next h => exact (min_eq_right h.le).symm
  · next h => exact (min_eq_left (not_lt.mp h)).symm

theorem scoreBaseline_mem (state : ModelBreakerState) :
    0 ≤ state.scoreBaseline ∧ state.scoreBaseline ≤ 1 := by
  unfold scoreBaseline
  split <;> decide +kernel

structure Scored (state : ModelBreakerState) : Prop where
  score : 0 ≤ state.score ∧ state.score ≤ 1
  updated : Time.isZero state.scoreUpdatedAt = false

theorem decayFraction_mem (henv : env.Windowed) :
    0 ≤ state.decayFraction env ∧ state.decayFraction env ≤ 1 := by
  rw [decayFraction_eq henv]
  exact ⟨slower_nonneg .., slower_le_one ..⟩

theorem decayedScore_eq (h : state.Scored) (henv : env.Windowed) : decayedScore (some state) env =
      drift state.score state.scoreBaseline (state.decayFraction env) := by
  have hbetween := drift_between (a := state.score) (b := state.scoreBaseline)
    (@decayFraction_mem state env henv).1 (decayFraction_mem henv).2
  simp only [decayedScore, h.updated, Bool.false_eq_true, if_false]
  refine clamp01_of_mem ?_
  rcases Set.mem_uIcc.mp hbetween with ⟨hlow, hhigh⟩ | ⟨hlow, hhigh⟩
  · exact ⟨h.score.1.trans hlow, hhigh.trans state.scoreBaseline_mem.2⟩
  · exact ⟨state.scoreBaseline_mem.1.trans hlow, hhigh.trans h.score.2⟩

theorem decayedScore_mem (state : Option ModelBreakerState) (env : ScoreEnv) :
    0 ≤ decayedScore state env ∧ decayedScore state env ≤ 1 := by
  unfold decayedScore
  split
  · decide +kernel
  · split
    · decide +kernel
    · exact clamp01_mem _

def penaltyFor (statusCode : Int) : Rat :=
  if statusCode = 429 ∨ statusCode = 408 ∨ 500 ≤ statusCode then scorePenaltyHard
  else scorePenaltySoft

theorem penaltyFor_mem (statusCode : Int) :
    scorePenaltySoft ≤ penaltyFor statusCode ∧ penaltyFor statusCode ≤ scorePenaltyHard := by
  unfold penaltyFor
  split <;> decide +kernel

theorem applyScoreFailure_score (statusCode : Int) :
    (state.applyScoreFailure statusCode env).score =
      decayedScore (some state) env * (1 - penaltyFor statusCode) := by
  obtain ⟨hlow, hhigh⟩ := decayedScore_mem (some state) env
  obtain ⟨hsoft, hhard⟩ := penaltyFor_mem statusCode
  have hfactor : 0 ≤ 1 - penaltyFor statusCode ∧ 1 - penaltyFor statusCode ≤ 1 := by
    have h1 : scorePenaltyHard ≤ 1 := by decide +kernel
    have h2 : 0 ≤ scorePenaltySoft := by decide +kernel
    exact ⟨by linarith, by linarith⟩
  exact clamp01_of_mem ⟨mul_nonneg hlow hfactor.1, mul_le_one₀ hhigh hfactor.1 hfactor.2⟩

theorem applyScoreSuccess_score : (state.applyScoreSuccess env).score =
      drift (decayedScore (some state) env) 1 scoreSuccessStep := by
  obtain ⟨hlow, hhigh⟩ := decayedScore_mem (some state) env
  have hbetween := drift_between (a := decayedScore (some state) env) (b := 1)
    (f := scoreSuccessStep) (by decide +kernel) (by decide +kernel)
  rw [Set.uIcc_of_le hhigh] at hbetween
  exact clamp01_of_mem ⟨hlow.trans hbetween.1, hbetween.2⟩

structure ScoreLaws (state : ModelBreakerState) (env : ScoreEnv) : Prop where
  stored : 0 ≤ state.score ∧ state.score ≤ 1
  read : 0 ≤ decayedScore (some state) env ∧ decayedScore (some state) env ≤ 1
  between : decayedScore (some state) env ∈ Set.uIcc state.score state.scoreBaseline
  towards : ∀ now seq, env.now ≤ now → env.seq ≤ seq →
    decayedScore (some state) { env with now := now, seq := seq } ∈
      Set.uIcc (decayedScore (some state) env) state.scoreBaseline
  still : env.now = state.scoreUpdatedAt ∨ env.seq = state.scoreAttemptSeq →
    decayedScore (some state) env = state.score
  recovered : env.duration ≤ env.now - state.scoreUpdatedAt →
    env.attempts ≤ env.seq - state.scoreAttemptSeq →
    decayedScore (some state) env = state.scoreBaseline
  success : decayedScore (some state) env ≤ (state.applyScoreSuccess env).score
  failure : ∀ code, (state.applyScoreFailure code env).score ≤ decayedScore (some state) env
  hard : ∀ code code', penaltyFor code = scorePenaltyHard → penaltyFor code' = scorePenaltySoft →
    (state.applyScoreFailure code env).score ≤ (state.applyScoreFailure code' env).score

theorem decayFraction_mono (henv : env.Windowed) {now : Time} {seq : Int} (hnow : env.now ≤ now)
    (hseq : env.seq ≤ seq) :
    state.decayFraction env ≤ state.decayFraction { env with now := now, seq := seq } := by
  have henv' : ({ env with now := now, seq := seq } : ScoreEnv).Windowed :=
    ⟨henv.duration, henv.attempts⟩
  rw [decayFraction_eq henv, decayFraction_eq henv']
  refine slower_mono (Int.cast_nonneg henv.duration.le) (Int.cast_nonneg henv.attempts.le) ?_ ?_
  · exact Int.cast_le.mpr (Int.sub_le_sub_right hnow _)
  · exact Int.cast_le.mpr (Int.sub_le_sub_right hseq _)

theorem Scored.laws (h : state.Scored) (henv : env.Windowed) : ScoreLaws state env := by
  have hduration : (0 : Rat) < env.duration := Int.cast_pos.mpr henv.duration
  have hattempts : (0 : Rat) < env.attempts := Int.cast_pos.mpr henv.attempts
  have hread := decayedScore_mem (some state) env
  refine ⟨h.score, hread, ?_, fun now seq hnow hseq => ?_, fun hstill => ?_, fun hnow hseq => ?_, ?_,
    fun code => ?_, fun code code' hcode hcode' => ?_⟩
  · rw [decayedScore_eq h henv]
    exact drift_between (decayFraction_mem henv).1 (decayFraction_mem henv).2
  · have henv' : ({ env with now := now, seq := seq } : ScoreEnv).Windowed :=
      ⟨henv.duration, henv.attempts⟩
    rw [decayedScore_eq h henv, decayedScore_eq h henv']
    exact drift_towards (decayFraction_mono henv hnow hseq) (decayFraction_mem henv').2
  · rw [decayedScore_eq h henv, decayFraction_eq henv, slower_zero hduration.le hattempts.le,
      drift_zero]
    exact hstill.imp (fun heq => by simp [heq]) fun heq => by simp [heq]
  · rw [decayedScore_eq h henv, decayFraction_eq henv, slower_one hduration hattempts, drift_one]
    · exact Int.cast_le.mpr hnow
    · exact Int.cast_le.mpr hseq
  · rw [applyScoreSuccess_score]
    have hgain := drift_between (a := decayedScore (some state) env) (b := 1)
      (f := scoreSuccessStep) (by decide +kernel) (by decide +kernel)
    rw [Set.uIcc_of_le hread.2] at hgain
    exact hgain.1
  · rw [applyScoreFailure_score]
    have hpenalty : 0 ≤ penaltyFor code :=
      le_trans (by decide +kernel) (penaltyFor_mem code).1
    exact mul_le_of_le_one_right hread.1 (by linarith)
  · rw [applyScoreFailure_score, applyScoreFailure_score, hcode, hcode']
    exact mul_le_mul_of_nonneg_left (by decide +kernel) hread.1

end ModelBreakerState

open ModelBreakerState

structure ScoreEvent where
  attempt : ModelAttempt
  now : Time
  failure : Option Int

def ScoreEvent.apply (cfg : Settings) (s : RouterService) (e : ScoreEvent) : RouterService :=
  match e.failure with
  | none => s.recordSuccess cfg e.attempt e.now
  | some code => s.penalizeScore cfg e.attempt e.now code

def RouterService.AllScored (s : RouterService) : Prop :=
  ∀ key state, s.modelBreakers.lookup key = some state → state.Scored

section Events

variable {cfg : Settings} {s : RouterService} {e : ScoreEvent} {key : String}
  {state : ModelBreakerState}

theorem ScoreEvent.apply_lookup (h : (e.apply cfg s).modelBreakers.lookup key = some state) :
    s.modelBreakers.lookup key = some state ∨
      ((0 ≤ state.score ∧ state.score ≤ 1) ∧ state.scoreUpdatedAt = e.now) := by
  unfold apply at h
  split at h
  · simp only [recordSuccess, updateModel, GoMap.lookup_insert_eq] at h
    split at h
    · cases h
      exact .inr ⟨clamp01_mem _, rfl⟩
    · exact .inl h
  · simp only [penalizeScore, updateModel, GoMap.lookup_insert_eq] at h
    split at h
    · cases h
      exact .inr ⟨clamp01_mem _, rfl⟩
    · exact .inl h

theorem ScoreEvent.apply_scored (hs : s.AllScored) (hnow : 0 < e.now) :
    (e.apply cfg s).AllScored := by
  intro key state h
  rcases apply_lookup h with hold | ⟨hscore, hupdated⟩
  · exact hs key state hold
  · refine ⟨hscore, ?_⟩
    rw [hupdated, Time.isZero, beq_eq_false_iff_ne]
    exact Int.ne_of_gt hnow

/-- From a new service on, scores stay in the unit interval, and every stored one obeys the laws. -/
theorem scores_lawful (cfg : Settings) (s : RouterService) (hnew : s.modelBreakers = ∅)
    (events : List ScoreEvent) (hclock : ∀ e ∈ events, 0 < e.now) (key : String)
    (window : ScoreWindow) (now : Time) (seq : Int) :
    let state := (events.foldl (ScoreEvent.apply cfg) s).modelBreakers.lookup key
    (0 ≤ decayedScore state (newScoreEnv window now seq) ∧
      decayedScore state (newScoreEnv window now seq) ≤ 1) ∧
      ∀ stored, state = some stored → ScoreLaws stored (newScoreEnv window now seq) := by
  have hscored : ∀ (events : List ScoreEvent) (s : RouterService), s.AllScored →
      (∀ e ∈ events, 0 < e.now) → (events.foldl (ScoreEvent.apply cfg) s).AllScored := by
    intro events
    induction events with
    | nil => exact fun s hs _ => hs
    | cons e events ih =>
      intro s hs hclock
      exact ih _ (ScoreEvent.apply_scored hs (hclock e List.mem_cons_self))
        fun e' he' => hclock e' (List.mem_cons_of_mem _ he')
  refine ⟨decayedScore_mem _ _, fun stored hstored => ?_⟩
  have hstart : s.AllScored := fun key state h => by
    rw [hnew] at h
    cases h
  exact (hscored events s hstart hclock key stored hstored).laws (newScoreEnv_windowed ..)

/-- A success and a rate limit, read six hours later. -/
theorem two_events_lawful :
    let state := (List.foldl (ScoreEvent.apply demoSettings) demoWorld.service
      [⟨demoAttempt, 1, none⟩, ⟨demoAttempt, 1, some 429⟩]).modelBreakers.lookup "default:m"
    state.map ModelBreakerState.score = some (3 / 5) ∧
      ∀ stored, state = some stored → ScoreLaws stored (newScoreEnv ⟨0, 0⟩ 21600000000001 60) :=
  ⟨by decide +kernel, (scores_lawful demoSettings demoWorld.service rfl
    [⟨demoAttempt, 1, none⟩, ⟨demoAttempt, 1, some 429⟩] (by decide) "default:m" ⟨0, 0⟩
    21600000000001 60).2⟩

end Events

/-! ## What one event does to the score that ranks -/

def RouterService.rankingScore (cfg : Settings) (attempt : ModelAttempt) (now : Time)
    (s : RouterService) : Rat :=
  decayedScore (s.modelBreakers.lookup (cfg.breakerKey attempt))
    (newScoreEnv cfg.scores now s.scoreAttempts)

section Fractions

variable {x y s b p f f' : Rat}

theorem clamp01_mono (h : x ≤ y) : clamp01 x ≤ clamp01 y := by
  rw [clamp01_eq, clamp01_eq]
  exact max_le_max le_rfl (min_le_min le_rfl h)

/-- When a score that drifts further, from `f` to `f'`, and is then cut by `p` has not risen. -/
theorem penalized_le_iff (hb : b ≤ 1) (hf : f ≤ f') (hf' : f' ≤ 1) (hp : 0 ≤ p) (hp' : p < 1) :
    clamp01 (drift s b f') * (1 - p) ≤ clamp01 (drift s b f) ↔
      b ≤ s ∨ drift s b f' ≤ 0 ∨ (b - s) * ((1 - p) * f' - f) ≤ p * s := by
  rcases le_or_gt b s with hs | hs
  · have hdown : drift s b f' ≤ drift s b f := by
      unfold drift
      linarith [mul_le_mul_of_nonneg_left hf (sub_nonneg.mpr hs)]
    refine iff_of_true ?_ (.inl hs)
    exact (mul_le_of_le_one_right (clamp01_mem _).1 (by linarith)).trans (clamp01_mono hdown)
  -- below its baseline a score rises, and stays below one
  have hup : drift s b f ≤ drift s b f' := by
    unfold drift
    linarith [mul_le_mul_of_nonneg_left hf (sub_nonneg.mpr hs.le)]
  have hone : drift s b f' ≤ 1 := by
    unfold drift
    linarith [mul_le_mul_of_nonneg_left hf' (sub_nonneg.mpr hs.le)]
  rw [clamp01_eq, clamp01_eq, min_eq_right hone, min_eq_right (hup.trans hone)]
  rcases le_or_gt (drift s b f') 0 with hzero | hpos
  · rw [max_eq_left hzero, max_eq_left (hup.trans hzero), zero_mul]
    exact iff_of_true le_rfl (.inr (.inl hzero))
  · have hcut : 0 < drift s b f' * (1 - p) := mul_pos hpos (sub_pos.mpr hp')
    rw [max_eq_right hpos.le, le_max_iff, or_iff_right hcut.not_ge, or_iff_right hs.not_ge,
      or_iff_right hpos.not_ge]
    unfold drift
    constructor <;> intro h <;> linarith

/-- When a score that drifts further, to another baseline that is not lower, and then gains a part
`p` of what it lacks has not fallen. -/
theorem le_gained_iff {n : Rat} (hb : 0 ≤ b) (hbn : b ≤ n) (hf0 : 0 ≤ f) (hf : f ≤ f')
    (hf' : f' ≤ 1) (hp : 0 ≤ p) (hp' : p < 1) :
    clamp01 (drift s b f) ≤ drift (clamp01 (drift s n f')) 1 p ↔
      s ≤ n ∨ 1 ≤ drift s n f' ∨ (1 - p) * (s - n) * f' - (s - b) * f ≤ p * (1 - s) := by
  have hgain : ∀ {x : Rat}, x ≤ 1 → x ≤ drift x 1 p := fun hx => by
    unfold drift
    linarith [mul_nonneg (sub_nonneg.mpr hx) hp]
  rcases le_or_gt s n with hs | hs
  · have hup : drift s b f ≤ drift s n f' := by
      unfold drift
      linarith [mul_le_mul_of_nonneg_left hf (sub_nonneg.mpr hs),
        mul_le_mul_of_nonneg_right hbn hf0]
    exact iff_of_true ((clamp01_mono hup).trans (hgain (clamp01_mem _).2)) (.inl hs)
  -- above both baselines a score falls, and stays above zero
  have hlow : 0 ≤ drift s b f := by
    unfold drift
    linarith [mul_le_mul_of_nonneg_left (hf.trans hf') (sub_nonneg.mpr (hbn.trans hs.le))]
  have hlow' : 0 ≤ drift s n f' := by
    unfold drift
    linarith [mul_le_mul_of_nonneg_left hf' (sub_nonneg.mpr hs.le)]
  rw [clamp01_eq, clamp01_eq, max_eq_right (le_min zero_le_one hlow),
    max_eq_right (le_min zero_le_one hlow')]
  rcases le_or_gt 1 (drift s n f') with hone | hone
  · rw [min_eq_left hone]
    exact iff_of_true ((min_le_left ..).trans (hgain le_rfl)) (.inr (.inl hone))
  · have hlacks : drift (drift s n f') 1 p < 1 := by
      unfold drift at hone ⊢
      linarith [mul_lt_mul_of_pos_left hp' (sub_pos.mpr hone)]
    rw [min_eq_right hone.le, min_le_iff, or_iff_right hlacks.not_ge, or_iff_right hs.not_ge,
      or_iff_right hone.not_ge]
    unfold drift
    constructor <;> intro h <;> linarith

end Fractions

section Standing

variable (cfg : Settings) (s : RouterService) (attempt : ModelAttempt) (now : Time)

/-- For a written score, `P` holds of it and its drift, now and with one more attempt counted. -/
def AtNextAttempt (P : ModelBreakerState → Rat → Rat → Prop) : Prop :=
  ∀ state, s.modelBreakers.lookup (cfg.breakerKey attempt) = some state →
    Time.isZero state.scoreUpdatedAt = false →
    P state (state.decayFraction (newScoreEnv cfg.scores now s.scoreAttempts))
      (state.decayFraction (newScoreEnv cfg.scores now (s.scoreAttempts + 1)))

/-- The penalty `p` takes at least what counting the attempt forgives: the score is not below its
baseline, or does not rise by more. The middle case is that of a score below zero. -/
def PenaltyOutweighs (p : Rat) : Prop :=
  AtNextAttempt cfg s attempt now fun state f f' =>
    state.scoreBaseline ≤ state.score ∨ drift state.score state.scoreBaseline f' ≤ 0 ∨
      (state.scoreBaseline - state.score) * ((1 - p) * f' - f) ≤ p * state.score

/-- The success gives at least what counting the attempt takes: the score is not above the baseline
of a proven model, or does not fall by more. The middle case is that of a score above one. -/
def GainOutweighs : Prop :=
  AtNextAttempt cfg s attempt now fun state f f' =>
    state.score ≤ scoreNeutral ∨ 1 ≤ drift state.score scoreNeutral f' ∨
      (1 - scoreSuccessStep) * (state.score - scoreNeutral) * f' -
        (state.score - state.scoreBaseline) * f ≤ scoreSuccessStep * (1 - state.score)

variable {cfg s attempt now}

theorem decayedScore_fresh (state : ModelBreakerState) {env : ScoreEnv}
    (hscore : 0 ≤ state.score ∧ state.score ≤ 1) (hnow : Time.isZero env.now = false)
    (hupdated : state.scoreUpdatedAt = env.now) (henv : env.Windowed) :
    decayedScore (some state) env = state.score :=
  (Scored.laws ⟨hscore, hupdated ▸ hnow⟩ henv).still (.inl hupdated.symm)

theorem rankingScore_penalized (hnow : Time.isZero now = false) (code : Int) :
    (s.penalizeScore cfg attempt now code).rankingScore cfg attempt now =
      decayedScore (some (s.breakerOf cfg attempt))
        (newScoreEnv cfg.scores now (s.scoreAttempts + 1)) * (1 - penaltyFor code) := by
  have hscore : (s.penalizeScore cfg attempt now code).rankingScore cfg attempt now =
      decayedScore (some ((s.breakerOf cfg attempt).penalize code
        (newScoreEnv cfg.scores now (s.scoreAttempts + 1))))
        (newScoreEnv cfg.scores now (s.scoreAttempts + 1)) := by
    simp only [rankingScore, penalizeScore, updateModel, countScoredAttempt, AList.lookup_insert]
    rfl
  have hmem : 0 ≤ ((s.breakerOf cfg attempt).penalize code
      (newScoreEnv cfg.scores now (s.scoreAttempts + 1))).score ∧ _ := clamp01_mem _
  rw [hscore, decayedScore_fresh _ hmem hnow rfl (newScoreEnv_windowed ..), penalize,
    applyScoreFailure_score]
  rfl

theorem rankingScore_succeeded (hnow : Time.isZero now = false) :
    (s.recordSuccess cfg attempt now).rankingScore cfg attempt now =
      drift (decayedScore (some (s.breakerOf cfg attempt).succeed)
        (newScoreEnv cfg.scores now (s.scoreAttempts + 1))) 1 scoreSuccessStep := by
  have hscore : (s.recordSuccess cfg attempt now).rankingScore cfg attempt now =
      decayedScore (some ((s.breakerOf cfg attempt).succeed.applyScoreSuccess
        (newScoreEnv cfg.scores now (s.scoreAttempts + 1))))
        (newScoreEnv cfg.scores now (s.scoreAttempts + 1)) := by
    simp only [rankingScore, recordSuccess, updateModel, countScoredAttempt, AList.lookup_insert]
    rfl
  have hmem : 0 ≤ ((s.breakerOf cfg attempt).succeed.applyScoreSuccess
      (newScoreEnv cfg.scores now (s.scoreAttempts + 1))).score ∧ _ := clamp01_mem _
  rw [hscore, decayedScore_fresh _ hmem hnow rfl (newScoreEnv_windowed ..), applyScoreSuccess_score]

theorem rankingScore_eq : s.rankingScore cfg attempt now =
    decayedScore (some (s.breakerOf cfg attempt)) (newScoreEnv cfg.scores now s.scoreAttempts) := by
  unfold rankingScore breakerOf
  cases s.modelBreakers.lookup (cfg.breakerKey attempt) <;> rfl

theorem atNextAttempt_iff {P : ModelBreakerState → Rat → Rat → Prop} :
    AtNextAttempt cfg s attempt now P ↔
      (Time.isZero (s.breakerOf cfg attempt).scoreUpdatedAt = false → P (s.breakerOf cfg attempt)
          ((s.breakerOf cfg attempt).decayFraction (newScoreEnv cfg.scores now s.scoreAttempts))
          ((s.breakerOf cfg attempt).decayFraction
            (newScoreEnv cfg.scores now (s.scoreAttempts + 1)))) := by
  unfold AtNextAttempt breakerOf
  cases s.modelBreakers.lookup (cfg.breakerKey attempt) with
  | none => exact ⟨fun _ hwritten => absurd hwritten (by decide), fun _ _ h => by cases h⟩
  | some state => exact ⟨fun h => h state rfl, fun h _ heq => by cases heq; exact h⟩

theorem decayFraction_counted (state : ModelBreakerState) (window : ScoreWindow) (now : Time)
    (seq : Int) : state.decayFraction (newScoreEnv window now seq) ≤
      state.decayFraction (newScoreEnv window now (seq + 1)) :=
  decayFraction_mono (newScoreEnv_windowed window now seq) (Int.le_refl now) (by simp [newScoreEnv])

/-- A failure does not raise the score that ranks, and a success does not lower it, exactly if they
outweigh what the attempt does to the evidence clock. -/
theorem standing_kept_iff (cfg : Settings) (s : RouterService) (attempt : ModelAttempt) (now : Time)
    (hnow : Time.isZero now = false) :
    (∀ code, (s.penalizeScore cfg attempt now code).rankingScore cfg attempt now ≤
      s.rankingScore cfg attempt now ↔ PenaltyOutweighs cfg s attempt now (penaltyFor code)) ∧
      (s.rankingScore cfg attempt now ≤ (s.recordSuccess cfg attempt now).rankingScore cfg attempt
        now ↔ GainOutweighs cfg s attempt now) := by
  simp only [PenaltyOutweighs, GainOutweighs, atNextAttempt_iff, rankingScore_penalized hnow,
    rankingScore_succeeded hnow]
  rw [rankingScore_eq]
  generalize s.breakerOf cfg attempt = state
  have hsucceed : state.succeed.scoreUpdatedAt = state.scoreUpdatedAt := rfl
  cases hzero : Time.isZero state.scoreUpdatedAt with
  | true =>
    -- an unwritten score counts as one, which no failure raises and a success keeps
    simp only [decayedScore, hsucceed, hzero, if_true, Bool.true_eq_false, false_implies, iff_true]
    refine ⟨fun code => mul_le_of_le_one_right (by decide +kernel) ?_, by decide +kernel⟩
    exact sub_le_self 1 (le_trans (by decide +kernel) (penaltyFor_mem code).1)
  | false =>
    have hbaseline : state.succeed.scoreBaseline = scoreNeutral := by simp [scoreBaseline, succeed]
    have hneutral : state.scoreBaseline ≤ scoreNeutral := by
      unfold scoreBaseline
      split <;> decide +kernel
    have hcounted := decayFraction_counted state cfg.scores now s.scoreAttempts
    have hlow := (@decayFraction_mem state _ (newScoreEnv_windowed cfg.scores now s.scoreAttempts)).1
    have hhigh := (@decayFraction_mem state _
      (newScoreEnv_windowed cfg.scores now (s.scoreAttempts + 1))).2
    constructor
    · intro code
      obtain ⟨hsoft, hhard⟩ := penaltyFor_mem code
      simp only [decayedScore, hzero, Bool.false_eq_true, if_false, true_implies]
      exact penalized_le_iff state.scoreBaseline_mem.2 hcounted hhigh
        (le_trans (by decide +kernel) hsoft) (lt_of_le_of_lt hhard (by decide +kernel))
    · simp only [decayedScore, hsucceed, hzero, hbaseline, Bool.false_eq_true, if_false,
        true_implies]
      exact le_gained_iff state.scoreBaseline_mem.1 hneutral hlow hcounted hhigh
        (by decide +kernel) (by decide +kernel)

/-- `m` has failed twice or succeeded once, then another model has failed four times, and six hours
have passed. -/
def fourOthers (failure : List (Option Int)) : RouterService :=
  (failure.map (ScoreEvent.mk demoAttempt 1) ++
    List.replicate 4 (ScoreEvent.mk { demoAttempt with model := "n" } 1 (some 429))).foldl
      (ScoreEvent.apply demoSettings) demoWorld.service

theorem standing_kept_later : let failed := fourOthers [some 429, some 429]
    let succeeded := fourOthers [none]
    (failed.penalizeScore demoSettings demoAttempt 21600000000001 429).rankingScore demoSettings
        demoAttempt 21600000000001 ≤
      failed.rankingScore demoSettings demoAttempt 21600000000001 ∧
    succeeded.rankingScore demoSettings demoAttempt 21600000000001 ≤
      (succeeded.recordSuccess demoSettings demoAttempt 21600000000001).rankingScore demoSettings
        demoAttempt 21600000000001 := by
  intro failed succeeded
  exact ⟨((standing_kept_iff demoSettings failed demoAttempt 21600000000001 rfl).1 429).mpr
      (atNextAttempt_iff.mpr fun _ => .inr (.inr (by decide +kernel))),
    (standing_kept_iff demoSettings succeeded demoAttempt 21600000000001 rfl).2.mpr
      (atNextAttempt_iff.mpr fun _ => .inr (.inr (by decide +kernel)))⟩

def tenRateLimits : RouterService :=
  (List.replicate 10 (ScoreEvent.mk demoAttempt 1 (some 429))).foldl
    (ScoreEvent.apply demoSettings) demoWorld.service

theorem standing_improved_by_failure :
    tenRateLimits.rankingScore demoSettings demoAttempt 21600000000001 <
        (tenRateLimits.penalizeScore demoSettings demoAttempt 21600000000001 429).rankingScore
          demoSettings demoAttempt 21600000000001 ∧
      ((demoWorld.service.recordSuccess demoSettings demoAttempt 1).recordSuccess demoSettings
          demoAttempt 21600000000001).rankingScore demoSettings demoAttempt 21600000000001 <
        (demoWorld.service.recordSuccess demoSettings demoAttempt 1).rankingScore demoSettings
          demoAttempt 21600000000001 := by
  decide +kernel

end Standing

end CalvoProxy
