import Mathlib.Algebra.Order.Field.Basic
import Mathlib.Order.Interval.Set.UnorderedInterval
import Mathlib.Tactic.Linarith

/-!
# Drifting to a baseline

A value drifts from `a` to `b` as the fraction `f`, that of the slower of two clocks, grows from
zero to one.
-/

namespace Drift

variable {K : Type} [Field K] {a b f f' : K}

/-- The value after the fraction `f` of the way. -/
def drift (a b f : K) : K := a + (b - a) * f

theorem drift_zero (a b : K) : drift a b 0 = a := by simp [drift]

theorem drift_one (a b : K) : drift a b 1 = b := by simp [drift]

variable [LinearOrder K]

/-- The fraction by the slower of two clocks, each with its window. -/
def slower (elapsed window elapsed' window' : K) : K :=
  max 0 (min 1 (min (elapsed / window) (elapsed' / window')))

theorem slower_nonneg (x u y v : K) : 0 ≤ slower x u y v := le_max_left ..

variable [IsStrictOrderedRing K] {x y u v x' y' : K}

theorem drift_towards (hf : f ≤ f') (hf' : f' ≤ 1) : drift a b f' ∈ Set.uIcc (drift a b f) b := by
  have hstep : 0 ≤ f' - f := sub_nonneg.mpr hf
  have hrest : 0 ≤ 1 - f' := sub_nonneg.mpr hf'
  rw [Set.mem_uIcc]
  unfold drift
  rcases le_total a b with hab | hab
  · have hab := sub_nonneg.mpr hab
    exact .inl ⟨by linarith [mul_nonneg hab hstep], by linarith [mul_nonneg hab hrest]⟩
  · have hab := sub_nonneg.mpr hab
    exact .inr ⟨by linarith [mul_nonneg hab hrest], by linarith [mul_nonneg hab hstep]⟩

theorem drift_between (hf : 0 ≤ f) (hf' : f ≤ 1) : drift a b f ∈ Set.uIcc a b := by
  have h := drift_towards (a := a) (b := b) hf hf'
  rwa [drift_zero] at h

theorem slower_le_one (x u y v : K) : slower x u y v ≤ 1 :=
  max_le zero_le_one (min_le_left ..)

theorem slower_mono (hu : 0 ≤ u) (hv : 0 ≤ v) (hx : x ≤ x') (hy : y ≤ y') :
    slower x u y v ≤ slower x' u y' v :=
  max_le_max le_rfl (min_le_min le_rfl (min_le_min (div_le_div_of_nonneg_right hx hu)
    (div_le_div_of_nonneg_right hy hv)))

theorem slower_zero (hu : 0 ≤ u) (hv : 0 ≤ v) (h : x ≤ 0 ∨ y ≤ 0) : slower x u y v = 0 := by
  refine max_eq_left ((min_le_right ..).trans ?_)
  rcases h with h | h
  · exact (min_le_left ..).trans (div_nonpos_of_nonpos_of_nonneg h hu)
  · exact (min_le_right ..).trans (div_nonpos_of_nonpos_of_nonneg h hv)

theorem slower_one (hu : 0 < u) (hv : 0 < v) (hx : u ≤ x) (hy : v ≤ y) : slower x u y v = 1 := by
  have hboth := le_min ((one_le_div hu).mpr hx) ((one_le_div hv).mpr hy)
  rw [slower, min_eq_left hboth, max_eq_right zero_le_one]

end Drift
