import Mathlib.Data.Int.Basic
import Mathlib.Algebra.Ring.Int.Defs

/-!
# Signed 64-bit arithmetic without wrap-around

When a sum or difference of two non-negative `Int64` is that of the integers they stand for. A sum
that leaves the range is negative.
-/

namespace Int64

variable {a b : Int64}

theorem le_def (a b : Int64) : a ≤ b ↔ a.toInt ≤ b.toInt := Int64.le_iff_toInt_le

theorem lt_def (a b : Int64) : a < b ↔ a.toInt < b.toInt := Int64.lt_iff_toInt_lt

theorem eq_of_toInt (h : a.toInt = b.toInt) : a = b := Int64.toInt_inj.mp h

@[simp]
theorem toInt_zero' : (0 : Int64).toInt = 0 := rfl

variable (ha : 0 ≤ a.toInt)
include ha

theorem toInt_add_of_lt (hb : 0 ≤ b.toInt)
    (h : a.toInt + b.toInt < 2 ^ 63) : (a + b).toInt = a.toInt + b.toInt := by
  rw [Int64.toInt_add]
  exact Int.bmod_eq_of_le (by omega) (by omega)

theorem toInt_sub_of_nonneg (hb : 0 ≤ b.toInt) : (a - b).toInt = a.toInt - b.toInt := by
  have hal := a.toInt_lt
  have hbl := b.toInt_lt
  rw [Int64.toInt_sub]
  exact Int.bmod_eq_of_le (by omega) (by omega)

/-- A sum of non-negative numbers that leaves the range is negative: the overflow test `sum < 0`. -/
theorem toInt_add_neg (hb : 0 ≤ b.toInt) (h : 2 ^ 63 ≤ a.toInt + b.toInt) : (a + b).toInt < 0 := by
  have hal := a.toInt_lt
  have hbl := b.toInt_lt
  have hshift : (a.toInt + b.toInt).bmod (2 ^ 64) = (a.toInt + b.toInt - 2 ^ 64).bmod (2 ^ 64) :=
    (Int.sub_bmod_right _ _).symm
  rw [Int64.toInt_add, hshift, Int.bmod_eq_of_le (by omega) (by omega)]
  omega

theorem toInt_add_eq_iff : (a + b).toInt = a.toInt + b.toInt ↔ a.toInt + b.toInt < 2 ^ 63 := by
  constructor
  · intro h
    rw [← h]
    exact (a + b).toInt_lt
  · intro h
    have hb := b.le_toInt
    rw [Int64.toInt_add]
    exact Int.bmod_eq_of_le (by omega) (by omega)

theorem toInt_add_le_iff {limit : Int64} (hlimit : 0 < limit.toInt) :
    (a + b ≤ limit → a.toInt + b.toInt ≤ limit.toInt) ↔ a.toInt + b.toInt < 2 ^ 63 := by
  constructor
  · intro h
    by_contra hwraps
    have hlt := a.toInt_lt
    have hneg := toInt_add_neg ha (b := b) (by omega) (Int.not_lt.mp hwraps)
    have hle := h (Int64.le_iff_toInt_le.mpr (by omega))
    have hltlimit := limit.toInt_lt
    omega
  · intro h hle
    rw [← (toInt_add_eq_iff ha).mpr h]
    exact Int64.le_iff_toInt_le.mp hle

end Int64
