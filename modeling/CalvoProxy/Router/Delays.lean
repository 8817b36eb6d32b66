import CalvoProxy.Router.ProviderQuota
import Mathlib.Data.Int.GCD
import Mathlib.Data.List.DropRight

/-!
# Delays

The two readings of a `Retry-After` header, and `RetryBackoff` of `router_policy_types.go`, with the
condition under which their products do not wrap round.
-/

namespace CalvoProxy

open GoString List Int64

/-! ## Retry-After -/

variable {cfg : Settings} {raw : String} {now : Time} {v : Int64}

theorem trimSpace_trimSpace (s : String) : trimSpace (trimSpace s) = trimSpace s := by
  have htrim : ∀ s, trimSpace s = String.ofList ((s.toList.dropWhile isSpace).rdropWhile isSpace) :=
    fun _ => rfl
  have hstart : ((s.toList.dropWhile isSpace).rdropWhile isSpace).dropWhile isSpace =
      (s.toList.dropWhile isSpace).rdropWhile isSpace := by
    refine dropWhile_eq_self_iff.mpr fun hl => ?_
    rw [IsPrefix.getElem ( rdropWhile_prefix isSpace (s.toList.dropWhile isSpace)) hl]
    exact dropWhile_get_zero_not isSpace s.toList _
  rw [htrim s, htrim, String.toList_ofList, hstart, rdropWhile_idempotent]

/-- `Sub` stops at the ends of the range. -/
def saturated (d : Int) : Int := max (-2 ^ 63) (min d (2 ^ 63 - 1))

def IsSeconds (raw : String) (s : Nat) : Prop :=
  trimSpace raw ≠ "" ∧ parseDigits 0 (trimSpace raw).toList = some s

/-- The two readings agree, and on a number of seconds they are right. -/
structure RetryAfterAgrees (cfg : Settings) (raw : String) (now : Time) : Prop where
  same : saturated (parseRetryAfterAt cfg raw now) = saturated (parseRetryAfter cfg raw now)
  nonneg : 0 ≤ saturated (parseRetryAfter cfg raw now)
  seconds : ∀ s, IsSeconds raw s → saturated (parseRetryAfter cfg raw now) =
    if (s : Int) * 1000000000 < 2 ^ 63 then (s : Int) * 1000000000 else 0

theorem saturated_of_range {d : Int} (hlow : -2 ^ 63 ≤ d) (hhigh : d < 2 ^ 63) :
    saturated d = d := by
  unfold saturated
  omega

theorem saturated_nonneg {d : Int} (h : 0 ≤ d) : 0 ≤ saturated d := by
  unfold saturated
  omega

/-- A date starts with the name of a day, and not like a number. -/
def DatesAreWords (cfg : Settings) : Prop :=
  ∀ raw t, cfg.parseTime raw = some t →
    ∃ c cs, raw.toList = c :: cs ∧ c.isDigit = false ∧ c ≠ '+' ∧ c ≠ '-'

theorem parseInt64_cons {c : Char} {cs : List Char} (hraw : raw.toList = c :: cs) (hplus : c ≠ '+')
    (hminus : c ≠ '-') : parseInt64 raw = (parseDigits 0 (c :: cs)).bind fun n =>
      if -2 ^ 63 ≤ (n : Int) ∧ (n : Int) < 2 ^ 63 then some (Int64.ofInt n) else none := by
  rw [@parseInt64_of_digits raw false (c :: cs) (by simp [hraw, hminus, hplus])]
  exact if_neg Bool.false_ne_true

theorem parse_seconds {s : Nat} (hdates : DatesAreWords cfg) (h : IsSeconds raw s) :
    parseInt64 (trimSpace raw) = (if (s : Int) < 2 ^ 63 then some (Int64.ofInt s) else none) ∧
      cfg.parseTime (trimSpace raw) = none := by
  obtain ⟨hne, hs⟩ := h
  cases hraw : (trimSpace raw).toList with
  | nil => exact absurd (String.toList_eq_nil_iff.mp hraw) hne
  | cons c cs =>
    rw [hraw] at hs
    have hdigit : c.isDigit = true := by
      by_contra hnot
      rw [parseDigits, if_neg hnot] at hs
      cases hs
    constructor
    · rw [parseInt64_cons hraw (by rintro rfl; cases hdigit) (by rintro rfl; cases hdigit), hs,
        Option.bind_some]
      have hlow : -2 ^ 63 ≤ (s : Int) := by omega
      by_cases hlt : (s : Int) < 2 ^ 63
      · rw [if_pos hlt]
        exact if_pos ⟨hlow, hlt⟩
      · rw [if_neg hlt]
        exact if_neg fun h => hlt h.2
    · refine Option.eq_none_iff_forall_ne_some.mpr fun t htime => ?_
      obtain ⟨c', cs', hraw', hnot, _⟩ := hdates _ t htime
      cases hraw.symm.trans hraw'
      rw [hdigit] at hnot
      cases hnot

theorem parseTime_of_number (hdates : DatesAreWords cfg) (h : parseInt64 raw = some v) :
    cfg.parseTime raw = none := by
  refine Option.eq_none_iff_forall_ne_some.mpr fun t htime => ?_
  obtain ⟨c, cs, hraw, hdigit, hplus, hminus⟩ := hdates raw t htime
  rw [parseInt64_cons hraw hplus hminus, parseDigits, hdigit] at h
  cases h

theorem retry_of_number (h : parseInt64 (trimSpace raw) = some v) : parseRetryAfter cfg raw now =
    if v < 0 then 0 else (v.toInt * 1000000000).bmod (2 ^ 64) := by
  have hne : trimSpace raw ≠ "" := by
    intro hempty
    rw [hempty] at h
    cases h
  simp only [parseRetryAfter, if_neg hne, h, toInt_mul]
  rfl

theorem retryAt_of_number (hdates : DatesAreWords cfg) (h : parseInt64 (trimSpace raw) = some v) :
    parseRetryAfterAt cfg raw now =
      if v < 0 then 0 else if v ≤ maxDurationSeconds then v.toInt * 1000000000 else 0 := by
  simp only [parseRetryAfterAt, parseNonNegativeInt64, trimSpace_trimSpace, h,
    parseTime_of_number hdates h]
  by_cases hneg : v < 0
  · rw [if_neg (Int64.not_le.mpr hneg), if_pos hneg]
  · rw [if_pos (Int64.not_lt.mp hneg), if_neg hneg]
    rfl

theorem retry_of_text (hdates : DatesAreWords cfg) (h : parseInt64 (trimSpace raw) = none) :
    parseRetryAfterAt cfg raw now = parseRetryAfter cfg raw now ∧
      0 ≤ parseRetryAfter cfg raw now := by
  have hnone : trimSpace raw = "" → cfg.parseTime (trimSpace raw) = none := by
    refine fun hempty => Option.eq_none_iff_forall_ne_some.mpr fun t htime => ?_
    obtain ⟨c, cs, hraw, _⟩ := hdates _ t htime
    rw [hempty] at hraw
    cases hraw
  simp only [parseRetryAfterAt, parseRetryAfter, parseNonNegativeInt64, trimSpace_trimSpace, h]
  by_cases hempty : trimSpace raw = ""
  · rw [hnone hempty, if_pos hempty]
    exact ⟨rfl, Int.le_refl 0⟩
  · rw [if_neg hempty]
    cases cfg.parseTime (trimSpace raw) with
    | none => exact ⟨rfl, Int.le_refl 0⟩
    | some t =>
      simp only [Time.after, decide_eq_true_eq, Int.sub_pos, true_and]
      split
      · next hlater => exact Int.le_of_lt (Int.sub_pos.mpr hlater)
      · exact Int.le_refl 0

theorem wraps_to_zero_iff (n : Int) : (n * 1000000000).bmod (2 ^ 64) = 0 ↔ 2 ^ 55 ∣ n := by
  rw [← Int.dvd_iff_bmod_eq_zero, show ((2 ^ 64 : Nat) : Int) = 2 ^ 55 * 512 from rfl,
    show n * 1000000000 = n * 1953125 * 512 by omega, Int.mul_dvd_mul_iff_right (by decide)]
  exact ⟨fun h => Int.dvd_of_dvd_mul_left_of_gcd_one h (by decide +kernel), fun h =>
    Int.dvd_mul_of_dvd_left h⟩

theorem agrees_of_text (hdates : DatesAreWords cfg) (h : parseInt64 (trimSpace raw) = none) :
    RetryAfterAgrees cfg raw now := by
  obtain ⟨hsame, hnonneg⟩ := @retry_of_text cfg raw now hdates h
  refine ⟨by rw [hsame], saturated_nonneg hnonneg, fun s hs => ?_⟩
  obtain ⟨hparse, htime⟩ := parse_seconds hdates hs
  rw [h] at hparse
  have hbig : ¬(s : Int) < 2 ^ 63 := by
    intro hlt
    rw [if_pos hlt] at hparse
    cases hparse
  have hretry : parseRetryAfter cfg raw now = 0 := by
    simp only [parseRetryAfter, if_neg hs.1, h, htime]
  rw [hretry, if_neg (by omega)]
  exact saturated_of_range (by omega) (by omega)

theorem seconds_of_number {s : Nat} (hdates : DatesAreWords cfg)
    (h : parseInt64 (trimSpace raw) = some v) (hs : IsSeconds raw s) : v.toInt = s := by
  have hparse := (parse_seconds hdates hs).1
  rw [h] at hparse
  split at hparse
  · next hlt =>
    cases hparse
    exact toInt_ofInt_of_le (by omega) hlt
  · cases hparse

/-- The two readings agree and are right, unless the header is a number of seconds that no duration
holds and whose product does not wrap to nothing. -/
theorem retryAfter_agrees_iff (hdates : DatesAreWords cfg) : RetryAfterAgrees cfg raw now ↔
    ∀ v, parseInt64 (trimSpace raw) = some v → v ≤ maxDurationSeconds ∨ 2 ^ 55 ∣ v.toInt := by
  cases h : parseInt64 (trimSpace raw) with
  | none => exact iff_of_true (agrees_of_text hdates h) fun _ hv => by cases hv
  | some v =>
    have hretry := @retry_of_number cfg raw now v h
    have hat := @retryAt_of_number cfg raw now v hdates h
    have hmax : v ≤ maxDurationSeconds ↔ v.toInt ≤ 9223372036 := le_iff_toInt_le
    have hzero : v < 0 ↔ v.toInt < 0 := lt_iff_toInt_lt
    have hseconds : ∀ s : Nat, IsSeconds raw s → v.toInt = s := fun s => seconds_of_number hdates h
    by_cases hneg : v < 0
    · have hlt := hzero.mp hneg
      rw [if_pos hneg] at hretry hat
      refine iff_of_true ⟨by rw [hretry, hat], ?_, fun s hs => ?_⟩ fun _ hv => ?_
      · rw [hretry]
        exact saturated_nonneg (Int.le_refl 0)
      · have := hseconds s hs
        omega
      · cases hv
        exact .inl (hmax.mpr (by omega))
    have hnonneg := Int.not_lt.mp (mt hzero.mpr hneg)
    rw [if_neg hneg] at hretry hat
    by_cases hm : v ≤ maxDurationSeconds
    · have hle := hmax.mp hm
      rw [if_pos hm] at hat
      rw [Int.bmod_eq_of_le (by omega) (by omega)] at hretry
      refine iff_of_true ⟨by rw [hretry, hat], ?_, fun s hs => ?_⟩ fun _ hv => ?_
      · rw [hretry]
        exact saturated_nonneg (by omega)
      · rw [hretry, saturated_of_range (by omega) (by omega), hseconds s hs, if_pos]
        have := hseconds s hs
        omega
      · cases hv
        exact .inl hm
    have hgt := Int.not_le.mp (mt hmax.mpr hm)
    rw [if_neg hm] at hat
    have hlow := @Int.le_bmod (v.toInt * 1000000000) (2 ^ 64) (by decide)
    have hhigh := @Int.bmod_lt (v.toInt * 1000000000) (2 ^ 64) (by decide)
    have hsat := saturated_of_range (d := (v.toInt * 1000000000).bmod (2 ^ 64)) (by omega) (by omega)
    constructor
    · rintro hagrees _ ⟨⟩
      have hsame := hagrees.same
      rw [hretry, hat, hsat] at hsame
      exact .inr ((wraps_to_zero_iff _).mp hsame.symm)
    · intro hv
      have hwrap := (wraps_to_zero_iff _).mpr ((hv v rfl).resolve_left hm)
      rw [hwrap] at hretry
      refine ⟨by rw [hretry, hat], ?_, fun s hs => ?_⟩
      · rw [hretry]
        exact saturated_nonneg (Int.le_refl 0)
      · have := hseconds s hs
        rw [hretry, if_neg (by omega)]
        rfl

theorem two_minutes_agree : DatesAreWords demoSettings ∧ RetryAfterAgrees demoSettings "120" 0 := by
  have hdates : DatesAreWords demoSettings := fun _ _ h => by cases h
  refine ⟨hdates, (retryAfter_agrees_iff hdates).mpr fun v hv => ?_⟩
  have hparse : parseInt64 (trimSpace "120") = some 120 := by decide
  cases hparse.symm.trans hv
  exact .inl (by decide)

/-- A wait of more nanoseconds than an `int64` holds becomes negative. -/
theorem long_wait_negative : ¬RetryAfterAgrees demoSettings "9223372037" 0 := fun h =>
  absurd h.nonneg (by decide +kernel)

structure Backoff where
  backoffMin : Int64
  backoffMax : Int64

inductive Conversion
  | modular
  | minimum

def Conversion.power (c : Conversion) (k : Nat) : Int64 :=
  match c with
  | .modular => Int64.ofInt (2 ^ k)
  | .minimum => if k < 63 then Int64.ofInt (2 ^ k) else Int64.minValue

namespace Backoff

variable (policy : Backoff)

def min : Int64 := if policy.backoffMin ≤ 0 then 100000000 else policy.backoffMin

def max : Int64 := if policy.backoffMax ≤ 0 then policy.min else policy.backoffMax

def retryBackoff (c : Conversion) (attemptIndex : Int) : Int64 :=
  if attemptIndex ≤ 0 then 0
  else
    let delay := policy.min * c.power (attemptIndex - 1).toNat
    if policy.max < delay then policy.max else delay

def ideal (k : Nat) : Int := Min.min policy.max.toInt (policy.min.toInt * 2 ^ k)

theorem min_pos : 0 < policy.min.toInt := by
  unfold min
  split
  · decide
  · next h => exact Int64.lt_iff_toInt_lt.mp (Int64.not_le.mp h)

theorem max_pos : 0 < policy.max.toInt := by
  unfold max
  split
  · exact policy.min_pos
  · next h => exact Int64.lt_iff_toInt_lt.mp (Int64.not_le.mp h)

theorem bmod_nonpos {n : Int} (h : 2 ^ 63 ∣ n) : n.bmod (2 ^ 64) ≤ 0 := by
  obtain ⟨q, rfl⟩ := h
  have hhigh := @Int.bmod_lt (2 ^ 63 * q) (2 ^ 64) (by decide)
  have hmod := @Int.bmod_emod (2 ^ 63 * q) (2 ^ 64)
  omega

theorem product_toInt (c : Conversion) {k : Nat} (hk : k < 63) :
    (policy.min * c.power k).toInt = (policy.min.toInt * 2 ^ k).bmod (2 ^ 64) := by
  have hpower : c.power k = Int64.ofInt (2 ^ k) := by
    cases c with
    | modular => rfl
    | minimum => exact if_pos hk
  rw [hpower, toInt_mul, toInt_ofInt]
  exact Int.mul_bmod_bmod

theorem product_nonpos (c : Conversion) {k : Nat} (hk : 63 ≤ k) :
    (policy.min * c.power k).toInt ≤ 0 ∧ (policy.min.toInt * 2 ^ k).bmod (2 ^ 64) ≤ 0 := by
  have hideal := bmod_nonpos ((pow_dvd_pow (2 : Int) hk).trans (Int.dvd_mul_left policy.min.toInt _))
  refine ⟨?_, hideal⟩
  cases c with
  | modular =>
    rw [Conversion.power, toInt_mul, toInt_ofInt]
    exact Int.mul_bmod_bmod.trans_le hideal
  | minimum =>
    rw [Conversion.power, if_neg (Nat.not_lt.mpr hk), toInt_mul]
    exact bmod_nonpos ⟨-policy.min.toInt, by rw [toInt_minValue]; omega⟩

theorem retryBackoff_toInt (c : Conversion) {i : Int} (hi : 1 ≤ i) : (policy.retryBackoff c i).toInt =
    Min.min policy.max.toInt (policy.min * c.power (i - 1).toNat).toInt := by
  rw [retryBackoff, if_neg (by omega)]
  dsimp only
  split
  · next h => exact (Int.min_eq_left (Int.le_of_lt (lt_iff_toInt_lt.mp h))).symm
  · next h => exact (Int.min_eq_right (Int64.le_iff_toInt_le.mp (Int64.not_lt.mp h))).symm

theorem mul_pow_mono {k l : Nat} (h : k ≤ l) :
    policy.min.toInt * 2 ^ k ≤ policy.min.toInt * 2 ^ l := by
  refine Int.mul_le_mul_of_nonneg_left ?_ (Int.le_of_lt policy.min_pos)
  exact_mod_cast Nat.pow_le_pow_right (by decide : 0 < 2) h

def Exact (c : Conversion) (i : Int) : Prop :=
  (policy.retryBackoff c i).toInt = policy.ideal (i - 1).toNat

/-- The backoff is the ideal one if the product stays in range, or wraps to more than the
maximum. -/
theorem retryBackoff_exact_iff (c : Conversion) (i : Int) (hi : 1 ≤ i) :
    (policy.Exact c i ↔ policy.min.toInt * 2 ^ (i - 1).toNat < 2 ^ 63 ∨
      policy.max.toInt ≤ (policy.min.toInt * 2 ^ (i - 1).toNat).bmod (2 ^ 64)) ∧
    (policy.Exact c i → 0 < (policy.retryBackoff c i).toInt ∧
      (policy.retryBackoff c i).toInt ≤ policy.max.toInt) ∧
    ∀ j, i ≤ j → policy.Exact c i → policy.Exact c j →
      (policy.retryBackoff c i).toInt ≤ (policy.retryBackoff c j).toInt := by
  have hmin := policy.min_pos
  have hmax := policy.max_pos
  have htop := policy.max.toInt_lt
  refine ⟨?_, fun h => ?_, fun j hj hexact hexact' => ?_⟩
  · unfold Exact ideal
    rw [policy.retryBackoff_toInt c hi]
    generalize (i - 1).toNat = k
    by_cases hk : k < 63
    · rw [policy.product_toInt c hk]
      by_cases hrange : policy.min.toInt * 2 ^ k < 2 ^ 63
      · have hpos : 0 < policy.min.toInt * 2 ^ k := Int.mul_pos hmin (Int.pow_pos (by decide))
        rw [Int.bmod_eq_of_le (by omega) (by omega)]
        exact iff_of_true rfl (.inl hrange)
      · omega
    · obtain ⟨hproduct, hwrapped⟩ := policy.product_nonpos c (Nat.not_lt.mp hk)
      have hbig := policy.mul_pow_mono (Nat.not_lt.mp hk)
      omega
  · rw [h, ideal]
    have hpos : 0 < policy.min.toInt * 2 ^ (i - 1).toNat := Int.mul_pos hmin (Int.pow_pos (by decide))
    omega
  · have hmono := policy.mul_pow_mono (k := (i - 1).toNat) (l := (j - 1).toNat) (by omega)
    rw [hexact, hexact', ideal, ideal]
    omega

theorem small_backoff_exact : (1 : Int) ≤ 3 ∧ Exact ⟨0, 30000000000⟩ .modular 3 :=
  ⟨by decide, (retryBackoff_exact_iff _ .modular 3 (by decide)).1.mpr (.inl (by decide))⟩

/-- 100 ms at least, 30 s at most: the 38th delay is negative. -/
theorem late_backoff_negative : ¬Exact ⟨100000000, 30000000000⟩ .modular 38 := by
  unfold Exact
  decide +kernel

end Backoff

end CalvoProxy
