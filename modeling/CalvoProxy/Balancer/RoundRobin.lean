import Mathlib.Algebra.Ring.Nat
import Mathlib.Data.List.Perm.Subperm
import CalvoProxy.Balancer.Pool

/-!
# The turns of the backends

`NextBackend` without other callers. Each look counts `rr` on, a `uint32`, and takes the remainder
by the number of backends. Where the counter wraps the remainders start over, so that one backend is
looked at twice and another one not at all (`round_robin_iff`).
-/

namespace CalvoProxy.RoundRobin

open List

variable {bs : List Backend} {left n p r i : Nat} {rr : UInt32}

def isHealthy (bs : List Backend) (p : Nat) : Bool := bs[p]?.any (·.healthy)

def scan (bs : List Backend) : Nat → UInt32 → UInt32 × Option Nat
  | 0, rr => (rr, none)
  | left + 1, rr =>
    let rr := rr + 1
    let idx := (rr % UInt32.ofNat bs.length).toNat
    if isHealthy bs idx then (rr, some idx) else scan bs left rr

/-- The counter and the position of the backend that is returned. `none` is the division by a length
that is zero as a `uint32`. -/
def nextBackend (bs : List Backend) (rr : UInt32) : Option (UInt32 × Option Nat) :=
  if bs.length ≠ 0 ∧ UInt32.ofNat bs.length = 0 then none else some (scan bs bs.length rr)

/-- The positions that consecutive calls return, if each returns one. -/
def calls (bs : List Backend) : Nat → UInt32 → Option (List Nat)
  | 0, _ => some []
  | n + 1, rr =>
    match nextBackend bs rr with
    | some (rr, some p) => (calls bs n rr).map (p :: ·)
    | _ => none

structure TakesTurns (n : Nat) (rr : UInt32) : Prop where
  finds : ∀ bs : List Backend, bs.length = n → (∃ b ∈ bs, b.healthy = true) →
    ∃ rr' p, nextBackend bs rr = some (rr', some p) ∧ isHealthy bs p = true
  once : ∀ bs : List Backend, bs.length = n → (∀ b ∈ bs, b.healthy = true) →
    ∃ ps, calls bs n rr = some ps ∧ ps.Perm (range n)

/-! ## What is looked at -/

def look (n r i : Nat) : Nat := (r + 1 + i) % 2 ^ 32 % (n % 2 ^ 32)

def Covers (n r : Nat) : Prop := ∀ p < n, ∃ i < n, look n r i = p

theorem toNat_look (rr : UInt32) (n : Nat) :
    ((rr + 1) % UInt32.ofNat n).toNat = look n rr.toNat 0 := by
  rw [UInt32.toNat_mod, UInt32.toNat_add, UInt32.toNat_ofNat']
  rfl

theorem look_succ (rr : UInt32) (n i : Nat) :
    look n (rr + 1).toNat i = look n rr.toNat (i + 1) := by
  rw [look, look, UInt32.toNat_add]
  show ((rr.toNat + 1) % 2 ^ 32 + 1 + i) % 2 ^ 32 % _ = _
  rw [Nat.add_assoc, Nat.mod_add_mod, Nat.add_comm 1 i]

theorem scan_some (h : (scan bs left rr).2 = some p) : isHealthy bs p = true := by
  induction left generalizing rr with
  | zero => cases h
  | succ left ih =>
    rw [scan] at h
    split at h
    · next hhealthy =>
      cases h
      exact hhealthy
    · exact ih h

theorem scan_none_iff : (scan bs left rr).2 = none ↔
      ∀ i < left, isHealthy bs (look bs.length rr.toNat i) = false := by
  induction left generalizing rr with
  | zero => simp [scan]
  | succ left ih =>
    rw [scan, Nat.forall_lt_succ_left]
    simp only [toNat_look]
    split
    · next hhealthy => simp [hhealthy]
    · next hsick =>
      rw [ih, Bool.not_eq_true] at *
      simp only [look_succ, hsick, true_and]

/-- The only healthy backend is at `p`. -/
def only (n p : Nat) : List Backend :=
  (range n).map fun j => { Backend.fresh "" with healthy := j = p }

theorem isHealthy_only (hp : p < n) : isHealthy (only n p) i = true ↔ i = p := by
  by_cases hi : i < n
  · simp [isHealthy, only, hi]
  · simp [isHealthy, only, hi]
    omega

theorem ofNat_eq_zero_iff : UInt32.ofNat n = 0 ↔ n % 2 ^ 32 = 0 := by
  rw [← UInt32.toNat_inj, UInt32.toNat_ofNat']
  rfl

theorem calls_healthy (hn : bs.length % 2 ^ 32 ≠ 0) (hall : ∀ b ∈ bs, b.healthy = true) (k : Nat)
    (rr : UInt32) : calls bs k rr = some ((range k).map (look bs.length rr.toNat)) := by
  have hpos : bs.length ≠ 0 := fun h => hn (by rw [h]; rfl)
  induction k generalizing rr with
  | zero => rfl
  | succ k ih =>
    have hlt : look bs.length rr.toNat 0 < bs.length :=
      Nat.lt_of_lt_of_le (Nat.mod_lt _ (Nat.pos_of_ne_zero hn)) (Nat.mod_le _ _)
    have hnext : nextBackend bs rr = some (rr + 1, some (look bs.length rr.toNat 0)) := by
      obtain ⟨left, hleft⟩ := Nat.exists_eq_succ_of_ne_zero hpos
      rw [nextBackend, if_neg fun h => hn (ofNat_eq_zero_iff.mp h.2), hleft, scan]
      simp only [toNat_look]
      rw [← hleft, if_pos]
      simp [isHealthy, hlt, hall]
    rw [calls, hnext]
    simp only [ih, Option.map_some, range_succ_eq_map, map_cons, map_map]
    congr 3
    funext i
    exact look_succ rr _ i

theorem takesTurns_iff (n : Nat) (rr : UInt32) :
    TakesTurns n rr ↔ (n ≠ 0 → n % 2 ^ 32 ≠ 0) ∧ Covers n rr.toNat := by
  constructor
  · rintro ⟨hfinds, -⟩
    have hfound : ∀ p < n, (n ≠ 0 → n % 2 ^ 32 ≠ 0) ∧ ∃ i < n, look n rr.toNat i = p := by
      intro p hp
      have hlength : (only n p).length = n := by simp [only]
      obtain ⟨rr', q, hnext, hq⟩ := hfinds (only n p) hlength
        ⟨{ Backend.fresh "" with healthy := true }, mem_map.mpr ⟨p, mem_range.mpr hp, by simp⟩, rfl⟩
      rw [nextBackend, hlength] at hnext
      split at hnext
      · cases hnext
      next hzero =>
      refine ⟨fun hn hmod => hzero ⟨hn, ofNat_eq_zero_iff.mpr hmod⟩, ?_⟩
      by_contra hnone
      have hscan : (scan (only n p) n rr).2 = none := by
        rw [scan_none_iff, hlength]
        intro i hi
        rw [Bool.eq_false_iff, Ne, isHealthy_only hp]
        exact fun heq => hnone ⟨i, hi, heq⟩
      rw [Option.some.inj hnext] at hscan
      cases hscan
    refine ⟨fun hn => (hfound 0 (Nat.pos_of_ne_zero hn)).1 hn, fun p hp => (hfound p hp).2⟩
  · rintro ⟨hmod, hcovers⟩
    refine ⟨fun bs hlength ⟨b, hb, hhealthy⟩ => ?_, fun bs hlength hall => ?_⟩
    · subst hlength
      obtain ⟨p, hp, rfl⟩ := getElem_of_mem hb
      rw [nextBackend, if_neg fun h => hmod h.1 (ofNat_eq_zero_iff.mp h.2)]
      cases hscan : (scan bs bs.length rr).2 with
      | none =>
        obtain ⟨i, hi, hlook⟩ := hcovers p hp
        have hsick := scan_none_iff.mp hscan i hi
        rw [hlook, isHealthy, List.getElem?_eq_getElem hp, Option.any_some, hhealthy] at hsick
        cases hsick
      | some q => exact ⟨_, q, congrArg some (Prod.ext rfl hscan), scan_some hscan⟩
    · subst hlength
      by_cases hn : bs.length = 0
      · exact ⟨[], by rw [hn]; rfl, by rw [hn]; exact .nil⟩
      refine ⟨_, calls_healthy (hmod hn) hall _ _, (Subperm.perm_of_length_le ?_ (by simp)).symm⟩
      refine subperm_of_subset (nodup_range) fun p hp => ?_
      obtain ⟨i, hi, hlook⟩ := hcovers p (mem_range.mp hp)
      exact mem_map.mpr ⟨i, mem_range.mpr hi, hlook⟩

/-! ## Where the counter wraps -/

theorem exists_turn (h : p < n) (r : Nat) : ∃ i < n, (r + 1 + i) % n = p := by
  refine ⟨(p + n * (r + 1) - (r + 1)) % n, Nat.mod_lt _ (by omega), ?_⟩
  have hle : r + 1 ≤ n * (r + 1) := Nat.le_mul_of_pos_left _ (by omega)
  rw [Nat.add_mod_mod, Nat.add_sub_cancel' (Nat.le_trans hle (Nat.le_add_left _ _)),
    Nat.add_mul_mod_self_left, Nat.mod_eq_of_lt h]

/-- With `k` looks before the counter wraps. -/
theorem missed {k : Nat} (hn : n < 2 ^ 32) (hk : 0 < k) (hkn : k < n) (hr : r + 1 + k = 2 ^ 32)
    (hdvd : ¬n ∣ 2 ^ 32) (hi : i < n) : look n r i ≠ max (2 ^ 32 % n) (n - k) := by
  have hpos : 0 < 2 ^ 32 % n := Nat.pos_of_ne_zero fun h => hdvd (Nat.dvd_of_mod_eq_zero h)
  have hlt : 2 ^ 32 % n < n := Nat.mod_lt _ (by omega)
  rw [look, Nat.mod_eq_of_lt hn]
  by_cases hik : i < k
  · intro hlook
    rw [Nat.mod_eq_of_lt (show r + 1 + i < 2 ^ 32 by omega)] at hlook
    have hsum : (max (2 ^ 32 % n) (n - k) + (k - i)) % n = 2 ^ 32 % n := by
      rw [← hlook, Nat.mod_add_mod]
      congr 1
      omega
    have hover : n ≤ max (2 ^ 32 % n) (n - k) + (k - i) := by
      by_contra hunder
      rw [Nat.mod_eq_of_lt (by omega)] at hsum
      omega
    rw [Nat.mod_eq_sub_mod hover, Nat.mod_eq_of_lt (by omega)] at hsum
    omega
  · rw [show r + 1 + i = i - k + 2 ^ 32 by omega, Nat.add_mod_right,
      Nat.mod_eq_of_lt (show i - k < 2 ^ 32 by omega), Nat.mod_eq_of_lt (by omega)]
    omega

theorem covers_iff (hr : r < 2 ^ 32) : (n ≠ 0 → n % 2 ^ 32 ≠ 0) ∧ Covers n r ↔
      n < 2 ^ 32 ∧ (n ∣ 2 ^ 32 ∨ r + n < 2 ^ 32 ∨ r = 2 ^ 32 - 1) := by
  constructor
  · rintro ⟨hmod, hcovers⟩
    have hn : n < 2 ^ 32 := by
      by_contra hn
      obtain ⟨i, -, hi⟩ := hcovers (n % 2 ^ 32) (by omega)
      have hlt : look n r i < n % 2 ^ 32 := Nat.mod_lt _ (Nat.pos_of_ne_zero (hmod (by omega)))
      exact Nat.lt_irrefl _ (hi ▸ hlt)
    refine ⟨hn, ?_⟩
    by_contra hwrap
    simp only [not_or, not_lt] at hwrap
    obtain ⟨hdvd, hover, hlast⟩ := hwrap
    have hlt : 2 ^ 32 % n < n := Nat.mod_lt _ (by omega)
    obtain ⟨i, hi, hlook⟩ := hcovers (max (2 ^ 32 % n) (n - (2 ^ 32 - 1 - r))) (by omega)
    exact missed hn (by omega) (by omega) (by omega) hdvd hi hlook
  · rintro ⟨hn, hturn⟩
    refine ⟨fun hzero => by rwa [Nat.mod_eq_of_lt hn], fun p hp => ?_⟩
    simp only [look, Nat.mod_eq_of_lt hn]
    rcases hturn with hdvd | hroom | rfl
    · simp only [Nat.mod_mod_of_dvd _ hdvd]
      exact exists_turn hp r
    · obtain ⟨i, hi, hp⟩ := exists_turn hp r
      exact ⟨i, hi, by rwa [Nat.mod_eq_of_lt (show r + 1 + i < 2 ^ 32 by omega)]⟩
    · refine ⟨p, hp, ?_⟩
      rw [show 2 ^ 32 - 1 + 1 + p = p + 2 ^ 32 by omega, Nat.add_mod_right,
        Nat.mod_eq_of_lt (show p < 2 ^ 32 by omega), Nat.mod_eq_of_lt hp]

/-- The picks take turns exactly if the counter does not wrap within `n` of them, or wraps
evenly. -/
theorem round_robin_iff (n : Nat) (rr : UInt32) : TakesTurns n rr ↔
      n < 2 ^ 32 ∧ (n ∣ 2 ^ 32 ∨ rr.toNat + n < 2 ^ 32 ∨ rr.toNat = 2 ^ 32 - 1) :=
  (takesTurns_iff n rr).trans (covers_iff rr.toNat_lt)

/-- Of three backends the last one is healthy, and the counter wraps after the first look. -/
theorem wrap_misses_backend :
    isHealthy (only 3 2) 2 = true ∧ nextBackend (only 3 2) 4294967294 = some (1, none) := by
  decide +kernel

end CalvoProxy.RoundRobin
