import Mathlib.Data.Fintype.Card
import Mathlib.Data.Finset.Card

/-!
# A counting semaphore and its holders

As long as a party takes a slot only while it holds none, and gives back only one that it holds, the
slots taken are the parties that hold one (`Conserved`).
-/

namespace Semaphore

open Function

def take (cap taken : Nat) : Option Nat := if taken < cap then some (taken + 1) else none

/-- Give a slot back; `none` while no slot is taken. -/
def give : Nat → Option Nat
  | 0 => none
  | taken + 1 => some taken

variable {ι : Type} [Fintype ι] [DecidableEq ι]

def holders (held : ι → Bool) : Nat := (Finset.univ.filter fun i => held i = true).card

theorem holders_set {held : ι → Bool} {i : ι} (h : held i = false) :
    holders (update held i true) = holders held + 1 := by
  have hset : (Finset.univ.filter fun j => update held i true j = true) =
      insert i (Finset.univ.filter fun j => held j = true) := by
    ext j
    by_cases hj : j = i <;> simp [hj]
  unfold holders
  rw [hset, Finset.card_insert_of_notMem (by simp [h])]

theorem holders_clear {held : ι → Bool} {i : ι} (h : held i = true) :
    holders (update held i false) + 1 = holders held := by
  have hback : update (update held i false) i true = held := by
    rw [update_idem, ← h, update_eq_self]
  rw [← holders_set (update_self i false held), hback]

/-- The slots taken are those that the parties hold, and there is room for them. -/
structure Conserved (cap taken : Nat) (held : ι → Bool) : Prop where
  taken_eq : taken = holders held
  le_cap : taken ≤ cap

namespace Conserved

variable {cap taken taken' : Nat} {held : ι → Bool} {i : ι}

omit [DecidableEq ι] in
theorem start (cap : Nat) : Conserved cap 0 fun _ : ι => false :=
  ⟨by simp [holders], Nat.zero_le cap⟩

theorem take (h : Conserved cap taken held) (hnot : held i = false)
    (htake : Semaphore.take cap taken = some taken') :
    Conserved cap taken' (update held i true) := by
  unfold Semaphore.take at htake
  split at htake
  · next hroom =>
    cases htake
    exact ⟨by rw [holders_set hnot, h.taken_eq], hroom⟩
  · cases htake

theorem give (h : Conserved cap taken held) (hheld : held i = true)
    (hgive : Semaphore.give taken = some taken') :
    Conserved cap taken' (update held i false) := by
  cases taken with
  | zero => cases hgive
  | succ n =>
    cases hgive
    have hcount := holders_clear hheld
    rw [← h.taken_eq] at hcount
    exact ⟨(Nat.succ.inj hcount).symm, Nat.le_of_succ_le h.le_cap⟩

end Conserved

end Semaphore
