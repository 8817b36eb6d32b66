import Mathlib.Logic.Function.Basic
import Mathlib.Data.List.Basic

/-!
# The last write of each key

Writers replace a whole map by a snapshot in which they have written their own key. The map shows
the last write of each key exactly if the snapshots are up to date in the other keys.
-/

namespace LastWrite

open List Function

variable {κ β : Type} [DecidableEq κ]

/-- The value of the last write of a key, or the one before all writes. -/
def latest (m : κ → β) (writes : List (κ × β)) (k : κ) : β :=
  match writes.reverse.find? fun w => w.1 = k with
  | some w => w.2
  | none => m k

theorem latest_concat (m : κ → β) (writes : List (κ × β)) (k : κ) (v : β) :
    latest m (writes ++ [(k, v)]) = update (latest m writes) k v := by
  funext q
  unfold latest
  rw [reverse_append, reverse_singleton, singleton_append, List.find?_cons, update_apply]
  by_cases hq : q = k
  · simp [hq]
  · simp [hq, Ne.symm hq]

theorem latest_singleton (m : κ → β) (k : κ) (v : β) : latest m [(k, v)] = update m k v :=
  latest_concat m [] k v

theorem latest_append (m : κ → β) (earlier later : List (κ × β)) :
    latest m (earlier ++ later) = latest (latest m earlier) later := by
  funext q
  unfold latest
  rw [reverse_append, List.find?_append]
  cases later.reverse.find? fun w => w.1 = q <;> rfl

theorem replace_iff {m snapshot : κ → β} {writes : List (κ × β)} {k : κ} {v : β} :
    update snapshot k v = latest m (writes ++ [(k, v)]) ↔
      ∀ q, q ≠ k → snapshot q = latest m writes q := by
  rw [latest_concat, update_eq_iff]
  constructor
  · rintro ⟨-, hothers⟩ q hq
    have hsame := hothers q hq
    rwa [update_of_ne hq] at hsame
  · intro hothers
    refine ⟨by rw [update_self], fun q hq => ?_⟩
    rw [update_of_ne hq]
    exact hothers q hq

end LastWrite
