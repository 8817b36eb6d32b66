import Mathlib.Order.Basic
import Mathlib.Order.Bounds.Defs
import Mathlib.Data.Int.Order.Basic

/-!
# The soonest and the latest of some waits

A wait is a duration; zero stands for no wait. `IsLatest` and `IsSoonest` say what a fold from zero
is of the waits it has gone through, with one lemma each for a step of the fold.
-/

namespace Waits

variable {α : Type} {P Q : Int → Prop} {d e : Int}

def sooner (d e : Int) : Int := if 0 < e ∧ (d = 0 ∨ e < d) then e else d

def later (d e : Int) : Int := if d < e then e else d

theorem sooner_eq (hd : 0 ≤ d) (he : 0 ≤ e) :
    (if d ≤ 0 ∨ 0 < e ∧ e < d then e else d) = sooner d e := by
  unfold sooner
  split <;> split <;> omega

/-- `d` is the shortest wait in `P`, zero when there is none. -/
structure IsSoonest (P : Int → Prop) (d : Int) : Prop where
  nonneg : 0 ≤ d
  attained : 0 < d → P d
  least : ∀ e, 0 < e → P e → 0 < d ∧ d ≤ e

/-- `d` is the longest wait in `P`, zero when there is none. -/
structure IsLatest (P : Int → Prop) (d : Int) : Prop where
  nonneg : 0 ≤ d
  attained : 0 < d → P d
  greatest : ∀ e, 0 < e → P e → e ≤ d

namespace IsSoonest

theorem none : IsSoonest (fun _ => False) 0 := ⟨le_rfl, fun h => absurd h (lt_irrefl 0), nofun⟩

theorem congr (h : IsSoonest P d) (hPQ : ∀ e, 0 < e → (P e ↔ Q e)) : IsSoonest Q d where
  nonneg := h.nonneg
  attained := fun hd => (hPQ d hd).mp (h.attained hd)
  least := fun e he hQ => h.least e he ((hPQ e he).mpr hQ)

theorem single (d : Int) : IsSoonest (fun x => x = d) (if 0 < d then d else 0) := by
  split
  · next hpos => exact ⟨hpos.le, fun _ => rfl, fun e _ he => ⟨hpos, he.ge⟩⟩
  · next hneg => exact ⟨le_rfl, fun h => absurd h (lt_irrefl 0), fun e he heq => by omega⟩

theorem sooner (hd : IsSoonest P d) (he : IsSoonest Q e) :
    IsSoonest (fun x => P x ∨ Q x) (Waits.sooner d e) := by
  have hd0 := hd.nonneg
  unfold Waits.sooner
  split
  · next hsooner =>
    refine ⟨he.nonneg, fun hpos => .inr (he.attained hpos), fun x hx hPQ => ?_⟩
    rcases hPQ with hP | hQ
    · obtain ⟨hpos, hle⟩ := hd.least x hx hP
      refine ⟨hsooner.1, ?_⟩
      omega
    · exact he.least x hx hQ
  · next hkeep =>
    refine ⟨hd0, fun hpos => .inl (hd.attained hpos), fun x hx hPQ => ?_⟩
    rcases hPQ with hP | hQ
    · exact hd.least x hx hP
    · obtain ⟨hpos, hle⟩ := he.least x hx hQ
      omega

theorem isLeast_iff {now u : Int} (h : IsSoonest (fun x => P (now + x)) d)
    (hlater : ∀ u, P u → now < u) : IsLeast {u | P u} u ↔ 0 < d ∧ u = now + d := by
  have hfirst : ∀ v, P v → 0 < d ∧ now + d ≤ v := by
    intro v hv
    have hv_eq : now + (v - now) = v := by omega
    have hnow := hlater v hv
    obtain ⟨hpos, hle⟩ := h.least (v - now) (by omega) (by rwa [hv_eq])
    exact ⟨hpos, by omega⟩
  constructor
  · rintro ⟨hu, hlower⟩
    obtain ⟨hpos, hle⟩ := hfirst u hu
    exact ⟨hpos, le_antisymm (hlower (h.attained hpos)) hle⟩
  · rintro ⟨hpos, rfl⟩
    exact ⟨h.attained hpos, fun v hv => (hfirst v hv).2⟩

end IsSoonest

namespace IsLatest

theorem congr (h : IsLatest P d) (hPQ : ∀ e, 0 < e → (P e ↔ Q e)) : IsLatest Q d where
  nonneg := h.nonneg
  attained := fun hd => (hPQ d hd).mp (h.attained hd)
  greatest := fun e he hQ => h.greatest e he ((hPQ e he).mpr hQ)

theorem single (d : Int) : IsLatest (fun x => x = d) (if 0 < d then d else 0) := by
  split
  · next hpos => exact ⟨hpos.le, fun _ => rfl, fun e _ he => he.le⟩
  · next hneg => exact ⟨le_rfl, fun h => absurd h (lt_irrefl 0), fun e he heq => by omega⟩

theorem later (hd : IsLatest P d) (he : 0 < e) :
    IsLatest (fun x => P x ∨ x = e) (Waits.later d e) := by
  have hd0 := hd.nonneg
  unfold Waits.later
  split
  · next hlater =>
    refine ⟨he.le, fun _ => .inr rfl, fun x hx hPQ => ?_⟩
    rcases hPQ with hP | rfl
    · exact (hd.greatest x hx hP).trans hlater.le
    · exact le_rfl
  · next hkeep =>
    refine ⟨hd0, fun hpos => .inl (hd.attained hpos), fun x hx hPQ => ?_⟩
    rcases hPQ with hP | rfl
    · exact hd.greatest x hx hP
    · exact not_lt.mp hkeep

end IsLatest

end Waits
