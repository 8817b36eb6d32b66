import Mathlib.Data.List.Chain
import Mathlib.Data.List.Perm.Subperm

/-!
# Insertion by an arbitrary comparison

Insertion sort by a comparison that need not be transitive. It may leave `x` behind `y` although `x`
is less, exactly if a chain of elements leads from `y` to `x` in which none is less than the one
before it (`Drift`, `sort_pairwise_iff`).
-/

namespace Insertion

open List

variable {α : Type} (less : α → α → Bool)

/-- Move `x` to its place among the elements before it, given from right to left. -/
def sink (x : α) : List α → List α
  | [] => [x]
  | y :: ys => if less x y then y :: sink x ys else x :: y :: ys

def place (placed l : List α) : List α := l.foldl (fun placed x => sink less x placed) placed

def sort (l : List α) : List α := (place less [] l).reverse

/-- A chain of different elements from `y` to `x`, none less than the one before it. -/
def Drift (l : List α) (y x : α) : Prop :=
  ∃ between, (y :: (between ++ [x])).Subperm l ∧
    (y :: (between ++ [x])).IsChain fun a b => less b a = false

variable {less}

theorem sink_perm (x : α) (ys : List α) : (sink less x ys).Perm (x :: ys) := by
  induction ys with
  | nil => exact .refl _
  | cons y ys ih =>
    unfold sink
    split
    · exact (ih.cons y).trans (.swap x y ys)
    · exact .refl _

theorem sublist_sink (x : α) (ys : List α) : ys.Sublist (sink less x ys) := by
  induction ys with
  | nil => exact nil_sublist _
  | cons y ys ih =>
    unfold sink
    split
    · exact ih.cons_cons y
    · exact (List.Sublist.refl _).cons x

theorem head?_sink (x : α) (ys : List α) :
    (sink less x ys).head? = some x ∨ (sink less x ys).head? = ys.head? := by
  cases ys with
  | nil => exact .inl rfl
  | cons y ys =>
    unfold sink
    split
    · exact .inr rfl
    · exact .inl rfl

theorem place_perm (placed l : List α) : (place less placed l).Perm (l.reverse ++ placed) := by
  induction l generalizing placed with
  | nil => exact .refl _
  | cons x l ih =>
    refine (ih _).trans ?_
    rw [reverse_cons, append_assoc]
    exact (sink_perm x placed).append_left _

theorem sort_perm (l : List α) : (sort less l).Perm l := by
  have hplaced : (place less [] l).Perm (l.reverse ++ []) := place_perm [] l
  rw [append_nil] at hplaced
  exact ((reverse_perm _).trans hplaced).trans (reverse_perm l)

theorem sublist_place (placed l : List α) : placed.Sublist (place less placed l) := by
  induction l generalizing placed with
  | nil => exact .refl _
  | cons x l ih => exact (sublist_sink x placed).trans (ih _)

section Asymmetric

variable (hasymm : ∀ a b, less a b = true → less b a = false)
include hasymm

theorem isChain_sink (x : α) {ys : List α} (h : ys.IsChain fun b a => less b a = false) :
    (sink less x ys).IsChain fun b a => less b a = false := by
  induction ys with
  | nil => exact .singleton x
  | cons y ys ih =>
    unfold sink
    split
    · next hless =>
      rw [isChain_cons] at h ⊢
      refine ⟨fun z hz => ?_, ih h.2⟩
      have hhead : (sink less x ys).head? = some x ∨ (sink less x ys).head? = ys.head? :=
        head?_sink x ys
      rcases hhead with hx | hys
      · rw [hx] at hz
        cases hz
        exact hasymm x y hless
      · rw [hys] at hz
        exact h.1 z hz
    · next hless =>
      exact .cons_cons (eq_false_of_ne_true hless) h

theorem isChain_place {placed : List α} (h : placed.IsChain fun b a => less b a = false)
    (l : List α) : (place less placed l).IsChain fun b a => less b a = false := by
  induction l generalizing placed with
  | nil => exact h
  | cons x l ih => exact ih (isChain_sink hasymm x h)

theorem isChain_sort (l : List α) : (sort less l).IsChain fun a b => less b a = false :=
  isChain_reverse.mpr (isChain_place hasymm .nil l)

theorem head?_sort {l : List α} (hnodup : l.Nodup) {x : α} (hx : x ∈ l)
    (hleast : ∀ y ∈ l, y ≠ x → less x y = true) :
    (sort less l).head? = some x := by
  have hperm : (sort less l).Perm l := sort_perm l
  have hchain := isChain_sort hasymm l
  have hsorted := hperm.nodup_iff.mpr hnodup
  obtain ⟨left, right, heq⟩ := append_of_mem (hperm.mem_iff.mpr hx)
  rw [heq] at hchain hsorted ⊢
  rcases eq_nil_or_concat left with rfl | ⟨left, y, rfl⟩
  · rfl
  -- its left neighbour would be less than it
  rw [concat_eq_append, append_assoc, singleton_append] at hchain hsorted heq
  have hnot := (isChain_cons_cons.mp (isChain_append.mp hchain).2.1).1
  have hmem : y ∈ l := hperm.mem_iff.mp (by simp [heq])
  have hne : y ≠ x := by
    rintro rfl
    exact (nodup_cons.mp (nodup_append.mp hsorted).2.1).1 mem_cons_self
  rw [hleast y hmem hne] at hnot
  exact absurd hnot.symm Bool.false_ne_true

end Asymmetric

theorem place_isChain {placed l : List α}
    (h : (placed.reverse ++ l).IsChain fun a b => less b a = false) :
    place less placed l = l.reverse ++ placed := by
  induction l generalizing placed with
  | nil => rfl
  | cons x l ih =>
    have hsink : sink less x placed = x :: placed := by
      cases placed with
      | nil => rfl
      | cons y ys =>
        rw [reverse_cons, append_assoc, singleton_append] at h
        have hlast := (isChain_append.mp h).2.1
        exact if_neg (by rw [(isChain_cons_cons.mp hlast).1]; exact Bool.false_ne_true)
    rw [reverse_cons, append_assoc, singleton_append]
    have hnext : ((x :: placed).reverse ++ l).IsChain fun a b => less b a = false := by
      rwa [reverse_cons, append_assoc, singleton_append]
    show place less (sink less x placed) l = _
    rw [hsink]
    exact ih hnext

theorem sublist_sort {chain : List α} (h : chain.IsChain fun a b => less b a = false)
    (rest : List α) : chain.Sublist (sort less (chain ++ rest)) := by
  have hplaced : chain.reverse.Sublist (place less chain.reverse rest) :=
    sublist_place chain.reverse rest
  have hfirst : place less [] chain = chain.reverse := by
    simpa using @place_isChain α less [] chain h
  have hsort : sort less (chain ++ rest) = (place less chain.reverse rest).reverse := by
    rw [sort, place, foldl_append]
    show (place less (place less [] chain) rest).reverse = _
    rw [hfirst]
  rw [hsort]
  simpa using hplaced.reverse

/-! ## Pairs in the wrong order -/

theorem drift_of_sublist {l sorted : List α} {y x : α}
    (h : sorted.IsChain fun a b => less b a = false) (hperm : sorted.Perm l)
    (hpair : [y, x].Sublist sorted) : Drift less l y x := by
  obtain ⟨left, right, rfl, hy, hx⟩ := cons_sublist_iff.mp hpair
  obtain ⟨before, between1, rfl⟩ := append_of_mem hy
  obtain ⟨between2, after, rfl⟩ := append_of_mem (singleton_sublist.mp hx)
  have hinfix : (y :: ((between1 ++ between2) ++ [x])) <:+:
      before ++ y :: between1 ++ (between2 ++ x :: after) := ⟨before, after, by simp⟩
  exact ⟨between1 ++ between2, hinfix.sublist.subperm.trans hperm.subperm, h.infix hinfix⟩

theorem sort_pairwise_iff (hasymm : ∀ a b, less a b = true → less b a = false)
    {wrong : α → α → Prop} (l : List α) :
    (∀ given, given.Perm l → (sort less given).Pairwise fun y x => ¬ wrong y x) ↔
      ∀ y x, Drift less l y x → ¬ wrong y x := by
  constructor
  · rintro hsorted y x ⟨between, hsubperm, hchain⟩
    obtain ⟨sub, hsub, hsublist⟩ := hsubperm
    obtain ⟨rest, hrest⟩ := hsublist.exists_perm_append
    have hgiven := (hrest.trans (hsub.append_right rest)).symm
    have hpairwise := (hsorted _ hgiven).sublist (sublist_sort hchain rest)
    have hlast : x ∈ between ++ [x] := mem_append_right _ (mem_singleton_self x)
    exact (pairwise_cons.mp hpairwise).1 x hlast
  · intro hdrift given hperm
    rw [pairwise_iff_forall_sublist]
    intro y x hpair
    have hchain := isChain_sort hasymm given
    exact hdrift y x (drift_of_sublist hchain ((sort_perm given).trans hperm) hpair)

end Insertion
