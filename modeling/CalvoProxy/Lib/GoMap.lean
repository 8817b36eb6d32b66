import Mathlib.Data.List.AList
import Mathlib.Data.List.Sort
import Mathlib.Algebra.BigOperators.Group.List.Basic
import Mathlib.Algebra.Order.BigOperators.Group.List
import Mathlib.Algebra.Ring.Int.Defs

/-!
# Finite maps with an unspecified iteration order

Association lists without duplicate keys (`AList`), with totals, filters and iteration. The order of
an iteration is an argument (`order`), so a result for every `order` holds for every order the
runtime may choose.
-/

abbrev GoMap (K V : Type) := AList fun _ : K => V

namespace GoMap

open List

variable {K V : Type}

def total (f : K → V → Int) (m : GoMap K V) : Int :=
  (m.entries.map fun e => f e.1 e.2).sum

theorem total_congr {f g : K → V → Int} {m : GoMap K V}
    (h : ∀ e ∈ m.entries, f e.1 e.2 = g e.1 e.2) : total f m = total g m := by
  unfold total
  rw [map_congr_left h]

theorem total_nonneg {f : K → V → Int} {m : GoMap K V}
    (h : ∀ e ∈ m.entries, 0 ≤ f e.1 e.2) : 0 ≤ total f m := by
  unfold total
  apply sum_nonneg
  intro x hx
  obtain ⟨e, he, rfl⟩ := mem_map.mp hx
  exact h e he

def keep (p : K → V → Bool) (m : GoMap K V) : GoMap K V where
  entries := m.entries.filter fun e => p e.1 e.2
  nodupKeys := List.Pairwise.sublist (filter_sublist.map _) m.nodupKeys

def range [DecidableEq K] (order : List K) (m : GoMap K V) : List (Sigma fun _ : K => V) :=
  m.entries.insertionSort fun x y => order.idxOf x.1 ≤ order.idxOf y.1

theorem range_perm [DecidableEq K] (order : List K) (m : GoMap K V) :
    (range order m).Perm m.entries :=
  perm_insertionSort _ _

theorem filter_insertionSort {α : Type} {r : α → α → Prop} [DecidableRel r]
    (htrans : ∀ x y z, r x y → r y z → r x z) (htotal : ∀ x y, r x y ∨ r y x) (p : α → Bool)
    (xs : List α) : (xs.insertionSort r).filter p = (xs.filter p).insertionSort r := by
  have : IsTrans α r := ⟨htrans⟩
  have : Std.Total r := ⟨htotal⟩
  have hinsert : ∀ (x : α) (ys : List α), ys.Pairwise r → (ys.orderedInsert r x).filter p =
        if p x then (ys.filter p).orderedInsert r x else ys.filter p := by
    intro x ys hsorted
    induction ys with
    | nil => by_cases hx : p x <;> simp [hx]
    | cons y ys ih =>
      obtain ⟨hy, hsorted⟩ := pairwise_cons.mp hsorted
      have ih := ih hsorted
      rw [orderedInsert_cons]
      by_cases hxy : r x y
      · -- `x` goes first, and before whatever the filter leaves
        rw [if_pos hxy]
        by_cases hx : p x
        · rw [filter_cons_of_pos hx, if_pos hx]
          cases hrest : (y :: ys).filter p with
          | nil => rfl
          | cons z zs =>
            have hz : z ∈ y :: ys := by
              have : z ∈ (y :: ys).filter p := by rw [hrest]; exact mem_cons_self
              exact (mem_filter.mp this).1
            have hxz : r x z := by
              rcases mem_cons.mp hz with rfl | hz
              · exact hxy
              · exact htrans x y z hxy (hy z hz)
            rw [orderedInsert_cons, if_pos hxz]
        · rw [filter_cons_of_neg hx, if_neg hx]
      · rw [if_neg hxy]
        by_cases hp : p y
        · rw [filter_cons_of_pos hp, filter_cons_of_pos hp, ih]
          split
          · rw [orderedInsert_cons, if_neg hxy]
          · rfl
        · rw [filter_cons_of_neg hp, filter_cons_of_neg hp, ih]
  induction xs with
  | nil => rfl
  | cons x xs ih =>
    rw [insertionSort_cons, hinsert x _ (pairwise_insertionSort r xs), ih]
    by_cases hx : p x <;> simp [hx]

section Lookup

variable [DecidableEq K] {m : GoMap K V} {k k' : K} {v v' : V}

theorem mem_entries : (⟨k, v⟩ : Sigma fun _ : K => V) ∈ m.entries ↔ m.lookup k = some v :=
  AList.mem_lookup_iff.symm

theorem mem_range {order : List K} {e : Sigma fun _ : K => V} :
    e ∈ range order m ↔ m.lookup e.1 = some e.2 := by
  rw [(range_perm order m).mem_iff, ← mem_entries]

theorem range_nodupKeys (order : List K) (m : GoMap K V) : (range order m).NodupKeys :=
  (perm_nodupKeys (range_perm order m)).mpr m.nodupKeys

theorem lookup_insert_eq (k k' : K) (v : V) (m : GoMap K V) :
    (m.insert k v).lookup k' = if k' = k then some v else m.lookup k' := by
  split
  · next h => subst h; exact AList.lookup_insert m
  · next h => exact AList.lookup_insert_ne h

theorem lookup_erase_eq (k k' : K) (m : GoMap K V) :
    (m.erase k).lookup k' = if k' = k then none else m.lookup k' := by
  split
  · next h => subst h; exact AList.lookup_erase k' m
  · next h => exact AList.lookup_erase_ne h

theorem erase_of_lookup (h : m.lookup k = none) : m.erase k = m :=
  AList.ext (kerase_of_notMem_keys (AList.lookup_eq_none.mp h))

theorem lookup_keep {p : K → V → Bool} :
    (keep p m).lookup k = some v ↔ m.lookup k = some v ∧ p k v = true := by
  rw [← mem_entries, ← mem_entries]
  exact mem_filter

theorem lookup_keep_eq_none {p : K → V → Bool} (h : m.lookup k = none) :
    (keep p m).lookup k = none := by
  cases hk : (keep p m).lookup k with
  | none => rfl
  | some v =>
    have hv := (lookup_keep.mp hk).1
    rw [h] at hv
    cases hv

theorem keep_erase {p : K → V → Bool} (h : ∀ v, m.lookup k = some v → p k v = false) :
    keep p (m.erase k) = keep p m := by
  have hfilter : ∀ es : List (Sigma fun _ : K => V), (∀ v, ⟨k, v⟩ ∈ es → p k v = false) →
      (es.kerase k).filter (fun e => p e.1 e.2) = es.filter fun e => p e.1 e.2 := by
    intro es hes
    induction es with
    | nil => rfl
    | cons e es ih =>
      by_cases he : k = e.1
      · obtain ⟨k', v⟩ := e
        cases he
        rw [kerase_cons_eq rfl, filter_cons_of_neg (by simp [hes v mem_cons_self])]
      · rw [kerase_cons_ne he, filter_cons, filter_cons,
          ih fun v hv => hes v (mem_cons_of_mem e hv)]
  exact AList.ext (hfilter m.entries fun v hv => h v (mem_entries.mp hv))

theorem entries_insert_of_lookup (h : m.lookup k = none) :
    (m.insert k v).entries = ⟨k, v⟩ :: m.entries :=
  AList.entries_insert_of_notMem (AList.lookup_eq_none.mp h)

theorem mem_entries_erase {e : Sigma fun _ : K => V} (he : e ∈ (m.erase k).entries) :
    e ∈ m.entries ∧ e.1 ≠ k := by
  obtain ⟨k', v'⟩ := e
  rw [mem_entries, lookup_erase_eq] at he
  split at he
  · cases he
  · next hne => exact ⟨mem_entries.mpr he, hne⟩

theorem total_insert (f : K → V → Int) (h : m.lookup k = none) :
    total f (m.insert k v) = f k v + total f m := by
  unfold total
  rw [entries_insert_of_lookup h]
  simp

theorem total_erase (f : K → V → Int) (h : m.lookup k = some v) :
    total f m = f k v + total f (m.erase k) := by
  have hmem : k ∈ m.entries.keys := dlookup_isSome.mp (Option.isSome_of_mem h)
  obtain ⟨w, l1, l2, _, hsplit, herase⟩ := exists_of_kerase hmem
  have hw : w = v := by
    have hin : (⟨k, w⟩ : Sigma fun _ : K => V) ∈ m.entries := by rw [hsplit]; simp
    have hlook := mem_entries.mp hin
    rw [h] at hlook
    exact (Option.some.inj hlook).symm
  subst hw
  have herase' : (m.erase k).entries = l1 ++ l2 := herase
  unfold total
  rw [hsplit, herase']
  simp only [map_append, map_cons, sum_append, sum_cons]
  omega

theorem countP_lookup (p : V → Bool) {ks : List K} (hks : ks.Nodup) (m : GoMap K V) :
    ks.countP (fun k => (m.lookup k).any p) =
      m.entries.countP fun e => p e.2 && decide (e.1 ∈ ks) := by
  have hfound : (ks.filter fun k => (m.lookup k).any p).Perm
      ((m.entries.filter fun e => p e.2 && decide (e.1 ∈ ks)).map Sigma.fst) := by
    refine (perm_ext_iff_of_nodup (hks.filter _)
      (List.Pairwise.sublist (filter_sublist.map _) m.nodupKeys)).mpr fun k => ?_
    simp only [mem_filter, Option.any_eq_true, mem_map, Bool.and_eq_true, decide_eq_true_eq]
    constructor
    · rintro ⟨hk, v, hv, hp⟩
      exact ⟨⟨k, v⟩, ⟨mem_entries.mpr hv, hp, hk⟩, rfl⟩
    · rintro ⟨⟨k, v⟩, ⟨hv, hp, hk⟩, rfl⟩
      exact ⟨hk, v, mem_entries.mp hv, hp⟩
  rw [countP_eq_length_filter, countP_eq_length_filter, hfound.length_eq, length_map]

theorem countP_entries (p : V → Bool) {ks : List K} (hks : ks.Nodup) (m : GoMap K V) :
    m.entries.countP (fun e => p e.2) = ks.countP (fun k => (m.lookup k).any p) +
      m.entries.countP fun e => p e.2 && decide (e.1 ∉ ks) := by
  rw [countP_lookup p hks, countP_eq_countP_filter_add m.entries _ fun e => decide (e.1 ∈ ks),
    countP_filter, countP_filter]
  simp

end Lookup

end GoMap
