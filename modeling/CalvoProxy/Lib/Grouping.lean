import Mathlib.Data.List.Perm.Subperm
import Mathlib.Data.List.Flatten
import Mathlib.Data.List.Range

/-!
# Grouping and interleaving lists

Sorting a list into groups, and taking the groups in turn, only reorders the list.
-/

namespace Grouping

open List

variable {depth : Nat} {α κ : Type}

theorem eraseDups_nodup [DecidableEq α] (l : List α) : l.eraseDups.Nodup := by
  induction hn : l.length using Nat.strong_induction_on generalizing l with
  | _ n ih =>
    cases l with
    | nil => exact nodup_nil
    | cons a l =>
      have hshort : (l.filter fun b => !b == a).length < n :=
        hn ▸ Nat.lt_succ_of_le (length_filter_le _ _)
      rw [eraseDups_cons, nodup_cons, mem_eraseDups]
      exact ⟨by simp, ih _ hshort _ rfl⟩

theorem groups_perm [DecidableEq κ] (key : α → κ) {keys : List κ} (hnodup : keys.Nodup)
    {xs : List α} (hkeys : ∀ x ∈ xs, key x ∈ keys) :
    (keys.flatMap fun k => xs.filter fun x => key x = k).Perm xs := by
  induction xs with
  | nil => simp
  | cons x xs ih =>
    have hrest := ih fun y hy => hkeys y (mem_cons_of_mem x hy)
    -- the new member is in exactly one group
    have hone : (keys.flatMap fun k => if key x = k then [x] else []) = [x] := by
      have hx : key x ∈ keys := hkeys x mem_cons_self
      clear ih hrest hkeys
      induction keys with
      | nil => exact absurd hx not_mem_nil
      | cons k ks ih =>
        obtain ⟨hnot, hks⟩ := nodup_cons.mp hnodup
        rw [flatMap_cons]
        by_cases hk : key x = k
        · have hnone : (ks.flatMap fun k => if key x = k then [x] else []) = [] := by
            refine flatMap_eq_nil_iff.mpr fun k' hk' => if_neg ?_
            rintro rfl
            exact hnot (hk ▸ hk')
          rw [if_pos hk, hnone, append_nil]
        · rw [if_neg hk, nil_append]
          exact ih hks ((mem_cons.mp hx).resolve_left hk)
    have hsplit : (fun k => (x :: xs).filter fun y => key y = k) =
        fun k => (if key x = k then [x] else []) ++ xs.filter fun y => key y = k := by
      funext k
      rw [filter_cons]
      by_cases hk : key x = k <;> simp [hk]
    rw [hsplit]
    refine (flatMap_append_perm keys _ _).symm.trans ?_
    rw [hone]
    exact hrest.cons x

theorem range_members (xs : List α) (hdepth : xs.length ≤ depth) :
    ((List.range depth).flatMap fun d : Nat => xs[d]?.toList) = xs := by
  induction xs generalizing depth with
  | nil => simp
  | cons x xs ih =>
    cases depth with
    | zero => exact absurd hdepth (Nat.not_succ_le_zero _)
    | succ depth =>
      rw [range_succ_eq_map, flatMap_cons, flatMap_map]
      simp only [List.getElem?_cons_zero, List.getElem?_cons_succ, Option.toList_some,
        singleton_append]
      rw [ih (Nat.le_of_succ_le_succ hdepth)]

theorem le_foldl_max (l : List Nat) (m : Nat) : m ≤ l.foldl max m ∧ ∀ k ∈ l, k ≤ l.foldl max m := by
  induction l generalizing m with
  | nil => exact ⟨Nat.le_refl m, fun k hk => absurd hk not_mem_nil⟩
  | cons n l ih =>
    obtain ⟨hstart, hrest⟩ := ih (max m n)
    refine ⟨(Nat.le_max_left m n).trans hstart, fun k hk => ?_⟩
    rcases mem_cons.mp hk with rfl | hk
    · exact (Nat.le_max_right m k).trans hstart
    · exact hrest k hk

theorem columns_perm (rows : List (List α)) (hdepth : ∀ row ∈ rows, row.length ≤ depth) :
    ((List.range depth).flatMap fun d : Nat => rows.filterMap (·[d]?)).Perm rows.flatten := by
  induction rows with
  | nil => simp
  | cons row rows ih =>
    have hrest := ih fun row' hrow' => hdepth row' (mem_cons_of_mem row hrow')
    have hsplit : (fun d : Nat => (row :: rows).filterMap (·[d]?)) =
        fun d => row[d]?.toList ++ rows.filterMap (·[d]?) := by
      funext d
      rw [filterMap_cons]
      cases row[d]? <;> rfl
    rw [hsplit, flatten_cons]
    refine (flatMap_append_perm (List.range depth) _ _).symm.trans ?_
    rw [range_members row (hdepth row mem_cons_self)]
    exact hrest.append_left row

/-! ## Taking named rows in turn -/

section Turns

variable {γ : Type} [DecidableEq κ] {row : γ → List α} {name : γ → κ} {key : α → κ}

theorem filter_column {gs : List γ} (hnames : (gs.map name).Nodup)
    (hkey : ∀ g ∈ gs, ∀ x ∈ row g, key x = name g) {g : γ} (hg : g ∈ gs) (d : Nat) :
    ((gs.filterMap fun g => (row g)[d]?).filter fun x => key x = name g) = (row g)[d]?.toList := by
  induction gs with
  | nil => exact absurd hg not_mem_nil
  | cons g' gs ih =>
    obtain ⟨hfresh, hnames⟩ := nodup_cons.mp hnames
    have hrest := fun g hg => hkey g (mem_cons_of_mem g' hg)
    have hsplit : ((g' :: gs).filterMap fun g => (row g)[d]?) =
        (row g')[d]?.toList ++ gs.filterMap fun g => (row g)[d]? := by
      rw [filterMap_cons]
      cases (row g')[d]? <;> rfl
    rw [hsplit, filter_append]
    rcases mem_cons.mp hg with rfl | hg
    · -- no other row has this name
      have hnone : ((gs.filterMap fun g => (row g)[d]?).filter fun x => key x = name g) = [] := by
        refine filter_eq_nil_iff.mpr fun x hx => ?_
        obtain ⟨h, hh, hx⟩ := mem_filterMap.mp hx
        rw [decide_eq_true_eq, hrest h hh x (mem_of_getElem? hx)]
        intro hname
        exact hfresh (hname ▸ mem_map_of_mem hh)
      have hall : ((row g)[d]?.toList.filter fun x => key x = name g) = (row g)[d]?.toList := by
        refine filter_eq_self.mpr fun x hx => decide_eq_true ?_
        exact hkey g mem_cons_self x (mem_of_getElem? (Option.mem_toList.mp hx))
      rw [hnone, hall, append_nil]
    · have hother : ((row g')[d]?.toList.filter fun x => key x = name g) = [] := by
        refine filter_eq_nil_iff.mpr fun x hx => ?_
        have hx := mem_of_getElem? (Option.mem_toList.mp hx)
        rw [decide_eq_true_eq, hkey g' mem_cons_self x hx]
        intro hname
        exact hfresh (hname ▸ mem_map_of_mem hg)
      rw [hother, nil_append, ih hnames hrest hg]

theorem filter_columns {gs : List γ} (hnames : (gs.map name).Nodup)
    (hkey : ∀ g ∈ gs, ∀ x ∈ row g, key x = name g) {g : γ} (hg : g ∈ gs)
    (hdepth : (row g).length ≤ depth) :
    (((List.range depth).flatMap fun d : Nat => gs.filterMap fun g => (row g)[d]?).filter
      fun x => key x = name g) = row g := by
  rw [filter_flatMap]
  simp only [filter_column hnames hkey hg]
  exact range_members (row g) hdepth

omit [DecidableEq κ] in
theorem column_names {gs : List γ} (hkey : ∀ g ∈ gs, ∀ x ∈ row g, key x = name g) (d : Nat) :
    (gs.filterMap fun g => (row g)[d]?).map key =
      (gs.filter fun g => d < (row g).length).map name := by
  induction gs with
  | nil => rfl
  | cons g gs ih =>
    have hrest := ih fun g' hg' => hkey g' (mem_cons_of_mem g hg')
    rw [filterMap_cons, filter_cons]
    by_cases hd : d < (row g).length
    · have hx := List.getElem?_eq_getElem hd
      rw [hx, if_pos (decide_eq_true hd), map_cons, map_cons, hrest,
        hkey g mem_cons_self _ (getElem_mem hd)]
    · rw [List.getElem?_eq_none (Nat.not_lt.mp hd), if_neg (by simpa using hd)]
      exact hrest

omit [DecidableEq κ] in
theorem alone_after_last {columns : List (List κ)} {before rest : List κ} {x : κ}
    (hlast : x ∉ before) (hsub : ∀ c ∈ columns, c.Sublist (before ++ [x]))
    (hshrink : columns.Pairwise fun c d => d.Sublist c) (h : columns.flatten = x :: rest) :
    ∀ y ∈ columns.flatten, y = x := by
  induction columns with
  | nil => exact fun y hy => absurd hy not_mem_nil
  | cons c columns ih =>
    obtain ⟨hlater, hshrinkRest⟩ := pairwise_cons.mp hshrink
    cases c with
    | nil => exact ih (fun d hd => hsub d (mem_cons_of_mem _ hd)) hshrinkRest h
    | cons x' c =>
      obtain ⟨rfl, -⟩ := List.cons.inj h
      have hone : (x' :: c).Sublist [x'] := by
        obtain ⟨left, right, hsplit, hleft, hright⟩ :=
          sublist_append_iff.mp (hsub _ mem_cons_self)
        cases left with
        | nil => exact hsplit ▸ hright
        | cons z left =>
          obtain ⟨rfl, -⟩ := List.cons.inj hsplit
          exact absurd (hleft.subset mem_cons_self) hlast
      have hmem : ∀ y ∈ x' :: c, y = x' := fun y hy => mem_singleton.mp (hone.subset hy)
      intro y hy
      rw [flatten_cons] at hy
      rcases mem_append.mp hy with hy | hy
      · exact hmem y hy
      · obtain ⟨d, hd, hy⟩ := mem_flatten.mp hy
        exact hmem y ((hlater d hd).subset hy)

omit [DecidableEq κ] in
theorem rest_of_repeat {columns : List (List κ)} (hnodup : ∀ c ∈ columns, c.Nodup)
    (hshrink : columns.Pairwise fun c d => d.Sublist c) {x : κ} {rest : List κ}
    (h : x :: x :: rest <:+ columns.flatten) : ∀ y ∈ rest, y = x := by
  induction columns with
  | nil => exact absurd (suffix_nil.mp h) (cons_ne_nil _ _)
  | cons c columns ih =>
    obtain ⟨hsub, hshrinkRest⟩ := pairwise_cons.mp hshrink
    have hlater := ih (fun d hd => hnodup d (mem_cons_of_mem c hd)) hshrinkRest
    obtain ⟨before, heq⟩ := h
    rw [flatten_cons] at heq
    rcases append_eq_append_iff.mp heq with ⟨inside, hc, hrest⟩ | ⟨between, -, hrest⟩
    · -- the suffix starts inside the column
      cases inside with
      | nil => exact hlater ⟨[], hrest⟩
      | cons x' inside =>
        obtain ⟨rfl, htail⟩ := List.cons.inj hrest
        have hcolumn := nodup_append.mp (hc ▸ hnodup c mem_cons_self)
        cases inside with
        | nil =>
          have hlast : x ∉ before := fun hx => hcolumn.2.2 x hx x mem_cons_self rfl
          have halone := alone_after_last hlast (hc ▸ hsub) hshrinkRest htail.symm
          intro y hy
          refine halone y ?_
          rw [show columns.flatten = x :: rest from htail.symm]
          exact mem_cons_of_mem x hy
        | cons x' inside =>
          obtain ⟨rfl, -⟩ := List.cons.inj htail
          exact absurd mem_cons_self (nodup_cons.mp hcolumn.2.1).1
    · exact hlater ⟨between, hrest.symm⟩

omit [DecidableEq κ] in
theorem columns_alternate {gs : List γ} (hnames : (gs.map name).Nodup)
    (hkey : ∀ g ∈ gs, ∀ x ∈ row g, key x = name g) (depth : Nat) {x y : α} {rest : List α}
    (h : x :: y :: rest <:+
      (List.range depth).flatMap fun d : Nat => gs.filterMap fun g => (row g)[d]?)
    (hsame : key x = key y) : ∀ z ∈ rest, key z = key x := by
  let turn := fun d : Nat => (gs.filter fun g => d < (row g).length).map name
  have hturns : ((List.range depth).flatMap fun d : Nat =>
      gs.filterMap fun g => (row g)[d]?).map key = ((List.range depth).map turn).flatten := by
    rw [map_flatMap, ← flatMap_def]
    simp only [column_names hkey, turn]
  have hnodup : ∀ c ∈ (List.range depth).map turn, c.Nodup := by
    intro c hc
    obtain ⟨d, -, rfl⟩ := mem_map.mp hc
    exact hnames.sublist (filter_sublist.map name)
  have hshrink : ((List.range depth).map turn).Pairwise fun c d => d.Sublist c := by
    rw [pairwise_map]
    refine (pairwise_lt_range (n := depth)).imp fun {d e} hlt => List.Sublist.map name ?_
    refine monotone_filter_right gs fun g hg => ?_
    simp only [decide_eq_true_eq] at hg ⊢
    exact Nat.lt_trans hlt hg
  have hsuffix := h.map key
  rw [hturns, map_cons, map_cons, ← hsame] at hsuffix
  intro z hz
  exact rest_of_repeat hnodup hshrink hsuffix (key z) (mem_map_of_mem hz)

end Turns

end Grouping
