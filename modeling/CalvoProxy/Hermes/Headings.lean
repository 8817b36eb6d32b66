import CalvoProxy.Hermes.Summary

/-!
# Where headings are found

Whether a heading starts at a line depends on the rest of the line and the blanks after it. For a
line of a trimmed text it does not matter what follows (`heading_isSome_congr`), except that `##`
alone takes the next line for its title (`heading_bare`).
-/

namespace CalvoProxy.Summary

open Cutting List Option

variable {cs name : Text} {c : Char}

structure Ended (cs : Text) : Prop where
  ne : cs ≠ []
  last : ∀ c ∈ cs.getLast?, isSpace c = false

structure Line (cs : Text) : Prop extends Ended cs where
  head : ∀ c ∈ cs.head?, isSpace c = false
  unbroken : ∀ c ∈ cs, c ≠ '\r' ∧ c ≠ '\n'

theorem line_iff :
    (cs ≠ [] ∧ cs.getLast?.all (!isSpace ·) = true ∧ cs.head?.all (!isSpace ·) = true ∧
      '\r' ∉ cs ∧ '\n' ∉ cs) ↔ Line cs := by
  constructor
  · rintro ⟨hne, hlast, hhead, hreturn, hfeed⟩
    refine ⟨⟨hne, fun c hc => ?_⟩, fun c hc => ?_, fun c hc => ⟨?_, ?_⟩⟩
    · simpa using (all_eq_true _ _).mp hlast c hc
    · simpa using (all_eq_true _ _).mp hhead c hc
    · exact ne_of_mem_of_not_mem hc hreturn
    · exact ne_of_mem_of_not_mem hc hfeed
  · intro h
    refine ⟨h.ne, ?_, ?_, fun hc => (h.unbroken _ hc).1 rfl, fun hc => (h.unbroken _ hc).2 rfl⟩
    · exact (all_eq_true _ _).mpr fun c hc => by simp [h.last c hc]
    · exact (all_eq_true _ _).mpr fun c hc => by simp [h.head c hc]

instance (cs : Text) : Decidable (Line cs) := decidable_of_iff _ line_iff

theorem Ended.tail (h : Ended (c :: cs)) (hne : cs ≠ []) : Ended cs :=
  ⟨hne, fun d hd => h.last d (by rwa [List.getLast?_cons_of_ne_nil hne])⟩

theorem Ended.not_space (h : Ended [c]) : isSpace c = false := h.last c rfl

theorem Ended.suffix {r : Text} (h : Ended cs) (hsuffix : r <:+ cs) (hne : r ≠ []) : Ended r :=
  ⟨hne, fun d hd => h.last d (by
    obtain ⟨before, rfl⟩ := hsuffix
    rwa [List.getLast?_append_of_ne_nil _ hne])⟩

/-! ## The end of a line -/

section Trailing

variable {x y z : Text} {n : Nat}

theorem trailing_lt (hc : isSpace c = false) (h : trailing (x ++ c :: y) = some n) :
    n < x.length := by
  induction x generalizing n with
  | nil =>
    rw [nil_append, trailing, hc] at h
    cases h
  | cons d x ih =>
    rw [cons_append, trailing] at h
    split at h
    · split at h
      · next m hm =>
        cases h
        exact Nat.succ_lt_succ (ih hm)
      · split at h
        · cases h; exact Nat.succ_pos _
        · cases h
    · cases h

theorem trailing_isSome_congr (h : Ended x) (y z : Text) :
    (trailing (x ++ y)).isSome = (trailing (x ++ z)).isSome := by
  induction x with
  | nil => exact absurd rfl h.ne
  | cons c x ih =>
    rw [cons_append, cons_append, trailing, trailing]
    by_cases hx : x = []
    · subst hx
      simp [h.not_space]
    · have hrest := ih (h.tail hx)
      split
      · cases hy : trailing (x ++ y) <;> cases hz : trailing (x ++ z) <;> simp_all
      · rfl

theorem trailing_none (h : Ended x) (hunbroken : ∀ c ∈ x, c ≠ '\n') (y : Text) :
    trailing (x ++ y) = none := by
  induction x with
  | nil => exact absurd rfl h.ne
  | cons c x ih =>
    rw [cons_append, trailing]
    by_cases hx : x = []
    · subst hx
      simp [h.not_space]
    · rw [ih (h.tail hx) fun d hd => hunbroken d (mem_cons_of_mem c hd)]
      simp [hunbroken c mem_cons_self]

def Closing (y : Text) : Prop := (trailing y).isSome = true

theorem closing_nil : Closing [] := rfl

theorem Closing.head (h : Closing y) : ∀ c ∈ y.head?, isSpace c = true := by
  intro c hc
  cases y with
  | nil => cases hc
  | cons d y =>
    cases hc
    unfold Closing trailing at h
    split at h
    · assumption
    · cases h

theorem closing_break (hc : isSpace c = false) (y : Text) : trailing ('\n' :: c :: y) = some 0 := by
  simp [trailing, hc, show isSpace '\n' = true by decide]

theorem Closing.blank (h : Closing y) {w : Text} (hw : w.all isSpace = true) : Closing
    (w ++ y) := by
  induction w with
  | nil => exact h
  | cons c w ih =>
    simp only [all_cons, Bool.and_eq_true] at hw
    have hrest := ih hw.2
    unfold Closing at hrest ⊢
    obtain ⟨n, hn⟩ := isSome_iff_exists.mp hrest
    simp [trailing, hw.1, hn]

theorem closing_newline (y : Text) : Closing ('\n' :: y) := by
  unfold Closing trailing
  rw [if_pos (by decide)]
  split <;> rfl

end Trailing

section Heading

variable {r x y : Text} {d : Char} {k : Text} {n : Nat}

theorem title_isSome_congr (h : Ended r) (hx : Closing x) (hy : Closing y) :
    (title (r ++ x)).isSome = (title (r ++ y)).isSome := by
  induction r with
  | nil => exact absurd rfl h.ne
  | cons c r ih =>
    rw [cons_append, cons_append, title, title]
    by_cases hr : r = []
    · subst hr
      obtain ⟨n, hn⟩ := isSome_iff_exists.mp hx
      obtain ⟨m, hm⟩ := isSome_iff_exists.mp hy
      simp only [nil_append, hn, hm]
      split <;> rfl
    · have hrest := ih (h.tail hr)
      have htrail := trailing_isSome_congr (h.tail hr) x y
      split
      · rfl
      · cases htx : trailing (r ++ x) <;> cases hty : trailing (r ++ y) <;> simp_all

theorem blanks_isSome_congr (h : Ended r) (hx : Closing x) (hy : Closing y) :
    (blanks (r ++ x)).isSome = (blanks (r ++ y)).isSome := by
  induction r with
  | nil => exact absurd rfl h.ne
  | cons c r ih =>
    rw [cons_append, cons_append, blanks, blanks]
    by_cases hr : r = []
    · subst hr
      simp [h.not_space]
    · have hrest := ih (h.tail hr)
      have htitle := title_isSome_congr (h.tail hr) hx hy
      split
      · cases hbx : blanks (r ++ x) <;> cases hby : blanks (r ++ y) <;> simp_all
      · rfl

theorem heading_none (h : ∀ y, x ≠ '#' :: '#' :: y) : heading x = none := by
  unfold heading
  split
  · exact absurd rfl (h _)
  · rfl

theorem heading_hashes (x : Text) :
    heading ('#' :: '#' :: x) = (blanks x).map fun m => (m.1, m.2 + 2) := rfl

theorem heading_isSome_congr (h : Ended r) (hr : r ≠ ['#', '#']) (hx : Closing x)
    (hy : Closing y) : (heading (r ++ x)).isSome = (heading (r ++ y)).isSome := by
  by_cases hhashes : ∃ s, r = '#' :: '#' :: s
  · obtain ⟨s, rfl⟩ := hhashes
    have hne : s ≠ [] := fun hnil => hr (by rw [hnil])
    have hended := (h.tail (cons_ne_nil _ _)).tail hne
    rw [cons_append, cons_append, cons_append, cons_append, heading_hashes, heading_hashes,
      isSome_map, isSome_map, blanks_isSome_congr hended hx hy]
  · have hnone : ∀ {z}, Closing z → heading (r ++ z) = none := by
      refine fun hz => heading_none fun s heq => ?_
      obtain _ | ⟨c, _ | ⟨d, r⟩⟩ := r
      · exact h.ne rfl
      · cases heq
        cases hz.head '#' rfl
      · cases heq
        exact hhashes ⟨r, rfl⟩
    rw [hnone hx, hnone hy]

end Heading

/-! ## How far a heading reaches -/

section Length

variable {r x y : Text} {d : Char} {k : Text} {n : Nat}

theorem heading_some (h : heading x = some (k, n)) :
    ∃ y m, x = '#' :: '#' :: y ∧ blanks y = some (k, m) ∧ n = m + 2 := by
  unfold heading at h
  split at h
  · next y =>
    obtain ⟨m, hm, heq⟩ := map_eq_some_iff.mp h
    cases heq
    exact ⟨y, m.2, rfl, hm, rfl⟩
  · cases h

theorem title_within (hc : isSpace c = false)
    (h : title (r ++ '\n' :: '\n' :: c :: y) = some (k, n)) : n ≤ r.length + 1 := by
  induction r generalizing k n with
  | nil => cases h
  | cons d r ih =>
    rw [cons_append, title] at h
    split at h
    · cases h
    split at h
    · next m hm =>
      cases h
      have hlt := @trailing_lt c (r ++ ['\n', '\n']) y m hc (by simpa using hm)
      rw [length_append] at hlt
      exact hlt
    · obtain ⟨m, hm, heq⟩ := map_eq_some_iff.mp h
      cases heq
      exact Nat.succ_le_succ (ih hm)

theorem blanks_within (hr : Ended r) (hc : isSpace c = false)
    (h : blanks (r ++ '\n' :: '\n' :: c :: y) = some (k, n)) : n ≤ r.length + 1 := by
  induction r generalizing k n with
  | nil => exact absurd rfl hr.ne
  | cons d r ih =>
    rw [cons_append, blanks] at h
    split at h
    · next hd =>
      have hne : r ≠ [] := by
        rintro rfl
        cases hd.symm.trans hr.not_space
      split at h
      · next m hm =>
        cases h
        exact Nat.succ_le_succ (ih (hr.tail hne) hm)
      · obtain ⟨m, hm, heq⟩ := map_eq_some_iff.mp h
        cases heq
        exact Nat.succ_le_succ (title_within hc hm)
    · cases h

theorem title_line (h : Line name) (hc : isSpace c = false) (y : Text) :
    title (name ++ '\n' :: c :: y) = some (name, name.length) := by
  obtain ⟨hended, -, hunbroken⟩ := h
  induction name with
  | nil => exact absurd rfl hended.ne
  | cons d name ih =>
    have hd := hunbroken d mem_cons_self
    have hrest := fun e he => hunbroken e (mem_cons_of_mem d he)
    rw [cons_append, title]
    by_cases hname : name = []
    · subst hname
      simp [hd.1, hd.2, closing_break hc]
    · rw [trailing_none (hended.tail hname) fun e he => (hrest e he).2]
      simp [hd.1, hd.2, ih (hended.tail hname) hrest]

theorem blanks_cons_ne (hc : isSpace c = false) (y : Text) : blanks (c :: y) = none := by
  rw [blanks, hc]
  rfl

theorem blanks_line {name w : Text} (h : Line name) (hc : isSpace c = false) (y : Text)
    (hw : w.all isSpace = true) (hne : w ≠ []) :
    blanks (w ++ (name ++ '\n' :: c :: y)) = some (name, w.length + name.length) := by
  induction w with
  | nil => exact absurd rfl hne
  | cons d w ih =>
    simp only [all_cons, Bool.and_eq_true] at hw
    rw [cons_append, blanks, if_pos hw.1]
    by_cases hrest : w = []
    · subst hrest
      have hnone : blanks (name ++ '\n' :: c :: y) = none := by
        cases name with
        | nil => exact absurd rfl h.ne
        | cons e name => exact blanks_cons_ne (h.head e rfl) _
      simp [hnone, title_line h hc, Nat.add_comm]
    · simp [ih hw.2 hrest, Nat.add_right_comm]

theorem heading_line (h : Line name) (hc : isSpace c = false) (y : Text) :
    heading ('#' :: '#' :: ' ' :: (name ++ '\n' :: c :: y)) = some (name, name.length + 3) := by
  have hblanks := @blanks_line c name [' '] h hc y (by decide) (by decide)
  rw [singleton_append] at hblanks
  rw [heading_hashes, hblanks]
  simp only [map_some, length_singleton, Nat.add_comm 1]

theorem heading_bare (h : Line name) (hc : isSpace c = false) (y : Text) :
    heading ('#' :: '#' :: '\n' :: '\n' :: (name ++ '\n' :: c :: y)) =
      some (name, name.length + 4) := by
  have hblanks := @blanks_line c name ['\n', '\n'] h hc y (by decide) (by decide)
  rw [cons_append, singleton_append] at hblanks
  rw [heading_hashes, hblanks]
  simp only [map_some, length_cons, length_nil, Nat.add_comm 2, Nat.zero_add]

theorem heading_beyond (hr : Ended r) (hc : isSpace c = false)
    (h : heading (r ++ '\n' :: '\n' :: c :: y) = some (k, n)) (hn : r.length + 2 < n) :
    r = ['#', '#'] := by
  obtain ⟨rest, m, hrest, hm, rfl⟩ := heading_some h
  obtain _ | ⟨d, _ | ⟨e, r⟩⟩ := r
  · exact absurd rfl hr.ne
  · rw [singleton_append] at hrest
    cases hrest
  · rw [cons_append, cons_append] at hrest
    cases hrest
    by_cases hne : r = []
    · rw [hne]
    · have hle := blanks_within ((hr.tail (cons_ne_nil _ _)).tail hne) hc hm
      simp only [length_cons] at hn
      omega

end Length

end CalvoProxy.Summary
