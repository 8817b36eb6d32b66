import Mathlib.Data.List.DropRight
import Mathlib.Data.List.Infix

/-!
# Cutting a text at the matches of a pattern

The matches of a pattern, taken from the left, cut a text into what stands before the first of them
and, for each, what it captures and the text up to the next. A part is quiet if no match starts in
it, which depends on what follows.
-/

namespace Cutting

open List

variable {α κ : Type}

section Trim

variable {blank : α → Bool} {xs ys : List α}

def trim (blank : α → Bool) (xs : List α) : List α := (xs.dropWhile blank).rdropWhile blank

structure Trimmed (blank : α → Bool) (xs : List α) : Prop where
  head : ∀ x ∈ xs.head?, blank x = false
  last : ∀ x ∈ xs.getLast?, blank x = false

theorem exists_trim (blank : α → Bool) (xs : List α) :
    ∃ before after, xs = before ++ (trim blank xs ++ after) ∧ before.all blank = true ∧
      after.all blank = true := by
  refine ⟨xs.takeWhile blank, (xs.dropWhile blank).rtakeWhile blank, ?_, ?_, ?_⟩
  · rw [trim, rdropWhile_append_rtakeWhile, takeWhile_append_dropWhile]
  · exact all_takeWhile
  · rw [all_eq_true]
    exact fun x hx => mem_rtakeWhile_imp hx

theorem trim_trimmed (blank : α → Bool) (xs : List α) : Trimmed blank (trim blank xs) := by
  constructor
  · intro x hx
    have hfirst := List.head?_dropWhile_not blank xs
    obtain ⟨rest, hrest⟩ := rdropWhile_prefix blank (xs.dropWhile blank)
    have hsame : (xs.dropWhile blank).head? = some x := by
      rw [← hrest, List.head?_append, show (List.rdropWhile blank _).head? = some x from hx]
      rfl
    rwa [hsame] at hfirst
  · intro x hx
    obtain ⟨hne, rfl⟩ := mem_getLast?_eq_getLast hx
    exact Bool.eq_false_iff.mpr (rdropWhile_last_not blank _ hne)

theorem dropWhile_trimmed (h : ∀ x ∈ xs.head?, blank x = false) :
    (xs ++ ys).dropWhile blank = if xs = [] then ys.dropWhile blank else xs ++ ys := by
  cases xs with
  | nil => rfl
  | cons x xs => simp [h x rfl]

theorem trim_append (h : Trimmed blank xs) {before after : List α}
    (hbefore : before.all blank = true) (hafter : after.all blank = true) :
    trim blank (before ++ (xs ++ after)) = xs := by
  rw [all_eq_true] at hbefore hafter
  have hback : (after.reverse ++ xs.reverse).dropWhile blank = xs.reverse := by
    rw [dropWhile_append_of_pos (by simpa using hafter), ← append_nil xs.reverse,
      dropWhile_trimmed (by simpa using h.last)]
    split <;> simp_all
  unfold trim List.rdropWhile
  rw [dropWhile_append_of_pos hbefore, dropWhile_trimmed h.head]
  split
  · next hnil =>
    have hnone : after.dropWhile blank = [] := dropWhile_eq_nil_iff.mpr hafter
    rw [hnone, hnil]
    rfl
  · rw [reverse_append, hback, reverse_reverse]

theorem countP_blank (h : xs.all blank = true) : xs.countP (fun x => !blank x) = 0 := by
  rw [countP_eq_zero]
  intro x hx
  simp [all_eq_true.mp h x hx]

theorem countP_trim (blank : α → Bool) (xs : List α) :
    (trim blank xs).countP (fun x => !blank x) = xs.countP fun x => !blank x := by
  obtain ⟨before, after, hxs, hbefore, hafter⟩ := exists_trim blank xs
  conv_rhs => rw [hxs]
  rw [countP_append, countP_append, countP_blank hbefore, countP_blank hafter,
    Nat.zero_add, Nat.add_zero]

end Trim

/-- A pattern sees the character before the text, and gives what it captures and the length of its
match. -/
abbrev Pattern (α κ : Type) := Option α → List α → Option (κ × Nat)

/-- The next `skip` characters belong to a match. -/
def cut (p : Pattern α κ) : Nat → Option α → List α → List α × List (κ × List α)
  | _, _, [] => ([], [])
  | skip + 1, _, c :: cs => cut p skip (some c) cs
  | 0, prev, c :: cs =>
    match p prev (c :: cs) with
    | some (k, n) =>
      let r := cut p (n - 1) (some c) cs
      ([], (k, r.1) :: r.2)
    | none =>
      let r := cut p 0 (some c) cs
      (c :: r.1, r.2)

def lastOr : Option α → List α → Option α
  | prev, [] => prev
  | _, c :: cs => lastOr (some c) cs

/-- No match starts in `s`, followed by `t`. -/
def Quiet (p : Pattern α κ) : Option α → List α → List α → Prop
  | _, [], _ => True
  | prev, c :: cs, t => p prev (c :: (cs ++ t)) = none ∧ Quiet p (some c) cs t

section Cut

variable {p : Pattern α κ} {prev : Option α} {s t : List α} {k : κ} {n : Nat} {c : α}

@[simp]
theorem cut_nil (p : Pattern α κ) (skip : Nat) (prev : Option α) : cut p skip prev [] =
    ([], []) := by
  cases skip <;> rfl

theorem cut_none (h : p prev (c :: s) = none) :
    cut p 0 prev (c :: s) = (c :: (cut p 0 (some c) s).1, (cut p 0 (some c) s).2) := by
  rw [cut, h]

theorem cut_some (h : p prev (c :: s) = some (k, n)) : cut p 0 prev (c :: s) =
      ([], (k, (cut p (n - 1) (some c) s).1) :: (cut p (n - 1) (some c) s).2) := by
  rw [cut, h]

theorem cut_skip (p : Pattern α κ) (prev : Option α) (s t : List α) :
    cut p s.length prev (s ++ t) = cut p 0 (lastOr prev s) t := by
  induction s generalizing prev with
  | nil => rfl
  | cons c s ih => exact ih (some c)

theorem lastOr_append (prev : Option α) (s t : List α) :
    lastOr prev (s ++ t) = lastOr (lastOr prev s) t := by
  induction s generalizing prev with
  | nil => rfl
  | cons c s ih => exact ih (some c)

theorem lastOr_eq_getLast? (prev : Option α) (hs : s ≠ []) : lastOr prev s = s.getLast? := by
  induction s generalizing prev with
  | nil => exact absurd rfl hs
  | cons c s ih =>
    cases s with
    | nil => rfl
    | cons d s => exact (ih (some c) (cons_ne_nil d s)).trans List.getLast?_cons_cons.symm

theorem quiet_append (p : Pattern α κ) (prev : Option α) (s s' t : List α) :
    Quiet p prev (s ++ s') t ↔ Quiet p prev s (s' ++ t) ∧ Quiet p (lastOr prev s) s' t := by
  induction s generalizing prev with
  | nil => simp [Quiet, lastOr]
  | cons c s ih => simp only [cons_append, Quiet, lastOr, ih, append_assoc, and_assoc]

theorem cut_quiet (h : Quiet p prev s t) : cut p 0 prev (s ++ t) =
      (s ++ (cut p 0 (lastOr prev s) t).1, (cut p 0 (lastOr prev s) t).2) := by
  induction s generalizing prev with
  | nil => rfl
  | cons c s ih => rw [cons_append, cut_none h.1, ih h.2]; rfl

theorem exists_first (h : ¬Quiet p prev s t) :
    ∃ a c b k n, s = a ++ c :: b ∧ Quiet p prev a (c :: b ++ t) ∧
      p (lastOr prev a) (c :: (b ++ t)) = some (k, n) := by
  induction s generalizing prev with
  | nil => exact absurd trivial h
  | cons c s ih =>
    cases hp : p prev (c :: (s ++ t)) with
    | some m => exact ⟨[], c, s, m.1, m.2, rfl, trivial, hp⟩
    | none =>
      obtain ⟨a, d, b, k, n, rfl, hquiet, hmatch⟩ := @ih (some c) fun hquiet => h ⟨hp, hquiet⟩
      refine ⟨c :: a, d, b, k, n, rfl, ⟨?_, hquiet⟩, hmatch⟩
      rwa [append_assoc] at hp

/-- A text in which no match starts, up to a match or the end. -/
def Between (p : Pattern α κ) (s : List α) : Prop :=
  ∃ prev t, Quiet p prev s t ∧ (t = [] ∨ (p (lastOr prev s) t).isSome = true)

theorem cut_fst (p : Pattern α κ) (prev : Option α) (cs : List α) :
    ∃ t, cs = (cut p 0 prev cs).1 ++ t ∧ Quiet p prev (cut p 0 prev cs).1 t ∧
      (t = [] ∨ (p (lastOr prev (cut p 0 prev cs).1) t).isSome = true) := by
  induction cs generalizing prev with
  | nil => exact ⟨[], rfl, trivial, .inl rfl⟩
  | cons c cs ih =>
    cases hp : p prev (c :: cs) with
    | some m =>
      rw [cut_some (k := m.1) (n := m.2) hp]
      exact ⟨c :: cs, rfl, trivial, .inr (by rw [lastOr, hp]; rfl)⟩
    | none =>
      rw [cut_none hp]
      obtain ⟨t, hcs, hquiet, ht⟩ := ih (some c)
      refine ⟨t, congrArg (c :: ·) hcs, ⟨?_, hquiet⟩, ht⟩
      rwa [← hcs]

theorem cut_fst_between (p : Pattern α κ) (skip : Nat) (prev : Option α) (cs : List α) :
    Between p (cut p skip prev cs).1 := by
  induction cs generalizing skip prev with
  | nil => exact ⟨prev, [], by rw [cut_nil]; trivial, .inl rfl⟩
  | cons c cs ih =>
    cases skip with
    | succ skip => exact ih skip (some c)
    | zero =>
      obtain ⟨t, -, hquiet, ht⟩ := cut_fst p prev (c :: cs)
      exact ⟨prev, t, hquiet, ht⟩

theorem cut_snd_between (p : Pattern α κ) (skip : Nat) (prev : Option α) (cs : List α) :
    ∀ e ∈ (cut p skip prev cs).2, Between p e.2 := by
  induction cs generalizing skip prev with
  | nil => simp
  | cons c cs ih =>
    cases skip with
    | succ skip => exact ih skip (some c)
    | zero =>
      cases hp : p prev (c :: cs) with
      | some m =>
        rw [cut_some (k := m.1) (n := m.2) hp]
        exact forall_mem_cons.mpr ⟨cut_fst_between p _ _ cs, ih _ _⟩
      | none =>
        rw [cut_none hp]
        exact ih 0 (some c)

theorem cut_countP_le (p : Pattern α κ) (count : α → Bool) (skip : Nat) (prev : Option α)
    (s : List α) : (cut p skip prev s).1.countP count ≤ s.countP count ∧
      ∀ e ∈ (cut p skip prev s).2, e.2.countP count ≤ s.countP count := by
  induction s generalizing skip prev with
  | nil => simp
  | cons c s ih =>
    have hlonger : s.countP count ≤ (c :: s).countP count := countP_cons ▸ Nat.le_add_right _ _
    have hlater := fun skip => (ih skip (some c)).imp (·.trans hlonger)
      fun h e he => (h e he).trans hlonger
    cases skip with
    | succ skip => exact hlater skip
    | zero =>
      cases hp : p prev (c :: s) with
      | none =>
        rw [cut_none hp]
        refine ⟨?_, (hlater 0).2⟩
        simp only [countP_cons]
        exact Nat.add_le_add_right (ih 0 (some c)).1 _
      | some m =>
        rw [cut_some (k := m.1) (n := m.2) hp]
        exact ⟨Nat.zero_le _, forall_mem_cons.mpr (hlater (m.2 - 1))⟩

/-- The pieces and matches that end in a part leave a rest of which `C` holds: what follows the
part, or what a match beyond it leaves. -/
theorem cut_bounded {C : List (κ × List α) → Prop} (count : α → Bool) (skip : Nat)
    (hskip : skip ≤ s.length)
    (hend : ∃ rest, cut p 0 (lastOr prev s) t = ([], rest) ∧ C rest)
    (hbeyond : ∀ prev c b k n, c :: b <:+ s → p prev (c :: (b ++ t)) = some (k, n) →
      b.length < n - 1 →
      C ((k, (cut p (n - 1) (some c) (b ++ t)).1) :: (cut p (n - 1) (some c) (b ++ t)).2)) :
    ∃ pieces rest, (cut p skip prev (s ++ t)).2 = pieces ++ rest ∧ C rest ∧
      (cut p skip prev (s ++ t)).1.countP count ≤ s.countP count ∧
      ∀ e ∈ pieces, e.2.countP count ≤ s.countP count := by
  induction s generalizing skip prev with
  | nil =>
    obtain ⟨rest, hcut, hrest⟩ := hend
    cases Nat.le_zero.mp hskip
    have hcut : cut p 0 prev ([] ++ t) = ([], rest) := hcut
    rw [hcut]
    exact ⟨[], rest, rfl, hrest, le_rfl, by simp⟩
  | cons c s ih =>
    have hlonger : s.countP count ≤ (c :: s).countP count := countP_cons ▸ Nat.le_add_right _ _
    have hlater := fun skip hskip => @ih (some c) skip hskip hend
      fun prev d b k n hsuffix => hbeyond prev d b k n (hsuffix.trans (suffix_cons c s))
    cases skip with
    | succ skip =>
      obtain ⟨pieces, rest, hcut, hrest, hfirst, hpieces⟩ :=
        hlater skip (Nat.le_of_succ_le_succ hskip)
      exact ⟨pieces, rest, hcut, hrest, hfirst.trans hlonger,
        fun e he => (hpieces e he).trans hlonger⟩
    | zero =>
      rw [cons_append]
      cases hp : p prev (c :: (s ++ t)) with
      | none =>
        obtain ⟨pieces, rest, hcut, hrest, hfirst, hpieces⟩ := hlater 0 (Nat.zero_le _)
        rw [cut_none hp]
        refine ⟨pieces, rest, hcut, hrest, ?_, fun e he => (hpieces e he).trans hlonger⟩
        simp only [countP_cons]
        exact Nat.add_le_add_right hfirst _
      | some m =>
        obtain ⟨k, n⟩ := m
        rw [cut_some hp]
        by_cases hn : n - 1 ≤ s.length
        · obtain ⟨pieces, rest, hcut, hrest, hfirst, hpieces⟩ := hlater (n - 1) hn
          refine ⟨(k, _) :: pieces, rest, congrArg (_ :: ·) hcut, hrest, Nat.zero_le _, ?_⟩
          exact forall_mem_cons.mpr ⟨hfirst.trans hlonger, fun e he => (hpieces e he).trans hlonger⟩
        · exact ⟨[], _, rfl, hbeyond prev c s k n suffix_rfl hp (Nat.lt_of_not_le hn),
            Nat.zero_le _, by simp⟩

end Cut

end Cutting
