import Mathlib.Data.List.Basic

/-!
# Lines

Input that comes in pieces and is read up to the first line that satisfies a predicate. What the
scan finds does not depend on the pieces.
-/

namespace Lines

open List

variable {α : Type} {line seen rest xs : List α}

def Begins (sep : α) (before : List α) : Prop := before = [] ∨ before.getLast? = some sep

def HasLine (sep : α) (p : List α → Bool) (xs : List α) : Prop :=
  ∃ before line after, xs = before ++ line ++ sep :: after ∧ Begins sep before ∧ sep ∉ line ∧
    p (line ++ [sep]) = true

/-- The lines seen and the piece of a line behind them, or a line that was found. -/
inductive Scan (α : Type)
  | more (seen line : List α)
  | found (consumed rest : List α)

def scan [DecidableEq α] (sep : α) (p : List α → Bool) (seen line : List α) : List α → Scan α
  | [] => .more seen line
  | x :: xs =>
    if x = sep then
      if p (line ++ [sep]) then .found (seen ++ (line ++ [sep])) xs
      else scan sep p (seen ++ (line ++ [sep])) [] xs
    else scan sep p seen (line ++ [x]) xs

structure Clear (sep : α) (p : List α → Bool) (seen line : List α) : Prop where
  begins : Begins sep seen
  unended : sep ∉ line
  none : ¬HasLine sep p (seen ++ line)

variable {sep : α} {p : List α → Bool}

theorem HasLine.append (h : HasLine sep p xs) (ys : List α) : HasLine sep p (xs ++ ys) := by
  obtain ⟨before, line, after, rfl, hbegins, hline, hp⟩ := h
  exact ⟨before, line, after ++ ys, by simp, hbegins, hline, hp⟩

theorem Begins.le {before : List α} (hbefore : Begins sep before) (hline : sep ∉ line)
    (h : seen ++ line = before ++ rest) : ∃ middle, seen = before ++ middle := by
  rcases append_eq_append_iff.mp h with ⟨middle, hseen, hrest⟩ | ⟨middle, hseen, -⟩
  · cases hbefore with
    | inl hnil => exact ⟨seen, by rw [hnil, nil_append]⟩
    | inr hlast =>
      -- a separator behind `seen` would be one of `line`
      cases middle with
      | nil => exact ⟨[], by rw [hseen, append_nil, append_nil]⟩
      | cons x middle =>
        rw [hseen, List.getLast?_append_of_ne_nil _ (cons_ne_nil x middle)] at hlast
        have hmem : sep ∈ line := by
          rw [hrest]
          exact mem_append_left rest (mem_of_getLast? hlast)
        exact absurd hmem hline
  · exact ⟨middle, hseen⟩

theorem Begins.unique {before : List α} (hbefore : Begins sep before) (hseen : Begins sep seen)
    (hline : sep ∉ line) (hrest : sep ∉ rest) (h : seen ++ line = before ++ rest) :
    line = rest := by
  obtain ⟨middle, hmiddle⟩ := hbefore.le hline h
  obtain ⟨middle', hmiddle'⟩ := hseen.le hrest h.symm
  have hlength : seen.length = before.length := by
    have h1 := congrArg List.length hmiddle
    have h2 := congrArg List.length hmiddle'
    simp only [length_append] at h1 h2
    omega
  exact (append_inj h hlength).2

namespace Clear

variable {seen line : List α}

theorem start (sep : α) (p : List α → Bool) : Clear sep p [] [] where
  begins := .inl rfl
  unended := not_mem_nil
  none := by
    rintro ⟨before, line, after, h, -⟩
    simp at h

variable (h : Clear sep p seen line)
include h

theorem cons {x : α} (hx : x ≠ sep) : Clear sep p seen (line ++ [x]) := by
  refine ⟨h.begins, ?_, ?_⟩
  · rw [mem_append, mem_singleton]
    rintro (hline | hsep)
    · exact h.unended hline
    · exact hx hsep.symm
  · rintro ⟨before, found, after, heq, hbegins, hfound, hp⟩
    -- the line that is found ends before `x`
    rcases eq_nil_or_concat after with rfl | ⟨after, y, rfl⟩
    · have hlast := congrArg List.getLast? heq
      rw [← append_assoc, List.getLast?_concat, List.getLast?_concat] at hlast
      exact hx (Option.some.inj hlast)
    · refine h.none ⟨before, found, after, ?_, hbegins, hfound, hp⟩
      have hinit := congrArg List.dropLast heq
      rw [← append_assoc, dropLast_concat, concat_eq_append, ← cons_append,
        ← append_assoc, dropLast_concat] at hinit
      exact hinit

theorem ended (hp : p (line ++ [sep]) = false) : Clear sep p (seen ++ (line ++ [sep])) [] := by
  refine ⟨?_, not_mem_nil, ?_⟩
  · right
    rw [← append_assoc, List.getLast?_concat]
  · rintro ⟨before, found, after, heq, hbegins, hfound, hpfound⟩
    rw [append_nil, ← append_assoc] at heq
    rcases eq_nil_or_concat after with rfl | ⟨after, y, rfl⟩
    · have hinit := (append_inj_left' heq rfl)
      rw [hbegins.unique h.begins h.unended hfound hinit, hpfound] at hp
      cases hp
    · refine h.none ⟨before, found, after, ?_, hbegins, hfound, hpfound⟩
      have hinit := congrArg List.dropLast heq
      rw [dropLast_concat, concat_eq_append, ← cons_append, ← append_assoc,
        dropLast_concat] at hinit
      exact hinit

theorem hasLine (hp : p (line ++ [sep]) = true) : HasLine sep p (seen ++ (line ++ [sep])) :=
  ⟨seen, line, [], by simp, h.begins, h.unended, hp⟩

end Clear

/-- The scan has gone through all of the input without a line, or has found one in it. -/
def Scan.Of (sep : α) (p : List α → Bool) (input : List α) : Scan α → Prop
  | .more seen line => Clear sep p seen line ∧ seen ++ line = input
  | .found consumed rest => HasLine sep p consumed ∧ consumed ++ rest = input

theorem scan_of [DecidableEq α] (h : Clear sep p seen line) (xs : List α) :
    (scan sep p seen line xs).Of sep p (seen ++ line ++ xs) := by
  induction xs generalizing seen line with
  | nil => exact ⟨h, (append_nil _).symm⟩
  | cons x xs ih =>
    unfold scan
    split
    · next hx =>
      subst hx
      split
      · next hp => exact ⟨h.hasLine hp, by simp⟩
      · next hp => simpa using ih (h.ended (eq_false_of_ne_true hp))
    · next hx => simpa using ih (h.cons hx)

/-! ## A list of lines -/

def IsLine (sep : α) (l : List α) : Prop := ∃ line, l = line ++ [sep] ∧ sep ∉ line

variable {ls : List (List α)}

theorem Clear.append (h : Clear sep p seen line) (hxs : sep ∉ xs) :
    Clear sep p seen (line ++ xs) := by
  induction xs generalizing line with
  | nil => simpa using h
  | cons x xs ih =>
    obtain ⟨hx, hxs⟩ := not_or.mp (mem_cons.not.mp hxs)
    simpa using ih (h.cons (Ne.symm hx)) hxs

theorem Clear.lines (h : Clear sep p seen []) (hls : ∀ l ∈ ls, IsLine sep l)
    (hnone : ∀ l ∈ ls, p l = false) : Clear sep p (seen ++ ls.flatten) [] := by
  induction ls generalizing seen with
  | nil => simpa using h
  | cons l ls ih =>
    obtain ⟨line, rfl, hline⟩ := hls l mem_cons_self
    have hfirst := (h.append hline).ended (hnone _ mem_cons_self)
    have hrest := ih hfirst (fun l hl => hls l (mem_cons_of_mem _ hl)) fun l hl =>
      hnone l (mem_cons_of_mem _ hl)
    simpa using hrest

theorem hasLine_iff (hls : ∀ l ∈ ls, IsLine sep l) (hrest : sep ∉ rest) :
    HasLine sep p (ls.flatten ++ rest) ↔ ∃ l ∈ ls, p l = true := by
  constructor
  · intro h
    by_contra hnone
    have hclear := (Clear.start sep p).lines hls fun l hl =>
      eq_false_of_ne_true fun hp => hnone ⟨l, hl, hp⟩
    exact (hclear.append hrest).none (by simpa using h)
  · rintro ⟨l, hl, hp⟩
    obtain ⟨line, rfl, hline⟩ := hls l hl
    obtain ⟨before, after, rfl⟩ := append_of_mem hl
    refine ⟨before.flatten, line, after.flatten ++ rest, by simp, ?_, hline, hp⟩
    rcases eq_nil_or_concat before with rfl | ⟨before, l, rfl⟩
    · exact .inl rfl
    · obtain ⟨line', rfl, -⟩ := hls l (by simp)
      exact .inr (by simp)

end Lines
