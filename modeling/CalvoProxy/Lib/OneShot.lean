import Mathlib.Data.List.Basic

/-!
# One-shot delivery

A cell keeps the first value offered to it. Inputs that offer nothing can be inserted anywhere.
-/

namespace OneShot

variable {α β : Type}

/-- `fired` is the flag of the guard, `sent` what has passed it. -/
structure Cell (β : Type) where
  fired : Bool
  sent : List β
deriving DecidableEq

namespace Cell

def new : Cell β := ⟨false, []⟩

def offer (cell : Cell β) (b : β) : Cell β :=
  if cell.fired then cell else ⟨true, cell.sent ++ [b]⟩

def offerOpt (cell : Cell β) : Option β → Cell β
  | none => cell
  | some b => cell.offer b

theorem foldl_fired {f : α → Option β} {cell : Cell β} (h : cell.fired = true) (xs : List α) :
    xs.foldl (fun cell x => cell.offerOpt (f x)) cell = cell := by
  induction xs with
  | nil => rfl
  | cons x xs ih =>
    have hkept : cell.offerOpt (f x) = cell := by
      cases f x with
      | none => rfl
      | some b => exact if_pos h
    rw [List.foldl_cons, hkept, ih]

theorem sent_foldl (f : α → Option β) (xs : List α) :
    (xs.foldl (fun cell x => cell.offerOpt (f x)) new).sent = (xs.findSome? f).toList := by
  induction xs with
  | nil => rfl
  | cons x xs ih =>
    rw [List.foldl_cons, List.findSome?_cons]
    cases hx : f x with
    | none => exact ih
    | some b => rw [@foldl_fired _ _ _ (new.offerOpt (some b)) rfl]; rfl

end Cell

theorem findSome?_ite (p : α → Prop) [DecidablePred p] (g : α → β) (xs : List α) :
    (xs.findSome? fun x => if p x then some (g x) else none) = (xs.find? fun x => p x).map g := by
  induction xs with
  | nil => rfl
  | cons x xs ih =>
    by_cases hx : p x
    · simp [hx]
    · simp [hx, ih]

inductive Inserted (p : α → Prop) : List α → List α → Prop
  | nil : Inserted p [] []
  | keep {xs ys : List α} (x : α) : Inserted p xs ys → Inserted p (x :: xs) (x :: ys)
  | insert {xs ys : List α} {y : α} : p y → Inserted p xs ys → Inserted p xs (y :: ys)

theorem Inserted.findSome?_eq {p : α → Prop} {f : α → Option β} (hp : ∀ x, p x → f x = none)
    {xs ys : List α} (h : Inserted p xs ys) : ys.findSome? f = xs.findSome? f := by
  induction h with
  | nil => rfl
  | keep x _ ih => rw [List.findSome?_cons, List.findSome?_cons, ih]
  | insert hy _ ih => rw [List.findSome?_cons, hp _ hy, ih]

end OneShot
