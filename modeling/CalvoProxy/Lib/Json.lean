import Mathlib.Data.List.Basic

/-!
# JSON trees

Trees over a type of scalars. Of the fields of an object under one key the first counts, and objects
are compared by their keys, not by their order.
-/

inductive Json (σ : Type)
  | scalar (s : σ)
  | arr (items : List (Json σ))
  | obj (fields : List (String × Json σ))

namespace Json

open List

variable {σ : Type}

abbrev Fields (σ : Type) := List (String × Json σ)

def sameKeys (xs ys : Fields σ) : Bool :=
  (xs.all fun e => (ys.lookup e.1).isSome) && ys.all fun e => (xs.lookup e.1).isSome

mutual

def eqBy (same : σ → σ → Bool) : Json σ → Json σ → Bool
  | .scalar s, .scalar t => same s t
  | .arr xs, .arr ys => eqItems same xs ys
  | .obj xs, .obj ys => sameKeys xs ys && eqFields same [] xs ys
  | _, _ => false

def eqItems (same : σ → σ → Bool) : List (Json σ) → List (Json σ) → Bool
  | [], [] => true
  | x :: xs, y :: ys => eqBy same x y && eqItems same xs ys
  | _, _ => false

def eqFields (same : σ → σ → Bool) : List String → Fields σ → Fields σ → Bool
  | _, [], _ => true
  | seen, (key, x) :: xs, ys =>
    (seen.contains key ||
      match ys.lookup key with
      | some y => eqBy same x y
      | none => false) && eqFields same (key :: seen) xs ys

end

mutual

/-- How many brackets are open at the innermost value. -/
def depth : Json σ → Nat
  | .scalar _ => 0
  | .arr xs => depthItems xs + 1
  | .obj xs => depthFields xs + 1

def depthItems : List (Json σ) → Nat
  | [] => 0
  | x :: xs => max (depth x) (depthItems xs)

def depthFields : Fields σ → Nat
  | [] => 0
  | (_, x) :: xs => max (depth x) (depthFields xs)

end

theorem lookup_isSome_of_mem {xs : Fields σ} {e : String × Json σ} (h : e ∈ xs) :
    (xs.lookup e.1).isSome = true := by
  induction xs with
  | nil => cases h
  | cons x xs ih =>
    rw [lookup_cons]
    cases hkey : e.1 == x.1 with
    | true => rfl
    | false =>
      rcases mem_cons.mp h with rfl | h
      · rw [beq_self_eq_true] at hkey
        cases hkey
      · exact ih h

theorem sameKeys_refl (xs : Fields σ) : sameKeys xs xs = true := by
  unfold sameKeys
  rw [Bool.and_self, all_eq_true]
  exact fun e he => lookup_isSome_of_mem he

mutual

theorem eqBy_refl {same : σ → σ → Bool} (h : ∀ s, same s s = true) :
    ∀ x : Json σ, eqBy same x x = true
  | .scalar s => by
    rw [eqBy]
    exact h s
  | .arr xs => by
    rw [eqBy]
    exact eqItems_refl h xs
  | .obj xs => by
    rw [eqBy, sameKeys_refl, Bool.true_and]
    exact eqFields_refl h xs [] xs fun _ _ => rfl

theorem eqItems_refl {same : σ → σ → Bool} (h : ∀ s, same s s = true) :
    ∀ xs : List (Json σ), eqItems same xs xs = true
  | [] => by rw [eqItems]
  | x :: xs => by rw [eqItems, eqBy_refl h x, eqItems_refl h xs, Bool.and_self]

theorem eqFields_refl {same : σ → σ → Bool} (h : ∀ s, same s s = true) :
    ∀ (xs : Fields σ) (seen : List String) (ys : Fields σ),
      (∀ key, key ∉ seen → ys.lookup key = xs.lookup key) → eqFields same seen xs ys = true
  | [], seen, ys, _ => by rw [eqFields]
  | (key, x) :: xs, seen, ys, hsame => by
    have hrest : ∀ key', key' ∉ key :: seen → ys.lookup key' = xs.lookup key' := by
      intro key' hkey'
      obtain ⟨hne, hseen⟩ := ne_and_not_mem_of_not_mem_cons hkey'
      rw [hsame key' hseen, lookup_cons, beq_eq_false_iff_ne.mpr hne]
    rw [eqFields, eqFields_refl h xs (key :: seen) ys hrest, Bool.and_true]
    by_cases hseen : key ∈ seen
    · rw [contains_iff_mem.mpr hseen, Bool.true_or]
    · have hkey : ys.lookup key = some x := by
        rw [hsame key hseen, lookup_cons, beq_self_eq_true]
      simp only [hkey, eqBy_refl h x, Bool.or_true]

end

theorem eqFields_of_lookup {same : σ → σ → Bool} {xs : Fields σ} {seen : List String}
    {ys : Fields σ} (h : ∀ key x, key ∉ seen → xs.lookup key = some x →
      ∃ y, ys.lookup key = some y ∧ eqBy same x y = true) : eqFields same seen xs ys = true := by
  induction xs generalizing seen with
  | nil => rw [eqFields]
  | cons e xs ih =>
    obtain ⟨key, x⟩ := e
    have hrest : eqFields same (key :: seen) xs ys = true := by
      refine ih fun key' x' hkey' hx' => ?_
      obtain ⟨hne, hseen⟩ := ne_and_not_mem_of_not_mem_cons hkey'
      refine h key' x' hseen ?_
      rw [lookup_cons, beq_eq_false_iff_ne.mpr hne]
      exact hx'
    rw [eqFields, hrest, Bool.and_true]
    by_cases hseen : key ∈ seen
    · rw [contains_iff_mem.mpr hseen, Bool.true_or]
    · obtain ⟨y, hy, heq⟩ := h key x hseen (by rw [lookup_cons, beq_self_eq_true])
      simp only [hy, heq, Bool.or_true]

theorem lookup_of_sameKeys {xs ys : Fields σ} (h : sameKeys xs ys = true) {key : String}
    {x : Json σ} (hx : xs.lookup key = some x) : ∃ y, ys.lookup key = some y := by
  obtain ⟨hkeys, -⟩ := Bool.and_eq_true_iff.mp h
  have hmem : (key, x) ∈ xs := by
    obtain ⟨before, after, rfl, -⟩ := lookup_eq_some_iff.mp hx
    exact mem_append_right _ mem_cons_self
  exact Option.isSome_iff_exists.mp (all_eq_true.mp hkeys _ hmem)

/-- `fields[key] = value`. -/
def set (key : String) (value : Json σ) (fields : Fields σ) : Fields σ := (key, value) :: fields

theorem lookup_set (key other : String) (value : Json σ) (fields : Fields σ) :
    (set key value fields).lookup other = if other = key then some value else fields.lookup other := by
  rw [set, lookup_cons]
  split
  · next h => rw [if_pos (beq_iff_eq.mp h)]
  · next h => rw [if_neg (by simpa using h)]

end Json

/-- The scalars that `encoding/json` decodes; a number is a finite float. -/
inductive GoScalar
  | null
  | bool (b : Bool)
  | number (value : Rat)
  | string (s : String)

abbrev GoValue := Json GoScalar

/-- `s, ok := v.(string)`. -/
def GoValue.asString : GoValue → Option String
  | .scalar (.string s) => some s
  | _ => none
