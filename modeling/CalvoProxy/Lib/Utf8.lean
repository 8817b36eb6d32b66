import Mathlib.Data.List.Basic

/-!
# UTF-8

The runes of a byte string with the bytes that encode them. An invalid string has none; trimming
works on it up to the first byte that encodes nothing.
-/

namespace Utf8

open List

structure Rune where
  char : Char
  bytes : List UInt8
deriving DecidableEq

def isTail (b : UInt8) : Bool := 0x80 ≤ b && b ≤ 0xBF

/-- The second byte of a rune: one encoding of each, no surrogate, nothing above U+10FFFF. -/
def isSecond (a b : UInt8) : Bool :=
  if a = 0xE0 then 0xA0 ≤ b && b ≤ 0xBF
  else if a = 0xED then 0x80 ≤ b && b ≤ 0x9F
  else if a = 0xF0 then 0x90 ≤ b && b ≤ 0xBF
  else if a = 0xF4 then 0x80 ≤ b && b ≤ 0x8F
  else isTail b

def shiftIn (n : Nat) (b : UInt8) : Nat := n * 64 + (b.toNat - 0x80)

def rune? : List UInt8 → Option Rune
  | [a] => if a ≤ 0x7F then some ⟨Char.ofNat a.toNat, [a]⟩ else none
  | [a, b] =>
    if 0xC2 ≤ a && a ≤ 0xDF && isTail b then
      some ⟨Char.ofNat (shiftIn (a.toNat - 0xC0) b), [a, b]⟩
    else none
  | [a, b, c] =>
    if 0xE0 ≤ a && a ≤ 0xEF && isSecond a b && isTail c then
      some ⟨Char.ofNat (shiftIn (shiftIn (a.toNat - 0xE0) b) c), [a, b, c]⟩
    else none
  | [a, b, c, d] =>
    if 0xF0 ≤ a && a ≤ 0xF4 && isSecond a b && isTail c && isTail d then
      some ⟨Char.ofNat (shiftIn (shiftIn (shiftIn (a.toNat - 0xF0) b) c) d), [a, b, c, d]⟩
    else none
  | _ => none

def runes : List UInt8 → Option (List Rune)
  | [] => some []
  | a :: rest =>
    match rune? [a] with
    | some r => (runes rest).map (r :: ·)
    | none =>
      match rest with
      | [] => none
      | b :: rest =>
        match rune? [a, b] with
        | some r => (runes rest).map (r :: ·)
        | none =>
          match rest with
          | [] => none
          | c :: rest =>
            match rune? [a, b, c] with
            | some r => (runes rest).map (r :: ·)
            | none =>
              match rest with
              | [] => none
              | d :: rest =>
                match rune? [a, b, c, d] with
                | some r => (runes rest).map (r :: ·)
                | none => none

/-- `utf8.Valid`. -/
def valid (bs : List UInt8) : Bool := (runes bs).isSome

/-! ## Where a string can be cut -/

section Cut

variable {a b : UInt8} {xs : List UInt8}

theorem isTail_of_isSecond (h : isSecond a b = true) : isTail b = true := by
  unfold isSecond at h
  repeat' split at h
  all_goals
    simp only [isTail, Bool.and_eq_true, decide_eq_true_eq, UInt8.le_iff_toNat_le,
      UInt8.reduceToNat] at h ⊢
    omega

/-- A byte that is no tail ends the rune before it. -/
theorem rune_broken (h : isTail b = false) (a : UInt8) : rune? [a, b] = none ∧
    (∀ c, rune? [a, b, c] = none) ∧ (∀ c d, rune? [a, b, c, d] = none) ∧
      (∀ c, rune? [a, c, b] = none) ∧ (∀ c d, rune? [a, c, b, d] = none) ∧
        ∀ c d, rune? [a, c, d, b] = none := by
  have hsecond : ∀ a, isSecond a b = false := fun a =>
    Bool.eq_false_iff.mpr fun hsecond => by simp [isTail_of_isSecond hsecond] at h
  simp [rune?, h, hsecond]

/-- A string is valid if both parts are where the second does not start with a tail. -/
theorem valid_append_cons (hb : isTail b = false) (xs ys : List UInt8) :
    valid (xs ++ b :: ys) = (valid xs && valid (b :: ys)) := by
  unfold valid
  have hbroken := rune_broken hb
  fun_induction runes xs with
  | case1 => simp
  | case2 a rest r hr ih =>
    rw [cons_append, runes.eq_def]
    simpa [hr] using ih
  | case3 a hr =>
    rw [cons_append, runes.eq_def]
    rcases ys with _ | ⟨c, _ | ⟨d, ys⟩⟩ <;> simp [hr, hbroken]
  | case4 a hr c rest r hr2 ih =>
    rw [cons_append, runes.eq_def]
    simpa [hr, hr2] using ih
  | case5 a hr c hr2 =>
    rw [cons_append, runes.eq_def]
    rcases ys with _ | ⟨d, ys⟩ <;> simp [hr, hr2, hbroken]
  | case6 a hr c hr2 d rest r hr3 ih =>
    rw [cons_append, runes.eq_def]
    simpa [hr, hr2, hr3] using ih
  | case7 a hr c hr2 d hr3 =>
    rw [cons_append, runes.eq_def]
    simp [hr, hr2, hr3, hbroken]
  | case8 a hr c hr2 d hr3 e rest r hr4 ih =>
    rw [cons_append, runes.eq_def]
    simpa [hr, hr2, hr3, hr4] using ih
  | case9 a hr c hr2 d hr3 e rest hr4 =>
    rw [cons_append, runes.eq_def]
    simp [hr, hr2, hr3, hr4]

theorem valid_append (h : valid xs = true) (ys : List UInt8) : valid (xs ++ ys) = valid ys := by
  unfold valid at *
  fun_induction runes xs with
  | case1 => rfl
  | case2 a rest r hr ih =>
    rw [cons_append, runes.eq_def]
    simpa [hr] using ih (by simpa using h)
  | case4 a hr c rest r hr2 ih =>
    rw [cons_append, runes.eq_def]
    simpa [hr, hr2] using ih (by simpa using h)
  | case6 a hr c hr2 d rest r hr3 ih =>
    rw [cons_append, runes.eq_def]
    simpa [hr, hr2, hr3] using ih (by simpa using h)
  | case8 a hr c hr2 d hr3 e rest r hr4 ih =>
    rw [cons_append, runes.eq_def]
    simpa [hr, hr2, hr3, hr4] using ih (by simpa using h)
  | _ => cases h

theorem isTail_of_valid (h : valid (b :: xs) = true) : isTail b = false := by
  refine Bool.eq_false_iff.mpr fun htail => ?_
  have hlead : ∀ n : UInt8, 0xBF < n → ¬n ≤ b := fun n hn h => by
    simp only [isTail, Bool.and_eq_true, decide_eq_true_eq] at htail
    exact UInt8.not_le.mpr hn (UInt8.le_trans h htail.2)
  have hascii : ¬b ≤ 0x7F := fun h => by
    simp only [isTail, Bool.and_eq_true, decide_eq_true_eq] at htail
    exact absurd (UInt8.le_trans htail.1 h) (by decide)
  rw [valid, runes.eq_def] at h
  rcases xs with _ | ⟨c, _ | ⟨d, _ | ⟨e, xs⟩⟩⟩ <;> simp [rune?, hascii, hlead] at h

/-- A cut of a valid string leaves either part valid exactly if it is in front of no tail. -/
theorem valid_cut_iff (h : valid xs = true) {i : Nat} (hi : xs[i]? = some b) :
    (valid (xs.take i) = true ↔ isTail b = false) ∧
      (valid (xs.drop i) = true ↔ isTail b = false) := by
  obtain ⟨hlt, rfl⟩ := List.getElem?_eq_some_iff.mp hi
  rw [← take_append_drop i xs, drop_eq_getElem_cons hlt] at h
  rw [drop_eq_getElem_cons hlt]
  refine ⟨⟨fun htake => ?_, fun hb => ?_⟩, isTail_of_valid, fun hb => ?_⟩
  · exact isTail_of_valid ((valid_append htake _).symm.trans h)
  · rw [valid_append_cons hb, Bool.and_eq_true] at h
    exact h.1
  · rw [valid_append_cons hb, Bool.and_eq_true] at h
    exact h.2

end Cut

section Ascii

variable {b : UInt8} (hb : b ≤ 0x7F)

include hb

theorem valid_cons (ys : List UInt8) : valid (b :: ys) = valid ys := by
  rw [valid, runes.eq_def]
  simp [rune?, hb, valid]

theorem valid_ascii (xs ys : List UInt8) : valid (xs ++ b :: ys) = (valid xs && valid ys) := by
  have htail : isTail b = false := by
    have hlt : ¬0x80 ≤ b := UInt8.not_le.mpr (UInt8.lt_of_le_of_lt hb (by decide))
    simp [isTail, hlt]
  rw [valid_append_cons htail, valid_cons hb]

end Ascii

theorem valid_ascii_append {xs : List UInt8} (h : ∀ b ∈ xs, b ≤ 0x7F) (ys : List UInt8) :
    valid (xs ++ ys) = valid ys := by
  induction xs with
  | nil => rfl
  | cons b xs ih =>
    rw [cons_append, valid_cons (h b mem_cons_self), ih fun b hb => h b (mem_cons_of_mem _ hb)]

def dropRunes (decode : List UInt8 → Option Rune) (p : Char → Bool) : List UInt8 → List UInt8
  | [] => []
  | a :: rest =>
    match decode [a] with
    | some r => if p r.char then dropRunes decode p rest else a :: rest
    | none =>
      match rest with
      | [] => [a]
      | b :: rest =>
        match decode [a, b] with
        | some r => if p r.char then dropRunes decode p rest else a :: b :: rest
        | none =>
          match rest with
          | [] => [a, b]
          | c :: rest =>
            match decode [a, b, c] with
            | some r => if p r.char then dropRunes decode p rest else a :: b :: c :: rest
            | none =>
              match rest with
              | [] => [a, b, c]
              | d :: rest =>
                match decode [a, b, c, d] with
                | some r => if p r.char then dropRunes decode p rest else a :: b :: c :: d :: rest
                | none => a :: b :: c :: d :: rest

/-- `strings.TrimFunc`; from the back the bytes of a rune come in reverse. -/
def trim (p : Char → Bool) (bs : List UInt8) : List UInt8 :=
  (dropRunes (fun bs => rune? bs.reverse) p (dropRunes rune? p bs).reverse).reverse

-- a line separator and a space are cut off, a byte that encodes nothing is not
example : trim (fun c => c = ' ' || c.toNat = 0x2028) [0xE2, 0x80, 0xA8, 0x6B, 0xFF, 0x20] =
    [0x6B, 0xFF] := by decide

end Utf8
