import Mathlib.Data.Rat.Floor
import CalvoProxy.Router.TokenSums

/-!
# Limits of the output

`clampRequestMaxTokens` lowers `max_completion_tokens` and `max_tokens` to the cap of the proxy, up
to the values it does not see (`clamp_caps_iff`). `requestPolicyFacts` shows the policy the second
key only, while the quota estimate goes by the first (`policyLimit_kept_iff`).
-/

namespace CalvoProxy

open List Option Int64

open Json (Fields)

variable (convert : Rat → Int64)

/-- `int(v)`, which is left to the implementation (`convert`) where no `int` holds it. -/
def floatToInt (v : Rat) : Int64 :=
  let n := if 0 ≤ v then v.floor else v.ceil
  if -2 ^ 63 ≤ n ∧ n < 2 ^ 63 then Int64.ofInt n else convert v

def requestedMaxTokens : GoValue → Option Int64
  | .scalar (.number v) => some (floatToInt convert v)
  | .scalar (.string s) =>
    if GoString.trimSpace s = "" then none else parseInt64 (GoString.trimSpace s)
  | _ => none

def outputKeys : List String := ["max_completion_tokens", "max_tokens"]

def clampField (maximum : Int64) (body : Fields GoScalar) (key : String) :
    Fields GoScalar :=
  match (body.lookup key).bind (requestedMaxTokens convert) with
  | some value => if maximum < value then
      Json.set key (.scalar (.number maximum.toInt)) body else body
  | none => body

def clampRequestMaxTokens (maximum : Int64) (body : Fields GoScalar) :
    Fields GoScalar :=
  if maximum ≤ 0 then body
  else
    let body := outputKeys.foldl (clampField convert maximum) body
    if (body.lookup "max_completion_tokens").isNone && (body.lookup "max_tokens").isNone then
      Json.set "max_tokens" (.scalar (.number maximum.toInt)) body
    else body

def decimal (raw : String) : Option Int :=
  match raw.toList with
  | '-' :: cs => (digits cs).map (- ·)
  | '+' :: cs => digits cs
  | cs => digits cs
where
  digits (cs : List Char) : Option Int :=
    if cs.isEmpty then none else (parseDigits 0 cs).map (↑)

def numeral : GoValue → Option Rat
  | .scalar (.number v) => some v
  | .scalar (.string s) => (decimal (GoString.trimSpace s)).map (↑)
  | _ => none

/-- One of the keys holds a number, none is above the cap, and an integer below it is still
there. -/
structure Capped (maximum : Int64) (body body' : Fields GoScalar) : Prop where
  named : ∃ key ∈ outputKeys, ∃ value n, body'.lookup key = some value ∧ numeral value = some n
  capped : ∀ key ∈ outputKeys, ∀ value n, body'.lookup key = some value → numeral value = some n →
    n ≤ maximum.toInt
  kept : ∀ key ∈ outputKeys, ∀ value (n : Int), body.lookup key = some value →
    numeral value = some (n : Rat) → 0 ≤ n → n ≤ maximum.toInt → body'.lookup key = some value

/-- What a number that no `int` holds is read as. -/
def beyond : GoValue → Option Int64
  | .scalar (.number v) => some (convert v)
  | _ => none

/-- A value above the cap that is not read as such: by its fraction, or as no `int` holds it. -/
def Slips (maximum : Int64) (value : GoValue) : Prop :=
  ∃ n, numeral value = some n ∧ ((maximum.toInt < n ∧ n < maximum.toInt + 1) ∨
    (2 ^ 63 ≤ n ∧ ∀ read, beyond convert value = some read → read ≤ maximum))

section Clamp

variable {convert} {maximum : Int64} {body : Fields GoScalar} {key : String}
  {value : GoValue} {n : Rat}

theorem parseInt64_eq (raw : String) : parseInt64 raw = (decimal raw).bind fun n =>
      if -2 ^ 63 ≤ n ∧ n < 2 ^ 63 then some (Int64.ofInt n) else none := by
  have hdigits : ∀ (negative : Bool) (cs : List Char),
      (if cs.isEmpty then none else (parseDigits 0 cs).bind fun n =>
        let value : Int := if negative then -n else n
        if -2 ^ 63 ≤ value ∧ value < 2 ^ 63 then some (Int64.ofInt value) else none) =
        ((decimal.digits cs).map fun n => if negative then -n else n).bind fun n =>
          if -2 ^ 63 ≤ n ∧ n < 2 ^ 63 then some (Int64.ofInt n) else none := by
    intro negative cs
    unfold decimal.digits
    split
    · rfl
    · cases parseDigits 0 cs <;> rfl
  cases hraw : raw.toList with
  | nil =>
    rw [@parseInt64_of_digits raw false [] (by rw [hraw]), decimal, hraw]
    rfl
  | cons c cs =>
    by_cases hminus : c = '-'
    · subst hminus
      rw [@parseInt64_of_digits raw true cs (by rw [hraw]; rfl), hdigits, decimal, hraw]
      rfl
    by_cases hplus : c = '+'
    · subst hplus
      rw [@parseInt64_of_digits raw false cs (by rw [hraw]; rfl), hdigits, decimal, hraw]
      simp
    · rw [@parseInt64_of_digits raw false (c :: cs) (by simp [hraw, hminus, hplus]), hdigits, decimal,
        hraw]
      simp [hminus, hplus]

theorem toInt_ofInt {n : Int} (h : -2 ^ 63 ≤ n ∧ n < 2 ^ 63) : (Int64.ofInt n).toInt = n :=
  toInt_ofInt_of_le h.1 h.2

theorem requestedMaxTokens_eq (hn : numeral value = some n) (hpos : 0 ≤ n) :
    requestedMaxTokens convert value =
      if n.floor < 2 ^ 63 then some (Int64.ofInt n.floor) else beyond convert value := by
  have hrange : (-2 ^ 63 ≤ n.floor ∧ n.floor < 2 ^ 63) ↔ n.floor < 2 ^ 63 := by
    have hfloor : 0 ≤ n.floor := Rat.le_floor_iff.mpr hpos
    exact and_iff_right (le_trans (by decide) hfloor)
  cases value with
  | arr items | obj fields => cases hn
  | scalar s =>
    cases s with
    | null | bool b => cases hn
    | number v =>
      obtain rfl : v = n := Option.some.inj hn
      simp only [requestedMaxTokens, floatToInt, hpos, if_true, hrange, beyond]
      split <;> rfl
    | string s =>
      obtain ⟨d, hd, rfl⟩ := map_eq_some_iff.mp hn
      have htext : GoString.trimSpace s ≠ "" := by
        intro hempty
        rw [hempty] at hd
        cases hd
      rw [Rat.floor_intCast] at hrange ⊢
      simp only [requestedMaxTokens, if_neg htext, parseInt64_eq, hd, bind_some, hrange, beyond]

theorem above_iff (hmax : 0 < maximum) (hn : numeral value = some n) (habove : maximum.toInt < n) :
    (∃ read, requestedMaxTokens convert value = some read ∧ maximum < read) ↔
      ¬Slips convert maximum value := by
  have hzero : (0 : Int) < maximum.toInt := lt_iff_toInt_lt.mp hmax
  have hpos : 0 ≤ n := le_trans (Int.cast_nonneg hzero.le) habove.le
  have hslips : Slips convert maximum value ↔ n < maximum.toInt + 1 ∨
      (2 ^ 63 ≤ n ∧ ∀ read, beyond convert value = some read → read ≤ maximum) := by
    simp [Slips, hn, habove]
  rw [requestedMaxTokens_eq hn hpos, hslips]
  by_cases hrange : n.floor < 2 ^ 63
  · have hsmall : ¬2 ^ 63 ≤ n := not_le.mpr (Rat.floor_lt_iff.mp hrange)
    have hfloor : -2 ^ 63 ≤ n.floor := le_trans (by decide) (Rat.le_floor_iff.mpr hpos)
    simp only [hrange, if_true, Option.some.injEq, exists_eq_left', lt_iff_toInt_lt,
      toInt_ofInt ⟨hfloor, hrange⟩, hsmall, false_and, or_false, not_lt]
    rw [← Int.add_one_le_iff, Rat.le_floor_iff, Int.cast_add, Int.cast_one]
  · have hbig : 2 ^ 63 ≤ n := Rat.le_floor_iff.mp (not_lt.mp hrange)
    have hfar : ¬n < maximum.toInt + 1 := by
      have hle : ((maximum.toInt + 1 : Int) : Rat) ≤ ((2 ^ 63 : Int) : Rat) :=
        Int.cast_le.mpr maximum.toInt_lt
      push_cast at hle
      exact not_lt.mpr (hle.trans hbig)
    simp only [hrange, if_false, hfar, hbig, true_and, false_or, not_forall, Int64.not_le,
      exists_prop]

theorem not_above {n : Int} (hn : numeral value = some (n : Rat)) (hzero : 0 ≤ n)
    (hle : n ≤ maximum.toInt) :
    ¬∃ read, requestedMaxTokens convert value = some read ∧ maximum < read := by
  have hlt : n < 2 ^ 63 := hle.trans_lt maximum.toInt_lt
  rintro ⟨read, hread, hover⟩
  rw [requestedMaxTokens_eq hn (Int.cast_nonneg hzero), Rat.floor_intCast, if_pos hlt] at hread
  cases hread
  rw [lt_iff_toInt_lt, toInt_ofInt ⟨le_trans (by decide) hzero, hlt⟩] at hover
  exact not_lt.mpr hle hover

theorem numeral_of_read {read : Int64} (h : requestedMaxTokens convert value = some read) :
    ∃ n, numeral value = some n := by
  cases value with
  | arr items | obj fields => cases h
  | scalar s =>
    cases s with
    | null | bool b => cases h
    | number v => exact ⟨v, rfl⟩
    | string s =>
      simp only [requestedMaxTokens] at h
      split at h
      · cases h
      · rw [parseInt64_eq] at h
        obtain ⟨d, hd, -⟩ := bind_eq_some_iff.mp h
        exact ⟨d, by rw [numeral, hd, map_some]⟩

theorem Slips.above (h : Slips convert maximum value) :
    ∃ n, numeral value = some n ∧ maximum.toInt < n := by
  obtain ⟨n, hn, ⟨habove, -⟩ | ⟨hbig, -⟩⟩ := h
  · exact ⟨n, hn, habove⟩
  · have hlt : (maximum.toInt : Rat) < ((2 ^ 63 : Int) : Rat) := Int.cast_lt.mpr maximum.toInt_lt
    push_cast at hlt
    exact ⟨n, hn, hlt.trans_le hbig⟩

def cap (maximum : Int64) : GoValue := .scalar (.number maximum.toInt)

def clampValue (convert : Rat → Int64) (maximum : Int64) (value : GoValue) : GoValue :=
  if (requestedMaxTokens convert value).any (maximum < ·) then cap maximum else value

theorem lookup_clampField (key other : String) :
    (clampField convert maximum body key).lookup other =
      if other = key then (body.lookup key).map (clampValue convert maximum)
      else body.lookup other := by
  have hsame : (if other = key then body.lookup key else body.lookup other) = body.lookup other := by
    split
    · next heq => rw [heq]
    · rfl
  unfold clampField
  cases hvalue : body.lookup key with
  | none => exact (hvalue ▸ hsame).symm
  | some value =>
    rw [hvalue] at hsame
    simp only [bind_some, map_some, clampValue]
    cases requestedMaxTokens convert value with
    | none => exact hsame.symm
    | some read =>
      simp only [any_some, decide_eq_true_eq]
      split
      · rw [Json.lookup_set]
        rfl
      · exact hsame.symm

theorem lookup_clamp (hmax : 0 < maximum) (hkey : key ∈ outputKeys) :
    (clampRequestMaxTokens convert maximum body).lookup key =
      if ∀ key ∈ outputKeys, body.lookup key = none then
        if key = "max_tokens" then some (cap maximum) else none
      else (body.lookup key).map (clampValue convert maximum) := by
  have hloop : ∀ key ∈ outputKeys, (outputKeys.foldl (clampField convert maximum) body).lookup key =
      (body.lookup key).map (clampValue convert maximum) := by
    intro key hkey
    simp only [outputKeys, mem_cons, not_mem_nil, or_false] at hkey
    rcases hkey with rfl | rfl <;> simp [outputKeys, lookup_clampField]
  unfold clampRequestMaxTokens
  rw [if_neg (Int64.not_le.mpr hmax)]
  simp only [hloop "max_completion_tokens" (by decide), hloop "max_tokens" (by decide), isNone_map]
  have hnone : (∀ key ∈ outputKeys, body.lookup key = none) ↔
      ((body.lookup "max_completion_tokens").isNone && (body.lookup "max_tokens").isNone) = true := by
    simp [outputKeys]
  simp only [hnone]
  split
  · next h =>
    rw [Json.lookup_set, hloop key hkey, hnone.mpr h key hkey]
    rfl
  · exact hloop key hkey

def NamesNumber (body : Fields GoScalar) : Prop :=
  (∀ key ∈ outputKeys, body.lookup key = none) ∨
    ∃ key ∈ outputKeys, ∃ value n, body.lookup key = some value ∧ numeral value = some n

theorem numeral_clampValue (hn : numeral value = some n) :
    ∃ n, numeral (clampValue convert maximum value) = some n := by
  unfold clampValue
  split
  · exact ⟨_, rfl⟩
  · exact ⟨n, hn⟩

theorem over_iff : (requestedMaxTokens convert value).any (maximum < ·) = true ↔
    ∃ read, requestedMaxTokens convert value = some read ∧ maximum < read := by
  cases requestedMaxTokens convert value <;> simp

/-- The cap applies exactly if the body names a number and no value slips. -/
theorem clamp_caps_iff (convert : Rat → Int64) (maximum : Int64) (body : Fields GoScalar)
    (hmax : 0 < maximum) :
    Capped maximum body (clampRequestMaxTokens convert maximum body) ↔
      NamesNumber body ∧ ∀ key ∈ outputKeys, ∀ value, body.lookup key = some value →
        ¬Slips convert maximum value := by
  by_cases hnone : ∀ key ∈ outputKeys, body.lookup key = none
  · -- the body names nothing, and gets the cap
    have hafter := fun key hkey =>
      (@lookup_clamp convert maximum body key hmax hkey).trans (if_pos hnone)
    refine iff_of_true ⟨⟨"max_tokens", by decide, cap maximum, _, hafter _ (by decide), rfl⟩, ?_, ?_⟩
      ⟨.inl hnone, fun key hkey value hvalue => ?_⟩
    · intro key hkey value n hvalue hn
      rw [hafter key hkey] at hvalue
      split at hvalue
      · cases hvalue
        cases hn
        exact le_rfl
      · cases hvalue
    · intro key hkey value n hvalue
      rw [hnone key hkey] at hvalue
      cases hvalue
    · rw [hnone key hkey] at hvalue
      cases hvalue
  · have hafter := fun key hkey =>
      (@lookup_clamp convert maximum body key hmax hkey).trans (if_neg hnone)
    constructor
    · intro h
      refine ⟨.inr ?_, fun key hkey value hvalue hslips => ?_⟩
      · obtain ⟨key, hkey, value', n, hvalue', hn⟩ := h.named
        rw [hafter key hkey] at hvalue'
        obtain ⟨value, hvalue, rfl⟩ := map_eq_some_iff.mp hvalue'
        unfold clampValue at hn
        split at hn
        · next hover =>
          obtain ⟨read, hread, -⟩ := over_iff.mp hover
          obtain ⟨n, hn⟩ := numeral_of_read hread
          exact ⟨key, hkey, value, n, hvalue, hn⟩
        · exact ⟨key, hkey, value, n, hvalue, hn⟩
      · obtain ⟨n, hn, habove⟩ := hslips.above
        have hover : ¬(requestedMaxTokens convert value).any (maximum < ·) = true := fun hover =>
          (above_iff hmax hn habove).mp (over_iff.mp hover) hslips
        have hkept := hafter key hkey
        rw [hvalue, map_some, clampValue, if_neg hover] at hkept
        exact not_le.mpr habove (h.capped key hkey value n hkept hn)
    · rintro ⟨hnames, hslips⟩
      refine ⟨?_, fun key hkey value' n hvalue' hn => ?_,
        fun key hkey value n hvalue hn hzero hle => ?_⟩
      · obtain ⟨key, hkey, value, n, hvalue, hn⟩ := hnames.resolve_left hnone
        obtain ⟨n', hn'⟩ := @numeral_clampValue convert maximum value n hn
        exact ⟨key, hkey, _, n', by rw [hafter key hkey, hvalue, map_some], hn'⟩
      · rw [hafter key hkey] at hvalue'
        obtain ⟨value, hvalue, rfl⟩ := map_eq_some_iff.mp hvalue'
        unfold clampValue at hn
        split at hn
        · cases hn
          exact le_rfl
        · next hover =>
          by_contra habove
          exact hover (over_iff.mpr ((above_iff hmax hn (not_le.mp habove)).mpr
            (hslips key hkey value hvalue)))
      · have hover : ¬(requestedMaxTokens convert value).any (maximum < ·) = true := by
          rw [over_iff]
          exact not_above hn hzero hle
        rw [hafter key hkey, hvalue, map_some, clampValue, if_neg hover]

theorem asked_output_capped : Capped 3072 [("max_tokens", .scalar (.number 64000))]
      (clampRequestMaxTokens (fun _ => 0) 3072 [("max_tokens", .scalar (.number 64000))]) := by
  refine (clamp_caps_iff _ _ _ (by decide)).mpr
    ⟨.inr ⟨"max_tokens", by decide, _, 64000, rfl, rfl⟩, fun key hkey value hvalue => ?_⟩
  simp only [outputKeys, mem_cons, not_mem_nil, or_false] at hkey
  rcases hkey with rfl | rfl
  · cases hvalue
  · cases hvalue
    rintro ⟨n, hn, ⟨-, h⟩ | ⟨h, -⟩⟩ <;> cases hn <;> exact absurd h (by decide +kernel)

/-- A limit of `null` counts as one, and one beyond every `int` may stay. -/
theorem null_and_huge_uncapped : (∀ convert, ¬Capped 3072 [("max_tokens", .scalar .null)]
      (clampRequestMaxTokens convert 3072 [("max_tokens", .scalar .null)])) ∧
    ¬Capped 3072 [("max_tokens", .scalar (.number (10 ^ 19)))]
      (clampRequestMaxTokens (fun _ => Int64.minValue) 3072
        [("max_tokens", .scalar (.number (10 ^ 19)))]) := by
  constructor
  · intro convert h
    obtain ⟨key, hkey, value, n, hvalue, hn⟩ := h.named
    simp only [outputKeys, mem_cons, not_mem_nil, or_false] at hkey
    rcases hkey with rfl | rfl
    · cases hvalue
    · cases hvalue
      cases hn
  · intro h
    have hcap := h.capped "max_tokens" (by decide) (.scalar (.number (10 ^ 19))) (10 ^ 19) rfl rfl
    revert hcap
    decide +kernel

end Clamp

/-! ## The limit of a policy -/

/-- `RequestedLimits.MaxTokens` of `requestPolicyFacts`. -/
def policyMaxTokens (body : Fields GoScalar) : Int64 :=
  ((body.lookup "max_tokens").bind (requestedMaxTokens convert)).getD 0

/-- `validateDecisionLimits` for tokens; a limit of zero is none. -/
def withinLimit (limit requested : Int64) : Bool := !(0 < limit && limit < requested)

section Policy

variable {convert} {limit : Int64} {b : DecodedBody}

theorem requestedMaxTokens_of_numeric {value : GoValue} {n : Int64}
    (h : numericInt64 (convert (2 ^ 63)) value = some n) :
    requestedMaxTokens convert value = some n := by
  unfold numericInt64 at h
  split at h
  · next v =>
    split at h
    · next hv =>
      obtain ⟨hzero, hle, hint⟩ := hv
      have hfloor : ((v.floor : Int) : Rat) = v := by
        rw [Rat.eq_num_of_isInt hint, Rat.floor_intCast]
      have hnum : v.floor = v.num := Rat.intCast_inj.mp (hfloor.trans (Rat.eq_num_of_isInt hint))
      rw [requestedMaxTokens_eq rfl hzero, ← h, ← hnum]
      by_cases htop : v = 2 ^ 63
      · rw [if_pos htop, if_neg, htop]
        · rfl
        · rw [htop]
          decide +kernel
      · rw [if_neg htop, if_pos]
        exact Rat.floor_lt_iff.mpr (lt_of_le_of_ne hle htop)
    · cases h
  · cases h

theorem asked_eq_some_iff {body : RequestBody} {n : Int64} :
    body.asked = some n ↔ (body.maxCompletionTokens = some n ∧ 0 ≤ n) ∨
      (body.maxCompletionTokens.filter (0 ≤ ·) = none ∧ body.maxTokens = some n ∧ 0 ≤ n) := by
  have hfilter : ∀ o : Option Int64, o.filter (0 ≤ ·) = some n ↔ o = some n ∧ 0 ≤ n := by
    simp [filter_eq_some_iff]
  unfold RequestBody.asked
  rw [← hfilter, ← hfilter, filterMap_cons]
  cases body.maxCompletionTokens.filter (0 ≤ ·) with
  | some k => simp
  | none =>
    rw [filterMap_cons]
    cases body.maxTokens.filter (0 ≤ ·) <;> simp

/-- A request above the limit of the policy is refused exactly if a whole number above it under the
first key comes with a value above it under the second. -/
theorem policyLimit_kept_iff (cfg : Settings) (convert : Rat → Int64) (limit : Int64)
    (b : DecodedBody) (hlimit : 0 < limit) :
    ((estimateRequestQuota cfg (b.read (convert (2 ^ 63)))).outputExplicit = true →
      limit < (estimateRequestQuota cfg (b.read (convert (2 ^ 63)))).outputTokens →
      withinLimit limit (policyMaxTokens convert b.fields) = false) ↔
    ∀ n, (b.fields.lookup "max_completion_tokens").bind (numericInt64 (convert (2 ^ 63))) = some n →
      limit < n → ∃ value read, b.fields.lookup "max_tokens" = some value ∧
        requestedMaxTokens convert value = some read ∧ limit < read := by
  have hsum := @estimateRequestQuota_sumOf cfg (convert (2 ^ 63)) b
  have hrefused : withinLimit limit (policyMaxTokens convert b.fields) = false ↔
      ∃ value read, b.fields.lookup "max_tokens" = some value ∧
        requestedMaxTokens convert value = some read ∧ limit < read := by
    have hover : withinLimit limit (policyMaxTokens convert b.fields) = false ↔
        limit < policyMaxTokens convert b.fields := by
      simp [withinLimit, hlimit]
    rw [hover, policyMaxTokens]
    constructor
    · intro h
      cases hread : (b.fields.lookup "max_tokens").bind (requestedMaxTokens convert) with
      | none =>
        rw [hread] at h
        exact absurd (Int64.lt_trans h hlimit) Int64.lt_irrefl
      | some read =>
        rw [hread] at h
        obtain ⟨value, hvalue, hread⟩ := bind_eq_some_iff.mp hread
        exact ⟨value, read, hvalue, hread, h⟩
    · rintro ⟨value, read, hvalue, hread, h⟩
      rw [hvalue, bind_some, hread]
      exact h
  rw [hrefused, hsum.explicit, hsum.output, DecodedBody.output]
  constructor
  · intro h n hn hover
    have hasked : (b.read (convert (2 ^ 63))).asked = some n :=
      asked_eq_some_iff.mpr (.inl ⟨hn, Int64.le_of_lt (Int64.lt_trans hlimit hover)⟩)
    rw [hasked] at h
    exact h rfl hover
  · intro h hexplicit hover
    obtain ⟨n, hasked⟩ := isSome_iff_exists.mp hexplicit
    rw [hasked] at hover
    rcases asked_eq_some_iff.mp hasked with ⟨hn, -⟩ | ⟨-, hn, -⟩
    · exact h n hn hover
    · obtain ⟨value, hvalue, hnumeric⟩ := bind_eq_some_iff.mp hn
      exact ⟨value, n, hvalue, requestedMaxTokens_of_numeric hnumeric, hover⟩

def namedOutput (key : String) : DecodedBody where
  fields := [(key, .scalar (.number 100000))]
  encodedBytes := 40
  allocated := Nat.le_of_ble_eq_true rfl

theorem maxTokens_refused :
    withinLimit 1000 (policyMaxTokens (fun _ => 0) (namedOutput "max_tokens").fields) = false :=
  (policyLimit_kept_iff demoSettings (fun _ => 0) 1000 (namedOutput "max_tokens") (by decide)).mpr
    (fun n hn => by cases hn) (by decide +kernel) (by decide +kernel)

/-- Under the first key, the same number passes. -/
theorem maxCompletionTokens_passes :
    (estimateRequestQuota demoSettings ((namedOutput "max_completion_tokens").read 0)).outputTokens =
        100000 ∧
      withinLimit 1000 (policyMaxTokens (fun _ => 0) (namedOutput "max_completion_tokens").fields) =
        true := by
  decide +kernel

end Policy

end CalvoProxy
