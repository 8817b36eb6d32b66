import Mathlib.Algebra.Ring.Rat
import CalvoProxy.Lib.Json
import CalvoProxy.Router.Agreement

/-!
# The sums of tokens

A request is admitted by sums of its input and output tokens, and its output is any `int64`. The
admission is exact if and only if no sum reaches `2 ^ 63` (`admission_exact_iff`).
-/

namespace CalvoProxy

open List Option Int64

open Json (Fields)

/-! ## What a body asks for -/

/-- `numericInt64`; the bound `math.MaxInt64` is `2 ^ 63` as a float, for which `int64(v)` is left
to the implementation (`converted`). -/
def numericInt64 (converted : Int64) : GoValue → Option Int64
  | .scalar (.number v) =>
    if 0 ≤ v ∧ v ≤ 2 ^ 63 ∧ v.isInt then
      some (if v = 2 ^ 63 then converted else Int64.ofInt v.num)
    else none
  | _ => none

/-- A decoded body and the length of its encoding, up to a bound at which the floats of the
estimates are exact. -/
structure DecodedBody where
  fields : Fields GoScalar
  encodedBytes : Nat
  allocated : encodedBytes ≤ 2 ^ 48

def DecodedBody.read (converted : Int64) (b : DecodedBody) : RequestBody where
  encodedBytes := b.encodedBytes
  maxCompletionTokens := (b.fields.lookup "max_completion_tokens").bind (numericInt64 converted)
  maxTokens := (b.fields.lookup "max_tokens").bind (numericInt64 converted)

/-! ## The context windows -/

/-- `parseContextWindows` drops a window without tokens. -/
def KnownWindow : Type :=
  { window : ContextWindow // 0 < window.contextTokens ∧ 0 ≤ window.outputReserveTokens }

abbrev ContextWindowIndex := GoMap String KnownWindow

def providerModelKey (provider model : String) : String :=
  GoString.toLower (GoString.trimSpace provider) ++ "\x00" ++ GoString.trimSpace model

def ContextWindow.clampReserve (window : ContextWindow) : ContextWindow :=
  if window.outputReserveTokens < 0 then { window with outputReserveTokens := 0 } else window

theorem ContextWindow.clampReserve_known {window : ContextWindow} (h : 0 < window.contextTokens) :
    0 < window.clampReserve.contextTokens ∧ 0 ≤ window.clampReserve.outputReserveTokens := by
  unfold clampReserve
  split
  · exact ⟨h, Int64.le_refl 0⟩
  · next hreserve => exact ⟨h, Int64.not_lt.mp hreserve⟩

def ContextWindow.known (window : ContextWindow) : Option KnownWindow :=
  if h : 0 < window.contextTokens then some ⟨window.clampReserve, clampReserve_known h⟩ else none

abbrev ContextWindowsSchema := List (String × List (String × ContextWindow))

def ContextWindowIndex.add (provider : String) (out : ContextWindowIndex)
    (entry : String × ContextWindow) : ContextWindowIndex :=
  match entry.2.known with
  | none => out
  | some window => out.insert (providerModelKey provider entry.1) window

def parseContextWindows (data : Option ContextWindowsSchema) : ContextWindowIndex :=
  (data.getD []).foldl (fun out entry => entry.2.foldl (ContextWindowIndex.add entry.1) out) ∅

/-- The windows that are built in, and over them those of the first readable file. -/
def loadContextWindows (builtin : ContextWindowsSchema)
    (files : List (Option (Option ContextWindowsSchema))) : ContextWindowIndex :=
  let base := parseContextWindows (some builtin)
  match files.findSome? id with
  | none => base
  | some data => (parseContextWindows data).entries.foldl (fun out e => out.insert e.1 e.2) base

def ContextWindow.output (window : ContextWindow) (estimate : QuotaEstimate) : Int64 :=
  if !estimate.outputExplicit && 0 < window.outputReserveTokens then window.outputReserveTokens
  else estimate.outputTokens

namespace ContextWindowIndex

variable (windows : ContextWindowIndex) (estimate : QuotaEstimate)

def window (a : ModelAttempt) : Option KnownWindow :=
  windows.lookup (providerModelKey a.provider.text a.model)

/-- The body of the loop of `filterContextFit`. -/
def fitStep (acc : List ModelAttempt × Nat) (a : ModelAttempt) : List ModelAttempt × Nat :=
  match windows.window a with
  | none => (acc.1 ++ [a], acc.2)
  | some window =>
    if window.val.contextTokens < estimate.inputTokens + window.val.output estimate then
      (acc.1, acc.2 + 1)
    else (acc.1 ++ [a], acc.2)

def filterContextFit (attempts : List ModelAttempt) : List ModelAttempt × Nat :=
  if windows.keys = [] then (attempts, 0) else attempts.foldl (windows.fitStep estimate) ([], 0)

def fits (a : ModelAttempt) : Bool :=
  (windows.window a).all fun window =>
    estimate.inputTokens + window.val.output estimate ≤ window.val.contextTokens

variable {windows : ContextWindowIndex} {estimate : QuotaEstimate} {attempts : List ModelAttempt}

theorem fitStep_eq (acc : List ModelAttempt × Nat) (a : ModelAttempt) :
    windows.fitStep estimate acc a =
      if windows.fits estimate a then (acc.1 ++ [a], acc.2) else (acc.1, acc.2 + 1) := by
  unfold fitStep fits
  cases windows.window a with
  | none => rfl
  | some window =>
    cases hfits : decide (estimate.inputTokens + window.val.output estimate ≤
        window.val.contextTokens) with
    | true =>
      have hle := of_decide_eq_true hfits
      simp only [all_some, hfits, if_true]
      exact if_neg (Int64.not_lt.mpr hle)
    | false =>
      have hlt := Int64.not_le.mp (of_decide_eq_false hfits)
      simp only [all_some, hfits]
      exact if_pos hlt

theorem foldl_fitStep (acc : List ModelAttempt × Nat) :
    attempts.foldl (windows.fitStep estimate) acc =
      (acc.1 ++ attempts.filter (windows.fits estimate),
        acc.2 + attempts.countP fun a => !windows.fits estimate a) := by
  induction attempts generalizing acc with
  | nil => simp
  | cons a rest ih =>
    rw [foldl_cons, ih, fitStep_eq]
    cases hfits : windows.fits estimate a with
    | true => simp [hfits]
    | false =>
      simp only [hfits, filter_cons, countP_cons, Bool.not_false, if_true,
        Bool.false_eq_true, if_false]
      rw [Nat.add_right_comm, Nat.add_assoc]

theorem filterContextFit_eq : windows.filterContextFit estimate attempts =
      (attempts.filter (windows.fits estimate),
        attempts.countP fun a => !windows.fits estimate a) := by
  unfold filterContextFit
  split
  · next hempty =>
    have hall : ∀ a, windows.fits estimate a = true := by
      intro a
      have hnone : windows.window a = none := by
        unfold window
        rw [AList.lookup_eq_none, AList.mem_keys, hempty]
        exact not_mem_nil
      rw [fits, hnone, all_none]
    have hnone : ∀ a ∈ attempts, ¬ (!windows.fits estimate a) = true := fun a _ => by simp [hall a]
    rw [filter_eq_self.mpr fun a _ => hall a, countP_eq_zero.mpr hnone]
  · rw [foldl_fitStep, nil_append, Nat.zero_add]

end ContextWindowIndex

/-- The answer that a body asks for, by the first usable limit. -/
def RequestBody.asked (body : RequestBody) : Option Int64 :=
  ([body.maxCompletionTokens, body.maxTokens].filterMap (·.filter (0 ≤ ·))).head?

theorem RequestBody.asked_nonneg {body : RequestBody} {n : Int64} (h : body.asked = some n) :
    0 ≤ n := by
  obtain ⟨limit, -, hlimit⟩ := mem_filterMap.mp (mem_of_mem_head? h)
  exact of_decide_eq_true (filter_eq_some_iff.mp hlimit).2

def Settings.defaultOutput (cfg : Settings) : Int64 :=
  cfg.envInt "PROXY_DEFAULT_OUTPUT_TOKENS" 1024

def Settings.providerOutputSetting (cfg : Settings) (a : ModelAttempt) : Int64 :=
  match a.provider with
  | .cerebras => cfg.envInt "PROXY_CEREBRAS_DEFAULT_MAX_COMPLETION_TOKENS" 32768
  | .groq => cfg.envInt "PROXY_GROQ_DEFAULT_MAX_COMPLETION_TOKENS" 4096
  | _ => cfg.defaultOutput

def Settings.providerDefaultOutput (cfg : Settings) (a : ModelAttempt) : Int64 :=
  if cfg.providerOutputSetting a < 0 then 0 else cfg.providerOutputSetting a

namespace DecodedBody

variable (cfg : Settings) (converted : Int64) (b : DecodedBody)

def input (bytesPerToken : Nat) : Int :=
  max 1 ((b.encodedBytes + (bytesPerToken - 1)) / bytesPerToken : Nat)

def output : Int64 := (b.read converted).asked.getD cfg.defaultOutput

def providerOutput (a : ModelAttempt) : Int64 :=
  (b.read converted).asked.getD (cfg.providerDefaultOutput a)

def windowOutput (window : ContextWindow) : Int64 :=
  (b.read converted).asked.getD
    (if 0 < window.outputReserveTokens then window.outputReserveTokens else cfg.defaultOutput)

end DecodedBody

def QuotaEstimate.Exact (e : QuotaEstimate) : Prop :=
  e.tokens.toInt = e.inputTokens.toInt + e.outputTokens.toInt

/-- The tokens are the sum of both sides, as far as an `int64` holds it. -/
structure QuotaEstimate.SumOf (e : QuotaEstimate) (input : Int) (output : Int64)
    (explicit : Bool) : Prop where
  input : e.inputTokens.toInt = input
  output : e.outputTokens = output
  tokens : e.tokens = e.inputTokens + e.outputTokens
  explicit : e.outputExplicit = explicit

theorem QuotaEstimate.SumOf.exact_iff {e : QuotaEstimate} {input : Int} {output : Int64}
    {explicit : Bool} (h : e.SumOf input output explicit) (hinput : 0 ≤ input) :
    e.Exact ↔ input + output.toInt < 2 ^ 63 := by
  unfold Exact
  rw [h.tokens, toInt_add_eq_iff (by rw [h.input]; exact hinput), h.input, h.output]

variable {cfg : Settings} {converted : Int64} {b : DecodedBody} {a : ModelAttempt}
  {windows : ContextWindowIndex} {attempts : List ModelAttempt}

theorem DecodedBody.input_pos (k : Nat) : 0 < b.input k := by
  unfold input
  omega

theorem toInt_inputTokens {k : Nat} (hk : 0 < k) (hk' : k ≤ 4) :
    (if Int64.ofNat ((b.encodedBytes + (k - 1)) / k) < 1 then 1
      else Int64.ofNat ((b.encodedBytes + (k - 1)) / k)).toInt = b.input k := by
  have hbound : (b.encodedBytes + (k - 1)) / k < 2 ^ 63 := by
    have hle := Nat.div_le_self (b.encodedBytes + (k - 1)) k
    have := b.allocated
    omega
  have hvalue : (Int64.ofNat ((b.encodedBytes + (k - 1)) / k)).toInt =
      ((b.encodedBytes + (k - 1)) / k : Nat) := toInt_ofNat_of_lt hbound
  unfold DecodedBody.input
  split
  · next hsmall =>
    rw [lt_iff_toInt_lt, hvalue] at hsmall
    rw [max_eq_left (by simpa using hsmall.le)]
    rfl
  · next hlarge =>
    rw [lt_iff_toInt_lt, hvalue] at hlarge
    rw [hvalue, max_eq_right (by simpa using hlarge)]

theorem estimateRequestQuota_sumOf :
    (estimateRequestQuota cfg (b.read converted)).SumOf (b.input 4) (b.output cfg converted)
      (b.read converted).asked.isSome := by
  have hinput := @toInt_inputTokens b 4 (by decide) (by decide)
  unfold estimateRequestQuota DecodedBody.output RequestBody.asked
  split
  · next output rest hasked =>
    rw [hasked]
    exact ⟨hinput, rfl, rfl, rfl⟩
  · next hasked =>
    rw [hasked]
    exact ⟨hinput, rfl, rfl, rfl⟩

theorem estimateRequestContext_sumOf :
    (estimateRequestContext cfg (b.read converted)).SumOf (b.input 3) (b.output cfg converted)
      (b.read converted).asked.isSome where
  input := @toInt_inputTokens b 3 (by decide) (by decide)
  output := estimateRequestQuota_sumOf.output
  tokens := by unfold estimateRequestContext; rfl
  explicit := estimateRequestQuota_sumOf.explicit

theorem providerQuotaEstimate_sumOf (a : ModelAttempt) :
    (providerQuotaEstimate cfg a (estimateRequestQuota cfg (b.read converted))).SumOf (b.input 4)
      (b.providerOutput cfg converted a) (b.read converted).asked.isSome := by
  have hsum := @estimateRequestQuota_sumOf cfg converted b
  have hpos : ¬ (estimateRequestQuota cfg (b.read converted)).inputTokens ≤ 0 := by
    rw [le_iff_toInt_le, hsum.input]
    exact Int.not_le.mpr (b.input_pos 4)
  have houtput := hsum.output
  have hexplicit := hsum.explicit
  unfold DecodedBody.output at houtput
  unfold providerQuotaEstimate DecodedBody.providerOutput
  cases hasked : (b.read converted).asked with
  | some n =>
    rw [hasked] at houtput hexplicit
    simp only [hexplicit, isSome_some, Bool.true_or, if_true]
    exact ⟨hsum.input, houtput, hsum.tokens, hexplicit⟩
  | none =>
    rw [hasked] at houtput hexplicit
    simp only [hexplicit, hpos, houtput, isSome_none, decide_false, Bool.or_self,
      Bool.false_eq_true, if_false]
    exact ⟨hsum.input, rfl, rfl, rfl⟩

theorem providerOutput_nonneg (a : ModelAttempt) : 0 ≤ b.providerOutput cfg converted a := by
  unfold DecodedBody.providerOutput
  cases hasked : (b.read converted).asked with
  | some n => exact RequestBody.asked_nonneg hasked
  | none =>
    show 0 ≤ cfg.providerDefaultOutput a
    unfold Settings.providerDefaultOutput
    split
    · exact Int64.le_refl 0
    · next h => exact Int64.not_lt.mp h

theorem output_estimateRequestContext (window : ContextWindow) :
    window.output (estimateRequestContext cfg (b.read converted)) =
      b.windowOutput cfg converted window := by
  have hsum := @estimateRequestContext_sumOf cfg converted b
  have houtput := hsum.output
  unfold DecodedBody.output at houtput
  unfold ContextWindow.output DecodedBody.windowOutput
  rw [hsum.explicit, houtput]
  cases (b.read converted).asked with
  | some n => rfl
  | none => simp

/-! ## Exact admission -/

section

variable (cfg : Settings) (converted : Int64) (windows : ContextWindowIndex) (b : DecodedBody)
  (attempts : List ModelAttempt)

/-- The three estimates are exact, every bucket for tokens is charged with those of the estimate,
and no attempt is kept beyond its window. -/
structure ExactAdmission : Prop where
  quota : (estimateRequestQuota cfg (b.read converted)).Exact
  provider : ∀ a ∈ attempts,
    (providerQuotaEstimate cfg a (estimateRequestQuota cfg (b.read converted))).Exact
  context : (estimateRequestContext cfg (b.read converted)).Exact
  reserved : ∀ a ∈ attempts, ∀ (w w' : World) (credential : String) (now : Time)
    (reservations : List QuotaReservation) (key : QuotaBucketKey),
    w.quotaReservations cfg a credential (estimateRequestQuota cfg (b.read converted)) now =
      (w', reservations) →
    key ∈ (w'.service.quota.keys now).2 → World.limitsAttempt cfg a credential key = true →
    key.dimension = .tokens →
      0 < (providerQuotaEstimate cfg a (estimateRequestQuota cfg (b.read converted))).tokens ∧
      ⟨key, (providerQuotaEstimate cfg a (estimateRequestQuota cfg (b.read converted))).tokens⟩ ∈
        reservations
  kept : ∀ a ∈ (windows.filterContextFit (estimateRequestContext cfg (b.read converted))
      attempts).1, ∀ window, windows.window a = some window →
      b.input 3 + (b.windowOutput cfg converted window.val).toInt ≤ window.val.contextTokens.toInt

structure Representable : Prop where
  quota : b.input 4 + (b.output cfg converted).toInt < 2 ^ 63
  provider : ∀ a ∈ attempts, b.input 4 + (b.providerOutput cfg converted a).toInt < 2 ^ 63
  context : b.input 3 + (b.output cfg converted).toInt < 2 ^ 63
  window : ∀ a ∈ attempts, ∀ window, windows.window a = some window →
    b.input 3 + (b.windowOutput cfg converted window.val).toInt < 2 ^ 63

end

theorem tokens_reserved {w w' : World} {credential : String} {now : Time}
    {reservations : List QuotaReservation} {key : QuotaBucketKey}
    (hsum : b.input 4 + (b.providerOutput cfg converted a).toInt < 2 ^ 63)
    (hreserve : w.quotaReservations cfg a credential
      (estimateRequestQuota cfg (b.read converted)) now = (w', reservations))
    (hkey : key ∈ (w'.service.quota.keys now).2)
    (hlimits : World.limitsAttempt cfg a credential key = true)
    (htokens : key.dimension = .tokens) :
    0 < (providerQuotaEstimate cfg a (estimateRequestQuota cfg (b.read converted))).tokens ∧
      ⟨key, (providerQuotaEstimate cfg a (estimateRequestQuota cfg (b.read converted))).tokens⟩ ∈
        reservations := by
  have hof := @providerQuotaEstimate_sumOf cfg converted b a
  have hexact := (hof.exact_iff (b.input_pos 4).le).mpr hsum
  have hpos : 0 < (providerQuotaEstimate cfg a
      (estimateRequestQuota cfg (b.read converted))).tokens := by
    have hinput := b.input_pos 4
    have houtput := le_iff_toInt_le.mp (@providerOutput_nonneg cfg converted b a)
    rw [lt_iff_toInt_lt, hexact, hof.input, hof.output]
    exact Int.add_pos_of_pos_of_nonneg hinput houtput
  have hcost : attemptCost cfg a (estimateRequestQuota cfg (b.read converted)) key =
      (providerQuotaEstimate cfg a (estimateRequestQuota cfg (b.read converted))).tokens :=
    if_pos htokens
  refine ⟨hpos, ?_⟩
  have hmem := (mem_quotaReservations_iff (r := ⟨key, _⟩)).mpr
    ⟨by rw [hreserve]; exact hkey, hlimits, by rw [hcost]; exact hpos, hcost.symm⟩
  rwa [hreserve] at hmem

theorem kept_iff {window : KnownWindow} (ha : a ∈ attempts)
    (hwindow : windows.window a = some window) :
    (a ∈ (windows.filterContextFit (estimateRequestContext cfg (b.read converted)) attempts).1 →
      b.input 3 + (b.windowOutput cfg converted window.val).toInt ≤
        window.val.contextTokens.toInt) ↔
      b.input 3 + (b.windowOutput cfg converted window.val).toInt < 2 ^ 63 := by
  have hsum := @estimateRequestContext_sumOf cfg converted b
  have hfits : a ∈ (windows.filterContextFit (estimateRequestContext cfg (b.read converted))
      attempts).1 ↔ (estimateRequestContext cfg (b.read converted)).inputTokens +
        b.windowOutput cfg converted window.val ≤ window.val.contextTokens := by
    rw [ContextWindowIndex.filterContextFit_eq, mem_filter, ContextWindowIndex.fits, hwindow,
      all_some, output_estimateRequestContext, decide_eq_true_eq]
    exact and_iff_right ha
  have hinput : 0 ≤ (estimateRequestContext cfg (b.read converted)).inputTokens.toInt := by
    rw [hsum.input]
    exact (b.input_pos 3).le
  rw [hfits, ← hsum.input]
  exact toInt_add_le_iff hinput (lt_iff_toInt_lt.mp window.property.1)

/-- The estimates, the reservations and the context filter are exact if and only if every sum is
below `2 ^ 63`. -/
theorem admission_exact_iff (cfg : Settings) (converted : Int64) (windows : ContextWindowIndex)
    (b : DecodedBody) (attempts : List ModelAttempt) :
    ExactAdmission cfg converted windows b attempts ↔
      Representable cfg converted windows b attempts := by
  have hquota := (@estimateRequestQuota_sumOf cfg converted b).exact_iff (b.input_pos 4).le
  have hcontext := (@estimateRequestContext_sumOf cfg converted b).exact_iff (b.input_pos 3).le
  have hprovider := fun a => (@providerQuotaEstimate_sumOf cfg converted b a).exact_iff
    (b.input_pos 4).le
  constructor
  · intro h
    exact {
      quota := hquota.mp h.quota
      provider := fun a ha => (hprovider a).mp (h.provider a ha)
      context := hcontext.mp h.context
      window := fun a ha window hwindow =>
        (kept_iff ha hwindow).mp fun hkept => h.kept a hkept window hwindow }
  · intro h
    exact {
      quota := hquota.mpr h.quota
      provider := fun a ha => (hprovider a).mpr (h.provider a ha)
      context := hcontext.mpr h.context
      reserved := fun a ha _ _ _ _ _ _ hreserve hkey hlimits htokens =>
        tokens_reserved (h.provider a ha) hreserve hkey hlimits htokens
      kept := fun a hkept window hwindow => by
        have ha : a ∈ attempts := by
          rw [ContextWindowIndex.filterContextFit_eq] at hkept
          exact mem_of_mem_filter hkept
        exact (kept_iff ha hwindow).mpr (h.window a ha window hwindow) hkept }

/-- A body of 4096 bytes that asks for `2 ^ 63 - 1024` tokens. -/
def hugeLimit : DecodedBody where
  fields := [("max_tokens", .scalar (.number 9223372036854774784)),
    ("prompt", .scalar (.string (String.ofList (List.replicate 4050 'a'))))]
  encodedBytes := 4096
  allocated := by decide

def smallWindow : ContextWindowIndex := loadContextWindows [("groq", [("m", ⟨8192, 0⟩)])] []

/-- The sum wraps: the attempt reserves no tokens, and is kept although its window has 8192. -/
theorem huge_limit_admitted :
    (estimateRequestQuota demoSettings (hugeLimit.read 0)).tokens.toInt = -2 ^ 63 ∧
    (((groqWorld 1).quotaReservations demoSettings groqAttempt "g"
      (estimateRequestQuota demoSettings (hugeLimit.read 0)) 9).2.map fun r => r.key.dimension) =
        [.requests, .requests] ∧
    ((((groqWorld 1).quotaReservations demoSettings groqAttempt "g"
      (estimateRequestQuota demoSettings (hugeLimit.read 0)) 9).1.service.quota.keys 9).2.any
        fun key => World.limitsAttempt demoSettings groqAttempt "g" key &&
          key.dimension = .tokens) = true ∧
    (smallWindow.window groqAttempt).map (·.val.contextTokens) = some 8192 ∧
    (smallWindow.filterContextFit (estimateRequestContext demoSettings (hugeLimit.read 0))
      [groqAttempt]).1 = [groqAttempt] := by
  refine ⟨?_, ?_, ?_, ?_, ?_⟩ <;> decide +kernel

end CalvoProxy
