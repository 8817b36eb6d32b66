import CalvoProxy.Lib.Machine

/-!
# Two runs of a machine that agree on some inputs

Two runs with the same `low` inputs give the same low outputs if their states can be related so that
other inputs keep the relation on their own side, and a low input that both take keeps it and gives
one output.
-/

namespace Machine

open List

variable {σ ι ο : Type} {step : σ → ι → Option (σ × ο)}

def lowSteps (low : ι → Prop) [DecidablePred low] (tr : List (Event σ ι ο)) : List (Event σ ι ο) :=
  tr.filter fun e => low e.input

def lowInputs (low : ι → Prop) [DecidablePred low] (tr : List (Event σ ι ο)) : List ι :=
  (lowSteps low tr).map Event.input

def lowOutputs (low : ι → Prop) [DecidablePred low] (tr : List (Event σ ι ο)) : List ο :=
  (lowSteps low tr).map Event.output

theorem lowInputs_eq (low : ι → Prop) [DecidablePred low] (tr : List (Event σ ι ο)) :
    lowInputs low tr = (tr.map Event.input).filter fun i => low i := by
  rw [filter_map]
  rfl

section Steps

variable {low : ι → Prop} [DecidablePred low] {tr : List (Event σ ι ο)} {e : Event σ ι ο}

theorem lowSteps_high (h : ¬low e.input) : lowSteps low (tr ++ [e]) = lowSteps low tr := by
  simp [lowSteps, h]

theorem lowSteps_low (h : low e.input) : lowSteps low (tr ++ [e]) = lowSteps low tr ++ [e] := by
  simp [lowSteps, h]

end Steps

/-- Low inputs look the same from both sides, and other inputs are not seen. -/
structure Unwinding (step : σ → ι → Option (σ × ο)) (low : ι → Prop) (ok : ι → Prop)
    (R : σ → σ → Prop) : Prop where
  symm : ∀ {s t}, R s t → R t s
  high : ∀ {s t i s' o}, R s t → ok i → ¬low i → step s i = some (s', o) → R s' t
  low : ∀ {s t i s' t' o p}, R s t → ok i → low i → step s i = some (s', o) →
    step t i = some (t', p) → R s' t' ∧ o = p

namespace Unwinding

variable {low ok : ι → Prop} [DecidablePred low] {R : σ → σ → Prop} {s0 t0 s t : σ}
  {tr tr' : List (Event σ ι ο)}

theorem unseen (h : Unwinding step low ok R) (h0 : R s0 t0) (hrun : Run step t0 tr t)
    (hok : ∀ e ∈ tr, ok e.input) (hnone : lowSteps low tr = []) : R s0 t := by
  induction hrun with
  | start => exact h0
  | @next tr u u' i o _ hstep ih =>
    have hi : ¬low i := by
      intro hi
      rw [lowSteps_low hi] at hnone
      simp at hnone
    rw [lowSteps_high hi] at hnone
    have hbefore := ih (fun e he => hok e (mem_append_left _ he)) hnone
    exact h.symm (h.high (h.symm hbefore) (hok ⟨u, i, o⟩ (by simp)) hi hstep)

theorem run (h : Unwinding step low ok R) (h0 : R s0 t0) (hrun : Run step s0 tr s)
    (hrun' : Run step t0 tr' t) (hok : ∀ e ∈ tr, ok e.input) (hok' : ∀ e ∈ tr', ok e.input)
    (hsame : lowInputs low tr = lowInputs low tr') :
    R s t ∧ lowOutputs low tr = lowOutputs low tr' := by
  induction hrun generalizing tr' t with
  | start =>
    have hnone : lowSteps low tr' = [] := by simpa [lowInputs, lowSteps] using hsame.symm
    exact ⟨h.unseen h0 hrun' hok' hnone, by rw [lowOutputs, lowOutputs, hnone]; rfl⟩
  | @next tr s s' i o hrun hstep ih =>
    have hoks : ∀ e ∈ tr, ok e.input := fun e he => hok e (mem_append_left _ he)
    have hoki : ok i := hok ⟨s, i, o⟩ (by simp)
    by_cases hi : low i
    · -- the other run takes the same low input last, up to inputs that are not low
      rw [lowInputs, lowSteps_low hi, map_append] at hsame
      induction hrun' with
      | start => simp [lowInputs, lowSteps] at hsame
      | @next tr' u u' j p hrun' hstep' ih' =>
        have hoks' : ∀ e ∈ tr', ok e.input := fun e he => hok' e (mem_append_left _ he)
        have hokj : ok j := hok' ⟨u, j, p⟩ (by simp)
        by_cases hj : low j
        · rw [lowInputs, lowSteps_low hj, map_append] at hsame
          obtain ⟨hinit, hlast⟩ := append_inj' hsame rfl
          have hij : i = j := by simpa using hlast
          subst hij
          obtain ⟨hbefore, houts⟩ := ih hrun' hoks hoks' hinit
          obtain ⟨hafter, hout⟩ := h.low hbefore hoki hi hstep hstep'
          refine ⟨hafter, ?_⟩
          rw [lowOutputs, lowSteps_low hi, lowOutputs, lowSteps_low hj, map_append, map_append]
          have houts' : List.map Event.output (lowSteps low tr) =
              List.map Event.output (lowSteps low tr') := houts
          rw [houts', map_singleton, map_singleton, hout]
        · rw [lowInputs, lowSteps_high hj] at hsame
          obtain ⟨hbefore, houts⟩ := ih' hoks' hsame
          refine ⟨h.symm (h.high (h.symm hbefore) hokj hj hstep'), ?_⟩
          rw [houts, lowOutputs, lowOutputs, lowSteps_high hj]
    · rw [lowInputs, lowSteps_high hi] at hsame
      obtain ⟨hbefore, houts⟩ := ih hrun' hoks hok' hsame
      refine ⟨h.high hbefore hoki hi hstep, ?_⟩
      rw [← houts, lowOutputs, lowOutputs, lowSteps_high hi]

end Unwinding

end Machine
