import Mathlib.Data.List.Basic

/-!
# Runs of a machine

A machine is a step function `step : σ → ι → Option (σ × ο)`, with `none` for a step that never
ends. A run records the state before each step, its input and its output.
-/

namespace Machine

open List

variable {i : Nat} {σ ι ο : Type} {s0 s s' : σ}

structure Event (σ ι ο : Type) where
  before : σ
  input : ι
  output : ο

/-- `Run step s0 tr s`: the steps `tr`, in order, lead from `s0` to `s`. -/
inductive Run (step : σ → ι → Option (σ × ο)) (s0 : σ) : List (Event σ ι ο) → σ → Prop
  | start : Run step s0 [] s0
  | next {tr : List (Event σ ι ο)} {s s' : σ} {i : ι} {o : ο} :
      Run step s0 tr s → step s i = some (s', o) → Run step s0 (tr ++ [⟨s, i, o⟩]) s'

def Reachable (step : σ → ι → Option (σ × ο)) (s0 s : σ) : Prop :=
  ∃ tr, Run step s0 tr s

/-- Run a list of inputs; `none` when a step never ends. -/
def exec (step : σ → ι → Option (σ × ο)) (s : σ) : List ι → Option (List (Event σ ι ο) × σ)
  | [] => some ([], s)
  | i :: is =>
    match step s i with
    | none => none
    | some (s', o) => (exec step s' is).map fun r => (⟨s, i, o⟩ :: r.1, r.2)

variable {step : σ → ι → Option (σ × ο)} {tr : List (Event σ ι ο)}

theorem Run.append {s1 s2 : σ} {tr1 tr2 : List (Event σ ι ο)}
    (h1 : Run step s0 tr1 s1) (h2 : Run step s1 tr2 s2) : Run step s0 (tr1 ++ tr2) s2 := by
  induction h2 with
  | start => rw [append_nil]; exact h1
  | next _ hs ih => rw [← append_assoc]; exact ih.next hs

theorem exec_run {is : List ι} (h : exec step s is = some (tr, s')) :
    Run step s tr s' ∧ tr.map Event.input = is := by
  induction is generalizing s tr with
  | nil =>
    cases h
    exact ⟨.start, rfl⟩
  | cons i is ih =>
    unfold exec at h
    split at h
    · cases h
    next s1 o hs =>
    obtain ⟨⟨tr', s''⟩, hrest, heq⟩ := Option.map_eq_some_iff.mp h
    cases heq
    obtain ⟨hrun, hinputs⟩ := ih hrest
    exact ⟨(Run.start.next hs).append hrun, by rw [map_cons, hinputs]⟩

theorem run_of_exec {is : List ι} (h : exec step s is = some (tr, s')) : Run step s tr s' :=
  (exec_run h).1

theorem exec_inputs {is : List ι} (h : exec step s is = some (tr, s')) : tr.map Event.input = is :=
  (exec_run h).2

theorem exists_run {P : List (Event σ ι ο) → σ → Prop} (is : List ι)
    (h : exec step s is = some (tr, s')) (hP : Run step s tr s' → P tr s') :
    ∃ tr s', Run step s tr s' ∧ P tr s' :=
  ⟨tr, s', run_of_exec h, hP (run_of_exec h)⟩

variable {P : σ → Prop} {Q : Event σ ι ο → Prop}

theorem Run.invariant (hstep : ∀ s i s' o, P s → Q ⟨s, i, o⟩ → step s i = some (s', o) → P s')
    (h0 : P s0) (h : Run step s0 tr s) (hq : ∀ e ∈ tr, Q e) : P s := by
  induction h with
  | start => exact h0
  | next _ hs ih =>
    refine hstep _ _ _ _ (ih fun e he => hq e ?_) (hq _ ?_) hs
    · exact mem_append_left _ he
    · simp

/-- If a step keeps the property `P` of histories exactly if it satisfies `Q`, then `P` holds
throughout a run exactly if all its steps satisfy `Q`. -/
theorem Run.throughout_iff {P : List (Event σ ι ο) → σ → Prop} (h0 : P [] s0)
    (hstep : ∀ tr s i s' o, Run step s0 tr s → P tr s → step s i = some (s', o) →
      (P (tr ++ [⟨s, i, o⟩]) s' ↔ Q ⟨s, i, o⟩))
    (h : Run step s0 tr s) :
    (∀ tr1 tr2 s1, tr = tr1 ++ tr2 → Run step s0 tr1 s1 → P tr1 s1) ↔ ∀ e ∈ tr, Q e := by
  constructor
  · intro hall
    induction h with
    | start => exact fun e he => nomatch he
    | @next tr s s' i o hrun hs ih =>
      intro e he
      rcases mem_append.mp he with hold | hnew
      · refine ih (fun tr1 tr2 s1 heq => hall tr1 (tr2 ++ [⟨s, i, o⟩]) s1 ?_) e hold
        rw [heq, append_assoc]
      · rw [mem_singleton.mp hnew]
        have hbefore : P tr s := hall tr _ s rfl hrun
        exact (hstep tr s i s' o hrun hbefore hs).mp
          (hall _ [] s' (append_nil _).symm (hrun.next hs))
  · intro hq tr1 tr2 s1 heq hrun
    have hq1 : ∀ e ∈ tr1, Q e := fun e he => hq e (heq ▸ mem_append_left _ he)
    clear heq
    induction hrun with
    | start => exact h0
    | @next tr s s' i o hrun hs ih =>
      have hbefore : P tr s := ih fun e he => hq1 e (mem_append_left _ he)
      exact (hstep tr s i s' o hrun hbefore hs).mpr (hq1 _ (by simp))

theorem Reachable.invariant (hstep : ∀ s i s' o, P s → step s i = some (s', o) → P s')
    (h0 : P s0) (h : Reachable step s0 s) : P s := by
  obtain ⟨tr, hrun⟩ := h
  exact hrun.invariant (Q := fun _ => True) (fun s i s' o hp _ hs => hstep s i s' o hp hs) h0
    fun _ _ => trivial

variable {e : Event σ ι ο}

theorem Run.event_step (h : Run step s0 tr s) (he : e ∈ tr) :
    ∃ s', step e.before e.input = some (s', e.output) := by
  induction h with
  | start => cases he
  | next _ hs ih =>
    rcases mem_append.mp he with hold | hnew
    · exact ih hold
    · rw [mem_singleton.mp hnew]
      exact ⟨_, hs⟩

theorem Run.split_at (h : Run step s0 tr s) (he : tr[i]? = some e) :
    ∃ s', Run step s0 (tr.take i) e.before ∧ step e.before e.input = some (s', e.output) ∧
      Run step s' (tr.drop (i + 1)) s := by
  induction h with
  | start => cases he
  | @next tr s s' i' o hrun hs ih =>
    rcases Nat.lt_trichotomy i tr.length with hlt | heq | hgt
    · rw [List.getElem?_append_left hlt] at he
      obtain ⟨s1, hbefore, hstep, hafter⟩ := ih he
      rw [take_append_of_le_length (Nat.le_of_lt hlt), drop_append_of_le_length hlt]
      exact ⟨s1, hbefore, hstep, hafter.next hs⟩
    · subst heq
      rw [List.getElem?_concat_length] at he
      cases he
      refine ⟨s', ?_, hs, ?_⟩
      · simpa using hrun
      · simpa using Run.start
    · rw [List.getElem?_eq_none (by simp; omega)] at he
      cases he

theorem Run.invariant_after (hstep : ∀ s i s' o, P s → Q ⟨s, i, o⟩ → step s i = some (s', o) → P s')
    (h : Run step s0 tr s) (hq : ∀ e ∈ tr, Q e) {j : Nat} {e' : Event σ ι ο} (hij : i < j)
    (he : tr[i]? = some e) (he' : tr[j]? = some e')
    (hfirst : ∀ s', step e.before e.input = some (s', e.output) → P s') : P e'.before := by
  obtain ⟨_, hbefore, _, _⟩ := h.split_at he'
  rw [← List.getElem?_take_of_lt hij] at he
  obtain ⟨s1, _, hs, hbetween⟩ := hbefore.split_at he
  refine hbetween.invariant hstep (hfirst s1 hs) fun e1 h1 => hq e1 ?_
  exact mem_of_mem_take (mem_of_mem_drop h1)

theorem Reachable.run (h : Reachable step s0 s) (hr : Run step s tr s') : Reachable step s0 s' := by
  obtain ⟨tr0, h0⟩ := h
  exact ⟨tr0 ++ tr, h0.append hr⟩

end Machine
