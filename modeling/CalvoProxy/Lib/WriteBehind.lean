import CalvoProxy.Lib.Machine
import Mathlib.Logic.Function.Basic

/-!
# Saving behind a dirty flag

A change alters the memory and raises a flag; a save takes it down, takes a snapshot and replaces
the file, or raises the flag again. The steps of all interleave. A snapshot may tidy the memory up
(`Tidy`). The fields `latest`, `version` and `shown` are not part of the program.
-/

namespace WriteBehind

open Function

inductive Phase (φ : Type)
  | idle
  | swapped
  | taken (version : Nat) (file : φ)

structure State (ι μ φ : Type) where
  memory : μ
  /-- changes that have not raised the flag yet -/
  unmarked : Nat
  dirty : Bool
  calls : ι → Phase φ
  disk : Option φ
  clock : Int
  latest : μ
  version : Nat
  shown : Nat

inductive Op (ι μ : Type)
  | mutate (f : μ → μ)
  | mark
  | swap (i : ι)
  | snapshot (i : ι) (now : Int)
  | replace (i : ι)
  | fail (i : ι)

variable {ι μ φ : Type}

def State.start (m : μ) (disk : Option φ) (now : Int) : State ι μ φ :=
  ⟨m, 0, false, fun _ => .idle, disk, now, m, 0, 0⟩

/-- One step; none where a call is not at that point. -/
def step [DecidableEq ι] (snap : Int → μ → μ × φ) (s : State ι μ φ) :
    Op ι μ → Option (State ι μ φ × Unit)
  | .mutate f =>
    some ({ s with
      memory := f s.memory
      latest := f s.memory
      version := s.version + 1
      unmarked := s.unmarked + 1 }, ())
  | .mark =>
    if s.unmarked = 0 then none
    else some ({ s with unmarked := s.unmarked - 1, dirty := true }, ())
  | .swap i =>
    match s.calls i with
    | .idle =>
      -- a call that finds the flag down returns at once
      if s.dirty then
        some ({ s with dirty := false, calls := update s.calls i .swapped }, ())
      else some (s, ())
    | _ => none
  | .snapshot i now =>
    match s.calls i with
    | .swapped =>
      if s.clock ≤ now then
        some ({ s with
          memory := (snap now s.memory).1
          clock := now
          calls := update s.calls i (.taken s.version (snap now s.memory).2) }, ())
      else none
    | _ => none
  | .replace i =>
    match s.calls i with
    | .taken version file =>
      some ({ s with
        disk := some file
        shown := version
        calls := update s.calls i .idle }, ())
    | _ => none
  | .fail i =>
    match s.calls i with
    | .taken _ _ =>
      some ({ s with dirty := true, calls := update s.calls i .idle }, ())
    | _ => none

/-- No call is under way, every change raised the flag and it is down. -/
structure State.Quiet (s : State ι μ φ) : Prop where
  clean : s.dirty = false
  marked : s.unmarked = 0
  idle : ∀ i, s.calls i = .idle

def InOrder (e : Machine.Event (State ι μ φ) (Op ι μ) Unit) : Prop :=
  ∀ i version file, e.input = .replace i → e.before.calls i = .taken version file →
    e.before.shown ≤ version

def Tidy (snap : Int → μ → μ × φ) : Prop :=
  ∀ m t t', t ≤ t' → (snap t' (snap t m).1).2 = (snap t' m).2

def State.Current (snap : Int → μ → μ × φ) (s : State ι μ φ) (file : φ) : Prop :=
  ∃ t, t ≤ s.clock ∧ file = (snap t s.latest).2

/-- While the flag is down and nothing will raise it, the latest state is on its way to the file or
has arrived. -/
structure Saving (snap : Int → μ → μ × φ) (s : State ι μ φ) : Prop where
  memory : ∀ t, s.clock ≤ t → (snap t s.memory).2 = (snap t s.latest).2
  taken : ∀ i version file, s.calls i = .taken version file →
    version ≤ s.version ∧ (version = s.version → s.Current snap file)
  disk : s.shown ≤ s.version ∧
    (s.shown = s.version → 0 < s.version → ∃ file, s.disk = some file ∧ s.Current snap file)
  pending : s.dirty = false → s.unmarked = 0 →
    (∃ i, s.calls i = .swapped) ∨ (∃ i file, s.calls i = .taken s.version file) ∨
      s.shown = s.version

namespace Saving

variable {snap : Int → μ → μ × φ} {s s' : State ι μ φ}

theorem start (m : μ) (disk : Option φ) (now : Int) :
    Saving snap (State.start m disk now : State ι μ φ) where
  memory := fun _ _ => rfl
  taken := fun _ _ _ h => nomatch h
  disk := ⟨Nat.le_refl 0, fun _ h => absurd h (Nat.lt_irrefl 0)⟩
  pending := fun _ _ => .inr (.inr rfl)

theorem mutate (h : Saving snap s) (f : μ → μ) : Saving snap { s with
      memory := f s.memory
      latest := f s.memory
      version := s.version + 1
      unmarked := s.unmarked + 1 } where
  memory := fun _ _ => rfl
  taken := fun i version file htaken => by
    have hle := (h.taken i version file htaken).1
    exact ⟨Nat.le_succ_of_le hle, fun heq => absurd (heq ▸ hle) (Nat.not_succ_le_self _)⟩
  disk := ⟨Nat.le_succ_of_le h.disk.1, fun heq => absurd (heq ▸ h.disk.1) (Nat.not_succ_le_self _)⟩
  pending := fun _ hmarked => nomatch hmarked

theorem raise (h : Saving snap s) {calls : ι → Phase φ} {unmarked : Nat}
    (hcalls : ∀ i version file, calls i = .taken version file → s.calls i = .taken version file) :
    Saving snap { s with unmarked := unmarked, dirty := true, calls := calls } where
  memory := h.memory
  taken := fun i version file htaken => h.taken i version file (hcalls i version file htaken)
  disk := h.disk
  pending := fun hclean => nomatch hclean

variable [DecidableEq ι]

theorem swap (h : Saving snap s) (i : ι) :
    Saving snap { s with dirty := false, calls := update s.calls i .swapped } where
  memory := h.memory
  taken := fun j version file htaken => by
    by_cases hj : j = i
    · simp [hj] at htaken
    · exact h.taken j version file (by simpa [hj] using htaken)
  disk := h.disk
  pending := fun _ _ => .inl ⟨i, update_self ..⟩

theorem snapshot (h : Saving snap s) (htidy : Tidy snap) (i : ι) {now : Int}
    (hnow : s.clock ≤ now) :
    Saving snap { s with
      memory := (snap now s.memory).1
      clock := now
      calls := update s.calls i (.taken s.version (snap now s.memory).2) } where
  memory := fun t ht => (htidy s.memory now t ht).trans (h.memory t (Int.le_trans hnow ht))
  taken := fun j version file htaken => by
    by_cases hj : j = i
    · simp only [hj, update_self, Phase.taken.injEq] at htaken
      obtain ⟨rfl, rfl⟩ := htaken
      exact ⟨Nat.le_refl _, fun _ => ⟨now, Int.le_refl now, h.memory now hnow⟩⟩
    · obtain ⟨hle, hcurrent⟩ := h.taken j version file (by simpa [hj] using htaken)
      refine ⟨hle, fun heq => ?_⟩
      obtain ⟨t, ht, hfile⟩ := hcurrent heq
      exact ⟨t, Int.le_trans ht hnow, hfile⟩
  disk := by
    refine ⟨h.disk.1, fun heq hpos => ?_⟩
    obtain ⟨file, hdisk, t, ht, hfile⟩ := h.disk.2 heq hpos
    exact ⟨file, hdisk, t, Int.le_trans ht hnow, hfile⟩
  pending := fun _ _ => .inr (.inl ⟨i, _, update_self ..⟩)

theorem replace (h : Saving snap s) {i : ι} {version : Nat} {file : φ}
    (hcall : s.calls i = .taken version file) (horder : s.shown ≤ version) :
    Saving snap { s with
      disk := some file
      shown := version
      calls := update s.calls i .idle } where
  memory := h.memory
  taken := fun j version' file' htaken => by
    by_cases hj : j = i
    · simp [hj] at htaken
    · exact h.taken j version' file' (by simpa [hj] using htaken)
  disk := by
    obtain ⟨hle, hcurrent⟩ := h.taken i version file hcall
    exact ⟨hle, fun heq _ => ⟨file, rfl, hcurrent heq⟩⟩
  pending := fun hclean hmarked => by
    have hle := (h.taken i version file hcall).1
    rcases h.pending hclean hmarked with ⟨j, hj⟩ | ⟨j, file', hj⟩ | hshown
    · have hne : j ≠ i := fun heq => by simp [heq, hcall] at hj
      exact .inl ⟨j, (update_of_ne hne ..).trans hj⟩
    · by_cases hji : j = i
      · -- the call that was on its way has arrived
        subst hji
        rw [hcall] at hj
        exact .inr (.inr (Phase.taken.inj hj).1)
      · exact .inr (.inl ⟨j, file', (update_of_ne hji ..).trans hj⟩)
    · exact .inr (.inr (Nat.le_antisymm hle (hshown ▸ horder)))

theorem step {op : Op ι μ} {o : Unit} (htidy : Tidy snap) (h : Saving snap s)
    (horder : InOrder ⟨s, op, o⟩) (hstep : step snap s op = some (s', o)) : Saving snap s' := by
  cases op with
  | mutate f =>
    cases hstep
    exact h.mutate f
  | mark =>
    unfold WriteBehind.step at hstep
    simp only at hstep
    split at hstep
    · cases hstep
    · cases hstep
      exact h.raise fun _ _ _ htaken => htaken
  | swap i =>
    unfold WriteBehind.step at hstep
    simp only at hstep
    split at hstep
    · split at hstep
      · cases hstep
        exact h.swap i
      · cases hstep
        exact h
    · cases hstep
  | snapshot i now =>
    unfold WriteBehind.step at hstep
    simp only at hstep
    split at hstep
    · split at hstep
      · next hnow =>
        cases hstep
        exact h.snapshot htidy i hnow
      · cases hstep
    · cases hstep
  | replace i =>
    unfold WriteBehind.step at hstep
    simp only at hstep
    split at hstep
    · next version file hcall =>
      cases hstep
      exact h.replace hcall (horder i version file rfl hcall)
    · cases hstep
  | fail i =>
    unfold WriteBehind.step at hstep
    simp only at hstep
    split at hstep
    · cases hstep
      refine h.raise fun j version file htaken => ?_
      by_cases hj : j = i
      · simp [hj] at htaken
      · simpa [hj] using htaken
    · cases hstep

end Saving

theorem saved_of_inOrder [DecidableEq ι] {snap : Int → μ → μ × φ} (htidy : Tidy snap) {m : μ}
    {disk : Option φ}
    {now : Int} {tr : List (Machine.Event (State ι μ φ) (Op ι μ) Unit)} {s : State ι μ φ}
    (hrun : Machine.Run (step snap) (State.start m disk now) tr s)
    (horder : ∀ e ∈ tr, InOrder e) (hquiet : s.Quiet) (hchanged : 0 < s.version) :
    (∃ t, t ≤ s.clock ∧ s.disk = some (snap t s.latest).2) ∧
      ∀ t, s.clock ≤ t → (snap t s.memory).2 = (snap t s.latest).2 := by
  have hsaving : Saving snap s := hrun.invariant
    (fun _ _ _ _ h ho hs => Saving.step htidy h ho hs) (Saving.start m disk now) horder
  refine ⟨?_, hsaving.memory⟩
  rcases hsaving.pending hquiet.clean hquiet.marked with ⟨i, hi⟩ | ⟨i, file, hi⟩ | hshown
  · rw [hquiet.idle i] at hi
    cases hi
  · rw [hquiet.idle i] at hi
    cases hi
  · obtain ⟨file, hdisk, t, ht, rfl⟩ := hsaving.disk.2 hshown hchanged
    exact ⟨t, ht, hdisk⟩

end WriteBehind
