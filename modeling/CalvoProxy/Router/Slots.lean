import CalvoProxy.Lib.Semaphore
import CalvoProxy.Router.Holding

/-!
# Admission slots

`router_admission.go`: a request takes one of `cap` slots before its body is read and gives it back
when its handler returns; while it is parked it goes without. Each call on a hold is one step
(`slots_conserved`).
-/

namespace CalvoProxy

open Machine Option Function Semaphore

/-! ## The hold of a request -/

/-- The select of an acquire gets a slot, or the context or the timer comes first. -/
inductive AdmissionSelect
  | slot
  | expired
deriving DecidableEq, Repr

/-- `admissionHold`: whether the slot is held; the function that frees it always gives a slot
back. -/
structure AdmissionHold where
  held : Bool
deriving DecidableEq

namespace AdmissionHold

/-- The result is `none` while the call blocks. -/
def acquire (cap taken : Nat) (h : AdmissionHold) : AdmissionSelect →
    Option (Nat × AdmissionHold × Bool)
  | .slot => (take cap taken).map fun taken => (taken, ⟨true⟩, true)
  | .expired => some (taken, h, false)

def release (taken : Nat) (h : AdmissionHold) : Option (Nat × AdmissionHold) :=
  if h.held then (give taken).map fun taken => (taken, ⟨false⟩) else some (taken, h)

def reacquire (cap taken : Nat) (h : AdmissionHold) (select : AdmissionSelect) :
    Option (Nat × AdmissionHold × Bool) :=
  if h.held then some (taken, h, true) else h.acquire cap taken select

end AdmissionHold

inductive HandlerPhase
  /-- before the first acquire -/
  | arriving
  /-- admitted, with the release deferred -/
  | serving
  /-- waiting for quota after a release -/
  | parked
  /-- about to acquire again -/
  | awake
  /-- about to return -/
  | leaving
  | returned
deriving DecidableEq, Repr

structure Handler where
  phase : HandlerPhase
  hold : AdmissionHold
deriving DecidableEq

/-- `wait` is the call of `holdForQuotaReset` with its result, `leave` any way to the end,
`deferred` the release there. -/
inductive HandlerStep
  | acquire (select : AdmissionSelect)
  | release
  | wait (held : Bool)
  | reacquire (select : AdmissionSelect)
  | leave
  | deferred
deriving DecidableEq

/-- `none` when this is not the next step, or while it blocks. -/
def Handler.step (cap taken : Nat) (h : Handler) : HandlerStep → Option (Nat × Handler)
  | .acquire select =>
    if h.phase = .arriving then
      (h.hold.acquire cap taken select).map fun (taken, hold, admitted) =>
        -- a request that is not admitted returns before the release is deferred
        (taken, ⟨if admitted then .serving else .returned, hold⟩)
    else none
  | .release =>
    if h.phase = .serving then
      (h.hold.release taken).map fun (taken, hold) => (taken, ⟨.parked, hold⟩)
    else none
  | .wait held =>
    if h.phase = .parked then some (taken, { h with phase := if held then .awake else .leaving })
    else none
  | .reacquire select =>
    if h.phase = .awake then
      (h.hold.reacquire cap taken select).map fun (taken, hold, admitted) =>
        (taken, ⟨if admitted then .serving else .leaving, hold⟩)
    else none
  | .leave => if h.phase = .serving then some (taken, { h with phase := .leaving }) else none
  | .deferred =>
    if h.phase = .leaving then
      (h.hold.release taken).map fun (taken, hold) => (taken, ⟨.returned, hold⟩)
    else none

structure Slots (ι : Type) where
  taken : Nat
  handlers : ι → Handler

namespace Slots

variable {ι : Type} [DecidableEq ι]

def step (cap : Nat) (s : Slots ι) (op : ι × HandlerStep) : Option (Slots ι × Unit) :=
  ((s.handlers op.1).step cap s.taken op.2).map fun (taken, h) =>
    (⟨taken, update s.handlers op.1 h⟩, ())

def start : Slots ι := ⟨0, fun _ => ⟨.arriving, ⟨false⟩⟩⟩

def held (s : Slots ι) (i : ι) : Bool := (s.handlers i).hold.held

end Slots

/-! ## What a step does -/

/-- A handler that has not arrived or that has returned holds nothing. -/
def Handler.Settled (h : Handler) : Prop :=
  h.phase = .arriving ∨ h.phase = .returned → h.hold.held = false

inductive SlotChange (cap taken : Nat) (held : Bool) : Nat → Bool → Prop
  | same : SlotChange cap taken held taken held
  | takes {taken' : Nat} (hnot : held = false) (h : take cap taken = some taken') :
      SlotChange cap taken held taken' true
  | gives {taken' : Nat} (hheld : held = true) (h : give taken = some taken') :
      SlotChange cap taken held taken' false

section Steps

variable {cap taken taken' : Nat} {h h' : Handler}

theorem AdmissionHold.acquire_change {hold hold' : AdmissionHold} {select : AdmissionSelect}
    {admitted : Bool} (hnot : hold.held = false)
    (hacquire : hold.acquire cap taken select = some (taken', hold', admitted)) :
    SlotChange cap taken hold.held taken' hold'.held ∧ (admitted = false → hold'.held = false) := by
  cases select with
  | slot =>
    obtain ⟨n, htake, heq⟩ := map_eq_some_iff.mp hacquire
    cases heq
    exact ⟨.takes hnot htake, nofun⟩
  | expired =>
    cases hacquire
    exact ⟨.same, fun _ => hnot⟩

theorem AdmissionHold.release_change {hold hold' : AdmissionHold}
    (hrelease : hold.release taken = some (taken', hold')) :
    SlotChange cap taken hold.held taken' hold'.held ∧ hold'.held = false := by
  unfold release at hrelease
  split at hrelease
  · next hheld =>
    obtain ⟨n, hgive, heq⟩ := map_eq_some_iff.mp hrelease
    cases heq
    exact ⟨.gives hheld hgive, rfl⟩
  · next hnot =>
    cases hrelease
    exact ⟨.same, Bool.eq_false_iff.mpr hnot⟩

theorem Handler.step_change {op : HandlerStep} (hsettled : h.Settled)
    (hstep : h.step cap taken op = some (taken', h')) :
    SlotChange cap taken h.hold.held taken' h'.hold.held ∧ h'.Settled := by
  obtain ⟨phase, hold⟩ := h
  cases op with
  | acquire select =>
    simp only [step, ite_none_right_eq_some, map_eq_some_iff, Prod.exists] at hstep
    obtain ⟨hphase, n, hold', admitted, hacquire, heq⟩ := hstep
    cases heq
    obtain ⟨hchange, hnot⟩ := AdmissionHold.acquire_change (hsettled (.inl hphase)) hacquire
    refine ⟨hchange, fun hend => hnot ?_⟩
    cases admitted with
    | false => rfl
    | true => rcases hend with hend | hend <;> cases hend
  | release | deferred =>
    simp only [step, ite_none_right_eq_some, map_eq_some_iff, Prod.exists] at hstep
    obtain ⟨-, n, hold', hrelease, heq⟩ := hstep
    cases heq
    obtain ⟨hchange, hnot⟩ := AdmissionHold.release_change hrelease
    exact ⟨hchange, fun _ => hnot⟩
  | wait held =>
    simp only [step, ite_none_right_eq_some, Option.some.injEq] at hstep
    obtain ⟨-, heq⟩ := hstep
    cases heq
    refine ⟨.same, fun hend => ?_⟩
    cases held <;> rcases hend with hend | hend <;> cases hend
  | reacquire select =>
    simp only [step, ite_none_right_eq_some, map_eq_some_iff, Prod.exists] at hstep
    obtain ⟨-, n, hold', admitted, hreacquire, heq⟩ := hstep
    cases heq
    unfold AdmissionHold.reacquire at hreacquire
    have hunsettled : ∀ phase, phase = (if admitted then HandlerPhase.serving else .leaving) →
        ¬(phase = .arriving ∨ phase = .returned) := by
      rintro phase rfl
      cases admitted <;> decide
    split at hreacquire
    · cases hreacquire
      exact ⟨.same, fun hend => absurd hend (hunsettled _ rfl)⟩
    · next hnot =>
      obtain ⟨hchange, -⟩ := AdmissionHold.acquire_change (Bool.eq_false_iff.mpr hnot) hreacquire
      exact ⟨hchange, fun hend => absurd hend (hunsettled _ rfl)⟩
  | leave =>
    simp only [step, ite_none_right_eq_some, Option.some.injEq] at hstep
    obtain ⟨-, heq⟩ := hstep
    cases heq
    refine ⟨.same, fun hend => ?_⟩
    rcases hend with hend | hend <;> cases hend

end Steps

namespace Slots

variable {ι : Type} [Fintype ι] [DecidableEq ι] {cap : Nat}

structure Orderly (cap : Nat) (s : Slots ι) : Prop where
  conserved : Conserved cap s.taken s.held
  settled : ∀ i, (s.handlers i).Settled

omit [Fintype ι] in
theorem held_update (s : Slots ι) (i : ι) (h : Handler) (taken : Nat) :
    Slots.held ⟨taken, update s.handlers i h⟩ =
      update s.held i h.hold.held := by
  funext j
  unfold held
  by_cases hj : j = i
  · subst hj
    simp
  · simp [hj]

theorem step_orderly {s s' : Slots ι} {op : ι × HandlerStep} (h : Orderly cap s)
    (hstep : step cap s op = some (s', ())) : Orderly cap s' := by
  obtain ⟨i, op⟩ := op
  obtain ⟨⟨taken, handler⟩, hmoved, heq⟩ := map_eq_some_iff.mp hstep
  cases heq
  obtain ⟨hchange, hsettled⟩ := Handler.step_change (h.settled i) hmoved
  refine ⟨?_, fun j => ?_⟩
  · show Conserved cap taken _
    rw [held_update]
    generalize handler.hold.held = held' at hchange
    cases hchange with
    | same =>
      have hsame : update s.held i (s.handlers i).hold.held = s.held :=
        update_eq_self i s.held
      rw [hsame]
      exact h.conserved
    | takes hnot htake => exact h.conserved.take hnot htake
    | gives hheld hgive => exact h.conserved.give hheld hgive
  · show (update s.handlers i handler j).Settled
    by_cases hj : j = i
    · subst hj
      rw [update_self]
      exact hsettled
    · rw [update_of_ne hj]
      exact h.settled j

theorem orderly_of_reachable {s : Slots ι} (h : Reachable (step cap) start s) : Orderly cap s :=
  h.invariant (fun _ _ _ _ hs hstep => step_orderly hs hstep) ⟨.start cap, fun _ _ => rfl⟩

/-- The slots taken are those of the handlers that hold one, at most `cap`, and none once all have
returned. -/
theorem slots_conserved {s : Slots ι} (h : Reachable (step cap) start s) :
    s.taken = (Finset.univ.filter fun i => (s.handlers i).hold.held = true).card ∧
      s.taken ≤ cap ∧ ((∀ i, (s.handlers i).phase = .returned) → s.taken = 0) := by
  obtain ⟨⟨htaken, hroom⟩, hsettled⟩ := orderly_of_reachable h
  refine ⟨htaken, hroom, fun hreturned => ?_⟩
  rw [htaken]
  refine Finset.card_eq_zero.mpr (Finset.filter_eq_empty_iff.mpr fun i _ => ?_)
  exact Bool.eq_false_iff.mp (hsettled i (.inr (hreturned i)))

/-- Two requests and one slot: the second takes it while the first is parked. -/
def contested : List (Fin 2 × HandlerStep) :=
  [(0, .acquire .slot), (0, .release), (1, .acquire .slot), (0, .wait true),
    (0, .reacquire .expired), (0, .deferred), (1, .leave), (1, .deferred)]

theorem contested_conserved : ∃ s : Slots (Fin 2), Reachable (step 1) start s ∧
    (∀ i, (s.handlers i).phase = .returned) ∧
    s.taken = (Finset.univ.filter fun i => (s.handlers i).hold.held = true).card ∧ s.taken = 0 := by
  obtain ⟨tr, s, hexec, hreturned⟩ : ∃ tr s, exec (step 1) start contested = some (tr, s) ∧
      ∀ i, (s.handlers i).phase = .returned := ⟨_, _, rfl, by decide⟩
  have hreachable : Reachable (step 1) start s := ⟨tr, run_of_exec hexec⟩
  obtain ⟨htaken, -, hzero⟩ := slots_conserved hreachable
  exact ⟨s, hreachable, hreturned, htaken, hzero hreturned⟩

end Slots

end CalvoProxy
