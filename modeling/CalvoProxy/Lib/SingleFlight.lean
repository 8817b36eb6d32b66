import Mathlib.Data.List.Basic

/-!
# A gate that lets one probe through

While `openUntil` is zero everybody passes, and before `openUntil` nobody. Then the gate is
half-open: a caller passes if no claim is running, and its pass is a claim for `ttl`. Callers are
`pending` until they complete, which may move the gate.
-/

namespace SingleFlight

open List

variable {c : Caller}

structure Gate where
  openUntil : Int
  probeUntil : Int
deriving DecidableEq

/-- A caller that passed the gate at `start`. -/
structure Caller where
  id : Nat
  start : Int
deriving DecidableEq

/-- The gate with the callers that have not completed. -/
structure State where
  gate : Gate
  pending : List Caller
  now : Int

/-- `c` passed the gate since it became half-open, and its claim still runs at `t`. -/
def Live (ttl : Int) (g : Gate) (t : Int) (c : Caller) : Prop :=
  g.openUntil ≠ 0 ∧ g.openUntil ≤ c.start ∧ t < c.start + ttl

instance (ttl : Int) (g : Gate) (t : Int) (c : Caller) : Decidable (Live ttl g t c) :=
  inferInstanceAs (Decidable (_ ∧ _ ∧ _))

def HoldsClaim (ttl : Int) (g : Gate) (c : Caller) : Prop :=
  g.openUntil ≤ c.start ∧ c.start + ttl = g.probeUntil

def Gate.tryPass (ttl t : Int) (g : Gate) : Gate × Bool :=
  if g.openUntil = 0 then (g, true)
  else if t < g.openUntil then (g, false)
  else if t < g.probeUntil then (g, false)
  else ({ g with probeUntil := t + ttl }, true)

/-- A completion at `t` closes the circuit, opens it beyond `t`, or leaves it apart from the
claim. -/
inductive Move (t : Int) (g g' : Gate) : Prop
  | close (h : g'.openUntil = 0)
  | reopen (h : t < g'.openUntil)
  | same (h : g'.openUntil = g.openUntil)

/-- The completion of `c` at `t` drops a running claim of the half-open gate `g`. -/
structure Drops (t : Int) (g g' : Gate) : Prop where
  same : g'.openUntil = g.openUntil
  dropped : g'.probeUntil ≠ g.probeUntil
  halfOpen : g.openUntil ≠ 0 ∧ g.openUntil ≤ t
  running : t < g.probeUntil

/-- At most one caller is live and holds the claim, and nobody passed in the future. -/
structure Exclusive (ttl : Int) (s : State) : Prop where
  past : ∀ c ∈ s.pending, c.start ≤ s.now
  claim : ∀ c ∈ s.pending, Live ttl s.gate s.now c → HoldsClaim ttl s.gate c
  unique : ∀ c ∈ s.pending, ∀ d ∈ s.pending, Live ttl s.gate s.now c →
    Live ttl s.gate s.now d → c = d

theorem Live.earlier {ttl t t' : Int} {g : Gate} (h : Live ttl g t' c) (ht : t ≤ t') :
    Live ttl g t c :=
  ⟨h.1, h.2.1, Int.lt_of_le_of_lt ht h.2.2⟩

namespace Exclusive

variable {ttl t : Int} {s : State} (h : Exclusive ttl s)
include h

theorem not_live (ht : s.now ≤ t) (hp : s.gate.probeUntil ≤ t)
    (hc : c ∈ s.pending) : ¬Live ttl s.gate t c := by
  intro hlive
  have hclaim := (h.claim c hc (hlive.earlier ht)).2
  have hrun := hlive.2.2
  omega

theorem wait (ht : s.now ≤ t) : Exclusive ttl { s with now := t } where
  past := fun c hc => Int.le_trans (h.past c hc) ht
  claim := fun c hc hlive => h.claim c hc (hlive.earlier ht)
  unique := fun c hc d hd hlc hld => h.unique c hc d hd (hlc.earlier ht) (hld.earlier ht)

theorem pass (ht : s.now ≤ t) {id : Nat} {g' : Gate} (hpass : s.gate.tryPass ttl t = (g', true)) :
    Exclusive ttl { gate := g', pending := ⟨id, t⟩ :: s.pending, now := t } := by
  have hpast : ∀ c ∈ (⟨id, t⟩ : Caller) :: s.pending, c.start ≤ t := by
    intro c hc
    rcases mem_cons.mp hc with rfl | hold
    · exact Int.le_refl t
    · exact Int.le_trans (h.past c hold) ht
  unfold Gate.tryPass at hpass
  split at hpass
  · -- the circuit is closed: there are no claims
    next hclosed =>
    cases hpass
    exact ⟨hpast, fun c _ hlive => absurd hclosed hlive.1,
      fun c _ d _ hlive _ => absurd hclosed hlive.1⟩
  split at hpass
  · cases hpass
  split at hpass
  · cases hpass
  next hopen hprobe =>
  cases hpass
  have hnone : ∀ c ∈ s.pending, ¬Live ttl { s.gate with probeUntil := t + ttl } t c :=
    fun c hc hlive => h.not_live ht (Int.not_lt.mp hprobe) hc hlive
  refine ⟨hpast, fun c hc hlive => ?_, fun c hc d hd hlc hld => ?_⟩
  · rcases mem_cons.mp hc with rfl | hold
    · exact ⟨Int.not_lt.mp hopen, rfl⟩
    · exact absurd hlive (hnone c hold)
  · rcases mem_cons.mp hc with rfl | hold
    · rcases mem_cons.mp hd with rfl | hold'
      · rfl
      · exact absurd hld (hnone d hold')
    · exact absurd hlc (hnone c hold)

theorem complete (ht : s.now ≤ t) {g' : Gate}
    (hmove : Move t s.gate g') (hown : Drops t s.gate g' → Live ttl s.gate t c ∧ c ∈ s.pending) :
    Exclusive ttl { gate := g', pending := s.pending.filter (· ≠ c), now := t } := by
  have hsub : ∀ {d : Caller}, d ∈ s.pending.filter (· ≠ c) → d ∈ s.pending ∧ d ≠ c := by
    intro d hd
    simpa using mem_filter.mp hd
  have hpast : ∀ d ∈ s.pending.filter (· ≠ c), d.start ≤ t :=
    fun d hd => Int.le_trans (h.past d (hsub hd).1) ht
  cases hmove with
  | close hclosed =>
    exact ⟨hpast, fun d _ hlive => absurd hclosed hlive.1,
      fun d _ _ _ hlive _ => absurd hclosed hlive.1⟩
  | reopen hopen =>
    have hnone : ∀ d ∈ s.pending.filter (· ≠ c), ¬Live ttl g' t d := by
      intro d hd hlive
      have hstart := hpast d hd
      have hsince := hlive.2.1
      omega
    exact ⟨hpast, fun d hd hlive => absurd hlive (hnone d hd),
      fun d hd _ _ hlive _ => absurd hlive (hnone d hd)⟩
  | same hsame =>
    have hback : ∀ {d : Caller}, Live ttl g' t d → Live ttl s.gate t d := by
      rintro d ⟨hne, hsince, hrun⟩
      rw [hsame] at hne hsince
      exact ⟨hne, hsince, hrun⟩
    refine ⟨hpast, fun d hd hlive => ?_, fun d hd e he hld hle => ?_⟩
    · have hlive' := hback hlive
      obtain ⟨hmem, hne⟩ := hsub hd
      have hclaim := h.claim d hmem (hlive'.earlier ht)
      by_cases hprobe : g'.probeUntil = s.gate.probeUntil
      · unfold HoldsClaim
        rw [hsame, hprobe]
        exact hclaim
      · -- the claim of `d` was running, so the completion was its own
        have hdrops : Drops t s.gate g' :=
          ⟨hsame, hprobe, ⟨hlive'.1, Int.le_trans hlive'.2.1 (hpast d hd)⟩,
            by rw [← hclaim.2]; exact hlive'.2.2⟩
        obtain ⟨hlc, hc⟩ := hown hdrops
        exact absurd (h.unique d hmem c hc (hlive'.earlier ht) (hlc.earlier ht)) hne
    · exact h.unique d (hsub hd).1 e (hsub he).1 ((hback hld).earlier ht) ((hback hle).earlier ht)

theorem fewer {pending : List Caller} (hsub : pending ⊆ s.pending) :
    Exclusive ttl { s with pending := pending } where
  past := fun c hc => h.past c (hsub hc)
  claim := fun c hc => h.claim c (hsub hc)
  unique := fun c hc d hd => h.unique c (hsub hc) d (hsub hd)

theorem at_most_one (ht : s.now ≤ t) {d : Caller} (hc : c ∈ s.pending)
    (hd : d ∈ s.pending) (hlc : Live ttl s.gate t c) (hld : Live ttl s.gate t d) : c = d :=
  h.unique c hc d hd (hlc.earlier ht) (hld.earlier ht)

end Exclusive

end SingleFlight
