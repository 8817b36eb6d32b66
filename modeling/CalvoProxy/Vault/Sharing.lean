import CalvoProxy.Lib.LastWrite
import CalvoProxy.Lib.Machine
import CalvoProxy.Vault.Failure

/-!
# Vault values that share a file

The mutex belongs to the `Vault` value, the file to the path. Of two values that have both read the
file, the last to replace it drops the entry of the other (`overlapping_lost`,
`credentials_kept_iff`).
-/

namespace CalvoProxy

open List Machine Function

structure CallSpec (ν : Type) where
  vault : ν
  op : VaultOp
  io : VaultCalls

inductive CallPhase
  | called
  /-- holds the mutex -/
  | locked
  | hasRead (file : VaultFile) (found : Bool)
  /-- has the file to write, made of the one it has read -/
  | ready (file next : VaultFile)
  /-- about to give the mutex back -/
  | leaving (result : Except VaultError Unit)
  | returned (result : Except VaultError Unit)

def CallPhase.active : CallPhase → Bool
  | called | returned _ => false
  | _ => true

inductive CallStep
  | lock
  | read
  | revise
  | replace
  | unlock
deriving DecidableEq, Repr

structure SharedVault (ν ι : Type) where
  content : Option VaultContent
  holder : ν → Option ι
  phase : ι → CallPhase

abbrev VaultEvent (ν ι : Type) := Event (SharedVault ν ι) (ι × CallStep) (Option VaultOp)

namespace SharedVault

variable {ν ι : Type} [DecidableEq ν] [DecidableEq ι]

def start (content : Option VaultContent) : SharedVault ν ι :=
  ⟨content, fun _ => none, fun _ => .called⟩

def enter (s : SharedVault ν ι) (i : ι) (phase : CallPhase) : SharedVault ν ι :=
  { s with phase := update s.phase i phase }

/-- `none` when it is not the next step, or while the mutex is held; the output is the call when it
has replaced the file. The temporary file is its own, so `writeFile` is one step. -/
def step (env : VaultEnv) (spec : ι → CallSpec ν) (s : SharedVault ν ι) (input : ι × CallStep) :
    Option (SharedVault ν ι × Option VaultOp) :=
  let i := input.1
  let op := (spec i).op
  let io := (spec i).io
  match input.2, s.phase i with
  | .lock, .called =>
    match op.check with
    | some err => some (s.enter i (.returned (.error err)), none)
    | none =>
      if s.holder (spec i).vault = none then
        some ({ s.enter i .locked with
          holder := update s.holder (spec i).vault (some i) }, none)
      else none
  | .read, .locked =>
    match readFile env io s.content with
    | .error err => some (s.enter i (.leaving (.error (.locked (some err)))), none)
    | .ok (file, found) => some (s.enter i (.hasRead file found), none)
  | .revise, .hasRead file found =>
    match op.revise env io file found with
    | .error err => some (s.enter i (.leaving (.error err)), none)
    | .ok none => some (s.enter i (.leaving (.ok ())), none)
    | .ok (some next) => some (s.enter i (.ready file next), none)
  | .replace, .ready _ next =>
    let (d, result) := writeFile io next ⟨s.content, none⟩
    some ({ s.enter i (.leaving result) with content := d.file },
      if io.Replaces then some op else none)
  | .unlock, .leaving result =>
    some ({ s.enter i (.returned result) with
      holder := update s.holder (spec i).vault none }, none)
  | _, _ => none

/-! ## What a step does -/

inductive Moves (env : VaultEnv) (spec : ι → CallSpec ν) (s : SharedVault ν ι) (i : ι) :
    SharedVault ν ι → Option VaultOp → Prop
  | rejects {result : Except VaultError Unit} (phase : s.phase i = .called) :
      Moves env spec s i (s.enter i (.returned result)) none
  | locks (phase : s.phase i = .called) (free : s.holder (spec i).vault = none) :
      Moves env spec s i
        { s.enter i .locked with
          holder := update s.holder (spec i).vault (some i) } none
  | reads {file : VaultFile} {found : Bool} (phase : s.phase i = .locked)
      (read : readFile env (spec i).io s.content = .ok (file, found)) :
      Moves env spec s i (s.enter i (.hasRead file found)) none
  | revises {file next : VaultFile} {found : Bool} (phase : s.phase i = .hasRead file found)
      (revised : (spec i).op.revise env (spec i).io file found = .ok (some next)) :
      Moves env spec s i (s.enter i (.ready file next)) none
  | gives {result : Except VaultError Unit} (active : (s.phase i).active = true)
      (stops : ∀ file next, s.phase i = .ready file next → ¬(spec i).io.Replaces) :
      Moves env spec s i (s.enter i (.leaving result)) none
  | replaces {file next : VaultFile} {result : Except VaultError Unit}
      (phase : s.phase i = .ready file next) (ok : (spec i).io.Replaces) :
      Moves env spec s i { s.enter i (.leaving result) with content := some next.marshal }
        (some (spec i).op)
  | unlocks {result : Except VaultError Unit} (phase : s.phase i = .leaving result) :
      Moves env spec s i
        { s.enter i (.returned result) with
          holder := update s.holder (spec i).vault none } none

section Steps

variable {env : VaultEnv} {spec : ι → CallSpec ν} {s s' : SharedVault ν ι} {i : ι}
  {output : Option VaultOp}

theorem step_moves {op : CallStep} (h : step env spec s (i, op) = some (s', output)) :
    Moves env spec s i s' output := by
  unfold step at h
  simp only at h
  split at h
  · next hphase =>
    split at h
    · cases h
      exact .rejects hphase
    · split at h
      · next hfree =>
        cases h
        exact .locks hphase hfree
      · cases h
  · next hphase =>
    split at h
    · cases h
      refine .gives (by rw [hphase]; rfl) fun file next hready => ?_
      rw [hphase] at hready
      cases hready
    · next hread =>
      cases h
      exact .reads hphase hread
  · next file found hphase =>
    have hnot : ∀ file next, s.phase i = .ready file next → ¬(spec i).io.Replaces := by
      intro file next hready
      rw [hphase] at hready
      cases hready
    split at h
    · cases h
      exact .gives (by rw [hphase]; rfl) hnot
    · cases h
      exact .gives (by rw [hphase]; rfl) hnot
    · next hrevise =>
      cases h
      exact .revises hphase hrevise
  · next file next hphase =>
    by_cases hok : (spec i).io.Replaces
    · rw [if_pos hok, writeFile_replaced hok] at h
      cases h
      exact .replaces hphase hok
    · rw [if_neg hok, (writeFile_stopped hok).1] at h
      cases h
      exact .gives (by rw [hphase]; rfl) fun _ _ _ => hok
  · next result hphase =>
    cases h
    exact .unlocks hphase
  · cases h

end Steps

/-! ## The last replacement wins -/

section Law

variable (env : VaultEnv) (key : MasterKey) (spec : ι → CallSpec ν) (content : Option VaultContent)

/-- Each provider has the value of the last call on it that replaced the file, or the first one. -/
def LastWins (tr : List (VaultEvent ν ι))
    (s : SharedVault ν ι) : Prop :=
  ∀ provider, stored env key (heldEntries s.content) provider =
    LastWrite.latest (stored env key (heldEntries content))
      ((tr.filterMap Event.output).map fun op => (op.provider, op.value)) provider

/-- A call about to replace the file finds the other providers as it has read them. -/
def Undisturbed (e : VaultEvent ν ι) : Prop :=
  ∀ file next, e.before.phase e.input.1 = .ready file next → (spec e.input.1).io.Replaces →
    ∀ provider, provider ≠ (spec e.input.1).op.provider →
      stored env key file.entries provider =
        stored env key (heldEntries e.before.content) provider

/-- A file that is ready to be written was made of the one read. -/
def Revised (s : SharedVault ν ι) : Prop :=
  ∀ i file next, s.phase i = .ready file next →
    ∃ found, (spec i).op.revise env (spec i).io file found = .ok (some next)

end Law

section Runs

variable {env : VaultEnv} {key : MasterKey} {spec : ι → CallSpec ν}
  {content : Option VaultContent} {s s' : SharedVault ν ι} {i : ι} {output : Option VaultOp}

omit [DecidableEq ν] in
theorem Revised.enter {phase : CallPhase} (h : Revised env spec s)
    (hphase : ∀ file next, phase = .ready file next →
      ∃ found, (spec i).op.revise env (spec i).io file found = .ok (some next)) :
    Revised env spec (s.enter i phase) := by
  intro j file next hready
  simp only [SharedVault.enter, update_apply] at hready
  split at hready
  · next hj => exact hj ▸ hphase file next hready
  · exact h j file next hready

theorem Moves.revised (h : Moves env spec s i s' output) (hs : Revised env spec s) :
    Revised env spec s' := by
  cases h with
  | revises phase revised =>
    refine hs.enter fun file next hready => ?_
    cases hready
    exact ⟨_, revised⟩
  | rejects | locks | reads | gives | replaces | unlocks => exact hs.enter nofun

theorem run_revised {tr : List (VaultEvent ν ι)}
    (h : Run (step env spec) (start content) tr s) : Revised env spec s := by
  refine Reachable.invariant ?_ ?_ ⟨tr, h⟩
  · intro s input s' output hs hstep
    exact (step_moves hstep).revised hs
  · exact fun i file next hready => nomatch hready

theorem Moves.file_cases (h : Moves env spec s i s' output) :
    (output = none ∧ s'.content = s.content ∧
      ∀ file next, s.phase i = .ready file next → ¬(spec i).io.Replaces) ∨
    ∃ file next, s.phase i = .ready file next ∧ (spec i).io.Replaces ∧
      output = some (spec i).op ∧ s'.content = some next.marshal := by
  cases h with
  | replaces phase ok => exact .inr ⟨_, _, phase, ok, rfl, rfl⟩
  | gives active stops => exact .inl ⟨rfl, rfl, stops⟩
  | rejects phase | locks phase | reads phase | revises phase | unlocks phase =>
    refine .inl ⟨rfl, rfl, fun file next hready => ?_⟩
    rw [phase] at hready
    cases hready

theorem Moves.lastWins_iff {tr : List (VaultEvent ν ι)} {op : CallStep}
    (h : Moves env spec s i s' output) (hkey : ∀ k, (spec i).io.loadKey = .ok k → k = key)
    (hrevised : Revised env spec s) (hlaw : LastWins env key content tr s) :
    LastWins env key content (tr ++ [⟨s, (i, op), output⟩]) s' ↔
      Undisturbed env key spec ⟨s, (i, op), output⟩ := by
  have hheld := funext hlaw
  unfold LastWins
  rw [← funext_iff]
  rcases h.file_cases with ⟨rfl, hsame, hstops⟩ | ⟨file, next, hready, hok, rfl, hreplaced⟩
  · rw [hsame, filterMap_append, filterMap_cons_none rfl, filterMap_nil,
      append_nil]
    exact ⟨fun _ file next hready hok => absurd hok (hstops file next hready), fun _ => hheld⟩
  · obtain ⟨found, hrevise⟩ := hrevised i file next hready
    obtain ⟨k, hk, -, hrevises⟩ := VaultOp.revise_ok_iff.mp hrevise
    cases hkey k hk
    have hnext : stored env key (heldEntries s'.content) =
        update (stored env key file.entries) (spec i).op.provider (spec i).op.value := by
      rw [hreplaced]
      exact hrevises.stored
    rw [hnext, filterMap_append, map_append]
    refine LastWrite.replace_iff.trans ?_
    rw [← hheld]
    constructor
    · intro hothers file' next' hready' _ provider hne
      cases hready.symm.trans hready'
      exact hothers provider hne
    · intro hundisturbed
      exact hundisturbed file next hready hok

end Runs

/-! ## Lost and kept credentials -/

/-- The law holds throughout a run exactly if every call that replaces the file finds the other
providers as it has read them. -/
theorem credentials_kept_iff (env : VaultEnv) (key : MasterKey) (spec : ι → CallSpec ν)
    (hkey : ∀ i k, (spec i).io.loadKey = .ok k → k = key) (content : Option VaultContent)
    {tr : List (VaultEvent ν ι)} {s : SharedVault ν ι}
    (hrun : Run (step env spec) (start content) tr s) :
    (∀ tr1 tr2 s1, tr = tr1 ++ tr2 → Run (step env spec) (start content) tr1 s1 →
      LastWins env key content tr1 s1) ↔ ∀ e ∈ tr, Undisturbed env key spec e := by
  refine hrun.throughout_iff (fun provider => rfl) ?_
  intro tr s input s' output hrun hlaw hstep
  exact (step_moves hstep).lastWins_iff (hkey input.1) (run_revised hrun) hlaw

def twoValues (i : Bool) : CallSpec Bool :=
  ⟨i, .set (if i then "groq" else "openrouter") [107, 101, 121], steadyCalls fun _ => none⟩

/-- One call after the other: both are done, and the last wins. -/
theorem consecutive_kept : ∃ tr s, Run (step clearEnv twoValues) (start none) tr s ∧
      (∀ i, s.phase i = .returned (.ok ())) ∧ LastWins clearEnv steadyKey none tr s := by
  refine exists_run
    [(false, .lock), (false, .read), (false, .revise), (false, .replace), (false, .unlock),
      (true, .lock), (true, .read), (true, .revise), (true, .replace), (true, .unlock)] rfl
    fun hrun => ⟨fun i => by cases i <;> rfl, ?_⟩
  refine (credentials_kept_iff clearEnv steadyKey twoValues (fun _ _ h => by cases h; rfl) none
    hrun).mpr ?_ _ [] _ (append_nil _).symm hrun
  iterate 10 refine forall_mem_cons.mpr ⟨?_, ?_⟩; swap
  · exact fun e he => nomatch he
  all_goals
    intro file next hready hok provider hne
    cases hready <;> rfl

/-- Both calls read the file before one has replaced it. -/
theorem overlapping_lost : ∃ tr s, Run (step clearEnv twoValues) (start none) tr s ∧
      (∀ i, s.phase i = .returned (.ok ())) ∧ ¬LastWins clearEnv steadyKey none tr s := by
  refine exists_run
    [(false, .lock), (true, .lock), (false, .read), (true, .read), (false, .revise),
      (true, .revise), (false, .replace), (true, .replace), (false, .unlock), (true, .unlock)] rfl
    fun _ => ⟨fun i => by cases i <;> rfl, fun hlaw => ?_⟩
  exact absurd (hlaw "openrouter") (by decide +kernel)

end SharedVault

end CalvoProxy
