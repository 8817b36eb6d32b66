import CalvoProxy.Vault.Revision

/-!
# Failed calls

A call that fails before the rename leaves the vault as it was. When `syncParentDir` fails after it,
the call returns an error although the vault has its new content (`failed_unchanged_iff`).
-/

namespace CalvoProxy

open List

/-! ## The steps of a write -/

section Steps

variable {io : VaultCalls} {data : VaultContent} {d : VaultDir} {file : VaultFile}

/-- The steps of `writeFile` up to the replacement. -/
def replaceSteps : List IoStep := [.mkdir, .createTemp, .chmod, .write, .sync, .close, .replace]

def VaultCalls.Replaces (io : VaultCalls) : Prop := ∀ step ∈ replaceSteps, io.fails step = none

instance (io : VaultCalls) : Decidable io.Replaces :=
  inferInstanceAs (Decidable (∀ step ∈ replaceSteps, io.fails step = none))

theorem IoStep.effect_file {step : IoStep} (h : step ≠ .replace) :
    (step.effect data d).file = d.file := by
  cases step with
  | replace => exact absurd rfl h
  | _ => rfl

theorem runSteps_file {steps : List IoStep} (h : .replace ∉ steps) :
    (runSteps io data steps d).1.file = d.file := by
  induction steps generalizing d with
  | nil => rfl
  | cons step steps ih =>
    obtain ⟨hstep, hsteps⟩ := ne_and_not_mem_of_not_mem_cons h
    unfold runSteps
    split
    · rfl
    · rw [ih hsteps, IoStep.effect_file hstep.symm]

theorem runSteps_done {steps : List IoStep} (h : (runSteps io data steps d).2 = none) :
    ∀ step ∈ steps, io.fails step = none := by
  induction steps generalizing d with
  | nil => exact fun step hstep => absurd hstep not_mem_nil
  | cons first steps ih =>
    unfold runSteps at h
    split at h
    · cases h
    · next hnone => exact forall_mem_cons.mpr ⟨hnone, ih h⟩

theorem runSteps_failed {before after : List IoStep} (h : .replace ∉ before)
    (hfails : ∃ step ∈ before ++ [.replace], io.fails step ≠ none) :
    (runSteps io data (before ++ .replace :: after) d).1.file = d.file ∧
      (runSteps io data (before ++ .replace :: after) d).2 ≠ none := by
  induction before generalizing d with
  | nil =>
    obtain ⟨step, hstep, hfails⟩ := hfails
    cases mem_singleton.mp hstep
    obtain ⟨err, herr⟩ := Option.ne_none_iff_exists'.mp hfails
    simp [runSteps, herr]
  | cons first before ih =>
    obtain ⟨hfirst, hbefore⟩ := ne_and_not_mem_of_not_mem_cons h
    rw [cons_append]
    unfold runSteps
    split
    · exact ⟨rfl, nofun⟩
    next hnone =>
    have hlater : ∃ step ∈ before ++ [.replace], io.fails step ≠ none := by
      obtain ⟨step, hstep, hfails⟩ := hfails
      rcases mem_cons.mp hstep with rfl | hstep
      · exact absurd hnone hfails
      · exact ⟨step, hstep, hfails⟩
    obtain ⟨hfile, herr⟩ := @ih (first.effect data d) hbefore hlater
    exact ⟨hfile.trans (IoStep.effect_file hfirst.symm), herr⟩

theorem writeFile_stopped (h : ¬io.Replaces) :
    (writeFile io file d).1.file = d.file ∧ ∃ err, (writeFile io file d).2 = .error err := by
  unfold writeFile
  have hearly := @runSteps_file io file.marshal d [.mkdir, .createTemp] (by decide)
  split
  · next d' err hrun =>
    rw [hrun] at hearly
    exact ⟨hearly, _, rfl⟩
  · next d' hrun =>
    rw [hrun] at hearly
    -- the first two steps are done, so it is one of the others that fails
    have hlate : ∃ step ∈ [IoStep.chmod, .write, .sync, .close] ++ [.replace],
        io.fails step ≠ none := by
      by_contra hnone
      simp only [not_exists, not_and, not_not] at hnone
      have hdone := runSteps_done (congrArg Prod.snd hrun)
      exact h fun step hstep => (mem_append.mp
        (show step ∈ [IoStep.mkdir, .createTemp] ++ [.chmod, .write, .sync, .close, .replace] from
          hstep)).elim (hdone step) (hnone step)
    obtain ⟨hfile, herr⟩ :=
      @runSteps_failed io file.marshal d' [.chmod, .write, .sync, .close] [.syncDir] (by decide) hlate
    split
    · next d'' err hrun' =>
      rw [cons_append, cons_append, cons_append, cons_append, nil_append, hrun'] at hfile
      have hremove := @runSteps_file io file.marshal d'' [.remove] (by decide)
      exact ⟨(hremove.trans hfile).trans hearly, _, rfl⟩
    · next d'' hrun' => exact absurd (congrArg Prod.snd hrun') herr

theorem writeFile_replaced (h : io.Replaces) : writeFile io file d = (⟨some file.marshal, none⟩,
        match io.fails .syncDir with
        | some err => .error (.system err)
        | none => .ok ()) := by
  have hnone : ∀ step ∈ replaceSteps, io.fails step = none := h
  simp only [replaceSteps, forall_mem_cons, not_mem_nil, false_implies, implies_true,
    and_true] at hnone
  obtain ⟨hmkdir, hcreate, hchmod, hwrite, hsync, hclose, hreplace⟩ := hnone
  cases hdir : io.fails .syncDir with
  | none => simp [writeFile, runSteps, IoStep.effect, *]
  | some err =>
    cases hremove : io.fails .remove <;> simp [writeFile, runSteps, IoStep.effect, *]

end Steps

/-! ## Calls that come to their replacement -/

namespace VaultOp

/-- The call has something to write: a sealed entry, or an entry to delete. -/
def Changes (io : VaultCalls) (content : Option VaultContent) : VaultOp → Prop
  | set _ _ => io.fails .random = none
  | delete provider => (heldEntries content).lookup provider ≠ none

/-- All that a call needs to replace the file: arguments that it accepts, a readable file whose
entries open, something to write, and no failing step up to the replacement. -/
structure Commits (env : VaultEnv) (io : VaultCalls) (content : Option VaultContent) (op : VaultOp) :
    Prop where
  accepted : op.check = none
  read : io.fails .read = none
  readable : Readable env content
  opens : ∃ key, io.loadKey = .ok key ∧ Authentic env key (heldEntries content)
  changes : op.Changes io content
  replaces : io.Replaces

variable {env : VaultEnv} {io : VaultCalls} {op : VaultOp} {d : VaultDir} {file next : VaultFile}

theorem revise_some_iff {content : Option VaultContent} {key : MasterKey}
    (hcheck : op.check = none) :
    (∃ next, op.Revises env io key ⟨vaultVersion, heldEntries content⟩ content.isSome next) ↔
      op.Changes io content := by
  cases op with
  | set provider secret =>
    constructor
    · rintro ⟨next, hrevises⟩
      cases hrevises with
      | set hvalid hrandom => exact hrandom
    · intro hrandom
      simp only [check] at hcheck
      split at hcheck
      · cases hcheck
      · split at hcheck
        · cases hcheck
        · next hvalid => exact ⟨_, .set hvalid hrandom⟩
  | delete provider =>
    constructor
    · rintro ⟨next, hrevises⟩
      cases hrevises with
      | delete hfound hentry => exact hentry
    · intro hentry
      refine ⟨_, .delete ?_ hentry⟩
      cases content with
      | none => exact absurd rfl hentry
      | some content => rfl

theorem Commits.call_eq (h : op.Commits env io d.file) : ∃ key, io.loadKey = .ok key ∧ ∃ next,
      op.Revises env io key ⟨vaultVersion, heldEntries d.file⟩ d.file.isSome next ∧
      op.call env io d = (⟨some next.marshal, none⟩,
          match io.fails .syncDir with
          | some err => .error (.system err)
          | none => .ok ()) := by
  obtain ⟨key, hkey, hopens⟩ := h.opens
  obtain ⟨next, hrevises⟩ := (@revise_some_iff env io op d.file key h.accepted).mpr h.changes
  have hread : readFile env io d.file = .ok (⟨vaultVersion, heldEntries d.file⟩, d.file.isSome) :=
    readFile_ok_iff.mpr ⟨h.read, h.readable, rfl, rfl⟩
  refine ⟨key, hkey, next, hrevises, ?_⟩
  rw [VaultOp.call_eq, h.accepted, hread]
  simp only [revise_ok_iff.mpr ⟨key, hkey, hopens, hrevises⟩]
  exact writeFile_replaced h.replaces

theorem call_file (h : ¬op.Commits env io d.file) : (op.call env io d).1.file = d.file := by
  rw [VaultOp.call_eq]
  split
  · rfl
  next hcheck =>
  split
  · rfl
  next file found hread =>
  obtain ⟨hok, hreadable, rfl, rfl⟩ := readFile_ok_iff.mp hread
  split
  · rfl
  · rfl
  next next hrevise =>
  obtain ⟨key, hkey, hopens, hrevises⟩ := revise_ok_iff.mp hrevise
  have hchanges := (revise_some_iff hcheck).mp ⟨next, hrevises⟩
  refine (writeFile_stopped fun hreplaces => h ?_).1
  exact ⟨hcheck, hok, hreadable, ⟨key, hkey, hopens⟩, hchanges, hreplaces⟩

theorem Revises.marshal_ne {key : MasterKey} {content : Option VaultContent} {found : Bool}
    (h : op.Revises env io key ⟨vaultVersion, heldEntries content⟩ found next) :
    some next.marshal ≠ content := by
  rintro rfl
  exact h.lookup_ne rfl

/-- A failed call leaves the file as it was, except if only the sync of the directory fails after
the replacement. -/
theorem failed_unchanged_iff (env : VaultEnv) (io : VaultCalls) (op : VaultOp) (d : VaultDir) :
    ((∃ err, (op.call env io d).2 = .error err) → (op.call env io d).1.file = d.file) ↔
      (io.fails .syncDir = none ∨ ¬op.Commits env io d.file) := by
  constructor
  · intro hkeeps
    by_contra hnot
    obtain ⟨hsync, hcommits⟩ := not_or.mp hnot
    obtain ⟨key, -, next, hrevises, hcall⟩ := (not_not.mp hcommits).call_eq
    obtain ⟨err, herr⟩ := Option.ne_none_iff_exists'.mp hsync
    rw [hcall, herr] at hkeeps
    exact hrevises.marshal_ne (hkeeps ⟨_, rfl⟩)
  · rintro (hsync | hstopped) ⟨err, herr⟩
    · by_cases hcommits : op.Commits env io d.file
      · obtain ⟨key, -, next, -, hcall⟩ := hcommits.call_eq
        rw [hcall, hsync] at herr
        cases herr
      · exact call_file hcommits
    · exact call_file hstopped

end VaultOp

/-! ## A failing directory sync -/

def clearHeader (key : MasterKey) (nonce : Bytes) (data : String) : Bytes :=
  key.1 ++ nonce ++ data.toList.map fun c => UInt8.ofNat c.toNat

/-- Its cipher puts the header in front of the plaintext. -/
def clearEnv : VaultEnv where
  sealData key nonce plaintext data := clearHeader key nonce.1 data ++ plaintext
  openData key nonce ciphertext data :=
    if clearHeader key nonce data <+: ciphertext then
      .ok (ciphertext.drop (clearHeader key nonce data).length)
    else .error "cipher: message authentication failed"
  open_seal key nonce plaintext data := by
    rw [if_pos (prefix_append _ _), drop_left]
  overhead_le key nonce plaintext data := by
    have hkey := key.2
    simp only [clearHeader, length_append]
    omega
  validTime _ := true

def steadyKey : MasterKey := ⟨List.replicate 32 0x42, rfl⟩

def steadyCalls (fails : IoStep → Option String) : VaultCalls where
  ctxErr := none
  keys := some steadyKey.1
  nonce := ⟨List.replicate 12 1, rfl⟩
  now := "2025-01-01T00:00:00Z"
  readOrder := []
  authOrder := []
  fails := fails

/-- A directory that cannot be synced: `Set` reports an error, and the credential is stored. -/
theorem unsynced_replaced :
    let io := steadyCalls fun step => if step = .syncDir then some "input/output error" else none
    let result := Vault.set clearEnv io "groq" [107, 101, 121] ⟨none, none⟩
    result.2 = .error (.system "input/output error") ∧ result.1.file ≠ none := by
  decide +kernel

end CalvoProxy
