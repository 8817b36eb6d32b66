import Mathlib.Data.List.Induction
import CalvoProxy.Lib.LastWrite
import CalvoProxy.Vault.Failure

/-!
# The vault as a map

Every sequence of calls on one vault replies as a map does (`refines_map`), and nobody with another
key can read or change the file. The calls meet no failing step, and there are fewer than `2 ^ 64`
sets: a revision would come back to zero.
-/

namespace CalvoProxy

open List Option VaultOp Vault LastWrite Function

variable {n' : Nat} {entries : GoMap String EncryptedEntry} {entry : EncryptedEntry}
  {key' : MasterKey} {op : VaultOp} {provider : String}

/-! ## Calls and replies -/

inductive VaultCall
  | change (op : VaultOp)
  | get (provider : String)
  | status

inductive VaultReply
  | done (result : Except VaultError Unit)
  | value (result : Except VaultError (Option Bytes))
  | snapshot (snapshot : VaultSnapshot)

namespace VaultCall

def run (env : VaultEnv) (backend : String) (io : VaultCalls) (d : VaultDir) : VaultCall →
    VaultDir × VaultReply
  | change op =>
    let r := op.call env io d
    (r.1, .done r.2)
  | get provider => (d, .value (Vault.get env io provider d))
  | status => (d, .snapshot (Vault.status env io backend d))

def isSet : VaultCall → Bool
  | change (.set _ _) => true
  | _ => false

end VaultCall

def runCalls (env : VaultEnv) (backend : String) (calls : List (VaultCalls × VaultCall))
    (d : VaultDir) : VaultDir :=
  calls.foldl (fun d call => (call.2.run env backend call.1 d).1) d

/-- `bytes.TrimSpace` of valid text. -/
def trimSpace (secret : Bytes) : Bytes :=
  (((Utf8.runes secret).map trimRunes).getD []).flatMap Utf8.Rune.bytes

theorem validateSecret_ok {secret clean : Bytes} (h : validateSecret secret = .ok clean) :
    clean = trimSpace secret := by
  unfold validateSecret at h
  unfold trimSpace
  cases hrunes : Utf8.runes secret with
  | none =>
    rw [hrunes] at h
    cases h
  | some rs =>
    simp only [hrunes] at h
    split at h
    · cases h
    split at h
    · cases h
    · cases h
      rfl

namespace VaultCall

/-- The trimmed secret, or that there is none. -/
def write : VaultCall → Option (String × Option Bytes)
  | change (.set provider secret) =>
    if (set provider secret).check = none then some (provider, some (trimSpace secret))
    else none
  | change (.delete provider) =>
    if (delete provider).check = none then some (provider, none) else none
  | _ => none

def expected (backend : String) (values : String → Option Bytes) : VaultCall → VaultReply
  | change op =>
    .done (match op.check with
      | some err => .error err
      | none => .ok ())
  | get provider =>
    .value (if allowedProvider provider then .ok (values provider) else .error .invalidProvider)
  | status =>
    .snapshot ⟨backend, true, false,
      allProviders.map fun provider => ⟨provider, (values provider).isSome⟩⟩

end VaultCall

theorem VaultCall.write_change (h : op.check = none) :
    (change op).write = some (op.provider, op.value) := by
  cases op with
  | delete provider => simp only [write, h, if_true, VaultOp.provider, VaultOp.value]
  | set provider secret =>
    simp only [write, h, if_true, VaultOp.provider, VaultOp.value]
    cases hvalid : validateSecret secret with
    | ok clean => rw [validateSecret_ok hvalid, Except.toOption]
    | error err =>
      -- the error would be one of the check
      simp only [VaultOp.check, hvalid] at h
      split at h <;> cases h

theorem VaultCall.write_rejected {err : VaultError} (h : op.check = some err) :
    (change op).write = none := by
  cases op <;> simp [write, h]

theorem VaultCall.latest_other (values : String → Option Bytes) (h : provider ≠ op.provider) :
    latest values (change op).write.toList provider = values provider := by
  cases hcheck : op.check with
  | some err =>
    rw [write_rejected hcheck]
    rfl
  | none =>
    rw [write_change hcheck, toList_some, latest_singleton, update_of_ne h]

def writtenValues (calls : List VaultCall) : String → Option Bytes :=
  latest (fun _ => none) (calls.filterMap VaultCall.write)

theorem writtenValues_concat (calls : List VaultCall) (call : VaultCall) :
    writtenValues (calls ++ [call]) = latest (writtenValues calls) call.write.toList := by
  unfold writtenValues
  rw [filterMap_append, latest_append]
  cases hwrite : call.write <;> simp [hwrite]

/-! ## A call without failures -/

/-- A call whose steps succeed, with `key` and a valid time. -/
structure VaultCalls.Steady (env : VaultEnv) (key : MasterKey) (io : VaultCalls) : Prop where
  context : io.ctxErr = none
  source : io.keys = some key.1
  steps : ∀ step, io.fails step = none
  clock : env.validTime io.now = true

structure SealedEntry (env : VaultEnv) (key : MasterKey) (n : Nat) (provider : String)
    (entry : EncryptedEntry) : Prop where
  valid : entryError env provider entry = none
  revision : entry.revision.toNat ≤ n
  sealed : ∃ (nonce : Nonce) (clean : Bytes), entry.nonce = nonce.1 ∧
    entry.ciphertext = env.sealData key nonce clean (additionalData provider)

structure Kept (env : VaultEnv) (key : MasterKey) (n : Nat) (values : String → Option Bytes)
    (content : Option VaultContent) : Prop where
  readable : Readable env content
  entries : ∀ provider entry, (heldEntries content).lookup provider = some entry →
    SealedEntry env key n provider entry
  values_eq : stored env key (heldEntries content) = values

section Calls

variable {env : VaultEnv} {key : MasterKey} {io : VaultCalls} {n : Nat}
  {values : String → Option Bytes} {content : Option VaultContent} {d : VaultDir}

theorem VaultCalls.Steady.loadKey (h : io.Steady env key) : io.loadKey = .ok key := by
  unfold VaultCalls.loadKey
  simp only [h.context, h.source, h.steps .keyLoad, key.2, dite_true]

theorem VaultCalls.Steady.readFile (h : io.Steady env key) (hread : Readable env content) :
    readFile env io content = .ok (⟨vaultVersion, heldEntries content⟩, content.isSome) :=
  readFile_ok_iff.mpr ⟨h.steps .read, hread, rfl, rfl⟩

theorem VaultOp.allowed_of_check (op : VaultOp) (h : op.check = none) :
    allowedProvider op.provider = true := by
  cases hallowed : allowedProvider op.provider with
  | true => rfl
  | false =>
    cases op with
    | set provider secret | delete provider =>
      simp only [check, show allowedProvider provider = false from hallowed, if_true] at h
      cases h

namespace SealedEntry

theorem opens (h : SealedEntry env key n provider entry) :
    ∃ clean, decrypt env key provider entry = .ok clean := by
  obtain ⟨nonce, clean, hnonce, hsealed⟩ := h.sealed
  have hentry : entry = ⟨nonce.1, env.sealData key nonce clean (additionalData provider),
      entry.revision, entry.updatedAt⟩ := by
    rw [← hnonce, ← hsealed]
  rw [hentry]
  exact ⟨clean, decrypt_sealed nonce provider clean entry.revision entry.updatedAt⟩

theorem mono (h : SealedEntry env key n provider entry) (hn : n ≤ n') :
    SealedEntry env key n' provider entry :=
  ⟨h.valid, h.revision.trans hn, h.sealed⟩

theorem next (hio : io.Steady env key) (hallowed : allowedProvider provider = true)
    {revision : UInt64} (hrevision : revision.toNat ≤ n) (hbound : n + 1 < 2 ^ 64)
    (clean : Bytes) :
    SealedEntry env key (n + 1) provider
      ⟨io.nonce.1, env.sealData key io.nonce clean (additionalData provider), revision + 1,
        io.now⟩ := by
  have hnext : (revision + 1).toNat = revision.toNat + 1 := by
    rw [UInt64.toNat_add]
    exact Nat.mod_eq_of_lt (by show revision.toNat + 1 < 2 ^ 64; omega)
  refine ⟨?_, ?_, io.nonce, clean, rfl, rfl⟩
  · have hpos : revision + 1 ≠ 0 := by
      intro hzero
      rw [hzero] at hnext
      exact absurd hnext (Nat.succ_ne_zero _).symm
    simp [entryError, hallowed, hpos, hio.clock]
  · show (revision + 1).toNat ≤ n + 1
    omega

end SealedEntry

theorem insert_sealed (h : ∀ p e, entries.lookup p = some e → SealedEntry env key n p e)
    (hnew : SealedEntry env key (n + 1) provider entry) :
    ∀ p e, (entries.insert provider entry).lookup p = some e → SealedEntry env key (n + 1) p e := by
  intro p e he
  rw [GoMap.lookup_insert_eq] at he
  split at he
  · next hp =>
    cases he
    exact hp ▸ hnew
  · exact (h p e he).mono (Nat.le_succ n)

theorem readable_marshal (h : ∀ provider entry, entries.lookup provider = some entry →
      SealedEntry env key n provider entry) :
    Readable env (some (VaultFile.marshal ⟨vaultVersion, entries⟩)) :=
  .document rfl rfl fun provider entry hentry => (h provider entry hentry).valid

namespace Kept

theorem authentic (h : Kept env key n values content) : Authentic env key (heldEntries content) :=
  fun provider entry hentry => (h.entries provider entry hentry).opens

theorem empty (env : VaultEnv) (key : MasterKey) : Kept env key 0 (fun _ => none) none where
  readable := .missing
  entries provider entry hentry := by cases hentry
  values_eq := rfl

section

variable (h : Kept env key n values content)
include h

theorem mono (hn : n ≤ n') : Kept env key n' values content :=
  ⟨h.readable, fun provider entry hentry => (h.entries provider entry hentry).mono hn, h.values_eq⟩

theorem value_eq (provider : String) :
    values provider = ((heldEntries content).lookup provider).bind fun entry =>
      (decrypt env key provider entry).toOption :=
  (congrFun h.values_eq provider).symm

theorem isSome_value (provider : String) :
    (values provider).isSome = ((heldEntries content).lookup provider).isSome := by
  rw [h.value_eq]
  cases hentry : (heldEntries content).lookup provider with
  | none => rfl
  | some entry =>
    obtain ⟨clean, hclean⟩ := h.authentic provider entry hentry
    rw [bind_some, hclean]
    rfl

end

theorem get_eq (h : Kept env key n values d.file) (hio : io.Steady env key) (provider : String) :
    get env io provider d =
      if allowedProvider provider then .ok (values provider) else .error .invalidProvider := by
  unfold Vault.get
  rw [hio.readFile h.readable, h.value_eq]
  cases allowedProvider provider with
  | false => rfl
  | true =>
    cases hfile : d.file with
    | none => rfl
    | some content =>
      cases hentry : (heldEntries (some content)).lookup provider with
      | none => simp [hentry]
      | some entry =>
        obtain ⟨clean, hclean⟩ := h.authentic provider entry (hfile ▸ hentry)
        simp [hentry, hio.loadKey, hclean, Except.toOption]

theorem status_eq (h : Kept env key n values d.file) (hio : io.Steady env key) (backend : String) :
    status env io backend d = ⟨backend, true, false,
        allProviders.map fun provider => ⟨provider, (values provider).isSome⟩⟩ := by
  have hconfigured : (allProviders.map fun provider => ⟨provider, (values provider).isSome⟩) =
      providerStatuses (heldEntries d.file) := by
    unfold providerStatuses
    refine map_congr_left fun provider _ => ?_
    rw [h.isSome_value]
  have hopens : authenticateEntries env key io.authOrder (heldEntries d.file) = none :=
    authenticateEntries_eq_none_iff.mpr h.authentic
  rw [hconfigured]
  unfold status
  rw [hio.readFile h.readable]
  cases hfile : d.file with
  | none => simp [hio.loadKey, heldEntries]
  | some content =>
    rw [hfile] at hopens
    simp [hio.loadKey, hopens]

theorem revised {next : VaultFile} {found : Bool} (h : Kept env key n values content)
    (hio : io.Steady env key) (hcheck : op.check = none)
    (hbound : n + (if (VaultCall.change op).isSet then 1 else 0) < 2 ^ 64)
    (hrevises : op.Revises env io key ⟨vaultVersion, heldEntries content⟩ found next) :
    Kept env key (n + if (VaultCall.change op).isSet then 1 else 0)
      (update values op.provider op.value) (some next.marshal) := by
  have hvalues : stored env key (heldEntries (some next.marshal)) =
      update values op.provider op.value := by
    rw [← h.values_eq]
    exact hrevises.stored
  have hallowed := op.allowed_of_check hcheck
  cases hrevises with
  | @set provider secret clean hvalid hrandom =>
    have hrevision : ((((heldEntries content).lookup provider).map
        EncryptedEntry.revision).getD 0).toNat ≤ n := by
      cases hold : (heldEntries content).lookup provider with
      | none => exact Nat.zero_le n
      | some old => exact (h.entries provider old hold).revision
    have hentries := insert_sealed h.entries (.next hio hallowed hrevision hbound clean)
    exact ⟨readable_marshal hentries, hentries, hvalues⟩
  | @delete provider hfound hentry =>
    have hentries : ∀ p entry, ((heldEntries content).erase provider).lookup p = some entry →
        SealedEntry env key n p entry := by
      intro p entry hentry
      rw [GoMap.lookup_erase_eq] at hentry
      split at hentry
      · cases hentry
      · exact h.entries p entry hentry
    exact ⟨readable_marshal hentries, hentries, hvalues⟩

theorem accepted (h : Kept env key n values d.file) (hio : io.Steady env key)
    (hcheck : op.check = none)
    (hbound : n + (if (VaultCall.change op).isSet then 1 else 0) < 2 ^ 64) :
    (op.call env io d).2 = .ok () ∧ Kept env key (n + if (VaultCall.change op).isSet then 1 else 0)
        (update values op.provider op.value) (op.call env io d).1.file := by
  by_cases hchanges : op.Changes io d.file
  · have hcommits : op.Commits env io d.file :=
      ⟨hcheck, hio.steps .read, h.readable, ⟨key, hio.loadKey, h.authentic⟩, hchanges,
        fun step _ => hio.steps step⟩
    obtain ⟨key', hkey, next, hrevises, hcall⟩ := hcommits.call_eq
    cases hkey.symm.trans hio.loadKey
    rw [hcall, hio.steps .syncDir]
    exact ⟨rfl, h.revised hio hcheck hbound hrevises⟩
  · cases op with
    | set provider secret => exact absurd (hio.steps .random) hchanges
    | delete provider =>
      -- there is nothing to delete, and no value to lose
      have hentry : (heldEntries d.file).lookup provider = none := not_not.mp hchanges
      have hnone : update values provider none = values := by
        rw [update_eq_self_iff, h.value_eq, hentry]
        rfl
      have hcall : (delete provider).call env io d = (d, .ok ()) := by
        have hopens : authenticateEntries env key io.authOrder (heldEntries d.file) = none :=
          authenticateEntries_eq_none_iff.mpr h.authentic
        rw [call_eq, hcheck, hio.readFile h.readable]
        cases hfound : d.file.isSome with
        | false => rfl
        | true =>
          simp [revise, deleteEntry, hio.loadKey, hopens, hentry, bind, Except.bind]
      rw [hcall]
      exact ⟨rfl, hnone.symm ▸ h⟩

theorem run {call : VaultCall} (h : Kept env key n values d.file) (hio : io.Steady env key)
    (hbound : n + (if call.isSet then 1 else 0) < 2 ^ 64) (backend : String) :
    (call.run env backend io d).2 = call.expected backend values ∧
      Kept env key (n + if call.isSet then 1 else 0) (latest values call.write.toList)
        (call.run env backend io d).1.file := by
  cases call with
  | get provider =>
    simp only [VaultCall.run, VaultCall.expected, VaultCall.isSet, VaultCall.write]
    exact ⟨by rw [h.get_eq hio], h⟩
  | status =>
    simp only [VaultCall.run, VaultCall.expected, VaultCall.isSet, VaultCall.write]
    exact ⟨by rw [h.status_eq hio], h⟩
  | change op =>
    simp only [VaultCall.run, VaultCall.expected]
    cases hcheck : op.check with
    | none =>
      obtain ⟨hreply, hkept⟩ := h.accepted hio hcheck hbound
      rw [hreply, VaultCall.write_change hcheck]
      rw [toList_some, latest_singleton]
      exact ⟨rfl, hkept⟩
    | some err =>
      have hcall : op.call env io d = (d, .error err) := by rw [call_eq, hcheck]
      rw [hcall, VaultCall.write_rejected hcheck]
      exact ⟨rfl, h.mono (Nat.le_add_right _ _)⟩

end Kept

theorem runCalls_kept (backend : String) (calls : List (VaultCalls × VaultCall))
    (hsteady : ∀ call ∈ calls, call.1.Steady env key)
    (hsets : calls.countP (fun call => call.2.isSet) < 2 ^ 64) :
    Kept env key (calls.countP fun call => call.2.isSet) (writtenValues (calls.map Prod.snd))
      (runCalls env backend calls ⟨none, none⟩).file := by
  induction calls using List.reverseRecOn with
  | nil => exact .empty env key
  | append_singleton calls call ih =>
    rw [countP_append, countP_singleton] at hsets ⊢
    have hbefore := ih (fun c hc => hsteady c (mem_append_left _ hc))
      (lt_of_le_of_lt (Nat.le_add_right _ _) hsets)
    have hio := hsteady call (mem_append_right _ (mem_singleton_self call))
    rw [map_append, map_singleton, writtenValues_concat, runCalls, foldl_append]
    exact (hbefore.run hio hsets backend).2

/-! ## Another key -/

/-- What is sealed under one key does not open under another one. -/
def VaultEnv.Exact (env : VaultEnv) : Prop :=
  ∀ (key key' : MasterKey) (nonce : Nonce) (plaintext : Bytes) (data : String), key ≠ key' →
    ∃ err, env.openData key' nonce.1 (env.sealData key nonce plaintext data) data = .error err

theorem VaultCalls.keys_of_loadKey (h : io.loadKey = .ok key') : io.keys = some key'.1 := by
  unfold VaultCalls.loadKey at h
  split at h
  · cases h
  split at h
  · cases h
  next loaded hloaded =>
  split at h
  · cases h
  split at h
  · cases h
    exact hloaded
  · cases h

theorem SealedEntry.locked (henv : env.Exact) (h : SealedEntry env key n provider entry)
    (hkey : key ≠ key') :
    ∃ err, decrypt env key' provider entry = .error err := by
  obtain ⟨nonce, clean, hnonce, hsealed⟩ := h.sealed
  unfold decrypt
  split
  · exact ⟨_, rfl⟩
  · rw [hnonce, hsealed]
    exact henv key key' nonce clean (additionalData provider) hkey

theorem VaultOp.revise_locked {file : VaultFile}
    (h : ∀ key, io.loadKey = .ok key → ¬Authentic env key file.entries) :
    ∃ err, op.revise env io file true = .error err := by
  cases hrevise : op.revise env io file true with
  | error err => exact ⟨err, rfl⟩
  | ok next =>
    cases op with
    | delete provider =>
      obtain ⟨key, hkey, hopens, -⟩ := unlocked_ok_iff.mp hrevise
      exact absurd hopens (h key hkey)
    | set provider secret =>
      simp only [revise] at hrevise
      split at hrevise
      · cases hrevise
      next clean _ =>
      cases hset : setEntry env io provider clean file with
      | error err => rw [hset] at hrevise; cases hrevise
      | ok next =>
        obtain ⟨key, hkey, hopens, -⟩ := setEntry_ok_iff.mp hset
        exact absurd hopens (h key hkey)

namespace Kept

theorem entry_of_value (h : Kept env key n values content) (hvalue : values provider ≠ none) :
    ∃ entry, (heldEntries content).lookup provider = some entry :=
  isSome_iff_exists.mp ((h.isSome_value provider).symm.trans (isSome_iff_ne_none.mpr hvalue))

theorem found_of_value (h : Kept env key n values content)
    (hvalue : values provider ≠ none) : content.isSome = true := by
  obtain ⟨entry, hentry⟩ := h.entry_of_value hvalue
  cases content with
  | none => cases hentry
  | some content => rfl

theorem locked (henv : env.Exact) (h : Kept env key n values content) (hkeys : io.keys ≠ some key.1)
    (hentry : (heldEntries content).lookup provider = some entry) (hkey : io.loadKey = .ok key') :
    ∃ err, decrypt env key' provider entry = .error err := by
  refine (h.entries provider entry hentry).locked henv ?_
  rintro rfl
  exact hkeys (VaultCalls.keys_of_loadKey hkey)

theorem get_locked (henv : env.Exact) (h : Kept env key n values d.file)
    (hkeys : io.keys ≠ some key.1) (hvalue : values provider ≠ none) :
    ∃ err, get env io provider d = .error err := by
  obtain ⟨entry, hentry⟩ := h.entry_of_value hvalue
  unfold Vault.get
  split
  · exact ⟨_, rfl⟩
  split
  · exact ⟨_, rfl⟩
  · next hread =>
    obtain ⟨-, -, -, hfound⟩ := readFile_ok_iff.mp hread
    cases hfound.trans (h.found_of_value hvalue)
  · next file hread =>
    obtain ⟨-, -, rfl, -⟩ := readFile_ok_iff.mp hread
    simp only [hentry]
    cases hkey : io.loadKey with
    | error err => exact ⟨err, rfl⟩
    | ok key' =>
      obtain ⟨err, herr⟩ := h.locked henv hkeys hentry hkey
      exact ⟨.locked (some err), by simp only [herr]⟩

theorem call_locked (henv : env.Exact) (h : Kept env key n values d.file)
    (hkeys : io.keys ≠ some key.1) (hvalue : values provider ≠ none) (op : VaultOp) :
    ∃ err, (op.call env io d).2 = .error err := by
  obtain ⟨entry, hentry⟩ := h.entry_of_value hvalue
  rw [call_eq]
  split
  · exact ⟨_, rfl⟩
  split
  · exact ⟨_, rfl⟩
  next file found hread =>
  obtain ⟨-, -, rfl, rfl⟩ := readFile_ok_iff.mp hread
  rw [h.found_of_value hvalue]
  have hlocked : ∀ key', io.loadKey = .ok key' → ¬Authentic env key' (heldEntries d.file) := by
    intro key' hkey hopens
    obtain ⟨err, herr⟩ := h.locked henv hkeys hentry hkey
    obtain ⟨plaintext, hplain⟩ := hopens provider entry hentry
    cases hplain.symm.trans herr
  obtain ⟨err, herr⟩ := @VaultOp.revise_locked op env io
    ⟨vaultVersion, heldEntries d.file⟩ hlocked
  rw [herr]
  exact ⟨err, rfl⟩

end Kept

end Calls

/-- Every reply is that of a map, a call changes the value of its own provider only, and another key
neither reads nor changes a value. -/
theorem Vault.refines_map (env : VaultEnv) (henv : env.Exact) (key : MasterKey) (backend : String)
    (calls : List (VaultCalls × VaultCall)) (io : VaultCalls) (call : VaultCall)
    (hsteady : ∀ c ∈ calls ++ [(io, call)], c.1.Steady env key)
    (hsets : (calls ++ [(io, call)]).countP (fun c => c.2.isSet) < 2 ^ 64) :
    let d := runCalls env backend calls ⟨none, none⟩
    let values := writtenValues (calls.map Prod.snd)
    (call.run env backend io d).2 = call.expected backend values ∧
    (∀ op provider io', call = .change op → provider ≠ op.provider → io'.Steady env key →
      get env io' provider (call.run env backend io d).1 = get env io' provider d) ∧
    (∀ io', io'.fails .read = none → ∃ read, readFile env io' d.file = .ok read) ∧
    ∀ provider io', values provider ≠ none → io'.keys ≠ some key.1 →
      (∃ err, get env io' provider d = .error err) ∧
      ∀ op : VaultOp, ∃ err, (op.call env io' d).2 = .error err := by
  intro d values
  have hio := hsteady (io, call) (mem_append_right _ (mem_singleton_self _))
  rw [countP_append, countP_singleton] at hsets
  have hkept : Kept env key _ values d.file := runCalls_kept backend calls
    (fun c hc => hsteady c (mem_append_left _ hc))
    (lt_of_le_of_lt (Nat.le_add_right _ _) hsets)
  obtain ⟨hreply, hafter⟩ := hkept.run hio hsets backend
  refine ⟨hreply, ?_, ?_, ?_⟩
  · rintro op provider io' rfl hother hio'
    rw [hafter.get_eq hio', hkept.get_eq hio']
    rw [VaultCall.latest_other values hother]
  · intro io' hread
    exact ⟨_, readFile_ok_iff.mpr ⟨hread, hkept.readable, rfl, rfl⟩⟩
  · intro provider io' hvalue hkeys
    exact ⟨hkept.get_locked henv hkeys hvalue, hkept.call_locked henv hkeys hvalue⟩

theorem clearEnv_exact : clearEnv.Exact := by
  intro key key' nonce plaintext data hne
  have hother : ¬clearHeader key' nonce.1 data <+: clearHeader key nonce.1 data ++ plaintext := by
    rintro ⟨rest, hrest⟩
    unfold clearHeader at hrest
    simp only [append_assoc] at hrest
    exact hne (Subtype.ext (append_inj_left hrest (key'.2.trans key.2.symm)).symm)
  exact ⟨_, if_neg hother⟩

/-- A padded secret is read back without its spaces, and locked for a zero key. -/
theorem padded_secret_refines : let io := steadyCalls fun _ => none
    let zero := { io with keys := some (List.replicate 32 0) }
    let d := runCalls clearEnv "file" [(io, .change (.set "groq" [32, 107, 10]))] ⟨none, none⟩
    Vault.get clearEnv io "groq" d = .ok (some [107]) ∧
      ∃ err, Vault.get clearEnv zero "groq" d = .error err := by
  intro io zero d
  have hlaw := Vault.refines_map clearEnv clearEnv_exact steadyKey "file"
    [(io, .change (.set "groq" [32, 107, 10]))] io (.get "groq")
    (by
      intro c hc
      simp only [cons_append, nil_append, mem_cons, not_mem_nil, or_false] at hc
      rcases hc with rfl | rfl <;> exact ⟨rfl, rfl, fun _ => rfl, rfl⟩)
    (by decide)
  obtain ⟨hreply, -, -, hlocked⟩ := hlaw
  refine ⟨?_, (hlocked "groq" zero (by decide +kernel) (by decide)).1⟩
  exact VaultReply.value.inj hreply

end CalvoProxy
