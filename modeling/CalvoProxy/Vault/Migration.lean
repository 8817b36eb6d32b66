import CalvoProxy.Login.KeyStore
import CalvoProxy.Vault.Map

/-!
# Moving the login key into the vault

`migrateLegacyOpenRouterKey` moves the key from the file of `cmd/keystore.go` into the vault and
removes the file only after a `Get` has returned its key. Each operation can fail; the key is always
in one of the two places (`migration_keeps_key`).
-/

namespace CalvoProxy

open Vault KeyStore

variable {secret : Bytes}

/-! ## The key file -/

structure LegacyCalls where
  /-- what `keyFilePath` returns: nothing if it has no place for the file -/
  path : String
  readErr : Option String
  removeErr : Option String

/-- The file as `os.ReadFile` sees it. -/
def LegacyCalls.disk (io : LegacyCalls) (file : Option Bytes) : Disk :=
  fun _ => if io.readErr.isSome then none else file

/-- The file afterwards, and the error; a missing file is none. -/
def deleteAPIKey (io : LegacyCalls) (file : Option Bytes) : Option Bytes × Option String :=
  if io.path = "" then (file, none)
  else
    match io.removeErr with
    | some err => (file, some err)
    | none => (none, none)

/-- The calls of a migration share the key source of the vault. -/
structure MigrationCalls where
  keys : Option Bytes
  get : VaultCalls
  set : VaultCalls
  verify : VaultCalls
  legacy : LegacyCalls
  get_keys : get.keys = keys
  set_keys : set.keys = keys
  verify_keys : verify.keys = keys

inductive MigrationNote
  | notMigrated (err : VaultError)
  | differs
  | notVerified (err : Option VaultError)
  | notRemoved (err : String)
  | migrated
deriving DecidableEq, Repr

structure MigrationResult where
  vault : VaultDir
  file : Option Bytes
  note : Option MigrationNote
deriving DecidableEq

def removeLegacy (io : MigrationCalls) (vault : VaultDir) (file : Option Bytes) : MigrationResult :=
  match deleteAPIKey io.legacy file with
  | (file, some err) => ⟨vault, file, some (.notRemoved err)⟩
  | (file, none) => ⟨vault, file, some .migrated⟩

def migrateLegacyOpenRouterKey (env : VaultEnv) (io : MigrationCalls) (vault : VaultDir)
    (file : Option Bytes) : MigrationResult :=
  let legacy := storedAPIKey io.legacy.path (io.legacy.disk file)
  if legacy = [] then ⟨vault, file, none⟩
  else
    match Vault.get env io.get "openrouter" vault with
    | .error err => ⟨vault, file, some (.notMigrated err)⟩
    | .ok (some current) =>
      if current = legacy then removeLegacy io vault file else ⟨vault, file, some .differs⟩
    | .ok none =>
      let call := Vault.set env io.set "openrouter" legacy vault
      match call.2 with
      | .error err => ⟨call.1, file, some (.notMigrated err)⟩
      | .ok () =>
        match Vault.get env io.verify "openrouter" call.1 with
        | .error err => ⟨call.1, file, some (.notVerified (some err))⟩
        | .ok none => ⟨call.1, file, some (.notVerified none)⟩
        | .ok (some verified) =>
          if verified = legacy then removeLegacy io call.1 file
          else ⟨call.1, file, some (.notVerified none)⟩

/-! ## What the vault has -/

/-- Every `Get` with this key source that meets no failure returns the secret. -/
def Recovers (env : VaultEnv) (keys : Option Bytes) (provider : String) (secret : Bytes)
    (vault : VaultDir) : Prop :=
  ∀ io : VaultCalls, io.keys = keys → io.ctxErr = none → io.fails .read = none →
    io.fails .keyLoad = none → get env io provider vault = .ok (some secret)

section Get

variable {env : VaultEnv} {io : VaultCalls} {provider : String} {d : VaultDir}

theorem Vault.get_some_iff : get env io provider d = .ok (some secret) ↔
      allowedProvider provider = true ∧ io.fails .read = none ∧ Readable env d.file ∧
        ∃ entry key, (heldEntries d.file).lookup provider = some entry ∧ io.loadKey = .ok key ∧
          decrypt env key provider entry = .ok secret := by
  constructor
  · intro h
    unfold get at h
    split at h
    · cases h
    next hallowed =>
    split at h
    · cases h
    · cases h
    next file hread =>
    obtain ⟨hok, hreadable, rfl, -⟩ := readFile_ok_iff.mp hread
    split at h
    · cases h
    next entry hentry =>
    split at h
    · cases h
    next key hkey =>
    split at h
    · cases h
    next plaintext hplain =>
    cases h
    exact ⟨Bool.eq_true_of_not_eq_false hallowed, hok, hreadable, entry, key, hentry,
      hkey, hplain⟩
  · rintro ⟨hallowed, hok, hreadable, entry, key, hentry, hkey, hplain⟩
    have hfound : d.file.isSome = true := by
      cases hfile : d.file with
      | none =>
        rw [hfile] at hentry
        cases hentry
      | some content => rfl
    have hread := readFile_ok_iff.mpr ⟨hok, hreadable, rfl, hfound.symm⟩
    simp only [get, hallowed, hread, hentry, hkey, hplain, Bool.true_eq_false, if_false]

theorem Vault.get_none (h : get env io provider d = .ok none) :
    (heldEntries d.file).lookup provider = none := by
  unfold get at h
  split at h
  · cases h
  split at h
  · cases h
  · next hread =>
    -- without a file there are no entries
    obtain ⟨-, -, -, hfound⟩ := readFile_ok_iff.mp hread
    have hmissing : d.file = none := Option.not_isSome_iff_eq_none.mp (by simp [← hfound])
    rw [hmissing]
    rfl
  · next file hread =>
    obtain ⟨-, -, rfl, -⟩ := readFile_ok_iff.mp hread
    split at h
    · next hentry => exact hentry
    · split at h
      · cases h
      · split at h <;> cases h

theorem Vault.recovers_of_get (h : get env io provider d = .ok (some secret)) :
    Recovers env io.keys provider secret d := by
  obtain ⟨hallowed, -, hreadable, entry, key, hentry, hkey, hplain⟩ := get_some_iff.mp h
  intro io' hkeys hctx hread hload
  have hkey' : io'.loadKey = .ok key := by
    unfold VaultCalls.loadKey
    simp only [hctx, hkeys, VaultCalls.keys_of_loadKey hkey, hload, key.2, dite_true]
  exact get_some_iff.mpr ⟨hallowed, hread, hreadable, entry, key, hentry, hkey', hplain⟩

theorem VaultOp.lookup_call {op : VaultOp} (h : provider ≠ op.provider) :
    (heldEntries (op.call env io d).1.file).lookup provider =
      (heldEntries d.file).lookup provider := by
  by_cases hcommits : op.Commits env io d.file
  · obtain ⟨key, -, next, hrevises, hcall⟩ := hcommits.call_eq
    rw [hcall]
    show next.entries.lookup provider = _
    cases hrevises with
    | @set named => rw [GoMap.lookup_insert_eq, if_neg (show provider ≠ named from h)]
    | @delete named => rw [GoMap.lookup_erase_eq, if_neg (show provider ≠ named from h)]
  · rw [call_file hcommits]

end Get

/-! ## The key is not lost -/

section Migration

variable {env : VaultEnv} {io : MigrationCalls} {vault vault' : VaultDir} {file : Option Bytes}

theorem data_of_storedAPIKey {io : LegacyCalls} (h : storedAPIKey io.path (io.disk file) ≠ []) :
    ∃ data, file = some data ∧ storedAPIKey io.path (io.disk file) = trimmed data := by
  have hnothing : trimmed [] = [] := rfl
  unfold storedAPIKey LegacyCalls.disk at h ⊢
  split at h
  · exact absurd rfl h
  next hpath =>
  rw [if_neg hpath]
  split at h
  · exact absurd hnothing h
  next hread =>
  rw [if_neg hread]
  cases file with
  | none => exact absurd hnothing h
  | some data => exact ⟨data, rfl, rfl⟩

/-- The key is in its file, or the file is gone and the vault has the key; no other entry is
changed. -/
structure MigrationSafe (env : VaultEnv) (io : MigrationCalls) (vault : VaultDir)
    (file : Option Bytes) (r : MigrationResult) : Prop where
  key : r.file = file ∨ ∃ data, file = some data ∧ r.file = none ∧
    Recovers env io.keys "openrouter" (trimmed data) r.vault
  entries : ∀ provider entry, (heldEntries vault.file).lookup provider = some entry →
    (heldEntries r.vault.file).lookup provider = some entry

theorem MigrationSafe.stopped (note : Option MigrationNote) :
    MigrationSafe env io vault file ⟨vault, file, note⟩ :=
  ⟨.inl rfl, fun _ _ hentry => hentry⟩

theorem deleteAPIKey_file (io : LegacyCalls) (file : Option Bytes) :
    (deleteAPIKey io file).1 = file ∨ (deleteAPIKey io file).1 = none := by
  unfold deleteAPIKey
  split
  · exact .inl rfl
  · cases io.removeErr with
    | some err => exact .inl rfl
    | none => exact .inr rfl

theorem removeLegacy_eq : (removeLegacy io vault file).vault = vault ∧
    (removeLegacy io vault file).file = (deleteAPIKey io.legacy file).1 := by
  unfold removeLegacy
  split
  · next hdelete => exact ⟨rfl, (congrArg Prod.fst hdelete).symm⟩
  · next hdelete => exact ⟨rfl, (congrArg Prod.fst hdelete).symm⟩

theorem removeLegacy_safe (hlegacy : storedAPIKey io.legacy.path (io.legacy.disk file) ≠ [])
    (h : Recovers env io.keys "openrouter" (storedAPIKey io.legacy.path (io.legacy.disk file)) vault')
    (hkept : ∀ provider entry, (heldEntries vault.file).lookup provider = some entry →
      (heldEntries vault'.file).lookup provider = some entry) :
    MigrationSafe env io vault file (removeLegacy io vault' file) := by
  obtain ⟨data, hdata, hkey⟩ := data_of_storedAPIKey hlegacy
  obtain ⟨hvault, hfile⟩ := @removeLegacy_eq io vault' file
  refine ⟨?_, hvault.symm ▸ hkept⟩
  rw [hvault, hfile]
  rcases deleteAPIKey_file io.legacy file with hsame | hgone
  · exact .inl hsame
  · exact .inr ⟨data, hdata, hgone, hkey ▸ h⟩

theorem set_keeps_entries {io : VaultCalls} {secret : Bytes}
    (h : (heldEntries vault.file).lookup "openrouter" = none) (provider : String)
    (entry : EncryptedEntry) (hentry : (heldEntries vault.file).lookup provider = some entry) :
    (heldEntries (Vault.set env io "openrouter" secret vault).1.file).lookup provider =
      some entry := by
  have hother : provider ≠ "openrouter" := by
    rintro rfl
    cases hentry.symm.trans h
  exact (@VaultOp.lookup_call env io provider vault (.set "openrouter" secret) hother).trans hentry

/-- The old file goes only when the vault gives its key back, and no entry of the vault is lost. -/
theorem migration_keeps_key (env : VaultEnv) (io : MigrationCalls) (vault : VaultDir)
    (file : Option Bytes) :
    let r := migrateLegacyOpenRouterKey env io vault file
    (r.file = file ∨ ∃ data, file = some data ∧ r.file = none ∧
      Recovers env io.keys "openrouter" (trimmed data) r.vault) ∧
    ∀ provider entry, (heldEntries vault.file).lookup provider = some entry →
      (heldEntries r.vault.file).lookup provider = some entry := by
  suffices h : MigrationSafe env io vault file (migrateLegacyOpenRouterKey env io vault file) from
    ⟨h.key, h.entries⟩
  unfold migrateLegacyOpenRouterKey
  dsimp only
  split
  · exact .stopped _
  next hlegacy =>
  split
  · exact .stopped _
  · next current hget =>
    split
    · next hcurrent =>
      have hrecovers := recovers_of_get hget
      rw [io.get_keys, hcurrent] at hrecovers
      exact removeLegacy_safe hlegacy hrecovers fun _ _ hentry => hentry
    · exact .stopped _
  · next hget =>
    have hkept := @set_keeps_entries env vault io.set
      (storedAPIKey io.legacy.path (io.legacy.disk file)) (get_none hget)
    split
    · exact ⟨.inl rfl, hkept⟩
    split
    · exact ⟨.inl rfl, hkept⟩
    · exact ⟨.inl rfl, hkept⟩
    next verified hverify =>
    split
    · next hverified =>
      have hrecovers := recovers_of_get hverify
      rw [io.verify_keys, hverified] at hrecovers
      exact removeLegacy_safe hlegacy hrecovers hkept
    · exact ⟨.inl rfl, hkept⟩

-- a key with a line break is moved into an empty vault
example :
    let io : VaultCalls := steadyCalls fun _ => none
    let r := migrateLegacyOpenRouterKey clearEnv
      ⟨io.keys, io, io, io, ⟨"openrouter.key", none, none⟩, rfl, rfl, rfl⟩ ⟨none, none⟩ (some [107, 10])
    r.note = some .migrated ∧ r.file = none ∧
      Vault.get clearEnv io "openrouter" r.vault = .ok (some [107]) := by
  decide +kernel

end Migration

end CalvoProxy
