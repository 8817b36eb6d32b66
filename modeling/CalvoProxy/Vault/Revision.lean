import CalvoProxy.Vault.Store

/-!
# Revisions of the vault file

When a file can be read (`readFile_ok_iff`), when a call has one to write (`VaultOp.revise_ok_iff`),
and what it stores (`VaultOp.Revises.stored`).
-/

namespace CalvoProxy

variable {order : List String} {entries : GoMap String EncryptedEntry} {provider : String}

/-- None when the file is missing or does not decode. -/
def heldEntries : Option VaultContent → GoMap String EncryptedEntry
  | some (.document doc) => doc.decodedEntries.getD ∅
  | _ => ∅

def stored (env : VaultEnv) (key : MasterKey) (entries : GoMap String EncryptedEntry)
    (provider : String) : Option Bytes :=
  (entries.lookup provider).bind fun entry => (decrypt env key provider entry).toOption

/-- The file is missing, or decodes to a version and entries that pass their checks. -/
inductive Readable (env : VaultEnv) : Option VaultContent → Prop
  | missing : Readable env none
  | document {doc : VaultDocument} {entries : GoMap String EncryptedEntry}
      (version : doc.decodedVersion = vaultVersion) (present : doc.decodedEntries = some entries)
      (valid : ∀ provider entry, entries.lookup provider = some entry →
        entryError env provider entry = none) : Readable env (some (.document doc))

def Authentic (env : VaultEnv) (key : MasterKey) (entries : GoMap String EncryptedEntry) : Prop :=
  ∀ provider entry, entries.lookup provider = some entry →
    ∃ plaintext, decrypt env key provider entry = .ok plaintext

inductive VaultOp.Revises (env : VaultEnv) (io : VaultCalls) (key : MasterKey) (file : VaultFile)
    (found : Bool) : VaultOp → VaultFile → Prop
  | set {provider : String} {secret clean : Bytes} (valid : validateSecret secret = .ok clean)
      (random : io.fails .random = none) :
      Revises env io key file found (.set provider secret) { file with
          entries := file.entries.insert provider
            ⟨io.nonce.1, env.sealData key io.nonce clean (additionalData provider),
              ((file.entries.lookup provider).map EncryptedEntry.revision).getD 0 + 1, io.now⟩ }
  | delete {provider : String} (hfound : found = true)
      (present : file.entries.lookup provider ≠ none) :
      Revises env io key file found (.delete provider)
        { file with entries := file.entries.erase provider }

section Specs

variable {env : VaultEnv} {io : VaultCalls} {content : Option VaultContent} {file next : VaultFile}
  {found : Bool} {key : MasterKey}

theorem range_findSome?_eq_none {f : String → EncryptedEntry → Option String} :
    ((entries.range order).findSome? fun e => f e.1 e.2) = none ↔
      ∀ provider entry, entries.lookup provider = some entry → f provider entry = none := by
  rw [List.findSome?_eq_none_iff]
  constructor
  · intro h provider entry hlookup
    exact h ⟨provider, entry⟩ (GoMap.mem_range.mpr hlookup)
  · intro h e he
    exact h e.1 e.2 (GoMap.mem_range.mp he)

theorem checkDocument_ok_iff {doc : VaultDocument} : checkDocument env order doc = .ok file ↔
      Readable env (some (.document doc)) ∧
        file = ⟨vaultVersion, heldEntries (some (.document doc))⟩ := by
  have hheld : heldEntries (some (.document doc)) = doc.decodedEntries.getD ∅ := rfl
  unfold checkDocument
  constructor
  · intro h
    cases hentries : doc.decodedEntries with
    | none => rw [hentries] at h; cases h
    | some entries =>
      rw [hentries] at h hheld
      simp only at h
      split at h
      · cases h
      next hversion =>
      rw [not_not] at hversion
      split at h
      · cases h
      next hvalid =>
      cases h
      rw [hheld, hversion]
      exact ⟨.document hversion hentries (range_findSome?_eq_none.mp hvalid), rfl⟩
  · rintro ⟨hread, rfl⟩
    cases hread with
    | document hversion hentries hvalid => ?_
    rw [hheld, hentries]
    simp only [hversion, ne_eq, not_true_eq_false, if_false, Option.getD_some,
      range_findSome?_eq_none.mpr hvalid]

theorem readFile_ok_iff : readFile env io content = .ok (file, found) ↔
    io.fails .read = none ∧ Readable env content ∧ file = ⟨vaultVersion, heldEntries content⟩ ∧
      found = content.isSome := by
  unfold readFile
  cases io.fails .read with
  | some err => simp
  | none =>
    match content with
    | none =>
      constructor
      · rintro ⟨⟩
        exact ⟨rfl, .missing, rfl, rfl⟩
      · rintro ⟨-, -, rfl, rfl⟩
        rfl
    | some (.undecodable data) =>
      constructor
      · exact nofun
      · rintro ⟨-, hread, -⟩
        cases hread
    | some (.document doc) =>
      show (checkDocument env io.readOrder doc).map (fun file => (file, true)) = .ok (file, found) ↔ _
      constructor
      · intro h
        cases hdoc : checkDocument env io.readOrder doc with
        | error err => rw [hdoc] at h; cases h
        | ok file =>
          rw [hdoc] at h
          cases h
          obtain ⟨hread, hfile⟩ := checkDocument_ok_iff.mp hdoc
          exact ⟨rfl, hread, hfile, rfl⟩
      · rintro ⟨-, hread, hfile, rfl⟩
        have hdoc : checkDocument env io.readOrder doc = .ok file :=
          checkDocument_ok_iff.mpr ⟨hread, hfile⟩
        simp only [hdoc]
        rfl

theorem authenticateEntries_eq_none_iff :
    authenticateEntries env key order entries = none ↔ Authentic env key entries := by
  refine range_findSome?_eq_none.trans (forall₃_congr fun provider entry _ => ?_)
  unfold decryptError
  cases decrypt env key provider entry with
  | error err => exact ⟨nofun, nofun⟩
  | ok plaintext => exact ⟨fun _ => ⟨plaintext, rfl⟩, fun _ => rfl⟩

/-- What set and delete do once they have the key and every entry opens under it. -/
theorem unlocked_ok_iff {α : Type} {f : MasterKey → Except VaultError α} {a : α} : (do
      let key ← io.loadKey
      match authenticateEntries env key io.authOrder entries with
      | some err => .error (.locked (some err))
      | none => f key) = .ok a ↔
      ∃ key, io.loadKey = .ok key ∧ Authentic env key entries ∧ f key = .ok a := by
  cases io.loadKey with
  | error err => simp [bind, Except.bind]
  | ok key =>
    have hauth := @authenticateEntries_eq_none_iff io.authOrder entries env key
    cases hnone : authenticateEntries env key io.authOrder entries with
    | some err => simp [bind, Except.bind, hnone, ← hauth]
    | none => simp [bind, Except.bind, hnone, ← hauth]

theorem setEntry_ok_iff {clean : Bytes} : setEntry env io provider clean file = .ok next ↔
      ∃ key, io.loadKey = .ok key ∧ Authentic env key file.entries ∧ io.fails .random = none ∧
        next = { file with
          entries := file.entries.insert provider
            ⟨io.nonce.1, env.sealData key io.nonce clean (additionalData provider),
              ((file.entries.lookup provider).map EncryptedEntry.revision).getD 0 + 1, io.now⟩ } := by
  refine unlocked_ok_iff.trans (exists_congr fun key => and_congr_right' (and_congr_right' ?_))
  cases hrandom : io.fails .random with
  | some err => simp [bind, Except.bind, encrypt, hrandom]
  | none => simp [bind, Except.bind, encrypt, hrandom, eq_comm]

theorem deleteEntry_ok_iff : deleteEntry env io provider file = .ok (some next) ↔
      ∃ key, io.loadKey = .ok key ∧ Authentic env key file.entries ∧
        file.entries.lookup provider ≠ none ∧
        next = { file with entries := file.entries.erase provider } := by
  refine unlocked_ok_iff.trans (exists_congr fun key => and_congr_right' (and_congr_right' ?_))
  split
  · next hnone => simp [hnone]
  · next hsome => simp [hsome, eq_comm]

theorem decrypt_sealed (nonce : Nonce) (provider : String) (clean : Bytes) (revision : UInt64)
    (updatedAt : String) :
    decrypt env key provider ⟨nonce.1, env.sealData key nonce clean (additionalData provider),
      revision, updatedAt⟩ = .ok clean := by
  have hlong := env.overhead_le key nonce clean (additionalData provider)
  unfold decrypt
  rw [if_neg (by simp [nonce.2, hlong])]
  exact env.open_seal key nonce clean (additionalData provider)

namespace VaultOp

variable {op : VaultOp}

theorem revise_ok_iff : op.revise env io file found = .ok (some next) ↔
      ∃ key, io.loadKey = .ok key ∧ Authentic env key file.entries ∧
        op.Revises env io key file found next := by
  cases op with
  | set provider secret =>
    simp only [revise]
    constructor
    · intro h
      cases hvalid : validateSecret secret with
      | error err => rw [hvalid] at h; cases h
      | ok clean =>
        rw [hvalid] at h
        cases hset : setEntry env io provider clean file with
        | error err => simp only [hset] at h; cases h
        | ok written =>
          simp only [hset] at h
          cases h
          obtain ⟨key, hkey, hopens, hrandom, rfl⟩ := setEntry_ok_iff.mp hset
          exact ⟨key, hkey, hopens, .set hvalid hrandom⟩
    · rintro ⟨key, hkey, hopens, hrevises⟩
      cases hrevises with
      | set hvalid hrandom =>
        simp only [hvalid, setEntry_ok_iff.mpr ⟨key, hkey, hopens, hrandom, rfl⟩]
        rfl
  | delete provider =>
    simp only [revise]
    constructor
    · intro h
      cases found with
      | false => cases h
      | true =>
        obtain ⟨key, hkey, hopens, hentry, rfl⟩ := deleteEntry_ok_iff.mp h
        exact ⟨key, hkey, hopens, .delete rfl hentry⟩
    · rintro ⟨key, hkey, hopens, hrevises⟩
      cases hrevises with
      | delete hfound hentry =>
        rw [if_pos hfound]
        exact deleteEntry_ok_iff.mpr ⟨key, hkey, hopens, hentry, rfl⟩

theorem Revises.stored (h : op.Revises env io key file found next) : stored env key next.entries =
      Function.update (CalvoProxy.stored env key file.entries) op.provider op.value := by
  funext q
  rw [Function.update_apply]
  unfold CalvoProxy.stored
  cases h with
  | @set provider secret clean hvalid hrandom =>
    show ((file.entries.insert provider _).lookup q).bind _ =
      if q = provider then (validateSecret secret).toOption else _
    rw [GoMap.lookup_insert_eq, hvalid]
    split
    · next hq =>
      subst hq
      rw [Option.bind_some, decrypt_sealed]
      rfl
    · rfl
  | @delete provider hfound hentry =>
    show ((file.entries.erase provider).lookup q).bind _ = if q = provider then none else _
    rw [GoMap.lookup_erase_eq]
    split <;> rfl

theorem Revises.lookup_ne (h : op.Revises env io key file found next) :
    next.entries.lookup op.provider ≠ file.entries.lookup op.provider := by
  cases h with
  | @set provider secret clean hvalid hrandom =>
    show (file.entries.insert provider _).lookup provider ≠ file.entries.lookup provider
    rw [AList.lookup_insert]
    intro heq
    rw [← heq] at heq
    have hrevision := congrArg EncryptedEntry.revision (Option.some.inj heq)
    simp at hrevision
  | @delete provider hfound hentry =>
    show (file.entries.erase provider).lookup provider ≠ file.entries.lookup provider
    rw [AList.lookup_erase]
    exact hentry.symm

end VaultOp

end Specs

end CalvoProxy
