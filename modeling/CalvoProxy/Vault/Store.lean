import CalvoProxy.Lib.GoMap
import CalvoProxy.Lib.GoString
import CalvoProxy.Lib.Utf8

/-!
# The provider vault

`internal/secretstore`: `Set` and `Delete` read the whole file, check that every entry opens, change
one and replace the file by way of a temporary one. What a call meets outside is `VaultCalls`, the
cipher is in `VaultEnv`; a file stands for what decodes from it.
-/

namespace CalvoProxy

abbrev Bytes := List UInt8

/-! ## Errors and arguments -/

/-- `locked` may wrap another error, of which the text is kept; an error of the context, the random
source or a file operation is `system`. -/
inductive VaultError
  | invalidProvider
  | invalidSecret
  | invalidKey
  | locked (cause : Option String)
  | system (text : String)
deriving DecidableEq, Repr

def allowedProvider (provider : String) : Bool :=
  provider = "openrouter" || provider = "cerebras" || provider = "groq"

def vaultVersion : Int := 1

def maxSecretLen : Nat := 4096

/-- `unicode.IsControl`. -/
def isControl (c : Char) : Bool := c.toNat < 0x20 || (0x7F ≤ c.toNat && c.toNat < 0xA0)

/-- `bytes.TrimSpace` of a text, rune by rune. -/
def trimRunes (rs : List Utf8.Rune) : List Utf8.Rune :=
  ((rs.dropWhile fun r => GoString.isSpace r.char).reverse.dropWhile
    fun r => GoString.isSpace r.char).reverse

def validateSecret (secret : Bytes) : Except VaultError Bytes :=
  match Utf8.runes secret with
  -- white space cut off at the ends leaves text that is not valid as it was
  | none => .error .invalidSecret
  | some rs =>
    let trimmed := trimRunes rs
    let clean := trimmed.flatMap Utf8.Rune.bytes
    if clean.length = 0 || maxSecretLen < clean.length then .error .invalidSecret
    else if trimmed.any fun r => isControl r.char then .error .invalidSecret
    else .ok clean

structure EncryptedEntry where
  nonce : Bytes
  ciphertext : Bytes
  revision : UInt64
  updatedAt : String
deriving DecidableEq

structure VaultFile where
  version : Int
  entries : GoMap String EncryptedEntry
deriving DecidableEq

/-- The version is `none` when the field is missing or null; the entries are `none` when it is
missing and `some none` when it is null. -/
structure VaultDocument where
  version : Option Int
  entries : Option (Option (GoMap String EncryptedEntry))
deriving DecidableEq

inductive VaultContent
  | undecodable (data : Bytes)
  | document (doc : VaultDocument)
deriving DecidableEq

def VaultFile.marshal (file : VaultFile) : VaultContent :=
  .document ⟨some file.version, some (some file.entries)⟩

/-- The file at its path, and the temporary file of the call. -/
structure VaultDir where
  file : Option VaultContent
  tmp : Option VaultContent
deriving DecidableEq

/-! ## The world around a call -/

/-- `loadKey` and `newAEAD` accept keys of 32 bytes only. -/
abbrev MasterKey := { key : Bytes // key.length = 32 }

abbrev Nonce := { nonce : Bytes // nonce.length = 12 }

structure VaultEnv where
  /-- seals a plaintext with additional data -/
  sealData : MasterKey → Nonce → Bytes → String → Bytes
  openData : MasterKey → Bytes → Bytes → String → Except String Bytes
  open_seal : ∀ key nonce plaintext data,
    openData key nonce.1 (sealData key nonce plaintext data) data = .ok plaintext
  overhead_le : ∀ key nonce plaintext data, 16 ≤ (sealData key nonce plaintext data).length
  /-- whether `time.Parse` takes the text -/
  validTime : String → Bool

inductive IoStep
  | read
  | keyLoad
  | random
  | mkdir
  | createTemp
  | chmod
  | write
  | sync
  | close
  | replace
  | syncDir
  | remove
deriving DecidableEq, Repr

structure VaultCalls where
  /-- `ctx.Err()` -/
  ctxErr : Option String
  /-- the bytes of the key source; `none` for a vault without one -/
  keys : Option Bytes
  nonce : Nonce
  /-- the formatted time of the call -/
  now : String
  /-- the orders in which the loops visit the entries -/
  readOrder : List String
  authOrder : List String
  /-- the error of a step that fails -/
  fails : IoStep → Option String

variable (env : VaultEnv) (io : VaultCalls)

def entryError (provider : String) (entry : EncryptedEntry) : Option String :=
  if allowedProvider provider = false then some "vault contains an unknown provider"
  else if entry.revision = 0 then some "vault entry has an invalid revision"
  else if env.validTime entry.updatedAt = false then some "vault entry has an invalid update time"
  else none

/-- `json.Unmarshal` leaves a missing field at the value set before. -/
def VaultDocument.decodedVersion (doc : VaultDocument) : Int := doc.version.getD vaultVersion

def VaultDocument.decodedEntries (doc : VaultDocument) : Option (GoMap String EncryptedEntry) :=
  doc.entries.getD (some ∅)

def checkDocument (order : List String) (doc : VaultDocument) : Except String VaultFile :=
  match doc.decodedEntries with
  | none => .error "unsupported or invalid vault version"
  | some entries =>
    if doc.decodedVersion ≠ vaultVersion then .error "unsupported or invalid vault version"
    else
      match (entries.range order).findSome? fun e => entryError env e.1 e.2 with
      | some err => .error err
      | none => .ok ⟨doc.decodedVersion, entries⟩

def readFile (content : Option VaultContent) : Except String (VaultFile × Bool) :=
  match io.fails .read with
  | some err => .error err
  | none =>
    match content with
    | none => .ok (⟨vaultVersion, ∅⟩, false)
    | some (.undecodable _) => .error "invalid vault file"
    | some (.document doc) => (checkDocument env io.readOrder doc).map fun file => (file, true)

namespace VaultCalls

def loadKey : Except VaultError MasterKey :=
  match io.ctxErr with
  | some err => .error (.system err)
  | none =>
    match io.keys with
    | none => .error (.locked none)
    | some loaded =>
      match io.fails .keyLoad with
      | some _ => .error (.locked (some "master key unavailable"))
      | none => if h : loaded.length = 32 then .ok ⟨loaded, h⟩ else .error .invalidKey

end VaultCalls

def additionalData (provider : String) : String :=
  "version=" ++ toString vaultVersion ++ ";provider=" ++ provider

def encrypt (key : MasterKey) (provider : String)
    (plaintext : Bytes) : Except VaultError EncryptedEntry :=
  match io.fails .random with
  | some err => .error (.system err)
  | none =>
    .ok ⟨io.nonce.1, env.sealData key io.nonce plaintext (additionalData provider), 0, ""⟩

def decrypt (key : MasterKey) (provider : String) (entry : EncryptedEntry) : Except String Bytes :=
  if entry.nonce.length ≠ 12 || entry.ciphertext.length < 16 then .error "invalid encrypted entry"
  else env.openData key entry.nonce entry.ciphertext (additionalData provider)

def decryptError (key : MasterKey) (provider : String) (entry : EncryptedEntry) : Option String :=
  match decrypt env key provider entry with
  | .error err => some err
  | .ok _ => none

def authenticateEntries (key : MasterKey) (order : List String)
    (entries : GoMap String EncryptedEntry) : Option String :=
  (entries.range order).findSome? fun e => decryptError env key e.1 e.2

def IoStep.effect (data : VaultContent) (d : VaultDir) : IoStep → VaultDir
  | .createTemp => { d with tmp := some (.undecodable []) }
  | .write => { d with tmp := d.tmp.map fun _ => data }
  | .replace => ⟨d.tmp, none⟩
  | .remove => { d with tmp := none }
  | _ => d

/-- Up to the first step that fails, which does nothing to the file. -/
def runSteps (io : VaultCalls) (data : VaultContent) : List IoStep → VaultDir →
    VaultDir × Option String
  | [], d => (d, none)
  | step :: steps, d =>
    match io.fails step with
    | some err => (d, some err)
    | none => runSteps io data steps (step.effect data d)

def writeFile (file : VaultFile) (d : VaultDir) : VaultDir × Except VaultError Unit :=
  match runSteps io file.marshal [.mkdir, .createTemp] d with
  | (d, some err) => (d, .error (.system err))
  | (d, none) =>
    match runSteps io file.marshal [.chmod, .write, .sync, .close, .replace, .syncDir] d with
    -- the deferred clean-up, of which the error is dropped
    | (d, some err) => ((runSteps io file.marshal [.remove] d).1, .error (.system err))
    | (d, none) => (d, .ok ())

/-- `Set` between reading and writing. -/
def setEntry (provider : String) (clean : Bytes)
    (file : VaultFile) : Except VaultError VaultFile := do
  let key ← io.loadKey
  match authenticateEntries env key io.authOrder file.entries with
  | some err => .error (.locked (some err))
  | none =>
    let entry ← encrypt env io key provider clean
    -- an entry that is missing counts with revision 0
    let revision := ((file.entries.lookup provider).map EncryptedEntry.revision).getD 0
    let entry := { entry with revision := revision + 1, updatedAt := io.now }
    .ok { file with entries := file.entries.insert provider entry }

def deleteEntry (provider : String) (file : VaultFile) : Except VaultError (Option VaultFile) := do
  let key ← io.loadKey
  match authenticateEntries env key io.authOrder file.entries with
  | some err => .error (.locked (some err))
  | none =>
    if file.entries.lookup provider = none then .ok none
    else .ok (some { file with entries := file.entries.erase provider })

structure ProviderStatus where
  provider : String
  configured : Bool
deriving DecidableEq

structure VaultSnapshot where
  backend : String
  available : Bool
  locked : Bool
  providers : List ProviderStatus
deriving DecidableEq

def allProviders : List String := ["openrouter", "cerebras", "groq"]

def providerStatuses (entries : GoMap String EncryptedEntry) : List ProviderStatus :=
  allProviders.map fun provider => ⟨provider, (entries.lookup provider).isSome⟩

namespace Vault

def set (provider : String) (secret : Bytes) (d : VaultDir) : VaultDir × Except VaultError Unit :=
  if allowedProvider provider = false then (d, .error .invalidProvider)
  else
    match validateSecret secret with
    | .error err => (d, .error err)
    | .ok clean =>
      match readFile env io d.file with
      | .error err => (d, .error (.locked (some err)))
      | .ok (file, _) =>
        match setEntry env io provider clean file with
        | .error err => (d, .error err)
        | .ok file => writeFile io file d

def delete (provider : String) (d : VaultDir) : VaultDir × Except VaultError Unit :=
  if allowedProvider provider = false then (d, .error .invalidProvider)
  else
    match readFile env io d.file with
    | .error err => (d, .error (.locked (some err)))
    | .ok (_, false) => (d, .ok ())
    | .ok (file, true) =>
      match deleteEntry env io provider file with
      | .error err => (d, .error err)
      | .ok none => (d, .ok ())
      | .ok (some file) => writeFile io file d

def get (provider : String) (d : VaultDir) : Except VaultError (Option Bytes) :=
  if allowedProvider provider = false then .error .invalidProvider
  else
    match readFile env io d.file with
    | .error err => .error (.locked (some err))
    | .ok (_, false) => .ok none
    | .ok (file, true) =>
      match file.entries.lookup provider with
      | none => .ok none
      | some entry =>
        match io.loadKey with
        | .error err => .error err
        | .ok key =>
          match decrypt env key provider entry with
          | .error err => .error (.locked (some err))
          | .ok plaintext => .ok (some plaintext)

def status (backend : String) (d : VaultDir) : VaultSnapshot :=
  let snapshot : VaultSnapshot := ⟨backend, false, false, providerStatuses ∅⟩
  match readFile env io d.file with
  | .error _ => { snapshot with locked := true }
  | .ok (_, false) =>
    match io.loadKey with
    | .error _ => { snapshot with locked := true }
    | .ok _ => { snapshot with available := true }
  | .ok (file, true) =>
    match io.loadKey with
    | .error _ => { snapshot with locked := true }
    | .ok key =>
      match authenticateEntries env key io.authOrder file.entries with
      | some _ => { snapshot with locked := true }
      | none => { snapshot with available := true, providers := providerStatuses file.entries }

end Vault

inductive VaultOp
  | set (provider : String) (secret : Bytes)
  | delete (provider : String)
deriving DecidableEq

namespace VaultOp

def provider : VaultOp → String
  | set provider _ => provider
  | delete provider => provider

def value : VaultOp → Option Bytes
  | set _ secret => (validateSecret secret).toOption
  | delete _ => none

def call (d : VaultDir) : VaultOp → VaultDir × Except VaultError Unit
  | set provider secret => Vault.set env io provider secret d
  | delete provider => Vault.delete env io provider d

/-! ## The phases of a call

The two calls have the same course: they check their arguments, read the file, revise it and
replace it.
-/

def check : VaultOp → Option VaultError
  | set provider secret =>
    if allowedProvider provider = false then some .invalidProvider
    else
      match validateSecret secret with
      | .error err => some err
      | .ok _ => none
  | delete provider => if allowedProvider provider = false then some .invalidProvider else none

/-- The file to write; `none` when there is nothing to write. -/
def revise (file : VaultFile) (found : Bool) : VaultOp → Except VaultError (Option VaultFile)
  | set provider secret =>
    match validateSecret secret with
    | .error err => .error err
    | .ok clean => (setEntry env io provider clean file).map some
  | delete provider => if found then deleteEntry env io provider file else .ok none

theorem call_eq (d : VaultDir) (op : VaultOp) : op.call env io d =
      match op.check with
      | some err => (d, .error err)
      | none =>
        match readFile env io d.file with
        | .error err => (d, .error (.locked (some err)))
        | .ok (file, found) =>
          match op.revise env io file found with
          | .error err => (d, .error err)
          | .ok none => (d, .ok ())
          | .ok (some next) => writeFile io next d := by
  cases op with
  | set provider secret =>
    simp only [call, Vault.set, check, revise]
    cases allowedProvider provider with
    | false => rfl
    | true =>
      cases validateSecret secret with
      | error err => rfl
      | ok clean =>
        cases readFile env io d.file with
        | error err => rfl
        | ok read =>
          obtain ⟨file, found⟩ := read
          cases hset : setEntry env io provider clean file <;> simp [hset, Except.map]
  | delete provider =>
    simp only [call, Vault.delete, check, revise]
    cases allowedProvider provider with
    | false => rfl
    | true =>
      cases readFile env io d.file with
      | error err => rfl
      | ok read =>
        obtain ⟨file, found⟩ := read
        cases found <;> rfl

end VaultOp

end CalvoProxy
