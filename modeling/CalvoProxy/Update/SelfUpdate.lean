import CalvoProxy.Router.ProviderQuota

/-!
# The self-update

`update.go` and `verify.go`; network, hash, signatures and archives are given with the environment.
With a release key the archive is authenticated by a signed list, unless it has no entry for it and
the operator passed `--insecure` (`update_authentic_iff`).
-/

namespace CalvoProxy

open Option GoString

variable {α : Type} {archive name sums : String} {insecure : Bool} {args : List String}

namespace Update

/-- `parseSemver`: up to three numbers; a suffix after `-` or `+` is ignored. -/
def parseSemver (tag : String) : Option (List Int64) :=
  let s := GoString.trimStart (GoString.trimSpace tag) "v"
  let s := s.toList.takeWhile fun c => !(c = '-' || c = '+')
  if s.isEmpty then none
  else (splitN '.' 3 s).mapM fun seg => parseInt64 (trimSpace (String.ofList seg))

/-- The first difference decides. -/
def lexLess : Nat → List Int64 → List Int64 → Bool
  | 0, _, _ => false
  | n + 1, as, bs =>
    let a := as.headD 0
    let b := bs.headD 0
    if a ≠ b then a < b else lexLess n as.tail bs.tail

def semverLess (a b : String) : Bool :=
  match parseSemver a, parseSemver b with
  | none, none => false
  | none, some _ => true
  | some _, none => false
  | some pa, some pb => lexLess 3 pa pb

structure Asset where
  name : String
  url : String

structure ReleaseInfo where
  tagName : String
  assets : List Asset

/-- What the command reads from outside; `sha256` is in hexadecimal. -/
structure Env where
  version : String
  goos : String
  goarch : String
  container : Bool
  publicKeyVar : String
  releasePublicKey : String
  latest : Except String ReleaseInfo
  download : Nat → String → Except String String
  sha256 : String → String
  base64 : String → Option (List UInt8)
  ed25519Verify : List UInt8 → String → List UInt8 → Bool
  extract : String → Bool → String → Except String String
  executable : Except String String
  evalSymlinks : String → Option String
  replaceExecutable : String → String → Option String

structure Exit where
  code : Int
  message : String

def refuse {α : Type} (message : String) : Except Exit α := .error ⟨1, message⟩

def orRefuse {α : Type} (what : String) : Except String α → Except Exit α
  | .ok a => .ok a
  | .error e => refuse (what ++ e)

def ReleaseInfo.assetURL (rel : ReleaseInfo) (name : String) : Option String :=
  (rel.assets.find? (·.name = name)).map (·.url)

variable (env : Env)

namespace Env

def isDevBuild : Bool := env.version = "" || env.version = "dev"

def updatePublicKey : String :=
  let v := trimSpace env.publicKeyVar
  if v ≠ "" then v else GoString.trimSpace env.releasePublicKey

def assetNameFor (tag : String) : String × Bool :=
  let base := "calvoproxy-" ++ tag ++ "-" ++ env.goos ++ "-" ++ env.goarch
  if env.goos = "windows" then (base ++ ".zip", true) else (base ++ ".tar.gz", false)

def binaryNameFor : String := if env.goos = "windows" then "calvoproxy.exe" else "calvoproxy"

end Env

def sha256FromSums (sums filename : String) : Option String :=
  ((split sums '\n').find? fun line =>
    let fields := fields line
    2 ≤ fields.length && fields.getLast? = some filename).map fun line =>
      GoString.toLower ((GoString.fields line).headD "")

def verifySHA256 (data want : String) : Except Exit Unit :=
  let got := env.sha256 data
  if equalFold got want then .ok ()
  else refuse ("checksum mismatch: got " ++ got ++ ", want " ++ want)

/-- The signature is a base64 text of 64 bytes, the key one of 32 bytes. -/
def verifyReleaseSignature (signed sigB64 pubB64 : String) : Except String Unit :=
  match (env.base64 (trimSpace pubB64)).filter (·.length = 32) with
  | none => .error "invalid release public key (want base64 of 32 bytes)"
  | some pub =>
    match (env.base64 (trimSpace sigB64)).filter (·.length = 64) with
    | none => .error "invalid signature encoding (want base64 of 64 bytes)"
    | some sig =>
      if env.ed25519Verify pub signed sig then .ok ()
      else .error "signature does not match the release public key"

def checkSums (insecure : Bool) (name archive sums : String) : Except Exit Unit :=
  match sha256FromSums sums name with
  | none =>
    if !insecure then
      refuse ("refusing to update: checksum for " ++ name ++
        " not found in SHA256SUMS.txt (pass --insecure to override — unsafe).")
    else .ok ()
  | some want => verifySHA256 env archive want

def checkSignature (rel : ReleaseInfo) (sums : String) : Except Exit Unit :=
  let pub := env.updatePublicKey
  if pub = "" then .ok ()
  else match rel.assetURL "SHA256SUMS.txt.sig" with
    | none =>
      refuse ("refusing to update: signature verification is enabled (release public key set) " ++
        "but the release has no SHA256SUMS.txt.sig")
    | some sigURL => do
      let sig ← orRefuse "download signature: " (env.download 2 sigURL)
      orRefuse "signature verification failed: " (verifyReleaseSignature env sums sig pub)

def verifyRelease (insecure : Bool) (rel : ReleaseInfo) (name archive : String) :
    Except Exit Unit :=
  match rel.assetURL "SHA256SUMS.txt" with
  | none =>
    if env.updatePublicKey ≠ "" then
      refuse ("refusing to update: signature verification is enabled (release public key set) " ++
        "but the release has no SHA256SUMS.txt to verify.")
    else if !insecure then
      refuse ("refusing to update: release has no SHA256SUMS.txt to verify against " ++
        "(pass --insecure to override — unsafe).")
    else .ok ()
  | some sumsURL => do
    let sums ← orRefuse "download checksums: " (env.download 1 sumsURL)
    checkSums env insecure name archive sums
    checkSignature env rel sums

def fetchLatestRelease : Except String ReleaseInfo :=
  match env.latest with
  | .error e => .error e
  | .ok rel => if rel.tagName = "" then .error "release has no tag_name" else .ok rel

def selectRelease (force : Bool) : Except Exit ReleaseInfo :=
  if env.isDevBuild && !force then
    .error ⟨0, "This is a dev build (no embedded version); nothing to update. " ++
      "Use --force to update anyway."⟩
  else if env.container then
    refuse "Running inside a container — self-update isn't supported here."
  else do
    let rel ← orRefuse "update check failed: " (fetchLatestRelease env)
    if !semverLess env.version rel.tagName && !force then
      .error ⟨0, "Already up to date (latest is " ++ rel.tagName ++ ")."⟩
    else .ok rel

def fetchArchive (rel : ReleaseInfo) : Except Exit String :=
  let name := (env.assetNameFor rel.tagName).1
  match rel.assetURL name with
  | none => refuse ("no release asset \"" ++ name ++ "\" for this platform (" ++ env.goos ++ "/" ++
      env.goarch ++ ")")
  | some url => orRefuse ("download " ++ name ++ ": ") (env.download 0 url)

/-- The path of the executable, without links where they can be resolved. -/
def executablePath : Except Exit String := do
  let path ← orRefuse "locate current executable: " env.executable
  return (env.evalSymlinks path).getD path

structure Install where
  rel : ReleaseInfo
  path : String
  bin : String

def isForce (a : String) : Bool := a = "--force" || a = "-f"

def isInsecure (a : String) : Bool := a = "--insecure"

/-- `runUpdate` up to the call of `replaceExecutable`. -/
def prepareUpdate (args : List String) : Except Exit Install := do
  let rel ← selectRelease env (args.any isForce)
  let (name, isZip) := env.assetNameFor rel.tagName
  let archive ← fetchArchive env rel
  verifyRelease env (args.any isInsecure) rel name archive
  let bin ← orRefuse "extract binary: " (env.extract archive isZip env.binaryNameFor)
  let path ← executablePath env
  return ⟨rel, path, bin⟩

/-- The exit code, the last message, and the arguments of `replaceExecutable`. -/
structure Run where
  code : Int
  message : String
  replaced : Option (String × String)

def runUpdate (args : List String) : Run :=
  match prepareUpdate env args with
  | .error exit => ⟨exit.code, exit.message, none⟩
  | .ok install =>
    match env.replaceExecutable install.path install.bin with
    | some err => ⟨1, "install update: " ++ err, some (install.path, install.bin)⟩
    | none => ⟨0, "Updated to " ++ install.rel.tagName ++
        ". Restart CalvoProxy to run the new version.", some (install.path, install.bin)⟩

/-! ## When a step goes through -/

theorem bind_eq_ok {ε β : Type} {x : Except ε α} {f : α → Except ε β} {b : β} :
    (x >>= f) = .ok b ↔ ∃ a, x = .ok a ∧ f a = .ok b := by
  cases x with
  | error e => exact ⟨fun h => (nomatch h), fun ⟨a, h, _⟩ => (nomatch h)⟩
  | ok a =>
    constructor
    · exact fun h => ⟨a, rfl, h⟩
    · rintro ⟨a', ha, h⟩
      cases ha
      exact h

theorem orRefuse_eq_ok {what : String} {x : Except String α} {a : α} :
    orRefuse what x = .ok a ↔ x = .ok a := by
  cases x with
  | error e => exact ⟨fun h => (nomatch h), fun h => (nomatch h)⟩
  | ok a' => exact ⟨fun h => congrArg _ (Except.ok.inj h), fun h => congrArg _ (Except.ok.inj h)⟩

def SignatureVerifies (signed sigB64 pubB64 : String) : Prop :=
  ∃ pub sig, env.base64 (trimSpace pubB64) = some pub ∧ pub.length = 32 ∧
    env.base64 (trimSpace sigB64) = some sig ∧ sig.length = 64 ∧
    env.ed25519Verify pub signed sig = true

variable {env}

theorem verifyReleaseSignature_eq_ok {signed sigB64 pubB64 : String} :
    verifyReleaseSignature env signed sigB64 pubB64 = .ok () ↔
      SignatureVerifies env signed sigB64 pubB64 := by
  unfold verifyReleaseSignature
  constructor
  · intro h
    split at h
    · cases h
    next pub hpub =>
    obtain ⟨hpub, hpubLength⟩ := filter_eq_some_iff.mp hpub
    split at h
    · cases h
    next sig hsig =>
    obtain ⟨hsig, hsigLength⟩ := filter_eq_some_iff.mp hsig
    split at h
    · next hverify =>
      exact ⟨pub, sig, hpub, of_decide_eq_true hpubLength, hsig,
        of_decide_eq_true hsigLength, hverify⟩
    · cases h
  · rintro ⟨pub, sig, hpub, hpubLength, hsig, hsigLength, hverify⟩
    simp only [hpub, hsig, filter_some, hpubLength, hsigLength, decide_true, if_true, hverify]

def Signed (env : Env) (rel : ReleaseInfo) (sums : String) : Prop :=
  ∃ url sig, rel.assetURL "SHA256SUMS.txt.sig" = some url ∧ env.download 2 url = .ok sig ∧
    SignatureVerifies env sums sig env.updatePublicKey

theorem checkSignature_eq_ok {rel : ReleaseInfo} (hkey : env.updatePublicKey ≠ "") :
    checkSignature env rel sums = .ok
    () ↔ Signed env rel sums := by
  unfold checkSignature Signed
  simp only [if_neg hkey]
  cases rel.assetURL "SHA256SUMS.txt.sig" with
  | none => exact ⟨fun h => (nomatch h), fun ⟨_, _, h, _⟩ => (nomatch h)⟩
  | some url =>
    simp only [bind_eq_ok, orRefuse_eq_ok, verifyReleaseSignature_eq_ok]
    constructor
    · rintro ⟨sig, hsig, hverifies⟩
      exact ⟨url, sig, rfl, hsig, hverifies⟩
    · rintro ⟨url', sig, hurl, hsig, hverifies⟩
      cases hurl
      exact ⟨sig, hsig, hverifies⟩

theorem checkSums_eq_ok : checkSums env insecure name archive sums = .ok () ↔
      (sha256FromSums sums name = none ∧ insecure = true) ∨
        ∃ want, sha256FromSums sums name = some want ∧
          equalFold (env.sha256 archive) want = true := by
  unfold checkSums verifySHA256
  cases hentry : sha256FromSums sums name with
  | none => cases insecure <;> simp [refuse]
  | some want => cases hequal : equalFold (env.sha256 archive) want <;> simp [refuse, hequal]

def SumsOf (env : Env) (rel : ReleaseInfo) (sums : String) : Prop :=
  ∃ url, rel.assetURL "SHA256SUMS.txt" = some url ∧ env.download 1 url = .ok sums

theorem verifyRelease_eq_ok {rel : ReleaseInfo} (hkey : env.updatePublicKey ≠ "") :
    verifyRelease env insecure rel name archive = .ok () ↔
      ∃ sums, SumsOf env rel sums ∧ Signed env rel sums ∧
        ((sha256FromSums sums name = none ∧ insecure = true) ∨
          ∃ want, sha256FromSums sums name = some want ∧
            equalFold (env.sha256 archive) want = true) := by
  unfold verifyRelease SumsOf
  cases rel.assetURL "SHA256SUMS.txt" with
  | none =>
    simp only [if_pos hkey]
    exact ⟨fun h => (nomatch h), fun ⟨_, ⟨_, h, _⟩, _⟩ => (nomatch h)⟩
  | some url =>
    simp only [bind_eq_ok, orRefuse_eq_ok, checkSignature_eq_ok hkey]
    constructor
    · rintro ⟨sums, hsums, _, hlisted, hsigned⟩
      exact ⟨sums, ⟨url, rfl, hsums⟩, hsigned, checkSums_eq_ok.mp hlisted⟩
    · rintro ⟨sums, ⟨url', hurl, hsums⟩, hsigned, hlisted⟩
      cases hurl
      exact ⟨sums, hsums, (), checkSums_eq_ok.mpr hlisted, hsigned⟩

structure Unpacked (env : Env) (rel : ReleaseInfo) (archive bin : String) : Prop where
  release : fetchLatestRelease env = .ok rel
  fetched : fetchArchive env rel = .ok archive
  binary : env.extract archive (env.assetNameFor rel.tagName).2 env.binaryNameFor = .ok bin

/-- A signed list has the checksum of the archive under its own name. -/
def Authentic (env : Env) (rel : ReleaseInfo) (archive : String) : Prop :=
  ∃ sums want, SumsOf env rel sums ∧ Signed env rel sums ∧
    sha256FromSums sums (env.assetNameFor rel.tagName).1 = some want ∧
    equalFold (env.sha256 archive) want = true

/-- The signed list has no entry for the archive, and `--insecure` alone lets the update go on. -/
structure Unlisted (env : Env) (args : List String) (rel : ReleaseInfo) (archive bin path : String) :
    Prop where
  insecure : "--insecure" ∈ args
  selected : selectRelease env (args.any isForce) = .ok rel
  unpacked : Unpacked env rel archive bin
  path : executablePath env = .ok path
  unlisted : ∃ sums, SumsOf env rel sums ∧ Signed env rel sums ∧
    sha256FromSums sums (env.assetNameFor rel.tagName).1 = none

theorem selectRelease_fetched {force : Bool} {rel : ReleaseInfo}
    (h : selectRelease env force = .ok rel) : fetchLatestRelease env = .ok rel := by
  unfold selectRelease at h
  split at h
  · cases h
  split at h
  · cases h
  obtain ⟨rel', hfetched, h⟩ := bind_eq_ok.mp h
  split at h
  · cases h
  · cases h
    exact orRefuse_eq_ok.mp hfetched

theorem prepareUpdate_eq_ok {install : Install} : prepareUpdate env args = .ok install ↔
      ∃ archive, selectRelease env (args.any isForce) = .ok install.rel ∧
        Unpacked env install.rel archive install.bin ∧ executablePath env = .ok install.path ∧
        verifyRelease env (args.any isInsecure) install.rel
          (env.assetNameFor install.rel.tagName).1 archive = .ok () := by
  unfold prepareUpdate
  simp only [bind_eq_ok, orRefuse_eq_ok]
  constructor
  · rintro ⟨rel, hselected, archive, harchive, _, hverified, bin, hbin, path, hpath, heq⟩
    cases heq
    exact ⟨archive, hselected, ⟨selectRelease_fetched hselected, harchive, hbin⟩, hpath, hverified⟩
  · rintro ⟨archive, hselected, hunpacked, hpath, hverified⟩
    exact ⟨install.rel, hselected, archive, hunpacked.fetched, (), hverified, install.bin,
      hunpacked.binary, install.path, hpath, rfl⟩

theorem runUpdate_replaced {path bin : String} : (runUpdate env args).replaced = some (path, bin) ↔
      ∃ rel, prepareUpdate env args = .ok ⟨rel, path, bin⟩ := by
  unfold runUpdate
  cases hprepare : prepareUpdate env args with
  | error exit => exact ⟨fun h => (nomatch h), fun ⟨_, h⟩ => (nomatch h)⟩
  | ok install =>
    have hreplaced : (match env.replaceExecutable install.path install.bin with
        | some err => (⟨1, "install update: " ++ err, some (install.path, install.bin)⟩ : Run)
        | none => ⟨0, "Updated to " ++ install.rel.tagName ++
            ". Restart CalvoProxy to run the new version.", some (install.path, install.bin)⟩).replaced
        = some (install.path, install.bin) := by
      split <;> rfl
    simp only [hreplaced, Option.some.injEq, Prod.mk.injEq, Except.ok.injEq]
    constructor
    · rintro ⟨rfl, rfl⟩
      exact ⟨install.rel, rfl⟩
    · rintro ⟨rel, rfl⟩
      exact ⟨rfl, rfl⟩

/-- With a built-in key every binary installed comes from an authentic archive, exactly if
`--insecure` lets none go on that is not listed. -/
theorem update_authentic_iff (hkey : env.updatePublicKey ≠ "") (args : List String) :
    (∀ path bin, (runUpdate env args).replaced = some (path, bin) →
        ∃ rel archive, Unpacked env rel archive bin ∧ Authentic env rel archive) ↔
      ∀ rel archive bin path, ¬Unlisted env args rel archive bin path := by
  have hflag : args.any isInsecure = true ↔ "--insecure" ∈ args := by
    simp [isInsecure]
  constructor
  · rintro hall rel archive bin path
      ⟨hinsecure, hselected, hunpacked, hpath, sums, hsums, hsigned, hnone⟩
    have hverified : verifyRelease env (args.any isInsecure) rel (env.assetNameFor rel.tagName).1
        archive = .ok () :=
      (verifyRelease_eq_ok hkey).mpr ⟨sums, hsums, hsigned, .inl ⟨hnone, hflag.mpr hinsecure⟩⟩
    have hprepared : prepareUpdate env args = .ok ⟨rel, path, bin⟩ :=
      prepareUpdate_eq_ok.mpr ⟨archive, hselected, hunpacked, hpath, hverified⟩
    obtain ⟨rel', archive', hunpacked', sums', want, ⟨url', hurl', hsums'⟩, -, hsome, -⟩ :=
      hall path bin (runUpdate_replaced.mpr ⟨rel, hprepared⟩)
    -- there is one release and one list, and it has no entry
    cases hunpacked.release.symm.trans hunpacked'.release
    obtain ⟨url, hurl, hsums⟩ := hsums
    cases hurl.symm.trans hurl'
    cases hsums.symm.trans hsums'
    exact nomatch hnone.symm.trans hsome
  · intro hlisted path bin hreplaced
    obtain ⟨rel, hprepared⟩ := runUpdate_replaced.mp hreplaced
    obtain ⟨archive, hselected, hunpacked, hpath, hverified⟩ := prepareUpdate_eq_ok.mp hprepared
    obtain ⟨sums, hsums, hsigned, ⟨hnone, hinsecure⟩ | ⟨want, hentry, hequal⟩⟩ :=
      (verifyRelease_eq_ok hkey).mp hverified
    · exact absurd ⟨hflag.mp hinsecure, hselected, hunpacked, hpath, sums, hsums, hsigned, hnone⟩
        (hlisted rel archive bin path)
    · exact ⟨rel, archive, hunpacked, sums, want, hsums, hsigned, hentry, hequal⟩

/-- A release `v2` with a signed list; the hash of a text is the text, and every signature
verifies. -/
def demoEnv (sums : String) : Env where
  version := "v1"
  goos := "linux"
  goarch := "arm"
  container := false
  publicKeyVar := ""
  releasePublicKey := "key"
  latest := .ok ⟨"v2", [⟨"calvoproxy-v2-linux-arm.tar.gz", "a"⟩, ⟨"SHA256SUMS.txt", "b"⟩,
    ⟨"SHA256SUMS.txt.sig", "c"⟩]⟩
  download := fun _ url => .ok (if url = "a" then "ab" else if url = "b" then sums else "sig")
  sha256 := id
  base64 := fun s => some (List.replicate (if s = "key" then 32 else 64) 0)
  ed25519Verify := fun _ _ _ => true
  extract := fun archive _ _ => .ok archive
  executable := .ok "proxy"
  evalSymlinks := fun _ => none
  replaceExecutable := fun _ _ => none

/-- A listed archive is installed, even with `--insecure`. -/
theorem listed_archive_authentic : ∃ path bin,
    (runUpdate (demoEnv "ab calvoproxy-v2-linux-arm.tar.gz") ["--insecure"]).replaced =
        some (path, bin) ∧
      ∃ rel archive, Unpacked (demoEnv "ab calvoproxy-v2-linux-arm.tar.gz") rel archive bin ∧
        Authentic (demoEnv "ab calvoproxy-v2-linux-arm.tar.gz") rel archive := by
  have hreplaced : (runUpdate (demoEnv "ab calvoproxy-v2-linux-arm.tar.gz")
      ["--insecure"]).replaced = some ("proxy", "ab") := by decide +kernel
  refine ⟨"proxy", "ab", hreplaced, (update_authentic_iff (by decide) ["--insecure"]).mpr ?_ _ _
    hreplaced⟩
  rintro rel archive bin path ⟨-, -, hunpacked, -, sums, ⟨url, hurl, hsums⟩, -, hnone⟩
  have hrel := hunpacked.release
  cases hrel
  cases hurl
  cases hsums
  exact absurd hnone (by decide +kernel)

/-- With `--insecure` an archive that the signed list does not name is installed. -/
theorem unlisted_archive_installed : ∃ path bin, (demoEnv "00 other").updatePublicKey ≠ "" ∧
      (runUpdate (demoEnv "00 other") ["--insecure"]).replaced = some (path, bin) ∧
      ¬∃ rel archive, Unpacked (demoEnv "00 other") rel archive bin ∧
        Authentic (demoEnv "00 other") rel archive := by
  refine ⟨"proxy", "ab", by decide, by decide +kernel, ?_⟩
  rintro ⟨rel, archive, hunpacked, sums, want, ⟨url, hurl, hsums⟩, -, hsome, -⟩
  have hrel := hunpacked.release
  cases hrel
  cases hurl
  cases hsums
  exact absurd (isSome_iff_exists.mpr ⟨want, hsome⟩) (by decide +kernel)

end Update

end CalvoProxy
