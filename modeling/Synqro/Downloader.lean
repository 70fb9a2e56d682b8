import Synqro.Rollback

/-!
# The downloader

`src/downloader.rs`: the manifest fetch with its verification chain and retry loop, the failure
counter with the degraded mode, and the artifact download. The pauses between attempts change
nothing but the clock and are left out.
-/

namespace Synqro

/-- One entry in the manifest's `artifacts` array. -/
structure ArtifactEntry where
  platform : String
  url : String
  sha256 : String
  sha512 : String
  sizeBytes : UInt64
  sigEd25519 : String
deriving DecidableEq

/-- The fields of a manifest that its signature covers. -/
structure ManifestBody where
  schemaVersion : String
  issuedAt : String
  installationId : Option String
  version : String
  channel : String
  artifacts : List ArtifactEntry
deriving DecidableEq

/-- The signed update manifest. -/
structure SynqroManifest extends ManifestBody where
  manifestSigEd25519 : String
deriving DecidableEq

/-! ## JSON forms -/

def ArtifactEntry.fields : List Json.Field :=
  [⟨"platform", false⟩, ⟨"url", false⟩, ⟨"sha256", false⟩, ⟨"sha512", false⟩,
    ⟨"size_bytes", false⟩, ⟨"sig_ed25519", false⟩]

def ArtifactEntry.read (j : Json) : Option ArtifactEntry := do
  match ← Json.structFields ArtifactEntry.fields j with
  | [platform, url, sha256, sha512, sizeBytes, sigEd25519] =>
    return {
      platform := ← Json.readString platform
      url := ← Json.readString url
      sha256 := ← Json.readString sha256
      sha512 := ← Json.readString sha512
      sizeBytes := ← Json.readU64 sizeBytes
      sigEd25519 := ← Json.readString sigEd25519 }
  | _ => none

def ManifestBody.fields : List Json.Field :=
  [⟨"schema_version", false⟩, ⟨"issued_at", false⟩, ⟨"installation_id", true⟩,
    ⟨"version", false⟩, ⟨"channel", false⟩, ⟨"artifacts", false⟩]

/-- The fields before the signature, from their values. -/
def ManifestBody.ofValues : List Json → Option ManifestBody
  | [schemaVersion, issuedAt, installationId, version, channel, artifacts] => do
    return {
      schemaVersion := ← Json.readString schemaVersion
      issuedAt := ← Json.readString issuedAt
      installationId := ← Json.readOption Json.readString installationId
      version := ← Json.readString version
      channel := ← Json.readString channel
      artifacts := ← Json.readVec ArtifactEntry.read artifacts }
  | _ => none

def SynqroManifest.fields : List Json.Field :=
  ManifestBody.fields ++ [⟨"manifest_sig_ed25519", false⟩]

def SynqroManifest.read (j : Json) : Option SynqroManifest := do
  match (← Json.structFields SynqroManifest.fields j).splitAt 6 with
  | (body, [sig]) =>
    return {
      toManifestBody := ← ManifestBody.ofValues body
      manifestSigEd25519 := ← Json.readString sig }
  | _ => none

/-- Secure update downloader; its atomics are the world's `latch`. -/
structure SynqroDownloader where
  updateConfig : UpdateConfig
  sourceConfig : SourceConfig
  installationId : String
  cryptoConfig : CryptoConfig
  audit : AuditLogger

section
variable (E : Externals)

/-- The platform triple of the current build target. -/
def currentPlatformTriple : String :=
  let os := if E.os = "macos" then "darwin" else E.os
  s!"{os}-{E.arch}"

/-- `HeaderValue::from_str`: no control characters but the tab. -/
def isHeaderValue (s : String) : Bool := (utf8 s).all fun b => (32 ≤ b && b != 127) || b == 9

/-- The whole body of a response. -/
def collectBody : List (Except String Bytes) → Except String Bytes
  | [] => .ok []
  | chunk :: chunks => do return (← chunk) ++ (← collectBody chunks)

/-- The download loop with its size cap, on a machine whose `usize` has `E.usizeRange` values. -/
def collectChunks (maxBytes : UInt64) :
    Bytes → List (Except String Bytes) → Except SynqroError Bytes
  | buf, [] => .ok buf
  | _, .error e :: _ => .error (.Network s!"Stream read error: {e}")
  | buf, .ok bytes :: chunks =>
    if min (buf.length + bytes.length) (E.usizeRange - 1) > maxBytes.toNat % E.usizeRange then
      .error (.InvalidInput s!"Artifact exceeds max_payload_size_bytes ({maxBytes})")
    else collectChunks maxBytes (buf ++ bytes) chunks

/-- `str::parse::<u64>`. -/
def parseU64 (s : String) : Option Nat :=
  let digits := if s.toList.head? = some '+' then s.toList.tail else s.toList
  let n := Nat.ofDigitChars 10 digits 0
  if digits ≠ [] ∧ digits.all Char.isDigit ∧ n < 2 ^ 64 then some n else none

/-- `Duration::num_seconds` of a span in nanoseconds. -/
def numSeconds (span : Int) : Int := span.tdiv (10 ^ 9)

/-- `Duration::num_hours`. -/
def numHours (span : Int) : Int := (numSeconds span).tdiv 3600

/-- `Value::get` and `Value::as_str`. -/
def getStr (key : String) : Json → Option String
  | .obj ms => (Json.find key ms).bind Json.readString
  | _ => none

/-- A value that is there, or the error. -/
def require {α : Type} (a : Option α) (e : SynqroError) : M α :=
  Comp.ofExcept <| match a with
    | some a => .ok a
    | none => .error e

/-- Return early with an error. -/
def failIf (c : Prop) [Decidable c] (e : SynqroError) : M Unit := if c then throw e else pure ()

theorem require_ok {α : Type} {a : Option α} {e : SynqroError} {w w' : World} {b : α} :
    require a e w = .ok b w' ↔ a = some b ∧ w = w' := by
  unfold require
  cases a <;> simp [Comp.ofExcept_ok]

theorem failIf_ok {c : Prop} [Decidable c] {e : SynqroError} {u v : World}
    {a : Unit} : failIf c e u = .ok a v ↔ ¬ c ∧ u = v := by
  unfold failIf
  split
  · next h =>
    refine ⟨nofun, fun h' => absurd h h'.1⟩
  · next h => rw [Comp.pure_ok]; simp [h]

/-- The map a manifest's signature covers: everything except the signature. -/
def payloadMap : Json → Except SynqroError Json
  | .obj ms => .ok (.obj (Json.removeMember "manifest_sig_ed25519" ms))
  | _ => .error (.InvalidInput "Manifest top-level must be a JSON object")

namespace SynqroDownloader

/-- Construct a new downloader: the client is built, the failure counter starts at zero. The process
is taken to have a `rustls` crypto provider installed, without which building the TLS configuration
panics. -/
def new (updateConfig : UpdateConfig) (sourceConfig : SourceConfig) (installationId : String)
    (cryptoConfig : CryptoConfig) (audit : AuditLogger) : M SynqroDownloader := do
  Comp.mapErr (fun e => .Network s!"HTTP client build failed: {e.display}") bareCall
  modify fun w => w.setLatch ⟨0, false⟩
  return { updateConfig, sourceConfig, installationId, cryptoConfig, audit }

variable (d : SynqroDownloader)

/-- Load the GitHub token from the keychain. -/
def loadTokenForRequest : M String := do
  let tokenBytes ← Comp.onError (loadSecret "synqro" "github_token") fun e => do
    Comp.ignore <| d.audit.log E .TokenLoadFail (jsonObject [("reason", .str e.display)])
    return e
  require (fromUtf8? tokenBytes) (.InvalidInput "GitHub token is not valid UTF-8")

def checkDegraded : M Unit := do
  let w ← get
  failIf (w.latch.degradedMode = true) .Degraded

def recordFailure : M Unit := do
  let old := (← get).latch.consecutiveFailures
  modify fun w => w.setLatch { w.latch with consecutiveFailures := old + 1 }
  emit (.attempted false)
  let count := saturatingSucc old
  if 5 ≤ count then
    modify fun w => w.setLatch { w.latch with degradedMode := true }
    Comp.ignore <| d.audit.log E .DegradedModeEntered <|
      jsonObject [("consecutive_failures", jsonU32 count)]
  else pure ()

def recordSuccess : M Unit := do
  modify fun w => w.setLatch { w.latch with consecutiveFailures := 0 }
  emit (.attempted true)

def manifestApiUrl : String :=
  s!"https://api.github.com/repos/{d.sourceConfig.owner}/{d.sourceConfig.repo}" ++
    s!"/contents/{d.sourceConfig.manifestPath}"

/-- The configured public key. -/
def releaseKey : Except SynqroError Bytes :=
  match E.base64Decode d.cryptoConfig.releaseSigningPubkey with
  | none => .error (.Crypto "release_signing_pubkey is not valid Base64")
  | some pubkeyBytes =>
    if pubkeyBytes.length ≠ 32 then .error (.Crypto "release_signing_pubkey must be 32 bytes")
    else match E.verifyingKey pubkeyBytes with
      | .error e => .error (.Crypto s!"Invalid Ed25519 public key: {e}")
      | .ok () => .ok pubkeyBytes

/-- A base64 signature; `what` it signs names it in errors. -/
def signature (what sig : String) : Except SynqroError Bytes :=
  match E.base64Decode sig with
  | none => .error (.Signature s!"{what} sig is not valid Base64")
  | some sigBytes =>
    if sigBytes.length ≠ 64 then .error (.Signature s!"{what} sig has invalid length")
    else .ok sigBytes

/-! ### The manifest -/

/-- Step 1: the authenticated fetch of the manifest's bytes. -/
def fetchManifestBody : M Bytes := do
  let token ← d.loadTokenForRequest E
  failIf (isHeaderValue s!"Bearer {token}" = false)
    (.InvalidInput "Invalid characters in auth token")
  let headers := [("Authorization", s!"Bearer {token}"), ("User-Agent", "Synqro/0.1.0"),
    ("Accept", "application/vnd.github.v3.raw")]
  let (status, retryAfter, chunks) ← Comp.mapErr
    (fun e => .Network s!"Manifest request failed: {e}")
    (send ⟨d.manifestApiUrl, headers⟩)
  failIf (status = 429 ∨ status = 503)
    (.Network s!"Rate limited; retry after {(retryAfter.bind parseU64).getD 60}s")
  failIf (¬ (200 ≤ status ∧ status < 300))
    (.Network s!"HTTP {E.displayStatus status} fetching manifest")
  Comp.ofExcept <| (collectBody chunks).mapError fun e => .Network s!"Reading manifest body: {e}"

/-- Step 2: the manifest was issued within the last 24 hours. -/
def checkFreshness (rawValue : Json) : M Unit := do
  let issuedAtStr ← require (getStr "issued_at" rawValue)
    (.InvalidInput "Manifest missing `issued_at` field")
  let issuedAt ← require (E.parseDateTime issuedAtStr)
    (.InvalidInput "Manifest `issued_at` is not RFC 3339")
  let age := (← now) - issuedAt
  failIf (numSeconds age < 0 ∨ numHours age > 24)
    (.Signature s!"Manifest replay: issued_at is {numHours age} hours old (max 24)")

/-- Step 3: the Ed25519 signature over the canonical payload. -/
def checkSignature (rawValue : Json) : M Unit := do
  let sigB64 ← require (getStr "manifest_sig_ed25519" rawValue)
    (.Signature "Manifest missing `manifest_sig_ed25519` field")
  let payload ← Comp.ofExcept (payloadMap rawValue)
  let canonicalPayload := canonicalJsonSorted payload
  let signature ← Comp.ofExcept (signature E "Manifest" sigB64)
  let verifyingKey ← Comp.ofExcept (d.releaseKey E)
  Comp.onError
    (Comp.ofExcept (E.verifyStrict verifyingKey (encodeUtf8 canonicalPayload) signature))
    fun e => do
      Comp.ignore <| d.audit.log E .ManifestSignatureFail (jsonObject [("reason", .str e)])
      return .Signature s!"Manifest Ed25519 verification failed: {e}"

/-- Step 5: a manifest for one installation is for this one. -/
def checkInstallationId (manifest : SynqroManifest) : M Unit :=
  match manifest.installationId with
  | some manifestIid =>
    if manifestIid ≠ d.installationId then
      throw (.Signature
        "Manifest installation_id does not match local ID — cross-tenant injection?")
    else pure ()
  | none => pure ()

/-- Steps 2 to 5 on the received bytes; the typed parse comes after the signature. -/
def verifyManifest (rawBytes : Bytes) : M SynqroManifest := do
  let rawValue ← Comp.ofExcept <|
    (fromSliceValue E (fun j => some (Json.value j)) rawBytes).mapError fun e =>
      .InvalidInput s!"Manifest is not valid JSON: {e}"
  checkFreshness E rawValue
  d.checkSignature E rawValue
  Comp.ignore (d.audit.log E .ManifestSignatureOk (jsonObject []))
  let manifest ← Comp.ofExcept <| (fromSlice E SynqroManifest.read rawBytes).mapError fun e =>
    .InvalidInput s!"Manifest parse failed: {e}"
  d.checkInstallationId manifest
  return manifest

/-- One attempt to fetch and verify the manifest. -/
def fetchManifestOnceAsync : M SynqroManifest := do
  let rawBytes ← d.fetchManifestBody E
  d.verifyManifest E rawBytes

/-- The retry loop with `n` attempts left. -/
def fetchAttempts (lastErr : SynqroError) : Nat → M SynqroManifest
  | 0 => throw lastErr
  | n + 1 => do
    match ← Comp.outcome (d.fetchManifestOnceAsync E) with
    | .ok manifest => do
      recordSuccess
      return manifest
    | .error e => do
      d.recordFailure E
      fetchAttempts e n

/-- Fetch and verify the update manifest. -/
def fetchAndVerifyManifest : M SynqroManifest := do
  Comp.mapErr (fun e => .Internal s!"Tokio runtime build: {e.display}") bareCall
  checkDegraded
  d.fetchAttempts E (.Network "No attempts made") (d.updateConfig.maxRetries.toNat + 1)

/-! ### The artifact -/

/-- Request the artifact and read it under the size cap. -/
def requestArtifact (url token : String) : M Bytes := do
  let (status, _, chunks) ← Comp.mapErr (fun e => .Network s!"Artifact download failed: {e}")
    (send ⟨url, [("Authorization", s!"Bearer {token}")]⟩)
  failIf (¬ (200 ≤ status ∧ status < 300))
    (.Network s!"HTTP {E.displayStatus status} downloading artifact")
  Comp.ofExcept (collectChunks E d.updateConfig.maxPayloadSizeBytes [] chunks)

/-- Give up a downloaded artifact: remove it, log the failure and count it. -/
def rejectArtifact (tempPath : UnixPath) (event : AuditEvent) (data : Json) : M Unit := do
  Comp.ignore (fs.removeFile tempPath)
  Comp.ignore (d.audit.log E event data)
  d.recordFailure E

/-- Step 3 for one digest. -/
def checkDigest (tempPath : UnixPath) (algorithm actual expected : String) : M Unit := do
  if actual ≠ expected then
    d.rejectArtifact E tempPath .PayloadHashFail <| jsonObject [("algorithm", .str algorithm),
      ("expected", .str expected), ("actual", .str actual)]
    throw (.Crypto s!"{algorithm} hash mismatch on downloaded artifact")
  else pure ()

/-- Download and verify the payload artifact for the current platform. -/
def downloadAndVerifyArtifact (manifest : SynqroManifest) (stagingDir : UnixPath) : M UnixPath := do
  checkDegraded
  let artifact ← require (manifest.artifacts.find? (·.platform = currentPlatformTriple E)) <|
    .InvalidInput s!"No artifact for platform `{currentPlatformTriple E}` in manifest"
  let tempPath := stagingDir.join (.ofString s!"synqro_staging_{artifact.platform}.tmp")
  let finalPath := stagingDir.join (.ofString s!"synqro_{artifact.platform}.bin")
  let token ← d.loadTokenForRequest E
  failIf (isHeaderValue s!"Bearer {token}" = false) (.InvalidInput "Invalid chars in token")
  Comp.mapErr (fun e => .Internal s!"Tokio runtime build: {e.display}") bareCall
  let downloadedBytes ← Comp.onError (d.requestArtifact E artifact.url token) fun e => do
    Comp.ignore (fs.removeFile tempPath)
    d.recordFailure E
    return e
  let tempFile ← Comp.mapErr (fun e => .Permission s!"Cannot create staging file: {e.display}")
    (fs.create tempPath)
  Comp.mapErr (fun e => .Internal s!"Staging file write failed: {e.display}")
    (fs.writeAll tempFile downloadedBytes)
  Comp.mapErr (fun e => .Internal s!"Staging file flush failed: {e.display}") bareCall
  d.checkDigest E tempPath "SHA-256" (hexEncode (E.sha256 downloadedBytes)) artifact.sha256
  d.checkDigest E tempPath "SHA-512" (hexEncode (E.sha512 downloadedBytes)) artifact.sha512
  Comp.ignore (d.audit.log E .PayloadHashOk (jsonObject []))
  let artifactSig ← Comp.ofExcept (signature E "Artifact" artifact.sigEd25519)
  let verifyingKey ← Comp.ofExcept (d.releaseKey E)
  Comp.onError (Comp.ofExcept (E.verifyStrict verifyingKey downloadedBytes artifactSig)) fun e => do
    d.rejectArtifact E tempPath .PayloadSignatureFail (jsonObject [("reason", .str e)])
    return .Signature s!"Artifact Ed25519 verification failed: {e}"
  Comp.onError (fs.rename tempPath finalPath) fun e => do
    Comp.ignore (fs.removeFile tempPath)
    return .Permission s!"Atomic rename failed: {e.display}"
  emit (.deployed manifest.version)
  recordSuccess
  return finalPath

/-- Ask for the head of the manifest. -/
def connectivityCheck : M Unit := do
  let url := s!"https://api.github.com/repos/{d.sourceConfig.owner}/{d.sourceConfig.repo}" ++
    s!"/contents/{d.sourceConfig.manifestPath}"
  Comp.mapErr (fun e => .Internal s!"Tokio runtime build: {e.display}") bareCall
  let _ ← Comp.mapErr (fun e => .Network s!"Connectivity check failed: {e}") (send ⟨url, []⟩)
  return ()

end SynqroDownloader

end

end Synqro
