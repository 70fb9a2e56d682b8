import Synqro.Downloader

/-!
# The public API

`src/lib.rs`: the operations behind `synqro_check_update`, `synqro_apply_update`,
`synqro_rollback`, `synqro_audit_event` and `synqro_health_check`, as the closures that `catch_all`
turns into status codes.
-/

namespace Synqro

/-- The initialised engine; its keychain is the environment's. -/
structure SynqroEngine where
  config : SynqroConfig
  audit : AuditLogger

/-- The engine of the process, once `synqro_init` has stored it. -/
def getEngine (ENGINE : Option SynqroEngine) : M SynqroEngine :=
  require ENGINE (.Config "synqro_init() has not been called")

/-- An argument is at most `SYNQRO_MAX_INPUT_LEN` bytes long. -/
def validateInput (s : String) : Except SynqroError Unit :=
  if 4096 < s.utf8ByteSize then
    .error (.InvalidInput s!"input length {s.utf8ByteSize} exceeds maximum of 4096 bytes")
  else .ok ()

/-- Decode a C string argument: no pointer, or the bytes before the NUL. -/
def decodeCstr (ptr : Option Bytes) (field : String) : Except SynqroError String :=
  match ptr with
  | none => .error (.InvalidInput s!"argument `{field}` must not be null")
  | some bytes =>
    match fromUtf8? bytes with
    | none => .error (.InvalidInput s!"`{field}` is not valid UTF-8")
    | some s => do
      validateInput s
      return s

section
variable (E : Externals)

/-- The HMAC key of an installation. -/
def hmacKeyOf (installationId : String) : Bytes :=
  E.hkdfSha256 (utf8 "synqro-audit-v1") (utf8 installationId) (utf8 "hmac-key")

/-- Spawn the watchdog process. -/
def startWatchdog (appPid : UInt32) (healthCheckTimeoutSecs gracePeriodSecs : UInt64) : M Unit := do
  let _ ← Comp.mapErr
    (fun e => .Internal s!"Cannot determine current executable path: {e.display}") currentExe
  Comp.mapErr (fun e => .Internal s!"Failed to spawn watchdog process: {e.display}") bareCall
  emit (.spawned (← get).process.exe ["--watchdog", "--pid", s!"{appPid}", "--timeout",
    s!"{healthCheckTimeoutSecs}", "--grace", s!"{gracePeriodSecs}"])

/-- A downloader for the engine's configuration. -/
def SynqroEngine.downloader (engine : SynqroEngine) : M SynqroDownloader :=
  SynqroDownloader.new engine.config.update engine.config.source engine.config.installationId
    engine.config.crypto engine.audit

/-- Check for an available update. -/
def synqroCheckUpdate (ENGINE : Option SynqroEngine) : M Unit := do
  let engine ← getEngine ENGINE
  engine.audit.log E .UpdateCheckStarted (jsonObject [])
  let downloader ← engine.downloader
  let manifest ← downloader.fetchAndVerifyManifest E
  engine.audit.log E .UpdateAvailable (jsonObject [("version", .str manifest.version)])

/-- What `synqro_apply_update` does once it has a manifest. -/
def applyManifest (engine : SynqroEngine) (downloader : SynqroDownloader)
    (manifest : SynqroManifest) : M Unit := do
  let cfg := engine.config
  let backupDir := UnixPath.ofString cfg.update.backupDir
  let stagingDir := UnixPath.ofString cfg.update.stagingDir
  Comp.mapErr (fun e => .Permission s!"Cannot create staging dir: {e.display}")
    (fs.createDirAll stagingDir)
  let hmacKey := hmacKeyOf E cfg.installationId
  let currentExe ← Comp.mapErr
    (fun e => .Internal s!"Cannot determine current exe: {e.display}") currentExe
  takeSnapshot E manifest.version [currentExe] backupDir hmacKey
  let deployedPath ← downloader.downloadAndVerifyArtifact E manifest stagingDir
  engine.audit.log E .UpdateApplied <| jsonObject [("version", .str manifest.version),
    ("path", .str ((deployedPath.fileName.map (·.text)).getD ""))]
  let grace := cfg.rollback.healthCheckTimeoutSeconds
  Comp.ignore (startWatchdog (← get).process.id grace (grace / 2))

/-- Download, verify, and apply the latest update. -/
def synqroApplyUpdate (ENGINE : Option SynqroEngine) : M Unit := do
  let engine ← getEngine ENGINE
  let downloader ← engine.downloader
  let manifest ← downloader.fetchAndVerifyManifest E
  applyManifest E engine downloader manifest

/-- The version of a directory name: what follows its `v`. -/
def versionOfDir (name : FileName) : Option String :=
  match name.text.toList with
  | 'v' :: rest => some (String.ofList rest)
  | _ => none

/-- Find the most recent `v<version>` directory in the backup directory. -/
def mostRecentBackupVersion (backupDir : UnixPath) : M String := do
  let entries ← Comp.mapErr (fun e => .Rollback s!"Cannot read backup dir: {e.display}")
    (fs.readDir backupDir)
  let versions := entries.filterMap fun e =>
    match e with
    | .ok (name, true) => versionOfDir name
    | _ => none
  require (versions.insertionSort (fun a b => b ≤ a)).head? (.Rollback "No backup versions found")

/-- Trigger a rollback to the previous version. -/
def synqroRollback (ENGINE : Option SynqroEngine) : M Unit := do
  let engine ← getEngine ENGINE
  let cfg := engine.config
  engine.audit.log E .RollbackTriggered (jsonObject [])
  let hmacKey := hmacKeyOf E cfg.installationId
  let backupDir := UnixPath.ofString cfg.update.backupDir
  let version ← mostRecentBackupVersion backupDir
  rollback E version backupDir hmacKey engine.audit

/-- Emit an event of the host to the audit log. -/
def synqroAuditEvent (ENGINE : Option SynqroEngine)
    (eventType dataJson : Option Bytes) : M Unit := do
  let eventName ← Comp.ofExcept (decodeCstr eventType "event_type")
  let data ← match dataJson with
    | none => pure (jsonObject [])
    | some bytes => do
      let jsonStr ← Comp.ofExcept (decodeCstr (some bytes) "data_json")
      Comp.ofExcept <| (fromSliceValue E (fun j => some (Json.value j)) (utf8 jsonStr)).mapError
        fun e => .InvalidInput s!"data_json is not valid JSON: {e}"
  let engine ← getEngine ENGINE
  let event ← require (AuditEvent.fromStr eventName)
    (.InvalidInput s!"Unknown audit event type: `{eventName}`")
  engine.audit.log E event data

/-- Perform a health check of the engine. -/
def synqroHealthCheck (ENGINE : Option SynqroEngine) : M Unit := do
  let engine ← getEngine ENGINE
  let downloader ← engine.downloader
  downloader.connectivityCheck

end

end Synqro
