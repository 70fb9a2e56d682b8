import Synqro.Config
import Synqro.Error
import Mathlib.Data.List.Nodup

/-!
# The configuration file

`src/config.rs` as a whole: the file under its top-level key `axiomota`, its nine sections with
their fields, and the semantic checks in their order. `SerdeYaml` is what the YAML reader makes of a
text; every struct denies unknown fields, so a mapping is read when its keys are exactly the
struct's fields (`closedFields_eq_some`). A valid configuration can hold a placeholder only where
`validateConfig_placeholder` says.
-/

namespace Synqro

/-- A YAML reader: the tree of a text, and what the typed readers make of its nodes. -/
structure SerdeYaml where
  Node : Type
  parse : String → Except String Node
  str : Node → Option String
  bool : Node → Option Bool
  u64 : Node → Option UInt64
  u32 : Node → Option UInt32
  seq : Node → Option (List Node)
  /-- The members of a mapping, under the texts of their keys. -/
  map : Node → Option (List (String × Node))
  /-- What the reader says of a text of another shape. -/
  shapeError : String → String

namespace ConfigFile

/-- Source repository configuration. -/
structure SourceConfig where
  provider : String
  owner : String
  repo : String
  branch : String
  manifestPath : String

/-- Authentication configuration for API access. -/
structure AuthConfig where
  tokenSource : String
  envVar : String

/-- Cryptographic configuration. -/
structure CryptoConfig where
  releaseSigningPubkey : String
  githubApiCertPin : String

/-- Update policy and timing configuration. -/
structure UpdateConfig where
  checkIntervalSeconds : UInt64
  maxRetries : UInt32
  retryBackoffBaseSeconds : UInt64
  downloadTimeoutSeconds : UInt64
  maxPayloadSizeBytes : UInt64
  stagingDir : String
  backupDir : String

/-- Rollback policy configuration. -/
structure RollbackConfig where
  enabled : Bool
  healthCheckTimeoutSeconds : UInt64
  maxBackupVersions : UInt32

/-- Crash and event reporting configuration. -/
structure ReportingConfig where
  enabled : Bool
  telegramTokenSource : String
  telegramTokenEnvVar : String
  telegramChatId : String
  scrubPatterns : List String

/-- Structured logging configuration. -/
structure LoggingConfig where
  level : String
  structured : Bool
  auditLogPath : String
  auditHmacEnabled : Bool

/-- The complete configuration. -/
structure SynqroConfig where
  version : String
  installationId : String
  source : SourceConfig
  auth : AuthConfig
  crypto : CryptoConfig
  update : UpdateConfig
  rollback : RollbackConfig
  reporting : ReportingConfig
  logging : LoggingConfig

/-- The part that the update and rollback paths read. -/
def SynqroConfig.engine (cfg : SynqroConfig) : Synqro.SynqroConfig where
  installationId := cfg.installationId
  source := ⟨cfg.source.owner, cfg.source.repo, cfg.source.manifestPath⟩
  crypto := ⟨cfg.crypto.releaseSigningPubkey⟩
  update := ⟨cfg.update.maxRetries, cfg.update.maxPayloadSizeBytes, cfg.update.stagingDir,
    cfg.update.backupDir⟩
  rollback := ⟨cfg.rollback.healthCheckTimeoutSeconds⟩

/-! ## Reading -/

/-- The values of a struct's fields in a mapping that has each of them once and no other. -/
def closedFields {α : Type} (fields : List String) (ms : List (String × α)) : Option (List α) :=
  if (ms.map (·.1)).Nodup ∧ ∀ k ∈ ms.map (·.1), k ∈ fields then fields.mapM fun k => ms.lookup k
  else none

/-- What is read has known keys only. -/
theorem closedFields_eq_some {α : Type} {fields : List String} {ms : List (String × α)}
    {vs : List α} (h : closedFields fields ms = some vs) :
    (∀ k ∈ ms.map (·.1), k ∈ fields) ∧ fields.mapM (fun k => ms.lookup k) = some vs := by
  unfold closedFields at h
  split at h
  · next hk => exact ⟨hk.2, h⟩
  · cases h

section
variable (S : SerdeYaml)

/-- The values of a struct's fields. -/
def struct (fields : List String) (n : S.Node) : Option (List S.Node) := do
  closedFields fields (← S.map n)

def SourceConfig.read (n : S.Node) : Option SourceConfig := do
  match ← struct S ["provider", "owner", "repo", "branch", "manifest_path"] n with
  | [provider, owner, repo, branch, manifestPath] =>
    return {
      provider := ← S.str provider
      owner := ← S.str owner
      repo := ← S.str repo
      branch := ← S.str branch
      manifestPath := ← S.str manifestPath }
  | _ => none

def AuthConfig.read (n : S.Node) : Option AuthConfig := do
  match ← struct S ["token_source", "env_var"] n with
  | [tokenSource, envVar] =>
    return {
      tokenSource := ← S.str tokenSource
      envVar := ← S.str envVar }
  | _ => none

def CryptoConfig.read (n : S.Node) : Option CryptoConfig := do
  match ← struct S ["release_signing_pubkey", "github_api_cert_pin"] n with
  | [releaseSigningPubkey, githubApiCertPin] =>
    return {
      releaseSigningPubkey := ← S.str releaseSigningPubkey
      githubApiCertPin := ← S.str githubApiCertPin }
  | _ => none

def UpdateConfig.read (n : S.Node) : Option UpdateConfig := do
  match ← struct S ["check_interval_seconds", "max_retries", "retry_backoff_base_seconds",
    "download_timeout_seconds", "max_payload_size_bytes", "staging_dir", "backup_dir"] n with
  | [checkIntervalSeconds, maxRetries, retryBackoffBaseSeconds, downloadTimeoutSeconds,
      maxPayloadSizeBytes, stagingDir, backupDir] =>
    return {
      checkIntervalSeconds := ← S.u64 checkIntervalSeconds
      maxRetries := ← S.u32 maxRetries
      retryBackoffBaseSeconds := ← S.u64 retryBackoffBaseSeconds
      downloadTimeoutSeconds := ← S.u64 downloadTimeoutSeconds
      maxPayloadSizeBytes := ← S.u64 maxPayloadSizeBytes
      stagingDir := ← S.str stagingDir
      backupDir := ← S.str backupDir }
  | _ => none

def RollbackConfig.read (n : S.Node) : Option RollbackConfig := do
  match ← struct S ["enabled", "health_check_timeout_seconds", "max_backup_versions"] n with
  | [enabled, healthCheckTimeoutSeconds, maxBackupVersions] =>
    return {
      enabled := ← S.bool enabled
      healthCheckTimeoutSeconds := ← S.u64 healthCheckTimeoutSeconds
      maxBackupVersions := ← S.u32 maxBackupVersions }
  | _ => none

def ReportingConfig.read (n : S.Node) : Option ReportingConfig := do
  match ← struct S ["enabled", "telegram_token_source", "telegram_token_env_var",
    "telegram_chat_id", "scrub_patterns"] n with
  | [enabled, telegramTokenSource, telegramTokenEnvVar, telegramChatId, scrubPatterns] =>
    return {
      enabled := ← S.bool enabled
      telegramTokenSource := ← S.str telegramTokenSource
      telegramTokenEnvVar := ← S.str telegramTokenEnvVar
      telegramChatId := ← S.str telegramChatId
      scrubPatterns := ← (← S.seq scrubPatterns).mapM S.str }
  | _ => none

def LoggingConfig.read (n : S.Node) : Option LoggingConfig := do
  match ← struct S ["level", "structured", "audit_log_path", "audit_hmac_enabled"] n with
  | [level, structured, auditLogPath, auditHmacEnabled] =>
    return {
      level := ← S.str level
      structured := ← S.bool structured
      auditLogPath := ← S.str auditLogPath
      auditHmacEnabled := ← S.bool auditHmacEnabled }
  | _ => none

def SynqroConfig.read (n : S.Node) : Option SynqroConfig := do
  match ← struct S ["version", "installation_id", "source", "auth", "crypto", "update", "rollback",
    "reporting", "logging"] n with
  | [version, installationId, source, auth, crypto, update, rollback, reporting, logging] =>
    return {
      version := ← S.str version
      installationId := ← S.str installationId
      source := ← SourceConfig.read S source
      auth := ← AuthConfig.read S auth
      crypto := ← CryptoConfig.read S crypto
      update := ← UpdateConfig.read S update
      rollback := ← RollbackConfig.read S rollback
      reporting := ← ReportingConfig.read S reporting
      logging := ← LoggingConfig.read S logging }
  | _ => none

/-- The file: a configuration under the one key `axiomota`. -/
def read (n : S.Node) : Option SynqroConfig := do
  match ← struct S ["axiomota"] n with
  | [axiomota] => SynqroConfig.read S axiomota
  | _ => none

end

/-! ## Validation -/

/-- The characters that `str::trim` removes. -/
def isSpace (c : Char) : Bool :=
  let n := c.toNat
  (9 ≤ n && n ≤ 13) || n = 32 || n = 0x85 || n = 0xa0 || n = 0x1680 ||
    (0x2000 ≤ n && n ≤ 0x200a) || n = 0x2028 || n = 0x2029 || n = 0x202f || n = 0x205f || n = 0x3000

def trim (s : String) : String :=
  .ofList ((s.toList.dropWhile isSpace).reverse.dropWhile isSpace).reverse

/-- A text that is blank or still the placeholder. -/
def isUnset (s : String) : Bool := trim s = "REPLACE_ME" || trim s = ""

def rejectIf (c : Prop) [Decidable c] (message : String) : Except SynqroError Unit :=
  if c then .error (.Config message) else .ok ()

/-- The semantic constraints. No character outside ASCII has a lower case that occurs in a level. -/
def validateConfig (cfg : SynqroConfig) : Except SynqroError Unit := do
  rejectIf (cfg.update.checkIntervalSeconds < 60)
    s!"update.check_interval_seconds is {cfg.update.checkIntervalSeconds} but must be >= 60"
  rejectIf (cfg.update.downloadTimeoutSeconds = 0) "update.download_timeout_seconds must be > 0"
  rejectIf (cfg.update.maxPayloadSizeBytes = 0) "update.max_payload_size_bytes must be > 0"
  rejectIf (cfg.update.stagingDir = "") "update.staging_dir must not be empty"
  rejectIf (cfg.update.backupDir = "") "update.backup_dir must not be empty"
  rejectIf (isUnset cfg.crypto.releaseSigningPubkey) <|
    "crypto.release_signing_pubkey must be set to a real Ed25519 public key; " ++
      "remove the REPLACE_ME placeholder before deployment"
  rejectIf (isUnset cfg.crypto.githubApiCertPin) <|
    "crypto.github_api_cert_pin must be set to a real SHA-256 fingerprint; " ++
      "remove the REPLACE_ME placeholder before deployment"
  rejectIf (isUnset cfg.auth.envVar) "auth.env_var must not be empty or a REPLACE_ME sentinel"
  rejectIf (isUnset cfg.installationId) "installation_id must be set to a unique identifier"
  rejectIf (cfg.source.provider = "") "source.provider must not be empty"
  rejectIf (cfg.source.owner = "") "source.owner must not be empty"
  rejectIf (cfg.source.repo = "") "source.repo must not be empty"
  rejectIf (cfg.source.branch = "") "source.branch must not be empty"
  rejectIf (cfg.source.manifestPath = "") "source.manifest_path must not be empty"
  rejectIf (cfg.version = "") "version must not be empty"
  rejectIf (cfg.rollback.enabled ∧ cfg.rollback.healthCheckTimeoutSeconds = 0)
    "rollback.health_check_timeout_seconds must be > 0 when rollback is enabled"
  rejectIf (cfg.reporting.enabled ∧ isUnset cfg.reporting.telegramTokenEnvVar)
    "reporting.telegram_token_env_var must be configured when reporting is enabled"
  rejectIf (cfg.reporting.enabled ∧ trim cfg.reporting.telegramChatId = "")
    "reporting.telegram_chat_id must be set when reporting is enabled"
  rejectIf (cfg.logging.level.toLower ∉ ["trace", "debug", "info", "warn", "error"])
    (s!"logging.level '{cfg.logging.level}' is not valid; " ++
      "expected one of: trace, debug, info, warn, error")
  rejectIf (cfg.logging.auditLogPath = "") "logging.audit_log_path must not be empty"

/-- Load and validate the configuration from what reading its file gave. -/
def loadConfig (S : SerdeYaml) (raw : Except String String) : Except SynqroError SynqroConfig := do
  let raw ← raw.mapError .Io
  let node ← (S.parse raw).mapError .Yaml
  match read S node with
  | none => .error (.Yaml (S.shapeError raw))
  | some cfg => do
    validateConfig cfg
    return cfg

section
variable {S : SerdeYaml} {raw : String}

/-- A struct is read from a mapping whose keys are its fields. -/
theorem struct_eq_some {fields : List String} {n : S.Node} {vs : List S.Node}
    (h : struct S fields n = some vs) :
    ∃ ms, S.map n = some ms ∧ ∀ k ∈ ms.map (·.1), k ∈ fields := by
  obtain ⟨ms, hms, h⟩ := Option.bind_eq_some_iff.1 h
  exact ⟨ms, hms, (closedFields_eq_some h).1⟩

/-- A text whose mapping has another key is refused for its shape. -/
theorem loadConfig_unknown {node : S.Node} {ms : List (String × S.Node)} {k : String}
    (hparse : S.parse raw = .ok node) (hms : S.map node = some ms) (hk : k ∈ ms.map (·.1))
    (hunknown : k ≠ "axiomota") : loadConfig S (.ok raw) = .error (.Yaml (S.shapeError raw)) := by
  have hread : read S node = none := by
    cases hs : struct S ["axiomota"] node with
    | none =>
      unfold read
      rw [hs]
      rfl
    | some vs =>
      obtain ⟨ms', hms', hkeys⟩ := struct_eq_some hs
      cases hms.symm.trans hms'
      exact absurd (List.mem_singleton.1 (hkeys k hk)) hunknown
  unfold loadConfig
  simp only [Except.mapError, bind, Except.bind, hparse, hread]

theorem loadConfig_valid {node : S.Node} {cfg : SynqroConfig} (hparse : S.parse raw = .ok node)
    (hread : read S node = some cfg) (hvalid : validateConfig cfg = .ok ()) :
    loadConfig S (.ok raw) = .ok cfg := by
  unfold loadConfig
  simp only [Except.mapError, bind, Except.bind, hparse, hread, hvalid]
  rfl

/-- What is loaded is a mapping with no other key than `axiomota`. -/
theorem loadConfig_ok {cfg : SynqroConfig} (h : loadConfig S (.ok raw) = .ok cfg) :
    ∃ node ms, S.parse raw = .ok node ∧ S.map node = some ms ∧ ∀ k ∈ ms.map (·.1),
      k = "axiomota" := by
  unfold loadConfig at h
  simp only [Except.mapError, bind, Except.bind] at h
  cases hparse : S.parse raw with
  | error e =>
    rw [hparse] at h
    cases h
  | ok node =>
    rw [hparse] at h
    dsimp only at h
    cases hs : struct S ["axiomota"] node with
    | none =>
      have hread : read S node = none := by
        unfold read
        rw [hs]
        rfl
      rw [hread] at h
      cases h
    | some vs =>
      obtain ⟨ms, hms, hkeys⟩ := struct_eq_some hs
      exact ⟨node, ms, rfl, hms, fun k hk => List.mem_singleton.1 (hkeys k hk)⟩

end

/-! ## What a valid configuration holds -/

section
variable {cfg : SynqroConfig}

theorem rejectIf_ok {c : Prop} [Decidable c] {message : String} {u : Unit} :
    rejectIf c message = .ok u ↔ ¬ c := by
  unfold rejectIf
  split <;> simp_all

/-- What the semantic constraints ask for. -/
structure SynqroConfig.Valid (cfg : SynqroConfig) : Prop where
  checkInterval : 60 ≤ cfg.update.checkIntervalSeconds
  downloadTimeout : cfg.update.downloadTimeoutSeconds ≠ 0
  maxPayloadSize : cfg.update.maxPayloadSizeBytes ≠ 0
  stagingDir : cfg.update.stagingDir ≠ ""
  backupDir : cfg.update.backupDir ≠ ""
  releaseSigningPubkey : isUnset cfg.crypto.releaseSigningPubkey = false
  githubApiCertPin : isUnset cfg.crypto.githubApiCertPin = false
  envVar : isUnset cfg.auth.envVar = false
  installationId : isUnset cfg.installationId = false
  provider : cfg.source.provider ≠ ""
  owner : cfg.source.owner ≠ ""
  repo : cfg.source.repo ≠ ""
  branch : cfg.source.branch ≠ ""
  manifestPath : cfg.source.manifestPath ≠ ""
  version : cfg.version ≠ ""
  healthCheckTimeout : cfg.rollback.enabled = true → cfg.rollback.healthCheckTimeoutSeconds ≠ 0
  telegramTokenEnvVar : cfg.reporting.enabled = true →
    isUnset cfg.reporting.telegramTokenEnvVar = false
  telegramChatId : cfg.reporting.enabled = true → trim cfg.reporting.telegramChatId ≠ ""
  level : cfg.logging.level.toLower ∈ ["trace", "debug", "info", "warn", "error"]
  auditLogPath : cfg.logging.auditLogPath ≠ ""

theorem validateConfig_ok : validateConfig cfg = .ok () ↔ cfg.Valid := by
  have hbind {x : Except SynqroError Unit} {f : Unit → Except SynqroError Unit} :
      (x >>= f) = .ok () ↔ x = .ok () ∧ f () = .ok () := by
    cases x with
    | error e => exact iff_of_false nofun fun h => nomatch h.1
    | ok u => exact (and_iff_right rfl).symm
  unfold validateConfig
  simp only [hbind, rejectIf_ok, UInt64.not_lt, not_and, Bool.not_eq_true, not_not]
  constructor
  · rintro ⟨h1, h2, h3, h4, h5, h6, h7, h8, h9, h10, h11, h12, h13, h14, h15, h16, h17,
      h18, h19, h20⟩
    exact ⟨h1, h2, h3, h4, h5, h6, h7, h8, h9, h10, h11, h12, h13, h14, h15, h16, h17,
      h18, h19, h20⟩
  · intro h
    exact ⟨h.checkInterval, h.downloadTimeout, h.maxPayloadSize, h.stagingDir, h.backupDir,
      h.releaseSigningPubkey, h.githubApiCertPin, h.envVar, h.installationId, h.provider, h.owner,
      h.repo, h.branch, h.manifestPath, h.version, h.healthCheckTimeout, h.telegramTokenEnvVar,
      h.telegramChatId, h.level, h.auditLogPath⟩

/-- The text is the placeholder of a generated configuration. -/
def IsPlaceholder (s : String) : Prop := trim s = "REPLACE_ME"

instance (s : String) : Decidable (IsPlaceholder s) := inferInstanceAs (Decidable (_ = _))

/-- The texts that a generated configuration leaves to be filled in; the chat counts when reports
are sent. -/
def SynqroConfig.filledIn (cfg : SynqroConfig) : List String :=
  [cfg.installationId, cfg.source.owner, cfg.source.repo, cfg.crypto.releaseSigningPubkey,
    cfg.crypto.githubApiCertPin] ++
  if cfg.reporting.enabled then [cfg.reporting.telegramChatId] else []

theorem not_isPlaceholder_of_isUnset {s : String} (h : isUnset s = false) : ¬ IsPlaceholder s := by
  simp only [isUnset, Bool.or_eq_false_iff, decide_eq_false_iff_not] at h
  exact h.1

/-- Of the placeholders that a valid configuration can still hold, those of the owner, the
repository and the chat pass. -/
theorem validateConfig_placeholder (h : validateConfig cfg = .ok ()) :
    (∀ s ∈ cfg.filledIn, ¬ IsPlaceholder s) ↔
      ¬ IsPlaceholder cfg.source.owner ∧ ¬ IsPlaceholder cfg.source.repo ∧
        (cfg.reporting.enabled = true → ¬ IsPlaceholder cfg.reporting.telegramChatId) := by
  have hvalid := validateConfig_ok.1 h
  have hid := not_isPlaceholder_of_isUnset hvalid.installationId
  have hkey := not_isPlaceholder_of_isUnset hvalid.releaseSigningPubkey
  have hpin := not_isPlaceholder_of_isUnset hvalid.githubApiCertPin
  unfold SynqroConfig.filledIn
  cases cfg.reporting.enabled <;> simp [hid, hkey, hpin]

end

/-- A configuration in which one text stands for the owner, the repository and the chat. -/
def filledWith (s : String) : SynqroConfig where
  version := "1.0"
  installationId := "550e8400"
  source := ⟨"github", s, s, "main", "synqro_manifest.json"⟩
  auth := ⟨"keychain", "TOKEN"⟩
  crypto := ⟨"AAAA", "abc1"⟩
  update := ⟨3600, 3, 5, 60, 52428800, "staging", "backup"⟩
  rollback := ⟨true, 30, 2⟩
  reporting := ⟨true, "keychain", "TELEGRAM", s, []⟩
  logging := ⟨"warn", true, "audit.log", true⟩

theorem filledWith_valid :
    ∀ s ∈ ["value", "REPLACE_ME"], validateConfig (filledWith s) = .ok () := by
  decide +kernel

theorem validateConfig_placeholder_value :
    (∀ s ∈ (filledWith "value").filledIn, ¬ IsPlaceholder s) ↔
      ¬ IsPlaceholder "value" ∧ ¬ IsPlaceholder "value" ∧ (true = true → ¬ IsPlaceholder "value") :=
  validateConfig_placeholder (filledWith_valid _ (.head _))

/-- A valid configuration with a placeholder. -/
theorem placeholder_valid :
    ¬ ∀ cfg, validateConfig cfg = .ok () → ∀ s ∈ cfg.filledIn, ¬ IsPlaceholder s := by
  intro h
  refine h (filledWith "REPLACE_ME")
    (filledWith_valid _ (.tail _ (.head _))) "REPLACE_ME" ?_ (by decide)
  exact .tail _ (.head _)

end ConfigFile

end Synqro
