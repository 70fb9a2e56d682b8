import Mathlib.Init

/-!
# Configuration

`src/config.rs`: the parts of the configuration the update and rollback paths read.
-/

namespace Synqro

/-- Source repository configuration. -/
structure SourceConfig where
  owner : String
  repo : String
  manifestPath : String

/-- Cryptographic configuration: the base64 text of the release signing key. -/
structure CryptoConfig where
  releaseSigningPubkey : String

/-- Update policy. -/
structure UpdateConfig where
  maxRetries : UInt32
  maxPayloadSizeBytes : UInt64
  stagingDir : String
  backupDir : String

/-- Rollback policy. -/
structure RollbackConfig where
  healthCheckTimeoutSeconds : UInt64

structure SynqroConfig where
  installationId : String
  source : SourceConfig
  crypto : CryptoConfig
  update : UpdateConfig
  rollback : RollbackConfig

end Synqro
