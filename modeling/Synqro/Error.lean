/-!
# Errors

`src/error.rs`: the errors of the engine and their texts.
-/

namespace Synqro

/-- All errors that the engine produces; the wrappers of library errors hold their texts. -/
inductive SynqroError where
  | InvalidInput (message : String)
  | Crypto (message : String)
  | Network (message : String)
  | SignatureVerification (message : String)
  | RollbackBlocked (message : String)
  | Permission (message : String)
  | Config (message : String)
  | Io (message : String)
  | Json (message : String)
  | Yaml (message : String)
  | Internal (message : String)
  | Signature (message : String)
  | Rollback (message : String)
  | Degraded
  | Keychain (message : String)
deriving DecidableEq

/-- The text of an error. -/
def SynqroError.display : SynqroError → String
  | .InvalidInput m => s!"invalid input: {m}"
  | .Crypto m => s!"cryptographic error: {m}"
  | .Network m => s!"network error: {m}"
  | .SignatureVerification m => s!"signature verification failed: {m}"
  | .RollbackBlocked m => s!"rollback blocked: {m}"
  | .Permission m => s!"permission denied: {m}"
  | .Config m => s!"configuration error: {m}"
  | .Io m => s!"I/O error: {m}"
  | .Json m => s!"JSON error: {m}"
  | .Yaml m => s!"YAML error: {m}"
  | .Internal _ => "internal error"
  | .Signature m => s!"signature verification failed: {m}"
  | .Rollback m => s!"rollback failed: {m}"
  | .Degraded => "engine in degraded mode — check audit log and reset"
  | .Keychain m => s!"keychain error: {m}"

/-- The errors a keychain provider reports, whatever the platform: never the degraded mode, which
is the downloader's own. -/
structure KeychainError where
  error : SynqroError
  reported : error ≠ .Degraded

end Synqro
