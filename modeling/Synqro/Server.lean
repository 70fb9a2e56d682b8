import Synqro.Ffi
import Synqro.Lib.Base64
import Synqro.Machine

/-!
# A server to update from

Two manifests with one release key's signatures, the engine configured for that key and worlds in
which the server serves one of them: the runs of updates of this development are made from them.
-/

namespace Synqro

/-- The bytes of the artifact. -/
def artifactBytes : Bytes := [7, 7, 7]

/-- The release key's signature of the artifact. -/
def artifactSignature : String :=
  "6M47qqdpxzDLSfLZkezcVIbJyI5XnVH0EQj5IJ5LGnX5Jebv/B/F40zgwQioYWYaraJG2Fo/6yoIaSGIlmNNCA=="

/-- Its signature of the canonical payload of the manifest for the version. -/
def releaseSignature (version : String) : String :=
  if version = "9.0.0" then
    "dsSlfbGZgQMYoqNetktQTmK4JTTStnonipQRAJ88Ir1dOH3TUHfSppBJkt8X49W/PKS4/V7aZQoXS7f1tIsoCg=="
  else "TKlkHZZGUyHdfB19F6jusEziUTbvqXSTfvDzm1/0pjsDABH50CvOb9CfDgZ5B4M4T0cecb8lRjD8yyueI15uCQ=="

/-- The body of the server's manifest for the version. -/
def releaseBody (version : String) : Bytes :=
  utf8 "\x7b\"artifacts\":[\x7b\"platform\":\"linux-x86_64\",\"sha256\":\"" ++
    utf8 "6a7dc6f4267242f01f6636a45c31da51c036da1e9879abce7e1d0aaa76aad876\",\"sha512\":\"" ++
    utf8 "c3b2b8739b5c52ac7c0eef3d7ccd4e314726a107e43e42fe0dfc7cd23bb6a5f2" ++
    utf8 "72e6645bf8d1e472e03d9a62090396f5eb6f8f11a47c6483a52062647b29a18e\"," ++
    utf8 "\"sig_ed25519\":\"" ++ utf8 artifactSignature ++
    utf8 "\",\"size_bytes\":3,\"url\":\"https://example.org/app\"\x7d],\"channel\":\"stable\"," ++
    utf8 "\"issued_at\":\"2026-01-01T00:00:00Z\",\"schema_version\":\"1\",\"version\":\"" ++
    utf8 version ++ utf8 "\",\"manifest_sig_ed25519\":\"" ++ utf8 (releaseSignature version) ++
    utf8 "\"\x7d"

/-- The signatures that the release key has made. -/
def releaseSignatures : List String :=
  [artifactSignature, releaseSignature "9.0.0", releaseSignature "10.0.0"]

/-- The public key of the releases, in base64. -/
def releaseKeyText : String := "A6EHv/POEL4dcN0Y50vAmWfk1jCbpQ1fHdyGZBJVMbg="

/-- Externals that compute, and verify the signatures of the releases; the messages they come with
are the ones they were made for. -/
def Externals.release : Externals :=
  { Externals.running with
    base64Decode := Base64.decode
    verifyStrict := fun key _ signature =>
      if Base64.decode releaseKeyText = some key ∧
          (releaseSignatures.any fun s => Base64.decode s == some signature) then
        .ok ()
      else .error "signature error: Verification equation was not satisfied"
    parseDateTime := fun s =>
      if s = "2026-01-01T00:00:00Z" then some (1767225600 * 10 ^ 9) else none }

/-- The engine of an installation that trusts the release key. -/
def releaseEngine : SynqroEngine where
  config := {
    installationId := "installation"
    source := ⟨"owner", "repo", "synqro_manifest.json"⟩
    crypto := ⟨releaseKeyText⟩
    update := ⟨0, 1000, "/staging", "/backup"⟩
    rollback := ⟨30⟩ }
  audit := ⟨[33, 135, 123, 47, 224, 150, 195, 79, 9, 71, 76, 206, 191, 221, 143, 110, 185, 152, 91,
    167, 84, 221, 77, 42, 205, 74, 148, 192, 178, 209, 97, 60], "installation"⟩

/-- Its downloader. -/
def releaseClient : SynqroDownloader where
  updateConfig := releaseEngine.config.update
  sourceConfig := releaseEngine.config.source
  installationId := releaseEngine.config.installationId
  cryptoConfig := releaseEngine.config.crypto
  audit := releaseEngine.audit

/-- An hour after the manifests were issued, a server that answers the request that is call number
`i` with the manifest of the version and every other one with the artifact. -/
def Environment.serving (version : String) (i : Nat) : Environment :=
  { Environment.calm with
    clock := fun _ => 1767229200 * 10 ^ 9
    reply := fun k => .response 200 none
      [.ok (if k = i then releaseBody version else artifactBytes)] }

/-- The world in which the next update is offered the version. -/
def World.served (w : World) (version : String) : World :=
  { w with env := .serving version (w.calls + 3) }

/-- The process of the installed executable, in the root directory. -/
def installed : World := .boot .calm (.startedIn []) installedFiles

/-- The world after an update to the version. -/
def World.updated (w : World) (version : String) : World :=
  Comp.after (synqroApplyUpdate .release (some releaseEngine)) (w.served version)

/-- The world after a rollback. -/
def World.rolledBack (w : World) : World :=
  Comp.after (synqroRollback .release (some releaseEngine)) w

end Synqro
