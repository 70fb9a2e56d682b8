import Synqro.Lib.Sha2
import Synqro.World

/-!
# A machine to run the engine on

Externals that compute, an environment in which no call fails, and a process that has just started:
the concrete worlds of this development are made from them.
-/

namespace Synqro

/-- Externals that compute: the real hashes, tags and key derivation, and the JSON reader with
serde_json's depth limit. No signature verifies. -/
def Externals.running : Externals where
  sha256 := Sha2.sha256.hash
  sha512 := Sha2.sha512.hash
  hmacSha256 := Sha2.hmac
  hkdfSha256 := Sha2.hkdf
  base64Decode _ := none
  verifyingKey _ := .ok ()
  verifyStrict _ _ _ := .error "signature error: Verification equation was not satisfied"
  parseJson bytes :=
    match (decodeUtf8? bytes).bind (Json.read 127) with
    | some j => .ok j
    | none => .error "expected value"
  refusesValue _ := none
  shapeError _ := "invalid type"
  parseDateTime _ := none
  toRfc3339 _ := "2026-01-01T00:00:00+00:00"
  displayStatus status := toString status
  os := "linux"
  arch := "x86_64"
  usizeRange := 2 ^ 64

/-- The machine reads back what it prints. -/
theorem Externals.running_parseJson {j : Json} (h : j.nesting ≤ 127) :
    Externals.running.parseJson (toVecPretty j) = .ok j := by
  have hread : (decodeUtf8? (toVecPretty j)).bind (Json.read 127) = some j := by
    rw [toVecPretty, decodeUtf8?_encodeUtf8, Option.bind_some, Json.read_printWith h]
  show (match (decodeUtf8? (toVecPretty j)).bind (Json.read 127) with
    | some j => Except.ok j
    | none => .error "expected value") = .ok j
  rw [hread]

/-- No call fails; the keychain holds a token and the server is out of reach. -/
def Environment.calm : Environment where
  fault _ := none
  clock _ := 0
  secret _ _ _ := .ok (utf8 "token")
  reply _ := .failed "connection refused"
  entryFault _ _ := none

/-- A process that has just started. -/
def World.boot (env : Environment) (process : Process) (files : FileTree) : World where
  files
  auditFile := ⟨[], false⟩
  latch := ⟨0, false⟩
  calls := 0
  env
  process
  issued := []
  trace := []

/-- The executable `/opt/app`. -/
def appExe : Loc := [⟨"app", by decide⟩, ⟨"opt", by decide⟩]

/-- A disk with the executable on it. -/
def installedFiles : FileTree :=
  (FileTree.empty.set appExe.tail .dir).set appExe (.file [1, 2, 3] 0o755)

/-- The backup directory `/backup`. -/
def backupLoc : Loc := [⟨"backup", by decide⟩]

/-- The process of the executable, started in the directory `cwd`. -/
def Process.startedIn (cwd : Loc) : Process where
  cwd
  exe := appExe
  id := 1
  freshMode := 0o644

end Synqro
