import Synqro.Lib.UnixPath
import Synqro.Error
import Synqro.Config
import Synqro.Encoding
import Mathlib.Tactic.Simps.Basic

/-!
# The world the engine runs in

`Externals` is the code the engine links to (hashes, tags, signatures, readers). `World` is
everything a run can change, and `Environment` what it cannot: what the operating system, the
clock, the keychain and the update server answer at each call, numbered by `World.calls`. A call
fails when the environment says so, perhaps after a part of its work. Two components are no part of
the running program but a record of what it did: `World.issued` lists the records the engine has
tagged, `World.trace` what the outside saw it do.
-/

namespace Synqro

/-- Functions of the libraries the engine links to. -/
structure Externals where
  sha256 : Bytes → Bytes
  sha512 : Bytes → Bytes
  /-- The tag of a message under a key. -/
  hmacSha256 : Bytes → Bytes → Bytes
  /-- The 32 bytes derived from a salt, a secret and a label. -/
  hkdfSha256 : Bytes → Bytes → Bytes → Bytes
  base64Decode : String → Option Bytes
  /-- Whether 32 bytes are an Ed25519 public key. -/
  verifyingKey : Bytes → Except String Unit
  /-- Ed25519 verification of a message and a signature under a key. -/
  verifyStrict : Bytes → Bytes → Bytes → Except String Unit
  /-- The syntax tree of a JSON text. -/
  parseJson : Bytes → Except String Json
  /-- Why the untyped reader refuses a text whose unused parts a typed reader skips. -/
  refusesValue : Bytes → Option String
  /-- What a typed reader says of a text of another shape. -/
  shapeError : Bytes → String
  /-- The instant of an RFC 3339 text, in nanoseconds. -/
  parseDateTime : String → Option Int
  toRfc3339 : Int → String
  /-- The text of an HTTP status code. -/
  displayStatus : Nat → String
  /-- `std::env::consts::OS` and `std::env::consts::ARCH`. -/
  os : String
  arch : String
  /-- The number of values of `usize`. -/
  usizeRange : Nat

/-! ## What happens outside -/

/-- All audit event types that the engine can emit. -/
inductive AuditEvent where
  | SynqroInit
  | UpdateCheckStarted
  | UpdateAvailable
  | ManifestSignatureOk
  | ManifestSignatureFail
  | PayloadHashOk
  | PayloadHashFail
  | PayloadSignatureFail
  | UpdateApplied
  | HealthCheckFail
  | RollbackTriggered
  | RollbackSuccess
  | RollbackFailed
  | BackupTampered
  | VersionBlacklisted
  | CrashReportSent
  | CrashReportRateLimited
  | CertPinMismatch
  | TokenLoadFail
  | DegradedModeEntered
deriving DecidableEq

/-- An HTTP request. -/
structure Request where
  url : String
  headers : List (String × String)
deriving DecidableEq

/-- The answer to a request: a transport failure, or a status, its `Retry-After` header and the
body as it arrives. -/
inductive Reply where
  | failed (message : String)
  | response (status : Nat) (retryAfter : Option String) (chunks : List (Except String Bytes))

/-- A failing call to the operating system: its error and how much of its work it had done. -/
structure Fault where
  error : IoError
  done : Nat

/-- What the outside answers to the call of each number. -/
structure Environment where
  fault : Nat → Option Fault
  clock : Nat → Int
  secret : Nat → String → String → Except KeychainError Bytes
  reply : Nat → Reply
  /-- The entries of a directory that cannot be read. -/
  entryFault : Nat → FileName → Option IoError

/-- The running process: its directory, its executable, its number, the mode of its new files. -/
structure Process where
  cwd : Loc
  exe : Loc
  id : UInt32
  freshMode : Mode

/-- The engine's functions that tag records. -/
inductive Signer where
  | takeSnapshot
  | log
  | blacklistVersion
deriving DecidableEq

/-- A record tagged under a key. -/
structure Issue where
  signer : Signer
  key : Bytes
  record : Json

/-- What the outside sees a run do. -/
inductive Effect where
  /-- A file was renamed. -/
  | renamed (src dst : Loc) (node : Option Node)
  /-- A request was sent. -/
  | requested (request : Request)
  /-- A line for the event was appended to the audit log. -/
  | logged (event : AuditEvent) (data : Json)
  /-- A failure or a success was recorded in the latch: the exits of an attempt that record none
  leave no such effect. -/
  | attempted (succeeded : Bool)
  /-- The artifact of a manifest was put in its place. -/
  | deployed (version : String)
  /-- The blacklist with the version was put in its place. -/
  | blacklisted (version : String)
  /-- A process was started. -/
  | spawned (exe : Loc) (arguments : List String)

/-- The open audit log: its contents and whether its lock is held. -/
structure AuditFile where
  bytes : Bytes
  locked : Bool

/-- The atomics of the downloader in use. -/
structure Latch where
  consecutiveFailures : UInt32
  degradedMode : Bool

/-- Everything a run can change. -/
structure World where
  files : FileTree
  auditFile : AuditFile
  latch : Latch
  calls : Nat
  env : Environment
  process : Process
  issued : List Issue
  trace : List Effect

namespace World

/-- One more call was made. -/
@[simps] def tick (w : World) : World := { w with calls := w.calls + 1 }

@[simps] def setFiles (w : World) (t : FileTree) : World := { w with files := t }

@[simps] def setAuditFile (w : World) (f : AuditFile) : World := { w with auditFile := f }

@[simps] def setLatch (w : World) (l : Latch) : World := { w with latch := l }

@[simps] def emit (w : World) (e : Effect) : World := { w with trace := w.trace ++ [e] }

@[simps] def issue (w : World) (i : Issue) : World := { w with issued := w.issued ++ [i] }

/-- The world with other faults ahead. -/
@[simps] def withFaults (w : World) (fault : Nat → Option Fault) : World :=
  { w with env := { w.env with fault := fault } }

/-- The location of a file the process names. -/
def locate (w : World) (p : UnixPath) : Except IoError Loc := p.locateFile w.files w.process.cwd

end World

/-- The engine's computations. -/
abbrev M := Comp World SynqroError

variable {ε α : Type}

/-! ## Calls -/

/-- One call to the operating system: it does its `work`, or fails having done `partly`. -/
def call (work : Comp World IoError α) (partly : Nat → Comp World IoError Unit) :
    Comp World IoError α := fun w =>
  match w.env.fault w.calls with
  | some f => .error f.error (Comp.after (partly f.done) w.tick)
  | none => work w.tick

/-- A call that does nothing but succeed or fail. -/
def bareCall : Comp World IoError Unit := call (pure ()) fun _ => pure ()

/-- A step on the files. -/
def onFiles (step : World → Comp FileTree IoError α) : Comp World IoError α := fun w =>
  match step w w.files with
  | .ok a t => .ok a (w.setFiles t)
  | .error e t => .error e (w.setFiles t)

/-- `Utc::now()`, in nanoseconds. -/
def now : Comp World ε Int := fun w => .ok (w.env.clock w.calls) w.tick

def emit (e : Effect) : Comp World ε Unit := modify (·.emit e)

def issue (i : Issue) : Comp World ε Unit := modify (·.issue i)

/-- `KeychainProvider::load_secret`. -/
def loadSecret (service account : String) : Comp World SynqroError Bytes := fun w =>
  match w.env.secret w.calls service account with
  | .ok secret => .ok secret w.tick
  | .error e => .error e.error w.tick

/-- Send a request and wait for the head of its reply. -/
def send (request : Request) :
    Comp World String (Nat × Option String × List (Except String Bytes)) :=
  fun w =>
    let w' := w.tick.emit (.requested request)
    match w.env.reply w.calls with
    | .failed message => .error message w'
    | .response status retryAfter chunks => .ok (status, retryAfter, chunks) w'

/-! ## Files -/

namespace fs

/-- `fs::read`. -/
def read (p : UnixPath) : Comp World IoError Bytes :=
  call (onFiles fun w => Comp.query fun t => w.locate p >>= t.read) fun _ => pure ()

/-- `fs::metadata(..).permissions().mode()` of a regular file: its type and permission bits. -/
def metadataMode (p : UnixPath) : Comp World IoError UInt32 :=
  call (onFiles fun w => Comp.query fun t => do
    let mode ← w.locate p >>= t.stat
    return 0o100000 + UInt32.ofNat mode.val) fun _ => pure ()

/-- `File::create`: the location stands for the open file. -/
def create (p : UnixPath) : Comp World IoError Loc :=
  call (onFiles fun w => do
    let l ← Comp.query fun _ => w.locate p
    Comp.update (·.create l w.process.freshMode)
    return l) fun _ => pure ()

/-- `Write::write_all` on an open file. -/
def writeAll (file : Loc) (bytes : Bytes) : Comp World IoError Unit :=
  call (onFiles fun _ => Comp.update (·.append file bytes)) fun done =>
    onFiles fun _ => Comp.update (·.append file (bytes.take done))

/-- `fs::write`. -/
def write (p : UnixPath) (bytes : Bytes) : Comp World IoError Unit := do
  let file ← create p
  writeAll file bytes

/-- `fs::set_permissions` with `Permissions::from_mode`. -/
def setPermissions (p : UnixPath) (mode : UInt32) : Comp World IoError Unit :=
  call (onFiles fun w => do
    let l ← Comp.query fun _ => w.locate p
    Comp.update (·.chmod l (Fin.ofNat 4096 mode.toNat))) fun _ => pure ()

/-- `fs::rename`. -/
def rename (src dst : UnixPath) : Comp World IoError Unit :=
  call (do
    let w ← get
    let s ← Comp.ofExcept (w.locate src)
    let d ← Comp.ofExcept (w.locate dst)
    onFiles fun _ => Comp.update (·.rename s d)
    modify fun w => w.emit (.renamed s d (w.files.get d))) fun _ => pure ()

/-- `fs::remove_file`. -/
def removeFile (p : UnixPath) : Comp World IoError Unit :=
  call (onFiles fun w => do
    let l ← Comp.query fun _ => w.locate p
    Comp.update (·.unlink l)) fun _ => pure ()

/-- The directories of the components `cs` of a path. -/
def makeDirs (p : UnixPath) (cs : List Component) : Comp World IoError Unit :=
  onFiles fun w => FileTree.mkdirAll (if p.absolute then [] else w.process.cwd) cs

/-- `fs::create_dir_all`, and `DirBuilder` with `recursive(true)`. -/
def createDirAll (p : UnixPath) : Comp World IoError Unit :=
  call (makeDirs p p.components) fun done => makeDirs p (p.components.take done)

/-- `Path::canonicalize`. -/
def canonicalize (p : UnixPath) : Comp World IoError UnixPath :=
  call (onFiles fun w => Comp.query fun t => do
    let l ← p.locate t w.process.cwd
    match t.get l with
    | some .dir => return .ofLoc l
    | some (.file _ _) => if p.dirOnly then throw .notADirectory else return .ofLoc l
    | none => throw .notFound) fun _ => pure ()

/-- `Path::exists`: an error is no. -/
def pathExists (p : UnixPath) : Comp World ε Bool := do
  let found ← Comp.outcome (call (onFiles fun w => Comp.query fun t => do
    let l ← p.locate t w.process.cwd
    match t.get l with
    | some .dir => return true
    | some (.file _ _) => return !p.dirOnly
    | none => return false) fun _ => pure ())
  return found == .ok true

/-- `fs::read_dir`: the entries, each with its name and whether it is a directory, or an error. -/
def readDir (p : UnixPath) : Comp World IoError (List (Except IoError (FileName × Bool))) :=
  call (onFiles fun w => Comp.query fun t => do
    let l ← p.locate t w.process.cwd
    let entries ← t.list l
    return entries.map fun e =>
      match w.env.entryFault w.calls e.1 with
      | some error => .error error
      | none => .ok e) fun _ => pure ()

end fs

/-- `std::env::current_exe`. -/
def currentExe : Comp World IoError UnixPath :=
  call (do return .ofLoc (← get).process.exe) fun _ => pure ()

end Synqro
