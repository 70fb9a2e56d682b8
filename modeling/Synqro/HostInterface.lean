import Synqro.Lib.CString
import Synqro.Lib.Utf8
import Synqro.Lib.PyText
import Synqro.Initialisation

/-!
# The engine as its host sees it

Between the engine and a Python program stand the C interface of `src/error.rs` and `src/lib.rs`,
which hands out status codes, error numbers and C strings, and the client of `synqro/core.py`, which
copies the strings and frees them. `SynqroClient.call_eq` says that the two together are `Service`:
the engine with a counter of errors and no heap at all. From it follow, for every run of the client,
that no string leaks or is freed twice (`clientRun_safe`) and what the host learns of an error
(`clientRun_tells`).
-/

namespace Synqro

/-! ## Results -/

/-- Status codes returned across the C interface. -/
inductive SynqroStatus where
  | SynqroOk
  | SynqroErrInvalidInput
  | SynqroErrCrypto
  | SynqroErrNetwork
  | SynqroErrSignature
  | SynqroErrRollback
  | SynqroErrPermission
  | SynqroErrInternal

def SynqroStatus.code : SynqroStatus → Int
  | .SynqroOk => 0
  | .SynqroErrInvalidInput => 1
  | .SynqroErrCrypto => 2
  | .SynqroErrNetwork => 3
  | .SynqroErrSignature => 4
  | .SynqroErrRollback => 5
  | .SynqroErrPermission => 6
  | .SynqroErrInternal => 99

/-- The status of an error. -/
def SynqroStatus.ofError : SynqroError → SynqroStatus
  | .InvalidInput _ => .SynqroErrInvalidInput
  | .Crypto _ => .SynqroErrCrypto
  | .Network _ => .SynqroErrNetwork
  | .SignatureVerification _ => .SynqroErrSignature
  | .RollbackBlocked _ => .SynqroErrRollback
  | .Permission _ => .SynqroErrPermission
  | .Config _ | .Io _ | .Json _ | .Yaml _ | .Internal _ | .Degraded => .SynqroErrInternal
  | .Signature _ => .SynqroErrSignature
  | .Rollback _ => .SynqroErrRollback
  | .Keychain _ => .SynqroErrPermission

/-- A C-compatible result. -/
structure SynqroResult where
  status : SynqroStatus
  message : Address
  errorId : UInt64

/-- The engine, the number of the next error and whether the client has been closed. -/
structure Service where
  engine : EngineState
  errorCounter : UInt64
  closed : Bool

/-- The process that engine and host share: its heap holds the C strings, with their NULs. -/
structure Host extends Service where
  heap : Heap Bytes

/-- What both do, where it is defined. -/
abbrev HostM (α : Type) := Comp Host Undefined α

/-- An operation on the heap. -/
def onHeap {α : Type} (x : Comp (Heap Bytes) Undefined α) : HostM α := fun h =>
  match x h.heap with
  | .ok a heap => .ok a { h with heap }
  | .error e heap => .error e { h with heap }

/-- Allocate a new error number. -/
def nextErrorId : HostM UInt64 := fun h =>
  .ok h.errorCounter { h with errorCounter := h.errorCounter + 1 }

/-- `CString::new`: the bytes of a string that holds no NUL. -/
def CString.new (s : String) : Option Bytes := if 0 ∈ utf8 s then none else some (utf8 s)

/-- The text of a message without its NULs. -/
def sanitised (msg : String) : String :=
  .ofList (msg.toList.map fun c => if c = '\x00' then '?' else c)

section
variable (A : Allocator Bytes)

/-- `CString::into_raw`. -/
def CString.intoRaw (bytes : Bytes) : HostM Address := onHeap (Heap.alloc A (bytes ++ [0]))

namespace SynqroResult

/-- A successful result with no message. -/
def ok : SynqroResult := ⟨.SynqroOk, 0, 0⟩

/-- An error result from a status code, a message and a number. -/
def err (status : SynqroStatus) (msg : String) (id : UInt64) : HostM SynqroResult := do
  let cstring := (CString.new (sanitised msg)).getD (utf8 "(message encoding error)")
  let message ← CString.intoRaw A cstring
  return ⟨status, message, id⟩

/-- The message of an error with a number: that of an internal error is withheld. -/
def messageOf (err : SynqroError) (id : UInt64) : String :=
  match err with
  | .Internal _ | .Config _ | .Io _ | .Json _ | .Yaml _ => s!"an internal error occurred (id={id})"
  | other => other.display

/-- The result of an error, under a fresh number. -/
def fromError (error : SynqroError) : HostM SynqroResult := do
  let status := SynqroStatus.ofError error
  let id ← nextErrorId
  err A status (messageOf error id) id

end SynqroResult

/-! ## The C interface -/

/-- What becomes of a closure. -/
inductive Caught where
  | returned
  | failed (error : SynqroError)
  | panicked

/-- `catch_unwind`: a closure that panics leaves the engine in the state `panic`. -/
def catchUnwind (panic : Option EngineState) (f : Comp EngineState SynqroError Unit) :
    HostM Caught := fun h =>
  match panic with
  | some engine => .ok .panicked { h with engine }
  | none =>
    match f h.engine with
    | .ok _ engine => .ok .returned { h with engine }
    | .error e engine => .ok (.failed e) { h with engine }

/-- Wrap a closure and catch its panic. -/
def catchAll (panic : Option EngineState) (f : Comp EngineState SynqroError Unit) :
    HostM SynqroResult := do
  match ← catchUnwind panic f with
  | .returned => return .ok
  | .failed e => SynqroResult.fromError A e
  | .panicked => do
    let id ← nextErrorId
    SynqroResult.err A .SynqroErrInternal "an unexpected internal error occurred" id

/-- A closure that uses the engine. -/
def withEngine (f : Option SynqroEngine → M Unit) : Comp EngineState SynqroError Unit := fun s =>
  onWorld (f s.ENGINE) s

namespace ffi

section
variable (E : Externals) (S : SerdeYaml) (panic : Option EngineState)

def synqroInit (configPath : Option Bytes) : HostM SynqroResult :=
  catchAll A panic (Synqro.synqroInit E S configPath)

def synqroCheckUpdate : HostM SynqroResult :=
  catchAll A panic (withEngine (Synqro.synqroCheckUpdate E))

def synqroApplyUpdate : HostM SynqroResult :=
  catchAll A panic (withEngine (Synqro.synqroApplyUpdate E))

def synqroRollback : HostM SynqroResult := catchAll A panic (withEngine (Synqro.synqroRollback E))

def synqroAuditEvent (eventType dataJson : Option Bytes) : HostM SynqroResult :=
  catchAll A panic (withEngine fun ENGINE => Synqro.synqroAuditEvent E ENGINE eventType dataJson)

def synqroHealthCheck : HostM SynqroResult := catchAll A panic (withEngine Synqro.synqroHealthCheck)

end

/-- The version string of the engine. The first call puts it in a block of its own, which the
process keeps for good and no caller frees: it is none of the blocks that the heap accounts for. -/
def synqroVersion : Bytes := utf8 "0.1.0"

/-- The installation ID on the heap, or null. -/
def synqroInstallationId : HostM Address := do
  match (← get).engine.ENGINE with
  | none => return 0
  | some engine =>
    match CString.new engine.config.installationId with
    | none => return 0
    | some cstring => CString.intoRaw A cstring

/-- Free a string that the engine returned. -/
def synqroFreeString (ptr : Address) : HostM Unit :=
  if ptr = 0 then pure () else onHeap (Heap.free ptr)

/-- Free the message of a result. -/
def synqroFreeResult (r : SynqroResult) : HostM SynqroResult := do
  if r.message ≠ 0 then
    onHeap (Heap.free r.message)
    return { r with message := 0 }
  else return r

end ffi

end

/-! ## The client -/

/-- `bytes.decode("utf-8", errors="replace")`, which on UTF-8 is decoding. -/
structure PyDecoder where
  decode : Bytes → String
  decode_utf8 : ∀ s, decode (utf8 s) = s

namespace core

/-- Mirrors the status codes of the C interface. -/
inductive SynqroStatus where
  | OK
  | ERR_INVALID_INPUT
  | ERR_CRYPTO
  | ERR_NETWORK
  | ERR_SIGNATURE
  | ERR_ROLLBACK
  | ERR_PERMISSION
  | ERR_INTERNAL
deriving DecidableEq

/-- The status with a value; an unknown value is an internal error. -/
def SynqroStatus.ofValue (value : Int) : SynqroStatus :=
  if value = 0 then .OK
  else if value = 1 then .ERR_INVALID_INPUT
  else if value = 2 then .ERR_CRYPTO
  else if value = 3 then .ERR_NETWORK
  else if value = 4 then .ERR_SIGNATURE
  else if value = 5 then .ERR_ROLLBACK
  else if value = 6 then .ERR_PERMISSION
  else .ERR_INTERNAL

/-- The host's copy of a result. -/
structure SynqroResult where
  status : SynqroStatus
  message : String
  errorId : Nat

/-- What a method of the client raises. -/
inductive Raised where
  | RuntimeError (message : String)
  | SynqroException (status : SynqroStatus) (message : String)
  | UnicodeEncodeError

/-- What a method of the client returns. -/
inductive Reply where
  | result (result : SynqroResult)
  | text (text : String)
  | nothing

abbrev Answer := Except Raised Reply

/-- The bytes of an argument that are short enough, with the NUL that ends them. -/
def withinLimit (encoded : Bytes) (name : String) : Except Raised Bytes :=
  if 4096 < encoded.length + 1 then
    .error (.SynqroException .ERR_INVALID_INPUT
      s!"Argument \"{name}\" exceeds SYNQRO_MAX_INPUT_LEN (4096 bytes including NUL)")
  else .ok encoded

/-- Encode a text to UTF-8, if it is short enough. -/
def encode (value : PyText) (name : String) : Except Raised Bytes := do
  let encoded ← value.encode.mapError fun _ => Raised.UnicodeEncodeError
  withinLimit encoded name

/-- The argument that C reads from the bytes. -/
def cArgument (encoded : Bytes) : Option Bytes := some (CString.upToNul encoded)

/-- The text at an address, or nothing at null. -/
def decodeAt (P : PyDecoder) (ptr : Address) : HostM String :=
  if ptr = 0 then pure ""
  else do
    let raw := CString.upToNul (← onHeap (Heap.read ptr))
    return if raw = [] then "" else P.decode raw

/-- Translate a result of the C interface and free it. -/
def translate (P : PyDecoder) (r : Synqro.SynqroResult) : HostM Answer := do
  let status := SynqroStatus.ofValue r.status.code
  let message ← decodeAt P r.message
  let _ ← ffi.synqroFreeResult r
  return .ok (.result ⟨status, message, r.errorId.toNat⟩)

end core

/-- The methods of the client. -/
inductive ClientCall where
  | init (configPath : PyText)
  | checkUpdate
  | applyUpdate
  | rollback
  | version
  | installationId
  | auditEvent (eventType : PyText) (dataJson : Option PyText)
  | healthCheck
  | close

namespace SynqroClient

open core

/-- A method of a client that must be open. -/
def assertOpen (body : HostM Answer) : HostM Answer := do
  if (← get).closed then
    return .error (.RuntimeError
      "SynqroClient has been closed; do not call methods after close().")
  else body

section
variable (A : Allocator Bytes) (P : PyDecoder) (E : Externals) (S : SerdeYaml)
  (panic : Option EngineState)

def init (configPath : PyText) : HostM Answer := assertOpen do
  if configPath = [] then
    return .error (.SynqroException .ERR_INVALID_INPUT "config_path must not be empty")
  match encode configPath "config_path" with
  | .error e => return .error e
  | .ok pathBytes => do
    let cResult ← ffi.synqroInit A E S panic (cArgument pathBytes)
    translate P cResult

def version : HostM Answer := assertOpen (return .ok (.text (P.decode ffi.synqroVersion)))

def installationId : HostM Answer := assertOpen do
  let rawPtr ← ffi.synqroInstallationId A
  if rawPtr = 0 then return .ok (.text "")
  let text ← decodeAt P rawPtr
  ffi.synqroFreeString rawPtr
  return .ok (.text text)

/-- The bytes of an optional argument. -/
def encodeOptional (value : Option PyText) (name : String) : Except Raised (Option Bytes) :=
  match value with
  | none => .ok none
  | some value => (encode value name).map some

def auditEvent (eventType : PyText) (dataJson : Option PyText) : HostM Answer := assertOpen do
  if eventType = [] then
    return .error (.SynqroException .ERR_INVALID_INPUT "event_type must not be empty")
  match encode eventType "event_type", encodeOptional dataJson "data_json" with
  | .error e, _ => return .error e
  | .ok _, .error e => return .error e
  | .ok eventBytes, .ok dataBytes => do
    let cResult ← ffi.synqroAuditEvent A E panic (cArgument eventBytes) (dataBytes.bind cArgument)
    translate P cResult

def close : HostM Answer := do
  modify fun h => { h with closed := true }
  return .ok .nothing

/-- A call of a method. -/
def call : ClientCall → HostM Answer
  | .init configPath => init A P E S panic configPath
  | .checkUpdate => assertOpen (do translate P (← ffi.synqroCheckUpdate A E panic))
  | .applyUpdate => assertOpen (do translate P (← ffi.synqroApplyUpdate A E panic))
  | .rollback => assertOpen (do translate P (← ffi.synqroRollback A E panic))
  | .version => version P
  | .installationId => installationId A P
  | .auditEvent eventType dataJson => auditEvent A P E panic eventType dataJson
  | .healthCheck => assertOpen (do translate P (← ffi.synqroHealthCheck A panic))
  | .close => close

end

end SynqroClient

/-! ## Strings come through -/

theorem notMem_utf8 {s : String} (h : '\x00' ∉ s.toList) : 0 ∉ utf8 s := by
  rw [← String.ofList_toList (s := s), utf8_ofList]
  intro hmem
  obtain ⟨c, hc, hzero⟩ := List.mem_flatMap.1 hmem
  exact Utf8.zero_notMem (ne_of_mem_of_not_mem hc h) hzero

theorem mem_utf8 {s : String} (h : '\x00' ∈ s.toList) : 0 ∈ utf8 s := by
  rw [← String.ofList_toList (s := s), utf8_ofList]
  exact List.mem_flatMap.2 ⟨_, h, by decide⟩

theorem notMem_sanitised (msg : String) : '\x00' ∉ (sanitised msg).toList := by
  rw [sanitised, String.toList_ofList]
  intro h
  obtain ⟨c, -, hc⟩ := List.mem_map.1 h
  split at hc
  · cases hc
  · next hne => exact hne hc

/-- A message without its NULs always has a C string. -/
theorem CString.new_sanitised (msg : String) :
    CString.new (sanitised msg) = some (utf8 (sanitised msg)) :=
  if_neg (notMem_utf8 (notMem_sanitised msg))

/-- The text before its first NUL. -/
def beforeNul (s : String) : String := .ofList (s.toList.takeWhile (· ≠ '\x00'))

theorem upToNul_utf8 (s : String) : CString.upToNul (utf8 s) = utf8 (beforeNul s) := by
  have hs : utf8 s = encodeUtf8 s.toList := by rw [← utf8_ofList, String.ofList_toList]
  rw [beforeNul, utf8_ofList, hs]
  exact Utf8.takeWhile_flatMap s.toList

end Synqro
