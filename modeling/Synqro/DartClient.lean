import Synqro.HostRuns
import Synqro.Lib.Utf16

/-!
# The Dart client

`ffi/dart/lib/synqro.dart`: a second client of the C interface. It copies its arguments to the heap
itself, measures them in UTF-16 code units and frees what it and the engine allocated.
`DartClient.call_eq` says that client and C interface together are the service again, so that no
string leaks (`dartRun_safe`), and `dartRun_agrees` that on arguments which the Python client takes,
both clients say the same.
-/

namespace Synqro

namespace dart

/-- A string of Dart is its UTF-16 code units. -/
abbrev DartText := List UInt16

/-- Mirrors the status codes of the C interface. -/
inductive SynqroStatus where
  | ok
  | errInvalidInput
  | errCrypto
  | errNetwork
  | errSignature
  | errRollback
  | errPermission
  | errInternal
deriving DecidableEq

namespace SynqroStatus

def value : SynqroStatus → Int
  | .ok => 0
  | .errInvalidInput => 1
  | .errCrypto => 2
  | .errNetwork => 3
  | .errSignature => 4
  | .errRollback => 5
  | .errPermission => 6
  | .errInternal => 99

def values : List SynqroStatus :=
  [.ok, .errInvalidInput, .errCrypto, .errNetwork, .errSignature, .errRollback, .errPermission,
    .errInternal]

/-- The status with a value; an unknown value is an internal error. -/
def fromInt (raw : Int) : SynqroStatus := (values.find? (·.value = raw)).getD .errInternal

end SynqroStatus

/-- The host's copy of a result; the number of an error is a signed integer of 64 bits. -/
structure SynqroResult where
  status : SynqroStatus
  message : DartText
  errorId : Int64

/-- What a method of the client throws. -/
inductive Raised where
  | StateError (message : String)
  | SynqroException (status : SynqroStatus) (message : String)
  | FormatException

/-- What a method of the client returns. -/
inductive Reply where
  | result (result : SynqroResult)
  | text (text : DartText)
  | nothing

abbrev Answer := Except Raised Reply

def synqroMaxInputLen : Nat := 4096

/-- The length of an argument is that in code units. -/
def checkStringLength (value : DartText) (name : String) : Except Raised Unit :=
  if synqroMaxInputLen ≤ value.length then
    .error (.SynqroException .errInvalidInput
      s!"Argument \"{name}\" exceeds maximum length of {synqroMaxInputLen} characters")
  else .ok ()

/-- `utf8.encode`; half a surrogate pair is encoded as U+FFFD. -/
def encode (value : DartText) : Bytes := encodeUtf8 (Utf16.decode value)

/-- The text without a byte order mark at its start. -/
def withoutBom : List Char → List Char
  | [] => []
  | c :: cs => if c = '\ufeff' then cs else c :: cs

/-- `utf8.decode`, which drops a byte order mark and throws on what is not UTF-8. -/
def decode? (bytes : Bytes) : Option DartText :=
  (fromUtf8? bytes).map fun s => Utf16.encode (withoutBom s.toList)

/-- `Pointer<Utf8>.toDartString`. -/
def toDartString (ptr : Address) : HostM (Option DartText) := do
  return decode? (CString.upToNul (← onHeap (Heap.read ptr)))

/-- `calloc.free`. -/
def callocFree (ptr : Address) : HostM Unit := onHeap (Heap.free ptr)

/-- The argument that the engine reads at an address. -/
def argumentAt (ptr : Address) : HostM (Option Bytes) := do
  if ptr = 0 then return none
  return some (CString.upToNul (← onHeap (Heap.read ptr)))

section
variable (A : Allocator Bytes)

/-- `String.toNativeUtf8`. -/
def toNativeUtf8 (value : DartText) : HostM Address := onHeap (Heap.alloc A (encode value ++ [0]))

/-- Translate a result of the C interface and free it, by way of a copy of the struct on the
heap. -/
def translateAndFree (cResult : Synqro.SynqroResult) : HostM Answer := do
  let status := SynqroStatus.fromInt cResult.status.code
  let message ← if cResult.message ≠ 0 then toDartString cResult.message else pure (some [])
  match message with
  | none => return .error .FormatException
  | some message => do
    let errorId := cResult.errorId.toInt64
    let ptr ← onHeap (Heap.alloc A (List.replicate 24 0))
    let _ ← ffi.synqroFreeResult cResult
    callocFree ptr
    return .ok (.result ⟨status, message, errorId⟩)

end

end dart

/-- The methods of the client. -/
inductive DartCall where
  | init (configPath : dart.DartText)
  | checkUpdate
  | applyUpdate
  | rollback
  | version
  | installationId
  | auditEvent (eventType : dart.DartText) (dataJson : Option dart.DartText)
  | healthCheck
  | dispose

namespace DartClient

open dart

/-- A method of a client that has not been disposed. -/
def assertNotDisposed (body : HostM dart.Answer) : HostM dart.Answer := do
  if (← get).closed then
    return .error (.StateError
      "SynqroClient has been disposed; do not call methods after dispose().")
  else body

section
variable (A : Allocator Bytes) (E : Externals) (S : SerdeYaml) (panic : Option EngineState)

def init (configPath : DartText) : HostM dart.Answer := assertNotDisposed do
  if configPath = [] then
    return .error (.SynqroException .errInvalidInput "configPath must not be empty")
  match checkStringLength configPath "configPath" with
  | .error e => return .error e
  | .ok () => do
    let pathPtr ← toNativeUtf8 A configPath
    let cResult ← ffi.synqroInit A E S panic (← argumentAt pathPtr)
    let answer ← translateAndFree A cResult
    callocFree pathPtr
    return answer

def version : HostM dart.Answer := assertNotDisposed do
  match decode? ffi.synqroVersion with
  | none => return .error .FormatException
  | some text => return .ok (.text text)

def installationId : HostM dart.Answer := assertNotDisposed do
  let ptr ← ffi.synqroInstallationId A
  if ptr = 0 then return .ok (.text [])
  let text ← toDartString ptr
  ffi.synqroFreeString ptr
  match text with
  | none => return .error .FormatException
  | some text => return .ok (.text text)

/-- The length check of an argument that may be missing. -/
def checkOptional (value : Option DartText) (name : String) : Except Raised Unit :=
  match value with
  | none => .ok ()
  | some value => checkStringLength value name

def auditEvent (eventType : DartText) (dataJson : Option DartText) : HostM dart.Answer :=
  assertNotDisposed do
    if eventType = [] then
      return .error (.SynqroException .errInvalidInput "eventType must not be empty")
    match checkStringLength eventType "eventType", checkOptional dataJson "dataJson" with
    | .error e, _ => return .error e
    | .ok (), .error e => return .error e
    | .ok (), .ok () => do
      let eventTypePtr ← toNativeUtf8 A eventType
      let dataJsonPtr ← match dataJson with
        | none => pure 0
        | some dataJson => toNativeUtf8 A dataJson
      let cResult ← ffi.synqroAuditEvent A E panic (← argumentAt eventTypePtr)
        (← argumentAt dataJsonPtr)
      let answer ← translateAndFree A cResult
      callocFree eventTypePtr
      if dataJson.isSome then callocFree dataJsonPtr
      return answer

def dispose : HostM dart.Answer := do
  if (← get).closed then return .ok .nothing
  modify fun h => { h with closed := true }
  return .ok .nothing

/-- A call of a method. -/
def call : DartCall → HostM dart.Answer
  | .init configPath => init A E S panic configPath
  | .checkUpdate => assertNotDisposed (do translateAndFree A (← ffi.synqroCheckUpdate A E panic))
  | .applyUpdate => assertNotDisposed (do translateAndFree A (← ffi.synqroApplyUpdate A E panic))
  | .rollback => assertNotDisposed (do translateAndFree A (← ffi.synqroRollback A E panic))
  | .version => version
  | .installationId => installationId A
  | .auditEvent eventType dataJson => auditEvent A E panic eventType dataJson
  | .healthCheck => assertNotDisposed (do translateAndFree A (← ffi.synqroHealthCheck A panic))
  | .dispose => dispose

end

end DartClient

/-! ## What a call means -/

section
variable (E : Externals) (S : SerdeYaml)

open dart (DartText)

namespace DartCall

/-- An argument: its text up to the first NUL, if it has few enough code units. -/
def argument (value : DartText) (name : String) : Except dart.Raised String :=
  (dart.checkStringLength value name).map fun _ => beforeNul (.ofList (Utf16.decode value))

/-- An argument that must not be empty. -/
def required (value : DartText) (name : String) : Except dart.Raised String :=
  if value = [] then .error (.SynqroException .errInvalidInput s!"{name} must not be empty")
  else argument value name

/-- An argument that may be missing. -/
def optional (value : Option DartText) (name : String) : Except dart.Raised (Option String) :=
  match value with
  | none => .ok none
  | some value => (argument value name).map some

/-- What a method of a client that is not disposed does. -/
def meaning : DartCall → Except dart.Raised ClientCall.Meaning
  | .init configPath => do
    let path ← required configPath "configPath"
    return .closure (synqroInit E S (some (utf8 path)))
  | .checkUpdate => .ok (.closure (withEngine (synqroCheckUpdate E)))
  | .applyUpdate => .ok (.closure (withEngine (synqroApplyUpdate E)))
  | .rollback => .ok (.closure (withEngine (synqroRollback E)))
  | .version => .ok (.text fun _ => "0.1.0")
  | .installationId => .ok <| .text fun
    | none => ""
    | some engine =>
      if '\x00' ∈ engine.config.installationId.toList then "" else engine.config.installationId
  | .auditEvent eventType dataJson => do
    let event ← required eventType "eventType"
    let data ← optional dataJson "dataJson"
    return .closure (withEngine fun ENGINE =>
      synqroAuditEvent E ENGINE (some (utf8 event)) (data.map utf8))
  | .healthCheck => .ok (.closure (withEngine synqroHealthCheck))
  | .dispose => .ok (.text fun _ => "")

end DartCall

/-- A text as Dart decodes it. -/
def dart.textOf (s : String) : DartText := Utf16.encode (dart.withoutBom s.toList)

/-- The status as the other client names it. -/
def dart.SynqroStatus.ofPython : core.SynqroStatus → dart.SynqroStatus
  | .OK => .ok
  | .ERR_INVALID_INPUT => .errInvalidInput
  | .ERR_CRYPTO => .errCrypto
  | .ERR_NETWORK => .errNetwork
  | .ERR_SIGNATURE => .errSignature
  | .ERR_ROLLBACK => .errRollback
  | .ERR_PERMISSION => .errPermission
  | .ERR_INTERNAL => .errInternal

/-- A result as Dart translates it. -/
def dart.SynqroResult.ofPython (r : core.SynqroResult) : dart.SynqroResult where
  status := .ofPython r.status
  message := dart.textOf r.message
  errorId := (UInt64.ofNat r.errorId).toInt64

namespace Service

/-- The answer of a method of a client that is not disposed, and what it leaves. -/
def dartAnswerOpen (s : Service) (panic : Option EngineState) (c : DartCall) :
    dart.Answer × Service :=
  match c.meaning E S with
  | .error e => (.error e, s)
  | .ok (.text text) => (.ok (.text (dart.textOf (text s.engine.ENGINE))), s)
  | .ok (.closure f) => (.ok (.result (.ofPython (s.report panic f).1)), (s.report panic f).2)

/-- The answer of a method, and what it leaves. -/
def dartAnswer (s : Service) (panic : Option EngineState) (c : DartCall) : dart.Answer × Service :=
  match c with
  | .dispose => (.ok .nothing, { s with closed := true })
  | c =>
    if s.closed then
      (.error (.StateError "SynqroClient has been disposed; do not call methods after dispose()."),
        s)
    else s.dartAnswerOpen E S panic c

end Service

end

/-! ## What a call does -/

section
variable {A : Allocator Bytes} {s : Service} {heap : Heap Bytes}

open dart (DartText)

theorem dart.decode?_utf8 (s : String) : dart.decode? (utf8 s) = some (dart.textOf s) := by
  rw [dart.decode?, fromUtf8?_utf8]
  rfl

/-- A string of the engine's on the heap is decoded. -/
theorem dart.toDartString_allocated {m : String} (hm : '\x00' ∉ m.toList) :
    dart.toDartString (A.choose heap (utf8 m ++ [0])) ⟨s, heap.allocated A (utf8 m ++ [0])⟩ =
      .ok (some (dart.textOf m)) ⟨s, heap.allocated A (utf8 m ++ [0])⟩ := by
  have hread : onHeap (Heap.read (A.choose heap (utf8 m ++ [0])))
      (⟨s, heap.allocated A (utf8 m ++ [0])⟩ : Host) =
        .ok (utf8 m ++ [0]) ⟨s, heap.allocated A (utf8 m ++ [0])⟩ := by
    rw [onHeap, Heap.read_alloc]
  have hraw : CString.upToNul (utf8 m ++ [0]) = utf8 m := CString.upToNul_ended (notMem_utf8 hm)
  simp only [dart.toDartString, Comp.bind_run, hread, hraw, dart.decode?_utf8, Comp.pure_run]

theorem dart.SynqroStatus.fromInt_code (status : Synqro.SynqroStatus) :
    fromInt status.code = ofPython (core.SynqroStatus.ofValue status.code) := by
  cases status <;> rfl

theorem dart.translateAndFree_ok : dart.translateAndFree A SynqroResult.ok ⟨s, heap⟩ =
    .ok (.ok (.result (.ofPython ⟨.OK, "", 0⟩))) ⟨s, heap⟩ := by
  have hfree : onHeap (Heap.free (A.choose heap (List.replicate 24 0)))
      (⟨s, heap.allocated A (List.replicate 24 0)⟩ : Host) = .ok () ⟨s, heap⟩ :=
    onHeap_free_allocated _
  have halloc : onHeap (Heap.alloc A (List.replicate 24 0)) (⟨s, heap⟩ : Host) =
      .ok (A.choose heap (List.replicate 24 0)) ⟨s, heap.allocated A (List.replicate 24 0)⟩ := rfl
  simp only [dart.translateAndFree, SynqroResult.ok, ne_eq, not_true_eq_false, if_false, pure_bind,
    Comp.bind_run, halloc, ffi.synqroFreeResult, Comp.pure_run, dart.callocFree, hfree]
  rfl

/-- The result of an error is copied and freed, below the copy of the struct. -/
theorem dart.translateAndFree_err (status : Synqro.SynqroStatus) (msg : String) (id : UInt64) :
    (SynqroResult.err A status msg id >>= dart.translateAndFree A) ⟨s, heap⟩ =
      .ok (.ok (.result (.ofPython ⟨.ofValue status.code, sanitised msg, id.toNat⟩)))
        ⟨s, heap⟩ := by
  have herr : SynqroResult.err A status msg id ⟨s, heap⟩ =
      .ok ⟨status, A.choose heap (utf8 (sanitised msg) ++ [0]), id⟩
        ⟨s, heap.allocated A (utf8 (sanitised msg) ++ [0])⟩ := by
    unfold SynqroResult.err
    rw [CString.new_sanitised]
    rfl
  obtain ⟨-, heap', hmessage, hstruct⟩ :=
    @Heap.free_free_alloc _ heap (utf8 (sanitised msg) ++ [0]) A
    (List.replicate 24 0)
  have halloc : onHeap (Heap.alloc A (List.replicate 24 0))
      (⟨s, heap.allocated A (utf8 (sanitised msg) ++ [0])⟩ : Host) =
        .ok (A.choose (heap.allocated A (utf8 (sanitised msg) ++ [0])) (List.replicate 24 0))
          ⟨s, (heap.allocated A (utf8 (sanitised msg) ++ [0])).allocated A
            (List.replicate 24 0)⟩ := rfl
  have hfree (p : Address) {t t' : Heap Bytes} (h : Heap.free p t = .ok () t') :
      onHeap (Heap.free p) (⟨s, t⟩ : Host) = .ok () ⟨s, t'⟩ := by
    rw [onHeap, h]
  simp only [Comp.bind_run, herr, dart.translateAndFree, ne_eq, A.nonNull, not_false_eq_true,
    if_true, dart.toDartString_allocated (notMem_sanitised msg), halloc, ffi.synqroFreeResult,
    hfree _ hmessage, dart.callocFree, hfree _ hstruct, Comp.pure_run,
    dart.SynqroStatus.fromInt_code]
  simp [dart.SynqroResult.ofPython]

theorem dart.translateAndFree_catchAll (panic : Option EngineState)
    (f : Comp EngineState SynqroError Unit) :
    (catchAll A panic f >>= dart.translateAndFree A) ⟨s, heap⟩ =
      .ok (.ok (.result (.ofPython (s.report panic f).1))) ⟨(s.report panic f).2, heap⟩ :=
  @catchAll_bind A s heap _ (dart.translateAndFree A) (fun r => .ok (.result (.ofPython r)))
    (fun _ => dart.translateAndFree_ok) (fun _ => dart.translateAndFree_err) panic f

/-- What the engine reads of an argument is its text up to the first NUL. -/
theorem dart.upToNul_encode (value : DartText) : CString.upToNul (dart.encode value ++ [0]) =
    utf8 (beforeNul (.ofList (Utf16.decode value))) := by
  rw [CString.upToNul_append_nul, dart.encode, ← utf8_ofList, upToNul_utf8]

/-- An argument that can be read on the heap. -/
theorem dart.argumentAt_of_read {value : DartText} {p : Address} (hp : p ≠ 0)
    (h : Heap.read p heap = .ok (dart.encode value ++ [0]) heap) :
    dart.argumentAt p ⟨s, heap⟩ =
      .ok (some (utf8 (beforeNul (.ofList (Utf16.decode value))))) ⟨s, heap⟩ := by
  have hread : onHeap (Heap.read p) (⟨s, heap⟩ : Host) =
      .ok (dart.encode value ++ [0]) ⟨s, heap⟩ := by
    rw [onHeap, h]
  rw [dart.argumentAt, if_neg hp]
  simp only [Comp.bind_run, hread, dart.upToNul_encode, Comp.pure_run]

/-- An argument that was put on the heap. -/
theorem dart.argumentAt_native (value : DartText) :
    dart.argumentAt (A.choose heap (dart.encode value ++ [0]))
        ⟨s, heap.allocated A (dart.encode value ++ [0])⟩ =
      .ok (some (utf8 (beforeNul (.ofList (Utf16.decode value)))))
        ⟨s, heap.allocated A (dart.encode value ++ [0])⟩ :=
  dart.argumentAt_of_read (A.nonNull _ _) (Heap.read_alloc A)

theorem assertNotDisposed_run (body : HostM dart.Answer) :
    DartClient.assertNotDisposed body ⟨s, heap⟩ = if s.closed then .ok (.error (.StateError
      "SynqroClient has been disposed; do not call methods after dispose().")) ⟨s, heap⟩
    else body ⟨s, heap⟩ := by
  rw [DartClient.assertNotDisposed, Comp.bind_run, Comp.get_run]
  dsimp only
  split <;> rfl

variable {E : Externals} {S : SerdeYaml} {panic : Option EngineState}

/-- A method of a client that must not be disposed, by what it does on one that is not. -/
theorem assertNotDisposed_answer {c : DartCall} {body : HostM dart.Answer}
    (hbody : body ⟨s, heap⟩ =
      .ok (s.dartAnswerOpen E S panic c).1 ⟨(s.dartAnswerOpen E S panic c).2, heap⟩)
    (hc : c ≠ .dispose) : DartClient.assertNotDisposed body ⟨s, heap⟩ =
      .ok (s.dartAnswer E S panic c).1 ⟨(s.dartAnswer E S panic c).2, heap⟩ := by
  have hanswer : s.dartAnswer E S panic c =
      if s.closed then (.error (.StateError
        "SynqroClient has been disposed; do not call methods after dispose()."), s)
      else s.dartAnswerOpen E S panic c := by
    cases c <;> first | exact absurd rfl hc | rfl
  rw [assertNotDisposed_run, hanswer]
  split
  · rfl
  · exact hbody

/-- A method that runs a closure. -/
theorem assertNotDisposed_closure {c : DartCall} {f : Comp EngineState SynqroError Unit}
    (hf : c.meaning E S = .ok (.closure f)) (hc : c ≠ .dispose) :
    DartClient.assertNotDisposed (catchAll A panic f >>= dart.translateAndFree A) ⟨s, heap⟩ =
      .ok (s.dartAnswer E S panic c).1 ⟨(s.dartAnswer E S panic c).2, heap⟩ := by
  refine assertNotDisposed_answer ?_ hc
  rw [dart.translateAndFree_catchAll, Service.dartAnswerOpen, hf]

/-- A method that throws before it reaches the engine. -/
theorem assertNotDisposed_raised {c : DartCall} {e : dart.Raised} (he : c.meaning E S = .error e)
    (hc : c ≠ .dispose) : DartClient.assertNotDisposed (return .error e) ⟨s, heap⟩ =
      .ok (s.dartAnswer E S panic c).1 ⟨(s.dartAnswer E S panic c).2, heap⟩ := by
  refine assertNotDisposed_answer ?_ hc
  rw [Service.dartAnswerOpen, he]
  rfl

/-- The outcome of a length check, by the argument that it means. -/
theorem checkStringLength_cases (value : DartText) (name : String) :
    (∃ e, dart.checkStringLength value name = .error e ∧ DartCall.argument value name = .error e) ∨
    dart.checkStringLength value name = .ok () ∧
      DartCall.argument value name = .ok (beforeNul (.ofList (Utf16.decode value))) := by
  unfold DartCall.argument
  cases dart.checkStringLength value name with
  | error e => exact .inl ⟨e, rfl, rfl⟩
  | ok u => exact .inr ⟨rfl, rfl⟩

theorem dartInit_eq (configPath : DartText) : DartClient.init A E S panic configPath ⟨s, heap⟩ =
    .ok (s.dartAnswer E S panic (.init configPath)).1
      ⟨(s.dartAnswer E S panic (.init configPath)).2, heap⟩ := by
  unfold DartClient.init
  by_cases hempty : configPath = []
  · have hmeaning : DartCall.meaning E S (.init configPath) =
        .error (.SynqroException .errInvalidInput "configPath must not be empty") := by
      rw [DartCall.meaning, DartCall.required, if_pos hempty]
      rfl
    simp only [if_pos hempty]
    exact assertNotDisposed_raised hmeaning nofun
  · rcases checkStringLength_cases configPath "configPath" with ⟨e, hcheck, hargument⟩ |
      ⟨hcheck, hargument⟩
    · have hmeaning : DartCall.meaning E S (.init configPath) = .error e := by
        rw [DartCall.meaning, DartCall.required, if_neg hempty, hargument]
        rfl
      simp only [if_neg hempty, hcheck]
      exact assertNotDisposed_raised hmeaning nofun
    · have hmeaning : DartCall.meaning E S (.init configPath) = .ok (.closure (synqroInit E S
          (some (utf8 (beforeNul (.ofList (Utf16.decode configPath))))))) := by
        rw [DartCall.meaning, DartCall.required, if_neg hempty, hargument]
        rfl
      simp only [if_neg hempty, hcheck]
      refine assertNotDisposed_answer ?_ nofun
      have halloc : dart.toNativeUtf8 A configPath ⟨s, heap⟩ =
          .ok (A.choose heap (dart.encode configPath ++ [0]))
            ⟨s, heap.allocated A (dart.encode configPath ++ [0])⟩ := rfl
      rw [Comp.bind_run, halloc]
      dsimp only
      rw [Comp.bind_run, dart.argumentAt_native]
      dsimp only
      rw [← bind_assoc, Comp.bind_run, ffi.synqroInit, dart.translateAndFree_catchAll]
      dsimp only
      rw [Comp.bind_run, dart.callocFree, onHeap_free_allocated, Service.dartAnswerOpen, hmeaning]
      rfl

theorem dartInstallationId_eq : DartClient.installationId A ⟨s, heap⟩ =
    .ok (s.dartAnswer E S panic .installationId).1
      ⟨(s.dartAnswer E S panic .installationId).2, heap⟩ := by
  refine assertNotDisposed_answer ?_ nofun
  have hmeaning : s.dartAnswerOpen E S panic .installationId =
      (.ok (.text (dart.textOf (match s.engine.ENGINE with
        | none => ""
        | some engine =>
          if '\x00' ∈ engine.config.installationId.toList then ""
          else engine.config.installationId))), s) := rfl
  rw [hmeaning]
  unfold ffi.synqroInstallationId
  simp only [Comp.bind_run, Comp.get_run]
  cases s.engine.ENGINE with
  | none => rfl
  | some engine =>
    dsimp only
    by_cases hnul : '\x00' ∈ engine.config.installationId.toList
    · have hnew : CString.new engine.config.installationId = none := if_pos (mem_utf8 hnul)
      rw [hnew, if_pos hnul]
      rfl
    · have hnew : CString.new engine.config.installationId =
          some (utf8 engine.config.installationId) := if_neg (notMem_utf8 hnul)
      have halloc : CString.intoRaw A (utf8 engine.config.installationId) ⟨s, heap⟩ =
          .ok (A.choose heap (utf8 engine.config.installationId ++ [0]))
            ⟨s, heap.allocated A (utf8 engine.config.installationId ++ [0])⟩ := rfl
      rw [hnew, if_neg hnul]
      dsimp only
      rw [halloc]
      simp only [if_neg (A.nonNull _ _), Comp.bind_run, dart.toDartString_allocated hnul,
        ffi.synqroFreeString, onHeap_free_allocated, Comp.pure_run]

/-- The arguments of an event stay on the heap while the engine reads them, and are freed after
it. -/
theorem dartAuditEvent_closure {eventType : DartText} {dataJson : Option DartText}
    (hempty : eventType ≠ []) (hevent : dart.checkStringLength eventType "eventType" = .ok ())
    (hdata : DartClient.checkOptional dataJson "dataJson" = .ok ()) :
    DartClient.auditEvent A E panic eventType dataJson ⟨s, heap⟩ =
      DartClient.assertNotDisposed (catchAll A panic (withEngine fun ENGINE =>
        synqroAuditEvent E ENGINE (some (utf8 (beforeNul (.ofList (Utf16.decode eventType)))))
          (dataJson.map fun d => utf8 (beforeNul (.ofList (Utf16.decode d))))) >>=
            dart.translateAndFree A) ⟨s, heap⟩ := by
  have hnative (value : DartText) (t : Heap Bytes) : dart.toNativeUtf8 A value ⟨s, t⟩ =
      .ok (A.choose t (dart.encode value ++ [0]))
        ⟨s, t.allocated A (dart.encode value ++ [0])⟩ := rfl
  have hfree {s : Service} {p : Address} {t t' : Heap Bytes} (h : Heap.free p t = .ok () t') :
      dart.callocFree p (⟨s, t⟩ : Host) = .ok () ⟨s, t'⟩ := by
    rw [dart.callocFree, onHeap, h]
  unfold DartClient.auditEvent
  simp only [if_neg hempty, hevent, hdata]
  rw [assertNotDisposed_run, assertNotDisposed_run]
  split
  · rfl
  rw [dart.translateAndFree_catchAll, Comp.bind_run, hnative]
  dsimp only
  cases dataJson with
  | none =>
    dsimp only
    rw [pure_bind, Comp.bind_run, dart.argumentAt_native]
    dsimp only
    rw [show dart.argumentAt 0 = pure none from rfl, pure_bind, ← bind_assoc, Comp.bind_run,
      ffi.synqroAuditEvent, dart.translateAndFree_catchAll]
    dsimp only
    rw [Comp.bind_run, hfree (Heap.free_alloc A)]
    rfl
  | some data =>
    obtain ⟨hread, heap', hfirst, hsecond⟩ :=
      @Heap.free_free_alloc _ heap (dart.encode eventType ++ [0]) A
      (dart.encode data ++ [0])
    dsimp only
    rw [Comp.bind_run, hnative]
    dsimp only
    rw [Comp.bind_run, dart.argumentAt_of_read (A.nonNull _ _) hread]
    dsimp only
    rw [Comp.bind_run, dart.argumentAt_native]
    dsimp only
    rw [← bind_assoc, Comp.bind_run, ffi.synqroAuditEvent, dart.translateAndFree_catchAll]
    dsimp only
    rw [Comp.bind_run, hfree hfirst]
    dsimp only
    rw [Option.isSome_some, if_pos rfl, Comp.bind_run, hfree hsecond]
    rfl

theorem checkOptional_cases (value : Option DartText) (name : String) :
    (∃ e, DartClient.checkOptional value name = .error e ∧
      DartCall.optional value name = .error e) ∨
    DartClient.checkOptional value name = .ok () ∧ DartCall.optional value name =
      .ok (value.map fun v => beforeNul (.ofList (Utf16.decode v))) := by
  cases value with
  | none => exact .inr ⟨rfl, rfl⟩
  | some value =>
    rcases checkStringLength_cases value name with ⟨e, hcheck, hargument⟩ | ⟨hcheck, hargument⟩
    · refine .inl ⟨e, hcheck, ?_⟩
      rw [DartCall.optional, hargument]
      rfl
    · refine .inr ⟨hcheck, ?_⟩
      rw [DartCall.optional, hargument]
      rfl

theorem dartAuditEvent_eq (eventType : DartText) (dataJson : Option DartText) :
    DartClient.auditEvent A E panic eventType dataJson ⟨s, heap⟩ =
      .ok (s.dartAnswer E S panic (.auditEvent eventType dataJson)).1
        ⟨(s.dartAnswer E S panic (.auditEvent eventType dataJson)).2, heap⟩ := by
  by_cases hempty : eventType = []
  · have hmeaning : DartCall.meaning E S (.auditEvent eventType dataJson) =
        .error (.SynqroException .errInvalidInput "eventType must not be empty") := by
      rw [DartCall.meaning, DartCall.required, if_pos hempty]
      rfl
    unfold DartClient.auditEvent
    simp only [if_pos hempty]
    exact assertNotDisposed_raised hmeaning nofun
  · rcases checkStringLength_cases eventType "eventType" with ⟨e, hcheck, hargument⟩ |
      ⟨hcheck, hargument⟩
    · have hmeaning : DartCall.meaning E S (.auditEvent eventType dataJson) = .error e := by
        rw [DartCall.meaning, DartCall.required, if_neg hempty, hargument]
        rfl
      unfold DartClient.auditEvent
      simp only [if_neg hempty, hcheck]
      exact assertNotDisposed_raised hmeaning nofun
    · rcases checkOptional_cases dataJson "dataJson" with ⟨e, hdata, hoptional⟩ | ⟨hdata, hoptional⟩
      · have hmeaning : DartCall.meaning E S (.auditEvent eventType dataJson) = .error e := by
          rw [DartCall.meaning, DartCall.required, if_neg hempty, hargument, hoptional]
          rfl
        unfold DartClient.auditEvent
        simp only [if_neg hempty, hcheck, hdata]
        exact assertNotDisposed_raised hmeaning nofun
      · have hmeaning : DartCall.meaning E S (.auditEvent eventType dataJson) =
            .ok (.closure (withEngine fun ENGINE => synqroAuditEvent E ENGINE
              (some (utf8 (beforeNul (.ofList (Utf16.decode eventType)))))
              (dataJson.map fun d => utf8 (beforeNul (.ofList (Utf16.decode d)))))) := by
          rw [DartCall.meaning, DartCall.required, if_neg hempty, hargument, hoptional]
          cases dataJson <;> rfl
        rw [dartAuditEvent_closure hempty hcheck hdata]
        exact assertNotDisposed_closure hmeaning nofun

/-- **The Dart client and the C interface are the service.** A call is defined whatever the heap,
answers as the service does and leaves the heap as it was. -/
theorem DartClient.call_eq (c : DartCall) : DartClient.call A E S panic c ⟨s, heap⟩ =
    .ok (s.dartAnswer E S panic c).1 ⟨(s.dartAnswer E S panic c).2, heap⟩ := by
  cases c with
  | init configPath => exact dartInit_eq configPath
  | checkUpdate => exact assertNotDisposed_closure (c := .checkUpdate) rfl (by simp)
  | applyUpdate => exact assertNotDisposed_closure (c := .applyUpdate) rfl (by simp)
  | rollback => exact assertNotDisposed_closure (c := .rollback) rfl (by simp)
  | version =>
    refine assertNotDisposed_answer ?_ (by simp)
    rw [ffi.synqroVersion, dart.decode?_utf8]
    rfl
  | installationId => exact dartInstallationId_eq
  | auditEvent eventType dataJson => exact dartAuditEvent_eq eventType dataJson
  | healthCheck => exact assertNotDisposed_closure (c := .healthCheck) rfl (by simp)
  | dispose =>
    obtain ⟨engine, counter, closed⟩ := s
    cases closed <;> rfl

theorem DartClient.call_ok {c : DartCall} {a : dart.Answer} {h h' : Host}
    (hcall : DartClient.call A E S panic c h = .ok a h') :
    a = (h.toService.dartAnswer E S panic c).1 ∧
      h' = ⟨(h.toService.dartAnswer E S panic c).2, h.heap⟩ := by
  cases (DartClient.call_eq c).symm.trans hcall
  exact ⟨rfl, rfl⟩

end

/-! ## Runs -/

/-- A call of the client and its answer. -/
structure DartAsked where
  call : DartCall
  answer : dart.Answer

section
variable (A : Allocator Bytes) (E : Externals) (S : SerdeYaml)

/-- Calls of the client, one after the other, whatever happens in the world between them. -/
inductive DartRun (h₀ : Host) : List DartAsked → Host → Prop
  | start : DartRun h₀ [] h₀
  | outside {rs : List DartAsked} {h : Host} (w : World) : DartRun h₀ rs h →
      DartRun h₀ rs { h with engine := { h.engine with world := w } }
  | call {rs : List DartAsked} {h h' : Host} {a : dart.Answer} (panic : Option EngineState)
      (c : DartCall) : DartRun h₀ rs h → DartClient.call A E S panic c h = .ok a h' →
      DartRun h₀ (rs ++ [⟨c, a⟩]) h'

end

/-- **No string leaks from Dart.** After any run of the client the heap is what it was before: the
arguments it copied, the engine's messages and its copies of the results are freed once each. Every
further call is defined. -/
theorem dartRun_safe (A : Allocator Bytes) (E : Externals) (S : SerdeYaml) (h₀ h : Host)
    (rs : List DartAsked) (hrun : DartRun A E S h₀ rs h) :
    h.heap = h₀.heap ∧ ∀ panic c, ∃ a s, DartClient.call A E S panic c h = .ok a ⟨s, h.heap⟩ := by
  refine ⟨?_, fun panic c => ⟨_, _, DartClient.call_eq c⟩⟩
  induction hrun with
  | start => rfl
  | outside w _ ih => exact ih
  | call panic c _ hcall ih =>
    obtain ⟨-, rfl⟩ := DartClient.call_ok hcall
    exact ih

/-- A path and an event before the engine was initialised. -/
theorem freshHost_dartRun : ∃ rs h, DartRun (.above Bytes) .running .running freshHost rs h ∧
    rs.map (·.call) = [.init [0x20ac], .auditEvent [0x41] (some [0xd83d, 0xde00])] := by
  have hfirst := @DartClient.call_eq
    (.above Bytes) freshHost.toService freshHost.heap .running .running
    none (.init [0x20ac])
  exact ⟨_, _, .call none (.auditEvent [0x41] (some [0xd83d, 0xde00])) (.call none _ .start hfirst)
    (DartClient.call_eq _), rfl⟩

theorem dartRun_safe_uninitialised : ∃ rs h,
    DartRun (.above Bytes) .running .running freshHost rs h ∧
      rs.map (·.call) = [.init [0x20ac], .auditEvent [0x41] (some [0xd83d, 0xde00])] ∧
        h.heap = .empty Bytes := by
  obtain ⟨rs, h, hrun, hcalls⟩ := freshHost_dartRun
  exact ⟨rs, h, hrun, hcalls, (dartRun_safe _ _ _ _ _ _ hrun).1⟩

/-! ## The two clients -/

/-- The argument of both clients is one text that is short enough for both. -/
inductive SameText : dart.DartText → PyText → Prop
  | intro (s : String) : (utf8 s).length < 4096 → SameText (Utf16.encode s.toList) (.ofString s)

/-- A call of the one client is one of the other. -/
inductive SameCall : DartCall → ClientCall → Prop
  | init {d : dart.DartText} {p : PyText} : SameText d p → SameCall (.init d) (.init p)
  | checkUpdate : SameCall .checkUpdate .checkUpdate
  | applyUpdate : SameCall .applyUpdate .applyUpdate
  | rollback : SameCall .rollback .rollback
  | version : SameCall .version .version
  | installationId : SameCall .installationId .installationId
  | auditEvent {d : dart.DartText} {p : PyText} {d' : Option dart.DartText} {p' : Option PyText} :
      SameText d p → Option.Rel SameText d' p' → SameCall (.auditEvent d d') (.auditEvent p p')
  | healthCheck : SameCall .healthCheck .healthCheck
  | dispose : SameCall .dispose .close

/-- Both clients say the same: results in all their fields, with the number as a signed integer in
Dart, where a text also loses a byte order mark, and errors of the same kind. -/
inductive SameAnswer : dart.Answer → core.Answer → Prop
  | result (r : core.SynqroResult) : SameAnswer
      (.ok (.result ⟨.ofPython r.status, Utf16.encode r.message.toList,
        (UInt64.ofNat r.errorId).toInt64⟩))
      (.ok (.result r))
  | text (s : String) : SameAnswer (.ok (.text (dart.textOf s))) (.ok (.text s))
  | nothing : SameAnswer (.ok .nothing) (.ok .nothing)
  | closed (m m' : String) : SameAnswer (.error (.StateError m)) (.error (.RuntimeError m'))
  | refused (m m' : String) : SameAnswer (.error (.SynqroException .errInvalidInput m))
      (.error (.SynqroException .ERR_INVALID_INPUT m'))

section
variable {E : Externals} {S : SerdeYaml} {s : Service} {panic : Option EngineState}

theorem toString_ofString (s : String) : (PyText.ofString s).toString = s := by
  have hchar (c : Char) : Char.ofNat (Fin.ofNat 0x110000 c.toNat).val = c := by
    have hvalid : c.toNat < 0xd800 ∨ 0xdfff < c.toNat ∧ c.toNat < 0x110000 := c.valid
    have hval : (Fin.ofNat 0x110000 c.toNat).val = c.toNat := Nat.mod_eq_of_lt (by omega)
    rw [hval, Char.ofNat_toNat]
  rw [PyText.toString, PyText.ofString, List.map_map, ← String.ofList_toList (s := s)]
  refine congrArg String.ofList ?_
  rw [String.ofList_toList]
  exact (List.map_congr_left fun c _ => hchar c).trans (List.map_id _)

/-- Both clients let the text through. -/
theorem SameText.argument {d : dart.DartText} {p : PyText} (h : SameText d p)
    (name name' : String) :
    ∃ text, DartCall.argument d name = .ok text ∧ ClientCall.argument p name' = .ok text := by
  obtain ⟨s, hs⟩ := h
  refine ⟨beforeNul s, ?_, ?_⟩
  · have hunits : (Utf16.encode s.toList).length ≤ (utf8 s).length := by
      have hle := Utf16.length_encode_le s.toList
      rwa [← encodeUtf8, ← utf8_ofList, String.ofList_toList] at hle
    rw [DartCall.argument, dart.checkStringLength, dart.synqroMaxInputLen, if_neg (by omega),
      Utf16.decode_encode, String.ofList_toList]
    rfl
  · rw [ClientCall.argument, if_neg (not_not.2 (PyText.encodable_ofString s)), toString_ofString,
      core.withinLimit, if_neg (by omega)]
    rfl

theorem SameText.nil_iff {d : dart.DartText} {p : PyText} (h : SameText d p) : d = [] ↔ p = [] := by
  obtain ⟨s, -⟩ := h
  have hpy : PyText.ofString s = [] ↔ s.toList = [] := List.map_eq_nil_iff
  rw [hpy]
  exact ⟨fun h => Utf16.encode_inj h, fun h => by rw [h]; rfl⟩

/-- A required argument of both clients: it is empty, or both let it through. -/
theorem SameText.required {d : dart.DartText} {p : PyText} (h : SameText d p)
    (name name' : String) :
    (∃ m m', DartCall.required d name = .error (.SynqroException .errInvalidInput m) ∧
      ClientCall.required p name' = .error (.SynqroException .ERR_INVALID_INPUT m')) ∨
    ∃ text, DartCall.required d name = .ok text ∧ ClientCall.required p name' = .ok text := by
  unfold DartCall.required ClientCall.required
  by_cases hempty : d = []
  · rw [if_pos hempty, if_pos (h.nil_iff.1 hempty)]
    exact .inl ⟨_, _, rfl, rfl⟩
  · rw [if_neg hempty, if_neg fun hp => hempty (h.nil_iff.2 hp)]
    exact .inr (h.argument name name')

theorem SameText.optional {d : Option dart.DartText} {p : Option PyText}
    (h : Option.Rel SameText d p)
    (name name' : String) : ∃ text, DartCall.optional d name = .ok text ∧
      ClientCall.optional p name' = .ok text := by
  cases h with
  | none => exact ⟨none, rfl, rfl⟩
  | some h =>
    obtain ⟨text, hd, hp⟩ := h.argument name name'
    refine ⟨some text, ?_, ?_⟩
    · rw [DartCall.optional, hd]
      rfl
    · rw [ClientCall.optional, hp]
      rfl

/-- Both clients refuse a call, or mean the same by it. -/
theorem SameCall.meaning {c : DartCall} {c' : ClientCall} (h : SameCall c c') (hc : c' ≠ .close) :
    (∃ m m', c.meaning E S = .error (.SynqroException .errInvalidInput m) ∧
      c'.meaning E S = .error (.SynqroException .ERR_INVALID_INPUT m')) ∨
    ∃ m, c.meaning E S = .ok m ∧ c'.meaning E S = .ok m := by
  cases h with
  | init htext =>
    rw [DartCall.meaning, ClientCall.meaning]
    rcases htext.required "configPath" "config_path" with ⟨m, m', hd, hp⟩ | ⟨text, hd, hp⟩
    · rw [hd, hp]
      exact .inl ⟨m, m', rfl, rfl⟩
    · rw [hd, hp]
      exact .inr ⟨_, rfl, rfl⟩
  | auditEvent htext hdata =>
    rw [DartCall.meaning, ClientCall.meaning]
    rcases htext.required "eventType" "event_type" with ⟨m, m', hd, hp⟩ | ⟨text, hd, hp⟩
    · rw [hd, hp]
      exact .inl ⟨m, m', rfl, rfl⟩
    · obtain ⟨data, hd', hp'⟩ := SameText.optional hdata "dataJson" "data_json"
      rw [hd, hp, hd', hp']
      exact .inr ⟨_, rfl, rfl⟩
  | checkUpdate | applyUpdate | rollback | version | installationId | healthCheck =>
    exact .inr ⟨_, rfl, rfl⟩
  | dispose => exact absurd rfl hc

/-- A text that does not start with a byte order mark is decoded whole. -/
theorem dart.textOf_eq {s : String} (h : s.toList.head? ≠ some '\ufeff') :
    dart.textOf s = Utf16.encode s.toList := by
  unfold dart.textOf
  cases hs : s.toList with
  | nil => rfl
  | cons c cs =>
    rw [hs] at h
    rw [dart.withoutBom, if_neg fun hc => h (congrArg some hc)]

theorem head?_append {pre t : String} {c : Char} (h : pre.toList.head? = some c) :
    (pre ++ t).toList.head? = some c := by
  rw [String.toList_append, List.head?_append, h]
  rfl

/-- The text of an error starts with a letter of its kind. -/
theorem SynqroResult.head?_messageOf (e : SynqroError) (id : UInt64) :
    ∃ c, c ≠ '\ufeff' ∧ (messageOf e id).toList.head? = some c := by
  cases e with
  | InvalidInput m => exact ⟨'i', by decide, @head?_append "invalid input: " _ _ (by decide)⟩
  | Crypto m => exact ⟨'c', by decide, @head?_append "cryptographic error: " _ _ (by decide)⟩
  | Network m => exact ⟨'n', by decide, @head?_append "network error: " _ _ (by decide)⟩
  | SignatureVerification m | Signature m =>
    exact ⟨'s', by decide, @head?_append "signature verification failed: " _ _ (by decide)⟩
  | RollbackBlocked m => exact ⟨'r', by decide, @head?_append "rollback blocked: " _ _ (by decide)⟩
  | Permission m => exact ⟨'p', by decide, @head?_append "permission denied: " _ _ (by decide)⟩
  | Rollback m => exact ⟨'r', by decide, @head?_append "rollback failed: " _ _ (by decide)⟩
  | Degraded =>
    have hfixed : SynqroError.Degraded.display.toList.head? = some 'e' := by decide
    exact ⟨'e', by decide, hfixed⟩
  | Keychain m => exact ⟨'k', by decide, @head?_append "keychain error: " _ _ (by decide)⟩
  | Internal m | Config m | Io m | Json m | Yaml m =>
    exact ⟨'a', by decide,
      head?_append (@head?_append "an internal error occurred (id=" _ _ (by decide))⟩

theorem head?_sanitised {msg : String} {c : Char} (hc : c ≠ '\ufeff')
    (h : msg.toList.head? = some c) : (sanitised msg).toList.head? ≠ some '\ufeff' := by
  rw [sanitised, String.toList_ofList, List.head?_map, h, Option.map_some]
  split
  · exact fun h => absurd (Option.some.inj h) (by decide)
  · exact fun h => hc (Option.some.inj h)

/-- No result's message starts with a byte order mark. -/
theorem Service.textOf_report (s : Service) (panic : Option EngineState)
    (f : Comp EngineState SynqroError Unit) :
    dart.textOf (s.report panic f).1.message =
      Utf16.encode (s.report panic f).1.message.toList := by
  refine dart.textOf_eq ?_
  unfold report
  cases panic with
  | some engine =>
    show "an unexpected internal error occurred".toList.head? ≠ _
    decide
  | none =>
    dsimp only
    cases f s.engine with
    | ok u engine =>
      show "".toList.head? ≠ _
      decide
    | error e engine =>
      obtain ⟨c, hc, hhead⟩ := SynqroResult.head?_messageOf e s.errorCounter
      exact head?_sanitised hc hhead

/-- Both clients answer alike and leave the engine alike. -/
theorem SameCall.answer {c : DartCall} {c' : ClientCall} (h : SameCall c c') :
    SameAnswer (s.dartAnswer E S panic c).1 (s.answer E S panic c').1 ∧
      (s.dartAnswer E S panic c).2 = (s.answer E S panic c').2 := by
  have hopen (hc : c' ≠ .close) :
      SameAnswer (s.dartAnswerOpen E S panic c).1 (s.answerOpen E S panic c').1 ∧
        (s.dartAnswerOpen E S panic c).2 = (s.answerOpen E S panic c').2 := by
    unfold Service.dartAnswerOpen Service.answerOpen
    rcases @SameCall.meaning E S c c' h hc with ⟨m, m', hd, hp⟩ | ⟨m, hd, hp⟩
    · rw [hd, hp]
      exact ⟨.refused m m', rfl⟩
    · rw [hd, hp]
      cases m with
      | text text => exact ⟨.text _, rfl⟩
      | closure f =>
        refine ⟨?_, rfl⟩
        have hresult := SameAnswer.result (s.report panic f).1
        rwa [← Service.textOf_report] at hresult
  have hclosed : SameAnswer (.error (.StateError
        "SynqroClient has been disposed; do not call methods after dispose()."))
      (.error (.RuntimeError "SynqroClient has been closed; do not call methods after close().")) :=
    .closed _ _
  cases h with
  | dispose => exact ⟨.nothing, rfl⟩
  | init | checkUpdate | applyUpdate | rollback | version | installationId | auditEvent |
      healthCheck =>
    unfold Service.dartAnswer Service.answer
    dsimp only
    split
    · exact ⟨hclosed, rfl⟩
    · exact hopen nofun

end

/-- **The two clients agree.** A run of the Dart client on arguments that the Python client takes is
a run of the Python client from the same process to the same, and each call is answered alike. -/
theorem dartRun_agrees (A : Allocator Bytes) (P : PyDecoder) (E : Externals) (S : SerdeYaml)
    (h₀ h : Host) (rs : List DartAsked) (hrun : DartRun A E S h₀ rs h)
    (hcommon : ∀ r ∈ rs, ∃ c, SameCall r.call c) :
    ∃ asked, ClientRun A P E S h₀ asked h ∧
      List.Forall₂ (fun r a => SameCall r.call a.call ∧ SameAnswer r.answer a.answer) rs asked := by
  induction hrun with
  | start => exact ⟨[], .start, .nil⟩
  | outside w _ ih =>
    obtain ⟨asked, hclient, hsame⟩ := ih hcommon
    exact ⟨asked, .outside w hclient, hsame⟩
  | @call rs h h' a panic c _ hcall ih =>
    obtain ⟨asked, hclient, hsame⟩ := ih fun r hr => hcommon r (List.mem_append_left _ hr)
    obtain ⟨c', hc⟩ := hcommon ⟨c, a⟩ (List.mem_append_right _ (.head _))
    obtain ⟨rfl, rfl⟩ := DartClient.call_ok hcall
    obtain ⟨hanswer, hservice⟩ := @SameCall.answer E S h.toService panic c c' hc
    have hpython := @SynqroClient.call_eq A P h.toService h.heap E S panic c'
    rw [hservice]
    exact ⟨_, .call panic c' hclient hpython, List.rel_append hsame (.cons ⟨hc, hanswer⟩ .nil)⟩

theorem dartRun_agrees_uninitialised : ∃ rs h asked,
    DartRun (.above Bytes) .running .running freshHost rs h ∧
      ClientRun (.above Bytes) .running .running .running freshHost asked h ∧
        List.Forall₂ (fun r a => SameCall r.call a.call ∧ SameAnswer r.answer a.answer) rs asked ∧
          rs.length = 2 := by
  obtain ⟨rs, h, hrun, hcalls⟩ := freshHost_dartRun
  have hpath : SameText [0x20ac] (.ofString "€") := .intro "€" (by decide)
  have hevent : SameText [0x41] (.ofString "A") := .intro "A" (by decide)
  have hdata : SameText [0xd83d, 0xde00] (.ofString "😀") := .intro "😀" (by decide)
  have hcommon : ∀ r ∈ rs, ∃ c, SameCall r.call c := by
    intro r hr
    have hcall := List.mem_map_of_mem (f := (·.call)) hr
    rw [hcalls] at hcall
    simp only [List.mem_cons, List.not_mem_nil, or_false] at hcall
    rcases hcall with hcall | hcall
    · rw [hcall]
      exact ⟨_, .init hpath⟩
    · rw [hcall]
      exact ⟨_, .auditEvent hevent (.some hdata)⟩
  obtain ⟨asked, hclient, hsame⟩ := dartRun_agrees _ .running _ _ _ _ _ hrun hcommon
  refine ⟨rs, h, asked, hrun, hclient, hsame, ?_⟩
  rw [← List.length_map (f := (·.call)), hcalls]
  rfl

end Synqro
