import Synqro.HostInterface

/-!
# Runs of the client

`Service.answer` says what a method of the client means: the closure behind it on the arguments up
to their first NUL, with a number for each error. `SynqroClient.call_eq` says that client and C
interface together do just that and leave the heap as they found it. For a run of the client it
follows that every string is freed once, by the call that allocated it (`clientRun_safe`), and what
the host is told (`clientRun_tells`).
-/

namespace Synqro

open core (Answer)

/-! ## What a call means -/

section
variable (E : Externals) (S : SerdeYaml)

/-- An argument: its text up to the first NUL, if it can be encoded and is short enough. -/
def ClientCall.argument (value : PyText) (name : String) : Except core.Raised String :=
  if ¬ value.Encodable then .error .UnicodeEncodeError
  else (core.withinLimit (utf8 value.toString) name).map fun _ => beforeNul value.toString

/-- An argument that must not be empty. -/
def ClientCall.required (value : PyText) (name : String) : Except core.Raised String :=
  if value = [] then .error (.SynqroException .ERR_INVALID_INPUT s!"{name} must not be empty")
  else argument value name

/-- An argument that may be missing. -/
def ClientCall.optional (value : Option PyText) (name : String) :
    Except core.Raised (Option String) :=
  match value with
  | none => .ok none
  | some value => (argument value name).map some

/-- The text that a method answers with at once, or the closure that it runs. -/
inductive ClientCall.Meaning where
  | text (text : Option SynqroEngine → String)
  | closure (f : Comp EngineState SynqroError Unit)

/-- What a method of an open client does. -/
def ClientCall.meaning : ClientCall → Except core.Raised Meaning
  | .init configPath => do
    let path ← required configPath "config_path"
    return .closure (synqroInit E S (some (utf8 path)))
  | .checkUpdate => .ok (.closure (withEngine (synqroCheckUpdate E)))
  | .applyUpdate => .ok (.closure (withEngine (synqroApplyUpdate E)))
  | .rollback => .ok (.closure (withEngine (synqroRollback E)))
  | .version => .ok (.text fun _ => "0.1.0")
  | .installationId => .ok <| .text fun
    | none => ""
    | some engine =>
      if '\x00' ∈ engine.config.installationId.toList then "" else engine.config.installationId
  | .auditEvent eventType dataJson => do
    let event ← required eventType "event_type"
    let data ← optional dataJson "data_json"
    return .closure (withEngine fun ENGINE =>
      synqroAuditEvent E ENGINE (some (utf8 event)) (data.map utf8))
  | .healthCheck => .ok (.closure (withEngine synqroHealthCheck))
  | .close => .ok (.text fun _ => "")

namespace Service

/-- What the host is told of an error with a number. -/
def told (error : SynqroError) (id : UInt64) : core.SynqroResult :=
  ⟨.ofValue (SynqroStatus.ofError error).code,
    sanitised (SynqroResult.messageOf error id), id.toNat⟩

/-- What the host is told of a panic. -/
def toldPanic (id : UInt64) : core.SynqroResult :=
  ⟨.ERR_INTERNAL, "an unexpected internal error occurred", id.toNat⟩

/-- The engine in a new state, after an error. -/
def afterError (s : Service) (engine : EngineState) : Service :=
  { s with engine, errorCounter := s.errorCounter + 1 }

/-- The result of a closure, which may panic. -/
def report (s : Service) (panic : Option EngineState) (f : Comp EngineState SynqroError Unit) :
    core.SynqroResult × Service :=
  match panic with
  | some engine => (toldPanic s.errorCounter, s.afterError engine)
  | none =>
    match f s.engine with
    | .ok _ engine => (⟨.OK, "", 0⟩, { s with engine })
    | .error e engine => (told e s.errorCounter, s.afterError engine)

/-- The answer of a method of an open client, and what it leaves. -/
def answerOpen (s : Service) (panic : Option EngineState) (c : ClientCall) : Answer × Service :=
  match c.meaning E S with
  | .error e => (.error e, s)
  | .ok (.text text) => (.ok (.text (text s.engine.ENGINE)), s)
  | .ok (.closure f) => (.ok (.result (s.report panic f).1), (s.report panic f).2)

/-- The answer of a method, and what it leaves. -/
def answer (s : Service) (panic : Option EngineState) (c : ClientCall) : Answer × Service :=
  match c with
  | .close => (.ok .nothing, { s with closed := true })
  | c =>
    if s.closed then
      (.error (.RuntimeError "SynqroClient has been closed; do not call methods after close()."), s)
    else s.answerOpen E S panic c

end Service

end

/-! ## What a call does -/

section
variable {A : Allocator Bytes} {P : PyDecoder} {s : Service} {heap : Heap Bytes}

/-- A string that was put on the heap, with its NUL, is decoded as it was. -/
theorem decodeAt_allocated {m : String} (hm : '\x00' ∉ m.toList) :
    core.decodeAt P (A.choose heap (utf8 m ++ [0])) ⟨s, heap.allocated A (utf8 m ++ [0])⟩ =
      .ok m ⟨s, heap.allocated A (utf8 m ++ [0])⟩ := by
  have hread : onHeap (Heap.read (A.choose heap (utf8 m ++ [0])))
      (⟨s, heap.allocated A (utf8 m ++ [0])⟩ : Host) =
        .ok (utf8 m ++ [0]) ⟨s, heap.allocated A (utf8 m ++ [0])⟩ := by
    rw [onHeap, Heap.read_alloc]
  have hraw : CString.upToNul (utf8 m ++ [0]) = utf8 m := CString.upToNul_ended (notMem_utf8 hm)
  rw [core.decodeAt, if_neg (A.nonNull _ _)]
  simp only [Comp.bind_run, hread, hraw, P.decode_utf8, Comp.pure_run]
  split
  · next hempty =>
    have hm : utf8 m = utf8 "" := hempty
    rw [utf8_inj hm]
  · rfl

/-- A block that was allocated is freed. -/
theorem onHeap_free_allocated (b : Bytes) :
    onHeap (Heap.free (A.choose heap b)) (⟨s, heap.allocated A b⟩ : Host) = .ok () ⟨s, heap⟩ := by
  rw [onHeap, Heap.free_alloc]

/-- The result of an error is copied and freed. -/
theorem translate_err (status : SynqroStatus) (msg : String) (id : UInt64) :
    (SynqroResult.err A status msg id >>= core.translate P) ⟨s, heap⟩ =
      .ok (.ok (.result ⟨.ofValue status.code, sanitised msg, id.toNat⟩)) ⟨s, heap⟩ := by
  have herr : SynqroResult.err A status msg id ⟨s, heap⟩ =
      .ok ⟨status, A.choose heap (utf8 (sanitised msg) ++ [0]), id⟩
        ⟨s, heap.allocated A (utf8 (sanitised msg) ++ [0])⟩ := by
    unfold SynqroResult.err
    rw [CString.new_sanitised]
    rfl
  simp only [Comp.bind_run, herr, core.translate, decodeAt_allocated (notMem_sanitised msg),
    ffi.synqroFreeResult, ne_eq, A.nonNull, not_false_eq_true, if_true, onHeap_free_allocated,
    Comp.pure_run]

theorem translate_ok : core.translate P SynqroResult.ok ⟨s, heap⟩ =
    .ok (.ok (.result ⟨.OK, "", 0⟩)) ⟨s, heap⟩ := rfl

/-- A closure behind the C interface and what a client makes of its result: `T` on the heap, `of` on
the result that is meant. -/
theorem catchAll_bind {β : Type} {T : SynqroResult → HostM β} {of : core.SynqroResult → β}
    (hok : ∀ s : Service, T .ok ⟨s, heap⟩ = .ok (of ⟨.OK, "", 0⟩) ⟨s, heap⟩)
    (herr : ∀ (s : Service) status msg id, (SynqroResult.err A status msg id >>= T) ⟨s, heap⟩ =
      .ok (of ⟨.ofValue status.code, sanitised msg, id.toNat⟩) ⟨s, heap⟩)
    (panic : Option EngineState) (f : Comp EngineState SynqroError Unit) :
    (catchAll A panic f >>= T) ⟨s, heap⟩ =
      .ok (of (s.report panic f).1) ⟨(s.report panic f).2, heap⟩ := by
  have hpanicked (engine : EngineState) := herr (s.afterError engine) .SynqroErrInternal
    "an unexpected internal error occurred" s.errorCounter
  have hfailed (e : SynqroError) (engine : EngineState) := herr (s.afterError engine) (.ofError e)
    (SynqroResult.messageOf e s.errorCounter) s.errorCounter
  unfold catchAll Service.report
  cases panic with
  | some engine =>
    simp only [bind_assoc]
    rw [Comp.bind_run, catchUnwind]
    dsimp only
    rw [bind_assoc, Comp.bind_run, nextErrorId]
    exact hpanicked engine
  | none =>
    rw [bind_assoc, Comp.bind_run, catchUnwind]
    dsimp only
    cases f s.engine with
    | ok u engine => exact hok _
    | error e engine =>
      dsimp only
      rw [SynqroResult.fromError, bind_assoc, Comp.bind_run, nextErrorId]
      exact hfailed e engine

theorem translate_catchAll (panic : Option EngineState) (f : Comp EngineState SynqroError Unit) :
    (catchAll A panic f >>= core.translate P) ⟨s, heap⟩ =
      .ok (.ok (.result (s.report panic f).1)) ⟨(s.report panic f).2, heap⟩ :=
  @catchAll_bind A s heap _ (core.translate P) (fun r => .ok (.result r)) (fun _ => translate_ok)
    (fun _ => translate_err) panic f

theorem withinLimit_ok {encoded bytes : Bytes} {name : String}
    (h : core.withinLimit encoded name = .ok bytes) : bytes = encoded := by
  unfold core.withinLimit at h
  split at h
  · cases h
  · exact (Except.ok.inj h).symm

/-- What C reads of an argument that was encoded. -/
theorem encode_eq (value : PyText) (name : String) :
    (core.encode value name).map core.cArgument =
      (ClientCall.argument value name).map fun text => some (utf8 text) := by
  unfold core.encode ClientCall.argument
  by_cases hvalue : value.Encodable
  · have hencode : value.encode = .ok (utf8 value.toString) := if_pos hvalue
    rw [hencode, if_neg (not_not.2 hvalue)]
    show (core.withinLimit (utf8 value.toString) name).map core.cArgument =
      ((core.withinLimit (utf8 value.toString) name).map fun _ => beforeNul value.toString).map
        fun text => some (utf8 text)
    cases hlimit : core.withinLimit (utf8 value.toString) name with
    | error e => rfl
    | ok bytes =>
      rw [withinLimit_ok hlimit]
      exact congrArg (fun b => Except.ok (some b)) (upToNul_utf8 value.toString)
  · have hencode : value.encode =
        .error (.value "'utf-8' codec can't encode character: surrogates not allowed") :=
          if_neg hvalue
    rw [hencode, if_pos hvalue]
    rfl

/-- The outcome of an encoding, by the argument that it means. -/
theorem encode_cases (value : PyText) (name : String) :
    (∃ e, core.encode value name = .error e ∧ ClientCall.argument value name = .error e) ∨
    ∃ bytes text, core.encode value name = .ok bytes ∧ ClientCall.argument value name = .ok text ∧
      core.cArgument bytes = some (utf8 text) := by
  have heq := encode_eq value name
  cases hencode : core.encode value name with
  | error e =>
    cases hargument : ClientCall.argument value name with
    | error e' =>
      rw [hencode, hargument] at heq
      exact .inl ⟨e, rfl, by cases heq; rfl⟩
    | ok text =>
      rw [hencode, hargument] at heq
      cases heq
  | ok bytes =>
    cases hargument : ClientCall.argument value name with
    | error e' =>
      rw [hencode, hargument] at heq
      cases heq
    | ok text =>
      rw [hencode, hargument] at heq
      exact .inr ⟨bytes, text, rfl, rfl, Except.ok.inj heq⟩

theorem encodeOptional_cases (value : Option PyText) (name : String) :
    (∃ e, SynqroClient.encodeOptional value name = .error e ∧
      ClientCall.optional value name = .error e) ∨
    ∃ bytes text, SynqroClient.encodeOptional value name = .ok bytes ∧
      ClientCall.optional value name = .ok text ∧ bytes.bind core.cArgument = text.map utf8 := by
  cases value with
  | none => exact .inr ⟨none, none, rfl, rfl, rfl⟩
  | some value =>
    rcases encode_cases value name with ⟨e, hencode, hargument⟩ |
      ⟨bytes, text, hencode, hargument, hbytes⟩
    · refine .inl ⟨e, ?_, ?_⟩
      · rw [SynqroClient.encodeOptional, hencode]
        rfl
      · rw [ClientCall.optional, hargument]
        rfl
    · refine .inr ⟨some bytes, some text, ?_, ?_, hbytes⟩
      · rw [SynqroClient.encodeOptional, hencode]
        rfl
      · rw [ClientCall.optional, hargument]
        rfl

theorem assertOpen_run (body : HostM Answer) : SynqroClient.assertOpen body ⟨s, heap⟩ =
    if s.closed then .ok (.error (.RuntimeError
      "SynqroClient has been closed; do not call methods after close().")) ⟨s, heap⟩
    else body ⟨s, heap⟩ := by
  rw [SynqroClient.assertOpen, Comp.bind_run, Comp.get_run]
  dsimp only
  split <;> rfl

variable {E : Externals} {S : SerdeYaml} {panic : Option EngineState}

/-- A method of a client that must be open, by what it does on an open one. -/
theorem assertOpen_answer {c : ClientCall} {body : HostM Answer}
    (hbody : body ⟨s, heap⟩ = .ok (s.answerOpen E S panic c).1 ⟨(s.answerOpen E S panic c).2, heap⟩)
    (hc : c ≠ .close) :
    SynqroClient.assertOpen body ⟨s, heap⟩ =
      .ok (s.answer E S panic c).1 ⟨(s.answer E S panic c).2, heap⟩ := by
  have hanswer : s.answer E S panic c =
      if s.closed then (.error (.RuntimeError
        "SynqroClient has been closed; do not call methods after close()."), s)
      else s.answerOpen E S panic c := by
    cases c <;> first | exact absurd rfl hc | rfl
  rw [assertOpen_run, hanswer]
  split
  · rfl
  · exact hbody

/-- A method that runs a closure. -/
theorem assertOpen_closure {c : ClientCall} {f : Comp EngineState SynqroError Unit}
    (hf : c.meaning E S = .ok (.closure f)) (hc : c ≠ .close) :
    SynqroClient.assertOpen (catchAll A panic f >>= core.translate P) ⟨s, heap⟩ =
      .ok (s.answer E S panic c).1 ⟨(s.answer E S panic c).2, heap⟩ := by
  refine assertOpen_answer ?_ hc
  rw [translate_catchAll, Service.answerOpen, hf]

/-- A method that raises before it reaches the engine. -/
theorem assertOpen_raised {c : ClientCall} {e : core.Raised} (he : c.meaning E S = .error e)
    (hc : c ≠ .close) :
    SynqroClient.assertOpen (return .error e) ⟨s, heap⟩ =
      .ok (s.answer E S panic c).1 ⟨(s.answer E S panic c).2, heap⟩ := by
  refine assertOpen_answer ?_ hc
  rw [Service.answerOpen, he]
  rfl

theorem init_eq (configPath : PyText) : SynqroClient.init A P E S panic configPath ⟨s, heap⟩ =
    .ok (s.answer E S panic (.init configPath)).1
      ⟨(s.answer E S panic (.init configPath)).2, heap⟩ := by
  unfold SynqroClient.init
  by_cases hempty : configPath = []
  · have hmeaning : ClientCall.meaning E S (.init configPath) =
        .error (.SynqroException .ERR_INVALID_INPUT "config_path must not be empty") := by
      rw [ClientCall.meaning, ClientCall.required, if_pos hempty]
      rfl
    simp only [if_pos hempty]
    exact assertOpen_raised hmeaning nofun
  · rcases encode_cases configPath "config_path" with ⟨e, hencode, hargument⟩ |
      ⟨bytes, text, hencode, hargument, hbytes⟩
    · have hmeaning : ClientCall.meaning E S (.init configPath) = .error e := by
        rw [ClientCall.meaning, ClientCall.required, if_neg hempty, hargument]
        rfl
      simp only [if_neg hempty, hencode]
      exact assertOpen_raised hmeaning nofun
    · have hmeaning : ClientCall.meaning E S (.init configPath) =
          .ok (.closure (synqroInit E S (some (utf8 text)))) := by
        rw [ClientCall.meaning, ClientCall.required, if_neg hempty, hargument]
        rfl
      simp only [if_neg hempty, hencode, hbytes]
      exact assertOpen_closure hmeaning nofun

theorem auditEvent_eq (eventType : PyText) (dataJson : Option PyText) :
    SynqroClient.auditEvent A P E panic eventType dataJson ⟨s, heap⟩ =
      .ok (s.answer E S panic (.auditEvent eventType dataJson)).1
        ⟨(s.answer E S panic (.auditEvent eventType dataJson)).2, heap⟩ := by
  unfold SynqroClient.auditEvent
  by_cases hempty : eventType = []
  · have hmeaning : ClientCall.meaning E S (.auditEvent eventType dataJson) =
        .error (.SynqroException .ERR_INVALID_INPUT "event_type must not be empty") := by
      rw [ClientCall.meaning, ClientCall.required, if_pos hempty]
      rfl
    simp only [if_pos hempty]
    exact assertOpen_raised hmeaning nofun
  · rcases encode_cases eventType "event_type" with ⟨e, hencode, hargument⟩ |
      ⟨bytes, text, hencode, hargument, hbytes⟩
    · have hmeaning : ClientCall.meaning E S (.auditEvent eventType dataJson) = .error e := by
        rw [ClientCall.meaning, ClientCall.required, if_neg hempty, hargument]
        rfl
      simp only [if_neg hempty, hencode]
      exact assertOpen_raised hmeaning nofun
    · rcases encodeOptional_cases dataJson "data_json" with ⟨e, hencodeData, hdata⟩ |
        ⟨dataBytes, data, hencodeData, hdata, hdataBytes⟩
      · have hmeaning : ClientCall.meaning E S (.auditEvent eventType dataJson) = .error e := by
          rw [ClientCall.meaning, ClientCall.required, if_neg hempty, hargument, hdata]
          rfl
        simp only [if_neg hempty, hencode, hencodeData]
        exact assertOpen_raised hmeaning nofun
      · have hmeaning : ClientCall.meaning E S (.auditEvent eventType dataJson) =
            .ok (.closure (withEngine fun ENGINE =>
              synqroAuditEvent E ENGINE (some (utf8 text)) (data.map utf8))) := by
          rw [ClientCall.meaning, ClientCall.required, if_neg hempty, hargument, hdata]
          rfl
        simp only [if_neg hempty, hencode, hencodeData, hbytes, hdataBytes]
        exact assertOpen_closure hmeaning nofun

theorem installationId_eq : SynqroClient.installationId A P ⟨s, heap⟩ =
    .ok (s.answer E S panic .installationId).1 ⟨(s.answer E S panic .installationId).2, heap⟩ := by
  refine assertOpen_answer ?_ nofun
  have hmeaning : s.answerOpen E S panic .installationId =
      (.ok (.text (match s.engine.ENGINE with
        | none => ""
        | some engine =>
          if '\x00' ∈ engine.config.installationId.toList then ""
          else engine.config.installationId)), s) := rfl
  rw [hmeaning]
  unfold ffi.synqroInstallationId
  simp only [Comp.bind_run, Comp.get_run]
  cases s.engine.ENGINE with
  | none => rfl
  | some engine =>
    dsimp only
    by_cases hnul : '\x00' ∈ engine.config.installationId.toList
    · have hnew : CString.new engine.config.installationId = none := if_pos (mem_utf8 hnul)
      rw [hnew, if_pos hnul]
      rfl
    · have hnew : CString.new engine.config.installationId =
          some (utf8 engine.config.installationId) := if_neg (notMem_utf8 hnul)
      have halloc : CString.intoRaw A (utf8 engine.config.installationId) ⟨s, heap⟩ =
          .ok (A.choose heap (utf8 engine.config.installationId ++ [0]))
            ⟨s, heap.allocated A (utf8 engine.config.installationId ++ [0])⟩ := rfl
      rw [hnew, if_neg hnul]
      dsimp only
      rw [halloc]
      simp only [if_neg (A.nonNull _ _), Comp.bind_run, decodeAt_allocated hnul,
        ffi.synqroFreeString, onHeap_free_allocated, Comp.pure_run]

/-- **Client and C interface are the service.** A call of the client is defined whatever the heap,
answers as the service does and leaves the heap as it was. -/
theorem SynqroClient.call_eq (c : ClientCall) : SynqroClient.call A P E S panic c ⟨s, heap⟩ =
    .ok (s.answer E S panic c).1 ⟨(s.answer E S panic c).2, heap⟩ := by
  cases c with
  | init configPath => exact @init_eq A P s heap E S panic configPath
  | checkUpdate => exact assertOpen_closure (c := .checkUpdate) rfl nofun
  | applyUpdate => exact assertOpen_closure (c := .applyUpdate) rfl nofun
  | rollback => exact assertOpen_closure (c := .rollback) rfl nofun
  | version =>
    refine assertOpen_answer ?_ nofun
    rw [ffi.synqroVersion, P.decode_utf8]
    rfl
  | installationId => exact installationId_eq
  | auditEvent eventType dataJson => exact @auditEvent_eq A P s heap E S panic eventType dataJson
  | healthCheck => exact assertOpen_closure (c := .healthCheck) rfl nofun
  | close => rfl

theorem SynqroClient.call_ok {c : ClientCall} {a : Answer} {h h' : Host}
    (hcall : SynqroClient.call A P E S panic c h = .ok a h') :
    a = (h.toService.answer E S panic c).1 ∧ h' = ⟨(h.toService.answer E S panic c).2, h.heap⟩ := by
  cases (SynqroClient.call_eq c).symm.trans hcall
  exact ⟨rfl, rfl⟩

/-- An argument that the client lets through is one that the engine decodes. -/
theorem decodeCstr_argument {value : PyText} {name field text : String}
    (h : ClientCall.argument value name = .ok text) :
    decodeCstr (some (utf8 text)) field = .ok text := by
  have hsize : text.utf8ByteSize ≤ 4096 := by
    unfold ClientCall.argument at h
    split at h
    · cases h
    · cases hlimit : core.withinLimit (utf8 value.toString) name with
      | error e =>
        rw [hlimit] at h
        cases h
      | ok bytes =>
        rw [hlimit] at h
        have htext : beforeNul value.toString = text := Except.ok.inj h
        rw [← htext]
        unfold core.withinLimit at hlimit
        split at hlimit
        · cases hlimit
        · next hshort =>
          have hprefix : (utf8 (beforeNul value.toString)).length ≤
              (utf8 value.toString).length := by
            rw [← upToNul_utf8]
            exact (List.takeWhile_prefix _).length_le
          have hbytes : (beforeNul value.toString).utf8ByteSize =
              (utf8 (beforeNul value.toString)).length := by
            rw [utf8, Array.length_toList]
            rfl
          omega
  unfold decodeCstr
  simp only [fromUtf8?_utf8, validateInput, if_neg (not_lt.2 hsize)]
  rfl

end

/-! ## Runs -/

/-- A call of the client and its answer. -/
structure Asked where
  call : ClientCall
  panic : Option EngineState
  before : Service
  answer : Answer

section
variable (A : Allocator Bytes) (P : PyDecoder) (E : Externals) (S : SerdeYaml)

/-- Calls of the client, one after the other, whatever happens in the world between them. -/
inductive ClientRun (h₀ : Host) : List Asked → Host → Prop
  | start : ClientRun h₀ [] h₀
  | outside {rs : List Asked} {h : Host} (w : World) : ClientRun h₀ rs h →
      ClientRun h₀ rs { h with engine := { h.engine with world := w } }
  | call {rs : List Asked} {h h' : Host} {a : Answer} (panic : Option EngineState)
      (c : ClientCall) :
      ClientRun h₀ rs h → SynqroClient.call A P E S panic c h = .ok a h' →
      ClientRun h₀ (rs ++ [⟨c, panic, h.toService, a⟩]) h'

end

/-- The number of an error that an answer reports. -/
def errorNumber : Answer → Option Nat
  | .ok (.result r) => if r.status = .OK then none else some r.errorId
  | _ => none

/-- The numbers of the errors of a run. -/
def errorNumbers (rs : List Asked) : List Nat := rs.filterMap fun r => errorNumber r.answer

/-- The errors whose texts are withheld from the host. -/
def SynqroError.Withheld : SynqroError → Prop
  | .Internal _ | .Config _ | .Io _ | .Json _ | .Yaml _ => True
  | _ => False

section
variable {E : Externals} {S : SerdeYaml} {s : Service} {panic : Option EngineState}

/-- No error has the status of success. -/
theorem Service.told_status (e : SynqroError) (id : UInt64) : (told e id).status ≠ .OK := by
  cases e <;> exact nofun

/-- The host cannot tell two errors apart whose texts are withheld. -/
theorem Service.told_withheld {e e' : SynqroError} (h : e.Withheld) (h' : e'.Withheld)
    (id : UInt64) : told e id = told e' id := by
  cases e <;> first
    | exact h.elim
    | (cases e' <;> first | exact h'.elim | rfl)

/-- An answer reports an error exactly when it takes a number. -/
theorem Service.answer_counts (s : Service) (panic : Option EngineState) (c : ClientCall) :
    (errorNumber (s.answer E S panic c).1 = none ∧
      (s.answer E S panic c).2.errorCounter = s.errorCounter) ∨
    (errorNumber (s.answer E S panic c).1 = some s.errorCounter.toNat ∧
      (s.answer E S panic c).2.errorCounter = s.errorCounter + 1) := by
  have hopen : (errorNumber (s.answerOpen E S panic c).1 = none ∧
        (s.answerOpen E S panic c).2.errorCounter = s.errorCounter) ∨
      (errorNumber (s.answerOpen E S panic c).1 = some s.errorCounter.toNat ∧
        (s.answerOpen E S panic c).2.errorCounter = s.errorCounter + 1) := by
    unfold answerOpen
    split
    · exact .inl ⟨rfl, rfl⟩
    · exact .inl ⟨rfl, rfl⟩
    · next f hf =>
      unfold report
      cases panic with
      | some engine => exact .inr ⟨rfl, rfl⟩
      | none =>
        dsimp only
        cases f s.engine with
        | ok u engine => exact .inl ⟨rfl, rfl⟩
        | error e engine => exact .inr ⟨if_neg (told_status e s.errorCounter), rfl⟩
  unfold answer
  split
  · exact .inl ⟨rfl, rfl⟩
  · split
    · exact .inl ⟨rfl, rfl⟩
    · exact hopen

/-- A result is that of a closure, on an open client. -/
theorem Service.answer_result {c : ClientCall} {r : core.SynqroResult}
    (h : (s.answer E S panic c).1 = .ok (.result r)) :
    s.closed = false ∧ ∃ f, c.meaning E S = .ok (.closure f) ∧ r = (s.report panic f).1 := by
  unfold answer at h
  split at h
  · cases h
  · split at h
    · cases h
    · next hopen =>
      refine ⟨by simpa using hopen, ?_⟩
      unfold answerOpen at h
      split at h
      · cases h
      · cases h
      · next f hf =>
        cases h
        exact ⟨f, hf, rfl⟩

end

section
variable {A : Allocator Bytes} {P : PyDecoder} {E : Externals} {S : SerdeYaml} {h₀ h : Host}
  {rs : List Asked}

/-- The answers of a run are those of the service. -/
theorem ClientRun.answers (hrun : ClientRun A P E S h₀ rs h) :
    ∀ r ∈ rs, r.answer = (r.before.answer E S r.panic r.call).1 := by
  induction hrun with
  | start => exact List.forall_mem_nil _
  | outside w _ ih => exact ih
  | call panic c _ hcall ih =>
    refine List.forall_mem_append.2 ⟨ih, List.forall_mem_singleton.2 ?_⟩
    exact (SynqroClient.call_ok hcall).1

theorem ClientRun.numbers (hrun : ClientRun A P E S h₀ rs h)
    (hbound : h₀.errorCounter.toNat + (errorNumbers rs).length ≤ 2 ^ 64) :
    errorNumbers rs = List.range' h₀.errorCounter.toNat (errorNumbers rs).length ∧
      h.errorCounter = h₀.errorCounter + UInt64.ofNat (errorNumbers rs).length := by
  induction hrun with
  | start => exact ⟨rfl, (UInt64.add_zero _).symm⟩
  | outside w _ ih => exact ih hbound
  | @call rs h h' a panic c _ hcall ih =>
    obtain ⟨hanswer, rfl⟩ := SynqroClient.call_ok hcall
    have happend : errorNumbers (rs ++ [⟨c, panic, h.toService, a⟩]) =
        errorNumbers rs ++ (errorNumber a).toList := by
      rw [errorNumbers, List.filterMap_append]
      cases hnumber : errorNumber a <;> simp [errorNumbers, hnumber]
    rw [happend, List.length_append] at hbound ⊢
    obtain ⟨hnumbers, hcounter⟩ := ih (by omega)
    rcases h.toService.answer_counts panic c with ⟨hnone, hsame⟩ | ⟨hsome, hnext⟩
    · rw [hanswer, hnone, hsame]
      simpa using ⟨hnumbers, hcounter⟩
    · rw [hanswer, hsome] at hbound ⊢
      rw [hnext]
      have hlt : h₀.errorCounter.toNat + (errorNumbers rs).length < 2 ^ 64 := by
        simp only [Option.toList_some, List.length_singleton] at hbound
        omega
      have hcounter' : h.errorCounter.toNat =
          h₀.errorCounter.toNat + (errorNumbers rs).length := by
        rw [hcounter, UInt64.toNat_add, UInt64.toNat_ofNat']
        omega
      refine ⟨?_, ?_⟩
      · rw [Option.toList_some, List.length_singleton, List.range'_concat, ← hnumbers, hcounter',
          Nat.one_mul]
      · rw [Option.toList_some, List.length_singleton, hcounter, UInt64.ofNat_add, UInt64.add_assoc]
        rfl

end

/-- **No string leaks.** After any run of the client the heap is what it was before, and every
further call is defined: no string is read or freed that is not live. -/
theorem clientRun_safe (A : Allocator Bytes) (P : PyDecoder) (E : Externals) (S : SerdeYaml)
    (h₀ h : Host) (rs : List Asked) (hrun : ClientRun A P E S h₀ rs h) :
    h.heap = h₀.heap ∧ ∀ panic c, ∃ a s,
      SynqroClient.call A P E S panic c h = .ok a ⟨s, h.heap⟩ := by
  refine ⟨?_, fun panic c => ⟨_, _, SynqroClient.call_eq c⟩⟩
  induction hrun with
  | start => rfl
  | outside w _ ih => exact ih
  | call panic c _ hcall ih =>
    obtain ⟨-, rfl⟩ := SynqroClient.call_ok hcall
    exact ih

/-- A process whose engine has not been initialised. -/
def freshHost : Host := ⟨⟨⟨none, .boot .calm (.startedIn []) .empty⟩, 1, false⟩, .empty Bytes⟩

def PyDecoder.running : PyDecoder where
  decode bytes := (fromUtf8? bytes).getD ""
  decode_utf8 s := by rw [fromUtf8?_utf8, Option.getD_some]

/-- Two calls before the engine was initialised. -/
theorem freshHost_run : ∃ rs h,
    ClientRun (.above Bytes) .running .running .running freshHost rs h ∧
      rs.map (·.call) = [.checkUpdate, .rollback] ∧ errorNumbers rs = [1, 2] := by
  have hfirst := @SynqroClient.call_eq (.above Bytes) .running freshHost.toService freshHost.heap
    .running .running none .checkUpdate
  exact ⟨_, _, .call none .rollback (.call none .checkUpdate .start hfirst)
    (SynqroClient.call_eq _), rfl, rfl⟩

theorem clientRun_safe_uninitialised : ∃ rs h,
    ClientRun (.above Bytes) .running .running .running freshHost rs h ∧ errorNumbers rs = [1, 2] ∧
      h.heap = .empty Bytes := by
  obtain ⟨rs, h, hrun, -, hnumbers⟩ := freshHost_run
  exact ⟨rs, h, hrun, hnumbers, (clientRun_safe _ _ _ _ _ _ _ hrun).1⟩

/-- **What the host is told.** The errors of a run are numbered one after the other, and each result
is that of the closure behind its call: success says nothing, an error its text without NULs, and an
error whose text is withheld the same as any other such error with its number. -/
theorem clientRun_tells (A : Allocator Bytes) (P : PyDecoder) (E : Externals) (S : SerdeYaml)
    (h₀ h : Host) (rs : List Asked) (hrun : ClientRun A P E S h₀ rs h) :
    (h₀.errorCounter.toNat + (errorNumbers rs).length ≤ 2 ^ 64 →
      errorNumbers rs = List.range' h₀.errorCounter.toNat (errorNumbers rs).length) ∧
    ∀ r ∈ rs, ∀ result, r.answer = .ok (.result result) → r.before.closed = false ∧
      ∃ f, r.call.meaning E S = .ok (.closure f) ∧
        match r.panic, f r.before.engine with
        | some _, _ => result = ⟨.ERR_INTERNAL, "an unexpected internal error occurred",
            r.before.errorCounter.toNat⟩
        | none, .ok _ _ => result = ⟨.OK, "", 0⟩
        | none, .error e _ =>
          (¬ e.Withheld → result = ⟨.ofValue (SynqroStatus.ofError e).code, sanitised e.display,
            r.before.errorCounter.toNat⟩) ∧
          (e.Withheld → ∀ e', e'.Withheld → result = Service.told e' r.before.errorCounter) := by
  refine ⟨fun hbound => (hrun.numbers hbound).1, fun r hr result hresult => ?_⟩
  rw [hrun.answers r hr] at hresult
  obtain ⟨hopen, f, hf, rfl⟩ := Service.answer_result hresult
  refine ⟨hopen, f, hf, ?_⟩
  unfold Service.report
  cases r.panic with
  | some engine => rfl
  | none =>
    dsimp only
    cases f r.before.engine with
    | ok u engine => rfl
    | error e engine =>
      refine ⟨fun hshown => ?_, fun hwithheld e' h' => Service.told_withheld hwithheld h' _⟩
      cases e <;> first | exact absurd trivial hshown | rfl

theorem clientRun_tells_uninitialised : ∃ rs h,
    ClientRun (.above Bytes) .running .running .running freshHost rs h ∧
      errorNumbers rs = List.range' 1 2 := by
  obtain ⟨rs, h, hrun, -, hnumbers⟩ := freshHost_run
  have htold := (clientRun_tells _ _ _ _ _ _ _ hrun).1
  rw [hnumbers] at htold
  exact ⟨rs, h, hrun, hnumbers.trans (htold (by decide))⟩

end Synqro
