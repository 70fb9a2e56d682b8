import Synqro.PostInstall
import Synqro.LogFaults

/-!
# Initialisation

`synqro_init`: the arguments and the configuration, the keychain, the audit log, the registration of
the engine in its write-once cell and the first audit event. The cell is written before the event is
logged, so a failed call leaves the engine as it was unless it is the event that fails
(`synqroInit_atomic`).
-/

namespace Synqro

/-- The secret stores of a Linux machine. -/
inductive LinuxBackend where
  | SecretTool
  | Keyctl

/-- Whether a program starts when asked for its version. -/
def binaryAvailable (_binary : String) : M Bool := do
  let started ← Comp.outcome bareCall
  return started.isOk

/-- `LinuxKeychain::new`: the first secret store that is there. -/
def platformKeychain : M LinuxBackend := do
  if ← binaryAvailable "secret-tool" then return .SecretTool
  else if ← binaryAvailable "keyctl" then return .Keyctl
  else throw (.Permission "neither secret-tool nor keyctl found")

/-- `fs::read_to_string`. -/
def fs.readToString (p : UnixPath) : Comp World IoError String := do
  let bytes ← fs.read p
  Comp.ofExcept <| match fromUtf8? bytes with
    | some s => .ok s
    | none => .error (.other "stream did not contain valid UTF-8")

section
variable (E : Externals)

/-- Create a logger: derive its key, make the directory of its file and open the file. -/
def AuditLogger.new (config : ConfigFile.LoggingConfig) (installationId : String) :
    M AuditLogger := do
  let logPath := UnixPath.ofString config.auditLogPath
  match logPath.parent with
  | some parent =>
    if parent.IsEmpty then pure ()
    else
      Comp.mapErr (fun e => .Permission s!"Cannot create audit log directory: {e.display}")
        (fs.createDirAll parent)
  | none => pure ()
  Comp.mapErr (fun e => .Permission s!"Cannot open audit log file: {e.display}") bareCall
  return ⟨hmacKeyOf E installationId, installationId⟩

/-- What a call of the library can change: the engine's cell and the world. -/
structure EngineState where
  ENGINE : Option SynqroEngine
  world : World

/-- A computation that leaves the cell alone. -/
def onWorld {α : Type} (x : M α) : Comp EngineState SynqroError α := fun s =>
  match x s.world with
  | .ok a w => .ok a ⟨s.ENGINE, w⟩
  | .error e w => .error e ⟨s.ENGINE, w⟩

/-- `OnceLock::set` on the cell. -/
def setEngine (engine : SynqroEngine) : Comp EngineState SynqroError Unit := fun s =>
  match s.ENGINE with
  | some _ => .error (.Config "synqro_init() called more than once") s
  | none => .ok () ⟨some engine, s.world⟩

variable (S : SerdeYaml)

/-- The steps of the initialisation before the engine is registered. -/
def prepareEngine (configPath : Option Bytes) : M SynqroEngine := do
  let path ← Comp.ofExcept (decodeCstr configPath "config_path")
  let raw ← Comp.outcome (fs.readToString (.ofString path))
  let config ← Comp.ofExcept (ConfigFile.loadConfig S (raw.mapError IoError.display))
  let _ ← platformKeychain
  let audit ← AuditLogger.new E config.logging config.installationId
  return ⟨config.engine, audit⟩

/-- Initialise the engine. -/
def synqroInit (configPath : Option Bytes) : Comp EngineState SynqroError Unit := do
  let engine ← onWorld (prepareEngine E S configPath)
  setEngine engine
  onWorld (engine.audit.log E .SynqroInit (jsonObject [("version", .str "0.1.0")]))

end

section
variable {E : Externals} {S : SerdeYaml} {configPath : Option Bytes} {s : EngineState}

theorem onWorld_run {α : Type} (x : M α) (s : EngineState) : onWorld x s =
    match x s.world with
    | .ok a w => .ok a ⟨s.ENGINE, w⟩
    | .error e w => .error e ⟨s.ENGINE, w⟩ := rfl

/-- A call does to the world what its computation does. -/
theorem onWorld_after {α : Type} {R : World → World → Prop} {x : M α} {s : EngineState}
    (h : R s.world (Comp.after x s.world)) : R s.world (Comp.after (onWorld x) s).world := by
  unfold Comp.after at *
  rw [onWorld_run]
  cases hx : x s.world <;> rwa [hx] at h

/-- The first event can be logged wherever the steps before it succeed. -/
def LogsFirstEvent (E : Externals) (S : SerdeYaml) (configPath : Option Bytes) (w : World) : Prop :=
  ∀ engine w', prepareEngine E S configPath w = .ok engine w' → w'.Logs

/-- Preparations that fail leave the engine as it is. -/
theorem synqroInit_unprepared {e : SynqroError} {w : World}
    (h : prepareEngine E S configPath s.world = .error e w) :
    synqroInit E S configPath s = .error e ⟨s.ENGINE, w⟩ := by
  unfold synqroInit
  rw [Comp.bind_run, onWorld_run, h]

/-- A second engine is refused. -/
theorem synqroInit_again {engine old : SynqroEngine} {w : World} (hold : s.ENGINE = some old)
    (h : prepareEngine E S configPath s.world = .ok engine w) :
    synqroInit E S configPath s =
      .error (.Config "synqro_init() called more than once") ⟨s.ENGINE, w⟩ := by
  have hprepare : onWorld (prepareEngine E S configPath) s = .ok engine ⟨s.ENGINE, w⟩ := by
    rw [onWorld_run, h]
  unfold synqroInit
  simp only [Comp.bind_run, hprepare, setEngine, hold]

/-- The first engine is registered, and then its first event is logged. -/
theorem synqroInit_first {engine : SynqroEngine} {w : World} (hnone : s.ENGINE = none)
    (h : prepareEngine E S configPath s.world = .ok engine w) :
    synqroInit E S configPath s = onWorld (engine.audit.log E .SynqroInit
      (jsonObject [("version", .str "0.1.0")])) ⟨some engine, w⟩ := by
  have hprepare : onWorld (prepareEngine E S configPath) s = .ok engine ⟨s.ENGINE, w⟩ := by
    rw [onWorld_run, h]
  unfold synqroInit
  simp only [Comp.bind_run, hprepare, setEngine, hnone]

/-- On an uninitialised engine, with the preparations done, the logging decides. -/
theorem synqroInit_ok_iff {engine : SynqroEngine} {w : World} (hnone : s.ENGINE = none)
    (h : prepareEngine E S configPath s.world = .ok engine w) :
    (∃ s', synqroInit E S configPath s = .ok () s') ↔ w.Logs := by
  rw [synqroInit_first hnone h, onWorld_run, ← AuditLogger.returned_log, Comp.returned_iff]
  cases engine.audit.log E .SynqroInit (jsonObject [("version", .str "0.1.0")]) w with
  | ok u w' => exact iff_of_true ⟨_, rfl⟩ ⟨_, _, rfl⟩
  | error e w' => exact iff_of_false nofun nofun

/-- A call that failed left the engine as it was exactly when one was registered or the first event
could be logged. -/
theorem synqroInit_error {e : SynqroError} {s' : EngineState}
    (h : synqroInit E S configPath s = .error e s') :
    s'.ENGINE = s.ENGINE ↔ s.ENGINE ≠ none ∨ LogsFirstEvent E S configPath s.world := by
  cases hp : prepareEngine E S configPath s.world with
  | error e₁ w =>
    cases (synqroInit_unprepared hp).symm.trans h
    refine iff_of_true rfl (.inr fun engine w' hok => ?_)
    cases hp.symm.trans hok
  | ok engine w =>
    cases hold : s.ENGINE with
    | some old =>
      cases (synqroInit_again hold hp).symm.trans h
      exact iff_of_true hold (.inl nofun)
    | none =>
      -- the cell is written, and it was the logging that failed
      have hset : s'.ENGINE = some engine := by
        rw [synqroInit_first hold hp, onWorld_run] at h
        split at h <;> cases h
        rfl
      have hlog : ¬ w.Logs := by
        rw [← synqroInit_ok_iff hold hp, h]
        rintro ⟨_, ⟨⟩⟩
      rw [hset]
      exact iff_of_false nofun fun hc => hc.elim (absurd rfl) fun hl => hlog (hl engine w hp)

/-- No error changes the engine exactly when one was registered or the first event could be
logged. -/
theorem synqroInit_keeps :
    (∀ e s', synqroInit E S configPath s = .error e s' → s'.ENGINE = s.ENGINE) ↔
      s.ENGINE ≠ none ∨ LogsFirstEvent E S configPath s.world := by
  refine ⟨fun h => ?_, fun h e s' he => (synqroInit_error he).2 h⟩
  cases hr : synqroInit E S configPath s with
  | error e s' => exact (synqroInit_error hr).1 (h e s' hr)
  | ok u s' =>
    refine or_iff_not_imp_left.2 fun hnone engine w hp => ?_
    exact (synqroInit_ok_iff (not_not.1 hnone) hp).1 ⟨s', hr⟩

/-! ## Retries -/

/-- Calls that failed one after the other, each with its argument and the world it was made in, from
one state of the cell to another. -/
inductive FailedInits (E : Externals) (S : SerdeYaml) :
    Option SynqroEngine → List (Option Bytes × World) → Option SynqroEngine → Prop
  | nil {ENGINE : Option SynqroEngine} : FailedInits E S ENGINE [] ENGINE
  | cons {ENGINE ENGINE' : Option SynqroEngine} {configPath : Option Bytes} {w : World}
      {calls : List (Option Bytes × World)} {e : SynqroError} {s : EngineState} :
      synqroInit E S configPath ⟨ENGINE, w⟩ = .error e s → FailedInits E S s.ENGINE calls ENGINE' →
      FailedInits E S ENGINE ((configPath, w) :: calls) ENGINE'

section
variable {ENGINE ENGINE' : Option SynqroEngine} {calls : List (Option Bytes × World)}

/-- A registered engine stays. -/
theorem FailedInits.registered {engine : SynqroEngine} (h : FailedInits E S ENGINE calls ENGINE')
    (hold : ENGINE = some engine) : ENGINE' = some engine := by
  induction h with
  | nil => exact hold
  | cons hcall _ ih => exact ih (((synqroInit_error hcall).2 (.inl (hold ▸ nofun))).trans hold)

/-- After failed calls on an uninitialised engine it is still uninitialised exactly when each of
them could have logged the first event. -/
theorem FailedInits.uninitialised (h : FailedInits E S ENGINE calls ENGINE')
    (hold : ENGINE = none) :
    ENGINE' = none ↔ ∀ c ∈ calls, LogsFirstEvent E S c.1 c.2 := by
  induction h with
  | nil => exact iff_of_true hold nofun
  | @cons ENGINE ENGINE' configPath w calls e s hcall hrest ih =>
    subst hold
    have hstep := synqroInit_error hcall
    rw [List.forall_mem_cons]
    cases hs : s.ENGINE with
    | none =>
      rw [hs] at hstep
      rw [ih hs, and_iff_right ((hstep.1 rfl).resolve_left (absurd rfl))]
    | some engine =>
      rw [hs] at hstep
      rw [hrest.registered hs]
      exact iff_of_false nofun fun hc => nomatch hstep.2 (.inr hc.1)

end

/-- A failed initialisation leaves the engine as it was exactly when one was registered before or
the first event could be logged; and when all steps of a call succeed, after failed calls on an
uninitialised engine, it returns exactly when each of those could have logged the event. -/
theorem synqroInit_atomic (E : Externals) (S : SerdeYaml) :
    (∀ configPath s, (∀ e s', synqroInit E S configPath s = .error e s' → s'.ENGINE = s.ENGINE) ↔
      s.ENGINE ≠ none ∨ LogsFirstEvent E S configPath s.world) ∧
    ∀ calls ENGINE, FailedInits E S none calls ENGINE →
      ∀ configPath w engine w', prepareEngine E S configPath w = .ok engine w' → w'.Logs →
        ((∃ s', synqroInit E S configPath ⟨ENGINE, w⟩ = .ok () s') ↔
          ∀ c ∈ calls, LogsFirstEvent E S c.1 c.2) := by
  refine ⟨fun _ _ => synqroInit_keeps,
    fun calls ENGINE hfailed configPath w engine w' hp hlogs => ?_⟩
  rw [← hfailed.uninitialised rfl]
  cases hE : ENGINE with
  | none => exact iff_of_true ((synqroInit_ok_iff rfl hp).2 hlogs) rfl
  | some old =>
    refine iff_of_false ?_ nofun
    rw [synqroInit_again (s := ⟨some old, w⟩) rfl hp]
    rintro ⟨_, ⟨⟩⟩

end

/-- The configuration file of a machine, in the working directory. -/
def configName : FileName := ⟨"synqro_ota.yaml", by decide⟩

/-- A disk with a configuration. -/
def configuredFiles (bytes : Bytes) : FileTree :=
  FileTree.empty.set [configName] (.file bytes 0o644)

/-- A machine with a configuration, on which calls can fail. -/
def configuredWorld (bytes : Bytes) (fault : Nat → Option Fault) : World :=
  .boot { Environment.calm with fault } (.startedIn []) (configuredFiles bytes)

/-- The argument of an initialisation with that configuration. -/
def configArgument : Option Bytes := some (utf8 "synqro_ota.yaml")

/-- The directory of that configuration's audit log. -/
def auditDir : UnixPath :=
  .ofLoc [⟨"synqro", by decide⟩, ⟨"log", by decide⟩, ⟨"var", by decide⟩]

section
variable {bytes : Bytes} {fault : Nat → Option Fault}

theorem readToString_configName {raw : String} (hbytes : fromUtf8? bytes = some raw)
    (h : fault 0 = none) : fs.readToString (.ofString "synqro_ota.yaml")
      (configuredWorld bytes fault) =
      .ok raw (configuredWorld bytes fault).tick := by
  have hname : UnixPath.ofString "synqro_ota.yaml" = .ofName configName :=
    UnixPath.ofString_text configName
  have hread : fs.read (.ofName configName) (configuredWorld bytes fault) =
      .ok bytes (configuredWorld bytes fault).tick :=
    fs.read_ok.2 ⟨h, ⟨[configName], 0o644, UnixPath.locateFile_ofName _ _ _,
      FileTree.get_set_self _ (by decide)⟩, rfl⟩
  simp only [fs.readToString, hname, Comp.bind_run, hread, hbytes, Comp.ofExcept]

theorem platformKeychain_configured (h : fault 1 = none) :
    platformKeychain (configuredWorld bytes fault).tick =
      .ok .SecretTool (configuredWorld bytes fault).tick.tick := by
  have hquiet : (configuredWorld bytes fault).tick.Quiet := h
  have hbare : bareCall (configuredWorld bytes fault).tick =
      .ok () (configuredWorld bytes fault).tick.tick := bareCall_ok.2 ⟨hquiet, rfl⟩
  simp only [platformKeychain, binaryAvailable, Comp.bind_run, Comp.outcome, hbare]
  rfl

theorem auditLogger_configured (config : ConfigFile.LoggingConfig) (installationId : String)
    (hlog : config.auditLogPath = "/var/log/synqro/audit.log") (h₂ : fault 2 = none)
    (h₃ : fault 3 = none) : ∃ t, AuditLogger.new .running config installationId
      (configuredWorld bytes fault).tick.tick =
        .ok ⟨hmacKeyOf .running installationId, installationId⟩
          ((configuredWorld bytes fault).advance 3 |>.setFiles t).tick := by
  have hdirs : Comp.returned (FileTree.mkdirAll [] auditDir.components (configuredFiles bytes)) =
    true := rfl
  obtain ⟨_, t, hdirs⟩ := Comp.returned_iff.1 hdirs
  have hcreate : fs.createDirAll auditDir (configuredWorld bytes fault).tick.tick =
      .ok () ((configuredWorld bytes fault).advance 3 |>.setFiles t) :=
    fs.createDirAll_ok.2 ⟨h₂, t, hdirs, rfl⟩
  have hquiet : ((configuredWorld bytes fault).advance 3 |>.setFiles t).Quiet := h₃
  have hopen : bareCall ((configuredWorld bytes fault).advance 3 |>.setFiles t) =
      .ok () ((configuredWorld bytes fault).advance 3 |>.setFiles t).tick :=
        bareCall_ok.2 ⟨hquiet, rfl⟩
  have hparent : (UnixPath.ofString config.auditLogPath).parent = some auditDir := by
    rw [hlog]
    rfl
  have hempty : ¬ auditDir.IsEmpty := by decide
  refine ⟨t, ?_⟩
  unfold AuditLogger.new
  simp only [hparent, if_neg hempty, Comp.bind_run, Comp.mapErr, hcreate, hopen]
  rfl

end

/-- A machine whose configuration loads. -/
def loadedWorld : (Nat → Option Fault) → World := configuredWorld (utf8 (jsonText minimalConfig))

/-- The preparations take four calls on such a machine. -/
theorem loadedWorld_prepares {fault : Nat → Option Fault} (h : ∀ n < 4, fault n = none) :
    ∃ engine w, prepareEngine .running .running configArgument (loadedWorld fault) = .ok engine w ∧
      w.calls = 4 ∧ w.env.fault = fault := by
  obtain ⟨cfg, hload, hlog⟩ := minimalConfig_loads
  have hpath : decodeCstr configArgument "config_path" = .ok "synqro_ota.yaml" := by
    unfold decodeCstr configArgument
    simp only [fromUtf8?_utf8]
    rfl
  have hbytes := fromUtf8?_utf8 (jsonText minimalConfig)
  unfold loadedWorld
  generalize utf8 (jsonText minimalConfig) = bytes at hbytes
  have hraw := readToString_configName hbytes (h 0 (by omega))
  have hkeychain := @platformKeychain_configured bytes fault (h 1 (by omega))
  obtain ⟨t, haudit⟩ := @auditLogger_configured bytes fault cfg.logging cfg.installationId hlog
    (h 2 (by omega)) (h 3 (by omega))
  refine ⟨⟨cfg.engine, ⟨hmacKeyOf .running cfg.installationId, cfg.installationId⟩⟩,
    ((configuredWorld bytes fault).advance 3 |>.setFiles t).tick, ?_, rfl, rfl⟩
  unfold prepareEngine
  simp only [Comp.bind_run, hpath, Comp.ofExcept, Comp.outcome, hraw, Except.mapError, hload,
    hkeychain, haudit]
  rfl

/-- Once a missing argument was refused, a call whose steps succeed initialises the engine. -/
theorem synqroInit_atomic_retry : ∃ s, synqroInit .running .running configArgument
    ⟨none, loadedWorld fun _ => none⟩ = .ok () s := by
  obtain ⟨engine, w, hprepared, -, hfault⟩ :=
    @loadedWorld_prepares (fun _ => none) fun _ _ => rfl
  have hmissing : FailedInits .running .running none [(none, loadedWorld fun _ => none)] none :=
    .cons rfl .nil
  refine ((synqroInit_atomic .running .running).2 _ _ hmissing _ _ _ _ hprepared ?_).2 ?_
  · exact ⟨by rw [hfault], by rw [hfault], by rw [hfault]⟩
  · rintro c hc
    cases List.mem_singleton.1 hc
    rintro engine w ⟨⟩

/-- When the write of the first event fails, the engine stays registered. -/
theorem init_registers : ¬ ∀ (E : Externals) (S : SerdeYaml) (configPath : Option Bytes)
    (s : EngineState) (e : SynqroError) (s' : EngineState),
    synqroInit E S configPath s = .error e s' → s'.ENGINE = s.ENGINE := by
  intro h
  let full (n : Nat) : Option Fault :=
    if n = 6 then some ⟨.other "No space left on device (os error 28)", 5⟩ else none
  obtain ⟨engine, w, hprepared, hcalls, hfault⟩ := @loadedWorld_prepares full
    fun n hn => if_neg (by omega)
  have hkeeps := synqroInit_keeps.1 (h .running .running configArgument ⟨none, loadedWorld full⟩)
  have hwrites := (hkeeps.resolve_left (absurd rfl) engine w hprepared).writes
  rw [hfault, hcalls] at hwrites
  cases hwrites

end Synqro
