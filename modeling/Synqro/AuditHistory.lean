import Mathlib.Data.List.TakeWhile
import Synqro.ArtifactErrors
import Synqro.Initialisation
import Synqro.OfferedVersions
import Synqro.RollbackCounts

/-!
# The engine's history in the audit trail

`PublicRun` is a sequence of calls of the C interface, among them `synqro_audit_event`, with which
the host has an event of its choice logged. `PublicCall.tells` says which milestones of updates and
rollbacks one call adds to the record, `publicRun_history` what the record of a run says: the lines
that the engine wrote by itself match what it did.
-/

namespace Synqro

/-- A milestone of an update or a rollback. -/
inductive Milestone where
  | deployed
  | applied
  | triggered
  | succeeded
  | failed
deriving DecidableEq

/-- The milestone that an effect is. -/
def Effect.milestone : Effect → Option Milestone
  | .deployed _ => some .deployed
  | .logged .UpdateApplied _ => some .applied
  | .logged .RollbackTriggered _ => some .triggered
  | .logged .RollbackSuccess _ => some .succeeded
  | .logged .RollbackFailed _ => some .failed
  | _ => none

/-- The milestones among the effects. -/
def milestones (trace : List Effect) : List Milestone := trace.filterMap Effect.milestone

/-- The effect is no milestone. -/
def Effect.Passing (e : Effect) : Prop := e.milestone = none

theorem Effect.Plain.passing {e : Effect} (h : e.Plain) : e.Passing := by
  cases e with
  | deployed => exact h.elim
  | logged event data => cases event <;> first | rfl | exact h.elim
  | _ => rfl

theorem Effect.Local.passing {e : Effect} (h : e.Local) : e.Passing := h.plain.passing

theorem passing_of_plain (e : Effect) (h : e.Plain) : e.Passing := h.passing

theorem passing_of_local (e : Effect) (h : e.Local) : e.Passing := h.passing

/-- The trace has grown by effects with the milestones `ms`. -/
def World.Told (ms : List Milestone) (w w' : World) : Prop :=
  ∃ new, w'.trace = w.trace ++ new ∧ milestones new = ms

section
variable {E : Externals} {w w₁ w' : World} {ms ms' : List Milestone}

theorem World.Told.trans (h : World.Told ms w w₁) (h' : World.Told ms' w₁ w') :
    World.Told (ms ++ ms') w w' := by
  obtain ⟨new, hnew, hms⟩ := h
  obtain ⟨new', hnew', hms'⟩ := h'
  refine ⟨new ++ new', by rw [hnew', hnew, List.append_assoc], ?_⟩
  rw [← hms, ← hms']
  exact List.filterMap_append

theorem World.Evolves.told (h : World.Evolves Effect.Passing w w') : World.Told [] w w' := by
  obtain ⟨new, hnew, hpassing⟩ := h.trace
  exact ⟨new, hnew, List.filterMap_eq_nil_iff.2 hpassing⟩

/-- A log call writes its line or no line; it wrote it when it returned. -/
theorem AuditLogger.log_told (logger : AuditLogger) (event : AuditEvent) (data : Json) (w : World) :
    ∃ ms, World.Told ms w (Comp.after (logger.log E event data) w) ∧
      (ms = [] ∨ ms = milestones [.logged event data]) ∧
      (Comp.returned (logger.log E event data w) = true →
        ms = milestones [.logged event data]) := by
  have htrace := (@log_spec E logger event data w).2.2
  have hreturned := (@log_spec E logger event data w).2.1
  cases h₁ : w.env.fault (w.calls + 1) with
  | some f =>
    rw [h₁] at htrace hreturned
    exact ⟨[], ⟨[], by rw [htrace, List.append_nil], rfl⟩, .inl rfl, fun h => by
      rw [hreturned] at h
      cases h⟩
  | none =>
    cases h₂ : w.env.fault (w.calls + 2) with
    | some f =>
      rw [h₁, h₂] at htrace hreturned
      exact ⟨[], ⟨[], by rw [htrace, List.append_nil], rfl⟩, .inl rfl, fun h => by
        rw [hreturned] at h
        cases h⟩
    | none =>
      rw [h₁, h₂] at htrace
      exact ⟨_, ⟨_, htrace, rfl⟩, .inr rfl, fun _ => rfl⟩

end

/-! ## What a computation tells -/

/-- The milestones that a computation adds, with whether it returns, are as `P` says. -/
def Tells {α : Type} (P : Bool → List Milestone → Prop) (x : M α) (w : World) : Prop :=
  ∃ ms, World.Told ms w (Comp.after x w) ∧ P (Comp.returned (x w)) ms

/-- The milestone `m` exactly when it returned. -/
def Exactly (m : Milestone) (ok : Bool) (ms : List Milestone) : Prop := ms = if ok then [m] else []

/-- The milestone `m` when it returned, and otherwise at most that. -/
structure AtMost (m : Milestone) (ok : Bool) (ms : List Milestone) : Prop where
  atMost : ms = [] ∨ ms = [m]
  returned : ok = true → ms = [m]

section
variable {E : Externals} {α β : Type} {w : World} {m : Milestone} {x : M α} {f : α → M β}
  {P Q R : Bool → List Milestone → Prop}

theorem tells_nothing (h : Comp.Respects (World.Evolves Effect.Passing) x) (w : World) :
    Tells (fun _ ms => ms = []) x w := ⟨[], (h w).told, rfl⟩

theorem Tells.mono (hP : ∀ b ms, P b ms → Q b ms) (h : Tells P x w) : Tells Q x w := by
  obtain ⟨ms, htold, hms⟩ := h
  exact ⟨ms, htold, hP _ _ hms⟩

theorem Tells.bind (hx : Tells P x w) (hf : ∀ a w₁, x w = .ok a w₁ → Tells Q (f a) w₁)
    (hfails : ∀ ms, P false ms → R false ms)
    (hreturns : ∀ b ms ms', P true ms → Q b ms' → R b (ms ++ ms')) : Tells R (x >>= f) w := by
  obtain ⟨ms, htold, hms⟩ := hx
  unfold Tells Comp.after at *
  rw [Comp.bind_run]
  cases hxw : x w with
  | error e w₁ =>
    rw [hxw] at htold hms
    exact ⟨ms, htold, hfails ms hms⟩
  | ok a w₁ =>
    rw [hxw] at htold hms
    obtain ⟨ms', htold', hms'⟩ := hf a w₁ hxw
    exact ⟨ms ++ ms', htold.trans htold', hreturns _ ms ms' hms hms'⟩

/-- What tells nothing may come first. -/
theorem Tells.after_quiet (hx : Comp.Respects (World.Evolves Effect.Passing) x)
    (hf : ∀ a w₁, x w = .ok a w₁ → Tells P (f a) w₁) (hnil : P false []) : Tells P (x >>= f) w :=
  (tells_nothing hx w).bind hf (fun _ h => h ▸ hnil) fun _ _ _ h h' => h ▸ h'

/-- What tells nothing may come last. -/
theorem Tells.then_quiet (hx : Tells P x w)
    (hf : ∀ a, Comp.Respects (World.Evolves Effect.Passing) (f a))
    (hP : ∀ ms, P true ms → P false ms) : Tells P (x >>= f) w := by
  refine hx.bind (fun a w₁ _ => tells_nothing (hf a) w₁) (fun _ h => h) fun b ms ms' h h' => ?_
  rw [h', List.append_nil]
  cases b with
  | true => exact h
  | false => exact hP ms h

theorem AtMost.weaken (ms : List Milestone) (h : AtMost m true ms) : AtMost m false ms :=
  ⟨h.atMost, fun hfalse => absurd hfalse Bool.false_ne_true⟩

theorem atMost_nil (m : Milestone) : AtMost m false [] :=
  ⟨.inl rfl, fun hfalse => absurd hfalse Bool.false_ne_true⟩

/-- A log call writes its line when it returns, and otherwise at most that. -/
theorem AuditLogger.log_tells (logger : AuditLogger) {event : AuditEvent} {data : Json}
    (hm : (Effect.logged event data).milestone = some m) (w : World) :
    Tells (AtMost m) (logger.log E event data) w := by
  have hline : milestones [.logged event data] = [m] := by
    rw [milestones, List.filterMap_cons_some hm, List.filterMap_nil]
  obtain ⟨ms, htold, hms, hok⟩ := logger.log_told (E := E) event data w
  rw [hline] at hms hok
  exact ⟨ms, htold, hms, hok⟩

end

/-! ## Updates -/

namespace SynqroDownloader

section
variable {E : Externals} {w : World} (d : SynqroDownloader)

open World (Evolves)

theorem prepareDownload_passing (manifest : SynqroManifest) :
    Comp.Respects (Evolves Effect.Passing) (d.prepareDownload E manifest) := by
  refine .bind checkDegraded_evolves fun _ => .bind (require_evolves _ _) fun artifact => ?_
  refine .bind (d.loadTokenForRequest_evolves passing_of_local) fun token => ?_
  exact .bind (failIf_evolves _) fun _ => .bind (.mapErr _ bareCall_evolves) fun _ => .pure _

theorem stage_passing (tempPath : UnixPath) (bytes : Bytes) :
    Comp.Respects (Evolves Effect.Passing) (stage tempPath bytes) :=
  .bind (.mapErr _ (fs.create_evolves _)) fun file =>
    .bind (.mapErr _ (fs.writeAll_evolves file bytes)) fun _ => .mapErr _ bareCall_evolves

theorem verifyStaged_passing (artifact : ArtifactEntry) (tempPath : UnixPath) (bytes : Bytes) :
    Comp.Respects (Evolves Effect.Passing) (d.verifyStaged E artifact tempPath bytes) := by
  refine .bind (d.checkDigest_evolves passing_of_local _ _ _ _) fun _ => ?_
  refine .bind (d.checkDigest_evolves passing_of_local _ _ _ _) fun _ => ?_
  refine .bind (.ignore (AuditLogger.log_evolves E d.audit _ _ rfl)) fun _ => ?_
  refine .bind (.ofExcept _) fun sig => .bind (.ofExcept _) fun key =>
    .onError (.ofExcept _) fun e => ?_
  exact .bind (d.rejectArtifact_evolves passing_of_local _ _ _ trivial) fun _ => .pure _

/-- The artifact is deployed exactly when its deployment returns. -/
theorem deploy_tells (version : String) (tempPath finalPath : UnixPath) (w : World) :
    Tells (Exactly .deployed) (deploy version tempPath finalPath) w := by
  refine Tells.after_quiet (.onError (fs.rename_evolves _ _ fun _ _ _ _ _ _ => rfl) fun _ =>
    .bind (.ignore (fs.removeFile_evolves _)) fun _ => .pure _) (fun _ w₁ _ => ?_) rfl
  exact ⟨[.deployed], ⟨[.deployed version, .attempted true],
    by rw [List.append_cons]; rfl, rfl⟩, rfl⟩

theorem downloadAndVerifyArtifact_tells (manifest : SynqroManifest) (stagingDir : UnixPath)
    (w : World) :
    Tells (Exactly .deployed) (d.downloadAndVerifyArtifact E manifest stagingDir) w := by
  rw [downloadAndVerifyArtifact_eq]
  refine Tells.after_quiet (d.prepareDownload_passing manifest) (fun prepared w₁ _ => ?_) rfl
  refine Tells.after_quiet (.onError (d.requestArtifact_evolves _ _ fun _ _ => rfl) fun e => ?_)
    (fun bytes w₂ _ => ?_) rfl
  · exact .bind (.ignore (fs.removeFile_evolves _)) fun _ =>
      .bind (d.recordFailure_evolves passing_of_local) fun _ => .pure _
  refine Tells.after_quiet (stage_passing _ bytes) (fun _ w₃ _ => ?_) rfl
  exact Tells.after_quiet (d.verifyStaged_passing _ _ bytes)
    (fun _ w₄ _ => deploy_tells _ _ _ w₄) rfl

end

end SynqroDownloader

section
variable (E : Externals)

/-- An update up to the deployment of its artifact. -/
def deployUpdate (engine : SynqroEngine) : M (SynqroManifest × UnixPath) := do
  let cfg := engine.config
  let downloader ← engine.downloader
  let manifest ← downloader.fetchAndVerifyManifest E
  let stagingDir := UnixPath.ofString cfg.update.stagingDir
  Comp.mapErr (fun e => .Permission s!"Cannot create staging dir: {e.display}")
    (fs.createDirAll stagingDir)
  let currentExe ← Comp.mapErr
    (fun e => .Internal s!"Cannot determine current exe: {e.display}") currentExe
  takeSnapshot E manifest.version [currentExe] (.ofString cfg.update.backupDir)
    (hmacKeyOf E cfg.installationId)
  let deployedPath ← downloader.downloadAndVerifyArtifact E manifest stagingDir
  return (manifest, deployedPath)

/-- The rest of an update: its line in the audit log and the watchdog. -/
def announceUpdate (engine : SynqroEngine) (manifest : SynqroManifest) (deployedPath : UnixPath) :
    M Unit := do
  engine.audit.log E .UpdateApplied <| jsonObject [("version", .str manifest.version),
    ("path", .str ((deployedPath.fileName.map (·.text)).getD ""))]
  let grace := engine.config.rollback.healthCheckTimeoutSeconds
  Comp.ignore (startWatchdog (← get).process.id grace (grace / 2))

theorem synqroApplyUpdate_eq (engine : SynqroEngine) : synqroApplyUpdate E (some engine) =
    deployUpdate E engine >>= fun deployed => announceUpdate E engine deployed.1 deployed.2 := by
  have hengine : getEngine (some engine) = pure engine := rfl
  simp only [synqroApplyUpdate, applyManifest, deployUpdate, announceUpdate, hengine, bind_assoc,
    pure_bind]

/-- The line of an update can be logged once the artifact is deployed. -/
def LogsUpdate (engine : SynqroEngine) (w : World) : Prop :=
  ∀ deployed w₁, deployUpdate E engine w = .ok deployed w₁ → w₁.Logs

end

section
variable {E : Externals} {w : World}

theorem deployUpdate_tells (engine : SynqroEngine) (w : World) :
    Tells (Exactly .deployed) (deployUpdate E engine) w := by
  refine Tells.after_quiet engine.downloader_evolves (fun d w₁ _ => ?_) rfl
  refine Tells.after_quiet (d.fetchAndVerifyManifest_evolves passing_of_plain)
    (fun m w₂ _ => ?_) rfl
  refine Tells.after_quiet (.mapErr _ (fs.createDirAll_evolves _)) (fun _ w₃ _ => ?_) rfl
  refine Tells.after_quiet (.mapErr _ currentExe_evolves) (fun exe w₄ _ => ?_) rfl
  refine Tells.after_quiet (takeSnapshot_evolves E _ _ _ _) (fun _ w₅ _ => ?_) rfl
  refine (d.downloadAndVerifyArtifact_tells m _ w₅).bind (Q := fun ok ms => ok = true ∧ ms = [])
    (fun path w₆ _ => ⟨[], ((Comp.Respects.pure (m, path) :
      Comp.Respects (World.Evolves Effect.Passing)
      (pure (m, path) : M _)) w₆).told, rfl, rfl⟩) (fun _ h => h) ?_
  rintro _ ms _ h ⟨rfl, rfl⟩
  rw [List.append_nil]
  exact h

/-- An update deploys an artifact and says so, or does neither. -/
theorem synqroApplyUpdate_tells {engine : SynqroEngine} (hlogs : LogsUpdate E engine w) :
    Tells (fun _ ms => ms = [] ∨ ms = [.deployed, .applied])
      (synqroApplyUpdate E (some engine)) w := by
  rw [synqroApplyUpdate_eq]
  refine (deployUpdate_tells engine w).bind (Q := fun _ ms => ms = [.applied])
    (fun deployed w₁ hdeployed => ?_) (fun ms h => .inl h) fun _ ms ms' h h' => .inr ?_
  · have hlog : Tells (AtMost .applied) (engine.audit.log E .UpdateApplied
        (jsonObject [("version", .str deployed.1.version),
          ("path", .str ((deployed.2.fileName.map (·.text)).getD ""))])) w₁ :=
      engine.audit.log_tells rfl w₁
    obtain ⟨ms, htold, hms⟩ := hlog
    refine Tells.then_quiet ⟨ms, htold, ?_⟩ (fun _ => .bind .get fun _ =>
      .ignore (startWatchdog_evolves passing_of_plain _ _ _)) fun _ h => h
    exact hms.returned (AuditLogger.returned_log.2 (hlogs _ _ hdeployed))
  · rw [show ms = [.deployed] from h, h']
    rfl

/-! ## Rollbacks -/

theorem restoreSnapshot_passing (version : String) (backupDir : UnixPath) (hmacKey : Bytes)
    (audit : AuditLogger) :
    Comp.Respects (World.Evolves Effect.Passing)
      (restoreSnapshot E version backupDir hmacKey audit) := by
  have hpassing : ∀ e : Effect, e.OfRollback version backupDir → e.Passing := by
    rintro e he
    cases e with
    | logged event data => rcases he with rfl | rfl <;> rfl
    | deployed => exact he.elim
    | _ => rfl
  refine .bind (loadSnapshot_evolves hpassing _ hmacKey audit) fun m => ?_
  refine .bind (.mapErr _ (fs.canonicalize_evolves _)) fun canonicalBackup => ?_
  exact .bind (fun w => restoreFiles_evolves hpassing fun _ _ _ _ _ _ _ _ => rfl) fun _ => .pure _

theorem finishRollback_tells (version : String) (backupDir : UnixPath) (hmacKey : Bytes)
    (audit : AuditLogger) (fileCount : Nat) (w : World) :
    Tells (AtMost .succeeded) (finishRollback E version backupDir hmacKey audit fileCount) w := by
  have hpassing : ∀ e : Effect, e.OfRollback version backupDir → e.Passing := by
    rintro e he
    cases e with
    | logged event data => rcases he with rfl | rfl <;> rfl
    | deployed => exact he.elim
    | _ => rfl
  refine Tells.after_quiet now_evolves (fun t w₁ _ => ?_) (atMost_nil _)
  refine Tells.then_quiet (audit.log_tells rfl w₁) (fun _ => ?_) AtMost.weaken
  refine .bind (incrementRollbackCounter_evolves hpassing) fun count => ?_
  dsimp only
  split
  · exact blacklistVersion_evolves _ hmacKey audit (fun _ _ _ _ _ => rfl) rfl fun _ => rfl
  · exact .pure _

/-- What a rollback tells: nothing, or its start and at most its success; the start and the success
when it returns. -/
structure RollbackTells (ok : Bool) (ms : List Milestone) : Prop where
  shape : ms = [] ∨ ms = [.triggered] ∨ ms = [.triggered, .succeeded]
  returned : ok = true → ms = [.triggered, .succeeded]

theorem synqroRollback_tells (engine : SynqroEngine) (w : World) :
    Tells RollbackTells (synqroRollback E (some engine)) w := by
  refine Tells.after_quiet (require_evolves _ _) (fun engine w₁ _ => ?_) ⟨.inl rfl, nofun⟩
  refine (engine.audit.log_tells rfl w₁).bind (Q := AtMost .succeeded) (fun _ w₂ _ => ?_)
    (fun ms h => ⟨h.atMost.imp_right .inl, nofun⟩) fun b ms ms' h h' => ?_
  · refine Tells.after_quiet (mostRecentBackupVersion_evolves _) (fun version w₃ _ => ?_)
      (atMost_nil _)
    rw [rollback_eq]
    exact Tells.after_quiet (restoreSnapshot_passing _ _ _ _)
      (fun count w₄ _ => finishRollback_tells _ _ _ _ count w₄) (atMost_nil _)
  · rw [h.returned rfl]
    refine ⟨.inr (h'.atMost.imp (fun h' => ?_) fun h' => ?_), fun hok => ?_⟩
    · rw [h']
      rfl
    · rw [h']
      rfl
    · rw [h'.returned hok]
      rfl

end

/-! ## Calls of the C interface -/

/-- The calls of the C interface with their arguments. -/
inductive PublicCall where
  | init (configPath : Option Bytes)
  | checkUpdate
  | applyUpdate
  | rollback
  | version
  | installationId
  | freeString
  | freeResult
  | auditEvent (eventType dataJson : Option Bytes)
  | healthCheck

/-- A call on the engine of the cell. -/
def onEngine (x : Option SynqroEngine → M Unit) : Comp EngineState SynqroError Unit :=
  fun s => onWorld (x s.ENGINE) s

/-- What a call does; the calls that hand out and free strings leave the engine and the world
alone. -/
def PublicCall.run (E : Externals) (S : SerdeYaml) : PublicCall → Comp EngineState SynqroError Unit
  | .init configPath => synqroInit E S configPath
  | .checkUpdate => onEngine (synqroCheckUpdate E)
  | .applyUpdate => onEngine (synqroApplyUpdate E)
  | .rollback => onEngine (synqroRollback E)
  | .auditEvent eventType dataJson => onEngine fun ENGINE =>
      synqroAuditEvent E ENGINE eventType dataJson
  | .healthCheck => onEngine synqroHealthCheck
  | .version | .installationId | .freeString | .freeResult => pure ()

/-- The line that an update writes after its deployment can be written. -/
def PublicCall.LogWorks (E : Externals) : PublicCall → EngineState → Prop
  | .applyUpdate, s => ∀ engine, s.ENGINE = some engine → LogsUpdate E engine s.world
  | _, _ => True

/-- The milestones that a call may add, by whether it returns. -/
def PublicCall.Adds : PublicCall → Bool → List Milestone → Prop
  | .applyUpdate, _, ms => ms = [] ∨ ms = [.deployed, .applied]
  | .rollback, ok, ms => RollbackTells ok ms
  | .auditEvent _ _, _, ms => .deployed ∉ ms
  | _, _, ms => ms = []

section
variable {E : Externals} {S : SerdeYaml}

theorem onWorld_tells {P : Bool → List Milestone → Prop} {x : M Unit} {s : EngineState}
    (h : Tells P x s.world) : ∃ ms, World.Told ms s.world (Comp.after (onWorld x) s).world ∧
      P (Comp.returned (onWorld x s)) ms := by
  obtain ⟨ms, htold, hms⟩ := h
  refine ⟨ms, ?_⟩
  unfold Comp.after at *
  rw [onWorld_run]
  cases hx : x s.world <;> rw [hx] at htold hms <;> exact ⟨htold, hms⟩

theorem prepareEngine_passing (configPath : Option Bytes) :
    Comp.Respects (World.Evolves Effect.Passing) (prepareEngine E S configPath) := by
  have hread (p : UnixPath) : Comp.Respects (World.Evolves Effect.Passing) (fs.readToString p) :=
    .bind (fs.read_evolves p) fun _ => .ofExcept _
  have havailable (binary : String) :
      Comp.Respects (World.Evolves Effect.Passing) (binaryAvailable binary) :=
    .bind (.outcome bareCall_evolves) fun _ => .pure _
  have hkeychain : Comp.Respects (World.Evolves Effect.Passing) platformKeychain := by
    refine .bind (havailable _) fun found => ?_
    split
    · exact .pure _
    refine .bind (havailable _) fun found => ?_
    split
    · exact .pure _
    · exact .throw _
  have haudit (config : ConfigFile.LoggingConfig) (installationId : String) :
      Comp.Respects (World.Evolves Effect.Passing) (AuditLogger.new E config installationId) := by
    unfold AuditLogger.new
    dsimp only
    split
    · split
      · exact .bind (.mapErr _ bareCall_evolves) fun _ => .pure _
      · exact .bind (.mapErr _ (fs.createDirAll_evolves _)) fun _ =>
          .bind (.mapErr _ bareCall_evolves) fun _ => .pure _
    · exact .bind (.mapErr _ bareCall_evolves) fun _ => .pure _
  refine .bind (.ofExcept _) fun path => .bind (.outcome (hread _)) fun raw => ?_
  refine .bind (.ofExcept _) fun config => .bind hkeychain fun _ => ?_
  exact .bind (haudit _ _) fun _ => .pure _

/-- The initialisation logs no milestone. -/
theorem synqroInit_passing (configPath : Option Bytes) (s : EngineState) :
    World.Evolves Effect.Passing s.world (Comp.after (synqroInit E S configPath) s).world := by
  have hprepared := prepareEngine_passing (E := E) (S := S) configPath s.world
  cases hp : prepareEngine E S configPath s.world with
  | error e w =>
    rw [Comp.after, hp] at hprepared
    rw [Comp.after, synqroInit_unprepared hp]
    exact hprepared
  | ok engine w =>
    rw [Comp.after, hp] at hprepared
    cases hold : s.ENGINE with
    | some old =>
      rw [Comp.after, synqroInit_again hold hp]
      exact hprepared
    | none =>
      have hpassing : Effect.Passing
        (.logged .SynqroInit (jsonObject [("version", .str "0.1.0")])) := rfl
      rw [Comp.after, synqroInit_first hold hp]
      exact hprepared.trans (@onWorld_after _ _ _ ⟨some engine, w⟩
        (AuditLogger.log_evolves E engine.audit _ _ hpassing w))

/-- A host's event is no deployment, whichever it is. -/
theorem synqroAuditEvent_evolves (ENGINE : Option SynqroEngine)
    (eventType dataJson : Option Bytes) :
    Comp.Respects (World.Evolves fun e => e.milestone ≠ some .deployed)
      (synqroAuditEvent E ENGINE eventType dataJson) := by
  have hlog (eventName : String) (data : Json) : Comp.Respects
      (World.Evolves fun e => e.milestone ≠ some .deployed) (do
        let engine ← getEngine ENGINE
        let event ← require (AuditEvent.fromStr eventName)
          (.InvalidInput s!"Unknown audit event type: `{eventName}`")
        engine.audit.log E event data) := by
    refine .bind (require_evolves _ _) fun engine => .bind (require_evolves _ _) fun event => ?_
    exact AuditLogger.log_evolves E engine.audit _ _ (by cases event <;> simp [Effect.milestone])
  refine .bind (.ofExcept _) fun eventName => ?_
  cases dataJson with
  | none => exact .bind (.pure _) fun data => hlog eventName data
  | some bytes =>
    exact .bind (.ofExcept _) fun jsonStr => .bind (.ofExcept _) fun data => hlog eventName data

theorem synqroHealthCheck_passing (ENGINE : Option SynqroEngine) :
    Comp.Respects (World.Evolves Effect.Passing) (synqroHealthCheck ENGINE) := by
  refine .bind (require_evolves _ _) fun engine => .bind engine.downloader_evolves fun d => ?_
  exact .bind (.mapErr _ bareCall_evolves) fun _ =>
    .bind (.mapErr _ (send_evolves rfl)) fun _ => .pure _

/-- Every call is a step: a call that fails, too, leaves the process, the directories and the
audit log's lines as they were. -/
theorem PublicCall.run_evolves (c : PublicCall) (s : EngineState) :
    World.Evolves Effect.Any s.world (Comp.after (c.run E S) s).world := by
  have any {Q : Effect → Prop} {w w' : World} (h : World.Evolves Q w w') :
      World.Evolves Effect.Any w w' := h.mono fun _ _ => trivial
  cases c with
  | init configPath => exact any (synqroInit_passing configPath s)
  | version | installationId | freeString | freeResult => exact .refl s.world
  | checkUpdate => exact onWorld_after (synqroCheckUpdate_evolves plain_any s.ENGINE s.world)
  | applyUpdate => exact onWorld_after (synqroApplyUpdate_any s.ENGINE s.world)
  | rollback =>
    exact onWorld_after (synqroRollback_evolves plain_any (fun _ => trivial) (fun _ => trivial)
      (fun _ => trivial) s.ENGINE s.world)
  | auditEvent eventType dataJson =>
    exact onWorld_after (any (synqroAuditEvent_evolves s.ENGINE eventType dataJson s.world))
  | healthCheck => exact onWorld_after (any (synqroHealthCheck_passing s.ENGINE s.world))

/-- A call on an engine that is not initialised does nothing. -/
theorem getEngine_none_tells {P : Bool → List Milestone → Prop} (f : SynqroEngine → M Unit)
    (w : World) (h : P false []) : Tells P (getEngine none >>= f) w :=
  ⟨[], (World.Evolves.refl w).told, h⟩

/-- What one call adds to the record. -/
theorem PublicCall.run_adds (c : PublicCall) (s : EngineState) (h : c.LogWorks E s) :
    ∃ ms, World.Told ms s.world (Comp.after (c.run E S) s).world ∧
      c.Adds (Comp.returned (c.run E S s)) ms := by
  have hidle : World.Told [] s.world s.world := (World.Evolves.refl s.world).told
  cases c with
  | init configPath => exact ⟨[], (synqroInit_passing configPath s).told, rfl⟩
  | version => exact ⟨[], hidle, rfl⟩
  | installationId => exact ⟨[], hidle, rfl⟩
  | freeString => exact ⟨[], hidle, rfl⟩
  | freeResult => exact ⟨[], hidle, rfl⟩
  | checkUpdate =>
    exact onWorld_tells (tells_nothing
      (synqroCheckUpdate_evolves passing_of_plain s.ENGINE) s.world)
  | healthCheck => exact onWorld_tells (tells_nothing (synqroHealthCheck_passing s.ENGINE) s.world)
  | auditEvent eventType dataJson =>
    obtain ⟨new, hnew, hmilestones⟩ :=
      (synqroAuditEvent_evolves (E := E) s.ENGINE eventType dataJson s.world).trace
    refine onWorld_tells ⟨milestones new, ⟨new, hnew, rfl⟩, fun hmem => ?_⟩
    obtain ⟨e, he, hdeployed⟩ := List.mem_filterMap.1 hmem
    exact hmilestones e he hdeployed
  | applyUpdate =>
    refine onWorld_tells ?_
    cases hengine : s.ENGINE with
    | none => exact getEngine_none_tells _ _ (.inl rfl)
    | some engine => exact synqroApplyUpdate_tells (h engine hengine)
  | rollback =>
    refine onWorld_tells ?_
    cases hengine : s.ENGINE with
    | none => exact getEngine_none_tells _ _ ⟨.inl rfl, nofun⟩
    | some engine => exact synqroRollback_tells engine s.world

end

/-! ## Runs -/

/-- A call that was made. -/
structure PublicRecord where
  call : PublicCall
  before : EngineState
  result : EStateM.Result SynqroError EngineState Unit

namespace PublicRecord

/-- The milestones that the call added. -/
def milestones (r : PublicRecord) : List Milestone :=
  Synqro.milestones ((Comp.final r.result).world.trace.drop r.before.world.trace.length)

/-- The host's own events. -/
def OfHost (r : PublicRecord) : Bool :=
  match r.call with
  | .auditEvent _ _ => true
  | _ => false

end PublicRecord

/-- A run of calls. Between calls the outside may change the world in any way, the record of what
the engine did apart, and start the process anew. -/
inductive PublicRun (E : Externals) (S : SerdeYaml) : List PublicRecord → EngineState → Prop
  | start {s : EngineState} : s.world.trace = [] → PublicRun E S [] s
  | outside {rs : List PublicRecord} {s s' : EngineState} : PublicRun E S rs s →
      s'.world.trace = s.world.trace → (s'.ENGINE = s.ENGINE ∨ s'.ENGINE = none) →
      PublicRun E S rs s'
  | call {rs : List PublicRecord} {s : EngineState} (c : PublicCall) : PublicRun E S rs s →
      PublicRun E S (rs ++ [⟨c, s, c.run E S s⟩]) (Comp.after (c.run E S) s)

/-- The milestones of the lines that the host had logged. -/
def hostMilestones (rs : List PublicRecord) : List Milestone :=
  (rs.filter PublicRecord.OfHost).flatMap PublicRecord.milestones

/-- The milestones of the engine's own. -/
def engineMilestones (rs : List PublicRecord) : List Milestone :=
  (rs.filter fun r => !r.OfHost).flatMap PublicRecord.milestones

/-- The answers to a rollback that was triggered, up to the next that is. -/
def answers (ms : List Milestone) : List Milestone :=
  (ms.takeWhile (· ≠ .triggered)).filter fun m => m = .succeeded ∨ m = .failed

theorem answers_append {ms : List Milestone} (h : .triggered ∉ ms) (ms' : List Milestone) :
    answers (ms ++ ms') = answers ms ++ answers ms' := by
  have hall : ∀ m ∈ ms, decide (m ≠ .triggered) = true :=
    fun m hm => decide_eq_true fun heq => h (heq ▸ hm)
  rw [answers, List.takeWhile_append_of_pos hall, List.filter_append, answers,
    List.takeWhile_eq_self_iff.2 hall, answers]

section
variable {E : Externals} {S : SerdeYaml} {rs : List PublicRecord} {s : EngineState}

/-- What the records of a run say: each adds what its call may add, and together they are the whole
record. -/
theorem PublicRun.adds (h : PublicRun E S rs s) (hlogs : ∀ r ∈ rs, r.call.LogWorks E r.before) :
    milestones s.world.trace = rs.flatMap PublicRecord.milestones ∧
      ∀ r ∈ rs, r.call.Adds (Comp.returned r.result) r.milestones := by
  induction h with
  | start htrace =>
    rw [htrace]
    exact ⟨rfl, fun r hr => absurd hr List.not_mem_nil⟩
  | outside _ htrace _ ih =>
    rw [htrace]
    exact ih hlogs
  | @call rs s c _ ih =>
    obtain ⟨hall, hadds⟩ := ih fun r hr => hlogs r (List.mem_append_left _ hr)
    obtain ⟨ms, ⟨new, hnew, rfl⟩, hms⟩ := @PublicCall.run_adds E S c s
      (hlogs _ (List.mem_append_right _ (.head _)))
    have hrecord : PublicRecord.milestones ⟨c, s, c.run E S s⟩ = milestones new := by
      show milestones ((Comp.after (c.run E S) s).world.trace.drop _) = _
      rw [hnew, List.drop_left]
    refine ⟨?_, fun r hr => ?_⟩
    · rw [hnew, milestones, List.filterMap_append, List.flatMap_append, List.flatMap_singleton,
        hrecord]
      exact congrArg (· ++ milestones new) hall
    · rcases List.mem_append.1 hr with hr | hr
      · exact hadds r hr
      · rw [List.mem_singleton.1 hr, hrecord]
        exact hms

/-- The engine logs its deployments, and no other updates. -/
theorem count_applied (hadds : ∀ r ∈ rs, r.call.Adds (Comp.returned r.result) r.milestones) :
    (rs.flatMap PublicRecord.milestones).count .applied =
      (rs.flatMap PublicRecord.milestones).count .deployed +
        (hostMilestones rs).count .applied := by
  induction rs with
  | nil => rfl
  | cons r rs ih =>
    have hrest := ih fun r' hr' => hadds r' (.tail _ hr')
    have hfirst := hadds r (.head _)
    have hone : r.milestones.count .applied = r.milestones.count .deployed +
        (if r.OfHost then r.milestones.count .applied else 0) := by
      obtain ⟨c, before, result⟩ := r
      cases c with
      | auditEvent eventType dataJson =>
        have hnone := List.count_eq_zero.2 (hfirst : Milestone.deployed ∉ _)
        rw [hnone, PublicRecord.OfHost, if_pos rfl, Nat.zero_add]
      | applyUpdate =>
        rcases hfirst with hms | hms
        · rw [hms]
          rfl
        · rw [hms]
          rfl
      | rollback =>
        rcases hfirst.shape with hms | hms | hms
        all_goals
          rw [hms]
          rfl
      | _ =>
        rw [hfirst]
        rfl
    have hhost : (hostMilestones (r :: rs)).count .applied =
        (if r.OfHost then r.milestones.count .applied else 0) +
          (hostMilestones rs).count .applied := by
      unfold hostMilestones
      cases hr : r.OfHost with
      | true => simp [hr, List.count_append]
      | false => simp [hr]
    rw [List.flatMap_cons, List.count_append, List.count_append, hhost, hrest]
    omega

/-- Until the next rollback the engine gives no further answer. -/
theorem answers_engineMilestones
    (hadds : ∀ r ∈ rs, r.call.Adds (Comp.returned r.result) r.milestones) :
    answers (engineMilestones rs) = [] := by
  induction rs with
  | nil => rfl
  | cons r rs ih =>
    have hrest := ih fun r' hr' => hadds r' (.tail _ hr')
    have hfirst := hadds r (.head _)
    have hquiet (hms : r.milestones = [] ∨ r.milestones = [.deployed, .applied]) :
        answers (r.milestones ++ engineMilestones rs) = [] := by
      rcases hms with hms | hms
      · rw [hms, List.nil_append, hrest]
      · rw [hms, answers_append (by decide), hrest]
        rfl
    have hcons : r.OfHost = false →
        engineMilestones (r :: rs) = r.milestones ++ engineMilestones rs := by
      intro hhost
      simp [engineMilestones, hhost]
    obtain ⟨c, before, result⟩ := r
    cases c with
    | auditEvent eventType dataJson => exact hrest
    | applyUpdate =>
      rw [hcons rfl]
      exact hquiet hfirst
    | rollback =>
      rw [hcons rfl]
      rcases hfirst.shape with hms | hms | hms
      · exact hquiet (.inl hms)
      · rw [hms]
        rfl
      · rw [hms]
        rfl
    | _ =>
      rw [hcons rfl]
      exact hquiet (.inl hfirst)

/-- The audit trail tells the engine's history. In every run of public calls whose log lines of
updates can be written, the updates logged are those deployed and those that the host had logged;
and a rollback that returned has logged its start and then, before the engine logs the start of
another, one answer, its success. -/
theorem publicRun_history (h : PublicRun E S rs s) (hlogs : ∀ r ∈ rs, r.call.LogWorks E r.before) :
    (milestones s.world.trace).count .applied =
        (milestones s.world.trace).count .deployed + (hostMilestones rs).count .applied ∧
      ∀ before r after, rs = before ++ r :: after → r.call = .rollback →
        Comp.returned r.result = true → ∃ rest, r.milestones = .triggered :: rest ∧
          answers (rest ++ engineMilestones after) = [.succeeded] := by
  obtain ⟨hall, hadds⟩ := h.adds hlogs
  refine ⟨?_, ?_⟩
  · rw [hall]
    exact count_applied hadds
  · rintro before r after rfl hcall hreturned
    have hr := hadds r (List.mem_append_right _ (.head _))
    rw [hcall] at hr
    refine ⟨[.succeeded], (hr : RollbackTells _ _).returned hreturned, ?_⟩
    rw [answers_append (by decide), answers_engineMilestones fun r' hr' =>
      hadds r' (List.mem_append_right _ (.tail _ hr'))]
    rfl

end

/-! ## Runs that were served -/

section
variable {S : SerdeYaml} {rs : List PublicRecord} {w : World}

theorem after_onEngine (x : Option SynqroEngine → M Unit) (s : EngineState) :
    Comp.after (onEngine x) s = ⟨s.ENGINE, Comp.after (x s.ENGINE) s.world⟩ := by
  unfold Comp.after onEngine
  rw [onWorld_run]
  cases x s.ENGINE s.world <;> rfl

theorem deployUpdate_evolves (E : Externals) (engine : SynqroEngine) :
    Comp.Respects (World.Evolves Effect.Any) (deployUpdate E engine) := by
  refine .bind engine.downloader_evolves fun d => ?_
  refine .bind (d.fetchAndVerifyManifest_evolves plain_any) fun m => ?_
  refine .bind (.mapErr _ (fs.createDirAll_evolves _)) fun _ => ?_
  refine .bind (.mapErr _ currentExe_evolves) fun exe => ?_
  refine .bind (takeSnapshot_evolves E _ _ _ _) fun _ => ?_
  exact .bind (d.downloadAndVerifyArtifact_evolves local_any _ _ trivial fun _ _ _ _ => trivial)
    fun _ => .pure _

/-- The record of an update to the version that the server offers. -/
def servedRecord (S : SerdeYaml) (w : World) (version : String) : PublicRecord :=
  let s : EngineState := ⟨some releaseEngine, w.served version⟩
  ⟨.applyUpdate, s, PublicCall.applyUpdate.run .release S s⟩

theorem publicRun_served (h : PublicRun .release S rs ⟨some releaseEngine, w⟩) (version : String) :
    PublicRun .release S (rs ++ [servedRecord S w version])
      ⟨some releaseEngine, w.updated version⟩ := by
  have hserved : PublicRun .release S rs ⟨some releaseEngine, w.served version⟩ :=
    .outside h rfl (.inl rfl)
  have hcall := PublicRun.call .applyUpdate hserved
  rw [show Comp.after (PublicCall.applyUpdate.run .release S)
    ⟨some releaseEngine, w.served version⟩ =
    ⟨some releaseEngine, w.updated version⟩ from after_onEngine _ _] at hcall
  exact hcall

theorem returned_rollback
    (h : Comp.returned (synqroRollback .release (some releaseEngine) w) = true) :
    Comp.returned (PublicCall.rollback.run .release S ⟨some releaseEngine, w⟩) = true := by
  obtain ⟨u, w', hok⟩ := Comp.returned_iff.1 h
  show Comp.returned (onWorld (synqroRollback .release (some releaseEngine)) _) = true
  rw [onWorld_run, hok]
  rfl

/-- No call to such a server fails. -/
theorem servedRecord_logWorks (version : String) :
    (servedRecord S w version).call.LogWorks .release (servedRecord S w version).before := by
  rintro engine ⟨⟩ deployed w₁ hdeployed
  have henv := ((deployUpdate_evolves .release releaseEngine).ok hdeployed).env
  exact ⟨by rw [henv]; rfl, by rw [henv]; rfl, by rw [henv]; rfl⟩

end

/-- Three updates, after which a rollback returns. -/
theorem publicRun_updates : ∃ rs w, PublicRun .release .running rs ⟨some releaseEngine, w⟩ ∧
    (∀ r ∈ rs, r.call.LogWorks .release r.before) ∧
      Comp.returned (synqroRollback .release (some releaseEngine) w) = true := by
  have hstart : PublicRun .release .running [] ⟨some releaseEngine, installed⟩ := .start rfl
  have hok := updates?_installed.2
  rw [World.updatedTo_cons, World.updatedTo_cons, World.updatedTo_cons, World.updatedTo_nil] at hok
  refine ⟨_, _, publicRun_served
    (publicRun_served (publicRun_served hstart "10.0.0") "9.0.0") "10.0.0",
    fun r hr => ?_, hok⟩
  simp only [List.nil_append, List.cons_append, List.mem_cons,
    List.not_mem_nil, or_false] at hr
  rcases hr with rfl | rfl | rfl
  all_goals exact servedRecord_logWorks _

theorem publicRun_history_updates : ∃ rs s r, PublicRun .release .running (rs ++ [r]) s ∧
    r.call = .rollback ∧ Comp.returned r.result = true ∧
      (milestones s.world.trace).count .applied =
        (milestones s.world.trace).count .deployed + (hostMilestones (rs ++ [r])).count .applied ∧
      ∃ rest, r.milestones = .triggered :: rest ∧
        answers (rest ++ engineMilestones []) = [.succeeded] := by
  obtain ⟨rs, w, hserved, hworks, hok⟩ := publicRun_updates
  have hrun := PublicRun.call .rollback hserved
  have hreturned := returned_rollback (S := .running) hok
  obtain ⟨hcount, hanswers⟩ := publicRun_history hrun (List.forall_mem_append.2
    ⟨hworks, List.forall_mem_singleton.2 trivial⟩)
  exact ⟨_, _, _, hrun, rfl, hreturned, hcount, hanswers _ _ _ rfl rfl hreturned⟩

/-- The host has an update logged. -/
def hostUpdate : PublicCall := .auditEvent (some (utf8 "UPDATE_APPLIED")) none

theorem hostUpdate_told : (Comp.after (hostUpdate.run .release .running)
    ⟨some releaseEngine, installed⟩).world.trace = [.logged .UpdateApplied (jsonObject [])] := by
  have hname : decodeCstr (some (utf8 "UPDATE_APPLIED")) "event_type" = .ok "UPDATE_APPLIED" := by
    unfold decodeCstr
    simp only [fromUtf8?_utf8]
    rfl
  have hevent : AuditEvent.fromStr "UPDATE_APPLIED" = some .UpdateApplied := by decide
  have hengine : getEngine (some releaseEngine) = pure releaseEngine := rfl
  have hknown (e : SynqroError) :
    require (some AuditEvent.UpdateApplied) e = pure .UpdateApplied := rfl
  have hrun : synqroAuditEvent .release (some releaseEngine) (some (utf8 "UPDATE_APPLIED")) none =
      releaseEngine.audit.log .release .UpdateApplied (jsonObject []) := by
    simp only [synqroAuditEvent, hname, Comp.ofExcept_ok_bind, pure_bind, hengine, hevent, hknown]
  rw [hostUpdate, PublicCall.run, after_onEngine]
  show (Comp.after (synqroAuditEvent .release (some releaseEngine) _ none) installed).trace = _
  rw [hrun, AuditLogger.log_spec.2.2]
  rfl

/-- The host's line counts as an update although nothing was deployed. -/
theorem host_applies : ¬ ∀ (E : Externals) (S : SerdeYaml) (rs : List PublicRecord)
    (s : EngineState),
    PublicRun E S rs s → (∀ r ∈ rs, r.call.LogWorks E r.before) →
      (milestones s.world.trace).count .applied = (milestones s.world.trace).count .deployed := by
  intro h
  have hstart : PublicRun .release .running [] ⟨some releaseEngine, installed⟩ := .start rfl
  have hcount := h _ _ _ _ (.call hostUpdate hstart) fun r hr => by
    rw [List.mem_singleton.1 hr]
    trivial
  rw [hostUpdate_told] at hcount
  exact absurd hcount (by decide)

end Synqro
