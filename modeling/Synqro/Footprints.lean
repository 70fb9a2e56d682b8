import Synqro.AuditHistory
import Synqro.RollbackFailures

/-!
# The files that a call can change

`PublicCall.Footprint` is where a call of the C interface may leave another file than it found, on
every outcome: an update in the directory of the version it fetched, at its staging file and, when
the artifact was verified, at what is deployed; a rollback at the entries of the manifest it
verified and in its own state files. `calls_footprint` says that a file which changed over a
sequence of calls is in the footprint of one of them, and that the audit log, which is not among
these files, is only appended to.
-/

namespace Synqro

open LastTouch (lastTouch of_lastTouch)
open UnixPath (ofLoc ofLoc_join_ofName)
open World (Disturbs SameFiles Touches)

/-! ## The manifest -/

namespace SynqroDownloader

variable {E : Externals} (d : SynqroDownloader)

theorem recordSuccess_sameFiles : Comp.Respects SameFiles recordSuccess :=
  .bind (.modify fun _ => ⟨rfl, rfl, rfl⟩) fun _ => emit_sameFiles _

theorem new_sameFiles (updateConfig : UpdateConfig) (sourceConfig : SourceConfig)
    (installationId : String) (cryptoConfig : CryptoConfig) (audit : AuditLogger) :
    Comp.Respects SameFiles (new updateConfig sourceConfig installationId cryptoConfig audit) :=
  .bind (.mapErr _ bareCall_sameFiles) fun _ => .bind (.modify fun _ => ⟨rfl, rfl, rfl⟩) fun _ =>
    .pure _

/-- Fetching the manifest keeps it in memory. -/
theorem fetchManifestBody_sameFiles : Comp.Respects SameFiles (d.fetchManifestBody E) :=
  .bind d.loadTokenForRequest_sameFiles fun _ => .bind (failIf_sameFiles _) fun _ =>
    .bind (.mapErr _ (send_sameFiles _)) fun _ => .bind (failIf_sameFiles _) fun _ =>
      .bind (failIf_sameFiles _) fun _ => .ofExcept _

theorem checkFreshness_sameFiles (rawValue : Json) :
    Comp.Respects SameFiles (checkFreshness E rawValue) :=
  .bind (.ofExcept _) fun _ => .bind (.ofExcept _) fun _ =>
    .bind (fun _ => ⟨rfl, rfl, rfl⟩) fun _ => failIf_sameFiles _

theorem checkSignature_sameFiles (rawValue : Json) :
    Comp.Respects SameFiles (d.checkSignature E rawValue) := by
  refine .bind (.ofExcept _) fun _ => .bind (.ofExcept _) fun payload =>
    .bind (.ofExcept _) fun _ =>
    .bind (.ofExcept _) fun _ => .onError (.ofExcept _) fun e => ?_
  exact .bind (.ignore (AuditLogger.log_sameFiles E d.audit _ _)) fun _ => .pure _

theorem checkInstallationId_sameFiles (manifest : SynqroManifest) :
    Comp.Respects SameFiles (d.checkInstallationId manifest) := by
  unfold checkInstallationId
  split
  · split
    · exact .throw _
    · exact .pure _
  · exact .pure _

/-- A refused manifest leaves no file behind, and neither does an accepted one. -/
theorem verifyManifest_sameFiles (rawBytes : Bytes) :
    Comp.Respects SameFiles (d.verifyManifest E rawBytes) :=
  .bind (.ofExcept _) fun rawValue => .bind (checkFreshness_sameFiles rawValue) fun _ =>
    .bind (d.checkSignature_sameFiles rawValue) fun _ =>
      .bind (.ignore (AuditLogger.log_sameFiles E d.audit _ _)) fun _ => .bind (.ofExcept _)
        fun manifest => .bind (d.checkInstallationId_sameFiles manifest) fun _ => .pure _

/-- The attempts, by induction on how many are left. -/
theorem fetchAttempts_sameFiles (n : Nat) (lastErr : SynqroError) :
    Comp.Respects SameFiles (d.fetchAttempts E lastErr n) := by
  induction n generalizing lastErr with
  | zero => exact .throw _
  | succ n ih =>
    refine .bind (.outcome ?_) fun result => ?_
    · exact .bind d.fetchManifestBody_sameFiles d.verifyManifest_sameFiles
    · cases result with
      | ok manifest => exact .bind recordSuccess_sameFiles fun _ => .pure _
      | error e => exact .bind d.recordFailure_sameFiles fun _ => ih e

/-- A fetch of the manifest touches no file. -/
theorem fetchAndVerifyManifest_sameFiles : Comp.Respects SameFiles (d.fetchAndVerifyManifest E) :=
  .bind (.mapErr _ bareCall_sameFiles) fun _ => .bind checkDegraded_sameFiles fun _ =>
    d.fetchAttempts_sameFiles _ _

end SynqroDownloader

/-! ## The snapshot -/

section
variable {E : Externals} {P : Loc → Prop} {w : World}

theorem lexical_ofLoc (l cwd : Loc) : (ofLoc l).lexical cwd = l :=
  (locateFile_lexical (UnixPath.locateFile_ofLoc .empty cwd l)).symm

/-- The files that a directory holds itself. -/
def FileOf (d l : Loc) : Prop := l.tail = d

theorem sameFiles_disturbs {α : Type} {x : M α} (hx : Comp.Respects SameFiles x) :
    Comp.Respects (Disturbs P) x := hx.mono fun _ _ => .of_sameFiles

/-- A write to a name in a directory touches a file of it. -/
theorem write_disturbs (d : Loc) (n : FileName) (bytes : Bytes) :
    Comp.Respects (Disturbs (FileOf d)) (fs.write ((ofLoc d).join (.ofName n)) bytes) := by
  intro w
  refine .of_touches ?_ (write_touches bytes w)
  rw [ofLoc_join_ofName, lexical_ofLoc]
  rfl

/-- The copy of a target is a file of the version directory. -/
theorem snapshotFile_disturbs (d : Loc) (srcPath : UnixPath) :
    Comp.Respects (Disturbs (FileOf d)) (snapshotFile E (.ofLoc d) srcPath) := by
  refine .bind (sameFiles_disturbs (.mapErr _ canonicalize_sameFiles)) fun canonicalSrc => ?_
  refine .bind (.ofExcept _) fun n => .bind (.ofExcept _) fun _ => ?_
  refine .bind (sameFiles_disturbs (.mapErr _ read_sameFiles)) fun bytes => ?_
  refine .bind (sameFiles_disturbs (.mapErr _ ?_)) fun mode => .bind (.mapErr _ ?_) fun _ => .pure _
  · exact call_sameFiles (queryFiles_sameFiles _) fun _ => .pure ()
  · exact write_disturbs d n bytes

/-- So are the copies of all targets, by induction on them. -/
theorem snapshotFiles_disturbs (d : Loc) (srcPaths : List UnixPath) :
    Comp.Respects (Disturbs (FileOf d)) (snapshotFiles E (.ofLoc d) srcPaths) := by
  induction srcPaths with
  | nil => exact .pure _
  | cons p ps ih => exact .bind (snapshotFile_disturbs d p) fun _ => .bind ih fun _ => .pure _

/-- A snapshot, returned or failed, changes files of its version directory only. -/
theorem takeSnapshot_disturbs (version : String) (targetPaths : List UnixPath)
    (backupDir : UnixPath) (hmacKey : Bytes) (w : World) :
    Disturbs (FileOf (versionDirIn backupDir w.process.cwd version)) w
      (Comp.after (takeSnapshot E version targetPaths backupDir hmacKey) w) := by
  refine Comp.after_bind (Comp.Respects.mapErr _ (createDirAll_disturbs _) w) fun _ w₁ _ h₁ => ?_
  refine Comp.after_bind (Comp.Respects.mapErr _ (createDirAll_disturbs _) w₁) fun _ w₂ _ h₂ => ?_
  refine Comp.after_bind (sameFiles_disturbs (.mapErr _ canonicalize_sameFiles) w₂)
    fun canonicalBackup w₃ hcanonical _ => ?_
  obtain ⟨-, ⟨d, hd, rfl, -⟩, -⟩ := fs.canonicalize_ok.1 (Comp.mapErr_ok.1 hcanonical)
  -- the canonical directory is the one the path spells
  have hdir : versionDirIn backupDir w.process.cwd version = d := by
    have hspelt := UnixPath.locate_lexical hd
    rw [h₂.process, h₁.process] at hspelt
    exact hspelt
  rw [hdir]
  revert w₃
  suffices h : Comp.Respects (Disturbs (FileOf d)) _ from fun w₃ _ _ => h w₃
  refine .bind (snapshotFiles_disturbs d targetPaths) fun fileEntries => ?_
  refine .bind (sameFiles_disturbs fun _ => ⟨rfl, rfl, rfl⟩) fun time => ?_
  refine .bind (.modify fun _ => .of_sameFiles ⟨rfl, rfl, rfl⟩) fun _ => .mapErr _ ?_
  rw [ofString_snapshotJson]
  exact write_disturbs d snapshotJson _

end

/-! ## The artifact -/

namespace SynqroDownloader

variable {E : Externals} {d : SynqroDownloader} {w w' : World}

/-- What comes before the download is in memory. -/
theorem prepareDownload_sameFiles (manifest : SynqroManifest) :
    Comp.Respects SameFiles (d.prepareDownload E manifest) :=
  .bind checkDegraded_sameFiles fun _ => .bind (.ofExcept _) fun _ =>
    .bind d.loadTokenForRequest_sameFiles fun _ => .bind (failIf_sameFiles _) fun _ =>
      .bind (.mapErr _ bareCall_sameFiles) fun _ => .pure _

/-- Staging writes the temporary file. -/
theorem stage_touches (tempPath : UnixPath) (bytes : Bytes) :
    Comp.Respects (Touches tempPath) (stage tempPath bytes) := by
  intro w
  refine Comp.after_bind (Comp.Respects.mapErr _ create_touches w) fun file w₁ hcreate h => ?_
  have hfile := (h.locate tempPath).trans (fs.create_ok.1 (Comp.mapErr_ok.1 hcreate)).2.1
  refine Comp.after_bind ?_ fun _ w₂ _ _ => ?_
  · rw [Comp.after_mapErr]
    exact writeAll_touches hfile bytes
  · exact (Comp.Respects.mapErr _ bareCall_sameFiles).mono (fun _ _ => .of_sameFiles) w₂

/-- The checks of the staged file remove it or leave it. -/
theorem verifyStaged_touches (artifact : ArtifactEntry) (tempPath : UnixPath) (bytes : Bytes) :
    Comp.Respects (Touches tempPath) (d.verifyStaged E artifact tempPath bytes) := by
  refine .bind (checkDigest_touches _ _ _) fun _ => .bind (checkDigest_touches _ _ _) fun _ => ?_
  refine .bind ((Comp.Respects.ignore (AuditLogger.log_sameFiles E d.audit _ _)).mono
    fun _ _ => .of_sameFiles) fun _ => ?_
  refine .bind (.ofExcept _) fun sig => .bind (.ofExcept _) fun key =>
    .onError (.ofExcept _) fun e => ?_
  exact .bind (rejectArtifact_touches _ _) fun _ => .pure _

/-- A download that returned changed the staging file and the deployed one. -/
theorem downloadAndVerifyArtifact_disturbs {manifest : SynqroManifest} {stagingDir p : UnixPath}
    (h : d.downloadAndVerifyArtifact E manifest stagingDir w = .ok p w') :
    Disturbs (fun l => l = (stagingPath E stagingDir).lexical w.process.cwd ∨
      l = (deployedPath E stagingDir).lexical w.process.cwd) w w' := by
  rw [downloadAndVerifyArtifact_eq] at h
  obtain ⟨⟨artifact, token⟩, w₁, hprepare, h⟩ := Comp.bind_ok.1 h
  rw [prepareDownload_platform hprepare] at h
  obtain ⟨bytes, w₂, hrequest, h⟩ := Comp.bind_ok.1 h
  obtain ⟨_, w₃, hstage, h⟩ := Comp.bind_ok.1 h
  obtain ⟨_, w₄, hverify, h⟩ := Comp.bind_ok.1 h
  have hsame : SameFiles w w₂ :=
    IsTrans.trans _ _ _ ((prepareDownload_sameFiles manifest).ok hprepare)
    ((d.requestArtifact_sameFiles _ _).ok (Comp.onError_ok.1 hrequest))
  have htouches : Touches (stagingPath E stagingDir) w w₄ :=
    (Touches.of_sameFiles hsame).trans
      (((stage_touches _ _).ok hstage).trans ((verifyStaged_touches _ _ _).ok hverify))
  obtain ⟨_, w₅, hrename, h⟩ := Comp.bind_ok.1 h
  obtain ⟨-, src, dst, t, hsrc, hdst, hrenamed, rfl⟩ := fs.rename_ok.1 (Comp.onError_ok.1 hrename)
  have hrest : SameFiles ((w₄.tick.setFiles t).emit (.renamed src dst (t.get dst))) w' :=
    (Comp.Respects.bind (emit_sameFiles _) fun _ =>
      .bind recordSuccess_sameFiles fun _ => .pure _).ok h
  have hmoved : Disturbs (fun l => l = (stagingPath E stagingDir).lexical w.process.cwd ∨
      l = (deployedPath E stagingDir).lexical w.process.cwd) w₄
      ((w₄.tick.setFiles t).emit (.renamed src dst (t.get dst))) := by
    rw [← htouches.process]
    exact .of_changesOnly rfl (FileTree.rename_changesOnly (.inl (locateFile_lexical hsrc))
      (.inr (locateFile_lexical hdst)) hrenamed)
  exact IsTrans.trans _ _ _ (.of_touches (.inl rfl) htouches)
    (IsTrans.trans _ _ _ hmoved (.of_sameFiles hrest))

end SynqroDownloader

/-! ## An update -/

section
variable {E : Externals} {engine : SynqroEngine} {w w' : World}

/-- The manifest that the update fetches. -/
def SynqroEngine.Fetches (E : Externals) (engine : SynqroEngine) (w : World) (m : SynqroManifest) :
    Prop :=
  ∃ d w₁ w₂, engine.downloader w = .ok d w₁ ∧ d.fetchAndVerifyManifest E w₁ = .ok m w₂

/-- The files that an update can leave others: those of the directory of the version that it
fetched, its staging file and, when the artifact was verified, the deployed one. -/
def SynqroEngine.Updates (E : Externals) (engine : SynqroEngine) (w : World) (l : Loc) : Prop :=
  let stagingDir := UnixPath.ofString engine.config.update.stagingDir
  let backupDir := UnixPath.ofString engine.config.update.backupDir
  ∃ m, engine.Fetches E w m ∧
    (FileOf (versionDirIn backupDir w.process.cwd m.version) l ∨
      l = (stagingPath E stagingDir).lexical w.process.cwd ∨
      l = (deployedPath E stagingDir).lexical w.process.cwd ∧
        ∃ p w', deployUpdate E engine w = .ok (m, p) w')

/-- Building the downloader of an update leaves the files alone. -/
theorem downloader_sameFiles : Comp.Respects SameFiles engine.downloader :=
  SynqroDownloader.new_sameFiles _ _ _ _ _

theorem currentExe_sameFiles : Comp.Respects SameFiles currentExe :=
  call_sameFiles (fun _ => ⟨rfl, rfl, rfl⟩) fun _ => .pure ()

/-- What comes after an update is the log line and the watchdog. -/
theorem announceUpdate_sameFiles (manifest : SynqroManifest) (deployedPath : UnixPath) :
    Comp.Respects SameFiles (announceUpdate E engine manifest deployedPath) := by
  refine .bind (AuditLogger.log_sameFiles E engine.audit _ _) fun _ =>
    .bind .get fun w => .ignore ?_
  refine .bind (.mapErr _ currentExe_sameFiles) fun _ =>
    .bind (.mapErr _ bareCall_sameFiles) fun _ => ?_
  exact .bind .get fun _ => emit_sameFiles _

/-- An update up to its announcement: the snapshot of the executable, and then the artifact. -/
theorem deployUpdate_disturbs (w : World) :
    Disturbs (engine.Updates E w) w (Comp.after (deployUpdate E engine) w) := by
  refine Comp.after_bind (sameFiles_disturbs downloader_sameFiles w) fun d w₁ hd h₁ => ?_
  refine Comp.after_bind (sameFiles_disturbs d.fetchAndVerifyManifest_sameFiles w₁)
    fun m w₂ hm h₂ => ?_
  have hfetch : engine.Fetches E w m := ⟨d, w₁, w₂, hd, hm⟩
  refine Comp.after_bind (Comp.Respects.mapErr _ (createDirAll_disturbs _) w₂)
    fun _ w₃ hdir h₃ => ?_
  refine Comp.after_bind (sameFiles_disturbs (.mapErr _ currentExe_sameFiles) w₃)
    fun exe w₄ hexe h₄ => ?_
  have hprocess : w₄.process = w.process := by
    rw [h₄.process, h₃.process, h₂.process, h₁.process]
  refine Comp.after_bind ?_ fun _ w₅ hsnapshot h₅ => ?_
  · have hsnapshot := @takeSnapshot_disturbs E m.version [exe]
      (.ofString engine.config.update.backupDir) (hmacKeyOf E engine.config.installationId) w₄
    rw [hprocess] at hsnapshot
    exact hsnapshot.mono fun l hl => ⟨m, hfetch, .inl hl⟩
  have hprocess₅ : w₅.process = w.process := h₅.process.trans hprocess
  rw [Comp.after_bind_pure, Comp.after]
  cases hdownload : d.downloadAndVerifyArtifact E m
    (.ofString engine.config.update.stagingDir) w₅ with
  | error e w₆ =>
    refine .of_touches ⟨m, hfetch, .inr (.inl ?_)⟩
      (SynqroDownloader.downloadAndVerifyArtifact_touches hdownload)
    rw [hprocess₅]
  | ok p w₆ =>
    have hdeployed : deployUpdate E engine w = .ok (m, p) w₆ := by
      simp only [deployUpdate, Comp.bind_ok]
      exact ⟨d, w₁, hd, m, w₂, hm, _, w₃, hdir, exe, w₄, hexe, _, w₅, hsnapshot, p, w₆,
        hdownload, rfl⟩
    refine (SynqroDownloader.downloadAndVerifyArtifact_disturbs hdownload).mono fun l hl =>
      ⟨m, hfetch, ?_⟩
    rw [hprocess₅] at hl
    exact hl.elim (fun hl => .inr (.inl hl)) fun hl => .inr (.inr ⟨hl, p, w₆, hdeployed⟩)

/-- An update changes files of its footprint only, on every outcome. -/
theorem synqroApplyUpdate_disturbs (w : World) :
    Disturbs (engine.Updates E w) w (Comp.after (synqroApplyUpdate E (some engine)) w) := by
  rw [synqroApplyUpdate_eq]
  exact Comp.after_bind (deployUpdate_disturbs w) fun _ w₁ _ _ =>
    .of_sameFiles (announceUpdate_sameFiles _ _ w₁)

end

/-! ## A rollback -/

section
variable {E : Externals} {engine : SynqroEngine} {version : String} {backupDir : UnixPath}
  {hmacKey : Bytes} {audit : AuditLogger} {B : Loc} {w w' : World}

/-- The files that a rollback can leave others: those where the entries of the chosen version's
manifest are written, their temporary files and the files of the bookkeeping. -/
def SynqroEngine.RollsBack (E : Externals) (engine : SynqroEngine) (w : World) (l : Loc) : Prop :=
  let backupDir := UnixPath.ofString engine.config.update.backupDir
  ∃ v w₁ w₂, engine.audit.log E .RollbackTriggered (jsonObject []) w = .ok () w₁ ∧
    mostRecentBackupVersion backupDir w₁ = .ok v w₂ ∧
    (StateFile (backupDir.lexical w.process.cwd) l ∨
      ∃ entry ∈ listedEntries E v backupDir
        (hmacKeyOf E engine.config.installationId) engine.audit w₂,
        l = entry.temp w.process.cwd ∨ l = entry.dest w.process.cwd)

/-- A rollback, returned or failed, changes the places of the entries it verified and its state
files. -/
theorem rollback_disturbs (hB : w.base backupDir = .ok B) :
    Disturbs (fun l => StateFile B l ∨ ∃ entry ∈ listedEntries E version backupDir hmacKey audit w,
      l = entry.temp w.process.cwd ∨ l = entry.dest w.process.cwd) w
      (Comp.after (rollback E version backupDir hmacKey audit) w) := by
  obtain ⟨done, rest, hsplit, hleaves, -⟩ :=
    @rollback_restoredUpTo E version backupDir hmacKey audit B w hB
  refine ⟨hleaves.process, hleaves.dirs, fun l hl => ?_⟩
  rw [hsplit] at hl
  have hleft := hleaves.files l fun hin => hl ?_
  · unfold LeftBy at hleft
    cases hlast : lastTouch (FileEntry.temp w.process.cwd)
      (FileEntry.dest w.process.cwd) done l with
    | none => rwa [hlast] at hleft
    | some touch =>
      refine absurd (.inr ?_) hl
      cases touch with
      | put entry =>
        obtain ⟨hentry, hput⟩ := of_lastTouch hlast
        exact ⟨entry, List.mem_append_left _ hentry, .inr hput⟩
      | cleared =>
        obtain ⟨entry, hentry, hcleared⟩ := of_lastTouch hlast
        exact ⟨entry, List.mem_append_left _ hentry, .inl hcleared⟩
  · cases rest with
    | nil => exact .inl hin
    | cons entry rest => exact .inr ⟨entry, List.mem_append_right _ (.head _), .inl hin⟩

/-- Choosing a version only reads. -/
theorem mostRecentBackupVersion_sameFiles (backupDir : UnixPath) :
    Comp.Respects SameFiles (mostRecentBackupVersion backupDir) :=
  .bind (.mapErr _ (call_sameFiles (queryFiles_sameFiles _) fun _ => .pure ())) fun _ => .ofExcept _

/-- A backup directory that was listed stands where its path leads. -/
theorem mostRecentBackupVersion_base (h : mostRecentBackupVersion backupDir w = .ok version w') :
    w'.base backupDir = .ok (backupDir.lexical w.process.cwd) := by
  have hsame := (mostRecentBackupVersion_sameFiles _).ok h
  simp only [mostRecentBackupVersion, Comp.bind_ok, Comp.mapErr_ok, fs.readDir_ok] at h
  obtain ⟨_, _, ⟨-, ⟨l, es, hl, -⟩, -⟩, -⟩ := h
  rw [World.base, hsame.files, hsame.process, UnixPath.base_of_locate hl,
    UnixPath.locate_lexical hl]

/-- A rollback changes files of its footprint only, on every outcome. -/
theorem synqroRollback_disturbs (w : World) :
    Disturbs (engine.RollsBack E w) w (Comp.after (synqroRollback E (some engine)) w) := by
  refine Comp.after_bind (Std.Refl.refl w) fun _ w₀ hengine _ => ?_
  cases hengine
  refine Comp.after_bind (sameFiles_disturbs (AuditLogger.log_sameFiles E engine.audit _ _) w)
    fun _ w₁ hlog h₁ => ?_
  refine Comp.after_bind (sameFiles_disturbs (mostRecentBackupVersion_sameFiles _) w₁)
    fun v w₂ hchoice h₂ => ?_
  have hprocess : w₂.process = w.process := h₂.process.trans h₁.process
  have hlisted := mostRecentBackupVersion_base hchoice
  rw [h₁.process] at hlisted
  have hrollback := @rollback_disturbs E v _
    (hmacKeyOf E engine.config.installationId) engine.audit _ w₂
    hlisted
  rw [hprocess] at hrollback
  exact hrollback.mono fun l hl => ⟨v, w₁, w₂, hlog, hchoice, hl⟩

end

/-! ## Calls of the C interface -/

/-- The files that a call can leave others. -/
def PublicCall.Footprint (E : Externals) (s : EngineState) (l : Loc) : PublicCall → Prop
  | .applyUpdate => ∃ engine, s.ENGINE = some engine ∧ engine.Updates E s.world l
  | .rollback => ∃ engine, s.ENGINE = some engine ∧ engine.RollsBack E s.world l
  | _ => False

section
variable {E : Externals} {S : SerdeYaml} {P : Loc → Prop}

/-- A call on an engine changes what it changes once there is one. -/
theorem getEngine_disturbs {f : SynqroEngine → M Unit} (ENGINE : Option SynqroEngine) (w : World)
    (h : ∀ engine, ENGINE = some engine → Disturbs P w (Comp.after (f engine) w)) :
    Disturbs P w (Comp.after (getEngine ENGINE >>= f) w) := by
  cases ENGINE with
  | none => exact Std.Refl.refl w
  | some engine => exact h engine rfl

/-- Preparing the engine can make the directory of the audit log. -/
theorem prepareEngine_disturbs (configPath : Option Bytes) :
    Comp.Respects (Disturbs P) (prepareEngine E S configPath) := by
  have hread (p : UnixPath) : Comp.Respects SameFiles (fs.readToString p) :=
    .bind read_sameFiles fun _ => .ofExcept _
  have hfound (binary : String) : Comp.Respects SameFiles (binaryAvailable binary) :=
    .bind (.outcome bareCall_sameFiles) fun _ => .pure _
  have hkeychain : Comp.Respects SameFiles platformKeychain := by
    refine .bind (hfound _) fun found => ?_
    split
    · exact .pure _
    refine .bind (hfound _) fun found => ?_
    split
    · exact .pure _
    · exact .throw _
  have hopen {f : IoError → SynqroError} : Comp.Respects (Disturbs P) (Comp.mapErr f bareCall) :=
    sameFiles_disturbs (.mapErr _ bareCall_sameFiles)
  have haudit (config : ConfigFile.LoggingConfig) (installationId : String) :
      Comp.Respects (Disturbs P) (AuditLogger.new E config installationId) := by
    unfold AuditLogger.new
    dsimp only
    split
    · split
      · exact .bind hopen fun _ => .pure _
      · exact .bind (.mapErr _ (createDirAll_disturbs _)) fun _ => .bind hopen fun _ => .pure _
    · exact .bind hopen fun _ => .pure _
  refine .bind (.ofExcept _) fun path =>
    .bind (sameFiles_disturbs (.outcome (hread _))) fun raw => ?_
  refine .bind (.ofExcept _) fun config => .bind (sameFiles_disturbs hkeychain) fun _ => ?_
  exact .bind (haudit _ _) fun _ => .pure _

/-- An initialisation changes no file: it can make the directory of the audit log. -/
theorem synqroInit_disturbs (configPath : Option Bytes) (s : EngineState) :
    Disturbs P s.world (Comp.after (synqroInit E S configPath) s).world := by
  have hprepared := @prepareEngine_disturbs E S P configPath s.world
  cases hp : prepareEngine E S configPath s.world with
  | error e w =>
    rw [Comp.after, hp] at hprepared
    rw [Comp.after, synqroInit_unprepared hp]
    exact hprepared
  | ok engine w =>
    rw [Comp.after, hp] at hprepared
    cases hold : s.ENGINE with
    | some old =>
      rw [Comp.after, synqroInit_again hold hp]
      exact hprepared
    | none =>
      rw [Comp.after, synqroInit_first hold hp]
      exact IsTrans.trans _ _ _ hprepared (@onWorld_after _ _ _ ⟨some engine, w⟩
        (sameFiles_disturbs (AuditLogger.log_sameFiles E engine.audit _ _) w))

/-- A host's event goes to the audit log, which is not among the files. -/
theorem synqroAuditEvent_sameFiles (ENGINE : Option SynqroEngine)
    (eventType dataJson : Option Bytes) :
    Comp.Respects SameFiles (synqroAuditEvent E ENGINE eventType dataJson) := by
  have hlog (eventName : String) (data : Json) : Comp.Respects SameFiles (do
      let engine ← getEngine ENGINE
      let event ← require (AuditEvent.fromStr eventName)
        (.InvalidInput s!"Unknown audit event type: `{eventName}`")
      engine.audit.log E event data) :=
    .bind (.ofExcept _) fun engine => .bind (.ofExcept _) fun event =>
      AuditLogger.log_sameFiles E engine.audit _ _
  refine .bind (.ofExcept _) fun eventName => ?_
  cases dataJson with
  | none => exact .bind (.pure _) fun data => hlog eventName data
  | some bytes =>
    exact .bind (.ofExcept _) fun jsonStr => .bind (.ofExcept _) fun data => hlog eventName data

/-- A call, returned or failed, changes files of its footprint only. -/
theorem PublicCall.run_disturbs (c : PublicCall) (s : EngineState) :
    Disturbs (fun l => c.Footprint E s l) s.world (Comp.after (c.run E S) s).world := by
  cases c with
  | init configPath => exact synqroInit_disturbs configPath s
  | version | installationId | freeString | freeResult => exact Std.Refl.refl s.world
  | checkUpdate =>
    refine onWorld_after (getEngine_disturbs _ _ fun engine _ => sameFiles_disturbs ?_ _)
    refine .bind (AuditLogger.log_sameFiles E engine.audit _ _) fun _ => ?_
    exact .bind downloader_sameFiles fun d => .bind d.fetchAndVerifyManifest_sameFiles fun m =>
      AuditLogger.log_sameFiles E engine.audit _ _
  | applyUpdate =>
    refine onWorld_after ?_
    cases hengine : s.ENGINE with
    | none => exact Std.Refl.refl s.world
    | some engine =>
      exact (synqroApplyUpdate_disturbs s.world).mono fun l hl => ⟨engine, hengine, hl⟩
  | rollback =>
    refine onWorld_after ?_
    cases hengine : s.ENGINE with
    | none => exact Std.Refl.refl s.world
    | some engine => exact (synqroRollback_disturbs s.world).mono fun l hl => ⟨engine, hengine, hl⟩
  | auditEvent eventType dataJson =>
    exact onWorld_after (sameFiles_disturbs (synqroAuditEvent_sameFiles _ _ _) _)
  | healthCheck =>
    refine onWorld_after (getEngine_disturbs _ _ fun engine _ => sameFiles_disturbs ?_ _)
    exact .bind downloader_sameFiles fun d => .bind (.mapErr _ bareCall_sameFiles) fun _ =>
      .bind (.mapErr _ (send_sameFiles _)) fun _ => .pure _

/-! ## Sequences of calls -/

/-- Calls made one after the other. Between calls the outside may change the world and start the
process anew, but leaves the file at `l` alone. -/
inductive Calls (E : Externals) (S : SerdeYaml) (l : Loc) :
    EngineState → List PublicRecord → EngineState → Prop
  | none {s : EngineState} : Calls E S l s [] s
  | outside {s s' s'' : EngineState} {rs : List PublicRecord} : Calls E S l s rs s' →
      s''.world.files.fileAt l = s'.world.files.fileAt l → Calls E S l s rs s''
  | call {s s' : EngineState} {rs : List PublicRecord} (c : PublicCall) : Calls E S l s rs s' →
      Calls E S l s (rs ++ [⟨c, s', c.run E S s'⟩]) (Comp.after (c.run E S) s')

/-- A file that changed over calls is in the footprint of one of them. -/
theorem Calls.changed {l : Loc} {s s' : EngineState} {rs : List PublicRecord}
    (h : Calls E S l s rs s') (hchanged : s'.world.files.fileAt l ≠ s.world.files.fileAt l) :
    ∃ r ∈ rs, r.call.Footprint E r.before l := by
  induction h with
  | none => exact absurd rfl hchanged
  | outside _ hsame ih => exact ih (hsame ▸ hchanged)
  | @call s' rs c _ ih =>
    by_cases hbefore : s'.world.files.fileAt l = s.world.files.fileAt l
    · refine ⟨_, List.mem_append_right _ (.head _), not_not.1 fun hl => hchanged ?_⟩
      exact ((c.run_disturbs s').files l hl).trans hbefore
    · obtain ⟨r, hr, hl⟩ := ih hbefore
      exact ⟨r, List.mem_append_left _ hr, hl⟩

/-- The calls made, each from the state it was made in. -/
theorem Calls.ran {l : Loc} {s s' : EngineState} {rs : List PublicRecord}
    (h : Calls E S l s rs s') : ∀ r ∈ rs, r.result = r.call.run E S r.before := by
  induction h with
  | none => exact fun _ hr => absurd hr List.not_mem_nil
  | outside _ _ ih => exact ih
  | call c _ ih =>
    intro r hr
    rcases List.mem_append.1 hr with hr | hr
    · exact ih r hr
    · rw [List.mem_singleton.1 hr]

/-- A file that changed is in the footprint of a call: of an update that fetched the version whose
directory holds it, that staged it or deployed it, or of a rollback whose verified manifest lists it
or whose state it is. The audit log is appended to, by any call. -/
theorem calls_footprint {l : Loc} {s s' : EngineState} {rs : List PublicRecord}
    (h : Calls E S l s rs s') :
    (s'.world.files.fileAt l ≠ s.world.files.fileAt l →
      ∃ r ∈ rs, r.call.Footprint E r.before l) ∧
    ∀ r ∈ rs, r.before.world.auditFile.bytes <+: (Comp.final r.result).world.auditFile.bytes := by
  refine ⟨h.changed, fun r hr => ?_⟩
  rw [h.ran r hr]
  exact (r.call.run_evolves r.before).appended

end

/-- Where the artifact of the installation is deployed. -/
def deployedBin : Loc := (deployedPath .release (.ofString "/staging")).lexical []

/-- The update to the offered version deploys something new. -/
theorem updated_deployedBin :
    (installed.updated "10.0.0").files.fileAt deployedBin ≠ installed.files.fileAt deployedBin := by
  decide +kernel

/-- An update that deployed has what is deployed in its footprint; its log lines are appended. -/
theorem calls_footprint_installed :
    (∃ r ∈ [servedRecord .running installed "10.0.0"],
      r.call.Footprint .release r.before deployedBin) ∧
    ∀ r ∈ [servedRecord .running installed "10.0.0"],
      r.before.world.auditFile.bytes <+: (Comp.final r.result).world.auditFile.bytes := by
  have hcalls : Calls .release .running deployedBin ⟨some releaseEngine, installed.served "10.0.0"⟩
      [servedRecord .running installed "10.0.0"]
      (Comp.after (PublicCall.applyUpdate.run .release .running)
        ⟨some releaseEngine, installed.served "10.0.0"⟩) := .call .applyUpdate .none
  obtain ⟨hfiles, hlogged⟩ := calls_footprint hcalls
  refine ⟨hfiles ?_, hlogged⟩
  rw [show PublicCall.applyUpdate.run .release .running =
    onEngine (synqroApplyUpdate .release) from rfl, after_onEngine]
  exact updated_deployedBin

end Synqro
