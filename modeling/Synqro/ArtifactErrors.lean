import Synqro.Artifact
import Synqro.DegradedMode

/-!
# What a failed download leaves behind

Every exit of `SynqroDownloader.downloadAndVerifyArtifact` after the request has to remove the
staging file and to count the failure by itself. `SynqroDownloader.CountedExit` names the exits that
do both: those of the response, of a digest and of the signature's verification. The others (the
staging file cannot be written, a signature or key that does not decode, the rename) count nothing.
`SynqroDownloader.fetchArtifact_error` says which exit a failed download took, and
`SynqroDownloader.downloadAndVerifyArtifact_cleaned` when it left nothing behind.
-/

namespace Synqro

/-! ## Requests and outcomes -/

/-- What the degraded mode is about: a request was sent, or an attempt came to its end. -/
inductive Mark where
  | request
  | attempt (succeeded : Bool)
deriving DecidableEq

/-- The mark that an effect leaves. -/
def Effect.mark? : Effect → Option Mark
  | .requested _ => some .request
  | .attempted succeeded => some (.attempt succeeded)
  | _ => none

/-- The marks of a trace. -/
def marks (trace : List Effect) : List Mark := trace.filterMap Effect.mark?

theorem marks_append (xs ys : List Effect) : marks (xs ++ ys) = marks xs ++ marks ys :=
  List.filterMap_append

theorem requestCount_eq (trace : List Effect) :
    requestCount trace = (marks trace).count .request := by
  induction trace with
  | nil => rfl
  | cons e trace ih =>
    unfold requestCount marks at ih ⊢
    rw [List.countP_cons, List.filterMap_cons, ih]
    cases e <;> simp [Effect.isRequest, Effect.mark?]

/-- The world after steps that neither ended an attempt nor sent a request. -/
structure World.Aside (w w' : World) : Prop where
  latch : w'.latch = w.latch
  marks : marks w'.trace = marks w.trace

namespace World.Aside

variable {w w' : World}

instance : Std.Refl Aside := ⟨fun _ => ⟨rfl, rfl⟩⟩
instance : IsTrans World Aside :=
  ⟨fun _ _ _ h h' => ⟨h'.latch.trans h.latch, h'.marks.trans h.marks⟩⟩

theorem tick (w : World) : Aside w w.tick := ⟨rfl, rfl⟩

theorem emit {e : Effect} (h : e.mark? = none) (w : World) : Aside w (w.emit e) := by
  refine ⟨rfl, ?_⟩
  simp [Synqro.marks, h]

end World.Aside

open World (Aside SameFiles)

section
variable {α ε : Type} {p : UnixPath}

theorem call_aside {work : Comp World IoError α} {partly : Nat → Comp World IoError Unit}
    (hw : Comp.Respects Aside work) (hp : ∀ n, Comp.Respects Aside (partly n)) :
    Comp.Respects Aside (call work partly) := by
  intro w
  unfold Comp.after call
  split
  · next f _ => exact IsTrans.trans _ _ _ (Aside.tick w) (hp f.done w.tick)
  · exact IsTrans.trans _ _ _ (Aside.tick w) (hw w.tick)

theorem onFiles_aside (step : World → Comp FileTree IoError α) :
    Comp.Respects Aside (onFiles step) := by
  intro w
  unfold Comp.after onFiles
  cases step w w.files <;> exact ⟨rfl, rfl⟩

theorem bareCall_aside : Comp.Respects Aside bareCall := call_aside (.pure ()) fun _ => .pure ()

theorem create_aside : Comp.Respects Aside (fs.create p) :=
  call_aside (onFiles_aside _) fun _ => .pure ()

theorem writeAll_aside (file : Loc) (bytes : Bytes) :
    Comp.Respects Aside (fs.writeAll file bytes) :=
  call_aside (onFiles_aside _) fun _ => onFiles_aside _

theorem removeFile_aside : Comp.Respects Aside (fs.removeFile p) :=
  call_aside (onFiles_aside _) fun _ => .pure ()

theorem failIf_aside {c : Prop} [Decidable c] (e : SynqroError) :
    Comp.Respects Aside (failIf c e) := by
  unfold failIf
  split
  · exact .throw _
  · exact .pure _

/-- A line of the audit log is no mark. -/
theorem AuditLogger.log_aside (E : Externals) (logger : AuditLogger) (event : AuditEvent)
    (data : Json) : Comp.Respects Aside (logger.log E event data) := by
  have flock (b : Bool) : Comp.Respects Aside (AuditLogger.flock b) :=
    call_aside (.modify fun _ => ⟨rfl, rfl⟩) fun _ => .pure ()
  have write (b : Bytes) : Comp.Respects Aside (AuditLogger.writeAll b) := by
    unfold AuditLogger.writeAll
    exact call_aside (.modify fun _ => ⟨rfl, rfl⟩) fun _ => .modify fun _ => ⟨rfl, rfl⟩
  refine .bind (fun w => .tick w) fun ts => .bind (.modify fun _ => ⟨rfl, rfl⟩) fun _ => ?_
  exact .bind (.mapErr _ (flock true)) fun _ => .bind (.mapErr _ (write _)) fun _ =>
    .bind (.modify (.emit rfl)) fun _ => .bind (.ignore (flock false)) fun _ =>
      .mapErr _ bareCall_aside

end

/-! ## The two halves of a download -/

/-- One more failed attempt. -/
def Latch.failed (l : Latch) : Latch where
  consecutiveFailures := l.consecutiveFailures + 1
  degradedMode := l.degradedMode || decide (5 ≤ saturatingSucc l.consecutiveFailures)

namespace SynqroDownloader

section
variable (E : Externals) (d : SynqroDownloader)

/-- What a download does before it sends its request. -/
def prepareDownload (manifest : SynqroManifest) : M (ArtifactEntry × String) := do
  checkDegraded
  let artifact ← require (manifest.artifacts.find? (·.platform = currentPlatformTriple E)) <|
    .InvalidInput s!"No artifact for platform `{currentPlatformTriple E}` in manifest"
  let token ← d.loadTokenForRequest E
  failIf (isHeaderValue s!"Bearer {token}" = false) (.InvalidInput "Invalid chars in token")
  Comp.mapErr (fun e => .Internal s!"Tokio runtime build: {e.display}") bareCall
  return (artifact, token)

/-- Write the received bytes to the staging file. -/
def stage (tempPath : UnixPath) (bytes : Bytes) : M Unit := do
  let tempFile ← Comp.mapErr (fun e => .Permission s!"Cannot create staging file: {e.display}")
    (fs.create tempPath)
  Comp.mapErr (fun e => .Internal s!"Staging file write failed: {e.display}")
    (fs.writeAll tempFile bytes)
  Comp.mapErr (fun e => .Internal s!"Staging file flush failed: {e.display}") bareCall

/-- Check the digests and the signature of the staged bytes. -/
def verifyStaged (artifact : ArtifactEntry) (tempPath : UnixPath) (bytes : Bytes) : M Unit := do
  d.checkDigest E tempPath "SHA-256" (hexEncode (E.sha256 bytes)) artifact.sha256
  d.checkDigest E tempPath "SHA-512" (hexEncode (E.sha512 bytes)) artifact.sha512
  Comp.ignore (d.audit.log E .PayloadHashOk (jsonObject []))
  let artifactSig ← Comp.ofExcept (signature E "Artifact" artifact.sigEd25519)
  let verifyingKey ← Comp.ofExcept (d.releaseKey E)
  Comp.onError (Comp.ofExcept (E.verifyStrict verifyingKey bytes artifactSig)) fun e => do
    d.rejectArtifact E tempPath .PayloadSignatureFail (jsonObject [("reason", .str e)])
    return .Signature s!"Artifact Ed25519 verification failed: {e}"

/-- Put the verified staging file in its place. -/
def deploy (version : String) (tempPath finalPath : UnixPath) : M UnixPath := do
  Comp.onError (fs.rename tempPath finalPath) fun e => do
    Comp.ignore (fs.removeFile tempPath)
    return .Permission s!"Atomic rename failed: {e.display}"
  emit (.deployed version)
  recordSuccess
  return finalPath

/-- A download from its request on. -/
def fetchArtifact (version : String) (tempPath finalPath : UnixPath) (artifact : ArtifactEntry)
    (token : String) : M UnixPath := do
  let bytes ← Comp.onError (d.requestArtifact E artifact.url token) fun e => do
    Comp.ignore (fs.removeFile tempPath)
    d.recordFailure E
    return e
  stage tempPath bytes
  d.verifyStaged E artifact tempPath bytes
  deploy version tempPath finalPath

theorem downloadAndVerifyArtifact_eq (manifest : SynqroManifest) (stagingDir : UnixPath) :
    d.downloadAndVerifyArtifact E manifest stagingDir =
      d.prepareDownload E manifest >>= fun prepared =>
        d.fetchArtifact E manifest.version
          (stagingDir.join (.ofString s!"synqro_staging_{prepared.1.platform}.tmp"))
          (stagingDir.join (.ofString s!"synqro_{prepared.1.platform}.bin")) prepared.1
            prepared.2 := by
  simp only [downloadAndVerifyArtifact, prepareDownload, fetchArtifact, stage, verifyStaged, deploy,
    bind_assoc, pure_bind]

end

end SynqroDownloader

/-! ## Cleaning up -/

/-- No file is left at the path. -/
def World.Clean (p : UnixPath) (w : World) : Prop :=
  ∀ bytes mode, w.nodeAt p ≠ some (.file bytes mode)

/-- There is no file at the path, or its removal does not fail. -/
def World.Removable (p : UnixPath) (w : World) : Prop := w.Quiet ∨ w.Clean p

/-- A failed attempt was counted. -/
structure World.Counted (w w' : World) : Prop where
  latch : w'.latch = w.latch.failed
  marks : marks w'.trace = marks w.trace ++ [.attempt false]
  same : SameFiles w w'

/-- A failed attempt was counted, and the file at the path removed if it could be. -/
structure World.GivenUp (p : UnixPath) (w w' : World) : Prop where
  latch : w'.latch = w.latch.failed
  marks : marks w'.trace = marks w.trace ++ [.attempt false]
  clean : w'.Clean p ↔ w.Removable p

section
variable {p : UnixPath} {w w' : World}

theorem World.Clean.congr (hfiles : w'.files = w.files) (hprocess : w'.process = w.process) :
    w'.Clean p ↔ w.Clean p := by
  have hnode : w'.nodeAt p = w.nodeAt p := by
    unfold World.nodeAt World.locate
    rw [hfiles, hprocess]
  unfold World.Clean
  rw [hnode]

/-- A removal that failed left everything, for a fault or for want of a file. -/
theorem removeFile_error {e : IoError} (h : fs.removeFile p w = .error e w') :
    w' = w.tick ∧ (¬ w.Quiet ∨ w.Clean p) := by
  rcases call_error.1 h with ⟨f, hf, -, rfl⟩ | ⟨-, h⟩
  · refine ⟨rfl, .inl fun hq => ?_⟩
    cases hf.symm.trans hq
  obtain ⟨t, ht, rfl⟩ := onFiles_error.1 h
  rcases Comp.bind_error.1 ht with ht | ⟨l, t₁, hl, ht⟩
  · -- the path leads nowhere
    unfold Comp.query at ht
    split at ht
    · cases ht
    · next e' hlocate =>
      cases ht
      refine ⟨rfl, .inr fun bytes mode hnode => ?_⟩
      have hlocate' : w.locate p = .error e := hlocate
      rw [World.nodeAt, hlocate'] at hnode
      cases hnode
  · -- no file stands there
    obtain ⟨hlocate, rfl⟩ := Comp.query_ok.1 hl
    unfold Comp.update at ht
    split at ht
    · cases ht
    · next e' hunlink =>
      cases ht
      refine ⟨rfl, .inr fun bytes mode hnode => ?_⟩
      have hlocate' : w.locate p = .ok l := hlocate
      rw [World.nodeAt, hlocate'] at hnode
      have hfile : w.tick.files.get l = some (.file bytes mode) := hnode
      have hunlink' : w.tick.files.unlink l = .error e := hunlink
      unfold FileTree.unlink at hunlink'
      rw [hfile] at hunlink'
      cases hunlink'

/-- A removal cleans up unless it fails with a file there. -/
theorem removeFile_clean (p : UnixPath) (w : World) :
    (Comp.after (fs.removeFile p) w).Clean p ↔ w.Removable p := by
  unfold Comp.after
  cases h : fs.removeFile p w with
  | ok u w' =>
    obtain ⟨hq, l, t, hl, hunlink, rfl⟩ := fs.removeFile_ok.1 h
    refine ⟨fun _ => .inl hq, fun _ bytes mode hnode => ?_⟩
    have hl' : (w.tick.setFiles t).locate p = .ok l :=
      (UnixPath.locateFile_sameDirs (FileTree.unlink_sameDirs hunlink) _ p).trans hl
    rw [Comp.final_ok, World.nodeAt, hl'] at hnode
    cases (FileTree.unlink_ok hunlink).2.1.symm.trans hnode
  | error e w' =>
    obtain ⟨rfl, hwhy⟩ := removeFile_error h
    have hsame : w.tick.Clean p ↔ w.Clean p := World.Clean.congr rfl rfl
    rw [Comp.final_error, hsame, World.Removable]
    tauto

namespace SynqroDownloader

variable {E : Externals} {d : SynqroDownloader}

theorem recordFailure_counted (d : SynqroDownloader) (w : World) :
    ∃ w', d.recordFailure E w = .ok () w' ∧ w.Counted w' := by
  let l : Latch := { w.latch with consecutiveFailures := w.latch.consecutiveFailures + 1 }
  let w₁ : World := (w.setLatch l).emit (.attempted false)
  have hmarks : marks w₁.trace = marks w.trace ++ [.attempt false] := marks_append _ _
  have hrun : d.recordFailure E w = (if 5 ≤ saturatingSucc w.latch.consecutiveFailures then do
      modify fun w => w.setLatch { w.latch with degradedMode := true }
      Comp.ignore <| d.audit.log E .DegradedModeEntered <| jsonObject
        [("consecutive_failures", jsonU32 (saturatingSucc w.latch.consecutiveFailures))]
    else pure () : M Unit) w₁ := rfl
  rw [hrun]
  split
  · next hmany =>
    let w₂ : World := w₁.setLatch { w₁.latch with degradedMode := true }
    let x : M Unit := d.audit.log E .DegradedModeEntered (jsonObject
      [("consecutive_failures", jsonU32 (saturatingSucc w.latch.consecutiveFailures))])
    have haside := AuditLogger.log_aside E d.audit .DegradedModeEntered (jsonObject
      [("consecutive_failures", jsonU32 (saturatingSucc w.latch.consecutiveFailures))]) w₂
    have hsame := AuditLogger.log_sameFiles E d.audit .DegradedModeEntered (jsonObject
      [("consecutive_failures", jsonU32 (saturatingSucc w.latch.consecutiveFailures))]) w₂
    refine ⟨Comp.after x w₂, Comp.bind_ok.2 ⟨(), w₂, rfl, Comp.ignore_ok.2 rfl⟩, ?_, ?_, ?_⟩
    · rw [haside.latch]
      simp [w₂, w₁, l, Latch.failed, hmany]
    · rw [haside.marks]
      exact hmarks
    · exact ⟨hsame.files, hsame.process, hsame.env⟩
  · next hfew =>
    refine ⟨w₁, rfl, ?_, hmarks, ⟨rfl, rfl, rfl⟩⟩
    simp [w₁, l, Latch.failed, hfew]

/-- The end of an attempt that is given up: a removal, steps aside, and the count. -/
theorem givenUp {w₁ w₂ w₃ : World} (hremove : Comp.after (fs.removeFile p) w = w₁)
    (haside : Aside w₁ w₂) (hsame : SameFiles w₁ w₂) (hcounted : w₂.Counted w₃) :
    w.GivenUp p w₃ := by
  have hfirst := removeFile_aside (p := p) w
  rw [hremove] at hfirst
  refine ⟨?_, ?_, ?_⟩
  · rw [hcounted.latch, haside.latch, hfirst.latch]
  · rw [hcounted.marks, haside.marks, hfirst.marks]
  · rw [← removeFile_clean p w, hremove]
    exact World.Clean.congr (hcounted.same.files.trans hsame.files)
      (hcounted.same.process.trans hsame.process)

theorem rejectArtifact_givenUp (event : AuditEvent) (data : Json) :
    ∃ w', d.rejectArtifact E p event data w = .ok () w' ∧ w.GivenUp p w' := by
  let w₁ := Comp.after (fs.removeFile p) w
  let w₂ := Comp.after (d.audit.log E event data) w₁
  obtain ⟨w₃, hrun, hcounted⟩ := recordFailure_counted (E := E) d w₂
  refine ⟨w₃, Comp.bind_ok.2 ⟨(), w₁, Comp.ignore_ok.2 rfl, Comp.bind_ok.2 ⟨(), w₂,
    Comp.ignore_ok.2 rfl, hrun⟩⟩, ?_⟩
  exact givenUp rfl (AuditLogger.log_aside E d.audit event data w₁)
    (AuditLogger.log_sameFiles E d.audit event data w₁) hcounted

/-- What fails a response is given up. -/
theorem response_givenUp {v : World} {x : M Bytes} {e e₀ : SynqroError}
    (hx : x w = .error e₀ v)
    (h : Comp.onError x (fun e => do
      Comp.ignore (fs.removeFile p)
      d.recordFailure E
      return e) w = .error e w') : v.GivenUp p w' := by
  obtain ⟨e₁, t, hx', hafter⟩ := Comp.onError_error h
  obtain ⟨rfl, rfl⟩ : e₀ = e₁ ∧ v = t := by
    rw [hx] at hx'
    cases hx'
    exact ⟨rfl, rfl⟩
  obtain ⟨w₃, hrun, hcounted⟩ :=
    recordFailure_counted (E := E) d (Comp.after (fs.removeFile p) v)
  have hok : (do
      Comp.ignore (fs.removeFile p)
      d.recordFailure E
      return e₀ : M SynqroError) v = .ok e₀ w₃ :=
    Comp.bind_ok.2 ⟨(), _, Comp.ignore_ok.2 rfl, Comp.bind_ok.2 ⟨(), w₃, hrun, rfl⟩⟩
  have hafter' : w₃ = w' := by
    rw [← hafter, Comp.after, hok]
    rfl
  subst hafter'
  exact givenUp rfl (refl _) (refl _) hcounted

/-! ### The exits -/

/-- The digests of the bytes are the artifact's. -/
def DigestsMatch (E : Externals) (artifact : ArtifactEntry) (bytes : Bytes) : Prop :=
  hexEncode (E.sha256 bytes) = artifact.sha256 ∧ hexEncode (E.sha512 bytes) = artifact.sha512

/-- The exits of a download from its request on that remove the staging file and count the failure,
each with the world in which the removal is made. -/
inductive CountedExit (E : Externals) (d : SynqroDownloader) (tempPath : UnixPath)
    (artifact : ArtifactEntry) (token : String) (w : World) : World → Prop where
  /-- No response, a bad status, a broken stream or too many bytes. -/
  | response {e : SynqroError} {v : World} :
    d.requestArtifact E artifact.url token w = .error e v →
      CountedExit E d tempPath artifact token w v
  /-- The staged bytes have another digest. -/
  | digest {bytes : Bytes} {v₁ v : World} :
    d.requestArtifact E artifact.url token w = .ok bytes v₁ →
    stage tempPath bytes v₁ = .ok () v → ¬ DigestsMatch E artifact bytes →
    CountedExit E d tempPath artifact token w v
  /-- The signature does not verify. -/
  | verification {bytes key sig : Bytes} {message : String} {v₁ v₂ v : World} :
    d.requestArtifact E artifact.url token w = .ok bytes v₁ →
    stage tempPath bytes v₁ = .ok () v₂ → DigestsMatch E artifact bytes →
    v = Comp.after (d.audit.log E .PayloadHashOk (jsonObject [])) v₂ →
    signature E "Artifact" artifact.sigEd25519 = .ok sig → d.releaseKey E = .ok key →
    E.verifyStrict key bytes sig = .error message → CountedExit E d tempPath artifact token w v

/-- A download takes one counted exit at most. -/
theorem CountedExit.unique {tempPath : UnixPath} {artifact : ArtifactEntry} {token : String}
    {w v v' : World} (h : CountedExit E d tempPath artifact token w v)
    (h' : CountedExit E d tempPath artifact token w v') : v = v' := by
  cases h with
  | response h => cases h' with
    | response h' => cases h.symm.trans h'; rfl
    | digest h' => cases h.symm.trans h'
    | verification h' => cases h.symm.trans h'
  | digest h hs hd => cases h' with
    | response h' => cases h.symm.trans h'
    | digest h' hs' => cases h.symm.trans h'; cases hs.symm.trans hs'; rfl
    | verification h' hs' hd' => cases h.symm.trans h'; exact absurd hd' hd
  | verification h hs hd hv => cases h' with
    | response h' => cases h.symm.trans h'
    | digest h' hs' hd' => cases h.symm.trans h'; exact absurd hd hd'
    | verification h' hs' _ hv' => cases h.symm.trans h'; cases hs.symm.trans hs'; rw [hv, hv']

/-- A request was sent, and no attempt ended. -/
structure Sent (w w' : World) : Prop where
  latch : w'.latch = w.latch
  marks : marks w'.trace = marks w.trace ++ [.request]

theorem Sent.aside {w v w' : World} (h : Sent w v) (h' : Aside v w') : Sent w w' :=
  ⟨h'.latch.trans h.latch, h'.marks.trans h.marks⟩

theorem checkDegraded_aside : Comp.Respects Aside checkDegraded :=
  .bind .get fun _ => failIf_aside _

theorem loadTokenForRequest_aside : Comp.Respects Aside (d.loadTokenForRequest E) := by
  refine .bind (.onError (fun w => ?_) fun e => ?_) fun _ => .ofExcept _
  · unfold Comp.after loadSecret
    split <;> exact ⟨rfl, rfl⟩
  · exact .bind (.ignore (AuditLogger.log_aside E d.audit _ _)) fun _ => .pure _

theorem prepareDownload_aside (manifest : SynqroManifest) :
    Comp.Respects Aside (d.prepareDownload E manifest) :=
  .bind checkDegraded_aside fun _ => .bind (.ofExcept _) fun _ =>
    .bind loadTokenForRequest_aside fun _ => .bind (failIf_aside _) fun _ =>
      .bind (.mapErr _ bareCall_aside) fun _ => .pure _

/-- The artifact is one for this platform. -/
theorem prepareDownload_platform {manifest : SynqroManifest} {artifact : ArtifactEntry}
    {token : String} (h : d.prepareDownload E manifest w = .ok (artifact, token) w') :
    artifact.platform = currentPlatformTriple E := by
  obtain ⟨_, _, -, h⟩ := Comp.bind_ok.1 h
  obtain ⟨found, w₁, hfind, h⟩ := Comp.bind_ok.1 h
  obtain ⟨token', _, -, h⟩ := Comp.bind_ok.1 h
  obtain ⟨_, _, -, h⟩ := Comp.bind_ok.1 h
  obtain ⟨_, _, -, h⟩ := Comp.bind_ok.1 h
  cases h
  simpa using List.find?_some (require_ok.1 hfind).1

/-- A download that is prepared goes on with its request. -/
theorem downloadAndVerifyArtifact_prepared {manifest : SynqroManifest} {stagingDir : UnixPath}
    {artifact : ArtifactEntry} {token : String}
    (h : d.prepareDownload E manifest w = .ok (artifact, token) w') :
    d.downloadAndVerifyArtifact E manifest stagingDir w = d.fetchArtifact E manifest.version
      (stagingPath E stagingDir) (deployedPath E stagingDir) artifact token w' := by
  rw [downloadAndVerifyArtifact_eq, Comp.bind_run, h]
  dsimp only
  rw [prepareDownload_platform h]
  rfl

/-- What starts with a request and only reads its reply sends one. -/
theorem send_bind_sent {f : String → SynqroError} {request : Request} {α : Type}
    {rest : Nat × Option String × List (Except String Bytes) → M α}
    (hrest : ∀ reply, Comp.Respects Aside (rest reply)) (w : World) :
    Sent w (Comp.after (Comp.mapErr f (send request) >>= rest) w) := by
  have hsend : Sent w (Comp.after (Comp.mapErr f (send request)) w) := by
    have hmarks : marks (w.tick.emit (.requested request)).trace = marks w.trace ++ [.request] :=
      marks_append _ _
    rw [Comp.after_mapErr]
    unfold Comp.after send
    dsimp only
    split <;> exact ⟨rfl, hmarks⟩
  cases h : Comp.mapErr f (send request) w with
  | ok reply v =>
    rw [Comp.after, h] at hsend
    rw [Comp.after_bind_ok h]
    exact hsend.aside (hrest reply v)
  | error e v =>
    rw [Comp.after, h] at hsend
    rwa [Comp.after_bind_error h]

/-- The response is that to one request. -/
theorem requestArtifact_sent (url token : String) (w : World) :
    Sent w (Comp.after (d.requestArtifact E url token) w) :=
  send_bind_sent (fun _ => .bind (failIf_aside _) fun _ => .ofExcept _) w

theorem stage_aside (tempPath : UnixPath) (bytes : Bytes) :
    Comp.Respects Aside (stage tempPath bytes) :=
  .bind (.mapErr _ create_aside) fun _ => .bind (.mapErr _ (writeAll_aside _ _)) fun _ =>
    .mapErr _ bareCall_aside

/-- A digest check that failed gave the artifact up. -/
theorem checkDigest_error {tempPath : UnixPath} {algorithm actual expected : String}
    {e : SynqroError} (h : d.checkDigest E tempPath algorithm actual expected w = .error e w') :
    actual ≠ expected ∧ w.GivenUp tempPath w' := by
  unfold checkDigest at h
  split at h
  · next hne =>
    obtain ⟨v, hv, hgiven⟩ := rejectArtifact_givenUp (E := E) (d := d) (p := tempPath) (w := w)
      .PayloadHashFail (jsonObject [("algorithm", .str algorithm), ("expected", .str expected),
        ("actual", .str actual)])
    rw [Comp.bind_run, hv] at h
    cases h
    exact ⟨hne, hgiven⟩
  · cases h

/-- The exits of the checks of the staged bytes. -/
theorem verifyStaged_error {tempPath : UnixPath} {artifact : ArtifactEntry} {bytes : Bytes}
    {e : SynqroError} (h : d.verifyStaged E artifact tempPath bytes w = .error e w') :
    (¬ DigestsMatch E artifact bytes ∧ w.GivenUp tempPath w') ∨
    (DigestsMatch E artifact bytes ∧ (∃ sig key message,
        signature E "Artifact" artifact.sigEd25519 = .ok sig ∧ d.releaseKey E = .ok key ∧
        E.verifyStrict key bytes sig = .error message) ∧
      (Comp.after (d.audit.log E .PayloadHashOk (jsonObject [])) w).GivenUp tempPath w') ∨
    (DigestsMatch E artifact bytes ∧ (¬ ∃ sig key message,
        signature E "Artifact" artifact.sigEd25519 = .ok sig ∧ d.releaseKey E = .ok key ∧
        E.verifyStrict key bytes sig = .error message) ∧ Aside w w') := by
  have hlog := AuditLogger.log_aside E d.audit .PayloadHashOk (jsonObject []) w
  rcases Comp.bind_error.1 h with h₁ | ⟨_, w₁, h256, h₁⟩
  · obtain ⟨hne, hgiven⟩ := checkDigest_error h₁
    exact .inl ⟨fun hm => hne hm.1, hgiven⟩
  obtain ⟨hd256, hw₁⟩ := checkDigest_ok.1 h256
  rw [hw₁] at h₁
  rcases Comp.bind_error.1 h₁ with h₂ | ⟨_, w₂, h512, h₂⟩
  · obtain ⟨hne, hgiven⟩ := checkDigest_error h₂
    exact .inl ⟨fun hm => hne hm.2, hgiven⟩
  obtain ⟨hd512, hw₂⟩ := checkDigest_ok.1 h512
  rw [hw₂] at h₂
  have hdigests : DigestsMatch E artifact bytes := ⟨hd256, hd512⟩
  rcases Comp.bind_error.1 h₂ with h₃ | ⟨_, w₃, hlogged, h₃⟩
  · exact absurd h₃ Comp.ignore_ne_error
  rw [Comp.ignore_ok.1 hlogged] at h₃
  have hofExcept {α ε : Type} {r : Except ε α} {e : ε} {v v' : World}
      (h : (Comp.ofExcept r : Comp World ε α) v = .error e v') : r = .error e ∧ v' = v := by
    cases r <;> cases h
    exact ⟨rfl, rfl⟩
  rcases Comp.bind_error.1 h₃ with h₄ | ⟨sig, w₄, hsig, h₄⟩
  · obtain ⟨hfail, rfl⟩ := hofExcept h₄
    refine .inr (.inr ⟨hdigests, ?_, hlog⟩)
    rintro ⟨sig, -, -, hsig', -⟩
    cases hfail.symm.trans hsig'
  obtain ⟨hsigOk, rfl⟩ := Comp.ofExcept_ok.1 hsig
  rcases Comp.bind_error.1 h₄ with h₅ | ⟨key, w₅, hkey, h₅⟩
  · obtain ⟨hfail, rfl⟩ := hofExcept h₅
    refine .inr (.inr ⟨hdigests, ?_, hlog⟩)
    rintro ⟨-, key, -, -, hkey', -⟩
    cases hfail.symm.trans hkey'
  obtain ⟨hkeyOk, rfl⟩ := Comp.ofExcept_ok.1 hkey
  obtain ⟨message, t, hverify, hafter⟩ := Comp.onError_error h₅
  obtain ⟨hrefused, rfl⟩ := hofExcept hverify
  obtain ⟨v, hv, hgiven⟩ := rejectArtifact_givenUp (E := E) (d := d) (p := tempPath)
    (w := Comp.after (d.audit.log E .PayloadHashOk (jsonObject [])) w) .PayloadSignatureFail
    (jsonObject [("reason", .str message)])
  have hv' : v = w' := by
    rw [← hafter, Comp.after_bind_ok hv]
    rfl
  subst hv'
  exact .inr (.inl ⟨hdigests, ⟨sig, key, message, hsigOk, hkeyOk, hrefused⟩, hgiven⟩)

/-- Checks that passed found the digests and a signature that verifies. -/
theorem verifyStaged_ok {tempPath : UnixPath} {artifact : ArtifactEntry} {bytes : Bytes}
    (h : d.verifyStaged E artifact tempPath bytes w = .ok () w') :
    DigestsMatch E artifact bytes ∧ (¬ ∃ sig key message,
        signature E "Artifact" artifact.sigEd25519 = .ok sig ∧ d.releaseKey E = .ok key ∧
        E.verifyStrict key bytes sig = .error message) ∧ Aside w w' := by
  simp only [verifyStaged, Comp.bind_ok, checkDigest_ok, Comp.ignore_ok, Comp.ofExcept_ok,
    Comp.onError_ok] at h
  obtain ⟨_, _, ⟨h256, rfl⟩, _, _, ⟨h512, rfl⟩, _, _, rfl, sig, _, ⟨hsig, rfl⟩, key, _, ⟨hkey, rfl⟩,
    hverify, rfl⟩ := h
  refine ⟨⟨h256, h512⟩, ?_, AuditLogger.log_aside E d.audit .PayloadHashOk (jsonObject []) _⟩
  rintro ⟨sig', key', message, hsig', hkey', hverify'⟩
  cases hsig.symm.trans hsig'
  cases hkey.symm.trans hkey'
  cases hverify.symm.trans hverify'

/-- A rename that failed is not counted. -/
theorem deploy_error {version : String} {tempPath finalPath : UnixPath} {e : SynqroError}
    (h : deploy version tempPath finalPath w = .error e w') : Aside w w' := by
  rcases Comp.bind_error.1 h with h | ⟨_, _, -, h⟩
  · obtain ⟨e₀, t, hrename, rfl⟩ := Comp.onError_error h
    rw [rename_error hrename]
    exact IsTrans.trans _ _ _ (Aside.tick w)
      (Comp.Respects.bind (.ignore removeFile_aside) (fun _ => .pure _) w.tick)
  · cases h

/-- **The exits of a download from its request on.** A failed one was counted once, and cleaned up
where the removal at its exit worked; or it took none of the counted exits, and was not counted. -/
theorem fetchArtifact_error {version : String} {tempPath finalPath : UnixPath}
    {artifact : ArtifactEntry} {token : String} {e : SynqroError}
    (h : d.fetchArtifact E version tempPath finalPath artifact token w = .error e w') :
    (∃ v, CountedExit E d tempPath artifact token w v ∧ Sent w v ∧ v.GivenUp tempPath w') ∨
      (∀ v, ¬ CountedExit E d tempPath artifact token w v) ∧ Sent w w' := by
  have hsent := requestArtifact_sent (E := E) (d := d) artifact.url token w
  rcases Comp.bind_error.1 h with hresponse | ⟨bytes, w₁, hreceived, h⟩
  · -- the response
    obtain ⟨e₀, v, hfail, -⟩ := Comp.onError_error hresponse
    rw [Comp.after, hfail] at hsent
    exact .inl ⟨v, .response hfail, hsent, response_givenUp hfail hresponse⟩
  have hreceived := Comp.onError_ok.1 hreceived
  rw [Comp.after, hreceived] at hsent
  rcases Comp.bind_error.1 h with hstage | ⟨_, w₂, hstage, h⟩
  · -- the staging file cannot be written
    have haside := (stage_aside tempPath bytes).error hstage
    refine .inr ⟨fun v hv => ?_, hsent.aside haside⟩
    cases hv with
    | response h' => cases hreceived.symm.trans h'
    | digest h' hs => cases hreceived.symm.trans h'; cases hstage.symm.trans hs
    | verification h' hs => cases hreceived.symm.trans h'; cases hstage.symm.trans hs
  have hsent₂ := hsent.aside ((stage_aside tempPath bytes).ok hstage)
  -- what is left to count after the digests and the verification
  have huncounted (hd : DigestsMatch E artifact bytes) (hv : ¬ ∃ sig key message,
      signature E "Artifact" artifact.sigEd25519 = .ok sig ∧ d.releaseKey E = .ok key ∧
      E.verifyStrict key bytes sig = .error message) (v : World) :
      ¬ CountedExit E d tempPath artifact token w v := by
    intro hexit
    cases hexit with
    | response h' => cases hreceived.symm.trans h'
    | digest h' _ hd' => cases hreceived.symm.trans h'; exact hd' hd
    | verification h' _ _ _ hs hk hv' =>
      cases hreceived.symm.trans h'
      exact hv ⟨_, _, _, hs, hk, hv'⟩
  rcases Comp.bind_error.1 h with hverify | ⟨_, w₃, hverify, h⟩
  · rcases verifyStaged_error hverify with ⟨hd, hgiven⟩ | ⟨hd, hv, hgiven⟩ | ⟨hd, hv, haside⟩
    · exact .inl ⟨w₂, .digest hreceived hstage hd, hsent₂, hgiven⟩
    · obtain ⟨sig, key, message, hsig, hkey, hfail⟩ := hv
      exact .inl ⟨_, .verification hreceived hstage hd rfl hsig hkey hfail,
        hsent₂.aside (AuditLogger.log_aside E d.audit .PayloadHashOk (jsonObject []) w₂), hgiven⟩
    · exact .inr ⟨huncounted hd hv, hsent₂.aside haside⟩
  · obtain ⟨hd, hv, haside⟩ := verifyStaged_ok hverify
    exact .inr ⟨huncounted hd hv, (hsent₂.aside haside).aside (deploy_error h)⟩

/-- A download that returned succeeded once. -/
theorem fetchArtifact_ok {version : String} {tempPath finalPath q : UnixPath}
    {artifact : ArtifactEntry} {token : String}
    (h : d.fetchArtifact E version tempPath finalPath artifact token w = .ok q w') :
    w'.latch = { w.latch with consecutiveFailures := 0 } ∧
      marks w'.trace = marks w.trace ++ [.request, .attempt true] := by
  have hsent := requestArtifact_sent (E := E) (d := d) artifact.url token w
  obtain ⟨bytes, w₁, hreceived, h⟩ := Comp.bind_ok.1 h
  rw [Comp.after, Comp.onError_ok.1 hreceived] at hsent
  obtain ⟨_, w₂, hstage, h⟩ := Comp.bind_ok.1 h
  obtain ⟨_, w₃, hverify, h⟩ := Comp.bind_ok.1 h
  have hsent₃ := (hsent.aside ((stage_aside tempPath bytes).ok hstage)).aside
    (verifyStaged_ok hverify).2.2
  simp only [deploy, Comp.bind_ok, Comp.onError_ok, fs.rename_ok, emit_ok, Comp.pure_ok] at h
  obtain ⟨_, _, ⟨-, s, l, t, -, -, -, rfl⟩, _, _, rfl, _, w₄, hsuccess, -, rfl⟩ := h
  have hlast : w₄ = ((((w₃.tick.setFiles t).emit (.renamed s l (t.get l))).emit
      (.deployed version)).setLatch { w₃.latch with consecutiveFailures := 0 }).emit
      (.attempted true) := by
    cases hsuccess
    rfl
  rw [hlast]
  refine ⟨?_, ?_⟩
  · show { w₃.latch with consecutiveFailures := 0 } = _
    rw [hsent₃.latch]
  · simp only [World.emit_trace, World.setLatch_trace, World.setFiles_trace, World.tick_trace,
      marks_append, hsent₃.marks, List.append_assoc]
    rfl

/-! ### When nothing is left behind -/

/-- A failed download whose request was sent left no staging file and was counted once. -/
structure CleanedUp (E : Externals) (stagingDir : UnixPath) (w w' : World) : Prop where
  removed : w'.Clean (stagingPath E stagingDir)
  counted : w'.latch.consecutiveFailures = w.latch.consecutiveFailures + 1

/-- **When a failed download leaves nothing behind.** One that fails once its request has been sent
removes the staging file and is counted exactly once if and only if it fails at the response, at a
digest or at the verification of the signature, and no file is there to be removed or its removal
works. -/
theorem downloadAndVerifyArtifact_cleaned (E : Externals) (d : SynqroDownloader)
    (manifest : SynqroManifest) (stagingDir : UnixPath) (w w' : World) (e : SynqroError)
    (h : d.downloadAndVerifyArtifact E manifest stagingDir w = .error e w')
    (hrequest : requestCount w.trace < requestCount w'.trace) :
    CleanedUp E stagingDir w w' ↔
      ∃ artifact token w₀ v, d.prepareDownload E manifest w = .ok (artifact, token) w₀ ∧
        CountedExit E d (stagingPath E stagingDir) artifact token w₀ v ∧
        v.Removable (stagingPath E stagingDir) := by
  have haside := prepareDownload_aside (E := E) (d := d) manifest
  have hdownload := h
  rw [downloadAndVerifyArtifact_eq] at hdownload
  rcases Comp.bind_error.1 hdownload with hfail | ⟨⟨artifact, token⟩, w₀, hprepare, -⟩
  · -- no request was sent
    have hmarks := (haside.error hfail).marks
    rw [requestCount_eq, requestCount_eq, hmarks] at hrequest
    exact absurd hrequest (lt_irrefl _)
  have hbefore := haside.ok hprepare
  rw [downloadAndVerifyArtifact_prepared hprepare] at h
  rcases fetchArtifact_error h with ⟨v, hexit, hsent, hgiven⟩ | ⟨hnone, hsent⟩
  · have hcount : w'.latch.consecutiveFailures = w.latch.consecutiveFailures + 1 := by
      rw [hgiven.latch, hsent.latch, hbefore.latch]
      rfl
    constructor
    · intro hc
      exact ⟨artifact, token, w₀, v, hprepare, hexit, hgiven.clean.1 hc.removed⟩
    · rintro ⟨artifact', token', w₀', v', hprepare', hexit', hremovable⟩
      cases hprepare.symm.trans hprepare'
      obtain rfl := hexit.unique hexit'
      exact ⟨hgiven.clean.2 hremovable, hcount⟩
  · constructor
    · intro hc
      have hsame : w'.latch.consecutiveFailures = w.latch.consecutiveFailures := by
        rw [hsent.latch, hbefore.latch]
      have := hc.counted
      rw [hsame] at this
      simp at this
    · rintro ⟨artifact', token', w₀', v', hprepare', hexit', -⟩
      cases hprepare.symm.trans hprepare'
      exact absurd hexit' (hnone v')

end SynqroDownloader

end

/-! ## Two failed downloads -/

/-- The failed run of a computation. -/
theorem failed_of_returned {α : Type} {x : M α} {w : World} (h : Comp.returned (x w) = false) :
    ∃ e, x w = .error e (Comp.after x w) := by
  unfold Comp.after
  cases hx : x w with
  | ok a w' => rw [hx] at h; cases h
  | error e w' => exact ⟨e, rfl⟩

/-- Without a server the request is the last step, and the failure is counted. -/
theorem SynqroDownloader.downloadAndVerifyArtifact_cleaned_offline : ∃ e w',
    releaseClient.downloadAndVerifyArtifact .release releaseManifest (.ofString "/") installed =
        .error e w' ∧
      SynqroDownloader.CleanedUp .release (.ofString "/") installed w' := by
  obtain ⟨e, h⟩ := failed_of_returned (x := releaseClient.downloadAndVerifyArtifact .release
    releaseManifest (.ofString "/")) (w := installed) (by decide +kernel)
  have hprepare : releaseClient.prepareDownload .release releaseManifest installed =
      .ok (releaseArtifact, "token") installed.tick.tick := rfl
  have hresponse : releaseClient.requestArtifact .release releaseArtifact.url "token"
      installed.tick.tick = .error (.Network "Artifact download failed: connection refused")
        (Comp.after (releaseClient.requestArtifact .release releaseArtifact.url "token")
          installed.tick.tick) := rfl
  refine ⟨e, _, h, (downloadAndVerifyArtifact_cleaned .release releaseClient releaseManifest
    (.ofString "/") installed _ e h (by decide +kernel)).2 ?_⟩
  exact ⟨_, _, _, _, hprepare, .response hresponse, .inl rfl⟩

/-- A manifest whose artifact has a signature that is no Base64. -/
def malformedManifest : SynqroManifest :=
  { releaseManifest with artifacts := [{ releaseArtifact with sigEd25519 := "!" }] }

/-- The artifact arrives, its signature does not decode, and the failure is not counted. -/
theorem SynqroDownloader.downloadAndVerifyArtifact_left_malformed : ∃ e w',
    releaseClient.downloadAndVerifyArtifact .release malformedManifest
      (.ofString "/") artifactServed =
        .error e w' ∧
      requestCount artifactServed.trace < requestCount w'.trace ∧
      ¬ SynqroDownloader.CleanedUp .release (.ofString "/") artifactServed w' := by
  obtain ⟨e, h⟩ := failed_of_returned (x := releaseClient.downloadAndVerifyArtifact .release
    malformedManifest (.ofString "/")) (w := artifactServed) (by decide +kernel)
  refine ⟨e, _, h, by decide +kernel, fun hc => ?_⟩
  exact absurd hc.counted (by decide +kernel)

end Synqro
