import Synqro.Effects
import Synqro.Server

/-!
# The artifact that is deployed was verified

`SynqroDownloader.downloadAndVerifyArtifact` writes what it received to a staging file, verifies it
and renames the staging file over the deployed one. `World.Touches p` is the frame of the steps
before the rename: no file but the one at `p` changes.
`SynqroDownloader.downloadAndVerifyArtifact_verified` says what a download that returned has put in
place, and that one that failed, at whichever step, left what stood there.
-/

namespace Synqro

/-- What stands where the path leads. -/
def World.nodeAt (p : UnixPath) (w : World) : Option Node :=
  match w.locate p with
  | .ok l => w.files.get l
  | .error _ => none

/-- The deployed artifact of this platform. -/
def deployedPath (E : Externals) (stagingDir : UnixPath) : UnixPath :=
  stagingDir.join (.ofString s!"synqro_{currentPlatformTriple E}.bin")

/-- The file that the artifact is downloaded to. -/
def stagingPath (E : Externals) (stagingDir : UnixPath) : UnixPath :=
  stagingDir.join (.ofString s!"synqro_staging_{currentPlatformTriple E}.tmp")

/-- No file but the one at `p` changed, and no directory. -/
structure World.Touches (p : UnixPath) (w w' : World) : Prop where
  process : w'.process = w.process
  files : w.files.ChangesOnly (fun l => w.locate p = .ok l) w'.files

namespace World.Touches

variable {p : UnixPath} {w w' : World}

/-- Every path leads to where it led. -/
theorem locate (h : Touches p w w') (q : UnixPath) : w'.locate q = w.locate q := by
  rw [World.locate, h.process]
  exact UnixPath.locateFile_sameDirs h.files.1 _ q

/-- Two such changes in a row are one. -/
theorem trans {w₁ w₂ w₃ : World} (h : Touches p w₁ w₂) (h' : Touches p w₂ w₃) :
    Touches p w₁ w₃ := by
  refine ⟨h'.process.trans h.process, IsTrans.trans _ _ _ h.files ?_⟩
  have hfiles := h'.files
  simpa only [h.locate] using hfiles

instance : Std.Refl (Touches p) := ⟨fun _ => ⟨rfl, refl _⟩⟩
instance : IsTrans World (Touches p) := ⟨fun _ _ _ => trans⟩

/-- What leaves the files alone touches none. -/
theorem of_sameFiles (h : World.SameFiles w w') : Touches p w w' :=
  ⟨h.process, by rw [h.files]; exact refl _⟩

theorem tick (w : World) : Touches p w w.tick := of_sameFiles ⟨rfl, rfl, rfl⟩

/-- What stands at another path stays. -/
theorem nodeAt (h : Touches p w w') {q : UnixPath}
    (hq : ∀ l, w.locate q = .ok l → w.locate p ≠ .ok l) : w'.nodeAt q = w.nodeAt q := by
  unfold World.nodeAt
  rw [h.locate]
  cases hl : w.locate q with
  | ok l => exact h.files.2 l (hq l hl)
  | error e => rfl

end World.Touches

open World (Touches SameFiles)

/-! ## Steps that leave the files alone -/

section
variable {α ε : Type} {p : UnixPath}

theorem bareCall_sameFiles : Comp.Respects SameFiles bareCall :=
  call_sameFiles (.pure ()) fun _ => .pure ()

theorem emit_sameFiles (e : Effect) : Comp.Respects SameFiles (emit e : Comp World ε Unit) :=
  .modify fun _ => ⟨rfl, rfl, rfl⟩

/-- The keychain is not among the files. -/
theorem loadSecret_sameFiles (service account : String) :
    Comp.Respects SameFiles (loadSecret service account) := by
  intro w
  unfold Comp.after loadSecret
  split <;> exact ⟨rfl, rfl, rfl⟩

/-- Neither is the network. -/
theorem send_sameFiles (request : Request) : Comp.Respects SameFiles (send request) := by
  intro w
  unfold Comp.after send
  dsimp only
  split <;> exact ⟨rfl, rfl, rfl⟩

theorem failIf_sameFiles {c : Prop} [Decidable c] (e : SynqroError) :
    Comp.Respects SameFiles (failIf c e) := by
  unfold failIf
  split
  · exact .throw _
  · exact .pure _

namespace SynqroDownloader

variable {E : Externals} (d : SynqroDownloader)

theorem checkDegraded_sameFiles : Comp.Respects SameFiles checkDegraded :=
  .bind .get fun _ => failIf_sameFiles _

/-- Loading the token leaves the files alone. -/
theorem loadTokenForRequest_sameFiles : Comp.Respects SameFiles (d.loadTokenForRequest E) := by
  refine .bind (.onError (loadSecret_sameFiles _ _) fun e => ?_) fun _ => .ofExcept _
  exact .bind (.ignore (AuditLogger.log_sameFiles E d.audit _ _)) fun _ => .pure _

theorem requestArtifact_sameFiles (url token : String) :
    Comp.Respects SameFiles (d.requestArtifact E url token) :=
  .bind (.mapErr _ (send_sameFiles _)) fun _ => .bind (failIf_sameFiles _) fun _ => .ofExcept _

/-- Recording a failure leaves the files alone: at most it logs the latch. -/
theorem recordFailure_sameFiles : Comp.Respects SameFiles (d.recordFailure E) := by
  refine .bind .get fun w => .bind (.modify fun _ => ⟨rfl, rfl, rfl⟩) fun _ => ?_
  refine .bind (emit_sameFiles _) fun _ => ?_
  dsimp only
  split
  · exact .bind (.modify fun _ => ⟨rfl, rfl, rfl⟩) fun _ =>
      .ignore (AuditLogger.log_sameFiles E d.audit _ _)
  · exact .pure _

end SynqroDownloader

/-! ## Steps on the staging file -/

/-- A call touches only what its work touches, whole or cut short. -/
theorem call_touches {work : Comp World IoError α} {partly : Nat → Comp World IoError Unit}
    (hw : Comp.Respects (Touches p) work) (hp : ∀ n, Comp.Respects (Touches p) (partly n)) :
    Comp.Respects (Touches p) (call work partly) := by
  intro w
  unfold Comp.after call
  split
  · next f _ => exact (Touches.tick w).trans (hp f.done w.tick)
  · exact (Touches.tick w).trans (hw w.tick)

/-- An operation on the tree that changes only the place of the path touches the path. -/
theorem onFiles_touches {step : World → Comp FileTree IoError α}
    (h : ∀ w, Comp.Respects (FileTree.ChangesOnly fun l => w.locate p = .ok l) (step w)) :
    Comp.Respects (Touches p) (onFiles step) := by
  intro w
  have hstep := h w w.files
  unfold Comp.after at hstep
  unfold Comp.after onFiles
  cases hr : step w w.files <;> rw [hr] at hstep <;> exact ⟨rfl, hstep⟩

/-- Creating a file touches its path. -/
theorem create_touches : Comp.Respects (Touches p) (fs.create p) := by
  refine call_touches (onFiles_touches fun w t => ?_) fun _ => .pure ()
  refine Comp.after_bind (Comp.Respects.query _ t) fun l t₁ hl _ => ?_
  refine Comp.Respects.bind (.update fun _ _ h => ?_) (fun _ => .pure l) t₁
  exact FileTree.create_changesOnly (Comp.query_ok.1 hl).1 h

/-- A file that could not be created left the files alone. -/
theorem create_error {w w' : World} {e : IoError} (h : fs.create p w = .error e w') :
    SameFiles w w' := by
  rcases call_error.1 h with ⟨f, -, -, rfl⟩ | ⟨-, h⟩
  · exact ⟨rfl, rfl, rfl⟩
  unfold onFiles at h
  split at h
  · cases h
  · next t hstep =>
    cases h
    suffices hsame : t = w.tick.files from ⟨by rw [World.setFiles_files, hsame]; rfl, rfl, rfl⟩
    rcases Comp.bind_error.1 hstep with hlocate | ⟨l, _, hlocate, hcreate⟩
    · exact (Comp.query_error.1 hlocate).2.symm
    obtain ⟨-, rfl⟩ := Comp.query_ok.1 hlocate
    rcases Comp.bind_error.1 hcreate with hcreate | ⟨_, _, _, hpure⟩
    · exact (Comp.update_error.1 hcreate).2.symm
    · cases hpure

/-- No file can be written under a path that ends in `..`. -/
theorem write_parentDir {init : List Component} (hp : p.components = init ++ [.parentDir])
    (bytes : Bytes) (w : World) :
    ∃ e w', fs.write p bytes w = .error e w' ∧ SameFiles w w' := by
  have hcreate (l : Loc) (w' : World) : fs.create p w ≠ .ok l w' := by
    intro h
    obtain ⟨-, hl, t, hc, -⟩ := fs.create_ok.1 h
    exact (FileTree.create_ok hc).1.2.2 (UnixPath.dir_of_parentDir hp hl)
  cases h : fs.create p w with
  | ok l w' => exact absurd h (hcreate l w')
  | error e w' =>
    refine ⟨e, w', ?_, create_error h⟩
    rw [fs.write, Comp.bind_run, h]

/-- So does removing it. -/
theorem removeFile_touches : Comp.Respects (Touches p) (fs.removeFile p) := by
  refine call_touches (onFiles_touches fun w t => ?_) fun _ => .pure ()
  refine Comp.after_bind (Comp.Respects.query _ t) fun l t₁ hl _ => ?_
  exact Comp.Respects.update (R := FileTree.ChangesOnly fun l => w.locate p = .ok l)
    (fun _ _ h => FileTree.unlink_changesOnly (Comp.query_ok.1 hl).1 h) t₁

/-- A write to the open file that stands at the path. -/
theorem writeAll_touches {w : World} {file : Loc} (hl : w.locate p = .ok file) (bytes : Bytes) :
    Touches p w (Comp.after (fs.writeAll file bytes) w) := by
  have append (b : Bytes) : Touches p w.tick (Comp.after (onFiles fun _ =>
      (Comp.update (·.append file b) : Comp FileTree IoError Unit)) w.tick) := by
    unfold Comp.after onFiles Comp.update
    cases h : w.tick.files.append file b with
    | ok t =>
      simp only [h]
      exact ⟨rfl, FileTree.append_changesOnly hl h⟩
    | error e =>
      simp only [h]
      exact .of_sameFiles ⟨rfl, rfl, rfl⟩
  unfold fs.writeAll Comp.after call
  split
  · next f _ => exact (Touches.tick w).trans (append _)
  · exact (Touches.tick w).trans (append _)

/-- A rename that failed did nothing. -/
theorem rename_error {dst : UnixPath} {w w' : World} {e : IoError}
    (h : fs.rename p dst w = .error e w') : w' = w.tick := by
  rcases call_error.1 h with ⟨f, -, -, rfl⟩ | ⟨-, h⟩
  · rfl
  rcases Comp.bind_error.1 h with h | ⟨_, _, hget, h⟩
  · cases h
  cases hget
  have hofExcept {r : Except IoError Loc} {v v' : World} {e : IoError}
      (h : (Comp.ofExcept r : Comp World IoError Loc) v = .error e v') : v' = v := by
    cases r <;> cases h
    rfl
  rcases Comp.bind_error.1 h with h | ⟨s, _, hs, h⟩
  · exact hofExcept h
  obtain ⟨-, rfl⟩ := Comp.ofExcept_ok.1 hs
  rcases Comp.bind_error.1 h with h | ⟨d, _, hd, h⟩
  · exact hofExcept h
  obtain ⟨-, rfl⟩ := Comp.ofExcept_ok.1 hd
  rcases Comp.bind_error.1 h with h | ⟨_, _, -, h⟩
  · obtain ⟨t, ht, rfl⟩ := onFiles_error.1 h
    unfold Comp.update at ht
    split at ht
    · cases ht
    · cases ht
      rfl
  · cases h

/-! ## The download -/

namespace SynqroDownloader

variable {E : Externals} {d : SynqroDownloader} {w w' : World}

/-- Refusing an artifact touches its staged file only. -/
theorem rejectArtifact_touches (event : AuditEvent) (data : Json) :
    Comp.Respects (Touches p) (d.rejectArtifact E p event data) :=
  .bind (.ignore removeFile_touches) fun _ =>
    .bind (.ignore ((AuditLogger.log_sameFiles E d.audit _ _).mono fun _ _ =>
      .of_sameFiles)) fun _ =>
      (d.recordFailure_sameFiles).mono fun _ _ => .of_sameFiles

/-- A digest that does not match removes the staged file, one that does leaves it. -/
theorem checkDigest_touches (algorithm actual expected : String) :
    Comp.Respects (Touches p) (d.checkDigest E p algorithm actual expected) := by
  unfold checkDigest
  split
  · exact .bind (rejectArtifact_touches _ _) fun _ => .throw _
  · exact .pure _

/-- A digest that passed the check is the expected one. -/
theorem checkDigest_ok {algorithm actual expected : String} {u : Unit} :
    d.checkDigest E p algorithm actual expected w = .ok u w' ↔ actual = expected ∧ w' = w := by
  unfold checkDigest
  split
  · next hne =>
    refine ⟨fun h => ?_, fun h => absurd h.1 hne⟩
    obtain ⟨_, _, -, h⟩ := Comp.bind_ok.1 h
    cases h
  · next heq =>
    rw [Comp.pure_ok]
    simp [not_not.1 heq, eq_comm]

/-- Chunks that were collected are all of the response, within the cap. -/
theorem collectChunks_ok {maxBytes : UInt64} {buf bytes : Bytes}
    {chunks : List (Except String Bytes)} (h : collectChunks E maxBytes buf chunks = .ok bytes) :
    ∃ received : List Bytes, chunks = received.map .ok ∧ bytes = buf ++ received.flatten ∧
      (bytes.length < E.usizeRange → buf.length ≤ maxBytes.toNat % E.usizeRange →
        bytes.length ≤ maxBytes.toNat % E.usizeRange) := by
  induction chunks generalizing buf with
  | nil =>
    cases h
    exact ⟨[], rfl, (List.append_nil _).symm, fun _ h => h⟩
  | cons chunk chunks ih =>
    cases chunk with
    | error e => cases h
    | ok b =>
      rw [collectChunks] at h
      split at h
      · cases h
      · next hcap =>
        obtain ⟨received, rfl, rfl, hlen⟩ := ih h
        refine ⟨b :: received, rfl, by simp, fun hsize _ => hlen hsize ?_⟩
        simp only [List.length_append] at hsize ⊢
        omega

/-- What was received when the artifact was requested. -/
theorem requestArtifact_ok {url token : String} {bytes : Bytes}
    (h : d.requestArtifact E url token w = .ok bytes w') :
    ∃ (status : Nat) (retryAfter : Option String) (received : List Bytes),
      w.env.reply w.calls = .response status retryAfter (received.map .ok) ∧
      bytes = received.flatten ∧ w'.calls = w.calls + 1 ∧
      (bytes.length < E.usizeRange →
        bytes.length ≤ d.updateConfig.maxPayloadSizeBytes.toNat % E.usizeRange) := by
  simp only [requestArtifact, Comp.bind_ok, Comp.mapErr_ok, failIf_ok, Comp.ofExcept_ok] at h
  obtain ⟨⟨status, retryAfter, chunks⟩, w₁, hsend, _, _, ⟨-, rfl⟩, hchunks, rfl⟩ := h
  obtain ⟨received, rfl, rfl, hlen⟩ := collectChunks_ok hchunks
  unfold send at hsend
  dsimp only at hsend
  split at hsend
  · cases hsend
  · next hreply =>
    cases hsend
    exact ⟨status, retryAfter, received, hreply, rfl, rfl, fun hsize => hlen hsize (Nat.zero_le _)⟩

/-- The staging file is not the deployed one. -/
theorem staging_ne_deployed {stagingDir : UnixPath} {l : Loc}
    (h : w.locate (deployedPath E stagingDir) = .ok l) :
    w.locate (stagingPath E stagingDir) ≠ .ok l := by
  intro h'
  obtain ⟨n, hn, hbin⟩ := UnixPath.fileName_ofString_append
    ("synqro_" ++ currentPlatformTriple E) ".bin"
    (by decide) (by decide)
  obtain ⟨n', hn', htmp⟩ :=
    UnixPath.fileName_ofString_append ("synqro_staging_" ++ currentPlatformTriple E) ".tmp"
    (by decide) (by decide)
  have hhead := UnixPath.locateFile_head (UnixPath.fileName_join hn) h
  have hhead' := UnixPath.locateFile_head (UnixPath.fileName_join hn') h'
  obtain rfl : n = n' := Option.some.inj (hhead.symm.trans hhead')
  have hsame : ".bin".toList = ".tmp".toList :=
    (List.suffix_of_suffix_length_le hbin htmp (by decide)).eq_of_length (by decide)
  exact absurd hsame (by decide)

/-- A signature text that was read. -/
theorem signature_ok {what text : String} {sig : Bytes} (h : signature E what text = .ok sig) :
    E.base64Decode text = some sig := by
  unfold signature at h
  split at h
  · cases h
  · split at h
    · cases h
    · cases h; assumption

/-- A download that failed changed the staging file only. -/
theorem downloadAndVerifyArtifact_touches {manifest : SynqroManifest} {stagingDir : UnixPath}
    {e : SynqroError} (h : d.downloadAndVerifyArtifact E manifest stagingDir w = .error e w') :
    Touches (stagingPath E stagingDir) w w' := by
  have same {α : Type} {x : M α} (hx : Comp.Respects SameFiles x) :
      Comp.Respects (Touches (stagingPath E stagingDir)) x := hx.mono fun _ _ => .of_sameFiles
  have bare {f : IoError → SynqroError} :
      Comp.Respects (Touches (stagingPath E stagingDir)) (Comp.mapErr f bareCall) :=
    same (.mapErr _ bareCall_sameFiles)
  refine Comp.error_of_bind h (same checkDegraded_sameFiles w) fun _ w₁ _ _ h => ?_
  refine Comp.error_of_bind h (Comp.Respects.ofExcept _ w₁) fun artifact w₂ hfind _ h => ?_
  have hplatform : artifact.platform = currentPlatformTriple E := by
    simpa using List.find?_some (require_ok.1 hfind).1
  rw [hplatform] at h
  refine Comp.error_of_bind h (same d.loadTokenForRequest_sameFiles w₂) fun token w₃ _ _ h => ?_
  refine Comp.error_of_bind h (same (failIf_sameFiles _) w₃) fun _ w₄ _ _ h => ?_
  refine Comp.error_of_bind h (bare w₄) fun _ w₅ _ _ h => ?_
  refine Comp.error_of_bind h (Comp.Respects.onError
    ((d.requestArtifact_sameFiles _ _).mono fun _ _ => .of_sameFiles) (fun e => ?_) w₅)
    fun bytes w₆ _ _ h => ?_
  · exact .bind (.ignore removeFile_touches) fun _ =>
      .bind (same d.recordFailure_sameFiles) fun _ =>
      .pure _
  refine Comp.error_of_bind h
    (Comp.Respects.mapErr _ create_touches w₆) fun file w₇ hcreate _ h => ?_
  have hfile : w₇.locate (stagingPath E stagingDir) = .ok file := by
    obtain ⟨-, hl, t, hc, rfl⟩ := fs.create_ok.1 (Comp.mapErr_ok.1 hcreate)
    exact (UnixPath.locateFile_sameDirs (FileTree.create_sameDirs hc) _ _).trans hl
  have hwrite (f : IoError → SynqroError) (b : Bytes) : Touches (stagingPath E stagingDir) w₇
      (Comp.after (Comp.mapErr f (fs.writeAll file b)) w₇) := by
    rw [Comp.after_mapErr]
    exact writeAll_touches hfile b
  refine Comp.error_of_bind h (hwrite _ _) fun _ w₈ _ _ h => ?_
  refine Comp.error_of_bind h (bare w₈) fun _ w₉ _ _ h => ?_
  refine Comp.error_of_bind h (checkDigest_touches _ _ _ w₉) fun _ w₁₀ _ _ h => ?_
  refine Comp.error_of_bind h (checkDigest_touches _ _ _ w₁₀) fun _ w₁₁ _ _ h => ?_
  refine Comp.error_of_bind h (same (.ignore (AuditLogger.log_sameFiles E d.audit _ _)) w₁₁)
    fun _ w₁₂ _ _ h => ?_
  refine Comp.error_of_bind h (Comp.Respects.ofExcept _ w₁₂) fun sig w₁₃ _ _ h => ?_
  refine Comp.error_of_bind h (Comp.Respects.ofExcept _ w₁₃) fun key w₁₄ _ _ h => ?_
  refine Comp.error_of_bind h (Comp.Respects.onError (.ofExcept _) (fun e => ?_) w₁₄)
    fun _ w₁₅ _ _ h => ?_
  · exact .bind (rejectArtifact_touches _ _) fun _ => .pure _
  -- from the rename on, only the rename can fail
  rcases Comp.bind_error.1 h with h | ⟨_, _, -, h⟩
  · obtain ⟨e₀, w₁₆, hrename, rfl⟩ := Comp.onError_error h
    rw [rename_error hrename]
    refine (Touches.tick _).trans ?_
    exact Comp.Respects.bind (.ignore removeFile_touches) (fun _ => .pure _) _
  · cases h

/-- Only verified bytes are deployed. A download that returned a path put a file there that holds
what was received, whole and within the cap: it has the digests of the first entry of the manifest
for this platform, and that entry's signature of it is one of the configured key. A download that
failed left what is deployed as it was. -/
theorem downloadAndVerifyArtifact_verified (E : Externals) (d : SynqroDownloader)
    (manifest : SynqroManifest) (stagingDir : UnixPath) (w : World) :
    (∀ p w', d.downloadAndVerifyArtifact E manifest stagingDir w = .ok p w' →
      p = deployedPath E stagingDir ∧
      ∃ (artifact : ArtifactEntry) (i status : Nat) (retryAfter : Option String)
        (received : List Bytes) (bytes key sig : Bytes) (mode : Mode),
        manifest.artifacts.find? (·.platform = currentPlatformTriple E) = some artifact ∧
        w.calls ≤ i ∧ i < w'.calls ∧
        w.env.reply i = .response status retryAfter (received.map .ok) ∧
        bytes = received.flatten ∧ w'.nodeAt p = some (.file bytes mode) ∧
        hexEncode (E.sha256 bytes) = artifact.sha256 ∧
        hexEncode (E.sha512 bytes) = artifact.sha512 ∧
        d.releaseKey E = .ok key ∧ E.base64Decode artifact.sigEd25519 = some sig ∧
        E.verifyStrict key bytes sig = .ok () ∧
        (bytes.length < E.usizeRange →
          bytes.length ≤ d.updateConfig.maxPayloadSizeBytes.toNat % E.usizeRange)) ∧
    ∀ e w', d.downloadAndVerifyArtifact E manifest stagingDir w = .error e w' →
      w'.nodeAt (deployedPath E stagingDir) = w.nodeAt (deployedPath E stagingDir) := by
  refine ⟨fun p w' h => ?_, fun e w' h => ?_⟩
  · simp only [downloadAndVerifyArtifact, Comp.bind_ok, require_ok, failIf_ok, Comp.mapErr_ok,
      Comp.onError_ok, bareCall_ok, fs.create_ok, fs.writeAll_ok, checkDigest_ok, Comp.ignore_ok,
      Comp.ofExcept_ok, fs.rename_ok, emit_ok, Comp.pure_ok] at h
    obtain ⟨_, w₁, hdegraded, artifact, _, ⟨hfind, rfl⟩, token, w₂, htoken, h⟩ := h
    obtain ⟨_, _, ⟨-, rfl⟩, _, _, ⟨-, rfl⟩, bytes, w₃, hrequest, h⟩ := h
    obtain ⟨file, _, ⟨-, hfile, t, hcreate, rfl⟩, _, _, ⟨-, t', happend, rfl⟩, _, _,
      ⟨-, rfl⟩, h⟩ := h
    obtain ⟨_, _, ⟨hsha256, rfl⟩, _, _, ⟨hsha512, rfl⟩, _, w₄, hlog, h⟩ := h
    obtain ⟨sig, _, ⟨hsig, rfl⟩, key, _, ⟨hkey, rfl⟩, _, _, ⟨hverify, rfl⟩, h⟩ := h
    obtain ⟨_, _, ⟨-, s, l, t'', hs, hl, hrename, rfl⟩, _, _, rfl, _, w₅, hsuccess, rfl, rfl⟩ := h
    have hplatform : artifact.platform = currentPlatformTriple E := by
      simpa using List.find?_some hfind
    rw [hplatform] at hfile hs hl ⊢
    have hbefore : World.Evolves Effect.Any w w₂ :=
      (checkDegraded_evolves.ok hdegraded).trans
        ((d.loadTokenForRequest_evolves local_any).ok htoken)
    obtain ⟨status, retryAfter, received, hreply, hbytes, hcalls, hcap⟩ :=
      requestArtifact_ok hrequest
    have hlogged := AuditLogger.log_sameFiles E d.audit .PayloadHashOk (jsonObject [])
      ((w₃.tick.setFiles t).tick.setFiles t').tick
    have hlogCalls := (AuditLogger.log_evolves (Q := Effect.Any) E d.audit .PayloadHashOk
      (jsonObject []) trivial ((w₃.tick.setFiles t).tick.setFiles t').tick).calls
    rw [← hlog] at hlogged hlogCalls
    have hafter := (recordSuccess_evolves (Q := Effect.Any) local_any).ok hsuccess
    have hcallsAfter := hafter.calls
    simp only [World.emit_calls, World.setFiles_calls, World.tick_calls]
      at hcalls hlogCalls hcallsAfter
    have hfiles : w₅.files = t'' := by cases hsuccess; rfl
    have hcwd : w₅.process = w₃.process := hafter.process.trans hlogged.process
    have hdirs : w₃.files.SameDirs t' :=
      (FileTree.create_sameDirs hcreate).trans (FileTree.append_sameDirs happend)
    have hlogFiles : w₄.files = t' := hlogged.files
    -- the staging file is where it was made, and holds what was received
    obtain ⟨-, ⟨mode, hempty, -⟩, -⟩ := FileTree.create_ok hcreate
    obtain ⟨⟨old, mode', hold, hwritten⟩, -⟩ := FileTree.append_ok happend
    have hold' : Node.file [] mode = .file old mode' := Option.some.inj (hempty.symm.trans hold)
    cases hold'
    have hsame : file = s := by
      have hloc := UnixPath.locateFile_sameDirs hdirs w₃.process.cwd (stagingPath E stagingDir)
      rw [World.locate, hlogFiles, hlogged.process] at hs
      exact Except.ok.inj (hfile.symm.trans (hloc.symm.trans hs))
    subst hsame
    obtain ⟨-, ⟨b, mode', hsrc, hdst⟩, -, -⟩ := FileTree.rename_ok hrename
    rw [hlogFiles, hwritten] at hsrc
    cases hsrc
    have hnode : w₅.nodeAt (deployedPath E stagingDir) = some (.file ([] ++ bytes) mode) := by
      have hloc := UnixPath.locateFile_sameDirs (FileTree.rename_sameDirs hrename) w₄.process.cwd
        (deployedPath E stagingDir)
      have hlocate : w₅.locate (deployedPath E stagingDir) = .ok l := by
        rw [World.locate, hfiles, hafter.process]
        exact hloc.trans hl
      rw [World.nodeAt, hlocate]
      exact hfiles ▸ hdst
    refine ⟨rfl, artifact, w₂.calls + 1, status, retryAfter, received, bytes, key, sig, mode, hfind,
      Nat.le_succ_of_le hbefore.calls, ?_, ?_, hbytes, hnode, hsha256, hsha512, hkey,
      signature_ok hsig, hverify, hcap⟩
    · omega
    · rw [← hbefore.env]
      exact hreply
  · exact (downloadAndVerifyArtifact_touches h).nodeAt fun l => staging_ne_deployed

end SynqroDownloader

end

/-! ## A download -/

/-- The artifact of the releases. -/
def releaseArtifact : ArtifactEntry where
  platform := "linux-x86_64"
  url := "https://example.org/app"
  sha256 := "6a7dc6f4267242f01f6636a45c31da51c036da1e9879abce7e1d0aaa76aad876"
  sha512 := "c3b2b8739b5c52ac7c0eef3d7ccd4e314726a107e43e42fe0dfc7cd23bb6a5f2" ++
    "72e6645bf8d1e472e03d9a62090396f5eb6f8f11a47c6483a52062647b29a18e"
  sizeBytes := 3
  sigEd25519 := artifactSignature

/-- The manifest of a release. -/
def releaseManifest : SynqroManifest where
  schemaVersion := "1"
  issuedAt := "2026-01-01T00:00:00Z"
  installationId := none
  version := "10.0.0"
  channel := "stable"
  artifacts := [releaseArtifact]
  manifestSigEd25519 := releaseSignature "10.0.0"

/-- The world in which the server answers the next requests with the artifact. -/
def artifactServed : World := { installed with env := .serving "10.0.0" 0 }

/-- The served artifact is downloaded. -/
theorem returned_artifactServed : Comp.returned (releaseClient.downloadAndVerifyArtifact .release
    releaseManifest (.ofString "/") artifactServed) = true := by
  decide +kernel

theorem SynqroDownloader.downloadAndVerifyArtifact_verified_artifactServed :
    ∃ p w' bytes mode, releaseClient.downloadAndVerifyArtifact .release releaseManifest
        (.ofString "/") artifactServed = .ok p w' ∧
      w'.nodeAt p = some (.file bytes mode) ∧
      ∃ artifact ∈ releaseManifest.artifacts,
        hexEncode (Sha2.sha256.hash bytes) = artifact.sha256 := by
  have hreturned := Comp.returned_iff.1 returned_artifactServed
  obtain ⟨p, w', h⟩ := hreturned
  have hverified := ((downloadAndVerifyArtifact_verified .release releaseClient releaseManifest
    (.ofString "/") artifactServed).1 p w' h).2
  obtain ⟨artifact, _, _, _, _, bytes, _, _, mode, hfacts⟩ := hverified
  have hnode := hfacts.2.2.2.2.2.1
  have hsha256 := hfacts.2.2.2.2.2.2.1
  exact ⟨p, w', bytes, mode, h, hnode, artifact, List.mem_of_find?_eq_some hfacts.1, hsha256⟩

end Synqro
