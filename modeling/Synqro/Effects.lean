import Synqro.Restores
import Synqro.Ffi

/-!
# What each function can do to the world

`World.Evolves Q` relates a world to a later one that a run of the engine reached with effects in
`Q`: the environment and the process are the same, the calls have been counted, the trace has grown
by effects in `Q`, every record tagged in between has the form its signer tags, every directory
still stands and the audit log has only been appended to. Each function of the engine respects it
for the effects it can have, on every outcome.
-/

namespace Synqro

/-- The record has the form that its signer tags. -/
def Issue.Genuine (i : Issue) : Prop :=
  match i.signer with
  | .takeSnapshot => ∃ version createdAt files, i.record = unsignedManifest version createdAt files
  | .log => ∃ (logger : AuditLogger) (ts : String) (event : AuditEvent) (data : Json),
      i.record = logger.payload ts event data
  | .blacklistVersion => ∃ versions, i.record = unsignedBlacklist versions

/-- `ys` is `xs` with elements in `P` appended. -/
def Grows {α : Type} (P : α → Prop) (xs ys : List α) : Prop :=
  ∃ new, ys = xs ++ new ∧ ∀ x ∈ new, P x

namespace Grows

variable {α : Type} {P P' : α → Prop} {xs ys zs : List α}

theorem refl (xs : List α) : Grows P xs xs := ⟨[], by simp⟩

/-- A list grows by an element of the kind at its end. -/
theorem snoc {x : α} (h : P x) (xs : List α) : Grows P xs (xs ++ [x]) :=
  ⟨[x], rfl, by simpa using h⟩

theorem trans (h : Grows P xs ys) (h' : Grows P ys zs) : Grows P xs zs := by
  obtain ⟨new, rfl, hn⟩ := h
  obtain ⟨new', rfl, hn'⟩ := h'
  refine ⟨new ++ new', List.append_assoc .., fun x hx => ?_⟩
  exact (List.mem_append.1 hx).elim (hn x) (hn' x)

theorem mono (hP : ∀ x, P x → P' x) (h : Grows P xs ys) : Grows P' xs ys := by
  obtain ⟨new, rfl, hn⟩ := h
  exact ⟨new, rfl, fun x hx => hP x (hn x hx)⟩

end Grows

/-- `w'` is a later world that a run reached from `w` with effects in `Q`. -/
structure World.Evolves (Q : Effect → Prop) (w w' : World) : Prop where
  env : w'.env = w.env
  process : w'.process = w.process
  calls : w.calls ≤ w'.calls
  trace : Grows Q w.trace w'.trace
  issued : Grows Issue.Genuine w.issued w'.issued
  dirs : ∀ l, w.files.get l = some .dir → w'.files.get l = some .dir
  appended : w.auditFile.bytes <+: w'.auditFile.bytes

namespace World.Evolves

variable {Q : Effect → Prop} {w w' : World}

theorem refl (w : World) : Evolves Q w w :=
  ⟨rfl, rfl, le_rfl, .refl _, .refl _, fun _ h => h, List.prefix_rfl⟩

theorem trans {w₁ w₂ w₃ : World} (h : Evolves Q w₁ w₂) (h' : Evolves Q w₂ w₃) : Evolves Q w₁ w₃ :=
  ⟨h'.env.trans h.env, h'.process.trans h.process, h.calls.trans h'.calls, h.trace.trans h'.trace,
    h.issued.trans h'.issued, fun l hl => h'.dirs l (h.dirs l hl), h.appended.trans h'.appended⟩

instance : Std.Refl (Evolves Q) := ⟨refl⟩
instance : IsTrans World (Evolves Q) := ⟨fun _ _ _ => trans⟩

/-- A call that is only counted changes nothing else. -/
theorem tick (w : World) : Evolves Q w w.tick :=
  ⟨rfl, rfl, Nat.le_succ _, .refl _, .refl _, fun _ h => h, List.prefix_rfl⟩

/-- The files can change as long as directories are kept. -/
theorem setFiles {w : World} {t : FileTree} (h : w.files.KeepsDirs t) :
    Evolves Q w (w.setFiles t) :=
  ⟨rfl, rfl, le_rfl, .refl _, .refl _, h, List.prefix_rfl⟩

/-- The audit log can be appended to. -/
theorem setAuditFile {w : World} {f : AuditFile} (h : w.auditFile.bytes <+: f.bytes) :
    Evolves Q w (w.setAuditFile f) :=
  ⟨rfl, rfl, le_rfl, .refl _, .refl _, fun _ h => h, h⟩

theorem setLatch (w : World) (l : Latch) : Evolves Q w (w.setLatch l) :=
  ⟨rfl, rfl, le_rfl, .refl _, .refl _, fun _ h => h, List.prefix_rfl⟩

/-- An effect of the kind can be added. -/
theorem emit {e : Effect} (h : Q e) (w : World) : Evolves Q w (w.emit e) :=
  ⟨rfl, rfl, le_rfl, .snoc h _, .refl _, fun _ h => h, List.prefix_rfl⟩

/-- A genuine keychain record can be added. -/
theorem issue {i : Issue} (h : i.Genuine) (w : World) : Evolves Q w (w.issue i) :=
  ⟨rfl, rfl, le_rfl, .refl _, .snoc h _, fun _ h => h, List.prefix_rfl⟩

/-- More effects may be allowed. -/
theorem mono {Q' : Effect → Prop} (hQ : ∀ e, Q e → Q' e) (h : Evolves Q w w') : Evolves Q' w w' :=
  ⟨h.env, h.process, h.calls, h.trace.mono hQ, h.issued, h.dirs, h.appended⟩

end World.Evolves

open World (Evolves)

/-! ## Calls and files -/

section
variable {Q : Effect → Prop} {α ε : Type}

/-- A call is a step if its work is, whole or cut short by a fault. -/
theorem call_evolves {work : Comp World IoError α} {partly : Nat → Comp World IoError Unit}
    (hw : Comp.Respects (Evolves Q) work) (hp : ∀ n, Comp.Respects (Evolves Q) (partly n)) :
    Comp.Respects (Evolves Q) (call work partly) := by
  intro w
  unfold Comp.after call
  split
  · next f _ => exact (Evolves.tick w).trans (hp f.done w.tick)
  · exact (Evolves.tick w).trans (hw w.tick)

/-- An operation on the file tree is a step if it keeps directories. -/
theorem onFiles_evolves {step : World → Comp FileTree IoError α}
    (h : ∀ w, Comp.Respects FileTree.KeepsDirs (step w)) :
    Comp.Respects (Evolves Q) (onFiles step) := by
  intro w
  have hstep := h w w.files
  unfold Comp.after at hstep
  unfold Comp.after onFiles
  cases hr : step w w.files <;> rw [hr] at hstep <;> exact .setFiles hstep

/-- A question about the files changes nothing. -/
theorem queryFiles_evolves (f : World → FileTree → Except IoError α) :
    Comp.Respects (Evolves Q) (onFiles fun w => Comp.query (f w)) :=
  onFiles_evolves fun _ => .query _

/-- A change of the files that keeps directories, at a location found first. -/
theorem locatedUpdate_evolves (p : UnixPath) {f : World → Loc → FileTree → Except IoError FileTree}
    (hf : ∀ w l t t', f w l t = .ok t' → FileTree.KeepsDirs t t') :
    Comp.Respects (Evolves Q) (onFiles fun w => do
      let l ← Comp.query fun _ => w.locate p
      Comp.update (f w l)) :=
  onFiles_evolves fun w => .bind (.query _) fun l => .update fun _ _ h => hf w l _ _ h

theorem now_evolves : Comp.Respects (Evolves Q) (now : Comp World ε Int) := fun w => .tick w

theorem emit_evolves {e : Effect} (h : Q e) :
    Comp.Respects (Evolves Q) (emit e : Comp World ε Unit) :=
  .modify (.emit h)

theorem issue_evolves {i : Issue} (h : i.Genuine) :
    Comp.Respects (Evolves Q) (issue i : Comp World ε Unit) := .modify (.issue h)

theorem bareCall_evolves : Comp.Respects (Evolves Q) bareCall :=
  call_evolves (.pure ()) fun _ => .pure ()

/-- Reading the keychain has no visible effect. -/
theorem loadSecret_evolves (service account : String) :
    Comp.Respects (Evolves Q) (loadSecret service account) := by
  intro w
  unfold Comp.after loadSecret
  split <;> exact .tick w

/-- Sending a request has that request as its one effect. -/
theorem send_evolves {request : Request} (hQ : Q (.requested request)) :
    Comp.Respects (Evolves Q) (send request) := by
  intro w
  have h : Evolves Q w (w.tick.emit (.requested request)) :=
    (Evolves.tick w).trans (.emit hQ _)
  unfold Comp.after send
  dsimp only
  split <;> exact h

theorem require_evolves (a : Option α) (e : SynqroError) :
    Comp.Respects (Evolves Q) (require a e) := .ofExcept _

theorem failIf_evolves {c : Prop} [Decidable c] (e : SynqroError) :
    Comp.Respects (Evolves Q) (failIf c e) := by
  unfold failIf
  split
  · exact .throw _
  · exact .pure _

namespace fs

variable (p : UnixPath)

theorem read_evolves : Comp.Respects (Evolves Q) (read p) :=
  call_evolves (queryFiles_evolves _) fun _ => .pure ()

theorem metadataMode_evolves : Comp.Respects (Evolves Q) (metadataMode p) :=
  call_evolves (queryFiles_evolves _) fun _ => .pure ()

/-- Creating or emptying a file keeps directories. -/
theorem create_evolves : Comp.Respects (Evolves Q) (create p) := by
  refine call_evolves (onFiles_evolves fun w => ?_) fun _ => .pure ()
  refine .bind (.query _) fun l => .bind (.update fun _ _ h => ?_) fun _ => .pure _
  exact (FileTree.create_sameDirs h).keeps

/-- Appending to a file keeps directories, also when only a part is written. -/
theorem writeAll_evolves (file : Loc) (bytes : Bytes) :
    Comp.Respects (Evolves Q) (writeAll file bytes) := by
  have append (b : Bytes) : Comp.Respects FileTree.KeepsDirs
      (Comp.update (·.append file b) : Comp FileTree IoError Unit) :=
    .update fun _ _ h => (FileTree.append_sameDirs h).keeps
  exact call_evolves (onFiles_evolves fun _ => append bytes) fun _ =>
    onFiles_evolves fun _ => append _

theorem write_evolves (bytes : Bytes) : Comp.Respects (Evolves Q) (write p bytes) :=
  .bind (create_evolves p) fun file => writeAll_evolves file bytes

theorem setPermissions_evolves (mode : UInt32) :
    Comp.Respects (Evolves Q) (setPermissions p mode) :=
  call_evolves (locatedUpdate_evolves p fun _ _ _ _ h => (FileTree.chmod_sameDirs h).keeps)
    fun _ => .pure ()

/-- A rename has the effect of the rename it makes. -/
theorem rename_evolves_at {w : World} {dst : UnixPath}
    (hQ : ∀ s d t, w.locate p = .ok s → w.locate dst = .ok d → w.files.rename s d = .ok t →
      Q (.renamed s d (t.get d))) : Evolves Q w (Comp.after (rename p dst) w) := by
  unfold Comp.after rename call
  split
  · exact .tick w
  refine (Evolves.tick w).trans ?_
  refine Comp.after_bind (.refl w.tick) fun _ _ hget _ => ?_
  cases hget
  refine Comp.after_bind (Comp.Respects.ofExcept _ w.tick) fun s w₁ hs _ => ?_
  obtain ⟨hsrc, rfl⟩ := Comp.ofExcept_ok.1 hs
  refine Comp.after_bind (Comp.Respects.ofExcept _ w.tick) fun d w₂ hd _ => ?_
  obtain ⟨hdst, rfl⟩ := Comp.ofExcept_ok.1 hd
  refine Comp.after_bind (onFiles_evolves (fun _ => .update fun _ _ h =>
    (FileTree.rename_sameDirs h).keeps) w.tick) fun _ w₃ hr _ => ?_
  obtain ⟨t, ht, rfl⟩ := onFiles_ok.1 hr
  exact .emit (hQ s d t hsrc hdst (Comp.update_ok.1 ht)) _

/-- A rename has itself as its one effect: the places are those that the two paths lead to. -/
theorem rename_evolves (dst : UnixPath)
    (hQ : ∀ (w : World) s d node, w.locate p = .ok s → w.locate dst = .ok d →
      Q (.renamed s d node)) : Comp.Respects (Evolves Q) (rename p dst) :=
  fun w => rename_evolves_at p fun s d _ hs hd _ => hQ w s d _ hs hd

theorem removeFile_evolves : Comp.Respects (Evolves Q) (removeFile p) :=
  call_evolves (locatedUpdate_evolves p fun _ _ _ _ h => (FileTree.unlink_sameDirs h).keeps)
    fun _ => .pure ()

/-- Making directories only adds to them. -/
theorem makeDirs_evolves (cs : List Component) : Comp.Respects (Evolves Q) (makeDirs p cs) :=
  onFiles_evolves fun _ t => (FileTree.mkdirAll_addsDirs _ _ t).keeps

theorem createDirAll_evolves : Comp.Respects (Evolves Q) (createDirAll p) :=
  call_evolves (makeDirs_evolves p _) fun _ => makeDirs_evolves p _

theorem canonicalize_evolves : Comp.Respects (Evolves Q) (canonicalize p) :=
  call_evolves (queryFiles_evolves _) fun _ => .pure ()

theorem pathExists_evolves : Comp.Respects (Evolves Q) (pathExists p : Comp World ε Bool) :=
  .bind (.outcome (call_evolves (queryFiles_evolves _) fun _ => .pure ())) fun _ => .pure _

theorem readDir_evolves : Comp.Respects (Evolves Q) (readDir p) :=
  call_evolves (queryFiles_evolves _) fun _ => .pure ()

end fs

theorem currentExe_evolves : Comp.Respects (Evolves Q) currentExe :=
  call_evolves (.bind .get fun _ => .pure _) fun _ => .pure ()

/-! ## The audit log -/

variable (E : Externals)

/-- A log call has its line as its one effect. -/
theorem AuditLogger.log_evolves (logger : AuditLogger) (event : AuditEvent) (data : Json)
    (hQ : Q (.logged event data)) : Comp.Respects (Evolves Q) (logger.log E event data) := by
  have flock (b : Bool) : Comp.Respects (Evolves Q) (AuditLogger.flock b) :=
    call_evolves (.modify fun _ => .setAuditFile List.prefix_rfl) fun _ => .pure ()
  have append (b : Bytes) (w : World) : Evolves Q w
      (w.setAuditFile { w.auditFile with bytes := w.auditFile.bytes ++ b }) :=
    .setAuditFile (List.prefix_append _ _)
  have write (b : Bytes) : Comp.Respects (Evolves Q) (AuditLogger.writeAll b) := by
    unfold AuditLogger.writeAll
    exact call_evolves (.modify (append b)) fun _ => .modify (append _)
  refine .bind now_evolves fun ts => ?_
  refine .bind (issue_evolves ⟨logger, _, event, data, rfl⟩) fun _ => ?_
  exact .bind (.mapErr _ (flock true)) fun _ => .bind (.mapErr _ (write _)) fun _ =>
    .bind (emit_evolves hQ) fun _ => .bind (.ignore (flock false)) fun _ =>
      .mapErr _ bareCall_evolves

namespace AuditLogger

variable {E} {w w' : World}

/-- Taking or giving back the lock succeeds without a fault, whoever has it. -/
theorem flock_ok {b : Bool} {u : Unit} : flock b w = .ok u w' ↔
    w.Quiet ∧ w' = w.tick.setAuditFile { w.auditFile with locked := b } := by
  rw [flock, call_ok, Comp.modify_run]
  simp [eq_comm]

/-- Without a fault the bytes are appended as they are. -/
theorem writeAll_ok {bytes : Bytes} {u : Unit} : writeAll bytes w = .ok u w' ↔
    w.Quiet ∧ w' = w.tick.setAuditFile
      { w.auditFile with bytes := w.auditFile.bytes ++ bytes } := by
  rw [writeAll, call_ok]
  refine and_congr_right fun _ => ?_
  constructor
  · rintro ⟨⟩
    rfl
  · rintro rfl
    rfl

/-- Locking counts as a call, returned or failed. -/
theorem after_flock_calls (b : Bool) (w : World) :
    (Comp.after (flock b) w).calls = w.calls + 1 := by
  unfold Comp.after flock call
  cases w.env.fault w.calls <;> rfl

/-- A line that was logged took five calls. -/
theorem log_calls {logger : AuditLogger} {event : AuditEvent} {data : Json} {u : Unit}
    (h : logger.log E event data w = .ok u w') : w'.calls = w.calls + 5 := by
  simp only [log, Comp.bind_ok, Comp.mapErr_ok, now_ok, issue_ok, emit_ok, Comp.ignore_ok,
    bareCall_ok, flock_ok, writeAll_ok] at h
  obtain ⟨_, _, ⟨-, rfl⟩, _, _, rfl, _, _, ⟨-, rfl⟩, _, _, ⟨-, rfl⟩, _, _, rfl, _, _,
    rfl, -, rfl⟩ := h
  rw [World.tick_calls, after_flock_calls]
  rfl

end AuditLogger

/-- The world with the same files, seen by the same process. -/
structure World.SameFiles (w w' : World) : Prop where
  files : w'.files = w.files
  process : w'.process = w.process
  env : w'.env = w.env

instance : Std.Refl World.SameFiles := ⟨fun _ => ⟨rfl, rfl, rfl⟩⟩
instance : IsTrans World World.SameFiles :=
  ⟨fun _ _ _ h h' => ⟨h'.files.trans h.files, h'.process.trans h.process, h'.env.trans h.env⟩⟩

/-- A call leaves the files alone if its work does, whole or cut short. -/
theorem call_sameFiles {work : Comp World IoError α} {partly : Nat → Comp World IoError Unit}
    (hw : Comp.Respects World.SameFiles work) (hp : ∀ n, Comp.Respects World.SameFiles (partly n)) :
    Comp.Respects World.SameFiles (call work partly) := by
  intro w
  have htick : World.SameFiles w w.tick := ⟨rfl, rfl, rfl⟩
  unfold Comp.after call
  split
  · next f _ => exact IsTrans.trans _ _ _ htick (hp f.done w.tick)
  · exact IsTrans.trans _ _ _ htick (hw w.tick)

/-- The audit log is no part of the files. -/
theorem AuditLogger.log_sameFiles (logger : AuditLogger) (event : AuditEvent) (data : Json) :
    Comp.Respects World.SameFiles (logger.log E event data) := by
  have flock (b : Bool) : Comp.Respects World.SameFiles (AuditLogger.flock b) :=
    call_sameFiles (.modify fun _ => ⟨rfl, rfl, rfl⟩) fun _ => .pure ()
  have write (b : Bytes) : Comp.Respects World.SameFiles (AuditLogger.writeAll b) := by
    unfold AuditLogger.writeAll
    exact call_sameFiles (.modify fun _ => ⟨rfl, rfl, rfl⟩) fun _ => .modify fun _ =>
      ⟨rfl, rfl, rfl⟩
  refine .bind (fun _ => ⟨rfl, rfl, rfl⟩) fun ts =>
    .bind (.modify fun _ => ⟨rfl, rfl, rfl⟩) fun _ => ?_
  exact .bind (.mapErr _ (flock true)) fun _ => .bind (.mapErr _ (write _)) fun _ =>
    .bind (.modify fun _ => ⟨rfl, rfl, rfl⟩) fun _ => .bind (.ignore (flock false)) fun _ =>
      .mapErr _ (call_sameFiles (.pure ()) fun _ => .pure ())

/-! ## Snapshots -/

/-- Copying a target has no visible effect. -/
theorem snapshotFile_evolves (canonicalBackup srcPath : UnixPath) :
    Comp.Respects (Evolves Q) (snapshotFile E canonicalBackup srcPath) := by
  refine .bind (.mapErr _ (fs.canonicalize_evolves srcPath)) fun src => ?_
  refine .bind (.ofExcept _) fun fileName => .bind (.ofExcept _) fun _ => ?_
  refine .bind (.mapErr _ (fs.read_evolves src)) fun bytes => ?_
  refine .bind (.mapErr _ (fs.metadataMode_evolves src)) fun permissions => ?_
  exact .bind (.mapErr _ (fs.write_evolves _ bytes)) fun _ => .pure _

/-- The same of all targets, by induction on them. -/
theorem snapshotFiles_evolves (canonicalBackup : UnixPath) (srcPaths : List UnixPath) :
    Comp.Respects (Evolves Q) (snapshotFiles E canonicalBackup srcPaths) := by
  induction srcPaths with
  | nil => exact .pure _
  | cons srcPath srcPaths ih =>
    exact .bind (snapshotFile_evolves E canonicalBackup srcPath) fun _ => .bind ih fun _ => .pure _

/-- A snapshot has no visible effect. -/
theorem takeSnapshot_evolves (version : String) (targetPaths : List UnixPath) (backupDir : UnixPath)
    (hmacKey : Bytes) :
    Comp.Respects (Evolves Q) (takeSnapshot E version targetPaths backupDir hmacKey) := by
  refine .bind (.mapErr _ (fs.createDirAll_evolves backupDir)) fun _ => ?_
  refine .bind (.mapErr _ (fs.createDirAll_evolves _)) fun _ => ?_
  refine .bind (.mapErr _ (fs.canonicalize_evolves _)) fun canonicalBackup => ?_
  refine .bind (snapshotFiles_evolves E canonicalBackup targetPaths) fun entries => ?_
  refine .bind now_evolves fun t => .bind (issue_evolves ⟨version, _, entries, rfl⟩) fun _ => ?_
  exact .mapErr _ (fs.write_evolves _ _)

/-! ## Rollback -/

/-- The effects that neither apply an update, nor roll back or blacklist a version. -/
def Effect.Plain : Effect → Prop
  | .deployed _ | .blacklisted _ | .logged .UpdateApplied _ | .logged .RollbackTriggered _
  | .logged .RollbackSuccess _ | .logged .RollbackFailed _ => False
  | _ => True

/-- The plain effects other than requests. -/
def Effect.Local : Effect → Prop
  | .requested _ => False
  | e => e.Plain

theorem Effect.Local.plain {e : Effect} (h : e.Local) : e.Plain := by
  cases e <;> first | exact h | exact h.elim

/-- The request is for the URL and carries one bearer token. -/
structure Request.Bears (url : String) (r : Request) : Prop where
  url : r.url = url
  token : ∃ token : String,
    r.headers.filter (·.1 = "Authorization") = [("Authorization", s!"Bearer {token}")]

/-- The location is one of a temporary file for a state file. -/
def StateTemp (s : Loc) : Prop := ∃ nanos, s.head? = some (tempFileName nanos)

/-- The effects of a rollback other than its restores and its success. -/
def Effect.OfRollback (version : String) (backupDir : UnixPath) : Effect → Prop
  | .renamed s d _ => StateTemp s ∧ ∃ w : World,
      w.locate (backupDir.join (.ofString "rollback_counters.json")) = .ok d ∨
        w.locate (backupDir.join (.ofString "blacklist.json")) = .ok d
  | .logged event _ => event = .BackupTampered ∨ event = .VersionBlacklisted
  | .blacklisted v => v = version
  | _ => False

/-- Every effect. -/
def Effect.Any : Effect → Prop := fun _ => True

theorem plain_any (e : Effect) : e.Plain → e.Any := fun _ => trivial

theorem local_any (e : Effect) : e.Local → e.Any := fun _ => trivial

/-- Storing a state file has one effect, the rename of its temporary file. -/
theorem writeJsonAtomic_evolves (path : UnixPath) (value : Json)
    (hpath : ∀ s d node, StateTemp s → (∃ w : World, w.locate path = .ok d) →
      Q (.renamed s d node)) : Comp.Respects (Evolves Q) (writeJsonAtomic path value) := by
  refine .bind now_evolves fun t => .bind (.mapErr _ (fs.create_evolves _)) fun file => ?_
  refine .bind (.mapErr _ (fs.writeAll_evolves file _)) fun _ => ?_
  refine .bind (.mapErr _ bareCall_evolves) fun _ => .bind (.mapErr _ bareCall_evolves) fun _ => ?_
  refine .onError (fs.rename_evolves _ path fun w s d node hs hd => ?_) fun _ =>
    .bind (.ignore (fs.removeFile_evolves _)) fun _ => .pure _
  rw [World.locate, ofString_tempName] at hs
  exact hpath s d node ⟨_, UnixPath.locate_join_head hs⟩ ⟨w, hd⟩

/-- Loading the blacklist has no visible effect. -/
theorem loadBlacklistRaw_evolves (path : UnixPath) (hmacKey : Bytes) :
    Comp.Respects (Evolves Q) (loadBlacklistRaw E path hmacKey) := by
  refine .bind (.mapErr _ (fs.read_evolves path)) fun bytes => .bind (.ofExcept _) fun bl => ?_
  dsimp only
  split
  · exact .throw _
  · exact .pure _

section
variable {E} {version : String} {backupDir : UnixPath}
variable (hQ : ∀ e : Effect, e.OfRollback version backupDir → Q e)
include hQ

/-- Counting a rollback renames the counters into place. -/
theorem incrementRollbackCounter_evolves :
    Comp.Respects (Evolves Q) (incrementRollbackCounter E version
      (backupDir.join (.ofString "rollback_counters.json"))) := by
  have hwrite (value : Json) := writeJsonAtomic_evolves (Q := Q)
    (backupDir.join (.ofString "rollback_counters.json")) value fun s d _ hs ⟨w, hd⟩ =>
      hQ _ ⟨hs, w, .inl hd⟩
  refine .bind (fs.pathExists_evolves _) fun found => ?_
  dsimp only
  split
  · exact .bind (.mapErr _ (fs.read_evolves _)) fun _ => .bind (.ofExcept _) fun _ =>
      .bind (hwrite _) fun _ => .pure _
  · exact .bind (.pure _) fun _ => .bind (hwrite _) fun _ => .pure _

omit hQ in

/-- Blacklisting renames the blacklist into place, and then says and logs it. -/
theorem blacklistVersion_evolves (path : UnixPath) (hmacKey : Bytes) (audit : AuditLogger)
    (hpath : ∀ s d node, StateTemp s → (∃ w : World, w.locate path = .ok d) →
      Q (.renamed s d node)) (hv : Q (.blacklisted version))
    (hlog : ∀ data, Q (.logged .VersionBlacklisted data)) :
    Comp.Respects (Evolves Q) (blacklistVersion E version path hmacKey audit) := by
  refine .bind (.outcome (loadBlacklistRaw_evolves E _ hmacKey)) fun loaded => ?_
  refine .bind (issue_evolves ⟨_, rfl⟩) fun _ =>
    .bind (writeJsonAtomic_evolves path _ hpath) fun _ => ?_
  exact .bind (emit_evolves hv) fun _ => AuditLogger.log_evolves E audit _ _ (hlog _)

/-- Checking a backup file can only log that it does not match. -/
theorem verifyBackupFile_evolves (canonicalBackup : UnixPath) (audit : AuditLogger)
    (entry : FileEntry) :
    Comp.Respects (Evolves Q) (verifyBackupFile E version canonicalBackup audit entry) := by
  refine .bind (.ofExcept _) fun _ => .bind (.mapErr _ (fs.read_evolves _)) fun bytes => ?_
  dsimp only
  split
  · exact .bind (.ignore (AuditLogger.log_evolves E audit _ _ (hQ _ (.inl rfl)))) fun _ => .throw _
  · exact .pure _

omit hQ in

/-- Making the directory of a destination has no visible effect. -/
theorem ensureParent_evolves (entry : FileEntry) (dest : UnixPath) :
    Comp.Respects (Evolves Q) (ensureParent entry dest) := by
  unfold ensureParent
  split
  · split
    · exact .pure _
    · exact .mapErr _ (fs.createDirAll_evolves _)
  · exact .pure _

omit hQ in
/-- The renamed file holds the bytes it was to hold, with the permissions of its entry. -/
theorem replaceFile_evolves {w : World} {entry : FileEntry} {dest : UnixPath} {backupBytes : Bytes}
    (hR : ∀ s d t, dest.locateFile t w.process.cwd = .ok d →
      Q (.renamed s d (some (.file backupBytes entry.mode)))) :
    Evolves Q w (Comp.after (replaceFile entry dest backupBytes) w) := by
  refine Comp.after_bind (Comp.Respects.mapErr _ (fs.write_evolves _ _) w) fun _ w₁ hwrite h₁ => ?_
  refine Comp.after_bind (Comp.Respects.mapErr _ (fs.setPermissions_evolves _ _) w₁)
    fun _ w₂ hperm h₂ => ?_
  obtain ⟨-, -, l, t', hl, ho, rfl⟩ := fs.write_ok.1 (Comp.mapErr_ok.1 hwrite)
  obtain ⟨-, l', t'', hl', hm, rfl⟩ := fs.setPermissions_ok.1 (Comp.mapErr_ok.1 hperm)
  obtain ⟨⟨m, hnew, -⟩, -, hdirs⟩ := FileTree.overwrite_ok ho
  have hdirs' : w.files.SameDirs t'' := hdirs.trans (FileTree.chmod_sameDirs hm)
  have hsame := UnixPath.locateFile_sameDirs hdirs w.process.cwd
    (dest.withExtension restoreExtension)
  have hsame' := UnixPath.locateFile_sameDirs hdirs' w.process.cwd
    (dest.withExtension restoreExtension)
  obtain rfl : l = l' := Except.ok.inj (hl.symm.trans (hsame.symm.trans hl'))
  have hfile : t''.get l = some (.file backupBytes entry.mode) := (FileTree.chmod_ok hm).1 _ _ hnew
  refine Comp.after_onError (fs.rename_evolves_at _ fun s d t₃ hs hd hr => ?_) fun _ =>
    .bind (.ignore (fs.removeFile_evolves _)) fun _ => .pure _
  obtain rfl : l = s := Except.ok.inj (hl.symm.trans (hsame'.symm.trans hs))
  obtain ⟨-, ⟨b, m, hsrc, hdst⟩, -, -⟩ := FileTree.rename_ok hr
  have hsrc' : t''.get l = some (.file b m) := hsrc
  rw [hfile] at hsrc'
  cases hsrc'
  rw [hdst]
  exact hR l d t'' hd

/-- Restoring an entry renames bytes of the recorded digest, with the recorded mode, to its
destination. -/
theorem restoreFile_evolves {w : World} {canonicalBackup : UnixPath} {audit : AuditLogger}
    {entry : FileEntry}
    (hR : ∀ s d t bytes, (UnixPath.ofString entry.path).locateFile t w.process.cwd = .ok d →
      hexEncode (E.sha256 bytes) = entry.sha256 →
        Q (.renamed s d (some (.file bytes entry.mode)))) :
    Evolves Q w (Comp.after (restoreFile E version canonicalBackup audit entry) w) := by
  refine Comp.after_bind (verifyBackupFile_evolves hQ canonicalBackup audit entry w)
    fun bytes w₁ hverify h₁ => ?_
  refine Comp.after_bind (ensureParent_evolves entry _ w₁) fun _ w₂ _ h₂ => ?_
  refine replaceFile_evolves (fun s d t hd => ?_)
  rw [h₂.process, h₁.process] at hd
  exact hR s d t bytes hd (verifyBackupFile_ok.1 hverify).2.2.2.1

/-- The same of all entries, by induction on them: the working directory stays while they are
restored. -/
theorem restoreFiles_evolves {w : World} {canonicalBackup : UnixPath} {audit : AuditLogger}
    {entries : List FileEntry}
    (hR : ∀ entry ∈ entries, ∀ s d t bytes,
      (UnixPath.ofString entry.path).locateFile t w.process.cwd = .ok d →
      hexEncode (E.sha256 bytes) = entry.sha256 →
        Q (.renamed s d (some (.file bytes entry.mode)))) :
    Evolves Q w (Comp.after (restoreFiles E version canonicalBackup audit entries) w) := by
  induction entries generalizing w with
  | nil => exact .refl w
  | cons entry entries ih =>
    refine Comp.after_bind (restoreFile_evolves hQ (hR entry (.head _))) fun _ w₁ _ h₁ => ?_
    refine ih fun entry' he s d t bytes hd => ?_
    rw [h₁.process] at hd
    exact hR entry' (.tail _ he) s d t bytes hd

/-- Loading the manifest can only log that it does not check. -/
theorem loadSnapshot_evolves (versionDir : UnixPath) (hmacKey : Bytes) (audit : AuditLogger) :
    Comp.Respects (Evolves Q) (loadSnapshot E version versionDir hmacKey audit) := by
  refine .bind (.mapErr _ (fs.read_evolves _)) fun bytes => .bind (.ofExcept _) fun manifest => ?_
  dsimp only
  split
  · exact .bind (.ignore (AuditLogger.log_evolves E audit _ _ (hQ _ (.inl rfl)))) fun _ => .throw _
  · exact .pure _

/-- The bookkeeping of a rollback: a log line, the counters and perhaps the blacklist. -/
theorem finishRollback_evolves (hs : ∀ data, Q (.logged .RollbackSuccess data)) (hmacKey : Bytes)
    (audit : AuditLogger) (fileCount : Nat) :
    Comp.Respects (Evolves Q) (finishRollback E version backupDir hmacKey audit fileCount) := by
  refine .bind now_evolves fun ts => ?_
  refine .bind (AuditLogger.log_evolves E audit _ _ (hs _)) fun _ => ?_
  refine .bind (incrementRollbackCounter_evolves hQ) fun newCount => ?_
  dsimp only
  split
  · exact blacklistVersion_evolves _ hmacKey audit (fun s d _ hs ⟨w, hd⟩ => hQ _ ⟨hs, w, .inr hd⟩)
      (hQ _ rfl) fun _ => hQ _ (.inr rfl)
  · exact .pure _

/-- A rollback restores the files of the manifest it loads. -/
theorem rollback_evolves (hs : ∀ data, Q (.logged .RollbackSuccess data)) {w : World}
    {hmacKey : Bytes} {audit : AuditLogger}
    (hR : ∀ manifest w₁, loadSnapshot E version (backupDir.join (.ofString s!"v{version}")) hmacKey
      audit w = .ok manifest w₁ → ∀ entry ∈ manifest.files, ∀ s d t bytes,
        (UnixPath.ofString entry.path).locateFile t w.process.cwd = .ok d →
        hexEncode (E.sha256 bytes) = entry.sha256 →
          Q (.renamed s d (some (.file bytes entry.mode)))) :
    Evolves Q w (Comp.after (rollback E version backupDir hmacKey audit) w) := by
  refine Comp.after_bind (loadSnapshot_evolves hQ _ hmacKey audit w) fun manifest w₁ hm h₁ => ?_
  refine Comp.after_bind (Comp.Respects.mapErr _ (fs.canonicalize_evolves _) w₁)
    fun canonicalBackup w₂ _ h₂ => ?_
  refine Comp.after_bind (restoreFiles_evolves hQ fun entry he s d t bytes hd => ?_)
    fun _ w₃ _ _ => finishRollback_evolves hQ hs hmacKey audit _ w₃
  rw [h₂.process, h₁.process] at hd
  exact hR manifest w₁ hm entry he s d t bytes hd

end

/-! ## The downloader -/

section
variable {E} (hQ : ∀ e : Effect, e.Local → Q e)
include hQ

namespace SynqroDownloader

variable (d : SynqroDownloader)

omit hQ in

/-- Building a downloader has no visible effect. -/
theorem new_evolves (updateConfig : UpdateConfig) (sourceConfig : SourceConfig)
    (installationId : String) (cryptoConfig : CryptoConfig) (audit : AuditLogger) :
    Comp.Respects (Evolves Q) (new updateConfig sourceConfig installationId cryptoConfig audit) :=
  .bind (.mapErr _ bareCall_evolves) fun _ => .bind (.modify fun w => .setLatch w _) fun _ =>
    .pure _

/-- Loading the token can only log that it failed. -/
theorem loadTokenForRequest_evolves : Comp.Respects (Evolves Q) (d.loadTokenForRequest E) := by
  refine .bind (.onError (loadSecret_evolves _ _) fun e => ?_) fun _ => require_evolves _ _
  exact .bind (.ignore (AuditLogger.log_evolves E d.audit _ _ (hQ _ trivial))) fun _ => .pure _

omit hQ in
theorem checkDegraded_evolves : Comp.Respects (Evolves Q) checkDegraded :=
  .bind .get fun _ => failIf_evolves _

/-- Recording a failure counts it and, at the limit, logs the latch. -/
theorem recordFailure_evolves : Comp.Respects (Evolves Q) (d.recordFailure E) := by
  refine .bind .get fun w => .bind (.modify fun w => .setLatch w _) fun _ => ?_
  refine .bind (emit_evolves (hQ _ trivial)) fun _ => ?_
  dsimp only
  split
  · exact .bind (.modify fun w => .setLatch w _) fun _ =>
      .ignore (AuditLogger.log_evolves E d.audit _ _ (hQ _ trivial))
  · exact .pure _

theorem recordSuccess_evolves : Comp.Respects (Evolves Q) recordSuccess :=
  .bind (.modify fun w => .setLatch w _) fun _ => emit_evolves (hQ _ trivial)

/-- Fetching the manifest sends no request but to its URL. -/
theorem fetchManifestBody_evolves (hr : ∀ r, Request.Bears d.manifestApiUrl r → Q (.requested r)) :
    Comp.Respects (Evolves Q) (d.fetchManifestBody E) := by
  refine .bind (d.loadTokenForRequest_evolves hQ) fun token => .bind (failIf_evolves _) fun _ => ?_
  refine .bind (.mapErr _ (send_evolves (hr _ ⟨rfl, token, by simp⟩))) fun reply => ?_
  exact .bind (failIf_evolves _) fun _ => .bind (failIf_evolves _) fun _ => .ofExcept _

omit hQ in
theorem checkFreshness_evolves (rawValue : Json) :
    Comp.Respects (Evolves Q) (checkFreshness E rawValue) :=
  .bind (require_evolves _ _) fun _ => .bind (require_evolves _ _) fun _ =>
    .bind now_evolves fun _ => failIf_evolves _

theorem checkSignature_evolves (rawValue : Json) :
    Comp.Respects (Evolves Q) (d.checkSignature E rawValue) := by
  refine .bind (require_evolves _ _) fun sigB64 => .bind (.ofExcept _) fun payload => ?_
  refine .bind (.ofExcept _) fun sig => .bind (.ofExcept _) fun key => ?_
  exact .onError (.ofExcept _) fun e =>
    .bind (.ignore (AuditLogger.log_evolves E d.audit _ _ (hQ _ trivial))) fun _ => .pure _

omit hQ in
theorem checkInstallationId_evolves (manifest : SynqroManifest) :
    Comp.Respects (Evolves Q) (d.checkInstallationId manifest) := by
  unfold checkInstallationId
  split
  · split
    · exact .throw _
    · exact .pure _
  · exact .pure _

/-- The checks of a manifest can only log why it was refused. -/
theorem verifyManifest_evolves (rawBytes : Bytes) :
    Comp.Respects (Evolves Q) (d.verifyManifest E rawBytes) := by
  refine .bind (.ofExcept _) fun rawValue => .bind (checkFreshness_evolves rawValue) fun _ => ?_
  refine .bind (d.checkSignature_evolves hQ rawValue) fun _ => ?_
  refine .bind (.ignore (AuditLogger.log_evolves E d.audit _ _ (hQ _ trivial))) fun _ => ?_
  exact .bind (.ofExcept _) fun manifest => .bind (d.checkInstallationId_evolves manifest) fun _ =>
    .pure _

/-- An attempt at the manifest: the request and the checks. -/
theorem fetchManifestOnceAsync_evolves
    (hr : ∀ r, Request.Bears d.manifestApiUrl r → Q (.requested r)) :
    Comp.Respects (Evolves Q) (d.fetchManifestOnceAsync E) :=
  .bind (d.fetchManifestBody_evolves hQ hr) fun rawBytes => d.verifyManifest_evolves hQ rawBytes

omit hQ in

/-- Fetching an artifact sends no request but to its URL. -/
theorem requestArtifact_evolves (url token : String)
    (hr : ∀ r, Request.Bears url r → Q (.requested r)) :
    Comp.Respects (Evolves Q) (d.requestArtifact E url token) := by
  refine .bind (.mapErr _ (send_evolves (hr _ ⟨rfl, token, rfl⟩))) fun reply => ?_
  exact .bind (failIf_evolves _) fun _ => .ofExcept _

/-- Refusing an artifact removes the staged file and logs the reason. -/
theorem rejectArtifact_evolves (tempPath : UnixPath) (event : AuditEvent) (data : Json)
    (he : Effect.Local (.logged event data)) :
    Comp.Respects (Evolves Q) (d.rejectArtifact E tempPath event data) :=
  .bind (.ignore (fs.removeFile_evolves _)) fun _ =>
    .bind (.ignore (AuditLogger.log_evolves E d.audit _ _ (hQ _ he))) fun _ =>
      d.recordFailure_evolves hQ

theorem checkDigest_evolves (tempPath : UnixPath) (algorithm actual expected : String) :
    Comp.Respects (Evolves Q) (d.checkDigest E tempPath algorithm actual expected) := by
  unfold checkDigest
  split
  · exact .bind (d.rejectArtifact_evolves hQ tempPath _ _ trivial) fun _ => .throw _
  · exact .pure _

/-- A download requests the artifact for the platform and deploys no other version than its
manifest's. -/
theorem downloadAndVerifyArtifact_evolves (manifest : SynqroManifest) (stagingDir : UnixPath)
    (hd : Q (.deployed manifest.version))
    (hr : ∀ artifact r, manifest.artifacts.find?
      (·.platform = currentPlatformTriple E) = some artifact →
      Request.Bears artifact.url r → Q (.requested r)) :
    Comp.Respects (Evolves Q) (d.downloadAndVerifyArtifact E manifest stagingDir) := by
  refine .bind checkDegraded_evolves fun _ w => ?_
  refine Comp.after_bind (require_evolves _ _ w) fun artifact w₁ hfind _ => ?_
  have hr (r : Request) := hr artifact r (require_ok.1 hfind).1
  refine Comp.Respects.bind (d.loadTokenForRequest_evolves hQ) (fun token => ?_) w₁
  refine .bind (failIf_evolves _) fun _ => .bind (.mapErr _ bareCall_evolves) fun _ => ?_
  refine .bind (.onError (d.requestArtifact_evolves _ _ hr) fun e => ?_) fun bytes => ?_
  · exact .bind (.ignore (fs.removeFile_evolves _)) fun _ =>
      .bind (d.recordFailure_evolves hQ) fun _ => .pure _
  refine .bind (.mapErr _ (fs.create_evolves _)) fun tempFile => ?_
  refine .bind (.mapErr _ (fs.writeAll_evolves tempFile bytes)) fun _ => ?_
  refine .bind (.mapErr _ bareCall_evolves) fun _ => ?_
  refine .bind (d.checkDigest_evolves hQ _ _ _ _) fun _ => ?_
  refine .bind (d.checkDigest_evolves hQ _ _ _ _) fun _ => ?_
  refine .bind (.ignore (AuditLogger.log_evolves E d.audit _ _ (hQ _ trivial))) fun _ => ?_
  refine .bind (.ofExcept _) fun sig => .bind (.ofExcept _) fun key => ?_
  refine .bind (.onError (.ofExcept _) fun e => ?_) fun _ => ?_
  · exact .bind (d.rejectArtifact_evolves hQ _ _ _ trivial) fun _ => .pure _
  refine .bind (.onError (fs.rename_evolves _ _ fun _ _ _ _ _ _ => hQ _ trivial) fun e => ?_)
    fun _ => ?_
  · exact .bind (.ignore (fs.removeFile_evolves _)) fun _ => .pure _
  exact .bind (emit_evolves hd) fun _ => .bind (recordSuccess_evolves hQ) fun _ => .pure _

end SynqroDownloader

end

section
variable {E} (hQ : ∀ e : Effect, e.Plain → Q e)
include hQ

namespace SynqroDownloader

variable (d : SynqroDownloader)

/-- The attempts, by induction on how many are left. -/
theorem fetchAttempts_evolves (lastErr : SynqroError) (n : Nat) :
    Comp.Respects (Evolves Q) (d.fetchAttempts E lastErr n) := by
  have hlocal (e : Effect) (he : e.Local) : Q e := hQ e he.plain
  induction n generalizing lastErr with
  | zero => exact .throw _
  | succ n ih =>
    refine .bind (.outcome (d.fetchManifestOnceAsync_evolves hlocal fun _ _ => hQ _ trivial))
      fun r => ?_
    cases r with
    | ok manifest => exact .bind (recordSuccess_evolves hlocal) fun _ => .pure _
    | error e => exact .bind (d.recordFailure_evolves hlocal) fun _ => ih e

/-- A fetch of the manifest with all its attempts. -/
theorem fetchAndVerifyManifest_evolves :
    Comp.Respects (Evolves Q) (d.fetchAndVerifyManifest E) :=
  .bind (.mapErr _ bareCall_evolves) fun _ => .bind checkDegraded_evolves fun _ =>
    d.fetchAttempts_evolves hQ _ _

end SynqroDownloader

/-! ## The public API -/

omit hQ in
theorem SynqroEngine.downloader_evolves (engine : SynqroEngine) :
    Comp.Respects (Evolves Q) engine.downloader := SynqroDownloader.new_evolves _ _ _ _ _

/-- A check for an update has the effects of its fetch, and log lines. -/
theorem synqroCheckUpdate_evolves (ENGINE : Option SynqroEngine) :
    Comp.Respects (Evolves Q) (synqroCheckUpdate E ENGINE) := by
  refine .bind (require_evolves _ _) fun engine => ?_
  refine .bind (AuditLogger.log_evolves E engine.audit _ _ (hQ _ trivial)) fun _ => ?_
  refine .bind engine.downloader_evolves fun downloader => ?_
  refine .bind (downloader.fetchAndVerifyManifest_evolves hQ) fun manifest => ?_
  exact AuditLogger.log_evolves E engine.audit _ _ (hQ _ trivial)

/-- Starting the watchdog spawns a process and nothing else. -/
theorem startWatchdog_evolves (appPid : UInt32) (timeout grace : UInt64) :
    Comp.Respects (Evolves Q) (startWatchdog appPid timeout grace) :=
  .bind (.mapErr _ currentExe_evolves) fun _ => .bind (.mapErr _ bareCall_evolves) fun _ =>
    .bind .get fun _ => emit_evolves (hQ _ trivial)

omit hQ in

/-- Choosing a version only reads. -/
theorem mostRecentBackupVersion_evolves (backupDir : UnixPath) :
    Comp.Respects (Evolves Q) (mostRecentBackupVersion backupDir) :=
  .bind (.mapErr _ (fs.readDir_evolves _)) fun _ => require_evolves _ _

/-- A rollback has the effects of its parts. -/
theorem synqroRollback_evolves (hb : ∀ version, Q (.blacklisted version))
    (ht : ∀ data, Q (.logged .RollbackTriggered data))
    (hs : ∀ data, Q (.logged .RollbackSuccess data))
    (ENGINE : Option SynqroEngine) : Comp.Respects (Evolves Q) (synqroRollback E ENGINE) := by
  refine .bind (require_evolves _ _) fun engine => ?_
  refine .bind (AuditLogger.log_evolves E engine.audit _ _ (ht _)) fun _ => ?_
  refine .bind (mostRecentBackupVersion_evolves _) fun version => ?_
  refine fun w => rollback_evolves (fun e he => ?_) hs fun _ _ _ _ _ _ _ _ _ _ _ => hQ _ trivial
  cases e with
  | blacklisted v => exact hb v
  | logged event data => rcases he with rfl | rfl <;> exact hQ _ trivial
  | renamed => exact hQ _ trivial
  | requested | attempted | deployed | spawned => exact he.elim

/-- What follows the fetch in an update deploys and logs no other version than the manifest's. -/
theorem applyManifest_evolves (engine : SynqroEngine) (downloader : SynqroDownloader)
    (manifest : SynqroManifest) (hd : Q (.deployed manifest.version))
    (hl : ∀ path, Q (.logged .UpdateApplied
      (jsonObject [("version", .str manifest.version), ("path", .str path)]))) :
    Comp.Respects (Evolves Q) (applyManifest E engine downloader manifest) := by
  refine .bind (.mapErr _ (fs.createDirAll_evolves _)) fun _ => ?_
  refine .bind (.mapErr _ currentExe_evolves) fun exe => ?_
  refine .bind (takeSnapshot_evolves E _ _ _ _) fun _ => ?_
  refine .bind (downloader.downloadAndVerifyArtifact_evolves
    (fun e he => hQ e he.plain) manifest _ hd
    fun _ _ _ _ => hQ _ trivial) fun path => ?_
  refine .bind (AuditLogger.log_evolves E engine.audit _ _ (hl _)) fun _ => ?_
  exact .bind .get fun w => .ignore (startWatchdog_evolves hQ _ _ _)

omit hQ in

/-- An update has effects of every kind. -/
theorem synqroApplyUpdate_any (ENGINE : Option SynqroEngine) :
    Comp.Respects (Evolves Effect.Any) (synqroApplyUpdate E ENGINE) := by
  refine .bind (require_evolves _ _) fun engine =>
    .bind engine.downloader_evolves fun downloader => ?_
  refine .bind (downloader.fetchAndVerifyManifest_evolves plain_any) fun manifest => ?_
  exact applyManifest_evolves plain_any engine downloader manifest trivial fun _ => trivial

end

end

end Synqro
