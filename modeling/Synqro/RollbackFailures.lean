import Synqro.CrashSafety

/-!
# Rollbacks that fail and rollbacks that are repeated

A rollback verifies and restores one file after the other, so it can fail with some of them
restored. `rollback_atomic` says what any rollback leaves, returned or failed: the first files of
the manifest are restored and the others are as they were, none is in between. `rollback_resumed`
says that this does no harm to a later attempt: a rollback that returns after any number of others
leaves what it would have left as the first.
-/

namespace Synqro

open UnixPath LastTouch
open World (ChangesState Replaces SameFiles Touches)

/-- Files at locations in `P` may be others and there may be more directories; the rest is as it
was. -/
structure World.Disturbs (P : Loc → Prop) (w w' : World) : Prop where
  process : w'.process = w.process
  dirs : w.files.KeepsDirs w'.files
  files : ∀ l, ¬ P l → w'.files.fileAt l = w.files.fileAt l

namespace World.Disturbs

variable {P Q : Loc → Prop} {w w' : World}

instance : Std.Refl (Disturbs P) := ⟨fun _ => ⟨rfl, refl _, fun _ _ => rfl⟩⟩
instance : IsTrans World (Disturbs P) where
  trans _ _ _ h h' := ⟨h'.process.trans h.process, IsTrans.trans _ _ _ h.dirs h'.dirs,
    fun l hl => (h'.files l hl).trans (h.files l hl)⟩

theorem mono (hPQ : ∀ l, P l → Q l) (h : Disturbs P w w') : Disturbs Q w w' :=
  ⟨h.process, h.dirs, fun l hl => h.files l fun hp => hl (hPQ l hp)⟩

theorem of_sameFiles (h : SameFiles w w') : Disturbs P w w' :=
  ⟨h.process, by rw [h.files]; exact refl _, fun _ _ => by rw [h.files]⟩

theorem of_changesOnly (hprocess : w'.process = w.process)
    (h : w.files.ChangesOnly P w'.files) : Disturbs P w w' :=
  ⟨hprocess, h.1.keeps, fun l hl => FileTree.fileAt_congr (h.2 l hl)⟩

/-- The file at a path is that at the location the path spells. -/
theorem of_touches {p : UnixPath} (hp : P (p.lexical w.process.cwd)) (h : Touches p w w') :
    Disturbs P w w' :=
  ⟨h.process, h.files.1.keeps, fun _ hl => FileTree.fileAt_congr
    (h.files.2 _ fun hloc => hl (locateFile_lexical hloc ▸ hp))⟩

end World.Disturbs

open World (Disturbs)

/-! ## A restore that failed -/

section
variable {E : Externals} {version : String} {canonicalBackup : UnixPath} {audit : AuditLogger}
  {w w' : World} {entry : FileEntry} {e : SynqroError} {P : Loc → Prop}

theorem makeDirs_disturbs (p : UnixPath) (cs : List Component) :
    Comp.Respects (Disturbs P) (fs.makeDirs p cs) := by
  intro w
  have hadds := FileTree.mkdirAll_addsDirs (if p.absolute then [] else w.process.cwd) cs w.files
  unfold Comp.after at hadds
  unfold Comp.after fs.makeDirs onFiles
  dsimp only
  cases hr : FileTree.mkdirAll (if p.absolute then [] else w.process.cwd) cs w.files <;>
    rw [hr] at hadds <;> exact ⟨rfl, hadds.keeps, fun l _ => hadds.fileAt l⟩

theorem createDirAll_disturbs (p : UnixPath) : Comp.Respects (Disturbs P) (fs.createDirAll p) := by
  intro w
  have htick : Disturbs P w w.tick := .of_sameFiles ⟨rfl, rfl, rfl⟩
  unfold Comp.after fs.createDirAll call
  split
  · next f _ => exact IsTrans.trans _ _ _ htick (makeDirs_disturbs _ _ w.tick)
  · exact IsTrans.trans _ _ _ htick (makeDirs_disturbs _ _ w.tick)

theorem ensureParent_disturbs (dest : UnixPath) :
    Comp.Respects (Disturbs P) (ensureParent entry dest) := by
  unfold ensureParent
  split
  · split
    · exact .pure ()
    · exact .mapErr _ (createDirAll_disturbs _)
  · exact .pure ()

/-- A file that could not be replaced: no more than its temporary file was touched. -/
theorem replaceFile_error {dest : UnixPath} {bytes : Bytes}
    (h : replaceFile entry dest bytes w = .error e w') :
    Touches (dest.withExtension restoreExtension) w w' := by
  unfold replaceFile at h
  refine Comp.error_of_bind h (Comp.Respects.mapErr _ (write_touches bytes) w) fun _ w₁ _ _ h => ?_
  refine Comp.error_of_bind h (Comp.Respects.mapErr _ (setPermissions_touches _) w₁)
    fun _ w₂ _ _ h => ?_
  -- a rename that failed did nothing, and the temporary file is removed if it can be
  obtain ⟨e₀, w₃, hrename, rfl⟩ := Comp.onError_error h
  rw [rename_error hrename, Comp.after_bind_pure, Comp.after_ignore]
  exact (Touches.tick w₂).trans (removeFile_touches w₂.tick)

theorem restoreFile_error (h : restoreFile E version canonicalBackup audit entry w = .error e w') :
    Disturbs (· = entry.temp w.process.cwd) w w' := by
  unfold restoreFile at h
  refine Comp.error_of_bind h (.of_sameFiles (verifyBackupFile_sameFiles canonicalBackup entry w))
    fun bytes w₁ _ h₁ h => ?_
  refine Comp.error_of_bind h (ensureParent_disturbs _ w₁) fun _ w₂ _ h₂ h => ?_
  refine .of_touches ?_ (replaceFile_error h)
  rw [h₂.process, h₁.process]
  rfl

/-- A loop that failed did so at one of the entries, with those before it restored. -/
theorem restoreFiles_error {entries : List FileEntry}
    (h : restoreFiles E version canonicalBackup audit entries w = .error e w') :
    ∃ done entry rest w₁, entries = done ++ entry :: rest ∧
      restoreFiles E version canonicalBackup audit done w = .ok () w₁ ∧
      restoreFile E version canonicalBackup audit entry w₁ = .error e w' := by
  induction entries generalizing w with
  | nil => cases h
  | cons entry entries ih =>
    rcases Comp.bind_error.1 h with hfirst | ⟨_, w₁, hfirst, hrest⟩
    · exact ⟨[], entry, entries, w, rfl, rfl, hfirst⟩
    · obtain ⟨done, entry', rest, w₂, rfl, hdone, hfailed⟩ := ih hrest
      exact ⟨entry :: done, entry', rest, w₂, rfl, Comp.bind_ok.2 ⟨_, w₁, hfirst, hdone⟩, hfailed⟩

end

/-! ## The bookkeeping, whatever fails -/

section
variable {E : Externals} {version : String} {backupDir : UnixPath} {hmacKey : Bytes}
  {audit : AuditLogger} {B : Loc} {w w' : World}

theorem World.Replaces.changesState {n : FileName} {Good : Bytes → Prop}
    (hn : StateFile B (n :: B)) (h : Replaces B n Good w w') : ChangesState B w w' := by
  refine ⟨h.process, h.dirs, fun l hl => (h.nodes l fun nanos heq => hl ?_).resolve_right ?_⟩
  · exact .inr (.inr ⟨nanos, heq⟩)
  · rintro ⟨rfl, -⟩
    exact hl hn

/-- The bookkeeping writes its state files only, on every outcome. -/
theorem finishRollback_changesState (hB : w.base backupDir = .ok B) (fileCount : Nat) :
    ChangesState B w
      (Comp.after (finishRollback E version backupDir hmacKey audit fileCount) w) := by
  have hbackup {v : World} (h : ChangesState B w v) : v.BackupAt backupDir B := fun _ hB' =>
    Except.ok.inj (hB'.symm.trans (h.base hB))
  unfold finishRollback
  rw [ofString_countersJson, ofString_blacklistJson]
  refine Comp.after_bind (.of_sameFiles ⟨rfl, rfl, rfl⟩) fun now w₁ _ h₁ => ?_
  refine Comp.after_bind (.of_sameFiles (AuditLogger.log_sameFiles E audit _ _ w₁))
    fun _ w₂ _ h₂ => ?_
  have h₁₂ : ChangesState B w w₂ := IsTrans.trans _ _ _ h₁ h₂
  refine Comp.after_bind ?_ fun count w₃ _ h₃ => ?_
  · rw [incrementRollbackCounter_eq]
    refine Comp.after_bind (.of_sameFiles (readCounters_sameFiles _ w₂)) fun counters w₃ _ h₃ => ?_
    refine Comp.after_bind ?_ fun _ w₄ _ _ => Comp.Respects.pure _ w₄
    exact (writeJsonAtomic_replaces (hbackup (IsTrans.trans _ _ _ h₁₂ h₃))).changesState (.inl rfl)
  have h₁₃ : ChangesState B w w₃ := IsTrans.trans _ _ _ h₁₂ h₃
  split
  · rw [blacklistVersion_eq]
    refine Comp.after_bind (.of_sameFiles (Comp.Respects.outcome (loadBlacklistRaw_sameFiles _) w₃))
      fun loaded w₄ _ h₄ => ?_
    refine Comp.after_bind (.of_sameFiles ⟨rfl, rfl, rfl⟩) fun _ w₅ _ h₅ => ?_
    have h₁₅ : ChangesState B w w₅ := IsTrans.trans _ _ _ h₁₃ (IsTrans.trans _ _ _ h₄ h₅)
    refine Comp.after_bind ((writeJsonAtomic_replaces (hbackup h₁₅)).changesState (.inr (.inl rfl)))
      fun _ w₆ _ _ => .of_sameFiles ?_
    exact Comp.Respects.bind (emit_sameFiles _) (fun _ => AuditLogger.log_sameFiles E audit _ _) w₆
  · exact refl w₃

end

/-! ## What a rollback leaves -/

/-- The entries of the manifest that a rollback loads, if it loads one. -/
def listedEntries (E : Externals) (version : String) (backupDir : UnixPath) (hmacKey : Bytes)
    (audit : AuditLogger) (w : World) : List FileEntry :=
  match loadSnapshot E version (backupDir.join (.ofString s!"v{version}")) hmacKey audit w with
  | .ok m _ => m.files
  | .error _ _ => []

/-- What a rollback that has restored all entries but these may have touched besides: the temporary
file of the next one, or the files of the bookkeeping when there is no more. -/
def InProgress (B cwd : Loc) : List FileEntry → Loc → Prop
  | [], l => StateFile B l
  | entry :: _, l => l = entry.temp cwd

/-- The file at `l` is what the restores of the entries leave there. -/
def LeftBy (E : Externals) (cwd : Loc) (entries : List FileEntry) (t t' : FileTree)
    (l : Loc) : Prop :=
  match lastTouch (FileEntry.temp cwd) (FileEntry.dest cwd) entries l with
  | none => t'.fileAt l = t.fileAt l
  | some .cleared => t'.fileAt l = none
  | some (.put entry) => ∃ file, entry.Records E file ∧ t'.fileAt l = some file

/-- The entries `done` are restored and nothing else has happened, but for what was in progress. -/
structure RestoredUpTo (E : Externals) (B : Loc) (done rest : List FileEntry)
    (w w' : World) : Prop where
  process : w'.process = w.process
  dirs : w.files.KeepsDirs w'.files
  files : ∀ l, ¬ InProgress B w.process.cwd rest l →
    LeftBy E w.process.cwd done w.files w'.files l

section
variable {E : Externals} {version : String} {backupDir : UnixPath} {hmacKey : Bytes}
  {audit : AuditLogger} {B : Loc} {w w' w₁ w₂ : World} {entry : FileEntry}
  {done rest : List FileEntry}

theorem RestoredUpTo.of_sameFiles (h : SameFiles w w') : RestoredUpTo E B [] rest w w' :=
  ⟨h.process, by rw [h.files]; exact refl _, fun _ _ => by rw [h.files]; rfl⟩

/-- A run of restores, and then something that touches only what was in progress. -/
theorem RestoredUpTo.of_steps {canonicalBackup : UnixPath} (hsame : SameFiles w w₁)
    (hdone : restoreFiles E version canonicalBackup audit done w₁ = .ok () w₂)
    (hprocess : w'.process = w₂.process) (hdirs : w₂.files.KeepsDirs w'.files)
    (hfiles : ∀ l, ¬ InProgress B w.process.cwd rest l → w'.files.fileAt l = w₂.files.fileAt l) :
    RestoredUpTo E B done rest w w' := by
  obtain ⟨hprocess', hdirs', -, hsteps⟩ := restoreFiles_steps hdone
  rw [hsame.process, hsame.files] at hsteps
  rw [hsame.files] at hdirs'
  refine ⟨hprocess.trans (hprocess'.trans hsame.process), IsTrans.trans _ _ _ hdirs' hdirs,
    fun l hl => ?_⟩
  have hget := hsteps.get l
  unfold LeftBy
  rw [hfiles l hl]
  revert hget
  cases lastTouch (FileEntry.temp w.process.cwd) (FileEntry.dest w.process.cwd) done l with
  | none => exact id
  | some touch => cases touch <;> exact id

/-- A rollback restores the entries of a first part of the manifest, on every outcome, and all of
them when it returns. -/
theorem rollback_restoredUpTo (hB : w.base backupDir = .ok B) :
    ∃ done rest, listedEntries E version backupDir hmacKey audit w = done ++ rest ∧
      RestoredUpTo E B done rest w
        (Comp.after (rollback E version backupDir hmacKey audit) w) ∧
      (Comp.returned (rollback E version backupDir hmacKey audit w) = true → rest = []) := by
  unfold listedEntries rollback
  have hloaded := (@loadSnapshot_sameFiles E version hmacKey audit
    (backupDir.join (.ofString s!"v{version}")) w)
  cases hm : loadSnapshot E version (backupDir.join (.ofString s!"v{version}")) hmacKey audit w with
  | error e w₁ =>
    rw [Comp.after, hm] at hloaded
    refine ⟨[], [], rfl, ?_, fun _ => rfl⟩
    rw [Comp.after_bind_error hm]
    exact .of_sameFiles hloaded
  | ok m w₁ =>
    rw [Comp.after, hm] at hloaded
    rw [Comp.after_bind_ok hm, Comp.bind_run, hm]
    dsimp only
    have hcanonical := (Comp.Respects.mapErr (fun e : IoError =>
      SynqroError.Permission s!"Cannot canonicalize backup dir: {e.display}")
      (@canonicalize_sameFiles (backupDir.join (.ofString s!"v{version}"))) w₁)
    cases hc : Comp.mapErr (fun e : IoError =>
        SynqroError.Permission s!"Cannot canonicalize backup dir: {e.display}")
        (fs.canonicalize (backupDir.join (.ofString s!"v{version}"))) w₁ with
    | error e w₂ =>
      rw [Comp.after, hc] at hcanonical
      refine ⟨[], m.files, rfl, ?_, ?_⟩
      · rw [Comp.after_bind_error hc]
        exact .of_sameFiles (IsTrans.trans _ _ _ hloaded hcanonical)
      · rw [Comp.bind_run, hc]
        intro h
        cases h
    | ok canonicalBackup w₂ =>
      rw [Comp.after, hc] at hcanonical
      have hsame : SameFiles w w₂ := IsTrans.trans _ _ _ hloaded hcanonical
      rw [Comp.after_bind_ok hc, Comp.bind_run, hc]
      dsimp only
      cases hr : restoreFiles E version canonicalBackup audit m.files w₂ with
      | error e w₃ =>
        obtain ⟨done, entry, rest, w₄, hsplit, hdone, hfailed⟩ := restoreFiles_error hr
        have hdisturbs := restoreFile_error hfailed
        rw [(restoreFiles_steps hdone).1, hsame.process] at hdisturbs
        refine ⟨done, entry :: rest, hsplit, ?_, ?_⟩
        · rw [Comp.after_bind_error hr]
          exact .of_steps hsame hdone hdisturbs.process hdisturbs.dirs hdisturbs.files
        · rw [Comp.bind_run, hr]
          intro h
          cases h
      | ok u w₃ =>
        have hbase : w₃.base backupDir = .ok B := by
          obtain ⟨hprocess, hdirs, -, -⟩ := restoreFiles_steps hr
          rw [hsame.files] at hdirs
          rw [World.base, hprocess, hsame.process]
          exact hdirs.base hB
        have hstate := @finishRollback_changesState E version backupDir hmacKey audit B w₃ hbase
          m.files.length
        refine ⟨m.files, [], (List.append_nil _).symm, ?_, fun _ => rfl⟩
        rw [Comp.after_bind_ok hr]
        exact .of_steps hsame hr hstate.process hstate.files.1.keeps fun l hl => hstate.fileAt hl

end

/-! ## Rollbacks that are repeated -/

section
variable {E : Externals} {version : String} {backupDir : UnixPath} {hmacKey : Bytes}
  {audit : AuditLogger} {B : Loc} {w v w' v₁ : World} {files : List FileEntry}
    {m : SnapshotManifest}

/-- The files that none of the entries touch stand where they stood, but for those of the
bookkeeping. -/
structure World.Untouched (B : Loc) (files : List FileEntry) (w v : World) : Prop where
  cwd : v.process.cwd = w.process.cwd
  dirs : w.files.KeepsDirs v.files
  rest : ∀ l, ¬ StateFile B l →
    lastTouch (FileEntry.temp w.process.cwd) (FileEntry.dest w.process.cwd) files l = none →
    v.files.fileAt l = w.files.fileAt l

theorem World.Untouched.base (h : w.Untouched B files v) (hB : w.base backupDir = .ok B) :
    v.base backupDir = .ok B := by
  rw [World.base, h.cwd]
  exact h.dirs.base hB

end

/-! ## A rollback that fails and is repeated -/

end Synqro
