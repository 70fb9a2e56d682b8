import Synqro.StateWrites
import Synqro.Traversal

/-!
# What a rollback leaves besides the files it lists

Each entry is written to a sibling of its destination, whose name has another extension, and
renamed. The sibling may be a file of the application or the destination of another entry, and two
paths may spell one destination: `rollback_exact` says when the working directory holds the listed
files and is otherwise as it was.
-/

namespace FileTree

/-- A directory that a backup is based on is still where it was once there are more directories. -/
theorem KeepsDirs.base {t t' : FileTree} (h : t.KeepsDirs t') {cwd B : Loc} {p : UnixPath}
    (hB : p.base t cwd = .ok B) : p.base t' cwd = .ok B := by
  unfold UnixPath.base at hB ⊢
  split at hB
  · next hempty =>
    rw [if_pos hempty]
    exact hB
  · next hempty =>
    rw [if_neg hempty]
    exact h.locate hB

end FileTree

namespace Synqro

open UnixPath LastTouch

/-- The location of an entry's destination. -/
def FileEntry.dest (cwd : Loc) (e : FileEntry) : Loc := (ofString e.path).lexical cwd

/-- The location of its temporary file. -/
def FileEntry.temp (cwd : Loc) (e : FileEntry) : Loc :=
  ((ofString e.path).withExtension restoreExtension).lexical cwd

/-- The directory of a version in the backup directory, as a process in `cwd` spells it. -/
def versionDirIn (backupDir : UnixPath) (cwd : Loc) (version : String) : Loc :=
  (backupDir.join (.ofString s!"v{version}")).lexical cwd

/-- The location of an entry's backup in the version directory `v`. -/
def FileEntry.source (v cwd : Loc) (e : FileEntry) : Loc :=
  ((ofLoc v).join (.ofString e.path)).lexical cwd

/-- The files once an entry is restored. -/
def FileEntry.restored (v cwd : Loc) (e : FileEntry) (files : Loc → Option (Bytes × Mode)) :
    Loc → Option (Bytes × Mode) := fun l =>
  if l = e.dest cwd then (files (e.source v cwd)).map fun file => (file.1, e.mode)
  else if l = e.temp cwd then none else files l

/-- The files once the entries are restored, one after the other. -/
def restored (v cwd : Loc) : List FileEntry → (Loc → Option (Bytes × Mode)) →
    Loc → Option (Bytes × Mode)
  | [], files => files
  | e :: entries, files => restored v cwd entries (e.restored v cwd files)

/-- The file has the digest and the mode that the entry records. -/
structure FileEntry.Records (E : Externals) (e : FileEntry) (file : Bytes × Mode) : Prop where
  sha256 : hexEncode (E.sha256 file.1) = e.sha256
  mode : file.2 = e.mode

/-- The entries record the same. -/
structure FileEntry.SameFile (e e' : FileEntry) : Prop where
  sha256 : e'.sha256 = e.sha256
  mode : e'.mode = e.mode

theorem FileEntry.Records.iff_sameFile {E : Externals} (e e' : FileEntry) (file : Bytes × Mode)
    (h : e'.Records E file) : e.Records E file ↔ e.SameFile e' :=
  ⟨fun h' => ⟨h.sha256.symm.trans h'.sha256, h.mode.symm.trans h'.mode⟩,
    fun h' => ⟨h.sha256.trans h'.sha256, h.mode.trans h'.mode⟩⟩

theorem locateFile_lexical {t : FileTree} {cwd l : Loc} {p : UnixPath}
    (h : p.locateFile t cwd = .ok l) : l = p.lexical cwd := by
  unfold locateFile at h
  split at h
  · cases h
  · exact (locate_lexical h).symm

section
variable {E : Externals} {version : String} {canonicalBackup : UnixPath} {audit : AuditLogger}
  {w w' : World} {u : Unit}

/-- What an entry that was restored has passed: the traversal check, and that its temporary file is
not the directory above. -/
structure FileEntry.Passes (canonicalBackup : UnixPath) (e : FileEntry) : Prop where
  under : assertPathUnderParent (canonicalBackup.join (.ofString e.path)) canonicalBackup = .ok ()
  sibling : ¬ (ofString e.path).DotStem

/-- A file that could be written has a path that keeps its last name. -/
theorem not_dotStem_of_replace {p : UnixPath} {ext : FileName} {t t' : FileTree} {cwd s d : Loc}
    {bytes : Bytes} {mode fresh : Mode} (hs : (p.withExtension ext).locateFile t cwd = .ok s)
    (h : t.replace s d bytes mode fresh = .ok t') : ¬ p.DotStem := by
  intro hstem
  have hdir : t.get s = some .dir := by
    rcases @withExtension_components p ext with
      ⟨_, _, _, -, hnot, -⟩ | ⟨init, n, -, -, heq⟩ | ⟨hnot, -⟩
    · exact absurd hstem hnot
    · exact dir_of_parentDir (congrArg UnixPath.components heq) hs
    · exact absurd hstem hnot
  obtain ⟨hd, -, hgone, -, hdirs⟩ := FileTree.replace_ok h
  by_cases hsd : s = d
  · exact hd.2.2 (hsd ▸ hdir)
  · have hstill := (hdirs s).2 hdir
    rw [hgone hsd] at hstill
    cases hstill

/-- What a restore of one file does to the files. -/
theorem restoreFile_step {entry : FileEntry}
    (h : restoreFile E version canonicalBackup audit entry w = .ok u w') :
    w'.process = w.process ∧ w.files.KeepsDirs w'.files ∧ entry.Passes canonicalBackup ∧
      ∃ bytes, entry.Records E (bytes, entry.mode) ∧ ∀ l, w'.files.fileAt l =
        if l = entry.dest w.process.cwd then some (bytes, entry.mode)
        else if l = entry.temp w.process.cwd then none else w.files.fileAt l := by
  obtain ⟨-, t₁, bytes, s, d, t, hplan, hreplace, rfl⟩ := restoreFile_ok.1 h
  obtain rfl : s = entry.temp w.process.cwd := locateFile_lexical hplan.temp
  obtain rfl : d = entry.dest w.process.cwd := locateFile_lexical hplan.dest
  have hdirs : t₁.SameDirs t := (FileTree.replace_ok hreplace).2.2.2.2
  refine ⟨rfl, IsTrans.trans _ _ _ hplan.parent.addsDirs.keeps hdirs.keeps,
    ⟨hplan.verified.1, not_dotStem_of_replace hplan.temp hreplace⟩, bytes,
      ⟨hplan.verified.2.2, rfl⟩,
    fun l => ?_⟩
  rw [← hplan.parent.addsDirs.fileAt l]
  exact FileTree.replace_fileAt hreplace l

/-- What the restores of the entries do to the files, one after the other. -/
theorem restoreFiles_steps {entries : List FileEntry}
    (h : restoreFiles E version canonicalBackup audit entries w = .ok u w') :
    w'.process = w.process ∧ w.files.KeepsDirs w'.files ∧
      (∀ e ∈ entries, e.Passes canonicalBackup) ∧
      Steps (FileEntry.temp w.process.cwd) (FileEntry.dest w.process.cwd) (FileEntry.Records E)
        entries w.files.fileAt w'.files.fileAt := by
  induction entries generalizing w with
  | nil =>
    cases h
    exact ⟨rfl, refl _, nofun, .nil⟩
  | cons entry entries ih =>
    obtain ⟨_, w₁, hfirst, hrest⟩ := Comp.bind_ok.1 h
    obtain ⟨hprocess, hdirs, hpasses, bytes, hrecords, hstep⟩ := restoreFile_step hfirst
    obtain ⟨hprocess', hdirs', hpasses', hsteps⟩ := ih hrest
    rw [hprocess] at hsteps
    exact ⟨hprocess'.trans hprocess, IsTrans.trans _ _ _ hdirs hdirs',
      List.forall_mem_cons.2 ⟨hpasses, hpasses'⟩, .cons hrecords hstep hsteps⟩

/-- What a restore of one file leaves is decided by the files before it. -/
theorem restoreFile_restored {v : Loc} {entry : FileEntry}
    (h : restoreFile E version (.ofLoc v) audit entry w = .ok u w') :
    w'.process = w.process ∧ w'.env = w.env ∧ w'.calls = w.calls + restoreCalls entry ∧
      w'.files.fileAt = entry.restored v w.process.cwd w.files.fileAt := by
  obtain ⟨-, t₁, bytes, s, d, t, hplan, hreplace, rfl⟩ := restoreFile_ok.1 h
  obtain rfl : s = entry.temp w.process.cwd := locateFile_lexical hplan.temp
  obtain rfl : d = entry.dest w.process.cwd := locateFile_lexical hplan.dest
  obtain ⟨-, ⟨l, m, hl, hbytes⟩, -⟩ := hplan.verified
  obtain rfl : l = entry.source v w.process.cwd := locateFile_lexical hl
  refine ⟨rfl, rfl, rfl, funext fun l => ?_⟩
  rw [FileEntry.restored, FileTree.fileAt_of_get hbytes, ← hplan.parent.addsDirs.fileAt l]
  exact FileTree.replace_fileAt hreplace l

theorem restoreFiles_restored {v : Loc} {entries : List FileEntry}
    (h : restoreFiles E version (.ofLoc v) audit entries w = .ok u w') :
    w'.process = w.process ∧ w'.env = w.env ∧
      w'.calls = w.calls + (entries.map restoreCalls).sum ∧
      w'.files.fileAt = restored v w.process.cwd entries w.files.fileAt := by
  induction entries generalizing w with
  | nil =>
    cases h
    exact ⟨rfl, rfl, rfl, rfl⟩
  | cons entry entries ih =>
    obtain ⟨_, w₁, hfirst, hrest⟩ := Comp.bind_ok.1 h
    obtain ⟨hprocess, henv, hcalls, hfiles⟩ := restoreFile_restored hfirst
    obtain ⟨hprocess', henv', hcalls', hfiles'⟩ := ih hrest
    rw [hprocess, hfiles] at hfiles'
    refine ⟨hprocess'.trans hprocess, henv'.trans henv, ?_, hfiles'⟩
    rw [hcalls', hcalls, List.map_cons, List.sum_cons, Nat.add_assoc]

end

/-! ## The bookkeeping -/

/-- Only files of the bookkeeping changed. -/
structure World.ChangesState (B : Loc) (w w' : World) : Prop where
  process : w'.process = w.process
  files : w.files.ChangesOnly (StateFile B) w'.files

namespace World.ChangesState

variable {B : Loc} {w w' : World}

instance : Std.Refl (ChangesState B) := ⟨fun _ => ⟨rfl, refl _⟩⟩
instance : IsTrans World (ChangesState B) :=
  ⟨fun _ _ _ h h' => ⟨h'.process.trans h.process, IsTrans.trans _ _ _ h.files h'.files⟩⟩

theorem of_sameFiles (h : World.SameFiles w w') : ChangesState B w w' :=
  ⟨h.process, by rw [h.files]; exact refl _⟩

/-- The backup directory is where it was. -/
theorem base (h : ChangesState B w w') {dir : UnixPath} (hB : w.base dir = .ok B) :
    w'.base dir = .ok B := by
  rw [World.base, h.process, UnixPath.base_sameDirs h.files.1]
  exact hB

theorem of_stored {n : FileName} {value : Json} (hn : StateFile B (n :: B))
    (h : w.Stored n B value w') : ChangesState B w w' :=
  ⟨h.process, h.dirs, fun l hl => h.rest l (fun heq => hl (heq ▸ hn))
    fun nanos heq => hl (.inr (.inr ⟨nanos, heq⟩))⟩

end World.ChangesState

open World (ChangesState SameFiles)

theorem World.ChangesState.fileAt {B l : Loc} {w w' : World} (h : ChangesState B w w')
    (hl : ¬ StateFile B l) : w'.files.fileAt l = w.files.fileAt l :=
  FileTree.fileAt_congr (h.files.2 l hl)

section
variable {E : Externals} {version : String} {backupDir : UnixPath} {hmacKey : Bytes}
  {audit : AuditLogger} {B : Loc} {w w' : World}

theorem readCounters_sameFiles (path : UnixPath) :
    Comp.Respects SameFiles (readCounters E path) := by
  have hexists : Comp.Respects SameFiles (fs.pathExists path : M Bool) :=
    .bind (.outcome (call_sameFiles (queryFiles_sameFiles _) fun _ => .pure ())) fun _ => .pure _
  refine .bind hexists fun found => ?_
  split
  · exact .bind (.mapErr _ read_sameFiles) fun _ => .ofExcept _
  · exact .pure _

theorem incrementRollbackCounter_state (hB : w.base backupDir = .ok B) {count : UInt32}
    (h : incrementRollbackCounter E version (backupDir.join (.ofName countersJson)) w =
      .ok count w') : ChangesState B w w' := by
  rw [incrementRollbackCounter_eq] at h
  obtain ⟨counters, w₁, hread, hstore⟩ := Comp.bind_ok.1 h
  have hsame : ChangesState B w w₁ := .of_sameFiles ((readCounters_sameFiles _).ok hread)
  obtain ⟨_, w₂, hwrite, hreturn⟩ := Comp.bind_ok.1 hstore
  cases hreturn
  exact IsTrans.trans _ _ _ hsame (.of_stored (.inl rfl)
    (writeJsonAtomic_stored (hsame.base hB) hwrite).1)

theorem loadBlacklistRaw_sameFiles (path : UnixPath) :
    Comp.Respects SameFiles (loadBlacklistRaw E path hmacKey) := by
  rw [loadBlacklistRaw_eq]
  exact .bind (.mapErr _ read_sameFiles) fun _ => .ofExcept _

theorem blacklistVersion_state (hB : w.base backupDir = .ok B) {u : Unit}
    (h : blacklistVersion E version (backupDir.join (.ofName blacklistJson)) hmacKey audit w =
      .ok u w') : ChangesState B w w' := by
  rw [blacklistVersion_eq] at h
  obtain ⟨loaded, w₁, hload, hstore⟩ := Comp.bind_ok.1 h
  have hsame : ChangesState B w w₁ :=
    .of_sameFiles ((Comp.Respects.outcome (loadBlacklistRaw_sameFiles _)).ok hload)
  obtain ⟨_, w₂, hissue, hstore⟩ := Comp.bind_ok.1 hstore
  have hissued : SameFiles w₁ w₂ := by
    rw [issue_ok.1 hissue]
    exact ⟨rfl, rfl, rfl⟩
  have hsame₂ : ChangesState B w w₂ := IsTrans.trans _ _ _ hsame (.of_sameFiles hissued)
  obtain ⟨_, w₃, hwrite, hlog⟩ := Comp.bind_ok.1 hstore
  have hstored : ChangesState B w₂ w₃ :=
    .of_stored (.inr (.inl rfl)) (writeJsonAtomic_stored (hsame₂.base hB) hwrite).1
  have hlogged : SameFiles w₃ w' := (Comp.Respects.bind (emit_sameFiles _) fun _ =>
    AuditLogger.log_sameFiles E audit _ _).ok hlog
  exact IsTrans.trans _ _ _ hsame₂ (IsTrans.trans _ _ _ hstored (.of_sameFiles hlogged))

/-- The bookkeeping of a rollback writes its state files only. -/
theorem finishRollback_state (hB : w.base backupDir = .ok B) {fileCount : Nat} {u : Unit}
    (h : finishRollback E version backupDir hmacKey audit fileCount w = .ok u w') :
    ChangesState B w w' := by
  unfold finishRollback at h
  rw [ofString_countersJson, ofString_blacklistJson] at h
  obtain ⟨_, w₁, hnow, h⟩ := Comp.bind_ok.1 h
  have hticked : SameFiles w w₁ := by
    rw [(now_ok.1 hnow).2]
    exact ⟨rfl, rfl, rfl⟩
  obtain ⟨_, w₂, hlog, h⟩ := Comp.bind_ok.1 h
  have hsame : SameFiles w₁ w₂ := (AuditLogger.log_sameFiles E audit _ _).ok hlog
  have hlogged : ChangesState B w w₂ := .of_sameFiles (IsTrans.trans _ _ _ hticked hsame)
  obtain ⟨count, w₃, hcount, h⟩ := Comp.bind_ok.1 h
  have hcounted : ChangesState B w w₃ :=
    IsTrans.trans _ _ _ hlogged (incrementRollbackCounter_state (hlogged.base hB) hcount)
  split at h
  · exact IsTrans.trans _ _ _ hcounted (blacklistVersion_state (hcounted.base hB) h)
  · cases h
    exact hcounted

end

/-! ## The rollback -/

/-- The files of the working directory outside the backup directory. -/
def InWorkingDir (cwd B l : Loc) : Prop := cwd <:+ l ∧ ¬ B <:+ l

section
variable {E : Externals} {version : String} {backupDir : UnixPath} {hmacKey : Bytes}
  {audit : AuditLogger} {B : Loc} {w w' w₁ : World} {m : SnapshotManifest}

/-- The listed destinations hold what their entries record, and the other files of the working
directory are as they were. -/
def RestoresExactly (E : Externals) (B : Loc) (entries : List FileEntry) (w w' : World) : Prop :=
  Exact (FileEntry.temp w.process.cwd) (FileEntry.dest w.process.cwd) (FileEntry.Records E)
    (InWorkingDir w.process.cwd B) entries w.files.fileAt w'.files.fileAt

/-- No later entry overwrites the destination of an entry with another file or removes it as its own
temporary file, and where a temporary file is no destination there was no file. -/
structure TempsFree (B cwd : Loc) (entries : List FileEntry) (t : FileTree) : Prop where
  last : ∀ e ∈ entries,
    ∃ e', lastTouch (FileEntry.temp cwd) (FileEntry.dest cwd) entries (e.dest cwd) =
      some (.put e') ∧ e.SameFile e'
  free : ∀ e ∈ entries, e.temp cwd ∉ entries.map (FileEntry.dest cwd) → ¬ B <:+ e.temp cwd →
    t.fileAt (e.temp cwd) = none

/-- The temporary file of a relative entry that passed the check is in the working directory. -/
theorem FileEntry.Passes.temp_below {v cwd : Loc} {e : FileEntry} (h : e.Passes (.ofLoc v))
    (hrelative : (ofString e.path).absolute = false) : cwd <:+ e.temp cwd := by
  obtain ⟨ns, -, hns⟩ := @lexical_withExtension _ restoreExtension hrelative
    ((assertPathUnderParent_relative hrelative).1 h.under) h.sibling
  rw [FileEntry.temp, hns]
  exact List.suffix_append ns cwd

/-- A rollback that returned: the entries were restored one after the other, and then the
bookkeeping was done. -/
theorem rollback_parts (h : rollback E version backupDir hmacKey audit w = .ok () w')
    (hm : loadSnapshot E version (backupDir.join (.ofString s!"v{version}")) hmacKey audit w =
      .ok m w₁) (hB : w.base backupDir = .ok B) :
    ∃ w₂ w₃, SameFiles w w₂ ∧ w₂.calls = w.calls + 2 ∧
      restoreFiles E version (.ofLoc (versionDirIn backupDir w.process.cwd version))
        audit m.files w₂ =
        .ok () w₃ ∧ w₃.base backupDir = .ok B ∧
      finishRollback E version backupDir hmacKey audit m.files.length w₃ = .ok () w' := by
  unfold rollback at h
  obtain ⟨m', w₁', hm', h⟩ := Comp.bind_ok.1 h
  cases hm'.symm.trans hm
  obtain ⟨canonicalBackup, w₂, hcanonical, h⟩ := Comp.bind_ok.1 h
  obtain ⟨_, w₃, hrestore, hfinish⟩ := Comp.bind_ok.1 h
  have hloaded : SameFiles w w₁ := (loadSnapshot_sameFiles _).ok hm'
  have hsame : SameFiles w w₂ := IsTrans.trans _ _ _ hloaded
    ((Comp.Respects.mapErr _ canonicalize_sameFiles).ok hcanonical)
  obtain ⟨-, -, -, hcalls₁⟩ := loadSnapshot_ok.1 hm'
  obtain ⟨-, ⟨v, hv, rfl, -⟩, hcalls₂⟩ := fs.canonicalize_ok.1 (Comp.mapErr_ok.1 hcanonical)
  obtain rfl : versionDirIn backupDir w.process.cwd version = v := by
    rw [← hloaded.process]
    exact locate_lexical hv
  refine ⟨w₂, w₃, hsame, ?_, hrestore, ?_, hfinish⟩
  · rw [hcalls₂, hcalls₁]
    rfl
  · obtain ⟨hprocess, hdirs, -, -⟩ := restoreFiles_steps hrestore
    rw [World.base, hprocess, hsame.process]
    rw [hsame.files] at hdirs
    exact hdirs.base hB

/-- The state files that a rollback of the entries writes. -/
def bookkeeping (E : Externals) (version : String) (backupDir : UnixPath) (hmacKey : Bytes)
    (B : Loc)
    (entries : List FileEntry) (w : World) : List StateFileWrite :=
  stateWrites E hmacKey B w.env w.process.freshMode version
    (w.calls + 2 + (entries.map restoreCalls).sum + 6)
    (restored (versionDirIn backupDir w.process.cwd version) w.process.cwd entries w.files.fileAt)

/-- The entries passed their checks and were restored one after the other, and then the bookkeeping
wrote the state files that the files before the rollback decide. -/
theorem rollback_steps (h : rollback E version backupDir hmacKey audit w = .ok () w')
    (hm : loadSnapshot E version (backupDir.join (.ofString s!"v{version}")) hmacKey audit w =
      .ok m w₁) (hB : w.base backupDir = .ok B) :
    ∃ v w₂, (∀ e ∈ m.files, e.Passes (.ofLoc v)) ∧
      Steps (FileEntry.temp w.process.cwd) (FileEntry.dest w.process.cwd)
        (FileEntry.Records E) m.files
        w.files.fileAt w₂.files.fileAt ∧ ChangesState B w₂ w' ∧
      Writes (bookkeeping E version backupDir hmacKey B m.files w) w₂.files.fileAt
        w'.files.fileAt := by
  obtain ⟨w₂, w₃, hsame, hcalls, hrestore, hbase, hfinish⟩ := rollback_parts h hm hB
  obtain ⟨-, -, hpasses, hsteps⟩ := restoreFiles_steps hrestore
  obtain ⟨hprocess, henv, hcalls₃, hfiles⟩ := restoreFiles_restored hrestore
  have hwrites := finishRollback_writes hbase hfinish
  rw [hfiles] at hwrites
  rw [hprocess, henv, hcalls₃, hcalls, hsame.process, hsame.env, hsame.files] at hwrites
  rw [hsame.process, hsame.files] at hsteps
  refine ⟨_, w₃, hpasses, hsteps, finishRollback_state hbase hfinish, ?_⟩
  rw [hfiles, hsame.process, hsame.files]
  exact hwrites

/-- What touches the destination of an entry last leaves what the entry records: the bookkeeping
`ss` where it touches it, and else the last of the restores. Where a temporary file is no
destination there was no file. -/
structure DestinationsKept (E : Externals) (B cwd : Loc) (entries : List FileEntry)
    (ss : List StateFileWrite) (t : FileTree) : Prop where
  restored : ∀ e ∈ entries,
    lastTouch StateFileWrite.temp StateFileWrite.dest ss (e.dest cwd) = none →
      ∃ e', lastTouch (FileEntry.temp cwd) (FileEntry.dest cwd) entries (e.dest cwd) =
        some (.put e') ∧ e.SameFile e'
  rewritten : ∀ e ∈ entries,
    lastTouch StateFileWrite.temp StateFileWrite.dest ss (e.dest cwd) ≠ none →
      ∃ s, lastTouch StateFileWrite.temp StateFileWrite.dest ss (e.dest cwd) = some (.put s) ∧
        e.Records E s.file
  free : ∀ e ∈ entries, e.temp cwd ∉ entries.map (FileEntry.dest cwd) → ¬ B <:+ e.temp cwd →
    t.fileAt (e.temp cwd) = none

/-- A rollback that returned has restored exactly the listed files exactly when their destinations
are kept. -/
theorem rollback_exact (h : rollback E version backupDir hmacKey audit w = .ok () w')
    (hm : loadSnapshot E version (backupDir.join (.ofString s!"v{version}")) hmacKey audit w =
      .ok m w₁) (hB : w.base backupDir = .ok B)
    (hrelative : ∀ e ∈ m.files, (ofString e.path).absolute = false) :
    RestoresExactly E B m.files w w' ↔ DestinationsKept E B w.process.cwd m.files
      (bookkeeping E version backupDir hmacKey B m.files w) w.files := by
  obtain ⟨v, w₂, hpasses, hsteps, hfinished, hwrites⟩ := rollback_steps h hm hB
  have hbelow (e : FileEntry) (he : e ∈ m.files) : w.process.cwd <:+ e.temp w.process.cwd :=
    (hpasses e he).temp_below (hrelative e he)
  have hrest (l : Loc) (hl : InWorkingDir w.process.cwd B l) :
    w'.files.fileAt l = w₂.files.fileAt l :=
    hfinished.fileAt fun hs => hl.2 hs.below
  have hput (e : FileEntry) (he : e ∈ m.files) := hsteps.put_iff FileEntry.Records.iff_sameFile he
  have hunlisted : (∀ l, InWorkingDir w.process.cwd B l →
      l ∉ m.files.map (FileEntry.dest w.process.cwd) → w₂.files.fileAt l = w.files.fileAt l) ↔ _ :=
    hsteps.rest_iff
  constructor
  · rintro ⟨hlisted, hothers⟩
    refine ⟨fun e he huntouched => ?_, fun e he htouched => ?_, fun e he hlisted' hB' => ?_⟩
    · exact (hput e he).1 ((hwrites.put_iff _).1 (hlisted e he) |>.1 huntouched)
    · exact ((hwrites.put_iff _).1 (hlisted e he)).2 htouched
    · refine hunlisted.1 (fun l hl hl' => ?_) e he hlisted' ⟨hbelow e he, hB'⟩
      rw [← hrest l hl]
      exact hothers l hl hl'
  · rintro ⟨hrestored, hrewritten, hfree⟩
    refine ⟨fun e he => (hwrites.put_iff _).2 ⟨fun huntouched => ?_, hrewritten e he⟩,
      fun l hl hl' => ?_⟩
    · exact (hput e he).2 (hrestored e he huntouched)
    · rw [hrest l hl]
      exact hunlisted.2 (fun e he hlisted hinside => hfree e he hlisted hinside.2) l hl hl'

/-- Destinations that are no state files are kept exactly when the temporary files are free. -/
theorem destinationsKept_iff {cwd : Loc} {entries : List FileEntry} {t : FileTree}
    (hstate : ∀ e ∈ entries, ¬ StateFile B (e.dest cwd)) :
    DestinationsKept E B cwd entries (bookkeeping E version backupDir hmacKey B entries w) t ↔
      TempsFree B cwd entries t := by
  have huntouched (e : FileEntry) (he : e ∈ entries) :
      lastTouch StateFileWrite.temp StateFileWrite.dest
        (bookkeeping E version backupDir hmacKey B entries w)
        (e.dest cwd) = none := stateWrites_untouched (hstate e he)
  exact ⟨fun h => ⟨fun e he => h.restored e he (huntouched e he), h.free⟩,
    fun h => ⟨fun e he _ => h.last e he, fun e he htouched => absurd (huntouched e he) htouched,
      h.free⟩⟩

end

/-! ## A rollback of one file -/

/-- The temporary file of the executable. -/
def appTemp : Loc := ⟨"app.synqro_restore.tmp", by decide⟩ :: appExe.tail

/-- The snapshot was taken, and then the application made a file of that name. -/
def tempTaken : World :=
  { snapshotTaken with files := snapshotTaken.files.set appTemp (.file [9] 0o644) }

/-- A rollback to the snapshot. -/
def appRollback : M Unit := rollback .running "1.0.0" (.ofString "/backup") [7] ⟨[], ""⟩

/-- The manifest of a version's snapshot. -/
def appSnapshot (version : String) : M SnapshotManifest :=
  loadSnapshot .running version ((ofString "/backup").join (.ofString s!"v{version}")) [7] ⟨[], ""⟩

/-- The paths that a snapshot lists, if it loads. -/
def pathsOf : EStateM.Result SynqroError World SnapshotManifest → Option (List String)
  | .ok m _ => some (m.files.map (·.path))
  | .error _ _ => none

theorem appRollback_runs :
    (∀ w ∈ [snapshotTaken, tempTaken], Comp.returned (appRollback w) = true ∧
      pathsOf (appSnapshot "1.0.0" w) = some ["app"] ∧
      w.base (.ofString "/backup") = .ok backupLoc ∧
      w.process.cwd = appExe.tail) ∧
    snapshotTaken.files.fileAt appTemp = none ∧ tempTaken.files.fileAt appTemp ≠ none ∧
      (Comp.after appRollback tempTaken).files.fileAt appTemp = none := by
  decide +kernel

/-- A snapshot that lists the executable only. -/
theorem appSnapshot_of_paths {w : World} (h : pathsOf (appSnapshot "1.0.0" w) = some ["app"]) :
    ∃ m w₁ e, appSnapshot "1.0.0" w = .ok m w₁ ∧ m.files = [e] ∧ e.path = "app" := by
  cases hload : appSnapshot "1.0.0" w with
  | error e w₁ =>
    rw [hload] at h
    cases h
  | ok m w₁ =>
    rw [hload] at h
    obtain ⟨e, hfiles, hpath⟩ := List.map_eq_singleton_iff.1 (Option.some.inj h)
    exact ⟨m, w₁, e, rfl, hfiles, hpath⟩

section
variable {e : FileEntry} (he : e.path = "app")
include he

theorem app_dest : e.dest appExe.tail = appExe := by
  rw [FileEntry.dest, he]
  decide

theorem app_temp : e.temp appExe.tail = appTemp := by
  rw [FileEntry.temp, he]
  decide

theorem app_relative : (ofString e.path).absolute = false := by
  rw [he]
  decide

theorem app_not_stateFile : ¬ StateFile backupLoc (e.dest appExe.tail) := by
  intro hstate
  have hbelow := hstate.below
  rw [app_dest he] at hbelow
  revert hbelow
  decide

end

/-- With no file in its way the executable is restored and nothing else is touched. -/
theorem rollback_exact_snapshotTaken : ∃ m w₁ w', appSnapshot "1.0.0" snapshotTaken = .ok m w₁ ∧
    appRollback snapshotTaken = .ok () w' ∧ m.files.map (·.path) = ["app"] ∧
    RestoresExactly .running backupLoc m.files snapshotTaken w' := by
  obtain ⟨hreturned, hpaths, hbase, hcwd⟩ := appRollback_runs.1 snapshotTaken (by simp)
  obtain ⟨m, w₁, e, hload, hfiles, hpath⟩ := appSnapshot_of_paths hpaths
  obtain ⟨⟨⟩, w', hok⟩ := Comp.returned_iff.1 hreturned
  refine ⟨m, w₁, w', hload, hok, by rw [hfiles, List.map_singleton, hpath], ?_⟩
  refine (rollback_exact hok hload hbase ?_).2 ((destinationsKept_iff ?_).2 ⟨?_, ?_⟩)
  all_goals rw [hfiles]; simp only [List.forall_mem_singleton, hcwd]
  · exact app_relative hpath
  · exact app_not_stateFile hpath
  · exact ⟨e, by simp [lastTouch, touch], rfl, rfl⟩
  · rw [app_temp hpath]
    exact fun _ _ => appRollback_runs.2.1

/-- An existing file of the name of a temporary file is removed. -/
theorem restore_clears : ¬ ∀ (E : Externals) (version : String) (backupDir : UnixPath)
    (hmacKey : Bytes) (audit : AuditLogger) (w w' w₁ : World) (m : SnapshotManifest)
    (B : Loc),
    rollback E version backupDir hmacKey audit w = .ok () w' →
      loadSnapshot E version (backupDir.join (.ofString s!"v{version}")) hmacKey audit
        w = .ok m w₁ →
      w.base backupDir = .ok B → (m.files.map (·.path)).Nodup →
      (∀ e ∈ m.files, (ofString e.path).absolute = false) → RestoresExactly E B m.files w w' := by
  intro h
  obtain ⟨hreturned, hpaths, hbase, hcwd⟩ := appRollback_runs.1 tempTaken (by simp)
  obtain ⟨m, w₁, e, hload, hfiles, hpath⟩ := appSnapshot_of_paths hpaths
  obtain ⟨⟨⟩, w', hok⟩ := Comp.returned_iff.1 hreturned
  have hrelative : ∀ e ∈ m.files, (ofString e.path).absolute = false := by
    rw [hfiles]
    exact List.forall_mem_singleton.2 (app_relative hpath)
  have hnodup : (m.files.map (·.path)).Nodup := by
    rw [hfiles]
    exact List.nodup_singleton _
  have hexact := h _ "1.0.0" _ _ _ tempTaken w' w₁ m backupLoc hok hload hbase hnodup hrelative
  have hrest := hexact.rest appTemp
  rw [hcwd, hfiles, List.map_singleton, app_dest hpath] at hrest
  have hcleared := appRollback_runs.2.2.2
  rw [Comp.after, hok] at hcleared
  exact appRollback_runs.2.2.1 ((hrest ⟨by decide, by decide⟩ (by decide)).symm.trans hcleared)

end Synqro
