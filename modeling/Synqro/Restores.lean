import Synqro.Calls
import Synqro.Rollback

/-!
# What a rollback does

The steps of `rollback`, read back: what a step that returned had found and which world it left.
The files of a manifest are restored one after the other; `Restores` is what one of them does to
the files and `RestoresAll` what they do together.
-/

namespace Synqro

section
variable {E : Externals} {w w' : World}

/-! ## The manifest -/

/-- The manifest's tag is that of its payload under the key. -/
def SnapshotManifest.Tagged (E : Externals) (hmacKey : Bytes) (m : SnapshotManifest) : Prop :=
  computeHmac E hmacKey (encodeUtf8 (canonicalJsonSorted
    (unsignedManifest m.version m.createdAt m.files))) = m.manifestHmac

theorem tagsEqual_iff {s t : String} : constantTimeEq (utf8 s) (utf8 t) = true ↔ s = t := by
  rw [constantTimeEq_iff]
  exact ⟨utf8_inj, fun h => h ▸ rfl⟩

/-- A manifest that was loaded is the one its file holds, and tagged. -/
theorem loadSnapshot_ok {version : String} {versionDir : UnixPath} {hmacKey : Bytes}
    {audit : AuditLogger} {m : SnapshotManifest} :
    loadSnapshot E version versionDir hmacKey audit w = .ok m w' ↔
      w.Quiet ∧ (∃ l bytes mode, w.locate (versionDir.join (.ofString "snapshot.json")) = .ok l ∧
        w.files.get l = some (.file bytes mode) ∧
        fromSlice E SnapshotManifest.read bytes = .ok m) ∧ m.Tagged E hmacKey ∧ w' = w.tick := by
  unfold loadSnapshot
  simp only [Comp.bind_ok, Comp.mapErr_ok, fs.read_ok, Comp.ofExcept_ok, mapError_ok]
  constructor
  · rintro ⟨bytes, _, ⟨hq, ⟨l, mode, hl, hb⟩, rfl⟩, m', _, ⟨hm, rfl⟩, h⟩
    split at h
    · obtain ⟨_, _, -, h⟩ := Comp.bind_ok.1 h
      cases h
    · next htag =>
      obtain ⟨rfl, rfl⟩ := Comp.pure_ok.1 h
      refine ⟨hq, ⟨l, bytes, mode, hl, hb, hm⟩, ?_, rfl⟩
      exact tagsEqual_iff.1 (by simpa using htag)
  · rintro ⟨hq, ⟨l, bytes, mode, hl, hb, hm⟩, htag, rfl⟩
    refine ⟨bytes, _, ⟨hq, ⟨l, mode, hl, hb⟩, rfl⟩, m, _, ⟨hm, rfl⟩, ?_⟩
    rw [if_neg]
    · rfl
    · simpa using tagsEqual_iff.2 htag

/-! ## One file -/

/-- A backup file that passed verification is what the entry's digest says. -/
theorem verifyBackupFile_ok {version : String} {canonicalBackup : UnixPath} {audit : AuditLogger}
    {entry : FileEntry} {bytes : Bytes} :
    verifyBackupFile E version canonicalBackup audit entry w = .ok bytes w' ↔
      w.Quiet ∧ assertPathUnderParent (canonicalBackup.join (.ofString entry.path))
        canonicalBackup = .ok () ∧
      (∃ l m, w.locate (canonicalBackup.join (.ofString entry.path)) = .ok l ∧
        w.files.get l = some (.file bytes m)) ∧
      hexEncode (E.sha256 bytes) = entry.sha256 ∧ w' = w.tick := by
  unfold verifyBackupFile
  simp only [Comp.bind_ok, Comp.mapErr_ok, fs.read_ok, Comp.ofExcept_ok]
  constructor
  · rintro ⟨_, _, ⟨ha, rfl⟩, bytes', _, ⟨hq, hfile, rfl⟩, h⟩
    split at h
    · obtain ⟨_, _, -, h⟩ := Comp.bind_ok.1 h
      cases h
    · next hsum =>
      obtain ⟨rfl, rfl⟩ := Comp.pure_ok.1 h
      exact ⟨hq, ha, hfile, tagsEqual_iff.1 (by simpa using hsum), rfl⟩
  · rintro ⟨hq, ha, hfile, hsum, rfl⟩
    refine ⟨(), _, ⟨ha, rfl⟩, bytes, _, ⟨hq, hfile, rfl⟩, ?_⟩
    rw [if_neg]
    · rfl
    · simpa using tagsEqual_iff.2 hsum

/-- A file that was replaced: four calls, and the files are those of the replacement. -/
theorem replaceFile_ok {entry : FileEntry} {dest : UnixPath} {bytes : Bytes} {u : Unit} :
    replaceFile entry dest bytes w = .ok u w' ↔
      w.QuietFor 4 ∧ ∃ s d t, w.locate (dest.withExtension restoreExtension) = .ok s ∧
        w.locate dest = .ok d ∧
        w.files.replace s d bytes entry.mode w.process.freshMode = .ok t ∧
        w' = ((w.advance 4).setFiles t).emit (.renamed s d (t.get d)) := by
  have hquiet : w.QuietFor 4 ↔
    w.Quiet ∧ w.tick.Quiet ∧ w.tick.tick.Quiet ∧ w.tick.tick.tick.Quiet := by
    simp only [World.quietFor_succ, World.quietFor_zero, and_true]
  rw [hquiet]
  unfold replaceFile
  simp only [Comp.bind_ok, Comp.mapErr_ok, Comp.onError_ok, fs.write_ok, fs.setPermissions_ok,
    fs.rename_ok]
  constructor
  · rintro ⟨_, _, ⟨hq₁, hq₂, s, t₁, hs, ho, rfl⟩, _, _, ⟨hq₃, s', t₂, hs', hm, rfl⟩, hq₄, s'',
      d, t₃, hs'', hd, hr, rfl⟩
    have hdirs : w.files.SameDirs t₁ := (FileTree.overwrite_ok ho).2.2
    have hdirs' : w.files.SameDirs t₂ := hdirs.trans (FileTree.chmod_sameDirs hm)
    have hsame (p : UnixPath) := UnixPath.locateFile_sameDirs hdirs w.process.cwd p
    have hsame' (p : UnixPath) := UnixPath.locateFile_sameDirs hdirs' w.process.cwd p
    obtain rfl : s = s' := Except.ok.inj (hs.symm.trans ((hsame _).symm.trans hs'))
    obtain rfl : s = s'' := Except.ok.inj (hs.symm.trans ((hsame' _).symm.trans hs''))
    refine ⟨⟨hq₁, hq₂, hq₃, hq₄⟩, s, d, t₃, hs, (hsame' dest).symm.trans hd, ?_, rfl⟩
    simp only [FileTree.replace, except_bind_ok]
    exact ⟨t₁, ho, t₂, hm, hr⟩
  · rintro ⟨⟨hq₁, hq₂, hq₃, hq₄⟩, s, d, t₃, hs, hd, h, rfl⟩
    simp only [FileTree.replace, except_bind_ok] at h
    obtain ⟨t₁, ho, t₂, hm, hr⟩ := h
    have hdirs : w.files.SameDirs t₁ := (FileTree.overwrite_ok ho).2.2
    have hdirs' : w.files.SameDirs t₂ := hdirs.trans (FileTree.chmod_sameDirs hm)
    have hsame (p : UnixPath) := UnixPath.locateFile_sameDirs hdirs w.process.cwd p
    have hsame' (p : UnixPath) := UnixPath.locateFile_sameDirs hdirs' w.process.cwd p
    exact ⟨(), _, ⟨hq₁, hq₂, s, t₁, hs, ho, rfl⟩, (), _,
      ⟨hq₃, s, t₂, (hsame _).trans hs, hm, rfl⟩, hq₄, s, d, t₃, (hsame' _).trans hs,
      (hsame' dest).trans hd, hr, rfl⟩

/-- The directory that is made for a destination, if any. -/
def parentDir? (dest : UnixPath) : Option UnixPath :=
  dest.parent.bind fun parent => if parent.IsEmpty then none else some parent

/-- The files `t'` are `t` with the directory of `dest` made. -/
def MakesParent (cwd : Loc) (dest : UnixPath) (t t' : FileTree) : Prop :=
  match parentDir? dest with
  | some parent =>
    FileTree.mkdirAll (if parent.absolute then [] else cwd) parent.components t = .ok () t'
  | none => t' = t

/-- The calls that make the directory of a destination. -/
def parentCalls (dest : UnixPath) : Nat := if (parentDir? dest).isSome then 1 else 0

theorem MakesParent.addsDirs {cwd : Loc} {dest : UnixPath} {t t' : FileTree}
    (h : MakesParent cwd dest t t') : t.AddsDirs t' := by
  unfold MakesParent at h
  split at h
  · exact (FileTree.mkdirAll_addsDirs _ _).ok h
  · exact h ▸ .refl t

theorem ensureParent_ok {entry : FileEntry} {dest : UnixPath} {u : Unit} :
    ensureParent entry dest w = .ok u w' ↔ w.QuietFor (parentCalls dest) ∧
      ∃ t, MakesParent w.process.cwd dest w.files t ∧
        w' = (w.advance (parentCalls dest)).setFiles t := by
  have hnone : (pure () : M Unit) w = .ok u w' ↔
      w.QuietFor 0 ∧ ∃ t, t = w.files ∧ w' = (w.advance 0).setFiles t := by
    constructor
    · intro h
      cases h
      exact ⟨w.quietFor_zero, _, rfl, rfl⟩
    · rintro ⟨-, _, rfl, rfl⟩
      rfl
  unfold ensureParent MakesParent parentCalls parentDir?
  cases dest.parent with
  | none => exact hnone
  | some parent =>
    by_cases hp : parent.IsEmpty
    · simp only [Option.bind_some, if_pos hp]
      exact hnone
    · simp only [Option.bind_some, if_neg hp, Comp.mapErr_ok, fs.createDirAll_ok,
        Option.isSome_some, if_true, World.quietFor_succ, World.quietFor_zero, and_true]
      rfl

/-- The bytes of a backup file that passes the checks on its entry. -/
def Verified (E : Externals) (cwd : Loc) (canonicalBackup : UnixPath) (entry : FileEntry)
    (t : FileTree) (bytes : Bytes) : Prop :=
  assertPathUnderParent (canonicalBackup.join (.ofString entry.path)) canonicalBackup = .ok () ∧
    (∃ l m, (canonicalBackup.join (.ofString entry.path)).locateFile t cwd = .ok l ∧
      t.get l = some (.file bytes m)) ∧ hexEncode (E.sha256 bytes) = entry.sha256

/-- The steps of a restore up to the place it writes at: the backup file holds `bytes`, the
directory of the destination is made, the copy is written at `s` and goes to `d`. -/
structure RestorePlan (E : Externals) (cwd : Loc) (canonicalBackup : UnixPath) (entry : FileEntry)
    (t t' : FileTree) (bytes : Bytes) (s d : Loc) : Prop where
  verified : Verified E cwd canonicalBackup entry t bytes
  parent : MakesParent cwd (.ofString entry.path) t t'
  temp : ((UnixPath.ofString entry.path).withExtension restoreExtension).locateFile t' cwd = .ok s
  dest : (UnixPath.ofString entry.path).locateFile t' cwd = .ok d

/-- The calls of a restore. -/
def restoreCalls (entry : FileEntry) : Nat := 1 + (parentCalls (.ofString entry.path) + 4)

/-- A file that was restored. -/
theorem restoreFile_ok {version : String} {canonicalBackup : UnixPath} {audit : AuditLogger}
    {entry : FileEntry} {u : Unit} :
    restoreFile E version canonicalBackup audit entry w = .ok u w' ↔
      w.QuietFor (restoreCalls entry) ∧ ∃ t₁ bytes s d t,
        RestorePlan E w.process.cwd canonicalBackup entry w.files t₁ bytes s d ∧
        t₁.replace s d bytes entry.mode w.process.freshMode = .ok t ∧
        w' = ((w.advance (restoreCalls entry)).setFiles t).emit (.renamed s d (t.get d)) := by
  have hquiet : w.QuietFor (restoreCalls entry) ↔ w.Quiet ∧
      w.tick.QuietFor (parentCalls (.ofString entry.path)) ∧
        (w.tick.advance (parentCalls (.ofString entry.path))).QuietFor 4 := by
    rw [restoreCalls, Nat.add_comm, World.quietFor_succ, World.quietFor_add]
  have hworld (t : FileTree) : (w.advance (restoreCalls entry)).setFiles t =
      ((w.tick.advance (parentCalls (.ofString entry.path))).advance 4).setFiles t := by
    simp only [World.advance, World.tick, World.setFiles, restoreCalls, Nat.add_assoc]
  rw [hquiet]
  simp only [restoreFile, Comp.bind_ok, verifyBackupFile_ok, ensureParent_ok, replaceFile_ok,
    hworld]
  constructor
  · rintro ⟨bytes, _, ⟨hq, ha, hfile, hsum, rfl⟩, _, _, ⟨hq', t₁, hp, rfl⟩, hq'', s, d,
      t, hs, hd, hr,
      rfl⟩
    exact ⟨⟨hq, hq', hq''⟩, t₁, bytes, s, d, t, ⟨⟨ha, hfile, hsum⟩, hp, hs, hd⟩, hr, rfl⟩
  · rintro ⟨⟨hq, hq', hq''⟩, t₁, bytes, s, d, t, ⟨⟨ha, hfile, hsum⟩, hp, hs, hd⟩, hr, rfl⟩
    exact ⟨bytes, _, ⟨hq, ha, hfile, hsum, rfl⟩, (), _, ⟨hq', t₁, hp, rfl⟩, hq'', s, d,
      t, hs, hd, hr,
      rfl⟩

end

end Synqro
