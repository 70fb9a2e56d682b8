import Synqro.Machine
import Synqro.Restores

/-!
# What a snapshot does

`takeSnapshot` read back: the copies it makes of its targets, the entries that describe them and
the manifest it writes last. `CopiesOf` is the loop over the targets on the files alone.
-/

namespace Synqro

section
variable (E : Externals)

/-- The entry that describes a copy. -/
def FileEntry.describing (n : FileName) (bytes : Bytes) (m : Mode) : FileEntry where
  path := n.text
  sha256 := hexEncode (E.sha256 bytes)
  permissions := 0o100000 + UInt32.ofNat m.val
  sizeBytes := UInt64.ofNat bytes.length

/-- The manifest that `takeSnapshot` writes. -/
def SnapshotManifest.signed (hmacKey : Bytes) (version createdAt : String)
    (files : List FileEntry) : SnapshotManifest where
  version
  createdAt
  files
  manifestHmac := computeHmac E hmacKey (encodeUtf8 (canonicalJsonSorted
    (unsignedManifest version createdAt files)))

/-- The name of the manifest in its version directory. -/
def snapshotJson : FileName := ⟨"snapshot.json", by decide⟩

@[simp] theorem ofString_snapshotJson : UnixPath.ofString "snapshot.json" = .ofName snapshotJson :=
  UnixPath.ofString_text snapshotJson

/-- The file at `l` is copied into the directory `d` and described by `entry`. -/
inductive CopyOf (fresh : Mode) (d : Loc) (t : FileTree) : Loc → FileEntry → FileTree → Prop
  | intro {n : FileName} {p : Loc} {bytes : Bytes} {m : Mode} {t' : FileTree} :
      t.get (n :: p) = some (.file bytes m) → t.overwrite (n :: d) bytes fresh = .ok t' →
      CopyOf fresh d t (n :: p) (.describing E n bytes m) t'

/-- The files at the locations are copied one after the other. -/
inductive CopiesOf (fresh : Mode) (d : Loc) : FileTree → List Loc → List FileEntry → FileTree → Prop
  | nil {t : FileTree} : CopiesOf fresh d t [] [] t
  | cons {t t₁ t₂ : FileTree} {l : Loc} {ls : List Loc} {entry : FileEntry}
      {entries : List FileEntry} : CopyOf E fresh d t l entry t₁ →
      CopiesOf fresh d t₁ ls entries t₂ → CopiesOf fresh d t (l :: ls) (entry :: entries) t₂

end

section
variable {E : Externals} {fresh : Mode} {d : Loc} {t t' : FileTree}

/-- A restore gives a file the permissions that its entry recorded. -/
@[simp] theorem FileEntry.mode_describing (n : FileName) (bytes : Bytes) (m : Mode) :
    (FileEntry.describing E n bytes m).mode = m := by
  have hm := m.isLt
  have hkind : (0o100000 : UInt32).toNat = 32768 := by decide
  have h : (0o100000 + UInt32.ofNat m.val).toNat = 32768 + m.val := by
    rw [UInt32.toNat_add, UInt32.toNat_ofNat', hkind]
    omega
  refine Fin.ext ?_
  show (0o100000 + UInt32.ofNat m.val).toNat % 4096 = m.val
  omega

theorem SnapshotManifest.signed_tagged (hmacKey : Bytes) (version createdAt : String)
    (files : List FileEntry) : (signed E hmacKey version createdAt files).Tagged E hmacKey := rfl

theorem CopyOf.sameDirs {l : Loc} {entry : FileEntry} (h : CopyOf E fresh d t l entry t') :
    t.SameDirs t' := by
  cases h with
  | intro _ ho => exact (FileTree.overwrite_ok ho).2.2

theorem CopiesOf.sameDirs {ls : List Loc} {entries : List FileEntry}
    (h : CopiesOf E fresh d t ls entries t') : t.SameDirs t' := by
  induction h with
  | nil => exact .refl _
  | cons h _ ih => exact h.sameDirs.trans ih

/-- Copying changes files of the directory only. -/
theorem CopiesOf.get_other {ls : List Loc} {entries : List FileEntry}
    (h : CopiesOf E fresh d t ls entries t') {l : Loc} (hl : l.tail ≠ d) : t'.get l = t.get l := by
  induction h with
  | nil => rfl
  | cons h _ ih =>
    rw [ih]
    cases h with
    | intro _ ho =>
      refine (FileTree.overwrite_ok ho).2.1 l ?_
      rintro rfl
      exact hl rfl

end

/-! ## The run -/

section
variable {E : Externals} {w w' : World}

@[simp] theorem ofLoc_fileName (l : Loc) : (UnixPath.ofLoc l).fileName = l.head? := by
  cases l <;> simp [UnixPath.fileName, UnixPath.ofLoc]

theorem snapshotFile_ok {d : Loc} {srcPath : UnixPath} {entry : FileEntry}
    (h : snapshotFile E (.ofLoc d) srcPath w = .ok entry w') :
    ∃ l t, srcPath.locate w.files w.process.cwd = .ok l ∧
      CopyOf E w.process.freshMode d w.files l entry t ∧ w' = (w.advance 5).setFiles t := by
  simp only [snapshotFile, Comp.bind_ok, Comp.mapErr_ok, Comp.ofExcept_ok, Comp.pure_ok,
    fs.canonicalize_ok, fs.read_ok, fs.metadataMode_ok, fs.write_ok] at h
  obtain ⟨_, _, ⟨hq₁, ⟨l, hl, rfl, -⟩, rfl⟩, n, _, ⟨hn, rfl⟩, _, _, ⟨-, rfl⟩, bytes, _,
    ⟨hq₂, ⟨l', m, hl', hf⟩, rfl⟩, mode, _, ⟨hq₃, ⟨l'', b, m', hl'', hf', rfl⟩, rfl⟩, _, _,
    ⟨hq₄, hq₅, dest, t, hd, ho, rfl⟩, rfl, rfl⟩ := h
  obtain rfl : l = l' := by simpa [World.locate] using hl'
  obtain rfl : l = l'' := by simpa [World.locate] using hl''
  have hff : Node.file bytes m = .file b m' := Option.some.inj (hf.symm.trans hf')
  cases hff
  rw [ofLoc_fileName] at hn
  cases l with
  | nil => simp at hf
  | cons n' p =>
    obtain rfl : n' = n := by simpa using hn
    obtain rfl : n' :: d = dest := by simpa [World.locate] using hd
    exact ⟨_, t, hl, .intro hf ho, rfl⟩

theorem snapshotFiles_ok {d : Loc} {srcPaths : List UnixPath} {entries : List FileEntry}
    (h : snapshotFiles E (.ofLoc d) srcPaths w = .ok entries w') :
    ∃ ls t, List.Forall₂ (fun p l => p.locate w.files w.process.cwd = .ok l) srcPaths ls ∧
      CopiesOf E w.process.freshMode d w.files ls entries t ∧
      w' = (w.advance (5 * srcPaths.length)).setFiles t := by
  induction srcPaths generalizing w entries with
  | nil =>
    obtain ⟨rfl, rfl⟩ := Comp.pure_ok.1 h
    exact ⟨[], w.files, .nil, .nil, rfl⟩
  | cons p ps ih =>
    simp only [snapshotFiles, Comp.bind_ok, Comp.pure_ok] at h
    obtain ⟨entry, _, hf, entries', _, hfs, rfl, rfl⟩ := h
    obtain ⟨l, t, hl, hc, rfl⟩ := snapshotFile_ok hf
    obtain ⟨ls, t', hls, hcs, rfl⟩ := ih hfs
    refine ⟨l :: ls, t', .cons hl (hls.imp fun p l hl => ?_), .cons hc hcs, ?_⟩
    · exact (UnixPath.locate_sameDirs hc.sameDirs w.process.cwd p).symm.trans hl
    · simp only [World.advance, World.setFiles, List.length_cons, Nat.mul_succ]
      rw [Nat.add_assoc, Nat.add_comm 5]

/-- A snapshot that was taken: the version directory `d` was made, the targets at `ls` were copied
into it, and the signed manifest was written beside them. -/
structure SnapshotTaken (E : Externals) (version : String) (targetPaths : List UnixPath)
    (backupDir : UnixPath) (hmacKey : Bytes) (w w' : World) (d : Loc) (m : SnapshotManifest)
    (ls : List Loc) (t₀ t₁ : FileTree) : Prop where
  dirs : w.files.AddsDirs t₀
  versionDir : (backupDir.join (.ofString s!"v{version}")).locate t₀ w.process.cwd = .ok d
  targets : List.Forall₂ (fun p l => p.locate t₀ w.process.cwd = .ok l) targetPaths ls
  copies : CopiesOf E w.process.freshMode d t₀ ls m.files t₁
  manifest : m = .signed E hmacKey version m.createdAt m.files
  written : t₁.overwrite (snapshotJson :: d)
    (toVecPretty m.toJson) w.process.freshMode = .ok w'.files
  issued : w'.issued =
    w.issued ++ [⟨.takeSnapshot, hmacKey, unsignedManifest version m.createdAt m.files⟩]
  env : w'.env = w.env
  process : w'.process = w.process
  trace : w'.trace = w.trace

theorem takeSnapshot_ok {version : String} {targetPaths : List UnixPath} {backupDir : UnixPath}
    {hmacKey : Bytes} (h : takeSnapshot E version targetPaths backupDir hmacKey w = .ok () w') :
    ∃ d m ls t₀ t₁,
      SnapshotTaken E version targetPaths backupDir hmacKey w w' d m ls t₀ t₁ := by
  simp only [takeSnapshot, Comp.bind_ok, Comp.mapErr_ok, fs.createDirAll_ok, fs.canonicalize_ok,
    now_ok, issue_ok, fs.write_ok] at h
  obtain ⟨_, _, ⟨-, t, hmk, rfl⟩, _, _, ⟨-, t₀, hmk', rfl⟩, _, _,
    ⟨-, ⟨d, hd, rfl, -⟩, rfl⟩, entries,
    _, hcopies, _, _, ⟨rfl, rfl⟩, _, _, rfl, -, -, l, t₂, hl, ho, rfl⟩ := h
  obtain ⟨ls, t₁, hls, hcs, rfl⟩ := snapshotFiles_ok hcopies
  obtain rfl : snapshotJson :: d = l := by simpa [World.locate] using hl
  refine ⟨d, .signed E hmacKey version _ entries, ls, t₀, t₁, ?_, hd, hls, hcs, rfl, ho,
    rfl, rfl, rfl,
    rfl⟩
  exact ((FileTree.mkdirAll_addsDirs _ _).ok hmk).trans ((FileTree.mkdirAll_addsDirs _ _).ok hmk')

end

/-- A process in its installation directory that has taken a snapshot of its executable. -/
def snapshotTaken : World :=
  Comp.after (takeSnapshot .running "1.0.0" [.ofLoc appExe] (.ofString "/backup") [7])
    (.boot .calm (.startedIn appExe.tail) installedFiles)

end Synqro
