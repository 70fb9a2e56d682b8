import Mathlib.Logic.Function.Basic
import Synqro.Snapshots

/-!
# Which version a rollback restores

The tag of a manifest covers the version it was taken with, and a rollback never compares that
version with the one it was asked for: it restores whatever stands in the directory of the asked
one. `Backups` follows a backup directory whose manifests all come from `takeSnapshot` while its
directories are copied and renamed, together with the version each directory was taken with.
`rollback_version_iff` says that a rollback restores a snapshot of the asked version exactly when
the directory it opens is one that was taken with it.
-/

namespace Synqro

/-- The reader gives back the manifests that were printed. -/
def Externals.ReadsBack (E : Externals) : Prop :=
  ∀ m : SnapshotManifest, E.parseJson (toVecPretty m.toJson) = .ok m.toJson

section
variable {E : Externals}

theorem Externals.ReadsBack.fromSlice (h : E.ReadsBack) (m : SnapshotManifest) :
    fromSlice E SnapshotManifest.read (toVecPretty m.toJson) = .ok m := by
  rw [Synqro.fromSlice, h m]
  simp

/-- The versions the directories were taken with after `a` was copied or renamed to `b`. -/
def moveOrigin (a b : Loc) (origin : Loc → Option String) (d : Loc) : Option String :=
  if b <:+ d then origin (d.take (d.length - b.length) ++ a) else origin d

theorem moveOrigin_append (a b l : Loc) (origin : Loc → Option String) :
    moveOrigin a b origin (l ++ b) = origin (l ++ a) := by
  rw [moveOrigin, if_pos (List.suffix_append l b), List.length_append, Nat.add_sub_cancel,
    List.take_left]

theorem moveOrigin_of_not {a b d : Loc} (origin : Loc → Option String) (h : ¬ b <:+ d) :
    moveOrigin a b origin d = origin d := if_neg h

/-- The versions that the directories of the backup directory `B` were taken with, along a run in
which only `takeSnapshot` writes manifests there and directories are copied or renamed. -/
inductive Backups (E : Externals) (hmacKey : Bytes) (B : Loc) : World → (Loc → Option String) → Prop
  | start {w : World} :
      (∀ d b m, B <:+ d → w.files.get (snapshotJson :: d) ≠ some (.file b m)) →
      Backups E hmacKey B w fun _ => none
  | takeSnapshot {w w' : World} {origin : Loc → Option String} (version : String)
      (targetPaths : List UnixPath) (backupDir : UnixPath) {d : Loc} :
        Backups E hmacKey B w origin →
      takeSnapshot E version targetPaths backupDir hmacKey w = .ok () w' →
      (backupDir.join (.ofString s!"v{version}")).locate w'.files w'.process.cwd = .ok d →
      Backups E hmacKey B w' (Function.update origin d (some version))
  /-- The directory `a` is copied or renamed to `b`, replacing what was there. -/
  | moved {w w' : World} {origin : Loc → Option String} (a b : Loc) : Backups E hmacKey B w origin →
      B <:+ a → B <:+ b → w.files.get a = some .dir →
      (∀ l, w'.files.get (l ++ b) = w.files.get (l ++ a)) →
      (∀ l, ¬ b <:+ l → w'.files.get l = w.files.get l ∨ w'.files.get l = none) →
      w'.issued = w.issued →
      Backups E hmacKey B w' (moveOrigin a b origin)
  /-- Anything else happens that leaves the manifests of the backup directory alone. -/
  | outside {w w' : World} {origin : Loc → Option String} : Backups E hmacKey B w origin →
      (∀ d, B <:+ d → w'.files.get (snapshotJson :: d) = w.files.get (snapshotJson :: d)) →
      (∀ i ∈ w.issued, i ∈ w'.issued) → Backups E hmacKey B w' origin

/-- `takeSnapshot` tagged the manifest under the key when it was called with the version. -/
def SnapshotManifest.TakenWith (m : SnapshotManifest) (version : String) (hmacKey : Bytes)
    (w : World) : Prop :=
  m.version = version ∧
    ⟨.takeSnapshot, hmacKey, unsignedManifest version m.createdAt m.files⟩ ∈ w.issued

section
variable {hmacKey : Bytes} {B : Loc} {w w' : World} {origin : Loc → Option String}

/-- The version directory of a snapshot is where its path leads when it is done. -/
theorem SnapshotTaken.locate_after {version : String} {targetPaths : List UnixPath}
    {backupDir : UnixPath} {d : Loc} {m : SnapshotManifest} {ls : List Loc} {t₀ t₁ : FileTree}
    (h : SnapshotTaken E version targetPaths backupDir hmacKey w w' d m ls t₀ t₁) :
    (backupDir.join (.ofString s!"v{version}")).locate w'.files w'.process.cwd = .ok d := by
  have hdirs := h.copies.sameDirs.trans (FileTree.overwrite_ok h.written).2.2
  rw [h.process, UnixPath.locate_sameDirs hdirs]
  exact h.versionDir

/-- A snapshot writes no manifest but its own. -/
theorem SnapshotTaken.other_manifest {version : String} {targetPaths : List UnixPath}
    {backupDir : UnixPath} {d d' : Loc} {m : SnapshotManifest} {ls : List Loc} {t₀ t₁ : FileTree}
    (h : SnapshotTaken E version targetPaths backupDir hmacKey w w' d m ls t₀ t₁) (hd : d' ≠ d)
    {bytes : Bytes} {mode : Mode}
    (hf : w'.files.get (snapshotJson :: d') = some (.file bytes mode)) :
    w.files.get (snapshotJson :: d') = some (.file bytes mode) := by
  have hne : snapshotJson :: d' ≠ snapshotJson :: d := fun he => hd (List.cons.inj he).2
  rw [(FileTree.overwrite_ok h.written).2.1 _ hne, h.copies.get_other (by simpa using hd)] at hf
  exact h.dirs.file.1 hf

/-- The manifest of a directory was taken with the version the directory was taken with. -/
theorem Backups.takenWith (h : Backups E hmacKey B w origin) (hread : E.ReadsBack) {d : Loc}
    (hB : B <:+ d) {bytes : Bytes} {mode : Mode} {m : SnapshotManifest}
    (hf : w.files.get (snapshotJson :: d) = some (.file bytes mode))
    (hm : fromSlice E SnapshotManifest.read bytes = .ok m) :
    origin d = some m.version ∧ m.TakenWith m.version hmacKey w := by
  induction h generalizing d mode with
  | start hnone => exact absurd hf (hnone d bytes mode hB)
  | takeSnapshot version targetPaths backupDir _ hrun hd ih =>
    obtain ⟨d', m', ls, t₀, t₁, htaken⟩ := takeSnapshot_ok hrun
    obtain rfl : d' = _ := Except.ok.inj (htaken.locate_after.symm.trans hd)
    by_cases hdd : d = d'
    · subst hdd
      obtain ⟨⟨mode', hw, -⟩, -⟩ := FileTree.overwrite_ok htaken.written
      rw [hw] at hf
      cases hf
      rw [hread.fromSlice] at hm
      cases hm
      have hversion : m.version = version := by rw [htaken.manifest]; rfl
      rw [Function.update_self, hversion]
      refine ⟨rfl, hversion, ?_⟩
      rw [htaken.issued]
      exact List.mem_append_right _ (.head _)
    · obtain ⟨ho, hv, hi⟩ := ih hB (htaken.other_manifest hdd hf)
      rw [Function.update_of_ne hdd]
      refine ⟨ho, hv, ?_⟩
      rw [htaken.issued]
      exact List.mem_append_left _ hi
  | moved a b _ ha hb hdir hcopy hrest hissued ih =>
    by_cases hbd : b <:+ d
    · obtain ⟨l, rfl⟩ := hbd
      have hcopied := hcopy (snapshotJson :: l)
      rw [List.cons_append, List.cons_append] at hcopied
      rw [hcopied] at hf
      obtain ⟨ho, hv, hi⟩ := ih (ha.trans (List.suffix_append l a)) hf
      rw [moveOrigin_append]
      exact ⟨ho, hv, hissued ▸ hi⟩
    · have hnot : ¬ b <:+ snapshotJson :: d := by
        intro hs
        rcases List.suffix_cons_iff.1 hs with rfl | hs
        · -- a directory stands there, not a manifest
          have hcopied := hcopy []
          rw [List.nil_append, List.nil_append, hdir, hf] at hcopied
          cases hcopied
        · exact hbd hs
      rcases hrest _ hnot with hsame | hgone
      · rw [hsame] at hf
        obtain ⟨ho, hv, hi⟩ := ih hB hf
        rw [moveOrigin_of_not _ hbd]
        exact ⟨ho, hv, hissued ▸ hi⟩
      · rw [hgone] at hf
        cases hf
  | outside _ hsame hkeep ih =>
    rw [hsame d hB] at hf
    obtain ⟨ho, hv, hi⟩ := ih hB hf
    exact ⟨ho, hv, hkeep _ hi⟩

/-- The rollback restores the files of the manifest `m`. -/
def RollsBackTo (E : Externals) (version : String) (backupDir : UnixPath) (hmacKey : Bytes)
    (audit : AuditLogger) (w : World) (m : SnapshotManifest) : Prop :=
  ∃ w₁, loadSnapshot E version
    (backupDir.join (.ofString s!"v{version}")) hmacKey audit w = .ok m w₁

theorem RollsBackTo.takenWith {version : String} {backupDir : UnixPath} {audit : AuditLogger}
    {m : SnapshotManifest} (hm : RollsBackTo E version backupDir hmacKey audit w m)
    (h : Backups E hmacKey B w origin) (hread : E.ReadsBack) {d : Loc}
    (hd : (backupDir.join (.ofString s!"v{version}")).locate w.files w.process.cwd = .ok d)
    (hB : B <:+ d) : origin d = some m.version ∧ m.TakenWith m.version hmacKey w := by
  obtain ⟨w₁, hload⟩ := hm
  obtain ⟨-, ⟨l, bytes, mode, hl, hf, hparse⟩, -, -⟩ := loadSnapshot_ok.1 hload
  rw [World.locate, ofString_snapshotJson, UnixPath.locate_join_of_locate _ hd] at hl
  cases hl
  exact h.takenWith hread hB hf hparse

/-- The snapshot that a rollback restored was taken with the version asked for exactly when the
directory opened for that version was taken with it. -/
theorem rollback_version_iff (h : Backups E hmacKey B w origin) (hread : E.ReadsBack)
    {version : String} {backupDir : UnixPath} {audit : AuditLogger} {d : Loc}
    (hd : (backupDir.join (.ofString s!"v{version}")).locate w.files w.process.cwd = .ok d)
    (hB : B <:+ d)
    (hrun : Comp.returned (rollback E version backupDir hmacKey audit w) = true) :
    (∃ m, RollsBackTo E version backupDir hmacKey audit w m ∧ m.TakenWith version hmacKey w) ↔
      origin d = some version := by
  obtain ⟨_, w', hok⟩ := Comp.returned_iff.1 hrun
  obtain ⟨m, w₁, hload, -⟩ := Comp.bind_ok.1 hok
  constructor
  · rintro ⟨m', hm', hversion, -⟩
    rw [(hm'.takenWith h hread hd hB).1, hversion]
  · intro horigin
    have hm : RollsBackTo E version backupDir hmacKey audit w m := ⟨w₁, hload⟩
    obtain ⟨ho, htaken⟩ := hm.takenWith h hread hd hB
    rw [ho] at horigin
    cases horigin
    exact ⟨m, hm, htaken⟩

end

end

/-! ## A snapshot in the place of another -/

/-- Whether `t'` is `t` with the directory `a` copied or renamed to `b`. -/
def moved? (a b : Loc) (t t' : FileTree) : Bool :=
  (t'.nodes.entries.all fun e =>
    if b <:+ e.1 then t.get (e.1.take (e.1.length - b.length) ++ a) == some e.2
    else t.get e.1 == some e.2) &&
  t.nodes.entries.all fun e =>
    if a <:+ e.1 then t'.get (e.1.take (e.1.length - a.length) ++ b) == some e.2 else true

theorem moved?_spec {a b : Loc} {t t' : FileTree} (h : moved? a b t t' = true) (ha : a ≠ [])
    (hb : b ≠ []) : (∀ l, t'.get (l ++ b) = t.get (l ++ a)) ∧
      ∀ l, ¬ b <:+ l → t'.get l = t.get l ∨ t'.get l = none := by
  rw [moved?, Bool.and_eq_true, List.all_eq_true, List.all_eq_true] at h
  obtain ⟨hnew, hold⟩ := h
  have hfrom (l : Loc) {x : Node} (hx : t'.get (l ++ b) = some x) : t.get (l ++ a) = some x := by
    have := hnew _ (FileTree.mem_entries_of_get (by simp [hb]) hx)
    simpa using this
  have hto (l : Loc) {x : Node} (hx : t.get (l ++ a) = some x) : t'.get (l ++ b) = some x := by
    have := hold _ (FileTree.mem_entries_of_get (by simp [ha]) hx)
    simpa using this
  constructor
  · intro l
    exact Option.ext fun x => ⟨hfrom l, hto l⟩
  · intro l hl
    cases hx : t'.get l with
    | none => exact .inr rfl
    | some x =>
      have hne : l ≠ [] ∨ l = [] := (em (l = [])).symm
      rcases hne with hne | rfl
      · have := hnew _ (FileTree.mem_entries_of_get hne hx)
        rw [if_neg hl, beq_iff_eq] at this
        exact .inl this.symm
      · exact .inl hx.symm

/-- The directory of the version in `/backup`. -/
def v1Dir : Loc := ⟨"v1.0.0", by decide⟩ :: backupLoc
def v2Dir : Loc := ⟨"v2.0.0", by decide⟩ :: backupLoc

/-- Snapshots of two versions. -/
def twoSnapshots : World :=
  Comp.after (takeSnapshot .running "2.0.0" [.ofLoc appExe] (.ofString "/backup") [7]) snapshotTaken

/-- The tree with the node at `src` put at `dst`. -/
def putCopy (src dst : Loc) (t : FileTree) : FileTree :=
  match t.get src with
  | some x => t.set dst x
  | none => t

/-- The snapshot of the first version copied over that of the second. -/
def swapped : World :=
  twoSnapshots.setFiles (putCopy (snapshotJson :: v1Dir) (snapshotJson :: v2Dir)
    (putCopy (appExe.take 1 ++ v1Dir) (appExe.take 1 ++ v2Dir) twoSnapshots.files))

/-- Before the snapshots no file on the disk is a manifest. -/
theorem noManifest_installed {d : Loc} {b : Bytes} {m : Mode} :
    installedFiles.get (snapshotJson :: d) ≠ some (.file b m) := by
  intro h
  have hall : installedFiles.nodes.entries.all
    (fun e => e.1.head? != some snapshotJson) = true := by
    decide +kernel
  have := List.all_eq_true.1 hall _ (FileTree.mem_entries_of_get (by simp) h)
  simp at this

/-- The versions of the swapped directories. -/
def swappedOrigin : Loc → Option String :=
  moveOrigin v1Dir v2Dir
    (Function.update (Function.update (fun _ => none) v1Dir (some "1.0.0")) v2Dir (some "2.0.0"))

theorem versionDirs {v w : String} (hv : v = "1.0.0") (hw : w = "2.0.0") :
    (UnixPath.ofString "/backup").join (.ofString s!"v{v}") = .ofLoc v1Dir ∧
      (UnixPath.ofString "/backup").join (.ofString s!"v{w}") = .ofLoc v2Dir := by
  subst hv hw
  decide +kernel

theorem versionDir_v1 {v : String} (hv : v = "1.0.0") :
    (UnixPath.ofString "/backup").join (.ofString s!"v{v}") = .ofLoc v1Dir :=
  (versionDirs hv rfl).1

theorem versionDir_v2 {v : String} (hv : v = "2.0.0") :
    (UnixPath.ofString "/backup").join (.ofString s!"v{v}") = .ofLoc v2Dir :=
  (versionDirs rfl hv).2

/-- Both snapshots are taken, and the rollback to the second version returns. -/
theorem swapped_evaluated :
    Comp.returned (takeSnapshot .running "1.0.0" [.ofLoc appExe] (.ofString "/backup") [7]
        (.boot .calm (.startedIn appExe.tail) installedFiles)) = true ∧
      Comp.returned (takeSnapshot .running "2.0.0" [.ofLoc appExe] (.ofString "/backup") [7]
        snapshotTaken) = true ∧
      moved? v1Dir v2Dir twoSnapshots.files swapped.files = true ∧
      twoSnapshots.files.get v1Dir = some .dir ∧
      Comp.returned (rollback .running "2.0.0" (.ofString "/backup") [7] ⟨[], ""⟩ swapped) = true ∧
      swappedOrigin v2Dir ≠ some "2.0.0" := by
  decide +kernel

theorem snapshotTaken_run :
    takeSnapshot .running "1.0.0" [.ofLoc appExe] (.ofString "/backup") [7]
      (.boot .calm (.startedIn appExe.tail) installedFiles) = .ok () snapshotTaken := by
  unfold snapshotTaken
  exact Comp.ok_of_returned swapped_evaluated.1

theorem twoSnapshots_run :
    takeSnapshot .running "2.0.0" [.ofLoc appExe] (.ofString "/backup") [7] snapshotTaken =
      .ok () twoSnapshots := by
  unfold twoSnapshots
  exact Comp.ok_of_returned swapped_evaluated.2.1

theorem swapped_issued : swapped.issued = twoSnapshots.issued := by
  unfold swapped
  exact World.setFiles_issued _ _

theorem backups_swapped : Backups .running [7] v1Dir.tail swapped swappedOrigin := by
  have hstart : Backups .running [7] v1Dir.tail
    (.boot .calm (.startedIn appExe.tail) installedFiles)
      fun _ => none := .start fun _ _ _ _ => noManifest_installed
  have hfirst := hstart.takeSnapshot "1.0.0" [.ofLoc appExe] (.ofString "/backup") (d := v1Dir)
    snapshotTaken_run (by rw [versionDir_v1 rfl, UnixPath.locate_ofLoc])
  have hsecond := hfirst.takeSnapshot "2.0.0" [.ofLoc appExe] (.ofString "/backup") (d := v2Dir)
    twoSnapshots_run (by rw [versionDir_v2 rfl, UnixPath.locate_ofLoc])
  obtain ⟨-, -, hmoved, hdir, -⟩ := swapped_evaluated
  obtain ⟨hcopy, hrest⟩ := moved?_spec hmoved (by decide) (by decide)
  exact hsecond.moved v1Dir v2Dir (List.suffix_cons _ _) (List.suffix_cons _ _) hdir
    hcopy hrest swapped_issued

theorem readsBack_running : Externals.running.ReadsBack :=
  fun m => Externals.running_parseJson (m.nesting_toJson.trans (by decide))

theorem returned_swapped :
    Comp.returned (rollback .running "2.0.0" (.ofString "/backup") [7] ⟨[], ""⟩ swapped) = true :=
  swapped_evaluated.2.2.2.2.1

theorem rollback_version_iff_swapped :
    (∃ m, RollsBackTo .running "2.0.0" (.ofString "/backup") [7] ⟨[], ""⟩ swapped m ∧
      m.TakenWith "2.0.0" [7] swapped) ↔ swappedOrigin v2Dir = some "2.0.0" :=
  rollback_version_iff backups_swapped readsBack_running
    (by rw [versionDir_v2 rfl, UnixPath.locate_ofLoc]) (List.suffix_cons _ _) returned_swapped

/-- The rollback to the second version restores the snapshot of the first. -/
theorem rollback_other_version :
    ¬ ∀ (E : Externals) (hmacKey : Bytes) (B : Loc) (w : World) (origin : Loc → Option String)
      (version : String) (backupDir : UnixPath) (audit : AuditLogger) (d : Loc),
      Backups E hmacKey B w origin → E.ReadsBack →
      (backupDir.join (.ofString s!"v{version}")).locate w.files w.process.cwd = .ok d → B <:+ d →
      Comp.returned (rollback E version backupDir hmacKey audit w) = true →
      ∃ m, RollsBackTo E version backupDir hmacKey audit w m ∧ m.TakenWith version hmacKey w := by
  intro h
  have hd {v : String} (hv : v = "2.0.0") : ((UnixPath.ofString "/backup").join
      (.ofString s!"v{v}")).locate swapped.files swapped.process.cwd = .ok v2Dir := by
    rw [versionDir_v2 hv, UnixPath.locate_ofLoc]
  obtain ⟨m, hm, hversion, -⟩ :=
    h _ _ _ _ _ "2.0.0" (.ofString "/backup") ⟨[], ""⟩ _ backups_swapped
    readsBack_running (hd rfl) (List.suffix_cons _ _) returned_swapped
  have horigin := (hm.takenWith backups_swapped readsBack_running (hd rfl) (List.suffix_cons _ _)).1
  rw [hversion] at horigin
  exact swapped_evaluated.2.2.2.2.2 horigin

end Synqro
