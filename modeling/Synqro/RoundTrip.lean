import Synqro.RollbackFailures
import Synqro.VersionBinding

/-!
# From a snapshot to its rollback

A snapshot copies its targets into one directory, each under its base name, and a rollback puts the
copies into the working directory under those names. `rollback_roundTrip` says when the second
undoes the first: with working calls the restores return exactly when targets of one base name have
one digest, and where the base names differ each file has its target's bytes and mode again.
-/

namespace Synqro

open UnixPath LastTouch

/-! ## The copies -/

section
variable {E : Externals} {fresh : Mode} {d : Loc} {t t' : FileTree} {ls : List Loc}
  {entries : List FileEntry}

/-- A name that is not copied keeps what it holds. -/
theorem CopiesOf.get_unlisted (h : CopiesOf E fresh d t ls entries t') {n : FileName}
    (hn : ∀ q, n :: q ∉ ls) : t'.get (n :: d) = t.get (n :: d) := by
  induction h with
  | nil => rfl
  | cons h _ ih =>
    rw [ih fun q hq => hn q (.tail _ hq)]
    cases h with
    | @intro n' p _ _ _ _ ho =>
      refine (FileTree.overwrite_ok ho).2.1 _ fun heq => ?_
      obtain rfl : n = n' := (List.cons.inj heq).1
      exact hn p (.head _)

/-- Where no target is in the directory, each entry describes its target. -/
theorem CopiesOf.describes (h : CopiesOf E fresh d t ls entries t') (hout : ∀ l ∈ ls, l.tail ≠ d) :
    List.Forall₂ (fun l e => ∃ n q b m, l = n :: q ∧ t.get l = some (.file b m) ∧
      e = .describing E n b m) ls entries := by
  induction h with
  | nil => exact .nil
  | @cons t t₁ t₂ l ls e es h hs ih =>
    have hother : ∀ l' ∈ ls, t₁.get l' = t.get l' := by
      intro l' hl'
      exact CopiesOf.get_other (.cons h .nil) (hout l' (.tail _ hl'))
    refine .cons ?_ ?_
    · cases h with
      | @intro n q b m _ hf _ => exact ⟨n, q, b, m, rfl, hf, rfl⟩
    · have hrest := ih fun l' hl' => hout l' (.tail _ hl')
      refine (List.forall₂_iff_get.2 ⟨hrest.length_eq, fun i hi hi' => ?_⟩)
      obtain ⟨n, q, b, m, hl, hf, he⟩ := (List.forall₂_iff_get.1 hrest).2 i hi hi'
      exact ⟨n, q, b, m, hl, (hother _ (List.get_mem _ _)).symm.trans hf, he⟩

/-- A name that is copied holds the bytes of one of the targets of that name. -/
theorem CopiesOf.held (h : CopiesOf E fresh d t ls entries t') (hout : ∀ l ∈ ls, l.tail ≠ d)
    {n : FileName} {q : Loc} (hl : n :: q ∈ ls) : ∃ q' b m m', n :: q' ∈ ls ∧
      t.get (n :: q') = some (.file b m) ∧ t'.get (n :: d) = some (.file b m') := by
  induction h generalizing q with
  | nil => cases hl
  | @cons t t₁ t₂ l ls e es h hs ih =>
    by_cases hlater : ∃ q', n :: q' ∈ ls
    · obtain ⟨q', hq'⟩ := hlater
      obtain ⟨q'', b, m, m', hq'', hf, hheld⟩ := ih (fun l' hl' => hout l' (.tail _ hl')) hq'
      refine ⟨q'', b, m, m', .tail _ hq'', ?_, hheld⟩
      rw [← CopiesOf.get_other (.cons h .nil) (hout _ (.tail _ hq''))]
      exact hf
    · -- the head is the last target of the name
      have hnone : ∀ q', n :: q' ∉ ls := fun q' hq' => hlater ⟨q', hq'⟩
      obtain rfl : n :: q = l := (List.mem_cons.1 hl).resolve_right (hnone q)
      cases h with
      | intro hf ho =>
        obtain ⟨⟨m', hm', -⟩, -⟩ := FileTree.overwrite_ok ho
        exact ⟨q, _, _, m', .head _, hf, (hs.get_unlisted hnone).trans hm'⟩

end

/-! ## The restores -/

/-- The file that stands under the path of the entry in the directory `d`. -/
def FileEntry.Holds (t : FileTree) (d : Loc) (e : FileEntry) (bytes : Bytes) : Prop :=
  ∃ (n : FileName) (m : Mode), e.path = n.text ∧ t.get (n :: d) = some (.file bytes m)

/-- The temporary name of a file that is restored, unless its stem is a dot. -/
def restoreName (n : FileName) : FileName := n.extended restoreExtension

section
variable {E : Externals} {version : String} {audit : AuditLogger} {d : Loc}
    {w w' : World} {u : Unit}
  {e : FileEntry} {n : FileName} {entries : List FileEntry}

theorem FileEntry.dest_name (hn : e.path = n.text) (cwd : Loc) : e.dest cwd = n :: cwd := by
  rw [FileEntry.dest, hn, ofString_text]
  exact (locateFile_lexical (locateFile_ofName .empty cwd n)).symm

theorem FileEntry.temp_name (hn : e.path = n.text) (hstem : ¬ n.DotStem) (cwd : Loc) :
    e.temp cwd = restoreName n :: cwd := by
  rw [FileEntry.temp, hn, ofString_text, ofName_withExtension hstem]
  exact (locateFile_lexical (locateFile_ofName .empty cwd (restoreName n))).symm

/-- A restore of a file with a base name. -/
theorem restoreFile_name_ok (hn : e.path = n.text) :
    restoreFile E version (.ofLoc d) audit e w = .ok u w' ↔ ¬ n.DotStem ∧ w.QuietFor 5 ∧ ∃ b m t,
      w.files.get (n :: d) = some (.file b m) ∧ hexEncode (E.sha256 b) = e.sha256 ∧
      w.files.replace (restoreName n :: w.process.cwd) (n :: w.process.cwd) b e.mode
        w.process.freshMode = .ok t ∧
      w' = ((w.advance 5).setFiles t).emit (.renamed (restoreName n :: w.process.cwd)
        (n :: w.process.cwd) (t.get (n :: w.process.cwd))) := by
  have hparent : parentDir? (ofName n) = none := rfl
  have hcalls : restoreCalls e = 5 := by
    rw [restoreCalls, parentCalls, hn, ofString_text, hparent]
    rfl
  have hplan (hstem : ¬ n.DotStem) (t : FileTree) (b : Bytes) (s l : Loc) :
      RestorePlan E w.process.cwd (.ofLoc d) e w.files t b s l ↔
        (∃ m, w.files.get (n :: d) = some (.file b m)) ∧ hexEncode (E.sha256 b) = e.sha256 ∧
          t = w.files ∧ s = restoreName n :: w.process.cwd ∧ l = n :: w.process.cwd := by
    constructor
    · rintro ⟨⟨-, ⟨l', m, hl', hf⟩, hsum⟩, hmakes, htemp, hdest⟩
      rw [hn, ofString_text, ofLoc_join_ofName, locateFile_ofLoc] at hl'
      rw [hn, ofString_text, MakesParent, hparent] at hmakes
      rw [hn, ofString_text, ofName_withExtension hstem, locateFile_ofName] at htemp
      rw [hn, ofString_text, locateFile_ofName] at hdest
      cases hl'
      cases htemp
      cases hdest
      exact ⟨⟨m, hf⟩, hsum, hmakes, rfl, rfl⟩
    · rintro ⟨⟨m, hf⟩, hsum, rfl, rfl, rfl⟩
      refine ⟨⟨?_, ⟨n :: d, m, ?_, hf⟩, hsum⟩, ?_, ?_, ?_⟩
      · rw [hn, ofString_text, assertPathUnderParent_relative rfl]
        simp [ofName]
      · rw [hn, ofString_text, ofLoc_join_ofName, locateFile_ofLoc]
      · rw [hn, ofString_text, MakesParent, hparent]
      · rw [hn, ofString_text, ofName_withExtension hstem, locateFile_ofName]
        rfl
      · rw [hn, ofString_text, locateFile_ofName]
  rw [restoreFile_ok, hcalls]
  constructor
  · rintro ⟨hquiet, t₁, b, s, l, t, hrestore, hreplace, rfl⟩
    have hstem : ¬ n.DotStem := by
      have hpath := not_dotStem_of_replace hrestore.temp hreplace
      rwa [hn, ofString_text, ofName_dotStem] at hpath
    obtain ⟨⟨m, hf⟩, hsum, rfl, rfl, rfl⟩ := (hplan hstem _ _ _ _).1 hrestore
    exact ⟨hstem, hquiet, b, m, t, hf, hsum, hreplace, rfl⟩
  · rintro ⟨hstem, hquiet, b, m, t, hf, hsum, hreplace, rfl⟩
    exact ⟨hquiet, w.files, b, _, _, t,
      (hplan hstem _ _ _ _).2 ⟨⟨m, hf⟩, hsum, rfl, rfl, rfl⟩, hreplace,
      rfl⟩

/-- The working directory, which is not `d`, can take the files of the entries, each with a base
name. -/
structure Restorable (d : Loc) (entries : List FileEntry) (w : World) : Prop where
  apart : d ≠ w.process.cwd
  cwd : w.files.get w.process.cwd = some .dir
  places : ∀ e ∈ entries, ∃ n : FileName, e.path = n.text ∧
    w.files.get (n :: w.process.cwd) ≠ some .dir ∧
    w.files.get (restoreName n :: w.process.cwd) ≠ some .dir

/-- A restore changes no directory and no file outside the working directory. -/
theorem restoreFile_name_frame (hn : e.path = n.text)
    (h : restoreFile E version (.ofLoc d) audit e w = .ok u w') :
    w'.process = w.process ∧ w'.env = w.env ∧ w'.calls = w.calls + 5 ∧ w.files.SameDirs w'.files ∧
      ∀ l : Loc, l.tail ≠ w.process.cwd → w'.files.get l = w.files.get l := by
  obtain ⟨-, -, b, m, t, -, -, hreplace, rfl⟩ := (restoreFile_name_ok hn).1 h
  obtain ⟨-, -, -, hrest, hdirs⟩ := FileTree.replace_ok hreplace
  refine ⟨rfl, rfl, rfl, hdirs, fun l hl => hrest l ?_ ?_⟩
  · rintro rfl
    exact hl rfl
  · rintro rfl
    exact hl rfl

theorem Restorable.after (hw : Restorable d entries w) (hprocess : w'.process = w.process)
    (hdirs : w.files.SameDirs w'.files) : Restorable d entries w' := by
  refine ⟨hprocess ▸ hw.apart, ?_, fun e he => ?_⟩
  · rw [hprocess]
    exact (hdirs _).2 hw.cwd
  · obtain ⟨n, hn, hplace, htemp⟩ := hw.places e he
    rw [hprocess]
    exact ⟨n, hn, fun h => hplace ((hdirs _).1 h), fun h => htemp ((hdirs _).1 h)⟩

end

/-! ## The round trip -/

/-- The digest of the file at a location. -/
def digestAt (E : Externals) (t : FileTree) (l : Loc) : Option String :=
  (t.fileAt l).map fun file => hexEncode (E.sha256 file.1)

section
variable {E : Externals} {version : String} {targetPaths : List UnixPath} {backupDir : UnixPath}
  {hmacKey : Bytes} {audit : AuditLogger} {w w' v : World} {d : Loc} {m : SnapshotManifest}
  {ls : List Loc} {t₀ t₁ : FileTree}

/-- A snapshot of the files at `ls`, none of them in its own directory or of the manifest's name. -/
structure CleanSnapshot (E : Externals) (d : Loc) (ls : List Loc) (entries : List FileEntry)
    (w w' : World) : Prop where
  describes : List.Forall₂ (fun l e => ∃ n q b m, l = n :: q ∧ w.files.get l = some (.file b m) ∧
    e = .describing E n b m) ls entries
  held : ∀ n q, n :: q ∈ ls → ∃ q' b m m', n :: q' ∈ ls ∧
    w.files.get (n :: q') = some (.file b m) ∧ w'.files.get (n :: d) = some (.file b m')

theorem SnapshotTaken.clean
    (h : SnapshotTaken E version targetPaths backupDir hmacKey w w' d m ls t₀ t₁)
    (hout : ∀ l ∈ ls, l.tail ≠ d) (hjson : ∀ q, snapshotJson :: q ∉ ls) :
    CleanSnapshot E d ls m.files w w' := by
  have hfile {l : Loc} {b : Bytes} {mo : Mode} (hf : t₀.get l = some (.file b mo)) :
      w.files.get l = some (.file b mo) := h.dirs.file.1 hf
  refine ⟨?_, fun n q hl => ?_⟩
  · refine (h.copies.describes hout).imp ?_
    rintro l e ⟨n, q, b, mo, hl, hf, he⟩
    exact ⟨n, q, b, mo, hl, hfile hf, he⟩
  · obtain ⟨q', b, mo, mo', hq', hf, hheld⟩ := h.copies.held hout hl
    refine ⟨q', b, mo, mo', hq', hfile hf, ?_⟩
    rw [(FileTree.overwrite_ok h.written).2.1 _ fun heq => hjson q ((List.cons.inj heq).1 ▸ hl)]
    exact hheld

theorem SnapshotTaken.tagged
    (h : SnapshotTaken E version targetPaths backupDir hmacKey w w' d m ls t₀ t₁) :
    m.Tagged E hmacKey := by
  rw [h.manifest]
  exact SnapshotManifest.signed_tagged hmacKey version m.createdAt m.files

section
variable {entries : List FileEntry} {n : FileName} {q : Loc}

theorem CleanSnapshot.entry (h : CleanSnapshot E d ls entries w w') (hl : n :: q ∈ ls) :
    ∃ b m, w.files.get (n :: q) = some (.file b m) ∧ .describing E n b m ∈ entries := by
  obtain ⟨hdescribes, -⟩ := h
  induction hdescribes with
  | nil => cases hl
  | cons hle _ ih =>
    rcases List.mem_cons.1 hl with rfl | hl
    · obtain ⟨n', q', b, m, hnq, hf, rfl⟩ := hle
      obtain rfl : n = n' := (List.cons.inj hnq).1
      exact ⟨b, m, hf, .head _⟩
    · obtain ⟨b, m, hf, he⟩ := ih hl
      exact ⟨b, m, hf, .tail _ he⟩

theorem CleanSnapshot.target (h : CleanSnapshot E d ls entries w w') {e : FileEntry}
    (he : e ∈ entries) : ∃ n q b m, n :: q ∈ ls ∧ w.files.get (n :: q) = some (.file b m) ∧
      e = .describing E n b m := by
  obtain ⟨hdescribes, -⟩ := h
  induction hdescribes with
  | nil => cases he
  | cons hle _ ih =>
    rcases List.mem_cons.1 he with rfl | he
    · obtain ⟨n, q, b, m, rfl, hf, he⟩ := hle
      exact ⟨n, q, b, m, .head _, hf, he⟩
    · obtain ⟨n, q, b, m, hl, hf, he⟩ := ih he
      exact ⟨n, q, b, m, .tail _ hl, hf, he⟩

theorem digestAt_file {t : FileTree} {l : Loc} {b : Bytes} {mo : Mode}
    (h : t.get l = some (.file b mo)) : digestAt E t l = some (hexEncode (E.sha256 b)) := by
  rw [digestAt, FileTree.fileAt_of_get h]
  rfl

/-- What the directory holds has the digests of the entries exactly when targets of one base name
have one digest. -/
theorem CleanSnapshot.holds_iff (h : CleanSnapshot E d ls entries w w')
    (hkept : ∀ n, v.files.get (n :: d) = w'.files.get (n :: d)) :
    (∀ e ∈ entries, ∃ b, e.Holds v.files d b ∧ hexEncode (E.sha256 b) = e.sha256) ↔
      ∀ n q q', n :: q ∈ ls → n :: q' ∈ ls →
        digestAt E w.files (n :: q) = digestAt E w.files (n :: q') := by
  constructor
  · intro hall n q q' hq hq'
    -- both entries describe the one file of their name
    have hdigest (q : Loc) (hq : n :: q ∈ ls) : ∃ b m, v.files.get (n :: d) = some (.file b m) ∧
        digestAt E w.files (n :: q) = some (hexEncode (E.sha256 b)) := by
      obtain ⟨b, m, hf, he⟩ := h.entry hq
      obtain ⟨b', ⟨n', m', hn, hheld⟩, hsum⟩ := hall _ he
      obtain rfl : n = n' := FileName.ext hn
      exact ⟨b', m', hheld, by rw [digestAt_file hf, hsum]; rfl⟩
    obtain ⟨b, m, hheld, hb⟩ := hdigest q hq
    obtain ⟨b', m', hheld', hb'⟩ := hdigest q' hq'
    rw [hheld] at hheld'
    cases hheld'
    rw [hb, hb']
  · intro hagree e he
    obtain ⟨n, q, b, m, hq, hf, rfl⟩ := h.target he
    obtain ⟨q', b', m', m'', hq', hf', hheld⟩ := h.held n q hq
    refine ⟨b', ⟨n, m'', rfl, (hkept n).trans hheld⟩, ?_⟩
    have hsame := hagree n q' q hq' hq
    rw [digestAt_file hf', digestAt_file hf] at hsame
    exact Option.some.inj hsame

end

/-- Where the base names differ, and none is the temporary name of another, the restores give each
file its target's bytes and mode. -/
theorem CleanSnapshot.restored {entries : List FileEntry} (h : CleanSnapshot E d ls entries w w')
    {cwd : Loc} {u : World} (hkept : ∀ n, v.files.get (n :: d) = w'.files.get (n :: d))
    (hnames : (ls.map List.head?).Nodup) (hstems : ∀ n q, n :: q ∈ ls → ¬ n.DotStem)
    (htemps : ∀ n q n' q', n :: q ∈ ls → n' :: q' ∈ ls → restoreName n' ≠ n)
    (hsteps : Steps (FileEntry.temp cwd) (FileEntry.dest cwd)
      (fun e file => e.Holds v.files d file.1 ∧ file.2 = e.mode) entries v.files.fileAt
        u.files.fileAt)
    {n : FileName} {q : Loc} {b : Bytes} {mo : Mode} (hl : n :: q ∈ ls)
    (hf : w.files.get (n :: q) = some (.file b mo)) : u.files.fileAt (n :: cwd) = some (b, mo) := by
  have hunique {q' : Loc} (hq' : n :: q' ∈ ls) : q' = q :=
    (List.cons.inj (List.inj_on_of_nodup_map hnames hq' hl rfl)).2
  obtain ⟨b₁, m₁, -, he⟩ := h.entry hl
  have htouched := (@lastTouch_ne_none _ _ _ (FileEntry.temp cwd) (FileEntry.dest cwd) _ _ he).1
  rw [FileEntry.dest_name (n := n) rfl] at htouched
  have hget := hsteps.get (n :: cwd)
  cases hlast : lastTouch (FileEntry.temp cwd) (FileEntry.dest cwd) entries (n :: cwd) with
  | none => exact absurd hlast htouched
  | some touch =>
    rw [hlast] at hget
    cases touch with
    | cleared =>
      obtain ⟨e', he', heq⟩ := of_lastTouch hlast
      obtain ⟨n', q', b', m', hq', -, rfl⟩ := h.target he'
      rw [FileEntry.temp_name (n := n') rfl (hstems n' q' hq')] at heq
      exact absurd (List.cons.inj heq).1.symm (htemps n q n' q' hl hq')
    | put e' =>
      obtain ⟨⟨bytes, mode⟩, ⟨⟨n'', m'', hn'', hheld⟩, hmode⟩, hfile⟩ := hget
      obtain ⟨he', heq⟩ := of_lastTouch hlast
      obtain ⟨n', q', b', m', hq', hf', rfl⟩ := h.target he'
      rw [FileEntry.dest_name (n := n') rfl] at heq
      obtain rfl : n = n' := (List.cons.inj heq).1
      obtain rfl : n = n'' := FileName.ext hn''
      obtain rfl := hunique hq'
      obtain ⟨q₂, b₂, m₂, m₃, hq₂, hf₂, hd⟩ := h.held n q' hl
      obtain rfl := hunique hq₂
      rw [hkept, hd] at hheld
      rw [hf] at hf' hf₂
      cases hf'
      cases hf₂
      cases hheld
      rw [hfile]
      simp only [FileEntry.mode_describing] at hmode
      rw [show mode = mo from hmode]

end

/-! ## A round trip -/

end Synqro
