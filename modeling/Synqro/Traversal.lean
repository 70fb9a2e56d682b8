import Synqro.Lib.LexicalPath
import Synqro.RollbackCounts
import Mathlib.Algebra.Order.BigOperators.Group.List
import Mathlib.Algebra.Order.Group.Nat
import Mathlib.Data.List.TakeWhile

/-!
# What the traversal check protects

`assert_path_under_parent` is asked about one path, a base joined with a name from outside, and the
files that follow are at others. `restoresWithin_iff` says for which entry paths the check keeps a
restore in the directories it is meant for, `takeSnapshot_confined` for which versions a snapshot
stays in the backup directory.
-/

namespace Synqro

open UnixPath

theorem assertPathUnderParent_ok {path parent : UnixPath} :
    assertPathUnderParent path parent = .ok () ↔
      ∃ relative, path.stripPrefix parent = some relative ∧ .parentDir ∉ relative.components := by
  unfold assertPathUnderParent
  cases path.stripPrefix parent with
  | none => exact iff_of_false nofun nofun
  | some relative =>
    by_cases h : .parentDir ∈ relative.components
    · simp only [if_pos h]
      refine iff_of_false nofun ?_
      rintro ⟨_, ⟨⟩, hrelative⟩
      exact hrelative h
    · simp only [if_neg h]
      exact iff_of_true trivial ⟨relative, rfl, h⟩

/-- Leading dots are no steps up. -/
theorem parentDir_mem_dropWhile {cs : List Component} :
    .parentDir ∈ cs.dropWhile (· = .curDir) ↔ .parentDir ∈ cs := by
  induction cs with
  | nil => rfl
  | cons c cs ih =>
    cases c with
    | curDir =>
      rw [List.dropWhile_cons_of_pos (by decide), ih, List.mem_cons]
      exact (or_iff_right nofun).symm
    | parentDir => rw [List.dropWhile_cons_of_neg (by decide)]
    | normal n => rw [List.dropWhile_cons_of_neg (by simp)]

/-- A relative path below a location. -/
theorem join_relative (v : Loc) {p : UnixPath} (hp : p.absolute = false) :
    ((ofLoc v).join p).absolute = true ∧ ((ofLoc v).join p).components =
      (ofLoc v).components ++ p.components.dropWhile (· = .curDir) := by
  have hbase : ¬ UnixPath.IsEmpty (ofLoc v) := by
    rintro ⟨⟨⟩, -⟩
  rw [join, if_neg (by simp [hp]), if_neg hbase]
  exact ⟨rfl, rfl⟩

/-- The check on a relative path below a location asks for no step up. -/
theorem assertPathUnderParent_relative {v : Loc} {p : UnixPath} (hp : p.absolute = false) :
    assertPathUnderParent ((ofLoc v).join p) (ofLoc v) = .ok () ↔ .parentDir ∉ p.components := by
  obtain ⟨habsolute, hjoin⟩ := join_relative v hp
  rw [assertPathUnderParent_ok, stripPrefix,
    if_pos ⟨habsolute, hjoin ▸ List.prefix_append _ _⟩, hjoin, List.drop_left]
  simp only [Option.some.injEq, exists_eq_left', parentDir_mem_dropWhile]

theorem lexicalWalk_ofLoc (v : Loc) : lexicalWalk [] (ofLoc v).components = v := by
  have hnames : names (ofLoc v).components = v.reverse := by
    simp only [ofLoc, names, List.filterMap_map]
    exact List.filterMap_some
  rw [lexicalWalk_names [] (by simp [ofLoc]), hnames, List.reverse_reverse, List.append_nil]

theorem lexicalWalk_dropWhile (l : Loc) (cs : List Component) :
    lexicalWalk l (cs.dropWhile (· = .curDir)) = lexicalWalk l cs := by
  induction cs with
  | nil => rfl
  | cons c cs ih =>
    cases c with
    | curDir =>
      rw [List.dropWhile_cons_of_pos (by decide), ih]
      rfl
    | parentDir => rw [List.dropWhile_cons_of_neg (by decide)]
    | normal n => rw [List.dropWhile_cons_of_neg (by simp)]

/-- A relative path below a location spells what it spells from there. -/
theorem lexical_join {v cwd : Loc} {p : UnixPath} (hp : p.absolute = false) :
    ((ofLoc v).join p).lexical cwd = p.lexical v := by
  obtain ⟨habsolute, hjoin⟩ := join_relative v hp
  rw [lexical, lexical, habsolute, hjoin, hp, lexicalWalk_append]
  simp only [if_true, lexicalWalk_ofLoc, lexicalWalk_dropWhile]
  rfl

section
variable {p : UnixPath} {ext : FileName}

/-- The components of a path with another extension: its last name is another, or lost when its stem
is a dot. -/
theorem withExtension_components :
    (∃ init n m, p.components = init ++ [.normal n] ∧ ¬ p.DotStem ∧
      p.withExtension ext = ⟨p.absolute, init ++ [.normal m], false⟩) ∨
    (∃ init n, p.components = init ++ [.normal n] ∧ p.DotStem ∧
      p.withExtension ext = ⟨p.absolute, init ++ [.parentDir], false⟩) ∨
    (¬ p.DotStem ∧ p.withExtension ext = p) := by
  unfold withExtension DotStem
  cases hn : p.fileName with
  | none => exact .inr (.inr ⟨by simp, rfl⟩)
  | some n =>
    obtain ⟨init, hinit⟩ := components_of_fileName hn
    simp only [hinit, List.dropLast_concat, Option.mem_some_iff, exists_eq_left']
    by_cases hp : p.dirOnly = true
    · rw [if_pos hp]
      exact .inl ⟨init, n, n.extended ext, rfl, fun h => absurd hp (Bool.eq_false_iff.1 h.1), rfl⟩
    rw [if_neg hp, FileName.withExtension]
    by_cases hstem : n.DotStem
    · rw [if_pos hstem]
      exact .inr (.inl ⟨init, n, rfl, ⟨Bool.eq_false_iff.2 hp, hstem⟩, rfl⟩)
    · rw [if_neg hstem]
      exact .inl ⟨init, n, n.extended ext, rfl, fun h => hstem h.2, rfl⟩

/-- A relative path without a step up spells a location below every working directory. -/
theorem lexical_relative (hp : p.absolute = false) (h : .parentDir ∉ p.components) (cwd : Loc) :
    p.lexical cwd = (names p.components).reverse ++ cwd := by
  rw [lexical, hp]
  exact lexicalWalk_names cwd h

/-- Such a path with another extension spells as many names, unless its last one is lost. -/
theorem lexical_withExtension (hp : p.absolute = false) (h : .parentDir ∉ p.components)
    (hstem : ¬ p.DotStem) : ∃ ns : List FileName, ns.length = (names p.components).length ∧
      ∀ cwd, (p.withExtension ext).lexical cwd = ns ++ cwd := by
  rcases @withExtension_components p ext with
    ⟨init, n, m, hinit, -, heq⟩ | ⟨_, _, -, hdot, -⟩ | ⟨-, heq⟩
  · refine ⟨(names (init ++ [.normal m])).reverse, by simp [hinit, names], fun cwd => ?_⟩
    rw [heq, hp]
    refine lexical_relative rfl (fun hmem => h ?_) cwd
    rw [hinit]
    rcases List.mem_append.1 hmem with hmem | hmem
    · exact List.mem_append_left _ hmem
    · cases List.mem_singleton.1 hmem
  · exact absurd hdot hstem
  · refine ⟨_, List.length_reverse, fun cwd => ?_⟩
    rw [heq]
    exact lexical_relative hp h cwd

/-- And then it spells the directory above that of its last name. -/
theorem lexical_withExtension_dotStem (hp : p.absolute = false) (h : .parentDir ∉ p.components)
    (hstem : p.DotStem) : ∃ ns : List FileName, (names p.components).length = ns.length + 1 ∧
      ∀ cwd, (p.withExtension ext).lexical cwd = (ns ++ cwd).tail := by
  rcases @withExtension_components p ext with
    ⟨_, _, _, -, hnot, -⟩ | ⟨init, n, hinit, -, heq⟩ | ⟨hnot, -⟩
  · exact absurd hstem hnot
  · refine ⟨(names init).reverse, by simp [hinit, names], fun cwd => ?_⟩
    have hdots : .parentDir ∉ init := fun hmem => h (hinit ▸ List.mem_append_left _ hmem)
    rw [heq, hp, lexical, lexicalWalk_append]
    simp only [Bool.false_eq_true, if_false, lexicalWalk_names cwd hdots]
    rfl
  · exact absurd hstem hnot

end

/-- The location is in the directory. -/
def InDir (dir l : Loc) : Prop := dir <:+ l

/-- The location is in the directory and not the directory itself. -/
def Below (dir l : Loc) : Prop := dir <:+ l ∧ l ≠ dir

/-- The files of a restore are where they are meant to be, by the names in their paths: the backup
file in the version directory `v`, the destination and its temporary file in the working directory,
whichever that is. -/
structure RestoresWithin (Within : Loc → Loc → Prop) (v : Loc) (path : String) : Prop where
  backup : ∀ cwd, Within v (((ofLoc v).join (.ofString path)).lexical cwd)
  dest : ∀ cwd, Within cwd ((ofString path).lexical cwd)
  temp : ∀ cwd, Within cwd (((ofString path).withExtension restoreExtension).lexical cwd)

section
variable {v : Loc} {path : String}

/-- No absolute path spells a location in every working directory. -/
theorem relative_of_inDir {p : UnixPath} (h : ∀ cwd, InDir cwd (p.lexical cwd)) :
    p.absolute = false := by
  rw [← Bool.not_eq_true]
  intro hp
  have hroot : p.lexical (snapshotJson :: p.lexical []) = p.lexical [] := by
    rw [lexical, lexical, hp]
    rfl
  have hlength := (h (snapshotJson :: p.lexical [])).length_le
  rw [hroot, List.length_cons] at hlength
  omega

/-- The files of a restore by how many names their paths spell: as many as the entry's, and the
temporary file one less than its directory when the entry's last name is lost. -/
theorem restoresWithin_relative {Within : Loc → Loc → Prop} {Deep : Nat → Prop}
    (hWithin : ∀ (ns : List FileName), (∀ dir, Within dir (ns ++ dir)) ↔ Deep ns.length)
    (hclimb : ¬ ∀ dir : Loc, Within dir dir.tail) (hp : (ofString path).absolute = false)
    (hpass : assertPathUnderParent ((ofLoc v).join (.ofString path)) (ofLoc v) = .ok ()) :
    RestoresWithin Within v path ↔ Deep (names (ofString path).components).length ∧
      ((ofString path).DotStem → 1 < (names (ofString path).components).length ∧
        Deep ((names (ofString path).components).length - 2)) := by
  have hdots := (assertPathUnderParent_relative hp).1 hpass
  have hdest : (∀ cwd, Within cwd ((ofString path).lexical cwd)) ↔
      Deep (names (ofString path).components).length := by
    rw [← List.length_reverse, ← hWithin]
    exact forall_congr' fun cwd => by rw [lexical_relative hp hdots]
  have hbackup : Deep (names (ofString path).components).length →
      ∀ cwd, Within v (((ofLoc v).join (.ofString path)).lexical cwd) := by
    intro hdeep cwd
    rw [lexical_join hp]
    exact hdest.2 hdeep v
  have htemp : (∀ cwd, Within cwd (((ofString path).withExtension restoreExtension).lexical cwd)) ↔
      if (ofString path).DotStem then 1 < (names (ofString path).components).length ∧
        Deep ((names (ofString path).components).length - 2)
      else Deep (names (ofString path).components).length := by
    split
    · next hstem =>
      obtain ⟨ns, hlength, hns⟩ := @lexical_withExtension_dotStem _ restoreExtension hp hdots hstem
      simp only [hns, hlength]
      cases ns with
      | nil => simpa using hclimb
      | cons n ns => simpa using hWithin ns
    · next hstem =>
      obtain ⟨ns, hlength, hns⟩ := @lexical_withExtension _ restoreExtension hp hdots hstem
      simp only [hns, ← hlength]
      exact hWithin ns
  constructor
  · intro h
    refine ⟨hdest.1 h.dest, fun hstem => ?_⟩
    have hlost := htemp.1 h.temp
    rwa [if_pos hstem] at hlost
  · rintro ⟨hdeep, hlost⟩
    refine ⟨hbackup hdeep, hdest.2 hdeep, htemp.2 ?_⟩
    split
    · next hstem => exact hlost hstem
    · exact hdeep

/-- For the paths that pass the check, the files of a restore are in their directories exactly when
the path is relative, and none is the directory itself exactly when it also has a name. If the last
name has a dot for its stem its temporary file is the directory above, and the path must have a name
more for the one and two more for the other. -/
theorem restoresWithin_iff (v : Loc) (path : String)
    (hpass : assertPathUnderParent ((ofLoc v).join (.ofString path)) (ofLoc v) = .ok ()) :
    (RestoresWithin InDir v path ↔ (ofString path).absolute = false ∧
        ((ofString path).DotStem → 1 < (names (ofString path).components).length)) ∧
      (RestoresWithin Below v path ↔ (ofString path).absolute = false ∧
        names (ofString path).components ≠ [] ∧
        ((ofString path).DotStem → 2 < (names (ofString path).components).length)) := by
  have hin (ns : List FileName) : (∀ dir, InDir dir (ns ++ dir)) ↔ True :=
    iff_true_intro fun dir => List.suffix_append ns dir
  have hbelow (ns : List FileName) : (∀ dir, Below dir (ns ++ dir)) ↔ 0 < ns.length := by
    rw [List.length_pos_iff]
    refine ⟨fun h hns => (h []).2 (by rw [hns]; rfl), fun hns dir =>
      ⟨List.suffix_append ns dir, ?_⟩⟩
    exact fun heq => hns (List.append_left_eq_self.1 heq)
  have hclimb : ¬ ∀ dir : Loc, InDir dir dir.tail := fun h =>
    absurd (h [snapshotJson]).length_le (by decide)
  have hclimb' : ¬ ∀ dir : Loc, Below dir dir.tail := fun h => hclimb fun dir => (h dir).1
  constructor
  · have hrelative (hp : (ofString path).absolute = false) :=
      @restoresWithin_relative v path InDir (fun _ => True) hin hclimb hp hpass
    constructor
    · intro h
      have hp := relative_of_inDir h.dest
      exact ⟨hp, fun hstem => (((hrelative hp).1 h).2 hstem).1⟩
    · rintro ⟨hp, hlong⟩
      exact (hrelative hp).2 ⟨trivial, fun hstem => ⟨hlong hstem, trivial⟩⟩
  · have hrelative (hp : (ofString path).absolute = false) :=
      @restoresWithin_relative v path Below (0 < ·) hbelow hclimb' hp hpass
    constructor
    · intro h
      have hp := relative_of_inDir fun cwd => (h.dest cwd).1
      obtain ⟨hnames, hlost⟩ := (hrelative hp).1 h
      refine ⟨hp, List.length_pos_iff.1 hnames, fun hstem => ?_⟩
      have hlong := (hlost hstem).2
      omega
    · rintro ⟨hp, hnames, hlong⟩
      refine (hrelative hp).2 ⟨List.length_pos_iff.2 hnames, fun hstem => ?_⟩
      have hlong := hlong hstem
      omega

end

theorem restoresWithin_iff_app :
    (RestoresWithin InDir backupLoc "app" ↔ (ofString "app").absolute = false ∧
        ((ofString "app").DotStem → 1 < (names (ofString "app").components).length)) ∧
      (RestoresWithin Below backupLoc "app" ↔ (ofString "app").absolute = false ∧
        names (ofString "app").components ≠ [] ∧
        ((ofString "app").DotStem → 2 < (names (ofString "app").components).length)) :=
  restoresWithin_iff backupLoc "app" rfl

/-- An absolute path below the version directory passes the check. -/
theorem absolute_passes : ¬ ∀ (v : Loc) (path : String),
    assertPathUnderParent ((ofLoc v).join (.ofString path)) (ofLoc v) = .ok () →
      RestoresWithin InDir v path := by
  intro h
  cases relative_of_inDir (h backupLoc "/backup/app" rfl).dest

/-! ## Snapshots -/

/-- Nothing outside the directory changed. -/
structure World.KeepsOutside (dir : Loc) (w w' : World) : Prop where
  process : w'.process = w.process
  files : w.files.KeepsOutside dir w'.files

namespace World.KeepsOutside

variable {dir : Loc} {w w' : World}

instance : Std.Refl (KeepsOutside dir) := ⟨fun _ => ⟨rfl, refl _⟩⟩
instance : IsTrans World (KeepsOutside dir) :=
  ⟨fun _ _ _ h h' => ⟨h'.process.trans h.process, IsTrans.trans _ _ _ h.files h'.files⟩⟩

theorem of_sameFiles (h : World.SameFiles w w') : KeepsOutside dir w w' :=
  ⟨h.process, by rw [h.files]; exact refl _⟩

/-- A change of a file in the directory. -/
theorem of_touches {n : FileName} {v : Loc} (hv : dir <:+ v)
    (h : World.Touches ((ofLoc v).join (.ofName n)) w w') : KeepsOutside dir w w' := by
  refine ⟨h.process, fun l hl => h.files.2 l fun hn => hl ?_⟩
  rw [World.locate, ofLoc_join_ofName, locateFile_ofLoc] at hn
  rw [← Except.ok.inj hn]
  exact hv.trans (List.suffix_cons n v)

end World.KeepsOutside

open World (KeepsOutside SameFiles)

section
variable {E : Externals} {dir v : Loc}

/-- The copies are files of the version directory. -/
theorem snapshotFile_keepsOutside (hv : dir <:+ v) (srcPath : UnixPath) :
    Comp.Respects (KeepsOutside dir) (snapshotFile E (.ofLoc v) srcPath) := by
  have hsame {α : Type} {x : M α} (hx : Comp.Respects SameFiles x) :
      Comp.Respects (KeepsOutside dir) x := hx.mono fun _ _ => .of_sameFiles
  refine .bind (hsame (.mapErr _ canonicalize_sameFiles)) fun canonicalSrc => ?_
  refine .bind (.ofExcept _) fun n => .bind (.ofExcept _) fun _ => ?_
  refine .bind (hsame (.mapErr _ read_sameFiles)) fun bytes => ?_
  refine .bind (hsame (.mapErr _ ?_)) fun mode => .bind (.mapErr _ ?_) fun _ => .pure _
  · exact call_sameFiles (queryFiles_sameFiles _) fun _ => .pure ()
  · exact (write_touches bytes).mono fun _ _ => .of_touches hv

theorem snapshotFiles_keepsOutside (hv : dir <:+ v) (srcPaths : List UnixPath) :
    Comp.Respects (KeepsOutside dir) (snapshotFiles E (.ofLoc v) srcPaths) := by
  induction srcPaths with
  | nil => exact .pure _
  | cons p ps ih =>
    exact .bind (snapshotFile_keepsOutside hv p) fun _ => .bind ih fun _ => .pure _

end

/-- The components of the name of a version directory. -/
def versionComponents (version : String) : List Component := (ofString s!"v{version}").components

theorem ofString_version_relative (version : String) :
    (ofString s!"v{version}").absolute = false := by
  have hhead : s!"v{version}".toList.head? = some 'v' := by
    rw [String.toList_append]
    rfl
  simp only [ofString, hhead]
  rfl

theorem component?_ne_curDir {first : Bool} {piece : List Char} (h : first = true → piece ≠ ['.']) :
    component? first piece ≠ some .curDir := by
  unfold component?
  split
  · nofun
  split
  · next hdot =>
    cases first with
    | false => nofun
    | true => exact absurd hdot (h rfl)
  split
  · nofun
  · cases FileName.ofString? (String.ofList piece) <;> nofun

theorem curDir_notMem_versionComponents (version : String) :
    .curDir ∉ versionComponents version := by
  have hchars : s!"v{version}".toList = 'v' :: version.toList := by
    rw [String.toList_append]
    rfl
  obtain ⟨piece, pieces, hpieces⟩ : ∃ piece pieces,
      splitSlash ('v' :: version.toList) = ('v' :: piece) :: pieces := by
    rw [splitSlash, if_neg (by decide)]
    cases splitSlash version.toList with
    | nil => exact ⟨[], [], rfl⟩
    | cons s ss => exact ⟨s, ss, rfl⟩
  simp only [versionComponents, ofString, hchars, hpieces, List.headD_cons, List.tail_cons,
    List.mem_append, Option.mem_toList, List.mem_filterMap, not_or, not_exists, not_and]
  exact ⟨component?_ne_curDir fun _ => by simp, fun _ _ =>
    component?_ne_curDir fun hfirst => absurd hfirst Bool.false_ne_true⟩

/-- A version directory is made from the backup directory, by the components of its name. -/
theorem join_version (version : String) (backupDir : UnixPath) :
    (backupDir.join (.ofString s!"v{version}")).absolute = backupDir.absolute ∧
      (backupDir.join (.ofString s!"v{version}")).components =
        backupDir.components ++ versionComponents version := by
  have hrelative := ofString_version_relative version
  have hdots : (versionComponents version).dropWhile (· = .curDir) = versionComponents version :=
    List.dropWhile_eq_self_iff.2 fun hpos hdot =>
      curDir_notMem_versionComponents version (of_decide_eq_true hdot ▸ List.getElem_mem hpos)
  unfold join
  rw [if_neg (by simp [hrelative])]
  split
  · next hempty =>
    rw [hrelative, hempty.1, hempty.2]
    exact ⟨rfl, rfl⟩
  · exact ⟨rfl, congrArg _ hdots⟩

section
variable {E : Externals} {version : String} {backupDir : UnixPath} {w w₁ : World} {B : Loc}

/-- Where the components of a path are followed from. -/
def start (cwd : Loc) (p : UnixPath) : Loc := if p.absolute then [] else cwd

theorem base_lexical {t : FileTree} {cwd : Loc} (h : backupDir.base t cwd = .ok B) :
    lexicalWalk (start cwd backupDir) backupDir.components = B := by
  unfold base at h
  split at h
  · next hempty =>
    cases h
    rw [start, hempty.1, hempty.2]
    rfl
  · exact locate_lexical h

/-- Making the version directory below the backup directory changes nothing outside. -/
theorem createVersionDir_keepsOutside (h : fs.createDirAll backupDir w = .ok () w₁)
    (hB : backupDir.base w₁.files w₁.process.cwd = .ok B)
    (hversion : Confined 0 (versionComponents version)) :
    KeepsOutside B w₁ (Comp.after
      (fs.createDirAll (backupDir.join (.ofString s!"v{version}"))) w₁) := by
  obtain ⟨habsolute, hcomponents⟩ := join_version version backupDir
  obtain ⟨-, t, hmk, rfl⟩ := fs.createDirAll_ok.1 h
  have hmake (n : Nat) : KeepsOutside B (w.tick.setFiles t) (Comp.after (fs.makeDirs
      (backupDir.join (.ofString s!"v{version}"))
      ((backupDir.components ++ versionComponents version).take n)) (w.tick.setFiles t).tick) := by
    have hbelow := FileTree.mkdirAll_below hmk hversion n
    have hlexical := base_lexical hB
    unfold start at hlexical
    simp only [World.setFiles_process, World.tick_process] at hlexical
    rw [hlexical] at hbelow
    unfold Comp.after at hbelow
    unfold Comp.after fs.makeDirs onFiles
    rw [habsolute]
    simp only [World.setFiles_process, World.tick_process, World.tick_files, World.setFiles_files]
    cases hr : FileTree.mkdirAll (if backupDir.absolute = true then [] else w.process.cwd)
      ((backupDir.components ++ versionComponents version).take n) t <;> rw [hr] at hbelow <;>
      exact ⟨rfl, hbelow⟩
  have hall := hmake (backupDir.components ++ versionComponents version).length
  rw [List.take_length] at hall
  unfold Comp.after fs.createDirAll call
  rw [hcomponents]
  split
  · next f _ => exact hmake f.done
  · exact hall

/-- The version directory is in the backup directory. -/
theorem versionDir_below (hB : backupDir.base w₁.files w₁.process.cwd = .ok B)
    (hversion : Confined 0 (versionComponents version)) {w₂ : World} {v : Loc}
    (hprocess : w₂.process = w₁.process)
    (hv : (backupDir.join (.ofString s!"v{version}")).locate w₂.files w₂.process.cwd = .ok v) :
    B <:+ v := by
  obtain ⟨habsolute, hcomponents⟩ := join_version version backupDir
  have hlexical := locate_lexical hv
  rw [lexical, hcomponents, habsolute, hprocess, lexicalWalk_append] at hlexical
  have hbase : lexicalWalk (if backupDir.absolute = true then [] else w₁.process.cwd)
      backupDir.components = B := base_lexical hB
  rw [← hlexical, hbase]
  exact @Confined.lexicalWalk B [] _ hversion

/-- A snapshot for a version that stays below its start stays in the backup directory, on every
outcome. -/
theorem takeSnapshot_keepsOutside {targetPaths : List UnixPath} {hmacKey : Bytes}
    (h : fs.createDirAll backupDir w = .ok () w₁)
    (hB : backupDir.base w₁.files w₁.process.cwd = .ok B)
    (hversion : Confined 0 (versionComponents version)) :
    KeepsOutside B w₁ (Comp.after (takeSnapshot E version targetPaths backupDir hmacKey) w) := by
  unfold takeSnapshot
  rw [Comp.after_bind_ok (Comp.mapErr_ok.2 h)]
  have hmade := createVersionDir_keepsOutside h hB hversion
  refine Comp.after_bind (by rwa [Comp.after_mapErr]) fun _ w₂ _ hkeep => ?_
  have hcanonicalize : KeepsOutside B w₂ (Comp.after (Comp.mapErr
      (fun e => SynqroError.Permission s!"Cannot canonicalize backup dir: {e.display}")
      (fs.canonicalize (backupDir.join (.ofString s!"v{version}")))) w₂) :=
    .of_sameFiles (Comp.Respects.mapErr _ canonicalize_sameFiles w₂)
  refine Comp.after_bind hcanonicalize fun canonicalBackup w₃ hcanonical _ => ?_
  obtain ⟨-, ⟨v, hv, rfl, -⟩, rfl⟩ := fs.canonicalize_ok.1 (Comp.mapErr_ok.1 hcanonical)
  have hbelow : B <:+ v := versionDir_below hB hversion hkeep.process hv
  refine Comp.Respects.bind (snapshotFiles_keepsOutside hbelow targetPaths)
    (fun entries => ?_) w₂.tick
  refine .bind (fun w => ⟨rfl, refl _⟩) fun t => .bind (.modify fun w => ⟨rfl, refl _⟩) fun _ => ?_
  rw [ofString_snapshotJson]
  exact .mapErr _ ((write_touches _).mono fun _ _ => .of_touches hbelow)

/-- What a write leaves at a location in a directory: a file, or the directory that was there. -/
theorem write_leaves {v : Loc} {n : FileName} {bytes : Bytes} (hquiet : w.QuietFor 2)
    (hv : w.files.get v = some .dir) :
    (Comp.after (fs.write ((ofLoc v).join (.ofName n)) bytes) w).files.get (n :: v) ≠ none := by
  rw [ofLoc_join_ofName]
  have hquiets := World.quietFor_succ.1 hquiet
  by_cases hdir : w.files.get (n :: v) = some .dir
  · rw [((write_touches bytes w).files.1 (n :: v)).2 hdir]
    exact Option.some_ne_none _
  · obtain ⟨t, ht⟩ := FileTree.overwrite_of_settable bytes w.process.freshMode
      (⟨List.cons_ne_nil _ _, hv, hdir⟩ : w.files.Settable (n :: v))
    have hwrite : fs.write (ofLoc (n :: v)) bytes w = .ok () (w.tick.tick.setFiles t) :=
      fs.write_ok.2 ⟨hquiets.1, (World.quietFor_succ.1 hquiets.2).1, n :: v, t,
        locateFile_ofLoc _ _ _,
        ht, rfl⟩
    obtain ⟨⟨m, hm, -⟩, -⟩ := FileTree.overwrite_ok ht
    rw [Comp.after, hwrite]
    show t.get (n :: v) ≠ none
    rw [hm]
    exact Option.some_ne_none _

/-- There are names besides those of a list. -/
theorem exists_fresh (ns : List FileName) : ∃ n, n ∉ ns := by
  let k := (ns.map fun m => m.text.toList.length).sum
  have hplain (s : String) (hs : 'x' ∉ s.toList) :
    String.ofList (List.replicate (k + 1) 'x') ≠ s := by
    rintro rfl
    rw [String.toList_ofList] at hs
    exact hs (List.mem_replicate.2 ⟨nofun, rfl⟩)
  refine ⟨⟨String.ofList (List.replicate (k + 1) 'x'), hplain _ (by decide), hplain _ (by decide),
    hplain _ (by decide), ?_⟩, fun hmem => ?_⟩
  · rw [String.toList_ofList]
    intro hslash
    exact absurd (List.eq_of_mem_replicate hslash) (by decide)
  · have hlength := List.le_sum_of_mem (List.mem_map_of_mem hmem
      (f := fun m : FileName => m.text.toList.length))
    rw [String.toList_ofList, List.length_replicate] at hlength
    exact absurd hlength (Nat.not_succ_le_self k)

/-- A machine with nothing on its disk. -/
def bareWorld : World := .boot .calm (.startedIn []) .empty

/-- With no targets, a snapshot whose directories were made is the write of its manifest. -/
theorem takeSnapshot_nil {hmacKey : Bytes} {w₂ w₃ : World} {v : Loc}
    (h : fs.createDirAll backupDir w = .ok () w₁)
    (hversionDir : fs.createDirAll (backupDir.join (.ofString s!"v{version}")) w₁ = .ok () w₂)
    (hcanonicalize : fs.canonicalize (backupDir.join (.ofString s!"v{version}")) w₂ =
      .ok (.ofLoc v) w₃) :
    ∃ i bytes, Comp.after (takeSnapshot E version [] backupDir hmacKey) w =
      Comp.after (fs.write ((ofLoc v).join (.ofName snapshotJson)) bytes) (w₃.tick.issue i) := by
  unfold takeSnapshot
  rw [Comp.after_bind_ok (Comp.mapErr_ok.2 h), Comp.after_bind_ok (Comp.mapErr_ok.2 hversionDir),
    Comp.after_bind_ok (Comp.mapErr_ok.2 hcanonicalize), snapshotFiles, pure_bind,
    Comp.after_bind_ok (now_ok.2 ⟨rfl, rfl⟩), Comp.after_bind_ok ((issue_ok (u := ())).2 rfl),
      Comp.after_mapErr,
    ofString_snapshotJson]
  exact ⟨_, _, rfl⟩

/-- A version that leaves its start takes a snapshot out of some backup directory. -/
theorem takeSnapshot_escapes (hversion : ¬ Confined 0 (versionComponents version)) :
    ∃ backupDir w₁ B, fs.createDirAll backupDir bareWorld = .ok () w₁ ∧
      backupDir.base w₁.files w₁.process.cwd = .ok B ∧
      ¬ KeepsOutside B w₁ (Comp.after
        (takeSnapshot .running version [] backupDir []) bareWorld) := by
  obtain ⟨n, hn⟩ := exists_fresh (snapshotJson :: names (versionComponents version))
  rw [List.mem_cons, not_or] at hn
  have hfresh : .normal n ∉ versionComponents version := fun hmem =>
    hn.2 (List.mem_filterMap.2 ⟨_, hmem, rfl⟩)
  -- the backup directory, and then the version directory from it
  obtain ⟨t₁, hmk₁, honly₁, hd₁⟩ :
    ∃ t, FileTree.mkdirAll [] (ofLoc [n]).components .empty = .ok () t ∧
      t.OnlyDirs ∧ t.get [n] = some .dir :=
    FileTree.mkdirAll_of_onlyDirs FileTree.onlyDirs_empty (FileTree.get_root _)
  obtain ⟨t₂, hmk₂, -, hd₂⟩ :=
    @FileTree.mkdirAll_of_onlyDirs _ (versionComponents version) _ honly₁ hd₁
  let v := lexicalWalk [n] (versionComponents version)
  let w₁ := bareWorld.tick.setFiles t₁
  let w₂ := w₁.tick.setFiles t₂
  obtain ⟨habsolute, hcomponents⟩ := join_version version (ofLoc [n])
  have habsolute : ((ofLoc [n]).join (.ofString s!"v{version}")).absolute = true := habsolute
  have hmk : FileTree.mkdirAll [] ((ofLoc [n]).join (.ofString s!"v{version}")).components t₁ =
      .ok () t₂ := by
    rw [hcomponents, FileTree.mkdirAll_append, Comp.bind_ok]
    exact ⟨(), t₁, FileTree.mkdirAll_again hmk₁ (refl _), hmk₂⟩
  have hbackup : fs.createDirAll (ofLoc [n]) bareWorld = .ok () w₁ :=
    fs.createDirAll_ok.2 ⟨rfl, t₁, hmk₁, rfl⟩
  have hversionDir : fs.createDirAll ((ofLoc [n]).join (.ofString s!"v{version}")) w₁ =
    .ok () w₂ := by
    refine fs.createDirAll_ok.2 ⟨rfl, t₂, ?_, rfl⟩
    rw [habsolute]
    exact hmk
  have hcanonicalize : fs.canonicalize ((ofLoc [n]).join (.ofString s!"v{version}")) w₂ =
      .ok (.ofLoc v) w₂.tick := by
    refine fs.canonicalize_ok.2 ⟨rfl, ⟨v, ?_, rfl, .inl hd₂⟩, rfl⟩
    have hwalk := FileTree.walk_of_mkdirAll hmk
    have hlexical : lexicalWalk []
      ((ofLoc [n]).join (.ofString s!"v{version}")).components = v := by
      rw [hcomponents, lexicalWalk_append, lexicalWalk_ofLoc]
    have hempty : ¬ UnixPath.IsEmpty ((ofLoc [n]).join (.ofString s!"v{version}")) := by
      rintro ⟨hrelative, -⟩
      rw [habsolute] at hrelative
      cases hrelative
    rw [locate, if_neg hempty, habsolute, if_pos rfl, show w₂.files = t₂ from rfl, hwalk, hlexical]
  refine ⟨.ofLoc [n], w₁, [n], hbackup, base_of_locate (locate_ofLoc _ _ _), fun hkeep => ?_⟩
  have houtside : ¬ [n] <:+ snapshotJson :: v := by
    intro hsuffix
    rcases List.suffix_cons_iff.1 hsuffix with heq | hsuffix
    · exact hn.1 (List.cons.inj heq).1
    · exact @not_suffix_of_not_confined n [] _ hversion hfresh hsuffix
  have hnone : t₁.get (snapshotJson :: v) = none := by
    obtain ⟨_, t, hmk, hrest⟩ := Comp.bind_ok.1 hmk₁
    cases hrest
    rw [(FileTree.mkdir_ok (Comp.update_ok.1 hmk)).2.2 _ fun heq =>
      houtside (heq ▸ List.suffix_refl _)]
    rfl
  obtain ⟨i, bytes, hafter⟩ :=
    @takeSnapshot_nil .running version (.ofLoc [n]) bareWorld w₁ [] w₂ _ v
    hbackup hversionDir hcanonicalize
  have hkept := hkeep.files (snapshotJson :: v) houtside
  rw [hafter] at hkept
  exact write_leaves (fun _ _ => rfl) hd₂ (hkept.trans hnone)

end

/-- What a snapshot for the version changes, once its backup directory is made, is in that
directory, whatever the targets and the outcome, exactly when the name of the version directory
never climbs above where it starts. -/
theorem takeSnapshot_confined (version : String) :
    (∀ (E : Externals) (targetPaths : List UnixPath) (backupDir : UnixPath) (hmacKey : Bytes)
      (w w₁ : World) (B : Loc), fs.createDirAll backupDir w = .ok () w₁ →
        backupDir.base w₁.files w₁.process.cwd = .ok B →
        KeepsOutside B w₁ (Comp.after (takeSnapshot E version targetPaths backupDir hmacKey) w)) ↔
      Confined 0 (versionComponents version) := by
  constructor
  · intro h
    by_contra hversion
    obtain ⟨backupDir, w₁, B, hmade, hB, hescapes⟩ := takeSnapshot_escapes hversion
    exact hescapes (h _ _ _ _ _ _ _ hmade hB)
  · intro hversion E targetPaths backupDir hmacKey w w₁ B hmade hB
    exact takeSnapshot_keepsOutside hmade hB hversion

/-- A version with steps up takes a snapshot out of the backup directory. -/
theorem version_escapes : ¬ ∀ (E : Externals) (version : String) (targetPaths : List UnixPath)
    (backupDir : UnixPath) (hmacKey : Bytes) (w w₁ : World) (B : Loc),
    fs.createDirAll backupDir w = .ok () w₁ → backupDir.base w₁.files w₁.process.cwd = .ok B →
      KeepsOutside B w₁ (Comp.after (takeSnapshot E version targetPaths backupDir hmacKey) w) := by
  intro h
  have hclimbs : ¬ Confined 0 (versionComponents "1/../../x") := id
  obtain ⟨backupDir, w₁, B, hmade, hB, hescapes⟩ := takeSnapshot_escapes hclimbs
  exact hescapes (h _ _ _ _ _ _ _ _ hmade hB)

end Synqro
