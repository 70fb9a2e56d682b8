import Synqro.Lib.FileTree
import Synqro.Lib.Computation

/-!
# Paths as Rust's standard library reads them

A `UnixPath` is what `std::path` sees in a path string: whether it is absolute, its components
(`components`, with `.` kept in front only, as `Path::components` does) and whether the string can
only name a directory because it ends in a separator or a dot (`dirOnly`). The functions are those
of `Path` and `PathBuf`: `join` replaces the base by an absolute argument, `stripPrefix` and
`parent` work on components, `withExtension` rewrites the last name. `UnixPath.locate` resolves a
path on a `FileTree` from a working directory, and `FileTree.mkdirAll` creates the directories a
path runs through.
-/

namespace FileName

/-- The characters before the last dot. -/
def beforeDot (cs : List Char) : List Char := ((cs.reverse.dropWhile (· ≠ '.')).drop 1).reverse

/-- `Path::file_stem` on the characters of a name: all before the last dot, or the whole name when
it has no dot but a leading one. -/
def stem (cs : List Char) : List Char := if beforeDot cs = [] then cs else beforeDot cs

/-- A name with another extension: the stem, a dot and `ext`. -/
def extended (n ext : FileName) : FileName where
  text := String.ofList (stem n.text.toList ++ '.' :: ext.text.toList)
  plain := by
    have hstem : stem n.text.toList ≠ [] := by
      unfold stem
      split
      · exact fun h => n.plain.1 (String.toList_eq_nil_iff.1 h)
      · assumption
    have hext : ext.text.toList ≠ [] := fun h => ext.plain.1 (String.toList_eq_nil_iff.1 h)
    have hlen : 3 ≤ (stem n.text.toList ++ '.' :: ext.text.toList).length := by
      have h1 := List.length_pos_of_ne_nil hstem
      have h2 := List.length_pos_of_ne_nil hext
      simp only [List.length_append, List.length_cons]
      omega
    have hmem : '/' ∉ stem n.text.toList := by
      unfold stem
      split
      · exact n.plain.2.2.2
      · intro h
        refine n.plain.2.2.2 (List.mem_reverse.1 ?_)
        exact (List.dropWhile_suffix _).mem (List.mem_of_mem_drop (List.mem_reverse.1 h))
    refine ⟨?_, ?_, ?_, ?_⟩
    · intro h
      rw [← String.toList_inj, String.toList_ofList] at h
      rw [h] at hlen
      simp at hlen
    · intro h
      rw [← String.toList_inj, String.toList_ofList] at h
      rw [h] at hlen
      simp at hlen
    · intro h
      rw [← String.toList_inj, String.toList_ofList] at h
      rw [h] at hlen
      simp at hlen
    · rw [String.toList_ofList, List.mem_append, List.mem_cons]
      rintro (h | h | h)
      · exact hmem h
      · exact absurd h (by decide)
      · exact ext.plain.2.2.2 h

/-- The stem of the name is a dot, as in `..x`. -/
def DotStem (n : FileName) : Prop := stem n.text.toList = ['.']

instance (n : FileName) : Decidable n.DotStem := inferInstanceAs (Decidable (_ = _))

end FileName

/-- A component of a path other than its root. -/
inductive Component where
  | curDir
  | parentDir
  | normal (name : FileName)
deriving DecidableEq

/-- `Path::with_extension` on a name: the old extension is cut off, and what is left takes the new
one. Of `..x` there is left `..`, which is no file name and stays. -/
def FileName.withExtension (n ext : FileName) : Component :=
  if n.DotStem then .parentDir else .normal (n.extended ext)

/-- A path: the components of a path string and how it starts and ends. -/
structure UnixPath where
  absolute : Bool
  components : List Component
  dirOnly : Bool
deriving DecidableEq

namespace UnixPath

/-- The pieces of a string between separators. -/
def splitSlash : List Char → List (List Char)
  | [] => [[]]
  | c :: cs =>
    if c = '/' then [] :: splitSlash cs
    else match splitSlash cs with
      | [] => [[c]]
      | s :: ss => (c :: s) :: ss

/-- The component a piece spells; an empty piece and a dot that is not in front spell none. -/
def component? (first : Bool) (piece : List Char) : Option Component :=
  if piece = [] then none
  else if piece = ['.'] then if first then some .curDir else none
  else if piece = ['.', '.'] then some .parentDir
  else (FileName.ofString? (String.ofList piece)).map .normal

/-- The path a string spells. -/
def ofString (s : String) : UnixPath :=
  let pieces := splitSlash s.toList
  let absolute := s.toList.head? == some '/'
  { absolute
    components := (component? (!absolute) (pieces.headD [])).toList ++
      pieces.tail.filterMap (component? false)
    dirOnly := pieces.tail ≠ [] && (pieces.getLastD [] == [] || pieces.getLastD [] == ['.']) }

/-- The absolute path of a location. -/
def ofLoc (l : Loc) : UnixPath := ⟨true, l.reverse.map .normal, false⟩

/-- The relative path that is one name. -/
def ofName (n : FileName) : UnixPath := ⟨false, [.normal n], false⟩

/-- The empty path string. -/
def IsEmpty (p : UnixPath) : Prop := p.absolute = false ∧ p.components = []

instance (p : UnixPath) : Decidable p.IsEmpty := inferInstanceAs (Decidable (_ ∧ _))

/-- `Path::join`: an absolute `p` replaces `base`, any other is appended. -/
def join (base p : UnixPath) : UnixPath :=
  if p.absolute then p
  else if base.IsEmpty then p
  else
    let rest := p.components.dropWhile (· = .curDir)
    ⟨base.absolute, base.components ++ rest, rest.isEmpty || p.dirOnly⟩

/-- `Path::strip_prefix`: what is left of `p` below `base`. -/
def stripPrefix (p base : UnixPath) : Option UnixPath :=
  if p.absolute = base.absolute ∧ base.components <+: p.components then
    some ⟨false, p.components.drop base.components.length, p.dirOnly⟩
  else none

/-- `Path::parent`. -/
def parent (p : UnixPath) : Option UnixPath :=
  if p.components = [] then none else some ⟨p.absolute, p.components.dropLast, false⟩

/-- `Path::file_name`. -/
def fileName (p : UnixPath) : Option FileName :=
  match p.components.getLast? with
  | some (.normal n) => some n
  | _ => none

/-- `Path::with_extension`: a path without a file name stays as it is. The old extension is cut off
by its length from the end of the string, so a separator behind the name keeps a part of it in
place. -/
def withExtension (p : UnixPath) (ext : FileName) : UnixPath :=
  match p.fileName with
  | some n =>
    let last := if p.dirOnly then .normal (n.extended ext) else n.withExtension ext
    ⟨p.absolute, p.components.dropLast ++ [last], false⟩
  | none => p

/-- A path that ends in a name whose stem is a dot: with another extension it ends in `..`. -/
def DotStem (p : UnixPath) : Prop := p.dirOnly = false ∧ ∃ n ∈ p.fileName, n.DotStem

instance (p : UnixPath) : Decidable p.DotStem := inferInstanceAs (Decidable (_ ∧ ∃ n ∈ _, _))

/-- The text of a component. -/
def Component.text : Component → String
  | .curDir => "."
  | .parentDir => ".."
  | .normal n => n.text

/-- The quoted text of a path. -/
def debug (p : UnixPath) : String :=
  let root := if p.absolute then "/" else ""
  let path := String.intercalate "/" (p.components.map Component.text)
  s!"\"{root}{path}\""

/-! ## Resolution -/

/-- The location a list of components leads to from `l`; `..` needs a directory to leave. -/
def walk (t : FileTree) : Loc → List Component → Option Loc
  | l, [] => some l
  | l, .curDir :: cs => walk t l cs
  | l, .parentDir :: cs => if t.get l = some .dir then walk t l.tail cs else none
  | l, .normal n :: cs => walk t (n :: l) cs

/-- The location a path names from the working directory `cwd`. -/
def locate (t : FileTree) (cwd : Loc) (p : UnixPath) : Except IoError Loc :=
  if p.IsEmpty then .error .notFound
  else match walk t (if p.absolute then [] else cwd) p.components with
    | some l => .ok l
    | none => .error .notFound

/-- The location of a file: a path that can only name a directory names none. -/
def locateFile (t : FileTree) (cwd : Loc) (p : UnixPath) : Except IoError Loc :=
  if p.dirOnly then .error .notADirectory else p.locate t cwd

end UnixPath

/-- Create the directories a path runs through, from the front; those made before a failure
stay. -/
def FileTree.mkdirAll : Loc → List Component → Comp FileTree IoError Unit
  | _, [] => pure ()
  | l, .curDir :: cs => mkdirAll l cs
  | l, .parentDir :: cs => do
    Comp.query fun t => if t.get l = some .dir then .ok () else .error .notFound
    mkdirAll l.tail cs
  | l, .normal n :: cs => do
    Comp.update (·.mkdir (n :: l))
    mkdirAll (n :: l) cs

namespace UnixPath

/-! ## Paths that are names -/

/-- A text without a slash is one piece. -/
theorem splitSlash_plain {cs : List Char} (h : '/' ∉ cs) : splitSlash cs = [cs] := by
  induction cs with
  | nil => rfl
  | cons c cs ih =>
    simp only [List.mem_cons, not_or] at h
    rw [splitSlash, if_neg (Ne.symm h.1), ih h.2]

/-- A file name read as a path string is that name. -/
@[simp] theorem ofString_text (n : FileName) : ofString n.text = ofName n := by
  obtain ⟨hne, hdot, hdots, hslash⟩ := n.plain
  have hhead : (n.text.toList.head? == some '/') = false := by
    rw [beq_eq_false_iff_ne]
    intro h
    exact hslash (List.mem_of_head? h)
  have h1 : n.text.toList ≠ [] := fun h => hne (String.toList_eq_nil_iff.1 h)
  have h2 : n.text.toList ≠ ['.'] := fun h => hdot (String.toList_inj.1 (h.trans (by decide)))
  have h3 : n.text.toList ≠ ['.', '.'] :=
    fun h => hdots (String.toList_inj.1 (h.trans (by decide)))
  simp [ofString, ofName, splitSlash_plain hslash, hhead, component?, h1, h2, h3]

@[simp] theorem ofName_fileName (n : FileName) : (ofName n).fileName = some n := rfl

theorem ofName_dotStem {n : FileName} : (ofName n).DotStem ↔ n.DotStem := by
  simp [DotStem, ofName, fileName]

/-- A name gets the new extension in the place of its last. -/
theorem ofName_withExtension {n : FileName} (h : ¬ n.DotStem) (ext : FileName) :
    (ofName n).withExtension ext = ofName (n.extended ext) := by
  simp [withExtension, FileName.withExtension, ofName, fileName, h]

/-- A name such as `..x` becomes the parent directory. -/
theorem ofName_withExtension_dotStem {n : FileName} (h : n.DotStem) (ext : FileName) :
    (ofName n).withExtension ext = ⟨false, [.parentDir], false⟩ := by
  simp [withExtension, FileName.withExtension, ofName, fileName, h]

@[simp] theorem ofLoc_join_ofName (l : Loc) (n : FileName) :
    (ofLoc l).join (ofName n) = ofLoc (n :: l) := by
  simp [join, ofLoc, ofName, IsEmpty]

/-! ## Where a path leads -/

/-- Names lead down, whatever is there. -/
theorem walk_normals (t : FileTree) (l : Loc) (ns : List FileName) :
    walk t l (ns.map .normal) = some (ns.reverse ++ l) := by
  induction ns generalizing l with
  | nil => rfl
  | cons n ns ih => rw [List.map_cons, walk, ih]; simp

/-- A walk can be made in two parts. -/
theorem walk_append (t : FileTree) (l : Loc) (cs ds : List Component) :
    walk t l (cs ++ ds) = (walk t l cs).bind (fun l' => walk t l' ds) := by
  induction cs generalizing l with
  | nil => rfl
  | cons c cs ih =>
    cases c with
    | curDir => exact ih l
    | parentDir =>
      simp only [List.cons_append, walk]
      split
      · exact ih _
      · rfl
    | normal n => exact ih _

/-- Where a path leads depends on the directories only. -/
theorem walk_sameDirs {t t' : FileTree} (h : t.SameDirs t') (l : Loc) (cs : List Component) :
    walk t' l cs = walk t l cs := by
  induction cs generalizing l with
  | nil => rfl
  | cons c cs ih =>
    cases c with
    | curDir => exact ih l
    | parentDir => simp only [walk, h l, ih]
    | normal n => exact ih _

theorem walk_parentDir {t : FileTree} {l l' : Loc} {cs : List Component}
    (h : walk t l (cs ++ [.parentDir]) = some l') : t.get l' = some .dir := by
  rw [walk_append] at h
  obtain ⟨l'', -, hup⟩ := Option.bind_eq_some_iff.1 h
  rw [walk] at hup
  split at hup
  · next hdir =>
    cases hup
    cases l'' with
    | nil => exact t.get_root
    | cons n l => exact FileTree.get_parent hdir
  · cases hup

/-- A path that ends in `..` leads to a directory. -/
theorem dir_of_parentDir {t : FileTree} {cwd l : Loc} {p : UnixPath} {init : List Component}
    (hp : p.components = init ++ [.parentDir]) (h : p.locateFile t cwd = .ok l) :
    t.get l = some .dir := by
  unfold locateFile at h
  split at h
  · cases h
  unfold locate at h
  split at h
  · cases h
  split at h
  · next hw =>
    cases h
    exact walk_parentDir (hp ▸ hw)
  · cases h

/-- Where a path leads is a matter of the directories. -/
theorem locate_sameDirs {t t' : FileTree} (h : t.SameDirs t') (cwd : Loc) (p : UnixPath) :
    p.locate t' cwd = p.locate t cwd := by
  unfold locate
  rw [walk_sameDirs h]

theorem locateFile_sameDirs {t t' : FileTree} (h : t.SameDirs t') (cwd : Loc) (p : UnixPath) :
    p.locateFile t' cwd = p.locateFile t cwd := by
  unfold locateFile
  rw [locate_sameDirs h]

@[simp] theorem locate_ofLoc (t : FileTree) (cwd l : Loc) : (ofLoc l).locate t cwd = .ok l := by
  have : ¬ (ofLoc l).IsEmpty := by simp [IsEmpty, ofLoc]
  rw [locate, if_neg this]
  simp only [ofLoc, if_true, walk_normals, List.reverse_reverse, List.append_nil]

@[simp] theorem locate_ofName (t : FileTree) (cwd : Loc) (n : FileName) :
    (ofName n).locate t cwd = .ok (n :: cwd) := by
  have : ¬ (ofName n).IsEmpty := by simp [IsEmpty, ofName]
  rw [locate, if_neg this]
  simp [ofName, walk]

/-- A name appended to a path leads to that name where the path leads; the empty path stands for
the working directory. -/
theorem locate_join_ofName (t : FileTree) (cwd : Loc) (p : UnixPath) (n : FileName) :
    (p.join (ofName n)).locateFile t cwd =
      if p.IsEmpty then .ok (n :: cwd) else (p.locate t cwd).map (n :: ·) := by
  by_cases hp : p.IsEmpty
  · have hjoin : p.join (ofName n) = ofName n := by simp [join, ofName, hp]
    rw [if_pos hp, hjoin]
    exact locate_ofName t cwd n
  · have hjoin : p.join (ofName n) = ⟨p.absolute, p.components ++ [.normal n], false⟩ := by
      simp [join, ofName, hp]
    have hne : ¬ IsEmpty ⟨p.absolute, p.components ++ [.normal n], false⟩ := by simp [IsEmpty]
    rw [if_neg hp, hjoin, locateFile, if_neg (by simp), locate, if_neg hne, locate, if_neg hp,
      walk_append]
    cases walk t (if p.absolute then [] else cwd) p.components <;> rfl

/-- Where the files named below a path stand: where it leads, the working directory if it is
empty. -/
def base (t : FileTree) (cwd : Loc) (p : UnixPath) : Except IoError Loc :=
  if p.IsEmpty then .ok cwd else p.locate t cwd

theorem locateFile_join (t : FileTree) (cwd : Loc) (p : UnixPath) (n : FileName) :
    (p.join (ofName n)).locateFile t cwd = (p.base t cwd).map (n :: ·) := by
  rw [locate_join_ofName, base]
  split
  · rfl
  · rfl

/-- The directory that a path leads to is its base. -/
theorem base_of_locate {t : FileTree} {cwd l : Loc} {p : UnixPath} (h : p.locate t cwd = .ok l) :
    p.base t cwd = .ok l := by
  unfold base
  split
  · next hp => rw [locate, if_pos hp] at h; cases h
  · exact h

theorem base_sameDirs {t t' : FileTree} (h : t.SameDirs t') (cwd : Loc) (p : UnixPath) :
    p.base t' cwd = p.base t cwd := by
  rw [base, base, locate_sameDirs h]

/-- The siblings of a file below a path are the files below it. -/
theorem parent_join_ofName (p q : UnixPath) (n m : FileName) :
    ((p.join (ofName n)).parent.getD q).join (ofName m) = p.join (ofName m) := by
  have hempty : IsEmpty ⟨false, [], false⟩ := ⟨rfl, rfl⟩
  by_cases hp : p.IsEmpty
  · have hjoin (k : FileName) : p.join (ofName k) = ofName k := by simp [join, ofName, hp]
    have hparent : (ofName n).parent = some ⟨false, [], false⟩ := rfl
    rw [hjoin, hjoin, hparent, Option.getD_some, join, if_neg (by simp [ofName]), if_pos hempty]
  · have hjoin {b : Bool} (k : FileName) : join ⟨p.absolute, p.components, b⟩ (ofName k) =
        ⟨p.absolute, p.components ++ [.normal k], false⟩ := by
      have hp' : ¬ IsEmpty ⟨p.absolute, p.components, b⟩ := hp
      simp [join, ofName, hp']
    have hparent : parent ⟨p.absolute, p.components ++ [.normal n], false⟩ =
        some ⟨p.absolute, p.components, false⟩ := by
      simp [parent]
    have hp' : p = ⟨p.absolute, p.components, p.dirOnly⟩ := rfl
    rw [hp', hjoin, hjoin, hparent, Option.getD_some, hjoin]

/-- A path that ends in a name can name a file. -/
theorem join_ofName_dirOnly (p : UnixPath) (n : FileName) :
    (p.join (ofName n)).dirOnly = false := by
  by_cases hp : p.IsEmpty <;> simp [join, ofName, hp]

theorem locateFile_join_ofName (t : FileTree) (cwd : Loc) (p : UnixPath) (n : FileName) :
    (p.join (ofName n)).locateFile t cwd = (p.join (ofName n)).locate t cwd := by
  rw [locateFile, join_ofName_dirOnly, if_neg (by simp)]

theorem not_isEmpty_of_locate {t : FileTree} {cwd l : Loc} {p : UnixPath}
    (h : p.locate t cwd = .ok l) : ¬ p.IsEmpty := by
  intro hp
  rw [locate, if_pos hp] at h
  cases h

/-- A name below a directory leads to the entry of the directory. -/
theorem locate_join_of_locate {t : FileTree} {cwd l : Loc} {p : UnixPath} (n : FileName)
    (h : p.locate t cwd = .ok l) : (p.join (ofName n)).locateFile t cwd = .ok (n :: l) := by
  rw [locate_join_ofName, if_neg (not_isEmpty_of_locate h), h]
  rfl

/-- A path that ends in a name leads to an entry of that name. -/
theorem locate_join_head {t : FileTree} {cwd l : Loc} {p : UnixPath} {n : FileName}
    (h : (p.join (ofName n)).locateFile t cwd = .ok l) : l.head? = some n := by
  rw [locate_join_ofName] at h
  split at h
  · cases h; rfl
  · cases hl : p.locate t cwd <;> rw [hl] at h <;> cases h
    rfl

@[simp] theorem locateFile_ofLoc (t : FileTree) (cwd l : Loc) :
    (ofLoc l).locateFile t cwd = .ok l := locate_ofLoc t cwd l

@[simp] theorem locateFile_ofName (t : FileTree) (cwd : Loc) (n : FileName) :
    (ofName n).locateFile t cwd = .ok (n :: cwd) := locate_ofName t cwd n

/-! ## Paths that end in a name -/

theorem splitSlash_ne_nil (cs : List Char) : splitSlash cs ≠ [] := by
  cases cs with
  | nil => simp [splitSlash]
  | cons c cs =>
    rw [splitSlash]
    split
    · simp
    · split <;> simp

/-- No piece has a slash in it. -/
theorem slash_notMem_splitSlash {cs piece : List Char} (h : piece ∈ splitSlash cs) :
    '/' ∉ piece := by
  induction cs generalizing piece with
  | nil => simp_all [splitSlash]
  | cons c cs ih =>
    rw [splitSlash] at h
    split at h
    · rcases List.mem_cons.1 h with rfl | h
      · simp
      · exact ih h
    · next hc =>
      cases hs : splitSlash cs with
      | nil => exact absurd hs (splitSlash_ne_nil cs)
      | cons s ss =>
        rw [hs] at h ih
        rcases List.mem_cons.1 h with rfl | h
        · rw [List.mem_cons, not_or]
          exact ⟨Ne.symm hc, ih (.head _)⟩
        · exact ih (.tail _ h)

/-- What is appended to a string goes to its last piece. -/
theorem splitSlash_append (cs : List Char) {ext : List Char} (h : '/' ∉ ext) :
    ∃ init piece, splitSlash (cs ++ ext) = init ++ [piece ++ ext] := by
  induction cs with
  | nil => exact ⟨[], [], by rw [List.nil_append, splitSlash_plain h]; rfl⟩
  | cons c cs ih =>
    obtain ⟨init, piece, hs⟩ := ih
    rw [List.cons_append, splitSlash, hs]
    split
    · exact ⟨[] :: init, piece, rfl⟩
    · cases init with
      | nil => exact ⟨[], c :: piece, rfl⟩
      | cons s ss => exact ⟨(c :: s) :: ss, piece, rfl⟩

/-- A string with an extension of its own spells a path to a name that ends in it. -/
theorem fileName_ofString_append (s ext : String) (hslash : '/' ∉ ext.toList)
    (hlen : 2 < ext.toList.length) :
    ∃ n, (ofString (s ++ ext)).fileName = some n ∧ ext.toList <:+ n.text.toList := by
  obtain ⟨init, piece, hs⟩ := splitSlash_append s.toList hslash
  have hplain : '/' ∉ piece ++ ext.toList :=
    @slash_notMem_splitSlash (s.toList ++ ext.toList) _ (by simp [hs])
  have hlong : 2 < (piece ++ ext.toList).length := by
    rw [List.length_append]
    omega
  have hname : String.ofList (piece ++ ext.toList) ≠ "" ∧
    String.ofList (piece ++ ext.toList) ≠ "." ∧
      String.ofList (piece ++ ext.toList) ≠ ".." ∧
        '/' ∉ (String.ofList (piece ++ ext.toList)).toList := by
    refine ⟨?_, ?_, ?_, by simpa using hplain⟩ <;>
    · intro h
      have hl := congrArg String.toList h
      rw [String.toList_ofList] at hl
      rw [hl] at hlong
      exact absurd hlong (by decide)
  refine ⟨⟨_, hname⟩, ?_, ?_⟩
  · have hcomp (first : Bool) :
      component? first (piece ++ ext.toList) = some (.normal ⟨_, hname⟩) := by
      have h1 : piece ++ ext.toList ≠ [] := by rintro h; simp [h] at hlong
      have h2 : piece ++ ext.toList ≠ ['.'] := by rintro h; simp [h] at hlong
      have h3 : piece ++ ext.toList ≠ ['.', '.'] := by rintro h; simp [h] at hlong
      have hof := FileName.ofString?_text ⟨_, hname⟩
      rw [component?, if_neg h1, if_neg h2, if_neg h3]
      simp only at hof
      rw [hof]
      rfl
    rw [fileName, ofString]
    simp only [String.toList_append, hs]
    cases init with
    | nil => simp [hcomp]
    | cons p ps => simp [hcomp]
  · simp

/-- A path with a file name ends in it. -/
theorem components_of_fileName {p : UnixPath} {n : FileName} (h : p.fileName = some n) :
    ∃ init, p.components = init ++ [.normal n] := by
  unfold fileName at h
  split at h
  · next hg => cases h; exact List.getLast?_eq_some_iff.1 hg
  · cases h

/-- A path joined to a base ends in the name that it ends in. -/
theorem fileName_join {base p : UnixPath} {n : FileName} (h : p.fileName = some n) :
    (base.join p).fileName = some n := by
  unfold join
  split
  · exact h
  split
  · exact h
  obtain ⟨init, hinit⟩ := components_of_fileName h
  have hdrop : ∃ rest, p.components.dropWhile (· = .curDir) = rest ++ [.normal n] := by
    rw [hinit, List.dropWhile_append]
    split
    · exact ⟨[], by simp⟩
    · exact ⟨_, rfl⟩
  obtain ⟨rest, hrest⟩ := hdrop
  simp only [fileName, hrest, ← List.append_assoc, List.getLast?_concat]

/-- Where a path that ends in a name leads. -/
theorem locateFile_head {t : FileTree} {cwd l : Loc} {p : UnixPath} {n : FileName}
    (hp : p.fileName = some n) (h : p.locateFile t cwd = .ok l) : l.head? = some n := by
  obtain ⟨init, hinit⟩ := components_of_fileName hp
  unfold locateFile at h
  split at h
  · cases h
  unfold locate at h
  split at h
  · cases h
  rw [hinit, walk_append] at h
  cases hw : walk t (if p.absolute then [] else cwd) init with
  | none => rw [hw] at h; cases h
  | some l' => rw [hw] at h; cases h; rfl

end UnixPath

namespace FileTree

/-! ## What creating directories does -/

/-- `t'` is `t` with directories added and nothing else changed. -/
def AddsDirs (t t' : FileTree) : Prop :=
  ∀ l, t'.get l = t.get l ∨ (t.get l = none ∧ t'.get l = some .dir)

theorem AddsDirs.refl (t : FileTree) : AddsDirs t t := fun _ => .inl rfl

/-- Adding directories keeps those that are there. -/
theorem AddsDirs.keeps {t t' : FileTree} (h : AddsDirs t t') : KeepsDirs t t' := by
  intro l hl
  rcases h l with heq | ⟨hn, -⟩
  · rw [heq, hl]
  · rw [hl] at hn
    cases hn

theorem AddsDirs.trans {t₁ t₂ t₃ : FileTree} (h : AddsDirs t₁ t₂) (h' : AddsDirs t₂ t₃) :
    AddsDirs t₁ t₃ := by
  intro l
  rcases h' l with h2 | ⟨hn, hd⟩
  · rcases h l with h1 | ⟨hn, hd⟩
    · exact .inl (h2.trans h1)
    · exact .inr ⟨hn, h2.trans hd⟩
  · rcases h l with h1 | ⟨-, hd'⟩
    · exact .inr ⟨h1 ▸ hn, hd⟩
    · rw [hd'] at hn; cases hn

/-- Adding directories changes no file. -/
theorem AddsDirs.file {t t' : FileTree} (h : AddsDirs t t') {l : Loc} {b : Bytes} {m : Mode} :
    t'.get l = some (.file b m) ↔ t.get l = some (.file b m) := by
  rcases h l with h | ⟨h1, h2⟩
  · rw [h]
  · simp [h1, h2]

theorem mkdir_addsDirs {t t' : FileTree} {l : Loc} (h : t.mkdir l = .ok t') : AddsDirs t t' := by
  obtain ⟨hd, hold, hrest⟩ := mkdir_ok h
  intro l'
  by_cases hl : l' = l
  · subst hl
    rcases hold with ho | ho
    · exact .inl (hd.trans ho.symm)
    · exact .inr ⟨ho, hd⟩
  · exact .inl (hrest l' hl)

instance : Std.Refl AddsDirs := ⟨AddsDirs.refl⟩
instance : IsTrans FileTree AddsDirs := ⟨fun _ _ _ => AddsDirs.trans⟩

/-- Making a directory and its parents only adds directories, by induction on the components. -/
theorem mkdirAll_addsDirs (l : Loc) (cs : List Component) :
    Comp.Respects AddsDirs (mkdirAll l cs) := by
  induction cs generalizing l with
  | nil => exact .pure ()
  | cons c cs ih =>
    cases c with
    | curDir => exact ih l
    | parentDir => exact .bind (.query _) fun _ => ih _
    | normal n => exact .bind (.update fun _ _ h => mkdir_addsDirs h) fun _ => ih _

/-- Where a path led it still leads once there are more directories. -/
theorem KeepsDirs.walk {t t' : FileTree} (h : KeepsDirs t t') {l l' : Loc} {cs : List Component}
    (hw : UnixPath.walk t l cs = some l') : UnixPath.walk t' l cs = some l' := by
  induction cs generalizing l with
  | nil => exact hw
  | cons c cs ih =>
    cases c with
    | curDir => exact ih hw
    | parentDir =>
      simp only [UnixPath.walk] at hw ⊢
      split at hw
      · next hd => rw [if_pos (h l hd)]; exact ih hw
      · cases hw
    | normal n => exact ih hw

/-- A path that leads somewhere leads there as long as directories are kept. -/
theorem KeepsDirs.locate {t t' : FileTree} (h : KeepsDirs t t') {cwd l : Loc} {p : UnixPath}
    (hl : p.locate t cwd = .ok l) : p.locate t' cwd = .ok l := by
  unfold UnixPath.locate at hl ⊢
  split at hl
  · cases hl
  · next hp =>
    rw [if_neg hp]
    cases hw : UnixPath.walk t (if p.absolute then [] else cwd) p.components with
    | none => rw [hw] at hl; cases hl
    | some l' => rw [h.walk hw]; rw [hw] at hl; exact hl

end FileTree
