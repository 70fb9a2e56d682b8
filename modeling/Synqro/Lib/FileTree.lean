import Mathlib.Algebra.GroupWithZero.Nat
import Mathlib.Data.List.AList
import Mathlib.Data.List.Infix

/-!
# A tree of files and directories

A file system without symbolic links: a finite map from locations to nodes in which everything
lies in a directory (`FileTree.rooted`), so a tree with a file below a file cannot be built. The
operations are those a program performs through the operating system, each a function from the
tree to an error or a new tree. Every change goes through two primitive edits, `FileTree.set` and
`FileTree.remove`, and every operation's effect is read through `FileTree.get`: what it put at the
location it names, and that it left every other location as it was.
-/

/-- The contents of a file. -/
abbrev Bytes := List UInt8

/-- The name of a file in its directory: not empty, not a dot entry, without a separator. -/
structure FileName where
  text : String
  plain : text ≠ "" ∧ text ≠ "." ∧ text ≠ ".." ∧ '/' ∉ text.toList
deriving DecidableEq

namespace FileName

/-- The name spelled by a string, when it is one. -/
def ofString? (s : String) : Option FileName :=
  if h : s ≠ "" ∧ s ≠ "." ∧ s ≠ ".." ∧ '/' ∉ s.toList then some ⟨s, h⟩ else none

@[simp] theorem ofString?_text (n : FileName) : ofString? n.text = some n := by
  simp only [ofString?, dif_pos n.plain]

/-- A name that was accepted is the text it was made of. -/
theorem ofString?_eq_some {s : String} {n : FileName} (h : ofString? s = some n) : n.text = s := by
  unfold ofString? at h
  split at h
  · cases h; rfl
  · cases h

@[ext] theorem ext {n m : FileName} (h : n.text = m.text) : n = m := by
  cases n; cases m; simp only at h; subst h; rfl

end FileName

/-- A location, innermost name first: `/backup/v1/a.bin` is `[a.bin, v1, backup]`, `/` is `[]`. -/
abbrev Loc := List FileName

/-- The permission bits of a file. -/
abbrev Mode := Fin 4096

instance Mode.neZero : NeZero 4096 := ⟨Nat.succ_ne_zero _⟩

/-- What stands at a location. -/
inductive Node where
  | file (bytes : Bytes) (mode : Mode)
  | dir
deriving DecidableEq

/-- The error kinds the operating system reports. -/
inductive IoError where
  | notFound
  | alreadyExists
  | isADirectory
  | notADirectory
  | other (message : String)
deriving DecidableEq

/-- The text of an error. -/
def IoError.display : IoError → String
  | .notFound => "No such file or directory (os error 2)"
  | .alreadyExists => "File exists (os error 17)"
  | .notADirectory => "Not a directory (os error 20)"
  | .isADirectory => "Is a directory (os error 21)"
  | .other message => message

/-- The node a finite map puts at a location; the root is a directory. -/
def nodeAt (nodes : AList (fun _ : Loc => Node)) (l : Loc) : Option Node :=
  if l = [] then some .dir else nodes.lookup l

/-- A finite tree of nodes under the root directory. -/
structure FileTree where
  nodes : AList (fun _ : Loc => Node)
  rooted : ∀ n l x, nodeAt nodes (n :: l) = some x → nodeAt nodes l = some .dir

namespace FileTree

/-- The node at a location. -/
def get (t : FileTree) (l : Loc) : Option Node := nodeAt t.nodes l

/-- The tree that holds the root directory only. -/
def empty : FileTree := ⟨∅, fun _ _ _ h => by simp [nodeAt] at h⟩

@[simp] theorem get_root (t : FileTree) : t.get [] = some .dir := rfl

/-- Every node but the root is an entry of the list. -/
theorem mem_entries_of_get {t : FileTree} {l : Loc} {x : Node} (hl : l ≠ [])
    (h : t.get l = some x) : ⟨l, x⟩ ∈ t.nodes.entries := by
  unfold get nodeAt at h
  rw [if_neg hl] at h
  exact List.of_mem_dlookup h

/-- Whatever stands at a location stands in a directory. -/
theorem get_parent {t : FileTree} {n : FileName} {l : Loc} {x : Node}
    (h : t.get (n :: l) = some x) : t.get l = some .dir := t.rooted n l x h

/-! ## The two edits -/

theorem nodeAt_insert_self {nodes : AList (fun _ : Loc => Node)} {l : Loc} (x : Node)
    (h : l ≠ []) : nodeAt (nodes.insert l x) l = some x := by
  rw [nodeAt, if_neg h, AList.lookup_insert]

theorem nodeAt_insert_ne {nodes : AList (fun _ : Loc => Node)} {l l' : Loc} (x : Node)
    (h : l' ≠ l) : nodeAt (nodes.insert l x) l' = nodeAt nodes l' := by
  unfold nodeAt
  split
  · rfl
  · exact AList.lookup_insert_ne h

theorem nodeAt_erase_ne {nodes : AList (fun _ : Loc => Node)} {l l' : Loc} (h : l' ≠ l) :
    nodeAt (nodes.erase l) l' = nodeAt nodes l' := by
  unfold nodeAt
  split
  · rfl
  · exact AList.lookup_erase_ne h

/-- A location where a node can be put: its parent is a directory, and it is not one itself. -/
def Settable (t : FileTree) (l : Loc) : Prop :=
  l ≠ [] ∧ t.get l.tail = some .dir ∧ t.get l ≠ some .dir

instance (t : FileTree) (l : Loc) : Decidable (t.Settable l) :=
  inferInstanceAs (Decidable (_ ∧ _ ∧ _))

/-- Put a node at a settable location; at any other location nothing changes. -/
def set (t : FileTree) (l : Loc) (x : Node) : FileTree :=
  if h : t.Settable l then
    { nodes := t.nodes.insert l x
      rooted := by
        intro n p y hy
        obtain ⟨_, hpar, hdir⟩ := h
        have hp : nodeAt t.nodes p = some .dir := by
          by_cases heq : n :: p = l
          · subst heq; exact hpar
          · rw [nodeAt_insert_ne x heq] at hy
            exact t.rooted n p y hy
        have hne : p ≠ l := by
          rintro rfl
          exact hdir hp
        rwa [nodeAt_insert_ne x hne] }
  else t

/-- Take a file away; a directory stays where it is. -/
def remove (t : FileTree) (l : Loc) : FileTree :=
  if h : t.get l ≠ some .dir then
    { nodes := t.nodes.erase l
      rooted := by
        intro n p y hy
        have hne : n :: p ≠ l := by
          rintro rfl
          simp [nodeAt, AList.lookup_erase] at hy
        rw [nodeAt_erase_ne hne] at hy
        have hp := t.rooted n p y hy
        have hne' : p ≠ l := by
          rintro rfl
          exact h hp
        rwa [nodeAt_erase_ne hne'] }
  else t

/-- A node that was set is there. -/
theorem get_set_self {t : FileTree} {l : Loc} (x : Node) (h : t.Settable l) :
    (t.set l x).get l = some x := by
  rw [set, dif_pos h]
  exact nodeAt_insert_self x h.1

/-- Setting one node leaves the others. -/
theorem get_set_ne {t : FileTree} {l l' : Loc} (x : Node) (h : l' ≠ l) :
    (t.set l x).get l' = t.get l' := by
  unfold set
  split
  · exact nodeAt_insert_ne x h
  · rfl

/-- A file that was removed is gone. -/
theorem get_remove_self {t : FileTree} {l : Loc} (h : t.get l ≠ some .dir) :
    (t.remove l).get l = none := by
  rw [remove, dif_pos h]
  have hne : l ≠ [] := by rintro rfl; exact h rfl
  show nodeAt _ l = none
  rw [nodeAt, if_neg hne, AList.lookup_erase]

/-- Removing one node leaves the others. -/
theorem get_remove_ne {t : FileTree} {l l' : Loc} (h : l' ≠ l) :
    (t.remove l).get l' = t.get l' := by
  unfold remove
  split
  · exact nodeAt_erase_ne h
  · rfl

/-- A file's location is settable. -/
theorem settable_of_file {t : FileTree} {l : Loc} {b : Bytes} {m : Mode}
    (h : t.get l = some (.file b m)) : t.Settable l := by
  cases l with
  | nil => simp at h
  | cons n p => exact ⟨by simp, get_parent h, by simp [h]⟩

/-! ## Operations -/

/-- The contents of the file at `l`. -/
def read (t : FileTree) (l : Loc) : Except IoError Bytes :=
  match t.get l with
  | some (.file bytes _) => .ok bytes
  | some .dir => .error .isADirectory
  | none => .error .notFound

/-- The permission bits of the file at `l`. -/
def stat (t : FileTree) (l : Loc) : Except IoError Mode :=
  match t.get l with
  | some (.file _ mode) => .ok mode
  | some .dir => .error .isADirectory
  | none => .error .notFound

/-- Open the file at `l` for writing: an existing file is emptied and keeps its mode, a new one
gets the mode `fresh`. -/
def create (t : FileTree) (l : Loc) (fresh : Mode) : Except IoError FileTree :=
  if t.Settable l then
    match t.get l with
    | some (.file _ mode) => .ok (t.set l (.file [] mode))
    | _ => .ok (t.set l (.file [] fresh))
  else if t.get l = some .dir then .error .isADirectory
  else .error .notFound

/-- Write `bytes` at the end of the file at `l`. -/
def append (t : FileTree) (l : Loc) (bytes : Bytes) : Except IoError FileTree :=
  match t.get l with
  | some (.file old mode) => .ok (t.set l (.file (old ++ bytes) mode))
  | some .dir => .error .isADirectory
  | none => .error .notFound

/-- Set the permission bits of the file at `l`. -/
def chmod (t : FileTree) (l : Loc) (mode : Mode) : Except IoError FileTree :=
  match t.get l with
  | some (.file bytes _) => .ok (t.set l (.file bytes mode))
  | some .dir => .ok t
  | none => .error .notFound

/-- Move the file at `src` over `dst` in one step. -/
def rename (t : FileTree) (src dst : Loc) : Except IoError FileTree :=
  match t.get src with
  | some (.file bytes mode) =>
    if t.Settable dst then .ok ((t.remove src).set dst (.file bytes mode))
    else if t.get dst = some .dir then .error .isADirectory
    else .error .notFound
  | some .dir => .error .isADirectory
  | none => .error .notFound

/-- Delete the file at `l`. -/
def unlink (t : FileTree) (l : Loc) : Except IoError FileTree :=
  match t.get l with
  | some (.file _ _) => .ok (t.remove l)
  | some .dir => .error .isADirectory
  | none => .error .notFound

/-- Make sure that a directory stands at `l`, whose parent must be one. -/
def mkdir (t : FileTree) (l : Loc) : Except IoError FileTree :=
  match t.get l with
  | some .dir => .ok t
  | some (.file _ _) => .error .alreadyExists
  | none => if t.Settable l then .ok (t.set l .dir) else .error .notFound

/-- The entries of the directory `l`, each with whether it is itself a directory. -/
def list (t : FileTree) (l : Loc) : Except IoError (List (FileName × Bool)) :=
  match t.get l with
  | some .dir => .ok (t.nodes.entries.filterMap fun e =>
      match e.1 with
      | n :: p => if p = l then some (n, decide (e.2 = .dir)) else none
      | [] => none)
  | some (.file _ _) => .error .notADirectory
  | none => .error .notFound

/-! ### What each operation does -/

/-- Reading returns the bytes of a file. -/
theorem read_ok {t : FileTree} {l : Loc} {b : Bytes} :
    t.read l = .ok b ↔ ∃ m, t.get l = some (.file b m) := by
  unfold read
  split <;> simp_all

/-- Its mode is read likewise. -/
theorem stat_ok {t : FileTree} {l : Loc} {m : Mode} :
    t.stat l = .ok m ↔ ∃ b, t.get l = some (.file b m) := by
  unfold stat
  split <;> simp_all

/-- A file that was opened for writing is empty, with the old file's mode or the fresh one, and
nothing else changed. -/
theorem create_ok {t t' : FileTree} {l : Loc} {fresh : Mode} (h : t.create l fresh = .ok t') :
    t.Settable l ∧ (∃ m, t'.get l = some (.file [] m) ∧
      ((∃ b, t.get l = some (.file b m)) ∨ (t.get l = none ∧ m = fresh))) ∧
      ∀ l', l' ≠ l → t'.get l' = t.get l' := by
  unfold create at h
  split at h
  · next hs =>
    refine ⟨hs, ?_⟩
    split at h
    · next b m hf =>
      cases h
      exact ⟨⟨m, get_set_self _ hs, .inl ⟨b, hf⟩⟩, fun l' hl' => get_set_ne _ hl'⟩
    · next hnf =>
      cases h
      refine ⟨⟨fresh, get_set_self _ hs, .inr ⟨?_, rfl⟩⟩, fun l' hl' => get_set_ne _ hl'⟩
      cases hg : t.get l with
      | none => rfl
      | some x =>
        cases x with
        | file b m => exact absurd hg (hnf b m)
        | dir => exact absurd hg hs.2.2
  · split at h <;> cases h

/-- A file can be created where its directory is and it is none itself. -/
theorem create_of_settable {t : FileTree} {l : Loc} (fresh : Mode) (h : t.Settable l) :
    ∃ t', t.create l fresh = .ok t' := by
  unfold create
  rw [if_pos h]
  split <;> exact ⟨_, rfl⟩

/-- An append keeps what the file held and its mode, and touches one location. -/
theorem append_ok {t t' : FileTree} {l : Loc} {bytes : Bytes} (h : t.append l bytes = .ok t') :
    (∃ old m, t.get l = some (.file old m) ∧ t'.get l = some (.file (old ++ bytes) m)) ∧
      ∀ l', l' ≠ l → t'.get l' = t.get l' := by
  unfold append at h
  split at h
  · next old m hf =>
    cases h
    exact ⟨⟨old, m, hf, get_set_self _ (settable_of_file hf)⟩, fun l' hl' => get_set_ne _ hl'⟩
  · cases h
  · cases h

/-- Bytes can be appended to a file. -/
theorem append_of_file {t : FileTree} {l : Loc} {old : Bytes} {m : Mode} (bytes : Bytes)
    (h : t.get l = some (.file old m)) : ∃ t', t.append l bytes = .ok t' := by
  unfold append
  rw [h]
  exact ⟨_, rfl⟩

/-- A change of mode keeps the bytes and touches one location. -/
theorem chmod_ok {t t' : FileTree} {l : Loc} {m : Mode} (h : t.chmod l m = .ok t') :
    (∀ b m₀, t.get l = some (.file b m₀) → t'.get l = some (.file b m)) ∧
      (t.get l = some .dir → t' = t) ∧ t.get l ≠ none ∧
      ∀ l', l' ≠ l → t'.get l' = t.get l' := by
  unfold chmod at h
  split at h
  · next b₀ m₀ hf =>
    cases h
    refine ⟨fun b m₁ hb => ?_, by simp [hf], by simp [hf], fun l' hl' => get_set_ne _ hl'⟩
    rw [hf] at hb
    cases hb
    exact get_set_self _ (settable_of_file hf)
  · next hd =>
    cases h
    exact ⟨by simp [hd], by simp, by simp [hd], fun _ _ => rfl⟩
  · cases h

/-- A rename that succeeded moved the node: it stands at the new location, the old one is empty
(unless they are the same), and nothing else changed. -/
theorem rename_ok {t t' : FileTree} {src dst : Loc} (h : t.rename src dst = .ok t') :
    t.Settable dst ∧ (∃ b m, t.get src = some (.file b m) ∧ t'.get dst = some (.file b m)) ∧
      (src ≠ dst → t'.get src = none) ∧
      ∀ l', l' ≠ src → l' ≠ dst → t'.get l' = t.get l' := by
  unfold rename at h
  split at h
  · next b m hf =>
    split at h
    · next hs =>
      cases h
      have hnd : t.get src ≠ some .dir := by simp [hf]
      have hs' : (t.remove src).Settable dst := by
        obtain ⟨hne, hpar, hdir⟩ := hs
        refine ⟨hne, ?_, ?_⟩
        · rw [get_remove_ne (by rintro heq; rw [heq, hf] at hpar; cases hpar)]
          exact hpar
        · by_cases heq : dst = src
          · subst heq; rw [get_remove_self hnd]; simp
          · rw [get_remove_ne heq]; exact hdir
      refine ⟨hs, ⟨b, m, hf, get_set_self _ hs'⟩, fun hne => ?_, fun l' h1 h2 => ?_⟩
      · rw [get_set_ne _ hne, get_remove_self hnd]
      · rw [get_set_ne _ h2, get_remove_ne h1]
    · split at h <;> cases h
  · cases h
  · cases h

/-- A file can be renamed to a place that can be set. -/
theorem rename_of_settable {t : FileTree} {src dst : Loc} {b : Bytes} {m : Mode}
    (hf : t.get src = some (.file b m)) (hs : t.Settable dst) :
    ∃ t', t.rename src dst = .ok t' := by
  unfold rename
  rw [hf]
  exact ⟨_, if_pos hs⟩

/-- A file that was unlinked is gone, and nothing else is. -/
theorem unlink_ok {t t' : FileTree} {l : Loc} (h : t.unlink l = .ok t') :
    (∃ b m, t.get l = some (.file b m)) ∧ t'.get l = none ∧
      ∀ l', l' ≠ l → t'.get l' = t.get l' := by
  unfold unlink at h
  split at h
  · next b m hf =>
    cases h
    exact ⟨⟨b, m, hf⟩, get_remove_self (by simp [hf]), fun l' hl' => get_remove_ne hl'⟩
  · cases h
  · cases h

/-- Making a directory keeps every node and adds at most the one directory. -/
theorem mkdir_ok {t t' : FileTree} {l : Loc} (h : t.mkdir l = .ok t') :
    t'.get l = some .dir ∧ (t.get l = some .dir ∨ t.get l = none) ∧
      ∀ l', l' ≠ l → t'.get l' = t.get l' := by
  unfold mkdir at h
  split at h
  · next hd => cases h; exact ⟨hd, .inl hd, fun _ _ => rfl⟩
  · cases h
  · next hn =>
    split at h
    · next hs => cases h; exact ⟨get_set_self _ hs, .inr hn, fun l' hl' => get_set_ne _ hl'⟩
    · cases h

/-- Making a directory that is there changes nothing. -/
theorem mkdir_of_dir {t : FileTree} {l : Loc} (h : t.get l = some .dir) : t.mkdir l = .ok t := by
  rw [mkdir, h]

/-- A directory's listing holds exactly the names of what stands in it. -/
theorem mem_list {t : FileTree} {l : Loc} {es : List (FileName × Bool)}
    (h : t.list l = .ok es) (n : FileName) (b : Bool) :
    (n, b) ∈ es ↔ ∃ x, t.get (n :: l) = some x ∧ b = decide (x = .dir) := by
  unfold list at h
  split at h
  · cases h
    simp only [List.mem_filterMap]
    constructor
    · rintro ⟨⟨p, x⟩, hmem, hx⟩
      cases p with
      | nil => simp at hx
      | cons n' p =>
        simp only [Option.ite_none_right_eq_some, Option.some.injEq, Prod.mk.injEq] at hx
        obtain ⟨rfl, rfl, rfl⟩ := hx
        refine ⟨x, ?_, rfl⟩
        rw [get, nodeAt, if_neg (by simp)]
        exact List.mem_dlookup t.nodes.nodupKeys hmem
    · rintro ⟨x, hx, rfl⟩
      refine ⟨⟨n :: l, x⟩, ?_, by simp⟩
      rw [get, nodeAt, if_neg (by simp)] at hx
      exact List.of_mem_dlookup hx
  · cases h
  · cases h

/-! ## Changing files only -/

/-- The two trees have the same directories. -/
def SameDirs (t t' : FileTree) : Prop := ∀ l, t'.get l = some .dir ↔ t.get l = some .dir

/-- Every directory of the first tree is one of the second. -/
def KeepsDirs (t t' : FileTree) : Prop := ∀ l, t.get l = some .dir → t'.get l = some .dir

instance : Std.Refl KeepsDirs := ⟨fun _ _ h => h⟩
instance : IsTrans FileTree KeepsDirs := ⟨fun _ _ _ h h' l hl => h' l (h l hl)⟩

theorem SameDirs.keeps {t t' : FileTree} (h : SameDirs t t') : KeepsDirs t t' := fun l => (h l).2

theorem SameDirs.refl (t : FileTree) : SameDirs t t := fun _ => .rfl

theorem SameDirs.trans {t₁ t₂ t₃ : FileTree} (h : SameDirs t₁ t₂) (h' : SameDirs t₂ t₃) :
    SameDirs t₁ t₃ := fun l => (h' l).trans (h l)

/-- A change at one location that is no directory, before or after, keeps the directories. -/
theorem SameDirs.of_one {t t' : FileTree} {l : Loc} (h : t.get l ≠ some .dir)
    (h' : t'.get l ≠ some .dir) (hrest : ∀ l', l' ≠ l → t'.get l' = t.get l') : SameDirs t t' := by
  intro l'
  by_cases hl : l' = l
  · subst hl
    exact ⟨fun hd => absurd hd h', fun hd => absurd hd h⟩
  · rw [hrest l' hl]

/-- The operations on files leave the directories as they are. -/
theorem create_sameDirs {t t' : FileTree} {l : Loc} {fresh : Mode}
    (h : t.create l fresh = .ok t') : SameDirs t t' := by
  obtain ⟨hs, ⟨m, hm, -⟩, hrest⟩ := create_ok h
  exact .of_one hs.2.2 (by simp [hm]) hrest

theorem append_sameDirs {t t' : FileTree} {l : Loc} {bytes : Bytes}
    (h : t.append l bytes = .ok t') : SameDirs t t' := by
  obtain ⟨⟨old, m, ho, hn⟩, hrest⟩ := append_ok h
  exact .of_one (by simp [ho]) (by simp [hn]) hrest

theorem chmod_sameDirs {t t' : FileTree} {l : Loc} {m : Mode} (h : t.chmod l m = .ok t') :
    SameDirs t t' := by
  obtain ⟨hfile, hdir, hne, hrest⟩ := chmod_ok h
  cases hg : t.get l with
  | none => exact absurd hg hne
  | some x =>
    cases x with
    | dir => exact hdir hg ▸ .refl t
    | file b m₀ => exact .of_one (by simp [hg]) (by simp [hfile b m₀ hg]) hrest

theorem rename_sameDirs {t t' : FileTree} {src dst : Loc} (h : t.rename src dst = .ok t') :
    SameDirs t t' := by
  obtain ⟨hs, ⟨b, m, hsrc, hdst⟩, hgone, hrest⟩ := rename_ok h
  intro l
  by_cases hd : l = dst
  · subst hd
    rw [hdst]
    exact ⟨nofun, fun h => absurd h hs.2.2⟩
  · by_cases hl : l = src
    · subst hl
      rw [hgone hd, hsrc]
      simp
    · rw [hrest l hl hd]

theorem unlink_sameDirs {t t' : FileTree} {l : Loc} (h : t.unlink l = .ok t') : SameDirs t t' := by
  obtain ⟨⟨b, m, hf⟩, hn, hrest⟩ := unlink_ok h
  exact .of_one (by simp [hf]) (by simp [hn]) hrest

/-! ## Writing a file -/

/-- Open the file at `l`, emptying it, and write `bytes`. -/
def overwrite (t : FileTree) (l : Loc) (bytes : Bytes) (fresh : Mode) :
    Except IoError FileTree := do
  let t ← t.create l fresh
  t.append l bytes

/-- A written file holds the bytes, with the mode it had or the fresh one. -/
theorem overwrite_ok {t t' : FileTree} {l : Loc} {bytes : Bytes} {fresh : Mode}
    (h : t.overwrite l bytes fresh = .ok t') :
    (∃ m, t'.get l = some (.file bytes m) ∧
      ((∃ b, t.get l = some (.file b m)) ∨ (t.get l = none ∧ m = fresh))) ∧
      (∀ l', l' ≠ l → t'.get l' = t.get l') ∧ SameDirs t t' := by
  unfold overwrite at h
  cases h₁ : t.create l fresh with
  | error e => rw [h₁] at h; cases h
  | ok t₁ =>
  rw [h₁] at h
  change t₁.append l bytes = _ at h
  obtain ⟨-, ⟨m, hm, hold⟩, hrest₁⟩ := create_ok h₁
  obtain ⟨⟨old, m', hf, hnew⟩, hrest₂⟩ := append_ok h
  rw [hm] at hf
  cases hf
  refine ⟨⟨m, hnew, hold⟩, fun l' hl' => ?_, (create_sameDirs h₁).trans (append_sameDirs h)⟩
  rw [hrest₂ l' hl', hrest₁ l' hl']

/-! ## Replacing a file -/

/-- Write a file beside its destination, set its mode and move it over the destination. -/
def replace (t : FileTree) (src dst : Loc) (bytes : Bytes) (mode fresh : Mode) :
    Except IoError FileTree := do
  let t ← t.overwrite src bytes fresh
  let t ← t.chmod src mode
  t.rename src dst

/-- What a replacement leaves: the file at its destination, nothing at the place it was written,
and everything else as it was. -/
theorem replace_ok {t t' : FileTree} {src dst : Loc} {bytes : Bytes} {mode fresh : Mode}
    (h : t.replace src dst bytes mode fresh = .ok t') :
    t.Settable dst ∧ t'.get dst = some (.file bytes mode) ∧
      (src ≠ dst → t'.get src = none) ∧ (∀ l, l ≠ src → l ≠ dst → t'.get l = t.get l) ∧
      SameDirs t t' := by
  unfold replace at h
  cases h₁ : t.overwrite src bytes fresh with
  | error e => rw [h₁] at h; cases h
  | ok t₁ =>
  rw [h₁] at h
  change (t₁.chmod src mode >>= _) = _ at h
  cases h₂ : t₁.chmod src mode with
  | error e => rw [h₂] at h; cases h
  | ok t₂ =>
  rw [h₂] at h
  change t₂.rename src dst = _ at h
  obtain ⟨⟨m, hm, -⟩, hrest₁, hdirs₁⟩ := overwrite_ok h₁
  obtain ⟨hfile, -, -, hrest₂⟩ := chmod_ok h₂
  obtain ⟨hdst, ⟨b, m', hfrom, hto⟩, hgone, hrest₃⟩ := rename_ok h
  rw [hfile _ _ hm] at hfrom
  cases hfrom
  have hdirs := hdirs₁.trans (chmod_sameDirs h₂)
  refine ⟨?_, hto, hgone, fun l hs hd => ?_, hdirs.trans (rename_sameDirs h)⟩
  · exact ⟨hdst.1, (hdirs _).1 hdst.2.1, fun hd => hdst.2.2 ((hdirs _).2 hd)⟩
  · rw [hrest₃ l hs hd, hrest₂ l hs, hrest₁ l hs]

theorem Settable.sameDirs {t t' : FileTree} {l : Loc} (h : t.Settable l) (hd : SameDirs t t') :
    t'.Settable l :=
  ⟨h.1, (hd _).2 h.2.1, fun h' => h.2.2 ((hd _).1 h')⟩

/-- A file can be written where it can be created. -/
theorem overwrite_of_settable {t : FileTree} {l : Loc} (bytes : Bytes) (fresh : Mode)
    (h : t.Settable l) : ∃ t', t.overwrite l bytes fresh = .ok t' := by
  obtain ⟨t₁, h₁⟩ := create_of_settable fresh h
  obtain ⟨-, ⟨m, hm, -⟩, -⟩ := create_ok h₁
  obtain ⟨t₂, h₂⟩ := append_of_file bytes hm
  refine ⟨t₂, ?_⟩
  rw [overwrite, h₁]
  exact h₂

/-- Write a file beside its destination and move it over the destination. -/
def publish (t : FileTree) (src dst : Loc) (bytes : Bytes) (fresh : Mode) :
    Except IoError FileTree :=
  do
    let t ← t.overwrite src bytes fresh
    t.rename src dst

/-- A published file holds the bytes, and nothing but the place it was written at changed. -/
theorem publish_ok {t t' : FileTree} {src dst : Loc} {bytes : Bytes} {fresh : Mode}
    (h : t.publish src dst bytes fresh = .ok t') :
    (∃ m, t'.get dst = some (.file bytes m)) ∧ (∀ l, l ≠ src → l ≠ dst → t'.get l = t.get l) ∧
      SameDirs t t' := by
  unfold publish at h
  cases h₁ : t.overwrite src bytes fresh with
  | error e => rw [h₁] at h; cases h
  | ok t₁ =>
  rw [h₁] at h
  change t₁.rename src dst = _ at h
  obtain ⟨⟨m, hm, -⟩, hrest₁, hdirs₁⟩ := overwrite_ok h₁
  obtain ⟨-, ⟨b, m', hfrom, hto⟩, -, hrest₂⟩ := rename_ok h
  rw [hm] at hfrom
  cases hfrom
  refine ⟨⟨m, hto⟩, fun l hs hd => ?_, hdirs₁.trans (rename_sameDirs h)⟩
  rw [hrest₂ l hs hd, hrest₁ l hs]

/-- A file can be published when both of its locations can hold one, and only then. -/
theorem publish_iff {t : FileTree} {src dst : Loc} {bytes : Bytes} {fresh : Mode} :
    (∃ t', t.publish src dst bytes fresh = .ok t') ↔ t.Settable src ∧ t.Settable dst := by
  constructor
  · rintro ⟨t', h⟩
    unfold publish at h
    cases h₁ : t.overwrite src bytes fresh with
    | error e => rw [h₁] at h; cases h
    | ok t₁ =>
    rw [h₁] at h
    change t₁.rename src dst = _ at h
    obtain ⟨-, -, hdirs⟩ := overwrite_ok h₁
    have hdst := (rename_ok h).1
    refine ⟨?_, hdst.1, (hdirs _).1 hdst.2.1, fun hd => hdst.2.2 ((hdirs _).2 hd)⟩
    unfold overwrite at h₁
    cases h₀ : t.create src fresh with
    | error e => rw [h₀] at h₁; cases h₁
    | ok t₀ => exact (create_ok h₀).1
  · rintro ⟨hs, hd⟩
    obtain ⟨t₁, h₁⟩ := overwrite_of_settable bytes fresh hs
    obtain ⟨⟨m, hm, -⟩, -, hdirs⟩ := overwrite_ok h₁
    obtain ⟨t₂, h₂⟩ := rename_of_settable hm (hd.sameDirs hdirs)
    refine ⟨t₂, ?_⟩
    rw [publish, h₁]
    exact h₂

/-! ### Frames -/

/-- Only files at locations in `P` changed, and no directory. -/
def ChangesOnly (P : Loc → Prop) (t t' : FileTree) : Prop :=
  t.SameDirs t' ∧ ∀ l, ¬ P l → t'.get l = t.get l

instance (P : Loc → Prop) : Std.Refl (ChangesOnly P) := ⟨fun _ => ⟨.refl _, fun _ _ => rfl⟩⟩
instance (P : Loc → Prop) : IsTrans FileTree (ChangesOnly P) :=
  ⟨fun _ _ _ h h' => ⟨h.1.trans h'.1, fun l hl => (h'.2 l hl).trans (h.2 l hl)⟩⟩

section
variable {P : Loc → Prop} {t t' : FileTree} {l : Loc}

theorem create_changesOnly (hl : P l) {fresh : Mode} (h : t.create l fresh = .ok t') :
    ChangesOnly P t t' :=
  ⟨create_sameDirs h, fun l' hl' => (create_ok h).2.2 l' (by rintro rfl; exact hl' hl)⟩

theorem append_changesOnly (hl : P l) {bytes : Bytes} (h : t.append l bytes = .ok t') :
    ChangesOnly P t t' :=
  ⟨append_sameDirs h, fun l' hl' => (append_ok h).2 l' (by rintro rfl; exact hl' hl)⟩

theorem chmod_changesOnly (hl : P l) {m : Mode} (h : t.chmod l m = .ok t') : ChangesOnly P t t' :=
  ⟨chmod_sameDirs h, fun l' hl' => (chmod_ok h).2.2.2 l' (by rintro rfl; exact hl' hl)⟩

/-- A rename changes its two places. -/
theorem rename_changesOnly {src dst : Loc} (hs : P src) (hd : P dst)
    (h : t.rename src dst = .ok t') : ChangesOnly P t t' :=
  ⟨rename_sameDirs h, fun l' hl' =>
    (rename_ok h).2.2.2 l' (by rintro rfl; exact hl' hs) (by rintro rfl; exact hl' hd)⟩

theorem unlink_changesOnly (hl : P l) (h : t.unlink l = .ok t') : ChangesOnly P t t' :=
  ⟨unlink_sameDirs h, fun l' hl' => (unlink_ok h).2.2 l' (by rintro rfl; exact hl' hl)⟩

end

end FileTree
