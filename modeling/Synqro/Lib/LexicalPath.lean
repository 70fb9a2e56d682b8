import Synqro.Lib.UnixPath

/-!
# Where paths lead by their names alone

`UnixPath.lexical` resolves a path without looking at the files: a name goes down, `..` goes up.
Where a path leads to a location at all, it leads to that one (`locate_lexical`). Components without
`..` stay below the location they start from (`lexicalWalk_names`), and so do `Confined` ones, which
never go up further than they came down; making the directories they run through changes nothing
outside (`mkdirAll_confined`).
-/

namespace UnixPath

/-- The location that components spell from `l`. -/
def lexicalWalk : Loc → List Component → Loc
  | l, [] => l
  | l, .curDir :: cs => lexicalWalk l cs
  | l, .parentDir :: cs => lexicalWalk l.tail cs
  | l, .normal n :: cs => lexicalWalk (n :: l) cs

/-- The location that a path spells in the working directory `cwd`. -/
def lexical (cwd : Loc) (p : UnixPath) : Loc :=
  lexicalWalk (if p.absolute then [] else cwd) p.components

/-- The names among components. -/
def names (cs : List Component) : List FileName :=
  cs.filterMap fun
    | .normal n => some n
    | _ => none

/-- From `d` levels below a directory, the components never leave the directory. -/
def Confined : Nat → List Component → Prop
  | _, [] => True
  | d, .curDir :: cs => Confined d cs
  | 0, .parentDir :: _ => False
  | d + 1, .parentDir :: cs => Confined d cs
  | d, .normal _ :: cs => Confined (d + 1) cs

theorem lexicalWalk_append (l : Loc) (cs ds : List Component) :
    lexicalWalk l (cs ++ ds) = lexicalWalk (lexicalWalk l cs) ds := by
  induction cs generalizing l with
  | nil => rfl
  | cons c cs ih => cases c <;> exact ih _

theorem walk_lexical {t : FileTree} {l l' : Loc} {cs : List Component} (h : walk t l cs = some l') :
    lexicalWalk l cs = l' := by
  induction cs generalizing l with
  | nil => exact Option.some.inj h
  | cons c cs ih =>
    cases c with
    | curDir => exact ih h
    | parentDir =>
      rw [walk] at h
      split at h
      · exact ih h
      · cases h
    | normal n => exact ih h

/-- A path leads nowhere but to the location that it spells. -/
theorem locate_lexical {t : FileTree} {cwd l : Loc} {p : UnixPath} (h : p.locate t cwd = .ok l) :
    p.lexical cwd = l := by
  unfold locate at h
  split at h
  · cases h
  · split at h
    · next hw =>
      cases h
      exact walk_lexical hw
    · cases h

/-- Without `..` every name is a step down. -/
theorem lexicalWalk_names (l : Loc) {cs : List Component} (h : .parentDir ∉ cs) :
    lexicalWalk l cs = (names cs).reverse ++ l := by
  induction cs generalizing l with
  | nil => rfl
  | cons c cs ih =>
    rw [List.mem_cons, not_or] at h
    cases c with
    | curDir => exact ih l h.2
    | parentDir => exact absurd rfl h.1
    | normal n =>
      have hnames : names (.normal n :: cs) = n :: names cs := rfl
      rw [lexicalWalk, ih _ h.2, hnames, List.reverse_cons, List.append_assoc]
      rfl

/-- Confined components lead to a location below the directory. -/
theorem Confined.lexicalWalk {base : Loc} {ns : List FileName} {cs : List Component}
    (h : Confined ns.length cs) : base <:+ lexicalWalk (ns ++ base) cs := by
  induction cs generalizing ns with
  | nil => exact List.suffix_append ns base
  | cons c cs ih =>
    cases c with
    | curDir => exact ih h
    | parentDir =>
      cases ns with
      | nil => exact absurd h id
      | cons n ns => exact ih h
    | normal n => exact @ih (n :: ns) h

/-- What is outside a directory stays outside along names that are not the directory's. -/
theorem not_suffix_lexicalWalk {n : FileName} {l : Loc} {cs : List Component} (hl : ¬ [n] <:+ l)
    (hn : .normal n ∉ cs) : ¬ [n] <:+ lexicalWalk l cs := by
  induction cs generalizing l with
  | nil => exact hl
  | cons c cs ih =>
    rw [List.mem_cons, not_or] at hn
    cases c with
    | curDir => exact ih hl hn.2
    | parentDir => exact ih (fun h => hl (h.trans (List.tail_suffix l))) hn.2
    | normal m =>
      refine ih (fun h => ?_) hn.2
      rcases List.suffix_cons_iff.1 h with heq | h
      · exact hn.1 (congrArg _ (List.cons.inj heq).1)
      · exact hl h

/-- Components that are not confined lead out of a directory under the root whose name they do not
have. -/
theorem not_suffix_of_not_confined {n : FileName} {ns : List FileName} {cs : List Component}
    (h : ¬ Confined ns.length cs) (hn : .normal n ∉ cs) : ¬ [n] <:+ lexicalWalk (ns ++ [n]) cs := by
  induction cs generalizing ns with
  | nil => exact absurd trivial h
  | cons c cs ih =>
    have hcs : .normal n ∉ cs := fun hmem => hn (.tail _ hmem)
    cases c with
    | curDir => exact ih h hcs
    | parentDir =>
      cases ns with
      | nil =>
        have hroot : ¬ [n] <:+ [] := fun hroot => nomatch List.suffix_nil.1 hroot
        show ¬ [n] <:+ lexicalWalk [] cs
        exact not_suffix_lexicalWalk hroot hcs
      | cons m ns => exact ih h hcs
    | normal m => exact @ih (m :: ns) h hcs

theorem Confined.take {d : Nat} {cs : List Component} (h : Confined d cs) (n : Nat) :
    Confined d (cs.take n) := by
  induction cs generalizing d n with
  | nil => rwa [List.take_nil]
  | cons c cs ih =>
    cases n with
    | zero => exact trivial
    | succ n =>
      cases c with
      | curDir => exact ih h n
      | parentDir =>
        cases d with
        | zero => exact absurd h id
        | succ d => exact @ih d h n
      | normal m => exact @ih (d + 1) h n

end UnixPath

namespace FileTree

open UnixPath

/-- Nothing outside the directory `base` changed. -/
def KeepsOutside (base : Loc) (t t' : FileTree) : Prop := ∀ l, ¬ base <:+ l → t'.get l = t.get l

instance (base : Loc) : Std.Refl (KeepsOutside base) := ⟨fun _ _ _ => rfl⟩
instance (base : Loc) : IsTrans FileTree (KeepsOutside base) :=
  ⟨fun _ _ _ h h' l hl => (h' l hl).trans (h l hl)⟩

theorem mkdirAll_append (l : Loc) (cs ds : List Component) :
    mkdirAll l (cs ++ ds) = mkdirAll l cs >>= fun _ => mkdirAll (lexicalWalk l cs) ds := by
  induction cs generalizing l with
  | nil => rfl
  | cons c cs ih =>
    cases c with
    | curDir => exact ih l
    | parentDir =>
      rw [List.cons_append, mkdirAll, mkdirAll, ih, bind_assoc]
      rfl
    | normal n =>
      rw [List.cons_append, mkdirAll, mkdirAll, ih, bind_assoc]
      rfl

/-- Directories that were made are there. -/
theorem mkdirAll_again {l : Loc} {cs : List Component} {t t' t'' : FileTree}
    (h : mkdirAll l cs t = .ok () t') (hkeep : KeepsDirs t' t'') :
    mkdirAll l cs t'' = .ok () t'' := by
  induction cs generalizing l t with
  | nil => rfl
  | cons c cs ih =>
    cases c with
    | curDir => exact ih h
    | parentDir =>
      simp only [mkdirAll, Comp.bind_ok, Comp.query_ok] at h ⊢
      obtain ⟨_, _, ⟨hdir, rfl⟩, h⟩ := h
      refine ⟨(), t'', ⟨?_, rfl⟩, ih h⟩
      split at hdir
      · next hd => rw [if_pos (hkeep _ (((mkdirAll_addsDirs _ _).ok h).keeps _ hd))]
      · cases hdir
    | normal n =>
      simp only [mkdirAll, Comp.bind_ok, Comp.update_ok] at h ⊢
      obtain ⟨_, t₁, hmk, h⟩ := h
      have hd : t₁.get (n :: l) = some .dir := (mkdir_ok hmk).1
      exact ⟨(), t'', mkdir_of_dir (hkeep _ (((mkdirAll_addsDirs _ _).ok h).keeps _ hd)), ih h⟩

/-- The directories of confined components are below the directory. -/
theorem mkdirAll_confined {base : Loc} {ns : List FileName} {cs : List Component}
    (h : Confined ns.length cs) :
    Comp.Respects (KeepsOutside base) (mkdirAll (ns ++ base) cs) := by
  induction cs generalizing ns with
  | nil => exact .pure ()
  | cons c cs ih =>
    cases c with
    | curDir => exact ih h
    | parentDir =>
      cases ns with
      | nil => exact absurd h id
      | cons n ns => exact .bind (.query _) fun _ => ih h
    | normal n =>
      refine .bind (.update fun t t' hmk l hl => (mkdir_ok hmk).2.2 l ?_) fun _ => @ih (n :: ns) h
      rintro rfl
      exact hl (List.suffix_append (n :: ns) base)

/-- Once the directories `cs` are there, making confined ones below them, or the first of them all,
changes nothing outside. -/
theorem mkdirAll_below {l : Loc} {cs ds : List Component} {t t' : FileTree}
    (h : mkdirAll l cs t = .ok () t') (hds : Confined 0 ds) (n : Nat) :
    KeepsOutside (lexicalWalk l cs) t' (Comp.after (mkdirAll l ((cs ++ ds).take n)) t') := by
  have hfront : mkdirAll l (cs.take n) t' = .ok () t' := by
    rw [← List.take_append_drop n cs, mkdirAll_append, Comp.bind_ok] at h
    obtain ⟨_, t₁, hfirst, hrest⟩ := h
    exact mkdirAll_again hfirst ((mkdirAll_addsDirs _ _).ok hrest).keeps
  rw [List.take_append, mkdirAll_append, Comp.after_bind_ok hfront]
  by_cases hn : cs.length ≤ n
  · rw [List.take_of_length_le hn]
    exact @mkdirAll_confined _ [] _ (hds.take _) t'
  · rw [Nat.sub_eq_zero_of_le (by omega), List.take_zero]
    exact refl _

/-- Directories that were made can be walked. -/
theorem walk_of_mkdirAll {l : Loc} {cs : List Component} {t t' : FileTree}
    (h : mkdirAll l cs t = .ok () t') : walk t' l cs = some (lexicalWalk l cs) := by
  induction cs generalizing l t with
  | nil => rfl
  | cons c cs ih =>
    cases c with
    | curDir => exact ih h
    | parentDir =>
      simp only [mkdirAll, Comp.bind_ok, Comp.query_ok] at h
      obtain ⟨_, _, ⟨hdir, rfl⟩, h⟩ := h
      split at hdir
      · next hd =>
        rw [walk, if_pos (((mkdirAll_addsDirs _ _).ok h).keeps _ hd)]
        exact ih h
      · cases hdir
    | normal n =>
      simp only [mkdirAll, Comp.bind_ok] at h
      obtain ⟨_, t₁, -, h⟩ := h
      exact ih h

/-- There are no files. -/
def OnlyDirs (t : FileTree) : Prop := ∀ l x, t.get l = some x → x = .dir

theorem onlyDirs_empty : OnlyDirs .empty := by
  intro l x hx
  cases l with
  | nil => exact (Option.some.inj hx).symm
  | cons n l => cases hx

/-- Where there are no files, every directory can be made. -/
theorem mkdirAll_of_onlyDirs {l : Loc} {cs : List Component} {t : FileTree} (h : OnlyDirs t)
    (hl : t.get l = some .dir) : ∃ t', mkdirAll l cs t = .ok () t' ∧ OnlyDirs t' ∧
      t'.get (lexicalWalk l cs) = some .dir := by
  induction cs generalizing l t with
  | nil => exact ⟨t, rfl, h, hl⟩
  | cons c cs ih =>
    cases c with
    | curDir => exact ih h hl
    | parentDir =>
      have hparent : t.get l.tail = some .dir := by
        cases l with
        | nil => exact hl
        | cons n l => exact get_parent hl
      obtain ⟨t', hmk, hdirs, hd⟩ := ih h hparent
      refine ⟨t', ?_, hdirs, hd⟩
      rw [mkdirAll, Comp.bind_ok]
      exact ⟨(), t, Comp.query_ok.2 ⟨if_pos hl, rfl⟩, hmk⟩
    | normal n =>
      obtain ⟨t₁, hmk₁, hadds⟩ : ∃ t₁, t.mkdir (n :: l) = .ok t₁ ∧ OnlyDirs t₁ := by
        cases hn : t.get (n :: l) with
        | some x =>
          cases h _ _ hn
          exact ⟨t, mkdir_of_dir hn, h⟩
        | none =>
          have hs : t.Settable (n :: l) := ⟨nofun, hl, by simp [hn]⟩
          have hmk : t.mkdir (n :: l) = .ok (t.set (n :: l) .dir) := by rw [mkdir, hn, if_pos hs]
          refine ⟨_, hmk, fun l' x hx => ?_⟩
          rcases mkdir_addsDirs hmk l' with hsame | ⟨-, hd⟩
          · exact h l' x (hsame ▸ hx)
          · exact (Option.some.inj (hd.symm.trans hx)).symm
      obtain ⟨t', hmk, hdirs, hd⟩ := ih hadds (mkdir_ok hmk₁).1
      refine ⟨t', ?_, hdirs, hd⟩
      rw [mkdirAll, Comp.bind_ok]
      exact ⟨(), t₁, Comp.update_ok.2 hmk₁, hmk⟩

end FileTree
