import Synqro.Lib.JsonText

/-!
# Trees that differ in the order of object members

`Json.Reorders` relates two trees when one turns into the other by reordering the members of
objects, at any depth. For trees whose objects repeat no key, sorting the members of every object
gives one representative of each class: `Json.sortKeys_eq_iff`.
-/

namespace Json

/-- The members of objects are reordered, at any depth; arrays keep their order. -/
inductive Reorders : Json → Json → Prop
  | refl (j : Json) : Reorders j j
  | trans {i j k : Json} : Reorders i j → Reorders j k → Reorders i k
  | members {ms ns : Members} : ms.Perm ns → Reorders (.obj ms) (.obj ns)
  | elem {x y : Json} (xs ys : List Json) : Reorders x y →
      Reorders (.arr (xs ++ x :: ys)) (.arr (xs ++ y :: ys))
  | member {v w : Json} (k : String) (ms ns : Members) : Reorders v w →
      Reorders (.obj (ms ++ (k, v) :: ns)) (.obj (ms ++ (k, w) :: ns))

namespace Reorders

theorem symm {i j : Json} (h : Reorders i j) : Reorders j i := by
  induction h with
  | refl j => exact .refl j
  | trans _ _ ih₁ ih₂ => exact ih₂.trans ih₁
  | members hp => exact .members hp.symm
  | elem xs ys _ ih => exact .elem xs ys ih
  | member k ms ns _ ih => exact .member k ms ns ih

/-- Reordering repeats no key. -/
theorem unique {i j : Json} (h : Reorders i j) (hi : i.Unique) : j.Unique := by
  induction h with
  | refl => exact hi
  | trans _ _ ih₁ ih₂ => exact ih₂ (ih₁ hi)
  | members hp =>
    rw [Unique_obj] at hi ⊢
    exact ⟨(hp.map _).nodup_iff.1 hi.1, fun m hm => hi.2 m (hp.mem_iff.2 hm)⟩
  | elem xs ys _ ih =>
    rw [Unique_arr] at hi ⊢
    intro z hz
    rcases List.mem_append.1 hz with hz | hz
    · exact hi z (List.mem_append_left _ hz)
    · rcases List.mem_cons.1 hz with rfl | hz
      · exact ih (hi _ (List.mem_append_right _ (.head _)))
      · exact hi z (List.mem_append_right _ (.tail _ hz))
  | member k ms ns _ ih =>
    rw [Unique_obj] at hi ⊢
    refine ⟨?_, fun m hm => ?_⟩
    · simpa only [List.map_append, List.map_cons] using hi.1
    · rcases List.mem_append.1 hm with hm | hm
      · exact hi.2 m (List.mem_append_left _ hm)
      · rcases List.mem_cons.1 hm with rfl | hm
        · exact ih (hi.2 _ (List.mem_append_right _ (.head _)))
        · exact hi.2 m (List.mem_append_right _ (.tail _ hm))

/-- Every element of an array may be reordered. -/
theorem elems (f : Json → Json) {ys : List Json} (h : ∀ y ∈ ys, Reorders y (f y)) (xs : List Json) :
    Reorders (.arr (xs ++ ys)) (.arr (xs ++ ys.map f)) := by
  induction ys generalizing xs with
  | nil => exact .refl _
  | cons y ys ih =>
    refine (elem xs ys (h y (.head _))).trans ?_
    have hrest := ih (fun z hz => h z (.tail _ hz)) (xs ++ [f y])
    simpa only [List.append_assoc, List.singleton_append, List.map_cons] using hrest

/-- Every member of an object may be reordered. -/
theorem values (f : Json → Json) {ns : Members} (h : ∀ m ∈ ns, Reorders m.2 (f m.2))
    (ms : Members) :
    Reorders (.obj (ms ++ ns)) (.obj (ms ++ ns.map fun m => (m.1, f m.2))) := by
  induction ns generalizing ms with
  | nil => exact .refl _
  | cons m ns ih =>
    refine (member m.1 ms ns (h m (.head _))).trans ?_
    have hrest := ih (fun n hn => h n (.tail _ hn)) (ms ++ [(m.1, f m.2)])
    simpa only [List.append_assoc, List.singleton_append, List.map_cons] using hrest

/-- Sorting the keys reorders. -/
theorem sortKeys (j : Json) : Reorders j j.sortKeys := by
  induction j using recTree with
  | null | bool | num | str =>
    simp only [sortKeys_null, sortKeys_bool, sortKeys_num, sortKeys_str, refl]
  | arr xs ih =>
    rw [sortKeys_arr]
    exact elems Json.sortKeys ih []
  | obj ms ih =>
    rw [sortKeys_obj]
    exact (values Json.sortKeys ih []).trans (.members (perm_sortMembers _).symm)

end Reorders

theorem pairwise_sortMembers (ms : Members) :
    (sortMembers ms).Pairwise fun a b => a.1 ≤ b.1 := by
  have : Std.Total fun a b : String × Json => a.1 ≤ b.1 := ⟨fun a b => le_total a.1 b.1⟩
  have : IsTrans (String × Json) fun a b => a.1 ≤ b.1 := ⟨fun _ _ _ h h' => le_trans h h'⟩
  exact List.pairwise_insertionSort _ ms

/-- Sorted members without repeated keys are the same when they are a permutation. -/
theorem sortMembers_perm {ms ns : Members} (hp : ms.Perm ns) (hnd : (ms.map (·.1)).Nodup) :
    sortMembers ms = sortMembers ns := by
  have hperm : (sortMembers ms).Perm (sortMembers ns) :=
    (perm_sortMembers ms).trans (hp.trans (perm_sortMembers ns).symm)
  refine hperm.eq_of_pairwise ?_ (pairwise_sortMembers ms) (pairwise_sortMembers ns)
  intro a b ha hb hab hba
  have hkey : a.1 = b.1 := le_antisymm hab hba
  have ha' : a ∈ ms := (perm_sortMembers ms).mem_iff.1 ha
  have hb' : b ∈ ms := hp.mem_iff.2 ((perm_sortMembers ns).mem_iff.1 hb)
  have hfa := find_of_mem hnd ha'
  have hfb := find_of_mem hnd hb'
  rw [← hkey, hfa] at hfb
  exact Prod.ext hkey (Option.some.inj hfb)

/-- Reordering does not change the tree with its keys sorted. -/
theorem Reorders.sortKeys_eq {i j : Json} (h : Reorders i j) (hi : i.Unique) :
    i.sortKeys = j.sortKeys := by
  induction h with
  | refl => rfl
  | trans h₁ _ ih₁ ih₂ => exact (ih₁ hi).trans (ih₂ (h₁.unique hi))
  | members hp =>
    rw [sortKeys_obj, sortKeys_obj]
    refine congrArg Json.obj (sortMembers_perm (hp.map _) ?_)
    rw [List.map_map]
    exact (Unique_obj _).1 hi |>.1
  | elem xs ys _ ih =>
    have hx := ih ((Unique_arr _).1 hi _ (List.mem_append_right _ (.head _)))
    simp only [sortKeys_arr, List.map_append, List.map_cons, hx]
  | member k ms ns _ ih =>
    have hv := ih (((Unique_obj _).1 hi).2 _ (List.mem_append_right _ (.head _)))
    simp only [sortKeys_obj, List.map_append, List.map_cons, hv]

/-- Two trees have the same sorted form exactly when they differ in the order of members only. -/
theorem sortKeys_eq_iff {i j : Json} (hi : i.Unique) : i.sortKeys = j.sortKeys ↔ Reorders i j := by
  constructor
  · intro h
    exact (Reorders.sortKeys i).trans (h ▸ (Reorders.sortKeys j).symm)
  · exact fun h => h.sortKeys_eq hi

end Json
