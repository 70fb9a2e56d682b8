import Synqro.Lib.JsonText
import Synqro.Lib.JsonDecode

/-!
# Plain trees

A tree is plain to a depth when it holds no floating-point number and nests no deeper: the trees
that a printer with exact integers and a reader with a limit on nesting agree on. `Json.Plain` is
kept by what programs do with trees: reading them as maps, inserting members, sorting keys.
-/

namespace Json

mutual

/-- No number of the tree is a floating-point one. -/
def NoFloats : Json → Prop
  | .num (.float _) => False
  | .arr xs => NoFloatsList xs
  | .obj ms => NoFloatsMembers ms
  | _ => True

/-- `NoFloats` over the elements of an array. -/
def NoFloatsList : List Json → Prop
  | [] => True
  | x :: xs => NoFloats x ∧ NoFloatsList xs

/-- `NoFloats` over the members of an object. -/
def NoFloatsMembers : List (String × Json) → Prop
  | [] => True
  | (_, v) :: ms => NoFloats v ∧ NoFloatsMembers ms
end

/-- The tree holds no floating-point number and nests at most `n` deep. -/
def Plain (n : Nat) (j : Json) : Prop := NoFloats j ∧ nesting j ≤ n

section
variable {n : Nat}

/-- A list is free of floats when each element is. -/
theorem noFloatsList_iff {xs : List Json} : NoFloatsList xs ↔ ∀ x ∈ xs, NoFloats x := by
  induction xs with
  | nil => simp [NoFloatsList]
  | cons x xs ih => rw [NoFloatsList, ih, List.forall_mem_cons]

theorem noFloatsMembers_iff {ms : Members} : NoFloatsMembers ms ↔ ∀ m ∈ ms, NoFloats m.2 := by
  induction ms with
  | nil => simp [NoFloatsMembers]
  | cons m ms ih => rw [NoFloatsMembers, ih, List.forall_mem_cons]

/-- A list nests as deep as its deepest element. -/
theorem nestingList_le {xs : List Json} : nestingList xs ≤ n ↔ ∀ x ∈ xs, nesting x ≤ n := by
  induction xs with
  | nil => simp [nestingList]
  | cons x xs ih => rw [nestingList, max_le_iff, ih, List.forall_mem_cons]

theorem nestingMembers_le {ms : Members} : nestingMembers ms ≤ n ↔ ∀ m ∈ ms, nesting m.2 ≤ n := by
  induction ms with
  | nil => simp [nestingMembers]
  | cons m ms ih => rw [nestingMembers, max_le_iff, ih, List.forall_mem_cons]

/-! ## By constructor -/

@[simp] theorem plain_null : Plain n .null := ⟨trivial, Nat.zero_le _⟩
@[simp] theorem plain_bool (b : Bool) : Plain n (.bool b) := ⟨trivial, Nat.zero_le _⟩
@[simp] theorem plain_str (s : String) : Plain n (.str s) := ⟨trivial, Nat.zero_le _⟩
@[simp] theorem plain_posInt (k : UInt64) : Plain n (.num (.posInt k)) := ⟨trivial, Nat.zero_le _⟩

/-- A list is plain one level higher than its elements. -/
@[simp] theorem plain_arr {xs : List Json} : Plain (n + 1) (.arr xs) ↔ ∀ x ∈ xs, Plain n x := by
  have hdepth : nesting (.arr xs) ≤ n + 1 ↔ ∀ x ∈ xs, nesting x ≤ n := by
    rw [nesting, ← nestingList_le]
    omega
  rw [Plain, NoFloats, noFloatsList_iff, hdepth, ← forall₂_and]
  rfl

/-- An object is plain one level higher than its values. -/
@[simp] theorem plain_obj {ms : Members} : Plain (n + 1) (.obj ms) ↔ ∀ m ∈ ms, Plain n m.2 := by
  have hdepth : nesting (.obj ms) ≤ n + 1 ↔ ∀ m ∈ ms, nesting m.2 ≤ n := by
    rw [nesting, ← nestingMembers_le]
    omega
  rw [Plain, NoFloats, noFloatsMembers_iff, hdepth, ← forall₂_and]
  rfl

/-- What is plain at a depth is plain at every greater one. -/
theorem Plain.mono {n' : Nat} {j : Json} (h : Plain n j) (hn : n ≤ n') : Plain n' j :=
  ⟨h.1, h.2.trans hn⟩

/-! ## Kept by programs -/

/-- A plain tree of nesting zero is no array and no object. -/
theorem not_plain_zero_arr {xs : List Json} : ¬ Plain 0 (.arr xs) := by
  rintro ⟨-, h⟩
  rw [nesting] at h
  omega

/-- An object nests at least one level deep. -/
theorem not_plain_zero_obj {ms : Members} : ¬ Plain 0 (.obj ms) := by
  rintro ⟨-, h⟩
  rw [nesting] at h
  omega

/-- What an untyped reader makes of a plain tree is plain. -/
theorem Plain.value {j : Json} (h : Plain n j) : Plain n (value j) := by
  induction j using recTree generalizing n with
  | null => simp
  | bool b => simp
  | num k => simpa using h
  | str s => simp
  | arr xs ih =>
    cases n with
    | zero => exact absurd h not_plain_zero_arr
    | succ n =>
      rw [value_arr, plain_arr]
      intro y hy
      obtain ⟨x, hx, rfl⟩ := List.mem_map.1 hy
      exact ih x hx (plain_arr.1 h x hx)
  | obj ms ih =>
    cases n with
    | zero => exact absurd h not_plain_zero_obj
    | succ n =>
      rw [value_obj, plain_obj]
      intro y hy
      obtain ⟨m, hm, rfl⟩ := List.mem_map.1 (mem_of_mem_ofMembers hy)
      exact ih m hm (plain_obj.1 h m hm)

/-- A plain value can be inserted into a plain object. -/
theorem Plain.insertMember {k : String} {v : Json} {ms : Members} (h : Plain (n + 1) (.obj ms))
    (hv : Plain n v) : Plain (n + 1) (.obj (insertMember k v ms)) := by
  rw [plain_obj] at h ⊢
  intro m hm
  rcases mem_insertMember hm with rfl | hm
  · exact hv
  · exact h m hm

end

/-! ## Maps -/

/-- The members are those of a map: sorted, and maps themselves wherever they are objects. -/
def IsMap (ms : Members) : Prop := value (.obj ms) = .obj ms

/-- A map's keys are in order and its values are as the reader leaves them. -/
theorem isMap_iff {ms : Members} : IsMap ms ↔ SortedKeys ms ∧ ∀ m ∈ ms, value m.2 = m.2 := by
  unfold IsMap
  rw [value_obj, obj.injEq]
  constructor
  · intro h
    have hs : SortedKeys ms := h ▸ sortedKeys_ofMembers _
    rw [ofMembers_eq_self (hs.map value)] at h
    refine ⟨hs, fun m hm => ?_⟩
    have hm' : (m.1, value m.2) = m := by
      have := List.map_inj_left.1 (h.trans (List.map_id ms).symm) m hm
      simpa using this
    exact congrArg Prod.snd hm'
  · rintro ⟨hs, hv⟩
    rw [ofMembers_eq_self (hs.map value)]
    refine (List.map_congr_left fun m hm => ?_).trans (List.map_id ms)
    exact Prod.ext rfl (hv m hm)

theorem IsMap.nil : IsMap [] := by
  rw [IsMap, value_obj]
  rfl

/-- Inserting keeps a map a map. -/
theorem IsMap.insertMember {k : String} {v : Json} {ms : Members} (h : IsMap ms)
    (hv : value v = v) : IsMap (insertMember k v ms) := by
  obtain ⟨hs, hm⟩ := isMap_iff.1 h
  refine isMap_iff.2 ⟨sortedKeys_insertMember hs k v, fun m hmem => ?_⟩
  rcases mem_insertMember hmem with rfl | hmem
  · exact hv
  · exact hm m hmem

/-- What an untyped reader makes of an object is a map. -/
theorem isMap_of_value {j : Json} {ms : Members} (h : value j = .obj ms) : IsMap ms := by
  rw [IsMap, ← h, value_value]

end Json
