import Mathlib.Data.List.Sort
import Mathlib.Data.String.Basic

/-!
# JSON trees

`Json` is the syntax tree of a JSON text: object members stand in the order of the text, repeated
keys included, strings are decoded and a number is an unsigned or negative 64-bit integer or a
floating-point number, kept as its shortest decimal text. `Json.value` is what an untyped reader
makes of a tree (objects become finite maps, the last of repeated keys wins), `Json.sortKeys` sorts
the members of every object. `Json.Unique` says that no object repeats a key, at any depth.
-/

/-- The characters of a number's text. -/
def isNumberChar (c : Char) : Bool :=
  c.isDigit || c == '-' || c == '+' || c == '.' || c == 'e' || c == 'E'

/-- The characters that make a number a floating-point one. -/
def isFloatMark (c : Char) : Bool := c == '.' || c == 'e' || c == 'E'

/-- The text of a floating-point number: number characters, with a point or an exponent. -/
structure FloatText where
  chars : List Char
  number : chars.all isNumberChar = true
  float : chars.any isFloatMark = true
deriving DecidableEq

/-- A JSON number. `negInt k` is `-(k + 1)`. -/
inductive Number where
  | posInt (n : UInt64)
  | negInt (k : Fin (2 ^ 63))
  | float (text : FloatText)
deriving DecidableEq

/-- The syntax tree of a JSON text. -/
inductive Json where
  | null
  | bool (b : Bool)
  | num (n : Number)
  | str (s : String)
  | arr (xs : List Json)
  | obj (ms : List (String × Json))

namespace Json

/-- Induction over a tree, with the members of arrays and objects at hand. -/
theorem recTree {P : Json → Prop} (null : P .null) (bool : ∀ b, P (.bool b))
    (num : ∀ n, P (.num n)) (str : ∀ s, P (.str s))
    (arr : ∀ xs, (∀ x ∈ xs, P x) → P (.arr xs))
    (obj : ∀ ms, (∀ m ∈ ms, P m.2) → P (.obj ms)) : ∀ j, P j := by
  intro j
  refine @Json.rec P (fun xs => ∀ x ∈ xs, P x) (fun ms => ∀ m ∈ ms, P m.2) (fun m => P m.2)
    null bool num str arr obj ?_ ?_ ?_ ?_ ?_ j
  · intro x hx; cases hx
  · intro x xs hx hxs y hy
    rcases List.mem_cons.1 hy with rfl | hy
    exacts [hx, hxs y hy]
  · intro m hm; cases hm
  · intro m ms hm hms n hn
    rcases List.mem_cons.1 hn with rfl | hn
    exacts [hm, hms n hn]
  · intro _ _ h; exact h

/-! ## Members of an object -/

/-- The members of an object, in some order. -/
abbrev Members := List (String × Json)

/-- The value of a key: of its first member, when it has several. -/
def find (k : String) : Members → Option Json
  | [] => none
  | (k', v) :: ms => if k = k' then some v else find k ms

/-- Insert into a map sorted by key, replacing the value of a key already there. -/
def insertMember (k : String) (v : Json) : Members → Members
  | [] => [(k, v)]
  | (k', v') :: ms =>
    if k < k' then (k, v) :: (k', v') :: ms
    else if k = k' then (k, v) :: ms
    else (k', v') :: insertMember k v ms

/-- The map that results from inserting the members one after the other. -/
def ofMembers (ms : Members) : Members := ms.foldl (fun acc m => insertMember m.1 m.2 acc) []

/-- The map without a key. -/
def removeMember (k : String) (ms : Members) : Members := ms.filter (fun m => m.1 ≠ k)

/-- The members sorted by key. -/
def sortMembers (ms : Members) : Members := ms.insertionSort (fun a b => a.1 ≤ b.1)

@[simp] theorem find_nil (k : String) : find k [] = none := rfl

theorem find_cons (k k' : String) (v : Json) (ms : Members) :
    find k ((k', v) :: ms) = if k = k' then some v else find k ms := rfl

/-- A key is not found exactly when no member has it. -/
theorem find_eq_none {k : String} {ms : Members} : find k ms = none ↔ k ∉ ms.map (·.1) := by
  induction ms with
  | nil => simp
  | cons m ms ih =>
    obtain ⟨k', v⟩ := m
    rw [find_cons]
    split <;> simp_all

/-- What is found under a key is a member. -/
theorem mem_of_find {k : String} {v : Json} {ms : Members} (h : find k ms = some v) :
    (k, v) ∈ ms := by
  induction ms with
  | nil => cases h
  | cons m ms ih =>
    obtain ⟨k', v'⟩ := m
    rw [find_cons] at h
    split at h
    · next hk => cases h; subst hk; exact .head _
    · exact .tail _ (ih h)

/-- With distinct keys, a key's value is that of its member. -/
theorem find_of_mem {k : String} {v : Json} {ms : Members} (hnd : (ms.map (·.1)).Nodup)
    (h : (k, v) ∈ ms) : find k ms = some v := by
  induction ms with
  | nil => cases h
  | cons m ms ih =>
    obtain ⟨k', v'⟩ := m
    rw [List.map_cons, List.nodup_cons] at hnd
    rw [find_cons]
    rcases List.mem_cons.1 h with heq | hm
    · cases heq; rw [if_pos rfl]
    · have hne : k ≠ k' := by
        intro heq
        exact hnd.1 (heq ▸ List.mem_map_of_mem (f := (·.1)) hm)
      rw [if_neg hne, ih hnd.2 hm]

/-- After an insertion the key has the inserted value, and the other keys what they had. -/
theorem find_insertMember (k k' : String) (v : Json) (ms : Members) :
    find k (insertMember k' v ms) = if k = k' then some v else find k ms := by
  induction ms with
  | nil => rfl
  | cons m ms ih =>
    obtain ⟨k₀, v₀⟩ := m
    unfold insertMember
    split
    · rfl
    · split
      · next heq => subst heq; simp only [find_cons]; split <;> rfl
      · next hne =>
        rw [find_cons, find_cons, ih]
        split
        · next h0 => subst h0; rw [if_neg (Ne.symm hne)]
        · rfl

/-- Removing a key leaves the others. -/
theorem find_removeMember_ne {k k' : String} (h : k ≠ k') (ms : Members) :
    find k (removeMember k' ms) = find k ms := by
  induction ms with
  | nil => rfl
  | cons m ms ih =>
    obtain ⟨k₀, v₀⟩ := m
    unfold removeMember at ih ⊢
    rw [List.filter_cons]
    split
    · rw [find_cons, find_cons, ih]
    · next hd =>
      have hk : k₀ = k' := by simpa using hd
      rw [find_cons, if_neg (fun h0 => h (h0.trans hk)), ih]

/-- The keys of a map, after an insertion. -/
theorem mem_keys_insertMember {k k' : String} {v : Json} {ms : Members} :
    k ∈ (insertMember k' v ms).map (·.1) ↔ k = k' ∨ k ∈ ms.map (·.1) := by
  have hmem : ∀ ns : Members, k ∈ ns.map (·.1) ↔ find k ns ≠ none := by
    intro ns
    rw [Ne, find_eq_none, not_not]
  rw [hmem, hmem, find_insertMember]
  split <;> simp_all

/-- Sorted by key, without repetition. -/
def SortedKeys (ms : Members) : Prop := (ms.map (·.1)).Pairwise (· < ·)

/-- Sorted keys are distinct. -/
theorem SortedKeys.nodup {ms : Members} (h : SortedKeys ms) : (ms.map (·.1)).Nodup :=
  h.imp (fun h => ne_of_lt h)

/-- Inserting keeps the keys sorted. -/
theorem sortedKeys_insertMember {ms : Members} (h : SortedKeys ms) (k : String) (v : Json) :
    SortedKeys (insertMember k v ms) := by
  induction ms with
  | nil => simp [insertMember, SortedKeys]
  | cons m ms ih =>
    obtain ⟨k₀, v₀⟩ := m
    unfold SortedKeys at h ih ⊢
    rw [List.map_cons, List.pairwise_cons] at h
    unfold insertMember
    split
    · next hlt =>
      rw [List.map_cons, List.map_cons, List.pairwise_cons, List.pairwise_cons]
      refine ⟨?_, h⟩
      intro a ha
      rcases List.mem_cons.1 ha with rfl | ha
      exacts [hlt, lt_trans hlt (h.1 a ha)]
    · next hnlt =>
      split
      · next heq =>
        subst heq
        rw [List.map_cons, List.pairwise_cons]
        exact h
      · next hne =>
        rw [List.map_cons, List.pairwise_cons]
        refine ⟨?_, ih h.2⟩
        intro a ha
        rcases mem_keys_insertMember.1 ha with rfl | ha
        · exact lt_of_le_of_ne (not_lt.1 hnlt) (Ne.symm hne)
        · exact h.1 a ha

theorem sortedKeys_foldl {ms acc : Members} (h : SortedKeys acc) :
    SortedKeys (ms.foldl (fun acc m => insertMember m.1 m.2 acc) acc) := by
  induction ms generalizing acc with
  | nil => exact h
  | cons m ms ih => exact ih (sortedKeys_insertMember h m.1 m.2)

/-- The keys of a map are sorted, however the members were listed. -/
theorem sortedKeys_ofMembers (ms : Members) : SortedKeys (ofMembers ms) :=
  sortedKeys_foldl (by simp [SortedKeys])

/-- Inserting members leaves the keys that none of them has. -/
theorem find_foldl_of_notMem {k : String} {ms acc : Members} (h : k ∉ ms.map (·.1)) :
    find k (ms.foldl (fun acc m => insertMember m.1 m.2 acc) acc) = find k acc := by
  induction ms generalizing acc with
  | nil => rfl
  | cons m ms ih =>
    rw [List.map_cons, List.mem_cons, not_or] at h
    rw [List.foldl_cons, ih h.2, find_insertMember, if_neg h.1]

/-- A key that occurs once keeps its value in the map. -/
theorem find_foldl_of_count {k : String} {ms acc : Members} (h : (ms.map (·.1)).count k = 1) :
    find k (ms.foldl (fun acc m => insertMember m.1 m.2 acc) acc) = find k ms := by
  induction ms generalizing acc with
  | nil => simp at h
  | cons m ms ih =>
    obtain ⟨k₀, v₀⟩ := m
    rw [List.map_cons, List.count_cons] at h
    rw [List.foldl_cons, find_cons]
    by_cases hk : k = k₀
    · subst hk
      have hz : (ms.map (·.1)).count k = 0 := by simpa using h
      rw [find_foldl_of_notMem (List.count_eq_zero.1 hz), find_insertMember, if_pos rfl, if_pos rfl]
    · rw [if_neg hk]
      refine ih ?_
      simpa [Ne.symm hk] using h

theorem perm_sortMembers (ms : Members) : (sortMembers ms).Perm ms := List.perm_insertionSort _ ms

/-! ## Values, sorting, unique keys -/

mutual

/-- What an untyped reader makes of a tree: every object becomes a finite map, in which the last
of repeated keys wins. -/
def value : Json → Json
  | .arr xs => .arr (valueList xs)
  | .obj ms => .obj (ofMembers (valueMembers ms))
  | .null => .null
  | .bool b => .bool b
  | .num n => .num n
  | .str s => .str s

/-- `value` over the elements of an array. -/
def valueList : List Json → List Json
  | [] => []
  | x :: xs => value x :: valueList xs

/-- `value` over the members of an object. -/
def valueMembers : List (String × Json) → List (String × Json)
  | [] => []
  | (k, v) :: ms => (k, value v) :: valueMembers ms
end

mutual

/-- Sort the members of every object by key. -/
def sortKeys : Json → Json
  | .arr xs => .arr (sortKeysList xs)
  | .obj ms => .obj (sortMembers (sortKeysMembers ms))
  | .null => .null
  | .bool b => .bool b
  | .num n => .num n
  | .str s => .str s

/-- `sortKeys` over the elements of an array. -/
def sortKeysList : List Json → List Json
  | [] => []
  | x :: xs => sortKeys x :: sortKeysList xs

/-- `sortKeys` over the members of an object. -/
def sortKeysMembers : List (String × Json) → List (String × Json)
  | [] => []
  | (k, v) :: ms => (k, sortKeys v) :: sortKeysMembers ms
end

mutual

/-- No object repeats a key, at any depth. -/
def Unique : Json → Prop
  | .arr xs => UniqueList xs
  | .obj ms => (ms.map (·.1)).Nodup ∧ UniqueMembers ms
  | _ => True

/-- `Unique` over the elements of an array. -/
def UniqueList : List Json → Prop
  | [] => True
  | x :: xs => Unique x ∧ UniqueList xs

/-- `Unique` over the members of an object. -/
def UniqueMembers : List (String × Json) → Prop
  | [] => True
  | (_, v) :: ms => Unique v ∧ UniqueMembers ms
end

/-- The reader takes the elements of a list one by one. -/
theorem valueList_eq_map (xs : List Json) : valueList xs = xs.map value := by
  induction xs with
  | nil => rfl
  | cons x xs ih => exact congrArg (value x :: ·) ih

/-- So it does with the values of an object. -/
theorem valueMembers_eq_map (ms : Members) :
    valueMembers ms = ms.map (fun m => (m.1, value m.2)) := by
  induction ms with
  | nil => rfl
  | cons m ms ih => exact congrArg ((m.1, value m.2) :: ·) ih

theorem sortKeysList_eq_map (xs : List Json) : sortKeysList xs = xs.map sortKeys := by
  induction xs with
  | nil => rfl
  | cons x xs ih => exact congrArg (sortKeys x :: ·) ih

theorem sortKeysMembers_eq_map (ms : Members) :
    sortKeysMembers ms = ms.map (fun m => (m.1, sortKeys m.2)) := by
  induction ms with
  | nil => rfl
  | cons m ms ih => exact congrArg ((m.1, sortKeys m.2) :: ·) ih

theorem UniqueList_iff (xs : List Json) : UniqueList xs ↔ ∀ x ∈ xs, Unique x := by
  induction xs with
  | nil => simp [UniqueList]
  | cons x xs ih => simp [UniqueList, ih]

theorem UniqueMembers_iff (ms : Members) : UniqueMembers ms ↔ ∀ m ∈ ms, Unique m.2 := by
  induction ms with
  | nil => simp [UniqueMembers]
  | cons m ms ih => obtain ⟨k, v⟩ := m; simp [UniqueMembers, ih]

@[simp] theorem value_arr (xs : List Json) : value (.arr xs) = .arr (xs.map value) :=
  congrArg arr (valueList_eq_map xs)

/-- What is read of an object has its keys in order, the last member of a key winning. -/
@[simp] theorem value_obj (ms : Members) :
    value (.obj ms) = .obj (ofMembers (ms.map fun m => (m.1, value m.2))) :=
  congrArg (fun ms => obj (ofMembers ms)) (valueMembers_eq_map ms)

@[simp] theorem value_null : value .null = .null := rfl
@[simp] theorem value_bool (b : Bool) : value (.bool b) = .bool b := rfl
@[simp] theorem value_num (n : Number) : value (.num n) = .num n := rfl
@[simp] theorem value_str (s : String) : value (.str s) = .str s := rfl

@[simp] theorem sortKeys_arr (xs : List Json) : sortKeys (.arr xs) = .arr (xs.map sortKeys) :=
  congrArg arr (sortKeysList_eq_map xs)

/-- Sorting an object sorts its members and then its keys. -/
@[simp] theorem sortKeys_obj (ms : Members) :
    sortKeys (.obj ms) = .obj (sortMembers (ms.map fun m => (m.1, sortKeys m.2))) :=
  congrArg (fun ms => obj (sortMembers ms)) (sortKeysMembers_eq_map ms)

@[simp] theorem sortKeys_null : sortKeys .null = .null := rfl
@[simp] theorem sortKeys_bool (b : Bool) : sortKeys (.bool b) = .bool b := rfl
@[simp] theorem sortKeys_num (n : Number) : sortKeys (.num n) = .num n := rfl
@[simp] theorem sortKeys_str (s : String) : sortKeys (.str s) = .str s := rfl

@[simp] theorem Unique_arr (xs : List Json) : Unique (.arr xs) ↔ ∀ x ∈ xs, Unique x := by
  rw [Unique, UniqueList_iff]

@[simp] theorem Unique_obj (ms : Members) :
    Unique (.obj ms) ↔ (ms.map (·.1)).Nodup ∧ ∀ m ∈ ms, Unique m.2 := by
  rw [Unique, UniqueMembers_iff]

@[simp] theorem Unique_str (s : String) : Unique (.str s) := trivial
@[simp] theorem Unique_num (n : Number) : Unique (.num n) := trivial
@[simp] theorem Unique_null : Unique .null := trivial

end Json
