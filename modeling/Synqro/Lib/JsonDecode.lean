import Synqro.Lib.Json
import Mathlib.Data.List.Forall2

/-!
# Typed readers of JSON trees

What a derived reader makes of a syntax tree. A struct is read from an object, in which a known
field must not be repeated, unknown members are skipped and a field may be missing when it is
optional, or from an array with exactly one element for each field (`Json.structFields`). A reader
is `Stable` when it reads the same from a tree and from its untyped value, where repeated keys have
been dropped and members sorted: the readers of this module are, and a struct of stable readers is.
-/

namespace Json

/-! ## Values are sorted maps -/

theorem mem_insertMember {m : String × Json} {k : String} {v : Json} {ms : Members}
    (h : m ∈ insertMember k v ms) : m = (k, v) ∨ m ∈ ms := by
  induction ms with
  | nil => exact .inl (List.mem_singleton.1 h)
  | cons m' ms ih =>
    unfold insertMember at h
    split at h
    · exact (List.mem_cons.1 h).imp_right id
    · split at h
      · exact (List.mem_cons.1 h).imp_right (.tail _)
      · rcases List.mem_cons.1 h with h | h
        · exact .inr (h ▸ .head _)
        · exact (ih h).imp_right (.tail _)

theorem mem_foldl_insertMember {m : String × Json} {ms acc : Members}
    (h : m ∈ ms.foldl (fun acc m => insertMember m.1 m.2 acc) acc) : m ∈ acc ∨ m ∈ ms := by
  induction ms generalizing acc with
  | nil => exact .inl h
  | cons m' ms ih =>
    rcases ih h with h | h
    · rcases mem_insertMember h with h | h
      · exact .inr (h ▸ .head _)
      · exact .inl h
    · exact .inr (.tail _ h)

theorem mem_of_mem_ofMembers {m : String × Json} {ms : Members} (h : m ∈ ofMembers ms) :
    m ∈ ms := (mem_foldl_insertMember h).resolve_left List.not_mem_nil

theorem sortMembers_eq_self {ms : Members} (h : SortedKeys ms) : sortMembers ms = ms := by
  refine List.Pairwise.insertionSort_eq ?_
  exact (List.pairwise_map.1 h).imp fun h => le_of_lt h

theorem SortedKeys.map {ms : Members} (h : SortedKeys ms) (f : Json → Json) :
    SortedKeys (ms.map fun m => (m.1, f m.2)) := by
  unfold SortedKeys at *
  rwa [List.map_map]

theorem SortedKeys.removeMember {ms : Members} (h : SortedKeys ms) (k : String) :
    SortedKeys (removeMember k ms) :=
  List.Pairwise.sublist (List.filter_sublist.map _) h

theorem insertMember_last {k : String} {v : Json} {ms : Members} (h : ∀ m ∈ ms, m.1 < k) :
    insertMember k v ms = ms ++ [(k, v)] := by
  induction ms with
  | nil => rfl
  | cons m ms ih =>
    have hm := h m (.head _)
    rw [insertMember, if_neg (lt_asymm hm), if_neg (ne_of_gt hm), ih fun n hn => h n (.tail _ hn)]
    rfl

/-- Sorted members are a map already. -/
theorem ofMembers_eq_self {ms : Members} (h : SortedKeys ms) : ofMembers ms = ms := by
  have hfold : ∀ (ns acc : Members), SortedKeys (acc ++ ns) →
      ns.foldl (fun acc m => insertMember m.1 m.2 acc) acc = acc ++ ns := by
    intro ns
    induction ns with
    | nil => intro acc _; exact (List.append_nil acc).symm
    | cons n ns ih =>
      intro acc hs
      have hlast : ∀ m ∈ acc, m.1 < n.1 := by
        intro m hm
        rw [SortedKeys, List.map_append, List.pairwise_append] at hs
        exact hs.2.2 _ (List.mem_map_of_mem hm) _ (List.mem_map_of_mem (.head _))
      rw [List.foldl_cons, insertMember_last hlast]
      have := ih (acc ++ [n]) (by simpa using hs)
      simpa using this
  exact hfold ms [] h

/-- An untyped value is its own value. -/
@[simp] theorem value_value (j : Json) : value (value j) = value j := by
  induction j using recTree with
  | null | bool | num | str => simp
  | arr xs ih =>
    rw [value_arr, value_arr, List.map_map]
    exact congrArg _ (List.map_congr_left ih)
  | obj ms ih =>
    rw [value_obj, value_obj]
    have hmap : (ofMembers (ms.map fun m => (m.1, value m.2))).map (fun m => (m.1, value m.2)) =
        ofMembers (ms.map fun m => (m.1, value m.2)) := by
      refine (List.map_congr_left fun m hm => ?_).trans (List.map_id _)
      obtain ⟨m', hm', rfl⟩ := List.mem_map.1 (mem_of_mem_ofMembers hm)
      exact Prod.ext rfl (ih m' hm')
    rw [hmap, ofMembers_eq_self (sortedKeys_ofMembers _)]

/-- An object whose members are sorted and whose values sorting leaves alone. -/
theorem sortKeys_obj_eq_self {ms : Members} (hs : SortedKeys ms)
    (hv : ∀ m ∈ ms, sortKeys m.2 = m.2) : sortKeys (.obj ms) = .obj ms := by
  have hmap : ms.map (fun m => (m.1, sortKeys m.2)) = ms := by
    refine (List.map_congr_left fun m hm => ?_).trans (List.map_id ms)
    rw [hv m hm]; rfl
  rw [sortKeys_obj, hmap, sortMembers_eq_self hs]

/-- An untyped value is sorted already. -/
@[simp] theorem sortKeys_value (j : Json) : sortKeys (value j) = value j := by
  induction j using recTree with
  | null | bool | num | str => simp
  | arr xs ih =>
    rw [value_arr, sortKeys_arr, List.map_map]
    exact congrArg _ (List.map_congr_left ih)
  | obj ms ih =>
    rw [value_obj]
    refine sortKeys_obj_eq_self (sortedKeys_ofMembers _) fun m hm => ?_
    obtain ⟨m', hm', rfl⟩ := List.mem_map.1 (mem_of_mem_ofMembers hm)
    exact ih m' hm'

/-- Sorting what is left of a value without one of its members changes nothing. -/
theorem sortKeys_removeMember_value {j : Json} {ms : Members} (h : value j = .obj ms)
    (k : String) : sortKeys (.obj (removeMember k ms)) = .obj (removeMember k ms) := by
  have hj := sortKeys_value j
  cases j with
  | obj ms' =>
    rw [value_obj] at h
    cases h
    refine sortKeys_obj_eq_self ((sortedKeys_ofMembers _).removeMember k) fun m hm => ?_
    obtain ⟨m', -, rfl⟩ := List.mem_map.1 (mem_of_mem_ofMembers (List.mem_of_mem_filter hm))
    exact sortKeys_value m'.2
  | null | bool | num | str => simp at h
  | arr => simp at h

/-! ## Structs -/

/-- A field of a struct: its name and whether it may be missing. -/
structure Field where
  name : String
  optional : Bool

/-- The value of a field among the members of an object; a missing optional field is null. -/
def Field.of (f : Field) (ms : Members) : Option Json :=
  match find f.name ms with
  | some v => some v
  | none => if f.optional then some .null else none

/-- No field is repeated among the members of an object. -/
def Once (fields : List Field) (ms : Members) : Prop :=
  ∀ f ∈ fields, (ms.map (·.1)).count f.name ≤ 1

instance (fields : List Field) (ms : Members) : Decidable (Once fields ms) :=
  inferInstanceAs (Decidable (∀ _ ∈ _, _))

/-- The values of a struct's fields, in the order of the fields. -/
def structFields (fields : List Field) : Json → Option (List Json)
  | .obj ms => if Once fields ms then fields.mapM (·.of ms) else none
  | .arr xs => if xs.length = fields.length then some xs else none
  | _ => none

/-- A reader gives the same on a tree and on its untyped value. -/
def Stable {α : Type} (r : Json → Option α) : Prop := ∀ j a, r j = some a → r (value j) = some a

theorem mapM_option_map {α β : Type} {f g : α → Option β} {h : β → β} {xs : List α} {ys : List β}
    (hfg : ∀ x ∈ xs, ∀ y, f x = some y → g x = some (h y)) (hx : xs.mapM f = some ys) :
    xs.mapM g = some (ys.map h) := by
  induction xs generalizing ys with
  | nil => cases hx; rfl
  | cons x xs ih =>
    rw [List.mapM_cons] at hx ⊢
    cases hy : f x with
    | none => rw [hy] at hx; cases hx
    | some y =>
      cases hys : xs.mapM f with
      | none => rw [hy, hys] at hx; cases hx
      | some zs =>
        rw [hy, hys] at hx
        cases hx
        rw [hfg x (.head _) y hy, ih (fun x hx => hfg x (.tail _ hx)) hys]
        rfl

/-- A field that occurs at most once has its value in the object's untyped value. -/
theorem Field.of_value {f : Field} {ms : Members} (hc : (ms.map (·.1)).count f.name ≤ 1) {v : Json}
    (h : f.of ms = some v) :
    f.of (ofMembers (ms.map fun m => (m.1, value m.2))) = some (value v) := by
  have hkeys : (ms.map fun m => (m.1, value m.2)).map (·.1) = ms.map (·.1) := by
    rw [List.map_map]; rfl
  have hfind : find f.name (ms.map fun m => (m.1, value m.2)) = (find f.name ms).map value := by
    clear h hc hkeys
    induction ms with
    | nil => rfl
    | cons m ms ih =>
      rw [List.map_cons, find_cons, find_cons, ih]
      split <;> rfl
  unfold Field.of at h ⊢
  cases hf : find f.name ms with
  | some w =>
    have hmem : f.name ∈ ms.map (·.1) := by
      rw [← not_not (a := _ ∈ _), ← find_eq_none, hf]
      simp
    have h1 := List.count_pos_iff.2 hmem
    rw [ofMembers, find_foldl_of_count (by rw [hkeys]; omega), hfind, hf]
    rw [hf] at h
    cases h
    rfl
  | none =>
    rw [ofMembers, find_foldl_of_notMem (by rw [hkeys]; exact find_eq_none.1 hf)]
    rw [hf] at h
    cases ho : f.optional with
    | true =>
      simp only [ho, if_true, find_nil, Option.some.injEq] at h ⊢
      rw [← h, value_null]
    | false => simp [ho] at h

/-- The fields of a struct read from a value are the values of the fields read from the tree. -/
theorem structFields_value {fields : List Field} {j : Json} {vs : List Json}
    (h : structFields fields j = some vs) :
    structFields fields (value j) = some (vs.map value) := by
  cases j with
  | obj ms =>
    rw [value_obj]
    simp only [structFields] at h ⊢
    split at h
    · next hc =>
      have hv : Once fields (ofMembers (ms.map fun m => (m.1, value m.2))) := fun f _ =>
        List.nodup_iff_count_le_one.1 (sortedKeys_ofMembers _).nodup f.name
      rw [if_pos hv]
      exact mapM_option_map (fun f hf v hv => Field.of_value (hc f hf) hv) h
    · cases h
  | arr xs =>
    rw [value_arr]
    simp only [structFields] at h ⊢
    split at h
    · next hl => cases h; rw [if_pos (by simpa using hl)]
    · cases h
  | null | bool | num | str => cases h

/-- Removing a member that is no field of a struct does not change what is read. -/
theorem structFields_removeMember {fields : List Field} {k : String}
    (hk : ∀ f ∈ fields, f.name ≠ k) {ms : Members} {vs : List Json}
    (h : structFields fields (.obj ms) = some vs) :
    structFields fields (.obj (removeMember k ms)) = some vs := by
  simp only [structFields] at h ⊢
  split at h
  · next hc =>
    have hr : Once fields (removeMember k ms) := fun f hf =>
      ((List.filter_sublist.map _).count_le _).trans (hc f hf)
    rw [if_pos hr]
    have hof : ∀ f ∈ fields, ∀ v, f.of ms = some v → f.of (removeMember k ms) = some (id v) := by
      intro f hf v hv
      unfold Field.of at hv ⊢
      rwa [find_removeMember_ne (hk f hf)]
    simpa using mapM_option_map hof h
  · cases h

theorem mapM_append_some {α β : Type} {f : α → Option β} {xs ys : List α} {zs : List β}
    (h : (xs ++ ys).mapM f = some zs) :
    xs.mapM f = some (zs.take xs.length) ∧ ys.mapM f = some (zs.drop xs.length) := by
  induction xs generalizing zs with
  | nil => exact ⟨rfl, h⟩
  | cons x xs ih =>
    rw [List.cons_append, List.mapM_cons] at h
    simp only [Option.bind_eq_bind, Option.bind_eq_some_iff, Option.pure_def,
      Option.some.injEq] at h
    obtain ⟨y, hy, ys, hys, rfl⟩ := h
    obtain ⟨h1, h2⟩ := ih hys
    exact ⟨by simp [List.mapM_cons, hy, h1], h2⟩

/-- A struct's fields read from an object, one part after the other. -/
theorem structFields_append {fs gs : List Field} {ms : Members} {vs : List Json}
    (h : structFields (fs ++ gs) (.obj ms) = some vs) :
    structFields fs (.obj ms) = some (vs.take fs.length) ∧
      structFields gs (.obj ms) = some (vs.drop fs.length) := by
  simp only [structFields] at h ⊢
  split at h
  · next hc =>
    have hfs : Once fs ms := fun f hf => hc f (List.mem_append_left _ hf)
    have hgs : Once gs ms := fun f hf => hc f (List.mem_append_right _ hf)
    rw [if_pos hfs, if_pos hgs]
    exact mapM_append_some h
  · cases h

/-- A field on its own. -/
theorem structFields_field {f : Field} {ms : Members} {v : Json}
    (h : structFields [f] (.obj ms) = some [v]) : f.of ms = some v := by
  simp only [structFields] at h
  split at h
  · simp only [List.mapM_cons, List.mapM_nil, Option.bind_eq_bind, Option.bind_eq_some_iff,
      Option.pure_def, Option.some.injEq] at h
    obtain ⟨w, hw, _, rfl, h⟩ := h
    cases h
    exact hw
  · cases h

/-- A required field on its own. -/
theorem structFields_singleton {k : String} {ms : Members} {v : Json}
    (h : structFields [⟨k, false⟩] (.obj ms) = some [v]) : find k ms = some v := by
  have hof := structFields_field h
  unfold Field.of at hof
  split at hof
  · next hf => rw [hf]; exact hof
  · cases hof

/-- An optional field on its own: its value is null when it is absent. -/
theorem structFields_optional {k : String} {ms : Members} {v : Json}
    (h : structFields [⟨k, true⟩] (.obj ms) = some [v]) :
    find k ms = some v ∨ find k ms = none ∧ v = .null := by
  have hof := structFields_field h
  unfold Field.of at hof
  split at hof
  · next hf => rw [hf]; exact .inl hof
  · next hf => cases hof; exact .inr ⟨hf, rfl⟩

/-! ## Readers of values -/

def readString : Json → Option String
  | .str s => some s
  | _ => none

def readU64 : Json → Option UInt64
  | .num (.posInt n) => some n
  | _ => none

def readU32 : Json → Option UInt32
  | .num (.posInt n) => if n.toNat < 2 ^ 32 then some n.toUInt32 else none
  | _ => none

/-- A value or null. -/
def readOption {α : Type} (r : Json → Option α) : Json → Option (Option α)
  | .null => some none
  | j => (r j).map some

/-- An array of values. -/
def readVec {α : Type} (r : Json → Option α) : Json → Option (List α)
  | .arr xs => xs.mapM r
  | _ => none

theorem stable_readString : Stable readString := by
  intro j a h
  cases j <;> simp_all [readString]

theorem stable_readU64 : Stable readU64 := by
  intro j a h
  cases j <;> simp_all [readU64]

theorem stable_readU32 : Stable readU32 := by
  intro j a h
  cases j <;> simp_all [readU32]

theorem Stable.readOption {α : Type} {r : Json → Option α} (hr : Stable r) :
    Stable (Json.readOption r) := by
  intro j a h
  cases j with
  | null => simpa using h
  | _ =>
    simp only [Json.readOption, Option.map_eq_some_iff] at h
    obtain ⟨b, hb, rfl⟩ := h
    have := hr _ b hb
    simp_all [Json.readOption]

theorem Stable.readVec {α : Type} {r : Json → Option α} (hr : Stable r) :
    Stable (Json.readVec r) := by
  intro j a h
  cases j with
  | arr xs =>
    rw [value_arr]
    simp only [Json.readVec] at h ⊢
    induction xs generalizing a with
    | nil => exact h
    | cons x xs ih =>
      rw [List.mapM_cons] at h
      cases hx : r x with
      | none => rw [hx] at h; cases h
      | some b =>
        cases hxs : xs.mapM r with
        | none => rw [hx, hxs] at h; cases h
        | some bs =>
          rw [hx, hxs] at h
          rw [List.map_cons, List.mapM_cons, hr x b hx, ih bs hxs]
          exact h
  | _ => cases h

/-- Reading back an array of printed elements. -/
theorem readVec_map {α : Type} {r : Json → Option α} {f : α → Json}
    (h : ∀ a, r (f a) = some a) (as : List α) : readVec r (.arr (as.map f)) = some as := by
  show (as.map f).mapM r = some as
  induction as with
  | nil => rfl
  | cons a as ih => rw [List.map_cons, List.mapM_cons, h, ih]; rfl

end Json
