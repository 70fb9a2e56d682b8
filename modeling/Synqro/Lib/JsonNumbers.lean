import Synqro.Lib.JsonPlain

/-!
# Floating-point numbers and nesting

A printer writes a floating-point number as its shortest text and a reader may take it for a
neighbour, so what is known of a tree that is printed and read again is which of these numbers it
holds and how deep it nests. `Json.HasFloat` and `Json.nesting` are followed through what programs
do with trees, and `Json.nesting_read` says that a reader's limit bounds what it returns.
-/

namespace Json

/-- The tree holds the floating-point number `f`. -/
inductive HasFloat (f : FloatText) : Json → Prop where
  | here : HasFloat f (.num (.float f))
  | elem {x : Json} {xs : List Json} : x ∈ xs → HasFloat f x → HasFloat f (.arr xs)
  | member {m : String × Json} {ms : Members} : m ∈ ms → HasFloat f m.2 → HasFloat f (.obj ms)

section
variable {f : FloatText} {n : Nat} {ms : Members} {k : String} {v : Json}

/-- An integer is no float. -/
theorem not_hasFloat_posInt (i : UInt64) : ¬ HasFloat f (.num (.posInt i)) := by
  intro h
  cases h

/-- An untyped reader adds no number. -/
theorem HasFloat.of_value {j : Json} (h : HasFloat f (value j)) : HasFloat f j := by
  induction j using recTree with
  | null | bool | num | str => exact h
  | arr xs ih =>
    rw [value_arr] at h
    cases h with
    | elem hy hf =>
      obtain ⟨x, hx, rfl⟩ := List.mem_map.1 hy
      exact .elem hx (ih x hx hf)
  | obj ms ih =>
    rw [value_obj] at h
    cases h with
    | member hm hf =>
      obtain ⟨m, hm', rfl⟩ := List.mem_map.1 (mem_of_mem_ofMembers hm)
      exact .member hm' (ih m hm' hf)

/-- A float in an object after an insertion was in it before or came with the value. -/
theorem HasFloat.of_insertMember (h : HasFloat f (.obj (insertMember k v ms))) :
    HasFloat f v ∨ HasFloat f (.obj ms) := by
  cases h with
  | member hm hf =>
    rcases mem_insertMember hm with rfl | hm
    · exact .inl hf
    · exact .inr (.member hm hf)

/-! ## Nesting -/

/-- A list nests one level deeper than its elements. -/
theorem nesting_arr {xs : List Json} : nesting (.arr xs) ≤ n + 1 ↔ ∀ x ∈ xs, nesting x ≤ n := by
  rw [nesting, ← nestingList_le]
  omega

theorem nesting_obj : nesting (.obj ms) ≤ n + 1 ↔ ∀ m ∈ ms, nesting m.2 ≤ n := by
  rw [nesting, ← nestingMembers_le]
  omega

/-- An untyped reader nests nothing deeper. -/
theorem nesting_value {j : Json} (h : nesting j ≤ n) : nesting (value j) ≤ n := by
  induction j using recTree generalizing n with
  | null | bool | num | str => exact h
  | arr xs ih =>
    cases n with
    | zero =>
      rw [nesting] at h
      omega
    | succ n =>
      rw [value_arr, nesting_arr]
      intro y hy
      obtain ⟨x, hx, rfl⟩ := List.mem_map.1 hy
      exact ih x hx (nesting_arr.1 h x hx)
  | obj ms ih =>
    cases n with
    | zero =>
      rw [nesting] at h
      omega
    | succ n =>
      rw [value_obj, nesting_obj]
      intro y hy
      obtain ⟨m, hm, rfl⟩ := List.mem_map.1 (mem_of_mem_ofMembers hy)
      exact ih m hm (nesting_obj.1 h m hm)

/-- An insertion nests no deeper than the object and the value did. -/
theorem nesting_insertMember (h : nesting (.obj ms) ≤ n + 1) (hv : nesting v ≤ n) :
    nesting (.obj (insertMember k v ms)) ≤ n + 1 := by
  rw [nesting_obj]
  intro m hm
  rcases mem_insertMember hm with rfl | hm
  · exact hv
  · exact nesting_obj.1 h m hm

end

/-! ## What a reader returns -/

/-- What is read nests at most as deep as it was allowed to. -/
def Bounded (fuel : Nat) : Prop :=
  (∀ depth cs j r, readValue fuel depth cs = some (j, r) → nesting j ≤ depth) ∧
  (∀ depth cs xs r, readElems fuel depth cs = some (xs, r) → nestingList xs ≤ depth) ∧
  ∀ depth cs ms r, readMembers fuel depth cs = some (ms, r) → nestingMembers ms ≤ depth

/-- A keyword does not nest. -/
theorem nesting_readKeyword {word cs r : List Char} {j i : Json} {n : Nat} (hj : nesting j ≤ n)
    (h : readKeyword word j cs = some (i, r)) : nesting i ≤ n := by
  unfold readKeyword at h
  split at h
  · cases h
    exact hj
  · cases h

/-- Neither does a number. -/
theorem nesting_readNumber {cs r : List Char} {j : Json} {n : Nat}
    (h : readNumber cs = some (j, r)) : nesting j ≤ n := by
  obtain ⟨k, -, hk⟩ := Option.map_eq_some_iff.1 h
  cases hk
  exact Nat.zero_le n

/-- One more unit of fuel, by the first character of the text. -/
theorem bounded_succ {fuel : Nat} (ih : Bounded fuel) : Bounded (fuel + 1) := by
  obtain ⟨hvalue, helems, hmembers⟩ := ih
  refine ⟨fun depth cs j r h => ?_, fun depth cs xs r h => ?_, fun depth cs ms r h => ?_⟩
  · rw [readValue] at h
    split at h
    · cases h
    · next c rest hskip =>
      split at h
      · exact nesting_readKeyword (Nat.zero_le _) h
      split at h
      · exact nesting_readKeyword (Nat.zero_le _) h
      split at h
      · exact nesting_readKeyword (Nat.zero_le _) h
      split at h
      · obtain ⟨s, -, hs⟩ := Option.map_eq_some_iff.1 h
        cases hs
        exact Nat.zero_le _
      split at h
      · cases depth with
        | zero => cases h
        | succ depth =>
          dsimp only at h
          split at h
          · cases h
            exact nesting_arr.2 (List.forall_mem_nil _)
          · obtain ⟨xs, hxs, hj⟩ := Option.map_eq_some_iff.1 h
            cases hj
            have hle := helems depth _ _ _ hxs
            rw [nesting]
            omega
      split at h
      · cases depth with
        | zero => cases h
        | succ depth =>
          dsimp only at h
          split at h
          · cases h
            exact nesting_obj.2 (List.forall_mem_nil _)
          · obtain ⟨ms, hms, hj⟩ := Option.map_eq_some_iff.1 h
            cases hj
            have hle := hmembers depth _ _ _ hms
            rw [nesting]
            omega
      · exact nesting_readNumber h
  · rw [readElems] at h
    split at h
    · cases h
    · next x rest hx =>
      have hfirst := hvalue _ _ _ _ hx
      split at h
      · obtain ⟨ys, hys, hj⟩ := Option.map_eq_some_iff.1 h
        cases hj
        exact max_le hfirst (helems _ _ _ _ hys)
      · obtain ⟨_, -, hj⟩ := Option.map_eq_some_iff.1 h
        cases hj
        exact max_le hfirst (Nat.zero_le _)
  · rw [readMembers] at h
    split at h
    · cases h
    · next k rest hk =>
      split at h
      · cases h
      · next v rest' hv =>
        obtain ⟨_, -, hv⟩ := Option.bind_eq_some_iff.1 hv
        have hfirst := hvalue _ _ _ _ hv
        split at h
        · obtain ⟨ys, hys, hj⟩ := Option.map_eq_some_iff.1 h
          cases hj
          exact max_le hfirst (hmembers _ _ _ _ hys)
        · obtain ⟨_, -, hj⟩ := Option.map_eq_some_iff.1 h
          cases hj
          exact max_le hfirst (Nat.zero_le _)

/-- By induction on the fuel. -/
theorem bounded (fuel : Nat) : Bounded fuel := by
  induction fuel with
  | zero =>
    refine ⟨fun depth cs j r h => ?_, fun depth cs xs r h => ?_, fun depth cs ms r h => ?_⟩
    · rw [readValue] at h
      cases h
    · rw [readElems] at h
      cases h
    · rw [readMembers] at h
      cases h
  | succ fuel ih => exact bounded_succ ih

/-- A reader's limit bounds what it returns. -/
theorem nesting_read {limit : Nat} {cs : List Char} {j : Json} (h : read limit cs = some j) :
    nesting j ≤ limit := by
  unfold read at h
  split at h
  · next i r hread =>
    split at h
    · cases h
      exact (bounded _).1 _ _ _ _ hread
    · cases h
  · cases h

end Json
