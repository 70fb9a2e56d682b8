import Synqro.Lib.Computation
import Mathlib.Data.List.Nodup

/-!
# C strings on a heap

A heap is its live blocks. Reading or freeing an address at which no block is live has no defined
meaning: the operations are computations that fail there. An `Allocator` may choose any address that
is free; whichever it chooses, a block that is allocated and freed again leaves the heap as it was
(`Heap.free_alloc`). A C string is a block that ends with a NUL, and a reader sees the bytes before
the first one.
-/

/-- An address; zero is the null pointer. -/
abbrev Address := Nat

/-- The live blocks, at different addresses, none of them null. -/
@[ext] structure Heap (β : Type) where
  blocks : List (Address × β)
  distinct : (blocks.map (·.1)).Nodup
  nonNull : 0 ∉ blocks.map (·.1)

/-- What an operation does at an address without a live block. -/
inductive Undefined where
  | read (address : Address)
  | free (address : Address)

namespace Heap

variable {β : Type}

/-- The addresses that are taken. -/
def addresses (h : Heap β) : List Address := h.blocks.map (·.1)

/-- No block is live. -/
def empty (β : Type) : Heap β := ⟨[], .nil, List.not_mem_nil⟩

/-- What is at an address. -/
def get? (h : Heap β) (p : Address) : Option β := (h.blocks.find? (·.1 = p)).map (·.2)

/-- The heap with one more block. -/
def insert (h : Heap β) (p : Address) (b : β) (hnew : p ∉ h.addresses) (hp : p ≠ 0) : Heap β where
  blocks := (p, b) :: h.blocks
  distinct := List.nodup_cons.2 ⟨hnew, h.distinct⟩
  nonNull := by
    rw [List.map_cons, List.mem_cons, not_or]
    exact ⟨hp.symm, h.nonNull⟩

/-- The heap without the block at an address. -/
def erase (h : Heap β) (p : Address) : Heap β where
  blocks := h.blocks.filter (·.1 ≠ p)
  distinct := h.distinct.sublist (List.filter_sublist.map _)
  nonNull hmem := h.nonNull ((List.filter_sublist.map _).subset hmem)

end Heap

/-- A choice of a free address for a block. -/
structure Allocator (β : Type) where
  choose : Heap β → β → Address
  fresh : ∀ h b, choose h b ∉ h.addresses
  nonNull : ∀ h b, choose h b ≠ 0

/-- An address above all others. -/
def Allocator.above (β : Type) : Allocator β where
  choose h _ := h.addresses.foldr (· + ·) 0 + 1
  fresh h _ hmem := by
    have hle : ∀ (ps : List Address), ∀ p ∈ ps, p ≤ ps.foldr (· + ·) 0 := by
      intro ps
      induction ps with
      | nil => exact List.forall_mem_nil _
      | cons q ps ih =>
        intro p hp
        rw [List.foldr_cons]
        rcases List.mem_cons.1 hp with rfl | hp
        · exact Nat.le_add_right _ _
        · exact Nat.le_trans (ih p hp) (Nat.le_add_left _ _)
    exact absurd (hle _ _ hmem) (Nat.not_succ_le_self _)
  nonNull _ _ := Nat.succ_ne_zero _

namespace Heap

variable {β : Type}

/-- The heap with a block at the address that is chosen for it. -/
def allocated (A : Allocator β) (b : β) (h : Heap β) : Heap β :=
  h.insert (A.choose h b) b (A.fresh h b) (A.nonNull h b)

/-- Put a block at a free address. -/
def alloc (A : Allocator β) (b : β) : Comp (Heap β) Undefined Address := fun h =>
  .ok (A.choose h b) (h.allocated A b)

/-- Read the block at an address. -/
def read (p : Address) : Comp (Heap β) Undefined β := fun h =>
  match h.get? p with
  | some b => .ok b h
  | none => .error (.read p) h

/-- Free the block at an address. -/
def free (p : Address) : Comp (Heap β) Undefined Unit := fun h =>
  match h.get? p with
  | some _ => .ok () (h.erase p)
  | none => .error (.free p) h

variable {h : Heap β} {p : Address} {b : β}

theorem get?_insert {hnew : p ∉ h.addresses} {hp : p ≠ 0} :
    (h.insert p b hnew hp).get? p = some b := by
  simp [get?, insert]

theorem erase_insert {hnew : p ∉ h.addresses} {hp : p ≠ 0} :
    (h.insert p b hnew hp).erase p = h := by
  have hblocks : ((p, b) :: h.blocks).filter (·.1 ≠ p) = h.blocks := by
    rw [List.filter_cons_of_neg (by simp)]
    refine List.filter_eq_self.2 fun m hm => decide_eq_true fun heq => ?_
    exact hnew (heq ▸ List.mem_map_of_mem hm)
  exact Heap.ext hblocks

theorem get?_insert_of_ne {q : Address} {c : β} {hnew : q ∉ h.addresses} {hq : q ≠ 0}
    (hne : p ≠ q) :
    (h.insert q c hnew hq).get? p = h.get? p := by
  rw [get?, get?, insert, List.find?_cons_of_neg (by simpa using hne.symm)]

/-- A block below the last one is taken out. -/
theorem erase_insert_insert {q : Address} {c : β} {hnew : p ∉ h.addresses} {hp : p ≠ 0}
    {hnew' : q ∉ (h.insert p b hnew hp).addresses} {hq : q ≠ 0} :
    ((h.insert p b hnew hp).insert q c hnew' hq).erase p =
      h.insert q c (fun hmem => hnew' (.tail _ hmem)) hq := by
  have hne : q ≠ p := fun heq => hnew' (heq ▸ .head _)
  have hblocks : ((q, c) :: (p, b) :: h.blocks).filter (·.1 ≠ p) =
      (q, c) :: ((p, b) :: h.blocks).filter (·.1 ≠ p) :=
        List.filter_cons_of_pos (by simpa using hne)
  refine Heap.ext (hblocks.trans (congrArg ((q, c) :: ·) ?_))
  exact congrArg blocks (@erase_insert _ h p b hnew hp)

/-- A block that was allocated can be read. -/
theorem read_alloc (A : Allocator β) :
    read (A.choose h b) (h.allocated A b) = .ok b (h.allocated A b) := by
  rw [read, allocated, get?_insert]

/-- A block that was allocated can be freed, and the heap is what it was. -/
theorem free_alloc (A : Allocator β) : free (A.choose h b) (h.allocated A b) = .ok () h := by
  rw [free, allocated, get?_insert]
  dsimp only
  rw [erase_insert]

/-- The last block but one can be read and freed, and then the last one. -/
theorem free_free_alloc (A : Allocator β) (c : β) :
    read (A.choose h b) ((h.allocated A b).allocated A c) =
      .ok b ((h.allocated A b).allocated A c) ∧
      ∃ h', free (A.choose h b) ((h.allocated A b).allocated A c) = .ok () h' ∧
        free (A.choose (h.allocated A b) c) h' = .ok () h := by
  have hne : A.choose h b ≠ A.choose (h.allocated A b) c := fun heq =>
    A.fresh (h.allocated A b) c (heq ▸ .head _)
  have hget : ((h.allocated A b).allocated A c).get? (A.choose h b) = some b := by
    rw [allocated, get?_insert_of_ne hne, allocated, get?_insert]
  refine ⟨by rw [read, hget], _, by rw [free, hget], ?_⟩
  unfold allocated
  rw [erase_insert_insert, free, get?_insert]
  dsimp only
  rw [erase_insert]

end Heap

namespace CString

/-- The bytes before the first NUL. -/
def upToNul (bytes : List UInt8) : List UInt8 := bytes.takeWhile (· ≠ 0)

/-- A string without a NUL is read as it was written. -/
theorem upToNul_ended {bytes : List UInt8} (h : 0 ∉ bytes) : upToNul (bytes ++ [0]) = bytes := by
  have hall : ∀ b ∈ bytes, decide (b ≠ 0) = true :=
    fun b hb => decide_eq_true (ne_of_mem_of_not_mem hb h)
  rw [upToNul, List.takeWhile_append_of_pos hall, List.takeWhile_cons_of_neg (by simp),
    List.append_nil]

/-- The NUL that ends a string adds nothing to it. -/
theorem upToNul_append_nul (bytes : List UInt8) : upToNul (bytes ++ [0]) = upToNul bytes := by
  unfold upToNul
  induction bytes with
  | nil => rfl
  | cons b bytes ih =>
    rw [List.cons_append]
    by_cases hb : b = 0
    · rw [List.takeWhile_cons_of_neg (by simpa using hb),
        List.takeWhile_cons_of_neg (by simpa using hb)]
    · rw [List.takeWhile_cons_of_pos (by simpa using hb),
        List.takeWhile_cons_of_pos (by simpa using hb), ih]

end CString
