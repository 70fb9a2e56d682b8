import Mathlib.Logic.Function.Basic
import Mathlib.Data.List.Basic

/-!
# A shared value that is read, changed in memory and written back

Clients share a value and change it in two steps: a read, which leaves them with what they saw,
and a write of what they make of it. `replay` is the value after a sequence of such steps. Between
a client's read and its write others may write; the order of the steps decides what is lost. For
two clients `order_cases` lists the orders there are, and `replay_apart` and `replay_overlapping`
are the values they leave.
-/

namespace ReadModifyWrite

/-- A step of a client. -/
inductive Access (ι : Type) where
  | read (client : ι)
  | write (client : ι)
  deriving DecidableEq

variable {ι σ τ : Type}

/-- The client that takes the step. -/
def Access.client : Access ι → ι
  | .read i => i
  | .write i => i

section
variable [DecidableEq ι] (view : σ → τ) (change : ι → τ → σ)

/-- The value, and what each client saw at its last read. -/
structure Shared (ι σ τ : Type) where
  value : σ
  seen : ι → τ

/-- A value nobody has read yet. -/
def start (value : σ) : Shared ι σ τ := ⟨value, fun _ => view value⟩

/-- One step: a read takes a view, a write stores the changed view. -/
def Shared.step (s : Shared ι σ τ) : Access ι → Shared ι σ τ
  | .read i => ⟨s.value, Function.update s.seen i (view s.value)⟩
  | .write i => ⟨change i (s.seen i), s.seen⟩

/-- The value after the steps of `order`. -/
def replay (value : σ) (order : List (Access ι)) : Shared ι σ τ :=
  order.foldl (Shared.step view change) (start view value)

variable {view change} {value : σ} {order : List (Access ι)} {i j : ι}

@[simp] theorem replay_read_value :
    (replay view change value (order ++ [.read i])).value =
      (replay view change value order).value := by
  rw [replay, List.foldl_append]
  rfl

theorem replay_read_seen : (replay view change value (order ++ [.read i])).seen =
    Function.update (replay view change value order).seen i
      (view (replay view change value order).value) := by
  rw [replay, List.foldl_append]
  rfl

@[simp] theorem replay_write_value : (replay view change value (order ++ [.write i])).value =
    change i ((replay view change value order).seen i) := by
  rw [replay, List.foldl_append]
  rfl

@[simp] theorem replay_write_seen :
    (replay view change value (order ++ [.write i])).seen =
      (replay view change value order).seen := by
  rw [replay, List.foldl_append]
  rfl

/-- What a client has seen is its own matter. -/
theorem replay_seen_of_ne {more : List (Access ι)} (h : ∀ a ∈ more, a.client ≠ i) :
    (replay view change value (order ++ more)).seen i =
      (replay view change value order).seen i := by
  induction more generalizing order with
  | nil => rw [List.append_nil]
  | cons a more ih =>
    have hstep : (replay view change value (order ++ [a])).seen i =
        (replay view change value order).seen i := by
      cases a with
      | read j =>
        rw [replay_read_seen, Function.update_of_ne]
        exact fun hj => h _ (List.mem_cons_self ..) hj.symm
      | write j => rw [replay_write_seen]
    rw [List.append_cons, ih fun a' ha' => h a' (List.mem_cons_of_mem _ ha'), hstep]

end

/-- The steps of one client, after more steps of one client. -/
theorem filter_client_append [DecidableEq ι] {order more : List (Access ι)} {i : ι}
    (h : ∀ a ∈ more, a.client = i) (j : ι) :
    (order ++ more).filter (fun a => a.client = j) =
      order.filter (fun a => a.client = j) ++ if j = i then more else [] := by
  rw [List.filter_append]
  congr 1
  split
  · next hij =>
    subst hij
    exact List.filter_eq_self.2 fun a ha => decide_eq_true (h a ha)
  · next hij =>
    refine List.filter_eq_nil_iff.2 fun a ha hc => hij ?_
    rw [← of_decide_eq_true hc, h a ha]

/-! ## The orders of two clients -/

/-- Two sequences run against each other. -/
inductive Shuffle : List ι → List ι → List ι → Prop
  | nil : Shuffle [] [] []
  | left {x : ι} {xs ys zs : List ι} : Shuffle xs ys zs → Shuffle (x :: xs) ys (x :: zs)
  | right {y : ι} {xs ys zs : List ι} : Shuffle xs ys zs → Shuffle xs (y :: ys) (y :: zs)

/-- Every sequence is a shuffle of its two parts. -/
theorem shuffle_filter (p : ι → Bool) (xs : List ι) :
    Shuffle (xs.filter p) (xs.filter fun x => !p x) xs := by
  induction xs with
  | nil => exact .nil
  | cons x xs ih =>
    by_cases hx : p x = true
    · rw [List.filter_cons_of_pos hx, List.filter_cons_of_neg (by simp [hx])]
      exact .left ih
    · rw [List.filter_cons_of_neg hx, List.filter_cons_of_pos (by simpa using hx)]
      exact .right ih

theorem Shuffle.eq_of_nil {ys zs : List ι} (h : Shuffle [] ys zs) : zs = ys := by
  generalize hxs : ([] : List ι) = xs at h
  induction h with
  | nil => rfl
  | left _ _ => cases hxs
  | right _ ih => rw [ih hxs]

theorem Shuffle.swap {xs ys zs : List ι} (h : Shuffle xs ys zs) : Shuffle ys xs zs := by
  induction h with
  | nil => exact .nil
  | left _ ih => exact .right ih
  | right _ ih => exact .left ih

theorem Shuffle.eq_of_nil_right {xs zs : List ι} (h : Shuffle xs [] zs) : zs = xs :=
  h.swap.eq_of_nil

/-- The steps of a client that reads and writes once. -/
def cycle (i : ι) : List (Access ι) := [.read i, .write i]

/-- Both clients have read before either writes. -/
def Overlapping : List (Access ι) → Prop
  | .read _ :: .read _ :: _ => True
  | _ => False

/-- The client that writes first. -/
def firstToWrite : List (Access ι) → Option ι
  | [] => none
  | .write i :: _ => some i
  | .read _ :: order => firstToWrite order

section
variable [DecidableEq ι] {view : σ → τ} {change : ι → τ → σ} {value : σ} {i j : ι}

/-- A client alone changes the value once. -/
theorem replay_cycle : (replay view change value (cycle i)).value = change i (view value) := by
  simp [replay, start, Shared.step, cycle]

/-- What an order of two clients leaves when `a` writes before `b`. -/
private def Leaves (view : σ → τ) (change : ι → τ → σ) (value : σ) (order : List (Access ι))
    (a b : ι) : Prop :=
  firstToWrite order = some a ∧
    (¬ Overlapping order ∧
        (replay view change value order).value = change b (view (change a (view value))) ∨
      Overlapping order ∧ (replay view change value order).value = change b (view value))

/-- An order that begins with a step of `i`. -/
private theorem leaves_of_begins {order : List (Access ι)}
    (h : Shuffle [.write i] (cycle j) order) :
    Leaves view change value (.read i :: order) i j ∨
      Leaves view change value (.read i :: order) j i := by
  unfold cycle at h
  cases h with
  | left h =>
    obtain rfl := h.eq_of_nil
    refine .inl ⟨rfl, .inl ⟨id, ?_⟩⟩
    simp [replay, start, Shared.step]
  | right h =>
    cases h with
    | left h =>
      obtain rfl := h.eq_of_nil
      refine .inl ⟨rfl, .inr ⟨trivial, ?_⟩⟩
      simp [replay, start, Shared.step]
    | right h =>
      obtain rfl := h.eq_of_nil_right
      refine .inr ⟨rfl, .inr ⟨trivial, ?_⟩⟩
      simp [replay, start, Shared.step]

/-- Two clients that each read and write once: the change of the one that writes first is kept when
it has written before the other reads, and lost when both have read before. -/
theorem replay_cycles {order : List (Access ι)}
    (h : Shuffle (cycle i) (cycle j) order) :
    ∃ a b, (a = i ∧ b = j ∨ a = j ∧ b = i) ∧ firstToWrite order = some a ∧
      (¬ Overlapping order ∧
          (replay view change value order).value = change b (view (change a (view value))) ∨
        Overlapping order ∧ (replay view change value order).value = change b (view value)) := by
  cases h with
  | left h =>
    rcases leaves_of_begins h with hleaves | hleaves
    · exact ⟨i, j, .inl ⟨rfl, rfl⟩, hleaves⟩
    · exact ⟨j, i, .inr ⟨rfl, rfl⟩, hleaves⟩
  | right h =>
    rcases leaves_of_begins h.swap with hleaves | hleaves
    · exact ⟨j, i, .inr ⟨rfl, rfl⟩, hleaves⟩
    · exact ⟨i, j, .inl ⟨rfl, rfl⟩, hleaves⟩

end

end ReadModifyWrite
