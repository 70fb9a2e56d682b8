import Mathlib.Data.List.Nodup
import Mathlib.Logic.Function.Basic
import Mathlib.Logic.Relation

/-!
# Appending to a shared file under two locks

Tasks append one text each to a file. A task runs in a process, which has opened the file once; it
takes the mutex of its process, then the lock on the file, writes its text in as many pieces as it
takes, and gives both back. The lock on the file belongs to the process that opened it: two tasks of
one process may hold it together, so neither lock is enough by itself. A task may also fail at any
point: it gives the mutex back, but may leave the lock with its process.

`Invariant.exclusive` says that at most one task writes at a time, and `Run.file_eq` that between
two writes the file is what the tasks have written, one after the other, in the order in which they
took the lock.
-/

namespace LockedAppend

/-- How a task comes to its end: without the lock, in the middle of its text, or after it. -/
inductive Outcome where
  | refused
  | torn
  | whole
  deriving DecidableEq

/-- How far a task has come. -/
inductive Phase (β : Type) where
  | waiting
  /-- It has the mutex of its process. -/
  | entered
  /-- It has the lock too, and the rest is still to be written. -/
  | writing (rest : List β)
  /-- It has written its text and tried to give the lock back. -/
  | written
  | returned (outcome : Outcome)

/-- The file, its lock, the mutexes and the tasks; `order` is the order in which they took the lock,
and `done` what each has written. -/
structure State (ι π β : Type) where
  phase : ι → Phase β
  mutex : π → Option ι
  lock : Option π
  file : List β
  order : List ι
  done : ι → List β

/-- No task has begun. -/
def State.start (ι π : Type) {β : Type} (file : List β) : State ι π β where
  phase _ := .waiting
  mutex _ := none
  lock := none
  file
  order := []
  done _ := []

/-- The outcome of a task that leaves now. -/
def Phase.outcome? {β : Type} : Phase β → Option Outcome
  | .entered => some .refused
  | .writing _ => some .torn
  | .written => some .whole
  | _ => none

section
variable {ι π β : Type} [DecidableEq ι] [DecidableEq π] (process : ι → π) (text : ι → List β)

/-- One step of one task. -/
inductive Step : State ι π β → State ι π β → Prop
  | enter {s : State ι π β} (i : ι) : s.phase i = .waiting → s.mutex (process i) = none →
      Step s { s with
        phase := Function.update s.phase i .entered
        mutex := Function.update s.mutex (process i) (some i) }
  | acquire {s : State ι π β} (i : ι) : s.phase i = .entered →
      (s.lock = none ∨ s.lock = some (process i)) →
      Step s { s with
        phase := Function.update s.phase i (.writing (text i))
        lock := some (process i)
        order := s.order ++ [i] }
  | write {s : State ι π β} (i : ι) (piece rest : List β) : s.phase i = .writing (piece ++ rest) →
      Step s { s with
        phase := Function.update s.phase i (.writing rest)
        file := s.file ++ piece
        done := Function.update s.done i (s.done i ++ piece) }
  /-- The lock is given back, or stays where it is. -/
  | release {s : State ι π β} (i : ι) (lock : Option π) : s.phase i = .writing [] →
      (lock = none ∨ lock = s.lock) →
      Step s { s with
        phase := Function.update s.phase i .written
        lock }
  | leave {s : State ι π β} (i : ι) (outcome : Outcome) : (s.phase i).outcome? = some outcome →
      Step s { s with
        phase := Function.update s.phase i (.returned outcome)
        mutex := Function.update s.mutex (process i) none }

/-- Any number of steps of any tasks. -/
abbrev Run : State ι π β → State ι π β → Prop := Relation.ReflTransGen (Step process text)

end

section
variable {ι π β : Type}

/-- The task has the mutex of its process. -/
def Phase.Inside : Phase β → Prop
  | .entered | .writing _ | .written => True
  | _ => False

/-- The task has had the lock. -/
def Phase.Ordered : Phase β → Prop
  | .writing _ | .written | .returned .torn | .returned .whole => True
  | _ => False

/-- What a task with the text `text` has written. -/
def Phase.Wrote (text done : List β) : Phase β → Prop
  | .writing rest => done ++ rest = text
  | .written | .returned .whole => done = text
  | .returned .torn => done <+: text
  | .waiting | .entered | .returned .refused => done = []

/-- What holds between the steps, when the file began as `file`. -/
structure Invariant (process : ι → π) (text : ι → List β) (file : List β) (s : State ι π β) :
    Prop where
  mutex : ∀ i, (s.phase i).Inside → s.mutex (process i) = some i
  lock : ∀ i rest, s.phase i = .writing rest → s.lock = some (process i)
  last : ∀ i rest, s.phase i = .writing rest → s.order.getLast? = some i
  file : s.file = file ++ s.order.flatMap s.done
  wrote : ∀ i, (s.phase i).Wrote (text i) (s.done i)
  ordered : ∀ i, i ∈ s.order ↔ (s.phase i).Ordered
  nodup : s.order.Nodup

variable {process : ι → π} {text : ι → List β} {file : List β} {s s' : State ι π β} {i j : ι}
  {rest rest' : List β}

/-- A task can leave while it is inside. -/
theorem Phase.inside_of_outcome? {p : Phase β} {o : Outcome} (h : p.outcome? = some o) :
    p.Inside := by
  cases p <;> cases h <;> trivial

/-- Two tasks of one process are not inside at once. -/
theorem Invariant.inside_eq (h : Invariant process text file s) (hi : (s.phase i).Inside)
    (hj : (s.phase j).Inside) (hprocess : process i = process j) : i = j := by
  have hmutex := h.mutex i hi
  rw [hprocess, h.mutex j hj] at hmutex
  exact (Option.some.inj hmutex).symm

/-- At most one task writes. -/
theorem Invariant.exclusive (h : Invariant process text file s) (hi : s.phase i = .writing rest)
    (hj : s.phase j = .writing rest') : i = j := by
  have hprocess : process i = process j :=
    Option.some.inj ((h.lock i rest hi).symm.trans (h.lock j rest' hj))
  exact h.inside_eq (by rw [hi]; trivial) (by rw [hj]; trivial) hprocess

theorem start_invariant (process : ι → π) (text : ι → List β) (file : List β) :
    Invariant process text file (State.start ι π file) where
  mutex _ h := h.elim
  lock _ _ h := by cases h
  last _ _ h := by cases h
  file := (List.append_nil _).symm
  wrote _ := rfl
  ordered i := iff_of_false List.not_mem_nil id
  nodup := .nil

end

section
variable {ι π β : Type} [DecidableEq ι] [DecidableEq π] {process : ι → π} {text : ι → List β}
  {file : List β} {s s' : State ι π β} {i j : ι}

namespace Invariant

omit [DecidableEq π] in
/-- A task that was inside has the mutex, whatever it does next. -/
theorem mutex_update (h : Invariant process text file s) (hi : (s.phase i).Inside) (p : Phase β) :
    ∀ j, (Function.update s.phase i p j).Inside → s.mutex (process j) = some j := by
  intro j hj
  by_cases hij : j = i
  · rw [hij]
    exact h.mutex i hi
  · rw [Function.update_of_ne hij] at hj
    exact h.mutex j hj

omit [DecidableEq π] in
/-- A step that takes or leaves no place in the order. -/
theorem ordered_update (h : Invariant process text file s) {p : Phase β}
    (hp : (s.phase i).Ordered ↔ p.Ordered) :
    ∀ j, j ∈ s.order ↔ (Function.update s.phase i p j).Ordered := by
  intro j
  rw [h.ordered]
  by_cases hij : j = i
  · rw [hij, Function.update_self, hp]
  · rw [Function.update_of_ne hij]

omit [DecidableEq π] in
/-- A step that writes nothing. -/
theorem wrote_update (h : Invariant process text file s) {p : Phase β}
    (hp : p.Wrote (text i) (s.done i)) :
    ∀ j, (Function.update s.phase i p j).Wrote (text j) (s.done j) := by
  intro j
  by_cases hij : j = i
  · rw [hij, Function.update_self]
    exact hp
  · rw [Function.update_of_ne hij]
    exact h.wrote j

/-- A task that is not writing after a step wrote before it only if it is another. -/
theorem of_update_writing {phase : ι → Phase β} {p : Phase β} {rest : List β}
    (hj : Function.update phase i p j = .writing rest) (hp : ∀ rest, p ≠ .writing rest) :
    phase j = .writing rest := by
  by_cases hij : j = i
  · rw [hij, Function.update_self] at hj
    exact absurd hj (hp rest)
  · rwa [Function.update_of_ne hij] at hj

theorem enter (h : Invariant process text file s) (hi : s.phase i = .waiting)
    (hfree : s.mutex (process i) = none) : Invariant process text file { s with
      phase := Function.update s.phase i .entered
      mutex := Function.update s.mutex (process i) (some i) } := by
  have hwrote := h.wrote i
  rw [hi] at hwrote
  refine ⟨fun j hj => ?_, fun j rest hj => h.lock j rest (of_update_writing hj nofun),
    fun j rest hj => h.last j rest (of_update_writing hj nofun), h.file, h.wrote_update hwrote,
    h.ordered_update (by rw [hi]; exact .rfl), h.nodup⟩
  dsimp only at hj ⊢
  by_cases hij : j = i
  · rw [hij, Function.update_self]
  · rw [Function.update_of_ne hij] at hj
    have hmutex := h.mutex j hj
    have hprocess : process j ≠ process i := by
      intro hp
      rw [hp, hfree] at hmutex
      cases hmutex
    rw [Function.update_of_ne hprocess, hmutex]

omit [DecidableEq π] in
/-- The lock is not taken while a task of the same process writes: the two would share the mutex. -/
theorem acquire (h : Invariant process text file s) (hi : s.phase i = .entered)
    (hfree : s.lock = none ∨ s.lock = some (process i)) : Invariant process text file { s with
      phase := Function.update s.phase i (.writing (text i))
      lock := some (process i)
      order := s.order ++ [i] } := by
  have hnone : ∀ j rest, s.phase j ≠ .writing rest := by
    intro j rest hj
    have hlock := h.lock j rest hj
    rcases hfree with hfree | hfree
    · rw [hfree] at hlock
      cases hlock
    · have hprocess : process i = process j := Option.some.inj (hfree.symm.trans hlock)
      have hij : i = j := h.inside_eq (by rw [hi]; trivial) (by rw [hj]; trivial) hprocess
      rw [← hij, hi] at hj
      cases hj
  have hself : ∀ {j rest}, Function.update s.phase i
    (.writing (text i)) j = .writing rest → j = i := by
    intro j rest hj
    by_contra hij
    exact hnone j rest ((Function.update_of_ne hij _ _).symm.trans hj)
  have hdone : s.done i = [] := by
    have hwrote := h.wrote i
    rw [hi] at hwrote
    exact hwrote
  have hnew : i ∉ s.order := by
    rw [h.ordered, hi]
    exact id
  refine ⟨h.mutex_update (by rw [hi]; trivial) _, fun j rest hj => ?_, fun j rest hj => ?_, ?_,
    h.wrote_update (by rw [hdone]; exact List.nil_append _), fun j => ?_, ?_⟩
  · rw [hself hj]
  · rw [hself hj, List.getLast?_concat]
  · dsimp only
    rw [List.flatMap_append, List.flatMap_singleton, hdone, List.append_nil, h.file]
  · dsimp only
    rw [List.mem_append, List.mem_singleton, h.ordered]
    by_cases hij : j = i
    · rw [hij, Function.update_self]
      exact iff_of_true (.inr rfl) trivial
    · rw [Function.update_of_ne hij, or_iff_left hij]
  · exact List.nodup_append.2 ⟨h.nodup, List.nodup_singleton i, fun a ha b hb hab =>
      hnew (List.mem_singleton.1 hb ▸ hab ▸ ha)⟩

omit [DecidableEq π] in
/-- The task that writes took the lock last, so its text ends the file. -/
theorem write (h : Invariant process text file s) {piece rest : List β}
    (hi : s.phase i = .writing (piece ++ rest)) : Invariant process text file { s with
      phase := Function.update s.phase i (.writing rest)
      file := s.file ++ piece
      done := Function.update s.done i (s.done i ++ piece) } := by
  obtain ⟨init, horder⟩ := List.getLast?_eq_some_iff.1 (h.last i _ hi)
  have hnew : i ∉ init := by
    have hnodup := h.nodup
    rw [horder, List.nodup_append] at hnodup
    exact fun hmem => hnodup.2.2 i hmem i (List.mem_singleton_self i) rfl
  have hinit : init.flatMap (Function.update s.done i (s.done i ++ piece)) = init.flatMap s.done :=
    List.flatMap_congr fun j hj => Function.update_of_ne (ne_of_mem_of_not_mem hj hnew) _ _
  have hwriting : ∀ {j rest'}, Function.update s.phase i (.writing rest) j = .writing rest' →
      ∃ rest'', s.phase j = .writing rest'' := by
    intro j rest' hj
    by_cases hij : j = i
    · exact ⟨_, hij ▸ hi⟩
    · exact ⟨rest', (Function.update_of_ne hij _ _).symm.trans hj⟩
  refine ⟨h.mutex_update (by rw [hi]; trivial) _, fun j rest' hj => ?_, fun j rest' hj => ?_, ?_,
    fun j => ?_, h.ordered_update (by rw [hi]; exact .rfl), h.nodup⟩
  · obtain ⟨rest'', hj⟩ := hwriting hj
    exact h.lock j rest'' hj
  · obtain ⟨rest'', hj⟩ := hwriting hj
    exact h.last j rest'' hj
  · dsimp only
    rw [h.file, horder, List.flatMap_append, List.flatMap_append, hinit, List.flatMap_singleton,
      List.flatMap_singleton, Function.update_self]
    simp only [List.append_assoc]
  · dsimp only
    by_cases hij : j = i
    · have hwrote := h.wrote i
      rw [hi] at hwrote
      rw [hij, Function.update_self, Function.update_self]
      exact (List.append_assoc _ _ _).trans hwrote
    · rw [Function.update_of_ne hij, Function.update_of_ne hij]
      exact h.wrote j

omit [DecidableEq π] in
theorem release (h : Invariant process text file s) {lock : Option π}
    (hi : s.phase i = .writing []) :
    Invariant process text file { s with
      phase := Function.update s.phase i .written
      lock } := by
  have hwrote := h.wrote i
  rw [hi] at hwrote
  refine ⟨h.mutex_update (by rw [hi]; trivial) _, fun j rest hj => ?_,
    fun j rest hj => h.last j rest (of_update_writing hj nofun), h.file,
    h.wrote_update ((List.append_nil _).symm.trans hwrote),
      h.ordered_update (by rw [hi]; exact .rfl),
    h.nodup⟩
  -- no task writes any more
  have hj' : s.phase j = .writing rest := of_update_writing hj nofun
  obtain rfl : j = i := h.exclusive hj' hi
  exact absurd ((Function.update_self ..).symm.trans hj) nofun

theorem leave (h : Invariant process text file s) {outcome : Outcome}
    (hi : (s.phase i).outcome? = some outcome) : Invariant process text file { s with
      phase := Function.update s.phase i (.returned outcome)
      mutex := Function.update s.mutex (process i) none } := by
  have hinside := Phase.inside_of_outcome? hi
  have hwrote : (Phase.returned (β := β) outcome).Wrote (text i) (s.done i) := by
    have hwrote := h.wrote i
    cases hphase : s.phase i <;> rw [hphase] at hi hwrote <;> cases hi
    · exact hwrote
    · exact hwrote ▸ List.prefix_append _ _
    · exact hwrote
  have hordered : (s.phase i).Ordered ↔ (Phase.returned (β := β) outcome).Ordered := by
    cases hphase : s.phase i <;> rw [hphase] at hi <;> cases hi <;> exact .rfl
  refine ⟨fun j hj => ?_, fun j rest hj => h.lock j rest (of_update_writing hj nofun),
    fun j rest hj => h.last j rest (of_update_writing hj nofun), h.file, h.wrote_update hwrote,
    h.ordered_update hordered, h.nodup⟩
  dsimp only at hj ⊢
  by_cases hij : j = i
  · rw [hij, Function.update_self] at hj
    exact hj.elim
  · rw [Function.update_of_ne hij] at hj
    have hprocess : process j ≠ process i := fun hp => hij (h.inside_eq hj hinside hp)
    rw [Function.update_of_ne hprocess]
    exact h.mutex j hj

theorem step (h : Invariant process text file s) (hstep : Step process text s s') :
    Invariant process text file s' := by
  cases hstep with
  | enter i hi hfree => exact h.enter hi hfree
  | acquire i hi hfree => exact h.acquire hi hfree
  | write i piece rest hi => exact h.write hi
  | release i lock hi _ => exact h.release hi
  | leave i outcome hi => exact h.leave hi

theorem run (h : Invariant process text file s) (hrun : Run process text s s') :
    Invariant process text file s' := by
  induction hrun with
  | refl => exact h
  | tail _ hstep ih => exact ih.step hstep

end Invariant

/-- While no task writes, and none has been torn, the file is the texts of those that have had the
lock, each once, in the order in which they took it. -/
theorem Run.file_eq (hrun : Run process text (State.start ι π file) s)
    (hidle : ∀ i rest, s.phase i ≠ .writing rest) (hwhole : ∀ i, s.phase i ≠ .returned .torn) :
    s.file = file ++ s.order.flatMap text ∧ s.order.Nodup ∧
      ∀ i, i ∈ s.order ↔ (s.phase i).Ordered := by
  have h := (start_invariant process text file).run hrun
  refine ⟨?_, h.nodup, h.ordered⟩
  have hdone : s.order.flatMap s.done = s.order.flatMap text := by
    refine List.flatMap_congr fun i hi => ?_
    have hwrote := h.wrote i
    have hordered := (h.ordered i).1 hi
    cases hphase : s.phase i with
    | waiting | entered =>
      rw [hphase] at hordered
      exact hordered.elim
    | writing rest => exact absurd hphase (hidle i rest)
    | written =>
      rw [hphase] at hwrote
      exact hwrote
    | returned outcome =>
      cases outcome with
      | refused =>
        rw [hphase] at hordered
        exact hordered.elim
      | torn => exact absurd hphase (hwhole i)
      | whole =>
        rw [hphase] at hwrote
        exact hwrote
  rw [h.file, hdone]

end

end LockedAppend
