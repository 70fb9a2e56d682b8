import Synqro.CounterLimits
import Synqro.LatchedRequests

/-!
# The latch under concurrent callers

The two atomics of a downloader are shared by all who call it at once. A failure is recorded in two
atomic steps, the increment of the counter and the store to the flag that the returned value
decides; a success in one. `run_latched` says what the flag is after any interleaving of any calls,
in terms of the modification order of the counter.
-/

namespace Synqro

/-- What a caller records. -/
inductive Attempt where
  | failure
  | success
  deriving DecidableEq

/-- How far a call has come. -/
inductive Recording where
  | begun (attempt : Attempt)
  /-- `record_failure` past its increment, which returned `old`. -/
  | counted (old : UInt32)
  | returned
  deriving DecidableEq

/-- A modification of the counter. -/
inductive CounterOp where
  | increment
  | reset
  deriving DecidableEq

/-- The next atomic step of a call: the latch and the call after it, and what it does to the
counter. -/
def Recording.step (latch : Latch) : Recording → Latch × Recording × List CounterOp
  | .begun .failure =>
    ({ latch with consecutiveFailures := latch.consecutiveFailures + 1 },
      .counted latch.consecutiveFailures, [.increment])
  | .counted old =>
    if 5 ≤ saturatingSucc old then ({ latch with degradedMode := true }, .returned, [])
    else (latch, .returned, [])
  | .begun .success => ({ latch with consecutiveFailures := 0 }, .returned, [.reset])
  | .returned => (latch, .returned, [])

/-- The callers of one downloader, its latch, and the modification order of its counter. -/
structure Recordings where
  latch : Latch
  calls : List Recording
  order : List CounterOp

namespace Recordings

/-- A new downloader and the calls that will be made on it and its clones. -/
def start (attempts : List Attempt) : Recordings := ⟨⟨0, false⟩, attempts.map .begun, []⟩

/-- The call at `i` takes its next step. -/
def step (s : Recordings) (i : Nat) : Recordings :=
  match s.calls[i]? with
  | none => s
  | some call =>
    let (latch, call', ops) := call.step s.latch
    ⟨latch, s.calls.set i call', s.order ++ ops⟩

/-- The calls take their steps in the order of `schedule`. -/
def run (s : Recordings) (schedule : List Nat) : Recordings := schedule.foldl step s

/-- Five increments with no reset between them. -/
def FiveInARow (s : Recordings) : Prop := List.replicate 5 CounterOp.increment <:+: s.order

/-- An increment that returned `old` makes its caller set the flag. -/
def Decides (old : UInt32) : Prop := 4 ≤ old.toNat

theorem five_le_saturatingSucc {old : UInt32} : 5 ≤ saturatingSucc old ↔ Decides old := by
  have hfive : (5 : UInt32).toNat = 5 := rfl
  have hlt := old.toNat_lt
  rw [UInt32.le_iff_toNat_le, toNat_saturatingSucc, hfive, Decides]
  omega

variable {s : Recordings} {i : Nat} {xs : List Recording} {call call' x : Recording}

/-! ## One step -/

/-- Everything a step can do. -/
theorem step_cases (s : Recordings) (i : Nat) :
    s.step i = s ∨
    (s.calls[i]? = some (.begun .failure) ∧ s.step i =
      ⟨{ s.latch with consecutiveFailures := s.latch.consecutiveFailures + 1 },
        s.calls.set i (.counted s.latch.consecutiveFailures), s.order ++ [.increment]⟩) ∨
    (s.calls[i]? = some (.begun .success) ∧ s.step i =
      ⟨{ s.latch with consecutiveFailures := 0 }, s.calls.set i .returned, s.order ++ [.reset]⟩) ∨
    ∃ old, s.calls[i]? = some (.counted old) ∧
      (Decides old ∧ s.step i =
          ⟨{ s.latch with degradedMode := true }, s.calls.set i .returned, s.order⟩ ∨
        ¬ Decides old ∧ s.step i = ⟨s.latch, s.calls.set i .returned, s.order⟩) := by
  unfold step
  split
  · exact .inl rfl
  · next call hcall =>
    cases call with
    | begun attempt =>
      cases attempt with
      | failure => exact .inr (.inl ⟨hcall, rfl⟩)
      | success => exact .inr (.inr (.inl ⟨hcall, rfl⟩))
    | counted old =>
      refine .inr (.inr (.inr ⟨old, hcall, ?_⟩))
      rw [← five_le_saturatingSucc]
      by_cases hmany : 5 ≤ saturatingSucc old
      · refine .inl ⟨hmany, ?_⟩
        simp only [Recording.step, if_pos hmany, List.append_nil]
      · refine .inr ⟨hmany, ?_⟩
        simp only [Recording.step, if_neg hmany, List.append_nil]
    | returned =>
      refine .inl ?_
      obtain ⟨hi, hget⟩ := List.getElem?_eq_some_iff.1 hcall
      simp only [Recording.step, List.append_nil]
      rw [← hget, List.set_getElem_self]

/-- A call other than the one that steps stays where it is. -/
theorem mem_set_of_ne (hx : x ∈ xs) (hi : xs[i]? = some call) (hne : x ≠ call) :
    x ∈ xs.set i call' := by
  obtain ⟨j, hj⟩ := List.mem_iff_getElem?.1 hx
  have hij : i ≠ j := by
    intro h
    subst h
    exact hne (Option.some.inj (hj.symm.trans hi))
  refine List.mem_iff_getElem?.2 ⟨j, ?_⟩
  rw [List.getElem?_set_ne hij, hj]

/-! ## What holds between the steps -/

/-- The counter holds the streak of increments, modulo its width, and the flag and the callers that
will set it account for every five in a row. -/
structure Latched (s : Recordings) : Prop where
  streak : ∃ k, List.Streak CounterOp.increment k s.order ∧
    s.latch.consecutiveFailures.toNat = k % 2 ^ 32
  flag : s.latch.degradedMode = true → s.FiveInARow
  pending : ∀ old, .counted old ∈ s.calls → Decides old → s.FiveInARow
  owed : s.FiveInARow → s.latch.degradedMode = true ∨ ∃ old, .counted old ∈ s.calls ∧ Decides old

theorem start_latched (attempts : List Attempt) : (start attempts).Latched := by
  have hnone : ¬ (start attempts).FiveInARow := by
    intro h
    cases List.infix_nil.1 h
  refine ⟨⟨0, .nil, rfl⟩, ?_, ?_, fun h => absurd h hnone⟩
  · intro h
    cases h
  · intro old hmem
    obtain ⟨_, _, h⟩ := List.mem_map.1 hmem
    cases h

theorem FiveInARow.snoc {s' : Recordings} {op : CounterOp} (h : s.FiveInARow)
    (horder : s'.order = s.order ++ [op]) : s'.FiveInARow := by
  rw [FiveInARow, horder]
  exact h.trans (List.prefix_append _ _).isInfix

theorem FiveInARow.of_streak {k : Nat} (h : List.Streak CounterOp.increment k s.order)
    (hk : 5 ≤ k) : s.FiveInARow := by
  have hshort : List.replicate 5 CounterOp.increment <:+ List.replicate k .increment :=
    ⟨List.replicate (k - 5) .increment, by rw [List.replicate_append_replicate]; congr 1; omega⟩
  exact (hshort.trans h.copies).isInfix

namespace Latched

/-- An increment: its caller decides exactly when it is the fifth of a streak or a later one. -/
theorem increment (h : s.Latched) (hi : s.calls[i]? = some (.begun .failure)) :
    Latched ⟨{ s.latch with consecutiveFailures := s.latch.consecutiveFailures + 1 },
      s.calls.set i (.counted s.latch.consecutiveFailures), s.order ++ [.increment]⟩ := by
  obtain ⟨k, hstreak, hcount⟩ := h.streak
  have hi' : i < s.calls.length := (List.getElem?_eq_some_iff.1 hi).1
  refine ⟨⟨k + 1, hstreak.snoc, ?_⟩, fun hflag => (h.flag hflag).snoc rfl, ?_, fun hfive => ?_⟩
  · show (s.latch.consecutiveFailures + 1).toNat = _
    have hone : (1 : UInt32).toNat = 1 := rfl
    rw [UInt32.toNat_add, hone, hcount]
    omega
  · intro old hmem hdecides
    rcases List.mem_or_eq_of_mem_set hmem with hmem | heq
    · exact (h.pending old hmem hdecides).snoc rfl
    · cases heq
      refine FiveInARow.of_streak hstreak.snoc ?_
      unfold Decides at hdecides
      omega
  · by_cases hbefore : s.FiveInARow
    · refine (h.owed hbefore).imp id fun howed => ?_
      obtain ⟨old, hmem, hdecides⟩ := howed
      exact ⟨old, mem_set_of_ne hmem hi (by intro h; cases h), hdecides⟩
    · have hfew : k < 5 := Nat.lt_of_not_le fun hk => hbefore (.of_streak hstreak hk)
      have hmany : ¬ k < 4 := fun hk => List.not_run_snoc hbefore hstreak hk hfive
      refine .inr ⟨s.latch.consecutiveFailures, List.mem_set hi' _, ?_⟩
      unfold Decides
      omega

theorem reset (h : s.Latched) (hi : s.calls[i]? = some (.begun .success)) :
    Latched ⟨{ s.latch with consecutiveFailures := 0 }, s.calls.set i .returned,
      s.order ++ [.reset]⟩ := by
  have hne : CounterOp.increment ≠ .reset := by
    intro h
    cases h
  refine ⟨⟨0, .snoc_ne hne, rfl⟩, fun hflag => (h.flag hflag).snoc rfl, ?_, fun hfive => ?_⟩
  · intro old hmem hdecides
    rcases List.mem_or_eq_of_mem_set hmem with hmem | heq
    · exact (h.pending old hmem hdecides).snoc rfl
    · cases heq
  · have hbefore : s.FiveInARow :=
      Classical.byContradiction fun hnone => List.not_run_snoc_ne hnone hne hfive
    refine (h.owed hbefore).imp id fun howed => ?_
    obtain ⟨old, hmem, hdecides⟩ := howed
    exact ⟨old, mem_set_of_ne hmem hi (by intro h; cases h), hdecides⟩

/-- The test of a caller: what it owes is paid, and nothing else is. -/
theorem test {old : UInt32} (h : s.Latched) (hi : s.calls[i]? = some (.counted old))
    {flag : Bool} (hflag : flag = true ↔ s.latch.degradedMode = true ∨ Decides old) :
    Latched ⟨{ s.latch with degradedMode := flag }, s.calls.set i .returned, s.order⟩ := by
  have hmem : .counted old ∈ s.calls := List.mem_of_getElem? hi
  refine ⟨h.streak, fun hset => ?_, fun old' hmem' hdecides => ?_, fun hfive => ?_⟩
  · exact (hflag.1 hset).elim h.flag (h.pending old hmem)
  · rcases List.mem_or_eq_of_mem_set hmem' with hmem' | heq
    · exact h.pending old' hmem' hdecides
    · cases heq
  · by_cases hset : flag = true
    · exact .inl hset
    · rcases h.owed hfive with hset' | ⟨old', hmem', hdecides⟩
      · exact absurd (hflag.2 (.inl hset')) hset
      · refine .inr ⟨old', mem_set_of_ne hmem' hi ?_, hdecides⟩
        intro heq
        cases heq
        exact hset (hflag.2 (.inr hdecides))

/-- Each atomic step keeps the account. -/
theorem step (h : s.Latched) (i : Nat) : (s.step i).Latched := by
  rcases step_cases s i with heq | ⟨hi, heq⟩ | ⟨hi, heq⟩ | ⟨old, hi, ⟨hdecides, heq⟩ | ⟨hnot, heq⟩⟩
  · rw [heq]
    exact h
  · rw [heq]
    exact h.increment hi
  · rw [heq]
    exact h.reset hi
  · rw [heq]
    exact h.test hi ⟨fun _ => .inr hdecides, fun _ => rfl⟩
  · rw [heq]
    exact h.test hi ⟨.inl, fun hor => hor.resolve_right hnot⟩

theorem run (h : s.Latched) (schedule : List Nat) : (s.run schedule).Latched := by
  induction schedule generalizing s with
  | nil => exact h
  | cons i schedule ih => exact ih (h.step i)

end Latched

/-- No step takes the flag down. -/
theorem step_degraded (h : s.latch.degradedMode = true) (i : Nat) :
    (s.step i).latch.degradedMode = true := by
  rcases step_cases s i with heq | ⟨hi, heq⟩ | ⟨hi, heq⟩ | ⟨old, hi, ⟨hdecides, heq⟩ | ⟨hnot, heq⟩⟩
  · rw [heq]
    exact h
  · rw [heq]
    exact h
  · rw [heq]
    exact h
  · rw [heq]
  · rw [heq]
    exact h

theorem run_degraded (h : s.latch.degradedMode = true) (schedule : List Nat) :
    (s.run schedule).latch.degradedMode = true := by
  induction schedule generalizing s with
  | nil => exact h
  | cons i schedule ih => exact ih (step_degraded h i)

/-- Once all calls have returned the flag is up exactly when some five increments of the counter
had no reset between them, and a flag that is up stays up. -/
theorem run_latched (attempts : List Attempt) (schedule : List Nat) :
    ((∀ call ∈ ((start attempts).run schedule).calls, call = .returned) →
      (((start attempts).run schedule).latch.degradedMode = true ↔
        List.replicate 5 CounterOp.increment <:+: ((start attempts).run schedule).order)) ∧
    ∀ later, ((start attempts).run schedule).latch.degradedMode = true →
      ((start attempts).run (schedule ++ later)).latch.degradedMode = true := by
  have hlatched := (start_latched attempts).run schedule
  refine ⟨fun hreturned => ⟨hlatched.flag, fun hfive => ?_⟩, fun later hflag => ?_⟩
  · refine (hlatched.owed hfive).resolve_right fun howed => ?_
    obtain ⟨old, hmem, -⟩ := howed
    cases hreturned _ hmem
  · have hrun : (start attempts).run (schedule ++ later) =
        ((start attempts).run schedule).run later := List.foldl_append
    rw [hrun]
    exact run_degraded hflag later

/-- A success that lands between the fifth increment and the store: the counter is down, the flag
is up. -/
theorem run_latched_race :
    ((start [.failure, .failure, .failure, .failure, .failure, .success]).run
      [0, 1, 2, 3, 4, 5, 0, 1, 2, 3, 4]).latch.degradedMode = true ∧
    ((start [.failure, .failure, .failure, .failure, .failure, .success]).run
      [0, 1, 2, 3, 4, 5, 0, 1, 2, 3, 4]).latch.consecutiveFailures = 0 :=
  ⟨((run_latched _ _).1 (by decide)).2 ⟨[], [.reset], rfl⟩, rfl⟩

/-! ## The calls of the downloader -/

/-- A call that nothing comes between. -/
def alone (attempt : Attempt) (latch : Latch) : Latch :=
  ((⟨latch, [.begun attempt], []⟩ : Recordings).run [0, 0]).latch

theorem alone_failure (latch : Latch) : alone .failure latch = latch.failed := by
  show (Recordings.step ⟨_, [.counted latch.consecutiveFailures], _⟩ 0).latch = _
  simp only [step, List.getElem?_cons_zero, Recording.step]
  unfold Latch.failed
  split
  · next hmany => rw [decide_eq_true hmany, Bool.or_true]
  · next hfew => rw [decide_eq_false hfew, Bool.or_false]

/-- Alone, the steps of a call are the call. -/
theorem recordFailure_alone (E : Externals) (d : SynqroDownloader) (w : World) :
    (Comp.after (d.recordFailure E) w).latch = alone .failure w.latch := by
  obtain ⟨w', hrun, hcounted⟩ := d.recordFailure_counted (E := E) w
  rw [Comp.after, hrun, Comp.final_ok, hcounted.latch, alone_failure]

theorem recordSuccess_alone (w : World) :
    (Comp.after SynqroDownloader.recordSuccess w).latch = alone .success w.latch := rfl

end Recordings

end Synqro
