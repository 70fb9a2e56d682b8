import Mathlib.Data.List.Basic

/-!
# The last step that touches a key

Steps on a map each put a value at one key, `dst`, and clear another, `src`. What the map holds
after a run of steps is decided at each key by the last step that touches it (`Steps.get`), so a run
leaves every step's value at its `dst` and no other trace exactly when no later step undoes it and
every cleared key was free (`Steps.exact_iff`).
-/

namespace LastTouch

variable {ε κ ν : Type} [DecidableEq κ]

/-- How a step touches a key. -/
inductive Touch (ε : Type) where
  | put (e : ε)
  | cleared

variable (src dst : ε → κ)

/-- How the step `e` touches the key `k`, if it does. -/
def touch (e : ε) (k : κ) : Option (Touch ε) :=
  if k = dst e then some (.put e) else if k = src e then some .cleared else none

/-- How the last of the steps that touch the key `k` does. -/
def lastTouch : List ε → κ → Option (Touch ε)
  | [], _ => none
  | e :: es, k => (lastTouch es k).or (touch src dst e k)

/-- The steps `es` lead from the map `m` to `m'`; a step puts a value that `Value` allows it. -/
inductive Steps (Value : ε → ν → Prop) : List ε → (κ → Option ν) → (κ → Option ν) → Prop
  | nil {m : κ → Option ν} : Steps Value [] m m
  | cons {e : ε} {es : List ε} {v : ν} {m m₁ m' : κ → Option ν} : Value e v →
      (∀ k, m₁ k = if k = dst e then some v else if k = src e then none else m k) →
      Steps Value es m₁ m' → Steps Value (e :: es) m m'

variable {src dst}

/-- A key that was put to is the `dst` of its step, one that was cleared a `src`. -/
theorem of_lastTouch {es : List ε} {k : κ} {t : Touch ε} (h : lastTouch src dst es k = some t) :
    match t with
    | .put e => e ∈ es ∧ k = dst e
    | .cleared => ∃ e ∈ es, k = src e := by
  induction es with
  | nil => cases h
  | cons e es ih =>
    rcases Option.or_eq_some_iff.1 h with h | ⟨-, h⟩
    · have hin := ih h
      cases t with
      | put e' => exact ⟨.tail _ hin.1, hin.2⟩
      | cleared =>
        obtain ⟨e', he', hk⟩ := hin
        exact ⟨e', .tail _ he', hk⟩
    · unfold touch at h
      split at h
      · next hk =>
        cases h
        exact ⟨.head _, hk⟩
      split at h
      · next hk =>
        cases h
        exact ⟨e, .head _, hk⟩
      · cases h

/-- The keys of the steps are touched. -/
theorem lastTouch_ne_none {es : List ε} {e : ε} (he : e ∈ es) :
    lastTouch src dst es (dst e) ≠ none ∧ lastTouch src dst es (src e) ≠ none := by
  induction es with
  | nil => cases he
  | cons e' es ih =>
    simp only [lastTouch, ne_eq, Option.or_eq_none_iff, not_and]
    rcases List.mem_cons.1 he with rfl | he
    · refine ⟨fun _ => by simp [touch], fun _ => ?_⟩
      unfold touch
      split
      · nofun
      · simp
    · exact ⟨fun h => absurd h (ih he).1, fun h => absurd h (ih he).2⟩

variable {Value : ε → ν → Prop} {es : List ε} {m m' : κ → Option ν}

/-- What a run leaves at a key. -/
theorem Steps.get (h : Steps src dst Value es m m') (k : κ) :
    match lastTouch src dst es k with
    | none => m' k = m k
    | some .cleared => m' k = none
    | some (.put e) => ∃ v, Value e v ∧ m' k = some v := by
  induction h with
  | nil => rfl
  | @cons e es v m m₁ m' hv hstep hrest ih =>
    rw [lastTouch]
    cases hlast : lastTouch src dst es k with
    | some t =>
      rw [hlast] at ih
      cases t with
      | put e => exact ih
      | cleared => exact ih
    | none =>
      -- no later step touches the key
      rw [hlast] at ih
      rw [Option.none_or, touch]
      by_cases hd : k = dst e
      · rw [if_pos hd]
        exact ⟨v, hv, ih.trans ((hstep k).trans (if_pos hd))⟩
      by_cases hs : k = src e
      · rw [if_neg hd, if_pos hs]
        exact ih.trans ((hstep k).trans ((if_neg hd).trans (if_pos hs)))
      · rw [if_neg hd, if_neg hs]
        exact ih.trans ((hstep k).trans ((if_neg hd).trans (if_neg hs)))

/-- Every step's value is at its `dst`, and the other keys in `Inside` are as they were. -/
structure Exact (src dst : ε → κ) (Value : ε → ν → Prop) (Inside : κ → Prop) (es : List ε)
    (m m' : κ → Option ν) : Prop where
  put : ∀ e ∈ es, ∃ v, Value e v ∧ m' (dst e) = some v
  rest : ∀ k, Inside k → k ∉ es.map dst → m' k = m k

/-- No later step undoes a step, and the keys in `Inside` that are cleared only were free. -/
structure Undisturbed (src dst : ε → κ) (Same : ε → ε → Prop) (Inside : κ → Prop) (es : List ε)
    (m : κ → Option ν) : Prop where
  last : ∀ e ∈ es, ∃ e', lastTouch src dst es (dst e) = some (.put e') ∧ Same e e'
  free : ∀ e ∈ es, src e ∉ es.map dst → Inside (src e) → m (src e) = none

section
variable {Same : ε → ε → Prop} (hsame : ∀ e e' v, Value e' v → (Value e v ↔ Same e e'))
include hsame

/-- A step's value is at its `dst` when the last step that touches it puts the same there. -/
theorem Steps.put_iff {e : ε} (he : e ∈ es) (h : Steps src dst Value es m m') :
    (∃ v, Value e v ∧ m' (dst e) = some v) ↔
      ∃ e', lastTouch src dst es (dst e) = some (.put e') ∧ Same e e' := by
  have hget := h.get (dst e)
  constructor
  · rintro ⟨v, hv, hm'⟩
    cases hlast : lastTouch src dst es (dst e) with
    | none => exact absurd hlast (lastTouch_ne_none he).1
    | some t =>
      rw [hlast] at hget
      cases t with
      | cleared =>
        have hnone := hm'.symm.trans hget
        cases hnone
      | put e' =>
        obtain ⟨v', hv', hm''⟩ := hget
        cases hm'.symm.trans hm''
        exact ⟨e', rfl, (hsame e e' v hv').1 hv⟩
  · rintro ⟨e', he', hsames⟩
    rw [he'] at hget
    obtain ⟨v, hv, hm'⟩ := hget
    exact ⟨v, (hsame e e' v hv).2 hsames, hm'⟩

omit hsame in
/-- The keys that no step puts to are as they were when those that are cleared were free. -/
theorem Steps.rest_iff {Inside : κ → Prop} (h : Steps src dst Value es m m') :
    (∀ k, Inside k → k ∉ es.map dst → m' k = m k) ↔
      ∀ e ∈ es, src e ∉ es.map dst → Inside (src e) → m (src e) = none := by
  constructor
  · intro hrest e he hlisted hinside
    have hget := h.get (src e)
    cases hlast : lastTouch src dst es (src e) with
    | none => exact absurd hlast (lastTouch_ne_none he).2
    | some t =>
      rw [hlast] at hget
      cases t with
      | cleared => exact (hrest _ hinside hlisted).symm.trans hget
      | put e' =>
        obtain ⟨he', hk⟩ := of_lastTouch hlast
        exact absurd (List.mem_map.2 ⟨e', he', hk.symm⟩) hlisted
  · intro hfree k hinside hlisted
    have hget := h.get k
    cases hlast : lastTouch src dst es k with
    | none =>
      rw [hlast] at hget
      exact hget
    | some t =>
      rw [hlast] at hget
      cases t with
      | cleared =>
        obtain ⟨e, he, rfl⟩ := of_lastTouch hlast
        exact hget.trans (hfree e he hlisted hinside).symm
      | put e =>
        obtain ⟨he, hk⟩ := of_lastTouch hlast
        exact absurd (List.mem_map.2 ⟨e, he, hk.symm⟩) hlisted

end

/-! ## Runs that are taken up again -/

section
variable {Same : ε → ε → Prop} {Inside : κ → Prop} {n : κ → Option ν}

omit [DecidableEq κ] in
theorem Exact.congr (h : Exact src dst Value Inside es m m') (hagree : ∀ k, Inside k → n k = m k) :
    Exact src dst Value Inside es n m' :=
  ⟨h.put, fun k hk hlisted => (h.rest k hk hlisted).trans (hagree k hk).symm⟩

theorem Undisturbed.congr (h : Undisturbed src dst Same Inside es m)
    (hagree : ∀ k, Inside k → n k = m k) : Undisturbed src dst Same Inside es n :=
  ⟨h.last, fun e he hlisted hinside => (hagree _ hinside).trans (h.free e he hlisted hinside)⟩

end

end LastTouch
