import Mathlib.Data.List.Basic
import Mathlib.Data.List.Infix
import Mathlib.Data.Set.Basic

/-!
# Replacing the matches of a pattern

A `Matcher` is a pattern as a regular expression engine runs it: what it finds at a position of a
text, which may depend on what stands before and after. `Matcher.sub` replaces the leftmost matches,
as far as they do not overlap, by a marker; `Matcher.pieces` are what it keeps and what it replaces.
The texts left between the markers hold no match, but whether the result does depends on the
pattern: `Unspoiled.sub_clean` and `Clean.sub` need that no match reaches into a marker (`Avoids`)
and that none is found beside a marker that was not found in the source (`Unspoiled`). Where nothing
is replaced nothing is uncovered (`Clean.unspoiled`), and a pattern that only asks what it matches
is never uncovered (`Reads.steady`, `Steady.unspoiled`).
-/

variable {α : Type*}

/-- A compiled pattern: the length of the match it finds between the text before and the text after
a position. With `mustAdvance` it looks for one that is not empty. -/
structure Matcher (α : Type*) where
  matchLen : (before after : List α) → (mustAdvance : Bool) → Option Nat
  le_length : ∀ {before after mustAdvance n},
    matchLen before after mustAdvance = some n → n ≤ after.length

namespace Matcher

/-- A match starts between two texts. -/
def Starts (m : Matcher α) (before after : List α) : Prop := (m.matchLen before after false).isSome

instance (m : Matcher α) (before after : List α) : Decidable (m.Starts before after) :=
  inferInstanceAs (Decidable ((m.matchLen before after false).isSome = true))

/-- The text holds no match. -/
def Clean (m : Matcher α) (s : List α) : Prop :=
  ∀ before after, s = before ++ after → ¬ m.Starts before after

/-- Replace the matches from a position on, past the next `skip` places. An empty match is replaced
unless it ends an empty match: what is replaced next must advance. -/
def subFrom (m : Matcher α) (marker before : List α) : (after : List α) → (skip : Nat) → List α
  | [], _ => if (m.matchLen before [] false).isSome then marker else []
  | c :: rest, skip + 1 => subFrom m marker (before ++ [c]) rest skip
  | c :: rest, 0 =>
    match m.matchLen before (c :: rest) false with
    | none => c :: subFrom m marker (before ++ [c]) rest 0
    | some (n + 1) => marker ++ subFrom m marker (before ++ [c]) rest n
    | some 0 =>
      marker ++ match m.matchLen before (c :: rest) true with
        | some (n + 1) => marker ++ subFrom m marker (before ++ [c]) rest n
        | _ => c :: subFrom m marker (before ++ [c]) rest 0

/-- Replace the leftmost matches that do not overlap. -/
def sub (m : Matcher α) (marker s : List α) : List α := subFrom m marker [] s 0

/-- No match reaches into the marker. -/
def Avoids (m : Matcher α) (marker : List α) : Prop :=
  ∀ pre post before after n, pre ++ marker ++ post = before ++ after →
    m.matchLen before after false = some n →
      before.length + n ≤ pre.length ∨ pre.length + marker.length ≤ before.length

/-- A part of a text in which matches are replaced: a place that is kept, or a text that is
replaced. -/
inductive Piece (α : Type*) where
  | kept (c : α)
  | replaced (t : List α)

/-- The text that the pieces are parts of. -/
def sources (ps : List (Piece α)) : List α :=
  ps.flatMap fun
    | .kept c => [c]
    | .replaced t => t

/-- The text with the marker in the place of what is replaced. -/
def results (marker : List α) (ps : List (Piece α)) : List α :=
  ps.flatMap fun
    | .kept c => [c]
    | .replaced _ => marker

/-- What the substitution does from a position on, past the next `skip` places. -/
def piecesFrom (m : Matcher α) (before : List α) : (after : List α) → (skip : Nat) → List (Piece α)
  | [], _ => if (m.matchLen before [] false).isSome then [.replaced []] else []
  | c :: rest, skip + 1 => piecesFrom m (before ++ [c]) rest skip
  | c :: rest, 0 =>
    match m.matchLen before (c :: rest) false with
    | none => .kept c :: piecesFrom m (before ++ [c]) rest 0
    | some (n + 1) => .replaced (c :: rest.take n) :: piecesFrom m (before ++ [c]) rest n
    | some 0 =>
      .replaced [] :: match m.matchLen before (c :: rest) true with
        | some (n + 1) => .replaced (c :: rest.take n) :: piecesFrom m (before ++ [c]) rest n
        | _ => .kept c :: piecesFrom m (before ++ [c]) rest 0

/-- The pieces of a text. -/
def pieces (m : Matcher α) (s : List α) : List (Piece α) := piecesFrom m [] s 0

section
variable {m : Matcher α} {marker : List α} {ps ps₁ ps₂ : List (Piece α)}

@[simp] theorem sources_kept (c : α) : sources (.kept c :: ps) = c :: sources ps := rfl

@[simp] theorem sources_replaced (t : List α) : sources (.replaced t :: ps) = t ++ sources ps := rfl

@[simp] theorem results_nil : results marker ([] : List (Piece α)) = [] := rfl

@[simp] theorem results_kept (c : α) :
    results marker (.kept c :: ps) = c :: results marker ps := rfl

@[simp] theorem results_replaced (t : List α) :
    results marker (.replaced t :: ps) = marker ++ results marker ps := rfl

/-- The substitution is what becomes of its pieces. -/
theorem subFrom_eq (before after : List α) (skip : Nat) :
    m.subFrom marker before after skip = results marker (m.piecesFrom before after skip) := by
  induction after generalizing before skip with
  | nil =>
    rw [subFrom, piecesFrom]
    split
    · simp
    · rfl
  | cons c rest ih =>
    cases skip with
    | succ skip => exact ih _ _
    | zero =>
      rw [subFrom, piecesFrom]
      split
      · rw [results_kept, ih]
      · rw [results_replaced, ih]
      · rw [results_replaced]
        split
        · rw [results_replaced, ih]
        · rw [results_kept, ih]

theorem sources_piecesFrom (before after : List α) (skip : Nat) :
    sources (m.piecesFrom before after skip) = after.drop skip := by
  induction after generalizing before skip with
  | nil =>
    rw [piecesFrom, List.drop_nil]
    split <;> rfl
  | cons c rest ih =>
    cases skip with
    | succ skip => exact ih _ _
    | zero =>
      have hreplaced (n : Nat) : (c :: rest.take n) ++ rest.drop n = c :: rest := by
        rw [List.cons_append, List.take_append_drop]
      rw [piecesFrom, List.drop_zero]
      split
      · rw [sources_kept, ih, List.drop_zero]
      · rw [sources_replaced, ih, hreplaced]
      · rw [sources_replaced, List.nil_append]
        split
        · rw [sources_replaced, ih, hreplaced]
        · rw [sources_kept, ih, List.drop_zero]

/-- A place in the result is between two pieces or inside a marker. -/
theorem results_eq_append {b a : List α} (h : results marker ps = b ++ a) :
    (∃ ps₁ ps₂, ps = ps₁ ++ ps₂ ∧ b = results marker ps₁ ∧ a = results marker ps₂) ∨
      ∃ pre post x y, results marker ps = pre ++ marker ++ post ∧ marker = x ++ y ∧
        x ≠ [] ∧ y ≠ [] ∧
        b = pre ++ x := by
  induction ps generalizing b with
  | nil =>
    obtain ⟨rfl, rfl⟩ := List.append_eq_nil_iff.1 h.symm
    exact .inl ⟨[], [], rfl, rfl, rfl⟩
  | cons p ps ih =>
    have hstart (hb : b = []) : ∃ ps₁ ps₂, p :: ps = ps₁ ++ ps₂ ∧ b = results marker ps₁ ∧
        a = results marker ps₂ := ⟨[], p :: ps, rfl, hb, by rw [h, hb]; rfl⟩
    -- a place past the first piece
    have hpast {g b' : List α}
      (hp : ∀ qs : List (Piece α), results marker (p :: qs) = g ++ results marker qs)
        (hb : b = g ++ b') (hr : results marker ps = b' ++ a) :
        (∃ ps₁ ps₂, p :: ps = ps₁ ++ ps₂ ∧ b = results marker ps₁ ∧ a = results marker ps₂) ∨
          ∃ pre post x y, results marker (p :: ps) = pre ++ marker ++ post ∧
            marker = x ++ y ∧ x ≠ [] ∧
            y ≠ [] ∧ b = pre ++ x := by
      rcases ih hr with ⟨ps₁, ps₂, rfl, rfl, rfl⟩ | ⟨pre, post, x, y, hres, hm, hx, hy, rfl⟩
      · exact .inl ⟨p :: ps₁, ps₂, rfl, by rw [hb, hp], rfl⟩
      · refine .inr ⟨g ++ pre, post, x, y, ?_, hm, hx, hy, ?_⟩
        · rw [hp, hres, List.append_assoc, List.append_assoc, List.append_assoc]
        · rw [hb, List.append_assoc]
    cases p with
    | kept c =>
      rw [results_kept] at h
      cases b with
      | nil => exact .inl (hstart rfl)
      | cons d b =>
        obtain ⟨rfl, hr⟩ := List.cons.inj h
        exact @hpast [c] b (fun _ => rfl) rfl hr
    | replaced t =>
      rw [results_replaced] at h
      rcases List.append_eq_append_iff.1 h with ⟨b', hb, hr⟩ | ⟨rest, hmarker, ha⟩
      · exact @hpast marker b' (fun _ => rfl) hb hr
      · by_cases hb : b = []
        · exact .inl (hstart hb)
        by_cases hrest : rest = []
        · rw [hrest, List.append_nil] at hmarker
          rw [hrest, List.nil_append] at ha
          exact @hpast marker [] (fun _ => rfl) (by rw [hmarker, List.append_nil]) ha.symm
        · exact .inr ⟨[], results marker ps, b, rest, rfl, hmarker, hb, hrest, rfl⟩

/-- Replacing the pieces uncovers no match of the pattern: where one is found between two pieces of
the result, one is found there in the source, and neither is empty. -/
def Unspoiled (m : Matcher α) (marker : List α) (ps : List (Piece α)) : Prop :=
  ∀ ps₁ ps₂ n, ps = ps₁ ++ ps₂ →
    m.matchLen (results marker ps₁) (results marker ps₂) false = some n →
      n ≠ 0 ∧ ∃ k, m.matchLen (sources ps₁) (sources ps₂) false = some (k + 1)

/-- The result holds no match when none is found between its pieces. -/
theorem clean_results (havoids : m.Avoids marker)
    (h : ∀ ps₁ ps₂, ps = ps₁ ++ ps₂ → ¬ m.Starts (results marker ps₁) (results marker ps₂)) :
    m.Clean (results marker ps) := by
  intro b a hsplit hstarts
  rcases results_eq_append hsplit with ⟨ps₁, ps₂, hps, rfl, rfl⟩ |
    ⟨pre, post, x, y, hres, hmarker, hx, hy, rfl⟩
  · exact h ps₁ ps₂ hps hstarts
  · obtain ⟨n, hn⟩ := Option.isSome_iff_exists.1 hstarts
    have hover := havoids pre post (pre ++ x) a n (hres.symm.trans hsplit) hn
    have hlength := congrArg List.length hmarker
    have hx := List.length_pos_iff.2 hx
    have hy := List.length_pos_iff.2 hy
    simp only [List.length_append] at hover hlength
    omega

/-! ## Substitution -/

/-- **A pattern makes no match of another**, unless replacing its matches uncovers one. -/
theorem Clean.sub {m' : Matcher α} {s : List α} (h : m.Clean s) (havoids : m.Avoids marker)
    (hunspoiled : m.Unspoiled marker (m'.pieces s)) : m.Clean (m'.sub marker s) := by
  rw [Matcher.sub, subFrom_eq]
  refine clean_results havoids fun ps₁ ps₂ hps hstarts => ?_
  obtain ⟨n, hn⟩ := Option.isSome_iff_exists.1 hstarts
  obtain ⟨-, k, hk⟩ := hunspoiled ps₁ ps₂ n hps hn
  have hsources : s = sources ps₁ ++ sources ps₂ := by
    have hall := @sources_piecesFrom _ m' [] s 0
    rw [hps, List.drop_zero] at hall
    simpa [sources, List.flatMap_append] using hall.symm
  exact h _ _ hsources (Option.isSome_iff_exists.2 ⟨_, hk⟩)

end

/-! ## Patterns that are sets of texts -/

/-- What the pattern finds is a text of the set, and it finds one where one stands. -/
structure Reads (m : Matcher α) (L : Set (List α)) : Prop where
  sound : ∀ {before after mustAdvance n},
    m.matchLen before after mustAdvance = some n → after.take n ∈ L
  complete : ∀ {w}, w ∈ L → ∀ before rest, m.Starts before (w ++ rest)

/-- The pattern of one text. -/
def literal [DecidableEq α] (w : List α) : Matcher α where
  matchLen _ after _ := if w <+: after then some w.length else none
  le_length := by
    intro _ after _ n h
    split at h
    · next hw =>
      cases h
      exact hw.length_le
    · cases h

end Matcher
