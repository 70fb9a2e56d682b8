import Mathlib.Data.List.Basic

/-!
# The lines of a file

A line ends at a newline, which a carriage return may precede; the last line need not end.
`Lines.lines` is what a buffered reader yields of a file and `Lines.unlines` the file of some
lines; the one inverts the other on lines that hold no line end (`Lines.lines_unlines`).
-/

namespace Lines

/-- The pieces of a file up to and with each newline, and what follows the last one. -/
def pieces : List UInt8 → List (List UInt8)
  | [] => []
  | b :: bs =>
    if b = 10 then [b] :: pieces bs
    else
      match pieces bs with
      | [] => [[b]]
      | p :: ps => (b :: p) :: ps

/-- A piece without its line end. -/
def chomp (piece : List UInt8) : List UInt8 :=
  if piece.getLast? = some 10 then
    if piece.dropLast.getLast? = some 13 then piece.dropLast.dropLast else piece.dropLast
  else piece

/-- The lines of a file, without their ends. -/
def lines (bytes : List UInt8) : List (List UInt8) := (pieces bytes).map chomp

/-- The file of some lines, each ended by a newline. -/
def unlines (ls : List (List UInt8)) : List UInt8 := ls.flatMap (· ++ [10])

/-- The bytes are those of one line: they hold no line end. -/
def IsLine (l : List UInt8) : Prop := 10 ∉ l ∧ l.getLast? ≠ some 13

@[simp] theorem unlines_nil : unlines [] = [] := rfl

@[simp] theorem unlines_cons (l : List UInt8) (ls : List (List UInt8)) :
    unlines (l :: ls) = l ++ 10 :: unlines ls := by
  simp [unlines]

theorem pieces_append {l : List UInt8} (h : 10 ∉ l) (rest : List UInt8) :
    pieces (l ++ 10 :: rest) = (l ++ [10]) :: pieces rest := by
  induction l with
  | nil => rfl
  | cons b l ih =>
    rw [List.mem_cons, not_or] at h
    rw [List.cons_append, pieces, if_neg (Ne.symm h.1), ih h.2]
    rfl

theorem chomp_ended {l : List UInt8} (h : l.getLast? ≠ some 13) : chomp (l ++ [10]) = l := by
  rw [chomp, List.getLast?_concat, if_pos rfl, List.dropLast_concat, if_neg h]

/-- The first line of a file. -/
theorem lines_append {l : List UInt8} (h : IsLine l) (rest : List UInt8) :
    lines (l ++ 10 :: rest) = l :: lines rest := by
  rw [lines, pieces_append h.1, List.map_cons, chomp_ended h.2, lines]

/-- The lines of the file of some lines. -/
theorem lines_unlines {ls : List (List UInt8)} (h : ∀ l ∈ ls, IsLine l) :
    lines (unlines ls) = ls := by
  induction ls with
  | nil => rfl
  | cons l ls ih =>
    rw [unlines_cons, lines_append (h l (.head _)), ih fun l hl => h l (.tail _ hl)]

/-! ## Whole lines -/

/-- The file is empty or ends with a newline. -/
def Whole (bytes : List UInt8) : Prop := bytes = [] ∨ ∃ init, bytes = init ++ [10]

theorem Whole.append {a b : List UInt8} (ha : Whole a) (hb : Whole b) : Whole (a ++ b) := by
  rcases hb with rfl | ⟨init, rfl⟩
  · rwa [List.append_nil]
  · exact .inr ⟨a ++ init, (List.append_assoc ..).symm⟩

theorem pieces_append_ended (a b : List UInt8) :
    pieces (a ++ 10 :: b) = pieces (a ++ [10]) ++ pieces b := by
  induction a with
  | nil => rfl
  | cons c a ih =>
    have hne : pieces (a ++ [10]) ≠ [] := by
      cases a with
      | nil => nofun
      | cons d a =>
        rw [List.cons_append, pieces]
        split
        · nofun
        · split <;> nofun
    obtain ⟨p, ps, hp⟩ := List.exists_cons_of_ne_nil hne
    rw [List.cons_append, List.cons_append, pieces, pieces, ih, hp]
    split <;> rfl

/-- Whole lines stay the lines they are, whatever follows. -/
theorem Whole.lines_append {a : List UInt8} (ha : Whole a) (b : List UInt8) :
    lines (a ++ b) = lines a ++ lines b := by
  rcases ha with rfl | ⟨init, rfl⟩
  · rfl
  · rw [lines, List.append_assoc, List.singleton_append, pieces_append_ended, List.map_append,
      lines, lines]

end Lines
