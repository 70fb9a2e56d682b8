import Mathlib.Data.List.Infix

/-!
# Streaks

The streak of `a` at the end of a list: the copies of `a` after the last other element. A counter
that goes up with every `a` and starts again with every other element holds its length
(`List.Streak.snoc`, `List.Streak.snoc_ne`), and while it has never reached `n` the list holds no
run of `n` copies of `a` (`List.not_run_snoc`).
-/

namespace List

variable {α : Type} {a b : α} {n k : Nat} {xs : List α}

/-- Exactly `n` copies of `a` end the list. -/
structure Streak (a : α) (n : Nat) (xs : List α) : Prop where
  copies : replicate n a <:+ xs
  no_more : ¬ replicate (n + 1) a <:+ xs

theorem replicate_suffix_snoc : replicate (n + 1) a <:+ xs ++ [b] ↔
    a = b ∧ replicate n a <:+ xs := by
  rw [suffix_concat_iff]
  constructor
  · rintro (h | ⟨t, h, ht⟩)
    · cases h
    · rw [replicate_succ'] at h
      obtain ⟨rfl, hab⟩ := append_inj' h rfl
      exact ⟨singleton_inj.1 hab, ht⟩
  · rintro ⟨rfl, h⟩
    exact .inr ⟨_, replicate_succ', h⟩

theorem Streak.nil : Streak a 0 [] := ⟨suffix_refl _, fun h => absurd (suffix_nil.1 h) (by simp)⟩

/-- One more copy makes the streak longer. -/
theorem Streak.snoc (h : Streak a n xs) : Streak a (n + 1) (xs ++ [a]) :=
  ⟨replicate_suffix_snoc.2 ⟨rfl, h.copies⟩, fun hs => h.no_more (replicate_suffix_snoc.1 hs).2⟩

/-- Another element ends it. -/
theorem Streak.snoc_ne (h : a ≠ b) : Streak a 0 (xs ++ [b]) :=
  ⟨nil_suffix, fun hs => h (replicate_suffix_snoc.1 hs).1⟩

/-- A run of `n + 1` copies that was not there is one that the streak completes. -/
theorem not_run_snoc (h : ¬ replicate (n + 1) a <:+: xs) (hs : Streak a k xs) (hk : k < n) :
    ¬ replicate (n + 1) a <:+: xs ++ [a] := by
  rw [infix_concat_iff]
  rintro (hsuffix | hinfix)
  · refine hs.no_more ?_
    refine IsSuffix.trans ?_ (replicate_suffix_snoc.1 hsuffix).2
    exact ⟨replicate (n - (k + 1)) a, by rw [replicate_append_replicate]; congr 1; omega⟩
  · exact h hinfix

theorem not_run_snoc_ne (h : ¬ replicate (n + 1) a <:+: xs) (hab : a ≠ b) :
    ¬ replicate (n + 1) a <:+: xs ++ [b] := by
  rw [infix_concat_iff]
  rintro (hsuffix | hinfix)
  · exact hab (replicate_suffix_snoc.1 hsuffix).1
  · exact h hinfix

end List
