import Mathlib.Data.List.TakeWhile

/-!
# ASCII inside UTF-8

In the UTF-8 text of some characters a byte below 128 is one of the characters
(`Utf8.toNat_eq_of_mem`), so to cut the text at a NUL or to look for a control character is to do so
with its characters.
-/

namespace Utf8

theorem toNat_ofNat_of_lt {n : Nat} (h : n < 256) : (UInt8.ofNat n).toNat = n := by
  rw [UInt8.toNat_ofNat', Nat.mod_eq_of_lt h]

/-- A byte below 128 in the encoding of a character is the character. -/
theorem toNat_eq_of_mem {c : Char} {b : UInt8} (hb : b ∈ String.utf8EncodeChar c)
    (hlow : b.toNat < 128) : b.toNat = c.toNat := by
  have hhigh {n : Nat} (hn : 128 ≤ n) (hlt : n < 256) : ¬ (UInt8.ofNat n).toNat < 128 := by
    rw [toNat_ofNat_of_lt hlt]
    omega
  unfold String.utf8EncodeChar at hb
  dsimp only at hb
  split at hb
  · next hascii =>
    rw [List.mem_singleton.1 hb]
    exact toNat_ofNat_of_lt (by omega)
  · exfalso
    split at hb
    · simp only [List.mem_cons, List.not_mem_nil, or_false] at hb
      rcases hb with rfl | rfl <;> exact hhigh (by omega) (by omega) hlow
    · split at hb
      · simp only [List.mem_cons, List.not_mem_nil, or_false] at hb
        rcases hb with rfl | rfl | rfl <;> exact hhigh (by omega) (by omega) hlow
      · simp only [List.mem_cons, List.not_mem_nil, or_false] at hb
        rcases hb with rfl | rfl | rfl | rfl <;> exact hhigh (by omega) (by omega) hlow

/-- The encoding of a character that is not NUL holds no zero. -/
theorem zero_notMem {c : Char} (hc : c ≠ '\x00') : 0 ∉ String.utf8EncodeChar c := by
  intro h
  have hzero : c.toNat = ('\x00' : Char).toNat := (toNat_eq_of_mem h (by decide)).symm
  exact hc (Char.toNat_inj.1 hzero)

/-- The bytes of a text before its first zero are those of its characters before the first NUL. -/
theorem takeWhile_flatMap (cs : List Char) :
    (cs.flatMap String.utf8EncodeChar).takeWhile (· ≠ 0) =
      (cs.takeWhile (· ≠ '\x00')).flatMap String.utf8EncodeChar := by
  induction cs with
  | nil => rfl
  | cons c cs ih =>
    rw [List.flatMap_cons]
    by_cases hc : c = '\x00'
    · subst hc
      rw [List.takeWhile_cons_of_neg (by simp)]
      rfl
    · have hall : ∀ b ∈ String.utf8EncodeChar c, decide (b ≠ 0) = true := fun b hb =>
        decide_eq_true (ne_of_mem_of_not_mem hb (zero_notMem hc))
      rw [List.takeWhile_append_of_pos hall, ih, List.takeWhile_cons_of_pos (by simpa using hc),
        List.flatMap_cons]

end Utf8
