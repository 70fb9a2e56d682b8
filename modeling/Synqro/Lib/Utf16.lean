import Mathlib.Data.List.Basic

/-!
# UTF-16

A text as code units: characters above the first 2^16 are pairs of surrogates. `Utf16.decode` is
total, as it is in languages whose strings are code units: half a pair alone stands for U+FFFD. What
was encoded is decoded (`Utf16.decode_encode`), and a text takes no more units than it takes bytes
in UTF-8 (`Utf16.length_encode_le`).
-/

namespace Utf16

def isHigh (u : UInt16) : Bool := 0xd800 ≤ u.toNat && u.toNat < 0xdc00

def isLow (u : UInt16) : Bool := 0xdc00 ≤ u.toNat && u.toNat < 0xe000

/-- The character of a unit by itself. -/
def single (u : UInt16) : Char := if isHigh u || isLow u then '\ufffd' else Char.ofNat u.toNat

/-- The character of a pair of surrogates. -/
def paired (u v : UInt16) : Char :=
  Char.ofNat (0x10000 + (u.toNat - 0xd800) * 0x400 + (v.toNat - 0xdc00))

/-- The characters of some units. -/
def decode : List UInt16 → List Char
  | [] => []
  | [u] => [single u]
  | u :: v :: us =>
    if isHigh u && isLow v then paired u v :: decode us else single u :: decode (v :: us)

/-- The units of a character. -/
def encodeChar (c : Char) : List UInt16 :=
  if c.toNat < 0x10000 then [UInt16.ofNat c.toNat]
  else [UInt16.ofNat (0xd800 + (c.toNat - 0x10000) / 0x400),
    UInt16.ofNat (0xdc00 + (c.toNat - 0x10000) % 0x400)]

/-- The units of some characters. -/
def encode (cs : List Char) : List UInt16 := cs.flatMap encodeChar

theorem toNat_ofNat_of_lt {n : Nat} (h : n < 65536) : (UInt16.ofNat n).toNat = n := by
  rw [UInt16.toNat_ofNat', Nat.mod_eq_of_lt h]

/-- A unit that starts no pair is decoded on its own. -/
theorem decode_cons {u : UInt16} (hu : isHigh u = false) (us : List UInt16) :
    decode (u :: us) = single u :: decode us := by
  cases us with
  | nil => rfl
  | cons v us => rw [decode, hu, Bool.false_and, if_neg Bool.false_ne_true]

/-- Two halves of a pair are decoded together. -/
theorem decode_pair {u v : UInt16} (hu : isHigh u = true) (hv : isLow v = true) (us : List UInt16) :
    decode (u :: v :: us) = paired u v :: decode us := by
  rw [decode, hu, hv, Bool.and_self, if_pos rfl]

/-- A character of a single unit is no surrogate. -/
theorem decode_single {c : Char} (hc : c.toNat < 0x10000) (us : List UInt16) :
    decode (UInt16.ofNat c.toNat :: us) = c :: decode us := by
  have hvalid : c.toNat < 0xd800 ∨ 0xdfff < c.toNat ∧ c.toNat < 0x110000 := c.valid
  have hhigh : isHigh (UInt16.ofNat c.toNat) = false := by
    rw [isHigh, toNat_ofNat_of_lt (by omega), Bool.and_eq_false_iff, decide_eq_false_iff_not,
      decide_eq_false_iff_not]
    omega
  have hlow : isLow (UInt16.ofNat c.toNat) = false := by
    rw [isLow, toNat_ofNat_of_lt (by omega), Bool.and_eq_false_iff, decide_eq_false_iff_not,
      decide_eq_false_iff_not]
    omega
  rw [decode_cons hhigh, single, hhigh, hlow, Bool.or_self, if_neg Bool.false_ne_true,
    toNat_ofNat_of_lt (by omega), Char.ofNat_toNat]

theorem decode_encodeChar (c : Char) (us : List UInt16) :
    decode (encodeChar c ++ us) = c :: decode us := by
  have hvalid : c.toNat < 0xd800 ∨ 0xdfff < c.toNat ∧ c.toNat < 0x110000 := c.valid
  unfold encodeChar
  split
  · next hc => exact decode_single hc us
  · next hc =>
    have hhigh := toNat_ofNat_of_lt (n := 0xd800 + (c.toNat - 0x10000) / 0x400) (by omega)
    have hlow := toNat_ofNat_of_lt (n := 0xdc00 + (c.toNat - 0x10000) % 0x400) (by omega)
    rw [List.cons_append, List.singleton_append, decode_pair, paired, hhigh, hlow]
    · have hsum : 0x10000 + (0xd800 + (c.toNat - 0x10000) / 0x400 - 0xd800) * 0x400 +
          (0xdc00 + (c.toNat - 0x10000) % 0x400 - 0xdc00) = c.toNat := by omega
      rw [hsum, Char.ofNat_toNat]
    · rw [isHigh, hhigh, Bool.and_eq_true, decide_eq_true_eq, decide_eq_true_eq]
      omega
    · rw [isLow, hlow, Bool.and_eq_true, decide_eq_true_eq, decide_eq_true_eq]
      omega

/-- The units of a text are read back as the text. -/
theorem decode_encode (cs : List Char) : decode (encode cs) = cs := by
  induction cs with
  | nil => rfl
  | cons c cs ih => rw [encode, List.flatMap_cons, decode_encodeChar, ← encode, ih]

/-- Texts with the same units are the same. -/
theorem encode_inj {cs ds : List Char} (h : encode cs = encode ds) : cs = ds := by
  rw [← decode_encode cs, h, decode_encode]

/-- A character has no more units than bytes. -/
theorem length_encodeChar_le (c : Char) :
    (encodeChar c).length ≤ (String.utf8EncodeChar c).length := by
  have hval : c.val.toNat = c.toNat := rfl
  unfold encodeChar String.utf8EncodeChar
  dsimp only
  rw [hval]
  split
  · split
    · exact Nat.le_refl _
    · split
      · exact Nat.le_succ _
      · split <;> exact Nat.succ_le_succ (Nat.zero_le _)
  · next hc =>
    rw [if_neg (by omega), if_neg (by omega), if_neg (by omega)]
    exact Nat.le_add_left _ _

/-- A text has no more units than bytes in UTF-8. -/
theorem length_encode_le (cs : List Char) :
    (encode cs).length ≤ (cs.flatMap String.utf8EncodeChar).length := by
  induction cs with
  | nil => exact Nat.le_refl _
  | cons c cs ih =>
    rw [encode, List.flatMap_cons, List.flatMap_cons, List.length_append, List.length_append]
    exact Nat.add_le_add (length_encodeChar_le c) ih

end Utf16
