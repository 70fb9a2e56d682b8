import Synqro.Lib.FileTree

/-!
# Base64

The standard alphabet with padding, as the `base64` crate's `STANDARD` engine reads it: four
characters spell three bytes, the last group may be padded, and bits that no byte takes are zero.
-/

namespace Base64

/-- The six bits that the character with the code `n` stands for. -/
def sextet? (n : Nat) : Option Nat :=
  if 65 ≤ n ∧ n ≤ 90 then some (n - 65)
  else if 97 ≤ n ∧ n ≤ 122 then some (n - 71)
  else if 48 ≤ n ∧ n ≤ 57 then some (n + 4)
  else if n = 43 then some 62
  else if n = 47 then some 63
  else none

/-- The bytes that the characters with the codes spell; the code of the padding is 61. -/
def decodeCodes : List Nat → Option Bytes
  | [] => some []
  | [a, b, 61, 61] => do
    let n := (← sextet? a) * 64 + (← sextet? b)
    if n % 16 = 0 then some [UInt8.ofNat (n / 16)] else none
  | [a, b, c, 61] => do
    let n := ((← sextet? a) * 64 + (← sextet? b)) * 64 + (← sextet? c)
    if n % 4 = 0 then some [UInt8.ofNat (n / 1024), UInt8.ofNat (n / 4)] else none
  | a :: b :: c :: d :: rest => do
    let n := (((← sextet? a) * 64 + (← sextet? b)) * 64 + (← sextet? c)) * 64 + (← sextet? d)
    return UInt8.ofNat (n / 65536) :: UInt8.ofNat (n / 256) :: UInt8.ofNat n ::
      (← decodeCodes rest)
  | _ => none

def decode (s : String) : Option Bytes := decodeCodes (s.toUTF8.data.toList.map UInt8.toNat)

example : decode "aGk=" = some [104, 105] := by decide +kernel

end Base64
