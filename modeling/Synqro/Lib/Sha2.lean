import Mathlib.Algebra.Group.Nat.Defs
import Synqro.Lib.FileTree

/-!
# SHA-2, HMAC and HKDF

The hashes SHA-256 and SHA-512 of FIPS 180-4 on words as natural numbers, one `Variant` each, the
tag of RFC 2104 and the key derivation of RFC 5869 with SHA-256.
-/

namespace Sha2

/-- What the hashes of the family differ in: the bytes of a word, the rotations of the two big
and the two small mixing functions (the last of a small one is a shift), the round constants and
the initial hash. -/
structure Variant where
  wordBytes : Nat
  bigA : Nat × Nat × Nat
  bigE : Nat × Nat × Nat
  small₀ : Nat × Nat × Nat
  small₁ : Nat × Nat × Nat
  constants : List Nat
  initial : List Nat

def sha256 : Variant where
  wordBytes := 4
  bigA := (2, 13, 22)
  bigE := (6, 11, 25)
  small₀ := (7, 18, 3)
  small₁ := (17, 19, 10)
  constants := [
    0x428a2f98, 0x71374491, 0xb5c0fbcf, 0xe9b5dba5, 0x3956c25b, 0x59f111f1, 0x923f82a4, 0xab1c5ed5,
    0xd807aa98, 0x12835b01, 0x243185be, 0x550c7dc3, 0x72be5d74, 0x80deb1fe, 0x9bdc06a7, 0xc19bf174,
    0xe49b69c1, 0xefbe4786, 0x0fc19dc6, 0x240ca1cc, 0x2de92c6f, 0x4a7484aa, 0x5cb0a9dc, 0x76f988da,
    0x983e5152, 0xa831c66d, 0xb00327c8, 0xbf597fc7, 0xc6e00bf3, 0xd5a79147, 0x06ca6351, 0x14292967,
    0x27b70a85, 0x2e1b2138, 0x4d2c6dfc, 0x53380d13, 0x650a7354, 0x766a0abb, 0x81c2c92e, 0x92722c85,
    0xa2bfe8a1, 0xa81a664b, 0xc24b8b70, 0xc76c51a3, 0xd192e819, 0xd6990624, 0xf40e3585, 0x106aa070,
    0x19a4c116, 0x1e376c08, 0x2748774c, 0x34b0bcb5, 0x391c0cb3, 0x4ed8aa4a, 0x5b9cca4f, 0x682e6ff3,
    0x748f82ee, 0x78a5636f, 0x84c87814, 0x8cc70208, 0x90befffa, 0xa4506ceb, 0xbef9a3f7, 0xc67178f2]
  initial := [
    0x6a09e667, 0xbb67ae85, 0x3c6ef372, 0xa54ff53a, 0x510e527f, 0x9b05688c, 0x1f83d9ab, 0x5be0cd19]

def sha512 : Variant where
  wordBytes := 8
  bigA := (28, 34, 39)
  bigE := (14, 18, 41)
  small₀ := (1, 8, 7)
  small₁ := (19, 61, 6)
  constants := [
    0x428a2f98d728ae22, 0x7137449123ef65cd, 0xb5c0fbcfec4d3b2f, 0xe9b5dba58189dbbc,
    0x3956c25bf348b538, 0x59f111f1b605d019, 0x923f82a4af194f9b, 0xab1c5ed5da6d8118,
    0xd807aa98a3030242, 0x12835b0145706fbe, 0x243185be4ee4b28c, 0x550c7dc3d5ffb4e2,
    0x72be5d74f27b896f, 0x80deb1fe3b1696b1, 0x9bdc06a725c71235, 0xc19bf174cf692694,
    0xe49b69c19ef14ad2, 0xefbe4786384f25e3, 0x0fc19dc68b8cd5b5, 0x240ca1cc77ac9c65,
    0x2de92c6f592b0275, 0x4a7484aa6ea6e483, 0x5cb0a9dcbd41fbd4, 0x76f988da831153b5,
    0x983e5152ee66dfab, 0xa831c66d2db43210, 0xb00327c898fb213f, 0xbf597fc7beef0ee4,
    0xc6e00bf33da88fc2, 0xd5a79147930aa725, 0x06ca6351e003826f, 0x142929670a0e6e70,
    0x27b70a8546d22ffc, 0x2e1b21385c26c926, 0x4d2c6dfc5ac42aed, 0x53380d139d95b3df,
    0x650a73548baf63de, 0x766a0abb3c77b2a8, 0x81c2c92e47edaee6, 0x92722c851482353b,
    0xa2bfe8a14cf10364, 0xa81a664bbc423001, 0xc24b8b70d0f89791, 0xc76c51a30654be30,
    0xd192e819d6ef5218, 0xd69906245565a910, 0xf40e35855771202a, 0x106aa07032bbd1b8,
    0x19a4c116b8d2d0c8, 0x1e376c085141ab53, 0x2748774cdf8eeb99, 0x34b0bcb5e19b48a8,
    0x391c0cb3c5c95a63, 0x4ed8aa4ae3418acb, 0x5b9cca4f7763e373, 0x682e6ff3d6b2b8a3,
    0x748f82ee5defb2fc, 0x78a5636f43172f60, 0x84c87814a1f0ab72, 0x8cc702081a6439ec,
    0x90befffa23631e28, 0xa4506cebde82bde9, 0xbef9a3f7b2c67915, 0xc67178f2e372532b,
    0xca273eceea26619c, 0xd186b8c721c0c207, 0xeada7dd6cde0eb1e, 0xf57d4f7fee6ed178,
    0x06f067aa72176fba, 0x0a637dc5a2c898a6, 0x113f9804bef90dae, 0x1b710b35131c471b,
    0x28db77f523047d84, 0x32caab7b40c72493, 0x3c9ebe0a15c9bebc, 0x431d67c49c100d4c,
    0x4cc5d4becb3e42b6, 0x597f299cfc657e2a, 0x5fcb6fab3ad6faec, 0x6c44198c4a475817]
  initial := [
    0x6a09e667f3bcc908, 0xbb67ae8584caa73b, 0x3c6ef372fe94f82b, 0xa54ff53a5f1d36f1,
    0x510e527fade682d1, 0x9b05688c2b3e6c1f, 0x1f83d9abfb41bd6b, 0x5be0cd19137e2179]

namespace Variant

variable (v : Variant)

/-- The number of words. -/
def range : Nat := 2 ^ (8 * v.wordBytes)

def word (n : Nat) : Nat := n % v.range

def rotr (k x : Nat) : Nat := (x >>> k) ||| v.word (x <<< (8 * v.wordBytes - k))

def big (r : Nat × Nat × Nat) (x : Nat) : Nat := v.rotr r.1 x ^^^ v.rotr r.2.1 x ^^^ v.rotr r.2.2 x

def small (r : Nat × Nat × Nat) (x : Nat) : Nat := v.rotr r.1 x ^^^ v.rotr r.2.1 x ^^^ (x >>> r.2.2)

/-- The working variables. -/
structure State where
  a : Nat
  b : Nat
  c : Nat
  d : Nat
  e : Nat
  f : Nat
  g : Nat
  h : Nat

def choose (e f g : Nat) : Nat := (e &&& f) ^^^ ((v.range - 1 - e) &&& g)

def majority (a b c : Nat) : Nat := (a &&& b) ^^^ (a &&& c) ^^^ (b &&& c)

/-- One round with the constant `k` and the schedule word `w`. -/
def round (s : State) (k w : Nat) : State :=
  let t₁ := s.h + v.big v.bigE s.e + v.choose s.e s.f s.g + k + w
  let t₂ := v.big v.bigA s.a + majority s.a s.b s.c
  ⟨v.word (t₁ + t₂), s.a, s.b, s.c, v.word (s.d + t₁), s.e, s.f, s.g⟩

/-- The next word of the message schedule, from the last sixteen. -/
def schedule : List Nat → Nat
  | w₀ :: w₁ :: _ :: _ :: _ :: _ :: _ :: _ :: _ :: w₉ :: _ :: _ :: _ :: _ :: w₁₄ :: _ =>
    v.word (w₀ + v.small v.small₀ w₁ + w₉ + v.small v.small₁ w₁₄)
  | _ => 0

/-- The rounds with the constants left, over a window of sixteen schedule words. -/
def rounds : List Nat → List Nat → State → State
  | k :: ks, w :: ws, s => rounds ks (ws ++ [v.schedule (w :: ws)]) (v.round s k w)
  | _, _, s => s

/-- The big-endian number of some bytes. -/
def number (bytes : List Nat) : Nat := bytes.foldl (fun n b => n * 256 + b) 0

/-- The words of some bytes, `n` of them. -/
def words : Nat → List Nat → List Nat
  | 0, _ => []
  | n + 1, bytes => number (bytes.take v.wordBytes) :: words n (bytes.drop v.wordBytes)

/-- The big-endian bytes of a number, `n` of them. -/
def bytesOf : Nat → Nat → List Nat
  | 0, _ => []
  | n + 1, x => bytesOf n (x / 256) ++ [x % 256]

/-- The bytes of a block. -/
def blockBytes : Nat := 16 * v.wordBytes

/-- The message with its end mark and length. -/
def padded (m : List Nat) : List Nat :=
  let n := m.length + 1 + 2 * v.wordBytes
  m ++ [128] ++ List.replicate ((v.blockBytes - n % v.blockBytes) % v.blockBytes) 0 ++
    bytesOf (2 * v.wordBytes) (8 * m.length)

/-- Mix one block into a hash. -/
def compress (hash block : List Nat) : List Nat :=
  match hash with
  | [a, b, c, d, e, f, g, h] =>
    let s := v.rounds v.constants (v.words 16 block) ⟨a, b, c, d, e, f, g, h⟩
    [v.word (a + s.a), v.word (b + s.b), v.word (c + s.c), v.word (d + s.d), v.word (e + s.e),
      v.word (f + s.f), v.word (g + s.g), v.word (h + s.h)]
  | _ => hash

/-- Mix `n` blocks into a hash. -/
def blocks : Nat → List Nat → List Nat → List Nat
  | 0, _, hash => hash
  | n + 1, bytes, hash =>
    blocks n (bytes.drop v.blockBytes) (v.compress hash (bytes.take v.blockBytes))

/-- The digest. -/
def hash (m : Bytes) : Bytes :=
  let p := v.padded (m.map UInt8.toNat)
  ((v.blocks (p.length / v.blockBytes) p v.initial).flatMap (bytesOf v.wordBytes)).map UInt8.ofNat

end Variant

/-- The tag of a message under a key. -/
def hmac (key m : Bytes) : Bytes :=
  let key := if 64 < key.length then sha256.hash key else key
  let key := key ++ List.replicate (64 - key.length) 0
  sha256.hash (key.map (· ^^^ 0x5c) ++ sha256.hash (key.map (· ^^^ 0x36) ++ m))

/-- The first 32 bytes derived from a secret with a salt and a label. -/
def hkdf (salt secret label : Bytes) : Bytes := hmac (hmac salt secret) (label ++ [1])

end Sha2
