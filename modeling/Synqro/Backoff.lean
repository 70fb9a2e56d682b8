import Mathlib.Algebra.Group.Nat.Defs
import Synqro.ConfigFile

/-!
# The backoff between two attempts

The delay before a retry of the manifest fetch, in 64-bit machine arithmetic. Each operation is
related to unbounded integers first; `backoffDuration_exact` then says that the clamped shift and
the saturation never show through the cap.
-/

namespace Synqro

/-- The 64-bit number nearest to `n`. -/
def saturate (n : Nat) : UInt64 := if h : n < 2 ^ 64 then .ofNatLT n h else .ofNat (2 ^ 64 - 1)

def saturatingMul (a b : UInt64) : UInt64 := saturate (a.toNat * b.toNat)

def saturatingAdd (a b : UInt64) : UInt64 := saturate (a.toNat + b.toNat)

/-- A shift of all 64 bits or more is an overflow, which panics. -/
def checkedShl (a : UInt64) (n : UInt32) : Option UInt64 :=
  if n.toNat < 64 then some (a <<< n.toUInt64) else none

/-- What a generator draws from `low..=high`, which must not be empty. -/
def genRange (low high drawn : UInt64) : Option UInt64 :=
  if low ≤ high then some drawn else none

/-- Upper bound on the delay between two attempts. -/
def maxBackoffSecs : UInt64 := 300

/-- `base * 2^retry + jitter` seconds, capped. -/
def ConfigFile.UpdateConfig.backoffDuration (updateConfig : UpdateConfig) (jitter : UInt64)
    (retry : UInt32) : Option UInt64 := do
  let base := updateConfig.retryBackoffBaseSeconds
  let exp := saturatingMul base (← checkedShl 1 (min retry 30))
  let jitter ← genRange 0 base jitter
  return min (saturatingAdd exp jitter) maxBackoffSecs

@[simp]
theorem toNat_saturate (n : Nat) : (saturate n).toNat = min n (2 ^ 64 - 1) := by
  unfold saturate
  split
  · next h =>
    rw [UInt64.toNat_ofNatLT]
    omega
  · next h =>
    have hmax : (UInt64.ofNat (2 ^ 64 - 1)).toNat = 2 ^ 64 - 1 := rfl
    omega

theorem toNat_min (a b : UInt64) : (min a b).toNat = min a.toNat b.toNat := by
  show (if a ≤ b then a else b).toNat = _
  split
  · next h =>
    have hle : a.toNat ≤ b.toNat := h
    omega
  · next h =>
    have hle : ¬ a.toNat ≤ b.toNat := h
    omega

theorem toNat_minRetry (retry : UInt32) : (min retry 30).toNat = min retry.toNat 30 := by
  show (if retry ≤ 30 then retry else 30).toNat = _
  have hcap : (30 : UInt32).toNat = 30 := rfl
  split
  · next h =>
    have hle : retry.toNat ≤ (30 : UInt32).toNat := h
    omega
  · next h =>
    have hle : ¬ retry.toNat ≤ (30 : UInt32).toNat := h
    omega

theorem checkedShl_one {n : UInt32} (hn : n.toNat < 64) :
    ∃ factor, checkedShl 1 n = some factor ∧ factor.toNat = 2 ^ n.toNat := by
  refine ⟨1 <<< n.toUInt64, if_pos hn, ?_⟩
  have hpow : 2 ^ n.toNat < 2 ^ 64 := Nat.pow_lt_pow_right (by omega) hn
  rw [UInt64.toNat_shiftLeft, UInt32.toNat_toUInt64, Nat.mod_eq_of_lt hn]
  show 1 <<< n.toNat % 2 ^ 64 = _
  rw [Nat.one_shiftLeft, Nat.mod_eq_of_lt hpow]

/-- Past the clamp of the shift, every base but zero is over the cap already. -/
theorem cap_clamped (base retry jitter : Nat) :
    min 300 (base * 2 ^ min retry 30 + jitter) = min 300 (base * 2 ^ retry + jitter) := by
  rcases Nat.le_total retry 30 with hle | hge
  · rw [Nat.min_eq_left hle]
  · rw [Nat.min_eq_right hge]
    rcases Nat.eq_zero_or_pos base with rfl | hpos
    · rw [Nat.zero_mul, Nat.zero_mul]
    · have hclamped : 2 ^ 30 ≤ base * 2 ^ 30 := Nat.le_mul_of_pos_left _ hpos
      have hgrows : base * 2 ^ 30 ≤ base * 2 ^ retry :=
        Nat.mul_le_mul_left _ (Nat.pow_le_pow_right (by omega) hge)
      omega

theorem cap_mono (base jitter : Nat) {retry retry' : Nat} (h : retry ≤ retry') :
    min 300 (base * 2 ^ retry + jitter) ≤ min 300 (base * 2 ^ retry' + jitter) := by
  have hgrows : base * 2 ^ retry ≤ base * 2 ^ retry' :=
    Nat.mul_le_mul_left _ (Nat.pow_le_pow_right (by omega) h)
  omega

section
variable (updateConfig : ConfigFile.UpdateConfig) (jitter : UInt64)

/-- The delay as a machine number, which there is for every input. -/
theorem backoffDuration_some (retry : UInt32) :
    ∃ secs, updateConfig.backoffDuration jitter retry = some secs ∧ secs.toNat =
      min 300 (updateConfig.retryBackoffBaseSeconds.toNat * 2 ^ retry.toNat + jitter.toNat) := by
  have hclamp := toNat_minRetry retry
  obtain ⟨factor, hshl, hfactor⟩ := checkedShl_one (n := min retry 30) (by omega)
  have hrange : genRange 0 updateConfig.retryBackoffBaseSeconds jitter = some jitter :=
    if_pos (Nat.zero_le _)
  refine ⟨min (saturatingAdd (saturatingMul updateConfig.retryBackoffBaseSeconds factor) jitter)
    maxBackoffSecs, ?_, ?_⟩
  · rw [ConfigFile.UpdateConfig.backoffDuration, hshl, hrange]
    rfl
  · have hcap : maxBackoffSecs.toNat = 300 := rfl
    rw [toNat_min, saturatingAdd, saturatingMul, toNat_saturate, toNat_saturate, hfactor, hclamp,
      hcap, ← cap_clamped]
    omega

/-- The delay is the one that unbounded integers give, for every base, retry and jitter. -/
theorem backoffDuration_exact : ∃ secs : UInt32 → UInt64,
    (∀ retry, updateConfig.backoffDuration jitter retry = some (secs retry) ∧ (secs retry).toNat =
      min 300 (updateConfig.retryBackoffBaseSeconds.toNat * 2 ^ retry.toNat + jitter.toNat)) ∧
    (∀ retry retry', retry ≤ retry' → secs retry ≤ secs retry') ∧
    ∀ retry, secs retry ≤ maxBackoffSecs := by
  have hsome := backoffDuration_some updateConfig jitter
  refine ⟨fun retry => (hsome retry).choose, fun retry => (hsome retry).choose_spec, ?_, ?_⟩
  · intro retry retry' hle
    show (hsome retry).choose.toNat ≤ (hsome retry').choose.toNat
    rw [(hsome retry).choose_spec.2, (hsome retry').choose_spec.2]
    exact cap_mono _ _ hle
  · intro retry
    show (hsome retry).choose.toNat ≤ maxBackoffSecs.toNat
    rw [(hsome retry).choose_spec.2]
    exact Nat.min_le_left _ _

end

end Synqro
