import MeshCore.Grpc.Queue

/-!
# The delay between retries

The delay before retry `n` is meant to be `base_retry_interval * 2^(n-1)`, and
`max_retry_interval` at most. The code takes the minimum last. Before that, `2_u32.pow` has to
fit 32 bits and the product has to be a `Duration`. `retryDelayChecked` is the computation with
both checks; it gives the exact delay for `n` at most 32 as long as the product is below the
largest `Duration`, and nothing else (`backoff_exact_iff`).

Mirroring notes:
- A debug build panics where `retryDelayChecked` gives nothing. A release build panics on the
  product, and lets the power wrap to zero; that is `retryDelay`.
-/

namespace MeshCore.Grpc

namespace MessageQueue

/-- `2_u32.pow`, where it does not overflow. -/
def checkedPow (exp : Nat) : Option Nat := if 2 ^ exp < 2 ^ 32 then some (2 ^ exp) else none

/-- The nanoseconds from which on a product is no `Duration`: its seconds are a `u64`. -/
def durationLimit : Nat := 2 ^ 64 * nanosPerSec

/-- `Duration * u32`, where it does not overflow. -/
def checkedMul (duration factor : Nat) : Option Nat :=
  if duration * factor < durationLimit then some (duration * factor) else none

/-- The time until the next attempt, where nothing overflows on the way. -/
def retryDelayChecked (config : MessageQueueConfig) (retryCount : UInt32) : Option Nat := do
  let power ← checkedPow (retryCount.toNat - 1)
  let product ← checkedMul config.baseRetryInterval power
  pure (min product config.maxRetryInterval)

/-- The exact value. -/
def exactDelay (config : MessageQueueConfig) (retryCount : UInt32) : Nat :=
  min (config.baseRetryInterval * 2 ^ (retryCount.toNat - 1)) config.maxRetryInterval

/-- The delay is computed exactly, and no delay before it is longer. -/
def BackoffExact (config : MessageQueueConfig) (retryCount : UInt32) : Prop :=
  retryDelayChecked config retryCount = some (exactDelay config retryCount) ∧
    ∀ earlier ≤ retryCount, retryDelay config earlier ≤ retryDelay config retryCount

/-- When nothing overflows. -/
def DelayFits (config : MessageQueueConfig) (retryCount : UInt32) : Prop :=
  retryCount.toNat ≤ 32 ∧
    config.baseRetryInterval * 2 ^ (retryCount.toNat - 1) < durationLimit

theorem pow_lt_iff {n : Nat} : 2 ^ (n - 1) < 2 ^ 32 ↔ n ≤ 32 := by
  rw [Nat.pow_lt_pow_iff_right (by omega)]
  omega

/-- **The checked delay** is there exactly if nothing overflows, and then it is exact. -/
theorem retryDelayChecked_eq (config : MessageQueueConfig) (retryCount : UInt32) :
    (DelayFits config retryCount →
      retryDelayChecked config retryCount = some (exactDelay config retryCount)) ∧
    (¬ DelayFits config retryCount → retryDelayChecked config retryCount = none) := by
  unfold DelayFits retryDelayChecked checkedPow
  by_cases hpow : retryCount.toNat ≤ 32
  · rw [if_pos (pow_lt_iff.mpr hpow)]
    unfold checkedMul
    by_cases hmul : config.baseRetryInterval * 2 ^ (retryCount.toNat - 1) < durationLimit
    · exact ⟨fun _ => by simp [hmul, exactDelay], fun h => absurd ⟨hpow, hmul⟩ h⟩
    · exact ⟨fun h => absurd h.2 hmul, fun _ => by simp [hmul]⟩
  · rw [if_neg (mt pow_lt_iff.mp hpow)]
    exact ⟨fun h => absurd h.1 hpow, fun _ => rfl⟩

/-- Up to the 32nd retry the power does not wrap. -/
theorem retryDelay_eq_exact {config : MessageQueueConfig} {retryCount : UInt32}
    (h : retryCount.toNat ≤ 32) : retryDelay config retryCount = exactDelay config retryCount := by
  unfold retryDelay exactDelay
  rw [Nat.mod_eq_of_lt (pow_lt_iff.mpr h)]

/-- Where nothing overflows, the retry processor waits as long as the checks allow. -/
theorem retryDelayChecked_of_fits {config : MessageQueueConfig} {retryCount : UInt32}
    (h : DelayFits config retryCount) :
    retryDelayChecked config retryCount = some (retryDelay config retryCount) := by
  rw [retryDelay_eq_exact h.1]
  exact (retryDelayChecked_eq config retryCount).1 h

theorem exactDelay_mono (config : MessageQueueConfig) {m n : UInt32} (h : m ≤ n) :
    exactDelay config m ≤ exactDelay config n := by
  have hle : m.toNat - 1 ≤ n.toNat - 1 := Nat.sub_le_sub_right (UInt32.le_iff_toNat_le.mp h) 1
  unfold exactDelay
  have hmul := Nat.mul_le_mul_left config.baseRetryInterval
    (Nat.pow_le_pow_right (show 0 < 2 by omega) hle)
  omega

/-- **When the backoff is exact**: for at most 32 retries, and a product that is a
`Duration`. -/
theorem backoff_exact_iff (config : MessageQueueConfig) (retryCount : UInt32) :
    BackoffExact config retryCount ↔ DelayFits config retryCount := by
  obtain ⟨hexact, hnone⟩ := retryDelayChecked_eq config retryCount
  constructor
  · intro h
    by_contra hoverflow
    rw [BackoffExact, hnone hoverflow] at h
    exact absurd h.1 (by simp)
  · intro h
    refine ⟨hexact h, fun earlier hearlier => ?_⟩
    have hle := Nat.le_trans (UInt32.le_iff_toNat_le.mp hearlier) h.1
    rw [retryDelay_eq_exact hle, retryDelay_eq_exact h.1]
    exact exactDelay_mono config hearlier

/-- With at most 32 retries and a base interval of an hour nothing overflows. -/
theorem delayFits_of_le {config : MessageQueueConfig} {retryCount : UInt32}
    (hmax : config.maxRetryAttempts ≤ 32) (hcount : retryCount ≤ config.maxRetryAttempts)
    (hbase : config.baseRetryInterval ≤ 3600 * nanosPerSec) : DelayFits config retryCount := by
  have hle : retryCount.toNat ≤ 32 :=
    UInt32.le_iff_toNat_le.mp (UInt32.le_trans hcount hmax)
  refine ⟨hle, ?_⟩
  have hpow := pow_lt_iff.mpr hle
  have hmul := Nat.mul_le_mul hbase (Nat.le_of_lt hpow)
  refine Nat.lt_of_le_of_lt hmul ?_
  decide

/-- The defaults, with 33 attempts. -/
def longConfig : MessageQueueConfig := { MessageQueueConfig.default with maxRetryAttempts := 33 }

/-- With the defaults and 33 attempts, `2_u32.pow` overflows at the last retry. Where it
wraps, that retry comes at once, and the one before after a minute. -/
theorem backoff_overflows :
    (¬ ∀ (config : MessageQueueConfig) (retryCount : UInt32), 1 ≤ retryCount →
      retryCount ≤ config.maxRetryAttempts → BackoffExact config retryCount) ∧
    retryDelay longConfig 33 = 0 ∧ retryDelay longConfig 32 = 60 * nanosPerSec := by
  refine ⟨fun h => ?_, by decide +kernel, by decide +kernel⟩
  have hexact := (h longConfig 33 (by decide) (by decide)).1
  rw [(retryDelayChecked_eq longConfig 33).2 (fun hfits => absurd hfits.1 (by decide))] at hexact
  exact absurd hexact (by simp)

end MessageQueue

end MeshCore.Grpc
