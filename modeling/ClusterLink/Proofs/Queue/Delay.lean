import Mathlib.Algebra.Group.Nat.Defs
import ClusterLink.Queue.Backoff

/-! Delays in exact arithmetic. A product of a duration is taken in seconds and nanoseconds with a
carry, and stays below the limit (`Duration.nanos_mul_eq`); next to a greatest delay that bound
never shows (`Duration.nanos_mul_min`). So a delay doubles with every failure until it meets the
greatest one or the factor meets its own (`Backoff.delay_doubles`). -/

namespace ClusterLink

namespace Duration

theorem nanos_mul (d : Duration) (factor : Nat) :
    (d.mul factor).nanos = Min.min (d.nanos * factor) (limit - 1) := rfl

theorem nanos_min (a b : Duration) : (a.min b).nanos = Min.min a.nanos b.nanos := by
  unfold Duration.min
  split
  next h => exact (Nat.min_eq_left h).symm
  next h => exact (Nat.min_eq_right (Nat.le_of_not_le h)).symm

theorem nanos_eq (d : Duration) : d.nanos = d.seconds * 1000000000 + d.subsecond :=
  (Nat.div_add_mod' ..).symm

/-- A product is that of the seconds with the seconds that the nanoseconds carry over, and what the
nanoseconds leave, as long as the seconds fit; otherwise it is the greatest duration. -/
theorem nanos_mul_eq (d : Duration) (factor : Nat) : (d.mul factor).nanos =
    if d.seconds * factor + d.subsecond * factor / 1000000000 < UInt64.size then
      (d.seconds * factor + d.subsecond * factor / 1000000000) * 1000000000 +
        d.subsecond * factor % 1000000000
    else limit - 1 := by
  have hproduct : d.nanos * factor =
      d.seconds * factor * 1000000000 + d.subsecond * factor := by
    rw [d.nanos_eq, Nat.add_mul, Nat.mul_right_comm]
  have hlimit : limit = UInt64.size * 1000000000 := rfl
  rw [nanos_mul, hproduct]
  split <;> omega

/-- Beside a greatest delay a product may as well be taken without a bound. -/
theorem nanos_mul_min (d greatest : Duration) (factor : Nat) :
    ((d.mul factor).min greatest).nanos = Min.min (d.nanos * factor) greatest.nanos := by
  have hgreatest : greatest.nanos ≤ limit - 1 := Nat.le_pred_of_lt greatest.nanos_lt
  rw [nanos_min, nanos_mul, Nat.min_assoc, Nat.min_eq_right hgreatest]

end Duration

namespace Backoff

theorem factor_of_lt {failures : UInt32} (h : 31 < failures) : factor failures = 2 ^ 32 - 1 :=
  if_neg (Nat.not_lt.2 (UInt32.lt_iff_toNat_lt.1 h))

theorem factor_of_le {failures : UInt32} (h : failures ≤ 31) :
    factor failures = 2 ^ failures.toNat := by
  have hlt : failures.toNat < 32 := Nat.lt_succ_of_le (UInt32.le_iff_toNat_le.1 h)
  rw [factor, if_pos hlt, Nat.one_shiftLeft]

/-- The factor is the power of two or the greatest number of 32 bits, whichever is less. -/
theorem factor_eq (failures : UInt32) :
    factor failures = min (2 ^ failures.toNat) (2 ^ 32 - 1) := by
  by_cases h : failures ≤ 31
  · have hle : 2 ^ failures.toNat ≤ 2 ^ 31 :=
      Nat.pow_le_pow_right (by decide) (UInt32.le_iff_toNat_le.1 h)
    rw [factor_of_le h]
    omega
  · have hlt : 31 < failures := UInt32.not_le.1 h
    have hle : 2 ^ 32 ≤ 2 ^ failures.toNat :=
      Nat.pow_le_pow_right (by decide) (UInt32.lt_iff_toNat_lt.1 hlt)
    rw [factor_of_lt hlt]
    omega

theorem factor_le_factor {m n : UInt32} (h : m ≤ n) : factor m ≤ factor n := by
  have hle : 2 ^ m.toNat ≤ 2 ^ n.toNat :=
    Nat.pow_le_pow_right (by decide) (UInt32.le_iff_toNat_le.1 h)
  rw [factor_eq, factor_eq]
  omega

variable (b : Backoff)

theorem nanos_delay (failures : UInt32) : (b.delay failures).nanos =
    min (b.base.nanos * min (2 ^ failures.toNat) (2 ^ 32 - 1)) b.max.nanos := by
  rw [← factor_eq]
  exact Duration.nanos_mul_min ..

/-- The greatest factor shows beyond 31 failures only, and only below the greatest delay. -/
theorem nanos_delay_eq (failures : UInt32) : (b.delay failures).nanos =
    if failures ≤ 31 ∨ b.max.nanos ≤ b.base.nanos * (2 ^ 32 - 1) then
      min (b.base.nanos * 2 ^ failures.toNat) b.max.nanos
    else b.base.nanos * (2 ^ 32 - 1) := by
  rw [nanos_delay]
  by_cases h : failures ≤ 31
  · rw [if_pos (.inl h), ← factor_eq, factor_of_le h]
  · have hpower : 2 ^ 32 - 1 ≤ 2 ^ failures.toNat := by
      have hfactor := factor_eq failures
      rw [factor_of_lt (UInt32.not_le.1 h)] at hfactor
      omega
    have hproduct := Nat.mul_le_mul_left b.base.nanos hpower
    rw [Nat.min_eq_right hpower]
    split
    next hmax =>
      have hmax := hmax.resolve_left h
      omega
    next hmax => omega

/-- **Delays double exactly.** In whole nanoseconds and without any bound on the arithmetic, the
delay is the base times two to the number of failures, or the greatest delay if that is less; only
beyond 31 failures, and only if the base times the greatest factor is less than the greatest delay,
it stays at that product. A delay below the greatest one has not been cut anywhere. No delay passes
the greatest one, and more failures never shorten it. -/
theorem delay_doubles :
    (∀ failures : UInt32, (b.delay failures).nanos =
      if failures ≤ 31 ∨ b.max.nanos ≤ b.base.nanos * (2 ^ 32 - 1) then
        min (b.base.nanos * 2 ^ failures.toNat) b.max.nanos
      else b.base.nanos * (2 ^ 32 - 1)) ∧
    (∀ failures : UInt32, (b.delay failures).nanos < b.max.nanos →
      (b.delay failures).nanos = b.base.nanos * min (2 ^ failures.toNat) (2 ^ 32 - 1)) ∧
    (∀ failures : UInt32, (b.delay failures).nanos ≤ b.max.nanos) ∧
    ∀ m n : UInt32, m ≤ n → (b.delay m).nanos ≤ (b.delay n).nanos := by
  refine ⟨b.nanos_delay_eq, fun failures h => ?_, fun failures => ?_, fun m n h => ?_⟩
  · rw [b.nanos_delay] at h ⊢
    omega
  · rw [b.nanos_delay]
    exact Nat.min_le_right ..
  · have hproduct := Nat.mul_le_mul_left b.base.nanos (factor_le_factor h)
    rw [factor_eq, factor_eq] at hproduct
    rw [b.nanos_delay, b.nanos_delay]
    omega

/-- The greatest delay there is, and a base that stays just below it with the greatest factor. -/
theorem delay_doubles_below_the_limit :
    let b : Backoff := ⟨.ofNanos (2 ^ 32 * 1000000000 + 999999999), .ofNanos Duration.limit⟩
    (31 : UInt32) ≤ 32 ∧ (b.delay 32).nanos < b.max.nanos ∧
      (b.delay 31).nanos = min (b.base.nanos * 2 ^ 31) b.max.nanos ∧
      (b.delay 32).nanos = b.base.nanos * min (2 ^ 32) (2 ^ 32 - 1) ∧
      (b.delay 31).nanos ≤ (b.delay 32).nanos := by
  intro b
  obtain ⟨hexact, hbelow, -, hmono⟩ := b.delay_doubles
  have hle : (31 : UInt32) ≤ 32 := by decide
  have hlt : (b.delay 32).nanos < b.max.nanos := by decide +kernel
  exact ⟨hle, hlt, (hexact 31).trans (if_pos (.inl (UInt32.le_refl 31))), hbelow 32 hlt,
    hmono 31 32 hle⟩

end Backoff

end ClusterLink
