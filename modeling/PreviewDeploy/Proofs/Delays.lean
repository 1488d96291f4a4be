import Mathlib.Algebra.Group.Nat.Defs
import PreviewDeploy.Backoff

/-!
# The delays of a backoff

A backoff describes its delays by a formula without a bound on its numbers
(`Backoff.described`).  Saturation never shows, since no duration exceeds the longest one
(`Backoff.nanos_delay`); but the exponent stays below 32 also where the exponent's cap is higher,
and this shows as long as the delay has not come to its cap by then
(`Backoff.delay_eq_described_iff`).
-/

namespace PreviewDeploy

namespace Duration

theorem nanos_min (a b : Duration) : (min a b).nanos = min a.nanos b.nanos := by
  change (if a.nanos ≤ b.nanos then a else b).nanos = _
  split <;> omega

theorem millis_le {a b : Duration} (h : a.nanos ≤ b.nanos) : a.millis ≤ b.millis :=
  Nat.div_le_div_right h

/-- The whole milliseconds of a duration, rounded up, are not shorter, and not longer by as much as
one millisecond. -/
theorem ceilMillis_spec (d : Duration) : d.nanos ≤ d.ceilMillis * nanosPerMilli ∧
    d.ceilMillis * nanosPerMilli < d.nanos + nanosPerMilli := by
  simp only [ceilMillis, nanosPerMilli]
  omega

theorem nanos_min_saturatingMul (d cap : Duration) (k : Nat) :
    (min (d.saturatingMul k) cap).nanos = min (d.nanos * k) cap.nanos := by
  have hcap := cap.le_max
  rw [nanos_min]
  simp only [saturatingMul, saturate]
  omega

end Duration

namespace Backoff

variable (b : Backoff) {m n : UInt32}

theorem exponent_mono (h : m ≤ n) : b.exponent m ≤ b.exponent n := by
  have h : m.toNat ≤ n.toNat := h
  unfold exponent
  omega

theorem nanos_delay (n : UInt32) :
    (b.delay n).nanos = min (b.base.nanos * 2 ^ b.exponent n) b.cap.nanos :=
  Duration.nanos_min_saturatingMul b.base b.cap _

theorem product_mono {i j : Nat} (h : i ≤ j) : b.base.nanos * 2 ^ i ≤ b.base.nanos * 2 ^ j :=
  Nat.mul_le_mul_left _ (Nat.pow_le_pow_right (by decide) h)

theorem delay_mono (h : m ≤ n) : (b.delay m).nanos ≤ (b.delay n).nanos := by
  have hproduct := b.product_mono (b.exponent_mono h)
  rw [nanos_delay, nanos_delay]
  omega

theorem delay_le_cap (n : UInt32) : (b.delay n).nanos ≤ b.cap.nanos := by
  rw [delay, Duration.nanos_min]
  exact Nat.min_le_right _ _

theorem millis_delay_le (n : UInt32) : (b.delay n).millis ≤ b.cap.millis :=
  Duration.millis_le (b.delay_le_cap n)

/-- The milliseconds of a delay fit into an event, if those of the cap do. -/
theorem toNat_millis_delay (h : b.cap.millis < 2 ^ 64) (n : UInt32) :
    (UInt64.ofNat (b.delay n).millis).toNat = (b.delay n).millis :=
  UInt64.toNat_ofNat_of_lt' (Nat.lt_of_le_of_lt (b.millis_delay_le n) h)

/-! ### The formula -/

/-- The exponent for an attempt with no bound but the exponent's cap. -/
def growth (n : UInt32) : Nat := min (n.toNat - 1) b.exponentCap.toNat

/-- The nanoseconds of a delay with no bound but the exponent's cap and the absolute one. -/
def described (n : UInt32) : Nat := min (b.base.nanos * 2 ^ b.growth n) b.cap.nanos

theorem exponent_eq_min (n : UInt32) : b.exponent n = min (b.growth n) 31 := rfl

/-- The bound on the exponent is one more cap. -/
theorem delay_eq_min_described (n : UInt32) :
    (b.delay n).nanos = min (b.described n) (b.base.nanos * 2 ^ 31) := by
  rw [nanos_delay, exponent_eq_min, described]
  obtain h | h := Nat.le_total (b.growth n) 31
  · have hproduct := b.product_mono h
    rw [Nat.min_eq_left h]
    omega
  · have hproduct := b.product_mono h
    rw [Nat.min_eq_right h]
    omega

/-- A delay is as described unless the exponent is bounded before the delay comes to its cap. -/
theorem delay_eq_described_iff (n : UInt32) : (b.delay n).nanos = b.described n ↔
    b.growth n ≤ 31 ∨ b.base.nanos = 0 ∨ b.cap.nanos ≤ b.base.nanos * 2 ^ 31 := by
  have hmin : b.described n = min (b.base.nanos * 2 ^ b.growth n) b.cap.nanos := rfl
  rw [delay_eq_min_described]
  obtain h | h := Nat.lt_or_ge 31 (b.growth n)
  · have hproduct : b.base.nanos * 2 ^ 32 ≤ b.base.nanos * 2 ^ b.growth n := b.product_mono h
    obtain hzero | hpos := Nat.eq_zero_or_pos b.base.nanos
    · simp [hmin, hzero]
    · omega
  · have hproduct := b.product_mono h
    omega

theorem exponent_succ (hn : 1 ≤ n.toNat) (hm : m.toNat = n.toNat + 1) : b.exponent m =
    if n.toNat ≤ min b.exponentCap.toNat 31 then b.exponent n + 1 else b.exponent n := by
  unfold exponent
  split <;> omega

/-- From one attempt to the next a delay grows until the exponent or the delay comes to a bound. -/
theorem delay_lt_delay_iff (hn : 1 ≤ n.toNat) (hm : m.toNat = n.toNat + 1) :
    (b.delay n).nanos < (b.delay m).nanos ↔ n.toNat ≤ min b.exponentCap.toNat 31 ∧
      0 < b.base.nanos ∧ (b.delay n).nanos < b.cap.nanos := by
  rw [nanos_delay, nanos_delay, b.exponent_succ hn hm]
  split
  · rename_i hgrows
    have hdouble : b.base.nanos * 2 ^ (b.exponent n + 1) =
        2 * (b.base.nanos * 2 ^ b.exponent n) := by
      rw [Nat.pow_succ, ← Nat.mul_assoc, Nat.mul_comm]
    have hpos : 0 < b.base.nanos * 2 ^ b.exponent n ↔ 0 < b.base.nanos := by
      rw [Nat.mul_pos_iff_of_pos_right (Nat.two_pow_pos _)]
    rw [hdouble, ← hpos]
    omega
  · rename_i hstays
    simp only [Nat.lt_irrefl, hstays, false_and]

/-- The delay after an attempt is the described one or, if that is longer, the base doubled 31
times; so it is the described one unless the exponent passes 31 with a delay below the cap.  It
grows up to the attempt after the exponent's cap, but not past the 32nd one, or up to the cap. -/
theorem delay_of_attempt (b : Backoff) (n : UInt32) (hn : 1 ≤ n.toNat) :
    (b.delay n).nanos = min (b.described n) (b.base.nanos * 2 ^ 31) ∧
    ((b.delay n).nanos = b.described n ↔ min (n.toNat - 1) b.exponentCap.toNat ≤ 31 ∨
      b.base.nanos = 0 ∨ b.cap.nanos ≤ b.base.nanos * 2 ^ 31) ∧
    ∀ m : UInt32, m.toNat = n.toNat + 1 → ((b.delay n).nanos < (b.delay m).nanos ↔
      n.toNat ≤ min b.exponentCap.toNat 31 ∧ 0 < b.base.nanos ∧
        (b.delay n).nanos < b.cap.nanos) :=
  ⟨b.delay_eq_min_described n, b.delay_eq_described_iff n, fun _ => b.delay_lt_delay_iff hn⟩

/-- From one nanosecond to half a minute, with more doublings than it takes. -/
def patient : Backoff where
  base := ⟨1, by decide⟩
  cap := .ofMillis 30000
  exponentCap := 40

theorem delay_of_attempt_of_patient :
    1 ≤ (33 : UInt32).toNat ∧ (patient.delay 33).nanos = patient.base.nanos * 2 ^ 31 ∧
      ¬ (patient.delay 33).nanos < (patient.delay 34).nanos := by
  obtain ⟨hmin, -, hgrows⟩ := delay_of_attempt patient 33 (by decide)
  refine ⟨by decide, ?_, fun h => ?_⟩
  · rw [hmin]
    decide +kernel
  · have hbound := ((hgrows 34 (by decide)).mp h).1
    revert hbound
    decide

/-- The 33rd delay is half as long as it is described, and far below the cap. -/
theorem not_described_of_patient : ¬ (patient.delay 33).nanos = patient.described 33 := by
  decide +kernel

end Backoff

end PreviewDeploy
