import PreviewDeploy.Duration

/-!
# Backoff

The delay after a failed attempt doubles from attempt to attempt, up to an exponent and up to an
absolute cap.
-/

namespace PreviewDeploy

structure Backoff where
  base : Duration := .ofMillis 1000
  cap : Duration := .ofMillis 30000
  /-- The delay stops growing at attempt `exponentCap + 1`. -/
  exponentCap : UInt32 := 5
  deriving DecidableEq, Repr

namespace Backoff

instance : Inhabited Backoff := ⟨{}⟩

/-- The exponent for an attempt; attempts count from one, and the exponent stays below 32. -/
def exponent (b : Backoff) (attempt : UInt32) : Nat :=
  min (min (attempt.toNat - 1) b.exponentCap.toNat) 31

/-- The delay after a failed attempt. -/
def delay (b : Backoff) (attempt : UInt32) : Duration :=
  min (b.base.saturatingMul (Nat.pow 2 (b.exponent attempt))) b.cap

end Backoff

end PreviewDeploy
