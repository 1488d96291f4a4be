/-!
# Durations

A duration is a whole number of nanoseconds, at most `2 ^ 64 - 1` seconds and 999,999,999
nanoseconds.  Multiplication saturates at that bound.  The text of a duration
(`Duration.text`) counts in the largest of s, ms, µs and ns of which it has at least one, with
the fraction's digits up to the last one that is not zero: `60s`, `1.5s`, `50ms`, `0ns`.
-/

namespace PreviewDeploy

namespace Duration

def nanosPerSecond : Nat := 1000000000

def nanosPerMilli : Nat := 1000000

def nanosPerMicro : Nat := 1000

/-- The longest duration, in nanoseconds. -/
def maxNanos : Nat := (UInt64.size - 1) * 1000000000 + 999999999

end Duration

structure Duration where
  nanos : Nat
  le_max : nanos ≤ Duration.maxNanos := by decide
  deriving DecidableEq, Repr

namespace Duration

instance : Inhabited Duration := ⟨⟨0, by decide⟩⟩

/-- The duration of the given length, or the longest one. -/
def saturate (nanos : Nat) : Duration := ⟨min nanos maxNanos, Nat.min_le_right _ _⟩

def ofSecs (secs : UInt64) : Duration := saturate (secs.toNat * nanosPerSecond)

def ofMillis (millis : UInt64) : Duration := saturate (millis.toNat * nanosPerMilli)

def zero : Duration := ⟨0, by decide⟩

/-- Whole seconds. -/
def secs (d : Duration) : Nat := d.nanos / nanosPerSecond

/-- Nanoseconds past the whole seconds. -/
def subsecNanos (d : Duration) : Nat := d.nanos % nanosPerSecond

/-- Whole milliseconds. -/
def millis (d : Duration) : Nat := d.nanos / nanosPerMilli

/-- The least number of milliseconds that is not shorter. -/
def ceilMillis (d : Duration) : Nat := (d.nanos + (nanosPerMilli - 1)) / nanosPerMilli

/-- The product with a number, or the longest duration if that is shorter. -/
def saturatingMul (d : Duration) (k : Nat) : Duration := saturate (d.nanos * k)

instance : Min Duration := ⟨fun a b => if a.nanos ≤ b.nanos then a else b⟩

/-- The given number of decimal digits of a fraction, without the zeros at its end. -/
def fractionDigits (places : Nat) (value : Nat) : List Char :=
  let digits := (Nat.toDigits 10 (Nat.pow 10 places + value)).drop 1
  (digits.reverse.dropWhile (· = '0')).reverse

/-- `nanos` counted in units of `10 ^ places` nanoseconds. -/
def textIn (places : Nat) (unit : String) (nanos : Nat) : String :=
  let fraction := fractionDigits places (nanos % Nat.pow 10 places)
  let whole := toString (nanos / Nat.pow 10 places)
  if fraction.isEmpty then whole ++ unit else whole ++ "." ++ String.ofList fraction ++ unit

/-- The text of a duration in its largest unit. -/
def text (d : Duration) : String :=
  if nanosPerSecond ≤ d.nanos then textIn 9 "s" d.nanos
  else if nanosPerMilli ≤ d.nanos then textIn 6 "ms" d.nanos
  else if nanosPerMicro ≤ d.nanos then textIn 3 "µs" d.nanos
  else textIn 0 "ns" d.nanos

end Duration

end PreviewDeploy
