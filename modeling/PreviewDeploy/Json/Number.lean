import PreviewDeploy.Word

/-!
# Numbers in JSON texts

A number of a JSON text is a whole number if it is written without a fraction and without an
exponent and fits in 64 bits, signed or unsigned; every other number is a binary64 value.
`Number.ofDecimal` reads the parts of a written number.  Its significand takes the leading
digits that fit in 64 bits and the remaining digits only shift the exponent, and the scaling is
one rounded multiplication or division by a power of ten, so a long decimal need not be the
nearest binary64 value.  A number too large for binary64 has no value (`none`).
-/

namespace PreviewDeploy.Json

/-- A binary64 value, kept as its 64 bits so that equality is decidable. -/
structure Binary64 where
  bits : UInt64
  deriving DecidableEq, Repr, Inhabited

namespace Binary64

def ofFloat (x : Float) : Binary64 := ⟨x.toBits⟩

def toFloat (x : Binary64) : Float := Float.ofBits x.bits

end Binary64

/-- The value of a number: a whole number of at most 64 bits, or a binary64 value. -/
inductive Number where
  | integer (n : Int)
  | float (x : Binary64)
  deriving DecidableEq, Repr, Inhabited

namespace Number

/-- The whole numbers that a text can hold exactly. -/
def InRange (n : Int) : Prop := -int64Bound ≤ n ∧ n < UInt64.size

/-- Takes digits while the value they denote stays below `2 ^ 64`; answers the value and the
digits left over. -/
def takeFitting : Nat → List Nat → Nat × List Nat
  | value, [] => (value, [])
  | value, d :: ds =>
    if value * 10 + d < UInt64.size then takeFitting (value * 10 + d) ds else (value, d :: ds)

/-- Ten to the power `e`, as the nearest binary64 value. -/
def tenPow (e : Nat) : Float := Float.ofScientific 1 false e

/-- Divides by ten to the power `10 ^ e`, at most 308 places at a time. -/
def scaleDown : Nat → Float → Nat → Float
  | 0, x, _ => x
  | fuel + 1, x, e =>
    if e ≤ 308 then x / tenPow e
    else if x == 0 then x
    else scaleDown fuel (x / tenPow 308) (e - 308)

/-- `significand * 10 ^ exponent` in binary64, or `none` if that is beyond its range. -/
def scale (significand : Nat) (exponent : Int) : Option Float :=
  let x := (UInt64.ofNat significand).toFloat
  if exponent < 0 then some (scaleDown 8 x exponent.natAbs)
  else if exponent ≤ 308 then
    let y := x * tenPow exponent.natAbs
    if y.isInf then none else some y
  else if x == 0 then some x
  else none

/-- The digits after an exponent mark, with their sign. -/
structure Exponent where
  negative : Bool
  digits : List Nat

/-- The value of a list of digits. -/
def ofDigits (ds : List Nat) : Nat := ds.foldl (fun n d => n * 10 + d) 0

/-- The value of a number written with the given parts.  `fraction` and `exponent` are absent
when the text has no point and no exponent mark. -/
def ofDecimal (negative : Bool) (whole : List Nat) (fraction : Option (List Nat))
    (exponent : Option Exponent) : Option Number :=
  let (head, left) := takeFitting 0 whole
  let signed (x : Float) : Number := .float (.ofFloat (if negative then -x else x))
  let (significand, shift) :=
    match fraction with
    | none => (head, (left.length : Int))
    | some ds =>
      let (value, unread) := takeFitting head ds
      (value, (left.length : Int) - ((ds.length - unread.length : Nat) : Int))
  match exponent with
  | some e =>
    let size := ofDigits e.digits
    if size < int32Bound then
      (scale significand (if e.negative then shift - size else shift + size)).map signed
    else if significand ≠ 0 && !e.negative then none
    else some (signed 0)
  | none =>
    if fraction.isNone && left.isEmpty then
      if !negative then some (.integer significand)
      else if 0 < significand ∧ significand ≤ int64Bound then some (.integer (-significand))
      else some (signed (UInt64.ofNat significand).toFloat)
    else (scale significand shift).map signed

/-- The number as a natural number below `bound`. -/
def toNatBelow (bound : Nat) : Number → Option Nat
  | .integer n => if 0 ≤ n ∧ n < bound then some n.toNat else none
  | .float _ => none

/-- The number as a binary64 value; a whole number is rounded to the nearest one. -/
def toBinary64 : Number → Binary64
  | .integer n =>
    let size := (UInt64.ofNat n.natAbs).toFloat
    .ofFloat (if n < 0 then -size else size)
  | .float x => x

end Number

end PreviewDeploy.Json
