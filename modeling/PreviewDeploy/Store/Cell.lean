import PreviewDeploy.Json.Number

/-!
# Cells of the store

A cell holds nothing, a whole number of 64 bits, a binary64 value, a text or bytes.  A column
prefers texts or whole numbers and converts what is put into it where that loses nothing
(`Affinity.apply`): a text column turns numbers into digits, an integer column reads a text that
is a numeral.  Cells are ordered by kind first (`Cell.lt`): nothing, numbers, texts, bytes.
-/

namespace PreviewDeploy.Store

open Json (Binary64)

inductive Cell where
  | null
  | integer (n : Int)
  | real (x : Binary64)
  | text (s : String)
  | blob (bytes : List UInt8)
  deriving DecidableEq, Repr, Inhabited

namespace Cell

/-- The word for the kind of a cell. -/
def kind : Cell → String
  | null => "Null"
  | integer _ => "Integer"
  | real _ => "Real"
  | text _ => "Text"
  | blob _ => "Blob"

def ofText? : Option String → Cell
  | some s => text s
  | none => null

def ofNat (n : Nat) : Cell := integer n

/-- A number of 64 bits without a sign, as the number of 64 bits with the same bits. -/
def ofWord (n : Nat) : Cell := integer (Int.bmod n UInt64.size)

def ofBool (b : Bool) : Cell := integer (if b then 1 else 0)

/-! ### Order -/

/-- The rank of a cell's kind. -/
def rank : Cell → Nat
  | null => 0
  | integer _ | real _ => 1
  | text _ => 2
  | blob _ => 3

/-- A whole number of 64 bits is less than a binary64 value. -/
def intLtReal (n : Int) (x : Binary64) : Bool :=
  let f := x.toFloat
  if f ≥ 9223372036854775808 then true
  else if f < -9223372036854775808 then false
  else
    let whole := f.toInt64.toInt
    n < whole || (n == whole && Float.ofInt whole < f)

/-- A binary64 value is less than a whole number of 64 bits. -/
def realLtInt (x : Binary64) (n : Int) : Bool :=
  let f := x.toFloat
  if f ≥ 9223372036854775808 then false
  else if f < -9223372036854775808 then true
  else
    let whole := f.toInt64.toInt
    whole < n || (whole == n && f < Float.ofInt whole)

/-- The order of bytes, by the first place where they differ. -/
def bytesLt : List UInt8 → List UInt8 → Bool
  | _, [] => false
  | [], _ :: _ => true
  | a :: as, b :: bs => a < b || (a == b && bytesLt as bs)

def lt : Cell → Cell → Bool
  | integer a, integer b => a < b
  | integer a, real b => intLtReal a b
  | real a, integer b => realLtInt a b
  | real a, real b => a.toFloat < b.toFloat
  | text a, text b => a < b
  | blob a, blob b => bytesLt a b
  | a, b => a.rank < b.rank

/-- The greater of two cells, the first one if neither is less. -/
def max (a b : Cell) : Cell := if a.lt b then b else a

/-! ### Numerals -/

def isBlank (c : Char) : Bool := c = ' ' || ('\t' ≤ c && c ≤ '\r')

def isDigit (c : Char) : Bool := '0' ≤ c && c ≤ '9'

/-- The value of decimal digits. -/
def digitsValue (ds : List Char) : Nat :=
  ds.foldl (fun n d => n * 10 + (d.toNat - '0'.toNat)) 0

/-- A sign at the front; true for a minus. -/
def takeSign : List Char → Bool × List Char
  | '-' :: rest => (true, rest)
  | '+' :: rest => (false, rest)
  | cs => (false, cs)

/-- The binary64 value of a mantissa with a power of ten. -/
def scaled (negative : Bool) (mantissa : Nat) (exponent : Int) : Cell :=
  let size :=
    if exponent < 0 then Float.ofScientific mantissa true exponent.natAbs
    else Float.ofScientific mantissa false exponent.natAbs
  let x := if negative then -size else size
  let whole := x.toInt64.toInt
  if Float.ofInt whole == x && -int64Bound < whole && whole < int64Bound - 1 then integer whole
  else real (.ofFloat x)

/-- What follows the digits of a numeral: an exponent, if there is one. -/
def takeExponent : List Char → Option (Option Int × List Char)
  | c :: rest =>
    if c = 'e' ∨ c = 'E' then
      let (negative, cs) := takeSign rest
      let ds := cs.takeWhile isDigit
      if ds.isEmpty then none
      else
        let e : Int := min (digitsValue ds) 20000
        some (some (if negative then -e else e), cs.dropWhile isDigit)
    else some (none, c :: rest)
  | [] => some (none, [])

/-- The number that a text is a numeral of: decimal digits with a sign, a point and an exponent,
all but a digit optional, between blanks. -/
def ofNumeral? (s : String) : Option Cell := do
  let (negative, cs) := takeSign (s.toList.dropWhile isBlank)
  let whole := cs.takeWhile isDigit
  let cs := cs.dropWhile isDigit
  let (point, cs) := match cs with
    | '.' :: rest => (true, rest)
    | cs => (false, cs)
  let fraction := if point then cs.takeWhile isDigit else []
  let cs := if point then cs.dropWhile isDigit else cs
  if whole.isEmpty && fraction.isEmpty then none
  else
    let (exponent, cs) ← takeExponent cs
    if !(cs.dropWhile isBlank).isEmpty then none
    else
      let mantissa := digitsValue (whole ++ fraction)
      let n : Int := if negative then -mantissa else mantissa
      if !point && exponent.isNone && -int64Bound ≤ n && n < int64Bound then some (integer n)
      else some (scaled negative mantissa (exponent.getD 0 - fraction.length))

end Cell

/-- What a column prefers to hold. -/
inductive Affinity where
  | text
  | integer
  deriving DecidableEq, Repr

namespace Affinity

/-- What a column holds after a cell was put into it. -/
def apply : Affinity → Cell → Cell
  | text, .integer n => .text (toString n)
  | integer, .text s => (Cell.ofNumeral? s).getD (.text s)
  | _, c => c

end Affinity

end PreviewDeploy.Store
