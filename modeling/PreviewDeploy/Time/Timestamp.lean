import PreviewDeploy.Text.Space

/-!
# Timestamps

A timestamp is a moment by the UTC calendar: a date of the proleptic Gregorian calendar, the
time of day, and nanoseconds within the second.  A leap second is the second 59 with
nanoseconds from `10 ^ 9` up.

* `Timestamp.parse?` reads RFC 3339: four digits of year, a `T` or a blank before the time, any
  number of digits of a fraction (those after the ninth do not count), the second 60, and an
  offset of less than a day, whose minus sign may be a hyphen or U+2212.
* `Timestamp.parseLoose?` also takes blanks, short and signed fields, `UTC` as an offset and
  offsets without a colon.
* `Timestamp.text` writes RFC 3339 with no, three, six or nine digits of fraction, as many as
  are needed.
-/

namespace PreviewDeploy

/-- A moment by the UTC calendar. -/
structure Timestamp where
  year : Int
  month : Nat
  day : Nat
  hour : Nat
  minute : Nat
  second : Nat
  nanos : Nat
  deriving DecidableEq, Repr, Inhabited

namespace Timestamp

def isLeapYear (year : Int) : Bool := year % 4 = 0 && (year % 100 ≠ 0 || year % 400 = 0)

def daysInMonth (year : Int) (month : Nat) : Nat :=
  if month = 2 then (if isLeapYear year then 29 else 28)
  else if month = 4 ∨ month = 6 ∨ month = 9 ∨ month = 11 then 30
  else 31

/-- Fields that a moment can have. -/
def Valid (t : Timestamp) : Prop :=
  1 ≤ t.month ∧ t.month ≤ 12 ∧ 1 ≤ t.day ∧ t.day ≤ daysInMonth t.year t.month ∧ t.hour ≤ 23 ∧
    t.minute ≤ 59 ∧ t.second ≤ 59 ∧
    t.nanos < (if t.second = 59 then 2000000000 else 1000000000)

instance (t : Timestamp) : Decidable t.Valid := by unfold Valid; infer_instance

/-- The same time one day later. -/
def nextDay (t : Timestamp) : Timestamp :=
  if t.day < daysInMonth t.year t.month then { t with day := t.day + 1 }
  else if t.month < 12 then { t with month := t.month + 1, day := 1 }
  else { t with year := t.year + 1, month := 1, day := 1 }

/-- The same time one day earlier. -/
def previousDay (t : Timestamp) : Timestamp :=
  if 1 < t.day then { t with day := t.day - 1 }
  else if 1 < t.month then
    { t with month := t.month - 1, day := daysInMonth t.year (t.month - 1) }
  else { t with year := t.year - 1, month := 12, day := 31 }

/-- The moment whose local time is `t` where the clock is `minutes` ahead of UTC, by less than
a day either way. -/
def ofLocal (t : Timestamp) (minutes : Int) : Timestamp :=
  let m := (t.hour * 60 + t.minute : Nat) - minutes
  let at' (m : Int) : Timestamp := { t with hour := m.toNat / 60, minute := m.toNat % 60 }
  if m < 0 then (at' (m + 1440)).previousDay
  else if 1440 ≤ m then (at' (m - 1440)).nextDay
  else at' m

/-- Days from 1970-01-01 to the date. -/
def daysSinceEpoch (t : Timestamp) : Int :=
  let before (y : Int) : Int := 365 * y + (y + 3).fdiv 4 - (y + 99).fdiv 100 + (y + 399).fdiv 400
  let months := (List.range (t.month - 1)).foldl (fun n m => n + daysInMonth t.year (m + 1)) 0
  before t.year - before 1970 + (months : Int) + ((t.day : Int) - 1)

/-- Seconds from 1970-01-01T00:00:00Z, leap seconds not counted. -/
def unixSeconds (t : Timestamp) : Int :=
  t.daysSinceEpoch * 86400 + (t.hour * 3600 + t.minute * 60 + t.second : Nat)

/-- The same time `n` days later. -/
def addDays (t : Timestamp) : Nat → Timestamp
  | 0 => t
  | n + 1 => (t.nextDay).addDays n

/-- The moment `n` seconds after 1970-01-01T00:00:00Z. -/
def ofUnixSeconds (n nanos : Nat) : Timestamp :=
  let start : Timestamp := ⟨1970, 1, 1, n % 86400 / 3600, n % 3600 / 60, n % 60, nanos⟩
  start.addDays (n / 86400)

/-! ### Reading -/

def digit? (c : Char) : Option Nat :=
  if '0' ≤ c ∧ c ≤ '9' then some (c.toNat - '0'.toNat) else none

/-- Reads exactly `width` digits. -/
def readFixed (value : Nat) : Nat → List Char → Option (Nat × List Char)
  | 0, cs => some (value, cs)
  | _ + 1, [] => none
  | width + 1, c :: rest =>
    match digit? c with
    | some d => readFixed (value * 10 + d) width rest
    | none => none

/-- Reads one given character. -/
def readChar (c : Char) : List Char → Option (List Char)
  | [] => none
  | d :: rest => if d = c then some rest else none

/-- Reads the digits at the front. -/
def readDigits : List Char → List Nat × List Char
  | [] => ([], [])
  | c :: rest =>
    match digit? c with
    | some d => let (ds, left) := readDigits rest; (d :: ds, left)
    | none => ([], c :: rest)

/-- Nanoseconds from the digits of a fraction. -/
def nanosOfDigits (ds : List Nat) : Nat :=
  (ds.take 9 ++ List.replicate (9 - ds.length) 0).foldl (fun n d => n * 10 + d) 0

/-- Reads a fraction, if a point comes next. -/
def readFraction : List Char → Option (Nat × List Char)
  | '.' :: rest =>
    match readDigits rest with
    | ([], _) => none
    | (ds, left) => some (nanosOfDigits ds, left)
  | cs => some (0, cs)

/-- Reads what stands between the hours and the minutes of an offset. -/
abbrev ReadColon := List Char → Option (List Char)

/-- Reads the hours and minutes of an offset. -/
def readOffsetDigits (colon : ReadColon) (sign : Int) (cs : List Char) :
    Option (Int × List Char) := do
  let (hours, cs) ← readFixed 0 2 cs
  let cs ← colon cs
  let (minutes, cs) ← readFixed 0 2 cs
  if minutes ≤ 59 then pure (sign * (hours * 60 + minutes : Nat), cs) else none

/-- Reads an offset in minutes: `Z`, or a sign, hours and minutes. -/
def readOffset (colon : ReadColon) : List Char → Option (Int × List Char)
  | [] => none
  | c :: rest =>
    if c = 'Z' ∨ c = 'z' then some (0, rest)
    else if c = '+' then readOffsetDigits colon 1 rest
    else if c = '-' ∨ c = '−' then readOffsetDigits colon (-1) rest
    else none

/-- The years of the calendar. -/
def inCalendar (year : Int) : Bool := -262143 ≤ year && year ≤ 262142

/-- The moment of local fields and an offset, if there is one.  The second 60 is the second 59
with nanoseconds past a whole second. -/
def ofFields (year : Int) (month day hour minute second nanos : Nat) (offset : Int) :
    Option Timestamp :=
  let t : Timestamp :=
    if second = 60 then ⟨year, month, day, hour, minute, 59, nanos + 1000000000⟩
    else ⟨year, month, day, hour, minute, second, nanos⟩
  if inCalendar year ∧ t.Valid ∧ second ≤ 60 ∧ -1440 < offset ∧ offset < 1440 then
    let moment := t.ofLocal offset
    if inCalendar moment.year then some moment else none
  else none

/-- Reads the mark between date and time. -/
def readTimeMark : List Char → Option (List Char)
  | [] => none
  | c :: rest => if c = 't' ∨ c = 'T' ∨ c = ' ' then some rest else none

/-- Reads a moment in RFC 3339. -/
def ofChars (cs : List Char) : Option Timestamp := do
  let (year, cs) ← readFixed 0 4 cs
  let cs ← readChar '-' cs
  let (month, cs) ← readFixed 0 2 cs
  let cs ← readChar '-' cs
  let (day, cs) ← readFixed 0 2 cs
  let cs ← readTimeMark cs
  let (hour, cs) ← readFixed 0 2 cs
  let cs ← readChar ':' cs
  let (minute, cs) ← readFixed 0 2 cs
  let cs ← readChar ':' cs
  let (second, cs) ← readFixed 0 2 cs
  let (nanos, cs) ← readFraction cs
  let (offset, cs) ← readOffset (readChar ':') cs
  if cs.isEmpty then ofFields year month day hour minute second nanos offset else none

/-- The moment of a text in RFC 3339. -/
def parse? (text : String) : Option Timestamp := ofChars text.toList

/-! ### Reading with liberties -/

open Text (isSpace skipSpace)

/-- Reads one to `width` digits after any white space. -/
def readField (width : Nat) (cs : List Char) : Option (Nat × List Char) :=
  let cs := skipSpace cs
  match (readDigits cs).1.take width with
  | [] => none
  | ds => some (ds.foldl (fun n d => n * 10 + d) 0, cs.drop ds.length)

/-- Reads a year: up to four digits, or a sign and any number of digits. -/
def readYear (cs : List Char) : Option (Int × List Char) :=
  match skipSpace cs with
  | '-' :: rest => (unsigned rest).map fun (n, left) => (-(n : Int), left)
  | '+' :: rest => (unsigned rest).map fun (n, left) => ((n : Int), left)
  | cs => (readField 4 cs).map fun (n, left) => ((n : Int), left)
where
  unsigned (cs : List Char) : Option (Nat × List Char) :=
    match readDigits cs with
    | ([], _) => none
    | (ds, left) => some (ds.foldl (fun n d => n * 10 + d) 0, left)

/-- Skips colons and white space. -/
def skipColon (cs : List Char) : List Char := cs.dropWhile fun c => c = ':' || isSpace c

/-- Reads an offset, or `UTC` in any case. -/
def readLooseOffset (cs : List Char) : Option (Int × List Char) :=
  match cs with
  | a :: b :: c :: rest =>
    if a.toUpper = 'U' ∧ b.toUpper = 'T' ∧ c.toUpper = 'C' then some (0, rest)
    else readOffset (fun cs => some (skipColon cs)) cs
  | cs => readOffset (fun cs => some (skipColon cs)) cs

/-- Reads a moment, with blanks between the fields and short fields allowed. -/
def parseLoose? (text : String) : Option Timestamp := do
  let (year, cs) ← readYear text.toList
  let cs ← readChar '-' (skipSpace cs)
  let (month, cs) ← readField 2 cs
  let cs ← readChar '-' (skipSpace cs)
  let (day, cs) ← readField 2 cs
  let cs ← readTimeMark cs
  let (hour, cs) ← readField 2 cs
  let cs ← readChar ':' (skipSpace cs)
  let (minute, cs) ← readField 2 cs
  let cs ← readChar ':' (skipSpace cs)
  let (second, cs) ← readField 2 cs
  let (nanos, cs) ← readFraction cs
  let (offset, cs) ← readLooseOffset (skipSpace cs)
  if (skipSpace cs).isEmpty then ofFields year month day hour minute second nanos offset else none

/-! ### Writing -/

/-- The `width` lowest decimal digits of a number, the highest first. -/
def decimals : Nat → Nat → List Char
  | 0, _ => []
  | width + 1, n => decimals width (n / 10) ++ [Char.ofNat ('0'.toNat + n % 10)]

/-- A year: four digits, or a sign and at least four digits outside 0 to 9999. -/
def yearChars (year : Int) : List Char :=
  let size := year.natAbs
  if 0 ≤ year ∧ year ≤ 9999 then decimals 4 size
  else (if year < 0 then '-' else '+') ::
    (if size ≤ 9999 then decimals 4 size else (toString size).toList)

/-- A fraction with no, three, six or nine digits. -/
def fractionChars (nanos : Nat) : List Char :=
  if nanos = 0 then []
  else if nanos % 1000000 = 0 then '.' :: decimals 3 (nanos / 1000000)
  else if nanos % 1000 = 0 then '.' :: decimals 6 (nanos / 1000)
  else '.' :: decimals 9 nanos

/-- A moment in RFC 3339, with the given mark for UTC. -/
def chars (t : Timestamp) (utc : List Char) : List Char :=
  let leap := 1000000000 ≤ t.nanos
  let second := if leap then t.second + 1 else t.second
  let nanos := if leap then t.nanos - 1000000000 else t.nanos
  yearChars t.year ++ '-' :: (decimals 2 t.month ++ '-' :: (decimals 2 t.day ++ 'T' ::
    (decimals 2 t.hour ++ ':' :: (decimals 2 t.minute ++ ':' :: (decimals 2 second ++
      (fractionChars nanos ++ utc))))))

/-- A moment in RFC 3339 with the offset `+00:00`. -/
def text (t : Timestamp) : String := String.ofList (t.chars "+00:00".toList)

/-- A moment in RFC 3339 with the offset `Z`. -/
def zuluText (t : Timestamp) : String := String.ofList (t.chars ['Z'])

end Timestamp

end PreviewDeploy
