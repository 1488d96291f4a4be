import PreviewDeploy.Json.Basic
import PreviewDeploy.Text.Bytes

/-!
# Reading JSON texts

`Tree.parse` reads a whole text; `Json.parse` also asks for a value of bounded depth.

* Blanks are space, tab, line feed and carriage return.
* A number has no leading zero, a digit on both sides of its point and a digit in its exponent.
* A string has no raw control character, and an escape names one of `"\/bfnrt` or four
  hexadecimal digits.  Two escapes that name the halves of a surrogate pair are one character;
  a lone half makes the string valueless (`none`) and is no fault of the text.
* The nesting of a value is at most `maxDepth`; a tree may be nested deeper.

The readers take the characters that are left and answer what they read with the characters
after it.  Those for values carry fuel, one unit a value, which `Tree.parse` takes from the
length of the text.
-/

namespace PreviewDeploy.Json

/-- The deepest nesting of a value. -/
def maxDepth : Nat := 127

namespace Reader

def isBlank (c : Char) : Bool := c = ' ' || c = '\t' || c = '\n' || c = '\r'

def skipBlanks : List Char → List Char
  | [] => []
  | c :: rest => if isBlank c then skipBlanks rest else c :: rest

def digit? (c : Char) : Option Nat :=
  if '0' ≤ c ∧ c ≤ '9' then some (c.toNat - '0'.toNat) else none

/-- The code unit of four hexadecimal digits. -/
def unit? (a b c d : Char) : Option Nat := do
  let a ← hexValue? a
  let b ← hexValue? b
  let c ← hexValue? c
  let d ← hexValue? d
  pure (((a * 16 + b) * 16 + c) * 16 + d)

def isHighHalf (n : Nat) : Bool := 0xD800 ≤ n && n < 0xDC00

def isLowHalf (n : Nat) : Bool := 0xDC00 ≤ n && n < 0xE000

/-- The character of a surrogate pair. -/
def ofHalves (high low : Nat) : Char :=
  Char.ofNat (0x10000 + (high - 0xD800) * 0x400 + (low - 0xDC00))

/-- The character of a one-letter escape. -/
def ofEscape? : Char → Option Char
  | '"' => some '"'
  | '\\' => some '\\'
  | '/' => some '/'
  | 'b' => some '\x08'
  | 'f' => some '\x0c'
  | 'n' => some '\n'
  | 'r' => some '\r'
  | 't' => some '\t'
  | _ => none

/-- What a string holds so far: the characters read, the last one first, or `none` after a lone
surrogate half; and the high half that still waits for its low half. -/
structure Scan where
  done : Option (List Char) := some []
  high : Option Nat := none

namespace Scan

/-- Adds a character; a high half before it stays alone. -/
def push (p : Scan) (c : Char) : Scan :=
  match p.high with
  | some _ => ⟨none, none⟩
  | none => ⟨p.done.map (c :: ·), none⟩

/-- Adds the code unit of an escape. -/
def pushUnit (p : Scan) (n : Nat) : Scan :=
  if isHighHalf n then ⟨if p.high.isSome then none else p.done, some n⟩
  else if isLowHalf n then
    match p.high with
    | some m => ⟨p.done.map (ofHalves m n :: ·), none⟩
    | none => ⟨none, none⟩
  else p.push (Char.ofNat n)

/-- The whole string, at its closing quote. -/
def finish (p : Scan) : Option String :=
  match p.high with
  | some _ => none
  | none => p.done.map fun cs => String.ofList cs.reverse

end Scan

/-- Reads a string after its opening quote, going on from what it holds so far. -/
def readString (p : Scan) : List Char → Option (Option String × List Char)
  | [] => none
  | '"' :: rest => some (p.finish, rest)
  | '\\' :: 'u' :: a :: b :: c :: d :: rest =>
    match unit? a b c d with
    | some n => readString (p.pushUnit n) rest
    | none => none
  | '\\' :: e :: rest =>
    match ofEscape? e with
    | some c => readString (p.push c) rest
    | none => none
  | c :: rest => if c < ' ' then none else readString (p.push c) rest

/-- Reads the digits at the front. -/
def readDigits : List Char → List Nat × List Char
  | [] => ([], [])
  | c :: rest =>
    match digit? c with
    | some d => let (ds, left) := readDigits rest; (d :: ds, left)
    | none => ([], c :: rest)

/-- Reads the whole part of a number: a single zero or digits that start with no zero. -/
def readWhole (cs : List Char) : Option (List Nat × List Char) :=
  match readDigits cs with
  | ([], _) => none
  | (0 :: _ :: _, _) => none
  | (ds, rest) => some (ds, rest)

/-- Reads a fraction, if a point comes next. -/
def readFraction : List Char → Option (Option (List Nat) × List Char)
  | '.' :: rest =>
    match readDigits rest with
    | ([], _) => none
    | (ds, rest) => some (some ds, rest)
  | cs => some (none, cs)

/-- Reads the sign and the digits of an exponent. -/
def readExponentDigits (negative : Bool) (cs : List Char) :
    Option (Option Number.Exponent × List Char) :=
  match readDigits cs with
  | ([], _) => none
  | (ds, rest) => some (some ⟨negative, ds⟩, rest)

/-- Reads an exponent, if its mark comes next. -/
def readExponent : List Char → Option (Option Number.Exponent × List Char)
  | c :: rest =>
    if c = 'e' ∨ c = 'E' then
      match rest with
      | '+' :: rest => readExponentDigits false rest
      | '-' :: rest => readExponentDigits true rest
      | rest => readExponentDigits false rest
    else some (none, c :: rest)
  | [] => some (none, [])

/-- Reads a number after its sign. -/
def readUnsigned (negative : Bool) (cs : List Char) : Option (Option Number × List Char) := do
  let (whole, cs) ← readWhole cs
  let (fraction, cs) ← readFraction cs
  let (exponent, cs) ← readExponent cs
  pure (Number.ofDecimal negative whole fraction exponent, cs)

def readNumber : List Char → Option (Option Number × List Char)
  | '-' :: rest => readUnsigned true rest
  | cs => readUnsigned false cs

mutual
/-- Reads a value after any blanks. -/
def readTree : Nat → List Char → Option (Tree × List Char)
  | 0, _ => none
  | fuel + 1, cs =>
    match skipBlanks cs with
    | 'n' :: 'u' :: 'l' :: 'l' :: rest => some (.null, rest)
    | 't' :: 'r' :: 'u' :: 'e' :: rest => some (.bool true, rest)
    | 'f' :: 'a' :: 'l' :: 's' :: 'e' :: rest => some (.bool false, rest)
    | '"' :: rest => (readString {} rest).map fun (s, left) => (.string s, left)
    | '[' :: rest =>
      match skipBlanks rest with
      | ']' :: left => some (.array [], left)
      | cs => (readItems fuel [] cs).map fun (items, left) => (.array items, left)
    | '\x7b' :: rest =>
      match skipBlanks rest with
      | '\x7d' :: left => some (.object [], left)
      | cs => (readMembers fuel [] cs).map fun (members, left) => (.object members, left)
    | cs => (readNumber cs).map fun (n, left) => (.number n, left)

/-- Reads the items of an array up to its end; `done` holds those already read, the last one
first. -/
def readItems : Nat → List Tree → List Char → Option (List Tree × List Char)
  | 0, _, _ => none
  | fuel + 1, done, cs =>
    match readTree fuel cs with
    | none => none
    | some (t, rest) =>
      match skipBlanks rest with
      | ']' :: left => some ((t :: done).reverse, left)
      | ',' :: left => readItems fuel (t :: done) left
      | _ => none

/-- Reads the members of an object up to its end; `done` holds those already read, the last
one first. -/
def readMembers : Nat → List (Option String × Tree) → List Char →
    Option (List (Option String × Tree) × List Char)
  | 0, _, _ => none
  | fuel + 1, done, cs =>
    match skipBlanks cs with
    | '"' :: rest =>
      match readString {} rest with
      | none => none
      | some (key, rest) =>
        match skipBlanks rest with
        | ':' :: rest =>
          match readTree fuel rest with
          | none => none
          | some (t, rest) =>
            match skipBlanks rest with
            | '\x7d' :: left => some (((key, t) :: done).reverse, left)
            | ',' :: left => readMembers fuel ((key, t) :: done) left
            | _ => none
        | _ => none
    | _ => none
end

end Reader

/-- The tree of a text that holds one value and blanks. -/
def Tree.ofChars (cs : List Char) : Option Tree :=
  match Reader.readTree (cs.length + 1) cs with
  | some (t, rest) => if (Reader.skipBlanks rest).isEmpty then some t else none
  | none => none

/-- The tree of a text. -/
def Tree.parse (text : String) : Option Tree := Tree.ofChars text.toList

/-- The value of a tree nested at most `maxDepth` deep. -/
def Tree.toBoundedJson (t : Tree) : Option Json := if t.depth ≤ maxDepth then t.toJson else none

/-- The value of a text. -/
def parse (text : String) : Option Json := (Tree.parse text).bind Tree.toBoundedJson

end PreviewDeploy.Json
