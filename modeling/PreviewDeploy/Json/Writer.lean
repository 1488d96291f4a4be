import PreviewDeploy.Json.Basic
import PreviewDeploy.Text.Bytes

/-!
# Writing JSON texts

`Tree.write` writes a tree without blanks: members in the order of the tree, a backslash before
quotes and backslashes, the short escapes for backspace, form feed, line feed, carriage return
and tab, and `\u00xx` for the other control characters.  `Tree.pretty` puts every item and
member on its own line, two blanks deeper than its container.  A tree that is written comes
from data whose numbers are whole; a binary64 number is written as its bits (`f64:0x…`).
-/

namespace PreviewDeploy.Json

namespace Writer

/-- A character as it stands in a string. -/
def writeChar (c : Char) : List Char :=
  if c = '"' then ['\\', '"']
  else if c = '\\' then ['\\', '\\']
  else if c = '\x08' then ['\\', 'b']
  else if c = '\x0c' then ['\\', 'f']
  else if c = '\n' then ['\\', 'n']
  else if c = '\r' then ['\\', 'r']
  else if c = '\t' then ['\\', 't']
  else if c < ' ' then '\\' :: 'u' :: hexDigits 4 c.toNat
  else [c]

/-- A string in quotes. -/
def writeString (s : String) : List Char := '"' :: (s.toList.flatMap writeChar ++ ['"'])

/-- The whole number of a binary64 value below `2 ^ 53` in size, if it is one. -/
def whole? (x : Binary64) : Option Int :=
  let f := x.toFloat
  let size := f.abs
  if size < 9007199254740992 ∧ size.floor == size then
    let n := (size.toUInt64.toNat : Int)
    some (if f < 0 then -n else n)
  else none

/-- A number: decimal digits, or the bits of a binary64 value that is not whole. -/
def writeNumber : Number → List Char
  | .integer n => (toString n).toList
  | .float x =>
    match whole? x with
    | some n => (toString n).toList
    | none => writeString ("f64:0x" ++ String.ofList (hexDigits 16 x.bits.toNat))

end Writer

open Writer

mutual
/-- A tree without blanks; what has no value is written as null. -/
def Tree.write : Tree → List Char
  | .null => "null".toList
  | .bool true => "true".toList
  | .bool false => "false".toList
  | .number (some n) => writeNumber n
  | .number none => "null".toList
  | .string (some s) => writeString s
  | .string none => "null".toList
  | .array [] => "[]".toList
  | .array (t :: rest) => '[' :: (Tree.write t ++ Tree.writeItems rest)
  | .object [] => ['\x7b', '\x7d']
  | .object ((k, t) :: rest) =>
    '\x7b' :: (writeString (k.getD "") ++ ':' :: (Tree.write t ++ Tree.writeMembers rest))

/-- The items after the first one, and the end of their array. -/
def Tree.writeItems : List Tree → List Char
  | [] => [']']
  | t :: rest => ',' :: (Tree.write t ++ Tree.writeItems rest)

/-- The members after the first one, and the end of their object. -/
def Tree.writeMembers : List (Option String × Tree) → List Char
  | [] => ['\x7d']
  | (k, t) :: rest =>
    ',' :: (writeString (k.getD "") ++ ':' :: (Tree.write t ++ Tree.writeMembers rest))
end

/-- A new line with the given number of blanks. -/
def newLine (indent : Nat) : List Char := '\n' :: List.replicate indent ' '

mutual
/-- A tree with every item and member on a line of its own. -/
def Tree.writePretty (indent : Nat) : Tree → List Char
  | .array [] => "[]".toList
  | .array (t :: rest) =>
    '[' :: (newLine (indent + 2) ++ Tree.writePretty (indent + 2) t ++
      Tree.prettyItems indent rest)
  | .object [] => ['\x7b', '\x7d']
  | .object ((k, t) :: rest) =>
    '\x7b' :: (newLine (indent + 2) ++ writeString (k.getD "") ++ ':' :: ' ' ::
      (Tree.writePretty (indent + 2) t ++ Tree.prettyMembers indent rest))
  | .null => "null".toList
  | .bool b => (toString b).toList
  | .number n => (n.map writeNumber).getD "null".toList
  | .string s => (s.map writeString).getD "null".toList

/-- The items after the first one, and the end of their array. -/
def Tree.prettyItems (indent : Nat) : List Tree → List Char
  | [] => newLine indent ++ [']']
  | t :: rest =>
    ',' :: (newLine (indent + 2) ++ Tree.writePretty (indent + 2) t ++ Tree.prettyItems indent rest)

/-- The members after the first one, and the end of their object. -/
def Tree.prettyMembers (indent : Nat) : List (Option String × Tree) → List Char
  | [] => newLine indent ++ ['\x7d']
  | (k, t) :: rest =>
    ',' :: (newLine (indent + 2) ++ writeString (k.getD "") ++ ':' :: ' ' ::
      (Tree.writePretty (indent + 2) t ++ Tree.prettyMembers indent rest))
end

/-- The text of a tree, without blanks. -/
def Tree.text (t : Tree) : String := String.ofList t.write

/-- The text of a tree, laid out over lines. -/
def Tree.prettyText (t : Tree) : String := String.ofList (t.writePretty 0)

/-- The text of a value, without blanks. -/
def text (v : Json) : String := v.toTree.text

end PreviewDeploy.Json
