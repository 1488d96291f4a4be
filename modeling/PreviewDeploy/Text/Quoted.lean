import PreviewDeploy.Text.Bytes
import PreviewDeploy.Text.Hidden

/-!
# Quoted texts

A quoted text stands between double quotes.  A quote and a backslash have a backslash before
them; NUL, tab, line feed and carriage return are `\0`, `\t`, `\n` and `\r`; any other character
that has no glyph of its own is its code point in lower-case hexadecimal digits, `\u{301}`.
-/

namespace PreviewDeploy.Text

/-- The hexadecimal digits of a number, without zeros in front. -/
def hexNumber (n : Nat) : List Char :=
  match (hexDigits 6 n).dropWhile (· = '0') with
  | [] => ['0']
  | ds => ds

def quoteChar (c : Char) : List Char :=
  if c = '"' then ['\\', '"']
  else if c = '\\' then ['\\', '\\']
  else if c = '\x00' then ['\\', '0']
  else if c = '\t' then ['\\', 't']
  else if c = '\n' then ['\\', 'n']
  else if c = '\r' then ['\\', 'r']
  else if isHidden c then '\\' :: 'u' :: '\x7b' :: (hexNumber c.toNat ++ ['\x7d'])
  else [c]

/-- A text between quotes. -/
def quote (s : String) : String := String.ofList ('"' :: (s.toList.flatMap quoteChar ++ ['"']))

end PreviewDeploy.Text
