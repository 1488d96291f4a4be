/-!
# Log levels

A level is named by a word in any case or by a number from 1 to 5; any other name means `info`.
A filter is written as the level followed by the levels of single modules.
-/

namespace PreviewDeploy

/-- Reads an unsigned decimal number, with a plus sign allowed, below `bound`. -/
def readUnsigned? (bound : Nat) (cs : List Char) : Option Nat :=
  let digits := match cs with
    | '+' :: rest => rest
    | cs => cs
  if digits.isEmpty || !digits.all (fun c => '0' ≤ c && c ≤ '9') then none
  else
    let n := digits.foldl (fun n c => n * 10 + (c.toNat - '0'.toNat)) 0
    if n < bound then some n else none

/-- A text with its ASCII letters in lower case. -/
def asciiLower (s : String) : String := String.ofList (s.toList.map Char.toLower)

inductive LogLevel where
  | error
  | warn
  | info
  | debug
  | trace
  deriving DecidableEq, Repr, Inhabited

namespace LogLevel

/-- The word for a level, in lower case. -/
def word : LogLevel → String
  | error => "error"
  | warn => "warn"
  | info => "info"
  | debug => "debug"
  | trace => "trace"

/-- The word for a level, in capitals. -/
def label : LogLevel → String
  | error => "ERROR"
  | warn => "WARN"
  | info => "INFO"
  | debug => "DEBUG"
  | trace => "TRACE"

def all : List LogLevel := [error, warn, info, debug, trace]

/-- The level that a text names. -/
def named? (text : String) : Option LogLevel :=
  let number := readUnsigned? UInt64.size text.toList
  match number.bind fun n => if n = 0 then none else all[n - 1]? with
  | some level => some level
  | none => all.find? fun level => asciiLower text = level.word

/-- The level that a text names, or `info`. -/
def ofText (text : String) : LogLevel := (named? text).getD info

/-- A filter: the level for all modules, and those of single modules. -/
def directives (level : LogLevel) (modules : List (String × LogLevel)) : String :=
  modules.foldl (fun s m => s ++ "," ++ m.1 ++ "=" ++ m.2.word) level.word

end LogLevel

end PreviewDeploy
