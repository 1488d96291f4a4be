import PreviewDeploy.Text.Bytes

/-!
# URLs

An absolute URL is read as browsers read it: blanks at its ends and line breaks in it do not
count, a backslash counts as a slash where the scheme is one of the web's, `.` and `..` are taken
out of the path, and characters that may not stand in a URL are written as percent signs with the
hexadecimal digits of their bytes.  A text without a scheme is no URL, nor is one whose host, or
whose number after the host, is none.
-/

namespace PreviewDeploy.Http

structure Url where
  scheme : String
  host : Option String
  /-- The number after the host, unless it is the usual one. -/
  number : Option Nat
  path : String
  query : Option String
  deriving DecidableEq, Repr, Inhabited

namespace Url

/-! ### Percent signs -/

/-- The upper-case hexadecimal digits of a byte after a percent sign. -/
def percent (b : UInt8) : List Char := '%' :: (hexDigits 2 b.toNat).map Char.toUpper

/-- A text with the characters of a set written by their bytes, as all that is not ASCII. -/
def encode (set : Char → Bool) (cs : List Char) : List Char :=
  cs.flatMap fun c =>
    if c.toNat < 0x20 || c.toNat ≥ 0x7F || set c then
      (utf8 (String.ofList [c])).flatMap percent
    else [c]

def inPathSet (c : Char) : Bool := " \"#<>?^\x60\x7b\x7d".contains c

def inQuerySet (c : Char) : Bool := " \"#<>'".contains c

/-- The bytes of a text in which percent signs stand for bytes. -/
def decode : List Char → List UInt8
  | '%' :: a :: b :: rest =>
    match hexValue? a, hexValue? b with
    | some x, some y => UInt8.ofNat (x * 16 + y) :: decode rest
    | _, _ => utf8 "%" ++ decode (a :: b :: rest)
  | c :: rest => utf8 (String.ofList [c]) ++ decode rest
  | [] => []

/-! ### Schemes -/

/-- The schemes of the web, with the numbers that are usual for them. -/
def webNumbers : List (String × Nat) :=
  [("http", 80), ("https", 443), ("ws", 80), ("wss", 443), ("ftp", 21)]

def isWeb (scheme : String) : Bool := (webNumbers.lookup scheme).isSome

def isAsciiLetter (c : Char) : Bool := ('a' ≤ c && c ≤ 'z') || ('A' ≤ c && c ≤ 'Z')

def isAsciiDigit (c : Char) : Bool := '0' ≤ c && c ≤ '9'

/-- The scheme in front of a text, in lower case, and what follows its colon. -/
def splitScheme (cs : List Char) : Option (String × List Char) :=
  let scheme := cs.takeWhile fun c => isAsciiLetter c || isAsciiDigit c || "+-.".contains c
  match scheme, cs.drop scheme.length with
  | c :: _, ':' :: rest =>
    if isAsciiLetter c then some (String.ofList (scheme.map Char.toLower), rest) else none
  | _, _ => none

/-! ### Hosts -/

/-- A number in the notation of addresses: `0x` before sixteen digits, `0` before eight. -/
def addressNumber? (cs : List Char) : Option Nat :=
  let value (base : Nat) (digits : List Char) : Option Nat :=
    digits.foldlM (fun n c => (hexValue? c).bind fun d =>
      if d < base then some (n * base + d) else none) 0
  match cs with
  | [] => none
  | '0' :: 'x' :: rest => value 16 rest
  | '0' :: 'X' :: rest => value 16 rest
  | '0' :: rest => value 8 rest
  | cs => value 10 cs

/-- The parts of a text between separators. -/
def splitAt (isSeparator : Char → Bool) : List Char → List (List Char)
  | [] => [[]]
  | c :: rest =>
    if isSeparator c then [] :: splitAt isSeparator rest
    else
      match splitAt isSeparator rest with
      | [] => [[c]]
      | part :: parts => (c :: part) :: parts

/-- The labels of a name, without an empty one at the end. -/
def labels (cs : List Char) : List (List Char) :=
  let parts := splitAt (· = '.') cs
  if parts.length > 1 && parts.getLast? = some [] then parts.dropLast else parts

/-- The last label is a number, so that the whole must be an address. -/
def endsInNumber (cs : List Char) : Bool :=
  match (labels cs).getLast? with
  | none | some [] => false
  | some label =>
    label.all isAsciiDigit || (label.take 2 = ['0', 'x'] && (addressNumber? label).isSome)

/-- The labels are an address of four bytes, of which the last label may hold several. -/
def isAddress (cs : List Char) : Bool :=
  let parts := labels cs
  match parts.mapM addressNumber? with
  | none => false
  | some numbers =>
    parts.length ≤ 4 && numbers.dropLast.all (· < 256) &&
      (numbers.getLast?.getD 0) < Nat.pow 256 (5 - parts.length)

/-- A group of an address of sixteen bytes. -/
def isGroup (cs : List Char) : Bool :=
  !cs.isEmpty && cs.length ≤ 4 && cs.all fun c => (hexValue? c).isSome

/-- How many groups of two bytes the parts between colons make, the last perhaps four bytes. -/
def groupCount? : List (List Char) → Option Nat
  | [] => some 0
  | [part] =>
    if isGroup part then some 1
    else if part.contains '.' && (splitAt (· = '.') part).length = 4 && isAddress part then some 2
    else none
  | part :: parts => if isGroup part then (groupCount? parts).map (· + 1) else none

/-- The text around the first two colons in a row. -/
def splitGap : List Char → Option (List Char × List Char)
  | ':' :: ':' :: rest => some ([], rest)
  | c :: rest => (splitGap rest).map fun (before, after) => (c :: before, after)
  | [] => none

/-- An address of sixteen bytes, with at most one gap. -/
def isLongAddress (cs : List Char) : Bool :=
  let count (cs : List Char) : Option Nat :=
    if cs.isEmpty then some 0 else groupCount? (splitAt (· = ':') cs)
  match splitGap cs with
  | none => count cs = some 8
  | some (before, after) =>
    match count before, count after with
    | some n, some m => n + m < 8 && !before.contains '.'
    | _, _ => false

/-- Characters that no host has. -/
def forbidden : List Char :=
  "\x00\t\n\r #/:<>?@[\\]^|".toList

/-- Characters that no host of the web has. -/
def isForbiddenOnWeb (c : Char) : Bool :=
  forbidden.contains c || c.toNat < 0x20 || c = '%' || c.toNat = 0x7F

/-- The host that a text names. -/
def host? (web : Bool) (cs : List Char) : Option String :=
  match cs with
  | '[' :: rest =>
    if rest.getLast? = some ']' && isLongAddress rest.dropLast then
      some (String.ofList (cs.map Char.toLower))
    else none
  | _ =>
    if web then do
      let name ← ofUtf8? (decode cs)
      let name := name.toList.map Char.toLower
      if name.isEmpty || name.any isForbiddenOnWeb then none
      else if endsInNumber name && !isAddress name then none
      else some (String.ofList name)
    else if cs.any forbidden.contains then none
    else some (String.ofList (encode (fun _ => false) cs))

/-- The number that digits name, if there are digits. -/
def number? (cs : List Char) : Option (Option Nat) :=
  if cs.isEmpty then some none
  else if cs.all isAsciiDigit then
    let n := cs.foldl (fun n c => n * 10 + (c.toNat - '0'.toNat)) 0
    if n < 65536 then some (some n) else none
  else none

/-- Cuts a text into a host and what follows its colon. -/
def splitNumber : List Char → List Char × Option (List Char)
  | '[' :: rest =>
    let inside := rest.takeWhile (· ≠ ']')
    match rest.drop inside.length with
    | ']' :: ':' :: digits => ('[' :: (inside ++ [']']), some digits)
    | after => ('[' :: (inside ++ after), none)
  | cs =>
    let host := cs.takeWhile (· ≠ ':')
    match cs.drop host.length with
    | _ :: digits => (host, some digits)
    | [] => (host, none)

/-- The text after the last at sign. -/
def afterUser (cs : List Char) : List Char := (cs.reverse.takeWhile (· ≠ '@')).reverse

/-- The host and the number between the slashes. -/
def authority? (scheme : String) (cs : List Char) : Option (Option String × Option Nat) := do
  let (name, digits) := splitNumber (afterUser cs)
  let number ← number? (digits.getD [])
  let number := if number = webNumbers.lookup scheme then none else number
  if name.isEmpty then if isWeb scheme || !cs.isEmpty then none else some (none, none)
  else
    let host ← host? (isWeb scheme) name
    some (some host, number)

/-! ### Paths -/

/-- A dot, plain or written by its byte. -/
def isDot (cs : List Char) : Bool := [".", "%2e"].contains (String.ofList (cs.map Char.toLower))

def isTwoDots (cs : List Char) : Bool :=
  ["..", ".%2e", "%2e.", "%2e%2e"].contains (String.ofList (cs.map Char.toLower))

/-- The parts of a path that stand, the last one first, after taking some more in turn. -/
def standing (done : List (List Char)) : List (List Char) → List (List Char)
  | [] => done
  | [part] =>
    if isTwoDots part then [] :: done.tail
    else if isDot part then [] :: done
    else encode inPathSet part :: done
  | part :: rest =>
    if isTwoDots part then standing done.tail rest
    else if isDot part then standing done rest
    else standing (encode inPathSet part :: done) rest

/-- A path in the form in which it is sent. -/
def pathOf (web : Bool) (cs : List Char) : String :=
  let isSlash (c : Char) : Bool := c = '/' || (web && c = '\\')
  let parts := match cs with
    | c :: rest => splitAt isSlash (if isSlash c then rest else cs)
    | [] => [[]]
  String.ofList ('/' :: (['/'].intercalate (standing [] parts).reverse))

/-- The path and the query that follow the host; what follows a hash is not sent. -/
def finish (scheme : String) (host : Option String) (number : Option Nat) (cs : List Char) :
    Url :=
  let cs := cs.takeWhile (· ≠ '#')
  let path := cs.takeWhile (· ≠ '?')
  { scheme, host, number
    path := pathOf (isWeb scheme) path
    query := match cs.drop path.length with
      | [] => none
      | _ :: query => some (String.ofList (encode inQuerySet query)) }

/-- A text without blanks at its ends and line breaks in it. -/
def clean (text : String) : List Char :=
  let isBlank (c : Char) : Bool := c.toNat ≤ 0x20
  let cs := ((text.toList.dropWhile isBlank).reverse.dropWhile isBlank).reverse
  cs.filter fun c => c ≠ '\t' ∧ c ≠ '\n' ∧ c ≠ '\r'

/-- The URL that a text is. -/
def parse? (text : String) : Option Url := do
  let (scheme, rest) ← splitScheme (clean text)
  let web := isWeb scheme
  let isEnd (c : Char) : Bool := "/?#".contains c || (web && c = '\\')
  if web || rest.take 2 = ['/', '/'] then
    let rest := if web then rest.dropWhile fun c => c = '/' || c = '\\' else rest.drop 2
    let authority := rest.takeWhile fun c => !isEnd c
    let (host, number) ← authority? scheme authority
    pure (finish scheme host number (rest.drop authority.length))
  else pure (finish scheme none none rest)

/-- What of a URL is sent to its host. -/
def target (u : Url) : String :=
  match u.query with
  | some q => u.path ++ "?" ++ q
  | none => u.path

/-- A URL as a text. -/
def text (u : Url) : String :=
  let number := (u.number.map fun n => ":" ++ toString n).getD ""
  match u.host with
  | some host => u.scheme ++ "://" ++ host ++ number ++ u.target
  | none => u.scheme ++ ":" ++ u.target

/-- A URL with one more pair in its query. -/
def addQuery (name value : String) (u : Url) : Url :=
  let pair := name ++ "=" ++ value
  { u with query := match u.query with
      | some q => if q.isEmpty then some pair else some (q ++ "&" ++ pair)
      | none => some pair }

end Url

end PreviewDeploy.Http
