/-!
# White space

The white space of the Unicode property of that name, and texts without it at their ends.
-/

namespace PreviewDeploy.Text

/-- White space by the Unicode property. -/
def isSpace (c : Char) : Bool :=
  let n := c.toNat
  (0x9 ≤ n && n ≤ 0xD) || n = 0x20 || n = 0x85 || n = 0xA0 || n = 0x1680 ||
    (0x2000 ≤ n && n ≤ 0x200A) || n = 0x2028 || n = 0x2029 || n = 0x202F || n = 0x205F ||
    n = 0x3000

def skipSpace (cs : List Char) : List Char := cs.dropWhile isSpace

/-- A text without the white space at its ends. -/
def trim (s : String) : String :=
  String.ofList (skipSpace (skipSpace s.toList).reverse).reverse

end PreviewDeploy.Text
