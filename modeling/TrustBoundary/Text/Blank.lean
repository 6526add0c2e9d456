/-!
# Blanks around a text

`isBlank` is the Unicode property *White_Space*; `trim` takes blanks off both ends of a text and
nothing else.
-/

namespace TrustBoundary.Text

/-- Whether a character has the Unicode property *White_Space*. -/
def isBlank (c : Char) : Bool :=
  let n := c.toNat
  (0x09 ≤ n && n ≤ 0x0d) || n == 0x20 || n == 0x85 || n == 0xa0 || n == 0x1680 ||
    (0x2000 ≤ n && n ≤ 0x200a) || n == 0x2028 || n == 0x2029 || n == 0x202f || n == 0x205f ||
    n == 0x3000

/-- The text without the blanks in front of it. -/
def trimLeft (cs : List Char) : List Char := cs.dropWhile isBlank

/-- The text without the blanks on either side. -/
def trim (cs : List Char) : List Char := (trimLeft (trimLeft cs).reverse).reverse

end TrustBoundary.Text
