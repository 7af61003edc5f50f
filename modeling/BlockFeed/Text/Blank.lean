/-!
# Blank characters

The white space of Unicode, and texts without the white space around them.

## Main definitions

* `Text.isBlank`: the property `White_Space`.
* `Text.trim`: a text without blank characters at its ends.
-/

namespace BlockFeed.Text

def isBlank (c : Char) : Bool :=
  let n := c.toNat
  (9 ≤ n && n ≤ 13) || n == 32 || n == 0x85 || n == 0xa0 || n == 0x1680
    || (0x2000 ≤ n && n ≤ 0x200a) || n == 0x2028 || n == 0x2029 || n == 0x202f || n == 0x205f
    || n == 0x3000

/-- The characters from the first to the last that is not blank. -/
def trimChars (cs : List Char) : List Char :=
  ((cs.dropWhile isBlank).reverse.dropWhile isBlank).reverse

/-- A text without blank characters at its ends. -/
def trim (s : String) : String := String.ofList (trimChars s.toList)

end BlockFeed.Text
