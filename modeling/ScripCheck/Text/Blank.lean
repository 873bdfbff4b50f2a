/-!
# Blanks around a number

* `isBlank`: the characters that may surround a number: the blanks of ASCII, and the separators
  and the next-line control beyond it.
* `trim`: a text without the blanks at its ends.
-/

namespace ScripCheck

/-- A blank that may stand before or after a number. -/
def isBlank (c : Char) : Bool :=
  let n := c.toNat
  (0x09 ≤ n && n ≤ 0x0D) || n == 0x20 || n == 0x85 || n == 0xA0 || n == 0x1680 ||
    (0x2000 ≤ n && n ≤ 0x200A) || n == 0x2028 || n == 0x2029 || n == 0x202F || n == 0x205F ||
    n == 0x3000

/-- The text without the blanks at its ends. -/
def trim (cs : List Char) : List Char :=
  ((cs.dropWhile isBlank).reverse.dropWhile isBlank).reverse

end ScripCheck
