/-!
# Blank characters

The characters with the Unicode property White_Space, and the removal of them from both ends of a
text. Texts are lists of characters here and in all readers: that is the form which a reader takes
apart and about which it is proved what it accepts.
-/

namespace GraphSearch.Text

/-- Whether a character has the property White_Space. -/
def isBlank (c : Char) : Bool :=
  let n := c.toNat
  (0x09 ≤ n && n ≤ 0x0D) || n == 0x20 || n == 0x85 || n == 0xA0 || n == 0x1680 ||
    (0x2000 ≤ n && n ≤ 0x200A) || n == 0x2028 || n == 0x2029 || n == 0x202F || n == 0x205F ||
    n == 0x3000

/-- The text without the blanks at its beginning and end. -/
def trim (text : List Char) : List Char :=
  ((text.dropWhile isBlank).reverse.dropWhile isBlank).reverse

example : trim ['\t', 'a', ' ', 'b', '\r'] = ['a', ' ', 'b'] := by decide

end GraphSearch.Text
