import UiTree.Text.Basic

/-!
# UiTree.Text.Blank -- blank characters and trimming

Dumps and hand-written queries are trimmed by the **Unicode reading of white space**: the code
points with the property `White_Space`, together with the four information separators U+001C to
U+001F. A zero-width space and a byte order mark are no blanks.
-/

namespace UiTree.Text

/-- White space in the Unicode sense, or an information separator. -/
def isBlank (c : Char) : Bool :=
  let n := c.toNat
  (0x09 ≤ n && n ≤ 0x0d) || (0x1c ≤ n && n ≤ 0x20) || n == 0x85 || n == 0xa0 || n == 0x1680
    || (0x2000 ≤ n && n ≤ 0x200a) || n == 0x2028 || n == 0x2029 || n == 0x202f || n == 0x205f
    || n == 0x3000

/-- White space in the narrow Unicode sense: the property `White_Space` alone. -/
def isWhite (c : Char) : Bool :=
  isBlank c && !(0x1c ≤ c.toNat && c.toNat ≤ 0x1f)

/-- The text without its leading blanks. -/
def trimStart (t : Text) : Text := t.dropWhile isBlank

/-- The text without the characters at its two ends that satisfy `p`. -/
def trimBoth (p : Char → Bool) (t : Text) : Text :=
  ((t.dropWhile p).reverse.dropWhile p).reverse

/-- The text without its leading and trailing blanks. -/
def trim (t : Text) : Text := trimBoth isBlank t

end UiTree.Text
