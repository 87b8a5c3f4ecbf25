import UiTree.Text.Printable

/-!
# UiTree.Text.Quoted -- quoted and escaped text

Messages quote the texts they speak about. A quoted text stands between **single quotes**, unless it
holds a single quote and no double quote: then it stands between double quotes. A backslash and the
quote in use are escaped by a backslash, tab, line feed and carriage return by their letters, and
every other character that is not printable by its code point in two, four or eight hexadecimal
digits, after `x`, `u` or `U`.
-/

namespace UiTree.Text

/-- The hexadecimal digits of `n`, at least `width` of them. -/
def hex (width n : Nat) : Text :=
  let ds := Nat.toDigits 16 n
  List.replicate (width - ds.length) '0' ++ ds

/-- The escaped form of a character that is not printable. -/
def escapeCode (c : Char) : Text :=
  let n := c.toNat
  if n ≤ 0xff then '\\' :: 'x' :: hex 2 n
  else if n ≤ 0xffff then '\\' :: 'u' :: hex 4 n
  else '\\' :: 'U' :: hex 8 n

/-- One character of a text quoted with the quote `q`. -/
def escape (q c : Char) : Text :=
  if c = q || c = '\\' then ['\\', c]
  else if c = '\t' then ['\\', 't']
  else if c = '\n' then ['\\', 'n']
  else if c = '\r' then ['\\', 'r']
  else if isPrintable c then [c]
  else escapeCode c

/-- The quote that a text is put between. -/
def quoteMark (t : Text) : Char :=
  if t.contains '\'' && !t.contains '"' then '"' else '\''

/-- The quoted form of a text. -/
def quoted (t : Text) : Text :=
  let q := quoteMark t
  q :: t.flatMap (escape q) ++ [q]

end UiTree.Text
