import UiTree.Text.Digit
import UiTree.Text.Quoted
import UiTree.Text.Utf8

/-!
# UiTree.Text.Percent -- characters of a web address

In a web address a byte may be written as a percent sign and two hexadecimal digits. Decoding takes
every **run of ASCII characters** as bytes and reads them as UTF-8; a percent sign without two
digits stands for itself, and so does every other character. Encoding writes the bytes of each
character that is not among the plain ones.
-/

namespace UiTree.Text

/-- The bytes that a run of ASCII characters writes. -/
def percentBytes : Text → List Nat
  | [] => []
  | '%' :: a :: b :: t =>
    match hexValue a, hexValue b with
    | some x, some y => (16 * x + y) :: percentBytes t
    | _, _ => '%'.toNat :: percentBytes (a :: b :: t)
  | c :: t => c.toNat :: percentBytes t

/-- Decodes a text after a run of ASCII characters, which is given in reverse. -/
def percentDecodeFrom (run : Text) : Text → Text
  | [] => ofUtf8 (percentBytes run.reverse)
  | c :: t =>
    if c.toNat < 0x80 then percentDecodeFrom (c :: run) t
    else ofUtf8 (percentBytes run.reverse) ++ c :: percentDecodeFrom [] t

/-- The text that a percent-encoded text stands for. -/
def percentDecode (t : Text) : Text := percentDecodeFrom [] t

/-- One byte in percent-encoded form. -/
def percentByte (b : Nat) : Text := '%' :: (hex 2 b).map Char.toUpper

/-- The percent-encoded form of a text, in which the characters that satisfy `plain` stand for
themselves. -/
def percentEncode (plain : Char → Bool) (t : Text) : Text :=
  t.flatMap fun c => if plain c then [c] else (utf8Bytes c).flatMap percentByte

end UiTree.Text
