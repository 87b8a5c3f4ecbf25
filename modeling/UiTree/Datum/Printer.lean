import UiTree.Datum.Basic

/-!
# UiTree.Datum.Printer -- writing values as JSON text

Values are written without blanks. The characters that must be escaped are: the double quote, the
backslash and the controls below U+0020. The **line separators** beyond ASCII are escaped too, so
that a value is one line by every reading of that word.
-/

namespace UiTree.Datum

/-- A character beyond ASCII that ends a line. -/
def isLineSeparator (c : Char) : Bool := c == '\u0085' || c == '\u2028' || c == '\u2029'

/-- One character of a JSON text. -/
def jsonChar (c : Char) : Text :=
  if c = '"' || c = '\\' then ['\\', c]
  else if c = '\n' then ['\\', 'n']
  else if c = '\r' then ['\\', 'r']
  else if c = '\t' then ['\\', 't']
  else if c.toNat < 0x20 || isLineSeparator c then '\\' :: 'u' :: Text.hex 4 c.toNat
  else [c]

/-- A text between double quotes. -/
def jsonText (t : Text) : Text := '"' :: t.flatMap jsonChar ++ ['"']

mutual

/-- The JSON text of a value. -/
def render : Datum → Text
  | .null => "null".toList
  | .bool b => if b then "true".toList else "false".toList
  | .int i => Text.ofInt i
  | .real x => x.shortest
  | .text t => jsonText t
  | .brokenText => jsonText []
  | .list items => '[' :: renderItems items ++ [']']
  | .record fields => '\x7b' :: renderFields fields ++ ['\x7d']

/-- The items of a list, with commas between them. -/
def renderItems : List Datum → Text
  | [] => []
  | x :: xs => render x ++ (match xs with | [] => [] | _ :: _ => [',']) ++ renderItems xs

/-- The fields of a record, with commas between them. -/
def renderFields : List (Text × Datum) → Text
  | [] => []
  | (k, x) :: xs =>
    jsonText k ++ ':' :: render x ++ (match xs with | [] => [] | _ :: _ => [',']) ++ renderFields xs

end

end UiTree.Datum
