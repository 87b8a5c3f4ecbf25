import UiTree.Datum.Basic
import UiTree.Text.Digit

/-!
# UiTree.Datum.Reader -- reading values from JSON text

A reader takes the rest of a text and returns a value with what follows it. Failures keep the **rest
at the failing character**, so that the position of a failure is the length of the whole text less
the length of that rest.

* **Grammar.** JSON with `NaN`, `Infinity` and `-Infinity` as further numbers; of two fields with
  one name, the later one is what `Datum.field?` finds. A number with a point or an exponent is a
  double, any other is an exact integer of at most 4300 digits.
* **Positions.** An unterminated text is reported at its opening quote, a bad escape at its
  backslash, a bad code unit at its `u`, and everything else at the character that does not fit.
-/

namespace UiTree.Datum

/-- Why a text is no JSON value: it does not fit the grammar at `rest`, or an integer in it is
longer than numbers may be. -/
inductive ReadFault where
  | misfit (rest : Text)
  | longInteger
  deriving Inhabited

/-- The most digits that an integer may have in text. -/
def maxDigits : Nat := 4300

/-- A text without its leading JSON blanks. -/
def skipBlanks (t : Text) : Text :=
  t.dropWhile fun c => c == ' ' || c == '\t' || c == '\n' || c == '\r'

/-- Four hexadecimal digits, with at least one character after them. -/
def readUnit : Text → Option (Nat × Text)
  | a :: b :: c :: d :: e :: rest => do
    let a ← Text.hexValue a
    let b ← Text.hexValue b
    let c ← Text.hexValue c
    let d ← Text.hexValue d
    return (((a * 16 + b) * 16 + c) * 16 + d, e :: rest)
  | _ => none

/-- The character that a letter after a backslash stands for. -/
def escapeValue : Char → Option Char
  | '"' => some '"'
  | '\\' => some '\\'
  | '/' => some '/'
  | 'b' => some '\x08'
  | 'f' => some '\x0c'
  | 'n' => some '\n'
  | 'r' => some '\r'
  | 't' => some '\t'
  | _ => none

/-- One code point written as an escaped code unit or as a pair of them; `none` in place of the
character is an unpaired surrogate. The text begins after the `u`. -/
def readCodePoint (atU : Text) : Except ReadFault (Option Char × Text) :=
  match readUnit (atU.drop 1) with
  | none => .error (.misfit atU)
  | some (hi, rest) =>
    if 0xd800 ≤ hi ∧ hi ≤ 0xdbff then
      match rest with
      | '\\' :: 'u' :: more =>
        if more.length < 5 then .ok (none, rest)
        else
          match readUnit more with
          | none => .error (.misfit ('u' :: more))
          | some (lo, after) =>
            if 0xdc00 ≤ lo ∧ lo ≤ 0xdfff then
              .ok (some (Char.ofNat (0x10000 + (hi - 0xd800) * 0x400 + (lo - 0xdc00))), after)
            else .ok (none, rest)
      | _ => .ok (none, rest)
    else if 0xdc00 ≤ hi ∧ hi ≤ 0xdfff then .ok (none, rest)
    else .ok (some (Char.ofNat hi), rest)

/-- The characters of a text up to its closing quote, the ones read so far in reverse; `sound` is
false once an unpaired surrogate was met. The fuel is the length of what is left. -/
def readTextFrom (opening : Text) : Nat → Text → Text → Bool →
    Except ReadFault (Option Text × Text)
  | 0, _, _, _ => .error (.misfit opening)
  | _ + 1, [], _, _ => .error (.misfit opening)
  | fuel + 1, c :: rest, acc, sound =>
    if c = '"' then .ok (if sound then some acc.reverse else none, rest)
    else if c = '\\' then
      match rest with
      | [] => .error (.misfit opening)
      | 'u' :: _ =>
        match readCodePoint rest with
        | .error e => .error e
        | .ok (some d, after) => readTextFrom opening fuel after (d :: acc) sound
        | .ok (none, after) => readTextFrom opening fuel after acc false
      | d :: after =>
        match escapeValue d with
        | some e => readTextFrom opening fuel after (e :: acc) sound
        | none => .error (.misfit (c :: rest))
    else if c.toNat ≤ 0x1f then .error (.misfit (c :: rest))
    else readTextFrom opening fuel rest (c :: acc) sound

/-- A text after its opening quote; `opening` begins with that quote. -/
def readText (opening : Text) : Except ReadFault (Option Text × Text) :=
  readTextFrom opening opening.length (opening.drop 1) [] true

/-- The number that ASCII digits write. -/
def decimal (ds : Text) : Nat := ds.foldl (fun n c => 10 * n + (c.toNat - 0x30)) 0

/-- The digits of the fraction after a point, when there is a point with a digit after it. -/
def readFraction : Text → Option (Text × Text)
  | '.' :: rest =>
    let (ds, after) := Text.cutWhile Char.isDigit rest
    if ds.isEmpty then none else some (ds, after)
  | _ => none

/-- The exponent after an `e`, when there is one with a digit. -/
def readExponent : Text → Option (Int × Text)
  | c :: rest =>
    if c = 'e' ∨ c = 'E' then
      let (minus, rest) :=
        match rest with
        | '-' :: r => (true, r)
        | '+' :: r => (false, r)
        | r => (false, r)
      let (ds, after) := Text.cutWhile Char.isDigit rest
      if ds.isEmpty then none
      else some (if minus then -(decimal ds : Int) else decimal ds, after)
    else none
  | [] => none

/-- A number: an integer, or a double when it has a fraction or an exponent. -/
def readNumber (t : Text) : Except ReadFault (Datum × Text) :=
  let (minus, body) := match t with | '-' :: r => (true, r) | r => (false, r)
  let whole : Option (Text × Text) :=
    match body with
    | '0' :: rest => some (['0'], rest)
    | c :: _ => if c.isDigit then some (Text.cutWhile Char.isDigit body) else none
    | [] => none
  match whole with
  | none => .error (.misfit t)
  | some (ds, rest) =>
    let (frac, rest₁) := (readFraction rest).getD ([], rest)
    match frac, readExponent rest₁ with
    | [], none =>
      if maxDigits < ds.length then .error .longInteger
      else
        let n : Int := decimal ds
        .ok (.int (if minus then -n else n), rest)
    | frac, some (e, after) =>
      .ok (.real (.ofDecimal minus (decimal (ds ++ frac)) (e - frac.length)), after)
    | frac, none =>
      .ok (.real (.ofDecimal minus (decimal (ds ++ frac)) (-(frac.length : Int))), rest₁)

/-- The words that are values, with their values. -/
def words : List (Text × Datum) :=
  [("null".toList, .null), ("true".toList, .bool true), ("false".toList, .bool false),
   ("NaN".toList, .real .nan), ("Infinity".toList, .real (.infinite false)),
   ("-Infinity".toList, .real (.infinite true))]

/-- A word or a number. -/
def readAtom (t : Text) : Except ReadFault (Datum × Text) :=
  match words.findSome? fun (w, d) => (Text.cutStart w t).map fun rest => (d, rest) with
  | some r => .ok r
  | none => readNumber t

/-- The datum of a text that was read. -/
def ofReadText : Option Text → Datum
  | some t => .text t
  | none => .brokenText

mutual

/-- One value at the start of a text. The fuel bounds the number of readers entered. -/
def readValue : Nat → Text → Except ReadFault (Datum × Text)
  | 0, t => .error (.misfit t)
  | fuel + 1, t =>
    match t with
    | '"' :: _ =>
      match readText t with
      | .ok (r, rest) => .ok (ofReadText r, rest)
      | .error e => .error e
    | '[' :: rest =>
      match skipBlanks rest with
      | ']' :: after => .ok (.list [], after)
      | body =>
        match readItems fuel body with
        | .ok (items, after) => .ok (.list items, after)
        | .error e => .error e
    | '\x7b' :: rest =>
      match skipBlanks rest with
      | '\x7d' :: after => .ok (.record [], after)
      | body =>
        match readFields fuel body with
        | .ok (fields, after) => .ok (.record fields, after)
        | .error e => .error e
    | _ => readAtom t

/-- The items of a list up to its closing bracket. -/
def readItems : Nat → Text → Except ReadFault (List Datum × Text)
  | 0, t => .error (.misfit t)
  | fuel + 1, t =>
    match readValue fuel t with
    | .error e => .error e
    | .ok (x, rest) =>
      match skipBlanks rest with
      | ']' :: after => .ok ([x], after)
      | ',' :: more =>
        match readItems fuel (skipBlanks more) with
        | .ok (xs, after) => .ok (x :: xs, after)
        | .error e => .error e
      | stuck => .error (.misfit stuck)

/-- The fields of a record up to its closing brace. -/
def readFields : Nat → Text → Except ReadFault (List (Text × Datum) × Text)
  | 0, t => .error (.misfit t)
  | fuel + 1, t =>
    match t with
    | '"' :: _ =>
      match readText t with
      | .error e => .error e
      | .ok (key, rest) =>
        match skipBlanks rest with
        | ':' :: more =>
          match readValue fuel (skipBlanks more) with
          | .error e => .error e
          | .ok (x, rest) =>
            let fields := match key with | some k => [(k, x)] | none => []
            match skipBlanks rest with
            | '\x7d' :: after => .ok (fields, after)
            | ',' :: more =>
              match readFields fuel (skipBlanks more) with
              | .ok (xs, after) => .ok (fields ++ xs, after)
              | .error e => .error e
            | stuck => .error (.misfit stuck)
        | stuck => .error (.misfit stuck)
    | stuck => .error (.misfit stuck)

end

/-- Reads a whole text as one value. -/
def read (t : Text) : Except ReadFault Datum :=
  match readValue (2 * t.length + 2) (skipBlanks t) with
  | .error e => .error e
  | .ok (x, rest) =>
    match skipBlanks rest with
    | [] => .ok x
    | stuck => .error (.misfit stuck)

end UiTree.Datum
