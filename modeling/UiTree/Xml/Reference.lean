import UiTree.Text.Digit
import UiTree.Xml.Char

/-!
# UiTree.Xml.Reference -- references and attribute values

A reference stands for a character: by its code point, by one of the five names that are always
known, or by the name of an entity. Attribute values are normalised: each blank becomes a space, and
an end of line of two characters becomes one space.

* **Unknown entities.** A name that nothing declares is an error unless the declarations were not
  all read; then it is noted and stands for nothing.
-/

namespace UiTree.Xml

/-- What is known about entities: the declared names, and whether there may be others. -/
structure Entities where
  declared : List Text
  mayBeOthers : Bool

/-- What a reference stands for. -/
inductive Reference where
  | char (c : Char)
  | entity (name : Text) (isDeclared : Bool)
  deriving DecidableEq, Repr

/-- The entities that are always known. -/
def knownEntities : List (Text × Char) :=
  [("lt".toList, '<'), ("gt".toList, '>'), ("amp".toList, '&'), ("quot".toList, '"'),
   ("apos".toList, '\'')]

/-- The number that the digits up to a semicolon write, and what follows; it stays at the first
number that is no code point. -/
def readCode (base : Nat) : Nat → Text → Option (Nat × Text)
  | _, [] => none
  | n, ';' :: rest => some (n, rest)
  | n, c :: t =>
    match Text.hexValue c with
    | some d => if d < base then readCode base (min 0x110000 (base * n + d)) t else none
    | none => none

/-- The character of a code point, if a document may hold it. -/
def xmlCharOf? (n : Nat) : Option Char :=
  if n < 0x110000 then
    let c := Char.ofNat n
    if c.toNat = n ∧ isXmlChar c then some c else none
  else none

/-- The reference after an ampersand, and what follows its semicolon. -/
def readReference (known : Entities) : Text → Option (Reference × Text)
  | '#' :: 'x' :: t => do
    let (n, rest) ← readCode 16 0 t
    let c ← xmlCharOf? n
    return (.char c, rest)
  | '#' :: t => do
    let (n, rest) ← readCode 10 0 t
    let c ← xmlCharOf? n
    return (.char c, rest)
  | t =>
    match readName t with
    | some (name, ';' :: rest) =>
      match knownEntities.lookup name with
      | some c => some (.char c, rest)
      | none =>
        if known.declared.contains name then some (.entity name true, rest)
        else if known.mayBeOthers then some (.entity name false, rest)
        else none
    | _ => none

/-- The value of an attribute as written: its normalised characters, and the entities in it that
nothing declares. -/
structure WrittenValue where
  content : Text
  undeclared : List Text

/-- The characters of an attribute value up to the closing quote, those read so far in reverse. The
fuel is the length of what is left. -/
def readValueFrom (known : Entities) (q : Char) :
    Nat → Text → Text → List Text → Option (WrittenValue × Text)
  | 0, _, _, _ => none
  | _ + 1, [], _, _ => none
  | fuel + 1, c :: t, acc, missing =>
    if c = q then some (⟨acc.reverse, missing⟩, t)
    else if c = '<' then none
    else if c = '&' then
      match readReference known t with
      | none => none
      | some (.char d, rest) => readValueFrom known q fuel rest (d :: acc) missing
      | some (.entity name isDeclared, rest) =>
        readValueFrom known q fuel rest acc (if isDeclared then missing else missing ++ [name])
    else if c = '\r' then
      match t with
      | '\n' :: rest => readValueFrom known q fuel rest (' ' :: acc) missing
      | _ => readValueFrom known q fuel t (' ' :: acc) missing
    else if isSpace c then readValueFrom known q fuel t (' ' :: acc) missing
    else if isXmlChar c then readValueFrom known q fuel t (c :: acc) missing
    else none

/-- An attribute value between quotes. -/
def readAttributeValue (known : Entities) : Text → Option (WrittenValue × Text)
  | q :: t =>
    if q = '"' ∨ q = '\'' then readValueFrom known q (t.length + 1) t [] [] else none
  | [] => none

/-- A value without leading and trailing spaces, and with single spaces inside. -/
def collapseSpaces (t : Text) : Text :=
  Text.join [' '] ((Text.pieces ' ' t).filter fun p => !p.isEmpty)

end UiTree.Xml
