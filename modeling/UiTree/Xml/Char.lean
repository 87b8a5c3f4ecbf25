import UiTree.Text.Basic

/-!
# UiTree.Xml.Char -- the characters of XML

Which characters a document may hold, which of them are blanks, and which may stand in names. Names
are read three ways: a **name** may hold colons, an **NC name** may not, and a **name token** may
begin with any name character.

* **Readers.** A reader gives what it read and what is left, or nothing. Colons in the wrong place
  do not stop `readQName`; `WrittenName.flawed` records them.
-/

namespace UiTree.Xml

/-- A character that a document may hold. -/
def isXmlChar (c : Char) : Bool :=
  let n := c.toNat
  n == 0x09 || n == 0x0a || n == 0x0d || (0x20 ≤ n && n ≤ 0xd7ff) || (0xe000 ≤ n && n ≤ 0xfffd)
    || (0x10000 ≤ n && n ≤ 0x10ffff)

/-- A blank of markup. -/
def isSpace (c : Char) : Bool := c == ' ' || c == '\t' || c == '\n' || c == '\r'

/-- A character that may begin a name, the colon apart. -/
def isNameStart (c : Char) : Bool :=
  let n := c.toNat
  c.isAlpha || c == '_' || (0xc0 ≤ n && n ≤ 0xd6) || (0xd8 ≤ n && n ≤ 0xf6)
    || (0xf8 ≤ n && n ≤ 0x2ff) || (0x370 ≤ n && n ≤ 0x37d) || (0x37f ≤ n && n ≤ 0x1fff)
    || (0x200c ≤ n && n ≤ 0x200d) || (0x2070 ≤ n && n ≤ 0x218f) || (0x2c00 ≤ n && n ≤ 0x2fef)
    || (0x3001 ≤ n && n ≤ 0xd7ff) || (0xf900 ≤ n && n ≤ 0xfdcf) || (0xfdf0 ≤ n && n ≤ 0xfffd)
    || (0x10000 ≤ n && n ≤ 0xeffff)

/-- A character that may stand in a name, the colon apart. -/
def isNameChar (c : Char) : Bool :=
  let n := c.toNat
  isNameStart c || c.isDigit || c == '-' || c == '.' || n == 0xb7 || (0x300 ≤ n && n ≤ 0x36f)
    || (0x203f ≤ n && n ≤ 0x2040)

/-- A text without its leading blanks. -/
def skipSpace (t : Text) : Text := t.dropWhile isSpace

/-- At least one blank, and what follows all of them. -/
def needSpace : Text → Option Text
  | c :: t => if isSpace c then some (skipSpace t) else none
  | [] => none

/-- The characters at the start of a text that satisfy `p`, unless there are none. -/
def readWhile (p : Char → Bool) (t : Text) : Option (Text × Text) :=
  let (a, b) := Text.cutWhile p t
  if a.isEmpty then none else some (a, b)

/-- A first character that satisfies `p`, and all that follow and satisfy `q`. -/
def readRun (p q : Char → Bool) : Text → Option (Text × Text)
  | c :: t =>
    if p c then
      let (a, b) := Text.cutWhile q t
      some (c :: a, b)
    else none
  | [] => none

/-- A name without colons. -/
def readNCName (t : Text) : Option (Text × Text) := readRun isNameStart isNameChar t

/-- A name, in which colons may stand. -/
def readName (t : Text) : Option (Text × Text) :=
  readRun (fun c => isNameStart c || c == ':') (fun c => isNameChar c || c == ':') t

/-- A name token. -/
def readToken (t : Text) : Option (Text × Text) := readWhile (fun c => isNameChar c || c == ':') t

/-- A name as written: its qualifier, its base, the text of the whole, and whether colons stand in
it where names with namespaces allow none. -/
structure WrittenName where
  text : Text
  qualifier : Option Text
  base : Text
  flawed : Bool
  deriving DecidableEq, Repr

/-- A possibly qualified name. Misplaced colons do not end the reading but flaw the name. -/
def readQName (t : Text) : Option (WrittenName × Text) :=
  match readNCName t with
  | none =>
    match t with
    | ':' :: _ => (readName t).map fun (n, rest) => (⟨n, none, n, true⟩, rest)
    | _ => none
  | some (a, ':' :: r) =>
    match readNCName r with
    | none =>
      let (b, rest) := (readToken r).getD ([], r)
      let n := a ++ ':' :: b
      some (⟨n, none, n, true⟩, rest)
    | some (b, ':' :: r) =>
      let (c, rest) := (readName r).getD ([], r)
      let base := b ++ ':' :: c
      some (⟨a ++ ':' :: base, some a, base, true⟩, rest)
    | some (b, rest) => some (⟨a ++ ':' :: b, some a, b, false⟩, rest)
  | some (a, rest) => some (⟨a, none, a, false⟩, rest)

end UiTree.Xml
