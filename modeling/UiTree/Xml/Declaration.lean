import UiTree.Xml.Char

/-!
# UiTree.Xml.Declaration -- the first line of a document

The XML declaration names a version, and may name an encoding and say whether the document stands
alone. Every version `1.x` is read as version 1.0; one other than `1.0` is worth a warning.

* **Strictness.** Parts stand in this order, with blanks between them. A text that begins with
  `<?xml` and a blank is a declaration or no document at all.
-/

namespace UiTree.Xml

/-- What an XML declaration says. -/
structure Declaration where
  odd : Bool
  encoding : Option Text
  standalone : Bool
  deriving DecidableEq, Repr

namespace Declaration

/-- A document without a declaration. -/
def missing : Declaration := ⟨false, none, false⟩

/-- The text after an equals sign with blanks around it. -/
def equalsSign (t : Text) : Option Text :=
  match skipSpace t with
  | '=' :: rest => some (skipSpace rest)
  | _ => none

/-- A value between two equal quotes, read by `p`. -/
def quotedBy (p : Text → Option (Text × Text)) : Text → Option (Text × Text)
  | q :: t =>
    if q = '"' ∨ q = '\'' then
      match p t with
      | some (v, r :: rest) => if r = q then some (v, rest) else none
      | _ => none
    else none
  | [] => none

/-- One digit, a point and any number of digits. -/
def readVersion : Text → Option (Text × Text)
  | a :: '.' :: t =>
    if a.isDigit then
      let (ds, rest) := Text.cutWhile Char.isDigit t
      some (a :: '.' :: ds, rest)
    else none
  | _ => none

/-- The name of an encoding. -/
def readEncodingName (t : Text) : Option (Text × Text) :=
  readRun (fun c => c.isAlpha) (fun c => c.isAlphanum || c == '.' || c == '_' || c == '-') t

/-- The word `yes` or `no`. -/
def readYesNo (t : Text) : Option (Text × Text) :=
  match Text.cutStart "yes".toList t with
  | some rest => some ("yes".toList, rest)
  | none => (Text.cutStart "no".toList t).map fun rest => ("no".toList, rest)

/-- The end of the declaration after optional blanks. -/
def close (t : Text) : Option Text := Text.cutStart ['?', '>'] (skipSpace t)

/-- The word for standing alone, and the end. -/
def readStandalone (d : Declaration) (t : Text) : Option (Declaration × Text) :=
  match Text.cutStart "standalone".toList (skipSpace t) with
  | some rest => do
    let rest ← equalsSign rest
    let (v, rest) ← quotedBy readYesNo rest
    let rest ← close rest
    return ({ d with standalone := v == "yes".toList }, rest)
  | none => (close t).map fun rest => (d, rest)

/-- The encoding, if there is one, and what may follow it. -/
def readEncoding (d : Declaration) (t : Text) : Option (Declaration × Text) :=
  match Text.cutStart ['?', '>'] t with
  | some rest => some (d, rest)
  | none => do
    let t ← needSpace t
    match Text.cutStart "encoding".toList t with
    | none => readStandalone d t
    | some rest => do
      let rest ← equalsSign rest
      let (name, rest) ← quotedBy readEncodingName rest
      let d := { d with encoding := some name }
      match Text.cutStart ['?', '>'] rest with
      | some rest => return (d, rest)
      | none => do
        let rest ← needSpace rest
        readStandalone d rest

/-- The declaration at the start of a document, if there is one, and what follows it; none when the
text begins with a declaration that is no declaration. -/
def read (t : Text) : Option (Declaration × Text) :=
  match (Text.cutStart "<?xml".toList t).bind needSpace with
  | none => some (missing, t)
  | some rest => do
    let rest ← Text.cutStart "version".toList rest
    let rest ← equalsSign rest
    let (version, rest) ← quotedBy readVersion rest
    if version.head? ≠ some '1' then none
    else readEncoding { missing with odd := version != "1.0".toList } rest

end Declaration

end UiTree.Xml
