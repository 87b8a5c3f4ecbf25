import UiTree.Xml.Doctype

/-!
# UiTree.Xml.Token -- the markup of a document

The text after the prolog is cut into **tokens**: start and end tags, runs of character data,
references, comments and instructions. Cutting checks everything that can be checked without looking
at other tokens; how tags nest is the business of the tree.

* **Ends of lines.** In character data an end of line is one line feed, however it was written.
* **Fuel.** Every token takes at least one character, so the length of the text bounds their number.
-/

namespace UiTree.Xml

/-- An attribute as written. -/
structure WrittenAttribute where
  name : WrittenName
  value : WrittenValue

/-- A piece of markup or of character data. -/
inductive Token where
  | startTag (name : WrittenName) (attributes : List WrittenAttribute) (closed : Bool)
  | endTag (name : Text)
  | plain (content : Text)
  | referenced (c : Char)
  | entity (name : Text) (isDeclared : Bool)
  | cdata (content : Text)
  | comment (content : Text)
  | instruction (target content : Text)

/-- Every end of line as one line feed. -/
def normalizeEnds : Text → Text
  | '\r' :: '\n' :: t => '\n' :: normalizeEnds t
  | '\r' :: t => '\n' :: normalizeEnds t
  | c :: t => c :: normalizeEnds t
  | [] => []

/-- The attributes of a start tag up to its end; blanks stand between neighbours. -/
def readAttributesFrom (known : Entities) : Nat → Text →
    Option ((List WrittenAttribute × Bool) × Text)
  | 0, _ => none
  | fuel + 1, t =>
    match t with
    | '>' :: rest => some (([], false), rest)
    | '/' :: '>' :: rest => some (([], true), rest)
    | t => do
      let (name, t) ← readQName t
      let t ← Text.cutStart ['='] (skipSpace t)
      let (value, t) ← readAttributeValue known (skipSpace t)
      let t ←
        match t with
        | '>' :: _ => some t
        | '/' :: '>' :: _ => some t
        | t => needSpace t
      let ((more, closed), rest) ← readAttributesFrom known fuel t
      return ((⟨name, value⟩ :: more, closed), rest)

/-- A start tag after its opening angle. -/
def readStartTag (known : Entities) (t : Text) : Option (Token × Text) := do
  let (name, t) ← readQName t
  let t := skipSpace t
  let ((attributes, closed), rest) ← readAttributesFrom known (t.length + 1) t
  return (.startTag name attributes closed, rest)

/-- An end tag after its opening angle and slash. -/
def readEndTag (t : Text) : Option (Token × Text) := do
  let (name, t) ← readQName t
  let rest ← Doctype.closeAngle t
  return (.endTag name.text, rest)

/-- What begins with an angle and an exclamation mark. -/
def readBang (t : Text) : Option (Token × Text) :=
  match Text.cutStart ['-', '-'] t with
  | some rest => (readComment rest).map fun (body, rest) => (.comment body, rest)
  | none => do
    let rest ← Text.cutStart "[CDATA[".toList t
    let (body, rest) ← Text.cutAt [']', ']', '>'] rest
    if body.all isXmlChar then some (.cdata (normalizeEnds body), rest) else none

/-- One token. -/
def readToken? (known : Entities) (t : Text) : Option (Token × Text) :=
  match t with
  | [] => none
  | '<' :: '/' :: rest => readEndTag rest
  | '<' :: '?' :: rest =>
    (readInstruction rest).map fun (target, body, rest) => (.instruction target body, rest)
  | '<' :: '!' :: rest => readBang rest
  | '<' :: rest => readStartTag known rest
  | '&' :: rest =>
    (readReference known rest).map fun (r, rest) =>
      match r with
      | .char c => (.referenced c, rest)
      | .entity name isDeclared => (.entity name isDeclared, rest)
  | t =>
    let (body, rest) := Text.cutWhile (fun c => c != '<' && c != '&') t
    if body.all isXmlChar && !Text.isInfix [']', ']', '>'] body then
      some (.plain (normalizeEnds body), rest)
    else none

/-- All tokens of a text, those read so far in reverse. -/
def tokensFrom (known : Entities) : Nat → Text → List Token → Option (List Token)
  | _, [], acc => some acc.reverse
  | 0, _ :: _, _ => none
  | fuel + 1, t, acc =>
    match readToken? known t with
    | some (k, rest) => tokensFrom known fuel rest (k :: acc)
    | none => none

/-- All tokens of a text. -/
def tokens (known : Entities) (t : Text) : Option (List Token) := tokensFrom known t.length t []

end UiTree.Xml
