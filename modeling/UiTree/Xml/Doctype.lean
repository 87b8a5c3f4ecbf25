import UiTree.Xml.Notice
import UiTree.Xml.Reference

/-!
# UiTree.Xml.Doctype -- document type declarations

A document type declaration may point to declarations elsewhere, which are never fetched, and may
hold declarations itself. These are checked against their grammar; of what they say, four things
matter later: which general entities exist, which attributes are not plain character data, which of
those are identifiers, and whether there may be declarations that were not read.

* **Grammar.** Elements with content models, attribute lists, entities and notations, comments and
  instructions, and references to parameter entities, which are not followed.
* **Limit.** Values that an attribute list gives by default, be it for an attribute or for a
  namespace declaration, are checked and not applied.
-/

namespace UiTree.Xml

/-- What a document type declaration says. -/
structure Doctype where
  external : Bool
  parameterReferences : Bool
  entities : List Text
  replaces : Bool
  special : List (Text × Text)
  ids : List (Text × Text)
  notices : List Notice

namespace Doctype

/-- A declaration that says nothing. -/
def bare : Doctype := ⟨false, false, [], false, [], [], []⟩

/-- A text between quotes all of whose characters satisfy `p`. -/
def readLiteral (p : Char → Bool) : Text → Option (Text × Text)
  | q :: t =>
    if q = '"' ∨ q = '\'' then
      match Text.cutWhile (fun c => c != q && p c) t with
      | (v, r :: rest) => if r = q then some (v, rest) else none
      | _ => none
    else none
  | [] => none

/-- A character of a public identifier. -/
def isPublicChar (c : Char) : Bool :=
  c == ' ' || c == '\r' || c == '\n' || (c.toNat < 0x80 && c.isAlphanum)
    || "-'()+,./:=?;!*#@$_%".toList.contains c

/-- An external identifier; with `strict` a public one has a system part too. The text is returned
unchanged when there is none. -/
def readExternal (strict : Bool) (t : Text) : Option (Bool × Text) :=
  match Text.cutStart "SYSTEM".toList t with
  | some rest => do
    let rest ← needSpace rest
    let (_, rest) ← readLiteral isXmlChar rest
    return (true, rest)
  | none =>
    match Text.cutStart "PUBLIC".toList t with
    | none => some (false, t)
    | some rest => do
      let rest ← needSpace rest
      let (_, rest) ← readLiteral isPublicChar rest
      match needSpace rest with
      | none => if strict then none else some (true, rest)
      | some after =>
        match readLiteral isXmlChar after with
        | some (_, rest) => some (true, rest)
        | none => if strict then none else some (true, rest)

/-- The text after an optional mark of repetition. -/
def skipMark : Text → Text
  | '?' :: t => t
  | '*' :: t => t
  | '+' :: t => t
  | t => t

/-- The rest of a content model after an opening parenthesis: particles with one kind of separator
between them. The fuel bounds the number of particles and groups. -/
def readGroupFrom : Nat → Option Char → Text → Option Text
  | 0, _, _ => none
  | fuel + 1, separator, t => do
    let rest ←
      match skipSpace t with
      | '(' :: r => (readGroupFrom fuel none r).map skipMark
      | r => (readName r).map fun x => skipMark x.2
    match skipSpace rest with
    | ')' :: r => some r
    | c :: r =>
      if (c = ',' ∨ c = '|') ∧ (separator = none ∨ separator = some c) then
        readGroupFrom fuel (some c) r
      else none
    | [] => none

/-- The rest of a mixed content model after its first word. -/
def readMixedFrom : Nat → Bool → Text → Option Text
  | 0, _, _ => none
  | fuel + 1, named, t =>
    match skipSpace t with
    | ')' :: '*' :: r => some r
    | ')' :: r => if named then none else some r
    | '|' :: r => (readName (skipSpace r)).bind fun x => readMixedFrom fuel true x.2
    | _ => none

/-- A content model. -/
def readContent (t : Text) : Option Text :=
  match Text.cutStart "EMPTY".toList t with
  | some r => some r
  | none =>
    match Text.cutStart "ANY".toList t with
    | some r => some r
    | none =>
      match t with
      | '(' :: r =>
        match Text.cutStart "#PCDATA".toList (skipSpace r) with
        | some r => readMixedFrom (r.length + 1) false r
        | none => (readGroupFrom (r.length + 1) none r).map skipMark
      | _ => none

/-- The end of a declaration after optional blanks. -/
def closeAngle (t : Text) : Option Text :=
  match skipSpace t with
  | '>' :: r => some r
  | _ => none

/-- An element declaration after its keyword. -/
def readElement (t : Text) : Option Text := do
  let t ← needSpace t
  let (_, t) ← readName t
  let t ← needSpace t
  let t ← readContent t
  closeAngle t

/-- Names or name tokens with bars between them, up to a closing parenthesis. -/
def readChoices (reader : Text → Option (Text × Text)) : Nat → Text → Option Text
  | 0, _ => none
  | fuel + 1, t => do
    let (_, t) ← reader (skipSpace t)
    match skipSpace t with
    | ')' :: r => some r
    | '|' :: r => readChoices reader fuel r
    | _ => none

/-- The kinds of attributes whose values are tokens. -/
def tokenKinds : List Text :=
  ["IDREFS".toList, "IDREF".toList, "ID".toList, "ENTITIES".toList, "ENTITY".toList,
   "NMTOKENS".toList, "NMTOKEN".toList]

/-- The type of an attribute: is it character data, and is it an identifier? -/
def readType (t : Text) : Option ((Bool × Bool) × Text) :=
  match Text.cutStart "CDATA".toList t with
  | some r => some ((true, false), r)
  | none =>
    match tokenKinds.findSome? fun k => (Text.cutStart k t).map fun r => (k, r) with
    | some (k, r) => some ((false, k == "ID".toList), r)
    | none =>
      match Text.cutStart "NOTATION".toList t with
      | some r => do
        let r ← needSpace r
        match r with
        | '(' :: r => (readChoices readName (r.length + 1) r).map fun r => ((false, false), r)
        | _ => none
      | none =>
        match t with
        | '(' :: r => (readChoices readToken (r.length + 1) r).map fun r => ((false, false), r)
        | _ => none

/-- The default of an attribute. -/
def readDefault (known : Entities) (t : Text) : Option Text :=
  match Text.cutStart "#REQUIRED".toList t with
  | some r => some r
  | none =>
    match Text.cutStart "#IMPLIED".toList t with
    | some r => some r
    | none => do
      let t ←
        match Text.cutStart "#FIXED".toList t with
        | some r => needSpace r
        | none => some t
      let (_, r) ← readAttributeValue known t
      return r

/-- The attributes of an attribute list, up to its end. -/
def readAttributes (known : Entities) (element : Text) : Nat → Doctype → Text →
    Option (Doctype × Text)
  | 0, _, _ => none
  | fuel + 1, d, t =>
    match skipSpace t with
    | '>' :: r => some (d, r)
    | t => do
      let (name, t) ← readName t
      let t ← needSpace t
      let ((plain, isId), t) ← readType t
      let t ← needSpace t
      let t ← readDefault known t
      let t ←
        match t with
        | '>' :: _ => some t
        | _ => needSpace t
      let d := if plain then d else { d with special := d.special ++ [(element, name)] }
      let d := if isId then { d with ids := d.ids ++ [(element, name)] } else d
      readAttributes known element fuel d t

/-- An attribute list after its keyword. -/
def readAttributeList (d : Doctype) (t : Text) : Option (Doctype × Text) := do
  let t ← needSpace t
  let (element, t) ← readName t
  readAttributes ⟨d.entities, true⟩ element (t.length + 1) d t

/-- Is this a well-formed entity value? Percent signs may not stand in it. -/
def isEntityValue : Nat → Text → Bool
  | 0, _ => true
  | _ + 1, [] => true
  | fuel + 1, c :: t =>
    if c = '%' then false
    else if c = '&' then
      match readReference ⟨[], true⟩ t with
      | some (_, rest) => isEntityValue fuel rest
      | none => false
    else isEntityValue fuel t

/-- What an entity declaration gives: whether the entity is parsed, and the rest. -/
def readEntityBody (parameter : Bool) (t : Text) : Option (Bool × Text) :=
  match t with
  | q :: _ =>
    if q = '"' ∨ q = '\'' then do
      let (v, t) ← readLiteral isXmlChar t
      if isEntityValue v.length v then (closeAngle t).map fun r => (true, r) else none
    else do
      let (found, t) ← readExternal true t
      if !found then none
      else if parameter then (closeAngle t).map fun r => (true, r)
      else
        match (needSpace t).bind (Text.cutStart "NDATA".toList) with
        | some t => do
          let t ← needSpace t
          let (_, t) ← readName t
          (closeAngle t).map fun r => (false, r)
        | none => (closeAngle t).map fun r => (true, r)
  | [] => none

/-- An entity declaration after its keyword. -/
def readEntity (d : Doctype) (t : Text) : Option (Doctype × Text) := do
  let t ← needSpace t
  let (parameter, t) ←
    match t with
    | '%' :: r => (needSpace r).map fun r => (true, r)
    | _ => some (false, t)
  let (name, t) ← readName t
  let t ← needSpace t
  let (parsed, t) ← readEntityBody parameter t
  let d := if name.contains ':' then { d with notices := d.notices ++ [.fault] } else d
  if parameter then return (d, t)
  else return ({ d with entities := d.entities ++ [name], replaces := d.replaces || parsed }, t)

/-- A notation declaration after its keyword. -/
def readNotation (t : Text) : Option Text := do
  let t ← needSpace t
  let (_, t) ← readName t
  let t ← needSpace t
  let (found, t) ← readExternal false t
  if found then closeAngle t else none

/-- The declarations up to the closing bracket. The fuel is the length of what is left. -/
def readSubset : Nat → Doctype → Text → Option (Doctype × Text)
  | 0, _, _ => none
  | fuel + 1, d, t =>
    match skipSpace t with
    | ']' :: r => some (d, r)
    | '%' :: r => do
      let (_, r) ← readName r
      let r ← Text.cutStart [';'] r
      readSubset fuel { d with parameterReferences := true } r
    | '<' :: '?' :: r => do
      let (target, _, r) ← readInstruction r
      readSubset fuel { d with notices := d.notices ++ targetNotices target } r
    | '<' :: '!' :: '-' :: '-' :: r => do
      let (_, r) ← readComment r
      readSubset fuel d r
    | '<' :: '!' :: r =>
      match Text.cutStart "ELEMENT".toList r with
      | some r => (readElement r).bind fun r => readSubset fuel d r
      | none =>
        match Text.cutStart "ATTLIST".toList r with
        | some r => (readAttributeList d r).bind fun (d, r) => readSubset fuel d r
        | none =>
          match Text.cutStart "ENTITY".toList r with
          | some r => (readEntity d r).bind fun (d, r) => readSubset fuel d r
          | none =>
            match Text.cutStart "NOTATION".toList r with
            | some r => (readNotation r).bind fun r => readSubset fuel d r
            | none => none
    | _ => none

/-- A document type declaration after its keyword. -/
def read (t : Text) : Option (Doctype × Text) := do
  let (_, t) ← readName (skipSpace t)
  let (external, t) ← readExternal true (skipSpace t)
  let d := { bare with external := external }
  match skipSpace t with
  | '[' :: r => do
    let (d, r) ← readSubset (r.length + 1) d r
    let r ← closeAngle r
    return (d, r)
  | '>' :: r => return (d, r)
  | _ => none

end Doctype

end UiTree.Xml
