import UiTree.Xml.Declaration
import UiTree.Xml.Encoding
import UiTree.Xml.Token
import UiTree.Xml.Tree
import UiTree.Xml.Uri

/-!
# UiTree.Xml.Document -- reading whole documents

Tokens become a tree: start and end tags must match, exactly one element stands at the top, and
outside of it there are only blanks, comments and instructions. Names are expanded by the namespace
declarations in force.

* **The builder.** `Builder` holds the open elements, innermost first, each with what it contains so
  far. A tag that does not fit, a repeated attribute or too deep nesting ends the reading; defects
  of names and namespaces are noted.
* **Result.** `Document.read` gives the nodes of an accepted document, and whether its own
  declarations replace entities.
-/

namespace UiTree.Xml

/-- An accepted document: its nodes, and whether it declares entities that stand for text. -/
structure Document where
  nodes : List Node
  replacesEntities : Bool

/-- An element whose end tag has not been met. -/
structure OpenElement where
  text : Text
  opening : Opening
  scope : List Binding
  content : List Node

/-- The state of building a tree. Contents and notices are in reverse. -/
structure Builder where
  stack : List OpenElement
  done : List Node
  rootSeen : Bool
  seenIds : List Text
  notices : List Notice

namespace Builder

/-- Nothing read yet. -/
def start : Builder := ⟨[], [], false, [], []⟩

/-- The deepest nesting of elements that is read. -/
def maxOpen : Nat := 256

/-- Puts a node after the last one; character data joins character data. -/
def append (n : Node) (ns : List Node) : List Node :=
  match n, ns with
  | .text t, .text u :: rest => .text (u ++ t) :: rest
  | n, ns => n :: ns

/-- Adds a node at the current place. -/
def add (b : Builder) (n : Node) : Builder :=
  match b.stack with
  | [] => { b with done := append n b.done }
  | e :: rest => { b with stack := { e with content := append n e.content } :: rest }

/-- Adds a notice. -/
def note (b : Builder) (n : Notice) : Builder := { b with notices := n :: b.notices }

/-- Adds several notices. -/
def noteAll (b : Builder) (ns : List Notice) : Builder := ns.foldl note b

/-- The namespace name that a qualifier is bound to. -/
def lookup (scope : List Binding) (qualifier : Option Text) : Option Text :=
  (scope.find? fun s => s.qualifier == qualifier).map Binding.uri

/-- What a namespace declaration does: notices, and a binding unless it is refused. -/
def declare (qualifier : Option Text) (uri : Text) : List Notice × Option Binding :=
  let shape : List Notice :=
    if uri.isEmpty then []
    else if !Uri.isReference uri then [.fault]
    else if qualifier.isNone && !Uri.isAbsolute uri then [.warning]
    else []
  match qualifier with
  | none =>
    if uri = xmlNamespace ∨ uri = bindingNamespace then (shape ++ [.fault], none)
    else (shape, some ⟨none, uri⟩)
  | some q =>
    if q = "xml".toList then (if uri = xmlNamespace then [] else [.fault], none)
    else if uri = xmlNamespace ∨ q = "xmlns".toList ∨ uri = bindingNamespace ∨ uri.isEmpty then
      ([.fault], none)
    else (shape, some ⟨some q, uri⟩)

/-- The qualifier that an attribute declares a namespace for, if it declares one. -/
def declaredQualifier? (n : WrittenName) : Option (Option Text) :=
  match n.qualifier with
  | none => if n.base = "xmlns".toList then some none else none
  | some q => if q = "xmlns".toList then some (some n.base) else none

/-- A name as its element expands it; an unbound qualifier stays in the base, and is a fault. -/
def expand (scope : List Binding) (n : WrittenName) (useDefault : Bool) : Name × List Notice :=
  match n.qualifier with
  | none =>
    match if useDefault then lookup scope none else none with
    | some (c :: u) => (⟨some (c :: u), none, n.base⟩, [])
    | _ => (⟨none, none, n.base⟩, [])
  | some q =>
    if q = "xml".toList then (⟨some xmlNamespace, some q, n.base⟩, [])
    else
      match lookup scope (some q) with
      | some u => (⟨some u, some q, n.base⟩, [])
      | none => (⟨none, none, n.text⟩, [.fault])

/-- Is a value an identifier, blanks around it apart? -/
def isIdentifier (t : Text) : Bool :=
  match readNCName (skipSpace t) with
  | some (_, rest) => (skipSpace rest).isEmpty
  | none => false

/-- What the attributes of a start tag amount to: bindings and attributes in order, and notices. -/
structure Attributes where
  bindings : List Binding
  plain : List (WrittenName × Text)
  notices : List Notice

/-- The notices about one attribute as written. -/
def writtenNotices (a : WrittenAttribute) : List Notice :=
  (if a.name.flawed then [.fault] else []) ++ a.value.undeclared.map fun _ => .undeclared

/-- Sorts the attributes of a start tag; none when a namespace is declared twice for a qualifier. -/
def sortAttributes (special : Text → Bool) : List WrittenAttribute → Attributes → Option Attributes
  | [], acc => some acc
  | a :: rest, acc =>
    let value := if special a.name.text then collapseSpaces a.value.content else a.value.content
    let notices := acc.notices ++ writtenNotices a
    match declaredQualifier? a.name with
    | some q =>
      match declare q value with
      | (more, none) => sortAttributes special rest { acc with notices := notices ++ more }
      | (more, some s) =>
        if acc.bindings.any fun s => s.qualifier == q then none
        else
          sortAttributes special rest
            { acc with bindings := acc.bindings ++ [s], notices := notices ++ more }
    | none =>
      let oddSpace : List Notice :=
        if a.name.text = "xml:space".toList ∧ value ≠ "default".toList
            ∧ value ≠ "preserve".toList then
          [.warning]
        else []
      sortAttributes special rest
        { acc with plain := acc.plain ++ [(a.name, value)], notices := notices ++ oddSpace }

/-- The attributes with expanded names, and the notices about them; none when a name is repeated. -/
def expandAttributes (scope : List Binding) :
    List (WrittenName × Text) → List (Text × Attr) → List Notice → Option (List Attr × List Notice)
  | [], acc, notices => some (acc.map Prod.snd, notices)
  | (n, value) :: rest, acc, notices =>
    let (name, more) := expand scope n false
    if acc.any fun a => a.1 == n.text then none
    else
      let again : List Notice :=
        if name.uri.isSome &&
            acc.any fun a => a.2.name.base == name.base && a.2.name.uri == name.uri
        then [.fault]
        else []
      expandAttributes scope rest (acc ++ [(n.text, ⟨name, value⟩)]) (notices ++ more ++ again)

/-- The notices about the identifiers of an element. -/
def idNotices (seen : List Text) : List Text → List Notice
  | [] => []
  | i :: rest => (if seen.contains i then [.fault] else []) ++ idNotices (i :: seen) rest

/-- Opens an element. -/
def openElement (d : Doctype) (b : Builder) (n : WrittenName) (attributes : List WrittenAttribute) :
    Option Builder :=
  -- what ends the reading comes first; everything after it is only noted
  if maxOpen < b.stack.length then none
  else if b.stack.isEmpty && b.rootSeen then none
  else do
    let special := fun a => d.special.contains (n.text, a)
    let sorted ← sortAttributes special attributes ⟨[], [], []⟩
    let outer := match b.stack with | e :: _ => e.scope | [] => []
    -- the declarations of a tag hold for the tag itself, wherever they stand in it
    let scope := sorted.bindings.reverse ++ outer
    let (attrs, attrNotices) ← expandAttributes scope sorted.plain [] []
    let (name, nameNotices) := expand scope n true
    let xmlIds := (sorted.plain.filter fun a => a.1.text == "xml:id".toList).map Prod.snd
    let declaredIds := (sorted.plain.filter fun a => d.ids.contains (n.text, a.1.text)).map Prod.snd
    let badIds := (xmlIds.filter fun i => !isIdentifier i).map fun _ => Notice.fault
    let ids := xmlIds ++ declaredIds
    let b := b.noteAll (if n.flawed then [.fault] else [])
    let b := b.noteAll (sorted.notices ++ attrNotices ++ nameNotices)
    let b := b.noteAll (badIds ++ idNotices b.seenIds ids)
    return { b with
      stack := ⟨n.text, ⟨name, attrs, sorted.bindings, ids⟩, scope, []⟩ :: b.stack
      rootSeen := true
      seenIds := ids ++ b.seenIds }

/-- Closes the innermost open element. -/
def closeElement (b : Builder) (name : Text) : Option Builder :=
  match b.stack with
  | [] => none
  | e :: rest =>
    if e.text = name then
      some (add { b with stack := rest } (.element e.opening e.content.reverse))
    else none

/-- Takes one token. -/
def step (d : Doctype) (b : Builder) : Token → Option Builder
  | .startTag n attributes closed => do
    let b ← b.openElement d n attributes
    if closed then b.closeElement n.text else some b
  | .endTag name => b.closeElement name
  | .plain t =>
    if b.stack.isEmpty then (if t.all isSpace then some b else none) else some (b.add (.text t))
  | .referenced c => if b.stack.isEmpty then none else some (b.add (.text [c]))
  | .entity name isDeclared =>
    if b.stack.isEmpty then none
    else
      let b := b.add (.reference name)
      some (if isDeclared then b else b.note .undeclared)
  | .cdata t => if b.stack.isEmpty then none else some (if t.isEmpty then b else b.add (.text t))
  | .comment t => some (b.add (.comment t))
  | .instruction target t => some ((b.noteAll (targetNotices target)).add (.instruction target t))

/-- Takes tokens until one does not fit. -/
def run (d : Doctype) : Builder → List Token → Option Builder
  | b, [] => some b
  | b, k :: ks =>
    match b.step d k with
    | some b => run d b ks
    | none => none

end Builder

/-- The part of a document before its first element: comments and instructions in reverse, and the
document type declaration, of which there is at most one. -/
structure Prolog where
  nodes : List Node
  doctype : Option Doctype
  notices : List Notice

/-- Reads a prolog. The fuel is the length of what is left. -/
def readProlog : Nat → Prolog → Text → Option (Prolog × Text)
  | 0, p, t => some (p, t)
  | fuel + 1, p, t =>
    match skipSpace t with
    | '<' :: '?' :: r => do
      let (target, body, r) ← readInstruction r
      let p := { p with
        nodes := .instruction target body :: p.nodes
        notices := p.notices ++ targetNotices target }
      readProlog fuel p r
    | '<' :: '!' :: '-' :: '-' :: r => do
      let (body, r) ← readComment r
      readProlog fuel { p with nodes := .comment body :: p.nodes } r
    | '<' :: '!' :: r => do
      let r ← Text.cutStart "DOCTYPE".toList r
      let (d, r) ← Doctype.read r
      if p.doctype.isSome then none
      else readProlog fuel { p with doctype := some d, notices := p.notices ++ d.notices } r
    | t => some (p, t)

namespace Document

/-- The document after its XML declaration. -/
def readBody (declaration : Declaration) (t : Text) : Option Document := do
  let oddVersion : List Notice := if declaration.odd then [.warning] else []
  let (prolog, t) ← readProlog (t.length + 1) ⟨[], none, oddVersion⟩ t
  let d := prolog.doctype.getD Doctype.bare
  let known : Entities :=
    ⟨d.entities, !declaration.standalone && (d.external || d.parameterReferences)⟩
  let ks ← tokens known t
  let start := { Builder.start with done := prolog.nodes, notices := prolog.notices.reverse }
  let b ← start.run d ks
  if !b.stack.isEmpty || !b.rootSeen then none
  else if accepts b.notices.reverse then some ⟨b.done.reverse, d.replaces⟩
  else none

/-- The document in a text; with `honest` the text is first read in the encoding that the document
declares, otherwise it is taken as it is. A byte order mark at the start is dropped. -/
def readAs (honest : Bool) (t : Text) : Option Document := do
  let (marked, t) := match t with | '\ufeff' :: r => (true, r) | r => (false, r)
  let (declaration, body) ← Declaration.read t
  -- a byte order mark has settled the encoding already
  if !honest || marked then readBody declaration body
  else
    match declaration.encoding with
    | none => readBody declaration body
    | some name => do
      let e ← Encoding.ofName? name
      let body ← e.decode body
      readBody declaration body

/-- The root element of a document. -/
def root? (d : Document) : Option (Tree Opening) := d.nodes.findSome? Node.elementTree?

end Document

end UiTree.Xml
