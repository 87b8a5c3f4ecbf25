import UiTree.Query.PathText
import UiTree.Snapshot
import UiTree.XPath.Element
import UiTree.XPath.Evaluate
import UiTree.XPath.Reader

/-!
# UiTree.Query.Search -- running queries against a snapshot

There are two routes. On the **path route** a query becomes a path expression that is evaluated on
the document; what it finds beside elements is dropped. On the **outline route** a selector is
matched against the tags of the outline, one by one. Both give nodes in document order.

* **Scopes.** Inside the scope of a node only proper descendants may be found. A query that starts
  at the document is refused there before it is run, and one that leaves the scope after it.
* **Lookups.** `findAll` gives all nodes, `findOne` the first one, `findChildren` those below a
  node; the last two fail when there is none.
-/

namespace UiTree

/-- How a query is run. -/
inductive Route where
  | path
  | outline
  deriving DecidableEq, Repr

namespace Snapshot

variable (s : Snapshot)

/-- What path expressions are evaluated on. -/
def site : XPath.Site := ⟨s.document.nodes, s.bindings⟩

/-- The path of an address that must name a node; without an address, the path of the root. -/
def contextPath (context : Option Address) : Except Fault Path :=
  match context with
  | none => .ok []
  | some a =>
    match (Path.ofAddress? a).bind s.node? with
    | some n => .ok n.path
    | none => .error (.unknownContext a)

/-- The name that messages use for a kind of value that is not places. -/
def kindName : XPath.Value → Text
  | .places _ => "list".toList
  | .truth _ => "bool".toList
  | .number _ => "float".toList
  | .text _ => "_ElementUnicodeResult".toList

/-- The value of a path expression at the node with the given path; none when the text is no
expression or has no value. -/
def valueOf? (path : Text) (context : Path) : Option XPath.Value := do
  let e ← XPath.Expr.read? path
  let t ← s.site.trail? context
  XPath.evaluate s.site ⟨.node t, none⟩ e

/-- The paths of the elements that a path expression finds from an address, in document order. -/
def evaluatePath (path : Text) (context : Option Address) : Report (List Path) := do
  -- a missing context is told before anything that is wrong with the expression
  let origin ← Report.of (s.contextPath context)
  if !path.all Xml.isXmlChar then Report.fail .notXmlText
  else
    match s.valueOf? path origin with
    | none => Report.fail (.malformed .invalidPath (some path))
    | some (.places ps) => return (ps.filterMap s.site.elementPath?).mergeSort Path.le
    | some v => do
      Report.tell (.noNodes path (kindName v))
      return []

/-- The paths of the tags that satisfy a condition, in document order: all of them, or those below
an address. -/
def searchTags (admitted : Tag → Bool) (context : Option Address) : Except Fault (List Path) := do
  let origin ← s.contextPath context
  let found := (s.tags.walk.filter fun e => admitted e.2).map Prod.fst
  return if context.isNone then found else found.filter fun p => Path.isBelow p origin

/-- Is the path one of a proper descendant of the node at an address? -/
def isInside (a : Address) (p : Path) : Bool :=
  a.length < p.length && (p.address.take a.length == a)

/-- The path expression that a query stands for in a scope. -/
def compileQuery (scope : Scope) : Query → Report PathQuery
  | .selector sel => sel.compile scope
  | .compiled q => pure q
  | .path t =>
    if (Text.trim t).isEmpty then Report.fail (.malformed .blankPath (some t))
    else pure (PathQuery.ofPath t scope.context)
  | .other d => Report.fail (.unsupportedQuery d.typeName)

/-- Runs a query on the path route. -/
def runPath (q : Query) (scope : Scope) : Report (List Path) := do
  let c ← compileQuery scope q
  let context := scope.context.or c.context
  if context.isSome && c.absolute then Report.fail (.notDescendant c.path)
  else do
    let found ← s.evaluatePath c.path context
    -- a relative expression can still climb out of its scope
    if context.any fun a => !found.all (isInside a) then Report.fail (.notDescendant c.path)
    else do
      Report.tell (.pathMatched c.path found.length)
      return found

/-- Runs a query on the outline route, which only selectors can take. -/
def runOutline (q : Query) (scope : Scope) : Report (List Path) :=
  match q with
  | .selector sel =>
    if sel.isEmpty then Report.fail (.malformed .nothingToMatch (some []))
    else do
      let found ← Report.of (s.searchTags (fun t => sel.admits t.get?) scope.context)
      let kept := match sel.matchIndex with
        | none => found
        | some k => (found.drop k).take 1
      Report.tell (.nativelyMatched sel kept.length)
      return kept
  | _ => Report.fail .needsSelector

/-- The paths that a query finds. -/
def run (route : Route) (q : Query) (scope : Scope) : Report (List Path) :=
  match route with
  | .path => s.runPath q scope
  | .outline => s.runOutline q scope

/-- All nodes that a query finds, in document order. -/
def findAll (route : Route) (q : Query) (scope : Scope) : Report (List Node) := do
  let found ← s.run route q scope
  return found.filterMap s.node?

/-- The first node that a query finds. -/
def findOne (route : Route) (q : Query) (scope : Scope) : Report Node := do
  match ← s.findAll route q scope with
  | [] => Report.fail (.notFound q.text .anyMatch)
  | n :: _ => return n

/-- The nodes below a node of this snapshot that a query finds; there must be one. -/
def findChildren (route : Route) (q : Query) (parent : Node) : Report (List Node) :=
  if parent.snapshot.version ≠ s.version then
    Report.fail (.foreignParent parent.snapshot.version s.version)
  else
    match q with
    | .compiled ⟨path, true, _⟩ => Report.fail (.notDescendant path)
    | q => do
      match ← s.findAll route q (Scope.descendantsOf parent.path.address) with
      | [] => Report.fail (.notFound q.text (.childOf parent.describe))
      | ns => return ns

/-- Does a query find anything? Any other failure is a failure still. -/
def contains (q : Query) (scope : Scope) : Report Bool :=
  let r := s.findOne .path q scope
  match r.result with
  | .ok _ => ⟨r.events, .ok true⟩
  | .error (.notFound ..) => ⟨r.events, .ok false⟩
  | .error e => ⟨r.events, .error e⟩

end Snapshot

end UiTree
