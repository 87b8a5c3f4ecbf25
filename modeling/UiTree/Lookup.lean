import UiTree.Query.Search

/-!
# UiTree.Lookup -- how a node was found

A lookup is a query together with the position of the wanted node among what the query finds. The
query is run over the whole document, or below the node that another lookup finds.

* **Main use.** `Lookup.resolve` runs a lookup against any snapshot, and so finds in a later dump
  what was found in an earlier one.
-/

namespace UiTree

/-- A query and a position, in the document or below what another lookup finds. -/
inductive Lookup where
  | top (query : Query) (position : Nat)
  | under (parent : Lookup) (query : Query) (position : Nat)

namespace Lookup

/-- The query that is run last. -/
def query : Lookup → Query
  | .top q _ => q
  | .under _ q _ => q

/-- The position among what that query finds. -/
def position : Lookup → Nat
  | .top _ i => i
  | .under _ _ i => i

/-- The lookup below whose node the query is run. -/
def parent? : Lookup → Option Lookup
  | .top _ _ => none
  | .under l _ _ => some l

/-- The node at a position among those that a query found. -/
def pick (q : Query) (i : Nat) (ns : List Node) : Except Fault Node :=
  match ns[i]? with
  | some n => .ok n
  | none => .error (.notFound q.text (.position i ns.length))

/-- The node that a lookup finds in a snapshot. -/
def resolve (s : Snapshot) : Lookup → Report Node
  | .top q i => do
    let ns ← s.findAll .path q Scope.document
    Report.of (pick q i ns)
  | .under l q i => do
    let p ← resolve s l
    let ns ← s.findChildren .path q p
    Report.of (pick q i ns)

end Lookup

end UiTree
