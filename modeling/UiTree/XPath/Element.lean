import UiTree.XPath.Place

/-!
# UiTree.XPath.Element -- elements as places

Nodes of a hierarchy are addressed by the indexes of elements among elements, places by the indexes
of nodes among all nodes. The document is above the root, so the path of an element becomes a trail
with one more index in front.

* **Both ways.** `elementIndexes` counts the elements before each node of a trail; `trailTo` looks
  for the node again.
-/

namespace UiTree.XPath

/-- Is this node an element? -/
def isElement : Xml.Node → Bool
  | .element .. => true
  | _ => false

/-- The position among all nodes of the element with a given index among elements, and what is
inside of it. -/
def nthElement : List Xml.Node → Nat → Option (Nat × List Xml.Node)
  | [], _ => none
  | .element _ inner :: _, 0 => some (0, inner)
  | .element _ _ :: ns, k + 1 => (nthElement ns k).map fun (i, inner) => (i + 1, inner)
  | _ :: ns, k => (nthElement ns k).map fun (i, inner) => (i + 1, inner)

/-- The trail that follows indexes among elements. -/
def trailTo : List Xml.Node → List Nat → Option Path
  | _, [] => some []
  | ns, k :: p =>
    match nthElement ns k with
    | some (i, inner) => (trailTo inner p).map (i :: ·)
    | none => none

/-- The indexes among elements along a trail; none unless all its nodes are elements. -/
def elementIndexes : List Xml.Node → Path → Option (List Nat)
  | _, [] => some []
  | ns, i :: t =>
    match ns[i]? with
    | some (.element _ inner) =>
      (elementIndexes inner t).map (((ns.take i).filter isElement).length :: ·)
    | _ => none

namespace Site

variable (s : Site)

/-- The trail of the element at a path. -/
def trail? (p : Path) : Option Path := trailTo s.nodes (0 :: p)

/-- The path of the element at a place; none when there is something else. -/
def elementPath? (p : Place) : Option Path :=
  match p.part with
  | .whole =>
    match elementIndexes s.nodes p.trail with
    | some (_ :: path) => some path
    | _ => none
  | _ => none

end Site

end UiTree.XPath
