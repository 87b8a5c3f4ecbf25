import UiTree.Selector.Predicate

/-!
# UiTree.Selector.Basic -- selectors

A selector is a list of predicates that must all hold, with an optional zero-based **match index**
that picks one of the matches. Selectors are values: adding a predicate or an index gives a new one.

* **Two views.** `Selector.admits` says whether a node, given by its attributes, satisfies all
  predicates; `Selector.text` is the selector text, in which the match index does not show.
-/

namespace UiTree

/-- Predicates that must all hold, and the index of the wanted match. -/
structure Selector where
  predicates : List Predicate
  matchIndex : Option Nat
  deriving DecidableEq

namespace Selector

/-- The selector without predicates and index. -/
def empty : Selector := ⟨[], none⟩

/-- A match index is an integer that is not negative. -/
def checkIndex : Datum → Except Fault Nat
  | .int (.ofNat n) => .ok n
  | d => .error (.malformed .badIndex (some d.display))

/-- The selector that picks the match at an index; null clears the index. -/
def pick (s : Selector) : Datum → Except Fault Selector
  | .null => .ok { s with matchIndex := none }
  | d => (checkIndex d).map fun n => { s with matchIndex := some n }

/-- A selector from predicates and an index; null is no index. -/
def make (ps : List Predicate) (index : Datum) : Except Fault Selector :=
  pick ⟨ps, none⟩ index

/-- The selector with one more predicate at its end. -/
def add (s : Selector) (p : Predicate) : Selector := { s with predicates := s.predicates ++ [p] }

/-- Has the selector no predicates? -/
def isEmpty (s : Selector) : Bool := s.predicates.isEmpty

/-- Do all predicates hold of a node with these attribute values? -/
def admits (s : Selector) (get : Text → Option Text) : Bool :=
  s.predicates.all fun p => p.holds (get p.attr.key)

/-- The selector text: its predicates one after the other. -/
def text (s : Selector) : Text := s.predicates.flatMap Predicate.text

/-- The selector as messages show it, with its index. -/
def describe (s : Selector) : Text :=
  "Selector(".toList ++ Text.quoted s.text
    ++ (match s.matchIndex with
        | none => []
        | some n => ", match_index=".toList ++ Text.ofNat n)
    ++ [')']

end Selector

end UiTree
