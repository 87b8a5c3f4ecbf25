import UiTree.Bounds
import UiTree.Fault

/-!
# UiTree.Selector.Predicate -- one comparison of an attribute with a value

A predicate carries the proof that its value is **legal**: no value holds a control character that a
dump cannot carry, and a comparison for equality respects the kind of the attribute.

* **Meaning.** `Predicate.holds` is the truth of a predicate at a node whose attribute has a given
  value, or has none. A missing attribute equals nothing, and counts as the empty text otherwise.
* **Text.** `Predicate.text` is the predicate in selector text.
* **Limit.** Values are Unicode texts. A string with an unpaired surrogate, which no dump can hold
  either, is outside of this: nothing here says what a predicate with such a value does.
-/

namespace UiTree

/-- A control character that no dump can carry. -/
def isUnrepresentable (c : Char) : Bool :=
  let n := c.toNat
  n ≤ 8 || n == 0x0b || n == 0x0c || (0x0e ≤ n && n ≤ 0x1f)

/-- Why a value may not be compared with an attribute, if it may not. Equality alone looks at the
kind of the attribute. -/
def refusal? (a : Attribute) (o : Operator) (value : Text) : Option Refusal :=
  if value.any isUnrepresentable then some .unrepresentable
  else
    match o, a.valueKind with
    | .equals, .boolean =>
      if value = "true".toList ∨ value = "false".toList then none else some .notBoolean
    | .equals, .integer => if isIntegerText value then none else some .notInteger
    | .equals, .bounds => if isCorners value then none else some .notBounds
    | _, _ => none

/-- A comparison of an attribute with a legal value. -/
structure Predicate where
  attr : Attribute
  operator : Operator
  value : Text
  legal : refusal? attr operator value = none
  deriving DecidableEq

namespace Predicate

/-- The predicate with a given value, when the value is legal. -/
def make (a : Attribute) (o : Operator) (value : Text) : Except Fault Predicate :=
  match h : refusal? a o value with
  | none => .ok ⟨a, o, value, h⟩
  | some why => .error (.unsupported a why (.text value))

/-- The predicate with a value of unknown type; only texts are values. A string with an unpaired
surrogate is no `Text` and is refused with the rest, although it is a string: a predicate cannot
hold it. -/
def ofDatum (a : Attribute) (o : Operator) : Datum → Except Fault Predicate
  | .text value => make a o value
  | d => .error (.unsupported a .notText d)

/-- A text with a space on either side. -/
def padded (t : Text) : Text := ' ' :: t ++ [' ']

/-- Is the predicate true of a node whose attribute has this value? -/
def holds (p : Predicate) (actual : Option Text) : Bool :=
  match p.operator with
  | .equals => actual == some p.value
  | .contains =>
    if p.attr.valueKind = .wordText then
      Text.isInfix (padded p.value) (padded (actual.getD []))
    else Text.isInfix p.value (actual.getD [])
  | .partly => Text.isInfix p.value (actual.getD [])
  | .startsWith => Text.isStart p.value (actual.getD [])

/-- The predicate in selector text. -/
def text (p : Predicate) : Text := '[' :: p.attr.key ++ p.operator.symbol ++ p.value ++ [']']

theorem make_eq_ok_iff {a : Attribute} {o : Operator} {v : Text} {p : Predicate} :
    make a o v = .ok p ↔ p.attr = a ∧ p.operator = o ∧ p.value = v := by
  unfold make
  split
  · next h =>
    constructor
    · intro e
      cases e
      exact ⟨rfl, rfl, rfl⟩
    · rintro ⟨rfl, rfl, rfl⟩
      rfl
  · next why h =>
    constructor
    · intro e
      cases e
    · rintro ⟨rfl, rfl, rfl⟩
      rw [p.legal] at h
      cases h

end Predicate

end UiTree
