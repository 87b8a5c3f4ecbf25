import UiTree.Text.Basic

/-!
# UiTree.Selector.Attribute -- what a selector can constrain

The attributes of a hierarchy node that selectors may name, the kind of value each of them holds,
and the four ways of comparing. An attribute is named by its **key**, which is also its name in the
dump; keys are case-sensitive.

* **Main statements.** `ofKey?_key`: every attribute is found by its key. `key_of_ofKey?`: what is
  found has that key.
-/

namespace UiTree

/-- The kind of value that an attribute holds. Free text is compared by whole words. -/
inductive ValueKind where
  | text
  | wordText
  | boolean
  | integer
  | bounds
  deriving DecidableEq, Repr

namespace ValueKind

/-- The name of a kind. -/
def name : ValueKind → Text
  | .text => "text".toList
  | .wordText => "word_text".toList
  | .boolean => "boolean".toList
  | .integer => "integer".toList
  | .bounds => "bounds".toList

end ValueKind

/-- An attribute that a selector can constrain. -/
inductive Attribute where
  | index
  | text
  | resourceId
  | widgetClass
  | package
  | contentDesc
  | checkable
  | checked
  | clickable
  | enabled
  | focusable
  | focused
  | scrollable
  | longClickable
  | password
  | selected
  | bounds
  | className
  | resourceIdDescriptor
  | contentDescription
  | packageName
  deriving DecidableEq, Repr

namespace Attribute

/-- All attributes. -/
def all : List Attribute :=
  [.index, .text, .resourceId, .widgetClass, .package, .contentDesc, .checkable, .checked,
   .clickable, .enabled, .focusable, .focused, .scrollable, .longClickable, .password, .selected,
   .bounds, .className, .resourceIdDescriptor, .contentDescription, .packageName]

/-- The name of the attribute in a dump and in selector text. -/
def key : Attribute → Text
  | .index => "index".toList
  | .text => "text".toList
  | .resourceId => "resource-id".toList
  | .widgetClass => "class".toList
  | .package => "package".toList
  | .contentDesc => "content-desc".toList
  | .checkable => "checkable".toList
  | .checked => "checked".toList
  | .clickable => "clickable".toList
  | .enabled => "enabled".toList
  | .focusable => "focusable".toList
  | .focused => "focused".toList
  | .scrollable => "scrollable".toList
  | .longClickable => "long-clickable".toList
  | .password => "password".toList
  | .selected => "selected".toList
  | .bounds => "bounds".toList
  | .className => "className".toList
  | .resourceIdDescriptor => "resourceId".toList
  | .contentDescription => "contentDesc".toList
  | .packageName => "packageName".toList

/-- The kind of value that the attribute holds. -/
def valueKind : Attribute → ValueKind
  | .index => .integer
  | .text | .contentDesc | .contentDescription => .wordText
  | .resourceId | .widgetClass | .package | .className | .resourceIdDescriptor
  | .packageName => .text
  | .checkable | .checked | .clickable | .enabled | .focusable | .focused | .scrollable
  | .longClickable | .password | .selected => .boolean
  | .bounds => .bounds

/-- The attribute of a key, when there is one. -/
def ofKey? (k : Text) : Option Attribute := all.find? fun a => a.key == k

theorem mem_all (a : Attribute) : a ∈ all := by
  cases a <;> decide

theorem ofKey?_key (a : Attribute) : ofKey? a.key = some a := by
  have hall : all.all (fun a => ofKey? a.key == some a) = true := by decide +kernel
  exact eq_of_beq (List.all_eq_true.mp hall a a.mem_all)

theorem key_of_ofKey? {k : Text} {a : Attribute} (h : ofKey? k = some a) : a.key = k := by
  simpa using List.find?_some h

theorem key_injective {a b : Attribute} (h : a.key = b.key) : a = b := by
  have := congrArg ofKey? h
  simpa [ofKey?_key] using this

end Attribute

/-- A way of comparing an attribute with a value. -/
inductive Operator where
  | equals
  | contains
  | partly
  | startsWith
  deriving DecidableEq, Repr

namespace Operator

/-- The symbol of the operator in selector text. -/
def symbol : Operator → Text
  | .equals => ['=']
  | .contains => ['~', '=']
  | .partly => ['*', '=']
  | .startsWith => ['^', '=']

/-- All operators, those with the longer symbol first. -/
def all : List Operator := [.contains, .partly, .startsWith, .equals]

/-- The operator of a symbol, when there is one. -/
def ofSymbol? (s : Text) : Option Operator := all.find? fun o => o.symbol == s

/-- The operator at the start of a text, and what follows its symbol. -/
def cut? (t : Text) : Option (Operator × Text) :=
  all.findSome? fun o => (Text.cutStart o.symbol t).map fun rest => (o, rest)

theorem cut?_symbol_append (o : Operator) (t : Text) : cut? (o.symbol ++ t) = some (o, t) := by
  cases o <;> simp [cut?, all, symbol, Text.cutStart]

theorem eq_symbol_append_of_cut? {t rest : Text} {o : Operator} (h : cut? t = some (o, rest)) :
    t = o.symbol ++ rest := by
  obtain ⟨o', _, ho⟩ := List.exists_of_findSome?_eq_some h
  obtain ⟨r, hr, he⟩ := Option.map_eq_some_iff.1 ho
  cases he
  exact Text.cutStart_eq_some_iff.1 hr

end Operator

end UiTree
