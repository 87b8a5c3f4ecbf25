import UiTree.Datum.Basic
import UiTree.Selector.Attribute

/-!
# UiTree.Fault -- everything that can go wrong, and how it is told

A `Fault` is a cause; the wording of each cause is in one place, `Fault.message`. Faults carry what
their message speaks about, so that a caller can look at the fragment, the value, the query or the
versions without reading the text.

* **Selectors.** `SelectorFault` and `Refusal` say why a text or a value makes no selector.
* **Dumps.** `DumpFault` says why a text is no hierarchy.
* **Lookups.** `Missing` says what a lookup asked for that is not there.
-/

namespace UiTree

/-- A node address as a caller writes it: child indexes from the root. It may name no node. -/
abbrev Address := List Int

namespace Address

/-- The integers of an address with commas between them. -/
def items (a : Address) : Text := Text.join [',', ' '] (a.map Text.ofInt)

/-- An address between square brackets. -/
def text (a : Address) : Text := '[' :: items a ++ [']']

/-- An address between parentheses, a single index being followed by a comma. -/
def tupleText : Address → Text
  | [i] => '(' :: Text.ofInt i ++ [',', ')']
  | a => '(' :: items a ++ [')']

end Address

/-- Why a text is no selector, or no query. -/
inductive SelectorFault where
  | empty
  | severalLines
  | strayText
  | unbalanced
  | noKey
  | noOperator
  | unknownKey
  | nothingUsable
  | badIndex
  | nothingToCompile
  | nothingToMatch
  | blankPath
  | invalidPath
  deriving DecidableEq, Repr

namespace SelectorFault

/-- The wording of the fault, without the fragment. -/
def wording : SelectorFault → Text
  | .empty => "Empty selector".toList
  | .severalLines => "Selector must be a single line".toList
  | .strayText => "Unexpected characters outside brackets".toList
  | .unbalanced => "Unbalanced bracket".toList
  | .noKey => "Missing attribute key".toList
  | .noOperator => "Missing or unknown operator".toList
  | .unknownKey => "Unknown selector attribute".toList
  | .nothingUsable => "Selector has no usable predicates".toList
  | .badIndex => "Match index must be a non-negative integer".toList
  | .nothingToCompile => "Cannot compile a selector without predicates".toList
  | .nothingToMatch => "Cannot match a selector without predicates".toList
  | .blankPath => "Empty XPath query".toList
  | .invalidPath => "Invalid XPath".toList

end SelectorFault

/-- Why a value cannot be compared with an attribute. -/
inductive Refusal where
  | notText
  | unrepresentable
  | notBoolean
  | notInteger
  | notBounds
  deriving DecidableEq, Repr

/-- Why a text is no hierarchy dump. -/
inductive DumpFault where
  | empty
  | markup
  | noRoot
  | counts (elements tags : Nat)
  | names (path : Address)
  deriving DecidableEq, Repr

namespace DumpFault

/-- The wording of the fault. -/
def wording : DumpFault → Text
  | .empty => "XML content is empty".toList
  | .markup => "XML Syntax Error".toList
  | .noRoot => "Structural index found no root element".toList
  | .counts e t =>
    "Tree views disagree: ".toList ++ Text.ofNat e ++ " elements vs ".toList ++ Text.ofNat t
      ++ " tags".toList
  | .names p => "Tree views disagree at node ".toList ++ p.text

end DumpFault

/-- What a lookup asked for that is not there. -/
inductive Missing where
  | anyMatch
  | node (version : Nat)
  | childOf (parent : Text)
  | position (index found : Nat)
  | tapTarget (index : Int) (found : Nat)
  deriving DecidableEq, Repr

/-- A cause of failure. -/
inductive Fault where
  | malformed (why : SelectorFault) (fragment : Option Text)
  | unsupported (attr : Attribute) (why : Refusal) (value : Datum)
  | dump (why : DumpFault)
  | notFound (query : Text) (what : Missing)
  | notDescendant (path : Text)
  | stale (handle screen : Nat)
  | unknownContext (path : Address)
  | notXmlText
  | longNumber (digits : Nat)
  | longText
  | foreignParent (parent own : Nat)
  | noBounds (node : Text)
  | unsupportedQuery (typeName : Text)
  | needsSelector
  | unordered
  | outOfRange
  | device (message : Text)
  | unencodable (text : Text) (first last : Nat)
  | notFinite
  | noSnapshot (serial : Text)
  | nothingToRemove (serial : Text)
  | notOneQuery
  | selectorOptions

namespace Fault

/-- The refusal of a value, in words. -/
def refusalMessage (a : Attribute) (value : Datum) : Refusal → Text
  | .notText =>
    "Value for ".toList ++ a.key ++ " must be a string, got ".toList ++ value.typeName
  | .unrepresentable =>
    "Value for ".toList ++ a.key ++ " contains characters XML cannot represent".toList
  | .notBoolean => a.key ++ " is boolean; expected 'true' or 'false', got ".toList ++ value.quote
  | .notInteger => a.key ++ " is an integer, got ".toList ++ value.quote
  | .notBounds => a.key ++ " expects '[x1,y1][x2,y2]', got ".toList ++ value.quote

/-- The absence of what a lookup asked for, in words. -/
def missingMessage (query : Text) : Missing → Text
  | .anyMatch => "No element matches query: ".toList ++ query
  | .node v =>
    "No node at path ".toList ++ query ++ " in snapshot v".toList ++ Text.ofNat v
  | .childOf parent =>
    "No child of ".toList ++ parent ++ " matches query: ".toList ++ query
  | .position i n =>
    "Match with index ".toList ++ Text.ofNat i ++ " requested, but only ".toList ++ Text.ofNat n
      ++ " elements match query: ".toList ++ query
  | .tapTarget i n =>
    "Tapping match with index ".toList ++ Text.ofInt i ++ " requested, but only ".toList
      ++ Text.ofNat n ++ " elements matching the criteria found.".toList

/-- A text that cannot stand in a header, in words: one character is shown by its code point, a
longer run by its positions. -/
def unencodableMessage (t : Text) (first last : Nat) : Text :=
  let shown :=
    if first = last then
      match t[first]? with
      | some c =>
        "character '".toList ++ Text.escapeCode c ++ "' in position ".toList ++ Text.ofNat first
      | none => []
    else
      "characters in position ".toList ++ Text.ofNat first ++ '-' :: Text.ofNat last
  "'latin-1' codec can't encode ".toList ++ shown ++ ": ordinal not in range(256)".toList

/-- The message of a fault. -/
def message : Fault → Text
  | .malformed why none => why.wording
  | .malformed why (some fragment) => why.wording ++ ':' :: ' ' :: Text.quoted fragment
  | .unsupported a why value => refusalMessage a value why
  | .dump why => why.wording
  | .notFound query what => missingMessage query what
  | .notDescendant path =>
    "Child query must be relative to its parent, got absolute XPath: ".toList ++ path
  | .stale handle screen =>
    "Element resolved against snapshot v".toList ++ Text.ofNat handle ++ ", screen is at v".toList
      ++ Text.ofNat screen ++ "; refresh the element first".toList
  | .unknownContext path => path.tupleText
  | .notXmlText =>
    ("All strings must be XML compatible: Unicode or ASCII, " ++
      "no NULL bytes or control characters").toList
  | .longNumber digits =>
    "Exceeds the limit (4300 digits) for integer string conversion: value has ".toList
      ++ Text.ofNat digits
      ++ " digits; use sys.set_int_max_str_digits() to increase the limit".toList
  | .longText =>
    ("Exceeds the limit (4300 digits) for integer string conversion; " ++
      "use sys.set_int_max_str_digits() to increase the limit").toList
  | .foreignParent parent own =>
    "Parent node belongs to snapshot v".toList ++ Text.ofNat parent ++ ", not v".toList
      ++ Text.ofNat own
  | .noBounds node => node ++ " has no bounds to act on".toList
  | .unsupportedQuery typeName => "Unsupported query type: ".toList ++ typeName
  | .needsSelector => "Native matching needs a Selector, not an XPath string".toList
  | .unordered =>
    "'<' not supported between instances of 'MatchedNode' and 'MatchedNode'".toList
  | .outOfRange => "list index out of range".toList
  | .device text => text
  | .unencodable t first last => unencodableMessage t first last
  | .notFinite => "Out of range float values are not JSON compliant".toList
  | .noSnapshot serial =>
    "No snapshot for ".toList ++ serial ++ ". Upload one first.".toList
  | .nothingToRemove serial => "No snapshot for ".toList ++ serial
  | .notOneQuery => "Provide exactly one of 'selector' or 'xpath'".toList
  | .selectorOptions => "'native' and 'match_index' apply to selectors only".toList

end Fault

/-- The decimal text of an integer that is shown to a caller: at most 4300 digits are written. -/
def shownInteger (i : Int) : Except Fault Text :=
  let t := Text.ofNat i.natAbs
  if 4300 < t.length then .error .longText
  else .ok (if i < 0 then '-' :: t else t)

end UiTree
