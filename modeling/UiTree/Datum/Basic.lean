import UiTree.Number.Decimal
import UiTree.Text.Quoted

/-!
# UiTree.Datum.Basic -- values of no fixed type

Callers hand over values whose type is checked only later: the value of a predicate, a match index,
a request body, the answer of a device. A `Datum` is such a value. Integers are exact, other numbers
are doubles, and a record keeps its fields in order.

* **Names of types.** `typeName` is the word that messages use for the type of a value.
* **Display.** `display` is the text of a value inside a message, `quote` its form inside a list.
* **Limit.** A string with an unpaired surrogate is no `Text`. It is known that there was one, and
  no more: `brokenText` does not keep its characters, and they do not show in any message.
-/

namespace UiTree

/-- A value whose type is only known when it is looked at. A string with an unpaired surrogate is no
Unicode text; `brokenText` stands for every such string. -/
inductive Datum where
  | null
  | bool (b : Bool)
  | int (i : Int)
  | real (x : Binary64)
  | text (t : Text)
  | brokenText
  | list (items : List Datum)
  | record (fields : List (Text × Datum))
  deriving Inhabited

namespace Datum

/-- The word for the type of a value. -/
def typeName : Datum → Text
  | .null => "NoneType".toList
  | .bool _ => "bool".toList
  | .int _ => "int".toList
  | .real _ => "float".toList
  | .text _ => "str".toList
  | .brokenText => "str".toList
  | .list _ => "list".toList
  | .record _ => "dict".toList

/-- Does the value count as true? Zero, the empty text, the empty list and record, and null do
not. -/
def isTruthy : Datum → Bool
  | .null => false
  | .bool b => b
  | .int i => i != 0
  | .real x => !x.isZero
  | .text t => !t.isEmpty
  | .brokenText => true
  | .list items => !items.isEmpty
  | .record fields => !fields.isEmpty

/-- The text of a double inside a message. -/
def displayReal : Binary64 → Text
  | .infinite s => (if s then ['-'] else []) ++ "inf".toList
  | .nan => "nan".toList
  | x => x.shortest

mutual

/-- The text of a value as an item of a list: texts are quoted. -/
def quote : Datum → Text
  | .null => "None".toList
  | .bool b => if b then "True".toList else "False".toList
  | .int i => Text.ofInt i
  | .real x => displayReal x
  | .text t => Text.quoted t
  | .brokenText => []
  | .list items => '[' :: quoteItems items ++ [']']
  | .record fields => '\x7b' :: quoteFields fields ++ ['\x7d']

/-- The items of a list, with commas between them. -/
def quoteItems : List Datum → Text
  | [] => []
  | x :: xs => quote x ++ (match xs with | [] => [] | _ :: _ => [',', ' ']) ++ quoteItems xs

/-- The fields of a record, with commas between them. -/
def quoteFields : List (Text × Datum) → Text
  | [] => []
  | (k, x) :: xs =>
    Text.quoted k ++ ':' :: ' ' :: quote x ++ (match xs with | [] => [] | _ :: _ => [',', ' '])
      ++ quoteFields xs

end

/-- The text of a value inside a message: a text stands for itself. -/
def display : Datum → Text
  | .text t => t
  | x => quote x

mutual

/-- Are all the doubles in a value numbers? -/
def isFinite : Datum → Bool
  | .real (.finite ..) => true
  | .real _ => false
  | .list items => areFinite items
  | .record fields => haveFinite fields
  | _ => true

/-- Are all the doubles in the items of a list numbers? -/
def areFinite : List Datum → Bool
  | [] => true
  | x :: xs => isFinite x && areFinite xs

/-- Are all the doubles in the fields of a record numbers? -/
def haveFinite : List (Text × Datum) → Bool
  | [] => true
  | (_, x) :: xs => isFinite x && haveFinite xs

end

/-- The last field of a name in a list of fields. -/
def lookup (name : Text) : List (Text × Datum) → Option Datum
  | [] => none
  | (k, x) :: rest =>
    match lookup name rest with
    | some y => some y
    | none => if k = name then some x else none

/-- The value of a field of a record. -/
def field? (name : Text) : Datum → Option Datum
  | .record fields => lookup name fields
  | _ => none

end Datum

end UiTree
