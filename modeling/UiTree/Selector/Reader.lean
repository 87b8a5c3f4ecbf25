import UiTree.Report
import UiTree.Selector.Group

/-!
# UiTree.Selector.Reader -- selectors from selector text

A selector text is one line of bracket groups, and each group writes one predicate: a key of ASCII
letters, digits, hyphens and underscores, an operator, and the rest of the body as the value.

* **Strictness.** A key that names no attribute is a fault in strict reading. In lenient reading the
  group is dropped and a warning is recorded; its value is never looked at.
* **Order of faults.** Groups are judged from the left, and a group is judged before the text behind
  it is looked at, so the leftmost fault is the one reported.
-/

namespace UiTree.Selector

/-- A character that may stand in a key. -/
def isKeyChar (c : Char) : Bool :=
  c.toNat < 0x80 && (c.isAlphanum || c == '_' || c == '-')

/-- The key, the operator and the value of a group. -/
def splitGroup (g : Group) : Except Fault (Text × Operator × Text) :=
  let (key, rest) := Text.cutWhile isKeyChar g.body
  if key.isEmpty then .error (.malformed .noKey (some g.text))
  else
    match Operator.cut? rest with
    | some (o, value) => .ok (key, o, value)
    | none => .error (.malformed .noOperator (some g.text))

/-- The predicate of a group; none when the group is dropped. -/
def readGroup (strict : Bool) (g : Group) : Report (Option Predicate) :=
  match splitGroup g with
  | .error e => .fail e
  | .ok (key, o, value) =>
    match Attribute.ofKey? key with
    | none =>
      if strict then .fail (.malformed .unknownKey (some g.text))
      else ⟨[.groupIgnored g.text], .ok none⟩
    | some a => .of ((Predicate.make a o value).map some)

/-- The predicates of groups, in order. -/
def readGroups (strict : Bool) : List Group → Report (List Predicate)
  | [] => .ok []
  | g :: gs => do
    let p ← readGroup strict g
    let ps ← readGroups strict gs
    return p.toList ++ ps

/-- The selector that a text writes. -/
def read (strict : Bool) (t : Text) : Report Selector :=
  if t.isEmpty then .fail (.malformed .empty (some t))
  else if t.contains '\n' || t.contains '\r' then .fail (.malformed .severalLines (some t))
  else do
    let s := scan t
    let ps ← readGroups strict s.groups
    match s.fault with
    | some e => .fail e
    | none =>
      if ps.isEmpty then .fail (.malformed .nothingUsable (some t))
      else do
        .tell (.selectorRead t ps.length)
        return ⟨ps, none⟩

/-- The selector that a value of unknown type writes; only texts do. -/
def readDatum (strict : Bool) : Datum → Report Selector
  | .text t => read strict t
  | _ => .fail (.malformed .empty none)

end UiTree.Selector
