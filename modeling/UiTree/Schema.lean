import UiTree.Datum.Basic
import UiTree.Text.Blank

/-!
# UiTree.Schema -- turning values of no fixed type into typed ones

Settings and request bodies arrive as a `Datum`. A check turns it into a typed value or says what is
wrong, with a **complaint** for every field that does not fit; the complaints of a record are in the
order of its fields.

* **Tolerance.** Checks are lax: truth values may be words or zero and one, integers may be texts or
  integral doubles. A text must be a text.
* **Combination.** `Checked.also` puts the fields of a record together; where two do not fit, the
  complaints about both are kept.
-/

namespace UiTree

/-- In what way a value does not fit. -/
inductive Mismatch where
  | absent
  | noText
  | brokenText
  | noInteger
  | integerText
  | integerTextSize
  | fraction
  | notFinite
  | tooSmall
  | tooLarge
  | noTruth
  | truthText
  | notListed
  | noList
  | noRecord
  | badDocument
  deriving DecidableEq, Repr

namespace Mismatch

/-- The name of a mismatch. -/
def name : Mismatch → Text
  | .absent => "missing".toList
  | .noText => "string_type".toList
  | .brokenText => "string_unicode".toList
  | .noInteger => "int_type".toList
  | .integerText => "int_parsing".toList
  | .integerTextSize => "int_parsing_size".toList
  | .fraction => "int_from_float".toList
  | .notFinite => "finite_number".toList
  | .tooSmall => "greater_than_equal".toList
  | .tooLarge => "less_than_equal".toList
  | .noTruth => "bool_type".toList
  | .truthText => "bool_parsing".toList
  | .notListed => "literal_error".toList
  | .noList => "list_type".toList
  | .noRecord => "model_attributes_type".toList
  | .badDocument => "json_invalid".toList

end Mismatch

/-- A step to a part of a value. -/
inductive Step where
  | field (name : Text)
  | item (index : Nat)
  deriving DecidableEq, Repr

/-- A part of a value that does not fit: how, where, and what stands there. -/
structure Complaint where
  kind : Mismatch
  place : List Step
  found : Datum

/-- A typed value, or complaints. -/
abbrev Checked (α : Type) := Except (List Complaint) α

namespace Checked

variable {α β : Type}

/-- A function and its argument, with the complaints about both. -/
def also (f : Checked (α → β)) (a : Checked α) : Checked β :=
  match f, a with
  | .ok f, .ok a => .ok (f a)
  | .error e, .ok _ => .error e
  | .ok _, .error e => .error e
  | .error e, .error e' => .error (e ++ e')

/-- The complaints with a step in front of their places. -/
def inside (s : Step) (c : Checked α) : Checked α :=
  c.mapError fun es => es.map fun e => { e with place := s :: e.place }

end Checked

/-- What a value must be like, and what it becomes. -/
abbrev Check (α : Type) := Datum → Checked α

namespace Check

variable {α : Type}

/-- One complaint about a whole value. -/
def refuse (k : Mismatch) (d : Datum) : Checked α := .error [⟨k, [], d⟩]

/-- A text. -/
def text : Check Text
  | .text t => .ok t
  | .brokenText => refuse .brokenText .brokenText
  | d => refuse .noText d

/-- The words for false. -/
def falseWords : List Text :=
  [['0'], "off".toList, ['f'], "false".toList, ['n'], "no".toList]

/-- The words for true. -/
def trueWords : List Text :=
  [['1'], "on".toList, ['t'], "true".toList, ['y'], "yes".toList]

/-- Two to the sixty-third, which bounds the integers of a machine word. -/
def wordLimit : Int := 9223372036854775808

/-- The integer that a double is, when it lies strictly within the bounds of a word. -/
def smallInteger? (x : Binary64) : Option Int :=
  x.toInt?.filter fun i => decide (-wordLimit < i ∧ i < wordLimit)

/-- A truth value, or a word for one in any case, or zero or one. -/
def truth : Check Bool
  | .bool b => .ok b
  | .text t =>
    let word := t.map Char.toLower
    if falseWords.contains word then .ok false
    else if trueWords.contains word then .ok true
    else refuse .truthText (.text t)
  | .brokenText => refuse .truthText .brokenText
  | .int i =>
    if i = 0 then .ok false
    else if i = 1 then .ok true
    else if -wordLimit ≤ i ∧ i < wordLimit then refuse .truthText (.int i)
    else refuse .noTruth (.int i)
  | .real x =>
    match smallInteger? x with
    | some i => if i = 0 then .ok false else if i = 1 then .ok true else refuse .truthText (.real x)
    | none => refuse .noTruth (.real x)
  | d => refuse .noTruth d

/-- The most characters that are read as an integer. -/
def maxIntegerText : Nat := 4300

/-- The digits of a run in which single underscores may stand between digits. -/
def joinedDigits (t : Text) : Option Text :=
  let parts := Text.pieces '_' t
  if parts.all fun p => !p.isEmpty && p.all Char.isDigit then some parts.flatten else none

/-- The integer of a text: a sign, digits, and maybe a point with zeros after it. -/
def integerOfText (t : Text) : Option Int :=
  let (negative, body) := match t with
    | '-' :: r => (true, r)
    | '+' :: r => (false, r)
    | r => (false, r)
  -- a fraction of zeros only, however long, is no fraction
  let whole := match Text.cutAt ['.'] body with
    | some (before, after) => if after.all fun c => c == '0' then before else body
    | none => body
  (joinedDigits whole).map fun ds =>
    let n : Int := ds.foldl (fun n c => 10 * n + (c.toNat - '0'.toNat)) 0
    if negative then -n else n

/-- An integer, or a text or double that is one, or a truth value counted as zero or one. -/
def integer : Check Int
  | .int i => .ok i
  | .bool b => .ok (if b then 1 else 0)
  | .text t =>
    let word := Text.trimBoth Text.isWhite t
    if maxIntegerText < word.length then refuse .integerTextSize (.text t)
    else
      match integerOfText word with
      | some i => .ok i
      | none => refuse .integerText (.text t)
  | .brokenText => refuse .integerText .brokenText
  | .real x =>
    match x, x.toInt?, smallInteger? x with
    | _, _, some i => .ok i
    | _, some _, none => refuse .integerTextSize (.real x)
    | .finite .., none, none => refuse .fraction (.real x)
    | _, none, none => refuse .notFinite (.real x)
  | d => refuse .noInteger d

/-- An integer between two bounds. -/
def integerWithin (low high : Int) : Check { i : Int // low ≤ i ∧ i ≤ high } := fun d => do
  let i ← integer d
  if h : low ≤ i then
    if h' : i ≤ high then .ok ⟨i, h, h'⟩ else refuse .tooLarge d
  else refuse .tooSmall d

/-- One of some named values. -/
def oneOf (options : List (Text × α)) : Check α
  | .text t =>
    match options.find? fun o => o.1 == t with
    | some o => .ok o.2
    | none => refuse .notListed (.text t)
  | d => refuse .notListed d

/-- A value that may be null. -/
def nullable (c : Check α) : Check (Option α)
  | .null => .ok none
  | d => (c d).map some

/-- The items of a list from index `i` on. -/
def itemsFrom (c : Check α) (i : Nat) : List Datum → Checked (List α)
  | [] => .ok []
  | d :: ds =>
    Checked.also (Checked.inside (.item i) ((c d).map List.cons)) (itemsFrom c (i + 1) ds)

/-- A list. -/
def items (c : Check α) : Check (List α)
  | .list ds => itemsFrom c 0 ds
  | d => refuse .noList d

/-- A field that a record must have. -/
def required (name : Text) (c : Check α) : Check α := fun d =>
  Checked.inside (.field name) <| match d.field? name with
    | some x => c x
    | none => refuse .absent d

/-- A field that a record may have. -/
def optional (name : Text) (dflt : α) (c : Check α) : Check α := fun d =>
  match d.field? name with
  | some x => Checked.inside (.field name) (c x)
  | none => .ok dflt

/-- A record; no other value has fields. -/
def record (c : Check α) : Check α
  | .record fields => c (.record fields)
  | d => refuse .noRecord d

end Check

end UiTree
