import UiTree.Datum.Reader
import UiTree.Query.Search
import UiTree.Schema

/-!
# UiTree.Service.Body -- what requests bring with them

The body of a request is a JSON record, provided that the request declares it as such; a body of any
other type is a mere text. It is checked field by field before anything is done, and complaints give
the way to the field from the body on.

* **Unreadable bodies.** A body that is no JSON text is a complaint about the position where reading
  failed. A body with an integer of too many digits is not read at all.
-/

namespace UiTree

/-- A dump to be stored. -/
structure Upload where
  xml : Text

/-- A selector to be compiled. -/
structure Compilation where
  selector : Text
  matchIndex : Option Int
  relative : Bool
  deriving DecidableEq

/-- How many nodes a query asks for. -/
inductive Amount where
  | all
  | one
  deriving DecidableEq, Repr

/-- A query about the snapshot of a serial. -/
structure Question where
  serial : Text
  selector : Option Text
  path : Option Text
  matchIndex : Option Int
  amount : Amount
  route : Route
  deriving DecidableEq

/-- A query about the nodes below one node. -/
structure ChildQuestion where
  serial : Text
  parent : Address
  selector : Option Text
  path : Option Text
  route : Route
  deriving DecidableEq

namespace Check

/-- The route of a query, from the field that says whether selectors are matched directly. -/
def route : Check Route := fun d =>
  (optional "native".toList false truth d).map fun b => if b then .outline else .path

/-- A text that may be missing or null. -/
def optionalText (name : String) : Check (Option Text) :=
  optional name.toList none (nullable text)

/-- An integer that may be missing or null. -/
def optionalInteger (name : String) : Check (Option Int) :=
  optional name.toList none (nullable integer)

/-- A dump to be stored. -/
def upload : Check Upload :=
  record fun d => (required "xml".toList text d).map Upload.mk

/-- A selector to be compiled. -/
def compilation : Check Compilation :=
  record fun d =>
    let c := (required "selector".toList text d).map Compilation.mk
    let c := Checked.also c (optionalInteger "match_index" d)
    Checked.also c (optional "relative".toList false truth d)

/-- How many nodes a query asks for. -/
def amount : Check Amount :=
  oneOf [("all".toList, .all), ("one".toList, .one)]

/-- A query about a snapshot. -/
def question : Check Question :=
  record fun d =>
    let c := (required "serial".toList text d).map Question.mk
    let c := Checked.also c (optionalText "selector" d)
    let c := Checked.also c (optionalText "xpath" d)
    let c := Checked.also c (optionalInteger "match_index" d)
    let c := Checked.also c (optional "mode".toList .all amount d)
    Checked.also c (route d)

/-- A query about the nodes below one node. -/
def childQuestion : Check ChildQuestion :=
  record fun d =>
    let c := (required "serial".toList text d).map ChildQuestion.mk
    let c := Checked.also c (required "node_path".toList (items integer) d)
    let c := Checked.also c (optionalText "selector" d)
    let c := Checked.also c (optionalText "xpath" d)
    Checked.also c (route d)

end Check

/-- Why the body of a request is refused. -/
inductive BodyFault where
  | unreadable
  | invalid (complaints : List Complaint)

namespace Body

/-- Does a content type declare JSON? A request without one is taken to. -/
def isJson (contentType : Text) : Bool :=
  let media := (Text.trim (contentType.takeWhile fun c => c != ';')).map Char.toLower
  contentType.isEmpty ||
    match Text.pieces '/' media with
    | [kind, subtype] =>
      kind == "application".toList &&
        (subtype == "json".toList || Text.isStart "nosj+".toList subtype.reverse)
    | _ => false

/-- A text without the byte order mark at its start. -/
def withoutMark (t : Text) : Text := (Text.cutStart ['\ufeff'] t).getD t

/-- The value of a body. -/
def datum (contentType body : Text) : Except BodyFault Datum :=
  if body.isEmpty then .error (.invalid [⟨.absent, [], .null⟩])
  else if isJson contentType then
    let t := withoutMark body
    match Datum.read t with
    | .ok d => .ok d
    | .error (.misfit rest) =>
      .error (.invalid [⟨.badDocument, [.item (t.length - rest.length)], .null⟩])
    | .error .longInteger => .error .unreadable
  else .ok (.text body)

/-- The typed value of a body. -/
def read {α : Type} (c : Check α) (contentType body : Text) : Except BodyFault α := do
  let d ← datum contentType body
  (c d).mapError .invalid

end Body

end UiTree
