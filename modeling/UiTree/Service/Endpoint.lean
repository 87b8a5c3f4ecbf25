import UiTree.Text.Basic

/-!
# UiTree.Service.Endpoint -- what a request asks for

A request names a method and a path. The path decides which endpoints there are, and the method
chooses among them.

* **Paths.** A serial is a whole segment of a path, and not empty. A fixed last segment may be
  followed by one line feed.
* **Misses.** At a path with endpoints, another method is refused and told the method of the first
  of them. A path without endpoints is forwarded when adding a slash at its end, or taking its last
  slashes away, leads to one.
-/

namespace UiTree

/-- Something that the service can be asked to do. -/
inductive Endpoint where
  | about
  | upload (serial : Text)
  | source (serial : Text)
  | remove (serial : Text)
  | compile
  | query
  | children
  deriving DecidableEq, Repr

namespace Endpoint

/-- The method that asks for an endpoint. -/
def method : Endpoint → Text
  | .about | .source _ => "GET".toList
  | .upload _ => "PUT".toList
  | .remove _ => "DELETE".toList
  | .compile | .query | .children => "POST".toList

/-- Is this the last segment of that name? -/
def isLast (name segment : Text) : Bool := segment == name || segment == name ++ ['\n']

/-- The endpoints for the snapshot of a serial. -/
def ofSerial (rest : Text) : List Endpoint :=
  match Text.pieces '/' rest with
  | [serial] => if serial.isEmpty then [] else [.upload serial, .remove serial]
  | [serial, last] =>
    if !serial.isEmpty && isLast "xml".toList last then [.source serial] else []
  | _ => []

/-- The endpoints at a path, in the order in which they are offered. -/
def atPath (path : Text) : List Endpoint :=
  match Text.cutStart "/api/".toList path with
  | none => []
  | some rest =>
    if isLast [] rest then [.about]
    else if isLast "compile".toList rest then [.compile]
    else if isLast "query".toList rest then [.query]
    else if isLast "children".toList rest then [.children]
    else
      match Text.cutStart "snapshots/".toList rest with
      | some more => ofSerial more
      | none => []

/-- The neighbour of a path: without its last slashes when it ends with one, else with one more. -/
def neighbour (path : Text) : Text :=
  match path.reverse with
  | '/' :: back => (back.dropWhile fun c => c == '/').reverse
  | _ => path ++ ['/']

end Endpoint

/-- Where a request leads. -/
inductive Destination where
  | endpoint (e : Endpoint)
  | otherMethod (allowed : Text)
  | forward (path : Text)
  | nowhere
  deriving DecidableEq, Repr

/-- Where a method and a path lead. -/
def Destination.ofRequest (method path : Text) : Destination :=
  match Endpoint.atPath path with
  | e :: es =>
    match (e :: es).find? fun f => f.method == method with
    | some f => .endpoint f
    | none => .otherMethod e.method
  | [] =>
    if path == ['/'] || (Endpoint.atPath (Endpoint.neighbour path)).isEmpty then .nowhere
    else .forward (Endpoint.neighbour path)

end UiTree
