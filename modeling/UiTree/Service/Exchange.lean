import UiTree.Datum.Basic
import UiTree.Fault

/-!
# UiTree.Service.Exchange -- requests and responses

What comes in over the wire and what goes out, in the service's own terms: the path is still
percent-encoded, the body is text, and of the headers only those are kept that are looked at.

* **Origins.** Pages from a few known origins may read responses; a response to one of them names
  its origin. A failure that nothing handles is answered outside of that rule.
-/

namespace UiTree

/-- A request. -/
structure Request where
  method : Text
  host : Text
  path : Text
  contentType : Text
  origin : Option Text
  body : Text

/-- What a response carries. -/
inductive Content where
  | json (d : Datum)
  | text (t : Text)

/-- A response; `raised` is the fault that nothing handled. -/
structure Response where
  status : Nat
  headers : List (Text × Text)
  content : Content
  raised : Option Fault

namespace Response

/-- The header of a content type. -/
def contentType (t : String) : Text × Text := ("content-type".toList, t.toList)

/-- A JSON value. -/
def json (status : Nat) (d : Datum) : Response :=
  ⟨status, [contentType "application/json"], .json d, none⟩

/-- A JSON record whose only field is `detail`. -/
def detail (status : Nat) (d : Datum) : Response :=
  json status (.record [("detail".toList, d)])

/-- The response to a fault that nothing handles. -/
def crash (why : Fault) : Response :=
  ⟨500, [contentType "text/plain; charset=utf-8"], .text "Internal Server Error".toList, some why⟩

/-- The characters that an address keeps as they are. -/
def isAddressChar (c : Char) : Bool :=
  c.isAlphanum || "_.-~:/%#?=@[]!$&'()*+,;".toList.contains c

/-- The origins whose pages may read responses. -/
def knownOrigins : List Text :=
  ["http://localhost:5173".toList, "http://localhost:3000".toList, "http://127.0.0.1:8000".toList]

/-- The response with the header that lets pages of the request's origin read it. -/
def forOrigin (origin : Option Text) (r : Response) : Response :=
  match r.raised, origin with
  | none, some o =>
    if knownOrigins.contains o then
      { r with headers := r.headers ++ [("access-control-allow-origin".toList, o)] }
    else r
  | _, _ => r

end Response

end UiTree
