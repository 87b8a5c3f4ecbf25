import UiTree.Text.Digit

/-!
# UiTree.Xml.Uri -- references to resources

Namespace names are checked to be **URI references** in the sense of RFC 3986: an optional scheme,
an optional authority, a path, an optional query and an optional fragment. Square brackets are
tolerated in a fragment.

* **Use.** A namespace name that is no URI reference is an error of a document; one without a scheme
  is only worth a warning.
-/

namespace UiTree.Xml.Uri

/-- A hexadecimal digit, two of which follow the percent sign of an encoded byte. -/
def isHex (c : Char) : Bool := (Text.hexValue c).isSome

/-- An unreserved character: one that may stand anywhere in a reference and means only itself. -/
def isUnreserved (c : Char) : Bool :=
  c.toNat < 0x80 && (c.isAlphanum || c == '-' || c == '.' || c == '_' || c == '~')

/-- A character that may separate parts inside of a component. -/
def isSubDelimiter (c : Char) : Bool := "!$&'()*+,;=".toList.contains c

/-- The rest after the longest run of characters that satisfy `p` or are percent-encoded. The fuel
is the length of the text. -/
def skipEncodedFrom (p : Char → Bool) : Nat → Text → Text
  | 0, t => t
  | fuel + 1, t =>
    match t with
    | '%' :: a :: b :: rest =>
      if isHex a && isHex b then skipEncodedFrom p fuel rest else t
    | c :: rest => if p c then skipEncodedFrom p fuel rest else t
    | [] => []

/-- The rest after the longest run of characters that satisfy `p` or are percent-encoded. -/
def skipEncoded (p : Char → Bool) (t : Text) : Text := skipEncodedFrom p t.length t

/-- A character of a path that is not percent-encoded, the slash between segments included. -/
def isPathChar (c : Char) : Bool :=
  isUnreserved c || isSubDelimiter c || c == ':' || c == '@' || c == '/'

/-- The text after the scheme and its colon, when there is a scheme. -/
def scheme? : Text → Option Text
  | c :: t =>
    if c.isAlpha then
      match t.dropWhile fun d => d.isAlphanum || d == '+' || d == '-' || d == '.' with
      | ':' :: rest => some rest
      | _ => none
    else none
  | [] => none

/-- The text after an authority: user information, host and port. -/
def skipAuthority (t : Text) : Option Text :=
  let afterUser :=
    match skipEncoded (fun c => isUnreserved c || isSubDelimiter c || c == ':') t with
    | '@' :: rest => rest
    | _ => t
  let afterHost : Option Text :=
    match afterUser with
    | '[' :: rest =>
      match rest.dropWhile fun c => c != ']' with
      | _ :: r => some r
      | [] => none
    | rest => some (skipEncoded (fun c => isUnreserved c || isSubDelimiter c) rest)
  afterHost.map fun t =>
    match t with
    | ':' :: rest => rest.dropWhile Char.isDigit
    | rest => rest

/-- Is this a query and a fragment, either of which may be missing, up to the end of the text? -/
def isTail (t : Text) : Bool :=
  let t :=
    match t with
    | '?' :: rest => skipEncoded (fun c => isPathChar c || c == '?') rest
    | rest => rest
  match t with
  | [] => true
  | '#' :: rest =>
    (skipEncoded (fun c => isPathChar c || c == '?' || c == '[' || c == ']') rest).isEmpty
  | _ => false

/-- The hierarchical part, the query and the fragment, up to the end of the text; without a scheme
the first segment of the path holds no colon. -/
def isHierarchy (hasScheme : Bool) (t : Text) : Bool :=
  match t with
  | '/' :: '/' :: rest =>
    match skipAuthority rest with
    | some ('/' :: r) => isTail (skipEncoded isPathChar ('/' :: r))
    | some r => isTail r
    | none => false
  | '/' :: _ => isTail (skipEncoded isPathChar t)
  | _ =>
    if hasScheme then isTail (skipEncoded isPathChar t)
    else
      match skipEncoded (fun c => isPathChar c && c != ':' && c != '/') t with
      | '/' :: r => isTail (skipEncoded isPathChar ('/' :: r))
      | r => isTail r

/-- Is the whole text a URI with a scheme? -/
def isAbsolute (t : Text) : Bool :=
  match scheme? t with
  | some rest => isHierarchy true rest
  | none => false

/-- Is the whole text a URI reference? -/
def isReference (t : Text) : Bool := isAbsolute t || isHierarchy false t

end UiTree.Xml.Uri
