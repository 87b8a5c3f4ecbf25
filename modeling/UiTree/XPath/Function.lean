import UiTree.XPath.Value

/-!
# UiTree.XPath.Function -- the functions of path expressions

The core function library of XPath 1.0. A call fails when there is no function of its name, when the
number of arguments is wrong, or when an argument has to be places and is not.

* **Focus.** Some functions ask for the place where they are called, or for its position among those
  that are being filtered; outside of a predicate there is no position.
* **Limit.** There are no extension functions: a call by a qualified name fails, whatever namespace
  the qualifier is bound to.
-/

namespace UiTree.XPath

/-- Where an expression is evaluated: a place, and its position and the number of places when these
are being filtered. -/
structure Focus where
  place : Place
  position : Option (Nat × Nat)

namespace Site

variable (s : Site)

/-- The local part of the name of what is at a place. -/
def localNameOf (p : Place) : Text :=
  match s.name? p with
  | some n => n.base
  | none =>
    match s.binding? p with
    | some b => b.qualifier.getD []
    | none =>
      match s.node? p.trail with
      | some (.instruction t _) => t
      | _ => []

/-- The name as it is written of what is at a place. -/
def writtenNameOf (p : Place) : Text :=
  match s.name? p with
  | some n => n.qualified
  | none => s.localNameOf p

/-- The namespace of what is at a place. -/
def namespaceOf (p : Place) : Text := ((s.name? p).bind Xml.Name.uri).getD []

/-- The elements that have one of the identifiers, which stand in a text with blanks between. -/
def withIds (t : Text) : List Place :=
  let ids := (t.splitBy fun a b => Xml.isSpace a == Xml.isSpace b).filter fun w =>
    !w.any Xml.isSpace
  ((trailsFrom [] 0 s.nodes).filter fun t =>
    (s.opening? t).any fun o => o.ids.any fun i => ids.contains i).map .node

/-- The value of the nearest `xml:lang` attribute at or above a place. -/
def language? (p : Place) : Option Text :=
  ((p.trail :: ancestors p.trail).filterMap s.opening?).findSome? fun o =>
    let stated := o.attributes.find? fun a =>
      a.name.uri == some Xml.xmlNamespace && a.name.base == "lang".toList
    stated.map Xml.Attr.value

end Site

/-- The language of a range or of one of its parts, without regard to case. -/
def isLanguage (range lang : Text) : Bool :=
  match Text.cutStart (range.map Char.toUpper) (lang.map Char.toUpper) with
  | some [] => true
  | some (c :: _) => c == '-'
  | none => false

/-- A text whose runs of blanks are single spaces, with none at its ends. -/
def collapseBlanks (t : Text) : Text :=
  Text.join [' '] ((t.splitBy fun a b => Xml.isSpace a == Xml.isSpace b).filter fun w =>
    !w.any Xml.isSpace)

/-- The character that stands for `c`: the one at its first position in `source`, taken from
`target`; none when `target` is too short. -/
def replaced (source target : Text) (c : Char) : Option Char :=
  match source.findIdx? fun d => d == c with
  | some i => target[i]?
  | none => some c

/-- The largest index of a signed 32-bit word. -/
def maxIndex : Nat := 2147483647

/-- A number rounded to an integral one, a half going up. -/
def roundHalfUp (x : Binary64) : Binary64 :=
  let low := x.floor
  if Binary64.le (Binary64.ofRatio false 1 2) (x.sub low) then low.add .one else low

/-- The natural number that an integral value of the index range is. -/
def indexOf (x : Binary64) : Nat := (x.toInt?.getD 0).toNat

/-- The first position of a substring that begins at a rounded number. -/
def firstIndex (start : Binary64) : Nat :=
  if !start.lt (.ofNat maxIndex) then maxIndex
  else if Binary64.le .one start then indexOf (roundHalfUp start)
  else 1

/-- The position after a substring of a rounded length. -/
def endIndex (start length : Binary64) : Nat :=
  let stop := (roundHalfUp start).add (roundHalfUp length)
  if !Binary64.le .one stop then 1
  else if stop.lt (.ofNat maxIndex) then indexOf stop
  else maxIndex

/-- The part of a text from a position on, maybe of a given length; positions count from one. -/
def substring (t : Text) (start : Binary64) (length : Option Binary64) : Text :=
  let i := firstIndex start - 1
  let j :=
    match length with
    | some l => endIndex start l - 1
    | none => maxIndex - 1
  if i < j then (t.drop i).take (j - i) else []

/-- The nearest integral number, a half going up; what rounds to zero keeps its sign. -/
def rounding (x : Binary64) : Binary64 :=
  let half := Binary64.ofRatio false 1 2
  if Binary64.le half.neg x && x.lt half then x.mul .zero else roundHalfUp x

/-- The value of a function that takes places, or the place of the focus when it is called without
arguments. -/
def onPlaces (f : Focus) (g : Place → Text) : List Value → Option Value
  | [] => some (.text (g f.place))
  | [.places ps] => some (.text ((ps.head?.map g).getD []))
  | _ => none

/-- The value of a function that takes a text, or that of the focus when it is called without
arguments. -/
def onText (s : Site) (f : Focus) (g : Text → Value) : List Value → Option Value
  | [] => some (g (s.textOf f.place))
  | [v] => some (g (v.toText s))
  | _ => none

/-- The value of a function of one number. -/
def onNumber (s : Site) (g : Binary64 → Binary64) : List Value → Option Value
  | [v] => some (.number (g (v.toNumber s)))
  | _ => none

/-- The value of a function of two texts. -/
def onTexts (s : Site) (g : Text → Text → Value) : List Value → Option Value
  | [v, w] => some (g (v.toText s) (w.toText s))
  | _ => none

/-- Functions on places, and those that depend on the focus. -/
def placeFunction? (s : Site) (f : Focus) (name : String) (as : List Value) : Option Value :=
  match name, as with
  | "last", [] => f.position.map fun p => .number (.ofNat p.2)
  | "position", [] => f.position.map fun p => .number (.ofNat p.1)
  | "count", [.places ps] => some (.number (.ofNat ps.length))
  | "sum", [.places ps] =>
    some (.number (ps.foldl (fun x p => x.add (numberOfText (s.textOf p))) .zero))
  | "id", [.places ps] =>
    some (.places (Place.ordered (ps.flatMap fun p => s.withIds (s.textOf p))))
  | "id", [v] => some (.places (Place.ordered (s.withIds (v.toText s))))
  | "lang", [v] => some (.truth ((s.language? f.place).any (isLanguage (v.toText s))))
  | "local-name", as => onPlaces f s.localNameOf as
  | "namespace-uri", as => onPlaces f s.namespaceOf as
  | "name", as => onPlaces f s.writtenNameOf as
  | _, _ => none

/-- Functions on texts. -/
def textFunction? (s : Site) (f : Focus) (name : String) (as : List Value) : Option Value :=
  match name, as with
  | "string", as => onText s f .text as
  | "concat", v :: w :: vs => some (.text ((v :: w :: vs).flatMap fun u => u.toText s))
  | "contains", as => onTexts s (fun t u => .truth (Text.isInfix u t)) as
  | "starts-with", as => onTexts s (fun t u => .truth (Text.isStart u t)) as
  | "substring-before", as =>
    onTexts s (fun t u => .text (((Text.cutAt u t).map Prod.fst).getD [])) as
  | "substring-after", as =>
    onTexts s (fun t u => .text (((Text.cutAt u t).map Prod.snd).getD [])) as
  | "substring", [v, x] => some (.text (substring (v.toText s) (x.toNumber s) none))
  | "substring", [v, x, y] =>
    some (.text (substring (v.toText s) (x.toNumber s) (some (y.toNumber s))))
  | "string-length", as => onText s f (fun t => .number (.ofNat t.length)) as
  | "normalize-space", as => onText s f (fun t => .text (collapseBlanks t)) as
  | "translate", [v, x, y] =>
    some (.text ((v.toText s).filterMap (replaced (x.toText s) (y.toText s))))
  | _, _ => none

/-- Functions on truth values and numbers. -/
def plainFunction? (s : Site) (f : Focus) (name : String) (as : List Value) : Option Value :=
  match name, as with
  | "not", [v] => some (.truth !v.toTruth)
  | "true", [] => some (.truth true)
  | "false", [] => some (.truth false)
  | "boolean", [v] => some (.truth v.toTruth)
  | "number", [] => some (.number (numberOfText (s.textOf f.place)))
  | "number", [v] => some (.number (v.toNumber s))
  | "floor", as => onNumber s Binary64.floor as
  | "ceiling", as => onNumber s Binary64.ceil as
  | "round", as => onNumber s rounding as
  | _, _ => none

/-- The value of a call; none when the function is unknown or does not take the arguments. A name
with a qualifier is never known: an evaluator with extension functions (regular expressions, sets,
dates) would have them when the root binds the qualifier to their namespace. -/
def invoke? (s : Site) (f : Focus) (qualifier : Option Text) (name : Text) (as : List Value) :
    Option Value :=
  if qualifier.isSome then none
  else
    let n := String.ofList name
    (placeFunction? s f n as).or ((textFunction? s f n as).or (plainFunction? s f n as))

end UiTree.XPath
