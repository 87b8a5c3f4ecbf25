import UiTree.XPath.Expr
import UiTree.XPath.Number

/-!
# UiTree.XPath.Reader -- reading path expressions

Expressions are read from the left without a separate list of tokens. Binary operators bind in
**tiers**, from the loosest to the tightest, and associate to the left; a run of minus signs stands
between the multiplication tier and the union tier.

* **What a path is.** A path begins with a location step or with a primary expression; `lead?`
  decides which, by looking at the first characters and at what follows a first name.
* **Words are symbols.** The operators spelled with letters need no blank around them, and where an
  operator can stand its spelling is the operator.
* **Fuel.** Every call of the readers uses one unit; `Expr.read?` gives more than any text can use.
-/

namespace UiTree.XPath

open Xml (skipSpace readNCName readName)

/-- One tier of the grammar: operators that associate to the left, or signs. -/
inductive Tier where
  | operators (ops : List BinaryOp)
  | signs

/-- The tiers from the loosest to the tightest. -/
def tiers : List Tier :=
  [.operators [.or], .operators [.and], .operators [.equal, .unequal],
   .operators [.atMost, .less, .atLeast, .greater], .operators [.plus, .minus],
   .operators [.times, .quotient, .remainder], .signs, .operators [.union]]

/-- The first of some operators whose symbol begins a text, and what follows it. -/
def cutOperator (ops : List BinaryOp) (t : Text) : Option (BinaryOp × Text) :=
  ops.findSome? fun o => (Text.cutStart o.symbol t).map fun r => (o, r)

/-- The minus signs at the start of a text with their blanks: whether there are any, whether their
number is odd, and what follows. -/
def cutSigns : Text → Bool × Bool × Text
  | [] => (false, false, [])
  | c :: t =>
    if c = '-' then
      let (_, odd, r) := cutSigns t
      (true, !odd, r)
    else if Xml.isSpace c then cutSigns t
    else (false, false, c :: t)

/-- Is this the name of a kind of node? -/
def isKindName (t : Text) : Bool :=
  ["comment".toList, "text".toList, "processing-instruction".toList, "node".toList].contains t

/-- What a path begins with. -/
inductive Lead where
  | primary
  | location
  deriving DecidableEq, Repr

/-- What the path at the start of a text begins with; none when no path can begin there. -/
def lead? (t : Text) : Option Lead :=
  match t with
  | [] => none
  | c :: r =>
    if c = '$' ∨ c = '(' ∨ c = '\'' ∨ c = '"' ∨ c.isDigit then some .primary
    else if c = '.' then
      match r with
      | d :: _ => some (if d.isDigit then .primary else .location)
      | [] => some .location
    else if c = '*' ∨ c = '/' ∨ c = '@' then some .location
    else
      match readName t with
      | none => none
      | some (name, r) =>
        if Text.isInfix "::".toList name then some .location
        else
          match skipSpace r with
          -- a name before a parenthesis is a call, unless it is the name of a kind of node
          | '(' :: _ => some (if isKindName name then .location else .primary)
          | _ => some .location

/-- A literal: what stands between two quotes of one kind. -/
def readLiteral : Text → Option (Text × Text)
  | c :: t =>
    if c = '\'' ∨ c = '"' then
      match Text.cutWhile (fun d => d != c) t with
      | (value, _ :: r) => some (value, r)
      | (_, []) => none
    else none
  | [] => none

/-- A name that may have a qualifier. -/
def readQualified (t : Text) : Option (Option Text × Text × Text) :=
  match readNCName t with
  | none => none
  | some (a, ':' :: r) => (readNCName r).map fun (b, r) => (some a, b, r)
  | some (a, r) => some (none, a, r)

/-- What follows the parenthesis after the name of a kind of node. -/
def readKind (name t : Text) : Option (NodeTest × Text) :=
  let t := skipSpace t
  let close (k : Kind) : Text → Option (NodeTest × Text)
    | ')' :: r => some (.kind k, r)
    | _ => none
  if name = "comment".toList then close .comment t
  else if name = "text".toList then close .text t
  else if name = "node".toList then close .any t
  else if name = "processing-instruction".toList then
    match t with
    | ')' :: r => some (.kind (.instruction none), r)
    | t =>
      match readLiteral t with
      | some (target, r) => close (.instruction (some target)) (skipSpace r)
      | none => none
  else none

/-- A node test that begins with a name. -/
def readNamedTest (name t : Text) : Option (NodeTest × Text) :=
  match skipSpace t with
  | '(' :: r => readKind name r
  | _ =>
    match t with
    | ':' :: '*' :: r => some (.inNamespace name, r)
    | ':' :: r => (readNCName r).map fun (b, r) => (.named (some name) b, r)
    | r => some (.named none name, r)

/-- A node test. -/
def readNodeTest (t : Text) : Option (NodeTest × Text) :=
  match skipSpace t with
  | '*' :: r => some (.any, r)
  | t =>
    match readNCName t with
    | some (name, r) => readNamedTest name r
    | none => none

/-- The axis and the node test of a step. -/
def readAxisTest (t : Text) : Option (Axis × NodeTest × Text) :=
  match t with
  | '@' :: r => (readNodeTest r).map fun (k, r) => (.attribute, k, r)
  | '*' :: r => some (.child, .any, r)
  | t =>
    match readNCName t with
    | none => none
    | some (name, r) =>
      -- the name of an axis is an ordinary name where no two colons follow
      match Axis.ofName? name with
      | none => (readNamedTest name r).map fun (k, r) => (.child, k, r)
      | some a =>
        match skipSpace r with
        | ':' :: ':' :: r => (readNodeTest r).map fun (k, r) => (a, k, r)
        | r => (readNamedTest name r).map fun (k, r) => (.child, k, r)

/-- The slash or the two slashes at the start of a text, put on the expression before them. -/
def cutSlash (e : Expr) : Text → Expr × Text
  | '/' :: '/' :: r => (e.subtree, skipSpace r)
  | '/' :: r => (e, skipSpace r)
  | r => (e, r)

/-- May a step follow a single slash at the start of a path? -/
def startsStep : Text → Bool
  | c :: _ => c.isAlpha || c == '_' || c == '.' || c == '@' || c == '*'
  | [] => false

mutual

/-- An expression whose operators belong to the given tiers. -/
def readAt : Nat → List Tier → Text → Option (Expr × Text)
  | 0, _, _ => none
  | fuel + 1, [], t => readPath fuel (skipSpace t)
  | fuel + 1, .operators ops :: tighter, t => do
    let (a, r) ← readAt fuel tighter t
    readMore fuel ops tighter a (skipSpace r)
  | fuel + 1, .signs :: tighter, t => do
    let (any, odd, r) := cutSigns t
    let (a, r) ← readAt fuel tighter r
    return (if any then .signed odd a else a, r)

/-- The operators of a tier with their right operands, as long as there are any. -/
def readMore : Nat → List BinaryOp → List Tier → Expr → Text → Option (Expr × Text)
  | 0, _, _, _, _ => none
  | fuel + 1, ops, tighter, a, t =>
    match cutOperator ops t with
    | none => some (a, t)
    | some (op, r) => do
      let (b, r) ← readAt fuel tighter (skipSpace r)
      readMore fuel ops tighter (.binary op a b) (skipSpace r)

/-- A path. -/
def readPath : Nat → Text → Option (Expr × Text)
  | 0, _ => none
  | fuel + 1, t =>
    match lead? t with
    | none => none
    | some .location =>
      match t with
      | '/' :: _ => readRooted fuel .root t
      | _ => readRelative fuel .here t
    | some .primary => do
      let (e, r) ← readPrimary fuel t
      let (ps, r) ← readPredicates fuel (skipSpace r)
      let e := ps.foldl .filter e
      -- a step may follow any primary expression, even one that cannot denote places
      match r with
      | '/' :: '/' :: r => readRelative fuel e.subtree r
      | '/' :: r => readRelative fuel e ('/' :: r)
      | r => return (e, r)

/-- Slashes and steps from the root on. -/
def readRooted : Nat → Expr → Text → Option (Expr × Text)
  | 0, _, _ => none
  | fuel + 1, e, t =>
    match t with
    | '/' :: '/' :: r => do
      let (e, r) ← readRelative fuel e.subtree r
      readRooted fuel e r
    | '/' :: r =>
      let r := skipSpace r
      if startsStep r then do
        let (e, r) ← readRelative fuel e r
        readRooted fuel e r
      else readRooted fuel e r
    | r => some (e, r)

/-- At least one step; a slash in front of it is read with it. -/
def readRelative : Nat → Expr → Text → Option (Expr × Text)
  | 0, _, _ => none
  | fuel + 1, e, t => do
    let (e, r) := cutSlash e (skipSpace t)
    let (e, r) ← readStep fuel e r
    readSteps fuel e (skipSpace r)

/-- Further steps, each after its slash. -/
def readSteps : Nat → Expr → Text → Option (Expr × Text)
  | 0, _, _ => none
  | fuel + 1, e, t =>
    match t with
    | '/' :: r => readRelative fuel e ('/' :: r)
    | r => some (e, r)

/-- One step. -/
def readStep : Nat → Expr → Text → Option (Expr × Text)
  | 0, _, _ => none
  | fuel + 1, e, t =>
    match t with
    | '.' :: '.' :: r => some (.step e .parent (.kind .any) [], r)
    | '.' :: r => some (e, r)
    | t => do
      let (a, k, r) ← readAxisTest t
      let (ps, r) ← readPredicates fuel (skipSpace r)
      return (.step e a k ps, r)

/-- The predicates in square brackets at the start of a text. -/
def readPredicates : Nat → Text → Option (List Expr × Text)
  | 0, _ => none
  | fuel + 1, t =>
    match t with
    | '[' :: r => do
      let (p, r) ← readAt fuel tiers (skipSpace r)
      match r with
      | ']' :: r =>
        let (ps, r) ← readPredicates fuel (skipSpace r)
        return (p :: ps, r)
      | _ => none
    | r => some ([], r)

/-- A variable, a group, a literal, a number or a call. -/
def readPrimary : Nat → Text → Option (Expr × Text)
  | 0, _ => none
  | fuel + 1, t =>
    match t with
    | [] => none
    | c :: r =>
      if c = '$' then (readQualified r).map fun (_, name, r) => (.variable name, r)
      else if c = '(' then do
        let (e, r) ← readAt fuel tiers (skipSpace r)
        match r with
        | ')' :: r => return (e.grouped, r)
        | _ => none
      else if c = '\'' ∨ c = '"' then (readLiteral t).map fun (v, r) => (.literal v, r)
      else if c.isDigit ∨ c = '.' then (readNumber t).map fun (x, r) => (.number x, r)
      else do
        let (qualifier, name, r) ← readQualified t
        match skipSpace r with
        | '(' :: r =>
          match skipSpace r with
          | ')' :: r => return (.call qualifier name [], r)
          | r =>
            let (as, r) ← readArguments fuel r
            return (.call qualifier name as, r)
        | _ => none

/-- The arguments of a call and the parenthesis after them. The end of the text closes a call where
an argument could begin. -/
def readArguments : Nat → Text → Option (List Expr × Text)
  | 0, _ => none
  | fuel + 1, t =>
    match t with
    | [] => some ([], [])
    | t => do
      let (a, r) ← readAt fuel tiers t
      match r with
      | ')' :: r => return ([a], r)
      | ',' :: r =>
        let (as, r) ← readArguments fuel (skipSpace r)
        return (a :: as, r)
      | _ => none

end

/-- The expression that a text writes, when it writes one. -/
def Expr.read? (t : Text) : Option Expr :=
  match readAt (20 * (t.length + 2)) tiers (skipSpace t) with
  | some (e, []) => some e
  | _ => none

end UiTree.XPath
