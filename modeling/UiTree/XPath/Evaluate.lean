import UiTree.XPath.Function

/-!
# UiTree.XPath.Evaluate -- the value of a path expression

Evaluation is by recursion on the expression. It fails where a function is unknown or misused, where
a step or a union is taken from something that is not places, and where a qualifier is not known;
but only if it gets there: `or` and `and` leave out what is already decided, and the predicates of a
step are not evaluated when nothing is left to filter.

* **Predicates.** A number selects the place with this position along the axis; any other value
  counts as a truth value. The positions after a filter start from one again.
* **Filtered groups.** The first and the last place of a group are picked without looking at what
  the group denotes, so that a group that denotes no places is passed on as it is.
* **Limit.** Nothing bounds the depth of an expression, the number of steps or the number of places;
  an evaluator that has such a bound gives up where this one goes on.
-/

namespace UiTree.XPath

/-- Does a predicate with this value keep the place at the given position? -/
def keeps (position : Nat) : Value → Bool
  | .number x => x.eqv (.ofNat position)
  | v => v.toTruth

/-- The value of an arithmetic operator. -/
def calculate (op : BinaryOp) (x y : Binary64) : Binary64 :=
  match op with
  | .plus => x.add y
  | .minus => x.sub y
  | .times => x.mul y
  | .quotient => x.div y
  | _ => x.rem y

/-- The value of an operator on two values, `or` and `and` apart. -/
def combine (s : Site) (op : BinaryOp) (v w : Value) : Option Value :=
  match op with
  | .equal => some (.truth (v.agree s false w))
  | .unequal => some (.truth (v.agree s true w))
  | .less => some (.truth (v.related s .less w))
  | .atMost => some (.truth (v.related s .atMost w))
  | .greater => some (.truth (v.related s .greater w))
  | .atLeast => some (.truth (v.related s .atLeast w))
  | .union => do
    let ps ← v.places?
    let qs ← w.places?
    return .places (Place.ordered (ps ++ qs))
  | .or | .and => some (.truth (v.toTruth && w.toTruth))
  | op => some (.number (calculate op (v.toNumber s) (w.toNumber s)))

/-- Is this the number one? -/
def isOne : Expr → Bool
  | .number x => x.eqv .one
  | _ => false

/-- Is this the call of the last position, maybe in parentheses? -/
def isLast : Expr → Bool
  | .call none name [] => name == "last".toList
  | _ => false

/-- The first place of a value that is places. -/
def firstOf : Value → Value
  | .places ps => .places (ps.take 1)
  | v => v

/-- The last place of a value that is places. -/
def lastOf : Value → Value
  | .places ps => .places (ps.drop (ps.length - 1))
  | v => v

/-- The places that a test keeps when it is given each one with its position. -/
def keepWith (test : Focus → Option Value) (ps : List Place) : Option (List Place) := do
  let marked ← ps.zipIdx.mapM fun (p, i) =>
    (test ⟨p, some (i + 1, ps.length)⟩).map fun v => (p, keeps (i + 1) v)
  return (marked.filter Prod.snd).map Prod.fst

mutual

/-- The value of an expression; none when it has no value. -/
def evaluate (s : Site) (f : Focus) : Expr → Option Value
  | .binary .or a b => do
    let v ← evaluate s f a
    if v.toTruth then return .truth true
    else return .truth (← evaluate s f b).toTruth
  | .binary .and a b => do
    let v ← evaluate s f a
    if v.toTruth then return .truth (← evaluate s f b).toTruth
    else return .truth false
  | .binary op a b => do
    let v ← evaluate s f a
    let w ← evaluate s f b
    combine s op v w
  | .signed negative a => do
    let x := (← evaluate s f a).toNumber s
    return .number (if negative then x.neg else x)
  | .literal t => some (.text t)
  | .number x => some (.number x)
  | .variable _ => none
  | .call qualifier name as => do
    let vs ← evaluateAll s f as
    invoke? s f qualifier name vs
  | .group a => evaluate s f a
  | .filter (.group a) p => do
    let v ← evaluate s f a
    -- these two picks do not ask whether the group denotes places
    if isOne p then return firstOf v
    else if isLast p then return lastOf v
    else
      let ps ← v.places?
      return .places (← keepWith (fun g => evaluate s g p) ps)
  | .filter a p => do
    let ps ← (← evaluate s f a).places?
    return .places (← keepWith (fun g => evaluate s g p) ps)
  | .root => some (.places [.node []])
  | .here => some (.places [f.place])
  | .step a axis test predicates => do
    let ps ← (← evaluate s f a).places?
    let uri ← s.wanted? test
    let found ← ps.mapM fun p =>
      keepAll s predicates ((s.along axis p).filter (s.satisfies axis test uri))
    return .places (Place.ordered found.flatten)

/-- The values of the arguments of a call. -/
def evaluateAll (s : Site) (f : Focus) : List Expr → Option (List Value)
  | [] => some []
  | a :: as => do
    let v ← evaluate s f a
    let vs ← evaluateAll s f as
    return v :: vs

/-- The places that are left after one predicate after the other. -/
def keepAll (s : Site) : List Expr → List Place → Option (List Place)
  | [], ps => some ps
  | p :: rest, ps => do
    let kept ← keepWith (fun g => evaluate s g p) ps
    keepAll s rest kept

end

end UiTree.XPath
