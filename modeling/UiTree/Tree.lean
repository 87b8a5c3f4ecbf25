import UiTree.Fault

/-!
# UiTree.Tree -- ordered trees and their paths

A hierarchy is a finite ordered tree. Its nodes are addressed by **paths**: the child indexes that
lead from the root to the node.

* **Two traversals.** `entries` lists the nodes with their paths by recursion on the tree, each node
  before its children. `walk` lists them with an explicit stack of pending subtrees.
* **Look-up.** `at?` follows a path.
-/

namespace UiTree

/-- Child indexes from the root to a node. -/
abbrev Path := List Nat

namespace Path

/-- A path as an address. -/
def address (p : Path) : Address := p.map Int.ofNat

/-- The path of an address without negative indexes. -/
def ofAddress? (a : Address) : Option Path :=
  a.mapM fun i =>
    match i with
    | .ofNat n => some n
    | .negSucc _ => none

/-- The lexicographic order: a path comes before its extensions, and these before what follows. -/
def lt : Path → Path → Bool
  | _, [] => false
  | [], _ :: _ => true
  | i :: p, j :: q => i < j || (i == j && lt p q)

/-- The order with equality. -/
def le (p q : Path) : Bool := p == q || lt p q

/-- Is `p` the path of a proper descendant of the node at `q`? -/
def isBelow (p q : Path) : Bool := q.length < p.length && p.take q.length == q

end Path

/-- A tree with a label at every node. -/
inductive Tree (α : Type) where
  | node (label : α) (children : List (Tree α))

namespace Tree

variable {α : Type}

/-- The label of the root. -/
def label : Tree α → α
  | .node a _ => a

/-- The subtrees of the root. -/
def children : Tree α → List (Tree α)
  | .node _ ts => ts

mutual

/-- The number of nodes. -/
def size : Tree α → Nat
  | .node _ ts => sizes ts + 1

/-- The number of nodes of several trees. -/
def sizes : List (Tree α) → Nat
  | [] => 0
  | t :: ts => size t + sizes ts

end

mutual

/-- The nodes below and at the path `p`, each one before its children. -/
def entries (p : Path) : Tree α → List (Path × α)
  | .node a ts => (p, a) :: entriesFrom p 0 ts

/-- The nodes of the children of `p` from index `i` on. -/
def entriesFrom (p : Path) (i : Nat) : List (Tree α) → List (Path × α)
  | [] => []
  | t :: ts => entries (p ++ [i]) t ++ entriesFrom p (i + 1) ts

end

/-- The subtree at a path. -/
def at? : Path → Tree α → Option (Tree α)
  | [], t => some t
  | i :: p, .node _ ts =>
    match ts[i]? with
    | some t => at? p t
    | none => none

/-- The children of the node at `p` put on a stack, the first one on top. -/
def pushChildren (p : Path) (ts : List (Tree α)) (stack : List (Path × Tree α)) :
    List (Path × Tree α) :=
  ts.zipIdx.foldr (fun (t, i) below => (p ++ [i], t) :: below) stack

/-- The number of nodes that are pending on a stack. -/
def pending : List (Path × Tree α) → Nat
  | [] => 0
  | (_, t) :: rest => size t + pending rest

theorem pending_pushChildren (p : Path) (ts : List (Tree α)) (stack : List (Path × Tree α)) :
    pending (pushChildren p ts stack) = sizes ts + pending stack := by
  unfold pushChildren
  generalize 0 = k
  induction ts generalizing k with
  | nil => simp [sizes]
  | cons t ts ih =>
    have := ih (k + 1)
    simp only [List.zipIdx_cons, List.foldr_cons, sizes, pending] at this ⊢
    omega

/-- The nodes that are pending on a stack, in the order in which they are taken from it. -/
def walkFrom : List (Path × Tree α) → List (Path × α)
  | [] => []
  | (p, .node a ts) :: rest => (p, a) :: walkFrom (pushChildren p ts rest)
termination_by stack => pending stack
decreasing_by
  rw [pending_pushChildren]
  simp [pending, size]

/-- The nodes of a tree with their paths, by a walk with an explicit stack. -/
def walk (t : Tree α) : List (Path × α) := walkFrom [([], t)]

end Tree

end UiTree
