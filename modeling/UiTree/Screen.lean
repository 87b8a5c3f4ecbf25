import UiTree.Device
import UiTree.Lookup

/-!
# UiTree.Screen -- the current hierarchy of a device

A screen holds the latest snapshot of a device and replaces it by newer ones. A `Handle` is a node
that was found on a screen, with the lookup that found it; when the screen moves on the handle
becomes **stale**, and nothing can be read from it or done with it until it is refreshed.

* **Looking.** What only looks at a screen is a function of it that gives a `Report`.
* **Acting.** What changes a screen or reaches the device is a `Task`. A failed task keeps what it
  did before it failed: the actions sent, and the state of the device.
* **Versions.** The snapshots of a screen are numbered from `nextVersion` on; a failed load uses no
  number.
-/

namespace UiTree

/-- The current hierarchy of a device, and what was sent to it. -/
structure Screen (σ : Type) where
  strict : Bool
  current : Snapshot
  nextVersion : Nat
  device : σ
  sent : List Action

/-- An operation that may change a screen. -/
def Task (σ α : Type) := Screen σ → Report α × Screen σ

namespace Task

variable {σ α β : Type}

/-- A task that only looks. -/
def look (f : Screen σ → Report α) : Task σ α := fun s => (f s, s)

/-- One task after another; the second one is done only if the first one succeeds. -/
def bind (t : Task σ α) (f : α → Task σ β) : Task σ β := fun s =>
  let (r, s) := t s
  match r.result with
  | .ok a =>
    let (r', s) := f a s
    (⟨r.events ++ r'.events, r'.result⟩, s)
  | .error e => (⟨r.events, .error e⟩, s)

instance : Monad (Task σ) where
  pure a := look fun _ => pure a
  bind := bind

end Task

/-- A node that was found on a screen, and how. -/
structure Handle where
  node : Node
  lookup : Option Lookup

namespace Screen

variable {σ : Type}

/-- A screen with its first snapshot, from a given text or else from a dump of the device; and what
was sent to the device. -/
def start (c : Channel σ) (strict : Bool) (version : Nat) (device : σ) (source : Option Text) :
    Report (Screen σ) × List Action :=
  match source with
  | some t =>
    (do return ⟨strict, ← Snapshot.build version (some t), version + 1, device, []⟩, [])
  | none =>
    let (dumped, device) := c.dump device
    (do
      let t ← Report.of dumped
      return ⟨strict, ← Snapshot.build version t, version + 1, device, [.dump]⟩, [.dump])

/-- The version of the current snapshot. -/
def version (s : Screen σ) : Nat := s.current.version

/-- The screen as messages show it. -/
def describe (s : Screen σ) : Text := "Screen(v".toList ++ Text.ofNat s.version ++ [')']

/-- Replaces the current snapshot by one of the given text. -/
def load (source : Option Text) : Task σ Snapshot := fun s =>
  let r := Snapshot.build s.nextVersion source
  match r.result with
  | .ok next =>
    (⟨r.events ++ [.moved s.version next.version], .ok next⟩,
     { s with current := next, nextVersion := s.nextVersion + 1 })
  | .error e => (⟨r.events, .error e⟩, s)

/-- Replaces the current snapshot by one of a fresh dump. -/
def update (c : Channel σ) : Task σ Snapshot := fun s =>
  let (dumped, device) := c.dump s.device
  let s := { s with device := device, sent := s.sent ++ [.dump] }
  match dumped with
  | .ok source => load source s
  | .error e => (Report.fail e, s)

/-- Sends an action to the device. -/
def send (c : Channel σ) (a : Action) : Task σ Datum := fun s =>
  let (answer, device) := c.perform a s.device
  (Report.of answer, { s with device := device, sent := s.sent ++ [a] })

/-- The selector of a selector text, with or without tolerance for unknown keys as the screen has
it. -/
def readSelector (s : Screen σ) (t : Datum) : Report Selector := Selector.readDatum s.strict t

/-- The first node that a query finds. -/
def getElement (s : Screen σ) (q : Query) : Report Handle := do
  let n ← s.current.findOne .path q Scope.document
  return ⟨n, some (.top q 0)⟩

/-- All nodes that a query finds, each with its position. -/
def getElements (s : Screen σ) (q : Query) : Report (List Handle) := do
  let ns ← s.current.findAll .path q Scope.document
  return ns.zipIdx.map fun (n, i) => ⟨n, some (.top q i)⟩

/-- Does a query find anything? -/
def containsElement (s : Screen σ) (q : Query) : Report Bool := s.current.contains q Scope.document

/-- The selector of the nodes that show exactly this text. -/
def showing (text : Datum) : Except Fault Selector :=
  (Predicate.ofDatum .text .equals text).map Selector.empty.add

/-- Does any node show exactly this text? -/
def hasText (s : Screen σ) (text : Datum) : Report Bool := do
  let sel ← Report.of (showing text)
  s.containsElement (.selector sel)

/-- Waits on the device until something matches. -/
def waitForExists (c : Channel σ) (sel : Selector) (timeout : Datum) : Task σ Bool := do
  return (← send c (.waitForExists sel timeout)).isTruthy

/-- Waits on the device until nothing matches. -/
def waitUntilGone (c : Channel σ) (sel : Selector) (timeout : Datum) : Task σ Bool := do
  return (← send c (.waitUntilGone sel timeout)).isTruthy

/-- Waits on the device for a change of a window. -/
def waitForWindowUpdate (c : Channel σ) (package timeout : Datum) : Task σ Bool := do
  return (← send c (.waitForWindowUpdate package timeout)).isTruthy

end Screen

namespace Handle

variable {σ : Type}

/-- The version of the snapshot that the handle was found in. -/
def version (h : Handle) : Nat := h.node.snapshot.version

/-- Has the screen moved on since the handle was found? -/
def isStale (h : Handle) (s : Screen σ) : Bool := s.version != h.version

/-- The name of the state of a handle. -/
def stateName (h : Handle) (s : Screen σ) : Text :=
  if h.isStale s then "stale".toList else "resolved".toList

/-- The handle as messages show it. -/
def describe (h : Handle) (s : Screen σ) : Text :=
  "ElementHandle(".toList ++ h.node.describe ++ ',' :: ' ' :: h.stateName s ++ [')']

/-- Are the nodes of two handles the same? -/
def same (h k : Handle) : Bool := h.node.same k.node

/-- The node of a handle that is not stale. -/
def fresh (h : Handle) (s : Screen σ) : Except Fault Node :=
  if h.isStale s then .error (.stale h.version s.version) else .ok h.node

/-- The rectangle of the node. -/
def bounds? (h : Handle) (s : Screen σ) : Except Fault (Option Bounds) := do
  (← h.fresh s).bounds?

/-- The point where the node is touched. -/
def target (h : Handle) (s : Screen σ) : Except Fault (Int × Int) := do
  let n ← h.fresh s
  match ← n.center? with
  | some p => .ok p
  | none => .error (.noBounds n.describe)

/-- Records a tap; coordinates with too many digits cannot be written down. -/
def noteTap (h : Handle) (p : Int × Int) : Report Unit := do
  let _ ← Report.of (shownInteger p.1)
  let _ ← Report.of (shownInteger p.2)
  Report.tell (.tapped p.1 p.2 h.node.describe)

/-- Taps the node. -/
def tap (c : Channel σ) (h : Handle) : Task σ Datum := do
  let p ← Task.look fun s => Report.of (h.target s)
  Task.look fun _ => h.noteTap p
  Screen.send c (.tap p.1 p.2)

/-- The time of a long press when none is given. -/
def pressTime : Datum := .int 1500

/-- Presses the node for some time. -/
def longPress (c : Channel σ) (h : Handle) (timeout : Datum) : Task σ Datum := do
  let p ← Task.look fun s => Report.of (h.target s)
  Screen.send c (.longPress p.1 p.2 timeout)

/-- Taps the node and types a text. -/
def inputText (c : Channel σ) (h : Handle) (text interval : Datum) : Task σ Datum := do
  let _ ← h.tap c
  Screen.send c (.inputText text interval)

/-- Taps the node and clears what is written there. -/
def clearText (c : Channel σ) (h : Handle) : Task σ Datum := do
  let _ ← h.tap c
  Screen.send c .clearField

/-- The nodes below the node that a query finds. They can be refreshed when the handle can. -/
def children (h : Handle) (s : Screen σ) (q : Query) : Report (List Handle) := do
  let n ← Report.of (h.fresh s)
  let ns ← n.snapshot.findChildren .path q n
  return ns.zipIdx.map fun (m, i) => ⟨m, h.lookup.map fun l => .under l q i⟩

/-- The same lookup on the current snapshot. Without a lookup a handle stays what it is until it is
stale. -/
def refresh (h : Handle) (s : Screen σ) : Report Handle :=
  match h.lookup with
  | none => Report.of ((h.fresh s).map fun _ => h)
  | some l => do
    let n ← l.resolve s.current
    return ⟨n, some l⟩

end Handle

namespace Screen

variable {σ : Type}

/-- The element of a list at an index; a negative index counts from the end. -/
def atIndex {α : Type} (xs : List α) (i : Int) : Option α :=
  let j := if i < 0 then i + xs.length else i
  if j < 0 then none else xs[j.toNat]?

/-- Taps one of the nodes that show exactly this text. -/
def tapText (c : Channel σ) (text : Datum) (index : Int) : Task σ Datum := do
  let sel ← Task.look fun _ => Report.of (showing text)
  let hs ← Task.look fun s => s.getElements (.selector sel)
  if (hs.length : Int) ≤ index then
    Task.look fun _ => Report.fail (.notFound sel.text (.tapTarget index hs.length))
  else
    match atIndex hs index with
    | some h => h.tap c
    | none => Task.look fun _ => Report.fail .outOfRange

end Screen

end UiTree
