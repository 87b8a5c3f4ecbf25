import UiTree.Service.Body
import UiTree.Service.Endpoint
import UiTree.Service.Exchange
import UiTree.Settings
import UiTree.Text.Percent

/-!
# UiTree.Service.Basic -- the query service

The service keeps the latest snapshot of every serial and answers requests about them, one after the
other. A request may change what is stored, and it leaves events.

* **Store.** `store`, `find?` and `remove` act on one serial; a new snapshot replaces the old one.
* **Faults.** A fault of the caller's making is told with status 400, or 404 when something is not
  there. Faults of an operation are logged too, those of the request itself are not. Any other fault
  is answered with status 500.
* **Main statements.** `find?_store` and `find?_remove` say what a change of the store does to a
  look-up.
-/

namespace UiTree

/-- The state of the service. -/
structure Service where
  settings : Settings
  stored : List (Text × Snapshot)
  nextVersion : Nat

namespace Service

/-- A service that stores nothing yet. -/
def start (settings : Settings) : Service := ⟨settings, [], 1⟩

/-! ## The store -/

/-- The snapshot of a serial. -/
def find? (s : Service) (serial : Text) : Option Snapshot := s.stored.lookup serial

/-- The service without the snapshot of a serial. -/
def remove (s : Service) (serial : Text) : Service :=
  { s with stored := s.stored.filter fun e => e.1 != serial }

/-- The service with a new snapshot for a serial. -/
def store (s : Service) (serial : Text) (snapshot : Snapshot) : Service :=
  { s.remove serial with
    stored := (serial, snapshot) :: (s.remove serial).stored, nextVersion := snapshot.version + 1 }

theorem lookup_filter_ne {α : Type} (serial other : Text) (entries : List (Text × α)) :
    (entries.filter fun e => e.1 != serial).lookup other =
      if other = serial then none else entries.lookup other := by
  induction entries with
  | nil => simp
  | cons e entries ih =>
    obtain ⟨k, x⟩ := e
    by_cases hk : k = serial
    · subst hk
      simp only [List.filter_cons, bne_self_eq_false, Bool.false_eq_true, if_false, ih,
        List.lookup_cons]
      by_cases ho : other = k
      · simp [ho]
      · simp [ho, beq_false_of_ne ho]
    · simp only [List.filter_cons, bne_iff_ne, ne_eq, hk, not_false_eq_true, if_true,
        List.lookup_cons, ih]
      by_cases ho : other = k
      · subst ho
        simp [hk]
      · simp [beq_false_of_ne ho]

theorem find?_remove (s : Service) (serial other : Text) :
    (s.remove serial).find? other = if other = serial then none else s.find? other :=
  lookup_filter_ne serial other s.stored

theorem find?_store (s : Service) (serial other : Text) (snapshot : Snapshot) :
    (s.store serial snapshot).find? other =
      if other = serial then some snapshot else s.find? other := by
  by_cases h : other = serial
  · subst h
    simp [find?, store]
  · simp only [find?, store, List.lookup_cons, beq_false_of_ne h, h, if_false]
    simpa [find?, h] using find?_remove s serial other

/-! ## Faults -/

/-- The status of a fault that is told to the caller. -/
def status? : Fault → Option Nat
  | .notFound .. | .noSnapshot _ | .nothingToRemove _ => some 404
  | .malformed .. | .unsupported .. | .dump _ | .notDescendant _ | .notOneQuery
  | .selectorOptions => some 400
  | _ => none

/-- Is a fault that is told to the caller logged too? -/
def isLogged : Fault → Bool
  | .noSnapshot _ | .nothingToRemove _ | .notOneQuery | .selectorOptions => false
  | _ => true

/-- The events and the response of an operation; `event` is how a fault of it is logged. -/
def answer (event : Fault → Event) (r : Report Response) : List Event × Response :=
  match r.result with
  | .ok response => (r.events, response)
  | .error why =>
    match status? why with
    | some status =>
      (r.events ++ (if isLogged why then [event why] else []),
        Response.detail status (.text why.message))
    | none => (r.events, Response.crash why)

/-- A complaint about a body as it is told to the caller. -/
def complaintDatum (c : Complaint) : Datum :=
  let place : List Datum := c.place.map fun s =>
    match s with
    | .field name => .text name
    | .item i => .int i
  .record [("type".toList, .text c.kind.name),
    ("loc".toList, .list (.text "body".toList :: place))]

/-- The response to a body that is refused. Complaints repeat what was found, and what is no JSON
cannot be repeated. -/
def refuseBody : BodyFault → Response
  | .unreadable => Response.detail 400 (.text "There was an error parsing the body".toList)
  | .invalid complaints =>
    if complaints.all fun c => c.found.isFinite then
      Response.detail 422 (.list (complaints.map complaintDatum))
    else Response.crash .notFinite

/-! ## Nodes in responses -/

/-- A node with the rectangle that is shown for it. -/
structure Found where
  node : Node
  bounds : Option Bounds

/-- A node with its rectangle. -/
def Found.ofNode (n : Node) : Except Fault Found := n.bounds?.map (Found.mk n)

/-- A rectangle as JSON; its integers must be short enough to be written. -/
def boundsDatum (b : Bounds) : Except Fault Datum := do
  let _ ← [b.x, b.y, b.w, b.h].mapM shownInteger
  return .record [("x".toList, .int b.x), ("y".toList, .int b.y), ("w".toList, .int b.w),
    ("h".toList, .int b.h)]

/-- A found node as JSON. -/
def Found.datum (f : Found) : Except Fault Datum := do
  let bounds ← match f.bounds with
    | some b => boundsDatum b
    | none => .ok .null
  return .record [("tag".toList, .text f.node.name),
    ("attributes".toList, .record (f.node.attributes.map fun a => (a.1, .text a.2))),
    ("bounds_computed".toList, bounds),
    ("node_path".toList, .list (f.node.path.address.map .int))]

/-- The fields that show what was found. -/
def foundFields (found : List Found) : Except Fault (List (Text × Datum)) := do
  let shown ← found.mapM Found.datum
  return [("count".toList, .int found.length), ("matches".toList, .list shown)]

/-- A record that reports success, with further fields. -/
def success (fields : List (Text × Datum)) : Response :=
  Response.json 200 (.record (("success".toList, .bool true) :: fields))

/-! ## Operations -/

/-- Tells what the service is. -/
def about : Response :=
  Response.json 200 (.record [("name".toList, .text "Android UI Query API".toList),
    ("version".toList, .text "1.0.0".toList), ("status".toList, .text "running".toList)])

/-- Indexes a dump and stores it. -/
def upload (s : Service) (serial : Text) (u : Upload) : Service × List Event × Response :=
  let r := Snapshot.build s.nextVersion (some u.xml)
  let next := match r.result with
    | .ok snapshot => s.store serial snapshot
    | .error _ => s
  (next, answer (.indexingFailed serial) do
    let snapshot ← r
    Report.tell (.stored snapshot.version serial snapshot.size)
    return success [("snapshot_id".toList, .text snapshot.identifier),
      ("version".toList, .int snapshot.version), ("total_nodes".toList, .int snapshot.size)])

/-- The stored snapshot of a serial. -/
def current (s : Service) (serial : Text) : Report Snapshot :=
  match s.find? serial with
  | some snapshot => pure snapshot
  | none => Report.fail (.noSnapshot serial)

/-- The first run of characters of a text that do not fit into a header, by its two ends. -/
def unfitRun? (t : Text) : Option (Nat × Nat) :=
  let fits : Char → Bool := fun c => c.toNat < 0x100
  let (before, rest) := Text.cutWhile fits t
  let run := rest.takeWhile fun c => !fits c
  if run.isEmpty then none else some (before.length, before.length + run.length - 1)

/-- Gives the text of the stored dump of a serial. -/
def source (s : Service) (serial : Text) : Report Response := do
  let snapshot ← s.current serial
  let disposition := "attachment; filename=\"hierarchy-".toList ++ serial ++ ".xml\"".toList
  match unfitRun? disposition with
  | some (first, last) => Report.fail (.unencodable disposition first last)
  | none =>
    return ⟨200, [Response.contentType "application/xml",
      ("content-disposition".toList, disposition)], .text snapshot.source, none⟩

/-- Compiles a selector. -/
def compile (s : Service) (c : Compilation) : Report Response := do
  let sel ← Selector.read s.settings.strictKeys c.selector
  let sel ← Report.of (sel.pick (c.matchIndex.elim .null .int))
  let q ← sel.compile (if c.relative then Scope.descendantsOf [] else Scope.document)
  return success [("xpath".toList, .text q.path), ("absolute".toList, .bool q.absolute)]

/-- The query of a request: either a selector, or a path expression without any options. -/
def queryOf (s : Service) (selector path : Option Text) (route : Route) (matchIndex : Option Int) :
    Report Query :=
  match selector, path with
  | none, some p =>
    if route = .outline ∨ matchIndex.isSome then Report.fail .selectorOptions else pure (.path p)
  | some t, none => do
    let sel ← Selector.read s.settings.strictKeys t
    let sel ← Report.of (sel.pick (matchIndex.elim .null .int))
    return .selector sel
  | _, _ => Report.fail .notOneQuery

/-- The nodes of a snapshot that a query finds: all, or the first, which there must be. -/
def findSome (snapshot : Snapshot) : Amount → Route → Query → Report (List Node)
  | .all, route, q => snapshot.findAll route q Scope.document
  | .one, route, q => do
    let node ← snapshot.findOne route q Scope.document
    return [node]

/-- Answers a query. -/
def query (s : Service) (q : Question) : Report Response := do
  let snapshot ← s.current q.serial
  let asked ← s.queryOf q.selector q.path q.route q.matchIndex
  let nodes ← findSome snapshot q.amount q.route asked
  -- the answer is logged before it is known whether it can be written
  Report.tell (.answered q.serial snapshot.version nodes.length)
  let found ← Report.of (nodes.mapM Found.ofNode)
  let fields ← Report.of (foundFields found)
  return success (("version".toList, .int snapshot.version) :: fields)

/-- Answers a query about the nodes below a node. -/
def children (s : Service) (q : ChildQuestion) : Report Response := do
  let snapshot ← s.current q.serial
  let parent ← Report.of (snapshot.nodeAt q.parent)
  let asked ← s.queryOf q.selector q.path q.route none
  let nodes ← snapshot.findChildren q.route asked parent
  -- all rectangles are read before any of them is written
  let above ← Report.of (Found.ofNode parent)
  let found ← Report.of (nodes.mapM Found.ofNode)
  let shown ← Report.of above.datum
  let fields ← Report.of (foundFields found)
  return success (("version".toList, .int snapshot.version) :: ("parent".toList, shown) :: fields)

/-! ## Requests -/

/-- A response to the typed body of a request, or the refusal of the body. -/
def withBody {α : Type} (s : Service) (c : Check α) (r : Request)
    (f : α → Service × List Event × Response) : Service × List Event × Response :=
  match Body.read c r.contentType r.body with
  | .ok a => f a
  | .error why => (s, [], refuseBody why)

/-- What an endpoint does with a request. -/
def perform (s : Service) (r : Request) : Endpoint → Service × List Event × Response
  | .about => (s, [], about)
  | .upload serial => s.withBody Check.upload r fun u => s.upload serial u
  | .source serial => (s, answer (.queryFailed serial) (s.source serial))
  | .remove serial =>
    if (s.find? serial).isSome then
      (s.remove serial, [], success [("serial".toList, .text serial)])
    else (s, answer (.queryFailed serial) (Report.fail (.nothingToRemove serial)))
  | .compile =>
    s.withBody Check.compilation r fun c => (s, answer (.compilingFailed c.selector) (s.compile c))
  | .query => s.withBody Check.question r fun q => (s, answer (.queryFailed q.serial) (s.query q))
  | .children =>
    s.withBody Check.childQuestion r fun q =>
      (s, answer (.childQueryFailed q.serial) (s.children q))

/-- The response that forwards to another path. -/
def forward (host path : Text) : Response :=
  let address := "http://".toList ++ host ++ path
  ⟨307, [("location".toList, Text.percentEncode Response.isAddressChar address)], .text [], none⟩

/-- Answers a request. -/
def handle (s : Service) (r : Request) : Service × List Event × Response :=
  let (next, events, response) :=
    match Destination.ofRequest r.method (Text.percentDecode r.path) with
    | .endpoint e => s.perform r e
    | .otherMethod allowed =>
      let refusal := Response.detail 405 (.text "Method Not Allowed".toList)
      (s, [], { refusal with headers := refusal.headers ++ [("allow".toList, allowed)] })
    | .forward path => (s, [], forward r.host path)
    | .nowhere => (s, [], Response.detail 404 (.text "Not Found".toList))
  (next, events, response.forOrigin r.origin)

end Service

end UiTree
