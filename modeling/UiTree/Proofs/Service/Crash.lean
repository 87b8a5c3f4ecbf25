import UiTree.Proofs.Service.Resubmitted
import UiTree.Proofs.Service.Shown
import UiTree.Proofs.Service.Unhandled

/-!
# UiTree.Proofs.Service.Crash -- which requests break a handler

A request whose body fits is answered with status 200, 400 or 404. That is the intent, and it holds
but for four oversights: a position that cannot be written, a path expression with a character that
it cannot have, a coordinate that is not read because of its length, and an integer of a rectangle
that is not written because of its length. Nothing handles the fault then, and the status is 500.

* **Requests.** `Request.Fits`: the body is what the endpoint expects. `Service.Breaks`: the request
  meets one of the oversights in the service as it is.
* **Main statement.** `response_of_fits`: a request that fits is answered as intended, or breaks its
  handler, and it does the latter exactly when it meets an oversight.
-/

namespace UiTree

/-- A request with a body that fits its endpoint. -/
inductive Request.Fits (r : Request) : Prop where
  | upload {serial : Text} {u : Upload} (endpoint : r.endpoint? = some (.upload serial))
    (body : Body.read Check.upload r.contentType r.body = .ok u)
  | compile {c : Compilation} (endpoint : r.endpoint? = some .compile)
    (body : Body.read Check.compilation r.contentType r.body = .ok c)
  | query {q : Question} (asks : r.Asks q)
  | children {q : ChildQuestion} (asks : r.AsksBelow q)

namespace Response

theorem raised_forOrigin (origin : Option Text) (r : Response) :
    (r.forOrigin origin).raised = r.raised := by
  unfold forOrigin
  split
  · split <;> rfl
  · rfl

/-- A response as intended to a request whose body fits. -/
structure IsIntended (r : Response) : Prop where
  raised : r.raised = none
  status : r.status = 200 ∨ r.status = 400 ∨ r.status = 404

/-- A response to a fault that nothing handles. -/
structure IsCrash (r : Response) (e : Fault) : Prop where
  raised : r.raised = some e
  status : r.status = 500

theorem IsIntended.forOrigin {r : Response} (h : r.IsIntended) (origin : Option Text) :
    (r.forOrigin origin).IsIntended := by
  refine ⟨?_, ?_⟩
  · rw [raised_forOrigin]
    exact h.raised
  · rw [status_forOrigin]
    exact h.status

theorem IsCrash.forOrigin {r : Response} {e : Fault} (h : r.IsCrash e) (origin : Option Text) :
    (r.forOrigin origin).IsCrash e := by
  refine ⟨?_, ?_⟩
  · rw [raised_forOrigin]
    exact h.raised
  · rw [status_forOrigin]
    exact h.status

end Response

namespace Service

variable {s : Service} {r : Request} {e : Fault}

/-! ## Operations -/

/-- A compilation that breaks its handler: the position cannot be written. -/
inductive CompileBreaks (s : Service) (c : Compilation) : Fault → Prop where
  | position {sel : Selector} (read : (s.selectorOf c.selector c.matchIndex).result = .ok sel)
    (long : sel.IsLong) : CompileBreaks s c .longText

/-- A query that breaks its handler: it cannot be written as a path expression, or it finds a node
that cannot be shown. -/
inductive QueryBreaks (s : Service) (q : Question) : Fault → Prop where
  | unwritable {n : Snapshot} {asked : Query} {e : Fault} (stored : s.find? q.serial = some n)
    (read : (s.queryOf q.selector q.path q.route q.matchIndex).result = .ok asked)
    (own : q.route = .path) (broken : asked.Unwritable Scope.document e) : QueryBreaks s q e
  | unshowable {n : Snapshot} {asked : Query} {nodes : List Node} {node : Node} {e : Fault}
    (stored : s.find? q.serial = some n)
    (read : (s.queryOf q.selector q.path q.route q.matchIndex).result = .ok asked)
    (found : (findSome n q.amount q.route asked).result = .ok nodes) (mem : node ∈ nodes)
    (broken : node.Unshowable e) : QueryBreaks s q e

/-- A query below a node that breaks its handler: it cannot be written, or the node above or one
that it finds cannot be shown. -/
inductive ChildrenBreaks (s : Service) (q : ChildQuestion) : Fault → Prop where
  | unwritable {n : Snapshot} {parent : Node} {asked : Query} {e : Fault}
    (stored : s.find? q.serial = some n) (above : n.nodeAt q.parent = .ok parent)
    (read : (s.queryOf q.selector q.path q.route none).result = .ok asked) (own : q.route = .path)
    (broken : asked.Unwritable (Scope.descendantsOf parent.path.address) e) : ChildrenBreaks s q e
  | unshowable {n : Snapshot} {parent : Node} {asked : Query} {nodes : List Node} {node : Node}
    {e : Fault} (stored : s.find? q.serial = some n) (above : n.nodeAt q.parent = .ok parent)
    (read : (s.queryOf q.selector q.path q.route none).result = .ok asked)
    (found : (n.findChildren q.route asked parent).result = .ok nodes)
    (mem : node = parent ∨ node ∈ nodes) (broken : node.Unshowable e) : ChildrenBreaks s q e

theorem not_raises_selectorOf (t : Text) (matchIndex : Option Int) :
    ¬ (s.selectorOf t matchIndex).Raises e := by
  rw [selectorOf, Report.raises_bind_of_quiet (Selector.not_raises_read _ _)]
  rintro ⟨sel, -, h⟩
  exact Selector.not_raises_pick _ _ h

/-- A selector that was read has predicates. -/
theorem predicates_of_selectorOf {t : Text} {matchIndex : Option Int} {sel : Selector}
    (h : (s.selectorOf t matchIndex).result = .ok sel) : sel.predicates ≠ [] := by
  obtain ⟨read, hread, hpick⟩ := Report.result_bind_eq_ok_iff.mp h
  obtain ⟨hne, hline⟩ := Selector.isLine_of_read hread
  obtain ⟨-, -, hpredicates, -⟩ := (Selector.read_eq_ok_iff hne hline).mp hread
  rw [Selector.predicates_pick hpick]
  exact hpredicates

/-- A compilation reads a selector and compiles it. -/
theorem result_compile (c : Compilation) :
    (s.compile c).result = (do
      let sel ← s.selectorOf c.selector c.matchIndex
      let q ← sel.compile (if c.relative then Scope.descendantsOf [] else Scope.document)
      return success [("xpath".toList, .text q.path),
        ("absolute".toList, .bool q.absolute)]).result := by
  simp only [compile, selectorOf, Report.result_bind, bind_assoc]

/-- **Compilations** raise a fault exactly when the position cannot be written. -/
theorem raises_compile_iff {c : Compilation} : (s.compile c).Raises e ↔ s.CompileBreaks c e := by
  rw [Report.raises_congr (result_compile c), Report.raises_bind_iff]
  constructor
  · rintro (h | ⟨sel, hsel, h⟩)
    · exact absurd h (not_raises_selectorOf _ _)
    · rw [Report.raises_bind_iff] at h
      rcases h with h | ⟨q, -, h⟩
      · obtain ⟨-, hlong, rfl⟩ := Selector.raises_compile_iff.mp h
        exact .position hsel hlong
      · exact absurd h (Report.not_raises_pure _)
  · rintro ⟨hsel, hlong⟩
    refine Or.inr ⟨_, hsel, Report.raises_bind_iff.mpr (Or.inl ?_)⟩
    exact Selector.raises_compile_iff.mpr ⟨predicates_of_selectorOf hsel, hlong, rfl⟩

theorem isAsked_of_queryOf {selector path : Option Text} {route : Route} {matchIndex : Option Int}
    {asked : Query} (h : (s.queryOf selector path route matchIndex).result = .ok asked) :
    asked.IsAsked route := by
  unfold queryOf at h
  split at h
  · split at h
    · cases h
    · next t hplain =>
      cases h
      rw [not_or, Bool.not_eq_true] at hplain
      cases route with
      | path => exact .path t rfl
      | outline => exact absurd rfl hplain.1
  · obtain ⟨read, -, h⟩ := Report.result_bind_eq_ok_iff.mp h
    obtain ⟨sel, -, h⟩ := Report.result_bind_eq_ok_iff.mp h
    cases h
    exact .selector sel
  · cases h

theorem not_raises_queryOf {selector path : Option Text} {route : Route}
    {matchIndex : Option Int} : ¬ (s.queryOf selector path route matchIndex).Raises e := by
  unfold queryOf
  split
  · split
    · exact Report.not_raises_fail rfl
    · exact Report.not_raises_pure _
  · rw [Report.raises_bind_of_quiet (Selector.not_raises_read _ _)]
    rintro ⟨read, -, h⟩
    rw [Report.raises_bind_of_quiet (Selector.not_raises_pick _ _)] at h
    obtain ⟨sel, -, h⟩ := h
    exact Report.not_raises_pure _ h
  · exact Report.not_raises_fail rfl

theorem raises_findSome_iff {n : Snapshot} {amount : Amount} {route : Route} {asked : Query}
    (h : asked.IsAsked route) :
    (findSome n amount route asked).Raises e ↔
      route = .path ∧ asked.Unwritable Scope.document e := by
  have horigin : n.contextPath Scope.document.context = .ok [] := rfl
  cases amount with
  | all => exact Snapshot.raises_findAll_iff h horigin
  | one =>
      rw [findSome, Report.raises_bind_iff, Snapshot.raises_findOne_iff h horigin]
      refine or_iff_left ?_
      rintro ⟨node, -, hpure⟩
      exact Report.not_raises_pure _ hpure

theorem current_eq_ok_iff {serial : Text} {n : Snapshot} :
    (s.current serial).result = .ok n ↔ s.find? serial = some n := by
  unfold current
  cases s.find? serial with
  | none => exact iff_of_false nofun nofun
  | some m =>
      constructor
      · exact fun h => congrArg some (Except.ok.inj h)
      · exact fun h => congrArg Except.ok (Option.some.inj h)

theorem not_raises_current (serial : Text) : ¬ (s.current serial).Raises e := by
  unfold current
  split
  · exact Report.not_raises_pure _
  · exact Report.not_raises_fail rfl

theorem not_raises_nodeAt {n : Snapshot} {a : Address} : ¬ (Report.of (n.nodeAt a)).Raises e := by
  rintro ⟨he, hnone⟩
  rw [Report.result_of, Snapshot.nodeAt] at he
  split at he
  · cases he
  · cases he
    cases hnone

/-- What a query raises comes from the query, or from a node that it finds. -/
theorem queryBreaks_of_raises {q : Question} (h : (s.query q).Raises e) : s.QueryBreaks q e := by
  rw [query, Report.raises_bind_of_quiet (not_raises_current _)] at h
  obtain ⟨n, hn, h⟩ := h
  have hstored := current_eq_ok_iff.mp hn
  rw [Report.raises_bind_of_quiet not_raises_queryOf] at h
  obtain ⟨asked, hasked, h⟩ := h
  rw [Report.raises_bind_iff] at h
  rcases h with h | ⟨nodes, hnodes, h⟩
  · obtain ⟨own, broken⟩ := (raises_findSome_iff (isAsked_of_queryOf hasked)).mp h
    exact .unwritable hstored hasked own broken
  -- from here on the nodes are known, and have to be shown
  rw [Report.raises_bind_of_ok rfl, Report.raises_bind_iff] at h
  rcases h with h | ⟨found, hfound, h⟩
  · obtain ⟨node, hmem, broken⟩ := exists_unshowable_of_mapM h.1
    exact .unshowable hstored hasked hnodes hmem broken
  rw [Report.raises_bind_iff] at h
  rcases h with h | ⟨fields, -, h⟩
  · obtain ⟨node, hmem, broken⟩ := exists_unshowable_of_foundFields hfound h.1
    exact .unshowable hstored hasked hnodes hmem broken
  · exact absurd h (Report.not_raises_pure _)

/-- The nodes of a query are known: what is left is to show them. -/
theorem result_query_of_found {q : Question} {n : Snapshot} {asked : Query} {nodes : List Node}
    (hstored : s.find? q.serial = some n)
    (hasked : (s.queryOf q.selector q.path q.route q.matchIndex).result = .ok asked)
    (hnodes : (findSome n q.amount q.route asked).result = .ok nodes) :
    (s.query q).result = (do
      let found ← Report.of (nodes.mapM Found.ofNode)
      let fields ← Report.of (foundFields found)
      return success (("version".toList, .int n.version) :: fields)).result := by
  rw [query, Report.result_bind_of_ok (current_eq_ok_iff.mpr hstored),
    Report.result_bind_of_ok hasked, Report.result_bind_of_ok hnodes, Report.result_bind_of_ok rfl]

/-- A query that breaks its handler raises a fault. With several nodes that cannot be shown, this is
the fault of one of them. -/
theorem exists_raises_of_queryBreaks {q : Question} (h : s.QueryBreaks q e) :
    ∃ e', (s.query q).Raises e' := by
  cases h with
  | unwritable stored read own broken =>
      refine ⟨e, ?_⟩
      rw [query, Report.raises_bind_of_ok (current_eq_ok_iff.mpr stored),
        Report.raises_bind_of_ok read, Report.raises_bind_iff]
      exact Or.inl ((raises_findSome_iff (isAsked_of_queryOf read)).mpr ⟨own, broken⟩)
  | @unshowable n asked nodes node _ stored read found mem broken =>
      simp only [Report.raises_congr (result_query_of_found stored read found)]
      refine Report.exists_raises_bind (fun _ => status?_of_mapM) fun shown hfound => ?_
      refine Report.exists_raises_bind (fun _ => status?_of_foundFields hfound) fun _ hfields => ?_
      exact absurd broken (not_unshowable_of_foundFields hfound hfields mem)

/-- What a query below a node raises comes from the query, from the node above, or from a node that
it finds. -/
theorem childrenBreaks_of_raises {q : ChildQuestion} (h : (s.children q).Raises e) :
    s.ChildrenBreaks q e := by
  rw [children, Report.raises_bind_of_quiet (not_raises_current _)] at h
  obtain ⟨n, hn, h⟩ := h
  have hstored := current_eq_ok_iff.mp hn
  rw [Report.raises_bind_of_quiet not_raises_nodeAt] at h
  obtain ⟨parent, hparent, h⟩ := h
  rw [Report.raises_bind_of_quiet not_raises_queryOf] at h
  obtain ⟨asked, hasked, h⟩ := h
  rw [Report.raises_bind_iff] at h
  rcases h with h | ⟨nodes, hnodes, h⟩
  · obtain ⟨own, broken⟩ := (Snapshot.raises_findChildren_iff (isAsked_of_queryOf hasked)
      (Snapshot.snapshot_of_nodeAt hparent)).mp h
    exact .unwritable hstored hparent hasked own broken
  rw [Report.raises_bind_iff] at h
  rcases h with h | ⟨above, habove, h⟩
  · exact .unshowable hstored hparent hasked hnodes (Or.inl rfl) (unshowable_of_ofNode h.1)
  rw [Report.raises_bind_iff] at h
  rcases h with h | ⟨found, hfound, h⟩
  · obtain ⟨node, hmem, broken⟩ := exists_unshowable_of_mapM h.1
    exact .unshowable hstored hparent hasked hnodes (Or.inr hmem) broken
  rw [Report.raises_bind_iff] at h
  rcases h with h | ⟨shown, -, h⟩
  · exact .unshowable hstored hparent hasked hnodes (Or.inl rfl) (unshowable_of_datum habove h.1)
  rw [Report.raises_bind_iff] at h
  rcases h with h | ⟨fields, -, h⟩
  · obtain ⟨node, hmem, broken⟩ := exists_unshowable_of_foundFields hfound h.1
    exact .unshowable hstored hparent hasked hnodes (Or.inr hmem) broken
  · exact absurd h (Report.not_raises_pure _)

theorem result_children_of_found {q : ChildQuestion} {n : Snapshot} {parent : Node} {asked : Query}
    {nodes : List Node} (hstored : s.find? q.serial = some n)
    (hparent : n.nodeAt q.parent = .ok parent)
    (hasked : (s.queryOf q.selector q.path q.route none).result = .ok asked)
    (hnodes : (n.findChildren q.route asked parent).result = .ok nodes) :
    (s.children q).result = (do
      let above ← Report.of (Found.ofNode parent)
      let found ← Report.of (nodes.mapM Found.ofNode)
      let shown ← Report.of above.datum
      let fields ← Report.of (foundFields found)
      return success (("version".toList, .int n.version) :: ("parent".toList, shown) ::
        fields)).result := by
  rw [children, Report.result_bind_of_ok (current_eq_ok_iff.mpr hstored),
    Report.result_bind_of_ok hparent, Report.result_bind_of_ok hasked,
    Report.result_bind_of_ok hnodes]

theorem exists_raises_of_childrenBreaks {q : ChildQuestion} (h : s.ChildrenBreaks q e) :
    ∃ e', (s.children q).Raises e' := by
  cases h with
  | unwritable stored above read own broken =>
      refine ⟨e, ?_⟩
      rw [children, Report.raises_bind_of_ok (current_eq_ok_iff.mpr stored),
        Report.raises_bind_of_ok above, Report.raises_bind_of_ok read, Report.raises_bind_iff]
      exact Or.inl ((Snapshot.raises_findChildren_iff (isAsked_of_queryOf read)
        (Snapshot.snapshot_of_nodeAt above)).mpr ⟨own, broken⟩)
  | @unshowable n parent asked nodes node _ stored above read found mem broken =>
      simp only [Report.raises_congr (result_children_of_found stored above read found)]
      refine Report.exists_raises_bind ?_ fun shownParent hparent => ?_
      · exact fun _ h => status?_of_unshowable (unshowable_of_ofNode h)
      refine Report.exists_raises_bind (fun _ => status?_of_mapM) fun shown hfound => ?_
      refine Report.exists_raises_bind ?_ fun _ hdatum => ?_
      · exact fun _ h => status?_of_unshowable (unshowable_of_datum hparent h)
      refine Report.exists_raises_bind (fun _ => status?_of_foundFields hfound) fun _ hfields => ?_
      rcases mem with rfl | hmem
      · exact absurd broken (not_unshowable_of_datum hparent hdatum)
      · exact absurd broken (not_unshowable_of_foundFields hfound hfields hmem)

/-! ## Responses -/

/-- **A request that breaks its handler**, and a fault that this raises. -/
inductive Breaks (s : Service) (r : Request) : Fault → Prop where
  | compile {c : Compilation} {e : Fault} (endpoint : r.endpoint? = some .compile)
    (body : Body.read Check.compilation r.contentType r.body = .ok c)
    (broken : s.CompileBreaks c e) : Breaks s r e
  | query {q : Question} {e : Fault} (asks : r.Asks q) (broken : s.QueryBreaks q e) : Breaks s r e
  | children {q : ChildQuestion} {e : Fault} (asks : r.AsksBelow q)
    (broken : s.ChildrenBreaks q e) : Breaks s r e

theorem breaks_iff_of_compile {c : Compilation} (endpoint : r.endpoint? = some .compile)
    (body : Body.read Check.compilation r.contentType r.body = .ok c) :
    s.Breaks r e ↔ s.CompileBreaks c e := by
  constructor
  · intro h
    cases h with
    | compile _ same broken =>
        cases body.symm.trans same
        exact broken
    | query asks => cases endpoint.symm.trans asks.endpoint
    | children asks => cases endpoint.symm.trans asks.endpoint
  · exact .compile endpoint body

theorem breaks_iff_of_asks {q : Question} (asks : r.Asks q) :
    s.Breaks r e ↔ s.QueryBreaks q e := by
  constructor
  · intro h
    cases h with
    | compile endpoint => cases endpoint.symm.trans asks.endpoint
    | query same broken =>
        cases asks.body.symm.trans same.body
        exact broken
    | children other => cases other.endpoint.symm.trans asks.endpoint
  · exact .query asks

theorem breaks_iff_of_asksBelow {q : ChildQuestion} (asks : r.AsksBelow q) :
    s.Breaks r e ↔ s.ChildrenBreaks q e := by
  constructor
  · intro h
    cases h with
    | compile endpoint => cases endpoint.symm.trans asks.endpoint
    | query other => cases other.endpoint.symm.trans asks.endpoint
    | children same broken =>
        cases asks.body.symm.trans same.body
        exact broken
  · exact .children asks

/-- An upload never breaks its handler. -/
theorem not_breaks_of_upload {serial : Text} (endpoint : r.endpoint? = some (.upload serial)) :
    ¬ s.Breaks r e := by
  intro h
  cases h with
  | compile other => cases endpoint.symm.trans other
  | query asks => cases endpoint.symm.trans asks.endpoint
  | children asks => cases endpoint.symm.trans asks.endpoint

theorem status_of_told {why : Fault} {status : Nat} (h : status? why = some status) :
    status = 400 ∨ status = 404 := by
  cases why <;> simp [status?] at h <;> simp [← h]

/-- The record that an operation succeeds with reports success. -/
def IsSuccess (a : Response) : Prop := ∃ fields, a = success fields

/-- An outcome is answered as intended, unless it is a fault that is raised. -/
theorem reply_cases {o : Report Response}
    (hok : o.Gives IsSuccess) : (reply o.result).IsIntended ∧ (∀ e, ¬ o.Raises e) ∨
      ∃ e, (reply o.result).IsCrash e ∧ o.Raises e := by
  cases h : o.result with
  | ok a =>
      obtain ⟨fields, rfl⟩ := hok a h
      exact Or.inl ⟨⟨rfl, Or.inl rfl⟩, fun e => Report.not_raises_of_ok h⟩
  | error why =>
      rw [reply, refusal]
      cases hstatus : status? why with
      | some status =>
          refine Or.inl ⟨⟨rfl, Or.inr (status_of_told hstatus)⟩, ?_⟩
          rintro e ⟨he, hnone⟩
          rw [h] at he
          cases he
          rw [hstatus] at hnone
          cases hnone
      | none => exact Or.inr ⟨why, ⟨rfl, rfl⟩, h, hstatus⟩

theorem gives_compile (s : Service) (c : Compilation) : (s.compile c).Gives IsSuccess := by
  refine Report.gives_bind fun read => ?_
  refine Report.gives_bind fun sel => ?_
  refine Report.gives_bind fun q => ?_
  exact Report.gives_pure ⟨_, rfl⟩

theorem gives_query (s : Service) (q : Question) : (s.query q).Gives IsSuccess := by
  refine Report.gives_bind fun n => ?_
  refine Report.gives_bind fun asked => ?_
  refine Report.gives_bind fun nodes => ?_
  refine Report.gives_bind fun told => ?_
  refine Report.gives_bind fun found => ?_
  refine Report.gives_bind fun fields => ?_
  exact Report.gives_pure ⟨_, rfl⟩

theorem gives_children (s : Service) (q : ChildQuestion) : (s.children q).Gives IsSuccess := by
  refine Report.gives_bind fun n => ?_
  refine Report.gives_bind fun parent => ?_
  refine Report.gives_bind fun asked => ?_
  refine Report.gives_bind fun nodes => ?_
  refine Report.gives_bind fun above => ?_
  refine Report.gives_bind fun found => ?_
  refine Report.gives_bind fun shown => ?_
  refine Report.gives_bind fun fields => ?_
  exact Report.gives_pure ⟨_, rfl⟩

/-- An upload is stored, or its dump is refused with status 400. -/
theorem isIntended_of_upload {serial : Text} {u : Upload}
    (endpoint : r.endpoint? = some (.upload serial))
    (body : Body.read Check.upload r.contentType r.body = .ok u) (s : Service) :
    (s.response r).IsIntended := by
  rw [(handle_of_endpoint endpoint s).2, perform, withBody, body]
  apply Response.IsIntended.forOrigin
  cases hbuild : (Snapshot.build s.nextVersion (some u.xml)).result with
  | ok n =>
      rw [(upload_of_ok serial hbuild).2]
      exact ⟨rfl, Or.inl rfl⟩
  | error why =>
      obtain ⟨why, rfl⟩ := Snapshot.exists_dump_of_build hbuild
      rw [(upload_of_error serial hbuild).2]
      exact ⟨rfl, Or.inr (Or.inl rfl)⟩

/-- A request is answered as its operation turns out. -/
theorem response_of_operation {o : Report Response}
    (hresponse : s.response r = (reply o.result).forOrigin r.origin)
    (hok : o.Gives IsSuccess) (hraises : ∀ e, o.Raises e → s.Breaks r e)
    (hbreaks : ∀ e, s.Breaks r e → ∃ e', o.Raises e') :
    (s.response r).IsIntended ∧ (∀ e, ¬ s.Breaks r e) ∨
      ∃ e, (s.response r).IsCrash e ∧ s.Breaks r e := by
  rw [hresponse]
  rcases reply_cases hok with ⟨hintended, hquiet⟩ | ⟨e, hcrash, he⟩
  · refine Or.inl ⟨hintended.forOrigin _, ?_⟩
    intro e he
    obtain ⟨e', he'⟩ := hbreaks e he
    exact hquiet e' he'
  · exact Or.inr ⟨e, hcrash.forOrigin _, hraises e he⟩

/-- **A request whose body fits is answered as intended, or breaks its handler.** This holds of any
service, whatever it stores. The status is 500 exactly when the request breaks its handler. -/
theorem response_of_fits (s : Service) {r : Request} (h : r.Fits) :
    (s.response r).IsIntended ∧ (∀ e, ¬ s.Breaks r e) ∨
      ∃ e, (s.response r).IsCrash e ∧ s.Breaks r e := by
  cases h with
  | upload endpoint body =>
      exact Or.inl ⟨isIntended_of_upload endpoint body s, fun e => not_breaks_of_upload endpoint⟩
  | compile endpoint body =>
      refine response_of_operation (response_of_compilation endpoint body s)
        (gives_compile s _) ?_ ?_
      · intro e he
        exact (breaks_iff_of_compile endpoint body).mpr (raises_compile_iff.mp he)
      · intro e he
        exact ⟨e, raises_compile_iff.mpr ((breaks_iff_of_compile endpoint body).mp he)⟩
  | query asks =>
      refine response_of_operation (response_of_asks asks s) (gives_query s _) ?_ ?_
      · intro e he
        exact (breaks_iff_of_asks asks).mpr (queryBreaks_of_raises he)
      · intro e he
        exact exists_raises_of_queryBreaks ((breaks_iff_of_asks asks).mp he)
  | children asks =>
      refine response_of_operation (response_of_asksBelow asks s) (gives_children s _) ?_ ?_
      · intro e he
        exact (breaks_iff_of_asksBelow asks).mpr (childrenBreaks_of_raises he)
      · intro e he
        exact exists_raises_of_childrenBreaks ((breaks_iff_of_asksBelow asks).mp he)

/-- The compilation of a selector with a quote in it is answered as intended. -/
theorem response_of_fits_quoted :
    compileQuoted.Fits ∧ ((start plainSettings).response compileQuoted).IsIntended ∧
      ∀ e, ¬ (start plainSettings).Breaks compileQuoted e := by
  have hfits : compileQuoted.Fits :=
    .compile (c := quotedCompilation) (by decide +kernel) (eq_ok_of_toOption (by decide +kernel))
  have hstatus : ((start plainSettings).response compileQuoted).status = 200 := by
    decide +kernel
  refine ⟨hfits, ?_⟩
  rcases response_of_fits (start plainSettings) hfits with h | ⟨e, hcrash, -⟩
  · exact h
  · rw [hcrash.status] at hstatus
    cases hstatus

/-- A request for the nodes that show a text which is legal, and which no path expression can
have. -/
def askUncarried : Request :=
  plainRequest "POST" "/api/query" "\x7b\"serial\":\"a\",\"selector\":\"[text=\ufffe]\"\x7d"

/-- **A request that is not answered as intended**: its body fits, and the status is 500. -/
theorem response_uncarried :
    askUncarried.Asks ⟨['a'], some "[text=\ufffe]".toList, none, none, .all, .path⟩ ∧
      (((start plainSettings).run
        [plainRequest "PUT" "/api/snapshots/a" "\x7b\"xml\":\"<h/>\"\x7d"]).response
          askUncarried).status = 500 :=
  ⟨⟨by decide +kernel, eq_ok_of_toOption (by decide +kernel)⟩, by decide +kernel⟩

end Service

end UiTree
