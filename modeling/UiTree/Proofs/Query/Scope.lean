import UiTree.Proofs.Lookup
import UiTree.Proofs.Query.Routes
import UiTree.Proofs.XPath.Ordered

/-!
# UiTree.Proofs.Query.Scope -- queries keep to their scope

Whatever a query is, what it finds are nodes of the snapshot in document order, each of them once,
and inside a scope they are proper descendants of its node. A path expression can climb anywhere: it
is refused before it is run when it starts at the document, and after it when something that it
found lies outside. The outline is only ever searched below the node.

* **Invariant.** `Snapshot.KeepsTo` is what holds of the paths that either route gives.
* **Main statement.** `Snapshot.findAll_scoped`: what queries find in a scope, which of them are
  refused there, and what this means for looking below a node.
-/

namespace UiTree

open XPath

namespace Query

/-- The context that a query brings along, when it was compiled for one. -/
def ownContext : Query → Option Address
  | .compiled q => q.context
  | _ => none

/-- Does the query start at the document, wherever it is run? -/
def isAbsolute : Query → Bool
  | .compiled q => q.absolute
  | .path t => !(Text.trim t).isEmpty && !isRelativePath t
  | _ => false

end Query

/-- The context that a query is run in: that of the scope or else, on the path route, its own. -/
def Scope.contextFor (scope : Scope) (q : Query) : Route → Option Address
  | .path => scope.context.or q.ownContext
  | .outline => scope.context

namespace Snapshot

variable {s : Snapshot} {q : Query} {scope : Scope} {context : Option Address} {ps : List Path}

/-- The paths are those of nodes, in document order and each of them once, and if there is a context
it is the address of a node that all of them are below. -/
structure KeepsTo (s : Snapshot) (context : Option Address) (ps : List Path) : Prop where
  ascending : Path.Ascending ps
  present : ∀ p ∈ ps, (s.node? p).isSome = true
  below : ∀ a, context = some a → ∃ m : Node, m.snapshot = s ∧ m.path.address = a ∧
    ∀ p ∈ ps, p.isBelow m.path = true

theorem KeepsTo.sublist {qs : List Path} (h : s.KeepsTo context qs) (hsub : ps.Sublist qs) :
    s.KeepsTo context ps := by
  refine ⟨h.ascending.sublist hsub, fun p hp => h.present p (hsub.subset hp), ?_⟩
  intro a ha
  obtain ⟨m, hm, haddress, hbelow⟩ := h.below a ha
  exact ⟨m, hm, haddress, fun p hp => hbelow p (hsub.subset hp)⟩

/-- A context that is accepted is the address of a node. -/
theorem exists_node_of_contextPath {a : Address} {origin : Path}
    (h : s.contextPath (some a) = .ok origin) :
    ∃ m : Node, m.snapshot = s ∧ m.path = origin ∧ m.path.address = a := by
  unfold contextPath at h
  dsimp only at h
  split at h
  · next n hn =>
    cases h
    obtain ⟨p, hp, hnode⟩ := Option.bind_eq_some_iff.mp hn
    obtain ⟨hsnapshot, rfl, -⟩ := node?_eq_some_iff.mp hnode
    exact ⟨n, hsnapshot, rfl, (ofAddress?_eq_some_iff.mp hp).symm⟩
  · cases h

/-! ## The path route -/

/-- The element at a place is a node. -/
theorem isSome_node?_of_elementPath? (hs : s.IsSound) {a : Place} {p : Path}
    (h : s.site.elementPath? a = some p) : (s.node? p).isSome = true := by
  obtain ⟨t, rfl⟩ := Site.exists_node_of_elementPath? h
  have hindexes := (Site.elementPath?_node hs.single).mp h
  rcases List.eq_nil_or_concat t with rfl | ⟨t, i, rfl⟩
  · cases hindexes
  · rw [List.concat_eq_append] at hindexes
    obtain ⟨o, inner, -, hforest⟩ := forestAt?_elementIndexes hindexes
    have hforest : forestAt? [s.elements] (0 :: p) = some (.node o (Xml.Node.elementTrees inner)) :=
      hs.single ▸ hforest
    obtain ⟨p', hcons, hu⟩ := Site.forestAt?_singleton.mp hforest
    cases hcons
    rw [isSome_node?, hu]
    rfl

/-- What a path expression finds. -/
theorem evaluatePath_eq_ok (hs : s.IsSound) {path : Text}
    (h : (s.evaluatePath path context).result = .ok ps) :
    (∃ origin, s.contextPath context = .ok origin) ∧ Path.Ascending ps ∧
      ∀ p ∈ ps, (s.node? p).isSome = true := by
  obtain ⟨origin, horigin, h⟩ := Report.result_bind_eq_ok_iff.mp h
  refine ⟨⟨origin, horigin⟩, ?_⟩
  split at h
  · cases h
  · split at h
    · cases h
    · next places hvalue =>
      cases h
      obtain ⟨e, -, hvalue⟩ := Option.bind_eq_some_iff.mp hvalue
      obtain ⟨t, -, hvalue⟩ := Option.bind_eq_some_iff.mp hvalue
      have hascending : Path.Ascending (places.filterMap s.site.elementPath?) :=
        ascending_filterMap hs (isOrdered_of_evaluate s.site hvalue)
      rw [hascending.mergeSort]
      refine ⟨hascending, ?_⟩
      intro p hp
      obtain ⟨a, -, ha⟩ := List.mem_filterMap.mp hp
      exact isSome_node?_of_elementPath? hs ha
    · cases h
      exact ⟨List.Pairwise.nil, List.forall_mem_nil _⟩

/-- A selector is compiled for the context of its scope. -/
theorem context_of_compile {sel : Selector} {c : PathQuery}
    (h : (sel.compile scope).result = .ok c) : c.context = scope.context := by
  unfold Selector.compile at h
  split at h
  · cases h
  · obtain ⟨path, -, h⟩ := Report.result_bind_eq_ok_iff.mp h
    obtain ⟨-, -, h⟩ := Report.result_bind_eq_ok_iff.mp h
    cases h
    rfl

/-- A query is compiled for its scope, or brings its own context along. -/
theorem contextFor_of_compileQuery {c : PathQuery} (h : (compileQuery scope q).result = .ok c) :
    scope.context.or c.context = scope.contextFor q .path := by
  have same : c.context = scope.context → scope.context.or c.context = scope.context.or none := by
    intro hcontext
    rw [hcontext]
    cases scope.context <;> rfl
  cases q with
  | selector sel => exact same (context_of_compile h)
  | compiled c' =>
      cases h
      rfl
  | path t =>
      rw [compileQuery] at h
      split at h
      · cases h
      · cases h
        exact same rfl
  | other d => cases h

/-- What is found on the path route has passed the check of its scope. -/
theorem keepsTo_runPath (hs : s.IsSound) (h : (s.runPath q scope).result = .ok ps) :
    s.KeepsTo (scope.contextFor q .path) ps := by
  obtain ⟨c, hc, h⟩ := Report.result_bind_eq_ok_iff.mp h
  rw [contextFor_of_compileQuery hc] at h
  dsimp only at h
  split at h
  · cases h
  · obtain ⟨found, hfound, h⟩ := Report.result_bind_eq_ok_iff.mp h
    obtain ⟨⟨origin, horigin⟩, hascending, hpresent⟩ := evaluatePath_eq_ok hs hfound
    split at h
    · cases h
    · next hinside =>
      cases h
      refine ⟨hascending, hpresent, ?_⟩
      intro a ha
      rw [ha] at horigin hinside
      obtain ⟨m, hm, -, rfl⟩ := exists_node_of_contextPath horigin
      refine ⟨m, hm, rfl, ?_⟩
      rw [Option.any_some, Bool.not_eq_true, Bool.not_eq_false', List.all_eq_true] at hinside
      intro p hp
      rw [← isInside_address]
      exact hinside p hp

/-- **A query that starts at the document is refused in every context**, whatever the document
is. -/
theorem findAll_of_isAbsolute (hq : q.isAbsolute = true)
    (hcontext : (scope.contextFor q .path).isSome = true) (s : Snapshot) :
    (s.findAll .path q scope).result = .error (.notDescendant q.text) := by
  obtain ⟨c, hc, habsolute, hpath⟩ : ∃ c, (compileQuery scope q).result = .ok c ∧
      c.absolute = true ∧ c.path = q.text := by
    cases q with
    | selector sel => cases hq
    | compiled c => exact ⟨c, rfl, hq, rfl⟩
    | path t =>
        obtain ⟨hblank, hrelative⟩ := (Bool.and_eq_true _ _).mp hq
        refine ⟨.ofPath t scope.context, ?_, hrelative, rfl⟩
        rw [compileQuery, (Bool.not_eq_true' _).mp hblank]
        rfl
    | other d => cases hq
  refine Report.result_bind_of_error ?_
  rw [run, runPath, Report.result_bind_of_ok hc]
  dsimp only
  rw [contextFor_of_compileQuery hc, hcontext, habsolute, hpath]
  rfl

/-! ## The outline route -/

/-- The tags that satisfy a condition in a scope. -/
theorem keepsTo_searchTags {admitted : Tag → Bool} (h : s.searchTags admitted context = .ok ps) :
    s.KeepsTo context ps := by
  have hascending : Path.Ascending ((s.tags.walk.filter fun e => admitted e.2).map Prod.fst) :=
    (Tree.ascending_walk s.tags).sublist (List.filter_sublist.map Prod.fst)
  have hpresent : ∀ p ∈ (s.tags.walk.filter fun e => admitted e.2).map Prod.fst,
      (s.node? p).isSome = true := by
    intro p hp
    rw [isSome_node?, ← isSome_at?_tags, ← Tree.mem_map_walk_iff]
    exact (List.filter_sublist.map Prod.fst).subset hp
  cases context with
  | none =>
      cases h
      exact ⟨hascending, hpresent, nofun⟩
  | some a =>
      rw [searchTags] at h
      cases horigin : s.contextPath (some a) with
      | error e =>
          rw [horigin] at h
          cases h
      | ok origin =>
          rw [horigin] at h
          cases h
          obtain ⟨m, hm, rfl, haddress⟩ := exists_node_of_contextPath horigin
          refine ⟨hascending.filter _, fun p hp => hpresent p (List.mem_filter.mp hp).1, ?_⟩
          intro a' ha'
          cases ha'
          exact ⟨m, hm, haddress, fun p hp => (List.mem_filter.mp hp).2⟩

/-- What is found on the outline route was looked for in the scope only. -/
theorem keepsTo_runOutline (h : (s.runOutline q scope).result = .ok ps) :
    s.KeepsTo scope.context ps := by
  cases q with
  | selector sel =>
      unfold runOutline at h
      dsimp only at h
      split at h
      · cases h
      · obtain ⟨found, hfound, h⟩ := Report.result_bind_eq_ok_iff.mp h
        cases h
        rw [Report.result_of] at hfound
        refine (keepsTo_searchTags hfound).sublist ?_
        split
        · exact List.Sublist.refl found
        · exact (List.take_sublist 1 _).trans (List.drop_sublist _ found)
  | _ => cases h

/-! ## Both routes -/

theorem keepsTo_run (hs : s.IsSound) {route : Route}
    (h : (s.run route q scope).result = .ok ps) : s.KeepsTo (scope.contextFor q route) ps := by
  cases route with
  | path => exact keepsTo_runPath hs h
  | outline => exact keepsTo_runOutline h

/-- The nodes at paths that are all there. -/
theorem map_path_filterMap_node? (h : ∀ p ∈ ps, (s.node? p).isSome = true) :
    (ps.filterMap s.node?).map Node.path = ps := by
  induction ps with
  | nil => rfl
  | cons p ps ih =>
      obtain ⟨n, hn⟩ := Option.isSome_iff_exists.mp (h p List.mem_cons_self)
      rw [List.filterMap_cons_some hn, List.map_cons, (node?_eq_some_iff.mp hn).2.1,
        ih fun r hr => h r (List.mem_cons_of_mem p hr)]

/-- Nodes are found for all paths that a route gives, and for no others. -/
theorem run_of_findAll (hs : s.IsSound) {route : Route} {ns : List Node}
    (h : (s.findAll route q scope).result = .ok ns) :
    (s.run route q scope).result = .ok (ns.map Node.path) := by
  obtain ⟨ps, hps, hns⟩ := Report.result_bind_eq_ok_iff.mp h
  cases hns
  rw [map_path_filterMap_node? (keepsTo_run hs hps).present]
  exact hps

end Snapshot

/-! ## Nothing found -/

/-- Does the fault say that something was not found? -/
def Fault.isMissing : Fault → Bool
  | .notFound _ _ => true
  | _ => false

namespace Report

variable {α β : Type}

/-- The outcome is no failure to find something. -/
def NotMissing (r : Report α) : Prop := ∀ e, r.result = .error e → e.isMissing = false

theorem notMissing_pure (a : α) : (pure a : Report α).NotMissing := by
  intro e h
  cases h

theorem notMissing_tell (e : Event) : (tell e).NotMissing := by
  intro e h
  cases h

theorem notMissing_fail {e : Fault} (he : e.isMissing = false) :
    (fail e : Report α).NotMissing := by
  intro e' h
  cases h
  exact he

theorem NotMissing.bind {r : Report α} {f : α → Report β} (hr : r.NotMissing)
    (hf : ∀ a, (f a).NotMissing) : (r >>= f).NotMissing := by
  intro e h
  cases hresult : r.result with
  | error e' =>
      rw [result_bind_of_error hresult] at h
      cases h
      exact hr e hresult
  | ok a =>
      rw [result_bind_of_ok hresult] at h
      exact hf a e h

end Report

namespace Snapshot

variable {s : Snapshot} {q : Query} {scope : Scope}

theorem notMissing_contextPath (context : Option Address) :
    (Report.of (s.contextPath context)).NotMissing := by
  intro e h
  cases context with
  | none => cases h
  | some a =>
      rw [Report.result_of, contextPath] at h
      split at h
      · cases h
      · cases h
        rfl

theorem notMissing_searchTags (admitted : Tag → Bool) (context : Option Address) :
    (Report.of (s.searchTags admitted context)).NotMissing := by
  intro e h
  have horigin := notMissing_contextPath (s := s) context e
  rw [Report.result_of] at h horigin
  rw [searchTags] at h
  cases hpath : s.contextPath context with
  | error e' =>
      rw [hpath] at h horigin
      cases h
      exact horigin rfl
  | ok origin =>
      rw [hpath] at h
      cases h

theorem notMissing_pathText (sel : Selector) : (Report.of (sel.pathText scope)).NotMissing := by
  intro e h
  rw [Report.result_of, Selector.pathText] at h
  split at h
  · cases h
  · rw [shownInteger] at h
    split at h
    · cases h
      rfl
    · cases h

theorem notMissing_compileQuery : (compileQuery scope q).NotMissing := by
  cases q with
  | selector sel =>
      rw [compileQuery, Selector.compile]
      split
      · exact Report.notMissing_fail rfl
      · exact (notMissing_pathText sel).bind fun path =>
          (Report.notMissing_tell _).bind fun _ => Report.notMissing_pure _
  | compiled c => exact Report.notMissing_pure c
  | path t =>
      rw [compileQuery]
      split
      · exact Report.notMissing_fail rfl
      · exact Report.notMissing_pure _
  | other d => exact Report.notMissing_fail rfl

theorem notMissing_evaluatePath (path : Text) (context : Option Address) :
    (s.evaluatePath path context).NotMissing := by
  refine (notMissing_contextPath context).bind fun origin => ?_
  split
  · exact Report.notMissing_fail rfl
  · split
    · exact Report.notMissing_fail rfl
    · exact Report.notMissing_pure _
    · exact (Report.notMissing_tell _).bind fun _ => Report.notMissing_pure _

theorem notMissing_runPath : (s.runPath q scope).NotMissing := by
  refine notMissing_compileQuery.bind fun c => ?_
  dsimp only
  split
  · exact Report.notMissing_fail rfl
  · refine (notMissing_evaluatePath _ _).bind fun found => ?_
    split
    · exact Report.notMissing_fail rfl
    · exact (Report.notMissing_tell _).bind fun _ => Report.notMissing_pure found

theorem notMissing_runOutline : (s.runOutline q scope).NotMissing := by
  cases q with
  | selector sel =>
      rw [runOutline]
      split
      · exact Report.notMissing_fail rfl
      · exact (notMissing_searchTags _ _).bind fun found =>
          (Report.notMissing_tell _).bind fun _ => Report.notMissing_pure _
  | _ => exact Report.notMissing_fail rfl

/-- Finding nothing is no failure. -/
theorem notMissing_findAll (route : Route) : (s.findAll route q scope).NotMissing := by
  refine Report.NotMissing.bind ?_ fun found => Report.notMissing_pure _
  cases route with
  | path => exact notMissing_runPath
  | outline => exact notMissing_runOutline

/-! ## The nodes below a node -/

/-- A query that looks below a node runs in the scope of that node. -/
theorem contextFor_descendantsOf (a : Address) (q : Query) (route : Route) :
    (Scope.descendantsOf a).contextFor q route = some a := by
  cases route <;> rfl

/-- A compiled query that starts at the document finds nothing below a node, on no route. -/
theorem findAll_compiled_absolute (route : Route) (path : Text) (own : Option Address) (a : Address)
    {ns : List Node} :
    (s.findAll route (.compiled ⟨path, true, own⟩) (Scope.descendantsOf a)).result ≠ .ok ns := by
  intro h
  cases route with
  | path =>
      rw [findAll_of_isAbsolute rfl rfl] at h
      cases h
  | outline => cases h

/-- **Nothing below a node**: the failure to find children is the empty outcome of the search. -/
theorem findChildren_eq_notFound_iff {parent : Node} (hparent : parent.snapshot = s) (route : Route)
    (q : Query) :
    (∃ t what, (s.findChildren route q parent).result = .error (.notFound t what)) ↔
      (s.findAll route q (Scope.descendantsOf parent.path.address)).result = .ok [] := by
  have hversion : ¬ parent.snapshot.version ≠ s.version :=
    not_not_intro (congrArg version hparent)
  unfold findChildren
  rw [if_neg hversion]
  split
  · next path own =>
    constructor
    · rintro ⟨t, what, h⟩
      cases h
    · intro h
      exact absurd h (findAll_compiled_absolute route path own _)
  · next hne =>
    constructor
    · rintro ⟨t, what, h⟩
      cases hfound : (s.findAll route q (Scope.descendantsOf parent.path.address)).result with
      | error e =>
          rw [Report.result_bind_of_error hfound] at h
          cases h
          cases notMissing_findAll route _ hfound
      | ok ns =>
          rw [Report.result_bind_of_ok hfound] at h
          cases ns with
          | nil => rfl
          | cons n ns => cases h
    · intro h
      rw [Report.result_bind_of_ok h]
      exact ⟨_, _, rfl⟩

/-- What is found in a context are proper descendants of its node. -/
theorem isDescendantOf_of_findAll (hs : s.IsSound) {route : Route} {ns : List Node} {a : Address}
    (h : (s.findAll route q scope).result = .ok ns) (ha : scope.contextFor q route = some a) :
    ∃ m : Node, m.snapshot = s ∧ m.path.address = a ∧ ∀ n ∈ ns, n.isDescendantOf m = true := by
  obtain ⟨m, hm, haddress, hbelow⟩ := (keepsTo_run hs (run_of_findAll hs h)).below a ha
  refine ⟨m, hm, haddress, ?_⟩
  intro n hn
  rw [Node.isDescendantOf, snapshot_of_mem_findAll h hn, hm, beq_self_eq_true, Bool.true_and]
  exact hbelow n.path (List.mem_map_of_mem hn)

/-- An address is that of one path. -/
theorem address_injective {p r : Path} (h : p.address = r.address) : p = r :=
  Option.some.inj ((ofAddress?_eq_some_iff.mpr rfl).symm.trans (ofAddress?_eq_some_iff.mpr h))

/-- **Queries keep to their scope.** In a snapshot that was built, let any query be run on either
route and in any scope.

If nodes are found, they are exactly those at the paths that the route gave, all of them nodes of
the snapshot, strictly increasing in document order; and if the query is run in a context, this is
the address of a node and they are proper descendants of it. A query that starts at the document is
refused in every context, in whatever snapshot. So what is found below a node of the snapshot is
never empty and consists of proper descendants of this node in strict document order, and nothing is
found below it exactly when the search in its scope is empty. -/
theorem findAll_scoped {version : Nat} {source : Option Text}
    (hs : (Snapshot.build version source).result = .ok s) (route : Route) (q : Query)
    (scope : Scope) :
    (∀ ns, (s.findAll route q scope).result = .ok ns →
      (s.run route q scope).result = .ok (ns.map Node.path) ∧
      Path.Ascending (ns.map Node.path) ∧
      (∀ n ∈ ns, n.snapshot = s) ∧
      ∀ a, scope.contextFor q route = some a →
        ∃ m : Node, m.snapshot = s ∧ m.path.address = a ∧ ∀ n ∈ ns, n.isDescendantOf m = true) ∧
    (q.isAbsolute = true → (scope.contextFor q .path).isSome = true →
      ∀ s' : Snapshot, (s'.findAll .path q scope).result = .error (.notDescendant q.text)) ∧
    ∀ parent : Node, parent.snapshot = s →
      (∀ ns, (s.findChildren route q parent).result = .ok ns →
        ns ≠ [] ∧ Path.Ascending (ns.map Node.path) ∧
          ∀ n ∈ ns, n.snapshot = s ∧ n.isDescendantOf parent = true) ∧
      ((∃ t what, (s.findChildren route q parent).result = .error (.notFound t what)) ↔
        (s.findAll route q (Scope.descendantsOf parent.path.address)).result = .ok []) := by
  have hsound := isSound_of_build hs
  refine ⟨?_, findAll_of_isAbsolute, ?_⟩
  · intro ns hns
    have hrun := run_of_findAll hsound hns
    exact ⟨hrun, (keepsTo_run hsound hrun).ascending, fun n => snapshot_of_mem_findAll hns,
      fun a => isDescendantOf_of_findAll hsound hns⟩
  · intro parent hparent
    have hmissing := findChildren_eq_notFound_iff hparent route q
    refine ⟨?_, hmissing⟩
    intro ns hns
    have hfound := findAll_of_findChildren hns
    refine ⟨?_, (keepsTo_run hsound (run_of_findAll hsound hfound)).ascending, ?_⟩
    · rintro rfl
      obtain ⟨t, what, hnone⟩ := hmissing.mpr hfound
      rw [hns] at hnone
      cases hnone
    · intro n hn
      obtain ⟨m, hm, haddress, hbelow⟩ := isDescendantOf_of_findAll hsound hfound
        (contextFor_descendantsOf parent.path.address q route)
      have hsame := hbelow n hn
      rw [Node.isDescendantOf, hm, address_injective haddress, ← hparent] at hsame
      exact ⟨snapshot_of_mem_findAll hfound hn, hsame⟩

/-- All nodes below the root are found by a path expression that starts there. One that starts at
the document is refused below the second child. -/
theorem findAll_scoped_quoted :
    ∃ (s : Snapshot) (ns : List Node), (Snapshot.build 1 (some quotedDump)).result = .ok s ∧
      (s.findChildren .path (.path ".//*".toList) s.root).result = .ok ns ∧
      ns.map Node.path = [[0], [1], [1, 0]] ∧ (∀ n ∈ ns, n.isDescendantOf s.root = true) ∧
      (s.findAll .path (.path "//n".toList) ⟨some [1]⟩).result =
        .error (.notDescendant "//n".toList) := by
  have hbuild : (Snapshot.build 1 (some quotedDump)).result.toOption.any (fun s =>
      decide (s.size < Binary64.exactLimit) &&
        decide (s.matching Selector.empty (some []) = [[0], [1], [1, 0]])) = true := by
    decide +kernel
  obtain ⟨s, hs, hcheck⟩ := exists_of_any_toOption hbuild
  rw [Bool.and_eq_true, decide_eq_true_iff, decide_eq_true_iff] at hcheck
  obtain ⟨hsize, hmatching⟩ := hcheck
  have hsound : s.IsSound := isSound_of_build hs
  have hroot : s.node? [] = some s.root := node?_of_at? s.root.located
  have hwritable : Selector.empty.IsWritable := by
    refine ⟨?_, ?_⟩
    · intro k hk
      cases hk
    · intro p hp
      cases hp
  -- the expression is the one for a selector without predicates
  have htext : Selector.empty.pathText ⟨(some []).map Path.address⟩ = .ok ".//*".toList := rfl
  have hevaluate : (s.evaluatePath ".//*".toList ((some []).map Path.address)).result =
      .ok [[0], [1], [1, 0]] := by
    rw [evaluatePath_pathText hsound hsize hwritable ?_ htext, hmatching]
    · rfl
    · intro q hq
      cases hq
      rw [hroot]
      rfl
  have hrun : (s.run .path (.path ".//*".toList) (Scope.descendantsOf [])).result =
      .ok [[0], [1], [1, 0]] := by
    refine (Report.result_bind_of_ok (a := .ofPath ".//*".toList (some [])) rfl).trans ?_
    exact Report.result_bind_of_ok hevaluate
  obtain ⟨ns, hns⟩ : ∃ ns, (s.findAll .path (.path ".//*".toList) (Scope.descendantsOf [])).result =
      .ok ns := ⟨_, Report.result_bind_of_ok hrun⟩
  obtain ⟨hpaths, hrefused, hbelow⟩ :=
    findAll_scoped hs .path (.path ".//*".toList) (Scope.descendantsOf [])
  have hmap : ns.map Node.path = [[0], [1], [1, 0]] := by
    have hsame := (hpaths ns hns).1
    rw [hrun] at hsame
    exact (Except.ok.inj hsame).symm
  have hchildren : (s.findChildren .path (.path ".//*".toList) s.root).result = .ok ns := by
    refine findChildren_of_findAll rfl ?_ ?_ hns
    · rintro rfl
      cases hmap
    · intro path own hq
      cases hq
  obtain ⟨-, -, hdescendants⟩ := (hbelow s.root rfl).1 ns hchildren
  refine ⟨s, ns, hs, hchildren, hmap, fun n hn => (hdescendants n hn).2, ?_⟩
  exact (findAll_scoped hs .path (.path "//n".toList) ⟨some [1]⟩).2.1 (by decide) rfl s

end Snapshot

end UiTree
