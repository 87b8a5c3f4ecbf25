import UiTree.Proofs.Query.PathRoute

/-!
# UiTree.Proofs.Query.Routes -- the two routes agree

A selector can be run as a path expression on the document, or be matched against the tags of the
outline. Where the two views hold the same attribute values both routes find the same nodes, and
where one fails the other fails for the same reason.

* **Views.** `Snapshot.ViewsAgree`: at every path the tag and the element have the same value, or
  none, for everything that a selector can name.
* **Main statement.** `findAll_routes`: the outcomes of the two routes, in every scope.
-/

namespace UiTree

namespace Snapshot

variable {s : Snapshot} {sel : Selector} {context : Option Path}

/-! ## The outline -/

/-- At every path the tag and the element hold the same value for every attribute. -/
def ViewsAgree (s : Snapshot) : Prop :=
  ∀ p n tag, s.node? p = some n → s.tagAt? p = some tag →
    ∀ a : Attribute, tag.get? a.key = n.get? a.key

/-- The same, node by node. -/
def viewsAgree? (s : Snapshot) : Bool :=
  s.elements.walk.all fun e =>
    (s.tagAt? e.1).all fun tag =>
      Attribute.all.all fun a => tag.get? a.key == e.2.get? a.key

theorem viewsAgree?_iff : s.viewsAgree? = true ↔ s.ViewsAgree := by
  rw [viewsAgree?, List.all_eq_true]
  constructor
  · intro h p n tag hn htag a
    obtain ⟨-, -, hu⟩ := node?_eq_some_iff.mp hn
    have hentry := h (p, n.element.label) (Tree.mem_walk_iff.mpr ⟨_, hu, rfl⟩)
    rw [htag, Option.all_some, List.all_eq_true] at hentry
    rw [n.get?_key, beq_iff_eq.mp (hentry a a.mem_all)]
  · rintro h ⟨p, o⟩ hwalk
    obtain ⟨u, hu, rfl⟩ := Tree.mem_walk_iff.mp hwalk
    rw [Option.all_eq_true]
    intro tag htag
    rw [List.all_eq_true]
    intro a _
    rw [beq_iff_eq, h p _ tag (node?_of_at? hu) htag a, Node.get?_key]

/-- The two trees have the same paths. -/
theorem map_walk_tags : s.tags.walk.map Prod.fst = s.elements.walk.map Prod.fst := by
  have haligned := s.aligned
  simp only [disagreement?] at haligned
  split at haligned
  · cases haligned
  · next hpaths => exact (Decidable.not_not.mp hpaths).symm

theorem isSome_at?_tags (p : Path) :
    (s.tags.at? p).isSome = (s.elements.at? p).isSome := by
  rw [Bool.eq_iff_iff, ← Tree.mem_map_walk_iff, ← Tree.mem_map_walk_iff, map_walk_tags]

/-- Where the views agree a selector admits the tags of the elements that it admits. -/
theorem mem_filter_tags_iff (hviews : s.ViewsAgree) {p : Path} :
    p ∈ (s.tags.walk.filter fun e => sel.admits e.2.get?).map Prod.fst ↔
      ∃ u, s.elements.at? p = some u ∧ sel.admits u.label.get? = true := by
  -- the tag and the element at one path hold the same values
  have hadmits : ∀ u v, s.elements.at? p = some u → s.tags.at? p = some v →
      sel.admits v.label.get? = sel.admits u.label.get? := by
    intro u v hu hv
    have htag : s.tagAt? p = some v.label := by rw [tagAt?, hv, Option.map_some]
    have hget := hviews p _ v.label (node?_of_at? hu) htag
    rw [← Node.admits_get? ⟨s, p, u, hu⟩]
    simp only [Selector.admits, hget]
  rw [List.mem_map]
  constructor
  · rintro ⟨⟨q, tag⟩, hmem, rfl⟩
    obtain ⟨hwalk, hsel⟩ := List.mem_filter.mp hmem
    obtain ⟨v, hv, rfl⟩ := Tree.mem_walk_iff.mp hwalk
    have hsome := isSome_at?_tags (s := s) q
    rw [hv] at hsome
    obtain ⟨u, hu⟩ := Option.isSome_iff_exists.mp hsome.symm
    exact ⟨u, hu, by rw [← hadmits u v hu hv]; exact hsel⟩
  · rintro ⟨u, hu, hsel⟩
    have hsome := isSome_at?_tags (s := s) p
    rw [hu] at hsome
    obtain ⟨v, hv⟩ := Option.isSome_iff_exists.mp hsome
    refine ⟨(p, v.label), List.mem_filter.mpr ⟨Tree.mem_walk_iff.mpr ⟨v, hv, rfl⟩, ?_⟩, rfl⟩
    rw [hadmits u v hu hv]
    exact hsel

/-- The tags that a selector admits in a scope are at the expected paths. -/
theorem searchTags_admits (hviews : s.ViewsAgree)
    (hcontext : ∀ q, context = some q → (s.node? q).isSome = true) :
    s.searchTags (fun t => sel.admits t.get?) (context.map Path.address) =
      .ok (s.matching sel context) := by
  have hascending : Path.Ascending
      ((s.tags.walk.filter fun e => sel.admits e.2.get?).map Prod.fst) :=
    (Tree.ascending_walk s.tags).sublist (List.Sublist.map Prod.fst List.filter_sublist)
  rw [searchTags, contextPath_address hcontext]
  cases context with
  | none =>
      refine congrArg Except.ok (hascending.ext ascending_matching ?_)
      intro p
      rw [mem_filter_tags_iff hviews, mem_matching_iff, Option.all_none]
      simp only [true_and]
  | some q =>
      refine congrArg Except.ok ((hascending.filter _).ext ascending_matching ?_)
      intro p
      rw [List.mem_filter, mem_filter_tags_iff hviews, mem_matching_iff, Option.all_some, and_comm]
      rfl

theorem isEmpty_eq_false (hne : sel.predicates ≠ []) : sel.isEmpty = false := by
  rw [Selector.isEmpty, List.isEmpty_eq_false_iff]
  exact hne

/-- The paths that a selector with predicates finds on the outline route. -/
theorem runOutline_selector (hviews : s.ViewsAgree) (hne : sel.predicates ≠ [])
    (hcontext : ∀ q, context = some q → (s.node? q).isSome = true) :
    (s.runOutline (.selector sel) ⟨context.map Path.address⟩).result =
      .ok (sel.choose (s.matching sel context)) := by
  simp only [runOutline, isEmpty_eq_false hne, Bool.false_eq_true, if_false]
  rw [Report.result_bind, Report.result_of, searchTags_admits hviews hcontext, Selector.choose]
  cases sel.matchIndex with
  | none => rfl
  | some k =>
      dsimp only
      rw [← Selector.take_one_drop]
      rfl

/-- The nodes there are those of the path route. -/
theorem findAll_outline_selector (hviews : s.ViewsAgree) (hne : sel.predicates ≠ [])
    (hcontext : ∀ q, context = some q → (s.node? q).isSome = true) :
    (s.findAll .outline (.selector sel) ⟨context.map Path.address⟩).result =
      .ok (sel.choose ((s.matching sel context).filterMap s.node?)) := by
  have hrun := runOutline_selector hviews hne hcontext
  rw [findAll, run, Report.result_bind_of_ok hrun, Report.result_pure]
  rw [Selector.filterMap_choose sel isSome_node?_of_matching]

/-! ## Both routes -/

/-- An address is that of a node, or there is no node for it. -/
theorem address_cases (context : Option Address) :
    (∃ path : Option Path, context = path.map Path.address ∧
        ∀ q, path = some q → (s.node? q).isSome = true) ∨
      ∃ a, context = some a ∧ (Path.ofAddress? a).bind s.node? = none := by
  cases context with
  | none => exact Or.inl ⟨none, rfl, nofun⟩
  | some a =>
      cases hn : (Path.ofAddress? a).bind s.node? with
      | none => exact Or.inr ⟨a, rfl, hn⟩
      | some n =>
          obtain ⟨q, hq, hn⟩ := Option.bind_eq_some_iff.mp hn
          refine Or.inl ⟨some q, congrArg some (ofAddress?_eq_some_iff.mp hq), ?_⟩
          intro q' hq'
          cases hq'
          rw [hn]
          rfl

/-- **What the two routes may give** for a selector in a scope: faults of the same class, the one
for an empty selector or the one for an absent context, or the same nodes. -/
inductive SameOutcome (s : Snapshot) (sel : Selector) (scope : Scope) :
    Except Fault (List Node) → Except Fault (List Node) → Prop where
  | empty (hempty : sel.predicates = []) (why why' : SelectorFault) :
    SameOutcome s sel scope (.error (.malformed why (some [])))
      (.error (.malformed why' (some [])))
  | absent (hne : sel.predicates ≠ []) (a : Address) (ha : scope.context = some a)
    (hnone : (Path.ofAddress? a).bind s.node? = none) :
    SameOutcome s sel scope (.error (.unknownContext a)) (.error (.unknownContext a))
  | found (hne : sel.predicates ≠ [])
    (hsome : ∀ a, scope.context = some a → ((Path.ofAddress? a).bind s.node?).isSome = true)
    (ns : List Node) : SameOutcome s sel scope (.ok ns) (.ok ns)

/-! ### A selector without predicates -/

theorem findAll_path_empty (hempty : sel.predicates = []) (scope : Scope) :
    (s.findAll .path (.selector sel) scope).result =
      .error (.malformed .nothingToCompile (some [])) := by
  refine Report.result_bind_of_error (Report.result_bind_of_error ?_)
  rw [compileQuery, Selector.compile, Selector.isEmpty, if_pos (List.isEmpty_iff.mpr hempty)]
  rfl

theorem findAll_outline_empty (hempty : sel.predicates = []) (scope : Scope) :
    (s.findAll .outline (.selector sel) scope).result =
      .error (.malformed .nothingToMatch (some [])) := by
  refine Report.result_bind_of_error ?_
  rw [run, runOutline, Selector.isEmpty, if_pos (List.isEmpty_iff.mpr hempty)]
  rfl

/-! ### A context that is not there -/

theorem contextPath_absent {a : Address} (hnone : (Path.ofAddress? a).bind s.node? = none) :
    s.contextPath (some a) = .error (.unknownContext a) := by
  simp only [contextPath, hnone]

/-- An absent context is told by the path route before anything is evaluated. -/
theorem findAll_path_absent (hne : sel.predicates ≠ []) (hsel : sel.IsWritable) {a : Address}
    (hnone : (Path.ofAddress? a).bind s.node? = none) :
    (s.findAll .path (.selector sel) ⟨some a⟩).result = .error (.unknownContext a) := by
  obtain ⟨t, ht, -⟩ := Selector.exists_pathText hsel ⟨some a⟩
  have horigin : (Report.of (s.contextPath (some a))).result = .error (.unknownContext a) :=
    contextPath_absent hnone
  have hevaluate : (s.evaluatePath t (some a)).result = .error (.unknownContext a) :=
    Report.result_bind_of_error horigin
  refine Report.result_bind_of_error ?_
  rw [run, runPath, compileQuery, Report.result_bind_of_ok (result_compile hne ht)]
  exact Report.result_bind_of_error hevaluate

theorem findAll_outline_absent (hne : sel.predicates ≠ []) {a : Address}
    (hnone : (Path.ofAddress? a).bind s.node? = none) :
    (s.findAll .outline (.selector sel) ⟨some a⟩).result = .error (.unknownContext a) := by
  have hsearch : (Report.of (s.searchTags (fun t => sel.admits t.get?) (some a))).result =
      .error (.unknownContext a) := by
    rw [Report.result_of, searchTags, contextPath_absent hnone]
    rfl
  refine Report.result_bind_of_error ?_
  rw [run, runOutline, isEmpty_eq_false hne]
  exact Report.result_bind_of_error hsearch

/-! ### All cases -/

/-- Both routes together, case by case. -/
theorem sameOutcome (hs : s.IsSound) (hsize : s.size < Binary64.exactLimit)
    (hviews : s.ViewsAgree) (hsel : sel.IsWritable) (scope : Scope) :
    SameOutcome s sel scope (s.findAll .outline (.selector sel) scope).result
      (s.findAll .path (.selector sel) scope).result := by
  by_cases hne : sel.predicates = []
  · rw [findAll_path_empty hne, findAll_outline_empty hne]
    exact .empty hne _ _
  · obtain ⟨context⟩ := scope
    rcases address_cases (s := s) context with ⟨path, rfl, hpresent⟩ | ⟨a, rfl, hnone⟩
    · rw [findAll_selector hs hsize hsel hpresent hne,
        findAll_outline_selector hviews hne hpresent]
      refine .found hne ?_ _
      intro a ha
      obtain ⟨q, rfl, rfl⟩ := Option.map_eq_some_iff.mp ha
      rw [ofAddress?_eq_some_iff.mpr rfl, Option.bind_some]
      exact hpresent q rfl
    · rw [findAll_path_absent hne hsel hnone, findAll_outline_absent hne hnone]
      exact .absent hne a rfl hnone

/-- **The two routes agree.** In a snapshot that was built and whose views agree, running a selector
on the outline and running it as a path expression have the same outcome in every scope; the path
route never refuses a selector for leaving its scope. -/
theorem findAll_routes {version : Nat} {source : Option Text}
    (hs : (Snapshot.build version source).result = .ok s)
    (hsize : s.size < Binary64.exactLimit) (hviews : s.ViewsAgree) (hsel : sel.IsWritable)
    (scope : Scope) :
    SameOutcome s sel scope (s.findAll .outline (.selector sel) scope).result
        (s.findAll .path (.selector sel) scope).result ∧
      ∀ t, (s.findAll .path (.selector sel) scope).result ≠ .error (.notDescendant t) := by
  have hsame := sameOutcome (isSound_of_build hs) hsize hviews hsel scope
  refine ⟨hsame, ?_⟩
  intro t ht
  rw [ht] at hsame
  -- no case has this fault on its right side
  generalize (s.findAll .outline (.selector sel) scope).result = outcome at hsame
  cases hsame

/-- The views of this dump agree: below the second child of the root both routes look for the quoted
text. -/
theorem findAll_routes_quoted :
    ∃ s : Snapshot, (Snapshot.build 1 (some quotedDump)).result = .ok s ∧ s.ViewsAgree ∧
      ∃ sel : Selector, sel.predicates ≠ [] ∧
        SameOutcome s sel ⟨some [1]⟩
            (s.findAll .outline (.selector sel) ⟨some [1]⟩).result
            (s.findAll .path (.selector sel) ⟨some [1]⟩).result ∧
          ∀ t, (s.findAll .path (.selector sel) ⟨some [1]⟩).result ≠
            .error (.notDescendant t) := by
  have hbuild : (Snapshot.build 1 (some quotedDump)).result.toOption.any
      (fun s => decide (s.size < Binary64.exactLimit) && s.viewsAgree?) = true := by
    decide +kernel
  obtain ⟨s, hs, hcheck⟩ := exists_of_any_toOption hbuild
  rw [Bool.and_eq_true, decide_eq_true_iff] at hcheck
  have hviews := viewsAgree?_iff.mp hcheck.2
  refine ⟨s, hs, hviews, ⟨[⟨.text, .contains, "it's".toList, by decide⟩], some 0⟩, by simp, ?_⟩
  refine findAll_routes hs hcheck.1 hviews ⟨?_, ?_⟩ _
  · intro k hk
    cases hk
    decide
  · intro p hp
    obtain rfl := List.mem_singleton.mp hp
    decide

end Snapshot

end UiTree
