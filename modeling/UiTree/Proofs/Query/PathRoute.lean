import UiTree.Proofs.Query.PathText
import UiTree.Proofs.Snapshot
import UiTree.Proofs.XPath.Number
import UiTree.Query.Search

/-!
# UiTree.Proofs.Query.PathRoute -- selectors on the path route

Running a selector as a path expression gives what filtering the nodes of the hierarchy gives. The
elements that the expression reaches are translated into paths; both lists ascend in document order,
so that it is enough to compare their members.

* **The expected answer.** `Snapshot.matching` are the paths in a scope at which a selector admits
  the element; `Selector.choose` takes the match index into account.
* **Main statement.** `findAll_path`: the nodes that a selector finds are the expected ones.
-/

namespace UiTree

open XPath

/-! ## The expected answer -/

namespace Selector

/-- The wanted ones of several matches: all of them, or the one at the match index. -/
def choose {α : Type} (sel : Selector) (l : List α) : List α :=
  match sel.matchIndex with
  | none => l
  | some k => l[k]?.toList

theorem take_one_drop {α : Type} (l : List α) (k : Nat) : (l.drop k).take 1 = l[k]?.toList := by
  rw [List.take_one, List.head?_drop]

theorem filterMap_getElem? {α β : Type} {f : α → Option β} {l : List α}
    (h : ∀ a ∈ l, (f a).isSome = true) (k : Nat) :
    l[k]?.toList.filterMap f = (l.filterMap f)[k]?.toList := by
  induction l generalizing k with
  | nil => rfl
  | cons a l ih =>
      obtain ⟨b, hb⟩ := Option.isSome_iff_exists.mp (h a List.mem_cons_self)
      rw [List.filterMap_cons_some hb]
      cases k with
      | zero =>
          rw [List.getElem?_cons_zero, List.getElem?_cons_zero, Option.toList_some,
            List.filterMap_cons_some hb]
          rfl
      | succ k =>
          rw [List.getElem?_cons_succ, List.getElem?_cons_succ]
          exact ih (fun c hc => h c (List.mem_cons_of_mem a hc)) k

/-- Choosing can be put off until after a translation that loses nothing. -/
theorem filterMap_choose {α β : Type} (sel : Selector) {f : α → Option β} {l : List α}
    (h : ∀ a ∈ l, (f a).isSome = true) :
    (sel.choose l).filterMap f = sel.choose (l.filterMap f) := by
  rw [choose, choose]
  split
  · rfl
  · exact filterMap_getElem? h _

theorem choose_sublist {α : Type} (sel : Selector) (l : List α) : (sel.choose l).Sublist l := by
  rw [choose]
  split
  · exact List.Sublist.refl l
  · next k hindex =>
    rw [← take_one_drop]
    exact (List.take_sublist 1 _).trans (List.drop_sublist k l)

end Selector

namespace Snapshot

variable {s : Snapshot} {sel : Selector} {context : Option Path}

/-- The paths in a scope at which a selector admits the element, in document order. -/
def matching (s : Snapshot) (sel : Selector) (context : Option Path) : List Path :=
  (s.elements.walk.map Prod.fst).filter fun p =>
    context.all p.isBelow && (s.elements.at? p).any fun u => sel.admits u.label.get?

theorem mem_matching_iff {p : Path} :
    p ∈ s.matching sel context ↔
      context.all p.isBelow = true ∧
        ∃ u, s.elements.at? p = some u ∧ sel.admits u.label.get? = true := by
  rw [matching, List.mem_filter, Tree.mem_map_walk_iff, Bool.and_eq_true, Option.any_eq_true]
  constructor
  · rintro ⟨-, hbelow, hu⟩
    exact ⟨hbelow, hu⟩
  · rintro ⟨hbelow, u, hu, hadmits⟩
    exact ⟨by rw [hu]; rfl, hbelow, u, hu, hadmits⟩

theorem ascending_matching : Path.Ascending (s.matching sel context) :=
  (Tree.ascending_walk s.elements).filter _

theorem length_matching_le : (s.matching sel context).length ≤ s.size := by
  refine Nat.le_trans (List.length_filter_le _ _) ?_
  rw [List.length_map]
  exact Nat.le_refl _

/-! ## What the expression reaches -/

theorem opening_distinct (hs : s.IsSound) (t : Path) (o : Xml.Opening)
    (ho : s.site.opening? t = some o) : o.Distinct := by
  obtain ⟨p, u, -, hu, rfl⟩ := (Site.opening?_eq_some_iff hs.single).mp ho
  exact hs.distinct p u hu

/-- Translating places in document order gives paths in document order. -/
theorem ascending_filterMap (hs : s.IsSound) {ps : List Place} (hps : Place.Ascending ps) :
    Path.Ascending (ps.filterMap s.site.elementPath?) := by
  rw [Path.Ascending, List.pairwise_filterMap]
  refine List.Pairwise.imp ?_ hps
  intro a b hab p hp q hq
  obtain ⟨t, rfl⟩ := Site.exists_node_of_elementPath? hp
  obtain ⟨u, rfl⟩ := Site.exists_node_of_elementPath? hq
  have ht := (Site.elementPath?_node hs.single).mp hp
  have hu := (Site.elementPath?_node hs.single).mp hq
  -- places of nodes that are different have different trails
  have hlt : Path.lt t u = true := by
    rcases Place.le_iff.mp hab.1 with hlt | ⟨heq, -⟩
    · exact hlt
    · exact absurd (congrArg Place.node heq) hab.2
  have := lt_elementIndexes ht hu hlt
  rw [Path.lt_cons_iff] at this
  rcases this with h | ⟨-, h⟩
  · exact absurd h (Nat.lt_irrefl 0)
  · exact h

/-- The trail that the search in a scope starts from: that of its context, or of the document. -/
def IsOrigin (s : Snapshot) (context : Option Path) (c : Path) : Prop :=
  context = none ∧ c = [] ∨
    ∃ q, context = some q ∧ elementIndexes s.site.nodes c = some (0 :: q)

/-- An element below the trail of a scope is a node below its path. -/
theorem exists_trail_below (hs : s.IsSound) {c p : Path} {o : Xml.Opening}
    (hc : s.IsOrigin context c) :
    (∃ r, r ≠ [] ∧ elementIndexes s.site.nodes (c ++ r) = some (0 :: p) ∧
        s.site.opening? (c ++ r) = some o) ↔
      context.all p.isBelow = true ∧ ∃ u, s.elements.at? p = some u ∧ u.label = o := by
  have hopening : ∀ t, elementIndexes s.site.nodes t = some (0 :: p) →
      (s.site.opening? t = some o ↔ ∃ u, s.elements.at? p = some u ∧ u.label = o) := by
    intro t ht
    rw [Site.opening?_eq_some_iff hs.single]
    constructor
    · rintro ⟨p', u, ht', hu⟩
      rw [ht] at ht'
      cases ht'
      exact ⟨u, hu⟩
    · rintro ⟨u, hu⟩
      exact ⟨p, u, ht, hu⟩
  rcases hc with ⟨rfl, rfl⟩ | ⟨q, rfl, hq⟩
  · -- from the document every element is below
    simp only [List.nil_append, Option.all_none, true_and]
    constructor
    · rintro ⟨r, -, hr, ho⟩
      exact (hopening r hr).mp ho
    · rintro ⟨u, hu, hlabel⟩
      obtain ⟨r, hr⟩ := Site.exists_trail (s := s.site) hs.single hu
      refine ⟨r, ?_, hr, (hopening r hr).mpr ⟨u, hu, hlabel⟩⟩
      rintro rfl
      cases hr
  · rw [Option.all_some, Path.isBelow_iff]
    constructor
    · rintro ⟨r, hne, hr, ho⟩
      obtain ⟨p', w, hp', hw, happend⟩ := elementIndexes_append_iff.mp hr
      rw [hq] at hp'
      cases hp'
      cases w with
      | nil =>
          have hlength := length_elementIndexes hw
          exact absurd (List.eq_nil_of_length_eq_zero hlength.symm) hne
      | cons i w =>
          exact ⟨⟨i, w, (List.cons.inj happend).2⟩, (hopening _ hr).mp ho⟩
    · rintro ⟨⟨i, w, rfl⟩, u, hu, hlabel⟩
      obtain ⟨t, ht⟩ := Site.exists_trail (s := s.site) hs.single hu
      obtain ⟨r, rfl⟩ := exists_append_of_elementIndexes (w := i :: w) hq ht
      refine ⟨r, ?_, ht, (hopening _ ht).mpr ⟨u, hu, hlabel⟩⟩
      rintro rfl
      rw [List.append_nil, hq] at ht
      simp at ht

/-- **What the body of a selector reaches**: the places of the expected nodes. -/
theorem evaluate_matching (hs : s.IsSound) {f : Focus} {scope : Scope} {c : Path}
    (hc : s.IsOrigin context c)
    (hf : scope.isDocument = true ∧ c = [] ∨ scope.isDocument = false ∧ f.place = .node c) :
    ∃ ps, evaluate s.site f (sel.bodyExpr scope) = some (.places ps) ∧
      (∀ p ∈ ps, (s.site.elementPath? p).isSome = true) ∧
      ps.filterMap s.site.elementPath? = s.matching sel context := by
  obtain ⟨ps, hps, hascending, hmem⟩ := evaluate_bodyExpr sel scope hf (opening_distinct hs)
  refine ⟨ps, hps, ?_, ?_⟩
  · intro p hp
    obtain ⟨r, o, -, rfl, ho, -⟩ := (hmem p).mp hp
    obtain ⟨q, u, hq, -⟩ := (Site.opening?_eq_some_iff hs.single).mp ho
    rw [(Site.elementPath?_node hs.single).mpr hq]
    rfl
  · -- both lists ascend, so that their members are compared
    refine (ascending_filterMap hs hascending).ext ascending_matching ?_
    intro p
    rw [List.mem_filterMap, mem_matching_iff]
    constructor
    · rintro ⟨a, ha, hpath⟩
      obtain ⟨r, o, hr, rfl, ho, hadmits⟩ := (hmem a).mp ha
      have hindexes := (Site.elementPath?_node hs.single).mp hpath
      obtain ⟨hbelow, u, hu, rfl⟩ := (exists_trail_below hs hc).mp ⟨r, hr, hindexes, ho⟩
      exact ⟨hbelow, u, hu, hadmits⟩
    · rintro ⟨hbelow, u, hu, hadmits⟩
      obtain ⟨r, hr, hindexes, ho⟩ := (exists_trail_below hs hc).mpr ⟨hbelow, u, hu, rfl⟩
      exact ⟨.node (c ++ r), (hmem _).mpr ⟨r, u.label, hr, rfl, ho, hadmits⟩,
        (Site.elementPath?_node hs.single).mpr hindexes⟩

/-- **The value of the whole expression** are the places of the chosen nodes. -/
theorem evaluate_choose (hsize : s.size < Binary64.exactLimit) {f : Focus} {scope : Scope}
    {ps : List Place} (hps : evaluate s.site f (sel.bodyExpr scope) = some (.places ps))
    (hlength : ps.length ≤ s.size) :
    evaluate s.site f (sel.expr scope) = some (.places (sel.choose ps)) := by
  rw [Selector.expr, Selector.choose]
  cases sel.matchIndex with
  | none => exact hps
  | some k =>
      dsimp only
      rw [← Selector.take_one_drop]
      refine evaluate_pick hps ?_
      intro i hi
      rw [eqv_digitsValue (by omega)]
      exact decide_eq_decide.mpr (by omega)

/-! ## The route -/

/-- An address names a path when it has no negative index. -/
theorem ofAddress?_eq_some_iff {a : Address} {p : Path} :
    Path.ofAddress? a = some p ↔ a = p.address := by
  rw [Path.ofAddress?, Path.address]
  induction a generalizing p with
  | nil => cases p <;> simp
  | cons i a ih =>
      rw [List.mapM_cons]
      cases i with
      | negSucc n => cases p <;> simp
      | ofNat n =>
          simp only [Option.bind_eq_bind, Option.bind_some, Option.bind_eq_some_iff]
          constructor
          · rintro ⟨q, hq, hcons⟩
            cases hcons
            rw [ih.mp hq]
            rfl
          · intro h
            cases p with
            | nil => cases h
            | cons k p =>
                obtain ⟨hi, ha⟩ := List.cons.inj h
                cases hi
                exact ⟨p, ih.mpr ha, rfl⟩

/-- The context of a scope whose node is there. -/
theorem contextPath_address (hcontext : ∀ q, context = some q → (s.node? q).isSome = true) :
    s.contextPath (context.map Path.address) = .ok (context.getD []) := by
  cases context with
  | none => rfl
  | some q =>
      obtain ⟨n, hn⟩ := Option.isSome_iff_exists.mp (hcontext q rfl)
      have haddress : Path.ofAddress? q.address = some q := ofAddress?_eq_some_iff.mpr rfl
      simp only [contextPath, Option.map_some, haddress, Option.bind_some, hn, Option.getD_some]
      rw [(node?_eq_some_iff.mp hn).2.1]

theorem isInside_address (q p : Path) : isInside q.address p = p.isBelow q := by
  have htake : (p.address.take q.length == q.address) = (p.take q.length == q) := by
    rw [Bool.eq_iff_iff, beq_iff_eq, beq_iff_eq, Path.address, Path.address, ← List.map_take]
    exact List.map_inj_right fun _ _ h => Int.ofNat.inj h
  rw [isInside, Path.isBelow]
  have hlength : q.address.length = q.length := List.length_map ..
  rw [hlength, htake]

/-- Compiling a selector with predicates. -/
theorem result_compile (hne : sel.predicates ≠ []) {scope : Scope} {t : Text}
    (ht : sel.pathText scope = .ok t) :
    (sel.compile scope).result = .ok ⟨t, scope.isDocument, scope.context⟩ := by
  rw [Selector.compile, Selector.isEmpty, if_neg (by simpa using hne), Report.result_bind,
    Report.result_of, ht]
  rfl

/-- The places that the body of a selector reaches in a scope, from the trail of its context, or of
the root when there is none. -/
theorem exists_places (sel : Selector) (hs : s.IsSound)
    (hcontext : ∀ q, context = some q → (s.node? q).isSome = true) :
    ∃ c ps, s.site.trail? (context.getD []) = some c ∧
      evaluate s.site ⟨.node c, none⟩ (sel.bodyExpr ⟨context.map Path.address⟩) =
        some (.places ps) ∧
      (∀ p ∈ ps, (s.site.elementPath? p).isSome = true) ∧
      ps.filterMap s.site.elementPath? = s.matching sel context := by
  obtain ⟨u, hu⟩ : ∃ u, s.elements.at? (context.getD []) = some u := by
    cases context with
    | none => exact ⟨s.elements, Tree.at?_nil _⟩
    | some q =>
        rw [← Option.isSome_iff_exists, ← isSome_node?]
        exact hcontext q rfl
  obtain ⟨c, hc⟩ := Site.exists_trail (s := s.site) hs.single hu
  obtain ⟨ps, hps, hsome, hpaths⟩ : ∃ ps,
      evaluate s.site ⟨.node c, none⟩ (sel.bodyExpr ⟨context.map Path.address⟩) =
          some (.places ps) ∧
        (∀ p ∈ ps, (s.site.elementPath? p).isSome = true) ∧
        ps.filterMap s.site.elementPath? = s.matching sel context := by
    cases context with
    | none => exact evaluate_matching hs (c := []) (Or.inl ⟨rfl, rfl⟩) (Or.inl ⟨rfl, rfl⟩)
    | some q => exact evaluate_matching hs (Or.inr ⟨q, rfl, hc⟩) (Or.inr ⟨rfl, rfl⟩)
  exact ⟨c, ps, Site.trail?_eq_some_iff.mpr hc, hps, hsome, hpaths⟩

/-- What path text finds that is read as an expression for places. -/
theorem evaluatePath_places {t : Text} {e : Expr} {c : Path} {ps : List Place}
    (hcontext : ∀ q, context = some q → (s.node? q).isSome = true)
    (hall : t.all Xml.isXmlChar = true) (hread : Expr.read? t = some e)
    (htrail : s.site.trail? (context.getD []) = some c)
    (hps : evaluate s.site ⟨.node c, none⟩ e = some (.places ps)) :
    (s.evaluatePath t (context.map Path.address)).result =
      .ok ((ps.filterMap s.site.elementPath?).mergeSort Path.le) := by
  have hvalue : s.valueOf? t (context.getD []) = some (.places ps) := by
    simp only [valueOf?, hread, htrail, Option.bind_eq_bind, Option.bind_some]
    exact hps
  rw [evaluatePath, Report.result_bind_of_ok (contextPath_address hcontext), hall, hvalue]
  rfl

/-- A selector finds what its path text finds, provided that this is in the scope. -/
theorem runPath_of_evaluatePath (hne : sel.predicates ≠ []) {t : Text}
    (ht : sel.pathText ⟨context.map Path.address⟩ = .ok t) {found : List Path}
    (hfound : (s.evaluatePath t (context.map Path.address)).result = .ok found)
    (hbelow : ∀ p ∈ found, context.all p.isBelow = true) :
    (s.runPath (.selector sel) ⟨context.map Path.address⟩).result = .ok found := by
  have hcompile : (sel.compile ⟨context.map Path.address⟩).result =
      .ok ⟨t, context.isNone, context.map Path.address⟩ := by
    rw [result_compile hne ht]
    cases context <;> rfl
  have hor : (context.map Path.address).or (context.map Path.address) =
      context.map Path.address := by
    cases context <;> rfl
  have habsolute : ((context.map Path.address).isSome && context.isNone) = false := by
    cases context <;> rfl
  have hinside : ((context.map Path.address).any fun a => !found.all (isInside a)) = false := by
    cases context with
    | none => rfl
    | some q =>
        rw [Option.map_some, Option.any_some, Bool.not_eq_false', List.all_eq_true]
        intro p hp
        rw [isInside_address]
        exact hbelow p hp
  rw [runPath, compileQuery, Report.result_bind_of_ok hcompile]
  simp only [hor, habsolute, Bool.false_eq_true, if_false]
  rw [Report.result_bind_of_ok hfound, hinside]
  rfl

/-- The paths that the path text of a selector finds. -/
theorem evaluatePath_pathText (hs : s.IsSound) (hsize : s.size < Binary64.exactLimit)
    (hsel : sel.IsWritable) (hcontext : ∀ q, context = some q → (s.node? q).isSome = true)
    {t : Text} (ht : sel.pathText ⟨context.map Path.address⟩ = .ok t) :
    (s.evaluatePath t (context.map Path.address)).result =
      .ok (sel.choose (s.matching sel context)) := by
  obtain ⟨t', ht', hall, hread⟩ := Selector.exists_pathText hsel ⟨context.map Path.address⟩
  rw [ht] at ht'
  cases ht'
  obtain ⟨c, ps, htrail, hps, hsome, hpaths⟩ := exists_places sel hs hcontext
  -- no place is lost in the translation, so there are no more places than nodes
  have hlength : ps.length ≤ s.size := by
    have hmatching : (ps.filterMap s.site.elementPath?).length ≤ s.size := by
      rw [hpaths]
      exact length_matching_le
    refine Nat.le_trans (Nat.not_lt.mp ?_) hmatching
    rw [List.length_filterMap_lt_length_iff_exists]
    rintro ⟨p, hp, hnone⟩
    have hp := hsome p hp
    rw [hnone] at hp
    cases hp
  have hchoose : (sel.choose ps).filterMap s.site.elementPath? =
      sel.choose (s.matching sel context) := by
    rw [Selector.filterMap_choose sel hsome, hpaths]
  -- sorting has nothing to do
  have hsorted : Path.Ascending (sel.choose (s.matching sel context)) :=
    ascending_matching.sublist (sel.choose_sublist _)
  rw [evaluatePath_places hcontext hall hread htrail (evaluate_choose hsize hps hlength)]
  rw [hchoose, hsorted.mergeSort]

/-- The paths that a selector with predicates finds on the path route. -/
theorem runPath_selector (hs : s.IsSound) (hsize : s.size < Binary64.exactLimit)
    (hsel : sel.IsWritable) (hcontext : ∀ q, context = some q → (s.node? q).isSome = true)
    (hne : sel.predicates ≠ []) :
    (s.runPath (.selector sel) ⟨context.map Path.address⟩).result =
      .ok (sel.choose (s.matching sel context)) := by
  obtain ⟨t, ht, -⟩ := Selector.exists_pathText hsel ⟨context.map Path.address⟩
  refine runPath_of_evaluatePath hne ht (evaluatePath_pathText hs hsize hsel hcontext ht) ?_
  intro p hp
  exact (mem_matching_iff.mp ((sel.choose_sublist _).subset hp)).1

/-! ## The nodes -/

/-- The nodes at the expected paths. -/
theorem filterMap_matching :
    (s.matching sel context).filterMap s.node? =
      s.nodes.filter fun n => context.all n.path.isBelow && sel.admits n.get? := by
  rw [nodes_eq, filter_filterMap_node?, matching]
  congr 1
  apply List.filter_congr
  intro p _
  cases hu : s.elements.at? p with
  | none =>
      have hn : s.node? p = none := by
        rw [← Option.isNone_iff_eq_none, ← Option.not_isSome, isSome_node?, hu]
        rfl
      rw [hn, Option.any_none, Option.any_none, Bool.and_false]
  | some u => rw [node?_of_at? hu, Option.any_some, Option.any_some, Node.admits_get?]

theorem isSome_node?_of_matching : ∀ p ∈ s.matching sel context, (s.node? p).isSome = true := by
  intro p hp
  obtain ⟨-, u, hu, -⟩ := mem_matching_iff.mp hp
  rw [isSome_node?, hu]
  rfl

/-- The nodes that a selector with predicates finds on the path route. -/
theorem findAll_selector (hs : s.IsSound) (hsize : s.size < Binary64.exactLimit)
    (hsel : sel.IsWritable) (hcontext : ∀ q, context = some q → (s.node? q).isSome = true)
    (hne : sel.predicates ≠ []) :
    (s.findAll .path (.selector sel) ⟨context.map Path.address⟩).result =
      .ok (sel.choose ((s.matching sel context).filterMap s.node?)) := by
  have hrun := runPath_selector hs hsize hsel hcontext hne
  rw [findAll, run, Report.result_bind_of_ok hrun, Report.result_pure]
  rw [Selector.filterMap_choose sel isSome_node?_of_matching]

/-- **Running a selector as a path expression is filtering the nodes.** In a snapshot that was
built, a selector with predicates finds those nodes, in document order, that are in the scope and
whose attributes satisfy all its predicates; with a match index, the one at this index, or none. -/
theorem findAll_path {version : Nat} {source : Option Text}
    (hs : (Snapshot.build version source).result = .ok s)
    (hsize : s.size < Binary64.exactLimit) (hne : sel.predicates ≠ []) (hsel : sel.IsWritable)
    (hcontext : ∀ q, context = some q → (s.node? q).isSome = true) :
    (s.findAll .path (.selector sel) ⟨context.map Path.address⟩).result =
      .ok (sel.choose (s.nodes.filter fun n =>
        context.all n.path.isBelow && sel.admits n.get?)) := by
  rw [findAll_selector (isSound_of_build hs) hsize hsel hcontext hne, filterMap_matching]

/-- Below the second child of the root, one value has the quoted text in it. -/
theorem findAll_path_quoted :
    ∃ s : Snapshot, (Snapshot.build 1 (some quotedDump)).result = .ok s ∧
      ∃ sel : Selector, sel.predicates.map Predicate.value = ["it's".toList] ∧
        (s.findAll .path (.selector sel) ⟨(some [1]).map Path.address⟩).result =
          .ok (sel.choose (s.nodes.filter fun n =>
            (some [1]).all n.path.isBelow && sel.admits n.get?)) := by
  have hbuild : (Snapshot.build 1 (some quotedDump)).result.toOption.any
      (fun s => decide (s.size < Binary64.exactLimit) && (s.node? [1]).isSome) = true := by
    decide +kernel
  obtain ⟨s, hs, hcheck⟩ := exists_of_any_toOption hbuild
  rw [Bool.and_eq_true, decide_eq_true_iff] at hcheck
  refine ⟨s, hs, ⟨[⟨.text, .partly, "it's".toList, by decide⟩], some 0⟩, rfl, ?_⟩
  refine findAll_path hs hcheck.1 (by simp) ⟨?_, ?_⟩ ?_
  · intro k hk
    cases hk
    decide
  · intro p hp
    obtain rfl := List.mem_singleton.mp hp
    decide
  · intro q hq
    cases hq
    exact hcheck.2

end Snapshot

end UiTree
