import UiTree.Proofs.Query.Admitted
import UiTree.Proofs.Query.Resubmitted
import UiTree.Proofs.Selector.Grammar
import UiTree.Service.Basic

/-!
# UiTree.Proofs.Service.Unhandled -- faults that are not told to the caller

Most faults are told to the caller, with a status that fits them. A few are not, and whatever raises
one of them is broken off. Selectors are read without them. Queries raise them in two places: when a
position has too many digits, and when a path expression has a character that it cannot have.

* **Sequencing.** `Report.Raises`: an operation fails with such a fault; `raises_bind_iff` is about
  one operation after another.
* **Main statements.** `raises_findAll_iff`, `raises_findOne_iff` and `raises_findChildren_iff`: the
  queries that raise them are those that are `Query.Unwritable`.
-/

namespace UiTree

namespace Report

variable {α β : Type} {r : Report α} {f : α → Report β} {e : Fault}

/-- The operation fails with a fault that is not told to the caller. -/
def Raises (r : Report α) (e : Fault) : Prop := r.result = .error e ∧ Service.status? e = none

theorem raises_congr {r' : Report α} (h : r.result = r'.result) : r.Raises e ↔ r'.Raises e := by
  rw [Raises, h, Raises]

theorem not_raises_of_ok {a : α} (h : r.result = .ok a) : ¬ r.Raises e := by
  rintro ⟨he, -⟩
  rw [h] at he
  cases he

theorem not_raises_pure (a : α) : ¬ (pure a : Report α).Raises e := not_raises_of_ok rfl

/-- What is told to the caller is not raised. -/
theorem not_raises_fail {why : Fault} (h : (Service.status? why).isSome = true) :
    ¬ (fail why : Report α).Raises e := by
  rintro ⟨he, hnone⟩
  cases he
  rw [hnone] at h
  cases h

theorem raises_fail_iff {why : Fault} (h : Service.status? why = none) :
    (fail why : Report α).Raises e ↔ e = why := by
  constructor
  · rintro ⟨he, -⟩
    exact (Except.error.inj he).symm
  · rintro rfl
    exact ⟨rfl, h⟩

/-- **One operation after another** raises what the first one raises, and what the second one raises
after a success of the first one. -/
theorem raises_bind_iff :
    (r >>= f).Raises e ↔ r.Raises e ∨ ∃ a, r.result = .ok a ∧ (f a).Raises e := by
  cases hr : r.result with
  | error why =>
      have hboth : (r >>= f).Raises e ↔ r.Raises e := by
        simp only [Raises, result_bind_of_error hr, hr, Except.error.injEq]
      rw [hboth]
      constructor
      · exact Or.inl
      · rintro (h | ⟨a, ha, -⟩)
        · exact h
        · cases ha
  | ok a =>
      rw [Raises, result_bind_of_ok hr]
      constructor
      · exact fun h => Or.inr ⟨a, rfl, h⟩
      · rintro (h | ⟨b, hb, h⟩)
        · exact absurd h (not_raises_of_ok hr)
        · cases hb
          exact h

/-- After a stage that raises nothing, what is raised is raised by the next one. -/
theorem raises_bind_of_quiet (hr : ¬ r.Raises e) :
    (r >>= f).Raises e ↔ ∃ a, r.result = .ok a ∧ (f a).Raises e :=
  raises_bind_iff.trans (or_iff_right hr)

/-- A stage whose faults are all raised, and after which a fault is raised. -/
theorem exists_raises_bind (hr : ∀ e, r.result = .error e → Service.status? e = none)
    (hf : ∀ a, r.result = .ok a → ∃ e, (f a).Raises e) : ∃ e, (r >>= f).Raises e := by
  cases h : r.result with
  | error e => exact ⟨e, raises_bind_iff.mpr (Or.inl ⟨h, hr e h⟩)⟩
  | ok a =>
      obtain ⟨e, he⟩ := hf a h
      exact ⟨e, raises_bind_iff.mpr (Or.inr ⟨a, h, he⟩)⟩

/-- Whatever the operation succeeds with has the property. -/
def Gives (r : Report α) (P : α → Prop) : Prop := ∀ a, r.result = .ok a → P a

theorem gives_pure {P : α → Prop} {a : α} (h : P a) : (pure a : Report α).Gives P := by
  rintro b ⟨⟩
  exact h

/-- What a second operation succeeds with is what both succeed with. -/
theorem gives_bind {P : β → Prop} (h : ∀ a, (f a).Gives P) : (r >>= f).Gives P := by
  intro b hb
  obtain ⟨a, -, hb⟩ := result_bind_eq_ok_iff.mp hb
  exact h a b hb

theorem raises_bind_of_ok {a : α} (h : r.result = .ok a) : (r >>= f).Raises e ↔ (f a).Raises e := by
  rw [Raises, result_bind_of_ok h, Raises]

end Report

/-! ## Selectors -/

namespace Selector

variable {sel : Selector} {e : Fault}

theorem status?_of_isTextFault (h : IsTextFault e) : Service.status? e = some 400 := by
  cases h <;> rfl

/-- Reading a selector raises nothing, whatever the text is. -/
theorem not_raises_read (strict : Bool) (t : Text) : ¬ (read strict t).Raises e := by
  rintro ⟨he, hnone⟩
  rw [status?_of_isTextFault (isTextFault_of_read he)] at hnone
  cases hnone

/-- Setting the match index leaves the predicates alone. -/
theorem predicates_pick {d : Datum} {picked : Selector} (h : sel.pick d = .ok picked) :
    picked.predicates = sel.predicates := by
  unfold pick at h
  split at h
  · cases h
    rfl
  · cases hindex : checkIndex d with
    | error why =>
        rw [hindex] at h
        cases h
    | ok k =>
        rw [hindex] at h
        cases h
        rfl

/-- Setting the match index raises nothing, whatever the value is. -/
theorem not_raises_pick (sel : Selector) (d : Datum) : ¬ (Report.of (sel.pick d)).Raises e := by
  rintro ⟨he, hnone⟩
  rw [Report.result_of] at he
  unfold pick at he
  split at he
  · cases he
  · unfold checkIndex at he
    split at he
    · cases he
    · cases he
      cases hnone

/-- The position of the match index has more digits than can be written. -/
def IsLong (sel : Selector) : Prop :=
  ∃ k, sel.matchIndex = some k ∧ 4300 < (Text.ofNat (k + 1)).length

theorem not_isLong_iff :
    ¬ sel.IsLong ↔ ∀ k, sel.matchIndex = some k → (Text.ofNat (k + 1)).length ≤ 4300 := by
  simp [IsLong]

theorem pathText_of_isLong (h : sel.IsLong) (scope : Scope) :
    sel.pathText scope = .error .longText := by
  obtain ⟨k, hk, hlong⟩ := h
  have habs : ((k : Int) + 1).natAbs = k + 1 := by omega
  rw [pathText, hk]
  simp only [shownInteger, habs, if_pos hlong]
  rfl

/-- **Compiling** a selector raises a fault when the position cannot be written. -/
theorem raises_compile_iff {scope : Scope} :
    (sel.compile scope).Raises e ↔ sel.predicates ≠ [] ∧ sel.IsLong ∧ e = .longText := by
  by_cases hne : sel.predicates = []
  · have hempty : sel.isEmpty = true := by rw [isEmpty, hne]; rfl
    rw [compile, if_pos hempty]
    constructor
    · intro h
      exact absurd h (Report.not_raises_fail (by simp [Service.status?]))
    · rintro ⟨h, -⟩
      exact absurd hne h
  · by_cases hlong : sel.IsLong
    · have hempty : sel.isEmpty = false := by rw [isEmpty]; simpa using hne
      rw [compile, hempty, pathText_of_isLong hlong]
      constructor
      · rintro ⟨he, -⟩
        exact ⟨hne, hlong, (Except.error.inj he).symm⟩
      · rintro ⟨-, -, rfl⟩
        exact ⟨rfl, rfl⟩
    · obtain ⟨t, ht, -⟩ := exists_pathText_mem_of_short (not_isLong_iff.mp hlong) scope
      constructor
      · exact fun h => absurd h (Report.not_raises_of_ok (Snapshot.result_compile hne ht))
      · rintro ⟨-, h, -⟩
        exact absurd h hlong

end Selector

/-! ## Queries -/

/-- **A query that cannot be run as a path expression** in a scope, and the fault that it raises:
its position cannot be written, or there is a character that no path expression can have. Of the
latter, a legal value has U+FFFE and U+FFFF at most. -/
inductive Query.Unwritable (scope : Scope) : Query → Fault → Prop where
  | position {sel : Selector} (nonempty : sel.predicates ≠ []) (long : sel.IsLong) :
    Unwritable scope (.selector sel) .longText
  | value {sel : Selector} {p : Predicate} (short : ¬ sel.IsLong) (mem : p ∈ sel.predicates)
    (char : '\ufffe' ∈ p.value ∨ '\uffff' ∈ p.value) : Unwritable scope (.selector sel) .notXmlText
  | path {t : Text} (nonempty : (Text.trim t).isEmpty = false)
    (fits : scope.isDocument = true ∨ isRelativePath t = true)
    (char : t.all Xml.isXmlChar = false) : Unwritable scope (.path t) .notXmlText

namespace Snapshot

variable {s : Snapshot} {q : Query} {scope : Scope} {e : Fault}

theorem raises_evaluatePath_iff {path : Text} {context : Option Address} {origin : Path}
    (horigin : s.contextPath context = .ok origin) :
    (s.evaluatePath path context).Raises e ↔
      path.all Xml.isXmlChar = false ∧ e = .notXmlText := by
  rw [evaluatePath, Report.raises_bind_of_ok horigin]
  cases path.all Xml.isXmlChar with
  | false =>
      refine (Report.raises_fail_iff rfl).trans ?_
      rw [eq_self, true_and]
  | true =>
      refine iff_of_false ?_ (by simp)
      -- what is written in legal characters has a value, or is refused as no expression
      rw [Bool.not_true, if_neg Bool.false_ne_true]
      split
      · exact Report.not_raises_fail rfl
      · exact Report.not_raises_pure _
      · exact Report.not_raises_of_ok rfl

/-- What a compiled query raises depends on its text alone, unless the scope refuses it. -/
theorem raises_runPath_of_compile {c : PathQuery} {origin : Path}
    (hcompile : (compileQuery scope q).result = .ok c) (hcontext : c.context = scope.context)
    (horigin : s.contextPath scope.context = .ok origin) :
    (s.runPath q scope).Raises e ↔
      (scope.isDocument = true ∨ c.absolute = false) ∧ c.path.all Xml.isXmlChar = false ∧
        e = .notXmlText := by
  have hor : scope.context.or c.context = scope.context := by
    rw [hcontext]
    cases scope.context <;> rfl
  have hrefused : (scope.context.isSome && c.absolute) = true ↔
      ¬ (scope.isDocument = true ∨ c.absolute = false) := by
    rw [Scope.isDocument]
    cases scope.context <;> simp
  rw [runPath, Report.raises_bind_of_ok hcompile]
  simp only [hor]
  split
  · next h => exact iff_of_false (Report.not_raises_fail rfl) fun hall => hrefused.mp h hall.1
  · next h =>
    rw [hrefused, Decidable.not_not] at h
    rw [Report.raises_bind_iff, raises_evaluatePath_iff horigin]
    constructor
    · rintro (hall | ⟨found, -, hrest⟩)
      · exact ⟨h, hall⟩
      · -- nothing is raised once there is a value
        split at hrest
        · exact absurd hrest (Report.not_raises_fail rfl)
        · exact absurd hrest (Report.not_raises_of_ok rfl)
    · exact fun hall => Or.inl hall.2

/-- The path text of a selector has a character that path text cannot have when a value has one. -/
theorem all_pathText_eq_false_iff {sel : Selector} (hshort : ¬ sel.IsLong) {t : Text}
    (ht : sel.pathText scope = .ok t) :
    t.all Xml.isXmlChar = false ↔
      ∃ p ∈ sel.predicates, '\ufffe' ∈ p.value ∨ '\uffff' ∈ p.value := by
  have hposition := Selector.not_isLong_iff.mp hshort
  constructor
  · intro hall
    apply Classical.byContradiction
    intro hnone
    have hsel : sel.IsWritable := by
      refine ⟨hposition, ?_⟩
      intro p hp
      rw [← not_or]
      exact fun hc => hnone ⟨p, hp, hc⟩
    obtain ⟨t', ht', hall', -⟩ := Selector.exists_pathText hsel scope
    rw [ht] at ht'
    cases ht'
    rw [hall] at hall'
    cases hall'
  · rintro ⟨p, hp, hvalue⟩
    obtain ⟨t', ht', hmem⟩ := Selector.exists_pathText_mem_of_short hposition scope
    rw [ht] at ht'
    cases ht'
    rw [List.all_eq_false]
    rcases hvalue with hc | hc
    · exact ⟨'\ufffe', hmem p hp _ hc (by decide), by decide⟩
    · exact ⟨'\uffff', hmem p hp _ hc (by decide), by decide⟩

theorem raises_runPath_selector {sel : Selector} {origin : Path}
    (horigin : s.contextPath scope.context = .ok origin) :
    (s.runPath (.selector sel) scope).Raises e ↔ (Query.selector sel).Unwritable scope e := by
  by_cases hcompile : sel.predicates ≠ [] ∧ ¬ sel.IsLong
  · obtain ⟨hne, hshort⟩ := hcompile
    obtain ⟨t, ht, -⟩ :=
      Selector.exists_pathText_mem_of_short (Selector.not_isLong_iff.mp hshort) scope
    rw [raises_runPath_of_compile (q := .selector sel) (result_compile hne ht) rfl horigin,
      all_pathText_eq_false_iff hshort ht]
    constructor
    · rintro ⟨-, ⟨p, hp, hvalue⟩, rfl⟩
      exact .value hshort hp hvalue
    · intro h
      cases h with
      | position nonempty long => exact absurd long hshort
      | value short mem char =>
          refine ⟨?_, ⟨_, mem, char⟩, rfl⟩
          cases scope.isDocument with
          | true => exact Or.inl rfl
          | false => exact Or.inr rfl
  · -- a selector that is not compiled raises what its compilation raises
    rw [runPath, Report.raises_bind_iff]
    constructor
    · rintro (h | ⟨c, hc, -⟩)
      · obtain ⟨hne, hlong, rfl⟩ := Selector.raises_compile_iff.mp h
        exact .position hne hlong
      · obtain ⟨hne, ht, -⟩ := Selector.eq_of_compile hc
        refine absurd ⟨hne, fun hlong => ?_⟩ hcompile
        rw [Selector.pathText_of_isLong hlong] at ht
        cases ht
    · intro h
      refine Or.inl (Selector.raises_compile_iff.mpr ?_)
      cases h with
      | position nonempty long => exact ⟨nonempty, long, rfl⟩
      | value short mem char => exact absurd ⟨List.ne_nil_of_mem mem, short⟩ hcompile

theorem raises_runPath_path {t : Text} {origin : Path}
    (horigin : s.contextPath scope.context = .ok origin) :
    (s.runPath (.path t) scope).Raises e ↔ (Query.path t).Unwritable scope e := by
  cases hblank : (Text.trim t).isEmpty with
  | true =>
      have hrefused : compileQuery scope (.path t) =
          Report.fail (.malformed .blankPath (some t)) := if_pos hblank
      refine iff_of_false ?_ ?_
      · rw [runPath, hrefused, Report.raises_bind_iff]
        rintro (h | ⟨c, hc, -⟩)
        · exact Report.not_raises_fail rfl h
        · cases hc
      · intro h
        cases h with
        | path nonempty fits char =>
            rw [hblank] at nonempty
            cases nonempty
  | false =>
      have hcompile : (compileQuery scope (.path t)).result =
          .ok (PathQuery.ofPath t scope.context) := by
        rw [compileQuery, hblank]
        rfl
      have habsolute : (PathQuery.ofPath t scope.context).absolute = false ↔
          isRelativePath t = true := by
        rw [PathQuery.ofPath, Bool.not_eq_false']
      rw [raises_runPath_of_compile hcompile rfl horigin, habsolute]
      constructor
      · rintro ⟨hfits, hall, rfl⟩
        exact .path hblank hfits hall
      · intro h
        cases h with
        | path nonempty fits char => exact ⟨fits, char, rfl⟩

/-- Matching directly raises nothing: nothing has to be written. -/
theorem not_raises_runOutline {sel : Selector} {origin : Path}
    (horigin : s.contextPath scope.context = .ok origin) :
    ¬ (s.runOutline (.selector sel) scope).Raises e := by
  rw [runOutline]
  split
  · exact Report.not_raises_fail rfl
  · have hfound : ∃ found,
        s.searchTags (fun t => sel.admits t.get?) scope.context = .ok found := by
      rw [searchTags, horigin]
      exact ⟨_, rfl⟩
    obtain ⟨found, hfound⟩ := hfound
    rw [hfound, Report.raises_bind_of_ok rfl]
    exact Report.not_raises_of_ok rfl

end Snapshot

/-- A query that a request can ask for on a route: a selector, or a path expression on the route of
path expressions. -/
inductive Query.IsAsked (route : Route) : Query → Prop where
  | selector (sel : Selector) : IsAsked route (.selector sel)
  | path (t : Text) (own : route = .path) : IsAsked route (.path t)

namespace Snapshot

variable {s : Snapshot} {route : Route} {q : Query} {scope : Scope} {origin : Path} {e : Fault}

theorem raises_run_iff (hq : q.IsAsked route) (horigin : s.contextPath scope.context = .ok origin) :
    (s.run route q scope).Raises e ↔ route = .path ∧ q.Unwritable scope e := by
  cases route with
  | outline =>
      refine iff_of_false ?_ (by rintro ⟨h, -⟩; cases h)
      cases hq with
      | selector sel => exact not_raises_runOutline horigin
      | path t own => cases own
  | path =>
      rw [run, eq_self, true_and]
      cases hq with
      | selector sel => exact raises_runPath_selector horigin
      | path t own => exact raises_runPath_path horigin

/-- **Which queries raise a fault.** Those on the path route that cannot be written, in any snapshot
and in any scope whose node is there. -/
theorem raises_findAll_iff (hq : q.IsAsked route)
    (horigin : s.contextPath scope.context = .ok origin) :
    (s.findAll route q scope).Raises e ↔ route = .path ∧ q.Unwritable scope e := by
  rw [findAll, Report.raises_bind_iff, raises_run_iff hq horigin]
  refine or_iff_left ?_
  rintro ⟨found, -, h⟩
  exact Report.not_raises_pure _ h

theorem raises_findOne_iff (hq : q.IsAsked route)
    (horigin : s.contextPath scope.context = .ok origin) :
    (s.findOne route q scope).Raises e ↔ route = .path ∧ q.Unwritable scope e := by
  rw [findOne, Report.raises_bind_iff, raises_findAll_iff hq horigin]
  refine or_iff_left ?_
  rintro ⟨found, -, h⟩
  split at h
  · exact Report.not_raises_fail rfl h
  · exact Report.not_raises_pure _ h

/-- Below a node of the snapshot the scope is there. -/
theorem raises_findChildren_iff (hq : q.IsAsked route) {parent : Node}
    (hparent : parent.snapshot = s) :
    (s.findChildren route q parent).Raises e ↔
      route = .path ∧ q.Unwritable (Scope.descendantsOf parent.path.address) e := by
  have hcompiled : ∀ path own, q ≠ .compiled ⟨path, true, own⟩ := by
    rintro path own rfl
    cases hq
  have hnode : ∀ p, some parent.path = some p → (s.node? p).isSome = true := by
    rintro p ⟨⟩
    subst hparent
    rw [isSome_node?, parent.located]
    rfl
  have horigin : s.contextPath (Scope.descendantsOf parent.path.address).context =
      .ok parent.path := contextPath_address hnode
  rw [findChildren_eq (congrArg version hparent) hcompiled, Report.raises_bind_iff,
    raises_findAll_iff hq horigin]
  refine or_iff_left ?_
  rintro ⟨found, -, h⟩
  split at h
  · exact Report.not_raises_fail rfl h
  · exact Report.not_raises_pure _ h

end Snapshot

end UiTree
