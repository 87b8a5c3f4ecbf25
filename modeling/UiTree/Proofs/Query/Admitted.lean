import UiTree.Proofs.Query.PathRoute
import UiTree.Proofs.XPath.Ordered

/-!
# UiTree.Proofs.Query.Admitted -- which selectors the path route takes

The values of predicates are checked when a selector is made, and the text of a path expression is
checked again before it is evaluated. The first check is meant to keep out everything that the second
would refuse, but leaves two characters in: U+FFFE and U+FFFF. A selector with one of them is legal
and matches natively, and is refused as a path expression whatever the snapshot holds.

* **Main statement.** `findAll_admitted`: without these two characters a selector finds something or
  nothing, in a snapshot of any size, but does not fail; with one of them it always fails.
-/

namespace UiTree

open XPath

/-! ## Characters of the path text -/

theorem Text.mem_join {sep t : Text} {ts : List Text} {c : Char} (ht : t ∈ ts) (hc : c ∈ t) :
    c ∈ Text.join sep ts := by
  induction ts using pieceLiterals.induct with
  | case1 => cases ht
  | case2 u =>
      obtain rfl := List.mem_singleton.mp ht
      exact hc
  | case3 u v ts ih =>
      rw [Text.join, List.mem_append, List.mem_append]
      rcases List.mem_cons.mp ht with rfl | ht
      · exact Or.inl (Or.inl hc)
      · exact Or.inr (ih ht)

/-- A joined text has only the characters of its pieces and of the separator. -/
theorem Text.exists_mem_of_mem_join {sep : Text} {ts : List Text} {c : Char} (hsep : c ∉ sep)
    (h : c ∈ Text.join sep ts) : ∃ t ∈ ts, c ∈ t := by
  induction ts using pieceLiterals.induct with
  | case1 => cases h
  | case2 u => exact ⟨u, List.mem_cons_self, h⟩
  | case3 u v ts ih =>
      rw [Text.join, List.mem_append, List.mem_append] at h
      rcases h with (h | h) | h
      · exact ⟨u, List.mem_cons_self, h⟩
      · exact absurd h hsep
      · obtain ⟨t, ht, hc⟩ := ih h
        exact ⟨t, List.mem_cons_of_mem u ht, hc⟩

theorem Text.exists_piece_of_mem {sep c : Char} {t : Text} (hc : c ∈ t) (hne : c ≠ sep) :
    ∃ p ∈ Text.pieces sep t, c ∈ p := by
  rw [← Text.join_pieces sep t] at hc
  exact Text.exists_mem_of_mem_join (by simpa using hne) hc

/-- All characters of a value are in its literal; the quotes are, too, but need no mention here. -/
theorem mem_pathLiteral {value : Text} {c : Char} (hc : c ∈ value) (hquote : c ≠ '\'') :
    c ∈ pathLiteral value := by
  have hsingle : ∀ t : Text, c ∈ t → c ∈ singleQuoted t := by
    intro t ht
    rw [singleQuoted, List.mem_append, List.mem_cons]
    exact Or.inl (Or.inr ht)
  rw [pathLiteral]
  split
  · obtain ⟨p, hp, hcp⟩ := Text.exists_piece_of_mem hc hquote
    rw [List.mem_append, List.mem_append]
    apply Or.inl
    apply Or.inr
    exact Text.mem_join (List.mem_map_of_mem hp) (hsingle p hcp)
  · exact hsingle value hc

theorem Predicate.mem_pathText {p : Predicate} {c : Char} (hc : c ∈ p.value) (hquote : c ≠ '\'') :
    c ∈ p.pathText := by
  have hliteral := mem_pathLiteral hc hquote
  have hpadded : c ∈ pathLiteral (padded p.value) := by
    apply mem_pathLiteral _ hquote
    rw [padded, List.mem_append, List.mem_cons]
    exact Or.inl (Or.inr hc)
  rw [Predicate.pathText]
  cases p.operator with
  | contains =>
      dsimp only
      split
      · simp only [List.mem_append, hpadded, or_true, true_or]
      · simp only [List.mem_append, List.mem_cons, hliteral, or_true, true_or]
  | _ => simp only [List.mem_append, List.mem_cons, hliteral, or_true, true_or]

namespace Selector

/-- Positions with at most eighteen digits, and many more, can be written. -/
theorem length_ofNat_le {k : Nat} (hk : k < 1_000_000_000_000_000_000) : (Text.ofNat (k + 1)).length ≤ 4300 := by
  have hlength : (Text.ofNat (k + 1)).length ≤ 19 := by
    apply (Nat.length_toDigits_le_iff (by omega) (by omega)).mpr
    omega
  omega

/-- The path text of a selector whose position can be written has all characters of its values. -/
theorem exists_pathText_mem_of_short {sel : Selector}
    (hshort : ∀ k, sel.matchIndex = some k → (Text.ofNat (k + 1)).length ≤ 4300) (scope : Scope) :
    ∃ t, sel.pathText scope = .ok t ∧
      ∀ p ∈ sel.predicates, ∀ c ∈ p.value, c ≠ '\'' → c ∈ t := by
  have hbody : ∀ p ∈ sel.predicates, ∀ c ∈ p.value, c ≠ '\'' → c ∈ sel.bodyText scope := by
    intro p hp c hc hquote
    rw [bodyText, List.mem_append]
    exact Or.inr (List.mem_flatMap.mpr ⟨p, hp, Predicate.mem_pathText hc hquote⟩)
  cases hk : sel.matchIndex with
  | none => exact ⟨_, pathText_of_none hk scope, hbody⟩
  | some k =>
      refine ⟨_, pathText_of_some hk (hshort k hk) scope, ?_⟩
      intro p hp c hc hquote
      simp only [List.mem_append, List.mem_cons, hbody p hp c hc hquote, or_true, true_or]

theorem exists_pathText_mem {sel : Selector}
    (hindex : ∀ k, sel.matchIndex = some k → k < 1_000_000_000_000_000_000) (scope : Scope) :
    ∃ t, sel.pathText scope = .ok t ∧
      ∀ p ∈ sel.predicates, ∀ c ∈ p.value, c ≠ '\'' → c ∈ t :=
  exists_pathText_mem_of_short (fun k hk => length_ofNat_le (hindex k hk)) scope

end Selector

/-! ## Positions in large snapshots -/

/-- A number filters any group of places, however many there are. -/
theorem exists_evaluate_filter {s : Site} {f : Focus} {e : Expr} {ps : List Place} (x : Binary64)
    (he : evaluate s f e = some (.places ps)) :
    ∃ qs, evaluate s f (.filter (.group e) (.number x)) = some (.places qs) ∧ qs.Sublist ps := by
  rw [evaluate, he]
  simp only [Option.bind_eq_bind, Option.bind_some, isLast, Value.places?, Bool.false_eq_true,
    if_false]
  split
  · exact ⟨ps.take 1, rfl, List.take_sublist 1 ps⟩
  · obtain ⟨qs, hqs⟩ : ∃ qs, keepWith (fun g => evaluate s g (.number x)) ps = some qs :=
      ⟨_, keepWith_eq (v := fun _ => .number x) fun _ _ => by rw [evaluate]⟩
    rw [hqs]
    exact ⟨qs, rfl, keepWith_sublist hqs⟩

theorem Selector.exists_evaluate_expr {sel : Selector} {s : Site} {f : Focus} {scope : Scope}
    {ps : List Place} (hps : evaluate s f (sel.bodyExpr scope) = some (.places ps)) :
    ∃ qs, evaluate s f (sel.expr scope) = some (.places qs) ∧ qs.Sublist ps := by
  rw [Selector.expr]
  cases sel.matchIndex with
  | none => exact ⟨ps, hps, List.Sublist.refl ps⟩
  | some k => exact exists_evaluate_filter _ hps

namespace Snapshot

variable {s : Snapshot} {sel : Selector} {context : Option Path}

/-- The path route finds nodes for every selector that can be written; how many of them the position
leaves is not said, since large numbers run together. -/
theorem exists_findAll_of_isWritable (hs : s.IsSound) (hne : sel.predicates ≠ [])
    (hsel : sel.IsWritable) (hcontext : ∀ q, context = some q → (s.node? q).isSome = true) :
    ∃ ns, (s.findAll .path (.selector sel) ⟨context.map Path.address⟩).result = .ok ns := by
  obtain ⟨t, ht, hall, hread⟩ := Selector.exists_pathText hsel ⟨context.map Path.address⟩
  obtain ⟨c, ps, htrail, hps, -, hpaths⟩ := exists_places sel hs hcontext
  obtain ⟨qs, hqs, hsub⟩ := Selector.exists_evaluate_expr hps
  have hfound := evaluatePath_places hcontext hall hread htrail hqs
  have hrun := runPath_of_evaluatePath hne ht hfound ?_
  · exact ⟨_, Report.result_bind_of_ok hrun⟩
  · -- what the position leaves is among the matches, which are in the scope
    intro p hp
    have hmem : p ∈ s.matching sel context := by
      rw [← hpaths]
      exact (hsub.filterMap _).subset (List.mem_mergeSort.mp hp)
    exact (mem_matching_iff.mp hmem).1

/-- The path route refuses a selector whose text has a character that path text cannot hold. -/
theorem findAll_of_notXmlText (hne : sel.predicates ≠ [])
    (hcontext : ∀ q, context = some q → (s.node? q).isSome = true) {t : Text}
    (ht : sel.pathText ⟨context.map Path.address⟩ = .ok t) (hall : t.all Xml.isXmlChar = false) :
    (s.findAll .path (.selector sel) ⟨context.map Path.address⟩).result =
      .error .notXmlText := by
  have hevaluate : (s.evaluatePath t (context.map Path.address)).result = .error .notXmlText := by
    rw [evaluatePath, Report.result_bind_of_ok (contextPath_address hcontext), hall]
    rfl
  refine Report.result_bind_of_error ?_
  rw [run, runPath, compileQuery, Report.result_bind_of_ok (result_compile hne ht)]
  cases context with
  | none => exact Report.result_bind_of_error hevaluate
  | some q => exact Report.result_bind_of_error hevaluate

/-- **Which selectors the path route takes.** In a built snapshot and in the scope of the document or
of a node that is there, a selector with predicates and a moderate match index finds a list of nodes
when no value holds U+FFFE or U+FFFF. When a value does, the selector fails everywhere. -/
theorem findAll_admitted {version : Nat} {source : Option Text}
    (hs : (Snapshot.build version source).result = .ok s) (hne : sel.predicates ≠ [])
    (hindex : ∀ k, sel.matchIndex = some k → k < 1_000_000_000_000_000_000)
    (hcontext : ∀ q, context = some q → (s.node? q).isSome = true) :
    ((∀ p ∈ sel.predicates, '\ufffe' ∉ p.value ∧ '\uffff' ∉ p.value) →
        ∃ ns, (s.findAll .path (.selector sel) ⟨context.map Path.address⟩).result = .ok ns) ∧
      ((∃ p ∈ sel.predicates, '\ufffe' ∈ p.value ∨ '\uffff' ∈ p.value) →
        (s.findAll .path (.selector sel) ⟨context.map Path.address⟩).result =
          .error .notXmlText) := by
  constructor
  · intro hvalues
    have hsel : sel.IsWritable :=
      ⟨fun k hk => Selector.length_ofNat_le (hindex k hk), hvalues⟩
    exact exists_findAll_of_isWritable (isSound_of_build hs) hne hsel hcontext
  · rintro ⟨p, hp, hvalue⟩
    obtain ⟨t, ht, hmem⟩ := Selector.exists_pathText_mem hindex ⟨context.map Path.address⟩
    apply findAll_of_notXmlText hne hcontext ht
    rw [List.all_eq_false]
    rcases hvalue with hc | hc
    · exact ⟨'\ufffe', hmem p hp _ hc (by decide), by decide⟩
    · exact ⟨'\uffff', hmem p hp _ hc (by decide), by decide⟩

/-- Below the second child of the root the search for the quoted text, with an index, does not
fail. -/
theorem findAll_admitted_quoted :
    ∃ s : Snapshot, (Snapshot.build 1 (some quotedDump)).result = .ok s ∧
      ∃ sel : Selector, sel.predicates.map Predicate.value = ["it's".toList] ∧
        ∃ ns, (s.findAll .path (.selector sel) ⟨(some [1]).map Path.address⟩).result = .ok ns := by
  have hbuild : (Snapshot.build 1 (some quotedDump)).result.toOption.any
      (fun s => (s.node? [1]).isSome) = true := by
    decide +kernel
  obtain ⟨s, hs, hnode⟩ := exists_of_any_toOption hbuild
  refine ⟨s, hs, ⟨[⟨.text, .contains, "it's".toList, by decide⟩], some 7⟩, rfl, ?_⟩
  refine (findAll_admitted hs (by simp) ?_ ?_).1 ?_
  · intro k hk
    cases hk
    decide
  · intro q hq
    cases hq
    exact hnode
  · intro p hp
    obtain rfl := List.mem_singleton.mp hp
    decide

/-- The text of an element, looked for with a value that is legal and that no element can have. -/
def uncarried : Selector := ⟨[⟨.text, .equals, ['\ufffe'], by decide⟩], none⟩

/-- **A legal selector that cannot be queried**: natively it finds nothing, as it has to, and as a
path expression it fails. -/
theorem findAll_uncarried :
    ∃ s : Snapshot, (Snapshot.build 1 (some "<h/>".toList)).result = .ok s ∧
      (s.findAll .outline (.selector uncarried) .document).result.toOption.map List.length =
        some 0 ∧
      (s.findAll .path (.selector uncarried) .document).result = .error .notXmlText := by
  have hbuild : (Snapshot.build 1 (some "<h/>".toList)).result.toOption.any (fun s =>
      decide ((s.findAll .outline (.selector uncarried) .document).result.toOption.map List.length =
        some 0)) = true := by
    decide +kernel
  obtain ⟨s, hs, hnative⟩ := exists_of_any_toOption hbuild
  refine ⟨s, hs, of_decide_eq_true hnative, ?_⟩
  have hall : (uncarried.bodyText .document).all Xml.isXmlChar = false := by decide
  have hcontext : ∀ q, (none : Option Path) = some q → (s.node? q).isSome = true := nofun
  have htext := Selector.pathText_of_none (show uncarried.matchIndex = none from rfl) .document
  have hfails := findAll_of_notXmlText (by simp [uncarried]) hcontext htext hall
  exact hfails

end Snapshot

end UiTree
