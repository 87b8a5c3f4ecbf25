import UiTree.Proofs.Xml.Accepted

/-!
# UiTree.Proofs.Xml.Scoping -- namespaces are declared around their use

A qualifier stands for the namespace that it is bound to where it is used: in the start tag itself
or in one of those around it. An accepted document can be read the other way round as well. Whatever
namespace an attribute belongs to, the start tags from the root down to its own declare it for some
qualifier; the namespace of `xml:` alone needs no declaration.

* **Scopes.** `scopeAt` are the declarations in force inside an element, the innermost one first.
* **The invariant.** `Builder.Scoped` holds of a builder before and after every token: each open
  element has the scope that the start tags around it make, and everything inside of it is bound in
  that scope.
* **Main statement.** `isBound_of_readAs`: all attributes of an accepted document are bound.
-/

namespace UiTree.Xml

open Node (elementTree? elementTrees)

/-! ## Scopes -/

/-- The declarations in force inside a start tag. -/
def Opening.enter (outer : List Binding) (o : Opening) : List Binding := o.bindings.reverse ++ outer

/-- The declarations in force inside the element at a path, the innermost one first. -/
def scopeAt (outer : List Binding) : Path → Tree Opening → List Binding
  | [], t => t.label.enter outer
  | i :: p, .node o ts =>
    match ts[i]? with
    | some t => scopeAt (o.enter outer) p t
    | none => outer

/-- Every namespace of an attribute is declared for a qualifier in the scope, that of `xml:`
apart. -/
def Opening.IsBound (scope : List Binding) (o : Opening) : Prop :=
  ∀ a ∈ o.attributes, ∀ u, a.name.uri = some u → u = xmlNamespace ∨ ∃ q, ⟨some q, u⟩ ∈ scope

/-- The attributes of all elements of a tree are bound in their scopes. -/
def IsBoundIn (outer : List Binding) (t : Tree Opening) : Prop :=
  ∀ p u, t.at? p = some u → u.label.IsBound (scopeAt outer p t)

theorem isBoundIn_node {outer : List Binding} {o : Opening} {ts : List (Tree Opening)} :
    IsBoundIn outer (.node o ts) ↔
      o.IsBound (o.enter outer) ∧ ∀ t ∈ ts, IsBoundIn (o.enter outer) t := by
  constructor
  · intro h
    refine ⟨h [] _ (Tree.at?_nil _), ?_⟩
    intro t ht p u hu
    obtain ⟨i, hi⟩ := List.mem_iff_getElem?.mp ht
    have hchild := h (i :: p) u (by rw [Tree.at?_cons, hi]; exact hu)
    rw [scopeAt, hi] at hchild
    exact hchild
  · rintro ⟨ho, hts⟩ p u hu
    cases p with
    | nil =>
        rw [Tree.at?_nil] at hu
        cases hu
        exact ho
    | cons i p =>
        rw [Tree.at?_cons] at hu
        obtain ⟨t, hi, hu⟩ := Option.bind_eq_some_iff.mp hu
        rw [scopeAt, hi]
        exact hts t (List.mem_of_getElem? hi) p u hu

namespace Builder

/-! ## Start tags -/

/-- A namespace that is looked up by its qualifier is declared for it. -/
theorem mem_of_lookup {scope : List Binding} {q : Option Text} {u : Text}
    (h : lookup scope q = some u) : ⟨q, u⟩ ∈ scope := by
  obtain ⟨⟨q', u'⟩, hfind, hu⟩ := Option.map_eq_some_iff.mp h
  have hq : q' = q := by
    simpa using List.find?_some hfind
  cases hu
  cases hq
  exact List.mem_of_find?_eq_some hfind

/-- An attribute gets its namespace from its qualifier. -/
theorem bound_of_expand {scope : List Binding} {n : WrittenName} {u : Text}
    (h : (expand scope n false).1.uri = some u) : u = xmlNamespace ∨ ∃ q, ⟨some q, u⟩ ∈ scope := by
  rw [expand] at h
  split at h
  · cases h
  · next q hq =>
    split at h
    · cases h
      exact Or.inl rfl
    · split at h
      · next v hv =>
        cases h
        exact Or.inr ⟨q, mem_of_lookup hv⟩
      · cases h

theorem bound_of_expandAttributes {scope : List Binding} {as : List (WrittenName × Text)}
    {acc : List (Text × Attr)} {notices notices' : List Notice} {attrs : List Attr}
    (h : expandAttributes scope as acc notices = some (attrs, notices'))
    (hacc : ∀ a ∈ acc, ∀ u, a.2.name.uri = some u → u = xmlNamespace ∨ ∃ q, ⟨some q, u⟩ ∈ scope) :
    ∀ a ∈ attrs, ∀ u, a.name.uri = some u → u = xmlNamespace ∨ ∃ q, ⟨some q, u⟩ ∈ scope := by
  induction as generalizing acc notices with
  | nil =>
      cases h
      intro a ha
      obtain ⟨e, he, rfl⟩ := List.mem_map.mp ha
      exact hacc e he
  | cons a as ih =>
      obtain ⟨n, value⟩ := a
      rw [expandAttributes] at h
      dsimp only at h
      split at h
      · cases h
      · refine ih h ?_
        intro e he
        rcases List.mem_append.mp he with he | he
        · exact hacc e he
        · rw [List.mem_singleton.mp he]
          exact fun u hu => bound_of_expand hu

/-! ## The invariant -/

/-- The scope that the innermost open element makes. -/
def scopeOf : List OpenElement → List Binding
  | [] => []
  | e :: _ => e.scope

/-- Open elements, each inside of the next one: their scopes are those of the start tags around
them, in which their attributes and contents are bound. -/
inductive Nested : List OpenElement → Prop where
  | nil : Nested []
  | cons {e : OpenElement} {rest : List OpenElement}
    (scope : e.scope = e.opening.enter (scopeOf rest)) (bound : e.opening.IsBound e.scope)
    (inside : ∀ t ∈ elementTrees e.content, IsBoundIn e.scope t) (outside : Nested rest) :
    Nested (e :: rest)

/-- **The invariant**: what is finished is bound without any scope, and what is open is nested. -/
structure Scoped (b : Builder) : Prop where
  finished : ∀ t ∈ elementTrees b.done, IsBoundIn [] t
  opened : Nested b.stack

theorem Scoped.noteAll {b : Builder} (h : b.Scoped) (ns : List Notice) : (b.noteAll ns).Scoped := by
  induction ns generalizing b with
  | nil => exact h
  | cons n ns ih => exact ih (b := b.note n) ⟨h.finished, h.opened⟩

/-- A node goes into the innermost open element, where its elements must be bound. -/
theorem Scoped.add {b : Builder} (h : b.Scoped) {n : Node}
    (hn : ∀ t, elementTree? n = some t → IsBoundIn (scopeOf b.stack) t) : (b.add n).Scoped := by
  rw [Builder.add]
  split
  · next hstack =>
    rw [hstack] at hn
    exact ⟨forall_elementTrees_append.mpr ⟨hn, h.finished⟩, h.opened⟩
  · next e rest hstack =>
    have hopened := h.opened
    rw [hstack] at hn hopened
    cases hopened with
    | cons scope bound inside outside =>
        refine ⟨h.finished, .cons scope bound ?_ outside⟩
        exact forall_elementTrees_append.mpr ⟨hn, inside⟩

theorem Scoped.closeElement {b b' : Builder} (h : b.Scoped) {name : Text}
    (hclose : b.closeElement name = some b') : b'.Scoped := by
  rw [Builder.closeElement] at hclose
  split at hclose
  · cases hclose
  · next e rest hstack =>
    split at hclose
    · cases hclose
      have hopened := h.opened
      rw [hstack] at hopened
      cases hopened with
      | cons scope bound inside outside =>
          refine Scoped.add (b := { b with stack := rest }) ⟨h.finished, outside⟩ ?_
          intro t ht
          rw [elementTree?, Option.some.injEq] at ht
          rw [← ht, isBoundIn_node, elementTrees_reverse, ← scope]
          refine ⟨bound, ?_⟩
          intro u hu
          exact inside u (List.mem_reverse.mp hu)
    · cases hclose

theorem Scoped.openElement {b b' : Builder} (h : b.Scoped) {d : Doctype} {n : WrittenName}
    {attributes : List WrittenAttribute} (hopen : b.openElement d n attributes = some b') :
    b'.Scoped := by
  rw [Builder.openElement] at hopen
  split at hopen
  · cases hopen
  · split at hopen
    · cases hopen
    · simp only [Option.bind_eq_bind, Option.bind_eq_some_iff] at hopen
      obtain ⟨sorted, -, ⟨attrs, notices⟩, hattrs, hopen⟩ := hopen
      have hbound := bound_of_expandAttributes hattrs (List.forall_mem_nil _)
      cases hopen
      -- the notices of a start tag change nothing that the invariant speaks of
      refine ⟨(((h.noteAll _).noteAll _).noteAll _).finished, ?_⟩
      simp only [noteAll_stack]
      refine .cons ?_ hbound (List.forall_mem_nil _) h.opened
      show sorted.bindings.reverse ++ _ = sorted.bindings.reverse ++ scopeOf b.stack
      cases b.stack <;> rfl

theorem Scoped.run {b b' : Builder} (h : b.Scoped) {d : Doctype} {ks : List Token}
    (hrun : b.run d ks = some b') : b'.Scoped := by
  refine run_keeps h ?_ hrun
  intro b b₁ k _ hb hstep
  refine step_keeps hb ?_ ?_ ?_ ?_ hstep
  · intro b n hn hb
    refine hb.add ?_
    intro t ht
    rw [hn] at ht
    cases ht
  · intro b ns hb
    exact hb.noteAll ns
  · intro n attributes closed b₂ _ hopen
    exact hb.openElement hopen
  · intro b name b₂ hb hclose
    exact hb.closeElement hclose

end Builder

/-- **Every attribute of an accepted document is bound** by the start tags around it. -/
theorem isBound_of_readAs {honest : Bool} {t : Text} {d : Document}
    (h : Document.readAs honest t = some d) : ∀ u ∈ elementTrees d.nodes, IsBoundIn [] u := by
  obtain ⟨declaration, body, hbody⟩ := Document.exists_readBody_of_readAs h
  obtain ⟨doctype, known, body, ks, done, notices, b, hdone, -, hrun, -, -, hnodes⟩ :=
    Document.exists_run_of_readBody hbody
  have hb : b.Scoped := by
    refine Builder.Scoped.run (b := { Builder.start with done := done, notices := notices }) ?_ hrun
    refine ⟨?_, .nil⟩
    show ∀ u ∈ elementTrees done, IsBoundIn [] u
    rw [hdone]
    exact nofun
  intro u hu
  rw [hnodes, Builder.elementTrees_reverse, List.mem_reverse] at hu
  exact hb.finished u hu

end UiTree.Xml
