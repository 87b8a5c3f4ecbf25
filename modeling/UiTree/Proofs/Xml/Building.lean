import UiTree.Proofs.Tree.Preorder
import UiTree.Proofs.Xml.Opening
import UiTree.Proofs.Xml.Written
import UiTree.Xml.Document

/-!
# UiTree.Proofs.Xml.Building -- what building a document keeps

A builder takes tokens one by one, and closes and opens elements as they say. All along the names of
attributes without a namespace are distinct in each start tag, and there is at most one element at
the top.

* **Attributes.** `IsExpanded` holds of the attributes of a start tag while they get their names; it
  makes them distinct.
* **Tokens.** `step_keeps` and `run_keeps` reduce what a token, and a row of them, keeps to what the
  four operations of a builder keep.
* **The invariant.** `Builder.Sound` holds of a builder before and after every token: `Sound.step`
  for one token, `Sound.run` for all of them.
-/

namespace UiTree.Xml

open Node (elementTree? elementTrees)

/-! ## Attributes -/

namespace Builder

theorem isSound_of_sortAttributes {special : Text → Bool} {as : List WrittenAttribute}
    {acc sorted : Attributes} (h : sortAttributes special as acc = some sorted)
    (has : ∀ a ∈ as, a.name.IsSound) (hacc : ∀ e ∈ acc.plain, e.1.IsSound) :
    ∀ e ∈ sorted.plain, e.1.IsSound := by
  induction as generalizing acc with
  | nil =>
      cases h
      exact hacc
  | cons a as ih =>
      have hrest : ∀ a ∈ as, a.name.IsSound := fun b hb => has b (List.mem_cons_of_mem a hb)
      rw [sortAttributes] at h
      dsimp only at h
      split at h
      · split at h
        · exact ih h hrest hacc
        · split at h
          · cases h
          · exact ih h hrest hacc
      · refine ih h hrest ?_
        intro e he
        rcases List.mem_append.mp he with he | he
        · exact hacc e he
        · rw [List.mem_singleton.mp he]
          exact has a List.mem_cons_self

/-- An expanded attribute without a namespace has its name as written as its base. -/
theorem base_expand {scope : List Binding} {n : WrittenName} (hn : n.IsSound)
    (huri : (expand scope n false).1.uri = none) : (expand scope n false).1.base = n.text := by
  rw [expand] at huri ⊢
  split
  · next hq => exact hn hq
  · next q hq =>
    rw [hq] at huri
    dsimp only at huri
    split
    · next hxml =>
      rw [if_pos hxml] at huri
      cases huri
    · next hxml =>
      rw [if_neg hxml] at huri
      split
      · next u hu =>
        rw [hu] at huri
        cases huri
      · rfl

/-- Attributes with the names they were written with: no name twice, and without a namespace the
base is the name. -/
def IsExpanded (acc : List (Text × Attr)) : Prop :=
  (acc.Pairwise fun a b => a.1 ≠ b.1) ∧ ∀ a ∈ acc, a.2.name.uri = none → a.2.name.base = a.1

theorem IsExpanded.distinct {acc : List (Text × Attr)} (h : IsExpanded acc) {name : Name}
    {bindings : List Binding} {ids : List Text} :
    Opening.Distinct ⟨name, acc.map Prod.snd, bindings, ids⟩ := by
  rw [Opening.Distinct, List.pairwise_map]
  refine List.Pairwise.imp_of_mem ?_ h.1
  intro a b ha hb hne hua hub
  rw [h.2 a ha hua, h.2 b hb hub]
  exact hne

theorem isExpanded_of_expandAttributes {scope : List Binding} {as : List (WrittenName × Text)}
    {acc : List (Text × Attr)} {notices notices' : List Notice} {attrs : List Attr}
    (h : expandAttributes scope as acc notices = some (attrs, notices'))
    (has : ∀ a ∈ as, a.1.IsSound) (hacc : IsExpanded acc) :
    ∃ acc', IsExpanded acc' ∧ attrs = acc'.map Prod.snd := by
  induction as generalizing acc notices with
  | nil =>
      cases h
      exact ⟨acc, hacc, rfl⟩
  | cons a as ih =>
      obtain ⟨n, value⟩ := a
      rw [expandAttributes] at h
      dsimp only at h
      split at h
      · cases h
      · next hnew =>
        -- the new name is none of those before it, or the start tag would have been refused
        refine ih h (fun b hb => has b (List.mem_cons_of_mem _ hb)) ⟨?_, ?_⟩
        · rw [List.pairwise_append]
          refine ⟨hacc.1, List.pairwise_singleton _ _, ?_⟩
          intro b hb c hc heq
          rw [List.mem_singleton.mp hc] at heq
          exact hnew (List.any_eq_true.mpr ⟨b, hb, beq_iff_eq.mpr heq⟩)
        · intro b hb
          rcases List.mem_append.mp hb with hb | hb
          · exact hacc.2 b hb
          · rw [List.mem_singleton.mp hb]
            exact base_expand (has (n, value) List.mem_cons_self)

/-! ## Tokens and what they keep -/

/-- A property of builders is kept by a token if it is kept by adding what is no element, by notices,
by the opening that the token asks for, and by closing an element. -/
theorem step_keeps {P : Builder → Prop} {b b' : Builder} {d : Doctype} {k : Token} (hb : P b)
    (hadd : ∀ b n, elementTree? n = none → P b → P (b.add n))
    (hnote : ∀ b ns, P b → P (b.noteAll ns))
    (hopen : ∀ n attributes closed b₁, k = .startTag n attributes closed →
      b.openElement d n attributes = some b₁ → P b₁)
    (hclose : ∀ b name b₁, P b → b.closeElement name = some b₁ → P b₁)
    (hstep : b.step d k = some b') : P b' := by
  cases k with
  | startTag n attributes closed =>
      obtain ⟨b₁, hopened, hstep⟩ := Option.bind_eq_some_iff.mp hstep
      have h₁ : P b₁ := hopen n attributes closed b₁ rfl hopened
      split at hstep
      · exact hclose b₁ n.text b' h₁ hstep
      · cases hstep
        exact h₁
  | endTag name => exact hclose b name b' hb hstep
  | plain t =>
      simp only [Builder.step] at hstep
      split at hstep
      · split at hstep
        · cases hstep
          exact hb
        · cases hstep
      · cases hstep
        exact hadd b _ rfl hb
  | referenced c =>
      simp only [Builder.step] at hstep
      split at hstep
      · cases hstep
      · cases hstep
        exact hadd b _ rfl hb
  | entity name isDeclared =>
      simp only [Builder.step] at hstep
      split at hstep
      · cases hstep
      · cases hstep
        split
        · exact hadd b _ rfl hb
        · exact hnote _ [.undeclared] (hadd b _ rfl hb)
  | cdata t =>
      simp only [Builder.step] at hstep
      split at hstep
      · cases hstep
      · cases hstep
        split
        · exact hb
        · exact hadd b _ rfl hb
  | comment t =>
      cases hstep
      exact hadd b _ rfl hb
  | instruction target t =>
      cases hstep
      exact hadd _ _ rfl (hnote b _ hb)

/-- What every token of a row keeps, the row keeps. -/
theorem run_keeps {P : Builder → Prop} {d : Doctype} {ks : List Token} {b b' : Builder} (hb : P b)
    (hstep : ∀ b b₁ k, k ∈ ks → P b → b.step d k = some b₁ → P b₁)
    (hrun : b.run d ks = some b') : P b' := by
  induction ks generalizing b with
  | nil =>
      cases hrun
      exact hb
  | cons k ks ih =>
      rw [Builder.run] at hrun
      split at hrun
      · next b₁ hfirst =>
        refine ih (hstep b b₁ k List.mem_cons_self hb hfirst) ?_ hrun
        intro c c₁ j hj
        exact hstep c c₁ j (List.mem_cons_of_mem k hj)
      · cases hrun

/-! ## The invariant -/

/-- **The invariant of building.** What is finished or open has distinct attributes; while elements
are open nothing stands at the top, and afterwards exactly one element. -/
structure Sound (b : Builder) : Prop where
  finished : ∀ t ∈ elementTrees b.done, t.AllLabels Opening.Distinct
  opened : ∀ e ∈ b.stack, e.opening.Distinct
  inside : ∀ e ∈ b.stack, ∀ t ∈ elementTrees e.content, t.AllLabels Opening.Distinct
  seen : b.stack ≠ [] → b.rootSeen = true
  count : (elementTrees b.done).length = if b.stack = [] ∧ b.rootSeen = true then 1 else 0

theorem elementTrees_cons (n : Node) (ns : List Node) :
    elementTrees (n :: ns) = (elementTree? n).toList ++ elementTrees ns := by
  rw [elementTrees]
  cases elementTree? n <;> rfl

/-- Joining character data changes no element. -/
theorem elementTrees_append (n : Node) (ns : List Node) :
    elementTrees (append n ns) = (elementTree? n).toList ++ elementTrees ns := by
  unfold append
  split
  · rw [elementTrees_cons, elementTrees_cons]
    rfl
  · exact elementTrees_cons n ns

/-- The elements after a node is joined are its own and those before. -/
theorem forall_elementTrees_append {P : Tree Opening → Prop} {n : Node} {ns : List Node} :
    (∀ t ∈ elementTrees (append n ns), P t) ↔
      (∀ t, elementTree? n = some t → P t) ∧ ∀ t ∈ elementTrees ns, P t := by
  simp only [elementTrees_append, List.mem_append, Option.mem_toList]
  constructor
  · intro h
    exact ⟨fun t ht => h t (Or.inl ht), fun t ht => h t (Or.inr ht)⟩
  · rintro ⟨hn, hns⟩ t (ht | ht)
    · exact hn t ht
    · exact hns t ht

theorem elementTrees_eq_filterMap (ns : List Node) :
    elementTrees ns = ns.filterMap elementTree? := by
  induction ns with
  | nil => rfl
  | cons n ns ih =>
      rw [elementTrees_cons, ih, List.filterMap_cons]
      cases elementTree? n <;> rfl

theorem elementTrees_reverse (ns : List Node) :
    elementTrees ns.reverse = (elementTrees ns).reverse := by
  rw [elementTrees_eq_filterMap, elementTrees_eq_filterMap, List.filterMap_reverse]

theorem Sound.note {b : Builder} (h : b.Sound) (n : Notice) : (b.note n).Sound :=
  ⟨h.finished, h.opened, h.inside, h.seen, h.count⟩

theorem Sound.noteAll {b : Builder} (h : b.Sound) (ns : List Notice) : (b.noteAll ns).Sound := by
  induction ns generalizing b with
  | nil => exact h
  | cons n ns ih => exact ih (h.note n)

theorem noteAll_stack (b : Builder) (ns : List Notice) : (b.noteAll ns).stack = b.stack := by
  induction ns generalizing b with
  | nil => rfl
  | cons n ns ih => exact ih (b.note n)

theorem noteAll_rootSeen (b : Builder) (ns : List Notice) :
    (b.noteAll ns).rootSeen = b.rootSeen := by
  induction ns generalizing b with
  | nil => rfl
  | cons n ns ih => exact ih (b.note n)

/-- Adding a node that is no element. -/
theorem Sound.add {b : Builder} (h : b.Sound) {n : Node} (hn : elementTree? n = none) :
    (b.add n).Sound := by
  have happend : ∀ ns, elementTrees (append n ns) = elementTrees ns := by
    intro ns
    rw [elementTrees_append, hn]
    rfl
  rw [Builder.add]
  split
  · next hstack =>
    refine ⟨?_, h.opened, h.inside, h.seen, ?_⟩
    · dsimp only
      rw [happend]
      exact h.finished
    · dsimp only
      rw [happend]
      exact h.count
  · next e rest hstack =>
    obtain ⟨hfinished, hopened, hinside, hseen, hcount⟩ := h
    rw [hstack] at hopened hinside hseen hcount
    refine ⟨hfinished, ?_, ?_, fun _ => hseen (by simp), ?_⟩
    · intro e' he'
      rcases List.mem_cons.mp he' with rfl | he'
      · exact hopened e List.mem_cons_self
      · exact hopened e' (List.mem_cons_of_mem e he')
    · intro e' he'
      rcases List.mem_cons.mp he' with rfl | he'
      · dsimp only
        rw [happend]
        exact hinside e List.mem_cons_self
      · exact hinside e' (List.mem_cons_of_mem e he')
    · simpa using hcount

/-- The tree of a finished element, in any place where it is put. -/
theorem forall_finished {e : OpenElement} (hopening : e.opening.Distinct)
    (hinside : ∀ t ∈ elementTrees e.content, t.AllLabels Opening.Distinct) {ns : List Node}
    (hns : ∀ t ∈ elementTrees ns, t.AllLabels Opening.Distinct) :
    ∀ t ∈ elementTrees (append (.element e.opening e.content.reverse) ns),
      t.AllLabels Opening.Distinct := by
  rw [forall_elementTrees_append]
  refine ⟨?_, hns⟩
  intro t ht
  rw [elementTree?, Option.some.injEq] at ht
  rw [← ht, Tree.allLabels_node, elementTrees_reverse]
  refine ⟨hopening, ?_⟩
  intro u hu
  exact hinside u (List.mem_reverse.mp hu)

/-- Closing the innermost element puts it where it belongs. -/
theorem Sound.closeElement {b b' : Builder} (h : b.Sound) {name : Text}
    (hclose : b.closeElement name = some b') : b'.Sound := by
  rw [Builder.closeElement] at hclose
  split at hclose
  · cases hclose
  · next e rest hstack =>
    split at hclose
    · cases hclose
      obtain ⟨hfinished, hopened, hinside, hseen, hcount⟩ := h
      rw [hstack] at hopened hinside hseen hcount
      have hopening : e.opening.Distinct := hopened e List.mem_cons_self
      have hcontent := hinside e List.mem_cons_self
      have hroot : b.rootSeen = true := hseen (by simp)
      -- the element is the root, or it goes into the one that is open around it
      cases rest with
      | nil =>
          refine ⟨forall_finished hopening hcontent hfinished, nofun, nofun, fun _ => hroot, ?_⟩
          show (elementTrees (append (.element e.opening e.content.reverse) b.done)).length = _
          rw [elementTrees_append, elementTree?, List.length_append, hcount]
          simp [Builder.add, hroot]
      | cons e' rest =>
          refine ⟨hfinished, ?_, ?_, fun _ => hroot, by simpa [Builder.add] using hcount⟩
          · intro f hf
            rcases List.mem_cons.mp hf with rfl | hf
            · exact hopened e' (by simp)
            · exact hopened f (by simp [hf])
          · intro f hf
            rcases List.mem_cons.mp hf with rfl | hf
            · exact forall_finished hopening hcontent (hinside e' (by simp))
            · exact hinside f (by simp [hf])
    · cases hclose

/-- Opening an element where one may stand. -/
theorem Sound.push {b : Builder} (h : b.Sound) (hplace : ¬(b.stack = [] ∧ b.rootSeen = true))
    {e : OpenElement} (hopening : e.opening.Distinct) (hcontent : e.content = [])
    (ids : List Text) :
    Sound { b with stack := e :: b.stack, rootSeen := true, seenIds := ids } := by
  refine ⟨h.finished, ?_, ?_, fun _ => rfl, ?_⟩
  · intro f hf
    rcases List.mem_cons.mp hf with rfl | hf
    · exact hopening
    · exact h.opened f hf
  · intro f hf
    rcases List.mem_cons.mp hf with rfl | hf
    · rw [hcontent]
      exact nofun
    · exact h.inside f hf
  · have hcount := h.count
    rw [if_neg hplace] at hcount
    simpa using hcount

theorem Sound.openElement {b b' : Builder} (h : b.Sound) {d : Doctype} {n : WrittenName}
    {attributes : List WrittenAttribute} (hattributes : ∀ a ∈ attributes, a.name.IsSound)
    (hopen : b.openElement d n attributes = some b') : b'.Sound := by
  rw [Builder.openElement] at hopen
  split at hopen
  · cases hopen
  · split at hopen
    · cases hopen
    · next hplace =>
      simp only [Option.bind_eq_bind, Option.bind_eq_some_iff] at hopen
      obtain ⟨sorted, hsorted, ⟨attrs, notices⟩, hattrs, hopen⟩ := hopen
      have hplain := isSound_of_sortAttributes hsorted hattributes nofun
      obtain ⟨acc, hacc, rfl⟩ :=
        isExpanded_of_expandAttributes hattrs hplain ⟨List.Pairwise.nil, nofun⟩
      cases hopen
      -- the notices of a start tag change nothing that the invariant speaks of
      refine Sound.push (((h.noteAll _).noteAll _).noteAll _) ?_ hacc.distinct rfl _
      simp only [noteAll_stack, noteAll_rootSeen]
      simpa using hplace

/-- **Every token keeps the invariant.** -/
theorem Sound.step {b b' : Builder} (h : b.Sound) {d : Doctype} {k : Token} (hk : k.IsSound)
    (hstep : b.step d k = some b') : b'.Sound := by
  refine step_keeps h ?_ ?_ ?_ ?_ hstep
  · intro b n hn hb
    exact hb.add hn
  · intro b ns hb
    exact hb.noteAll ns
  · rintro n attributes closed b₁ rfl hopen
    exact h.openElement hk hopen
  · intro b name b₁ hb hclose
    exact hb.closeElement hclose

theorem Sound.run {b b' : Builder} (h : b.Sound) {d : Doctype} {ks : List Token}
    (hks : ∀ k ∈ ks, k.IsSound) (hrun : b.run d ks = some b') : b'.Sound :=
  run_keeps h (fun _ _ k hk hb hstep => hb.step (hks k hk) hstep) hrun

/-- Before the first element there are no elements. -/
theorem sound_start {done : List Node} (hdone : elementTrees done = []) (notices : List Notice) :
    Sound { start with done := done, notices := notices } := by
  refine ⟨?_, nofun, nofun, fun h => absurd rfl h, ?_⟩
  · intro t ht
    rw [hdone] at ht
    cases ht
  · show (elementTrees done).length = _
    rw [hdone]
    rfl

end Builder

end UiTree.Xml
