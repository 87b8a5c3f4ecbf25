import UiTree.Proofs.Xml.Building

/-!
# UiTree.Proofs.Xml.Accepted -- what holds of accepted documents

A document that was read has exactly one element at its top, and in each of its start tags the names
of attributes without a namespace are distinct. Neither is looked at again after reading, and both
are what makes paths and keys unambiguous.

* **Reading.** `exists_run_of_readBody` says once how a document comes about.
* **Main statement.** `Document.IsSound` of every document that `readAs` gives.
-/

namespace UiTree.Xml

open Node (elementTrees)

theorem elementTrees_of_readProlog {fuel : Nat} {p p' : Prolog} {t rest : Text}
    (hp : elementTrees p.nodes = []) (h : readProlog fuel p t = some (p', rest)) :
    elementTrees p'.nodes = [] := by
  induction fuel generalizing p t with
  | zero =>
      cases h
      exact hp
  | succ fuel ih =>
      rw [readProlog] at h
      split at h
      · simp only [Option.bind_eq_bind, Option.bind_eq_some_iff] at h
        obtain ⟨⟨target, body, r⟩, -, h⟩ := h
        refine ih ?_ h
        rw [Builder.elementTrees_cons, hp]
        rfl
      · simp only [Option.bind_eq_bind, Option.bind_eq_some_iff] at h
        obtain ⟨⟨body, r⟩, -, h⟩ := h
        refine ih ?_ h
        rw [Builder.elementTrees_cons, hp]
        rfl
      · simp only [Option.bind_eq_bind, Option.bind_eq_some_iff] at h
        obtain ⟨r, -, ⟨d, r'⟩, -, h⟩ := h
        split at h
        · cases h
        · refine ih ?_ h
          exact hp
      · cases h
        exact hp

namespace Document

/-- How a document comes about: a builder that has met no element takes the tokens of a text, and
ends with nothing open. -/
theorem exists_run_of_readBody {declaration : Declaration} {t : Text} {d : Document}
    (h : readBody declaration t = some d) :
    ∃ (doctype : Doctype) (known : Entities) (body : Text) (ks : List Token) (done : List Node)
      (notices : List Notice) (b : Builder),
      elementTrees done = [] ∧ tokens known body = some ks ∧
        Builder.run doctype { Builder.start with done := done, notices := notices } ks = some b ∧
        b.stack = [] ∧ b.rootSeen = true ∧ d.nodes = b.done.reverse := by
  simp only [readBody, Option.bind_eq_bind, Option.bind_eq_some_iff] at h
  obtain ⟨⟨prolog, t'⟩, hprolog, ks, hks, b, hrun, h⟩ := h
  split at h
  · cases h
  · next hend =>
    split at h
    · cases h
      simp only [Bool.or_eq_true, Bool.not_eq_true', not_or, Bool.not_eq_false,
        List.isEmpty_iff] at hend
      exact ⟨_, _, _, ks, _, _, b, elementTrees_of_readProlog rfl hprolog, hks, hrun, hend.1,
        hend.2, rfl⟩
    · cases h

/-- A document that was read is the one of a body, whatever its encoding. -/
theorem exists_readBody_of_readAs {honest : Bool} {t : Text} {d : Document}
    (h : readAs honest t = some d) :
    ∃ declaration body, readBody declaration body = some d := by
  unfold readAs at h
  obtain ⟨⟨declaration, body⟩, -, h⟩ := Option.bind_eq_some_iff.mp h
  dsimp only at h
  -- with a mark or without one, the body is read as it is or after decoding
  split at h
  all_goals
    split at h
    · exact ⟨_, _, h⟩
    · split at h
      · exact ⟨_, _, h⟩
      · simp only [Option.bind_eq_bind, Option.bind_eq_some_iff] at h
        obtain ⟨e, -, body', -, h⟩ := h
        exact ⟨_, _, h⟩

/-- **What holds of an accepted document**: one element at the top, and distinct attributes
everywhere. -/
def IsSound (d : Document) : Prop :=
  ∃ root, elementTrees d.nodes = [root] ∧ root.AllLabels Opening.Distinct

theorem isSound_of_readBody {declaration : Declaration} {t : Text} {d : Document}
    (h : readBody declaration t = some d) : d.IsSound := by
  obtain ⟨doctype, known, body, ks, done, notices, b, hdone, hks, hrun, hstack, hroot, hnodes⟩ :=
    exists_run_of_readBody h
  have hb : b.Sound := (Builder.sound_start hdone notices).run (isSound_of_tokens hks) hrun
  -- the text has ended with nothing open and a root seen, so there is one element
  have hcount := hb.count
  rw [if_pos ⟨hstack, hroot⟩] at hcount
  obtain ⟨root, hsingle⟩ := List.length_eq_one_iff.mp hcount
  refine ⟨root, ?_, hb.finished root (by rw [hsingle]; exact List.mem_singleton_self root)⟩
  rw [hnodes, Builder.elementTrees_reverse, hsingle]
  rfl

theorem isSound_of_readAs {honest : Bool} {t : Text} {d : Document}
    (h : readAs honest t = some d) : d.IsSound := by
  obtain ⟨declaration, body, hbody⟩ := exists_readBody_of_readAs h
  exact isSound_of_readBody hbody

end Document

end UiTree.Xml
