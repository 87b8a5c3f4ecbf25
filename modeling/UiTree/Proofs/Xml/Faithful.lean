import UiTree.Xml.Document

/-!
# UiTree.Proofs.Xml.Faithful -- documents that say truly how they are encoded

A dump comes as characters, so that the encoding which it declares is only a claim. The elements are
read on these terms and the outline is not, and the two readings can differ: where the declaration
names a single-byte encoding, every character outside of ASCII is read as several others.

* **Main statement.** `readAs_of_isFaithful`: where the declaration is true, both readings are the
  same document.
-/

namespace UiTree.Xml.Document

/-- Is the declared encoding true of the characters? There is none, or it is UTF-8, or it is another
one that is read and what follows the declaration is ASCII. Of an encoding that is not read this is
not known, and it counts as untrue. A byte order mark overrules the declaration. -/
def isFaithful (t : Text) : Bool :=
  match t with
  | '\ufeff' :: _ => true
  | t =>
    match Declaration.read t with
    | none => true
    | some (declaration, body) =>
      match declaration.encoding with
      | none => true
      | some name =>
        (Encoding.ofName? name).any fun e => e == .utf8 || body.all fun c => c.toNat < 0x80

theorem decode_of_true {e : Encoding} {t : Text}
    (h : (e == .utf8 || t.all fun c => c.toNat < 0x80) = true) : e.decode t = some t := by
  rcases Bool.or_eq_true_iff.mp h with he | ht
  · rw [beq_iff_eq.mp he]
    rfl
  · apply e.decode_ascii
    intro c hc
    exact of_decide_eq_true (List.all_eq_true.mp ht c hc)

/-- **A true declaration changes nothing**: the document that is read by it is also the one that is
read from the characters as they are. -/
theorem readAs_of_isFaithful {t : Text} {d : Document} (ht : isFaithful t = true)
    (h : readAs true t = some d) : readAs false t = some d := by
  unfold readAs at h ⊢
  unfold isFaithful at ht
  split at ht
  · -- after a mark nobody asks what is declared
    exact h
  · next hmark =>
    split at h
    next marked t' hcut =>
      obtain ⟨rfl, rfl⟩ : marked = false ∧ t' = t := by
        split at hcut
        · exact absurd rfl (hmark _)
        · cases hcut
          exact ⟨rfl, rfl⟩
      obtain ⟨⟨declaration, body⟩, hread, h⟩ := Option.bind_eq_some_iff.mp h
      simp only [hread] at ht
      refine Option.bind_eq_some_iff.mpr ⟨_, hread, ?_⟩
      dsimp only at h ⊢
      cases hname : declaration.encoding with
      | none =>
          rw [hname] at h
          exact h
      | some name =>
          rw [hname] at h
          obtain ⟨e, he, h⟩ := Option.bind_eq_some_iff.mp h
          obtain ⟨decoded, hdecoded, hbody⟩ := Option.bind_eq_some_iff.mp h
          simp only [hname, he, Option.any_some] at ht
          rw [decode_of_true ht] at hdecoded
          cases hdecoded
          exact hbody

end UiTree.Xml.Document
