import Mathlib.Data.List.Infix
import UiTree.Proofs.Query.PathText

/-!
# UiTree.Proofs.Selector.Words -- containment of whole words

On free text, containment pads the value and the text with a space on either side and looks for
one in the other. The words of a text are its pieces between single spaces: a space at an end and
two spaces in a row make empty words. A space that a value is padded with can only meet a space of
the text, or one of its padding, and this is where words begin and end.

* **Pieces.** `pieces_append_cons` cuts a text at any one separator, `join_append` puts two rows of
  pieces together.
* **Main statements.** `isInfix_padded_iff` compares two texts by their words. `holds_words`: the
  words of the value are a contiguous run of the words of the text; a value of one word is one of
  them.
-/

namespace UiTree

namespace Text

/-! ## Cutting and joining -/

/-- A text is cut at a separator in it, whichever that is. -/
theorem pieces_append_cons (sep : Char) (s t : Text) :
    pieces sep (s ++ sep :: t) = pieces sep s ++ pieces sep t := by
  induction s with
  | nil =>
      show pieces sep (sep :: t) = [] :: pieces sep t
      rw [pieces, if_pos rfl]
  | cons c s ih =>
      rw [List.cons_append, pieces, pieces, ih]
      split
      · rfl
      · obtain ⟨p, ps, hps⟩ := List.exists_cons_of_ne_nil (pieces_ne_nil sep s)
        rw [hps]
        rfl

/-- A text without the separator is one piece. -/
theorem pieces_of_not_mem {sep : Char} {t : Text} (h : sep ∉ t) : pieces sep t = [t] := by
  induction t with
  | nil => rfl
  | cons c t ih =>
      rw [List.mem_cons, not_or] at h
      rw [pieces, if_neg (Ne.symm h.1), ih h.2]

theorem join_append (sep : Text) {ps qs : List Text} (hps : ps ≠ []) (hqs : qs ≠ []) :
    join sep (ps ++ qs) = join sep ps ++ sep ++ join sep qs := by
  induction ps using pieceLiterals.induct with
  | case1 => exact absurd rfl hps
  | case2 p =>
      obtain ⟨q, qs, rfl⟩ := List.exists_cons_of_ne_nil hqs
      rfl
  | case3 p p' ps ih =>
      have hrest := ih (List.cons_ne_nil p' ps)
      rw [List.cons_append] at hrest
      rw [List.cons_append, List.cons_append, join, join, hrest]
      simp only [List.append_assoc]

end Text

namespace Predicate

/-! ## Padded texts -/

/-- The padding makes an empty word at either end. -/
theorem pieces_padded (t : Text) :
    Text.pieces ' ' (padded t) = [] :: Text.pieces ' ' t ++ [[]] := by
  rw [padded, List.cons_append, Text.pieces, if_pos rfl, Text.pieces_append_cons]
  rfl

/-- The words on both sides of a run of words that is found in a padded text. -/
theorem isInfix_of_pieces_append {v t : Text} {ps qs : List Text}
    (h : ps ++ Text.pieces ' ' v ++ qs = Text.pieces ' ' t) :
    Text.isInfix (padded v) (padded t) = true := by
  have hwords : Text.pieces ' ' (padded t) = ([] :: ps) ++ (Text.pieces ' ' v ++ (qs ++ [[]])) := by
    rw [pieces_padded, ← h]
    simp only [List.cons_append, List.append_assoc]
  have hjoin : padded t = Text.join [' '] ([] :: ps) ++ padded v ++ Text.join [' '] (qs ++ [[]]) :=
    calc padded t = Text.join [' '] (Text.pieces ' ' (padded t)) := (Text.join_pieces ' ' _).symm
      _ = Text.join [' '] ([] :: ps) ++ [' '] ++
            (v ++ [' '] ++ Text.join [' '] (qs ++ [[]])) := by
          have hv := Text.pieces_ne_nil ' ' v
          rw [hwords, Text.join_append _ (by simp) (by simp [hv]), Text.join_append _ hv (by simp),
            Text.join_pieces]
      _ = Text.join [' '] ([] :: ps) ++ padded v ++ Text.join [' '] (qs ++ [[]]) := by
          simp only [padded, List.append_assoc, List.cons_append, List.nil_append]
  exact Text.isInfix_iff.mpr ⟨_, _, hjoin⟩

/-- What is before a padded value and what is after it are rows of words, without the empty words of
the padding. -/
theorem exists_pieces_append_of_isInfix {v t : Text}
    (h : Text.isInfix (padded v) (padded t) = true) :
    ∃ ps qs, ps ++ Text.pieces ' ' v ++ qs = Text.pieces ' ' t := by
  obtain ⟨before, after, hcut⟩ := Text.isInfix_iff.mp h
  have hwords : [] :: Text.pieces ' ' t ++ [[]] =
      Text.pieces ' ' before ++ (Text.pieces ' ' v ++ Text.pieces ' ' after) := by
    have htext : padded t = before ++ ' ' :: (v ++ ' ' :: after) := by
      rw [hcut]
      simp only [padded, List.append_assoc, List.cons_append, List.nil_append]
    rw [← pieces_padded, htext, Text.pieces_append_cons, Text.pieces_append_cons]
  -- the first word is before the value, and the last one is after it
  obtain ⟨p, ps, hps⟩ := List.exists_cons_of_ne_nil (Text.pieces_ne_nil ' ' before)
  obtain ⟨qs, q, hqs⟩ := List.eq_nil_or_concat (Text.pieces ' ' after) |>.resolve_left
    (Text.pieces_ne_nil ' ' after)
  rw [hps, hqs, List.cons_append, List.cons_append, List.cons.injEq] at hwords
  refine ⟨ps, qs, ?_⟩
  have hrow := hwords.2
  simp only [List.concat_eq_append, ← List.append_assoc] at hrow
  exact (List.append_inj' hrow rfl).1.symm

/-- **A padded text is found in another one exactly where its words are.** -/
theorem isInfix_padded_iff {v t : Text} :
    Text.isInfix (padded v) (padded t) = true ↔ Text.pieces ' ' v <:+: Text.pieces ' ' t := by
  constructor
  · intro h
    exact exists_pieces_append_of_isInfix h
  · rintro ⟨ps, qs, h⟩
    exact isInfix_of_pieces_append h

/-! ## Whole words -/

/-- **Containment on free text is containment of whole words.** Where an attribute holds free text,
a predicate for containment is true exactly when the words of its value are a contiguous run of the
words of the text, a missing attribute counting as the empty text. When the value has no space in it
this means that it is one of the words. -/
theorem holds_words {p : Predicate} (hkind : p.attr.valueKind = .wordText)
    (hoperator : p.operator = .contains) (actual : Option Text) :
    (p.holds actual = true ↔ Text.pieces ' ' p.value <:+: Text.pieces ' ' (actual.getD [])) ∧
      (' ' ∉ p.value → (p.holds actual = true ↔ p.value ∈ Text.pieces ' ' (actual.getD []))) := by
  have hholds : p.holds actual = Text.isInfix (padded p.value) (padded (actual.getD [])) := by
    rw [holds, hoperator]
    exact if_pos hkind
  rw [hholds, isInfix_padded_iff]
  refine ⟨Iff.rfl, ?_⟩
  intro hspace
  rw [Text.pieces_of_not_mem hspace, List.singleton_infix_iff]

/-- A value with an empty word in it is found between two spaces, and a value of one word is not
found inside a longer one. -/
theorem holds_words_doubled :
    ∃ p q : Predicate, p.value = " b".toList ∧ q.value = "b".toList ∧
      p.holds (some "a  b".toList) = true ∧ q.holds (some "a bc".toList) = false := by
  refine ⟨⟨.text, .contains, " b".toList, by decide⟩, ⟨.text, .contains, "b".toList, by decide⟩,
    rfl, rfl, ?_, ?_⟩
  · exact (holds_words rfl rfl _).1.mpr ⟨["a".toList], [], rfl⟩
  · rw [Bool.eq_false_iff, ne_eq, (holds_words rfl rfl _).2 (by decide)]
    decide

end Predicate

end UiTree
