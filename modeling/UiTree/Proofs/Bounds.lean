import UiTree.Bounds
import UiTree.Proofs.Text.Cut

/-!
# UiTree.Proofs.Bounds -- how numbers and rectangles are written

A number is written as an optional minus sign and decimal digits of any script, at least one of
them. A reader takes every digit there is, so what follows a number may not begin with a digit.

* **Written forms.** `Coordinate.text` is what a coordinate looks like, `pairText` two of them in
  brackets, `cornersText` two pairs.
* **Main statements.** `isIntegerText_iff` and `isCorners_iff`: the strict readings accept the
  written forms and nothing else.
-/

namespace UiTree

namespace Coordinate

/-- A coordinate as it is written. -/
def text (c : Coordinate) : Text := if c.negative then '-' :: c.digits else c.digits

/-- There are digits, and nothing else. -/
structure IsNumeral (c : Coordinate) : Prop where
  ne_nil : c.digits ≠ []
  isDigit : ∀ d ∈ c.digits, Text.isDigit d = true

/-- Digits do not begin with a minus sign. -/
theorem IsNumeral.not_minus {c : Coordinate} (hc : c.IsNumeral) (t r : Text) :
    c.digits ++ t ≠ '-' :: r := by
  obtain ⟨hne, hall⟩ := hc
  cases hd : c.digits with
  | nil => exact absurd hd hne
  | cons d ds =>
      intro h
      obtain ⟨rfl, -⟩ := List.cons.inj h
      have hminus : Text.isDigit '-' = true := hall '-' (by rw [hd]; exact List.mem_cons_self)
      exact absurd hminus (by decide)

/-- Digits after the sign, as many as there are. -/
theorem spanDigits_eq_iff {t digits rest : Text} :
    Text.spanDigits t = (digits, rest) ↔
      t = digits ++ rest ∧ (∀ d ∈ digits, Text.isDigit d = true) ∧
        Text.Stops Text.isDigit rest := by
  constructor
  · intro h
    obtain ⟨rfl, rfl⟩ := Prod.mk.inj h
    refine ⟨List.takeWhile_append_dropWhile.symm, Text.all_takeWhile _ t, ?_⟩
    intro c r hr
    simpa [hr] using List.head?_dropWhile_not Text.isDigit t
  · rintro ⟨rfl, hall, hstop⟩
    exact Text.cutWhile_run hall hstop

/-- A coordinate with a given sign, from the digits of a text. -/
def ofDigits? (negative : Bool) (t : Text) : Option (Coordinate × Text) :=
  if (Text.spanDigits t).1.isEmpty then none
  else some (⟨negative, (Text.spanDigits t).1⟩, (Text.spanDigits t).2)

theorem read?_minus (t : Text) : read? ('-' :: t) = ofDigits? true t := rfl

theorem read?_plain {t : Text} (h : ∀ r, t ≠ '-' :: r) : read? t = ofDigits? false t := by
  cases t with
  | nil => rfl
  | cons c r =>
      unfold read?
      split
      · next hsign =>
        split at hsign
        · next r' hr' => exact absurd hr' (h r')
        · cases hsign
          rfl

theorem ofDigits?_eq_some_iff {negative : Bool} {t rest : Text} {c : Coordinate} :
    ofDigits? negative t = some (c, rest) ↔
      c.negative = negative ∧ c.IsNumeral ∧ t = c.digits ++ rest ∧
        Text.Stops Text.isDigit rest := by
  unfold ofDigits?
  constructor
  · intro h
    split at h
    · cases h
    · next hne =>
      cases h
      obtain ⟨ht, hall, hstop⟩ := spanDigits_eq_iff.mp (Prod.eta (Text.spanDigits t)).symm
      exact ⟨rfl, ⟨by simpa using hne, hall⟩, ht, hstop⟩
  · rintro ⟨rfl, ⟨hne, hall⟩, ht, hstop⟩
    rw [spanDigits_eq_iff.mpr ⟨ht, hall, hstop⟩, if_neg (by simpa using hne)]

/-- **What a coordinate is read from**: the coordinate as it is written, and a rest that does not go
on with a digit. -/
theorem read?_eq_some_iff {t rest : Text} {c : Coordinate} :
    read? t = some (c, rest) ↔
      c.IsNumeral ∧ t = c.text ++ rest ∧ Text.Stops Text.isDigit rest := by
  obtain ⟨negative, digits⟩ := c
  by_cases hminus : ∃ r, t = '-' :: r
  · obtain ⟨r, rfl⟩ := hminus
    rw [read?_minus, ofDigits?_eq_some_iff]
    constructor
    · rintro ⟨rfl, hc, rfl, hstop⟩
      exact ⟨hc, rfl, hstop⟩
    · rintro ⟨hc, ht, hstop⟩
      cases negative with
      | false => exact absurd ht.symm (hc.not_minus rest r)
      | true => exact ⟨rfl, hc, (List.cons.inj ht).2, hstop⟩
  · rw [read?_plain (not_exists.mp hminus), ofDigits?_eq_some_iff]
    constructor
    · rintro ⟨rfl, hc, rfl, hstop⟩
      exact ⟨hc, rfl, hstop⟩
    · rintro ⟨hc, rfl, hstop⟩
      cases negative with
      | false => exact ⟨rfl, hc, rfl, hstop⟩
      | true => exact absurd ⟨digits ++ rest, rfl⟩ hminus

end Coordinate

/-- **A whole text that is one integer.** -/
theorem isIntegerText_iff {t : Text} :
    isIntegerText t = true ↔ ∃ c : Coordinate, c.IsNumeral ∧ t = c.text := by
  unfold isIntegerText
  constructor
  · intro h
    split at h
    · next c hread =>
      obtain ⟨hc, ht, -⟩ := Coordinate.read?_eq_some_iff.mp hread
      exact ⟨c, hc, by rw [ht, List.append_nil]⟩
    · cases h
  · rintro ⟨c, hc, rfl⟩
    have hread : Coordinate.read? c.text = some (c, []) :=
      Coordinate.read?_eq_some_iff.mpr ⟨hc, (List.append_nil _).symm, Text.stops_nil _⟩
    rw [hread]

/-! ## Pairs and corners -/

/-- Two coordinates as they are written in brackets. -/
def pairText (opening closing : Char) (p : Coordinate × Coordinate) : Text :=
  opening :: p.1.text ++ ',' :: p.2.text ++ [closing]

/-- Two corners as they are written. -/
def cornersText (p q : Coordinate × Coordinate) : Text := pairText '[' ']' p ++ pairText '[' ']' q

/-- Both coordinates have digits. -/
def IsPair (p : Coordinate × Coordinate) : Prop := p.1.IsNumeral ∧ p.2.IsNumeral

/-- **What a pair is read from**, when its closing bracket is no digit: the pair as it is written,
and any rest. -/
theorem readPair?_eq_some_iff {opening closing : Char} (hclosing : Text.isDigit closing = false)
    {t rest : Text} {p : Coordinate × Coordinate} :
    readPair? opening closing t = some (p, rest) ↔
      IsPair p ∧ t = pairText opening closing p ++ rest := by
  obtain ⟨a, b⟩ := p
  have happend : ∀ r, pairText opening closing (a, b) ++ r =
      opening :: (a.text ++ ',' :: (b.text ++ closing :: r)) := by
    intro r
    simp [pairText]
  rw [happend]
  constructor
  · intro h
    cases t with
    | nil => cases h
    | cons c t =>
        rw [readPair?] at h
        split at h
        · cases h
        · next hopening =>
          split at h
          · next a' u ha =>
            obtain ⟨hna, rfl, -⟩ := Coordinate.read?_eq_some_iff.mp ha
            split at h
            · next b' d v hb =>
              obtain ⟨hnb, rfl, -⟩ := Coordinate.read?_eq_some_iff.mp hb
              split at h
              · next hd =>
                cases h
                exact ⟨⟨hna, hnb⟩, by rw [Decidable.not_not.mp hopening, hd]⟩
              · cases h
            · cases h
          · cases h
  · rintro ⟨⟨hna, hnb⟩, rfl⟩
    have ha : Coordinate.read? (a.text ++ ',' :: (b.text ++ closing :: rest)) =
        some (a, ',' :: (b.text ++ closing :: rest)) :=
      Coordinate.read?_eq_some_iff.mpr ⟨hna, rfl, Text.stops_cons.mpr (by decide)⟩
    have hb : Coordinate.read? (b.text ++ closing :: rest) = some (b, closing :: rest) :=
      Coordinate.read?_eq_some_iff.mpr ⟨hnb, rfl, Text.stops_cons.mpr hclosing⟩
    simp only [readPair?, ne_eq, not_true_eq_false, if_false, ha, hb, if_true]

/-- **A whole text that is two corners.** -/
theorem isCorners_iff {t : Text} :
    isCorners t = true ↔ ∃ p q, IsPair p ∧ IsPair q ∧ t = cornersText p q := by
  have hclosing : Text.isDigit ']' = false := by decide
  unfold isCorners
  constructor
  · intro h
    split at h
    · next p rest hp =>
      obtain ⟨hnp, rfl⟩ := (readPair?_eq_some_iff hclosing).mp hp
      split at h
      · next q hq =>
        obtain ⟨hnq, rfl⟩ := (readPair?_eq_some_iff hclosing).mp hq
        exact ⟨p, q, hnp, hnq, by rw [cornersText, List.append_nil]⟩
      · cases h
    · cases h
  · rintro ⟨p, q, hnp, hnq, rfl⟩
    have hp : readPair? '[' ']' (cornersText p q) = some (p, pairText '[' ']' q) :=
      (readPair?_eq_some_iff hclosing).mpr ⟨hnp, rfl⟩
    have hq : readPair? '[' ']' (pairText '[' ']' q) = some (q, []) :=
      (readPair?_eq_some_iff hclosing).mpr ⟨hnq, (List.append_nil _).symm⟩
    rw [hp]
    dsimp only
    rw [hq]

end UiTree
