import UiTree.Text.Blank

/-!
# UiTree.Proofs.Text.Cut -- where a run of characters ends

A run is cut off a text whole exactly when what follows it does not begin with another character of
the run. `Stops p t` is that condition on what follows; every reader that takes as much as it can
is described with it.

* **Main statement.** `cutWhile_run`: a run before a text at which it stops is what is cut off.
-/

namespace UiTree.Text

/-- The text does not begin with a character that satisfies `p`. -/
def Stops (p : Char → Bool) (t : Text) : Prop := ∀ c r, t = c :: r → p c = false

theorem stops_nil (p : Char → Bool) : Stops p [] := by
  intro c r h
  cases h

theorem stops_cons {p : Char → Bool} {c : Char} {t : Text} : Stops p (c :: t) ↔ p c = false := by
  constructor
  · intro h
    exact h c t rfl
  · intro h d r hd
    obtain ⟨rfl, -⟩ := List.cons.inj hd
    exact h

theorem takeWhile_of_stops {p : Char → Bool} {t : Text} (h : Stops p t) : t.takeWhile p = [] := by
  cases t with
  | nil => rfl
  | cons c t => rw [List.takeWhile_cons_of_neg (by rw [stops_cons.mp h]; decide)]

theorem dropWhile_of_stops {p : Char → Bool} {t : Text} (h : Stops p t) : t.dropWhile p = t := by
  cases t with
  | nil => rfl
  | cons c t => rw [List.dropWhile_cons_of_neg (by rw [stops_cons.mp h]; decide)]

theorem stops_dropWhile (p : Char → Bool) (t : Text) : Stops p (t.dropWhile p) := by
  induction t with
  | nil => exact stops_nil p
  | cons c t ih =>
      rw [List.dropWhile_cons]
      split
      · exact ih
      · next hc => exact stops_cons.mpr (Bool.eq_false_iff.mpr hc)

theorem cutWhile_run {p : Char → Bool} {a t : Text} (ha : ∀ c ∈ a, p c = true)
    (ht : Stops p t) : cutWhile p (a ++ t) = (a, t) := by
  rw [cutWhile, List.takeWhile_append_of_pos ha, List.dropWhile_append_of_pos ha,
    takeWhile_of_stops ht, dropWhile_of_stops ht, List.append_nil]

theorem all_takeWhile (p : Char → Bool) (t : Text) : ∀ c ∈ t.takeWhile p, p c = true :=
  fun _ hc => List.all_eq_true.mp List.all_takeWhile _ hc

end UiTree.Text
