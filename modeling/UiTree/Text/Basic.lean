/-!
# UiTree.Text.Basic -- texts as lists of characters

Everything this library reads or writes is a `Text`: a list of Unicode scalar values. Rules are
stated by recursion on that list, so that every reader has a rest and every printer has a length.

* **Search.** `isInfix` says that one text occurs inside another, `pieces` cuts a text at every
  occurrence of a separator, and `join` puts pieces together again.
* **Main statements.** `join_pieces`: cutting and joining lose nothing. `cutStart_eq_some_iff`: the
  rest after a start is found exactly when the text begins with it.
-/

namespace UiTree

/-- A text is a list of characters. -/
abbrev Text := List Char

namespace Text

/-- The part of `t` after the start `p`, when `t` begins with `p`. -/
def cutStart : Text → Text → Option Text
  | [], t => some t
  | _ :: _, [] => none
  | a :: p, b :: t => if a = b then cutStart p t else none

/-- Does `t` begin with `p`? -/
def isStart (p t : Text) : Bool := (cutStart p t).isSome

/-- Does `p` occur in `t` as a contiguous run? -/
def isInfix (p : Text) : Text → Bool
  | [] => isStart p []
  | c :: t => isStart p (c :: t) || isInfix p t

/-- The text before the first occurrence of `p`, and the text after it. -/
def cutAt (p : Text) : Text → Option (Text × Text)
  | [] => (cutStart p []).map fun rest => ([], rest)
  | c :: t =>
    match cutStart p (c :: t) with
    | some rest => some ([], rest)
    | none => (cutAt p t).map fun (before, after) => (c :: before, after)

/-- The pieces of a text between the occurrences of a separator; never empty as a list. -/
def pieces (sep : Char) : Text → List Text
  | [] => [[]]
  | c :: t =>
    if c = sep then [] :: pieces sep t
    else
      match pieces sep t with
      | [] => [[c]]
      | p :: ps => (c :: p) :: ps

/-- Texts put one after the other with a separator between neighbours. -/
def join (sep : Text) : List Text → Text
  | [] => []
  | [t] => t
  | t :: u :: ts => t ++ sep ++ join sep (u :: ts)

/-- The longest start of a text whose characters satisfy `p`, and what follows it. -/
def cutWhile (p : Char → Bool) (t : Text) : Text × Text := (t.takeWhile p, t.dropWhile p)

/-- The decimal text of a natural number. -/
def ofNat (n : Nat) : Text := Nat.toDigits 10 n

/-- The decimal text of an integer, with a minus sign where it is negative. -/
def ofInt : Int → Text
  | .ofNat n => ofNat n
  | .negSucc n => '-' :: ofNat (n + 1)

theorem cutStart_append (p t : Text) : cutStart p (p ++ t) = some t := by
  induction p with
  | nil => rfl
  | cons a p ih => simp [cutStart, ih]

theorem cutStart_eq_some_iff {p t rest : Text} : cutStart p t = some rest ↔ t = p ++ rest := by
  constructor
  · intro h
    induction p generalizing t with
    | nil => simpa [cutStart] using h
    | cons a p ih =>
      cases t with
      | nil => simp [cutStart] at h
      | cons b t =>
        by_cases hab : a = b
        · subst hab
          simp only [cutStart, if_true] at h
          simp [ih h]
        · simp [cutStart, hab] at h
  · rintro rfl
    exact cutStart_append p rest

theorem isStart_iff {p t : Text} : isStart p t = true ↔ ∃ rest, t = p ++ rest := by
  simp [isStart, Option.isSome_iff_exists, cutStart_eq_some_iff]

theorem isInfix_iff {p t : Text} :
    isInfix p t = true ↔ ∃ before after, t = before ++ p ++ after := by
  induction t with
  | nil =>
    simp only [isInfix, isStart_iff]
    constructor
    · rintro ⟨rest, h⟩
      exact ⟨[], rest, by simpa using h⟩
    · rintro ⟨before, after, h⟩
      have h' : before = [] ∧ p = [] ∧ after = [] := by
        have := h.symm
        simp only [List.append_eq_nil_iff] at this
        exact ⟨this.1.1, this.1.2, this.2⟩
      exact ⟨[], by simp [h'.2.1]⟩
  | cons c t ih =>
    simp only [isInfix, Bool.or_eq_true, isStart_iff, ih]
    constructor
    · rintro (⟨rest, h⟩ | ⟨before, after, h⟩)
      · exact ⟨[], rest, by simpa using h⟩
      · exact ⟨c :: before, after, by simp [h]⟩
    · rintro ⟨before, after, h⟩
      cases before with
      | nil => exact Or.inl ⟨after, by simpa using h⟩
      | cons d before =>
        simp only [List.cons_append, List.cons.injEq] at h
        exact Or.inr ⟨before, after, h.2⟩

theorem pieces_ne_nil (sep : Char) (t : Text) : pieces sep t ≠ [] := by
  cases t with
  | nil => simp [pieces]
  | cons c t =>
    simp only [pieces]
    split
    · simp
    · split <;> simp

theorem join_pieces (sep : Char) (t : Text) : join [sep] (pieces sep t) = t := by
  induction t with
  | nil => rfl
  | cons c t ih =>
    have hne := pieces_ne_nil sep t
    simp only [pieces]
    split
    · next hc =>
      subst hc
      cases hp : pieces c t with
      | nil => exact absurd hp hne
      | cons p ps => rw [hp] at ih; simp [join, ih]
    · cases hp : pieces sep t with
      | nil => exact absurd hp hne
      | cons p ps =>
        rw [hp] at ih
        cases ps with
        | nil => simpa [join] using ih
        | cons q qs => simpa [join] using ih

end Text

end UiTree
