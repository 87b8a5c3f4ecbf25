import UiTree.Proofs.Selector.Grammar
import UiTree.Proofs.Snapshot

/-!
# UiTree.Proofs.Rectangle -- rectangles are read as they were written

A value that a predicate may compare rectangles with is read by `isCorners`, which goes through it
once from its start to its end. The value of an attribute is read by `Bounds.read?`, which looks for
pairs anywhere. Here they are compared: what the first one accepts, the second one reads as the four
integers that are written there, in digits of whatever script.

* **Search.** `findPairsFrom_pair` and `findPairsFrom_skip` say what one step of the search does: it
  takes a pair whole, or it passes one character. The two notations are rows of such steps.
* **Numbers.** `Text.number_ofNat`: decimal digits are read as the number they were made from.
* **Main statement.** `readsAs_rectangle`: what both notations are read as, and where the middle is.
-/

namespace UiTree

/-! ## Integers -/

theorem Text.foldl_digitValue {t : Text} (h : ∀ c ∈ t, c.isDigit = true) (n : Nat) :
    t.foldl (fun n c => 10 * n + (digitValue c).getD 0) n = Nat.ofDigitChars 10 t n := by
  induction t generalizing n with
  | nil => rw [List.foldl_nil, Nat.ofDigitChars_nil]
  | cons c t ih =>
      rw [List.foldl_cons, Nat.ofDigitChars_cons, digitValue_ascii (h c List.mem_cons_self),
        Option.getD_some, ih fun d hd => h d (List.mem_cons_of_mem c hd)]

/-- **The digits of a number are read as that number.** -/
theorem Text.number_ofNat (n : Nat) : number (ofNat n) = n := by
  rw [number, foldl_digitValue fun c hc => isDigit_of_mem_ofNat hc, ofNat,
    Nat.ofDigitChars_ten_toDigits]

namespace Coordinate

/-- An integer as it is usually written. -/
def ofInt (i : Int) : Coordinate := ⟨decide (i < 0), Text.ofNat i.natAbs⟩

theorem text_ofInt (i : Int) : (ofInt i).text = Text.ofInt i := by
  cases i with
  | ofNat n =>
      have hnegative : ¬ Int.ofNat n < 0 := Int.not_lt.mpr (Int.natCast_nonneg n)
      rw [text, ofInt, decide_eq_false hnegative]
      rfl
  | negSucc n =>
      rw [text, ofInt, decide_eq_true (Int.negSucc_lt_zero n)]
      rfl

theorem value_ofInt (i : Int) : (ofInt i).value = i := by
  simp only [value, ofInt, Text.number_ofNat]
  split
  · next h =>
    have := of_decide_eq_true h
    omega
  · next h =>
    have := of_decide_eq_false (Bool.eq_false_iff.mpr h)
    omega

theorem isNumeral_ofInt (i : Int) : (ofInt i).IsNumeral where
  ne_nil := Nat.toDigits_ne_nil
  isDigit _ hd := Text.isDigit_ascii (Text.isDigit_of_mem_ofNat hd)

end Coordinate

/-! ## Searching for pairs -/

section Search

variable {opening closing : Char} {p q : Coordinate × Coordinate}

theorem findPairsFrom_nil (opening closing : Char) (fuel : Nat) :
    findPairsFrom opening closing fuel [] = [] := by
  cases fuel <;> rfl

/-- A pair is taken whole, and the search goes on behind it. -/
theorem findPairsFrom_pair (hclosing : Text.isDigit closing = false) (hp : IsPair p) (fuel : Nat)
    (rest : Text) :
    findPairsFrom opening closing (fuel + 1) (pairText opening closing p ++ rest) =
      p :: findPairsFrom opening closing fuel rest := by
  have hread : readPair? opening closing (pairText opening closing p ++ rest) = some (p, rest) :=
    (readPair?_eq_some_iff hclosing).mpr ⟨hp, rfl⟩
  obtain ⟨t, ht⟩ : ∃ t, pairText opening closing p ++ rest = opening :: t := ⟨_, rfl⟩
  rw [ht] at hread ⊢
  rw [findPairsFrom, hread]

/-- A character at which no pair begins is passed. -/
theorem findPairsFrom_skip {c : Char} {t : Text} (h : readPair? opening closing (c :: t) = none)
    (fuel : Nat) :
    findPairsFrom opening closing (fuel + 1) (c :: t) = findPairsFrom opening closing fuel t := by
  rw [findPairsFrom, h]

/-- No pair begins before its bracket. -/
theorem readPair?_of_ne {c : Char} (h : c ≠ opening) (t : Text) :
    readPair? opening closing (c :: t) = none := by
  rw [readPair?, if_pos h]

/-- A corner and a size as they are written. -/
def sizeText (p q : Coordinate × Coordinate) : Text :=
  '\x7b' :: (pairText '\x7b' '\x7d' p ++ ',' :: (pairText '\x7b' '\x7d' q ++ ['\x7d']))

theorem findPairs_corners (hp : IsPair p) (hq : IsPair q) :
    findPairs '[' ']' (cornersText p q) = [p, q] := by
  have hclosing : Text.isDigit ']' = false := by decide
  have hlength : 2 ≤ (cornersText p q).length := by
    simp only [cornersText, pairText, List.length_append, List.length_cons]
    omega
  obtain ⟨fuel, hfuel⟩ := Nat.exists_eq_add_of_le' hlength
  have hlast : findPairsFrom '[' ']' (fuel + 1) (pairText '[' ']' q) =
      q :: findPairsFrom '[' ']' fuel [] := by
    rw [← findPairsFrom_pair hclosing hq, List.append_nil]
  rw [findPairs, hfuel, cornersText, findPairsFrom_pair hclosing hp, hlast, findPairsFrom_nil]

theorem findPairs_size (hp : IsPair p) (hq : IsPair q) :
    findPairs '\x7b' '\x7d' (sizeText p q) = [p, q] := by
  have hclosing : Text.isDigit '\x7d' = false := by decide
  have hlength : 5 ≤ (sizeText p q).length := by
    simp only [sizeText, pairText, List.length_append, List.length_cons]
    omega
  obtain ⟨fuel, hfuel⟩ := Nat.exists_eq_add_of_le' hlength
  -- no coordinate begins with a brace, so the outer one is passed
  have houter : ∀ t, readPair? '\x7b' '\x7d' ('\x7b' :: (pairText '\x7b' '\x7d' p ++ t)) = none :=
    fun _ => rfl
  rw [findPairs, hfuel, sizeText, findPairsFrom_skip (houter _), findPairsFrom_pair hclosing hp,
    findPairsFrom_skip (readPair?_of_ne (by decide) _), findPairsFrom_pair hclosing hq,
    findPairsFrom_skip (readPair?_of_ne (by decide) _), findPairsFrom_nil]

end Search

/-! ## Rectangles -/

namespace Bounds

variable {v : Text} {p q : Coordinate × Coordinate} {b : Bounds}

/-- None of the four coordinates has too many digits. -/
def AreShort (p q : Coordinate × Coordinate) : Prop :=
  ∀ c ∈ [p.1, p.2, q.1, q.2], c.digits.length ≤ 4300

theorem values_of_areShort (h : AreShort p q) :
    values p q = .ok (p.1.value, p.2.value, q.1.value, q.2.value) := by
  have hvalue : ∀ c ∈ [p.1, p.2, q.1, q.2], c.value? = .ok c.value := by
    intro c hc
    have hlength : ¬ Coordinate.maxDigits < c.digits.length := Nat.not_lt.mpr (h c hc)
    rw [Coordinate.value?, if_neg hlength]
  rw [values, hvalue p.1 (by simp), hvalue p.2 (by simp), hvalue q.1 (by simp),
    hvalue q.2 (by simp)]
  rfl

theorem read?_corners (hp : IsPair p) (hq : IsPair q) (h : AreShort p q) :
    read? (cornersText p q) = .ok (some ⟨p.1.value, p.2.value, q.1.value - p.1.value,
      q.2.value - p.2.value⟩) := by
  have hpairs := findPairs_corners hp hq
  obtain ⟨t, ht⟩ : ∃ t, cornersText p q = '[' :: t := ⟨_, rfl⟩
  rw [ht] at hpairs ⊢
  rw [read?, hpairs]
  dsimp only
  rw [values_of_areShort h]
  rfl

theorem read?_size (hp : IsPair p) (hq : IsPair q) (h : AreShort p q) :
    read? (sizeText p q) = .ok (some ⟨p.1.value, p.2.value, q.1.value, q.2.value⟩) := by
  have hpairs := findPairs_size hp hq
  rw [sizeText] at hpairs ⊢
  rw [read?, hpairs]
  dsimp only
  rw [values_of_areShort h]
  rfl

/-- The middle of two corners, in whichever order they come. -/
theorem center_corners (x₁ y₁ x₂ y₂ : Int) :
    center ⟨x₁, y₁, x₂ - x₁, y₂ - y₁⟩ = ((x₁ + x₂).fdiv 2, (y₁ + y₂).fdiv 2) := by
  have hmiddle : ∀ i j : Int, i + (j - i).fdiv 2 = (i + j).fdiv 2 := by
    intro i j
    rw [Int.fdiv_eq_ediv_of_nonneg _ (by decide), Int.fdiv_eq_ediv_of_nonneg _ (by decide)]
    omega
  rw [center, hmiddle, hmiddle]

/-- The number lies between two others, in whichever order they come. -/
def IsBetween (i j m : Int) : Prop := min i j ≤ m ∧ m ≤ max i j

theorem isBetween_middle (i j : Int) : IsBetween i j ((i + j).fdiv 2) := by
  rw [IsBetween, Int.fdiv_eq_ediv_of_nonneg _ (by decide)]
  omega

/-- The value is read as a rectangle with its middle, and so is an attribute that has it. -/
structure ReadsAs (v : Text) (b : Bounds) (middle : Int × Int) : Prop where
  value : read? v = .ok (some b)
  bounds : ∀ n : Node, n.get? "bounds".toList = some v → n.bounds? = .ok (some b)
  center : ∀ n : Node, n.get? "bounds".toList = some v → n.center? = .ok (some middle)

theorem readsAs_of_read? (h : read? v = .ok (some b)) : ReadsAs v b b.center where
  value := h
  bounds n hn := by
    rw [Node.bounds?, hn]
    exact congrArg (Except.mapError Fault.longNumber) h
  center n hn := by
    rw [Node.center?, Node.bounds?, hn]
    exact congrArg (fun r => (Except.mapError Fault.longNumber r).map (Option.map Bounds.center)) h

/-- The value is two corners and nothing else. -/
structure WritesCorners (v : Text) (p q : Coordinate × Coordinate) : Prop where
  first : IsPair p
  second : IsPair q
  text : v = cornersText p q

/-- What a predicate may compare rectangles with is two corners. -/
theorem exists_corners_of_make {pr : Predicate} (h : Predicate.make .bounds .equals v = .ok pr) :
    ∃ p q, WritesCorners v p q := by
  obtain ⟨hattr, hoperator, hvalue⟩ := Predicate.make_eq_ok_iff.mp h
  have hlegal := refusal?_eq_none_iff.mp pr.legal
  rw [hattr, hoperator, hvalue] at hlegal
  obtain ⟨p, q, hp, hq, hv⟩ := hlegal.format rfl
  exact ⟨p, q, hp, hq, hv⟩

/-- **Rectangles are read as they were written.** A value that a predicate accepts for comparing
rectangles is two corners. Whenever none of their coordinates has more than 4300 digits, the value
is read as the first corner and the differences to the second one, and the middle is half of the
sums, rounded down; it lies between the corners, however they lie to each other. Likewise four
integers of that length, written as a corner and a size, are read as themselves, and the middle is
half of the size from the corner. -/
theorem readsAs_rectangle :
    (∀ (v : Text) (pr : Predicate), Predicate.make .bounds .equals v = .ok pr →
      (∃ p q, WritesCorners v p q) ∧
      ∀ x₁ y₁ x₂ y₂ : Coordinate, WritesCorners v (x₁, y₁) (x₂, y₂) →
        AreShort (x₁, y₁) (x₂, y₂) →
        ReadsAs v ⟨x₁.value, y₁.value, x₂.value - x₁.value, y₂.value - y₁.value⟩
          ((x₁.value + x₂.value).fdiv 2, (y₁.value + y₂.value).fdiv 2) ∧
        IsBetween x₁.value x₂.value ((x₁.value + x₂.value).fdiv 2) ∧
        IsBetween y₁.value y₂.value ((y₁.value + y₂.value).fdiv 2)) ∧
    ∀ x y w h : Int, (∀ i ∈ [x, y, w, h], (Text.ofNat i.natAbs).length ≤ 4300) →
      ReadsAs ("\x7b\x7b".toList ++ Text.ofInt x ++ ',' :: Text.ofInt y ++ "\x7d,\x7b".toList ++
          Text.ofInt w ++ ',' :: Text.ofInt h ++ "\x7d\x7d".toList)
        ⟨x, y, w, h⟩ (x + w.fdiv 2, y + h.fdiv 2) := by
  refine ⟨fun v pr hmade => ⟨exists_corners_of_make hmade, ?_⟩, ?_⟩
  · rintro x₁ y₁ x₂ y₂ ⟨hp, hq, rfl⟩ hshort
    refine ⟨?_, isBetween_middle _ _, isBetween_middle _ _⟩
    rw [← center_corners]
    exact readsAs_of_read? (read?_corners hp hq hshort)
  · intro x y w h hshort
    have hnumerals : ∀ i j : Int, IsPair (Coordinate.ofInt i, Coordinate.ofInt j) :=
      fun i j => ⟨Coordinate.isNumeral_ofInt i, Coordinate.isNumeral_ofInt j⟩
    have hread := read?_size (hnumerals x y) (hnumerals w h)
      (by simpa [AreShort, Coordinate.ofInt] using hshort)
    simp only [Coordinate.value_ofInt] at hread
    have htext : sizeText (Coordinate.ofInt x, Coordinate.ofInt y)
        (Coordinate.ofInt w, Coordinate.ofInt h) =
          "\x7b\x7b".toList ++ Text.ofInt x ++ ',' :: Text.ofInt y ++ "\x7d,\x7b".toList ++
            Text.ofInt w ++ ',' :: Text.ofInt h ++ "\x7d\x7d".toList := by
      simp [sizeText, pairText, Coordinate.text_ofInt]
    rw [← htext]
    exact readsAs_of_read? hread

/-- A corner with a digit that is not of ASCII, and a second corner that lies above the first. -/
def tiltedCorners : Text := "[-\u0663,5][7,-8]".toList

/-- A dump whose root has these corners. -/
def tiltedDump : Text := "<h bounds=\"".toList ++ tiltedCorners ++ "\"/>".toList

/-- The middle of the root, its second coordinate being rounded down below zero; and a corner with a
negative height. -/
theorem readsAs_rectangle_tilted :
    (∃ s : Snapshot, (Snapshot.build 1 (some tiltedDump)).result = .ok s ∧
      s.root.center? = .ok (some (2, -2))) ∧
      read? "\x7b\x7b1,2\x7d,\x7b3,-5\x7d\x7d".toList = .ok (some ⟨1, 2, 3, -5⟩) := by
  have hbuild : (Snapshot.build 1 (some tiltedDump)).result.toOption.any
      (fun s => s.root.get? "bounds".toList == some tiltedCorners) = true := by decide +kernel
  obtain ⟨s, hs, hget⟩ := Snapshot.exists_of_any_toOption hbuild
  have hlegal : refusal? .bounds .equals tiltedCorners = none := by decide
  have hmade : Predicate.make .bounds .equals tiltedCorners =
      .ok ⟨.bounds, .equals, tiltedCorners, hlegal⟩ :=
    Predicate.make_eq_ok_iff.mpr ⟨rfl, rfl, rfl⟩
  have hwritten : WritesCorners tiltedCorners (⟨true, ['\u0663']⟩, ⟨false, ['5']⟩)
      (⟨false, ['7']⟩, ⟨true, ['8']⟩) :=
    { first := ⟨⟨by decide, List.all_eq_true.mp rfl⟩, ⟨by decide, List.all_eq_true.mp rfl⟩⟩
      second := ⟨⟨by decide, List.all_eq_true.mp rfl⟩, ⟨by decide, List.all_eq_true.mp rfl⟩⟩
      text := by decide }
  have hshort : AreShort (⟨true, ['\u0663']⟩, ⟨false, ['5']⟩) (⟨false, ['7']⟩, ⟨true, ['8']⟩) := by
    unfold AreShort
    decide
  have hsizeText : "\x7b\x7b1,2\x7d,\x7b3,-5\x7d\x7d".toList =
      "\x7b\x7b".toList ++ Text.ofInt 1 ++ ',' :: Text.ofInt 2 ++ "\x7d,\x7b".toList ++
        Text.ofInt 3 ++ ',' :: Text.ofInt (-5) ++ "\x7d\x7d".toList := by decide
  obtain ⟨hcorners, hsize⟩ := readsAs_rectangle
  obtain ⟨-, hread⟩ := hcorners tiltedCorners _ hmade
  obtain ⟨hread, -⟩ := hread _ _ _ _ hwritten hshort
  rw [hsizeText]
  exact ⟨⟨s, hs, hread.center s.root (by simpa using hget)⟩, (hsize 1 2 3 (-5) (by decide)).value⟩

end Bounds

end UiTree
