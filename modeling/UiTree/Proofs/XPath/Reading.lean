import UiTree.Proofs.Text.Cut
import UiTree.XPath.Reader

/-!
# UiTree.Proofs.XPath.Reading -- texts that are read as they were meant

The readers are greedy, so that a text can be read differently when something is put behind it. Here
are texts for which that does not happen as long as what follows begins with a character that closes
something: such a text is read as one expression, and what follows is left.

* **Relations.** `IsPath t e`, `IsExpr t e`, `AreArguments t es` and `ArePredicates t es` say that a
  text is read as a path, as an expression, as the rest of a call, as a row of predicates.
* **Fuel.** Twenty units for every character are enough, and nine more for the tiers of operators.
-/

namespace UiTree.XPath

open Xml (isSpace isNameStart isNameChar skipSpace readNCName readName)
open Text (Stops stops_nil stops_cons cutWhile_run)

/-! ## Where a text begins and where it ends -/

/-- The text begins with a character that is no blank, no sign and no closing parenthesis. -/
def Begins (t : Text) : Prop := ∃ c r, t = c :: r ∧ isSpace c = false ∧ c ≠ '-' ∧ c ≠ ')'

/-- The text is empty or begins with one of some characters. -/
def Ends (cs : List Char) (t : Text) : Prop := Stops (fun c => !cs.contains c) t

theorem ends_nil (cs : List Char) : Ends cs [] := stops_nil _

theorem ends_cons {cs : List Char} {c : Char} (h : c ∈ cs) (t : Text) : Ends cs (c :: t) := by
  rw [Ends, stops_cons]
  simpa using h

theorem Ends.cases {cs : List Char} {t : Text} (h : Ends cs t) :
    t = [] ∨ ∃ c r, t = c :: r ∧ c ∈ cs := by
  cases t with
  | nil => exact Or.inl rfl
  | cons c r => exact Or.inr ⟨c, r, rfl, by simpa [Ends, stops_cons] using h⟩

theorem Ends.mono {cs ds : List Char} {t : Text} (h : Ends cs t) (hsub : cs ⊆ ds) : Ends ds t := by
  rcases h.cases with rfl | ⟨c, r, rfl, hc⟩
  · exact ends_nil ds
  · exact ends_cons (hsub hc) r

theorem Ends.stops {cs : List Char} {t : Text} (h : Ends cs t) {p : Char → Bool}
    (hp : cs.any p = false) : Stops p t := by
  rcases h.cases with rfl | ⟨c, r, rfl, hc⟩
  · exact stops_nil p
  · exact stops_cons.mpr (Bool.eq_false_iff.mpr (List.any_eq_false.mp hp c hc))

/-- The characters that close an expression. -/
def closers : List Char := [')', ']', ',']

/-- The characters that may follow a path. -/
def followers : List Char := '=' :: closers

theorem Ends.eq_cons {t : Text} (h : Ends followers t) :
    t = [] ∨ ∃ r, t = '=' :: r ∨ t = ')' :: r ∨ t = ']' :: r ∨ t = ',' :: r := by
  rcases h.cases with rfl | ⟨c, r, rfl, hc⟩
  · exact Or.inl rfl
  · simp only [followers, closers, List.mem_cons, List.not_mem_nil, or_false] at hc
    exact Or.inr ⟨r, by simpa using hc⟩

theorem Ends.skipSpace_eq {t : Text} (h : Ends followers t) : skipSpace t = t :=
  Text.dropWhile_of_stops (h.stops (by decide))

theorem Begins.skipSpace_eq {t : Text} (h : Begins t) (rest : Text) :
    skipSpace (t ++ rest) = t ++ rest := by
  obtain ⟨c, r, rfl, hspace, -⟩ := h
  exact Text.dropWhile_of_stops (stops_cons.mpr hspace)

theorem Begins.cutSigns_eq {t : Text} (h : Begins t) (rest : Text) :
    cutSigns (t ++ rest) = (false, false, t ++ rest) := by
  obtain ⟨c, r, rfl, hspace, hsign, -⟩ := h
  rw [List.cons_append, cutSigns, if_neg hsign, if_neg (by simp [hspace])]

theorem Begins.ne_nil {t : Text} (h : Begins t) (rest : Text) : t ++ rest ≠ [] := by
  obtain ⟨c, r, rfl, -⟩ := h
  exact List.cons_ne_nil c (r ++ rest)

theorem Begins.append {t : Text} (h : Begins t) (u : Text) : Begins (t ++ u) := by
  obtain ⟨c, r, rfl, hc⟩ := h
  exact ⟨c, r ++ u, rfl, hc⟩

theorem Begins.length_pos {t : Text} (h : Begins t) : 0 < t.length := by
  obtain ⟨c, r, rfl, -⟩ := h
  exact Nat.succ_pos r.length

/-- No operator begins with a character that closes an expression. -/
theorem cutOperator_of_ends {t : Text} (h : Ends closers t) (ops : List BinaryOp) :
    cutOperator ops t = none := by
  rw [cutOperator, List.findSome?_eq_none_iff]
  intro op _
  rw [Option.map_eq_none_iff]
  rcases h.cases with rfl | ⟨c, r, rfl, hc⟩
  · cases op <;> rfl
  · simp only [closers, List.mem_cons, List.not_mem_nil, or_false] at hc
    rcases hc with rfl | rfl | rfl <;> cases op <;> rfl

/-! ## The relations -/

/-- The text is read as a path. -/
structure IsPath (t : Text) (e : Expr) : Prop where
  begins : Begins t
  reads : ∀ {fuel rest}, 20 * t.length ≤ fuel → Ends followers rest →
    readPath fuel (t ++ rest) = some (e, rest)

/-- The text is read as an expression. -/
structure IsExpr (t : Text) (e : Expr) : Prop where
  begins : Begins t
  reads : ∀ {fuel rest}, 20 * t.length + 9 ≤ fuel → Ends closers rest →
    readAt fuel tiers (t ++ rest) = some (e, rest)

/-- The text is read as the arguments of a call with the parenthesis after them. -/
structure AreArguments (t : Text) (es : List Expr) : Prop where
  begins : Begins t
  reads : ∀ {fuel rest}, 20 * t.length ≤ fuel →
    readArguments fuel (t ++ rest) = some (es, rest)

/-- The text is read as a row of predicates. -/
structure ArePredicates (t : Text) (es : List Expr) : Prop where
  solid : Stops isSpace t
  reads : ∀ {fuel rest}, 20 * t.length + 1 ≤ fuel → Ends followers rest →
    readPredicates fuel (t ++ rest) = some (es, rest)

theorem ArePredicates.skipSpace_eq {t rest : Text} {es : List Expr} (h : ArePredicates t es)
    (hrest : Ends followers rest) : skipSpace (t ++ rest) = t ++ rest := by
  cases t with
  | nil => exact hrest.skipSpace_eq
  | cons c t => exact Text.dropWhile_of_stops (stops_cons.mpr (stops_cons.mp h.solid))

/-! ## Tiers -/

/-- A tier without an operator of its own passes on what the tighter tiers read. -/
theorem readAt_operators {fuel : Nat} {ops : List BinaryOp} {tighter : List Tier} {t rest : Text}
    {e : Expr} (h : readAt (fuel + 1) tighter t = some (e, rest)) (hrest : Ends followers rest)
    (hops : cutOperator ops rest = none) :
    readAt (fuel + 2) (.operators ops :: tighter) t = some (e, rest) := by
  rw [readAt, h]
  simp only [Option.bind_eq_bind, Option.bind_some]
  rw [hrest.skipSpace_eq, readMore, hops]

/-- A path is an expression of any tiers whose operators do not follow it. -/
theorem IsPath.readAt {t rest : Text} {e : Expr} (h : IsPath t e) {ts : List Tier}
    {fuel : Nat} (hfuel : 20 * t.length + ts.length + 1 ≤ fuel) (hrest : Ends followers rest)
    (hops : ∀ ops, .operators ops ∈ ts → cutOperator ops rest = none) :
    readAt fuel ts (t ++ rest) = some (e, rest) := by
  have hpos := h.begins.length_pos
  induction ts generalizing fuel with
  | nil =>
      obtain ⟨fuel, rfl⟩ := Nat.exists_eq_add_of_le' (by omega : 1 ≤ fuel)
      rw [XPath.readAt, h.begins.skipSpace_eq]
      exact h.reads (by simp only [List.length_nil] at hfuel; omega) hrest
  | cons tier ts ih =>
      rw [List.length_cons] at hfuel
      obtain ⟨fuel, rfl⟩ := Nat.exists_eq_add_of_le' (by omega : 2 ≤ fuel)
      have htighter : XPath.readAt (fuel + 1) ts (t ++ rest) = some (e, rest) :=
        ih (by omega) fun ops hmem => hops ops (List.mem_cons_of_mem tier hmem)
      cases tier with
      | operators ops => exact readAt_operators htighter hrest (hops ops List.mem_cons_self)
      | signs =>
          rw [XPath.readAt, h.begins.cutSigns_eq]
          simp only [htighter, Option.bind_eq_bind, Option.bind_some, Bool.false_eq_true, if_false]
          rfl

theorem IsPath.isExpr {t : Text} {e : Expr} (h : IsPath t e) : IsExpr t e where
  begins := h.begins
  reads hfuel hrest :=
    h.readAt hfuel (hrest.mono (List.subset_cons_self '=' closers)) fun ops _ =>
      cutOperator_of_ends hrest ops

/-- The tiers above the comparison for equality. -/
def tighterTiers : List Tier :=
  [.operators [.atMost, .less, .atLeast, .greater], .operators [.plus, .minus],
   .operators [.times, .quotient, .remainder], .signs, .operators [.union]]

/-- Two paths with an equals sign between them. -/
theorem isExpr_equal {t u : Text} {a b : Expr} (ht : IsPath t a) (hu : IsPath u b) :
    IsExpr (t ++ '=' :: u) (.binary .equal a b) where
  begins := ht.begins.append _
  reads := by
    intro fuel rest hfuel hrest
    have hfollow : Ends followers rest := hrest.mono (List.subset_cons_self '=' closers)
    rw [List.length_append, List.length_cons] at hfuel
    obtain ⟨fuel, rfl⟩ := Nat.exists_eq_add_of_le' (by omega : 5 ≤ fuel)
    have hlength : tighterTiers.length = 5 := rfl
    have hleft : readAt (fuel + 2) tighterTiers (t ++ ('=' :: (u ++ rest))) =
        some (a, '=' :: (u ++ rest)) := by
      refine ht.readAt (by omega) (ends_cons (by decide) _) ?_
      intro ops hops
      simp only [tighterTiers, List.mem_cons, Tier.operators.injEq, reduceCtorEq,
        List.not_mem_nil, or_false, false_or] at hops
      rcases hops with rfl | rfl | rfl | rfl <;> rfl
    have hright : readAt (fuel + 1) tighterTiers (u ++ rest) = some (b, rest) :=
      hu.readAt (by omega) hfollow fun ops _ => cutOperator_of_ends hrest ops
    -- the tier of the comparison reads both sides; the looser ones have nothing to add
    have hequal : readAt (fuel + 3) (.operators [.equal, .unequal] :: tighterTiers)
        (t ++ '=' :: u ++ rest) = some (.binary .equal a b, rest) := by
      have hcut : cutOperator [.equal, .unequal] ('=' :: (u ++ rest)) =
          some (.equal, u ++ rest) := rfl
      rw [List.append_assoc, List.cons_append, readAt, hleft]
      simp only [Option.bind_eq_bind, Option.bind_some]
      rw [(ends_cons (by decide) _ : Ends followers ('=' :: (u ++ rest))).skipSpace_eq, readMore,
        hcut]
      simp only [Option.bind_eq_bind]
      rw [hu.begins.skipSpace_eq, hright]
      simp only [Option.bind_some]
      rw [hfollow.skipSpace_eq, readMore, cutOperator_of_ends hrest]
    exact readAt_operators (readAt_operators hequal hfollow (cutOperator_of_ends hrest _)) hfollow
      (cutOperator_of_ends hrest _)

/-! ## Primary expressions -/

/-- A primary expression with the predicates after it is a path, unless a step follows. -/
theorem readPath_primary {fuel : Nat} {t r rest : Text} {e : Expr} {ps : List Expr}
    (hlead : lead? t = some .primary) (he : readPrimary fuel t = some (e, r))
    (hps : readPredicates fuel (skipSpace r) = some (ps, rest)) (hrest : Ends followers rest) :
    readPath (fuel + 1) t = some (ps.foldl .filter e, rest) := by
  unfold readPath
  simp only [hlead, he, hps, Option.bind_eq_bind, Option.bind_some]
  rcases hrest.eq_cons with rfl | ⟨r, rfl | rfl | rfl | rfl⟩ <;> rfl

theorem readPredicates_none {fuel : Nat} {rest : Text} (hrest : Ends followers rest) :
    readPredicates (fuel + 1) rest = some ([], rest) := by
  unfold readPredicates
  rcases hrest.eq_cons with rfl | ⟨r, rfl | rfl | rfl | rfl⟩ <;> rfl

theorem readPredicates_skip {fuel : Nat} {rest : Text} (hrest : Ends followers rest) :
    readPredicates (fuel + 1) (skipSpace rest) = some ([], rest) := by
  rw [hrest.skipSpace_eq, readPredicates_none hrest]

/-- A text between two quotes of one kind. -/
theorem isPath_literal {q : Char} (hq : q = '\'' ∨ q = '"') {v : Text} (hv : q ∉ v) :
    IsPath (q :: v ++ [q]) (.literal v) where
  begins := ⟨q, v ++ [q], rfl, by rcases hq with rfl | rfl <;> decide⟩
  reads := by
    intro fuel rest hfuel hrest
    rw [List.length_append, List.length_cons, List.length_singleton] at hfuel
    obtain ⟨fuel, rfl⟩ := Nat.exists_eq_add_of_le' (by omega : 2 ≤ fuel)
    have hcut : Text.cutWhile (fun d => d != q) (v ++ q :: rest) = (v, q :: rest) := by
      refine cutWhile_run ?_ (stops_cons.mpr (by simp))
      intro c hc
      rw [bne_iff_ne]
      rintro rfl
      exact hv hc
    have hliteral : readLiteral (q :: (v ++ q :: rest)) = some (v, rest) := by
      rw [readLiteral, if_pos hq, hcut]
    have hlead : lead? (q :: (v ++ q :: rest)) = some .primary := by
      simp only [lead?]
      rw [if_pos (by rcases hq with rfl | rfl <;> decide)]
    have hprimary : readPrimary (fuel + 1) (q :: (v ++ q :: rest)) =
        some (.literal v, rest) := by
      rw [readPrimary, if_neg (by rcases hq with rfl | rfl <;> decide),
        if_neg (by rcases hq with rfl | rfl <;> decide), if_pos hq, hliteral]
      rfl
    have htext : q :: v ++ [q] ++ rest = q :: (v ++ q :: rest) := by
      rw [List.append_assoc, List.cons_append, List.singleton_append]
    rw [htext]
    exact readPath_primary hlead hprimary (readPredicates_skip hrest) hrest

/-! ## Names -/

/-- Is this a name without colons? -/
def isNCName : Text → Bool
  | c :: t => isNameStart c && t.all isNameChar
  | [] => false

theorem readNCName_append {name rest : Text} (h : isNCName name = true)
    (hrest : Stops isNameChar rest) : readNCName (name ++ rest) = some (name, rest) := by
  cases name with
  | nil => cases h
  | cons c name =>
      obtain ⟨hc, hname⟩ := Bool.and_eq_true_iff.mp h
      rw [readNCName, Xml.readRun.eq_def, List.cons_append]
      simp only [hc, if_true, cutWhile_run (List.all_eq_true.mp hname) hrest]

theorem readName_append {name rest : Text} (h : isNCName name = true)
    (hrest : Stops (fun c => isNameChar c || c == ':') rest) :
    readName (name ++ rest) = some (name, rest) := by
  cases name with
  | nil => cases h
  | cons c name =>
      obtain ⟨hc, hname⟩ := Bool.and_eq_true_iff.mp h
      have hall : ∀ d ∈ name, (isNameChar d || d == ':') = true := by
        intro d hd
        rw [List.all_eq_true.mp hname d hd, Bool.true_or]
      rw [readName, Xml.readRun.eq_def, List.cons_append]
      simp only [hc, Bool.true_or, if_true, cutWhile_run hall hrest]

/-- A character of a class is none that is outside of it. -/
theorem ne_of_class {p : Char → Bool} {c d : Char} (hc : p c = true) (hd : p d = false) :
    c ≠ d := by
  rintro rfl
  rw [hc] at hd
  cases hd

theorem not_isSpace_of_class {p : Char → Bool} {c : Char} (hc : p c = true)
    (hp : [' ', '\t', '\n', '\r'].any p = false) : isSpace c = false := by
  rw [Bool.eq_false_iff]
  intro hspace
  have hmem : c ∈ [' ', '\t', '\n', '\r'] := by
    simpa [isSpace, or_assoc] using hspace
  exact List.any_eq_false.mp hp c hmem hc

theorem begins_of_isNCName {name : Text} (h : isNCName name = true) : Begins name := by
  cases name with
  | nil => cases h
  | cons c name =>
      have hc : isNameStart c = true := (Bool.and_eq_true_iff.mp h).1
      exact ⟨c, name, rfl, not_isSpace_of_class hc (by decide), ne_of_class hc (by decide),
        ne_of_class hc (by decide)⟩

/-! ## Steps -/

theorem readPath_relative {fuel : Nat} {t : Text} (hlead : lead? t = some .location)
    (hslash : t.head? ≠ some '/') : readPath (fuel + 1) t = readRelative fuel .here t := by
  unfold readPath
  rw [hlead]
  dsimp only
  split
  · exact absurd rfl hslash
  · rfl

theorem readStep_axis {fuel : Nat} {e : Expr} {t r rest : Text} {a : Axis} {k : NodeTest}
    {ps : List Expr} (hdot : t.head? ≠ some '.') (haxis : readAxisTest t = some (a, k, r))
    (hps : readPredicates fuel (skipSpace r) = some (ps, rest)) :
    readStep (fuel + 1) e t = some (.step e a k ps, rest) := by
  unfold readStep
  split
  · exact absurd rfl hdot
  · exact absurd rfl hdot
  · simp only [haxis, hps, Option.bind_eq_bind, Option.bind_some]
    rfl

theorem readRelative_step {fuel : Nat} {e e' e'' : Expr} {t t' r : Text}
    {res : Option (Expr × Text)} (hcut : cutSlash e (skipSpace t) = (e', t'))
    (hstep : readStep fuel e' t' = some (e'', r))
    (hmore : readSteps fuel e'' (skipSpace r) = res) : readRelative (fuel + 1) e t = res := by
  rw [readRelative, hcut]
  simp only [hstep, Option.bind_eq_bind, Option.bind_some, hmore]

theorem readSteps_none {fuel : Nat} {e : Expr} {rest : Text} (hrest : Ends followers rest) :
    readSteps (fuel + 1) e rest = some (e, rest) := by
  unfold readSteps
  rcases hrest.eq_cons with rfl | ⟨r, rfl | rfl | rfl | rfl⟩ <;> rfl

theorem readNamedTest_plain {name rest : Text} (hrest : Ends followers rest) :
    readNamedTest name rest = some (.named none name, rest) := by
  unfold readNamedTest
  rw [hrest.skipSpace_eq]
  rcases hrest.eq_cons with rfl | ⟨r, rfl | rfl | rfl | rfl⟩ <;> rfl

/-- A name after the sign for attributes. -/
theorem isPath_attribute {key : Text} (hkey : isNCName key = true) :
    IsPath ('@' :: key) (.step .here .attribute (.named none key) []) where
  begins := ⟨'@', key, rfl, by decide⟩
  reads := by
    intro fuel rest hfuel hrest
    rw [List.length_cons] at hfuel
    obtain ⟨fuel, rfl⟩ := Nat.exists_eq_add_of_le' (by omega : 4 ≤ fuel)
    have hname := readNCName_append hkey (hrest.stops (p := isNameChar) (by decide))
    have htest : readNodeTest (key ++ rest) = some (.named none key, rest) := by
      unfold readNodeTest
      rw [(begins_of_isNCName hkey).skipSpace_eq]
      split
      · next r hstar =>
        -- no name begins with a star
        rw [hstar, readNCName, Xml.readRun, if_neg (by decide)] at hname
        cases hname
      · rw [hname]
        exact readNamedTest_plain hrest
    have haxis : readAxisTest ('@' :: (key ++ rest)) =
        some (.attribute, .named none key, rest) := by
      rw [readAxisTest, htest]
      rfl
    rw [List.cons_append, readPath_relative rfl (by simp)]
    refine readRelative_step rfl (readStep_axis (by simp) haxis (readPredicates_skip hrest)) ?_
    rw [hrest.skipSpace_eq, readSteps_none hrest]

/-! ## Predicates -/

theorem arePredicates_nil : ArePredicates [] [] where
  solid := stops_nil isSpace
  reads := by
    intro fuel rest hfuel hrest
    obtain ⟨fuel, rfl⟩ := Nat.exists_eq_add_of_le' (by omega : 1 ≤ fuel)
    exact readPredicates_none hrest

/-- An expression in square brackets before other predicates. -/
theorem arePredicates_cons {t u : Text} {e : Expr} {es : List Expr} (ht : IsExpr t e)
    (hu : ArePredicates u es) : ArePredicates ('[' :: t ++ ']' :: u) (e :: es) where
  solid := stops_cons.mpr (by decide)
  reads := by
    intro fuel rest hfuel hrest
    simp only [List.length_append, List.length_cons] at hfuel
    obtain ⟨fuel, rfl⟩ := Nat.exists_eq_add_of_le' (by omega : 1 ≤ fuel)
    have hread := ht.reads (by omega : 20 * t.length + 9 ≤ fuel)
      (ends_cons (by decide : ']' ∈ closers) (u ++ rest))
    have htext : '[' :: t ++ ']' :: u ++ rest = '[' :: (t ++ ']' :: (u ++ rest)) := by
      simp only [List.append_assoc, List.cons_append]
    rw [htext, readPredicates, ht.begins.skipSpace_eq, hread]
    simp only [Option.bind_eq_bind, Option.bind_some]
    rw [hu.skipSpace_eq hrest, hu.reads (by omega) hrest]
    rfl

/-! ## Calls -/

theorem areArguments_last {t : Text} {e : Expr} (h : IsExpr t e) :
    AreArguments (t ++ [')']) [e] where
  begins := h.begins.append _
  reads := by
    intro fuel rest hfuel
    rw [List.length_append, List.length_singleton] at hfuel
    obtain ⟨fuel, rfl⟩ := Nat.exists_eq_add_of_le' (by omega : 1 ≤ fuel)
    have hread := h.reads (by omega : 20 * t.length + 9 ≤ fuel)
      (ends_cons (by decide : ')' ∈ closers) rest)
    rw [List.append_assoc, List.singleton_append]
    unfold readArguments
    split
    · next hnil => exact absurd hnil (h.begins.ne_nil _)
    · rw [hread]
      rfl

theorem areArguments_cons {t u : Text} {e : Expr} {es : List Expr} (ht : IsExpr t e)
    (blanks : Text) (hblanks : blanks.all isSpace = true) (hu : AreArguments u es) :
    AreArguments (t ++ ',' :: blanks ++ u) (e :: es) where
  begins := (ht.begins.append _).append _
  reads := by
    intro fuel rest hfuel
    simp only [List.length_append, List.length_cons] at hfuel
    obtain ⟨fuel, rfl⟩ := Nat.exists_eq_add_of_le' (by omega : 1 ≤ fuel)
    have hread := ht.reads (by omega : 20 * t.length + 9 ≤ fuel)
      (ends_cons (by decide : ',' ∈ closers) (blanks ++ (u ++ rest)))
    have hskip : skipSpace (blanks ++ (u ++ rest)) = u ++ rest := by
      rw [skipSpace, List.dropWhile_append_of_pos (List.all_eq_true.mp hblanks)]
      exact hu.begins.skipSpace_eq rest
    have htext : t ++ ',' :: blanks ++ u ++ rest = t ++ ',' :: (blanks ++ (u ++ rest)) := by
      simp only [List.append_assoc, List.cons_append]
    rw [htext]
    unfold readArguments
    split
    · next hnil => exact absurd hnil (ht.begins.ne_nil _)
    · rw [hread]
      simp only [Option.bind_eq_bind, Option.bind_some]
      rw [hskip, hu.reads (by omega)]
      rfl

/-- Is this a name that only a call can begin with before a parenthesis? -/
def isCallName (name : Text) : Bool :=
  isNCName name && (name.head?.all fun c => !c.isDigit) && !isKindName name
    && !Text.isInfix "::".toList name

/-- A name before arguments in parentheses. -/
theorem isPath_call (name : Text) {t : Text} {es : List Expr} (hname : isCallName name = true)
    (ht : AreArguments t es) : IsPath (name ++ '(' :: t) (.call none name es) where
  begins := (begins_of_isNCName (by simp_all [isCallName])).append _
  reads := by
    intro fuel rest hfuel hrest
    simp only [isCallName, Bool.and_eq_true, Bool.not_eq_true'] at hname
    obtain ⟨⟨⟨hnc, hdigit⟩, hkind⟩, hcolons⟩ := hname
    rw [List.length_append, List.length_cons] at hfuel
    obtain ⟨fuel, rfl⟩ := Nat.exists_eq_add_of_le' (by omega : 2 ≤ fuel)
    have hopen : skipSpace ('(' :: (t ++ rest)) = '(' :: (t ++ rest) := rfl
    have hNC : readNCName (name ++ '(' :: (t ++ rest)) = some (name, '(' :: (t ++ rest)) :=
      readNCName_append hnc (stops_cons.mpr (by decide))
    have hwhole : readName (name ++ '(' :: (t ++ rest)) = some (name, '(' :: (t ++ rest)) :=
      readName_append hnc (stops_cons.mpr (by decide))
    have hqualified : readQualified (name ++ '(' :: (t ++ rest)) =
        some (none, name, '(' :: (t ++ rest)) := by
      rw [readQualified, hNC]
      rfl
    obtain ⟨c, k, rfl⟩ : ∃ c k, name = c :: k := by
      cases name with
      | nil => cases hnc
      | cons c k => exact ⟨c, k, rfl⟩
    have hc : isNameStart c = true := (Bool.and_eq_true_iff.mp hnc).1
    have hdigit : c.isDigit = false := by simpa using hdigit
    -- a name begins with none of the characters by which other forms are told
    have hmarks : c ≠ '$' ∧ c ≠ '(' ∧ c ≠ '\'' ∧ c ≠ '"' ∧ c ≠ '.' ∧ c ≠ '*' ∧ c ≠ '/' ∧
        c ≠ '@' := by
      refine ⟨?_, ?_, ?_, ?_, ?_, ?_, ?_, ?_⟩ <;> exact ne_of_class hc (by decide)
    rw [List.cons_append] at hqualified hwhole
    have hlead : lead? (c :: (k ++ '(' :: (t ++ rest))) = some .primary := by
      simp only [lead?, hwhole, hopen, hdigit, hkind, hcolons, hmarks, or_self,
        Bool.false_eq_true, if_false]
    have hprimary : readPrimary (fuel + 1) (c :: (k ++ '(' :: (t ++ rest))) =
        some (.call none (c :: k) es, rest) := by
      rw [readPrimary]
      simp only [hqualified, hdigit, hmarks, or_self, Bool.false_eq_true, if_false,
        Option.bind_eq_bind, Option.bind_some, hopen, ht.begins.skipSpace_eq]
      split
      · next hclose =>
        -- arguments do not begin with the parenthesis of a call without any
        obtain ⟨d, u, rfl, -, -, hd⟩ := ht.begins
        exact absurd (List.cons.inj hclose).1 hd
      · rw [ht.reads (by omega)]
        rfl
    have htext : c :: k ++ '(' :: t ++ rest = c :: (k ++ '(' :: (t ++ rest)) := by
      simp only [List.append_assoc, List.cons_append]
    rw [htext]
    exact readPath_primary hlead hprimary (readPredicates_skip hrest) hrest

/-! ## Groups and numbers -/

/-- An expression in parentheses before predicates. -/
theorem isPath_group {t u : Text} {e : Expr} {es : List Expr} (ht : IsExpr t e)
    (hu : ArePredicates u es) : IsPath ('(' :: t ++ ')' :: u) (es.foldl .filter e.grouped) where
  begins := ⟨'(', t ++ ')' :: u, rfl, by decide⟩
  reads := by
    intro fuel rest hfuel hrest
    simp only [List.length_append, List.length_cons] at hfuel
    obtain ⟨fuel, rfl⟩ := Nat.exists_eq_add_of_le' (by omega : 2 ≤ fuel)
    have hread := ht.reads (by omega : 20 * t.length + 9 ≤ fuel)
      (ends_cons (by decide : ')' ∈ closers) (u ++ rest))
    have htext : '(' :: t ++ ')' :: u ++ rest = '(' :: (t ++ ')' :: (u ++ rest)) := by
      simp only [List.append_assoc, List.cons_append]
    have hprimary : readPrimary (fuel + 1) ('(' :: (t ++ ')' :: (u ++ rest))) =
        some (e.grouped, u ++ rest) := by
      rw [readPrimary, if_neg (by decide), if_pos rfl, ht.begins.skipSpace_eq, hread]
      rfl
    have hps : readPredicates (fuel + 1) (skipSpace (u ++ rest)) = some (es, rest) := by
      rw [hu.skipSpace_eq hrest, hu.reads (by omega) hrest]
    rw [htext]
    exact readPath_primary rfl hprimary hps hrest

/-- A run of digits. -/
theorem isPath_digits {t : Text} (hdigits : ∀ c ∈ t, c.isDigit = true) (hne : t ≠ []) :
    IsPath t (.number (digitsValue t)) where
  begins := by
    obtain ⟨c, r, rfl⟩ := List.exists_cons_of_ne_nil hne
    have hc := hdigits c List.mem_cons_self
    exact ⟨c, r, rfl, not_isSpace_of_class hc (by decide), ne_of_class hc (by decide),
      ne_of_class hc (by decide)⟩
  reads := by
    intro fuel rest hfuel hrest
    obtain ⟨c, r, rfl⟩ := List.exists_cons_of_ne_nil hne
    rw [List.length_cons] at hfuel
    obtain ⟨fuel, rfl⟩ := Nat.exists_eq_add_of_le' (by omega : 2 ≤ fuel)
    have hcut : Text.cutWhile Char.isDigit (c :: r ++ rest) = (c :: r, rest) :=
      cutWhile_run hdigits (hrest.stops (by decide))
    have hnumber : readNumber (c :: r ++ rest) = some (digitsValue (c :: r), rest) := by
      rw [readNumber, hcut]
      rcases hrest.eq_cons with rfl | ⟨r, rfl | rfl | rfl | rfl⟩ <;> rfl
    have hc : c.isDigit = true := hdigits c List.mem_cons_self
    have hlead : lead? (c :: r ++ rest) = some .primary := by
      simp only [List.cons_append, lead?, hc, or_true, if_true]
    have hprimary : readPrimary (fuel + 1) (c :: r ++ rest) =
        some (.number (digitsValue (c :: r)), rest) := by
      rw [List.cons_append] at hnumber ⊢
      have hmarks : c ≠ '$' ∧ c ≠ '(' ∧ c ≠ '\'' ∧ c ≠ '"' := by
        refine ⟨?_, ?_, ?_, ?_⟩ <;> exact ne_of_class hc (by decide)
      rw [readPrimary]
      simp only [hmarks, hc, hnumber, or_self, true_or, if_false, if_true]
      rfl
    exact readPath_primary hlead hprimary (readPredicates_skip hrest) hrest

/-! ## All elements -/

section Elements

variable {t : Text} {es : List Expr} (ht : ArePredicates t es)

include ht

/-- A star with predicates, as a step that may have slashes before it. -/
theorem readRelative_star {fuel : Nat} {e e' : Expr} {u rest : Text}
    (hcut : cutSlash e (skipSpace u) = (e', '*' :: (t ++ rest)))
    (hfuel : 20 * t.length + 3 ≤ fuel) (hrest : Ends followers rest) :
    readRelative fuel e u = some (.step e' .child .any es, rest) := by
  obtain ⟨fuel, rfl⟩ := Nat.exists_eq_add_of_le' (by omega : 3 ≤ fuel)
  have hps : readPredicates (fuel + 1) (skipSpace (t ++ rest)) = some (es, rest) := by
    rw [ht.skipSpace_eq hrest, ht.reads (by omega) hrest]
  refine readRelative_step hcut (readStep_axis (by simp) rfl hps) ?_
  rw [hrest.skipSpace_eq, readSteps_none hrest]

theorem isPath_anywhere :
    IsPath ('/' :: '/' :: '*' :: t) (.step Expr.root.subtree .child .any es) where
  begins := ⟨'/', _, rfl, by decide⟩
  reads := by
    intro fuel rest hfuel hrest
    simp only [List.length_cons] at hfuel
    obtain ⟨fuel, rfl⟩ := Nat.exists_eq_add_of_le' (by omega : 3 ≤ fuel)
    have hstar : readRelative (fuel + 1) Expr.root.subtree ('*' :: (t ++ rest)) =
        some (.step Expr.root.subtree .child .any es, rest) :=
      readRelative_star ht rfl (by omega) hrest
    -- nothing that can follow goes on with a slash
    have hrooted : ∀ e, readRooted (fuel + 1) e rest = some (e, rest) := by
      intro e
      unfold readRooted
      rcases hrest.eq_cons with rfl | ⟨r, rfl | rfl | rfl | rfl⟩ <;> rfl
    have hpath : readPath (fuel + 3) ('/' :: '/' :: '*' :: (t ++ rest)) =
        readRooted (fuel + 2) .root ('/' :: '/' :: '*' :: (t ++ rest)) := rfl
    show readPath (fuel + 3) ('/' :: '/' :: '*' :: (t ++ rest)) = _
    rw [hpath, readRooted, hstar]
    simp only [Option.bind_eq_bind, Option.bind_some, hrooted]

theorem isPath_below :
    IsPath ('.' :: '/' :: '/' :: '*' :: t) (.step Expr.here.subtree .child .any es) where
  begins := ⟨'.', _, rfl, by decide⟩
  reads := by
    intro fuel rest hfuel hrest
    simp only [List.length_cons] at hfuel
    obtain ⟨fuel, rfl⟩ := Nat.exists_eq_add_of_le' (by omega : 4 ≤ fuel)
    show readPath (fuel + 4) ('.' :: '/' :: '/' :: '*' :: (t ++ rest)) = _
    rw [readPath_relative rfl (by simp)]
    -- the dot is a step of its own, and the slashes are read with the star
    refine readRelative_step rfl rfl ?_
    show readSteps (fuel + 2) .here ('/' :: '/' :: '*' :: (t ++ rest)) = _
    rw [readSteps]
    exact readRelative_star ht rfl (by omega) hrest

end Elements

/-- **A text that is read as an expression writes that expression.** -/
theorem IsExpr.read?_eq {t : Text} {e : Expr} (h : IsExpr t e) : Expr.read? t = some e := by
  have hspace : skipSpace t = t := by simpa using h.begins.skipSpace_eq []
  have hread := h.reads (by omega : 20 * t.length + 9 ≤ 20 * (t.length + 2)) (ends_nil closers)
  rw [List.append_nil] at hread
  unfold Expr.read?
  rw [hspace, hread]

end UiTree.XPath
