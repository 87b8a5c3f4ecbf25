import UiTree.Proofs.XPath.Lexing

/-!
# UiTree.Proofs.XPath.Twin -- texts of the same tokens

Two texts of the same tokens look alike to the readers, whatever blanks stand between the tokens:
they begin with the same token, the same operator is cut off them, and the same is left. So does a
text before closing parentheses, as long as a reader does not come to its end inside of a call.

* **Nesting.** The end of the text closes a call where an argument could begin. `closes` says how
  many brackets are closed by tokens, and that every other bracket is closed where it was opened.
* **Relations.** `Twin`: two texts of the same tokens, the second with closing parentheses behind.
  `Agree`: two results with the same value, and twins for rests.
-/

namespace UiTree.XPath

open Xml (isSpace skipSpace)
open Text (Stops stops_cons)

/-! ## Nesting -/

/-- How many brackets are open behind a token; none when it closes one that is not open. -/
def Token.depth (d : Nat) : Token → Option Nat
  | .opening | .openBracket => some (d + 1)
  | .closing | .closeBracket => if d = 0 then none else some (d - 1)
  | _ => some d

/-- Do the tokens close the given number of brackets, and every bracket that they open? -/
def closes : Nat → List Token → Bool
  | d, [] => d == 0
  | d, k :: ts =>
    match k.depth d with
    | some e => closes e ts
    | none => false

/-! ## Twins -/

/-- Tokens that a text may end before: none at all, or a closing parenthesis and others. -/
def IsTail (us : List Token) : Prop := us = [] ∨ ∃ vs, us = .closing :: vs

/-- Two texts without leading blanks that are made of the same tokens, the second with more of them
behind. The tokens close the given number of brackets. -/
structure Twin (us : List Token) (d : Nat) (p : Slot) (ts : List Token) (x y : Text) : Prop where
  left : Spelled p ts x
  right : Spelled p (ts ++ us) y
  nested : closes d ts = true
  solidLeft : skipSpace x = x
  solidRight : skipSpace y = y

/-- A token before two texts: where it stands, that it ends there, and that twins follow. -/
structure Before (us : List Token) (d : Nat) (p : Slot) (k : Token) (ts : List Token)
    (r s : Text) : Prop where
  fits : k.fits p = true
  endsLeft : k.EndsBefore r
  endsRight : k.EndsBefore s
  behind : ∃ e, k.depth d = some e ∧ Twin us e k.next ts (skipSpace r) (skipSpace s)

variable {us : List Token} {d m n : Nat} {p : Slot} {ts : List Token} {x y : Text}

theorem Before.twin {k : Token} {r s : Text} {e : Nat} (h : Before us d p k ts r s)
    (he : k.depth d = some e) : Twin us e k.next ts (skipSpace r) (skipSpace s) := by
  obtain ⟨e', he', htwin⟩ := h.behind
  obtain rfl : e = e' := Option.some.inj (he.symm.trans he')
  exact htwin

/-- **Twins begin with the same token**, unless the first of them is at its end. -/
theorem Twin.cases (hus : IsTail us) (h : Twin us d p ts x y) :
    (ts = [] ∧ d = 0 ∧ x = [] ∧ (y = [] ∨ ∃ s, y = ')' :: s)) ∨
      ∃ k ts' r s, ts = k :: ts' ∧ x = k.text ++ r ∧ y = k.text ++ s ∧
        Before us d p k ts' r s := by
  obtain ⟨hleft, hright, hnested, hx, hy⟩ := h
  cases ts with
  | nil =>
      rw [spelled_nil_iff, hx] at hleft
      refine Or.inl ⟨rfl, eq_of_beq hnested, hleft, ?_⟩
      rcases hus with rfl | ⟨vs, rfl⟩
      · rw [List.append_nil, spelled_nil_iff, hy] at hright
        exact Or.inl hright
      · obtain ⟨s, hs, -⟩ := spelled_cons_iff.mp hright
        rw [hy] at hs
        exact Or.inr ⟨s, hs⟩
  | cons k ts =>
      obtain ⟨r, hr, hfits, hendsLeft, hleft⟩ := spelled_cons_iff.mp hleft
      obtain ⟨s, hs, -, hendsRight, hright⟩ := spelled_cons_iff.mp hright
      rw [hx] at hr
      rw [hy] at hs
      refine Or.inr ⟨k, ts, r, s, rfl, hr, hs, hfits, hendsLeft, hendsRight, ?_⟩
      rw [closes] at hnested
      split at hnested
      · next e he =>
        exact ⟨e, he, spelled_skipSpace_iff.mpr hleft, spelled_skipSpace_iff.mpr hright, hnested,
          skipSpace_skipSpace r, skipSpace_skipSpace s⟩
      · cases hnested

/-- **Twins show the same mark**, or neither of them shows it. -/
theorem Twin.mark (hus : IsTail us) (h : Twin us d p ts x y) {c : Char} {k : Token}
    (hmark : (c, k) ∈ marks) (hc : c ≠ ')' ∨ d ≠ 0) :
    (x.head? ≠ some c ∧ y.head? ≠ some c) ∨
      ∃ ts' r s, ts = k :: ts' ∧ x = k.text ++ r ∧ y = k.text ++ s ∧ Before us d p k ts' r s := by
  rcases h.cases hus with ⟨-, hd, rfl, hy⟩ | ⟨k', ts', r, s, hts, rfl, rfl, hbefore⟩
  · refine Or.inl ⟨by simp, ?_⟩
    rcases hy with rfl | ⟨s, rfl⟩
    · simp
    · have hne : c ≠ ')' := hc.resolve_right fun h => h hd
      simpa using hne.symm
  · by_cases hk : k' = k
    · subst hk
      exact Or.inr ⟨ts', r, s, hts, rfl, rfl, hbefore⟩
    · refine Or.inl ⟨?_, ?_⟩ <;> exact fun h => hk (Token.eq_of_head? hmark h)

/-- **Twins show the same slashes**, or neither of them shows any. -/
theorem Twin.slash (hus : IsTail us) (h : Twin us d p ts x y) :
    (x.head? ≠ some '/' ∧ y.head? ≠ some '/') ∨
      ∃ k ts' r s, (k = .slash ∨ k = .slashes) ∧ ts = k :: ts' ∧ x = k.text ++ r ∧
        y = k.text ++ s ∧ Before us d p k ts' r s := by
  rcases h.cases hus with ⟨-, -, rfl, hy⟩ | ⟨k, ts', r, s, hts, rfl, rfl, hbefore⟩
  · refine Or.inl ⟨by simp, ?_⟩
    rcases hy with rfl | ⟨s, rfl⟩ <;> simp
  · by_cases hk : k = .slash ∨ k = .slashes
    · exact Or.inr ⟨k, ts', r, s, hk, hts, rfl, rfl, hbefore⟩
    · refine Or.inl ⟨?_, ?_⟩ <;> exact fun h => hk (Token.isSlash_of_head? h)

theorem startsStep_append (k : Token) (r s : Text) :
    startsStep (k.text ++ r) = startsStep (k.text ++ s) := by
  obtain ⟨c, u, htext, -⟩ := k.startsSolid
  rw [htext]
  rfl

theorem Twin.startsStep_eq (hus : IsTail us) (h : Twin us d p ts x y) :
    startsStep x = startsStep y := by
  rcases h.cases hus with ⟨-, -, rfl, hy⟩ | ⟨k, ts', r, s, -, rfl, rfl, -⟩
  · rcases hy with rfl | ⟨s, rfl⟩ <;> rfl
  · exact startsStep_append k r s

theorem opens_iff {t : Text} : opens t = true ↔ t.head? = some '(' := by
  cases t with
  | nil => simp [opens, Text.isStart, Text.cutStart]
  | cons c t =>
      by_cases hc : '(' = c
      · subst hc
        exact iff_of_true rfl rfl
      · simp [opens, Text.isStart, Text.cutStart, hc, Ne.symm hc]

theorem Twin.opens_eq (hus : IsTail us) (h : Twin us d p ts x y) : opens x = opens y := by
  have hmark : ('(', Token.opening) ∈ marks := by simp [marks]
  rw [Bool.eq_iff_iff, opens_iff, opens_iff]
  rcases h.mark hus hmark (Or.inl (by decide)) with ⟨hx, hy⟩ | ⟨_, r, s, -, rfl, rfl, -⟩
  · exact iff_of_false hx hy
  · exact iff_of_true rfl rfl

/-! ## Rests and results -/

/-- Twins that a reader leaves: an operator can stand there, and there are fewer tokens than some
number. -/
def Rest (us : List Token) (d m : Nat) (r s : Text) : Prop :=
  ∃ p ts, Twin us d p ts r s ∧ Settled p r ∧ ts.length < m

/-- Two results that agree: both fail, or both have the same value and leave twins. Some readers
leave the blanks behind what they read; `cut` says what their caller does about that. -/
inductive Agree (cut : Text → Text) (us : List Token) (d m : Nat) {α : Type} :
    Option (α × Text) → Option (α × Text) → Prop
  | fails : Agree cut us d m none none
  | reads {a : α} {r s : Text} (rest : Rest us d m (cut r) (cut s)) :
    Agree cut us d m (some (a, r)) (some (a, s))

theorem Rest.mono (h : Rest us d m x y) (hmn : m ≤ n) : Rest us d n x y := by
  obtain ⟨p, ts, htwin, hsettled, hlength⟩ := h
  exact ⟨p, ts, htwin, hsettled, Nat.lt_of_lt_of_le hlength hmn⟩

theorem Rest.skipSpace_left (h : Rest us d m x y) : skipSpace x = x := by
  obtain ⟨p, ts, htwin, -⟩ := h
  exact htwin.solidLeft

theorem Rest.skipSpace_right (h : Rest us d m x y) : skipSpace y = y := by
  obtain ⟨p, ts, htwin, -⟩ := h
  exact htwin.solidRight

section Results

variable {α β : Type} {cut : Text → Text} {o o' : Option (α × Text)}

theorem Agree.mono (h : Agree cut us d m o o') (hmn : m ≤ n) : Agree cut us d n o o' := by
  cases h with
  | fails => exact .fails
  | reads hrest => exact .reads (hrest.mono hmn)

/-- Whoever leaves no blanks can be taken for one whose caller skips them. -/
theorem Agree.loosen (h : Agree id us d m o o') : Agree skipSpace us d m o o' := by
  cases h with
  | fails => exact .fails
  | @reads a r s hrest =>
      have hrest : Rest us d m r s := hrest
      refine .reads ?_
      rw [hrest.skipSpace_left, hrest.skipSpace_right]
      exact hrest

/-- **One reader after another.** -/
theorem Agree.bind {R : Option β → Option β → Prop} {f g : α × Text → Option β}
    (h : Agree cut us d m o o') (hfails : R none none)
    (hreads : ∀ a r s, Rest us d m (cut r) (cut s) → R (f (a, r)) (g (a, s))) :
    R (o >>= f) (o' >>= g) := by
  cases h with
  | fails => exact hfails
  | reads hrest => exact hreads _ _ _ hrest

end Results

/-- **Operators are cut alike.** -/
theorem Rest.cutOperator (hus : IsTail us) (h : Rest us d m x y) {ops : List BinaryOp}
    (hops : Tier.operators ops ∈ tiers) :
    (cutOperator ops x = none ∧ cutOperator ops y = none) ∨
      ∃ op r s ts, cutOperator ops x = some (op, r) ∧ cutOperator ops y = some (op, s) ∧
        Twin us d .operand ts (skipSpace r) (skipSpace s) ∧ ts.length + 1 < m := by
  obtain ⟨p, ts, htwin, hsettled, hlength⟩ := h
  have hsettledRight : Settled p y := by
    rw [Settled, ← htwin.startsStep_eq hus]
    exact hsettled
  rcases htwin.cases hus with ⟨-, -, rfl, hy⟩ | ⟨k, ts', r, s, rfl, rfl, rfl, hbefore⟩
  · refine Or.inl ⟨cutOperator_of_ends (ends_nil closers) ops, cutOperator_of_ends ?_ ops⟩
    rcases hy with rfl | ⟨s, rfl⟩
    · exact ends_nil closers
    · exact ends_cons (by decide) s
  · rw [cutOperator_token hops hbefore.fits hbefore.endsLeft hsettled,
      cutOperator_token hops hbefore.fits hbefore.endsRight hsettledRight]
    cases k with
    | operator op =>
        by_cases hmem : op ∈ ops
        · rw [Token.operator?, if_pos hmem]
          exact Or.inr ⟨op, r, s, ts', rfl, rfl, hbefore.twin rfl, hlength⟩
        · rw [Token.operator?, if_neg hmem]
          exact Or.inl ⟨rfl, rfl⟩
    | _ => exact Or.inl ⟨rfl, rfl⟩

theorem cutSigns_skipSpace (t : Text) : cutSigns (skipSpace t) = cutSigns t := by
  induction t with
  | nil => rfl
  | cons c t ih =>
      rw [skipSpace, List.dropWhile_cons]
      split
      · next hc =>
        have hsign : c ≠ '-' := by
          rintro rfl
          cases hc
        rw [cutSigns, if_neg hsign, if_pos hc]
        exact ih
      · rfl

theorem cutSigns_of_head {t : Text} (hsign : t.head? ≠ some '-') (ht : skipSpace t = t) :
    cutSigns t = (false, false, t) := by
  cases t with
  | nil => rfl
  | cons c t =>
      have hc : isSpace c = false := by
        have hstops : Stops isSpace (c :: t) := ht ▸ Text.stops_dropWhile isSpace (c :: t)
        exact stops_cons.mp hstops
      rw [cutSigns, if_neg fun h => hsign (congrArg some h), hc]
      rfl

/-- **Signs are cut alike.** -/
theorem Twin.cutSigns (hus : IsTail us) (h : Twin us d .operand ts x y) :
    ∃ any odd r s ts', cutSigns x = (any, odd, r) ∧ cutSigns y = (any, odd, s) ∧
      Twin us d .operand ts' r s ∧ ts'.length ≤ ts.length := by
  induction ts generalizing x y with
  | nil =>
      have hmark : ('-', Token.operator .minus) ∈ marks := by simp [marks]
      rcases h.mark hus hmark (Or.inl (by decide)) with ⟨hx, hy⟩ | ⟨_, _, _, hts, -⟩
      · exact ⟨false, false, x, y, [], cutSigns_of_head hx h.solidLeft,
          cutSigns_of_head hy h.solidRight, h, Nat.le_refl _⟩
      · cases hts
  | cons k ts ih =>
      have hmark : ('-', Token.operator .minus) ∈ marks := by simp [marks]
      rcases h.mark hus hmark (Or.inl (by decide)) with ⟨hx, hy⟩ | ⟨ts', r, s, hts, rfl, rfl, hb⟩
      · exact ⟨false, false, x, y, k :: ts, cutSigns_of_head hx h.solidLeft,
          cutSigns_of_head hy h.solidRight, h, Nat.le_refl _⟩
      · obtain ⟨rfl, rfl⟩ := List.cons.inj hts
        obtain ⟨any, odd, r', s', us', hr, hs, htwin, hlength⟩ := ih (hb.twin rfl)
        rw [cutSigns_skipSpace] at hr hs
        refine ⟨true, !odd, r', s', us', ?_, ?_, htwin, Nat.le_succ_of_le hlength⟩
        · show XPath.cutSigns ('-' :: r) = _
          rw [XPath.cutSigns, if_pos rfl, hr]
        · show XPath.cutSigns ('-' :: s) = _
          rw [XPath.cutSigns, if_pos rfl, hs]

theorem Twin.lead?_eq (hus : IsTail us) (h : Twin us d .operand ts x y) : lead? x = lead? y := by
  rcases h.cases hus with ⟨-, -, rfl, hy⟩ | ⟨k, ts', r, s, -, rfl, rfl, hb⟩
  · rcases hy with rfl | ⟨s, rfl⟩ <;> rfl
  · obtain ⟨e, -, htwin⟩ := hb.behind
    rw [lead?_token hb.fits hb.endsLeft, lead?_token hb.fits hb.endsRight, htwin.opens_eq hus]

/-! ## Node tests -/

/-- The parenthesis behind a kind of node. -/
def readClose (k : Kind) : Text → Option (NodeTest × Text)
  | ')' :: r => some (.kind k, r)
  | _ => none

theorem Twin.readClose (hus : IsTail us) (h : Twin us (d + 1) p ts x y) (k : Kind) :
    Agree skipSpace us d ts.length (readClose k x) (readClose k y) := by
  have hmark : (')', Token.closing) ∈ marks := by simp [marks]
  rcases h.mark hus hmark (Or.inr (Nat.succ_ne_zero d)) with
    ⟨hx, hy⟩ | ⟨ts', r, s, rfl, rfl, rfl, hb⟩
  · have hnone : ∀ {t : Text}, t.head? ≠ some ')' → XPath.readClose k t = none := by
      intro t ht
      unfold XPath.readClose
      split
      · exact absurd rfl ht
      · rfl
    rw [hnone hx, hnone hy]
    exact .fails
  · exact .reads ⟨_, ts', hb.twin rfl, Or.inl rfl, Nat.lt_succ_self _⟩

/-- The target of an instruction, and the parenthesis behind it. -/
def readTarget (t : Text) : Option (NodeTest × Text) :=
  match t with
  | ')' :: r => some (.kind (.instruction none), r)
  | t =>
    match readLiteral t with
    | some (target, r) => readClose (.instruction (some target)) (skipSpace r)
    | none => none

theorem Twin.readTarget (hus : IsTail us) (h : Twin us (d + 1) p ts x y) :
    Agree skipSpace us d ts.length (readTarget x) (readTarget y) := by
  have hmark : (')', Token.closing) ∈ marks := by simp [marks]
  rcases h.mark hus hmark (Or.inr (Nat.succ_ne_zero d)) with
    ⟨hx, hy⟩ | ⟨ts', r, s, rfl, rfl, rfl, hb⟩
  · have hliteral : ∀ {t : Text}, t.head? ≠ some ')' → XPath.readTarget t =
        match readLiteral t with
        | some (target, r) => XPath.readClose (.instruction (some target)) (skipSpace r)
        | none => none := by
      intro t ht
      unfold XPath.readTarget
      split
      · exact absurd rfl ht
      · rfl
    rw [hliteral hx, hliteral hy]
    rcases h.cases hus with ⟨-, hd, -⟩ | ⟨k, ts', r, s, rfl, rfl, rfl, hb⟩
    · cases hd
    · by_cases hk : ∃ l, k = .literal l
      · obtain ⟨l, rfl⟩ := hk
        have htwin : Twin us (d + 1) .operator ts' (skipSpace r) (skipSpace s) := hb.twin rfl
        rw [Token.text, readLiteral_literal, readLiteral_literal]
        exact (htwin.readClose hus _).mono (Nat.le_succ _)
      · have hnone := readLiteral_eq_none fun l hl => hk ⟨l, hl⟩
        rw [hnone, hnone]
        exact .fails
  · exact .reads ⟨_, ts', hb.twin rfl, Or.inl rfl, Nat.lt_succ_self _⟩

theorem readKind_eq (name t : Text) :
    readKind name t =
      if name = "comment".toList then readClose .comment (skipSpace t)
      else if name = "text".toList then readClose .text (skipSpace t)
      else if name = "node".toList then readClose .any (skipSpace t)
      else if name = "processing-instruction".toList then readTarget (skipSpace t)
      else none := by
  rfl

/-- A kind of node is read alike. -/
theorem Twin.readKind (hus : IsTail us) (name : Text)
    (h : Twin us (d + 1) p ts (skipSpace x) (skipSpace y)) :
    Agree skipSpace us d ts.length (readKind name x) (readKind name y) := by
  rw [readKind_eq, readKind_eq]
  split
  · exact h.readClose hus .comment
  · split
    · exact h.readClose hus .text
    · split
      · exact h.readClose hus .any
      · split
        · exact h.readTarget hus
        · exact .fails

/-- The test that a name makes is read alike. -/
theorem Twin.readTest (hus : IsTail us) (k : FullName)
    (h : Twin us d .operator ts (skipSpace x) (skipSpace y)) :
    Agree skipSpace us d (ts.length + 1) (k.readTest x) (k.readTest y) := by
  have hmark : ('(', Token.opening) ∈ marks := by simp [marks]
  rw [FullName.readTest, FullName.readTest, ← h.opens_eq hus]
  split
  · next hopen =>
    have hopen := opens_iff.mp (Bool.and_eq_true_iff.mp hopen).2
    rcases h.mark hus hmark (Or.inl (by decide)) with ⟨hx, -⟩ | ⟨ts', r, s, rfl, hx, hy, hb⟩
    · exact absurd hopen hx
    · rw [hx, hy]
      have hinner : Twin us (d + 1) .operand ts' (skipSpace r) (skipSpace s) := hb.twin rfl
      exact (hinner.readKind hus k.base.text).mono (by rw [List.length_cons]; omega)
  · exact .reads ⟨_, ts, h, Or.inl rfl, Nat.lt_succ_self _⟩

/-- The node test that a token makes is read alike. -/
theorem Token.readTest_agree (hus : IsTail us) {k : Token} {r s : Text}
    (h : Twin us d .operator ts (skipSpace r) (skipSpace s)) :
    Agree skipSpace us d (ts.length + 1) (k.readTest r) (k.readTest s) := by
  cases k with
  | star => exact .reads ⟨_, ts, h, Or.inl rfl, Nat.lt_succ_self _⟩
  | wildcard q => exact .reads ⟨_, ts, h, Or.inl rfl, Nat.lt_succ_self _⟩
  | name n => exact h.readTest hus n
  | _ => exact .fails

theorem readNodeTest_of_nil {t : Text} (h : skipSpace t = []) : readNodeTest t = none := by
  unfold readNodeTest
  rw [h]
  rfl

theorem readNodeTest_of_closing {t r : Text} (h : skipSpace t = ')' :: r) :
    readNodeTest t = none := by
  unfold readNodeTest
  rw [h]
  rfl

/-- A node test is read alike. -/
theorem Twin.readNodeTest (hus : IsTail us) (h : Twin us d .test ts (skipSpace x) (skipSpace y)) :
    Agree skipSpace us d (ts.length + 1) (readNodeTest x) (readNodeTest y) := by
  rcases h.cases hus with ⟨-, -, hx, hy⟩ | ⟨k, ts', r, s, rfl, hx, hy, hb⟩
  · rw [readNodeTest_of_nil hx]
    rcases hy with hy | ⟨s, hy⟩
    · rw [readNodeTest_of_nil hy]
      exact .fails
    · rw [readNodeTest_of_closing hy]
      exact .fails
  · rw [readNodeTest_token hx hb.fits hb.endsLeft, readNodeTest_token hy hb.fits hb.endsRight]
    cases k with
    | star | wildcard | name =>
        refine (Token.readTest_agree hus (hb.twin rfl)).mono ?_
        rw [List.length_cons]
        omega
    | _ => exact .fails

/-- The axis and the node test as one value before the rest. -/
def testing (o : Option (Axis × NodeTest × Text)) : Option ((Axis × NodeTest) × Text) :=
  o.map fun e => ((e.1, e.2.1), e.2.2)

theorem Agree.testing {a : Axis} {o o' : Option (NodeTest × Text)}
    (h : Agree skipSpace us d m o o') :
    Agree skipSpace us d m (testing (o.map fun e => (a, e.1, e.2)))
      (testing (o'.map fun e => (a, e.1, e.2))) := by
  cases h with
  | fails => exact .fails
  | reads hrest => exact .reads hrest

/-- The axis and the node test that a token begins are read alike. -/
theorem Before.readAxisTest (hus : IsTail us) {k : Token} {r s r' s' : Text}
    (hb : Before us d p k ts r s) (hr : skipSpace r' = skipSpace r)
    (hs : skipSpace s' = skipSpace s) :
    Agree skipSpace us d (ts.length + 1) (testing (k.readAxisTest r'))
      (testing (k.readAxisTest s')) := by
  have htest : ∀ {q}, k.depth d = some d → k.next = q →
      Twin us d q ts (skipSpace r') (skipSpace s') := by
    intro q hd hq
    rw [hr, hs, ← hq]
    exact hb.twin hd
  cases k with
  | atSign => exact ((htest rfl rfl).readNodeTest hus).testing
  | star => exact Agree.testing (Token.readTest_agree hus (k := .star) (htest rfl rfl))
  | wildcard q => exact Agree.testing (Token.readTest_agree hus (k := .wildcard q) (htest rfl rfl))
  | name v => exact Agree.testing (Token.readTest_agree hus (k := .name v) (htest rfl rfl))
  | axis a =>
      have hmark : (':', Token.colons) ∈ marks := by simp [marks]
      have htwin : Twin us d .colons ts (skipSpace r') (skipSpace s') := htest rfl rfl
      rcases htwin.mark hus hmark (Or.inl (by decide)) with
        ⟨hcolon, -⟩ | ⟨ts', u, v, rfl, hu, hv, hb'⟩
      · obtain ⟨u, hu⟩ := Text.isStart_iff.mp hb.endsLeft.2
        exact absurd (by rw [hr, hu]; rfl) hcolon
      · rw [Token.readAxisTest, Token.readAxisTest, hu, hv]
        have hinner : Twin us d .test ts' (skipSpace u) (skipSpace v) := hb'.twin rfl
        exact ((hinner.readNodeTest hus).mono (by rw [List.length_cons]; omega)).testing
  | _ => exact .fails

/-- **The axis and the node test of a step are read alike.** -/
theorem Twin.readAxisTest (hus : IsTail us) (h : Twin us d p ts x y)
    (hp : p = .operand ∨ p = .step) :
    Agree skipSpace us d ts.length (testing (readAxisTest x)) (testing (readAxisTest y)) := by
  rcases h.cases hus with ⟨-, -, rfl, hy⟩ | ⟨k, ts', r, s, rfl, rfl, rfl, hb⟩
  · rcases hy with rfl | ⟨s, rfl⟩ <;> exact .fails
  · obtain ⟨r', hr', hr⟩ : ∃ r', skipSpace r' = skipSpace r ∧
        readAxisTest (k.text ++ r) = k.readAxisTest r' := by
      rcases readAxisTest_token hb.fits hp hb.endsLeft with h | h
      · exact ⟨r, rfl, h⟩
      · exact ⟨skipSpace r, skipSpace_skipSpace r, h⟩
    obtain ⟨s', hs', hs⟩ : ∃ s', skipSpace s' = skipSpace s ∧
        readAxisTest (k.text ++ s) = k.readAxisTest s' := by
      rcases readAxisTest_token hb.fits hp hb.endsRight with h | h
      · exact ⟨s, rfl, h⟩
      · exact ⟨skipSpace s, skipSpace_skipSpace s, h⟩
    rw [hr, hs]
    exact hb.readAxisTest hus hr' hs'

end UiTree.XPath
