import UiTree.Proofs.XPath.Twin

/-!
# UiTree.Proofs.XPath.Layout -- reading does not depend on layout

The readers are followed on two texts of the same tokens at once. They come to the same places, take
the same branches and leave the same tokens, so that they make the same expression.

* **Opening the readers.** What a reader does is said by the lemmas in front, for each first token
  that it can meet.
* **Main statement.** `readsTwins`: the readers read twins alike, given twenty units of fuel for
  every token. Its step is one lemma for each reader, in `ReadsTwins`.
-/

namespace UiTree.XPath

open Xml (skipSpace)
open Text (Stops stops_cons)

variable {us : List Token} {d m n f g : Nat} {p : Slot} {ts : List Token} {x y : Text}

/-- A token that can begin a step, with or without slashes before it. -/
def Walks (p : Slot) (ts : List Token) : Prop :=
  (p = .operand ∨ p = .step) ∧ ∀ v, ts.head? ≠ some (.number v)

/-- What the readers do to twins, with at least the given amount of fuel on either side. -/
structure ReadsTwins (us : List Token) (n : Nat) : Prop where
  at' : ∀ {f g d L ts x y}, n ≤ f → n ≤ g → L <:+ tiers → Twin us d .operand ts x y →
    20 * ts.length + L.length + 5 ≤ n →
    Agree id us d (ts.length + 1) (readAt f L x) (readAt g L y)
  more : ∀ {f g d m ops L a x y}, n ≤ f → n ≤ g → .operators ops :: L <:+ tiers →
    Rest us d (m + 1) x y → 20 * m + 1 ≤ n →
    Agree id us d (m + 1) (readMore f ops L a x) (readMore g ops L a y)
  path : ∀ {f g d ts x y}, n ≤ f → n ≤ g → Twin us d .operand ts x y →
    20 * ts.length + 4 ≤ n → Agree id us d (ts.length + 1) (readPath f x) (readPath g y)
  rooted : ∀ {f g d m e x y}, n ≤ f → n ≤ g → Rest us d (m + 1) x y → 20 * m + 1 ≤ n →
    Agree id us d (m + 1) (readRooted f e x) (readRooted g e y)
  relative : ∀ {f g d p ts e x y}, n ≤ f → n ≤ g →
    Twin us d p ts (skipSpace x) (skipSpace y) →
    (Walks p ts ∨ (skipSpace x).head? = some '/') → 20 * ts.length + 3 ≤ n →
    Agree id us d (ts.length + 1) (readRelative f e x) (readRelative g e y)
  steps : ∀ {f g d m e x y}, n ≤ f → n ≤ g → Rest us d (m + 1) x y → 20 * m + 4 ≤ n →
    Agree id us d (m + 1) (readSteps f e x) (readSteps g e y)
  step : ∀ {f g d p ts e x y}, n ≤ f → n ≤ g → Twin us d p ts x y → Walks p ts →
    20 * ts.length + 2 ≤ n → Agree skipSpace us d ts.length (readStep f e x) (readStep g e y)
  predicates : ∀ {f g d m x y}, n ≤ f → n ≤ g → Rest us d (m + 1) x y → 20 * m + 1 ≤ n →
    Agree id us d (m + 1) (readPredicates f x) (readPredicates g y)
  primary : ∀ {f g d ts x y}, n ≤ f → n ≤ g → Twin us d .operand ts x y →
    lead? x = some .primary → 20 * ts.length + 2 ≤ n →
    Agree skipSpace us d ts.length (readPrimary f x) (readPrimary g y)
  arguments : ∀ {f g d ts x y}, n ≤ f → n ≤ g → Twin us (d + 1) .operand ts x y →
    20 * ts.length + 19 ≤ n →
    Agree skipSpace us d ts.length (readArguments f x) (readArguments g y)

theorem readArguments_of_ne_nil {f : Nat} {t : Text} (h : t ≠ []) :
    readArguments (f + 1) t = (do
      let (a, r) ← readAt f tiers t
      match r with
      | ')' :: r => return ([a], r)
      | ',' :: r => do
        let (as, r) ← readArguments f (skipSpace r)
        return (a :: as, r)
      | _ => none) := by
  cases t with
  | nil => exact absurd rfl h
  | cons c t => rfl

/-- A name before a parenthesis is read as a call. -/
theorem readPrimary_name {n : FullName} {f : Nat} {r u : Text} (hr : Stops isNamePart r)
    (hopen : skipSpace r = '(' :: u) :
    readPrimary (f + 1) (n.text ++ r) =
      match skipSpace u with
      | ')' :: v => some (.call (n.qualifier.map Name.text) n.base.text [], v)
      | v => do
        let (as, v) ← readArguments f v
        return (.call (n.qualifier.map Name.text) n.base.text as, v) := by
  obtain ⟨c, t, htext, hc, -⟩ := n.exists_cons
  have hmarks : c ≠ '$' ∧ c ≠ '(' ∧ c ≠ '\'' ∧ c ≠ '"' ∧ c ≠ '.' := by
    refine ⟨?_, ?_, ?_, ?_, ?_⟩ <;> exact ne_of_class hc (by decide)
  have hdigit : c.isDigit = false := isDigit_of_isNameStart hc
  have hqualified := readQualified_name n hr
  rw [htext, List.cons_append] at hqualified ⊢
  rw [readPrimary]
  simp only [hqualified, hdigit, hmarks, or_self, Bool.false_eq_true, if_false, hopen,
    Option.bind_eq_bind, Option.bind_some]
  rfl

theorem readPrimary_literal (l : Literal) (f : Nat) (t : Text) :
    readPrimary (f + 1) (l.text ++ t) = some (.literal l.value, t) := by
  have hread := readLiteral_literal l t
  have hmarks : l.quote ≠ '$' ∧ l.quote ≠ '(' := by
    rcases l.isQuote with h | h <;> rw [h] <;> decide
  rw [Literal.text, List.cons_append, List.cons_append] at hread ⊢
  rw [readPrimary, if_neg hmarks.1, if_neg hmarks.2, if_pos l.isQuote, hread]
  rfl

theorem readPrimary_number {v : Numeral} {t : Text} (h : (Token.number v).EndsBefore t)
    (f : Nat) : readPrimary (f + 1) (v.text ++ t) = some (.number v.value, t) := by
  have hread := readNumber_number v h
  obtain ⟨c, u, htext, hc⟩ : ∃ c u, v.text = c :: u ∧ (c.isDigit = true ∨ c = '.') := by
    rcases v.exists_cons with ⟨c, u, htext, hc⟩ | ⟨c, u, htext, -⟩
    · exact ⟨c, u, htext, Or.inl hc⟩
    · exact ⟨'.', c :: u, htext, Or.inr rfl⟩
  have hmarks : c ≠ '$' ∧ c ≠ '(' ∧ c ≠ '\'' ∧ c ≠ '"' := by
    rcases hc with hc | rfl
    · refine ⟨?_, ?_, ?_, ?_⟩ <;> exact ne_of_class hc (by decide)
    · decide
  rw [htext, List.cons_append] at hread ⊢
  rw [readPrimary]
  simp only [hmarks, hc, hread, or_self, if_false, if_true]
  rfl

/-- What the parenthesis behind an expression makes of it. -/
def closeGroup (e : Expr) : Text → Option (Expr × Text)
  | ')' :: r => some (e.grouped, r)
  | _ => none

theorem closeGroup_of_head {e : Expr} {t : Text} (h : t.head? ≠ some ')') :
    closeGroup e t = none := by
  unfold closeGroup
  split
  · exact absurd rfl h
  · rfl

/-- What is in parentheses is read first, and then the parenthesis behind it. -/
theorem readPrimary_group (f : Nat) (t : Text) :
    readPrimary (f + 1) ('(' :: t) =
      readAt f tiers (skipSpace t) >>= fun q => closeGroup q.1 q.2 := by
  rw [readPrimary, if_neg (by decide), if_pos rfl]
  rfl

theorem readPredicates_of_head {f : Nat} {t : Text} (h : t.head? ≠ some '[') :
    readPredicates (f + 1) t = some ([], t) := by
  unfold readPredicates
  split
  · exact absurd rfl h
  · rfl

/-- A single point is the context node. -/
theorem readStep_dot {t : Text} (h : Token.dot.EndsBefore t) (f : Nat) (e : Expr) :
    readStep (f + 1) e ('.' :: t) = some (e, t) := by
  unfold readStep
  split
  · next heq =>
    rw [(List.cons.inj heq).2] at h
    exact absurd (stops_cons.mp h) (by decide)
  · next heq => rw [(List.cons.inj heq).2]
  · next hno => exact absurd rfl (hno t)

/-- A step that begins with no point is an axis with a node test, and predicates. -/
theorem readStep_of_head {f : Nat} {e : Expr} {t : Text} (h : t.head? ≠ some '.') :
    readStep (f + 1) e t = testing (readAxisTest t) >>= fun q =>
      readPredicates f (skipSpace q.2) >>= fun ps => some (.step e q.1.1 q.1.2 ps.1, ps.2) := by
  unfold readStep
  split
  · exact absurd rfl h
  · exact absurd rfl h
  · rw [testing]
    cases readAxisTest t <;> rfl

theorem readSteps_of_head {f : Nat} {e : Expr} {t : Text} (h : t.head? ≠ some '/') :
    readSteps (f + 1) e t = some (e, t) := by
  unfold readSteps
  split
  · exact absurd rfl h
  · rfl

theorem readRooted_of_head {f : Nat} {e : Expr} {t : Text} (h : t.head? ≠ some '/') :
    readRooted (f + 1) e t = some (e, t) := by
  unfold readRooted
  split
  · exact absurd rfl h
  · exact absurd rfl h
  · rfl

theorem cutSlash_of_head {e : Expr} {t : Text} (h : t.head? ≠ some '/') :
    cutSlash e t = (e, t) := by
  unfold cutSlash
  split
  · exact absurd rfl h
  · exact absurd rfl h
  · rfl

/-- What a single slash is followed by. -/
theorem head?_of_slash {t : Text} (h : Token.slash.EndsBefore t) : t.head? ≠ some '/' := by
  cases t with
  | nil =>
      intro hc
      cases hc
  | cons c t =>
      intro hc
      rw [Option.some.inj hc] at h
      exact absurd (stops_cons.mp h) (by decide)

theorem cutSlash_slash {e : Expr} {t : Text} (h : t.head? ≠ some '/') :
    cutSlash e ('/' :: t) = (e, skipSpace t) := by
  unfold cutSlash
  split
  · next heq =>
    rw [(List.cons.inj heq).2] at h
    exact absurd rfl h
  · next heq => rw [(List.cons.inj heq).2]
  · next hno => exact absurd rfl (hno t)

theorem readRooted_slash {f : Nat} {e : Expr} {t : Text} (h : t.head? ≠ some '/') :
    readRooted (f + 1) e ('/' :: t) =
      if startsStep (skipSpace t) then
        readRelative f e (skipSpace t) >>= fun q => readRooted f q.1 q.2
      else readRooted f e (skipSpace t) := by
  cases t with
  | nil => rfl
  | cons c t =>
      have hc : c ≠ '/' := fun hc => h (congrArg some hc)
      rw [readRooted]
      intro r hr
      exact hc (List.cons.inj hr).1

/-- What follows a primary expression and its predicates. -/
def readBehind (f : Nat) (e : Expr) (t : Text) : Option (Expr × Text) :=
  match t with
  | '/' :: '/' :: r => readRelative f e.subtree r
  | '/' :: r => readRelative f e ('/' :: r)
  | r => some (e, r)

theorem readBehind_of_head {f : Nat} {e : Expr} {t : Text} (h : t.head? ≠ some '/') :
    readBehind f e t = some (e, t) := by
  unfold readBehind
  split
  · exact absurd rfl h
  · exact absurd rfl h
  · rfl

theorem readBehind_slash {f : Nat} {e : Expr} {t : Text} (h : t.head? ≠ some '/') :
    readBehind f e ('/' :: t) = readRelative f e ('/' :: t) := by
  unfold readBehind
  split
  · next heq =>
    rw [(List.cons.inj heq).2] at h
    exact absurd rfl h
  · next heq => rw [← heq]
  · next hno => exact absurd rfl (hno t)

theorem readPath_of_primary {f : Nat} {t : Text} (h : lead? t = some .primary) :
    readPath (f + 1) t = readPrimary f t >>= fun q =>
      readPredicates f (skipSpace q.2) >>= fun ps =>
        readBehind f (ps.1.foldl .filter q.1) ps.2 := by
  unfold readPath
  rw [h]
  rfl

theorem readPath_of_none {f : Nat} {t : Text} (h : lead? t = none) : readPath (f + 1) t = none := by
  unfold readPath
  rw [h]

theorem readPath_rooted {f : Nat} {t : Text} (h : lead? t = some .location)
    (hslash : t.head? = some '/') : readPath (f + 1) t = readRooted f .root t := by
  unfold readPath
  rw [h]
  dsimp only
  split
  · rfl
  · next hno =>
    cases t with
    | nil => cases hslash
    | cons c t => exact absurd (by rw [Option.some.inj hslash]) (hno t)

/-- Where a step begins behind slashes stands no number. -/
theorem Twin.walks (hus : IsTail us) (h : Twin us d .step ts x y) : Walks .step ts := by
  refine ⟨Or.inr rfl, ?_⟩
  rcases h.cases hus with ⟨rfl, -⟩ | ⟨k, ts', r, s, rfl, -, -, hb⟩
  · intro v hv
    cases hv
  · intro v hv
    obtain rfl : k = .number v := Option.some.inj hv
    cases hb.fits

namespace ReadsTwins

section Step

variable (hus : IsTail us) (ih : ReadsTwins us n) (hf : n ≤ f) (hg : n ≤ g)

include hus ih hf hg

/-! ## Tiers -/

theorem readMore_succ {ops : List BinaryOp} {L : List Tier} {a : Expr}
    (hL : .operators ops :: L <:+ tiers) (h : Rest us d (m + 1) x y) (hm : 20 * m ≤ n) :
    Agree id us d (m + 1) (readMore (f + 1) ops L a x) (readMore (g + 1) ops L a y) := by
  have hops : Tier.operators ops ∈ tiers := hL.subset List.mem_cons_self
  have htighter : L <:+ tiers := (List.suffix_cons _ L).trans hL
  have hcount : L.length ≤ 8 := htighter.length_le
  rw [readMore, readMore]
  rcases h.cutOperator hus hops with ⟨hx, hy⟩ | ⟨op, r, s, ts, hx, hy, htwin, hlength⟩
  · rw [hx, hy]
    exact .reads h
  · rw [hx, hy]
    refine (ih.at' hf hg htighter htwin (by omega)).bind .fails fun b r' s' hrest => ?_
    show Agree id us d (m + 1) (readMore f ops L (.binary op a b) (skipSpace r'))
      (readMore g ops L (.binary op a b) (skipSpace s'))
    have hleft : skipSpace r' = r' := hrest.skipSpace_left
    have hright : skipSpace s' = s' := hrest.skipSpace_right
    rw [hleft, hright]
    exact (ih.more hf hg hL hrest (by omega)).mono (by omega)

theorem readAt_succ {L : List Tier} (hL : L <:+ tiers) (h : Twin us d .operand ts x y)
    (hn : 20 * ts.length + L.length + 4 ≤ n) :
    Agree id us d (ts.length + 1) (readAt (f + 1) L x) (readAt (g + 1) L y) := by
  cases L with
  | nil =>
      rw [readAt, readAt, h.solidLeft, h.solidRight]
      exact ih.path hf hg h (by simpa using hn)
  | cons tier L =>
      have htighter : L <:+ tiers := (List.suffix_cons tier L).trans hL
      rw [List.length_cons] at hn
      cases tier with
      | operators ops =>
          rw [readAt, readAt]
          refine (ih.at' hf hg htighter h (by omega)).bind .fails fun a r s hrest => ?_
          show Agree id us d (ts.length + 1) (readMore f ops L a (skipSpace r))
            (readMore g ops L a (skipSpace s))
          have hleft : skipSpace r = r := hrest.skipSpace_left
          have hright : skipSpace s = s := hrest.skipSpace_right
          rw [hleft, hright]
          exact ih.more hf hg hL hrest (by omega)
      | signs =>
          obtain ⟨any, odd, r, s, ts', hx, hy, htwin, hlength⟩ := h.cutSigns hus
          rw [readAt, readAt, hx, hy]
          refine Agree.bind ((ih.at' hf hg htighter htwin (by omega)).mono
            (Nat.succ_le_succ hlength)) .fails fun a r' s' hrest => ?_
          exact .reads hrest

/-! ## Predicates, groups and calls -/

theorem readPredicates_succ (h : Rest us d (m + 1) x y) (hm : 20 * m ≤ n) :
    Agree id us d (m + 1) (readPredicates (f + 1) x) (readPredicates (g + 1) y) := by
  obtain ⟨p, ts, htwin, hsettled, hlength⟩ := h
  have hopen : ('[', Token.openBracket) ∈ marks := by simp [marks]
  have hclose : (']', Token.closeBracket) ∈ marks := by simp [marks]
  rcases htwin.mark hus hopen (Or.inl (by decide)) with ⟨hx, hy⟩ | ⟨ts', r, s, rfl, rfl, rfl, hb⟩
  · rw [readPredicates_of_head hx, readPredicates_of_head hy]
    exact .reads ⟨p, ts, htwin, hsettled, hlength⟩
  · have hinner : Twin us (d + 1) .operand ts' (skipSpace r) (skipSpace s) := hb.twin rfl
    rw [List.length_cons] at hlength
    show Agree id us d (m + 1) (readPredicates (f + 1) ('[' :: r))
      (readPredicates (g + 1) ('[' :: s))
    rw [readPredicates, readPredicates]
    have hcount : tiers.length = 8 := rfl
    refine (ih.at' hf hg (List.suffix_refl tiers) hinner (by omega)).bind .fails ?_
    rintro q r' s' ⟨p', vs, htwin', -, hlength'⟩
    rcases htwin'.mark hus hclose (Or.inl (by decide)) with
      ⟨hr, hs⟩ | ⟨vs', r'', s'', rfl, hr, hs, hb'⟩
    · dsimp only
      split
      · exact absurd rfl hr
      · split
        · exact absurd rfl hs
        · exact .fails
    · obtain rfl : r' = ']' :: r'' := hr
      obtain rfl : s' = ']' :: s'' := hs
      rw [List.length_cons] at hlength'
      have hrest : Rest us d (vs'.length + 1) (skipSpace r'') (skipSpace s'') :=
        ⟨_, vs', hb'.twin rfl, Or.inl rfl, Nat.lt_succ_self _⟩
      show Agree id us d (m + 1)
        (readPredicates f (skipSpace r'') >>= fun e => some (q :: e.1, e.2))
        (readPredicates g (skipSpace s'') >>= fun e => some (q :: e.1, e.2))
      refine ((ih.predicates hf hg hrest (by omega)).mono (by omega : _ ≤ m + 1)).bind .fails ?_
      intro qs u v huv
      exact .reads huv

theorem readArguments_succ (h : Twin us (d + 1) .operand ts x y) (hn : 20 * ts.length + 18 ≤ n) :
    Agree skipSpace us d ts.length (readArguments (f + 1) x) (readArguments (g + 1) y) := by
  have hclose : (')', Token.closing) ∈ marks := by simp [marks]
  have hcomma : (',', Token.comma) ∈ marks := by simp [marks]
  have hcount : tiers.length = 8 := rfl
  -- inside a call the text is not at its end
  obtain ⟨hx, hy⟩ : x ≠ [] ∧ y ≠ [] := by
    rcases h.cases hus with ⟨-, hd, -⟩ | ⟨k, _, r, s, -, rfl, rfl, -⟩
    · cases hd
    · have hpos := k.length_pos
      constructor <;> intro hnil <;> rw [List.append_eq_nil_iff] at hnil <;>
        rw [hnil.1] at hpos <;> cases hpos
  rw [readArguments_of_ne_nil hx, readArguments_of_ne_nil hy]
  refine (ih.at' hf hg (List.suffix_refl tiers) h (by omega)).bind .fails ?_
  rintro a r s ⟨p', vs, htwin, -, hlength⟩
  dsimp only
  rcases htwin.mark hus hclose (Or.inr (Nat.succ_ne_zero d)) with
    ⟨hr, hs⟩ | ⟨vs', r', s', rfl, hr, hs, hb⟩
  · rcases htwin.mark hus hcomma (Or.inl (by decide)) with
      ⟨hr', hs'⟩ | ⟨vs', r', s', rfl, hr', hs', hb⟩
    · split
      · exact absurd rfl hr
      · exact absurd rfl hr'
      · split
        · exact absurd rfl hs
        · exact absurd rfl hs'
        · exact .fails
    · obtain rfl : r = ',' :: r' := hr'
      obtain rfl : s = ',' :: s' := hs'
      rw [List.length_cons] at hlength
      show Agree skipSpace us d ts.length
        (readArguments f (skipSpace r') >>= fun e => some (a :: e.1, e.2))
        (readArguments g (skipSpace s') >>= fun e => some (a :: e.1, e.2))
      refine ((ih.arguments hf hg (hb.twin rfl) (by omega)).mono
        (by omega : _ ≤ ts.length)).bind .fails ?_
      intro as u v huv
      exact .reads huv
  · obtain rfl : r = ')' :: r' := hr
    obtain rfl : s = ')' :: s' := hs
    rw [List.length_cons] at hlength
    exact .reads ⟨_, vs', hb.twin rfl, Or.inl rfl, by omega⟩

/-- A name that may begin a path is followed by the arguments of a call. -/
theorem readPrimary_call {k : FullName} {r s : Text} (hb : Before us d .operand (.name k) ts r s)
    (hopen : opens (skipSpace r) = true) (hn : 20 * ts.length ≤ n) :
    Agree skipSpace us d (ts.length + 1) (readPrimary (f + 1) (k.text ++ r))
      (readPrimary (g + 1) (k.text ++ s)) := by
  have hparen : ('(', Token.opening) ∈ marks := by simp [marks]
  have hclose : (')', Token.closing) ∈ marks := by simp [marks]
  have htwin : Twin us d .operator ts (skipSpace r) (skipSpace s) := hb.twin rfl
  rcases htwin.mark hus hparen (Or.inl (by decide)) with ⟨hr, -⟩ | ⟨vs, u, v, rfl, hr, hs, hb'⟩
  · exact absurd (opens_iff.mp hopen) hr
  · have hinner : Twin us (d + 1) .operand vs (skipSpace u) (skipSpace v) := hb'.twin rfl
    have hleft : skipSpace r = '(' :: u := hr
    have hright : skipSpace s = '(' :: v := hs
    rw [List.length_cons] at hn ⊢
    rw [readPrimary_name hb.endsLeft.1 hleft, readPrimary_name hb.endsRight.1 hright]
    rcases hinner.mark hus hclose (Or.inr (Nat.succ_ne_zero d)) with
      ⟨hu, hv⟩ | ⟨vs', u', v', rfl, hu, hv, hb''⟩
    · split
      · next heq => exact absurd (by rw [heq]; rfl) hu
      · split
        · next heq => exact absurd (by rw [heq]; rfl) hv
        · refine ((ih.arguments hf hg hinner (by omega)).mono
            (by omega : _ ≤ vs.length + 1 + 1)).bind .fails ?_
          intro as u' v' hrest
          exact .reads hrest
    · rw [hu, hv]
      exact .reads ⟨_, vs', hb''.twin rfl, Or.inl rfl, by rw [List.length_cons]; omega⟩

theorem readPrimary_succ (h : Twin us d .operand ts x y) (hlead : lead? x = some .primary)
    (hn : 20 * ts.length + 1 ≤ n) :
    Agree skipSpace us d ts.length (readPrimary (f + 1) x) (readPrimary (g + 1) y) := by
  have hclose : (')', Token.closing) ∈ marks := by simp [marks]
  rcases h.cases hus with ⟨-, -, rfl, -⟩ | ⟨k, ts', r, s, rfl, rfl, rfl, hb⟩
  · cases hlead
  · rw [lead?_token hb.fits hb.endsLeft] at hlead
    rw [List.length_cons] at hn ⊢
    cases k with
    | reference v =>
        show Agree skipSpace us d (ts'.length + 1) (readPrimary (f + 1) ('$' :: (v.text ++ r)))
          (readPrimary (g + 1) ('$' :: (v.text ++ s)))
        rw [readPrimary, readPrimary, if_pos rfl, if_pos rfl, readQualified_name v hb.endsLeft,
          readQualified_name v hb.endsRight]
        exact .reads ⟨_, ts', hb.twin rfl, Or.inl rfl, Nat.lt_succ_self _⟩
    | literal l =>
        rw [Token.text, readPrimary_literal, readPrimary_literal]
        exact .reads ⟨_, ts', hb.twin rfl, Or.inl rfl, Nat.lt_succ_self _⟩
    | number v =>
        rw [Token.text, readPrimary_number hb.endsLeft, readPrimary_number hb.endsRight]
        exact .reads ⟨_, ts', hb.twin rfl, Or.inl rfl, Nat.lt_succ_self _⟩
    | opening =>
        show Agree skipSpace us d (ts'.length + 1) (readPrimary (f + 1) ('(' :: r))
          (readPrimary (g + 1) ('(' :: s))
        have hcount : tiers.length = 8 := rfl
        rw [readPrimary_group, readPrimary_group]
        refine (ih.at' hf hg (List.suffix_refl tiers) (hb.twin rfl) (by omega)).bind .fails ?_
        rintro a r' s' ⟨p', vs, htwin, -, hlength⟩
        have htwin : Twin us (d + 1) p' vs r' s' := htwin
        dsimp only
        rcases htwin.mark hus hclose (Or.inr (Nat.succ_ne_zero d)) with
          ⟨hr, hs⟩ | ⟨vs', u, v, rfl, hr, hs, hb'⟩
        · rw [closeGroup_of_head hr, closeGroup_of_head hs]
          exact .fails
        · obtain rfl : r' = ')' :: u := hr
          obtain rfl : s' = ')' :: v := hs
          rw [List.length_cons] at hlength
          exact .reads ⟨_, vs', hb'.twin rfl, Or.inl rfl, by omega⟩
    | name v =>
        have hopen : opens (skipSpace r) = true := by
          cases hr : opens (skipSpace r) with
          | true => rfl
          | false =>
              rw [hr] at hlead
              cases hlead
        exact readPrimary_call hus ih hf hg hb hopen (by omega)
    | _ => cases hlead

/-! ## Steps -/

theorem readStep_succ {e : Expr} (h : Twin us d p ts x y) (hwalks : Walks p ts)
    (hn : 20 * ts.length + 1 ≤ n) :
    Agree skipSpace us d ts.length (readStep (f + 1) e x) (readStep (g + 1) e y) := by
  by_cases hx : x.head? = some '.'
  · rcases h.cases hus with ⟨-, -, rfl, -⟩ | ⟨k, ts', r, s, rfl, rfl, rfl, hb⟩
    · cases hx
    · rcases Token.isDot_of_head? hx with rfl | rfl | ⟨v, rfl⟩
      · show Agree skipSpace us d (ts'.length + 1) (readStep (f + 1) e ('.' :: r))
          (readStep (g + 1) e ('.' :: s))
        rw [readStep_dot hb.endsLeft, readStep_dot hb.endsRight]
        exact .reads ⟨_, ts', hb.twin rfl, Or.inl rfl, Nat.lt_succ_self _⟩
      · exact .reads ⟨_, ts', hb.twin rfl, Or.inl rfl, Nat.lt_succ_self _⟩
      · exact absurd rfl (hwalks.2 v)
  · rcases h.cases hus with ⟨-, -, rfl, hy⟩ | ⟨k, ts', r, s, rfl, rfl, rfl, hb⟩
    · rcases hy with rfl | ⟨s, rfl⟩ <;> exact .fails
    · have hy : (k.text ++ s).head? ≠ some '.' := by
        rw [k.head?_append] at hx ⊢
        exact hx
      rw [List.length_cons] at hn ⊢
      rw [readStep_of_head hx, readStep_of_head hy]
      refine (h.readAxisTest hus hwalks.1).bind .fails ?_
      rintro ⟨a, t⟩ r' s' hrest
      refine ((ih.predicates hf hg hrest (by omega)).bind .fails ?_)
      intro ps r'' s'' hrest'
      exact Agree.loosen (.reads hrest')

omit hus in
/-- A step and those after it. -/
theorem readStep_readSteps {e : Expr} (h : Twin us d p ts x y) (hwalks : Walks p ts)
    (hn : 20 * ts.length + 2 ≤ n) :
    Agree id us d (ts.length + 1)
      (readStep f e x >>= fun q => readSteps f q.1 (skipSpace q.2))
      (readStep g e y >>= fun q => readSteps g q.1 (skipSpace q.2)) := by
  refine (ih.step hf hg h hwalks hn).bind .fails fun e' r s hrest => ?_
  obtain ⟨p', vs, htwin, hsettled, hlength⟩ := hrest
  have hrest : Rest us d (vs.length + 1) (skipSpace r) (skipSpace s) :=
    ⟨p', vs, htwin, hsettled, Nat.lt_succ_self _⟩
  exact (ih.steps hf hg hrest (by omega)).mono (by omega)

theorem readRelative_succ {e : Expr} (h : Twin us d p ts (skipSpace x) (skipSpace y))
    (hwalks : Walks p ts ∨ (skipSpace x).head? = some '/') (hn : 20 * ts.length + 2 ≤ n) :
    Agree id us d (ts.length + 1) (readRelative (f + 1) e x) (readRelative (g + 1) e y) := by
  have hunfold : ∀ {f : Nat} {t t' : Text} {e' : Expr}, cutSlash e (skipSpace t) = (e', t') →
      readRelative (f + 1) e t = readStep f e' t' >>= fun q => readSteps f q.1 (skipSpace q.2) := by
    intro f t t' e' ht
    rw [readRelative, ht]
  rcases h.slash hus with ⟨hx, hy⟩ | ⟨k, ts', r, s, hk, rfl, hx, hy, hb⟩
  · rw [hunfold (cutSlash_of_head hx), hunfold (cutSlash_of_head hy)]
    exact readStep_readSteps ih hf hg h (hwalks.resolve_right hx) hn
  · rw [List.length_cons] at hn ⊢
    have htwin : Twin us d .step ts' (skipSpace r) (skipSpace s) := by
      rcases hk with rfl | rfl <;> exact hb.twin rfl
    obtain ⟨e', hleft, hright⟩ : ∃ e', cutSlash e (skipSpace x) = (e', skipSpace r) ∧
        cutSlash e (skipSpace y) = (e', skipSpace s) := by
      rw [hx, hy]
      rcases hk with rfl | rfl
      · exact ⟨e, cutSlash_slash (head?_of_slash hb.endsLeft),
          cutSlash_slash (head?_of_slash hb.endsRight)⟩
      · exact ⟨e.subtree, rfl, rfl⟩
    rw [hunfold hleft, hunfold hright]
    exact (readStep_readSteps ih hf hg htwin (htwin.walks hus) (by omega)).mono (by omega)

theorem readSteps_succ {e : Expr} (h : Rest us d (m + 1) x y) (hm : 20 * m + 3 ≤ n) :
    Agree id us d (m + 1) (readSteps (f + 1) e x) (readSteps (g + 1) e y) := by
  obtain ⟨p, ts, htwin, hsettled, hlength⟩ := h
  rcases htwin.slash hus with ⟨hx, hy⟩ | ⟨k, ts', r, s, hk, rfl, rfl, rfl, hb⟩
  · rw [readSteps_of_head hx, readSteps_of_head hy]
    exact .reads ⟨p, ts, htwin, hsettled, hlength⟩
  · have hsteps : ∀ {f : Nat} {t : Text},
        readSteps (f + 1) e (k.text ++ t) = readRelative f e (k.text ++ t) := by
      intro f t
      rcases hk with rfl | rfl <;> rfl
    have hhead : (k.text ++ r).head? = some '/' := by rcases hk with rfl | rfl <;> rfl
    have hspace : Twin us d p (k :: ts') (skipSpace (k.text ++ r)) (skipSpace (k.text ++ s)) := by
      rw [k.skipSpace_eq, k.skipSpace_eq]
      exact htwin
    rw [hsteps, hsteps]
    refine (ih.relative hf hg hspace (Or.inr ?_) (by omega)).mono (by omega)
    rw [k.skipSpace_eq]
    exact hhead

theorem readRooted_succ {e : Expr} (h : Rest us d (m + 1) x y) (hm : 20 * m ≤ n) :
    Agree id us d (m + 1) (readRooted (f + 1) e x) (readRooted (g + 1) e y) := by
  obtain ⟨p, ts, htwin, hsettled, hlength⟩ := h
  rcases htwin.slash hus with ⟨hx, hy⟩ | ⟨k, ts', r, s, hk, rfl, rfl, rfl, hb⟩
  · rw [readRooted_of_head hx, readRooted_of_head hy]
    exact .reads ⟨p, ts, htwin, hsettled, hlength⟩
  · rw [List.length_cons] at hlength
    -- a relative path behind the slashes, and what is rooted after it
    have hgo : ∀ {e' : Expr} {r' s' : Text}, Twin us d .step ts' (skipSpace r') (skipSpace s') →
        Agree id us d (m + 1) (readRelative f e' r' >>= fun q => readRooted f q.1 q.2)
          (readRelative g e' s' >>= fun q => readRooted g q.1 q.2) := by
      intro e' r' s' hstep
      refine (ih.relative hf hg hstep (Or.inl (hstep.walks hus)) (by omega)).bind .fails ?_
      intro e'' u v hrest
      exact (ih.rooted hf hg hrest (by omega)).mono (by omega)
    rcases hk with rfl | rfl
    · have hstep : Twin us d .step ts' (skipSpace r) (skipSpace s) := hb.twin rfl
      show Agree id us d (m + 1) (readRooted (f + 1) e ('/' :: r)) (readRooted (g + 1) e ('/' :: s))
      rw [readRooted_slash (head?_of_slash hb.endsLeft),
        readRooted_slash (head?_of_slash hb.endsRight), ← hstep.startsStep_eq hus]
      split
      · refine hgo ?_
        rw [skipSpace_skipSpace, skipSpace_skipSpace]
        exact hstep
      · next hno =>
        have hrest : Rest us d (ts'.length + 1) (skipSpace r) (skipSpace s) :=
          ⟨_, ts', hstep, Or.inr (Bool.eq_false_iff.mpr hno), Nat.lt_succ_self _⟩
        exact (ih.rooted hf hg hrest (by omega)).mono (by omega)
    · exact hgo (hb.twin rfl)

/-! ## Paths -/

theorem readBehind_agree {e : Expr} (h : Rest us d (m + 1) x y) (hm : 20 * m + 3 ≤ n) :
    Agree id us d (m + 1) (readBehind f e x) (readBehind g e y) := by
  obtain ⟨p, ts, htwin, hsettled, hlength⟩ := h
  rcases htwin.slash hus with ⟨hx, hy⟩ | ⟨k, ts', r, s, hk, rfl, rfl, rfl, hb⟩
  · rw [readBehind_of_head hx, readBehind_of_head hy]
    exact .reads ⟨p, ts, htwin, hsettled, hlength⟩
  · rcases hk with rfl | rfl
    · have hspace : Twin us d p (.slash :: ts') (skipSpace ('/' :: r)) (skipSpace ('/' :: s)) :=
        htwin
      show Agree id us d (m + 1) (readBehind f e ('/' :: r)) (readBehind g e ('/' :: s))
      rw [readBehind_slash (head?_of_slash hb.endsLeft),
        readBehind_slash (head?_of_slash hb.endsRight)]
      exact (ih.relative hf hg hspace (Or.inr rfl) (by omega)).mono (by omega)
    · rw [List.length_cons] at hlength
      have hstep : Twin us d .step ts' (skipSpace r) (skipSpace s) := hb.twin rfl
      exact (ih.relative hf hg hstep (Or.inl (hstep.walks hus)) (by omega)).mono (by omega)

theorem readPath_succ (h : Twin us d .operand ts x y) (hn : 20 * ts.length + 3 ≤ n) :
    Agree id us d (ts.length + 1) (readPath (f + 1) x) (readPath (g + 1) y) := by
  have hleads := h.lead?_eq hus
  cases hlead : lead? x with
  | none =>
      rw [readPath_of_none hlead, readPath_of_none (hleads.symm.trans hlead)]
      exact .fails
  | some lead =>
      cases lead with
      | primary =>
          rw [readPath_of_primary hlead, readPath_of_primary (hleads.symm.trans hlead)]
          refine (ih.primary hf hg h hlead (by omega)).bind .fails fun e r s hrest => ?_
          have hrest := hrest.mono (Nat.le_succ ts.length)
          refine (ih.predicates hf hg hrest (by omega)).bind .fails fun ps r' s' hrest' => ?_
          exact readBehind_agree hus ih hf hg hrest' (by omega)
      | location =>
          rcases h.slash hus with ⟨hx, hy⟩ | ⟨k, ts', r, s, hk, rfl, rfl, rfl, hb⟩
          · have hwalks : Walks .operand ts := by
              refine ⟨Or.inl rfl, fun v hv => ?_⟩
              rcases h.cases hus with ⟨rfl, -⟩ | ⟨k, ts', r, s, rfl, rfl, -, hb⟩
              · cases hv
              · obtain rfl : k = .number v := Option.some.inj hv
                rw [lead?_token hb.fits hb.endsLeft] at hlead
                cases hlead
            have hspace : Twin us d .operand ts (skipSpace x) (skipSpace y) := by
              rw [h.solidLeft, h.solidRight]
              exact h
            rw [readPath_relative hlead hx, readPath_relative (hleads.symm.trans hlead) hy]
            exact ih.relative hf hg hspace (Or.inl hwalks) (by omega)
          · have hleft : (k.text ++ r).head? = some '/' := by rcases hk with rfl | rfl <;> rfl
            have hright : (k.text ++ s).head? = some '/' := by rcases hk with rfl | rfl <;> rfl
            have hsettled : startsStep (k.text ++ r) = false := by
              rcases hk with rfl | rfl <;> rfl
            rw [readPath_rooted hlead hleft, readPath_rooted (hleads.symm.trans hlead) hright]
            exact ih.rooted hf hg ⟨_, _, h, Or.inr hsettled, Nat.lt_succ_self _⟩ (by omega)

end Step

end ReadsTwins

/-- **The readers read twins alike**, given twenty units of fuel for every token. -/
theorem readsTwins (hus : IsTail us) (n : Nat) : ReadsTwins us n := by
  induction n with
  | zero =>
      constructor <;> intros <;> omega
  | succ n ih =>
      have hpred : ∀ {k : Nat}, n + 1 ≤ k → ∃ j, k = j + 1 ∧ n ≤ j := by
        intro k hk
        exact ⟨k - 1, by omega, by omega⟩
      constructor
      case at' =>
        intro f g d L ts x y hf hg hL h hn
        obtain ⟨f, rfl, hleft⟩ := hpred hf
        obtain ⟨g, rfl, hright⟩ := hpred hg
        exact ReadsTwins.readAt_succ hus ih hleft hright hL h (by omega)
      case more =>
        intro f g d m ops L a x y hf hg hL h hm
        obtain ⟨f, rfl, hleft⟩ := hpred hf
        obtain ⟨g, rfl, hright⟩ := hpred hg
        exact ReadsTwins.readMore_succ hus ih hleft hright hL h (by omega)
      case path =>
        intro f g d ts x y hf hg h hn
        obtain ⟨f, rfl, hleft⟩ := hpred hf
        obtain ⟨g, rfl, hright⟩ := hpred hg
        exact ReadsTwins.readPath_succ hus ih hleft hright h (by omega)
      case rooted =>
        intro f g d m e x y hf hg h hm
        obtain ⟨f, rfl, hleft⟩ := hpred hf
        obtain ⟨g, rfl, hright⟩ := hpred hg
        exact ReadsTwins.readRooted_succ hus ih hleft hright h (by omega)
      case relative =>
        intro f g d p ts e x y hf hg h hwalks hn
        obtain ⟨f, rfl, hleft⟩ := hpred hf
        obtain ⟨g, rfl, hright⟩ := hpred hg
        exact ReadsTwins.readRelative_succ hus ih hleft hright h hwalks (by omega)
      case steps =>
        intro f g d m e x y hf hg h hm
        obtain ⟨f, rfl, hleft⟩ := hpred hf
        obtain ⟨g, rfl, hright⟩ := hpred hg
        exact ReadsTwins.readSteps_succ hus ih hleft hright h (by omega)
      case step =>
        intro f g d p ts e x y hf hg h hwalks hn
        obtain ⟨f, rfl, hleft⟩ := hpred hf
        obtain ⟨g, rfl, hright⟩ := hpred hg
        exact ReadsTwins.readStep_succ hus ih hleft hright h hwalks (by omega)
      case predicates =>
        intro f g d m x y hf hg h hm
        obtain ⟨f, rfl, hleft⟩ := hpred hf
        obtain ⟨g, rfl, hright⟩ := hpred hg
        exact ReadsTwins.readPredicates_succ hus ih hleft hright h (by omega)
      case primary =>
        intro f g d ts x y hf hg h hlead hn
        obtain ⟨f, rfl, hleft⟩ := hpred hf
        obtain ⟨g, rfl, hright⟩ := hpred hg
        exact ReadsTwins.readPrimary_succ hus ih hleft hright h hlead (by omega)
      case arguments =>
        intro f g d ts x y hf hg h hn
        obtain ⟨f, rfl, hleft⟩ := hpred hf
        obtain ⟨g, rfl, hright⟩ := hpred hg
        exact ReadsTwins.readArguments_succ hus ih hleft hright h (by omega)

end UiTree.XPath
