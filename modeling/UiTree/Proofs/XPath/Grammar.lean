import UiTree.Proofs.XPath.Twin

/-!
# UiTree.Proofs.XPath.Grammar -- what a path expression is

The grammar of path expressions over tokens, independent of any reader. Binary operators bind in
the tiers of the language; location paths are given with their abbreviations.

* **Words and stars.** Which tokens a text is made of depends on what stands before them. A star or
  a word is an operator behind an operand, and only there; `recognized` is that rule.
* **Main statements.** `IsExpression.inSlots`: the tokens of an expression stand in their slots.
  `IsExpression.closes`: an expression closes every bracket that it opens. `IsExpression.wrapped`:
  it stays an expression when parentheses are put around it.
-/

namespace UiTree.XPath

/-! ## The grammar -/

/-- A kind of phrase. -/
inductive Phrase where
  | tiers (L : List Tier)
  | path
  | relative
  | step
  | test
  | predicates
  | filter
  | primary
  | arguments

/-- The names of the kinds of nodes. -/
def isKind (n : FullName) : Prop := n.qualifier = none ∧ isKindName n.base.text = true

/-- One slash or two. -/
def isSlash (k : Token) : Prop := k = .slash ∨ k = .slashes

/-- The tokens derive from a phrase. -/
inductive Derives : Phrase → List Token → Prop
  | path {ts} : Derives .path ts → Derives (.tiers []) ts
  | operand {ops L ts} : Derives (.tiers L) ts → Derives (.tiers (.operators ops :: L)) ts
  | binary {ops L op ts us} : Derives (.tiers (.operators ops :: L)) ts → op ∈ ops →
    Derives (.tiers L) us → Derives (.tiers (.operators ops :: L)) (ts ++ .operator op :: us)
  | unsigned {L ts} : Derives (.tiers L) ts → Derives (.tiers (.signs :: L)) ts
  | signed {L ts} : Derives (.tiers (.signs :: L)) ts →
    Derives (.tiers (.signs :: L)) (.operator .minus :: ts)
  | location {ts} : Derives .relative ts → Derives .path ts
  | root : Derives .path [.slash]
  | rooted {k ts} : isSlash k → Derives .relative ts → Derives .path (k :: ts)
  | filtered {ts} : Derives .filter ts → Derives .path ts
  | behind {k ts us} : Derives .filter ts → isSlash k → Derives .relative us →
    Derives .path (ts ++ k :: us)
  | first {ts} : Derives .step ts → Derives .relative ts
  | further {k ts us} : Derives .relative ts → isSlash k → Derives .step us →
    Derives .relative (ts ++ k :: us)
  | here : Derives .step [.dot]
  | parent : Derives .step [.dots]
  | child {ts us} : Derives .test ts → Derives .predicates us → Derives .step (ts ++ us)
  | ofAttribute {ts us} : Derives .test ts → Derives .predicates us →
    Derives .step (.atSign :: ts ++ us)
  | along {a ts us} : Derives .test ts → Derives .predicates us →
    Derives .step (.axis a :: .colons :: ts ++ us)
  | anyName : Derives .test [.star]
  | inNamespace {q} : Derives .test [.wildcard q]
  | named {n} : Derives .test [.name n]
  | kind {n} : isKind n → Derives .test [.name n, .opening, .closing]
  | instruction {n l} : isKind n → n.base.text = "processing-instruction".toList →
    Derives .test [.name n, .opening, .literal l, .closing]
  | noPredicate : Derives .predicates []
  | predicate {ts us} : Derives (.tiers tiers) ts → Derives .predicates us →
    Derives .predicates (.openBracket :: ts ++ .closeBracket :: us)
  | filter {ts us} : Derives .primary ts → Derives .predicates us → Derives .filter (ts ++ us)
  | reference {n} : Derives .primary [.reference n]
  | literal {l} : Derives .primary [.literal l]
  | number {n} : Derives .primary [.number n]
  | group {ts} : Derives (.tiers tiers) ts → Derives .primary (.opening :: ts ++ [.closing])
  | call {n} : ¬isKind n → Derives .primary [.name n, .opening, .closing]
  | callWith {n ts} : ¬isKind n → Derives .arguments ts →
    Derives .primary (.name n :: .opening :: ts ++ [.closing])
  | argument {ts} : Derives (.tiers tiers) ts → Derives .arguments ts
  | oneMore {ts us} : Derives (.tiers tiers) ts → Derives .arguments us →
    Derives .arguments (ts ++ .comma :: us)

/-- May the token be recognized behind an operand, or where none is before it? -/
def Token.isRecognized (behindOperand : Bool) : Token → Bool
  | .star | .wildcard _ | .name _ | .axis _ => !behindOperand
  | .operator op => !op.isAmbiguous || behindOperand
  | _ => true

/-- Are words and stars recognized by what stands before them? -/
def recognized : Bool → List Token → Bool
  | _, [] => true
  | b, k :: ts => k.isRecognized b && recognized (k.next == .operator) ts

/-- The tokens of a path expression. -/
structure IsExpression (ts : List Token) : Prop where
  derives : Derives (.tiers tiers) ts
  recognized : recognized false ts = true

/-! ## Slots -/

/-- Can the token stand in a slot, whatever it is recognized as? -/
def Token.follows (p : Slot) : Token → Bool
  | .colons => p == .colons
  | .axis _ => p != .colons && p != .test
  | .number _ => p != .colons && p != .step
  | _ => p != .colons

/-- Do the tokens follow one another as they can? -/
def chained : Slot → List Token → Bool
  | _, [] => true
  | p, k :: ts => k.follows p && chained k.next ts

theorem Token.fits_eq (p : Slot) (k : Token) :
    k.fits p = (k.follows p && k.isRecognized (p == .operator)) := by
  cases k with
  | operator op => cases op <;> cases p <;> rfl
  | _ => cases p <;> rfl

theorem inSlots_eq (p : Slot) (ts : List Token) :
    inSlots p ts = (chained p ts && recognized (p == .operator) ts) := by
  induction ts generalizing p with
  | nil => rfl
  | cons k ts ih =>
      rw [inSlots, chained, recognized, ih, Token.fits_eq]
      cases k.follows p <;> cases k.isRecognized (p == .operator) <;>
        cases chained k.next ts <;> rfl

/-- The slots in which a phrase can begin. -/
def Phrase.begins (p : Slot) : Phrase → Bool
  | .predicates => p != .colons
  | .test => p != .colons && p != .operator
  | .relative | .step => p == .operand || p == .step
  | _ => p == .operand

/-- Tokens that can stand behind whatever is complete. -/
def Closes (us : List Token) : Prop := ∀ q, q ≠ .colons → chained q us = true

theorem closes_nil : Closes [] := fun _ _ => rfl

theorem closes_cons {k : Token} {us : List Token} (hk : ∀ q, k.follows q = (q != .colons))
    (hus : chained k.next us = true) : Closes (k :: us) := by
  intro q hq
  rw [chained, hk q, hus, bne_iff_ne.mpr hq]
  rfl

/-- A bracket that is closed is complete. -/
theorem Closes.bracket {k : Token} {us : List Token} (hus : Closes us)
    (hk : k = .closing ∨ k = .closeBracket) : Closes (k :: us) := by
  rcases hk with rfl | rfl <;> exact closes_cons (fun _ => rfl) (hus .operator (by decide))

/-- A slash can stand behind whatever is complete, before a step. -/
theorem closes_slash {k : Token} {us : List Token} (hk : isSlash k)
    (hus : chained .step us = true) : Closes (k :: us) := by
  rcases hk with rfl | rfl <;> exact closes_cons (fun _ => rfl) hus

/-- **The tokens of a phrase follow one another** in their slots, before any that can stand behind
it. -/
theorem Derives.chained {ph : Phrase} {ts : List Token} (h : Derives ph ts) {p : Slot}
    {us : List Token} (hp : ph.begins p = true) (hus : Closes us) :
    chained p (ts ++ us) = true := by
  induction h generalizing p us with
  | path _ ih | operand _ ih | unsigned _ ih | filtered _ ih | first _ ih | argument _ ih =>
      exact ih hp hus
  | location _ ih =>
      obtain rfl : p = .operand := eq_of_beq hp
      exact ih rfl hus
  | signed _ ih =>
      obtain rfl : p = .operand := eq_of_beq hp
      exact ih rfl hus
  | binary _ _ _ ihleft ihright =>
      rw [List.append_assoc]
      exact ihleft hp (closes_cons (fun _ => rfl) (ihright rfl hus))
  | oneMore _ _ ihleft ihright =>
      rw [List.append_assoc]
      exact ihleft hp (closes_cons (fun _ => rfl) (ihright rfl hus))
  | root =>
      obtain rfl : p = .operand := eq_of_beq hp
      exact hus .step (by decide)
  | rooted hk _ ih =>
      obtain rfl : p = .operand := eq_of_beq hp
      exact closes_slash hk (ih rfl hus) .operand (by decide)
  | behind _ hk _ ihleft ihright =>
      rw [List.append_assoc]
      exact ihleft hp (closes_slash hk (ihright rfl hus))
  | further _ hk _ ihleft ihright =>
      rw [List.append_assoc]
      exact ihleft hp (closes_slash hk (ihright rfl hus))
  | filter _ _ ihleft ihright =>
      rw [List.append_assoc]
      exact ihleft hp fun q hq => ihright (bne_iff_ne.mpr hq) hus
  | child _ _ ihleft ihright =>
      rw [List.append_assoc]
      refine ihleft ?_ fun q hq => ihright (bne_iff_ne.mpr hq) hus
      cases p <;> first | rfl | cases hp
  | ofAttribute _ _ ihleft ihright =>
      rw [List.append_assoc]
      have htest := ihleft (p := .test) rfl fun q hq => ihright (bne_iff_ne.mpr hq) hus
      cases p <;> first | exact htest | cases hp
  | along _ _ ihleft ihright =>
      rw [List.append_assoc]
      have htest := ihleft (p := .test) rfl fun q hq => ihright (bne_iff_ne.mpr hq) hus
      cases p <;> first | exact htest | cases hp
  | here | parent | anyName | inNamespace | named =>
      have hoperator := hus .operator (by decide)
      cases p <;> first | exact hoperator | cases hp
  | kind _ | instruction _ _ =>
      have hoperator := hus .operator (by decide)
      cases p <;> first | exact hoperator | cases hp
  | noPredicate => exact hus p (bne_iff_ne.mp hp)
  | predicate _ _ ihleft ihright =>
      rw [List.append_assoc]
      have hinner := ihleft (p := .operand) rfl
        (closes_cons (k := .closeBracket) (fun _ => rfl) (ihright (p := .operator) rfl hus))
      cases p <;> first | exact hinner | cases hp
  | reference | literal | number | call _ =>
      obtain rfl : p = .operand := eq_of_beq hp
      exact hus .operator (by decide)
  | group _ ih =>
      obtain rfl : p = .operand := eq_of_beq hp
      rw [List.append_assoc]
      exact ih rfl (hus.bracket (Or.inl rfl))
  | callWith _ _ ih =>
      obtain rfl : p = .operand := eq_of_beq hp
      rw [List.append_assoc]
      exact ih rfl (hus.bracket (Or.inl rfl))

/-! ## Nesting -/

/-- **A phrase closes every bracket that it opens.** -/
theorem Derives.closes {ph : Phrase} {ts : List Token} (h : Derives ph ts) (d : Nat)
    (us : List Token) : closes d (ts ++ us) = closes d us := by
  induction h generalizing d us with
  | path _ ih | operand _ ih | unsigned _ ih | filtered _ ih | first _ ih | argument _ ih
  | location _ ih | signed _ ih => exact ih d us
  | binary _ _ _ ihleft ihright | oneMore _ _ ihleft ihright | filter _ _ ihleft ihright
  | child _ _ ihleft ihright | ofAttribute _ _ ihleft ihright | along _ _ ihleft ihright =>
      rw [List.append_assoc]
      exact (ihleft d _).trans (ihright d us)
  | rooted hk _ ih =>
      rcases hk with rfl | rfl <;> exact ih d us
  | behind _ hk _ ihleft ihright | further _ hk _ ihleft ihright =>
      rw [List.append_assoc]
      refine (ihleft d _).trans ?_
      rcases hk with rfl | rfl <;> exact ihright d us
  | predicate _ _ ihleft ihright =>
      rw [List.append_assoc]
      exact (ihleft (d + 1) _).trans (ihright d us)
  | group _ ih | callWith _ _ ih =>
      rw [List.append_assoc]
      exact ih (d + 1) _
  | _ => rfl

theorem Derives.ne_nil {ph : Phrase} {ts : List Token} (h : Derives ph ts)
    (hph : ph ≠ .predicates) : ts ≠ [] := by
  induction h with
  | path _ ih | operand _ ih | unsigned _ ih | filtered _ ih | first _ ih | argument _ ih
  | location _ ih => exact ih (by simp)
  | filter _ _ ih _ | child _ _ ih _ => simp [ih (by simp)]
  | noPredicate => exact absurd rfl hph
  | predicate _ _ _ _ => exact absurd rfl hph
  | _ => simp

/-! ## Expressions -/

theorem IsExpression.inSlots {ts : List Token} (h : IsExpression ts) :
    inSlots .operand ts = true := by
  have hchained := h.derives.chained (p := .operand) rfl closes_nil
  rw [List.append_nil] at hchained
  rw [inSlots_eq, hchained]
  exact h.recognized

theorem IsExpression.closes {ts : List Token} (h : IsExpression ts) : closes 0 ts = true := by
  have hcloses := h.derives.closes 0 []
  rw [List.append_nil] at hcloses
  exact hcloses

theorem IsExpression.ne_nil {ts : List Token} (h : IsExpression ts) : ts ≠ [] :=
  h.derives.ne_nil Phrase.noConfusion

/-! ## Parentheses -/

/-- Tokens with a number of parentheses around them. -/
def wrapped : Nat → List Token → List Token
  | 0, ts => ts
  | n + 1, ts => .opening :: (wrapped n ts ++ [.closing])

theorem length_wrapped (n : Nat) (ts : List Token) : (wrapped n ts).length = ts.length + 2 * n := by
  induction n with
  | zero => rfl
  | succ n ih =>
      rw [wrapped, List.length_cons, List.length_append, ih, List.length_singleton]
      omega

/-- What holds of both parentheses holds of all tokens when it held of them before. -/
theorem all_wrapped {p : Token → Bool} (hopening : p .opening = true) (hclosing : p .closing = true)
    (n : Nat) (ts : List Token) : (wrapped n ts).all p = ts.all p := by
  induction n with
  | zero => rfl
  | succ n ih => simp [wrapped, hopening, hclosing, ih]

theorem recognized_closing (b : Bool) (ts : List Token) :
    recognized b (ts ++ [.closing]) = recognized b ts := by
  induction ts generalizing b with
  | nil => rfl
  | cons k ts ih => rw [List.cons_append, recognized, recognized, ih]

/-- A path is an operand of every tier. -/
theorem Derives.inTiers {ts : List Token} (h : Derives .path ts) (L : List Tier) :
    Derives (.tiers L) ts := by
  induction L with
  | nil => exact .path h
  | cons tier L ih =>
      cases tier with
      | operators ops => exact .operand ih
      | signs => exact .unsigned ih

/-- **An expression in parentheses is an expression.** -/
theorem IsExpression.wrapped {ts : List Token} (h : IsExpression ts) (n : Nat) :
    IsExpression (wrapped n ts) := by
  induction n with
  | zero => exact h
  | succ n ih =>
      have hgroup : Derives .filter (XPath.wrapped (n + 1) ts ++ []) :=
        .filter (.group ih.derives) .noPredicate
      rw [List.append_nil] at hgroup
      exact ⟨(Derives.filtered hgroup).inTiers tiers, (recognized_closing _ _).trans ih.recognized⟩

end UiTree.XPath
