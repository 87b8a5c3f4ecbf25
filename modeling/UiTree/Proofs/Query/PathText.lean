import UiTree.Proofs.Query.Compiled
import UiTree.Proofs.XPath.Reading

/-!
# UiTree.Proofs.Query.PathText -- compiled text is read as it was meant

Every part of the path text of a selector is read as the expression that was built for it, whatever
characters the values hold: quotes, brackets and operators inside of a value stay inside of its
literal.

* **Assumptions.** `Selector.IsWritable`: the position can be written, and the values hold no
  character that path text cannot hold.
* **Main statement.** `exists_pathText`: the path text of a selector writes the expression of the
  selector.
-/

namespace UiTree

open XPath

/-! ## Literals -/

theorem Text.not_mem_pieces {sep : Char} {t : Text} : ∀ p ∈ Text.pieces sep t, sep ∉ p := by
  induction t with
  | nil =>
      intro p hp
      simp only [Text.pieces, List.mem_singleton] at hp
      rw [hp]
      exact List.not_mem_nil
  | cons c t ih =>
      intro p hp
      obtain ⟨q, qs, hqs⟩ := List.exists_cons_of_ne_nil (Text.pieces_ne_nil sep t)
      rw [Text.pieces] at hp
      split at hp
      · rcases List.mem_cons.mp hp with rfl | hp
        · exact List.not_mem_nil
        · exact ih p hp
      · next hc =>
        rw [hqs] at hp ih
        rcases List.mem_cons.mp hp with rfl | hp
        · rw [List.mem_cons, not_or]
          exact ⟨fun h => hc h.symm, ih q List.mem_cons_self⟩
        · exact ih p (List.mem_cons_of_mem q hp)

theorem isPath_singleQuoted {t : Text} (h : '\'' ∉ t) : IsPath (singleQuoted t) (.literal t) :=
  isPath_literal (Or.inl rfl) h

/-- The pieces of a value with quotes between them are the arguments of a call. -/
theorem areArguments_pieces {ts : List Text} (hne : ts ≠ []) (hts : ∀ t ∈ ts, '\'' ∉ t) :
    AreArguments (Text.join quoteJoint (ts.map singleQuoted) ++ [')']) (pieceLiterals ts) := by
  induction ts using pieceLiterals.induct with
  | case1 => exact absurd rfl hne
  | case2 t => exact areArguments_last (isPath_singleQuoted (hts t (by simp))).isExpr
  | case3 t u ts ih =>
      have hquote : IsPath ['"', '\'', '"'] (.literal ['\'']) :=
        isPath_literal (q := '"') (v := ['\'']) (Or.inr rfl) (by decide)
      have hrest := ih (by simp) fun v hv => hts v (List.mem_cons_of_mem t hv)
      have hargs := areArguments_cons (isPath_singleQuoted (hts t (by simp))).isExpr
        [' '] rfl (areArguments_cons hquote.isExpr [' '] rfl hrest)
      have htext : Text.join quoteJoint ((t :: u :: ts).map singleQuoted) ++ [')'] =
          singleQuoted t ++ ',' :: [' '] ++ (['"', '\'', '"'] ++ ',' :: [' '] ++
            (Text.join quoteJoint ((u :: ts).map singleQuoted) ++ [')'])) := by
        simp only [List.map_cons, Text.join, quoteJoint, List.append_assoc, List.cons_append,
          List.nil_append]
      rw [htext]
      exact hargs

/-- **A value is read back from its path literal**, whatever quotes it holds. -/
theorem isPath_pathLiteral (value : Text) : IsPath (pathLiteral value) (literalExpr value) := by
  rw [pathLiteral, literalExpr]
  split
  · have hargs := areArguments_pieces (Text.pieces_ne_nil '\'' value) Text.not_mem_pieces
    rw [List.append_assoc]
    exact isPath_call "concat".toList (by decide) hargs
  · next hquote => exact isPath_singleQuoted fun h => hquote (List.contains_iff_mem.mpr h)

/-! ## Predicates -/

theorem isNCName_key (a : Attribute) : isNCName a.key = true := by
  cases a <;> decide

theorem isPath_attributeStep (a : Attribute) : IsPath ('@' :: a.key) (attributeStep a.key) :=
  isPath_attribute (isNCName_key a)

/-- A call of a function of two arguments without blanks. -/
theorem isExpr_call₂ (name : Text) {t u : Text} {a b : Expr} (hname : isCallName name = true)
    (ht : IsPath t a) (hu : IsPath u b) :
    IsExpr (name ++ '(' :: (t ++ [','] ++ (u ++ [')']))) (.call none name [a, b]) :=
  (isPath_call name hname
    (areArguments_cons ht.isExpr [] rfl (areArguments_last hu.isExpr))).isExpr

/-- **The path text of a predicate** is its expression in square brackets. -/
theorem Predicate.exists_pathText (p : Predicate) :
    ∃ t, p.pathText = '[' :: t ++ [']'] ∧ IsExpr t p.expr := by
  have hname := isPath_attributeStep p.attr
  have hvalue := isPath_pathLiteral p.value
  have hcontains := isExpr_call₂ "contains".toList (by decide) hname hvalue
  rw [Predicate.pathText, Predicate.expr]
  cases p.operator with
  | equals => exact ⟨_, by simp, isExpr_equal hname hvalue⟩
  | contains =>
      dsimp only
      split
      · have hspace : IsPath ['\'', ' ', '\''] (.literal [' ']) :=
          isPath_singleQuoted (t := [' ']) (by decide)
        have hpadded : IsPath ("concat".toList ++ '(' :: (['\'', ' ', '\''] ++ ',' :: [' '] ++
            ('@' :: p.attr.key ++ ',' :: [' '] ++ (['\'', ' ', '\''] ++ [')']))))
            (.call none "concat".toList
              [.literal [' '], attributeStep p.attr.key, .literal [' ']]) :=
          isPath_call _ (by decide) (areArguments_cons hspace.isExpr [' '] rfl
            (areArguments_cons hname.isExpr [' '] rfl (areArguments_last hspace.isExpr)))
        have hargs := areArguments_cons hpadded.isExpr [' '] rfl
          (areArguments_last (isPath_pathLiteral (padded p.value)).isExpr)
        exact ⟨_, by simp, (isPath_call _ (by decide) hargs).isExpr⟩
      · exact ⟨_, by simp, hcontains⟩
  | partly => exact ⟨_, by simp, hcontains⟩
  | startsWith =>
      have hstarts := isExpr_call₂ "starts-with".toList (by decide) hname hvalue
      exact ⟨_, by simp, hstarts⟩

theorem arePredicates_pathText (ps : List Predicate) :
    ArePredicates (ps.flatMap Predicate.pathText) (ps.map Predicate.expr) := by
  induction ps with
  | nil => exact arePredicates_nil
  | cons p ps ih =>
      obtain ⟨t, ht, hexpr⟩ := p.exists_pathText
      rw [List.flatMap_cons, List.map_cons, ht, List.append_assoc]
      exact arePredicates_cons hexpr ih

/-! ## Characters -/

/-- The value of a predicate holds no control character that a document cannot hold. -/
theorem Predicate.isXmlChar_value (p : Predicate) (hp : '\ufffe' ∉ p.value ∧ '\uffff' ∉ p.value)
    {c : Char} (hc : c ∈ p.value) : Xml.isXmlChar c = true := by
  have hlegal := p.legal
  unfold refusal? at hlegal
  split at hlegal
  · cases hlegal
  · next hany =>
    have hc' : isUnrepresentable c = false := by
      rw [Bool.eq_false_iff]
      intro h
      exact hany (List.any_eq_true.mpr ⟨c, hc, h⟩)
    have hfffe : c.toNat ≠ 0xfffe := by
      intro h
      exact hp.1 (Char.toNat_inj.mp (show c.toNat = '\ufffe'.toNat from h) ▸ hc)
    have hffff : c.toNat ≠ 0xffff := by
      intro h
      exact hp.2 (Char.toNat_inj.mp (show c.toNat = '\uffff'.toNat from h) ▸ hc)
    have hvalid : c.toNat < 0xd800 ∨ 0xdfff < c.toNat ∧ c.toNat < 0x110000 := c.valid
    simp only [isUnrepresentable, Bool.or_eq_false_iff, decide_eq_false_iff_not,
      beq_eq_false_iff_ne, Bool.and_eq_false_iff] at hc'
    simp only [Xml.isXmlChar, Bool.or_eq_true, beq_iff_eq, Bool.and_eq_true, decide_eq_true_eq]
    omega

theorem Text.all_join {p : Char → Bool} {sep : Text} {ts : List Text} (hsep : sep.all p = true)
    (hts : ∀ t ∈ ts, t.all p = true) : (Text.join sep ts).all p = true := by
  induction ts using pieceLiterals.induct with
  | case1 => rfl
  | case2 t => exact hts t List.mem_cons_self
  | case3 t u ts ih =>
      rw [Text.join, List.all_append, List.all_append, hts t List.mem_cons_self, hsep,
        ih fun v hv => hts v (List.mem_cons_of_mem t hv)]
      rfl

theorem Text.all_pieces {p : Char → Bool} {sep : Char} {t : Text} (ht : t.all p = true) :
    ∀ q ∈ Text.pieces sep t, q.all p = true := by
  induction t with
  | nil =>
      intro q hq
      simp only [Text.pieces, List.mem_singleton] at hq
      rw [hq]
      rfl
  | cons c t ih =>
      obtain ⟨hc, ht⟩ := Bool.and_eq_true_iff.mp ht
      intro q hq
      obtain ⟨r, rs, hrs⟩ := List.exists_cons_of_ne_nil (Text.pieces_ne_nil sep t)
      rw [Text.pieces] at hq
      split at hq
      · rcases List.mem_cons.mp hq with rfl | hq
        · rfl
        · exact ih ht q hq
      · rw [hrs] at hq ih
        rcases List.mem_cons.mp hq with rfl | hq
        · rw [List.all_cons, hc, ih ht r List.mem_cons_self]
          rfl
        · exact ih ht q (List.mem_cons_of_mem r hq)

theorem all_singleQuoted {t : Text} (ht : t.all Xml.isXmlChar = true) :
    (singleQuoted t).all Xml.isXmlChar = true := by
  rw [singleQuoted, List.all_append, List.all_cons, ht]
  decide

theorem all_pathLiteral {value : Text} (hvalue : value.all Xml.isXmlChar = true) :
    (pathLiteral value).all Xml.isXmlChar = true := by
  rw [pathLiteral]
  split
  · have hjoin : (Text.join quoteJoint ((Text.pieces '\'' value).map singleQuoted)).all
        Xml.isXmlChar = true := by
      refine Text.all_join (by decide) ?_
      intro t ht
      obtain ⟨q, hq, rfl⟩ := List.mem_map.mp ht
      exact all_singleQuoted (Text.all_pieces hvalue q hq)
    rw [List.all_append, List.all_append, hjoin]
    decide
  · exact all_singleQuoted hvalue

theorem Predicate.all_pathText (p : Predicate) (hvalue : p.value.all Xml.isXmlChar = true) :
    p.pathText.all Xml.isXmlChar = true := by
  have hkey : p.attr.key.all Xml.isXmlChar = true := by
    cases p.attr <;> decide
  have hliteral := all_pathLiteral hvalue
  have hpadded : (pathLiteral (padded p.value)).all Xml.isXmlChar = true := by
    refine all_pathLiteral ?_
    rw [padded, List.all_append, List.all_cons, hvalue]
    decide
  rw [Predicate.pathText]
  cases p.operator with
  | contains =>
      dsimp only
      split <;> simp only [List.all_append, List.all_cons, hkey, hliteral, hpadded] <;> decide
  | _ =>
      simp only [List.all_append, List.all_cons, hkey, hliteral]
      decide

/-! ## Selectors -/

theorem all_ofNat (n : Nat) : (Text.ofNat n).all Xml.isXmlChar = true := by
  rw [List.all_eq_true]
  intro c hc
  have hcode := Text.toNat_of_isDigit (Text.isDigit_of_mem_ofNat hc)
  simp only [Xml.isXmlChar, Bool.or_eq_true, beq_iff_eq, Bool.and_eq_true, decide_eq_true_eq]
  omega

theorem isPath_ofNat (n : Nat) : IsPath (Text.ofNat n) (.number (digitsValue (Text.ofNat n))) :=
  isPath_digits (fun _ hc => Text.isDigit_of_mem_ofNat hc) Nat.toDigits_ne_nil

namespace Selector

theorem isPath_bodyText (sel : Selector) (scope : Scope) :
    IsPath (sel.bodyText scope) (sel.bodyExpr scope) := by
  have hps := arePredicates_pathText sel.predicates
  rw [bodyText, bodyExpr, axisText]
  cases scope.isDocument with
  | true => exact isPath_anywhere hps
  | false => exact isPath_below hps

/-- The path text of a selector without an index. -/
theorem pathText_of_none {sel : Selector} (hindex : sel.matchIndex = none) (scope : Scope) :
    sel.pathText scope = .ok (sel.bodyText scope) := by
  rw [pathText, hindex]

/-- The path text of a selector with an index, when the position can be written. -/
theorem pathText_of_some {sel : Selector} {k : Nat} (hindex : sel.matchIndex = some k)
    (hshort : (Text.ofNat (k + 1)).length ≤ 4300) (scope : Scope) :
    sel.pathText scope =
      .ok ('(' :: sel.bodyText scope ++ [')', '['] ++ Text.ofNat (k + 1) ++ [']']) := by
  have hshown : shownInteger (k + 1) = .ok (Text.ofNat (k + 1)) := by
    have habs : ((k : Int) + 1).natAbs = k + 1 := by omega
    simp only [shownInteger, habs]
    rw [if_neg (by omega), if_neg (by omega)]
  rw [pathText, hindex]
  simp only [hshown]
  rfl

/-- The position that the index asks for can be written, and the values hold only characters that
path text can hold. -/
structure IsWritable (sel : Selector) : Prop where
  shortIndex : ∀ k, sel.matchIndex = some k → (Text.ofNat (k + 1)).length ≤ 4300
  xmlValues : ∀ p ∈ sel.predicates, '\ufffe' ∉ p.value ∧ '\uffff' ∉ p.value

theorem all_bodyText {sel : Selector} (hsel : sel.IsWritable) (scope : Scope) :
    (sel.bodyText scope).all Xml.isXmlChar = true := by
  have hps : (sel.predicates.flatMap Predicate.pathText).all Xml.isXmlChar = true := by
    rw [List.all_flatMap, List.all_eq_true]
    intro p hp
    refine p.all_pathText (List.all_eq_true.mpr ?_)
    exact fun c hc => p.isXmlChar_value (hsel.xmlValues p hp) hc
  rw [bodyText, List.all_append, hps, axisText]
  split <;> decide

/-- **The path text of a selector writes the expression of the selector**, in characters that path
text can hold. -/
theorem exists_pathText {sel : Selector} (hsel : sel.IsWritable) (scope : Scope) :
    ∃ t, sel.pathText scope = .ok t ∧ t.all Xml.isXmlChar = true ∧
      Expr.read? t = some (sel.expr scope) := by
  have hbody := (sel.isPath_bodyText scope).isExpr
  have hall := all_bodyText hsel scope
  rw [expr]
  cases hindex : sel.matchIndex with
  | none => exact ⟨_, pathText_of_none hindex scope, hall, hbody.read?_eq⟩
  | some k =>
      refine ⟨_, pathText_of_some hindex (hsel.shortIndex k hindex) scope, ?_, ?_⟩
      · simp only [List.all_append, List.all_cons, hall, all_ofNat]
        decide
      · have hposition := arePredicates_cons (isPath_ofNat (k + 1)).isExpr arePredicates_nil
        have hgroup := (isPath_group hbody hposition).isExpr.read?_eq
        have htext : '(' :: sel.bodyText scope ++ [')', '['] ++ Text.ofNat (k + 1) ++ [']'] =
            '(' :: sel.bodyText scope ++ ')' :: ('[' :: Text.ofNat (k + 1) ++ [']']) := by
          simp only [List.append_assoc, List.cons_append, List.nil_append]
        rw [htext]
        exact hgroup

end Selector

end UiTree
