import UiTree.Proofs.XPath.Token

/-!
# UiTree.Proofs.XPath.Lexing -- what the readers see of one token

The readers look at characters. At the start of a token they see the token: which one it is, where
it ends, and nothing of the blanks behind it but whether a parenthesis or two colons come after
them.

* **Marks.** `Token.eq_of_head?`: characters that tell a token by themselves.
* **Leaves.** Literals, numbers, names and operators are read as the tokens that they are.
* **Branches.** `lead?_token`: where a path begins. `cutOperator_token`: which operator comes next.
  `readAxisTest_token`: the axis and the node test of a step.
-/

namespace UiTree.XPath

open Xml (isSpace isNameStart isNameChar skipSpace readNCName readName)
open Text (Stops stops_cons cutWhile_run)

/-! ## The first character -/

theorem Token.head?_append (k : Token) (rest : Text) :
    (k.text ++ rest).head? = k.text.head? := by
  obtain ⟨c, r, htext, -⟩ := k.startsSolid
  rw [htext]
  rfl

/-- The tokens whose text is not fixed by what they are. -/
def Token.isFree : Token → Bool
  | .wildcard _ | .name _ | .axis _ | .literal _ | .number _ | .reference _ => true
  | _ => false

/-- Is this a character that begins none of those? -/
def isSign (c : Char) : Bool := !(isNameStart c || c.isDigit || ['.', '\'', '"', '$'].contains c)

theorem Name.head?_ne (n : Name) (rest : Text) {c : Char} (hc : isNameStart c = false) :
    (n.text ++ rest).head? ≠ some c := by
  obtain ⟨d, r, htext, hd, -⟩ := n.exists_cons
  rw [htext]
  intro h
  exact ne_of_class hd hc (Option.some.inj h)

theorem FullName.head?_ne (n : FullName) (rest : Text) {c : Char} (hc : isNameStart c = false) :
    (n.text ++ rest).head? ≠ some c := by
  rw [FullName.text]
  split
  · exact n.base.head?_ne rest hc
  · next q _ =>
    rw [List.append_assoc]
    exact q.head?_ne _ hc

theorem Axis.exists_cons (a : Axis) : ∃ c r, a.name = c :: r ∧ isNameStart c = true := by
  cases a <;> exact ⟨_, _, rfl, by decide⟩

theorem Token.head?_ne_of_isFree {k : Token} (hk : k.isFree = true) (rest : Text) {c : Char}
    (hc : isSign c = true) : (k.text ++ rest).head? ≠ some c := by
  rw [isSign, Bool.not_eq_true', Bool.or_eq_false_iff, Bool.or_eq_false_iff] at hc
  obtain ⟨⟨hstart, hdigit⟩, hmark⟩ := hc
  have hmark : c ∉ ['.', '\'', '"', '$'] := by simpa using hmark
  cases k with
  | wildcard q =>
      rw [text, List.append_assoc]
      exact q.head?_ne _ hstart
  | name n => exact n.head?_ne rest hstart
  | axis a =>
      obtain ⟨d, r, htext, hd⟩ := a.exists_cons
      rw [text, htext]
      intro h
      exact ne_of_class hd hstart (Option.some.inj h)
  | literal l =>
      intro h
      obtain rfl : l.quote = c := Option.some.inj h
      rcases l.isQuote with hq | hq <;> rw [hq] at hmark <;> exact hmark (by simp)
  | number n =>
      intro h
      rcases n.exists_cons with ⟨d, r, htext, hd⟩ | ⟨d, r, htext, -⟩ <;> rw [text, htext] at h
      · exact ne_of_class hd hdigit (Option.some.inj h)
      · exact hmark (by rw [← Option.some.inj h]; simp)
  | reference n =>
      intro h
      exact hmark (by rw [← Option.some.inj h]; simp)
  | _ => cases hk

/-- The tokens that are told by their first character. -/
def marks : List (Char × Token) :=
  [('(', .opening), (')', .closing), ('[', .openBracket), (']', .closeBracket), (',', .comma),
   ('@', .atSign), (':', .colons), ('-', .operator .minus)]

/-- **A mark tells its token.** -/
theorem Token.eq_of_head? {k m : Token} {c : Char} {rest : Text} (hmark : (c, m) ∈ marks)
    (h : (k.text ++ rest).head? = some c) : k = m := by
  have hsign : isSign c = true :=
    List.all_eq_true.mp (by decide : marks.all (fun e => isSign e.1) = true) (c, m) hmark
  cases hfree : k.isFree with
  | true => exact absurd h (head?_ne_of_isFree hfree rest hsign)
  | false =>
      simp only [marks, List.mem_cons, Prod.mk.injEq, List.not_mem_nil, or_false] at hmark
      rcases hmark with ⟨rfl, rfl⟩ | ⟨rfl, rfl⟩ | ⟨rfl, rfl⟩ | ⟨rfl, rfl⟩ | ⟨rfl, rfl⟩ |
        ⟨rfl, rfl⟩ | ⟨rfl, rfl⟩ | ⟨rfl, rfl⟩ <;>
      cases k with
      | operator op => cases op <;> first | rfl | cases h
      | _ => first | rfl | cases h | cases hfree

/-- **A slash tells that a token is made of slashes.** -/
theorem Token.isSlash_of_head? {k : Token} {rest : Text} (h : (k.text ++ rest).head? = some '/') :
    k = .slash ∨ k = .slashes := by
  cases hfree : k.isFree with
  | true => exact absurd h (head?_ne_of_isFree hfree rest (by decide))
  | false =>
      cases k with
      | slash => exact Or.inl rfl
      | slashes => exact Or.inr rfl
      | operator op => cases op <;> cases h
      | _ => first | cases h | cases hfree

/-- **A point tells that a token is made of points**, or a number. -/
theorem Token.isDot_of_head? {k : Token} {rest : Text} (h : (k.text ++ rest).head? = some '.') :
    k = .dot ∨ k = .dots ∨ ∃ n, k = .number n := by
  cases k with
  | dot => exact Or.inl rfl
  | dots => exact Or.inr (Or.inl rfl)
  | number n => exact Or.inr (Or.inr ⟨n, rfl⟩)
  | wildcard q =>
      rw [text, List.append_assoc] at h
      exact absurd h (q.head?_ne _ (by decide))
  | name n => exact absurd h (n.head?_ne rest (by decide))
  | axis a => cases a <;> cases h
  | operator op => cases op <;> cases h
  | literal l =>
      have hquote : l.quote = '.' := Option.some.inj h
      rcases l.isQuote with hq | hq <;> rw [hq] at hquote <;> cases hquote
  | _ => cases h

/-- **A star is a test** where it is no operator. -/
theorem Token.eq_star_of_head? {k : Token} {p : Slot} {rest : Text} (hfits : k.fits p = true)
    (hp : p ≠ .operator) (h : (k.text ++ rest).head? = some '*') : k = .star := by
  cases hfree : k.isFree with
  | true => exact absurd h (head?_ne_of_isFree hfree rest (by decide))
  | false =>
      cases k with
      | star => rfl
      | operator op => cases op <;> first | exact absurd (eq_of_beq hfits) hp | cases h
      | _ => first | cases h | cases hfree

/-! ## Names -/

theorem stops_isNameChar {rest : Text} (h : Stops isNamePart rest) : Stops isNameChar rest := by
  intro c r ht
  exact (Bool.or_eq_false_iff.mp (h c r ht)).1

/-- What a name looks like to a reader of plain names. -/
theorem readNCName_name (n : FullName) {rest : Text} (hrest : Stops isNamePart rest) :
    readNCName (n.text ++ rest) =
      match n.qualifier with
      | none => some (n.base.text, rest)
      | some q => some (q.text, ':' :: n.base.text ++ rest) := by
  rw [FullName.text]
  cases n.qualifier with
  | none => exact readNCName_append n.base.formed (stops_isNameChar hrest)
  | some q =>
      dsimp only
      rw [List.append_assoc, List.cons_append]
      exact readNCName_append q.formed (stops_cons.mpr (by decide))

theorem exists_readNCName_name (n : FullName) {rest : Text} (hrest : Stops isNamePart rest) :
    ∃ e, readNCName (n.text ++ rest) = some e := by
  rw [readNCName_name n hrest]
  cases n.qualifier <;> exact ⟨_, rfl⟩

theorem readQualified_name (n : FullName) {rest : Text} (hrest : Stops isNamePart rest) :
    readQualified (n.text ++ rest) = some (n.qualifier.map Name.text, n.base.text, rest) := by
  have hbase : readNCName (n.base.text ++ rest) = some (n.base.text, rest) :=
    readNCName_append n.base.formed (stops_isNameChar hrest)
  rw [readQualified, readNCName_name n hrest]
  cases n.qualifier with
  | none =>
      cases rest with
      | nil => rfl
      | cons c r =>
          have hcolon : c ≠ ':' := by
            rintro rfl
            exact absurd (stops_cons.mp hrest) (by decide)
          simp only [Option.map_none]
          split
          · next heq => cases heq
          · next heq =>
            obtain ⟨-, hr⟩ := Prod.mk.inj (Option.some.inj heq)
            exact absurd (List.cons.inj hr).1 hcolon
          · next heq =>
            obtain ⟨rfl, rfl⟩ := Prod.mk.inj (Option.some.inj heq)
            rfl
  | some q =>
      show (readNCName (n.base.text ++ rest)).map _ = _
      rw [hbase]
      rfl

theorem Name.isNamePart_of_mem (n : Name) : ∀ c ∈ n.text, isNamePart c = true := by
  intro c hc
  obtain ⟨d, r, htext, hd, -, hr⟩ := n.exists_cons
  rw [htext, List.mem_cons] at hc
  rw [isNamePart]
  rcases hc with rfl | hc
  · rw [isNameChar, hd]
    simp only [Bool.true_or]
  · rw [hr c hc, Bool.true_or]

/-- A name begins as names do and goes on with name characters and colons. -/
theorem FullName.exists_cons (n : FullName) :
    ∃ c r, n.text = c :: r ∧ isNameStart c = true ∧ ∀ d ∈ r, isNamePart d = true := by
  rw [FullName.text]
  split
  · obtain ⟨c, r, htext, hc, -⟩ := n.base.exists_cons
    refine ⟨c, r, htext, hc, fun d hd => ?_⟩
    exact n.base.isNamePart_of_mem d (htext ▸ List.mem_cons_of_mem c hd)
  · next q _ =>
    obtain ⟨c, r, htext, hc, -⟩ := q.exists_cons
    refine ⟨c, r ++ ':' :: n.base.text, by rw [htext, List.cons_append], hc, fun d hd => ?_⟩
    rcases List.mem_append.mp hd with h | h
    · exact q.isNamePart_of_mem d (htext ▸ List.mem_cons_of_mem c h)
    · rcases List.mem_cons.mp h with rfl | h
      · decide
      · exact n.base.isNamePart_of_mem d h

theorem readName_cons {c : Char} (hc : isNameStart c = true) (t : Text) :
    readName (c :: t) = some (c :: t.takeWhile isNamePart, t.dropWhile isNamePart) := by
  show Xml.readRun _ isNamePart (c :: t) = _
  rw [Xml.readRun, hc, Bool.true_or, if_pos rfl]
  rfl

theorem readName_name (n : FullName) {rest : Text} (hrest : Stops isNamePart rest) :
    readName (n.text ++ rest) = some (n.text, rest) := by
  obtain ⟨c, r, htext, hc, hr⟩ := n.exists_cons
  rw [htext, List.cons_append, readName_cons hc, List.takeWhile_append_of_pos hr,
    List.dropWhile_append_of_pos hr, Text.takeWhile_of_stops hrest, Text.dropWhile_of_stops hrest,
    List.append_nil]

/-- A name with a star for its base. -/
theorem readNCName_wildcard (q : Name) (rest : Text) :
    readNCName ((Token.wildcard q).text ++ rest) = some (q.text, ':' :: '*' :: rest) := by
  rw [Token.text, List.append_assoc]
  exact readNCName_append q.formed (stops_cons.mpr (by decide))

theorem readNCName_axis (a : Axis) {rest : Text} (hrest : Stops isNameChar rest) :
    readNCName (a.name ++ rest) = some (a.name, rest) :=
  readNCName_append (by cases a <;> decide) hrest

theorem ofName?_name (a : Axis) : Axis.ofName? a.name = some a := by cases a <;> rfl

/-! ## Literals and numbers -/

theorem readLiteral_literal (l : Literal) (rest : Text) :
    readLiteral (l.text ++ rest) = some (l.value, rest) := by
  have hcut : Text.cutWhile (fun d => d != l.quote) (l.value ++ l.quote :: rest) =
      (l.value, l.quote :: rest) := by
    refine cutWhile_run ?_ (stops_cons.mpr (by simp))
    intro c hc
    rw [bne_iff_ne]
    rintro rfl
    exact l.unquoted hc
  rw [Literal.text, List.append_assoc, List.cons_append, List.singleton_append, readLiteral,
    if_pos l.isQuote, hcut]

theorem readLiteral_eq_none {k : Token} (h : ∀ l, k ≠ .literal l) (rest : Text) :
    readLiteral (k.text ++ rest) = none := by
  have hnone : ∀ c t, c ≠ '\'' → c ≠ '"' → readLiteral (c :: t) = none := by
    intro c t hsingle hdouble
    rw [readLiteral, if_neg (not_or.mpr ⟨hsingle, hdouble⟩)]
  have hname : ∀ c t, isNameStart c = true → readLiteral (c :: t) = none := fun c t hc =>
    hnone c t (ne_of_class hc (by decide)) (ne_of_class hc (by decide))
  cases k with
  | literal l => exact absurd rfl (h l)
  | wildcard q =>
      obtain ⟨c, r, htext, hc, -⟩ := q.exists_cons
      rw [Token.text, htext]
      exact hname c _ hc
  | name n =>
      obtain ⟨c, r, htext, hc, -⟩ := n.exists_cons
      rw [Token.text, htext]
      exact hname c _ hc
  | axis a =>
      obtain ⟨c, r, htext, hc⟩ := a.exists_cons
      rw [Token.text, htext]
      exact hname c _ hc
  | operator op => cases op <;> exact hnone _ _ (by decide) (by decide)
  | number n =>
      rcases n.exists_cons with ⟨c, r, htext, hc⟩ | ⟨c, r, htext, -⟩ <;> rw [Token.text, htext]
      · exact hnone c _ (ne_of_class hc (by decide)) (ne_of_class hc (by decide))
      · exact hnone '.' _ (by decide) (by decide)
  | _ => exact hnone _ _ (by decide) (by decide)

/-- The number that a numeral denotes. -/
def Numeral.value (n : Numeral) : Binary64 :=
  match n.fraction with
  | none => digitsValue n.whole
  | some f => Binary64.add (digitsValue n.whole) (fractionValue f)

theorem readExponent_stops {x : Binary64} {t : Text}
    (h : Stops (fun c => c == 'e' || c == 'E') t) : readExponent x t = (x, t) := by
  cases t with
  | nil => rfl
  | cons c t =>
      have hc : ¬(c = 'e' ∨ c = 'E') := by simpa using stops_cons.mp h
      rw [readExponent, if_neg hc]

theorem readNumber_number (n : Numeral) {rest : Text} (hrest : (Token.number n).EndsBefore rest) :
    readNumber (n.text ++ rest) = some (n.value, rest) := by
  obtain ⟨whole, fraction, hwhole, hfraction, hne⟩ := n
  have hall : ∀ c r, rest = c :: r → c.isDigit = false ∧ (c == 'e' || c == 'E') = false ∧
      (fraction.isNone && c == '.') = false := by
    intro c r hr
    have hc := hrest c r hr
    simp only [Bool.or_eq_false_iff] at hc ⊢
    exact ⟨hc.1.1.1, ⟨hc.1.1.2, hc.1.2⟩, hc.2⟩
  have hexponent : ∀ x, readExponent x rest = (x, rest) := fun x =>
    readExponent_stops fun c r hr => (hall c r hr).2.1
  have hdigits : Stops Char.isDigit rest := fun c r hr => (hall c r hr).1
  cases fraction with
  | none =>
      have hempty : whole.isEmpty = false := by simpa using hne
      have hcut : Text.cutWhile Char.isDigit (whole ++ rest) = (whole, rest) :=
        cutWhile_run hwhole hdigits
      rw [Numeral.text, readNumber, hcut]
      dsimp only
      split
      · next r =>
        have hpoint := (hall '.' r rfl).2.2
        cases hpoint
      · rw [hempty, hexponent]
        rfl
  | some f =>
      have hcut : Text.cutWhile Char.isDigit (whole ++ '.' :: (f ++ rest)) =
          (whole, '.' :: (f ++ rest)) := cutWhile_run hwhole (stops_cons.mpr (by decide))
      have hpart : Text.cutWhile Char.isDigit (f ++ rest) = (f, rest) :=
        cutWhile_run (hfraction f rfl) hdigits
      have hempty : (whole.isEmpty && f.isEmpty) = false := by
        rw [Bool.eq_false_iff]
        intro hboth
        rw [Bool.and_eq_true, List.isEmpty_iff, List.isEmpty_iff] at hboth
        exact hne (by rw [hboth.1, hboth.2]; rfl)
      rw [Numeral.text]
      dsimp only
      rw [List.append_assoc, List.cons_append, readNumber, hcut]
      simp only [hpart, hempty, hexponent]
      rfl

/-! ## Where a path begins -/

/-- Does the text open a parenthesis? -/
def opens (t : Text) : Bool := Text.isStart ['('] t

theorem isDigit_of_isNameStart {c : Char} (h : isNameStart c = true) : c.isDigit = false := by
  rw [Bool.eq_false_iff]
  intro hdigit
  obtain ⟨hlow, hhigh⟩ := Text.toNat_of_isDigit hdigit
  have hnone : ∀ n < 58, 48 ≤ n → isNameStart (Char.ofNat n) = false := by decide
  have hc := hnone c.toNat (Nat.lt_succ_of_le hhigh) hlow
  rw [Char.ofNat_toNat, h] at hc
  cases hc

/-- A text that begins as names do begins a call or a location. -/
theorem lead?_of_isNameStart {c : Char} {r name rest : Text} (hc : isNameStart c = true)
    (hname : readName (c :: r) = some (name, rest)) :
    lead? (c :: r) = some (if opens (skipSpace rest) && !Text.isInfix [':', ':'] name &&
      !isKindName name then .primary else .location) := by
  have hdigit : c.isDigit = false := isDigit_of_isNameStart hc
  have hmarks : c ≠ '$' ∧ c ≠ '(' ∧ c ≠ '\'' ∧ c ≠ '"' ∧ c ≠ '.' ∧ c ≠ '*' ∧ c ≠ '/' ∧
      c ≠ '@' := by
    refine ⟨?_, ?_, ?_, ?_, ?_, ?_, ?_, ?_⟩ <;> exact ne_of_class hc (by decide)
  have hcolons : "::".toList = [':', ':'] := rfl
  simp only [lead?, hname, hdigit, hmarks, or_self, Bool.false_eq_true, if_false, hcolons]
  cases Text.isInfix [':', ':'] name with
  | true => simp only [if_true, Bool.not_true, Bool.and_false, Bool.false_and, Bool.false_eq_true,
      if_false]
  | false =>
      simp only [Bool.false_eq_true, if_false, Bool.not_false, Bool.and_true]
      split
      · next u hu =>
        have hopens : opens (skipSpace rest) = true := by rw [hu]; rfl
        rw [hopens, Bool.true_and]
        cases isKindName name <;> rfl
      · next hu =>
        have hopens : opens (skipSpace rest) = false := by
          rw [Bool.eq_false_iff]
          intro h
          obtain ⟨u, hu'⟩ := Text.isStart_iff.mp h
          exact hu u hu'
        rw [hopens, Bool.false_and]
        rfl

/-- What a path begins with, told by its first token and by whether a parenthesis comes next. -/
def Token.lead? (called : Bool) : Token → Option Lead
  | .reference _ | .opening | .literal _ | .number _ => some .primary
  | .dot | .dots | .atSign | .slash | .slashes | .star | .wildcard _ | .axis _ =>
    some .location
  | .name n =>
    some (if called && !Text.isInfix [':', ':'] n.text && !isKindName n.text then .primary
      else .location)
  | _ => none

/-- The name of an axis begins a location: what comes next is no parenthesis, or the colons are
taken for a part of the name. -/
theorem lead?_axis (a : Axis) {rest : Text} (hends : (Token.axis a).EndsBefore rest) :
    lead? (a.name ++ rest) = some .location := by
  obtain ⟨c, r, htext, hc⟩ := a.exists_cons
  have hr : ∀ d ∈ r, isNamePart d = true := by
    have hall : a.name.all isNamePart = true := by cases a <;> rfl
    intro d hd
    exact List.all_eq_true.mp hall d (htext ▸ List.mem_cons_of_mem c hd)
  have hname : readName (c :: (r ++ rest)) = some (a.name ++ rest.takeWhile isNamePart,
      rest.dropWhile isNamePart) := by
    rw [readName_cons hc, List.takeWhile_append_of_pos hr, List.dropWhile_append_of_pos hr, htext,
      List.cons_append]
  have hnocall : opens (skipSpace (rest.dropWhile isNamePart)) = false ∨
      Text.isInfix [':', ':'] (a.name ++ rest.takeWhile isNamePart) = true := by
    obtain ⟨gap, hgap, hrest⟩ := exists_gap rest
    obtain ⟨u, hu⟩ := Text.isStart_iff.mp hends.2
    cases gap with
    | cons d gap =>
        have hd : isSpace d = true := (Bool.and_eq_true_iff.mp hgap).1
        have hstops : Stops isNamePart rest := by
          rw [hrest, List.cons_append, stops_cons, Bool.eq_false_iff]
          intro hpart
          rw [not_isSpace_of_class hpart (by decide)] at hd
          cases hd
        refine Or.inl ?_
        rw [Text.dropWhile_of_stops hstops, hu]
        rfl
    | nil =>
        refine Or.inr (Text.isInfix_iff.mpr ⟨a.name, u.takeWhile isNamePart, ?_⟩)
        rw [hrest, hu, List.append_assoc]
        rfl
  rw [htext, List.cons_append, lead?_of_isNameStart hc hname]
  rcases hnocall with h | h <;> simp only [h, Bool.not_true, Bool.false_and, Bool.and_false,
    Bool.false_eq_true, if_false]

/-- **Where a path begins** is told by its first token. -/
theorem lead?_token {k : Token} {rest : Text} (hfits : k.fits .operand = true)
    (hends : k.EndsBefore rest) :
    lead? (k.text ++ rest) = k.lead? (opens (skipSpace rest)) := by
  cases k with
  | axis a => exact lead?_axis a hends
  | name n =>
      obtain ⟨c, r, htext, hc, -⟩ := n.exists_cons
      have hname := readName_name n hends.1
      rw [Token.text]
      rw [htext, List.cons_append] at hname ⊢
      rw [lead?_of_isNameStart hc hname, Token.lead?, htext]
  | wildcard q =>
      obtain ⟨c, r, htext, hc, -, hr⟩ := q.exists_cons
      have hpart : ∀ d ∈ r ++ [':'], isNamePart d = true := by
        intro d hd
        rcases List.mem_append.mp hd with h | h
        · rw [isNamePart, hr d h, Bool.true_or]
        · rw [List.mem_singleton.mp h]
          decide
      have hstar : Stops isNamePart ('*' :: rest) := stops_cons.mpr (by decide)
      have hshape : (Token.wildcard q).text ++ rest = c :: ((r ++ [':']) ++ '*' :: rest) := by
        rw [Token.text, htext]
        simp only [List.append_assoc, List.cons_append, List.nil_append]
      have hname := readName_cons hc ((r ++ [':']) ++ '*' :: rest)
      rw [List.takeWhile_append_of_pos hpart, List.dropWhile_append_of_pos hpart,
        Text.takeWhile_of_stops hstar, Text.dropWhile_of_stops hstar] at hname
      rw [hshape, lead?_of_isNameStart hc hname]
      rfl
  | literal l =>
      rw [Token.text, Literal.text, List.cons_append, List.cons_append]
      simp only [XPath.lead?]
      rw [if_pos (by rcases l.isQuote with h | h <;> rw [h] <;> decide)]
      rfl
  | number n =>
      rcases n.exists_cons with ⟨c, r, htext, hc⟩ | ⟨c, r, htext, hc⟩
      · rw [Token.text, htext, List.cons_append]
        simp only [XPath.lead?]
        rw [if_pos (by simp [hc])]
        rfl
      · rw [Token.text, htext, List.cons_append, List.cons_append, XPath.lead?,
          if_neg (by decide), if_pos rfl, hc]
        rfl
  | dot =>
      cases rest with
      | nil => rfl
      | cons d rest =>
          have hd : d.isDigit = false := (Bool.or_eq_false_iff.mp (stops_cons.mp hends)).2
          rw [Token.text, List.singleton_append, XPath.lead?, if_neg (by decide), if_pos rfl, hd]
          rfl
  | operator op => cases op <;> first | rfl | cases hfits
  | colons => cases hfits
  | _ => rfl

/-! ## Operators -/

/-- The first characters of the symbols of operators. -/
def symbolStarts : List Char := ['o', 'a', '=', '!', '<', '>', '+', '-', '*', 'd', 'm', '|']

theorem cutOperator_of_head {c : Char} {t : Text} (h : c ∉ symbolStarts) (ops : List BinaryOp) :
    cutOperator ops (c :: t) = none := by
  rw [cutOperator, List.findSome?_eq_none_iff]
  intro op _
  obtain ⟨d, r, hsymbol, hd⟩ : ∃ d r, op.symbol = d :: r ∧ d ∈ symbolStarts := by
    cases op <;> exact ⟨_, _, rfl, by decide⟩
  have hne : d ≠ c := by
    rintro rfl
    exact h hd
  rw [hsymbol, Text.cutStart, if_neg hne]
  rfl

/-- The operator that a token is, when it is one of some operators. -/
def Token.operator? (ops : List BinaryOp) : Token → Option BinaryOp
  | .operator op => if op ∈ ops then some op else none
  | _ => none

/-- Can an operator stand at the start of a text? It can behind an operand, and behind a slash that
no step follows. -/
def Settled (p : Slot) (t : Text) : Prop := p = .operator ∨ startsStep t = false

/-- A tier of operators cuts the whole symbol of an operator. -/
theorem cutOperator_symbol {ops : List BinaryOp} (hops : Tier.operators ops ∈ tiers)
    {op : BinaryOp} {rest : Text} (hends : (Token.operator op).EndsBefore rest) :
    cutOperator ops (op.symbol ++ rest) =
      ((Token.operator op).operator? ops).map fun o => (o, rest) := by
  simp only [tiers, List.mem_cons, Tier.operators.injEq, reduceCtorEq, List.not_mem_nil, or_false,
    false_or] at hops
  cases op with
  | less | greater =>
      -- these two begin longer symbols
      cases rest with
      | nil => rcases hops with rfl | rfl | rfl | rfl | rfl | rfl | rfl <;> rfl
      | cons c rest =>
          have hc : '=' ≠ c := by
            rintro rfl
            exact absurd (stops_cons.mp hends) (by decide)
          rcases hops with rfl | rfl | rfl | rfl | rfl | rfl | rfl <;> first
            | rfl
            | simp [cutOperator, BinaryOp.symbol, Text.cutStart, Token.operator?, hc]
  | _ => rcases hops with rfl | rfl | rfl | rfl | rfl | rfl | rfl <;> rfl

/-- **Operators are cut as tokens**, and nothing else is cut. -/
theorem cutOperator_token {p : Slot} {k : Token} {rest : Text} {ops : List BinaryOp}
    (hops : Tier.operators ops ∈ tiers) (hfits : k.fits p = true) (hends : k.EndsBefore rest)
    (hsettled : Settled p (k.text ++ rest)) :
    cutOperator ops (k.text ++ rest) = (k.operator? ops).map fun o => (o, rest) := by
  have hnone : ∀ c r, k.text ++ rest = c :: r → c ∉ symbolStarts →
      cutOperator ops (k.text ++ rest) = none := by
    intro c r htext hc
    rw [htext]
    exact cutOperator_of_head hc ops
  -- a name fits only where no step begins, and so begins with no letter of a symbol
  have hname : ∀ c r, k.text ++ rest = c :: r → isNameStart c = true → p ≠ .operator →
      cutOperator ops (k.text ++ rest) = none := by
    intro c r htext hc hp
    refine hnone c r htext fun hmem => ?_
    have hall : (symbolStarts.all fun d => !isNameStart d || startsStep [d]) = true := by decide
    have hstep : startsStep (c :: r) = false := htext ▸ hsettled.resolve_left hp
    have hstart := List.all_eq_true.mp hall c hmem
    rw [hc, Bool.not_true, Bool.false_or] at hstart
    exact Bool.false_ne_true (hstep.symm.trans hstart)
  cases k with
  | operator op => exact cutOperator_symbol hops hends
  | name n =>
      obtain ⟨c, r, htext, hc, -⟩ := n.exists_cons
      refine hname c (r ++ rest) (by rw [Token.text, htext, List.cons_append]) hc ?_
      rintro rfl
      cases hfits
  | wildcard q =>
      obtain ⟨c, r, htext, hc, -⟩ := q.exists_cons
      refine hname c (r ++ [':', '*'] ++ rest) (by rw [Token.text, htext]; rfl) hc ?_
      rintro rfl
      cases hfits
  | axis a =>
      obtain ⟨c, r, htext, hc⟩ := a.exists_cons
      refine hname c (r ++ rest) (by rw [Token.text, htext, List.cons_append]) hc ?_
      rintro rfl
      cases hfits
  | star =>
      rcases hsettled with rfl | hstep
      · cases hfits
      · cases hstep
  | literal l =>
      refine hnone l.quote (l.value ++ [l.quote] ++ rest) rfl ?_
      rcases l.isQuote with h | h <;> rw [h] <;> decide
  | number n =>
      rcases n.exists_cons with ⟨c, r, htext, hc⟩ | ⟨c, r, htext, -⟩
      · refine hnone c (r ++ rest) (by rw [Token.text, htext, List.cons_append]) fun hmem => ?_
        have hall : (symbolStarts.all fun d => !d.isDigit) = true := by decide
        have hdigit := List.all_eq_true.mp hall c hmem
        rw [hc] at hdigit
        cases hdigit
      · exact hnone '.' (c :: r ++ rest) (by rw [Token.text, htext]; rfl) (by decide)
  | _ => exact hnone _ _ rfl (by decide)

/-! ## Node tests -/

/-- The node test that a name makes, or begins where a parenthesis comes next. -/
def FullName.readTest (n : FullName) (rest : Text) : Option (NodeTest × Text) :=
  if n.qualifier.isNone && opens (skipSpace rest) then
    readKind n.base.text ((skipSpace rest).drop 1)
  else some (.named (n.qualifier.map Name.text) n.base.text, rest)

theorem readNamedTest_call {name rest : Text} (h : opens (skipSpace rest) = true) :
    readNamedTest name rest = readKind name ((skipSpace rest).drop 1) := by
  obtain ⟨u, hu⟩ := Text.isStart_iff.mp h
  unfold readNamedTest
  rw [hu]
  rfl

theorem readNamedTest_qualified (q : Text) (b : Name) {rest : Text}
    (hrest : Stops isNameChar rest) :
    readNamedTest q (':' :: b.text ++ rest) = some (.named (some q) b.text, rest) := by
  obtain ⟨c, r, htext, hc, -⟩ := b.exists_cons
  have hread := readNCName_append b.formed hrest
  rw [htext, List.cons_append] at hread
  have hstar : c ≠ '*' := ne_of_class hc (by decide)
  rw [htext]
  show readNamedTest q (':' :: c :: (r ++ rest)) = _
  unfold readNamedTest
  split
  · next heq => cases heq
  · split
    · next heq => exact absurd (List.cons.inj (List.cons.inj heq).2).1 hstar
    · next heq =>
      rw [← (List.cons.inj heq).2, hread]
      rfl
    · next h => exact absurd rfl (h _)

theorem readNamedTest_unqualified {name rest : Text} (hclosed : opens (skipSpace rest) = false)
    (hrest : Stops (fun c => c == ':') rest) :
    readNamedTest name rest = some (.named none name, rest) := by
  unfold readNamedTest
  split
  · next heq =>
    rw [heq] at hclosed
    cases hclosed
  · split
    · next heq => exact absurd (hrest ':' _ rfl) (by decide)
    · next heq => exact absurd (hrest ':' _ rfl) (by decide)
    · rfl

theorem FullName.readTest_unqualified {n : FullName} {rest : Text} (hq : n.qualifier = none)
    (hrest : Stops (fun c => c == ':') rest) :
    readNamedTest n.base.text rest = n.readTest rest := by
  rw [readTest, hq]
  cases hopens : opens (skipSpace rest) with
  | true => exact readNamedTest_call hopens
  | false => exact readNamedTest_unqualified hopens hrest

theorem stops_colon {rest : Text} (h : Stops isNamePart rest) :
    Stops (fun c => c == ':') rest := by
  intro c r hr
  exact (Bool.or_eq_false_iff.mp (h c r hr)).2

/-- No two colons stand behind what a reader of plain names takes of a name. -/
theorem isStart_colons_of_readNCName {n : FullName} {name rest r : Text}
    (hrest : Stops isNamePart rest) (hname : readNCName (n.text ++ rest) = some (name, r)) :
    Text.isStart [':', ':'] r = false := by
  rw [readNCName_name n hrest] at hname
  rw [Bool.eq_false_iff]
  intro h
  obtain ⟨u, hu⟩ := Text.isStart_iff.mp h
  cases hq : n.qualifier with
  | none =>
      rw [hq] at hname
      obtain ⟨-, rfl⟩ := Prod.mk.inj (Option.some.inj hname)
      exact absurd (hrest ':' (':' :: u) hu) (by decide)
  | some q =>
      rw [hq] at hname
      obtain ⟨-, rfl⟩ := Prod.mk.inj (Option.some.inj hname)
      obtain ⟨c, v, htext, hc, -⟩ := n.base.exists_cons
      rw [htext] at hu
      exact ne_of_class hc (by decide) (List.cons.inj (List.cons.inj hu).2).1

theorem readNamedTest_name {n : FullName} {name rest r : Text} (hrest : Stops isNamePart rest)
    (hname : readNCName (n.text ++ rest) = some (name, r)) :
    readNamedTest name r = n.readTest rest := by
  rw [readNCName_name n hrest] at hname
  cases hq : n.qualifier with
  | none =>
      rw [hq] at hname
      obtain ⟨rfl, rfl⟩ := Prod.mk.inj (Option.some.inj hname)
      exact FullName.readTest_unqualified hq (stops_colon hrest)
  | some q =>
      rw [hq] at hname
      obtain ⟨rfl, rfl⟩ := Prod.mk.inj (Option.some.inj hname)
      rw [FullName.readTest, hq]
      exact readNamedTest_qualified q.text n.base (stops_isNameChar hrest)

theorem readNCName_of_head {c : Char} (hc : isNameStart c = false) (t : Text) :
    readNCName (c :: t) = none := by
  rw [readNCName, Xml.readRun, hc]
  rfl

/-- The node test that a token makes or begins. -/
def Token.readTest (rest : Text) : Token → Option (NodeTest × Text)
  | .star => some (.any, rest)
  | .wildcard q => some (.inNamespace q.text, rest)
  | .name n => n.readTest rest
  | _ => none

/-- A token that begins no name makes no node test of its own. -/
theorem Token.readNCName_eq_none {k : Token} {p : Slot} (hfits : k.fits p = true)
    (hp : p ≠ .operator) (rest : Text) (hname : ∀ n, k ≠ .name n) (haxis : ∀ a, k ≠ .axis a)
    (hwildcard : ∀ q, k ≠ .wildcard q) : readNCName (k.text ++ rest) = none := by
  cases k with
  | name n => exact absurd rfl (hname n)
  | axis a => exact absurd rfl (haxis a)
  | wildcard q => exact absurd rfl (hwildcard q)
  | literal l =>
      refine readNCName_of_head ?_ (l.value ++ [l.quote] ++ rest)
      rcases l.isQuote with h | h <;> rw [h] <;> decide
  | number n =>
      rcases n.exists_cons with ⟨c, r, htext, hc⟩ | ⟨c, r, htext, -⟩
      · rw [text, htext]
        refine readNCName_of_head (Bool.eq_false_iff.mpr fun h => ?_) (r ++ rest)
        rw [isDigit_of_isNameStart h] at hc
        cases hc
      · rw [text, htext]
        exact readNCName_of_head (by decide) (c :: r ++ rest)
  | operator op =>
      -- an operator spelled as names are stands only where operators do
      cases op <;> first
        | exact readNCName_of_head (by decide) _
        | exact absurd (eq_of_beq hfits) hp
  | _ => exact readNCName_of_head (by decide) _

theorem readNodeTest_token {k : Token} {t rest : Text} (ht : skipSpace t = k.text ++ rest)
    (hfits : k.fits .test = true) (hends : k.EndsBefore rest) :
    readNodeTest t = k.readTest rest := by
  have hplain : (k.text ++ rest).head? ≠ some '*' → readNodeTest t =
      (readNCName (k.text ++ rest)).bind fun e => readNamedTest e.1 e.2 := by
    intro hstar
    unfold readNodeTest
    rw [ht]
    split
    · next heq => exact absurd (by rw [heq]; rfl) hstar
    · cases readNCName (k.text ++ rest) <;> rfl
  cases k with
  | star =>
      unfold readNodeTest
      rw [ht]
      rfl
  | wildcard q =>
      rw [hplain (by rw [Token.text, List.append_assoc]; exact q.head?_ne _ (by decide)),
        readNCName_wildcard]
      rfl
  | name n =>
      obtain ⟨e, he⟩ := exists_readNCName_name n hends.1
      rw [hplain (n.head?_ne rest (by decide)), Token.text, he]
      exact readNamedTest_name hends.1 he
  | axis a => cases hfits
  | _ =>
      rw [hplain fun h => Token.noConfusion (Token.eq_star_of_head? hfits (by decide) h),
        Token.readNCName_eq_none hfits (by decide)] <;> first | rfl | (intro _ h; cases h)

/-- The axis and the node test that a token begins. -/
def Token.readAxisTest (rest : Text) : Token → Option (Axis × NodeTest × Text)
  | .atSign => (readNodeTest rest).map fun e => (.attribute, e.1, e.2)
  | .axis a => (readNodeTest ((skipSpace rest).drop 2)).map fun e => (a, e.1, e.2)
  | k => (k.readTest rest).map fun e => (.child, e.1, e.2)

/-- A text that begins with a name before which no axis is written. -/
theorem readAxisTest_of_readNCName {t name r : Text} (hsign : t.head? ≠ some '@')
    (hstar : t.head? ≠ some '*') (hname : readNCName t = some (name, r))
    (hcolons : Text.isStart [':', ':'] (skipSpace r) = false) :
    readAxisTest t = (readNamedTest name
      (if (Axis.ofName? name).isSome then skipSpace r else r)).map fun e => (.child, e.1, e.2) := by
  unfold readAxisTest
  split
  · exact absurd rfl hsign
  · exact absurd rfl hstar
  · rw [hname]
    dsimp only
    split
    · next haxis =>
      rw [haxis]
      rfl
    · next haxis =>
      rw [haxis]
      split
      · next heq =>
        rw [heq] at hcolons
        cases hcolons
      · rfl

/-- A name makes the test of a child. Where it is also the name of an axis, the blanks behind it
are gone. -/
theorem readAxisTest_name {n : FullName} {rest : Text} (hends : (Token.name n).EndsBefore rest) :
    readAxisTest (n.text ++ rest) = (Token.name n).readAxisTest rest ∨
      readAxisTest (n.text ++ rest) = (Token.name n).readAxisTest (skipSpace rest) := by
  obtain ⟨⟨name, r⟩, hname⟩ := exists_readNCName_name n hends.1
  have hread := readNCName_name n hends.1
  have hsign := n.head?_ne rest (by decide : isNameStart '@' = false)
  have hstar := n.head?_ne rest (by decide : isNameStart '*' = false)
  cases hq : n.qualifier with
  | none =>
      rw [hq] at hread
      obtain ⟨rfl, rfl⟩ := Prod.mk.inj (Option.some.inj (hname.symm.trans hread))
      have hcolons : Text.isStart [':', ':'] (skipSpace r) = false := by
        rw [Bool.eq_false_iff]
        intro h
        obtain ⟨u, hu⟩ := Text.isStart_iff.mp h
        exact absurd (hends.2 ':' (':' :: u) hu) (by decide)
      rw [readAxisTest_of_readNCName hsign hstar hname hcolons]
      split
      · rw [FullName.readTest_unqualified hq hends.2]
        exact Or.inr rfl
      · rw [FullName.readTest_unqualified hq (stops_colon hends.1)]
        exact Or.inl rfl
  | some q =>
      rw [hq] at hread
      obtain ⟨rfl, rfl⟩ := Prod.mk.inj (Option.some.inj (hname.symm.trans hread))
      have hspace : skipSpace (':' :: n.base.text ++ rest) = ':' :: n.base.text ++ rest := rfl
      have hcolons : Text.isStart [':', ':'] (skipSpace (':' :: n.base.text ++ rest)) = false :=
        isStart_colons_of_readNCName hends.1 hname
      rw [readAxisTest_of_readNCName hsign hstar hname hcolons, hspace, ite_self,
        readNamedTest_name hends.1 hname]
      exact Or.inl rfl

/-- **The axis and the node test of a step** are told by its first token. -/
theorem readAxisTest_token {k : Token} {p : Slot} {rest : Text} (hfits : k.fits p = true)
    (hp : p = .operand ∨ p = .step) (hends : k.EndsBefore rest) :
    readAxisTest (k.text ++ rest) = k.readAxisTest rest ∨
      readAxisTest (k.text ++ rest) = k.readAxisTest (skipSpace rest) := by
  have hoperator : p ≠ .operator := by rcases hp with rfl | rfl <;> decide
  cases k with
  | atSign => exact Or.inl rfl
  | star => exact Or.inl rfl
  | name n => exact readAxisTest_name hends
  | wildcard q =>
      refine Or.inl ?_
      rw [readAxisTest_of_readNCName (Token.head?_ne_of_isFree rfl rest (by decide))
        (Token.head?_ne_of_isFree rfl rest (by decide)) (readNCName_wildcard q rest) rfl]
      split <;> rfl
  | axis a =>
      obtain ⟨u, hu⟩ := Text.isStart_iff.mp hends.2
      have hsign := Token.head?_ne_of_isFree (k := .axis a) rfl rest (by decide : isSign '@')
      have hstar := Token.head?_ne_of_isFree (k := .axis a) rfl rest (by decide : isSign '*')
      rw [Token.text] at hsign hstar ⊢
      refine Or.inl ?_
      rw [Token.readAxisTest, hu]
      unfold readAxisTest
      split
      · next heq => exact absurd (by rw [heq]; rfl) hsign
      · next heq => exact absurd (by rw [heq]; rfl) hstar
      · rw [readNCName_axis a hends.1]
        dsimp only
        rw [ofName?_name, hu]
        rfl
  | _ =>
      have hnone : ∀ t, readNCName t = none → t.head? ≠ some '@' → t.head? ≠ some '*' →
          readAxisTest t = none := by
        intro t hname hsign hstar
        unfold readAxisTest
        split
        · exact absurd rfl hsign
        · exact absurd rfl hstar
        · rw [hname]
      have hmark : ('@', Token.atSign) ∈ marks := by simp [marks]
      refine Or.inl ?_
      rw [hnone _ (Token.readNCName_eq_none hfits hoperator _ ?_ ?_ ?_)
        (fun h => Token.noConfusion (Token.eq_of_head? hmark h))
        fun h => Token.noConfusion (Token.eq_star_of_head? hfits hoperator h)] <;>
      first | rfl | (intro _ h; cases h)

end UiTree.XPath
