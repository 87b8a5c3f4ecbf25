import Mathlib.Data.List.TakeWhile
import UiTree.Proofs.XPath.Reading
import UiTree.Text.Digit

/-!
# UiTree.Proofs.XPath.Token -- the tokens of path expressions

Path expressions are made of tokens with blanks between them. The readers make no list of tokens,
so that what a text is made of has to be said here, by the lexical rules of path expressions: a
token is as long as it can be, a star or a word where an operator can stand is an operator, and a
name before two colons is the name of an axis.

* **Where a token stands.** A `Slot` is what the token before allows. Slots are coarse: every
  expression has its tokens in them, and so have many texts that are no expressions.
* **Layout.** `Lays l t`: the text is the tokens of `l`, each behind the blanks beside it. `Spelled`
  leaves the blanks open and asks for the slots; `spelled_cons_iff` takes the first token off.
-/

namespace UiTree.XPath

open Xml (isSpace isNameStart isNameChar skipSpace)
open Text (Stops stops_cons)

/-! ## Tokens -/

/-- A name without colons. White space stands in no name, whichever script it is from. -/
structure Name where
  text : Text
  formed : isNCName text = true
  solid : ∀ c ∈ text, Text.isBlank c = false

/-- A name that may have a qualifier. -/
structure FullName where
  qualifier : Option Name
  base : Name

/-- A text between two quotes of one kind. -/
structure Literal where
  quote : Char
  value : Text
  isQuote : quote = '\'' ∨ quote = '"'
  unquoted : quote ∉ value

/-- Digits, with a point among them or without one. -/
structure Numeral where
  whole : Text
  fraction : Option Text
  wholeDigits : ∀ c ∈ whole, c.isDigit = true
  fractionDigits : ∀ f ∈ fraction, ∀ c ∈ f, c.isDigit = true
  nonempty : whole ++ fraction.getD [] ≠ []

/-- What a token allows behind it. -/
inductive Slot where
  | operand
  | step
  | test
  | colons
  | operator
  deriving DecidableEq, Repr

/-- The smallest parts of a path expression. -/
inductive Token where
  | opening
  | closing
  | openBracket
  | closeBracket
  | comma
  | dot
  | dots
  | atSign
  | colons
  | slash
  | slashes
  | star
  | wildcard (qualifier : Name)
  | name (n : FullName)
  | axis (a : Axis)
  | operator (op : BinaryOp)
  | literal (l : Literal)
  | number (n : Numeral)
  | reference (n : FullName)

/-- May the character stand in a name with a qualifier, behind its first character? -/
def isNamePart (c : Char) : Bool := isNameChar c || c == ':'

/-- The text of a name. -/
def FullName.text (n : FullName) : Text :=
  match n.qualifier with
  | none => n.base.text
  | some q => q.text ++ ':' :: n.base.text

/-- The text of a literal. -/
def Literal.text (l : Literal) : Text := l.quote :: l.value ++ [l.quote]

/-- The text of a number. -/
def Numeral.text (n : Numeral) : Text :=
  match n.fraction with
  | none => n.whole
  | some f => n.whole ++ '.' :: f

/-- Does an operator stand only where nothing but an operator can stand? -/
def BinaryOp.isAmbiguous : BinaryOp → Bool
  | .or | .and | .times | .quotient | .remainder => true
  | _ => false

/-- Is the operator spelled with letters? -/
def BinaryOp.isWord : BinaryOp → Bool
  | .or | .and | .quotient | .remainder => true
  | _ => false

namespace Token

/-- The text of a token. -/
def text : Token → Text
  | .opening => ['(']
  | .closing => [')']
  | .openBracket => ['[']
  | .closeBracket => [']']
  | .comma => [',']
  | .dot => ['.']
  | .dots => ['.', '.']
  | .atSign => ['@']
  | .colons => [':', ':']
  | .slash => ['/']
  | .slashes => ['/', '/']
  | .star => ['*']
  | .wildcard q => q.text ++ [':', '*']
  | .name n => n.text
  | .axis a => a.name
  | .operator op => op.symbol
  | .literal l => l.text
  | .number n => n.text
  | .reference n => '$' :: n.text

/-- Can the token stand in a slot? -/
def fits (p : Slot) : Token → Bool
  | .colons => p == .colons
  | .axis _ => p == .operand || p == .step
  | .star | .wildcard _ | .name _ => p == .operand || p == .step || p == .test
  | .number _ => p != .colons && p != .step
  | .operator op => if op.isAmbiguous then p == .operator else p != .colons
  | _ => p != .colons

/-- The slot behind the token. -/
def next : Token → Slot
  | .opening | .openBracket | .comma | .operator _ => .operand
  | .slash | .slashes => .step
  | .atSign | .colons => .test
  | .axis _ => .colons
  | _ => .operator

/-- Does the token end before a text, rather than go on or become another one? -/
def EndsBefore : Token → Text → Prop
  | .dot, t => Stops (fun c => c == '.' || c.isDigit) t
  | .slash, t => Stops (fun c => c == '/') t
  | .name _, t => Stops isNamePart t ∧ Stops (fun c => c == ':') (skipSpace t)
  | .axis _, t => Stops isNameChar t ∧ Text.isStart [':', ':'] (skipSpace t) = true
  | .operator .less, t | .operator .greater, t => Stops (fun c => c == '=') t
  | .operator op, t => op.isWord = true → Stops isNameChar t
  | .number n, t =>
    Stops (fun c => c.isDigit || c == 'e' || c == 'E' || (n.fraction.isNone && c == '.')) t
  | .reference _, t => Stops isNamePart t
  | _, _ => True

end Token

/-- Do the tokens stand in their slots, the first of them in the given one? -/
def inSlots : Slot → List Token → Bool
  | _, [] => true
  | p, k :: ts => k.fits p && inSlots k.next ts

/-- The text is made of tokens, each behind the blanks beside it, and of blanks at its end. -/
inductive Lays : List (Text × Token) → Text → Prop
  | done {t : Text} (blank : t.all isSpace = true) : Lays [] t
  | token {gap : Text} {k : Token} {l : List (Text × Token)} {rest : Text}
    (blank : gap.all isSpace = true) (ends : k.EndsBefore rest) (more : Lays l rest) :
    Lays ((gap, k) :: l) (gap ++ k.text ++ rest)

/-- The text is made of tokens in their slots, whatever blanks stand between them. -/
def Spelled (p : Slot) (ts : List Token) (t : Text) : Prop :=
  inSlots p ts = true ∧ ∃ l, Lays l t ∧ l.map Prod.snd = ts

/-! ## The characters of tokens -/

/-- The text begins with a character that is no white space of any kind. -/
def StartsSolid (t : Text) : Prop := ∃ c r, t = c :: r ∧ Text.isBlank c = false

theorem StartsSolid.append {t : Text} (h : StartsSolid t) (u : Text) : StartsSolid (t ++ u) := by
  obtain ⟨c, r, rfl, hc⟩ := h
  exact ⟨c, r ++ u, rfl, hc⟩

theorem isBlank_of_isSpace {c : Char} (h : isSpace c = true) : Text.isBlank c = true := by
  simp only [isSpace, Bool.or_eq_true, beq_iff_eq] at h
  rcases h with ((rfl | rfl) | rfl) | rfl <;> decide

theorem StartsSolid.stops {t : Text} (h : StartsSolid t) : Stops isSpace t := by
  obtain ⟨c, r, rfl, hc⟩ := h
  rw [stops_cons, Bool.eq_false_iff]
  intro hspace
  rw [isBlank_of_isSpace hspace] at hc
  cases hc

theorem Name.exists_cons (n : Name) :
    ∃ c r, n.text = c :: r ∧ isNameStart c = true ∧ Text.isBlank c = false ∧
      ∀ d ∈ r, isNameChar d = true := by
  cases h : n.text with
  | nil =>
      have hformed := n.formed
      rw [h] at hformed
      cases hformed
  | cons c r =>
      have hformed := n.formed
      have hsolid := n.solid c (by rw [h]; exact List.mem_cons_self)
      rw [h, isNCName, Bool.and_eq_true] at hformed
      exact ⟨c, r, rfl, hformed.1, hsolid, List.all_eq_true.mp hformed.2⟩

theorem Name.startsSolid (n : Name) : StartsSolid n.text := by
  obtain ⟨c, r, htext, -, hc, -⟩ := n.exists_cons
  exact ⟨c, r, htext, hc⟩

theorem FullName.startsSolid (n : FullName) : StartsSolid n.text := by
  rw [FullName.text]
  split
  · exact n.base.startsSolid
  · next q _ => exact q.startsSolid.append _

theorem isBlank_of_isDigit {c : Char} (h : c.isDigit = true) : Text.isBlank c = false := by
  have hcode := Text.toNat_of_isDigit h
  simp only [Text.isBlank, Bool.or_eq_false_iff, Bool.and_eq_false_iff, decide_eq_false_iff_not,
    beq_eq_false_iff_ne]
  omega

/-- A number begins with a digit, or with a point and a digit. -/
theorem Numeral.exists_cons (n : Numeral) :
    (∃ c r, n.text = c :: r ∧ c.isDigit = true) ∨
      ∃ c r, n.text = '.' :: c :: r ∧ c.isDigit = true := by
  obtain ⟨whole, fraction, hwhole, hfraction, hne⟩ := n
  cases whole with
  | cons c r =>
      refine Or.inl ⟨c, ?_⟩
      cases fraction with
      | none => exact ⟨r, rfl, hwhole c List.mem_cons_self⟩
      | some f => exact ⟨r ++ '.' :: f, rfl, hwhole c List.mem_cons_self⟩
  | nil =>
      cases fraction with
      | none => exact absurd rfl hne
      | some f =>
          cases f with
          | nil => exact absurd rfl hne
          | cons c f => exact Or.inr ⟨c, f, rfl, hfraction _ rfl c List.mem_cons_self⟩

theorem Numeral.startsSolid (n : Numeral) : StartsSolid n.text := by
  rcases n.exists_cons with ⟨c, r, htext, hc⟩ | ⟨c, r, htext, -⟩
  · exact ⟨c, r, htext, isBlank_of_isDigit hc⟩
  · exact ⟨'.', c :: r, htext, by decide⟩

/-- **No token begins with white space.** -/
theorem Token.startsSolid (k : Token) : StartsSolid k.text := by
  cases k with
  | wildcard q => exact q.startsSolid.append _
  | name n => exact n.startsSolid
  | axis a => cases a <;> exact ⟨_, _, rfl, by decide⟩
  | operator op => cases op <;> exact ⟨_, _, rfl, by decide⟩
  | literal l =>
      refine ⟨l.quote, l.value ++ [l.quote], rfl, ?_⟩
      rcases l.isQuote with h | h <;> rw [h] <;> rfl
  | number n => exact n.startsSolid
  | _ => exact ⟨_, _, rfl, by decide⟩

theorem Token.skipSpace_eq (k : Token) (rest : Text) :
    skipSpace (k.text ++ rest) = k.text ++ rest :=
  Text.dropWhile_of_stops (k.startsSolid.append rest).stops

theorem Token.length_pos (k : Token) : 0 < k.text.length := by
  obtain ⟨c, r, htext, -⟩ := k.startsSolid
  rw [htext]
  exact Nat.succ_pos r.length

/-! ## Blanks -/

theorem skipSpace_append {gap : Text} (h : gap.all isSpace = true) (t : Text) :
    skipSpace (gap ++ t) = skipSpace t := by
  rw [skipSpace, skipSpace, List.dropWhile_append_of_pos (List.all_eq_true.mp h)]

theorem skipSpace_eq_nil {t : Text} (h : t.all isSpace = true) : skipSpace t = [] :=
  List.dropWhile_eq_nil_iff.mpr (List.all_eq_true.mp h)

/-- A text is its leading blanks and what is left without them. -/
theorem exists_gap (t : Text) : ∃ gap, gap.all isSpace = true ∧ t = gap ++ skipSpace t :=
  ⟨t.takeWhile isSpace, List.all_takeWhile, List.takeWhile_append_dropWhile.symm⟩

theorem skipSpace_skipSpace (t : Text) : skipSpace (skipSpace t) = skipSpace t :=
  Text.dropWhile_of_stops (Text.stops_dropWhile isSpace t)

/-! ## Taking texts apart -/

theorem Lays.skipSpace {l : List (Text × Token)} {t : Text} (h : Lays l t) :
    (l = [] ∧ Xml.skipSpace t = []) ∨
      ∃ gap k m rest, l = (gap, k) :: m ∧ Xml.skipSpace t = k.text ++ rest ∧
        k.EndsBefore rest ∧ Lays m rest := by
  cases h with
  | done hblank => exact Or.inl ⟨rfl, skipSpace_eq_nil hblank⟩
  | @token gap k m rest hblank hends hmore =>
      refine Or.inr ⟨gap, k, m, rest, rfl, ?_, hends, hmore⟩
      rw [List.append_assoc, skipSpace_append hblank, k.skipSpace_eq]

theorem spelled_nil_iff {p : Slot} {t : Text} : Spelled p [] t ↔ skipSpace t = [] := by
  constructor
  · rintro ⟨-, l, hl, htokens⟩
    rcases hl.skipSpace with ⟨-, h⟩ | ⟨gap, k, m, rest, rfl, -⟩
    · exact h
    · cases htokens
  · intro h
    refine ⟨rfl, [], .done ?_, rfl⟩
    obtain ⟨gap, hgap, ht⟩ := exists_gap t
    rw [ht, h, List.append_nil]
    exact hgap

/-- **The first token off a text.** -/
theorem spelled_cons_iff {p : Slot} {k : Token} {ts : List Token} {t : Text} :
    Spelled p (k :: ts) t ↔
      ∃ rest, skipSpace t = k.text ++ rest ∧ k.fits p = true ∧ k.EndsBefore rest ∧
        Spelled k.next ts rest := by
  constructor
  · rintro ⟨hslots, l, hl, htokens⟩
    obtain ⟨hfits, hslots⟩ := Bool.and_eq_true_iff.mp hslots
    rcases hl.skipSpace with ⟨rfl, -⟩ | ⟨gap, k', m, rest, rfl, ht, hends, hmore⟩
    · cases htokens
    · obtain ⟨rfl, htail⟩ := List.cons.inj htokens
      exact ⟨rest, ht, hfits, hends, hslots, m, hmore, htail⟩
  · rintro ⟨rest, ht, hfits, hends, hslots, m, hmore, htokens⟩
    obtain ⟨gap, hgap, htext⟩ := exists_gap t
    refine ⟨Bool.and_eq_true_iff.mpr ⟨hfits, hslots⟩, (gap, k) :: m, ?_, ?_⟩
    · rw [htext, ht, ← List.append_assoc]
      exact .token hgap hends hmore
    · rw [List.map_cons, htokens]

theorem spelled_skipSpace_iff {p : Slot} {ts : List Token} {t : Text} :
    Spelled p ts (skipSpace t) ↔ Spelled p ts t := by
  cases ts with
  | nil => rw [spelled_nil_iff, spelled_nil_iff, skipSpace_skipSpace]
  | cons k ts => simp only [spelled_cons_iff, skipSpace_skipSpace]

/-- There are no more tokens than characters. -/
theorem Spelled.length_le {p : Slot} {ts : List Token} {t : Text} (h : Spelled p ts t) :
    ts.length ≤ t.length := by
  induction ts generalizing p t with
  | nil => exact Nat.zero_le _
  | cons k ts ih =>
      obtain ⟨rest, ht, -, -, hmore⟩ := spelled_cons_iff.mp h
      obtain ⟨gap, -, htext⟩ := exists_gap t
      have hpos := k.length_pos
      have hrest := ih hmore
      rw [htext, ht, List.length_append, List.length_append, List.length_cons]
      omega

/-- **Blanks are no matter of what a document may hold**: the tokens decide that. -/
theorem Spelled.all_isXmlChar {p : Slot} {ts : List Token} {t : Text} (h : Spelled p ts t) :
    t.all Xml.isXmlChar = ts.all fun k => k.text.all Xml.isXmlChar := by
  have hgaps : ∀ gap : Text, gap.all isSpace = true → gap.all Xml.isXmlChar = true := by
    intro gap hgap
    rw [List.all_eq_true] at hgap ⊢
    intro c hc
    have hspace := hgap c hc
    simp only [isSpace, Bool.or_eq_true, beq_iff_eq] at hspace
    rcases hspace with ((rfl | rfl) | rfl) | rfl <;> decide
  obtain ⟨-, l, hl, rfl⟩ := h
  induction hl with
  | done hblank => exact hgaps _ hblank
  | token hblank _ _ ih =>
      rw [List.all_append, List.all_append, hgaps _ hblank, ih, Bool.true_and, List.map_cons,
        List.all_cons]

end UiTree.XPath
