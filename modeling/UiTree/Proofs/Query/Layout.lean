import UiTree.Proofs.Query.Resubmitted
import UiTree.Proofs.Query.Scope
import UiTree.Proofs.XPath.Wrapped

/-!
# UiTree.Proofs.Query.Layout -- hand-written path expressions and their layout

A hand-written path expression is classified by its characters, before it is read: blanks, one run
of parentheses and blanks again are dropped, and what is left is compared with three texts. Blanks
between the parentheses, or behind the first token of the first step, are not expected there.

* **Classification.** `startsHere`: the tokens start at the context node. `isTight`: no blank
  stands where the classification expects none. `isRelativePath_of_lays`: an expression is
  classified as relative exactly when both hold.
* **Main statement.** `findChildren_of_layout`: two layouts of an expression, one of them with
  parentheses around it, are classified alike and find the same children, unless the expression
  starts at the context node and exactly one of them is tight. A loose one is refused.
-/

namespace UiTree

open XPath (Token Lays IsExpression wrapped marks)
open Xml (isSpace skipSpace)
open Text (stops_cons)

/-! ## Classification -/

/-- Do the tokens start at the context node? Parentheses before them apart, they begin with a point
and a slash, or with the axis of the children or of the descendants. -/
def startsHere : List Token → Bool
  | .opening :: ts => startsHere ts
  | .dot :: .slash :: _ | .dot :: .slashes :: _ => true
  | .axis .child :: _ | .axis .descendant :: _ => true
  | _ => false

/-- The blanks at the start of a layout. -/
def firstGap : List (Text × Token) → Text
  | (gap, _) :: _ => gap
  | [] => []

/-- Does a layout begin with a parenthesis behind blanks? -/
def hasLooseParenthesis : List (Text × Token) → Bool
  | (gap, .opening) :: _ => !gap.isEmpty
  | _ => false

/-- Is there no blank between the parentheses at the start of a layout, and none behind the first
token after them? -/
def isTight : List (Text × Token) → Bool
  | (_, .opening) :: l => !hasLooseParenthesis l && isTight l
  | _ :: l => (firstGap l).isEmpty
  | [] => true

/-- Does the text begin as relative path expressions do? -/
def startsRelative (t : Text) : Bool := relativeStarts.any fun s => Text.isStart s t

/-- What is left of a text without its parentheses and the blanks behind them. -/
def pastParentheses (t : Text) : Text := Text.trimStart (t.dropWhile fun c => c == '(')

theorem isRelativePath_eq (t : Text) :
    isRelativePath t = startsRelative (pastParentheses (Text.trimStart t)) := rfl

theorem isBlank_of_all {gap : Text} (h : gap.all isSpace = true) :
    ∀ c ∈ gap, Text.isBlank c = true := fun c hc =>
  XPath.isBlank_of_isSpace (List.all_eq_true.mp h c hc)

/-- Only the blanks of expressions stand before tokens, whatever else is white space. -/
theorem trimStart_of_lays {l : List (Text × Token)} {t : Text} (h : Lays l t) :
    Text.trimStart t = skipSpace t := by
  cases h with
  | done hblank =>
      rw [XPath.skipSpace_eq_nil hblank]
      exact List.dropWhile_eq_nil_iff.mpr (isBlank_of_all hblank)
  | @token gap k l rest hblank hends hmore =>
      obtain ⟨c, r, htext, hc⟩ := k.startsSolid.append rest
      rw [List.append_assoc, XPath.skipSpace_append hblank, k.skipSpace_eq, Text.trimStart,
        List.dropWhile_append_of_pos (isBlank_of_all hblank), htext,
        List.dropWhile_cons_of_neg (by rw [hc]; decide)]

/-- A text that begins with a name has no relative start unless two colons follow the name. -/
theorem startsRelative_of_readNCName {t name r : Text}
    (hname : Xml.readNCName t = some (name, r)) (hcolons : Text.isStart [':', ':'] r = false) :
    startsRelative t = false := by
  rw [startsRelative, Bool.eq_false_iff]
  intro h
  obtain ⟨s, hs, hstart⟩ := List.any_eq_true.mp h
  obtain ⟨u, rfl⟩ := Text.isStart_iff.mp hstart
  have haxis : ∀ a : XPath.Axis, s = a.name ++ [':', ':'] → False := by
    rintro a rfl
    have hread : Xml.readNCName (a.name ++ ':' :: ':' :: u) = some (a.name, ':' :: ':' :: u) :=
      XPath.readNCName_axis a (stops_cons.mpr (by decide))
    rw [List.append_assoc] at hname
    obtain ⟨-, rfl⟩ := Prod.mk.inj (Option.some.inj (hname.symm.trans hread))
    cases hcolons
  simp only [relativeStarts, List.mem_cons, List.not_mem_nil, or_false] at hs
  rcases hs with rfl | rfl | rfl
  · cases hname
  · exact haxis .descendant rfl
  · exact haxis .child rfl

theorem startsRelative_of_head {c : Char} {t : Text} (h : c ∉ ['.', 'd', 'c']) :
    startsRelative (c :: t) = false := by
  rw [startsRelative, Bool.eq_false_iff]
  intro hany
  obtain ⟨s, hs, hstart⟩ := List.any_eq_true.mp hany
  obtain ⟨u, hu⟩ := Text.isStart_iff.mp hstart
  simp only [relativeStarts, List.mem_cons, List.not_mem_nil, or_false] at hs
  have hc : c = '.' ∨ c = 'd' ∨ c = 'c' := by
    rcases hs with rfl | rfl | rfl
    · exact Or.inl (List.cons.inj hu).1
    · exact Or.inr (Or.inl (List.cons.inj hu).1)
    · exact Or.inr (Or.inr (List.cons.inj hu).1)
  exact h (by simpa using hc)

/-- What a text begins with, it begins with behind its blanks, if there are none. -/
theorem isStart_of_lays {l : List (Text × Token)} {t : Text} (h : Lays l t) {c : Char}
    (hc : isSpace c = false) (p : Text) :
    Text.isStart (c :: p) t = ((firstGap l).isEmpty && Text.isStart (c :: p) (skipSpace t)) := by
  have hblank : ∀ d u, isSpace d = true → Text.isStart (c :: p) (d :: u) = false := by
    intro d u hd
    have hcd : c ≠ d := by
      rintro rfl
      rw [hc] at hd
      cases hd
    rw [Text.isStart, Text.cutStart, if_neg hcd]
    rfl
  cases h with
  | done hall =>
      rw [XPath.skipSpace_eq_nil hall]
      cases t with
      | nil => rfl
      | cons d u => exact hblank d u (Bool.and_eq_true_iff.mp hall).1
  | @token gap k m rest hgap _ _ =>
      rw [List.append_assoc, XPath.skipSpace_append hgap, k.skipSpace_eq]
      cases gap with
      | nil => exact (Bool.true_and _).symm
      | cons d gap => exact hblank d _ (Bool.and_eq_true_iff.mp hgap).1

/-- A point starts at the context node when a slash comes next. -/
theorem startsHere_dot {l : List (Text × Token)} {t : Text} (h : Lays l t) :
    startsHere (.dot :: l.map Prod.snd) = Text.isStart ['/'] (skipSpace t) := by
  rcases h.skipSpace with ⟨rfl, ht⟩ | ⟨gap, k, m, rest, rfl, ht, -, -⟩
  · rw [ht]
    rfl
  · rw [ht, List.map_cons]
    by_cases hk : k = .slash ∨ k = .slashes
    · rcases hk with rfl | rfl <;> rfl
    · have hno : Text.isStart ['/'] (k.text ++ rest) = false := by
        rw [Bool.eq_false_iff]
        intro hstart
        obtain ⟨u, hu⟩ := Text.isStart_iff.mp hstart
        exact hk (XPath.Token.isSlash_of_head? (by rw [hu]; rfl))
      rw [hno]
      cases k <;> first | rfl | exact absurd (by simp) hk

/-- **The first step is classified by its first two tokens**, where no blank is between them. -/
theorem startsRelative_of_lays {k : Token} {l : List (Text × Token)} {rest : Text}
    (hk : k ≠ .opening) (hends : k.EndsBefore rest) (h : Lays l rest) :
    startsRelative (k.text ++ rest) =
      (startsHere (k :: l.map Prod.snd) && (firstGap l).isEmpty) := by
  cases k with
  | dot =>
      have hstart : startsRelative ('.' :: rest) = Text.isStart ['/'] rest := Bool.or_false _
      show startsRelative ('.' :: rest) = _
      rw [hstart, isStart_of_lays h (by decide), startsHere_dot h, Bool.and_comm]
  | axis a =>
      have hcolons : Text.isStart [':', ':'] rest = (firstGap l).isEmpty := by
        rw [isStart_of_lays h (by decide), hends.2, Bool.and_true]
      cases a with
      | child =>
          have hstart : startsRelative ("child".toList ++ rest) = Text.isStart [':', ':'] rest :=
            Bool.or_false _
          exact hstart.trans hcolons
      | descendant =>
          have hstart : startsRelative ("descendant".toList ++ rest) =
              Text.isStart [':', ':'] rest := Bool.or_false _
          exact hstart.trans hcolons
      | _ => rfl
  | name n =>
      obtain ⟨⟨name, r⟩, hname⟩ := XPath.exists_readNCName_name n hends.1
      exact startsRelative_of_readNCName hname (XPath.isStart_colons_of_readNCName hends.1 hname)
  | wildcard q => exact startsRelative_of_readNCName (XPath.readNCName_wildcard q rest) rfl
  | opening => exact absurd rfl hk
  | number n =>
      show startsRelative (n.text ++ rest) = false
      rcases n.exists_cons with ⟨c, r, htext, hc⟩ | ⟨c, r, htext, hc⟩ <;> rw [htext]
      · refine startsRelative_of_head fun hmem => ?_
        have hall : (['.', 'd', 'c'].all fun d => !d.isDigit) = true := by decide
        have hdigit := List.all_eq_true.mp hall c hmem
        rw [hc] at hdigit
        cases hdigit
      · have hslash : '/' ≠ c := (XPath.ne_of_class hc (by decide)).symm
        have hstart : startsRelative ('.' :: c :: (r ++ rest)) =
            Text.isStart ['/'] (c :: (r ++ rest)) := Bool.or_false _
        refine hstart.trans ?_
        rw [Text.isStart, Text.cutStart, if_neg hslash]
        rfl
  | literal v =>
      refine startsRelative_of_head ?_
      rcases v.isQuote with hq | hq <;> rw [hq] <;> decide
  | operator op => cases op <;> rfl
  | _ => rfl

/-! ## Parentheses -/

theorem dropWhile_parenthesis {t : Text} (h : t.head? ≠ some '(') :
    (t.dropWhile fun c => c == '(') = t := by
  cases t with
  | nil => rfl
  | cons c t =>
      refine List.dropWhile_cons_of_neg fun hc => h ?_
      rw [eq_of_beq hc]
      rfl

theorem pastParentheses_token {k : Token} (hk : k ≠ .opening) (rest : Text) :
    pastParentheses (k.text ++ rest) = k.text ++ rest := by
  have hhead : (k.text ++ rest).head? ≠ some '(' := fun hopen =>
    hk (Token.eq_of_head? (by simp [marks]) hopen)
  obtain ⟨c, r, htext, hc⟩ := k.startsSolid.append rest
  rw [pastParentheses, dropWhile_parenthesis hhead, Text.trimStart, htext,
    List.dropWhile_cons_of_neg (by rw [hc]; decide)]

/-- Behind a parenthesis another one is dropped if it comes at once; blanks are dropped before
whatever comes. -/
theorem pastParentheses_cons {l : List (Text × Token)} {t : Text} (h : Lays l t) :
    pastParentheses ('(' :: t) =
      if hasLooseParenthesis l then skipSpace t else pastParentheses (skipSpace t) := by
  show pastParentheses t = _
  -- blanks end the run of parentheses
  have hblank : ∀ c r, t = c :: r → isSpace c = true → pastParentheses t = skipSpace t := by
    intro c r ht hc
    have hhead : t.head? ≠ some '(' := by
      rw [ht]
      intro hopen
      rw [Option.some.inj hopen] at hc
      cases hc
    rw [pastParentheses, dropWhile_parenthesis hhead, trimStart_of_lays h]
  cases h with
  | done hall =>
      rw [XPath.skipSpace_eq_nil hall]
      cases t with
      | nil => rfl
      | cons c r =>
          rw [hblank c r rfl (Bool.and_eq_true_iff.mp hall).1, XPath.skipSpace_eq_nil hall]
          rfl
  | @token gap k l rest hgap hends hmore =>
      have hskip : skipSpace (gap ++ k.text ++ rest) = k.text ++ rest := by
        rw [List.append_assoc, XPath.skipSpace_append hgap, k.skipSpace_eq]
      cases gap with
      | nil =>
          have htight : hasLooseParenthesis (([], k) :: l) = false := by cases k <;> rfl
          rw [htight, hskip]
          rfl
      | cons c gap =>
          rw [hblank c _ rfl (Bool.and_eq_true_iff.mp hgap).1, hskip]
          by_cases hk : k = .opening
          · rw [hk]
            rfl
          · rw [pastParentheses_token hk, ite_self]

/-- **How a layout is classified.** -/
theorem startsRelative_pastParentheses {l : List (Text × Token)} {t : Text} (h : Lays l t) :
    startsRelative (pastParentheses (skipSpace t)) =
      (startsHere (l.map Prod.snd) && isTight l) := by
  induction l generalizing t with
  | nil =>
      rcases h.skipSpace with ⟨-, ht⟩ | ⟨_, _, _, _, hl, -⟩
      · rw [ht]
        rfl
      · cases hl
  | cons e l ih =>
      obtain ⟨gap, k⟩ := e
      rcases h.skipSpace with ⟨hl, -⟩ | ⟨_, _, _, rest, hl, ht, hends, hmore⟩
      · cases hl
      · cases hl
        rw [ht]
        by_cases hk : k = .opening
        · subst hk
          show startsRelative (pastParentheses ('(' :: rest)) =
            (startsHere (l.map Prod.snd) && (!hasLooseParenthesis l && isTight l))
          rw [pastParentheses_cons hmore]
          cases hloose : hasLooseParenthesis l with
          | true =>
              rcases hmore.skipSpace with ⟨rfl, -⟩ | ⟨gap', k', m, u, rfl, hu, -, -⟩
              · cases hloose
              · have hopen : k' = .opening := by cases k' <;> first | rfl | cases hloose
                rw [if_pos rfl, hu, hopen, Bool.not_true, Bool.false_and, Bool.and_false]
                exact startsRelative_of_head (by decide)
          | false => exact ih hmore
        · have htight : isTight ((gap, k) :: l) = (firstGap l).isEmpty := by
            cases k <;> first | rfl | exact absurd rfl hk
          rw [pastParentheses_token hk, startsRelative_of_lays hk hends hmore, htight]
          rfl

/-- **A layout is relative** exactly when its tokens start at the context node and it is tight. -/
theorem isRelativePath_of_lays {l : List (Text × Token)} {t : Text} (h : Lays l t) :
    isRelativePath t = (startsHere (l.map Prod.snd) && isTight l) := by
  rw [isRelativePath_eq, trimStart_of_lays h, startsRelative_pastParentheses h]

/-! ## Outcomes -/

/-- A fault that the second operation does not have is one of the first. -/
theorem Report.eq_error_of_bind {α β : Type} {r : Report α} {f : α → Report β} {e : Fault}
    (h : (r >>= f).result = .error e) (hf : ∀ a, (f a).result ≠ .error e) :
    r.result = .error e := by
  cases hr : r.result with
  | error e' =>
      rw [result_bind_of_error hr] at h
      rw [Except.error.inj h]
  | ok a =>
      rw [result_bind_of_ok hr] at h
      exact absurd h (hf a)

/-- The same outcome, except that a fault quotes the query as it was asked. -/
inductive SameButQuoted {α : Type} : Except Fault α → Except Fault α → Prop
  | same (o : Except Fault α) : SameButQuoted o o
  | malformed (why : SelectorFault) (query query' : Text) :
    SameButQuoted (.error (.malformed why (some query))) (.error (.malformed why (some query')))
  | notDescendant (query query' : Text) :
    SameButQuoted (.error (.notDescendant query)) (.error (.notDescendant query'))
  | notFound (query query' : Text) (what : Missing) :
    SameButQuoted (.error (.notFound query what)) (.error (.notFound query' what))

/-- **One operation after another.** -/
theorem SameButQuoted.bind {α β : Type} {r r' : Report α} {f g : α → Report β}
    (h : SameButQuoted r.result r'.result)
    (hfg : ∀ a, SameButQuoted (f a).result (g a).result) :
    SameButQuoted (r >>= f).result (r' >>= g).result := by
  rw [Report.result_bind, Report.result_bind]
  generalize r.result = o at h
  generalize r'.result = o' at h
  cases h with
  | same o =>
      cases o with
      | error e => exact .same _
      | ok a => exact hfg a
  | malformed why query query' => exact .malformed why query query'
  | notDescendant query query' => exact .notDescendant query query'
  | notFound query query' what => exact .notFound query query' what

/-- Path expressions that nothing tells apart but how they are quoted. -/
structure AlikePaths (x y : Text) : Prop where
  isEmpty_trim : (Text.trim y).isEmpty = (Text.trim x).isEmpty
  isRelativePath : isRelativePath y = isRelativePath x
  all_isXmlChar : y.all Xml.isXmlChar = x.all Xml.isXmlChar
  valueOf? (s : Snapshot) (context : Path) : s.valueOf? y context = s.valueOf? x context

namespace AlikePaths

variable {x y : Text} (h : AlikePaths x y) (s : Snapshot)

include h

theorem evaluatePath (context : Option Address) :
    SameButQuoted (s.evaluatePath x context).result (s.evaluatePath y context).result := by
  refine SameButQuoted.bind (.same _) fun origin => ?_
  rw [h.all_isXmlChar, h.valueOf?]
  split
  · exact .same _
  · cases s.valueOf? x origin with
    | none => exact .malformed .invalidPath x y
    | some v => cases v <;> exact .same _

theorem runPath (scope : Scope) :
    SameButQuoted (s.runPath (.path x) scope).result (s.runPath (.path y) scope).result := by
  rw [Snapshot.runPath, Snapshot.runPath, Snapshot.compileQuery, Snapshot.compileQuery,
    PathQuery.ofPath, PathQuery.ofPath, h.isEmpty_trim, h.isRelativePath]
  by_cases hblank : (Text.trim x).isEmpty = true
  · rw [if_pos hblank, if_pos hblank]
    exact .malformed .blankPath x y
  · rw [if_neg hblank, if_neg hblank, Report.result_bind_of_ok (Report.result_pure _),
      Report.result_bind_of_ok (Report.result_pure _)]
    dsimp only
    split
    · exact .notDescendant x y
    · refine SameButQuoted.bind (h.evaluatePath s _) fun found => ?_
      split
      · exact .notDescendant x y
      · exact .same _

theorem findAll (route : Route) (scope : Scope) :
    SameButQuoted (s.findAll route (.path x) scope).result
      (s.findAll route (.path y) scope).result := by
  refine SameButQuoted.bind ?_ fun found => .same _
  cases route with
  | path => exact h.runPath s scope
  | outline => exact .same _

/-- **Alike path expressions find the same children.** -/
theorem findChildren (route : Route) (parent : Node) :
    SameButQuoted (s.findChildren route (.path x) parent).result
      (s.findChildren route (.path y) parent).result := by
  by_cases hparent : parent.snapshot.version = s.version
  · rw [Snapshot.findChildren_eq hparent (by simp), Snapshot.findChildren_eq hparent (by simp)]
    refine SameButQuoted.bind (h.findAll s route _) fun ns => ?_
    cases ns with
    | nil => exact .notFound x y _
    | cons n ns => exact .same _
  · unfold Snapshot.findChildren
    rw [if_pos hparent, if_pos hparent]
    exact .same _

end AlikePaths

/-! ## Layouts -/

section Layouts

variable {l m : List (Text × Token)} {n : Nat} {x y : Text}

/-- A layout of an expression is no blank text. -/
theorem isEmpty_trim_of_lays (h : Lays l x) (hl : l ≠ []) : (Text.trim x).isEmpty = false := by
  rcases h.skipSpace with ⟨hnil, -⟩ | ⟨gap, k, m, rest, -, hx, -, -⟩
  · exact absurd hnil hl
  · obtain ⟨c, r, htext, hc⟩ := k.startsSolid.append rest
    have hstart : x.dropWhile Text.isBlank = c :: r := by
      rw [← htext, ← hx]
      exact trimStart_of_lays h
    have hagain : (c :: r).dropWhile Text.isBlank = c :: r :=
      List.dropWhile_cons_of_neg (by rw [hc]; decide)
    have htrim : Text.trim x = Text.trim (c :: r) := by
      rw [Text.trim, Text.trim, Text.trimBoth, Text.trimBoth, hstart, hagain]
    rw [htrim]
    exact Text.isEmpty_trim_cons hc r

theorem startsHere_wrapped (n : Nat) (ts : List Token) :
    startsHere (wrapped n ts) = startsHere ts := by
  have hclosing : ∀ us : List Token, startsHere (us ++ [.closing]) = startsHere us := by
    intro us
    induction us with
    | nil => rfl
    | cons k us ih =>
        cases k with
        | opening => exact ih
        | dot =>
            cases us with
            | nil => rfl
            | cons k us => cases k <;> rfl
        | axis a => cases a <;> rfl
        | _ => rfl
  induction n with
  | zero => rfl
  | succ n ih => exact (hclosing (wrapped n ts)).trans ih

theorem ne_nil_of_layout (hexpr : IsExpression (l.map Prod.snd))
    (htokens : m.map Prod.snd = wrapped n (l.map Prod.snd)) : m ≠ [] := by
  have hne := (hexpr.wrapped n).ne_nil
  rw [← htokens] at hne
  simpa using hne

variable (hexpr : IsExpression (l.map Prod.snd)) (hx : Lays l x) (hy : Lays m y)
  (htokens : m.map Prod.snd = wrapped n (l.map Prod.snd))

include hexpr hx hy htokens

/-- **Two layouts have the same value** everywhere, or none. -/
theorem valueOf?_of_layout (s : Snapshot) (context : Path) :
    s.valueOf? y context = s.valueOf? x context := by
  have hread := XPath.read?_of_wrapped hexpr.closes ⟨hexpr.inSlots, l, hx, rfl⟩
    ⟨(hexpr.wrapped n).inSlots, m, hy, htokens⟩
  rw [Snapshot.valueOf?, Snapshot.valueOf?, hread]
  cases XPath.Expr.read? x with
  | none => rfl
  | some e =>
      simp only [Option.map_some, Option.bind_eq_bind, Option.bind_some,
        XPath.evaluate_iterate_grouped]

theorem alikePaths_of_layout (hrelative : isRelativePath y = isRelativePath x) :
    AlikePaths x y where
  isEmpty_trim := by
    have hl : l ≠ [] := by simpa using hexpr.ne_nil
    rw [isEmpty_trim_of_lays hx hl, isEmpty_trim_of_lays hy (ne_nil_of_layout hexpr htokens)]
  isRelativePath := hrelative
  all_isXmlChar := by
    have hspelled : XPath.Spelled .operand (l.map Prod.snd) x := ⟨hexpr.inSlots, l, hx, rfl⟩
    have hspelled' : XPath.Spelled .operand (wrapped n (l.map Prod.snd)) y :=
      ⟨(hexpr.wrapped n).inSlots, m, hy, htokens⟩
    rw [hspelled.all_isXmlChar, hspelled'.all_isXmlChar, XPath.all_wrapped (by decide) (by decide)]
  valueOf? := valueOf?_of_layout hexpr hx hy htokens

end Layouts

/-! ## Refusals -/

namespace Snapshot

section Refusals

variable {s : Snapshot} {parent : Node} {x : Text}

/-- An expression that is not classified as relative is refused below every node. -/
theorem findChildren_of_absolute (hparent : parent.snapshot.version = s.version)
    (hblank : (Text.trim x).isEmpty = false) (h : isRelativePath x = false) :
    (s.findChildren .path (.path x) parent).result = .error (.notDescendant x) := by
  have habsolute : (Query.path x).isAbsolute = true := by
    rw [Query.isAbsolute, hblank, h]
    rfl
  rw [findChildren_eq hparent (by simp)]
  exact Report.result_bind_of_error (findAll_of_isAbsolute habsolute rfl s)

/-- The evaluation of an expression refuses nothing. -/
theorem evaluatePath_ne_notDescendant (context : Option Address) (t : Text) :
    (s.evaluatePath x context).result ≠ .error (.notDescendant t) := by
  intro h
  have horigin : s.contextPath context = .error (.notDescendant t) := by
    refine Report.eq_error_of_bind h fun origin horigin => ?_
    split at horigin
    · cases horigin
    · split at horigin <;> cases horigin
  unfold contextPath at horigin
  split at horigin
  · cases horigin
  · split at horigin <;> cases horigin

/-- **A relative expression is refused only for what it finds**: something outside of the scope. -/
theorem exists_outside_of_refused (hparent : parent.snapshot.version = s.version)
    (h : isRelativePath x = true)
    (hrefused : (s.findChildren .path (.path x) parent).result = .error (.notDescendant x)) :
    ∃ found, (s.evaluatePath x (some parent.path.address)).result = .ok found ∧
      ∃ p ∈ found, isInside parent.path.address p = false := by
  rw [findChildren_eq hparent (by simp)] at hrefused
  have hall := Report.eq_error_of_bind hrefused fun ns hns => by
    cases ns <;> cases hns
  have hrun : (s.runPath (.path x) (Scope.descendantsOf parent.path.address)).result =
      .error (.notDescendant x) := Report.eq_error_of_bind hall fun ps hps => by cases hps
  rw [runPath, compileQuery, PathQuery.ofPath, h] at hrun
  split at hrun
  · cases hrun
  · rw [Report.result_bind_of_ok (Report.result_pure _)] at hrun
    have hrest : ((s.evaluatePath x (some parent.path.address)) >>= fun found =>
        if (!found.all (isInside parent.path.address)) = true then
          Report.fail (.notDescendant x)
        else do
          Report.tell (.pathMatched x found.length)
          return found).result = .error (.notDescendant x) := hrun
    cases hfound : (s.evaluatePath x (some parent.path.address)).result with
    | error e =>
        rw [Report.result_bind_of_error hfound] at hrest
        rw [Except.error.inj hrest] at hfound
        exact absurd hfound (evaluatePath_ne_notDescendant _ x)
    | ok found =>
        refine ⟨found, rfl, ?_⟩
        rw [Report.result_bind_of_ok hfound] at hrest
        split at hrest
        · next houtside =>
          simpa using houtside
        · cases hrest

end Refusals

/-! ## Children -/

/-- **Two layouts of an expression, one of them with parentheses around it.** Both are relative when
the expression starts at the context node and they are tight. They find the same children, unless
the expression starts there and only one of them is tight: then the other one is refused below every
node, while the tight one is refused only for leaving the scope. -/
theorem findChildren_of_layout {l m : List (Text × Token)} {n : Nat} {x y : Text}
    (hexpr : IsExpression (l.map Prod.snd)) (hx : Lays l x) (hy : Lays m y)
    (htokens : m.map Prod.snd = wrapped n (l.map Prod.snd)) :
    isRelativePath x = (startsHere (l.map Prod.snd) && isTight l) ∧
    isRelativePath y = (startsHere (l.map Prod.snd) && isTight m) ∧
    ((startsHere (l.map Prod.snd) = true → isTight m = isTight l) →
      ∀ (s : Snapshot) (route : Route) (parent : Node),
        SameButQuoted (s.findChildren route (.path x) parent).result
          (s.findChildren route (.path y) parent).result) ∧
    ∀ (s : Snapshot) (parent : Node), parent.snapshot.version = s.version →
      startsHere (l.map Prod.snd) = true →
      (isTight m = false →
        (s.findChildren .path (.path y) parent).result = .error (.notDescendant y)) ∧
      (isTight m = true →
        (s.findChildren .path (.path y) parent).result = .error (.notDescendant y) →
        ∃ found, (s.evaluatePath y (some parent.path.address)).result = .ok found ∧
          ∃ p ∈ found, isInside parent.path.address p = false) := by
  have hrelative := isRelativePath_of_lays hx
  have hrelative' := isRelativePath_of_lays hy
  rw [htokens, startsHere_wrapped] at hrelative'
  refine ⟨hrelative, hrelative', ?_, ?_⟩
  · intro htight s route parent
    refine (alikePaths_of_layout hexpr hx hy htokens ?_).findChildren s route parent
    rw [hrelative, hrelative']
    cases hstarts : startsHere (l.map Prod.snd) with
    | false => rfl
    | true => rw [htight hstarts]
  · intro s parent hparent hstarts
    rw [hstarts, Bool.true_and] at hrelative'
    refine ⟨fun hloose => ?_, fun htight hrefused => ?_⟩
    · exact findChildren_of_absolute hparent
        (isEmpty_trim_of_lays hy (ne_nil_of_layout hexpr htokens)) (hrelative'.trans hloose)
    · exact exists_outside_of_refused hparent (hrelative'.trans htight) hrefused

/-- The expression for all elements below the context node, without blanks. -/
def below : List (Text × Token) := [([], .dot), ([], .slashes), ([], .star)]

/-- The same expression with a blank behind its point. -/
def belowLoose : List (Text × Token) := [([], .dot), ([' '], .slashes), ([], .star)]

theorem isExpression_below : IsExpression (below.map Prod.snd) := by
  have hpath : XPath.Derives .path [.dot, .slashes, .star] :=
    .location (.further (.first .here) (.inr rfl) (.child .anyName .noPredicate))
  exact ⟨hpath.inTiers XPath.tiers, rfl⟩

theorem lays_below : Lays below ".//*".toList :=
  .token rfl (stops_cons.mpr rfl) (.token rfl trivial (.token rfl trivial (.done rfl)))

theorem lays_belowLoose : Lays belowLoose ". //*".toList :=
  .token rfl (stops_cons.mpr rfl) (.token rfl trivial (.token rfl trivial (.done rfl)))

/-- A parenthesis around the expression and blanks inside of it change nothing, but a blank behind
the point has the expression refused. -/
theorem findChildren_of_layout_below :
    ∃ m : List (Text × Token), Lays m "( .//*\t)".toList ∧
      m.map Prod.snd = wrapped 1 (below.map Prod.snd) ∧
      isRelativePath ".//*".toList = true ∧ isRelativePath "( .//*\t)".toList = true ∧
      ∀ s : Snapshot,
        (∀ (route : Route) (parent : Node),
          SameButQuoted (s.findChildren route (.path ".//*".toList) parent).result
            (s.findChildren route (.path "( .//*\t)".toList) parent).result) ∧
        (s.findChildren .path (.path ". //*".toList) s.root).result =
          .error (.notDescendant ". //*".toList) := by
  have hm : Lays [([], .opening), ([' '], .dot), ([], .slashes), ([], .star), (['\t'], .closing)]
      "( .//*\t)".toList :=
    .token rfl trivial (.token rfl (stops_cons.mpr rfl) (.token rfl trivial
      (.token rfl trivial (.token rfl trivial (.done rfl)))))
  obtain ⟨hx, hy, hsame, -⟩ :=
    findChildren_of_layout (n := 1) isExpression_below lays_below hm rfl
  obtain ⟨-, -, -, hrefused⟩ :=
    findChildren_of_layout (n := 0) isExpression_below lays_below lays_belowLoose rfl
  refine ⟨_, hm, rfl, hx, hy, fun s => ⟨hsame (fun _ => rfl) s, ?_⟩⟩
  exact (hrefused s s.root rfl rfl).1 rfl

/-- **Layout does matter.** With a blank behind its point, or between two parentheses around it, the
expression for all elements below the context node is not relative, and so refused below every
node. -/
theorem isRelativePath_loose :
    IsExpression (below.map Prod.snd) ∧ Lays below ".//*".toList ∧
    (Lays belowLoose ". //*".toList ∧ belowLoose.map Prod.snd = below.map Prod.snd) ∧
    (∃ m, Lays m "( (.//*))".toList ∧ m.map Prod.snd = wrapped 2 (below.map Prod.snd)) ∧
    isRelativePath ".//*".toList = true ∧ isRelativePath ". //*".toList = false ∧
    isRelativePath "( (.//*))".toList = false ∧
    ∀ y ∈ [". //*".toList, "( (.//*))".toList], ∀ (s : Snapshot) (parent : Node),
      parent.snapshot.version = s.version →
        (s.findChildren .path (.path y) parent).result = .error (.notDescendant y) := by
  have hparentheses : Lays [([], .opening), ([' '], .opening), ([], .dot), ([], .slashes),
      ([], .star), ([], .closing), ([], .closing)] "( (.//*))".toList :=
    .token rfl trivial (.token rfl trivial (.token rfl (stops_cons.mpr rfl) (.token rfl trivial
      (.token rfl trivial (.token rfl trivial (.token rfl trivial (.done rfl)))))))
  refine ⟨isExpression_below, lays_below, ⟨lays_belowLoose, rfl⟩, ⟨_, hparentheses, rfl⟩, rfl, rfl,
    rfl, ?_⟩
  intro y hy s parent hparent
  rcases List.mem_pair.mp hy with rfl | rfl
  · exact findChildren_of_absolute hparent rfl rfl
  · exact findChildren_of_absolute hparent rfl rfl

end Snapshot

end UiTree
