import Mathlib.Logic.Function.Iterate
import UiTree.Proofs.XPath.Grammar
import UiTree.Proofs.XPath.Layout
import UiTree.XPath.Evaluate

/-!
# UiTree.Proofs.XPath.Wrapped -- expressions with parentheses around them

Tokens that close all their brackets can be laid out in any way, and any number of parentheses can
be put around them: what is read is the same expression, or again no expression. The parentheses
stay visible in it, but do not change its value.

* **Main statements.** `read?_of_wrapped`: what a text with parentheses around its tokens is read
  as. `evaluate_grouped`: a group has the value of what is in it.
-/

namespace UiTree.XPath

open Xml (skipSpace)

/-! ## A group in the tiers -/

/-- What a path is read as, any tiers read it as, when no operator follows it. -/
theorem readAt_of_readPath {f : Nat} {t : Text} {res : Option (Expr × Text)}
    (ht : skipSpace t = t) (hsign : t.head? ≠ some '-') (hpath : readPath f t = res)
    (hres : ∀ e s, res = some (e, s) → skipSpace s = s ∧ ∀ ops, cutOperator ops s = none)
    (L : List Tier) : readAt (f + L.length + 1) L t = res := by
  induction L with
  | nil =>
      show readAt (f + 1) [] t = res
      rw [readAt, ht, hpath]
  | cons tier L ih =>
      show readAt (f + L.length + 2) (tier :: L) t = res
      cases tier with
      | operators ops =>
          rw [readAt, ih]
          cases hr : res with
          | none => rfl
          | some q =>
              obtain ⟨hspace, hops⟩ := hres q.1 q.2 hr
              show readMore (f + L.length + 1) ops L q.1 (skipSpace q.2) = some q
              rw [hspace, readMore, hops]
      | signs =>
          rw [readAt, cutSigns_of_head hsign ht]
          show (readAt (f + L.length + 1) L t >>= fun q => some (q.1, q.2)) = res
          rw [ih]
          cases res <;> rfl

/-- What is read of a text with a parenthesis before it. -/
def grouping (res : Option (Expr × Text)) : Option (Expr × Text) :=
  res.bind fun q => (closeGroup q.1 q.2).map fun g => (g.1, skipSpace g.2)

/-- Nothing follows but blanks, or a closing parenthesis does. -/
def ClosesOff (t : Text) : Prop := skipSpace t = [] ∨ ∃ r, skipSpace t = ')' :: r

theorem ClosesOff.head?_ne {t : Text} (h : ClosesOff t) {c : Char} (hc : c ≠ ')') :
    (skipSpace t).head? ≠ some c := by
  intro hhead
  rcases h with h | ⟨r, h⟩ <;> rw [h] at hhead
  · cases hhead
  · exact hc (Option.some.inj hhead).symm

theorem ClosesOff.cutOperator {t : Text} (h : ClosesOff t) (ops : List BinaryOp) :
    cutOperator ops (skipSpace t) = none := by
  refine cutOperator_of_ends ?_ ops
  rcases h with h | ⟨r, h⟩ <;> rw [h]
  · exact ends_nil closers
  · exact ends_cons (by decide) r

theorem readPath_group {f : Nat} {r : Text}
    (hcloses : ∀ e s, readAt f tiers (skipSpace r) = some (e, ')' :: s) → ClosesOff s) :
    readPath (f + 2) ('(' :: r) = grouping (readAt f tiers (skipSpace r)) := by
  rw [readPath_of_primary rfl, readPrimary_group]
  cases hread : readAt f tiers (skipSpace r) with
  | none => rfl
  | some q =>
      obtain ⟨e, t⟩ := q
      by_cases ht : t.head? = some ')'
      · obtain ⟨s, rfl⟩ := List.head?_eq_some_iff.mp ht
        have hoff : ClosesOff s := hcloses e s hread
        show (readPredicates (f + 1) (skipSpace s) >>= fun ps =>
          readBehind (f + 1) (ps.1.foldl .filter e.grouped) ps.2) = some (e.grouped, skipSpace s)
        rw [readPredicates_of_head (hoff.head?_ne (by decide))]
        exact readBehind_of_head (hoff.head?_ne (by decide))
      · rw [grouping, Option.bind_some, Option.bind_eq_bind, Option.bind_some,
          closeGroup_of_head ht]
        rfl

theorem grouping_eq_some {res : Option (Expr × Text)} {e : Expr} {s : Text}
    (h : grouping res = some (e, s)) :
    ∃ e' r, res = some (e', ')' :: r) ∧ e = e'.grouped ∧ s = skipSpace r := by
  cases res with
  | none => cases h
  | some q =>
      obtain ⟨e', t⟩ := q
      by_cases ht : t.head? = some ')'
      · obtain ⟨r, rfl⟩ := List.head?_eq_some_iff.mp ht
        obtain ⟨rfl, rfl⟩ := Prod.mk.inj (Option.some.inj h)
        exact ⟨e', r, rfl, rfl, rfl⟩
      · rw [grouping, Option.bind_some, closeGroup_of_head ht] at h
        cases h

/-- **Parentheses around a text** make a group of what is read of it. -/
theorem readAt_group {f : Nat} {r : Text}
    (hcloses : ∀ e s, readAt f tiers (skipSpace r) = some (e, ')' :: s) → ClosesOff s) :
    readAt (f + 11) tiers ('(' :: r) = grouping (readAt f tiers (skipSpace r)) := by
  refine readAt_of_readPath rfl (by simp) (readPath_group hcloses) (fun e s h => ?_) tiers
  obtain ⟨e', t, hread, -, rfl⟩ := grouping_eq_some h
  exact ⟨skipSpace_skipSpace t, (hcloses e' t hread).cutOperator⟩

/-! ## Any number of parentheses -/

/-- The expression of a result that leaves nothing. -/
def complete? : Option (Expr × Text) → Option Expr
  | some (e, []) => some e
  | _ => none

theorem complete?_of_ne_nil {e : Expr} {t : Text} (h : t ≠ []) :
    complete? (some (e, t)) = none := by
  unfold complete?
  split
  · next heq =>
    obtain ⟨-, rfl⟩ := Prod.mk.inj (Option.some.inj heq)
    exact absurd rfl h
  · rfl

theorem read?_eq (t : Text) :
    Expr.read? t = complete? (readAt (20 * (t.length + 2)) tiers (skipSpace t)) := rfl

/-- How tokens are read before others when alone they are an expression, or none. -/
def ReadsBefore (us : List Token) (o : Option Expr) (res : Option (Expr × Text)) : Prop :=
  match o with
  | some e => ∃ p s, res = some (e, s) ∧ Spelled p us s ∧ skipSpace s = s
  | none => ∀ e s, res = some (e, s) → s ≠ [] ∧ s.head? ≠ some ')'

variable {us ts : List Token} {x y : Text}

theorem Agree.readsBefore (hus : IsTail us) {m : Nat} {res res' : Option (Expr × Text)}
    (h : Agree id us 0 m res res') : ReadsBefore us (complete? res) res' := by
  cases h with
  | fails =>
      intro e s h
      cases h
  | @reads e r s hrest =>
      obtain ⟨p, ts, htwin, -, -⟩ := hrest
      rcases htwin.cases hus with ⟨rfl, -, hr, -⟩ | ⟨k, ts', r', s', -, hr, hs, hb⟩
      · obtain rfl : r = [] := hr
        exact ⟨p, s, rfl, htwin.right, htwin.solidRight⟩
      · obtain rfl : r = k.text ++ r' := hr
        obtain rfl : s = k.text ++ s' := hs
        have hne : ∀ t, k.text ++ t ≠ [] := by
          intro t hnil
          have hpos := k.length_pos
          rw [(List.append_eq_nil_iff.mp hnil).1] at hpos
          cases hpos
        rw [complete?_of_ne_nil (hne r')]
        intro e' t ht
        obtain ⟨-, rfl⟩ := Prod.mk.inj (Option.some.inj ht)
        refine ⟨hne s', fun hhead => ?_⟩
        -- no bracket is open that the token could close
        obtain rfl : k = .closing := Token.eq_of_head? (by simp [marks]) hhead
        obtain ⟨e, he, -⟩ := hb.behind
        cases he

/-- Tokens before others are read as they are read alone. -/
theorem readsBefore_of_spelled (hus : IsTail us) (hts : closes 0 ts = true)
    (hx : Spelled .operand ts x) (hy : Spelled .operand (ts ++ us) y) {f : Nat}
    (hf : 20 * ts.length + 13 ≤ f) :
    ReadsBefore us (Expr.read? x) (readAt f tiers (skipSpace y)) := by
  have hlength := hx.length_le
  have htwin : Twin us 0 .operand ts (skipSpace x) (skipSpace y) :=
    ⟨spelled_skipSpace_iff.mpr hx, spelled_skipSpace_iff.mpr hy, hts, skipSpace_skipSpace x,
      skipSpace_skipSpace y⟩
  rw [read?_eq]
  exact ((readsTwins hus (20 * ts.length + 13)).at' (by omega) hf (List.suffix_refl tiers) htwin
    (Nat.le_refl _)).readsBefore hus

theorem closesOff_of_spelled (hus : IsTail us) {p : Slot} {s : Text} (h : Spelled p us s) :
    ClosesOff s := by
  rcases hus with rfl | ⟨vs, rfl⟩
  · exact Or.inl (spelled_nil_iff.mp h)
  · obtain ⟨r, hr, -⟩ := spelled_cons_iff.mp h
    exact Or.inr ⟨r, hr⟩

/-- **Parentheses make groups**: tokens in them, before others, are read as a group of what the
tokens alone are read as. -/
theorem readsBefore_of_wrapped (hts : closes 0 ts = true) (hx : Spelled .operand ts x) {n f : Nat}
    (hus : IsTail us) (hy : Spelled .operand (wrapped n ts ++ us) y)
    (hf : 20 * ts.length + 13 + 11 * n ≤ f) :
    ReadsBefore us ((Expr.read? x).map (Expr.grouped^[n])) (readAt f tiers (skipSpace y)) := by
  induction n generalizing us y f with
  | zero =>
      have hid : (Expr.read? x).map (Expr.grouped^[0]) = Expr.read? x := by
        cases Expr.read? x <;> rfl
      rw [hid]
      exact readsBefore_of_spelled hus hts hx hy hf
  | succ n ih =>
      have htokens : wrapped (n + 1) ts ++ us = .opening :: (wrapped n ts ++ (.closing :: us)) := by
        rw [wrapped, List.cons_append, List.append_assoc]
        rfl
      rw [htokens] at hy
      obtain ⟨r, hr, -, -, hinner⟩ := spelled_cons_iff.mp hy
      obtain ⟨f, rfl⟩ := Nat.exists_eq_add_of_le' (by omega : 11 ≤ f)
      have hread := ih (Or.inr ⟨us, rfl⟩) hinner (by omega : _ ≤ f)
      rw [hr]
      show ReadsBefore us _ (readAt (f + 11) tiers ('(' :: r))
      cases ho : Expr.read? x with
      | none =>
          rw [ho] at hread
          rw [readAt_group fun e s hs => absurd rfl (hread e _ hs).2]
          intro e s hs
          obtain ⟨e', t, hnone, -⟩ := grouping_eq_some hs
          exact absurd rfl (hread e' _ hnone).2
      | some e =>
          rw [ho] at hread
          obtain ⟨p, s, hs, hspelled, hsolid⟩ := hread
          obtain ⟨s', hs', -, -, hbehind⟩ := spelled_cons_iff.mp hspelled
          obtain rfl : s = ')' :: s' := hsolid.symm.trans hs'
          have hoff : ClosesOff s' := closesOff_of_spelled hus hbehind
          have hcloses : ∀ e' t, readAt f tiers (skipSpace r) = some (e', ')' :: t) →
              ClosesOff t := by
            intro e' t ht
            rw [hs] at ht
            obtain ⟨-, ht⟩ := Prod.mk.inj (Option.some.inj ht)
            rw [← (List.cons.inj ht).2]
            exact hoff
          rw [readAt_group hcloses, hs]
          refine ⟨_, skipSpace s', ?_, spelled_skipSpace_iff.mpr hbehind, skipSpace_skipSpace s'⟩
          show some ((Expr.grouped^[n] e).grouped, skipSpace s') = _
          rw [← Function.iterate_succ_apply' Expr.grouped n e]

/-- **Layout and parentheses do not matter**: tokens that close all their brackets are read as the
same expression, or as none, however they are laid out, with a group for every parenthesis. -/
theorem read?_of_wrapped (hts : closes 0 ts = true) (hx : Spelled .operand ts x) {n : Nat}
    (hy : Spelled .operand (wrapped n ts) y) :
    Expr.read? y = (Expr.read? x).map (Expr.grouped^[n]) := by
  have hlength := hy.length_le
  rw [length_wrapped] at hlength
  have hy' : Spelled .operand (wrapped n ts ++ []) y := by
    rw [List.append_nil]
    exact hy
  have hread := readsBefore_of_wrapped hts hx (Or.inl rfl) hy'
    (by omega : _ ≤ 20 * (y.length + 2))
  rw [read?_eq y]
  cases ho : Expr.read? x with
  | none =>
      rw [ho] at hread
      cases hres : readAt (20 * (y.length + 2)) tiers (skipSpace y) with
      | none => rfl
      | some q => exact complete?_of_ne_nil (hread q.1 q.2 hres).1
  | some e =>
      rw [ho] at hread
      obtain ⟨p, s, hs, hspelled, hsolid⟩ := hread
      obtain rfl : s = [] := hsolid.symm.trans (spelled_nil_iff.mp hspelled)
      rw [hs]
      rfl

/-! ## Values -/

/-- A group has the value of what is in it. -/
theorem evaluate_grouped (s : Site) (focus : Focus) (e : Expr) :
    evaluate s focus e.grouped = evaluate s focus e := by
  cases e <;> rfl

theorem evaluate_iterate_grouped (s : Site) (focus : Focus) (n : Nat) (e : Expr) :
    evaluate s focus (Expr.grouped^[n] e) = evaluate s focus e := by
  induction n with
  | zero => rfl
  | succ n ih => rw [Function.iterate_succ_apply', evaluate_grouped, ih]

end UiTree.XPath
