import UiTree.Proofs.XPath.PlaceOrder
import UiTree.XPath.Evaluate

/-!
# UiTree.Proofs.XPath.Ordered -- places that an expression denotes

Whatever axes, functions and operators an expression uses, the places that it denotes are in
document order and each of them is there once. Steps, unions and identifiers put their places in
order; predicates and picks only take some out.

* **Main statement.** `isOrdered_of_evaluate`: the value of every expression is ordered.
-/

namespace UiTree.XPath

/-- Places are in document order, each of them once; other values have no order. -/
def Value.IsOrdered : Value → Prop
  | .places ps => Place.Ascending ps
  | _ => True

theorem Value.IsOrdered.places? {v : Value} (hv : v.IsOrdered) {ps : List Place}
    (h : v.places? = some ps) : Place.Ascending ps := by
  cases v with
  | places qs =>
      cases h
      exact hv
  | _ => cases h

/-! ## Predicates and picks -/

/-- Marking the elements of a list leaves them in their places. -/
theorem map_fst_of_mapM {α β γ : Type} {f : α × β → Option (α × γ)} {l : List (α × β)}
    {marked : List (α × γ)} (hf : ∀ e m, f e = some m → m.1 = e.1) (h : l.mapM f = some marked) :
    marked.map Prod.fst = l.map Prod.fst := by
  induction l generalizing marked with
  | nil =>
      cases h
      rfl
  | cons e l ih =>
      rw [List.mapM_cons] at h
      obtain ⟨m, hm, h⟩ := Option.bind_eq_some_iff.mp h
      obtain ⟨ms, hms, h⟩ := Option.bind_eq_some_iff.mp h
      cases h
      rw [List.map_cons, List.map_cons, ih hms, hf e m hm]

/-- A predicate only takes places out. -/
theorem keepWith_sublist {test : Focus → Option Value} {ps qs : List Place}
    (h : keepWith test ps = some qs) : qs.Sublist ps := by
  obtain ⟨marked, hmarked, hqs⟩ := Option.bind_eq_some_iff.mp h
  cases hqs
  have hfst : marked.map Prod.fst = ps := by
    rw [map_fst_of_mapM ?_ hmarked, List.zipIdx_map_fst]
    rintro ⟨p, i⟩ m hm
    obtain ⟨v, -, rfl⟩ := Option.map_eq_some_iff.mp hm
    rfl
  have hsub := (List.filter_sublist (p := Prod.snd) (l := marked)).map Prod.fst
  rw [hfst] at hsub
  exact hsub

/-- What a predicate leaves of ordered places is ordered. -/
theorem isOrdered_of_keepWith {test : Focus → Option Value} {v w : Value} (hv : v.IsOrdered)
    (h : (do
      let ps ← v.places?
      return Value.places (← keepWith test ps)) = some w) : w.IsOrdered := by
  obtain ⟨ps, hps, h⟩ := Option.bind_eq_some_iff.mp h
  obtain ⟨qs, hqs, h⟩ := Option.bind_eq_some_iff.mp h
  cases h
  exact (hv.places? hps).sublist (keepWith_sublist hqs)

theorem Value.IsOrdered.firstOf {v : Value} (hv : v.IsOrdered) : (firstOf v).IsOrdered := by
  cases v with
  | places ps => exact Place.Ascending.sublist hv (List.take_sublist 1 ps)
  | _ => trivial

theorem Value.IsOrdered.lastOf {v : Value} (hv : v.IsOrdered) : (lastOf v).IsOrdered := by
  cases v with
  | places ps => exact Place.Ascending.sublist hv (List.drop_sublist _ ps)
  | _ => trivial

/-! ## Operators and functions -/

theorem isOrdered_combine {s : Site} {op : BinaryOp} {v w x : Value}
    (h : combine s op v w = some x) : x.IsOrdered := by
  cases op with
  | union =>
      obtain ⟨ps, -, h⟩ := Option.bind_eq_some_iff.mp h
      obtain ⟨qs, -, h⟩ := Option.bind_eq_some_iff.mp h
      cases h
      exact Place.ascending_ordered _
  | _ =>
      cases h
      trivial

theorem isOrdered_onPlaces {f : Focus} {g : Place → Text} {as : List Value} {x : Value}
    (h : onPlaces f g as = some x) : x.IsOrdered := by
  unfold onPlaces at h
  split at h
  · cases h
    trivial
  · cases h
    trivial
  · cases h

theorem isOrdered_onText {s : Site} {f : Focus} {g : Text → Value} {as : List Value} {x : Value}
    (h : onText s f g as = some x) (hg : ∀ t, (g t).IsOrdered) : x.IsOrdered := by
  unfold onText at h
  split at h
  · cases h
    exact hg _
  · cases h
    exact hg _
  · cases h

theorem isOrdered_onTexts {s : Site} {g : Text → Text → Value} {as : List Value} {x : Value}
    (h : onTexts s g as = some x) (hg : ∀ t u, (g t u).IsOrdered) : x.IsOrdered := by
  unfold onTexts at h
  split at h
  · cases h
    exact hg _ _
  · cases h

theorem isOrdered_onNumber {s : Site} {g : Binary64 → Binary64} {as : List Value} {x : Value}
    (h : onNumber s g as = some x) : x.IsOrdered := by
  unfold onNumber at h
  split at h
  · cases h
    trivial
  · cases h

theorem isOrdered_placeFunction? {s : Site} {f : Focus} {name : String} {as : List Value}
    {x : Value} (h : placeFunction? s f name as = some x) : x.IsOrdered := by
  have counted : ∀ {g : Nat × Nat → Binary64},
      f.position.map (fun p => Value.number (g p)) = some x → x.IsOrdered := by
    intro g h
    obtain ⟨p, -, rfl⟩ := Option.map_eq_some_iff.mp h
    trivial
  unfold placeFunction? at h
  split at h
  · exact counted h
  · exact counted h
  · cases h
    trivial
  · cases h
    trivial
  -- the places with given identifiers are the only ones that a function gives
  · cases h
    exact Place.ascending_ordered _
  · cases h
    exact Place.ascending_ordered _
  · cases h
    trivial
  · exact isOrdered_onPlaces h
  · exact isOrdered_onPlaces h
  · exact isOrdered_onPlaces h
  · cases h

theorem isOrdered_textFunction? {s : Site} {f : Focus} {name : String} {as : List Value}
    {x : Value} (h : textFunction? s f name as = some x) : x.IsOrdered := by
  unfold textFunction? at h
  split at h
  · exact isOrdered_onText h fun _ => trivial
  · cases h
    trivial
  · exact isOrdered_onTexts h fun _ _ => trivial
  · exact isOrdered_onTexts h fun _ _ => trivial
  · exact isOrdered_onTexts h fun _ _ => trivial
  · exact isOrdered_onTexts h fun _ _ => trivial
  · cases h
    trivial
  · cases h
    trivial
  · exact isOrdered_onText h fun _ => trivial
  · exact isOrdered_onText h fun _ => trivial
  · cases h
    trivial
  · cases h

theorem isOrdered_plainFunction? {s : Site} {f : Focus} {name : String} {as : List Value}
    {x : Value} (h : plainFunction? s f name as = some x) : x.IsOrdered := by
  unfold plainFunction? at h
  split at h
  · cases h
    trivial
  · cases h
    trivial
  · cases h
    trivial
  · cases h
    trivial
  · cases h
    trivial
  · cases h
    trivial
  · exact isOrdered_onNumber h
  · exact isOrdered_onNumber h
  · exact isOrdered_onNumber h
  · cases h

theorem isOrdered_invoke? {s : Site} {f : Focus} {qualifier : Option Text} {name : Text}
    {as : List Value} {x : Value} (h : invoke? s f qualifier name as = some x) : x.IsOrdered := by
  unfold invoke? at h
  split at h
  · cases h
  · rcases Option.or_eq_some_iff.mp h with h | ⟨-, h⟩
    · exact isOrdered_placeFunction? h
    · rcases Option.or_eq_some_iff.mp h with h | ⟨-, h⟩
      · exact isOrdered_textFunction? h
      · exact isOrdered_plainFunction? h

/-! ## Expressions -/

/-- **The value of every expression is ordered.** -/
theorem isOrdered_of_evaluate (s : Site) :
    ∀ {e : Expr} {f : Focus} {v : Value}, evaluate s f e = some v → v.IsOrdered
  | .literal t, f, v, h => by
      cases h
      trivial
  | .number x, f, v, h => by
      cases h
      trivial
  | .variable x, f, v, h => by cases h
  | .root, f, v, h => by
      cases h
      exact List.pairwise_singleton _ _
  | .here, f, v, h => by
      cases h
      exact List.pairwise_singleton _ _
  | .signed negative a, f, v, h => by
      obtain ⟨w, -, h⟩ := Option.bind_eq_some_iff.mp h
      cases h
      trivial
  | .call qualifier name as, f, v, h => by
      rw [evaluate] at h
      obtain ⟨vs, -, h⟩ := Option.bind_eq_some_iff.mp h
      exact isOrdered_invoke? h
  | .group a, f, v, h => by
      rw [evaluate] at h
      exact isOrdered_of_evaluate s h
  | .step a axis test predicates, f, v, h => by
      rw [evaluate] at h
      obtain ⟨w, -, h⟩ := Option.bind_eq_some_iff.mp h
      obtain ⟨ps, -, h⟩ := Option.bind_eq_some_iff.mp h
      obtain ⟨uri, -, h⟩ := Option.bind_eq_some_iff.mp h
      obtain ⟨found, -, h⟩ := Option.bind_eq_some_iff.mp h
      cases h
      exact Place.ascending_ordered _
  | .binary op a b, f, v, h => by
      cases op with
      | or =>
          rw [evaluate] at h
          obtain ⟨w, -, h⟩ := Option.bind_eq_some_iff.mp h
          split at h
          · cases h
            trivial
          · obtain ⟨x, -, h⟩ := Option.bind_eq_some_iff.mp h
            cases h
            trivial
      | and =>
          rw [evaluate] at h
          obtain ⟨w, -, h⟩ := Option.bind_eq_some_iff.mp h
          split at h
          · obtain ⟨x, -, h⟩ := Option.bind_eq_some_iff.mp h
            cases h
            trivial
          · cases h
            trivial
      | _ =>
          obtain ⟨w, -, h⟩ := Option.bind_eq_some_iff.mp h
          obtain ⟨x, -, h⟩ := Option.bind_eq_some_iff.mp h
          exact isOrdered_combine h
  | .filter a p, f, v, h => by
      cases a with
      | group a =>
          rw [evaluate] at h
          obtain ⟨w, hw, h⟩ := Option.bind_eq_some_iff.mp h
          have hordered := isOrdered_of_evaluate s hw
          split at h
          · cases h
            exact hordered.firstOf
          · split at h
            · cases h
              exact hordered.lastOf
            · exact isOrdered_of_keepWith hordered h
      | _ =>
          rw [evaluate] at h
          · obtain ⟨w, hw, h⟩ := Option.bind_eq_some_iff.mp h
            exact isOrdered_of_keepWith (isOrdered_of_evaluate s hw) h
          · intro b hb
            cases hb

end UiTree.XPath
