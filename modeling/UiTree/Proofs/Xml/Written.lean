import UiTree.Xml.Token

/-!
# UiTree.Proofs.Xml.Written -- names as tokens write them

A name is written with a qualifier or without one, and without one it is its own base. Every name of
an attribute that the reader of tokens gives is such a name.

* **Main statements.** `WrittenName.IsSound` says it of one name, `Token.IsSound` of the attributes
  of a token; `isSound_of_tokens`: all tokens of a text are sound.
-/

namespace UiTree.Xml

/-- A name without a qualifier is its own base. -/
def WrittenName.IsSound (n : WrittenName) : Prop := n.qualifier = none → n.base = n.text

theorem isSound_of_readQName {t rest : Text} {n : WrittenName} (h : readQName t = some (n, rest)) :
    n.IsSound := by
  unfold readQName at h
  split at h
  · split at h
    · obtain ⟨⟨m, r⟩, -, h⟩ := Option.map_eq_some_iff.mp h
      cases h
      exact fun _ => rfl
    · cases h
  · split at h
    · cases h
      exact fun _ => rfl
    · cases h
      exact nofun
    · cases h
      exact nofun
  · cases h
    exact fun _ => rfl

/-- All attributes that a token writes have sound names. -/
def Token.IsSound : Token → Prop
  | .startTag _ attributes _ => ∀ a ∈ attributes, a.name.IsSound
  | _ => True

theorem isSound_of_readAttributesFrom {known : Entities} {fuel : Nat} {t rest : Text}
    {attributes : List WrittenAttribute} {closed : Bool}
    (h : readAttributesFrom known fuel t = some ((attributes, closed), rest)) :
    ∀ a ∈ attributes, a.name.IsSound := by
  induction fuel generalizing t attributes closed rest with
  | zero => cases h
  | succ fuel ih =>
      rw [readAttributesFrom.eq_def] at h
      dsimp only at h
      split at h
      · cases h
        exact nofun
      · cases h
        exact nofun
      · simp only [Option.bind_eq_bind, Option.bind_eq_some_iff] at h
        obtain ⟨⟨name, t₁⟩, hname, t₂, -, ⟨value, t₃⟩, -, h⟩ := h
        -- whatever ends the attribute, the others are read from some text after it
        obtain ⟨t₄, more, hmore, rfl⟩ : ∃ t₄ more,
            readAttributesFrom known fuel t₄ = some ((more, closed), rest) ∧
              attributes = ⟨name, value⟩ :: more := by
          split at h
          all_goals
            simp only [Option.bind_some, Option.bind_eq_some_iff] at h
          · obtain ⟨⟨⟨more, c⟩, r⟩, hmore, h⟩ := h
            cases h
            exact ⟨_, more, hmore, rfl⟩
          · obtain ⟨⟨⟨more, c⟩, r⟩, hmore, h⟩ := h
            cases h
            exact ⟨_, more, hmore, rfl⟩
          · obtain ⟨t₄, -, ⟨⟨more, c⟩, r⟩, hmore, h⟩ := h
            cases h
            exact ⟨t₄, more, hmore, rfl⟩
        intro a ha
        rcases List.mem_cons.mp ha with rfl | ha
        · exact isSound_of_readQName hname
        · exact ih hmore a ha

theorem isSound_of_readToken? {known : Entities} {t rest : Text} {k : Token}
    (h : readToken? known t = some (k, rest)) : k.IsSound := by
  rw [readToken?.eq_def] at h
  split at h
  · cases h
  · simp only [readEndTag, Option.bind_eq_bind, Option.bind_eq_some_iff] at h
    obtain ⟨⟨name, r⟩, -, r', -, h⟩ := h
    cases h
    exact trivial
  · obtain ⟨⟨target, body, r⟩, -, h⟩ := Option.map_eq_some_iff.mp h
    cases h
    exact trivial
  · rw [readBang] at h
    split at h
    · obtain ⟨⟨body, r⟩, -, h⟩ := Option.map_eq_some_iff.mp h
      cases h
      exact trivial
    · simp only [Option.bind_eq_bind, Option.bind_eq_some_iff] at h
      obtain ⟨r, -, ⟨body, r'⟩, -, h⟩ := h
      split at h
      · cases h
        exact trivial
      · cases h
  · simp only [readStartTag, Option.bind_eq_bind, Option.bind_eq_some_iff] at h
    obtain ⟨⟨name, r⟩, -, ⟨⟨attributes, closed⟩, r'⟩, hattributes, h⟩ := h
    cases h
    exact isSound_of_readAttributesFrom hattributes
  · obtain ⟨⟨r, rest'⟩, -, h⟩ := Option.map_eq_some_iff.mp h
    cases r <;> cases h <;> exact trivial
  · dsimp only at h
    split at h
    · cases h
      exact trivial
    · cases h

theorem isSound_of_tokensFrom {known : Entities} {fuel : Nat} {t : Text} {acc ks : List Token}
    (h : tokensFrom known fuel t acc = some ks) (hacc : ∀ k ∈ acc, k.IsSound) :
    ∀ k ∈ ks, k.IsSound := by
  induction fuel generalizing t acc with
  | zero =>
      cases t with
      | nil =>
          cases h
          exact fun k hk => hacc k (List.mem_reverse.mp hk)
      | cons c t => cases h
  | succ fuel ih =>
      cases t with
      | nil =>
          cases h
          exact fun k hk => hacc k (List.mem_reverse.mp hk)
      | cons c t =>
          rw [tokensFrom.eq_def] at h
          dsimp only at h
          split at h
          · next k rest hk =>
            refine ih h ?_
            intro k' hk'
            rcases List.mem_cons.mp hk' with rfl | hk'
            · exact isSound_of_readToken? hk
            · exact hacc k' hk'
          · cases h

/-- Every token of a text is sound. -/
theorem isSound_of_tokens {known : Entities} {t : Text} {ks : List Token}
    (h : tokens known t = some ks) : ∀ k ∈ ks, k.IsSound :=
  isSound_of_tokensFrom h nofun

end UiTree.Xml
