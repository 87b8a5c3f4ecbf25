import UiTree.Proofs.Selector.RoundTrip

/-!
# UiTree.Proofs.Selector.Leftmost -- selector texts one after the other

Groups are scanned and judged from the left, so what stands at the end of a text has no part in what
was read before it. A text that strict reading accepts can be put in front of any line: the
predicates come one after the other, and the faults of the line stay what they are, fragments
included. A group that is refused is refused whatever follows it.

* **Complete groups.** `Fault.isOfGroup` singles out the faults that are found in a whole group, as
  opposed to those of the text around it.
* **Fragments.** `Fault.Quotes`: the fragment that a fault tells is a part of the text.
* **Main statement.** `readStrict_append`.
-/

namespace UiTree

/-! ## Scanning -/

/-- A body that ends in a text ends there too when the text goes on. -/
theorem cutBody_append_right {d : Nat} {t body rest : Text} (h : cutBody d t = some (body, rest))
    (u : Text) : cutBody d (t ++ u) = some (body, rest ++ u) := by
  obtain ⟨ht, hbelow, hdepth⟩ := cutBody_eq_some_iff.mp h
  apply cutBody_eq_some_iff.mpr
  refine ⟨?_, hbelow, hdepth⟩
  rw [ht, List.append_assoc, List.cons_append]

/-- Groups in front of a text come in front of its groups, and its fault stays. -/
theorem scan_flatMap_append {gs : List Group} (h : ∀ g ∈ gs, Balanced g.body) (t : Text) :
    scan (gs.flatMap Group.text ++ t) = ⟨gs ++ (scan t).groups, (scan t).fault⟩ := by
  induction gs with
  | nil => rfl
  | cons g gs ih =>
      have htail := ih fun g' hg' => h g' (List.mem_cons_of_mem g hg')
      rw [List.flatMap_cons, List.append_assoc, scan_append (h g List.mem_cons_self), htail]
      rfl

/-- More text at the end leaves the groups that were complete what they are. -/
theorem exists_groups_append (t u : Text) :
    ∃ more, (scan (t ++ u)).groups = (scan t).groups ++ more := by
  induction t using scan.induct with
  | case1 => exact ⟨(scan u).groups, by rw [scan]; rfl⟩
  | case2 rest body after hb ih =>
      obtain ⟨more, hmore⟩ := ih
      refine ⟨more, ?_⟩
      rw [List.cons_append, scan_of_cutBody (cutBody_append_right hb u), scan_of_cutBody hb, hmore]
      rfl
  | case3 rest hb =>
      refine ⟨(scan ('[' :: rest ++ u)).groups, ?_⟩
      rw [scan_of_open hb, List.nil_append]
  | case4 c rest hc =>
      refine ⟨(scan (c :: rest ++ u)).groups, ?_⟩
      rw [scan_of_stray hc, List.nil_append]

namespace Fault

/-- A fault that is found in one complete group: in its key, its operator or its value. -/
def isOfGroup : Fault → Bool
  | .malformed .noKey _ | .malformed .noOperator _ | .malformed .unknownKey _ => true
  | .unsupported .. => true
  | _ => false

/-- If the fault tells a fragment, then it tells one, and that is a part of the text. -/
def Quotes (t : Text) (e : Fault) : Prop :=
  ∀ why fragment, e = .malformed why fragment → ∃ f, fragment = some f ∧ f <:+: t

theorem quotes_malformed {t f : Text} (why : SelectorFault) (h : f <:+: t) :
    Quotes t (.malformed why (some f)) := by
  intro why' fragment he
  cases he
  exact ⟨f, rfl, h⟩

theorem Quotes.mono {t u : Text} {e : Fault} (h : e.Quotes t) (htu : t <:+: u) : e.Quotes u := by
  intro why fragment he
  obtain ⟨f, hf, hft⟩ := h why fragment he
  exact ⟨f, hf, hft.trans htu⟩

end Fault

/-- Every group is a part of the text that it was read from. -/
theorem infix_of_mem_groups {t : Text} {g : Group} (h : g ∈ (scan t).groups) : g.text <:+: t := by
  induction t using scan.induct with
  | case1 =>
      rw [scan] at h
      cases h
  | case2 rest body after hb ih =>
      rw [scan_of_cutBody hb] at h
      have ht : '[' :: rest = Group.text ⟨body⟩ ++ after := by
        rw [Group.text_append, append_of_cutBody hb]
      rw [ht]
      rcases List.mem_cons.mp h with rfl | h
      · exact (List.prefix_append _ _).isInfix
      · exact (ih h).trans (List.suffix_append _ _).isInfix
  | case3 rest hb =>
      rw [scan_of_open hb] at h
      cases h
  | case4 c rest hc =>
      rw [scan_of_stray hc] at h
      cases h

/-- What stops the scanner is no fault of a group, and it quotes the text. -/
theorem fault_scan {t : Text} {e : Fault} (h : (scan t).fault = some e) :
    e.isOfGroup = false ∧ e.Quotes t := by
  induction t using scan.induct with
  | case1 =>
      rw [scan] at h
      cases h
  | case2 rest body after hb ih =>
      rw [scan_of_cutBody hb] at h
      obtain ⟨hkind, hquotes⟩ := ih h
      refine ⟨hkind, hquotes.mono ?_⟩
      have ht : '[' :: rest = Group.text ⟨body⟩ ++ after := by
        rw [Group.text_append, append_of_cutBody hb]
      rw [ht]
      exact (List.suffix_append _ _).isInfix
  | case3 rest hb =>
      rw [scan_of_open hb] at h
      cases h
      exact ⟨rfl, Fault.quotes_malformed _ (List.infix_refl _)⟩
  | case4 c rest hc =>
      rw [scan_of_stray hc] at h
      cases h
      exact ⟨rfl, Fault.quotes_malformed _ (List.takeWhile_prefix _).isInfix⟩

namespace Selector

/-! ## Groups -/

/-- The groups in front were taken: their predicates come first. -/
theorem readGroups_append_of_ok {strict : Bool} {gs : List Group} {ps : List Predicate}
    (h : (readGroups strict gs).result = .ok ps) (hs : List Group) :
    (readGroups strict (gs ++ hs)).result = (readGroups strict hs).result.map (ps ++ ·) := by
  induction gs generalizing ps with
  | nil =>
      cases h
      rw [List.nil_append]
      cases (readGroups strict hs).result <;> rfl
  | cons g gs ih =>
      rw [readGroups] at h
      obtain ⟨p, hp, h⟩ := Report.result_bind_eq_ok_iff.mp h
      obtain ⟨qs, hqs, h⟩ := Report.result_bind_eq_ok_iff.mp h
      cases h
      rw [List.cons_append, readGroups, Report.result_bind_of_ok hp, Report.result_bind, ih hqs]
      cases (readGroups strict hs).result with
      | error e => rfl
      | ok rs => exact congrArg Except.ok (List.append_assoc p.toList qs rs).symm

/-- A group in front was refused: nothing behind it is looked at. -/
theorem readGroups_append_of_error {strict : Bool} {gs : List Group} {e : Fault}
    (h : (readGroups strict gs).result = .error e) (hs : List Group) :
    (readGroups strict (gs ++ hs)).result = .error e := by
  induction gs with
  | nil => cases h
  | cons g gs ih =>
      rw [readGroups, Report.result_bind] at h
      rw [List.cons_append, readGroups, Report.result_bind]
      cases hg : (readGroup strict g).result with
      | error e' =>
          rw [hg] at h
          exact h
      | ok p =>
          rw [hg] at h
          change (readGroups strict gs >>= fun ps => pure (p.toList ++ ps)).result = _ at h
          show (readGroups strict (gs ++ hs) >>= fun ps => pure (p.toList ++ ps)).result = _
          cases hgs : (readGroups strict gs).result with
          | error e' =>
              rw [Report.result_bind_of_error hgs] at h
              cases h
              exact Report.result_bind_of_error (ih hgs)
          | ok ps =>
              rw [Report.result_bind_of_ok hgs] at h
              cases h

/-- A fault of a group quotes the whole group. -/
theorem quotes_of_readGroup {strict : Bool} {g : Group} {e : Fault}
    (h : (readGroup strict g).result = .error e) : e.Quotes g.text := by
  have hwhole : ∀ why, Fault.Quotes g.text (.malformed why (some g.text)) :=
    fun why => Fault.quotes_malformed why (List.infix_refl _)
  unfold readGroup at h
  split at h
  · next e' hsplit =>
    cases h
    unfold splitGroup at hsplit
    dsimp only at hsplit
    split at hsplit
    · cases hsplit
      exact hwhole _
    · split at hsplit
      · cases hsplit
      · cases hsplit
        exact hwhole _
  · next key o value _ =>
    split at h
    · split at h
      · cases h
        exact hwhole _
      · cases h
    · next a _ =>
      -- a value is refused with the value, not with a fragment
      intro why fragment he
      subst he
      unfold Predicate.make at h
      split at h <;> cases h

theorem quotes_of_readGroups {strict : Bool} {gs : List Group} {e : Fault}
    (h : (readGroups strict gs).result = .error e) : ∃ g ∈ gs, e.Quotes g.text := by
  induction gs with
  | nil => cases h
  | cons g gs ih =>
      rw [readGroups, Report.result_bind] at h
      cases hg : (readGroup strict g).result with
      | error e' =>
          rw [hg] at h
          cases h
          exact ⟨g, List.mem_cons_self, quotes_of_readGroup hg⟩
      | ok p =>
          rw [hg] at h
          change (readGroups strict gs >>= fun ps => pure (p.toList ++ ps)).result = _ at h
          cases hgs : (readGroups strict gs).result with
          | error e' =>
              rw [Report.result_bind_of_error hgs] at h
              cases h
              obtain ⟨g', hg', hquotes⟩ := ih hgs
              exact ⟨g', List.mem_cons_of_mem g hg', hquotes⟩
          | ok ps =>
              rw [Report.result_bind_of_ok hgs] at h
              cases h

/-! ## Whole texts -/

/-- A text of several lines is refused as a whole. -/
theorem result_read_of_not_isLine {t : Text} (hne : t ≠ []) (hline : ¬ IsLine t) (strict : Bool) :
    (read strict t).result = .error (.malformed .severalLines (some t)) := by
  have hempty : t.isEmpty = false := by simpa using hne
  have hends : (t.contains '\n' || t.contains '\r') = true := by
    cases hfalse : (t.contains '\n' || t.contains '\r') with
    | true => rfl
    | false => exact absurd (by simpa [IsLine] using hfalse) hline
  rw [read, hempty, hends]
  rfl

/-- What becomes of a line: a fault of a group comes before one of the text around the groups. -/
theorem result_read_of_isLine {t : Text} (hne : t ≠ []) (hline : IsLine t) (strict : Bool) :
    (read strict t).result = (readGroups strict (scan t).groups).result >>= fun ps =>
      match (scan t).fault with
      | some e => .error e
      | none =>
        if ps.isEmpty then .error (.malformed .nothingUsable (some t)) else .ok ⟨ps, none⟩ := by
  have hempty : t.isEmpty = false := by simpa using hne
  have hends : (t.contains '\n' || t.contains '\r') = false := by simpa [IsLine] using hline
  rw [read, hempty, hends]
  simp only [Bool.false_eq_true, if_false, Report.result_bind]
  congr 1
  funext ps
  cases (scan t).fault with
  | some e => rfl
  | none =>
      dsimp only
      split <;> rfl

/-- Strict reading of a line drops no group, so it cannot be left with nothing. -/
theorem result_readStrict_of_isLine {t : Text} (hne : t ≠ []) (hline : IsLine t) :
    (read true t).result = (readGroups true (scan t).groups).result >>= fun ps =>
      match (scan t).fault with
      | some e => .error e
      | none => .ok ⟨ps, none⟩ := by
  rw [result_read_of_isLine hne hline]
  cases hgs : (readGroups true (scan t).groups).result with
  | error e => rfl
  | ok ps =>
      show (match (scan t).fault with | some e => _ | none => _) = _
      cases hfault : (scan t).fault with
      | some e => rfl
      | none =>
          have hps : ps ≠ [] := by
            rintro rfl
            have hscan : scan t = ⟨[], none⟩ := by
              rw [← hfault, ← List.map_nil (f := Predicate.group),
                ← readGroups_strict_eq_ok_iff.mp hgs]
            exact hne (scan_eq_iff.mp hscan).1
          have hempty : ps.isEmpty = false := by simpa using hps
          simp only [hempty]
          rfl

theorem IsLine.append {t u : Text} (ht : IsLine t) (hu : IsLine u) : IsLine (t ++ u) := by
  simp only [IsLine, List.mem_append, not_or] at ht hu ⊢
  exact ⟨⟨ht.1, hu.1⟩, ht.2, hu.2⟩

/-- What was accepted can be put in front of any line. -/
theorem result_readStrict_append {t₁ t₂ : Text} {s₁ : Selector}
    (h₁ : (read true t₁).result = .ok s₁) (hne : t₂ ≠ []) (hline : IsLine t₂) :
    (read true (t₁ ++ t₂)).result =
      (read true t₂).result.map fun s => ⟨s₁.predicates ++ s.predicates, none⟩ := by
  obtain ⟨rfl, hline₁, -, -, hbal⟩ := readStrict_eq_ok_iff.mp h₁
  have hgroups : ∀ g ∈ s₁.predicates.map Predicate.group, Balanced g.body := by
    intro g hg
    obtain ⟨p, hp, rfl⟩ := List.mem_map.mp hg
    exact Predicate.balanced_group.mpr (hbal p hp)
  have hscan := scan_flatMap_append hgroups t₂
  rw [← text_eq_flatMap_group] at hscan
  have hread : (readGroups true (s₁.predicates.map Predicate.group)).result = .ok s₁.predicates :=
    readGroups_strict_eq_ok_iff.mpr rfl
  have htaken := readGroups_append_of_ok hread (scan t₂).groups
  have hboth : s₁.text ++ t₂ ≠ [] := by simp [hne]
  rw [result_readStrict_of_isLine hboth (hline₁.append hline), hscan, htaken,
    result_readStrict_of_isLine hne hline]
  cases (readGroups true (scan t₂).groups).result with
  | error e => rfl
  | ok ps =>
      show (match (scan t₂).fault with | some e => _ | none => _) =
        Except.map _ (match (scan t₂).fault with | some e => _ | none => _)
      cases (scan t₂).fault <;> rfl

/-- A fault of a group is the fault of some group that is read. -/
theorem readGroups_of_isOfGroup {t : Text} {e : Fault} (h : (read true t).result = .error e)
    (he : e.isOfGroup = true) :
    t ≠ [] ∧ IsLine t ∧ (readGroups true (scan t).groups).result = .error e := by
  have hne : t ≠ [] := by
    rintro rfl
    cases h
    cases he
  have hline : IsLine t := by
    apply Classical.byContradiction
    intro hends
    rw [result_read_of_not_isLine hne hends] at h
    cases h
    cases he
  refine ⟨hne, hline, ?_⟩
  rw [result_readStrict_of_isLine hne hline] at h
  cases hgs : (readGroups true (scan t).groups).result with
  | error e' =>
      rw [hgs] at h
      cases h
      rfl
  | ok ps =>
      rw [hgs] at h
      change (match (scan t).fault with | some e => _ | none => _) = _ at h
      cases hfault : (scan t).fault with
      | none =>
          rw [hfault] at h
          cases h
      | some e' =>
          rw [hfault] at h
          cases h
          rw [(fault_scan hfault).1] at he
          cases he

/-- A group that is refused is refused whatever follows it. -/
theorem readStrict_append_of_isOfGroup {t u : Text} {e : Fault}
    (h : (read true t).result = .error e) (he : e.isOfGroup = true) (hu : IsLine u) :
    (read true (t ++ u)).result = .error e := by
  obtain ⟨hne, hline, hgs⟩ := readGroups_of_isOfGroup h he
  obtain ⟨more, hmore⟩ := exists_groups_append t u
  have hboth : t ++ u ≠ [] := by simp [hne]
  rw [result_readStrict_of_isLine hboth (hline.append hu), hmore,
    readGroups_append_of_error hgs more]
  rfl

/-- Whatever is refused, strictly or not, the fragment is a part of the text. -/
theorem quotes_of_read {strict : Bool} {t : Text} {e : Fault}
    (h : (read strict t).result = .error e) : e.Quotes t := by
  have hwhole : ∀ why, Fault.Quotes t (.malformed why (some t)) :=
    fun why => Fault.quotes_malformed why (List.infix_refl _)
  by_cases hne : t = []
  · subst hne
    cases h
    exact hwhole _
  · by_cases hline : IsLine t
    · rw [result_read_of_isLine hne hline] at h
      cases hgs : (readGroups strict (scan t).groups).result with
      | error e' =>
          rw [hgs] at h
          cases h
          obtain ⟨g, hg, hquotes⟩ := quotes_of_readGroups hgs
          exact hquotes.mono (infix_of_mem_groups hg)
      | ok ps =>
          rw [hgs] at h
          change (match (scan t).fault with | some e => _ | none => _) = _ at h
          cases hfault : (scan t).fault with
          | some e' =>
              rw [hfault] at h
              cases h
              exact (fault_scan hfault).2
          | none =>
              rw [hfault] at h
              dsimp only at h
              split at h
              · cases h
                exact hwhole _
              · cases h
    · rw [result_read_of_not_isLine hne hline] at h
      cases h
      exact hwhole _

/-- **Strict reading goes from left to right.** A text that is accepted can be put in front of any
line that is not empty: the predicates come one after the other, or the fault is that of the line.
When a complete group is refused, no line that is added changes the fault. And whatever is told as
the fragment, in strict reading or not, is a part of the text. -/
theorem readStrict_append :
    (∀ (t₁ t₂ : Text) (s₁ : Selector), (read true t₁).result = .ok s₁ → t₂ ≠ [] →
        '\n' ∉ t₂ ∧ '\r' ∉ t₂ →
          (∀ s₂, (read true t₂).result = .ok s₂ → (read true (t₁ ++ t₂)).result =
            .ok ⟨s₁.predicates ++ s₂.predicates, none⟩) ∧
          ∀ e, (read true t₂).result = .error e → (read true (t₁ ++ t₂)).result = .error e) ∧
      (∀ (t u : Text) (e : Fault), (read true t).result = .error e → e.isOfGroup = true →
        '\n' ∉ u ∧ '\r' ∉ u → (read true (t ++ u)).result = .error e) ∧
      ∀ (strict : Bool) (t : Text) (why : SelectorFault) (fragment : Option Text),
        (read strict t).result = .error (.malformed why fragment) →
          ∃ f, fragment = some f ∧ f <:+: t := by
  refine ⟨?_, ?_, ?_⟩
  · intro t₁ t₂ s₁ h₁ hne hline
    have happend := result_readStrict_append h₁ hne hline
    constructor
    · intro s₂ h₂
      rw [happend, h₂]
      rfl
    · intro e h₂
      rw [happend, h₂]
      rfl
  · intro t u e h he hu
    exact readStrict_append_of_isOfGroup h he hu
  · intro strict t why fragment h
    exact quotes_of_read h why fragment rfl

/-- Why a text is refused for its form, and the fragment that is told. -/
def formFault? : Except Fault Selector → Option (SelectorFault × Option Text)
  | .error (.malformed why fragment) => some (why, fragment)
  | _ => none

theorem eq_error_of_formFault? {o : Except Fault Selector} {why : SelectorFault}
    {fragment : Option Text} (h : formFault? o = some (why, fragment)) :
    o = .error (.malformed why fragment) := by
  unfold formFault? at h
  split at h
  · cases h
    rfl
  · cases h

/-- A line with a key that names no attribute, and an unclosed group behind it that is not told. -/
def redLine : Text := "[index=7][colour=red]][".toList

/-- The fault is the same behind an accepted text and in front of any other line. -/
theorem readStrict_append_red :
    (∃ s, (read true "[text~=a[b]]".toList).result = .ok s) ∧
      (read true redLine).result = .error (.malformed .unknownKey (some "[colour=red]".toList)) ∧
      (read true ("[text~=a[b]]".toList ++ redLine)).result =
        .error (.malformed .unknownKey (some "[colour=red]".toList)) ∧
      (read true (redLine ++ "]x".toList)).result =
        .error (.malformed .unknownKey (some "[colour=red]".toList)) ∧
      ∃ f, some "[colour=red]".toList = some f ∧ f <:+: redLine := by
  obtain ⟨s, hs⟩ : ∃ s, (read true "[text~=a[b]]".toList).result = .ok s := by
    have hsome : (read true "[text~=a[b]]".toList).result.toOption.isSome = true := by
      decide +kernel
    cases hread : (read true "[text~=a[b]]".toList).result with
    | ok s => exact ⟨s, rfl⟩
    | error e =>
        rw [hread] at hsome
        cases hsome
  have hred : (read true redLine).result =
      .error (.malformed .unknownKey (some "[colour=red]".toList)) := by
    exact eq_error_of_formFault? (by decide +kernel)
  obtain ⟨happend, hrefused, hquotes⟩ := readStrict_append
  refine ⟨⟨s, hs⟩, hred, ?_, ?_, hquotes true redLine _ _ hred⟩
  · exact (happend _ redLine s hs (by decide) (by decide)).2 _ hred
  · exact hrefused redLine _ _ hred rfl (by decide)

end Selector

end UiTree
