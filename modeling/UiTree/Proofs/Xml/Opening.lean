import UiTree.Xml.Tree

/-!
# UiTree.Proofs.Xml.Opening -- the attributes that a start tag says

A start tag may say attributes of several namespaces whose names have the same base. What is asked
for by a bare key is the attribute without a namespace.

* **Distinct names.** `Opening.Distinct` says that no two attributes without a namespace have the
  same base.
* **Main statements.** `get?_eq_head?`: looking up a key finds the first attribute with that base
  and no namespace. `Distinct.plain_length`: where names are distinct there is no other.
-/

namespace UiTree.Xml.Opening

/-- No two attributes without a namespace have the same base. -/
def Distinct (o : Opening) : Prop :=
  o.attributes.Pairwise fun a b =>
    a.name.uri = none → b.name.uri = none → a.name.base ≠ b.name.base

/-- The attributes with a given base and no namespace. -/
def plain (o : Opening) (key : Text) : List Attr :=
  o.attributes.filter fun a => a.name.base == key && a.name.uri == none

/-- A name that does not begin with a brace is universal for names without a namespace alone. -/
theorem universal_eq_iff {n : Name} {key : Text} (hkey : key.head? ≠ some '\x7b') :
    n.universal = key ↔ n.base = key ∧ n.uri = none := by
  cases hu : n.uri with
  | none => simp [Name.universal, hu]
  | some u =>
      simp only [Name.universal, hu, reduceCtorEq, and_false, iff_false]
      rintro rfl
      exact hkey rfl

theorem get?_eq_head? (o : Opening) {key : Text} (hkey : key.head? ≠ some '\x7b') :
    o.get? key = ((o.plain key).map Attr.value).head? := by
  have hname : ∀ a ∈ o.attributes,
      (a.name.universal == key) = (a.name.base == key && a.name.uri == none) := by
    intro a _
    rw [Bool.eq_iff_iff, beq_iff_eq, universal_eq_iff hkey, Bool.and_eq_true, beq_iff_eq,
      beq_iff_eq]
  rw [get?, plain, List.head?_map, ← List.head?_filter, List.filter_congr hname]

/-- Where names are distinct there is at most one attribute of a name. -/
theorem Distinct.plain_length {o : Opening} (h : o.Distinct) (key : Text) :
    (o.plain key).length ≤ 1 := by
  have hpairs : (o.plain key).Pairwise fun a b =>
      a.name.uri = none → b.name.uri = none → a.name.base ≠ b.name.base :=
    List.Pairwise.filter _ h
  have hplain : ∀ a ∈ o.plain key, a.name.base = key ∧ a.name.uri = none := by
    intro a ha
    simpa using (List.mem_filter.mp ha).2
  cases hl : o.plain key with
  | nil => exact Nat.zero_le 1
  | cons a l =>
      cases l with
      | nil => exact Nat.le_refl 1
      | cons b l =>
          rw [hl] at hpairs hplain
          obtain ⟨ha, hua⟩ := hplain a (by simp)
          obtain ⟨hb, hub⟩ := hplain b (by simp)
          exact absurd (ha.trans hb.symm) (List.rel_of_pairwise_cons hpairs (by simp) hua hub)

end UiTree.Xml.Opening
