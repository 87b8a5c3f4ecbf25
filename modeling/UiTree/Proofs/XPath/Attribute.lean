import UiTree.Proofs.XPath.PlaceOrder
import UiTree.Proofs.Xml.Opening
import UiTree.XPath.Evaluate

/-!
# UiTree.Proofs.XPath.Attribute -- attributes in path expressions

A path expression names an attribute by its base and asks for one without a namespace. What it finds
at an element are places; their texts are the values that the start tag says.

* **One place.** Where the names of attributes are distinct there is at most one place, and
  comparing places is comparing values.
* **Main statement.** `evaluate_attributeStep`: the text of what an attribute step finds, and when
  it agrees with a text.
-/

namespace UiTree.XPath

/-- The step from the context node to its attributes with a base. -/
def attributeStep (key : Text) : Expr := .step .here .attribute (.named none key) []

/-- Picking by index is picking by value. -/
theorem map_filter_range {α β : Type} (q : α → Bool) (g : α → β) (d : β) (l : List α) :
    (((List.range l.length).filter fun i => l[i]?.any q).map fun i => (l[i]?.map g).getD d) =
      (l.filter q).map g := by
  induction l with
  | nil => rfl
  | cons a l ih =>
      rw [List.length_cons, List.range_succ_eq_map, List.filter_cons, List.filter_cons]
      have hrest : (((List.range l.length).map Nat.succ).filter fun i => (a :: l)[i]?.any q).map
          (fun i => ((a :: l)[i]?.map g).getD d) = (l.filter q).map g := by
        rw [← ih, List.filter_map, List.map_map]
        rfl
      rw [List.getElem?_cons_zero, Option.any_some]
      split
      · rw [List.map_cons, List.map_cons, hrest]
        rfl
      · exact hrest

section Attributes

variable {s : Site} {f : Focus} {t : Path} {o : Xml.Opening}

theorem attributes_of_opening (ho : s.opening? t = some o) :
    s.attributes t = (List.range o.attributes.length).map fun i => ⟨t, .attribute i⟩ := by
  rw [Site.attributes, ho]

theorem attribute?_of_opening (ho : s.opening? t = some o) (i : Nat) :
    s.attribute? ⟨t, .attribute i⟩ = o.attributes[i]? := by
  simp only [Site.attribute?, ho, Option.bind_some]

theorem ascending_attributes (t : Path) (n : Nat) :
    Place.Ascending ((List.range n).map fun i => ⟨t, .attribute i⟩) := by
  rw [Place.Ascending, List.pairwise_map]
  refine List.Pairwise.imp ?_ List.pairwise_lt_range
  intro i j hij
  refine ⟨?_, by simpa using Nat.ne_of_lt hij⟩
  rw [Place.le_iff]
  exact Or.inr ⟨rfl, by simpa [Part.le] using Nat.le_of_lt hij⟩

/-- **What an attribute step finds**: the values of the attributes with that base and no
namespace. -/
theorem evaluate_attribute (ho : s.opening? t = some o) (hf : f.place = .node t) (key : Text) :
    ∃ ps, evaluate s f (attributeStep key) = some (.places ps) ∧
      ps.map s.textOf = (o.plain key).map Xml.Attr.value := by
  let named (p : Place) : Bool := s.satisfies .attribute (.named none key) none p
  refine ⟨(s.attributes t).filter named, ?_, ?_⟩
  · -- attributes come in document order already
    have hasc : Place.Ascending ((s.attributes t).filter named) := by
      rw [attributes_of_opening ho]
      exact (ascending_attributes t _).sublist List.filter_sublist
    rw [attributeStep, evaluate, evaluate, hf]
    simp only [Option.bind_eq_bind, Option.bind_some, Value.places?, Site.wanted?, List.mapM_cons,
      List.mapM_nil, keepAll]
    simp only [Option.bind_some, Option.pure_def, List.flatten_cons, List.flatten_nil,
      List.append_nil]
    exact congrArg (fun ps => some (Value.places ps)) (Place.ordered_of_ascending hasc)
  · have hnamed : ∀ i, named ⟨t, .attribute i⟩ =
        o.attributes[i]?.any fun a => a.name.base == key && a.name.uri == none := by
      intro i
      simp only [named, Site.satisfies, Site.isPrincipal, Site.name?, attribute?_of_opening ho]
      cases o.attributes[i]? <;> simp
    have htext : ∀ i, s.textOf ⟨t, .attribute i⟩ =
        (o.attributes[i]?.map Xml.Attr.value).getD [] := by
      intro i
      simp only [Site.textOf, attribute?_of_opening ho]
    rw [attributes_of_opening ho, List.filter_map, List.map_map, Xml.Opening.plain,
      ← map_filter_range _ Xml.Attr.value []]
    simp only [Function.comp_def, hnamed, htext]

theorem toText_places (ps : List Place) :
    (Value.places ps).toText s = (ps.map s.textOf).head?.getD [] := by
  cases ps <;> rfl

theorem agree_places (ps : List Place) (v : Text) :
    (Value.places ps).agree s false (.text v) = (ps.map s.textOf).any (· == v) := by
  simp [Value.agree, Value.textsAgree, List.any_map, Function.comp_def]

theorem any_beq_of_length {l : List Text} (h : l.length ≤ 1) (v : Text) :
    l.any (· == v) = (l.head? == some v) := by
  match l, h with
  | [], _ => rfl
  | [u], _ => simp

variable {key : Text} (hkey : key.head? ≠ some '\x7b')

include hkey

/-- **The attribute of an element in a path expression** has the text of its value, and of nothing
when it is missing; it agrees with a text when its value is that text. -/
theorem evaluate_attributeStep (ho : s.opening? t = some o) (hdistinct : o.Distinct)
    (hf : f.place = .node t) :
    ∃ v, evaluate s f (attributeStep key) = some v ∧ v.toText s = (o.get? key).getD [] ∧
      ∀ u, v.agree s false (.text u) = (o.get? key == some u) := by
  obtain ⟨ps, hps, htexts⟩ := evaluate_attribute ho hf key
  refine ⟨.places ps, hps, ?_, ?_⟩
  · rw [toText_places, htexts, Xml.Opening.get?_eq_head? o hkey]
  · intro u
    rw [agree_places, htexts, Xml.Opening.get?_eq_head? o hkey]
    refine any_beq_of_length ?_ u
    rw [List.length_map]
    exact hdistinct.plain_length key

end Attributes

end UiTree.XPath
