import UiTree.Proofs.Query.Routes
import UiTree.Proofs.Xml.Faithful
import UiTree.Proofs.Xml.Scoping

/-!
# UiTree.Proofs.Views -- what the two views of a dump have in common

The elements and the outline of a snapshot are read from the same text on different terms. That they
have the same paths and the same names is checked when a snapshot is built. That they have the same
attribute values is not, and it fails in two ways: a declared encoding that is not true of the
characters changes the values of the elements, and an attribute from a namespace that was last
declared as the default gets a bare name in the outline.

* **The outline.** `at?_ofTree`: the outline has, at each path, the tag of the element there, named
  by the declarations in force. `get?_tag`: the tag has the same value for a key, unless an
  attribute from a namespace is hidden behind it.
* **Main statement.** `views_of_build`: what the views always have in common, and when this includes
  the values. `not_viewsAgree`: both exceptions occur.
-/

namespace UiTree

open Xml (Binding Opening scopeAt)

/-! ## Names in the outline -/

namespace Outline

/-- Is a namespace in force as the default: is the innermost declaration of it one without a
qualifier? -/
def isDefault (scope : List Binding) (uri : Text) : Bool :=
  (scope.find? fun b => b.uri == uri).any fun b => b.qualifier.isNone

/-- No attribute with this base comes from a namespace that is in force as the default. -/
def IsClear (scope : List Binding) (o : Opening) (key : Text) : Prop :=
  ∀ a ∈ o.attributes, ∀ u ∈ a.name.uri, a.name.base = key → isDefault scope u = false

instance (scope : List Binding) (o : Opening) (key : Text) : Decidable (IsClear scope o key) :=
  inferInstanceAs (Decidable (∀ a ∈ o.attributes, ∀ u ∈ a.name.uri, _ → _))

/-- A name from a namespace that is declared for a qualifier, and is not in force as the default, is
written with a colon. -/
theorem colon_mem_nameText {scope : List Binding} {n : Xml.Name} {u : Text} (hu : n.uri = some u)
    (hbound : u = Xml.xmlNamespace ∨ ∃ q, ⟨some q, u⟩ ∈ scope)
    (hclear : isDefault scope u = false) : ':' ∈ nameText (scope ++ initial) n := by
  obtain ⟨b, p, hfind, hp⟩ : ∃ b p, (scope ++ initial).find? (fun b => b.uri == u) = some b ∧
      b.qualifier = some p := by
    rw [List.find?_append]
    rw [isDefault] at hclear
    cases hfind : scope.find? fun b => b.uri == u with
    | some b =>
        rw [hfind, Option.any_some] at hclear
        cases hq : b.qualifier with
        | none =>
            rw [hq] at hclear
            cases hclear
        | some p => exact ⟨b, p, rfl, hq⟩
    | none =>
        -- nothing in the scope is declared for this namespace, so it is the one of `xml:`
        rcases hbound with rfl | ⟨q, hmem⟩
        · exact ⟨_, "xml".toList, rfl, rfl⟩
        · have := List.find?_eq_none.mp hfind _ hmem
          exact absurd (beq_self_eq_true u) this
  simp only [nameText, hu, hfind, Option.bind_some, hp]
  simp

/-- In the outline an attribute has a key exactly when its expanded name is that key. -/
theorem nameText_beq_key {scope : List Binding} {o : Opening} {key : Text}
    (hbound : o.IsBound scope) (hclear : IsClear scope o key) (hkey : key.head? ≠ some '\x7b')
    (hcolon : ':' ∉ key) :
    ∀ a ∈ o.attributes,
      (nameText (scope ++ initial) a.name == key) = (a.name.universal == key) := by
  intro a ha
  rw [Bool.eq_iff_iff, beq_iff_eq, beq_iff_eq, Opening.universal_eq_iff hkey]
  cases hu : a.name.uri with
  | none => simp [nameText, hu]
  | some u =>
      simp only [reduceCtorEq, and_false, iff_false]
      intro hname
      by_cases hbase : a.name.base = key
      · apply hcolon
        rw [← hname]
        exact colon_mem_nameText hu (hbound a ha u hu) (hclear a ha u hu hbase)
      · -- with a qualifier in front there is a colon, and without one the base is another one
        simp only [nameText, hu] at hname
        split at hname
        · exact hbase hname
        · apply hcolon
          rw [← hname]
          simp

/-- **The tag of a start tag has its value for a key.** The names of attributes are distinct, so it
does not matter that one look-up starts from the front and the other from the back. -/
theorem get?_tag {scope : List Binding} {o : Opening} {key : Text} (hdistinct : o.Distinct)
    (hbound : o.IsBound scope) (hclear : IsClear scope o key) (hkey : key.head? ≠ some '\x7b')
    (hcolon : ':' ∉ key) : (tag (scope ++ initial) o).get? key = o.get? key := by
  have hnames := nameText_beq_key hbound hclear hkey hcolon
  have hplain : o.attributes.filter (fun a => a.name.universal == key) = o.plain key := by
    apply List.filter_congr
    intro a _
    rw [Bool.eq_iff_iff, beq_iff_eq, Opening.universal_eq_iff hkey, Bool.and_eq_true, beq_iff_eq,
      beq_iff_eq]
  have hreverse : (o.plain key).reverse = o.plain key := by
    have hlength := hdistinct.plain_length key
    match h : o.plain key with
    | [] => rfl
    | [a] => rfl
    | a :: b :: l => simp [h] at hlength
  calc (tag (scope ++ initial) o).get? key
      = ((o.attributes.reverse.find? fun a => nameText (scope ++ initial) a.name == key).map
          Xml.Attr.value) := by
        rw [Tag.get?, tag, ← List.map_reverse, List.find?_map, Option.map_map]
        rfl
    _ = ((o.attributes.reverse.filter fun a => a.name.universal == key).head?.map
          Xml.Attr.value) := by
        rw [← List.head?_filter, List.filter_congr]
        intro a ha
        exact hnames a (List.mem_reverse.mp ha)
    _ = ((o.plain key).head?.map Xml.Attr.value) := by
        rw [List.filter_reverse, hplain, hreverse]
    _ = o.get? key := by
        rw [Opening.get?_eq_head? o hkey, List.head?_map]

/-! ## The shape of the outline -/

theorem ofTrees_eq_map (q : Qualifiers) (ts : List (Tree Opening)) :
    ofTrees q ts = ts.map (ofTree q) := by
  induction ts with
  | nil => rfl
  | cons t ts ih => rw [ofTrees, ih, List.map_cons]

/-- **The outline at a path** is the tag of the element there, with the names that the declarations
in force give. -/
theorem at?_ofTree (outer : List Binding) {t u : Tree Opening} {p : Path}
    (hu : t.at? p = some u) : ∃ v, (ofTree (outer ++ initial) t).at? p = some v ∧
      v.label = tag (scopeAt outer p t ++ initial) u.label := by
  induction p generalizing outer t with
  | nil =>
      obtain ⟨o, ts⟩ := t
      rw [Tree.at?_nil] at hu
      cases hu
      refine ⟨_, Tree.at?_nil _, ?_⟩
      show tag (o.bindings.reverse ++ (outer ++ initial)) o = _
      rw [← List.append_assoc]
      rfl
  | cons i p ih =>
      obtain ⟨o, ts⟩ := t
      rw [Tree.at?_cons] at hu
      obtain ⟨t, hi, hu⟩ := Option.bind_eq_some_iff.mp hu
      have hscope : enter (outer ++ initial) o = o.enter outer ++ initial :=
        (List.append_assoc _ _ _).symm
      obtain ⟨v, hv, hlabel⟩ := ih (o.enter outer) hu
      refine ⟨v, ?_, ?_⟩
      · rw [ofTree, Tree.at?_cons, ofTrees_eq_map, List.getElem?_map, hi, hscope]
        exact hv
      · rw [hlabel, scopeAt, hi]

end Outline

namespace Snapshot

variable {s : Snapshot}

/-! ## What is checked -/

/-- At every path the tag and the element have the same local name. -/
theorem localName_eq {p : Path} {u : Tree Opening} {v : Tree Tag} (hu : s.elements.at? p = some u)
    (hv : s.tags.at? p = some v) : localName v.label.name = localName u.label.name.universal := by
  have haligned := s.aligned
  simp only [disagreement?] at haligned
  split at haligned
  · cases haligned
  · rw [Option.map_eq_none_iff, List.find?_eq_none] at haligned
    -- entry by entry, the two walks go through the same paths
    obtain ⟨i, hi⟩ := List.mem_iff_getElem?.mp (Tree.mem_walk_iff.mpr ⟨u, hu, rfl⟩)
    obtain ⟨j, hj⟩ := List.mem_iff_getElem?.mp (Tree.mem_walk_iff.mpr ⟨v, hv, rfl⟩)
    have hpi : (s.elements.walk.map Prod.fst)[i]? = some p := by
      rw [List.getElem?_map, hi]
      rfl
    have hpj : (s.elements.walk.map Prod.fst)[j]? = some p := by
      rw [← map_walk_tags, List.getElem?_map, hj]
      rfl
    have hij : i = j := by
      refine (List.getElem?_inj ?_ (Tree.ascending_walk s.elements).nodup).mp (hpi.trans hpj.symm)
      exact (List.getElem?_eq_some_iff.mp hpi).1
    subst hij
    have hmem : (((p, u.label), (p, v.label)) : (Path × Opening) × (Path × Tag)) ∈
        s.elements.walk.zip s.tags.walk := by
      refine List.mem_of_getElem? (i := i) ?_
      rw [List.getElem?_zip_eq_some]
      exact ⟨hi, hj⟩
    have hsame := haligned _ hmem
    simp only [bne_iff_ne, ne_eq, Decidable.not_not] at hsame
    exact hsame.symm

/-! ## What is not checked -/

/-- Nowhere does an attribute from a namespace that is in force as the default have the name of an
attribute that selectors know. -/
def NamesClear (s : Snapshot) : Prop :=
  ∀ p u, s.elements.at? p = some u → ∀ a : Attribute,
    Outline.IsClear (scopeAt [] p s.elements) u.label a.key

/-- It is enough to look at every entry of the walk. -/
theorem namesClear_of_walk (h : ∀ e ∈ s.elements.walk, ∀ a ∈ Attribute.all,
    Outline.IsClear (scopeAt [] e.1 s.elements) e.2 a.key) : s.NamesClear := by
  intro p u hu a
  exact h (p, u.label) (Tree.mem_walk_iff.mpr ⟨u, hu, rfl⟩) a a.mem_all

theorem colon_not_mem_key (a : Attribute) : ':' ∉ a.key := by
  cases a <;> decide

/-- A snapshot whose two trees are of one document has the same values in both. -/
theorem viewsAgree_of_outline {honest : Bool} {t : Text}
    (hread : Xml.Document.readAs honest t = some s.document)
    (htags : s.tags = Outline.ofTree Outline.initial s.elements) (hclear : s.NamesClear) :
    s.ViewsAgree := by
  have hsound : s.IsSound := isSound_of_document (Xml.Document.isSound_of_readAs hread)
  have hbound : Xml.IsBoundIn [] s.elements := by
    apply Xml.isBound_of_readAs hread
    rw [hsound.single]
    exact List.mem_singleton_self _
  intro p n tag hn htag a
  obtain ⟨-, -, hu⟩ := node?_eq_some_iff.mp hn
  obtain ⟨v, hv, hlabel⟩ := Outline.at?_ofTree [] hu
  rw [tagAt?, htags] at htag
  rw [List.nil_append] at hv
  rw [hv, Option.map_some, Option.some.injEq] at htag
  rw [← htag, hlabel, n.get?_key]
  exact Outline.get?_tag (hsound.distinct p _ hu) (hbound p _ hu) (hclear p _ hu a) a.key_head?
    (colon_not_mem_key a)

/-- Where the declared encoding is true, the outline is the one of the document. -/
theorem tags_of_isFaithful {version : Nat} {source : Text} (h : ofSource version source = .ok s)
    (hfaithful : Xml.Document.isFaithful (Text.trim source) = true) :
    s.tags = Outline.ofTree Outline.initial s.elements := by
  obtain ⟨-, -, hread, houtline⟩ := readings_of_ofSource h
  have hplain := Xml.Document.readAs_of_isFaithful hfaithful hread
  simp only [readOutline?, hplain, Option.bind_eq_bind, Option.bind_some] at houtline
  split at houtline
  · cases houtline
  · rw [s.rooted, Option.map_some, Option.some.injEq] at houtline
    exact houtline.symm

/-- **What the two views of a built snapshot have in common.** They have the same paths, and the same
local name at every path. They also have the same value, or none, for every attribute that selectors
know, provided that the encoding which the dump declares is true of its characters, and that no
attribute with such a name comes from a namespace that is in force as the default. -/
theorem views_of_build {version : Nat} {source : Option Text}
    (hs : (Snapshot.build version source).result = .ok s) :
    s.tags.walk.map Prod.fst = s.elements.walk.map Prod.fst ∧
      (∀ p u v, s.elements.at? p = some u → s.tags.at? p = some v →
        localName v.label.name = localName u.label.name.universal) ∧
      (Xml.Document.isFaithful (Text.trim (source.getD [])) = true → s.NamesClear →
        s.ViewsAgree) := by
  refine ⟨map_walk_tags, fun p u v => localName_eq, ?_⟩
  intro hfaithful hclear
  rw [result_build] at hs
  exact viewsAgree_of_outline (readAs_of_ofSource hs) (tags_of_isFaithful hs hfaithful) hclear

/-- A dump in UTF-8 whose second element has the text `é`, and another text from a namespace. -/
def accentedDump : Text :=
  ("<?xml version=\"1.0\" encoding=\"UTF-8\"?>"
    ++ "<h xmlns:p=\"u:x\"><n text=\"\u00e9\" p:text=\"b\"/></h>").toList

/-- Its views agree. -/
theorem views_of_build_accented :
    ∃ s : Snapshot, (Snapshot.build 1 (some accentedDump)).result = .ok s ∧
      s.tags.walk.map Prod.fst = [[], [0]] ∧ s.ViewsAgree := by
  have hbuild : (Snapshot.build 1 (some accentedDump)).result.toOption.any (fun s =>
      decide (s.elements.walk.map Prod.fst = [[], [0]]) &&
        decide (∀ e ∈ s.elements.walk, ∀ a ∈ Attribute.all,
          Outline.IsClear (scopeAt [] e.1 s.elements) e.2 a.key)) = true := by
    decide +kernel
  obtain ⟨s, hs, hcheck⟩ := exists_of_any_toOption hbuild
  rw [Bool.and_eq_true, decide_eq_true_iff, decide_eq_true_iff] at hcheck
  obtain ⟨hpaths, -, hvalues⟩ := views_of_build hs
  refine ⟨s, hs, hpaths.trans hcheck.1, hvalues ?_ (namesClear_of_walk hcheck.2)⟩
  decide +kernel

/-- A dump that declares a single-byte encoding and has a character outside of ASCII. -/
def misdeclaredDump : Text :=
  "<?xml version=\"1.0\" encoding=\"ISO-8859-1\"?><h text=\"\u00e9\"/>".toList

/-- A dump with one namespace that is declared for a qualifier and then as the default. -/
def shadowedDump : Text := "<h xmlns:p=\"u:x\" xmlns=\"u:x\" p:text=\"a\"/>".toList

/-- **Both dumps are accepted, and their views do not agree.** -/
theorem not_viewsAgree :
    (∃ s : Snapshot, (Snapshot.build 1 (some misdeclaredDump)).result = .ok s ∧
        ¬ s.ViewsAgree) ∧
      ∃ s : Snapshot, (Snapshot.build 1 (some shadowedDump)).result = .ok s ∧
        ¬ s.ViewsAgree := by
  have hdiffer : ∀ t : Text,
      (Snapshot.build 1 (some t)).result.toOption.any (fun s => !s.viewsAgree?) = true →
        ∃ s : Snapshot, (Snapshot.build 1 (some t)).result = .ok s ∧ ¬ s.ViewsAgree := by
    intro t ht
    obtain ⟨s, hs, hcheck⟩ := exists_of_any_toOption ht
    rw [Bool.not_eq_true'] at hcheck
    refine ⟨s, hs, ?_⟩
    rw [← viewsAgree?_iff, hcheck]
    exact Bool.false_ne_true
  constructor
  · exact hdiffer misdeclaredDump (by decide +kernel)
  · exact hdiffer shadowedDump (by decide +kernel)

end Snapshot

end UiTree
