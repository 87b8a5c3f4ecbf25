import UiTree.Proofs.Tree.Preorder
import UiTree.XPath.Element

/-!
# UiTree.Proofs.XPath.Trail -- trails of elements and paths of the hierarchy

A node of a document has a **trail**, which counts all nodes, and an element has a **path** as well,
which counts elements only. The two are translated into each other here, and what is below or before
in one sense is below or before in the other.

* **The measure.** `rank ns i` is the number of elements before position `i`; it is what separates
  the index in a trail from the index in a path.
* **Main statements.** `trailTo_eq_some_iff`: looking for a path undoes counting along a trail.
  `lt_elementIndexes`: document order on trails is the order of paths. `Site.opening?_eq_some_iff`:
  the elements of a document with one root are the nodes of its hierarchy.
-/

namespace UiTree.XPath

open Xml.Node (elementTrees)

/-! ## The inside of a node -/

theorem contentAt_nil_left (t : Path) : contentAt [] t = [] := by
  cases t with
  | nil => rfl
  | cons i t => simp only [contentAt, List.getElem?_nil]

theorem contentAt_cons {ns : List Xml.Node} {i : Nat} {n : Xml.Node} (h : ns[i]? = some n)
    (t : Path) : contentAt ns (i :: t) = contentAt (contentOf n) t := by
  rw [contentAt, h]

theorem contentAt_append (ns : List Xml.Node) (t u : Path) :
    contentAt ns (t ++ u) = contentAt (contentAt ns t) u := by
  induction t generalizing ns with
  | nil => rfl
  | cons i t ih =>
      rw [List.cons_append, contentAt, contentAt]
      cases ns[i]? with
      | none => rw [contentAt_nil_left]
      | some n => exact ih (contentOf n)

theorem Site.node?_concat (s : Site) (t : Path) (i : Nat) :
    s.node? (t ++ [i]) = (contentAt s.nodes t)[i]? := by
  simp only [Site.node?, List.getLast?_append, List.getLast?_singleton, Option.some_or,
    List.dropLast_concat, Site.content]

/-! ## Ranks -/

/-- The number of elements before a position. -/
def rank (ns : List Xml.Node) (i : Nat) : Nat := ((ns.take i).filter isElement).length

theorem rank_cons_succ (n : Xml.Node) (ns : List Xml.Node) (i : Nat) :
    rank (n :: ns) (i + 1) = rank ns i + if isElement n then 1 else 0 := by
  simp only [rank, List.take_succ_cons, List.filter_cons]
  split <;> rfl

/-- An element adds to the rank of all positions behind it. -/
theorem rank_lt {ns : List Xml.Node} {i j : Nat} {o : Xml.Opening} {inner : List Xml.Node}
    (h : ns[i]? = some (.element o inner)) (hij : i < j) : rank ns i < rank ns j := by
  induction ns generalizing i j with
  | nil => simp at h
  | cons n ns ih =>
      obtain ⟨j, rfl⟩ := Nat.exists_eq_add_of_le' (by omega : 1 ≤ j)
      cases i with
      | zero =>
          cases h
          rw [rank_cons_succ]
          simp only [rank, List.take_zero, List.filter_nil, List.length_nil, isElement, if_true]
          omega
      | succ i =>
          rw [rank_cons_succ, rank_cons_succ]
          have := ih (i := i) (j := j) (by simpa using h) (by omega)
          omega

theorem map_succ_eq_some_iff {r : Option (Nat × List Xml.Node)} {i : Nat}
    {inner : List Xml.Node} :
    (r.map fun (i, inner) => (i + 1, inner)) = some (i, inner) ↔
      ∃ j, i = j + 1 ∧ r = some (j, inner) := by
  cases r with
  | none => simp
  | some p =>
      simp only [Option.map_some, Option.some.injEq, Prod.ext_iff]
      constructor
      · rintro ⟨rfl, rfl⟩
        exact ⟨p.1, rfl, rfl, rfl⟩
      · rintro ⟨j, rfl, rfl, rfl⟩
        exact ⟨rfl, rfl⟩

theorem exists_of_isElement {n : Xml.Node} (h : isElement n = true) :
    ∃ o inner, n = .element o inner := by
  cases n with
  | element o inner => exact ⟨o, inner, rfl⟩
  | _ => cases h

/-- **The element with a given index** is the one with that many elements before it. -/
theorem nthElement_eq_some_iff {ns : List Xml.Node} {k i : Nat} {inner : List Xml.Node} :
    nthElement ns k = some (i, inner) ↔
      (∃ o, ns[i]? = some (.element o inner)) ∧ rank ns i = k := by
  induction ns generalizing k i with
  | nil => simp [nthElement]
  | cons n ns ih =>
      cases hn : isElement n with
      | true =>
          obtain ⟨o, ms, rfl⟩ := exists_of_isElement hn
          cases k with
          | zero =>
              cases i with
              | zero => simp [nthElement, rank]
              | succ i => simp [nthElement, rank_cons_succ, isElement]
          | succ k =>
              rw [nthElement, map_succ_eq_some_iff]
              cases i with
              | zero => simp [rank]
              | succ i => simp [ih, rank_cons_succ, isElement]
      | false =>
          -- a node that is no element is passed over
          have hskip : nthElement (n :: ns) k =
              (nthElement ns k).map fun (i, inner) => (i + 1, inner) := by
            cases n <;> first | rfl | cases hn
          rw [hskip, map_succ_eq_some_iff]
          cases i with
          | zero => cases n <;> simp_all [isElement]
          | succ i => simp [ih, rank_cons_succ, hn]

theorem nthElement_isSome {ns : List Xml.Node} {k : Nat} (h : k < (elementTrees ns).length) :
    (nthElement ns k).isSome = true := by
  induction ns generalizing k with
  | nil => simp [elementTrees] at h
  | cons n ns ih =>
      cases n with
      | element o inner =>
          cases k with
          | zero => rfl
          | succ k =>
              simp only [elementTrees, Xml.Node.elementTree?, List.length_cons] at h
              simpa [nthElement] using ih (k := k) (by omega)
      | _ =>
          simp only [elementTrees, Xml.Node.elementTree?] at h
          simpa [nthElement] using ih h

/-- The subtrees of a node of the hierarchy are the elements inside the element. -/
theorem elementTrees_rank {ns : List Xml.Node} {i : Nat} {o : Xml.Opening}
    {inner : List Xml.Node} (h : ns[i]? = some (.element o inner)) :
    (elementTrees ns)[rank ns i]? = some (.node o (elementTrees inner)) := by
  induction ns generalizing i with
  | nil => simp at h
  | cons n ns ih =>
      cases i with
      | zero =>
          cases h
          simp [elementTrees, Xml.Node.elementTree?, rank]
      | succ i =>
          have hi := ih (i := i) (by simpa using h)
          cases n <;>
            simpa [elementTrees, Xml.Node.elementTree?, rank_cons_succ, isElement] using hi

/-! ## Counting along a trail -/

theorem elementIndexes_cons_iff {ns : List Xml.Node} {i : Nat} {t q : Path} :
    elementIndexes ns (i :: t) = some q ↔
      ∃ o inner p, ns[i]? = some (.element o inner) ∧ elementIndexes inner t = some p ∧
        q = rank ns i :: p := by
  rw [elementIndexes]
  split
  · next o inner hn =>
    rw [Option.map_eq_some_iff]
    constructor
    · rintro ⟨p, hp, rfl⟩
      exact ⟨o, inner, p, hn, hp, rfl⟩
    · rintro ⟨o', inner', p, hn', hp, rfl⟩
      obtain ⟨rfl, rfl⟩ := Xml.Node.element.inj (Option.some.inj (hn.symm.trans hn'))
      exact ⟨p, hp, rfl⟩
  · next hn =>
    constructor
    · intro h
      cases h
    · rintro ⟨o, inner, p, hn', -⟩
      exact absurd hn' (hn o inner)

/-- Counting along a trail can be interrupted anywhere. -/
theorem elementIndexes_append_iff {ns : List Xml.Node} {t u q : Path} :
    elementIndexes ns (t ++ u) = some q ↔
      ∃ p r, elementIndexes ns t = some p ∧ elementIndexes (contentAt ns t) u = some r ∧
        q = p ++ r := by
  induction t generalizing ns q with
  | nil => simp [elementIndexes, contentAt]
  | cons i t ih =>
      rw [List.cons_append, elementIndexes_cons_iff]
      constructor
      · rintro ⟨o, inner, p, hn, hp, rfl⟩
        obtain ⟨p', r, hp', hr, rfl⟩ := ih.mp hp
        refine ⟨rank ns i :: p', r, ?_, ?_, rfl⟩
        · exact elementIndexes_cons_iff.mpr ⟨o, inner, p', hn, hp', rfl⟩
        · rw [contentAt_cons hn]
          exact hr
      · rintro ⟨p, r, hp, hr, rfl⟩
        obtain ⟨o, inner, p', hn, hp', rfl⟩ := elementIndexes_cons_iff.mp hp
        rw [contentAt_cons hn] at hr
        exact ⟨o, inner, p' ++ r, hn, ih.mpr ⟨p', r, hp', hr, rfl⟩, rfl⟩

/-- **Looking for a path undoes counting along a trail.** -/
theorem trailTo_eq_some_iff {ns : List Xml.Node} {t q : Path} :
    trailTo ns q = some t ↔ elementIndexes ns t = some q := by
  induction q generalizing ns t with
  | nil =>
      cases t with
      | nil => simp [trailTo, elementIndexes]
      | cons i t =>
          rw [elementIndexes_cons_iff]
          simp [trailTo]
  | cons k q ih =>
      rw [trailTo]
      cases t with
      | nil =>
          split <;> simp [elementIndexes]
      | cons i t =>
          rw [elementIndexes_cons_iff]
          split
          · next j inner hk =>
            obtain ⟨⟨o, hj⟩, hrank⟩ := nthElement_eq_some_iff.mp hk
            rw [Option.map_eq_some_iff]
            constructor
            · rintro ⟨u, hu, hcons⟩
              obtain ⟨rfl, rfl⟩ := List.cons.inj hcons
              exact ⟨o, inner, q, hj, ih.mp hu, by rw [hrank]⟩
            · rintro ⟨o', inner', p, hn, hp, hq⟩
              obtain ⟨hrank', rfl⟩ := List.cons.inj hq
              have hi := nthElement_eq_some_iff.mpr ⟨⟨o', hn⟩, hrank'.symm⟩
              obtain ⟨rfl, rfl⟩ := Prod.mk.injEq .. ▸ Option.some.inj (hk.symm.trans hi)
              exact ⟨t, ih.mpr hp, rfl⟩
          · next hk =>
            constructor
            · intro h
              cases h
            · rintro ⟨o, inner, p, hn, -, hq⟩
              have hi := nthElement_eq_some_iff.mpr ⟨⟨o, hn⟩, (List.cons.inj hq).1.symm⟩
              rw [hk] at hi
              cases hi

theorem elementIndexes_injective {ns : List Xml.Node} {t u q : Path}
    (ht : elementIndexes ns t = some q) (hu : elementIndexes ns u = some q) : t = u := by
  have htrail := trailTo_eq_some_iff.mpr ht
  rw [trailTo_eq_some_iff.mpr hu] at htrail
  exact (Option.some.inj htrail).symm

theorem length_elementIndexes {ns : List Xml.Node} {t q : Path}
    (h : elementIndexes ns t = some q) : q.length = t.length := by
  induction t generalizing ns q with
  | nil =>
      cases h
      rfl
  | cons i t ih =>
      obtain ⟨o, inner, p, -, hp, rfl⟩ := elementIndexes_cons_iff.mp h
      rw [List.length_cons, List.length_cons, ih hp]

/-- The trail of an element whose path extends that of another extends its trail. -/
theorem exists_append_of_elementIndexes {ns : List Xml.Node} {t u p w : Path}
    (ht : elementIndexes ns t = some p) (hu : elementIndexes ns u = some (p ++ w)) :
    ∃ r, u = t ++ r := by
  -- cut where the shorter trail ends: the first part has the same path as that trail
  rw [← List.take_append_drop t.length u] at hu
  obtain ⟨p', r, hp', hr, happend⟩ := elementIndexes_append_iff.mp hu
  have hlength := congrArg List.length happend
  have htl := length_elementIndexes ht
  have hp'l := length_elementIndexes hp'
  have hrl := length_elementIndexes hr
  simp only [List.length_append, List.length_take, List.length_drop] at hlength hp'l hrl
  obtain ⟨rfl, -⟩ := List.append_inj happend (by omega)
  have htake : t = u.take t.length := elementIndexes_injective ht hp'
  exact ⟨u.drop t.length, (List.take_append_drop t.length u).symm.trans (by rw [← htake])⟩

/-- **Document order on trails of elements is the order of their paths.** -/
theorem lt_elementIndexes {ns : List Xml.Node} {t u p q : Path} (ht : elementIndexes ns t = some p)
    (hu : elementIndexes ns u = some q) (h : Path.lt t u = true) : Path.lt p q = true := by
  induction t generalizing ns u p q with
  | nil =>
      cases ht
      cases u with
      | nil => simp [Path.lt] at h
      | cons j u =>
          obtain ⟨-, -, -, -, -, rfl⟩ := elementIndexes_cons_iff.mp hu
          rfl
  | cons i t ih =>
      cases u with
      | nil => simp [Path.lt] at h
      | cons j u =>
          obtain ⟨o, inner, p, hi, hp, rfl⟩ := elementIndexes_cons_iff.mp ht
          obtain ⟨o', inner', q, hj, hq, rfl⟩ := elementIndexes_cons_iff.mp hu
          rw [Path.lt_cons_iff] at h ⊢
          -- different positions have different ranks, since an element stands at the first one
          rcases h with hij | ⟨rfl, h⟩
          · exact Or.inl (rank_lt hi hij)
          · obtain ⟨rfl, rfl⟩ := Xml.Node.element.inj (Option.some.inj (hi.symm.trans hj))
            exact Or.inr ⟨rfl, ih hp hq h⟩

/-! ## Documents with one root -/

/-- The tree at a path whose first index chooses one of several trees. -/
def forestAt? : List (Tree Xml.Opening) → Path → Option (Tree Xml.Opening)
  | _, [] => none
  | ts, k :: p => ts[k]?.bind (Tree.at? p)

theorem at?_node {o : Xml.Opening} {ts : List (Tree Xml.Opening)} {p : Path} (hp : p ≠ []) :
    (Tree.node o ts).at? p = forestAt? ts p := by
  cases p with
  | nil => exact absurd rfl hp
  | cons k p => rw [Tree.at?_cons, forestAt?]

/-- Counting along the trail of an element leads to that element in the hierarchy. -/
theorem forestAt?_elementIndexes {ns : List Xml.Node} {t q : Path} {i : Nat}
    (h : elementIndexes ns (t ++ [i]) = some q) :
    ∃ o inner, (contentAt ns t)[i]? = some (.element o inner) ∧
      forestAt? (elementTrees ns) q = some (.node o (elementTrees inner)) := by
  induction t generalizing ns q with
  | nil =>
      obtain ⟨o, inner, p, hn, hp, rfl⟩ := elementIndexes_cons_iff.mp h
      cases hp
      refine ⟨o, inner, hn, ?_⟩
      rw [forestAt?, elementTrees_rank hn]
      exact Tree.at?_nil _
  | cons j t ih =>
      obtain ⟨o', inner', p, hn, hp, rfl⟩ := elementIndexes_cons_iff.mp h
      obtain ⟨o, inner, hi, hforest⟩ := ih hp
      -- the rest of the path is not empty, as it leads to an element of a forest
      have hne : p ≠ [] := by
        rintro rfl
        cases hforest
      refine ⟨o, inner, by rw [contentAt_cons hn]; exact hi, ?_⟩
      rw [forestAt?, elementTrees_rank hn, Option.bind_some, at?_node hne, hforest]

theorem trailTo_isSome {ns : List Xml.Node} {q : Path}
    (h : (forestAt? (elementTrees ns) q).isSome = true) : (trailTo ns q).isSome = true := by
  induction q generalizing ns with
  | nil => cases h
  | cons k q ih =>
      obtain ⟨u, hu⟩ := Option.isSome_iff_exists.mp h
      obtain ⟨v, hk, hv⟩ := Option.bind_eq_some_iff.mp hu
      obtain ⟨⟨i, inner⟩, hi⟩ := Option.isSome_iff_exists.mp
        (nthElement_isSome (List.getElem?_eq_some_iff.mp hk).1)
      obtain ⟨⟨o, hn⟩, hrank⟩ := nthElement_eq_some_iff.mp hi
      rw [← hrank, elementTrees_rank hn, Option.some.injEq] at hk
      rw [trailTo, hi]
      cases q with
      | nil => rfl
      | cons j q =>
          rw [← hk, at?_node (by simp)] at hv
          rw [Option.isSome_map]
          exact ih (by rw [hv]; rfl)

/-- An element is inside of elements only. -/
theorem exists_elementIndexes {ns : List Xml.Node} {t : Path} {i : Nat} {o : Xml.Opening}
    {inner : List Xml.Node} (h : (contentAt ns t)[i]? = some (.element o inner)) :
    ∃ q, elementIndexes ns (t ++ [i]) = some q := by
  induction t generalizing ns with
  | nil => exact ⟨[rank ns i], elementIndexes_cons_iff.mpr ⟨o, inner, [], h, rfl, rfl⟩⟩
  | cons j t ih =>
      cases hn : ns[j]? with
      | none => simp [contentAt, hn] at h
      | some n =>
          rw [contentAt_cons hn] at h
          obtain ⟨q, hq⟩ := ih h
          cases n with
          | element o' inner' =>
              exact ⟨rank ns j :: q, elementIndexes_cons_iff.mpr ⟨o', inner', q, hn, hq, rfl⟩⟩
          | _ => simp [contentOf, contentAt_nil_left] at h

namespace Site

variable {s : Site} {root : Tree Xml.Opening}

theorem opening?_concat {t : Path} {i : Nat} {o : Xml.Opening} :
    s.opening? (t ++ [i]) = some o ↔
      ∃ inner, (contentAt s.nodes t)[i]? = some (.element o inner) := by
  rw [opening?, node?_concat]
  cases (contentAt s.nodes t)[i]? with
  | none => simp
  | some n => cases n <;> simp

/-- A tree that is the only one is what every path begins in. -/
theorem forestAt?_singleton {q : Path} {u : Tree Xml.Opening} :
    forestAt? [root] q = some u ↔ ∃ p, q = 0 :: p ∧ root.at? p = some u := by
  cases q with
  | nil => simp [forestAt?]
  | cons k p => cases k <;> simp [forestAt?]

/-- **The elements of a document with one root are the nodes of its hierarchy**, with the same start
tags. -/
theorem opening?_eq_some_iff (hroot : elementTrees s.nodes = [root]) {t : Path}
    {o : Xml.Opening} :
    s.opening? t = some o ↔
      ∃ p u, elementIndexes s.nodes t = some (0 :: p) ∧ root.at? p = some u ∧ u.label = o := by
  rcases List.eq_nil_or_concat t with rfl | ⟨t, i, rfl⟩
  · simp [opening?, node?, elementIndexes]
  · rw [List.concat_eq_append, opening?_concat]
    constructor
    · rintro ⟨inner, hi⟩
      obtain ⟨q, hq⟩ := exists_elementIndexes hi
      obtain ⟨o', inner', hi', hforest⟩ := forestAt?_elementIndexes hq
      obtain ⟨rfl, rfl⟩ := Xml.Node.element.inj (Option.some.inj (hi.symm.trans hi'))
      rw [hroot, forestAt?_singleton] at hforest
      obtain ⟨p, rfl, hp⟩ := hforest
      exact ⟨p, _, hq, hp, rfl⟩
    · rintro ⟨p, u, hq, hp, rfl⟩
      obtain ⟨o, inner, hi, hforest⟩ := forestAt?_elementIndexes hq
      rw [hroot, forestAt?_singleton] at hforest
      obtain ⟨p', hcons, hp'⟩ := hforest
      obtain ⟨-, rfl⟩ := List.cons.inj hcons
      rw [hp] at hp'
      cases hp'
      exact ⟨inner, hi⟩

/-- A node of the hierarchy has a trail. -/
theorem exists_trail (hroot : elementTrees s.nodes = [root]) {p : Path} {u : Tree Xml.Opening}
    (hp : root.at? p = some u) : ∃ t, elementIndexes s.nodes t = some (0 :: p) := by
  have hforest : (forestAt? (elementTrees s.nodes) (0 :: p)).isSome = true := by
    rw [hroot, forestAt?_singleton.mpr ⟨p, rfl, hp⟩]
    rfl
  obtain ⟨t, ht⟩ := Option.isSome_iff_exists.mp (trailTo_isSome hforest)
  exact ⟨t, trailTo_eq_some_iff.mp ht⟩

theorem trail?_eq_some_iff {t p : Path} :
    s.trail? p = some t ↔ elementIndexes s.nodes t = some (0 :: p) := trailTo_eq_some_iff

/-- Only the place of a whole node has a path. -/
theorem exists_node_of_elementPath? {a : Place} {p : Path} (h : s.elementPath? a = some p) :
    ∃ t, a = .node t := by
  obtain ⟨t, part⟩ := a
  cases part with
  | whole => exact ⟨t, rfl⟩
  | _ => cases h

theorem elementPath?_node (hroot : elementTrees s.nodes = [root]) {t p : Path} :
    s.elementPath? (.node t) = some p ↔ elementIndexes s.nodes t = some (0 :: p) := by
  simp only [elementPath?, Place.node]
  constructor
  · intro h
    split at h
    · next k q hq =>
      cases h
      rcases List.eq_nil_or_concat t with rfl | ⟨t, i, rfl⟩
      · cases hq
      · rw [List.concat_eq_append] at hq ⊢
        obtain ⟨o, inner, -, hforest⟩ := forestAt?_elementIndexes hq
        rw [hroot, forestAt?_singleton] at hforest
        obtain ⟨p', hcons, -⟩ := hforest
        obtain ⟨rfl, rfl⟩ := List.cons.inj hcons
        exact hq
    · cases h
  · intro h
    rw [h]

end Site

end UiTree.XPath
