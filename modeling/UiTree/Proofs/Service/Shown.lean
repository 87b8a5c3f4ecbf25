import UiTree.Service.Basic

/-!
# UiTree.Proofs.Service.Shown -- which nodes can be shown

A node is shown with its rectangle. The rectangle is read from an attribute, and then its integers
are written. Neither works for integers with too many digits, and the caller is not told so.

* **Rectangles.** `Bounds.Writes`: the coordinates that an attribute value writes.
  `exists_long_of_error` and `exists_error_of_long`: it is not read when one of them is too long.
* **Main statements.** `Node.Unshowable`: the nodes that cannot be shown, with the faults. A list of
  nodes fails to be shown with the fault of one of them (`exists_unshowable_of_mapM` and
  `exists_unshowable_of_foundFields`), and when it is shown there is none of them in it
  (`not_unshowable_of_foundFields`).
-/

namespace UiTree

/-! ## Lists -/

section Lists

variable {ε α β : Type} {f : α → Except ε β}

/-- A list has a value when each of its elements has one, and the values are those. -/
theorem mapM_eq_ok_iff {xs : List α} {ys : List β} :
    xs.mapM f = .ok ys ↔ xs.map f = ys.map Except.ok := by
  induction xs generalizing ys with
  | nil => cases ys <;> simp [pure, Except.pure]
  | cons x xs ih =>
      rw [List.mapM_cons, List.map_cons]
      cases hx : f x with
      | error e =>
          refine iff_of_false nofun ?_
          intro h
          cases ys with
          | nil => cases h
          | cons y ys => cases (List.cons.inj h).1
      | ok y =>
          cases hxs : xs.mapM f with
          | error e =>
              refine iff_of_false nofun ?_
              intro h
              cases ys with
              | nil => cases h
              | cons z zs =>
                  rw [ih.mpr (List.cons.inj h).2] at hxs
                  cases hxs
          | ok zs =>
              rw [ih.mp hxs, ← List.map_cons, List.map_inj_right fun _ _ => Except.ok.inj]
              exact ⟨Except.ok.inj, congrArg Except.ok⟩

/-- Every element of a list that has a value has one of the values. -/
theorem exists_of_mapM {xs : List α} {ys : List β} (h : xs.mapM f = .ok ys) {x : α} (hx : x ∈ xs) :
    ∃ y ∈ ys, f x = .ok y := by
  have hmem : f x ∈ ys.map Except.ok := mapM_eq_ok_iff.mp h ▸ List.mem_map_of_mem hx
  obtain ⟨y, hy, heq⟩ := List.mem_map.mp hmem
  exact ⟨y, hy, heq.symm⟩

/-- Every value of a list is the value of one of the elements. -/
theorem mem_of_mapM {xs : List α} {ys : List β} (h : xs.mapM f = .ok ys) {y : β} (hy : y ∈ ys) :
    ∃ x ∈ xs, f x = .ok y := by
  have hmem : Except.ok y ∈ xs.map f := mapM_eq_ok_iff.mp h ▸ List.mem_map_of_mem hy
  obtain ⟨x, hx, heq⟩ := List.mem_map.mp hmem
  exact ⟨x, hx, heq⟩

/-- A list fails as one of its elements does. -/
theorem exists_of_mapM_error {xs : List α} {e : ε} (h : xs.mapM f = .error e) :
    ∃ x ∈ xs, f x = .error e := by
  induction xs with
  | nil => cases h
  | cons x xs ih =>
      rw [List.mapM_cons] at h
      cases hx : f x with
      | error e' =>
          rw [hx] at h
          cases h
          exact ⟨x, List.mem_cons_self, hx⟩
      | ok y =>
          rw [hx] at h
          cases hxs : xs.mapM f with
          | error e' =>
              rw [hxs] at h
              cases h
              obtain ⟨x', hmem, hx'⟩ := ih hxs
              exact ⟨x', List.mem_cons_of_mem x hmem, hx'⟩
          | ok zs =>
              rw [hxs] at h
              cases h

/-- An element that fails lets the list fail, if not with the same fault. -/
theorem exists_mapM_error {xs : List α} {x : α} {e : ε} (hmem : x ∈ xs) (hx : f x = .error e) :
    ∃ e', xs.mapM f = .error e' := by
  cases hxs : xs.mapM f with
  | error e' => exact ⟨e', rfl⟩
  | ok ys =>
      obtain ⟨y, -, hy⟩ := exists_of_mapM hxs hmem
      rw [hx] at hy
      cases hy

end Lists

/-! ## Rectangles -/

namespace Bounds

variable {t : Text} {p q : Coordinate × Coordinate}

/-- The two pairs that an attribute value writes, in one notation or the other. -/
inductive Writes : Text → Coordinate × Coordinate → Coordinate × Coordinate → Prop where
  | corners {t : Text} {p q : Coordinate × Coordinate}
    (pairs : findPairs '[' ']' ('[' :: t) = [p, q]) : Writes ('[' :: t) p q
  | size {t : Text} {p q : Coordinate × Coordinate}
    (pairs : findPairs '\x7b' '\x7d' ('\x7b' :: t) = [p, q]) : Writes ('\x7b' :: t) p q

theorem value?_eq_error_iff {c : Coordinate} {digits : Nat} :
    c.value? = .error digits ↔
      Coordinate.maxDigits < c.digits.length ∧ digits = c.digits.length := by
  unfold Coordinate.value?
  split
  · next h => simp [h, eq_comm]
  · next h => simp [h]

/-- The integers of two pairs are those of their coordinates. -/
theorem mapM_value? (p q : Coordinate × Coordinate) :
    [p.1, p.2, q.1, q.2].mapM Coordinate.value? =
      (values p q).map fun v => [v.1, v.2.1, v.2.2.1, v.2.2.2] := by
  simp only [values, List.mapM_cons, List.mapM_nil]
  cases p.1.value? <;> cases p.2.value? <;> cases q.1.value? <;> cases q.2.value? <;> rfl

theorem read?_of_writes (h : Writes t p q) :
    ∃ f : Int × Int × Int × Int → Bounds, read? t = (values p q).map fun v => some (f v) := by
  cases h with
  | corners pairs =>
      refine ⟨fun v => ⟨v.1, v.2.1, v.2.2.1 - v.1, v.2.2.2 - v.2.1⟩, ?_⟩
      rw [read?, pairs]
      dsimp only
      cases values p q <;> rfl
  | size pairs =>
      refine ⟨fun v => ⟨v.1, v.2.1, v.2.2.1, v.2.2.2⟩, ?_⟩
      rw [read?, pairs]
      dsimp only
      cases values p q <;> rfl

theorem exists_writes_of_error {digits : Nat} (h : read? t = .error digits) :
    ∃ p q, Writes t p q := by
  unfold read? at h
  split at h
  · split at h
    · next p q pairs => exact ⟨p, q, .corners pairs⟩
    · cases h
  · split at h
    · next p q pairs => exact ⟨p, q, .size pairs⟩
    · cases h
  · cases h

/-- **A rectangle that is not read**: a coordinate of its two pairs has too many digits, and the
fault tells the number of digits. -/
theorem exists_long_of_error {digits : Nat} (h : read? t = .error digits) :
    ∃ p q, Writes t p q ∧ ∃ c ∈ [p.1, p.2, q.1, q.2],
      Coordinate.maxDigits < c.digits.length ∧ digits = c.digits.length := by
  obtain ⟨p, q, hwrites⟩ := exists_writes_of_error h
  obtain ⟨f, hread⟩ := read?_of_writes hwrites
  have hvalues : [p.1, p.2, q.1, q.2].mapM Coordinate.value? = .error digits := by
    rw [mapM_value?]
    rw [hread] at h
    cases hv : values p q with
    | error d =>
        rw [hv] at h
        cases h
        rfl
    | ok v =>
        rw [hv] at h
        cases h
  obtain ⟨c, hmem, hc⟩ := exists_of_mapM_error hvalues
  exact ⟨p, q, hwrites, c, hmem, value?_eq_error_iff.mp hc⟩

theorem exists_error_of_long (h : Writes t p q) {c : Coordinate} (hmem : c ∈ [p.1, p.2, q.1, q.2])
    (hlong : Coordinate.maxDigits < c.digits.length) : ∃ digits, read? t = .error digits := by
  obtain ⟨f, hread⟩ := read?_of_writes h
  obtain ⟨digits, hvalues⟩ := exists_mapM_error hmem (value?_eq_error_iff.mpr ⟨hlong, rfl⟩)
  rw [mapM_value?] at hvalues
  rw [hread]
  cases hv : values p q with
  | error d => exact ⟨d, rfl⟩
  | ok v =>
      rw [hv] at hvalues
      cases hvalues

end Bounds

/-! ## Nodes -/

/-- **A node that cannot be shown**, and a fault that this raises: a coordinate of its rectangle is
written with too many digits, or an integer of the rectangle would have to be. -/
inductive Node.Unshowable (n : Node) : Fault → Prop where
  | coordinate {t : Text} {p q : Coordinate × Coordinate} {c : Coordinate}
    (value : n.get? "bounds".toList = some t) (written : Bounds.Writes t p q)
    (mem : c ∈ [p.1, p.2, q.1, q.2]) (long : Coordinate.maxDigits < c.digits.length) :
    Unshowable n (.longNumber c.digits.length)
  | integer {b : Bounds} {i : Int} (read : n.bounds? = .ok (some b))
    (mem : i ∈ [b.x, b.y, b.w, b.h]) (long : 4300 < (Text.ofNat i.natAbs).length) :
    Unshowable n .longText

namespace Service

variable {n : Node} {f : Found} {e : Fault}

theorem shownInteger_eq_error_iff {i : Int} :
    shownInteger i = .error e ↔ 4300 < (Text.ofNat i.natAbs).length ∧ e = .longText := by
  unfold shownInteger
  dsimp only
  split
  · next h => simp [h, eq_comm]
  · next h => simp [h]

theorem boundsDatum_eq_error_iff {b : Bounds} :
    boundsDatum b = .error e ↔
      (∃ i ∈ [b.x, b.y, b.w, b.h], 4300 < (Text.ofNat i.natAbs).length) ∧ e = .longText := by
  rw [boundsDatum]
  cases hshown : [b.x, b.y, b.w, b.h].mapM shownInteger with
  | error why =>
      obtain ⟨i, hmem, hi⟩ := exists_of_mapM_error hshown
      obtain ⟨hlong, rfl⟩ := shownInteger_eq_error_iff.mp hi
      constructor
      · intro h
        exact ⟨⟨i, hmem, hlong⟩, (Except.error.inj h).symm⟩
      · rintro ⟨-, rfl⟩
        rfl
  | ok ts =>
      refine iff_of_false nofun ?_
      rintro ⟨⟨i, hmem, hlong⟩, -⟩
      obtain ⟨why, hfails⟩ := exists_mapM_error hmem (shownInteger_eq_error_iff.mpr ⟨hlong, rfl⟩)
      rw [hshown] at hfails
      cases hfails

theorem datum_eq_error_iff :
    f.datum = .error e ↔ ∃ b, f.bounds = some b ∧ boundsDatum b = .error e := by
  rw [Found.datum]
  cases f.bounds with
  | none => exact iff_of_false nofun (by rintro ⟨b, hb, -⟩; cases hb)
  | some b =>
      simp only [Option.some.injEq, exists_eq_left']
      cases boundsDatum b with
      | error why => exact Iff.rfl
      | ok d => exact iff_of_false nofun nofun

/-- The rectangle of a node that can be read. -/
theorem bounds_of_ofNode (h : Found.ofNode n = .ok f) : f.node = n ∧ n.bounds? = .ok f.bounds := by
  rw [Found.ofNode] at h
  cases hb : n.bounds? with
  | error why =>
      rw [hb] at h
      cases h
  | ok b =>
      rw [hb] at h
      cases h
      exact ⟨rfl, rfl⟩

theorem unshowable_of_ofNode (h : Found.ofNode n = .error e) : n.Unshowable e := by
  rw [Found.ofNode, Node.bounds?] at h
  cases ht : n.get? "bounds".toList with
  | none =>
      rw [ht] at h
      cases h
  | some t =>
      rw [ht] at h
      cases hread : Bounds.read? t with
      | ok b =>
          simp only [hread] at h
          cases h
      | error digits =>
          simp only [hread] at h
          cases h
          obtain ⟨p, q, hwrites, c, hmem, hlong, rfl⟩ := Bounds.exists_long_of_error hread
          exact .coordinate ht hwrites hmem hlong

theorem unshowable_of_datum (hf : Found.ofNode n = .ok f) (h : f.datum = .error e) :
    n.Unshowable e := by
  obtain ⟨b, hb, hfails⟩ := datum_eq_error_iff.mp h
  obtain ⟨⟨i, hmem, hlong⟩, rfl⟩ := boundsDatum_eq_error_iff.mp hfails
  have hread := (bounds_of_ofNode hf).2
  rw [hb] at hread
  exact .integer hread hmem hlong

/-- A node that has been shown can be shown. -/
theorem not_unshowable_of_datum {d : Datum} (hf : Found.ofNode n = .ok f) (h : f.datum = .ok d) :
    ¬ n.Unshowable e := by
  have hread := (bounds_of_ofNode hf).2
  intro hn
  cases hn with
  | coordinate value written mem long =>
      obtain ⟨digits, herror⟩ := Bounds.exists_error_of_long written mem long
      rw [Node.bounds?, value] at hread
      simp only [herror] at hread
      cases hread
  | integer read mem long =>
      rw [hread] at read
      have hfails := datum_eq_error_iff.mpr
        ⟨_, Except.ok.inj read, boundsDatum_eq_error_iff.mpr ⟨⟨_, mem, long⟩, rfl⟩⟩
      rw [h] at hfails
      cases hfails

theorem status?_of_unshowable (h : n.Unshowable e) : status? e = none := by
  cases h <;> rfl

variable {ns : List Node} {found : List Found}

theorem exists_unshowable_of_mapM (h : ns.mapM Found.ofNode = .error e) :
    ∃ n ∈ ns, n.Unshowable e := by
  obtain ⟨n, hmem, hn⟩ := exists_of_mapM_error h
  exact ⟨n, hmem, unshowable_of_ofNode hn⟩

theorem exists_unshowable_of_foundFields (hfound : ns.mapM Found.ofNode = .ok found)
    (h : foundFields found = .error e) : ∃ n ∈ ns, n.Unshowable e := by
  rw [foundFields] at h
  cases hshown : found.mapM Found.datum with
  | ok ds =>
      rw [hshown] at h
      cases h
  | error why =>
      rw [hshown] at h
      cases h
      obtain ⟨f, hf, hfails⟩ := exists_of_mapM_error hshown
      obtain ⟨n, hmem, hn⟩ := mem_of_mapM hfound hf
      exact ⟨n, hmem, unshowable_of_datum hn hfails⟩

theorem status?_of_mapM (h : ns.mapM Found.ofNode = .error e) : status? e = none := by
  obtain ⟨n, -, hn⟩ := exists_unshowable_of_mapM h
  exact status?_of_unshowable hn

theorem status?_of_foundFields (hfound : ns.mapM Found.ofNode = .ok found)
    (h : foundFields found = .error e) : status? e = none := by
  obtain ⟨n, -, hn⟩ := exists_unshowable_of_foundFields hfound h
  exact status?_of_unshowable hn

/-- **Nodes that have all been shown** can all be shown. -/
theorem not_unshowable_of_foundFields {fields : List (Text × Datum)}
    (hfound : ns.mapM Found.ofNode = .ok found) (h : foundFields found = .ok fields)
    (hmem : n ∈ ns) : ¬ n.Unshowable e := by
  rw [foundFields] at h
  cases hshown : found.mapM Found.datum with
  | error why =>
      rw [hshown] at h
      cases h
  | ok ds =>
      obtain ⟨f, hf, hn⟩ := exists_of_mapM hfound hmem
      obtain ⟨d, -, hd⟩ := exists_of_mapM hshown hf
      exact not_unshowable_of_datum hn hd

end Service

end UiTree
