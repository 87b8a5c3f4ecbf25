import UiTree.Proofs.Screen.Staleness

/-!
# UiTree.Proofs.Screen.Refresh -- refreshing a handle is looking for it again

A handle that was found at a position is refreshed by asking the same again, on the screen as it is
by then, and by taking what is at that position. For a handle found below another one, that other
one is refreshed first. So the two ways to a node, its lookup and the single steps, agree, in what
they find and in how they fail.

* **Steps.** `refresh_top` and `refresh_under`: refreshing a handle, by the last step of its lookup.
  `refresh_eq_replay`: all steps one after the other, at any depth.
* **Invariant.** `Session.Knows`: what holds of a handle from when it is found on.
* **Main statement.** `Session.retraces_of_reachable`: every session keeps the contract `Retraces`.
-/

namespace UiTree

namespace Handle

variable {σ : Type} {s : Screen σ} {h p : Handle} {q : Query} {i : Nat} {l : Lookup}

/-- The handle at a position among those that a query found. -/
def pick (q : Query) (i : Nat) (hs : List Handle) : Except Fault Handle :=
  match hs[i]? with
  | some h => .ok h
  | none => .error (.notFound q.text (.position i hs.length))

/-! ## The last step of a lookup -/

theorem getElem?_map_zipIdx (ns : List Node) (f : Node × Nat → Handle) (i : Nat) :
    (ns.zipIdx.map f)[i]? = ns[i]?.map fun n => f (n, i) := by
  rw [List.getElem?_map, List.getElem?_zipIdx, Option.map_map, Nat.zero_add]
  rfl

theorem pick_map_zipIdx (ns : List Node) (f : Node × Nat → Handle) :
    pick q i (ns.zipIdx.map f) = (Lookup.pick q i ns).map fun n => f (n, i) := by
  unfold pick Lookup.pick
  rw [getElem?_map_zipIdx, List.length_map, List.length_zipIdx]
  cases ns[i]? <;> rfl

/-- Handles are made of the nodes that are found, each for its position. So the handle at a position
is made of the node there. -/
theorem result_pick (found : Report (List Node)) (f : Node × Nat → Handle) :
    ((do return (← found).zipIdx.map f : Report (List Handle)).result >>= pick q i) =
      (do let ns ← found
          let n ← Report.of (Lookup.pick q i ns)
          return f (n, i)).result := by
  rw [Report.result_bind, Report.result_bind]
  cases found.result with
  | error e => rfl
  | ok ns =>
      show pick q i (ns.zipIdx.map f) =
        (do let n ← Report.of (Lookup.pick q i ns)
            return f (n, i) : Report Handle).result
      rw [pick_map_zipIdx, Report.result_bind, Report.result_of]
      cases Lookup.pick q i ns <;> rfl

/-- Refreshing a handle with a lookup. -/
theorem refresh_of_lookup (hl : h.lookup = some l) (s : Screen σ) :
    h.refresh s = (do return ⟨← l.resolve s.current, some l⟩) := by
  rw [refresh, hl]

/-- What was found on the screen is looked for on the screen. -/
theorem refresh_top (hl : h.lookup = some (.top q i)) (s : Screen σ) :
    (h.refresh s).result = (s.getElements q).result >>= pick q i := by
  rw [refresh_of_lookup hl, Screen.getElements, result_pick, Lookup.resolve]
  simp only [Report.result_bind, bind_assoc]

/-- The parent, refreshed, is a node of the current snapshot. Its children are asked for there. -/
theorem children_of_resolve {n : Node} (hn : (l.resolve s.current).result = .ok n) (q : Query) :
    (children ⟨n, some l⟩ s q).result = (do
      let ns ← s.current.findChildren .path q n
      return ns.zipIdx.map fun (m, i) => ⟨m, some (.under l q i)⟩ :
        Report (List Handle)).result := by
  have hsnapshot : n.snapshot = s.current := Lookup.snapshot_of_resolve hn
  have hfresh : fresh ⟨n, some l⟩ s = .ok n := by
    rw [fresh_eq_ok_iff, isStale_eq_false_iff, version, hsnapshot]
    exact ⟨rfl, rfl⟩
  rw [children, hfresh, Report.result_bind_of_ok rfl, hsnapshot]
  rfl

/-- What was found below another handle is looked for below that handle, when it is refreshed. -/
theorem refresh_under (hp : p.lookup = some l) (hl : h.lookup = some (.under l q i))
    (s : Screen σ) :
    (h.refresh s).result =
      (p.refresh s).result >>= fun p' => (p'.children s q).result >>= pick q i := by
  rw [refresh_of_lookup hl, refresh_of_lookup hp, Lookup.resolve, Report.result_bind,
    Report.result_bind, Report.result_bind]
  cases hn : (l.resolve s.current).result with
  | error e => rfl
  | ok n =>
      show _ = (children ⟨n, some l⟩ s q).result >>= pick q i
      rw [children_of_resolve hn, result_pick]
      show ((do let ns ← s.current.findChildren .path q n
                Report.of (Lookup.pick q i ns) : Report Node).result >>= fun _ => _) = _
      simp only [Report.result_bind, bind_assoc]

/-! ## Lookups -/

theorem lookup_of_getElement (found : (s.getElement q).result = .ok h) :
    h.lookup = some (.top q 0) := by
  obtain ⟨n, -, heq⟩ := Report.result_bind_eq_ok_iff.mp found
  cases heq
  rfl

theorem lookup_of_getElements {hs : List Handle} (found : (s.getElements q).result = .ok hs)
    (hi : hs[i]? = some h) : h.lookup = some (.top q i) := by
  obtain ⟨ns, -, heq⟩ := Report.result_bind_eq_ok_iff.mp found
  cases heq
  rw [getElem?_map_zipIdx] at hi
  obtain ⟨n, -, rfl⟩ := Option.map_eq_some_iff.mp hi
  rfl

theorem lookup_of_children {hs : List Handle} (found : (p.children s q).result = .ok hs)
    (hi : hs[i]? = some h) : h.lookup = p.lookup.map fun l => .under l q i := by
  obtain ⟨n, -, found⟩ := Report.result_bind_eq_ok_iff.mp found
  obtain ⟨ns, -, heq⟩ := Report.result_bind_eq_ok_iff.mp found
  cases heq
  rw [getElem?_map_zipIdx] at hi
  obtain ⟨m, -, rfl⟩ := Option.map_eq_some_iff.mp hi
  rfl

/-- Refreshing a handle without a lookup fails, or gives the handle. -/
theorem refresh_of_no_lookup (hl : h.lookup = none) (s : Screen σ) :
    (h.refresh s).result =
      if h.isStale s then .error (.stale h.version s.version) else .ok h := by
  rw [refresh, hl, Report.result_of, fresh]
  split <;> rfl

theorem lookup_of_refresh {h' : Handle} (found : (h.refresh s).result = .ok h') :
    h'.lookup = h.lookup := by
  cases hl : h.lookup with
  | none =>
      rw [refresh_of_no_lookup hl] at found
      split at found
      · cases found
      · cases found
        exact hl
  | some l =>
      rw [refresh_of_lookup hl] at found
      obtain ⟨n, -, heq⟩ := Report.result_bind_eq_ok_iff.mp found
      cases heq
      rfl

end Handle

/-! ## All steps of a lookup -/

/-- The steps of a lookup one after the other: what each query finds on the screen, and the handle
at its position. -/
def Lookup.replay {σ : Type} (s : Screen σ) : Lookup → Except Fault Handle
  | .top q i => (s.getElements q).result >>= Handle.pick q i
  | .under l q i => do
    let p ← l.replay s
    let hs ← (p.children s q).result
    Handle.pick q i hs

/-- **Refreshing a handle takes the steps by which it was found**, whatever their number is. -/
theorem Handle.refresh_eq_replay {σ : Type} {h : Handle} {l : Lookup} (hl : h.lookup = some l)
    (s : Screen σ) : (h.refresh s).result = l.replay s := by
  induction l generalizing h with
  | top q i => exact refresh_top hl s
  | under l q i ih =>
      -- any handle with the lookup of the parent will do
      have hp : (⟨h.node, some l⟩ : Handle).lookup = some l := rfl
      rw [refresh_under hp hl s, ih hp, Lookup.replay]

namespace Session

variable {σ : Type} {c : Channel σ} {s : Session σ} {h : Handle}

/-! ## From one turn to the next -/

/-- The handle was produced on the screen, or can be produced on it now. -/
def Finds (s : Session σ) (h : Handle) : Prop := h ∈ s.handles ∨ s.Yields h

/-- What holds of a handle from when it is found on: its version is below the next one, and with the
current version it is one of the current snapshot. -/
structure Knows (s : Session σ) (h : Handle) : Prop where
  older : h.version < s.screen.nextVersion
  fresh : h.isStale s.screen = false → h.node.snapshot = s.screen.current

theorem Coherent.knows (hs : s.Coherent) (hfound : s.Finds h) : s.Knows h := by
  rcases hfound with hmem | hy
  · exact ⟨hs.older h hmem, hs.fresh h hmem⟩
  · have hsnapshot : h.node.snapshot = s.screen.current := (hs.foundIn_of_yields hy).snapshot
    refine ⟨?_, fun _ => hsnapshot⟩
    rw [Handle.version, hsnapshot]
    exact hs.current

theorem Knows.turn (hk : s.Knows h) (t : Turn) : (turn c t s).2.Knows h := by
  have holder : h.version < (Session.turn c t s).2.screen.nextVersion :=
    Nat.lt_of_lt_of_le hk.older (nextVersion_le_turn c t s)
  have same : (Session.turn c t s).2.screen.current = s.screen.current →
      (Session.turn c t s).2.Knows h := by
    intro hcurrent
    refine ⟨holder, ?_⟩
    rw [Handle.isStale, Screen.version, hcurrent]
    exact hk.fresh
  cases advance_turn c t s with
  | stay built current next failed => exact same current
  | elsewhere built other version current next => exact same current
  | renew built own done version current next =>
      -- the new snapshot has a version of its own
      refine ⟨holder, ?_⟩
      intro hfresh
      have hversion := Handle.isStale_eq_false_iff.mp hfresh
      rw [Screen.version, current, version] at hversion
      exact absurd hk.older (by omega)

theorem Knows.run (hk : s.Knows h) (ts : List Turn) : (run c ts s).Knows h := by
  induction ts generalizing s with
  | nil => exact hk
  | cons t ts ih => exact ih (hk.turn t)

/-- What a refresh gives is found in the current snapshot. -/
theorem Knows.snapshot_of_refresh {h' : Handle} (hk : s.Knows h)
    (found : (h.refresh s.screen).result = .ok h') : h'.node.snapshot = s.screen.current := by
  rcases Handle.foundIn_of_refresh found with hfound | ⟨hfresh, rfl⟩
  · exact hfound.snapshot
  · exact hk.fresh hfresh

/-- A second refresh gives the same handle, as long as the snapshot is the current one. -/
theorem refresh_refresh {h' : Handle} {t : Screen σ} (hk : s.Knows h)
    (found : (h.refresh s.screen).result = .ok h') (ht : t.current = s.screen.current) :
    (h'.refresh t).result = .ok h' := by
  have hlookup := Handle.lookup_of_refresh found
  cases hl : h.lookup with
  | none =>
      have hversion : t.version = h'.version := by
        rw [Screen.version, ht, Handle.version, hk.snapshot_of_refresh found]
      rw [hl] at hlookup
      rw [Handle.refresh_of_no_lookup hlookup, Handle.isStale_eq_false_iff.mpr hversion]
      rfl
  | some l =>
      rw [hl] at hlookup
      rw [Handle.refresh_of_lookup hlookup, ht, ← Handle.refresh_of_lookup hl]
      exact found

/-! ## The contract -/

/-- **The contract of refreshing**, for a session and all turns after it. -/
structure Retraces (c : Channel σ) (s : Session σ) : Prop where
  /-- A handle found at a position is what the query has there now. -/
  elements : ∀ (q : Query) (hs : List Handle) (i : Nat) (h : Handle),
    (s.screen.getElements q).result = .ok hs → hs[i]? = some h → ∀ later,
      (h.refresh (run c later s).screen).result =
        ((run c later s).screen.getElements q).result >>= Handle.pick q i
  /-- A handle found as the first one is what the query has first now. -/
  element : ∀ (q : Query) (h : Handle), (s.screen.getElement q).result = .ok h → ∀ later,
    (h.refresh (run c later s).screen).result =
      ((run c later s).screen.getElements q).result >>= Handle.pick q 0
  /-- A handle found below one with a lookup is what the query has there now, below that one
  refreshed. -/
  children : ∀ (p : Handle) (l : Lookup) (q : Query) (hs : List Handle) (i : Nat) (h : Handle),
    p.lookup = some l → (p.children s.screen q).result = .ok hs → hs[i]? = some h → ∀ later,
      (h.refresh (run c later s).screen).result =
        (p.refresh (run c later s).screen).result >>= fun p' =>
          (p'.children (run c later s).screen q).result >>= Handle.pick q i
  /-- A refresh takes all steps by which the handle was found, one after the other. -/
  steps : ∀ (h : Handle) (l : Lookup), h.lookup = some l → ∀ later,
    (h.refresh (run c later s).screen).result = l.replay (run c later s).screen
  /-- What a refresh gives belongs to the current snapshot, has the same lookup, and is refreshed to
  itself while the snapshot is the current one. -/
  refreshed : ∀ h : Handle, s.Finds h → ∀ (later : List Turn) (h' : Handle),
    (h.refresh (run c later s).screen).result = .ok h' →
      h'.isStale (run c later s).screen = false ∧
        h'.node.snapshot = (run c later s).screen.current ∧ h'.lookup = h.lookup ∧
        ∀ more, (run c more (run c later s)).screen.current = (run c later s).screen.current →
          (h'.refresh (run c more (run c later s)).screen).result = .ok h'
  /-- A handle without a lookup is refreshed to itself until it is stale, and never after. -/
  bare : ∀ h : Handle, s.Finds h → h.lookup = none → ∀ later,
    (h.isStale (run c later s).screen = false →
        (h.refresh (run c later s).screen).result = .ok h) ∧
      (h.isStale (run c later s).screen = true → ∀ more,
        (h.refresh (run c more (run c later s)).screen).result =
          .error (.stale h.version (run c more (run c later s)).screen.version))
  /-- Below a handle without a lookup, handles without lookups are found. -/
  bareChildren : ∀ (p : Handle) (q : Query) (hs : List Handle), p.lookup = none →
    (p.children s.screen q).result = .ok hs → ∀ h ∈ hs, h.lookup = none

/-- **A refresh takes the path by which the handle was found.** Every session keeps the contract,
whatever comes later. -/
theorem retraces_of_reachable (hs : Reachable c s) : s.Retraces c := by
  have hcoherent : s.Coherent := coherent_of_reachable hs
  refine ⟨?_, ?_, ?_, ?_, ?_, ?_, ?_⟩
  · intro q hs i h found hi later
    exact Handle.refresh_top (Handle.lookup_of_getElements found hi) _
  · intro q h found later
    exact Handle.refresh_top (Handle.lookup_of_getElement found) _
  · intro p l q hs i h hp found hi later
    have hl := Handle.lookup_of_children found hi
    rw [hp] at hl
    exact Handle.refresh_under hp hl _
  · intro h l hl later
    exact Handle.refresh_eq_replay hl _
  · intro h hfound later h' found
    have hk : (run c later s).Knows h := (hcoherent.knows hfound).run later
    have hsnapshot := hk.snapshot_of_refresh found
    refine ⟨?_, hsnapshot, Handle.lookup_of_refresh found, fun more => refresh_refresh hk found⟩
    rw [Handle.isStale_eq_false_iff, Handle.version, hsnapshot, Screen.version]
  · intro h hfound hl later
    refine ⟨?_, ?_⟩
    · intro hfresh
      rw [Handle.refresh_of_no_lookup hl, hfresh]
      rfl
    · intro hstale more
      have hk : (run c later s).Knows h := (hcoherent.knows hfound).run later
      rw [Handle.refresh_of_no_lookup hl, isStale_run_of_older hk.older hstale more]
      rfl
  · intro p q hs hp found h hmem
    obtain ⟨i, hi⟩ := List.mem_iff_getElem?.mp hmem
    rw [Handle.lookup_of_children found hi, hp]
    rfl

/-- A node found below the first one. After an update that shows the same hierarchy again it is
stale, and refreshed to what is then found below the first one. -/
theorem retraces_of_reachable_nested :
    ∃ (s : Session Unit) (p h : Handle) (q : Query), Reachable (still nestedDump) s ∧
      p.lookup = some (.top q 0) ∧ (p.children s.screen q).result = .ok [h] ∧
      h.isStale (run (still nestedDump) [.command .update] s).screen = true ∧
      (h.refresh (run (still nestedDump) [.command .update] s).screen).result =
        (p.refresh (run (still nestedDump) [.command .update] s).screen).result >>= fun p' =>
          (p'.children (run (still nestedDump) [.command .update] s).screen q).result >>=
            Handle.pick q 0 := by
  obtain ⟨first, root, n, hbuild, hroot, hnode, -, hbelow⟩ := exists_nested
  obtain ⟨next, hnext, -⟩ := Snapshot.exists_of_any_toOption
    (r := (Snapshot.build 2 (some nestedDump)).result) (f := fun _ => true) (by decide +kernel)
  -- the session, and the two handles
  obtain ⟨s, hs⟩ : ∃ s : Session Unit, s = ⟨⟨true, first, 2, (), []⟩, []⟩ := ⟨_, rfl⟩
  obtain ⟨p, hp⟩ : ∃ h : Handle, h = ⟨root, some (.top (.selector both) 0)⟩ := ⟨_, rfl⟩
  obtain ⟨h, hh⟩ : ∃ h : Handle,
      h = ⟨n, some (.under (.top (.selector both) 0) (.selector both) 0)⟩ := ⟨_, rfl⟩
  have hreach : Reachable (still nestedDump) s := by
    rw [hs]
    exact .start (start_still hbuild)
  have hfresh : p.fresh s.screen = .ok root := by
    rw [Handle.fresh_eq_ok_iff, Handle.isStale_eq_false_iff, hs, hp]
    exact ⟨congrArg Snapshot.version hroot.symm, rfl⟩
  have hchildren : (p.children s.screen (.selector both)).result = .ok [h] := by
    rw [← hroot] at hbelow
    rw [Handle.children, hfresh, Report.result_bind_of_ok rfl, Report.result_bind_of_ok hbelow,
      hp, hh]
    rfl
  have hstale : h.isStale (run (still nestedDump) [.command .update] s).screen = true := by
    have hold : h.version = 1 := by
      rw [Handle.version, hh, hnode, Snapshot.version_of_build hbuild]
    have hnext' : (Snapshot.build s.screen.nextVersion (some nestedDump)).result = .ok next := by
      rw [hs]
      exact hnext
    rw [run, run, turn_update_still hnext', Handle.isStale, hold, Screen.version,
      Snapshot.version_of_build hnext]
    rfl
  refine ⟨s, p, h, .selector both, hreach, by rw [hp], hchildren, hstale, ?_⟩
  exact (retraces_of_reachable hreach).children p _ _ [h] 0 h (by rw [hp]) hchildren rfl _

end Session

end UiTree
