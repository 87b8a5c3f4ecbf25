import UiTree.Proofs.Query.PathRoute
import UiTree.Proofs.Screen.Session

/-!
# UiTree.Proofs.Screen.Coherence -- a lookup finds its handle again

A handle remembers how it was found. On the snapshot of its node that lookup finds the node itself,
at any depth of lookups below lookups. So refreshing a handle that is not stale changes nothing.

* **Invariant.** `Session.Coherent`: versions are below the next one, equal versions mean equal
  snapshots, and every lookup finds its node. `Coherent.step` preserves it.
* **Main statement.** `Session.coherent_of_reachable`: every session has it. `refresh_of_foundIn`
  says what this means for refreshing.
-/

namespace UiTree

namespace Handle

/-- The lookup of the handle, if any, finds the node on the snapshot of the node. -/
def Coherent (h : Handle) : Prop :=
  ∀ l, h.lookup = some l → (l.resolve h.node.snapshot).result = .ok h.node

/-- The handle is one of the given snapshot, and coherent. -/
structure FoundIn (h : Handle) (s : Snapshot) : Prop where
  snapshot : h.node.snapshot = s
  coherent : h.Coherent

/-- A lookup that finds the node on a snapshot makes a coherent handle of that snapshot. -/
theorem foundIn_of_resolve {s : Snapshot} {n : Node} {l : Lookup}
    (h : (l.resolve s).result = .ok n) : (⟨n, some l⟩ : Handle).FoundIn s := by
  have hs : n.snapshot = s := Lookup.snapshot_of_resolve h
  refine ⟨hs, ?_⟩
  intro l' hl'
  cases hl'
  show (l.resolve n.snapshot).result = .ok n
  rw [hs]
  exact h

/-- A handle without a lookup is coherent. -/
theorem foundIn_bare {s : Snapshot} {n : Node} (h : n.snapshot = s) :
    (⟨n, none⟩ : Handle).FoundIn s := by
  refine ⟨h, ?_⟩
  intro l hl
  cases hl

variable {σ : Type} {s : Screen σ} {q : Query}

theorem foundIn_of_getElement {h : Handle} (found : (s.getElement q).result = .ok h) :
    h.FoundIn s.current := by
  obtain ⟨n, hn, heq⟩ := Report.result_bind_eq_ok_iff.mp found
  cases heq
  exact foundIn_of_resolve (Lookup.resolve_top_eq_ok_iff.mpr (Snapshot.findOne_eq_ok_iff.mp hn))

/-- The handles of a list of nodes, each with the lookup of its position. -/
theorem exists_of_mem_zipIdx {ns : List Node} {f : Node × Nat → Handle} {h : Handle}
    (hmem : h ∈ ns.zipIdx.map f) : ∃ n i, ns[i]? = some n ∧ h = f (n, i) := by
  obtain ⟨⟨n, i⟩, hn, rfl⟩ := List.mem_map.mp hmem
  exact ⟨n, i, List.mk_mem_zipIdx_iff_getElem?.mp hn, rfl⟩

theorem foundIn_of_getElements {hs : List Handle} {h : Handle}
    (found : (s.getElements q).result = .ok hs) (hmem : h ∈ hs) : h.FoundIn s.current := by
  obtain ⟨ns, hns, heq⟩ := Report.result_bind_eq_ok_iff.mp found
  cases heq
  obtain ⟨n, i, hn, rfl⟩ := exists_of_mem_zipIdx hmem
  exact foundIn_of_resolve (Lookup.resolve_top_eq_ok_iff.mpr ⟨ns, hns, hn⟩)

theorem foundIn_of_nodeAt {s : Snapshot} {a : Address} {n : Node} (found : s.nodeAt a = .ok n) :
    (⟨n, none⟩ : Handle).FoundIn s := foundIn_bare (Snapshot.snapshot_of_nodeAt found)

theorem isStale_eq_false_iff {h : Handle} : h.isStale s = false ↔ s.version = h.version := by
  rw [isStale, bne_eq_false_iff_eq]

theorem fresh_eq_ok_iff {h : Handle} {n : Node} :
    h.fresh s = .ok n ↔ h.isStale s = false ∧ h.node = n := by
  unfold fresh
  split
  · next hstale =>
    rw [hstale]
    constructor
    · intro hn
      cases hn
    · rintro ⟨hfalse, -⟩
      cases hfalse
  · next hstale => rw [Except.ok.injEq, Bool.eq_false_iff.mpr hstale, eq_self, true_and]

/-- Children are found when the parent is not stale. They are coherent when it is: its lookup finds
it again, and the query finds below it what it found before. -/
theorem foundIn_of_children {p : Handle} (hp : p.Coherent) {hs : List Handle} {h : Handle}
    (found : (p.children s q).result = .ok hs) (hmem : h ∈ hs) :
    p.isStale s = false ∧ h.FoundIn p.node.snapshot := by
  obtain ⟨n, hn, found⟩ := Report.result_bind_eq_ok_iff.mp found
  obtain ⟨hfresh, rfl⟩ := fresh_eq_ok_iff.mp hn
  obtain ⟨ns, hns, heq⟩ := Report.result_bind_eq_ok_iff.mp found
  cases heq
  obtain ⟨m, i, hm, rfl⟩ := exists_of_mem_zipIdx hmem
  refine ⟨hfresh, ?_⟩
  cases hl : p.lookup with
  | none =>
      exact foundIn_bare (Snapshot.snapshot_of_mem_findChildren hns (List.mem_of_getElem? hm))
  | some l =>
      exact foundIn_of_resolve
        (Lookup.resolve_under_eq_ok_iff.mpr ⟨p.node, hp l hl, ns, hns, hm⟩)

/-- What a refresh gives was found on the current snapshot, or is the handle itself. -/
theorem foundIn_of_refresh {p h : Handle} (found : (p.refresh s).result = .ok h) :
    h.FoundIn s.current ∨ p.isStale s = false ∧ h = p := by
  unfold refresh at found
  split at found
  · right
    cases hp : p.fresh s with
    | error e =>
        rw [hp] at found
        cases found
    | ok n =>
        rw [hp] at found
        cases found
        exact ⟨(fresh_eq_ok_iff.mp hp).1, rfl⟩
  · left
    obtain ⟨n, hn, heq⟩ := Report.result_bind_eq_ok_iff.mp found
    cases heq
    exact foundIn_of_resolve hn

/-- Refreshing a coherent handle of the current snapshot gives the handle itself. -/
theorem refresh_of_foundIn {h : Handle} (hfound : h.FoundIn s.current) :
    (h.refresh s).result = .ok h := by
  have hfresh : h.isStale s = false := by
    rw [isStale_eq_false_iff, version, hfound.snapshot, Screen.version]
  obtain ⟨n, lookup⟩ := h
  cases lookup with
  | none =>
      rw [refresh, Report.result_of, fresh_eq_ok_iff.mpr ⟨hfresh, rfl⟩]
      rfl
  | some l =>
      have hn : (l.resolve s.current).result = .ok n := by
        rw [← hfound.snapshot]
        exact hfound.coherent l rfl
      rw [refresh, Report.result_bind_of_ok hn]
      rfl

end Handle

namespace Session

variable {σ : Type}

/-- Versions are below the next one, a handle with the current version is one of the current
snapshot, and every handle is coherent. -/
structure Coherent (s : Session σ) : Prop where
  current : s.screen.version < s.screen.nextVersion
  older : ∀ h ∈ s.handles, h.version < s.screen.nextVersion
  fresh : ∀ h ∈ s.handles, h.isStale s.screen = false → h.node.snapshot = s.screen.current
  coherent : ∀ h ∈ s.handles, h.Coherent

theorem Coherent.foundIn {s : Session σ} (hs : s.Coherent) {h : Handle} (hmem : h ∈ s.handles)
    (hfresh : h.isStale s.screen = false) : h.FoundIn s.screen.current :=
  ⟨hs.fresh h hmem hfresh, hs.coherent h hmem⟩

/-- Whatever a command produces belongs to the current snapshot and is coherent. -/
theorem Coherent.foundIn_of_yields {s : Session σ} (hs : s.Coherent) {h : Handle}
    (hy : s.Yields h) : h.FoundIn s.screen.current := by
  cases hy with
  | element found => exact Handle.foundIn_of_getElement found
  | elements found mem => exact Handle.foundIn_of_getElements found mem
  | node found eq =>
      subst eq
      exact Handle.foundIn_of_nodeAt found
  | children parent found mem =>
      obtain ⟨hfresh, hfound⟩ := Handle.foundIn_of_children (hs.coherent _ parent) found mem
      rw [hs.fresh _ parent hfresh] at hfound
      exact hfound
  | refresh old found =>
      rcases Handle.foundIn_of_refresh found with hfound | ⟨hfresh, rfl⟩
      · exact hfound
      · exact hs.foundIn old hfresh

/-- A new screen has one snapshot, and no handles yet. -/
theorem coherent_start {c : Channel σ} {strict : Bool} {version : Nat} {device : σ}
    {source : Option Text} {s : Screen σ}
    (h : (Screen.start c strict version device source).1.result = .ok s) :
    Coherent ⟨s, []⟩ := by
  refine ⟨Screen.version_lt_of_start h, ?_, ?_, ?_⟩
  all_goals
    intro h hmem
    cases hmem

/-- **One step keeps a session coherent.** -/
theorem Coherent.step {s : Session σ} (hs : s.Coherent) (c : Channel σ) (k : Command) :
    (s.step c k).2.Coherent := by
  have hchange := change_step c k s
  refine ⟨hchange.version_lt hs.current, ?_, ?_, ?_⟩
  · intro h hmem
    rcases mem_handles_step hmem with hold | ⟨hy, -⟩
    · exact Nat.lt_of_lt_of_le (hs.older h hold) hchange.nextVersion_le
    · have hversion : h.version = s.screen.version :=
        congrArg Snapshot.version (hs.foundIn_of_yields hy).snapshot
      rw [hversion]
      exact Nat.lt_of_lt_of_le hs.current hchange.nextVersion_le
  · intro h hmem hfresh
    rcases mem_handles_step hmem with hold | ⟨hy, hscreen⟩
    · -- a version that was used before is not the one of a new snapshot
      have hversion : (s.step c k).2.screen.version = h.version :=
        Handle.isStale_eq_false_iff.mp hfresh
      have hcurrent : (s.step c k).2.screen.current = s.screen.current :=
        hchange.current_eq (hversion ▸ hs.older h hold)
      rw [hcurrent]
      refine hs.fresh h hold (Handle.isStale_eq_false_iff.mpr ?_)
      rw [← hversion, Screen.version, Screen.version, hcurrent]
    · rw [hscreen]
      exact (hs.foundIn_of_yields hy).snapshot
  · intro h hmem
    rcases mem_handles_step hmem with hold | ⟨hy, -⟩
    · exact hs.coherent h hold
    · exact (hs.foundIn_of_yields hy).coherent

/-- **Every session is coherent.** -/
theorem coherent_of_reachable {c : Channel σ} {s : Session σ} (h : Reachable c s) : s.Coherent := by
  induction h with
  | start h => exact coherent_start h
  | step h k ih => exact ih.step c k

/-- A command that only looks adds what it found to the handles. -/
theorem step_of_look {c : Channel σ} {k : Command} {s : Session σ} {r : Report (List Handle)}
    {hs : List Handle} (htask : k.task c s.handles s.screen = (r, s.screen))
    (hr : r.result = .ok hs) : (s.step c k).2 = ⟨s.screen, s.handles ++ hs⟩ := by
  rw [step, htask]
  dsimp only
  rw [produced, hr]
  rfl

/-- **The lookup of every handle finds its node, and refreshing a handle that is not stale gives the
handle itself.** The screen is left alone, so nothing is sent to the device. -/
theorem refresh_of_reachable {c : Channel σ} {s : Session σ} (hs : Reachable c s) {i : Nat}
    {h : Handle} (hi : s.handles[i]? = some h) :
    (∀ l, h.lookup = some l → (l.resolve h.node.snapshot).result = .ok h.node) ∧
      (h.isStale s.screen = false →
        (h.refresh s.screen).result = .ok h ∧
          (s.step c (.refresh i)).2 = ⟨s.screen, s.handles ++ [h]⟩) := by
  have hcoherent : s.Coherent := coherent_of_reachable hs
  have hmem : h ∈ s.handles := List.mem_of_getElem? hi
  refine ⟨hcoherent.coherent h hmem, ?_⟩
  intro hfresh
  have hresult : (h.refresh s.screen).result = .ok h :=
    Handle.refresh_of_foundIn (hcoherent.foundIn hmem hfresh)
  have htask : (Command.refresh i).task c s.handles s.screen =
      (h.refresh s.screen >>= fun k => pure [k], s.screen) := by
    rw [Command.task, Task.withHandle, hi]
    rfl
  exact ⟨hresult, step_of_look htask (Report.result_bind_of_ok hresult)⟩

/-- A device that always shows the same hierarchy. -/
def still (dump : Text) : Channel Unit where
  dump device := (.ok (some dump), device)
  perform _ device := (.ok .null, device)

/-- A dump of two nodes that show the same text. -/
def nestedDump : Text := "<h text=\"a\"><n text=\"a\"/></h>".toList

/-- The selector of both. -/
def both : Selector := ⟨[⟨.text, .equals, ['a'], by decide⟩], none⟩

theorem both_isWritable : both.IsWritable := by
  refine ⟨?_, ?_⟩
  · intro k hk
    cases hk
  · intro p hp
    obtain rfl := List.mem_singleton.mp hp
    decide

/-- The selector finds the root and the node in it, and below the root the node in it. -/
theorem exists_nested : ∃ (s : Snapshot) (root n : Node),
    (Snapshot.build 1 (some nestedDump)).result = .ok s ∧ root.snapshot = s ∧ n.snapshot = s ∧
      (s.findOne .path (.selector both) Scope.document).result = .ok root ∧
      (s.findChildren .path (.selector both) root).result = .ok [n] := by
  have hbuild : (Snapshot.build 1 (some nestedDump)).result.toOption.any (fun s =>
      decide (s.size < Binary64.exactLimit) &&
        (decide (s.matching both none = [[], [0]]) &&
          decide (s.matching both (some []) = [[0]]))) = true := by
    decide +kernel
  obtain ⟨s, hs, hcheck⟩ := Snapshot.exists_of_any_toOption hbuild
  simp only [Bool.and_eq_true, decide_eq_true_iff] at hcheck
  obtain ⟨hsize, hall, hbelow⟩ := hcheck
  have hsound : s.IsSound := Snapshot.isSound_of_build hs
  obtain ⟨root, hroot⟩ := Option.isSome_iff_exists.mp
    (Snapshot.isSome_node?_of_matching (s := s) [] (by rw [hall]; decide))
  obtain ⟨n, hn⟩ := Option.isSome_iff_exists.mp
    (Snapshot.isSome_node?_of_matching (s := s) [0] (by rw [hall]; decide))
  obtain ⟨hrs, hrp, -⟩ := Snapshot.node?_eq_some_iff.mp hroot
  have hfound : (s.findAll .path (.selector both) ⟨(none : Option Path).map Path.address⟩).result =
      .ok [root, n] := by
    rw [Snapshot.findAll_selector hsound hsize both_isWritable (by simp) (by simp [both]), hall,
      List.filterMap_cons_some hroot, List.filterMap_cons_some hn]
    rfl
  have hchildren : (s.findAll .path (.selector both) ⟨(some []).map Path.address⟩).result =
      .ok [n] := by
    rw [Snapshot.findAll_selector hsound hsize both_isWritable (by simp [hroot]) (by simp [both]),
      hbelow, List.filterMap_cons_some hn]
    rfl
  refine ⟨s, root, n, hs, hrs, (Snapshot.node?_eq_some_iff.mp hn).1, ?_, ?_⟩
  · exact Snapshot.findOne_eq_ok_iff.mpr ⟨[root, n], hfound, rfl⟩
  · refine Snapshot.findChildren_of_findAll hrs (by simp) (by simp) ?_
    rw [hrp]
    exact hchildren

/-- The second node, found below the first one: its lookup goes through that of the first. -/
theorem refresh_of_reachable_nested :
    ∃ (s : Session Unit) (h : Handle) (q : Query), Reachable (still nestedDump) s ∧
      s.handles[1]? = some h ∧ h.lookup = some (.under (.top q 0) q 0) ∧
      (((Lookup.top q 0).under q 0).resolve h.node.snapshot).result = .ok h.node ∧
      (h.refresh s.screen).result = .ok h ∧
      (s.step (still nestedDump) (.refresh 1)).2 = ⟨s.screen, s.handles ++ [h]⟩ := by
  obtain ⟨s, root, n, hs, hrs, hns, hroot, hchildren⟩ := exists_nested
  -- the screen, and the two handles that are found on it one after the other
  obtain ⟨screen, hscreen⟩ : ∃ screen : Screen Unit, screen = ⟨true, s, 2, (), []⟩ := ⟨_, rfl⟩
  obtain ⟨first, hfirst⟩ : ∃ h : Handle, h = ⟨root, some (.top (.selector both) 0)⟩ := ⟨_, rfl⟩
  obtain ⟨second, hsecond⟩ : ∃ h : Handle,
      h = ⟨n, some (.under (.top (.selector both) 0) (.selector both) 0)⟩ := ⟨_, rfl⟩
  have hstart : (Screen.start (still nestedDump) true 1 () (some nestedDump)).1.result =
      .ok screen := by
    rw [hscreen]
    exact Report.result_bind_of_ok hs
  have helement : (screen.getElement (.selector both)).result = .ok first := by
    rw [hscreen, hfirst]
    exact Report.result_bind_of_ok hroot
  have hfresh : first.fresh screen = .ok root := by
    rw [Handle.fresh_eq_ok_iff, Handle.isStale_eq_false_iff, hscreen, hfirst]
    exact ⟨congrArg Snapshot.version hrs.symm, rfl⟩
  have hbelow : (first.children screen (.selector both)).result = .ok [second] := by
    rw [← hrs] at hchildren
    rw [Handle.children, hfresh, Report.result_bind_of_ok rfl, Report.result_bind_of_ok hchildren,
      hfirst, hsecond]
    rfl
  have hstale : second.isStale screen = false := by
    rw [Handle.isStale_eq_false_iff, hscreen, hsecond]
    exact congrArg Snapshot.version hns.symm
  have h₁ := (Reachable.start hstart).step (.element (.query (.selector both)))
  rw [step_of_look rfl (Report.result_bind_of_ok helement)] at h₁
  have h₂ := h₁.step (.children 0 (.query (.selector both)))
  rw [step_of_look rfl hbelow] at h₂
  obtain ⟨hresolve, hrefresh⟩ := refresh_of_reachable h₂ (i := 1) rfl
  rw [hsecond] at hresolve
  exact ⟨_, second, _, h₂, rfl, by rw [hsecond], by rw [hsecond]; exact hresolve _ rfl,
    hrefresh hstale⟩

end Session

end UiTree
