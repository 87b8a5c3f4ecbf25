import UiTree.Proofs.Screen.Run

/-!
# UiTree.Proofs.Screen.Staleness -- which handles are stale, over whole runs

Whether a handle is stale is read off versions, but it means that its snapshot is not the current
one. The two agree because no version is used twice: not by this screen, not by another one, and not
by a load that fails.

* **Invariant.** `Session.Within`: the current snapshot and those of the handles are among the
  snapshots that were built. With `version_built` this tells them apart by their versions.
* **Main statement.** `Session.staleness_of_run`: a handle is fresh exactly when its snapshot is the
  current one, stays stale once it is stale, and the version moves only when a load or an update
  succeeds.
-/

namespace UiTree

namespace Session

variable {σ : Type} {c : Channel σ} {s : Session σ} {t : Turn}

/-- All snapshots that were built, from the first one of a new screen on. -/
def snapshots (c : Channel σ) (ts : List Turn) (first : Screen σ) : List Snapshot :=
  first.current :: built c ts ⟨first, []⟩

/-- The current snapshot and those of the handles are among the given ones. -/
structure Within (s : Session σ) (known : List Snapshot) : Prop where
  current : s.screen.current ∈ known
  handles : ∀ h ∈ s.handles, h.node.snapshot ∈ known

/-! ## One turn -/

/-- The handles after a turn: those before it, and new ones of the current snapshot. -/
theorem Coherent.mem_handles_turn (hs : s.Coherent) {h : Handle}
    (hmem : h ∈ (turn c t s).2.handles) :
    h ∈ s.handles ∨ h.node.snapshot = s.screen.current := by
  by_cases ht : ∃ k, t = .command k
  · obtain ⟨k, rfl⟩ := ht
    rcases mem_handles_step hmem with hold | ⟨hy, -⟩
    · exact .inl hold
    · exact .inr (hs.foundIn_of_yields hy).snapshot
  · rw [turn_of_question s (not_exists.mp ht)] at hmem
    exact .inl hmem

theorem Within.turn {known : List Snapshot} (hw : s.Within known) (hs : s.Coherent) (t : Turn) :
    (turn c t s).2.Within (known ++ (t.built? c s.screen).toList) := by
  refine ⟨?_, ?_⟩
  · cases advance_turn c t s with
    | stay built current next failed =>
        rw [current]
        exact List.mem_append_left _ hw.current
    | elsewhere built other version current next =>
        rw [current]
        exact List.mem_append_left _ hw.current
    | renew built own done version current next =>
        rw [current, built]
        exact List.mem_append_right _ (List.mem_singleton_self _)
  · intro h hmem
    rcases hs.mem_handles_turn hmem with hold | hnew
    · exact List.mem_append_left _ (hw.handles h hold)
    · rw [hnew]
      exact List.mem_append_left _ hw.current

/-- A handle that is stale stays so: the new current snapshot, if there is one, is newer than all
that were built before. -/
theorem isStale_turn_of_older (t : Turn) {h : Handle} (holder : h.version < s.screen.nextVersion)
    (hstale : h.isStale s.screen = true) : h.isStale (turn c t s).2.screen = true := by
  have same : (turn c t s).2.screen.current = s.screen.current →
      h.isStale (turn c t s).2.screen = true := by
    intro hcurrent
    rw [Handle.isStale, Screen.version, hcurrent]
    exact hstale
  cases advance_turn c t s with
  | stay built current next failed => exact same current
  | elsewhere built other version current next => exact same current
  | renew built own done version current next =>
      rw [Handle.isStale, bne_iff_ne, Screen.version, current, version]
      omega

theorem nextVersion_le_turn (c : Channel σ) (t : Turn) (s : Session σ) :
    s.screen.nextVersion ≤ (turn c t s).2.screen.nextVersion := by
  cases advance_turn c t s with
  | stay built current next failed => omega
  | elsewhere built other version current next => omega
  | renew built own done version current next => omega

/-- A load or an update that succeeds moves the version on. -/
theorem Coherent.version_lt_turn (hs : s.Coherent) (own : t.renews = true) {ks : List Handle}
    (hdone : (turn c t s).1.result = .ok ks) :
    s.screen.version < (turn c t s).2.screen.version := by
  cases advance_turn c t s with
  | stay built current next failed =>
      obtain ⟨e, he⟩ := failed own
      rw [he] at hdone
      cases hdone
  | elsewhere built other version current next =>
      rw [other] at own
      cases own
  | renew built own done version current next =>
      have hbelow : s.screen.version < s.screen.nextVersion := hs.current
      rw [Screen.version, Screen.version, current, version]
      exact hbelow

/-- A load or an update that fails uses no version. -/
theorem nextVersion_turn (own : t.renews = true) {e : Fault}
    (hfail : (turn c t s).1.result = .error e) :
    (turn c t s).2.screen.nextVersion = s.screen.nextVersion := by
  cases advance_turn c t s with
  | stay built current next failed => exact next
  | elsewhere built other version current next =>
      rw [other] at own
      cases own
  | renew built own done version current next =>
      obtain ⟨ks, hks⟩ := done
      rw [hfail] at hks
      cases hks

/-- A turn that fails produces nothing. -/
theorem handles_turn_of_error {e : Fault} (hfail : (turn c t s).1.result = .error e) :
    (turn c t s).2.handles = s.handles := by
  rw [handles_turn, produced, hfail]
  exact List.append_nil _

/-- Why a load or an update fails: the text is no hierarchy, or the device gave none. -/
theorem fault_of_renews (own : t.renews = true) {e : Fault}
    (hfail : (turn c t s).1.result = .error e) :
    (∃ why, e = .dump why) ∨
      t = .command .update ∧ (c.dump s.screen.device).1 = .error e := by
  -- a load fails as the build of its snapshot does
  have refused : ∀ {source : Option Text} {s₁ : Screen σ},
      t.task c s.handles s.screen = Task.silent (Screen.load source) s₁ → ∃ why, e = .dump why := by
    intro source s₁ htask
    have hresult := (turn_silent htask).1
    cases hbuild : (Snapshot.build s₁.nextVersion source).result with
    | ok n =>
        rw [hfail, (Screen.load_of_ok hbuild).1] at hresult
        cases hresult
    | error e' =>
        rw [hfail, (Screen.load_of_error hbuild).1] at hresult
        cases hresult
        exact Snapshot.exists_dump_of_build hbuild
  cases t with
  | command k =>
      cases k with
      | load source => exact .inl (refused rfl)
      | update =>
          cases hdump : (c.dump s.screen.device).1 with
          | ok source => exact .inl (refused (Task.silent_congr (Screen.update_of_ok hdump)))
          | error e' =>
              have hresult := (turn_silent (c := c) (t := .command .update) (s := s) rfl).1
              rw [hfail, (Screen.update_of_error hdump).1] at hresult
              cases hresult
              exact .inr ⟨rfl, rfl⟩
      | _ => cases own
  | _ => cases own

/-! ## Whole runs -/

theorem Within.run {known : List Snapshot} (hw : s.Within known) (hs : Reachable c s)
    (ts : List Turn) : (run c ts s).Within (known ++ built c ts s) := by
  induction ts generalizing s known with
  | nil =>
      rw [built, List.append_nil]
      exact hw
  | cons t ts ih =>
      rw [built, ← List.append_assoc]
      exact ih (hw.turn (coherent_of_reachable hs) t) (reachable_turn hs t)

theorem isStale_run_of_older {h : Handle} (holder : h.version < s.screen.nextVersion)
    (hstale : h.isStale s.screen = true) (ts : List Turn) :
    h.isStale (run c ts s).screen = true := by
  induction ts generalizing s with
  | nil => exact hstale
  | cons t ts ih =>
      apply ih
      · exact Nat.lt_of_lt_of_le holder (nextVersion_le_turn c t s)
      · exact isStale_turn_of_older t holder hstale

theorem isStale_run (hs : Reachable c s) {h : Handle} (hmem : h ∈ s.handles)
    (hstale : h.isStale s.screen = true) (ts : List Turn) :
    h.isStale (run c ts s).screen = true :=
  isStale_run_of_older ((coherent_of_reachable hs).older h hmem) hstale ts

/-- A handle with the current version is one of the current snapshot, and the other way round. -/
theorem Coherent.isStale_eq_false_iff (hs : s.Coherent) {h : Handle} (hmem : h ∈ s.handles) :
    h.isStale s.screen = false ↔ h.node.snapshot = s.screen.current := by
  constructor
  · exact hs.fresh h hmem
  · intro heq
    rw [Handle.isStale_eq_false_iff, Handle.version, heq, Screen.version]

/-- **Staleness over whole runs.** Let any turns be taken on a new screen, succeeding or failing,
and let `s` be what they lead to.

The snapshots that were built have consecutive versions, and every snapshot of the session is one of
them. A handle is fresh exactly when its snapshot is the current one, and once stale it is stale
ever after. The version moves on with every load or update that succeeds, and with nothing else. A
load or an update that fails leaves the current snapshot, the handles, their states and the next
version as they are, so that the snapshots built later are numbered as if it had not been tried. -/
theorem staleness_of_run {strict : Bool} {version : Nat} {device : σ} {source : Option Text}
    {first : Screen σ} (hstart : (Screen.start c strict version device source).1.result = .ok first)
    (ts : List Turn) (hrun : run c ts ⟨first, []⟩ = s) :
    (snapshots c ts first).map Snapshot.version =
        List.range' version (snapshots c ts first).length ∧
      s.screen.nextVersion = version + (snapshots c ts first).length ∧
      s.Within (snapshots c ts first) ∧
      (∀ h ∈ s.handles, (h.isStale s.screen = false ↔ h.node.snapshot = s.screen.current) ∧
        (h.isStale s.screen = true →
          ∀ later, h.isStale (run c later s).screen = true)) ∧
      (∀ t, t.renews = true → (∃ hs, (turn c t s).1.result = .ok hs) →
        s.screen.version < (turn c t s).2.screen.version) ∧
      (∀ t, t.renews = false ∨ (∃ e, (turn c t s).1.result = .error e) →
        (turn c t s).2.screen.version = s.screen.version) ∧
      (∀ t e, t.renews = true → (turn c t s).1.result = .error e →
        ((∃ why, e = .dump why) ∨
          t = .command .update ∧ (c.dump s.screen.device).1 = .error e) ∧
        (turn c t s).2.screen.current = s.screen.current ∧
        (turn c t s).2.handles = s.handles ∧
        (∀ h : Handle, h.isStale (turn c t s).2.screen = h.isStale s.screen) ∧
        (turn c t s).2.screen.nextVersion = s.screen.nextVersion ∧
        ∀ later, (built c later (turn c t s).2).map Snapshot.version =
          List.range' s.screen.nextVersion (built c later (turn c t s).2).length) := by
  subst hrun
  have hnew : Reachable c ⟨first, []⟩ := .start hstart
  have hreach : Reachable c (run c ts ⟨first, []⟩) := reachable_run hnew ts
  have hs := coherent_of_reachable hreach
  obtain ⟨hversion, hnext, -⟩ := Screen.screen_of_start hstart
  obtain ⟨hversions, hcount⟩ := version_built c ts ⟨first, []⟩
  refine ⟨?_, ?_, ?_, ?_, ?_, ?_, ?_⟩
  · rw [hnext] at hversions
    rw [snapshots, List.map_cons, hversions, List.length_cons, List.range'_succ]
    exact congrArg (· :: _) hversion
  · rw [hcount, hnext, snapshots, List.length_cons]
    omega
  · have hw : (⟨first, []⟩ : Session σ).Within [first.current] :=
      ⟨List.mem_singleton_self _, List.forall_mem_nil _⟩
    exact hw.run hnew ts
  · intro h hmem
    exact ⟨hs.isStale_eq_false_iff hmem, isStale_run hreach hmem⟩
  · intro t own hdone
    obtain ⟨ks, hks⟩ := hdone
    exact hs.version_lt_turn own hks
  · intro t hother
    exact congrArg Snapshot.version (current_turn hother)
  · intro t e own hfail
    have hcurrent := current_turn (.inr ⟨e, hfail⟩)
    have hsame := nextVersion_turn own hfail
    refine ⟨fault_of_renews own hfail, hcurrent, handles_turn_of_error hfail, ?_, hsame, ?_⟩
    · intro h
      rw [Handle.isStale, Handle.isStale, Screen.version, Screen.version, hcurrent]
    · intro later
      rw [← hsame]
      exact (version_built c later _).1

/-- A handle is found, and a load of no text fails; then an update succeeds, with the version that
the load did not use. The handle is fresh until then and stale ever after. -/
theorem staleness_of_run_nested :
    ∃ (first : Screen Unit) (h : Handle) (s₁ s₂ : Session Unit),
      (Screen.start (still nestedDump) true 1 () (some nestedDump)).1.result = .ok first ∧
        run (still nestedDump)
          [.command (.element (.query (.selector both))), .command (.load none)]
          ⟨first, []⟩ = s₁ ∧
        run (still nestedDump)
          [.command (.element (.query (.selector both))), .command (.load none), .command .update]
          ⟨first, []⟩ = s₂ ∧
        s₁.handles = [h] ∧ s₁.screen.nextVersion = 2 ∧ h.isStale s₁.screen = false ∧
        s₂.handles = [h] ∧ s₂.screen.version = 2 ∧ h.isStale s₂.screen = true ∧
        ∀ later, h.isStale (run (still nestedDump) later s₂).screen = true := by
  obtain ⟨first, root, n, hbuild, hroot, -, hfound, -⟩ := exists_nested
  obtain ⟨next, hnext, -⟩ := Snapshot.exists_of_any_toOption
    (r := (Snapshot.build 2 (some nestedDump)).result) (f := fun _ => true) (by decide +kernel)
  -- the screen before and after the update, and the handle
  obtain ⟨screen, hscreen⟩ : ∃ screen : Screen Unit, screen = ⟨true, first, 2, (), []⟩ := ⟨_, rfl⟩
  obtain ⟨newer, hnewer⟩ : ∃ newer : Screen Unit, newer = ⟨true, next, 3, (), [.dump]⟩ := ⟨_, rfl⟩
  obtain ⟨h, hh⟩ : ∃ h : Handle, h = ⟨root, some (.top (.selector both) 0)⟩ := ⟨_, rfl⟩
  have hstart : (Screen.start (still nestedDump) true 1 () (some nestedDump)).1.result =
      .ok screen := by
    rw [hscreen]
    exact start_still hbuild
  have helement : (screen.getElement (.selector both)).result = .ok h := by
    rw [hscreen, hh]
    exact Report.result_bind_of_ok hfound
  have hlook : (turn (still nestedDump) (.command (.element (.query (.selector both))))
      ⟨screen, []⟩).2 = ⟨screen, [h]⟩ := by
    show (step (still nestedDump) (.element (.query (.selector both))) ⟨screen, []⟩).2 = _
    rw [step_of_look rfl (Report.result_bind_of_ok helement)]
    rfl
  have hload : (turn (still nestedDump) (.command (.load none)) ⟨screen, [h]⟩).2 =
      ⟨screen, [h]⟩ := by
    rw [(turn_silent rfl).2, (Screen.load_of_error (Snapshot.result_build _ _)).2]
  have hupdate : (turn (still nestedDump) (.command .update) ⟨screen, [h]⟩).2 =
      ⟨newer, [h]⟩ := by
    rw [hscreen, hnewer]
    exact turn_update_still hnext
  have hfresh : h.isStale screen = false := by
    rw [Handle.isStale_eq_false_iff, hscreen, hh]
    exact congrArg Snapshot.version hroot.symm
  have hstale : h.isStale newer = true := by
    have hversion : h.version = 1 := by
      rw [Handle.version, hh, hroot, Snapshot.version_of_build hbuild]
    rw [Handle.isStale, hversion, Screen.version, hnewer, Snapshot.version_of_build hnext]
    rfl
  have hrun₁ : run (still nestedDump)
      [.command (.element (.query (.selector both))), .command (.load none)] ⟨screen, []⟩ =
        ⟨screen, [h]⟩ := by
    rw [run, hlook, run, hload, run]
  have hrun₂ : run (still nestedDump)
      [.command (.element (.query (.selector both))), .command (.load none), .command .update]
      ⟨screen, []⟩ = ⟨newer, [h]⟩ := by
    rw [run, hlook, run, hload, run, hupdate, run]
  obtain ⟨-, -, -, hstates, -⟩ := staleness_of_run hstart _ hrun₂
  refine ⟨screen, h, _, _, hstart, hrun₁, hrun₂, rfl, ?_, hfresh, rfl, ?_, hstale, ?_⟩
  · rw [hscreen]
  · rw [hnewer]
    exact Snapshot.version_of_build hnext
  · exact (hstates h (List.mem_singleton_self h)).2 hstale

end Session

end UiTree
