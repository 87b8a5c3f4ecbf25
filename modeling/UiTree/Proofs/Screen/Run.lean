import UiTree.Proofs.Screen.Coherence

/-!
# UiTree.Proofs.Screen.Run -- runs of a session

A run is a list of **turns**, one after the other, whether they succeed or fail. A turn is a command
or a question: questions only look at the screen, or at a handle, and produce nothing.

* **Snapshots.** `Turn.built?` is the snapshot that a turn builds, for this screen or for another
  one, and `Session.built` lists those of a run.
* **Main statements.** `Advance` says once what a turn can do to the snapshots, and `advance_turn`
  that it does so. `reachable_run`: what a run leads to is reachable. `version_built`: the snapshots
  of a run have consecutive versions.
-/

namespace UiTree

/-- One turn of a user: a command, or a question about the screen or about the handle at a
position. -/
inductive Turn where
  | command (k : Command)
  | contains (w : Wanted)
  | hasText (text : Datum)
  | read (i : Nat)
  | bounds (i : Nat)

namespace Turn

variable {σ : Type}

/-- What a turn does. -/
def task (c : Channel σ) (hs : List Handle) : Turn → Task σ (List Handle)
  | command k => k.task c hs
  | contains w => Task.silent (Task.look fun s => do
    let q ← w.read s
    s.containsElement q)
  | hasText text => Task.silent (Task.look fun s => s.hasText text)
  | read i => Task.withHandle hs i fun h => Task.silent (Task.look fun s => Report.of (h.fresh s))
  | bounds i =>
    Task.withHandle hs i fun h => Task.silent (Task.look fun s => Report.of (h.bounds? s))

/-- Is the turn a load or an update, which renew the current snapshot when they succeed? -/
def renews : Turn → Bool
  | command (.load _) => true
  | command .update => true
  | _ => false

/-- The snapshot that a turn builds, for this screen or for another one. -/
def built? (c : Channel σ) (s : Screen σ) : Turn → Option Snapshot
  | command (.load source) => (Snapshot.build s.nextVersion source).result.toOption
  | command .update =>
    (c.dump s.device).1.toOption.bind fun source =>
      (Snapshot.build s.nextVersion source).result.toOption
  | command (.elsewhere source) => (Snapshot.build s.nextVersion source).result.toOption
  | _ => none

end Turn

namespace Session

variable {σ : Type}

/-- One turn: its outcome, and the session that goes on after it. -/
def turn (c : Channel σ) (t : Turn) (s : Session σ) : Report (List Handle) × Session σ :=
  let (r, screen) := t.task c s.handles s.screen
  (r, ⟨screen, s.handles ++ produced r⟩)

/-- The session after some turns. -/
def run (c : Channel σ) : List Turn → Session σ → Session σ
  | [], s => s
  | t :: ts, s => run c ts (turn c t s).2

/-- The snapshots that are built during some turns, in order. -/
def built (c : Channel σ) : List Turn → Session σ → List Snapshot
  | [], _ => []
  | t :: ts, s => (t.built? c s.screen).toList ++ built c ts (turn c t s).2

theorem handles_turn (c : Channel σ) (t : Turn) (s : Session σ) :
    (turn c t s).2.handles = s.handles ++ produced (turn c t s).1 := rfl

theorem run_append (c : Channel σ) (ts us : List Turn) (s : Session σ) :
    run c (ts ++ us) s = run c us (run c ts s) := by
  induction ts generalizing s with
  | nil => rfl
  | cons t ts ih => exact ih _

theorem run_concat (c : Channel σ) (ts : List Turn) (t : Turn) (s : Session σ) :
    run c (ts ++ [t]) s = (turn c t (run c ts s)).2 := run_append c ts [t] s

/-! ## Questions -/

/-- A turn that silently runs a task: its handles stay what they are. -/
theorem turn_silent {α : Type} {c : Channel σ} {t : Turn} {s : Session σ} {u : Task σ α}
    {s₁ : Screen σ} (htask : t.task c s.handles s.screen = u.silent s₁) :
    (turn c t s).1.result = (u s₁).1.result.map (fun _ => []) ∧
      (turn c t s).2 = ⟨(u s₁).2, s.handles⟩ := by
  rw [turn, htask]
  dsimp only
  rw [Task.result_silent, Task.silent_snd, Task.produced_silent, List.append_nil]
  exact ⟨rfl, rfl⟩

/-- A question leaves the session as it is. -/
theorem turn_of_question {c : Channel σ} {t : Turn} (s : Session σ)
    (ht : ∀ k, t ≠ .command k) : (turn c t s).2 = s := by
  have quiet : ∀ {α : Type} {f : Screen σ → Report α},
      t.task c s.handles s.screen = (Task.look f).silent s.screen → (turn c t s).2 = s :=
    fun htask => (turn_silent htask).2
  have touch : ∀ {α : Type} {i : Nat} {f : Handle → Screen σ → Report α},
      t.task c s.handles s.screen =
        Task.withHandle s.handles i (fun h => (Task.look (f h)).silent) s.screen →
      (turn c t s).2 = s := by
    intro α i f htask
    rw [Task.withHandle] at htask
    cases hi : s.handles[i]? with
    | some h =>
        rw [hi] at htask
        exact quiet htask
    | none =>
        rw [hi] at htask
        rw [turn, htask]
        exact congrArg (Session.mk s.screen) (List.append_nil s.handles)
  cases t with
  | command k => exact absurd rfl (ht k)
  | contains w => exact quiet rfl
  | hasText text => exact quiet rfl
  | read i => exact touch rfl
  | bounds i => exact touch rfl

theorem reachable_turn {c : Channel σ} {s : Session σ} (h : Reachable c s) (t : Turn) :
    Reachable c (turn c t s).2 := by
  by_cases ht : ∃ k, t = .command k
  · obtain ⟨k, rfl⟩ := ht
    exact h.step k
  · rw [turn_of_question s (not_exists.mp ht)]
    exact h

/-- **What a run leads to is reachable.** -/
theorem reachable_run {c : Channel σ} {s : Session σ} (h : Reachable c s) (ts : List Turn) :
    Reachable c (run c ts s) := by
  induction ts generalizing s with
  | nil => exact h
  | cons t ts ih => exact ih (reachable_turn h t)

/-! ## Snapshots -/

/-- What a turn does to the snapshots: none is built, one is built for another screen, or one is
built that becomes the current one. A load or an update fails in the first case and only there. -/
inductive Advance (c : Channel σ) (t : Turn) (s : Session σ) : Prop where
  | stay (built : t.built? c s.screen = none)
      (current : (turn c t s).2.screen.current = s.screen.current)
      (next : (turn c t s).2.screen.nextVersion = s.screen.nextVersion)
      (failed : t.renews = true → ∃ e, (turn c t s).1.result = .error e)
  | elsewhere {n : Snapshot} (built : t.built? c s.screen = some n) (other : t.renews = false)
      (version : n.version = s.screen.nextVersion)
      (current : (turn c t s).2.screen.current = s.screen.current)
      (next : (turn c t s).2.screen.nextVersion = s.screen.nextVersion + 1)
  | renew {n : Snapshot} (built : t.built? c s.screen = some n) (own : t.renews = true)
      (done : ∃ hs, (turn c t s).1.result = .ok hs)
      (version : n.version = s.screen.nextVersion)
      (current : (turn c t s).2.screen.current = n)
      (next : (turn c t s).2.screen.nextVersion = s.screen.nextVersion + 1)

/-- A turn that loads a text, whether it was given or dumped. -/
theorem advance_load {c : Channel σ} {t : Turn} {s : Session σ} (source : Option Text)
    (s₁ : Screen σ) (own : t.renews = true)
    (hcurrent : s₁.current = s.screen.current) (hnext : s₁.nextVersion = s.screen.nextVersion)
    (hbuilt : t.built? c s.screen = (Snapshot.build s₁.nextVersion source).result.toOption)
    (htask : t.task c s.handles s.screen = Task.silent (Screen.load source) s₁) :
    Advance c t s := by
  obtain ⟨hresult, hturn⟩ := turn_silent htask
  cases hbuild : (Snapshot.build s₁.nextVersion source).result with
  | error e =>
      obtain ⟨hfailed, hsame⟩ := Screen.load_of_error hbuild
      rw [hfailed] at hresult
      rw [hsame] at hturn
      rw [hbuild] at hbuilt
      refine .stay hbuilt ?_ ?_ fun _ => ⟨e, hresult⟩
      · rw [hturn, ← hcurrent]
      · rw [hturn, ← hnext]
  | ok n =>
      obtain ⟨hdone, hmoved⟩ := Screen.load_of_ok hbuild
      rw [hdone] at hresult
      rw [hmoved] at hturn
      rw [hbuild] at hbuilt
      refine .renew hbuilt own ⟨_, hresult⟩ ?_ ?_ ?_
      · rw [Snapshot.version_of_build hbuild, hnext]
      · rw [hturn]
      · rw [hturn, ← hnext]

theorem advance_update (c : Channel σ) (s : Session σ) : Advance c (.command .update) s := by
  cases hdump : (c.dump s.screen.device).1 with
  | error e =>
      obtain ⟨hresult, hturn⟩ :=
        turn_silent (c := c) (t := .command .update) (s := s) (u := Screen.update c) rfl
      obtain ⟨hfailed, hsame⟩ := Screen.update_of_error hdump
      rw [hfailed] at hresult
      rw [hsame] at hturn
      refine .stay ?_ (by rw [hturn]; rfl) (by rw [hturn]; rfl) fun _ => ⟨e, hresult⟩
      rw [Turn.built?, hdump]
      rfl
  | ok source =>
      refine advance_load source (s.screen.dumped c) rfl rfl rfl ?_ ?_
      · rw [Turn.built?, hdump]
        rfl
      · exact Task.silent_congr (Screen.update_of_ok hdump)

theorem advance_elsewhere (c : Channel σ) (source : Option Text) (s : Session σ) :
    Advance c (.command (.elsewhere source)) s := by
  obtain ⟨-, hturn⟩ := turn_silent (c := c) (t := .command (.elsewhere source)) (s := s)
    (u := Screen.elsewhere source) rfl
  cases hbuild : (Snapshot.build s.screen.nextVersion source).result with
  | error e =>
      rw [Screen.elsewhere_of_error hbuild] at hturn
      refine .stay ?_ (by rw [hturn]) (by rw [hturn]) nofun
      rw [Turn.built?, hbuild]
      rfl
  | ok n =>
      rw [Screen.elsewhere_of_ok hbuild] at hturn
      refine .elsewhere ?_ rfl (Snapshot.version_of_build hbuild) (by rw [hturn]) (by rw [hturn])
      rw [Turn.built?, hbuild]
      rfl

/-- **What a turn does to the snapshots.** -/
theorem advance_turn (c : Channel σ) (t : Turn) (s : Session σ) : Advance c t s := by
  by_cases ht : ∃ k, t = .command k
  · obtain ⟨k, rfl⟩ := ht
    cases hk : k.builds with
    | false =>
        obtain ⟨hcurrent, hnext⟩ := k.stays_task c hk s.handles s.screen
        have hidle : (Turn.command k).built? c s.screen = none ∧
            (Turn.command k).renews = false := by
          cases k with
          | load source => cases hk
          | update => cases hk
          | elsewhere source => cases hk
          | _ => exact ⟨rfl, rfl⟩
        refine .stay hidle.1 hcurrent hnext ?_
        rw [hidle.2]
        exact nofun
    | true =>
        cases k with
        | load source => exact advance_load source s.screen rfl rfl rfl rfl rfl
        | update => exact advance_update c s
        | elsewhere source => exact advance_elsewhere c source s
        | _ => cases hk
  · have hsame := turn_of_question (c := c) s (not_exists.mp ht)
    have hidle : t.built? c s.screen = none ∧ t.renews = false := by
      cases t with
      | command k => exact absurd ⟨k, rfl⟩ ht
      | _ => exact ⟨rfl, rfl⟩
    refine .stay hidle.1 (by rw [hsame]) (by rw [hsame]) ?_
    rw [hidle.2]
    exact nofun

/-- Only a load or an update that succeeds replaces the current snapshot. -/
theorem current_turn {c : Channel σ} {t : Turn} {s : Session σ}
    (h : t.renews = false ∨ ∃ e, (turn c t s).1.result = .error e) :
    (turn c t s).2.screen.current = s.screen.current := by
  cases advance_turn c t s with
  | stay built current next failed => exact current
  | elsewhere built other version current next => exact current
  | renew built own done version current next =>
      obtain ⟨ks, hks⟩ := done
      rcases h with hother | ⟨e, he⟩
      · rw [own] at hother
        cases hother
      · rw [he] at hks
        cases hks

/-- **The snapshots of a run have consecutive versions**, from the next one on. -/
theorem version_built (c : Channel σ) (ts : List Turn) (s : Session σ) :
    (built c ts s).map Snapshot.version =
        List.range' s.screen.nextVersion (built c ts s).length ∧
      (run c ts s).screen.nextVersion = s.screen.nextVersion + (built c ts s).length := by
  induction ts generalizing s with
  | nil => exact ⟨rfl, rfl⟩
  | cons t ts ih =>
      obtain ⟨hversions, hnext⟩ := ih (turn c t s).2
      -- the first turn takes the next version, or none
      have one : ∀ {n : Snapshot}, t.built? c s.screen = some n →
          n.version = s.screen.nextVersion →
          (turn c t s).2.screen.nextVersion = s.screen.nextVersion + 1 →
          (built c (t :: ts) s).map Snapshot.version =
              List.range' s.screen.nextVersion (built c (t :: ts) s).length ∧
            (run c (t :: ts) s).screen.nextVersion =
              s.screen.nextVersion + (built c (t :: ts) s).length := by
        intro n hn hversion hmoved
        rw [hmoved] at hversions hnext
        rw [built, hn, run, hnext]
        simp only [Option.toList_some, List.singleton_append, List.map_cons, List.length_cons,
          List.range'_succ, hversions, hversion, true_and]
        omega
      cases advance_turn c t s with
      | stay hnone hcurrent hsame hfailed =>
          rw [hsame] at hversions hnext
          rw [built, hnone, run, hnext]
          exact ⟨hversions, rfl⟩
      | elsewhere hn hother hversion hcurrent hmoved => exact one hn hversion hmoved
      | renew hn hown hdone hversion hcurrent hmoved => exact one hn hversion hmoved

/-! ## A device that always shows the same hierarchy -/

theorem start_still {dump : Text} {first : Snapshot}
    (h : (Snapshot.build 1 (some dump)).result = .ok first) :
    (Screen.start (still dump) true 1 () (some dump)).1.result =
      .ok ⟨true, first, 2, (), []⟩ := Report.result_bind_of_ok h

/-- An update builds the same hierarchy again, with the next version. -/
theorem turn_update_still {dump : Text} {next : Snapshot} {s : Session Unit}
    (h : (Snapshot.build s.screen.nextVersion (some dump)).result = .ok next) :
    (turn (still dump) (.command .update) s).2 =
      ⟨⟨s.screen.strict, next, s.screen.nextVersion + 1, (), s.screen.sent ++ [.dump]⟩,
        s.handles⟩ := by
  have hload := (Screen.load_of_ok (s := s.screen.dumped (still dump)) h).2
  rw [(turn_silent rfl).2, Screen.update_of_ok rfl, hload]
  rfl

end Session

end UiTree
