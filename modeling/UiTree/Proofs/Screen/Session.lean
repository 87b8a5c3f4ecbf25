import UiTree.Proofs.Lookup
import UiTree.Screen

/-!
# UiTree.Proofs.Screen.Session -- a screen in use

A session is a screen with every handle that was produced on it so far. A `Command` is anything that
a user of the screen can do next: load or update it, look for nodes, act on a handle. Versions are
counted for all screens together, so a command `elsewhere` is there for the snapshots of the others.

* **Steps.** `step` runs one command; whether it fails or not, the session goes on from the state
  that the command left. `Reachable` is what any number of commands can lead to.
* **Main statements.** `change_step`: a step keeps the current snapshot or replaces it by one with
  the next version. `mem_handles_step`: a new handle was found on the screen as it was, by a command
  that leaves the screen alone.
-/

namespace UiTree

/-- What to look for: a query, or the text of a selector. -/
inductive Wanted where
  | query (q : Query)
  | text (t : Datum)

/-- The query for what is wanted, as a screen reads it. -/
def Wanted.read {σ : Type} (s : Screen σ) : Wanted → Report Query
  | .query q => pure q
  | .text t => do return .selector (← s.readSelector t)

/-- What can be done with a screen, and with the handle at a position among those produced. -/
inductive Command where
  | load (source : Option Text)
  | update
  | elsewhere (source : Option Text)
  | element (w : Wanted)
  | elements (w : Wanted)
  | node (a : Address)
  | children (i : Nat) (w : Wanted)
  | refresh (i : Nat)
  | tap (i : Nat)
  | longPress (i : Nat) (timeout : Datum)
  | inputText (i : Nat) (text interval : Datum)
  | clearText (i : Nat)
  | tapText (text : Datum) (index : Int)
  | waitForExists (selector : Selector) (timeout : Datum)
  | waitUntilGone (selector : Selector) (timeout : Datum)
  | waitForWindowUpdate (package timeout : Datum)

/-- A screen and the handles produced on it, oldest first. -/
structure Session (σ : Type) where
  screen : Screen σ
  handles : List Handle

namespace Task

variable {σ α : Type}

/-- A task with the handle at a position; nothing is done when there is none. -/
def withHandle (hs : List Handle) (i : Nat) (f : Handle → Task σ (List Handle)) :
    Task σ (List Handle) :=
  match hs[i]? with
  | some h => f h
  | none => pure []

/-- A task that gives no handles. -/
def silent (t : Task σ α) : Task σ (List Handle) := do
  let _ ← t
  return []

end Task

/-- A snapshot is built for another screen and uses the next version, if it can be built. -/
def Screen.elsewhere {σ : Type} (source : Option Text) : Task σ Unit := fun s =>
  let r := Snapshot.build s.nextVersion source
  match r.result with
  | .ok _ => (⟨r.events, .ok ()⟩, { s with nextVersion := s.nextVersion + 1 })
  | .error e => (⟨r.events, .error e⟩, s)

namespace Command

variable {σ : Type}

/-- What a command does; its result are the handles that it produces. -/
def task (c : Channel σ) (hs : List Handle) : Command → Task σ (List Handle)
  | load source => Task.silent (Screen.load source)
  | update => Task.silent (Screen.update c)
  | elsewhere source => Task.silent (Screen.elsewhere source)
  | element w => Task.look fun s => do
    let q ← w.read s
    let h ← s.getElement q
    return [h]
  | elements w => Task.look fun s => do
    let q ← w.read s
    s.getElements q
  | node a => Task.look fun s => do
    let n ← Report.of (s.current.nodeAt a)
    return [⟨n, none⟩]
  | children i w => Task.withHandle hs i fun h => Task.look fun s => do
    let q ← w.read s
    h.children s q
  | refresh i => Task.withHandle hs i fun h => Task.look fun s => do
    let h' ← h.refresh s
    return [h']
  | tap i => Task.withHandle hs i fun h => Task.silent (h.tap c)
  | longPress i timeout => Task.withHandle hs i fun h => Task.silent (h.longPress c timeout)
  | inputText i text interval =>
    Task.withHandle hs i fun h => Task.silent (h.inputText c text interval)
  | clearText i => Task.withHandle hs i fun h => Task.silent (h.clearText c)
  | tapText text index => Task.silent (Screen.tapText c text index)
  | waitForExists sel timeout => Task.silent (Screen.waitForExists c sel timeout)
  | waitUntilGone sel timeout => Task.silent (Screen.waitUntilGone c sel timeout)
  | waitForWindowUpdate package timeout =>
    Task.silent (Screen.waitForWindowUpdate c package timeout)

end Command

namespace Session

variable {σ : Type}

/-- The handles that an outcome gives; a failure gives none. -/
def produced (r : Report (List Handle)) : List Handle := r.result.toOption.getD []

/-- One command: its outcome, and the session that goes on after it. -/
def step (c : Channel σ) (k : Command) (s : Session σ) : Report (List Handle) × Session σ :=
  let (r, screen) := k.task c s.handles s.screen
  (r, ⟨screen, s.handles ++ produced r⟩)

/-- The sessions that commands lead to from a new screen, whether they succeed or fail. -/
inductive Reachable (c : Channel σ) : Session σ → Prop where
  | start {strict : Bool} {version : Nat} {device : σ} {source : Option Text} {s : Screen σ}
      (h : (Screen.start c strict version device source).1.result = .ok s) : Reachable c ⟨s, []⟩
  | step {s : Session σ} (h : Reachable c s) (k : Command) : Reachable c (s.step c k).2

end Session

/-! ## What tasks do to the snapshots -/

/-- How a command leaves the snapshots of a screen: as they were, with a version used by another
screen, or with a new current one. -/
inductive Screen.Change {σ : Type} (s t : Screen σ) : Prop where
  | stay (current : t.current = s.current) (next : t.nextVersion = s.nextVersion)
  | elsewhere (current : t.current = s.current) (next : t.nextVersion = s.nextVersion + 1)
  | move (current : t.current.version = s.nextVersion) (next : t.nextVersion = s.nextVersion + 1)

namespace Screen.Change

variable {σ : Type} {s t : Screen σ}

theorem nextVersion_le (h : s.Change t) : s.nextVersion ≤ t.nextVersion := by
  cases h <;> omega

/-- The current version stays below the next one. -/
theorem version_lt (h : s.Change t) (hs : s.version < s.nextVersion) :
    t.version < t.nextVersion := by
  unfold Screen.version at hs ⊢
  cases h with
  | stay hcurrent hnext => rw [hcurrent, hnext]; exact hs
  | elsewhere hcurrent hnext => rw [hcurrent]; omega
  | move hcurrent hnext => omega

/-- Unless the version is a new one, the snapshot is what it was. -/
theorem current_eq (h : s.Change t) (ht : t.version < s.nextVersion) : t.current = s.current := by
  unfold Screen.version at ht
  cases h with
  | stay hcurrent hnext => exact hcurrent
  | elsewhere hcurrent hnext => exact hcurrent
  | move hcurrent hnext => omega

end Screen.Change

namespace Task

variable {σ α β : Type}

/-- Whatever the task does, the current snapshot and the next version stay what they are. -/
def Stays (t : Task σ α) : Prop :=
  ∀ s, (t s).2.current = s.current ∧ (t s).2.nextVersion = s.nextVersion

theorem stays_look (f : Screen σ → Report α) : (look f).Stays := fun _ => ⟨rfl, rfl⟩

theorem stays_pure (a : α) : (pure a : Task σ α).Stays := stays_look _

theorem stays_send (c : Channel σ) (a : Action) : (Screen.send c a).Stays := fun _ => ⟨rfl, rfl⟩

theorem Stays.bind {t : Task σ α} {f : α → Task σ β} (ht : t.Stays) (hf : ∀ a, (f a).Stays) :
    (t >>= f).Stays := by
  intro s
  show (Task.bind t f s).2.current = _ ∧ (Task.bind t f s).2.nextVersion = _
  unfold Task.bind
  dsimp only
  split
  · next a _ => exact ⟨((hf a _).1).trans (ht s).1, ((hf a _).2).trans (ht s).2⟩
  · exact ht s

theorem change_of_stays {t : Task σ α} (h : t.Stays) (s : Screen σ) : s.Change (t s).2 :=
  .stay (h s).1 (h s).2

theorem silent_snd (t : Task σ α) (s : Screen σ) : (silent t s).2 = (t s).2 := by
  show (Task.bind t _ s).2 = _
  unfold Task.bind
  dsimp only
  split <;> rfl

theorem produced_silent (t : Task σ α) (s : Screen σ) :
    Session.produced (silent t s).1 = [] := by
  show Session.produced (Task.bind t _ s).1 = _
  unfold Task.bind
  dsimp only
  split <;> rfl

/-- The outcome of a task without its value. -/
theorem result_silent (t : Task σ α) (s : Screen σ) :
    (silent t s).1.result = (t s).1.result.map fun _ => [] := by
  show (Task.bind t _ s).1.result = _
  unfold Task.bind
  dsimp only
  split
  · next a ha =>
    rw [ha]
    rfl
  · next e he =>
    rw [he]
    rfl

theorem silent_congr {t u : Task σ α} {s₁ s₂ : Screen σ} (h : t s₁ = u s₂) :
    silent t s₁ = silent u s₂ := by
  show Task.bind t (fun _ => pure []) s₁ = Task.bind u (fun _ => pure []) s₂
  unfold Task.bind
  rw [h]

theorem Stays.silent {t : Task σ α} (h : t.Stays) : (silent t).Stays := by
  intro s
  rw [silent_snd]
  exact h s

/-- What holds of a task with every handle, and of doing nothing, holds of the task with the handle
at a position. -/
theorem withHandle_of_forall {P : Task σ (List Handle) → Prop} {hs : List Handle} {i : Nat}
    {f : Handle → Task σ (List Handle)} (hnone : P (pure [])) (hf : ∀ h ∈ hs, P (f h)) :
    P (withHandle hs i f) := by
  unfold withHandle
  cases hi : hs[i]? with
  | none => exact hnone
  | some h => exact hf h (List.mem_of_getElem? hi)

theorem stays_withHandle {hs : List Handle} {i : Nat} {f : Handle → Task σ (List Handle)}
    (hf : ∀ h, (f h).Stays) : (withHandle hs i f).Stays :=
  withHandle_of_forall (stays_pure []) fun h _ => hf h

end Task

/-! ## What commands do to them -/

section Actions

variable {σ : Type} (c : Channel σ)

theorem Handle.stays_tap (h : Handle) : (h.tap c).Stays :=
  (Task.stays_look _).bind fun _ => (Task.stays_look _).bind fun _ => Task.stays_send c _

theorem Handle.stays_longPress (h : Handle) (timeout : Datum) : (h.longPress c timeout).Stays :=
  (Task.stays_look _).bind fun _ => Task.stays_send c _

theorem Handle.stays_inputText (h : Handle) (text interval : Datum) :
    (h.inputText c text interval).Stays :=
  (h.stays_tap c).bind fun _ => Task.stays_send c _

theorem Handle.stays_clearText (h : Handle) : (h.clearText c).Stays :=
  (h.stays_tap c).bind fun _ => Task.stays_send c _

theorem Screen.stays_tapText (text : Datum) (index : Int) :
    (Screen.tapText c text index).Stays := by
  refine (Task.stays_look _).bind fun _ => (Task.stays_look _).bind fun hs => ?_
  split
  · exact Task.stays_look _
  · split
    · next h _ => exact h.stays_tap c
    · exact Task.stays_look _

theorem Screen.stays_waitForExists (sel : Selector) (timeout : Datum) :
    (Screen.waitForExists c sel timeout).Stays :=
  (Task.stays_send c _).bind fun _ => Task.stays_pure _

theorem Screen.stays_waitUntilGone (sel : Selector) (timeout : Datum) :
    (Screen.waitUntilGone c sel timeout).Stays :=
  (Task.stays_send c _).bind fun _ => Task.stays_pure _

theorem Screen.stays_waitForWindowUpdate (package timeout : Datum) :
    (Screen.waitForWindowUpdate c package timeout).Stays :=
  (Task.stays_send c _).bind fun _ => Task.stays_pure _

/-- Does the command try to build a snapshot? -/
def Command.builds : Command → Bool
  | load _ => true
  | update => true
  | elsewhere _ => true
  | _ => false

/-- A command that builds no snapshot leaves the snapshots as they are. -/
theorem Command.stays_task {k : Command} (hk : k.builds = false) (hs : List Handle) :
    (k.task c hs).Stays := by
  have touch : ∀ {i : Nat} {α : Type} {t : Handle → Task σ α}, (∀ h, (t h).Stays) →
      (Task.withHandle hs i fun h => (t h).silent).Stays :=
    fun ht => Task.stays_withHandle fun h => (ht h).silent
  cases k with
  | load source => cases hk
  | update => cases hk
  | elsewhere source => cases hk
  | element w => exact Task.stays_look _
  | elements w => exact Task.stays_look _
  | node a => exact Task.stays_look _
  | children i w => exact Task.stays_withHandle fun h => Task.stays_look _
  | refresh i => exact Task.stays_withHandle fun h => Task.stays_look _
  | tap i => exact touch fun h => h.stays_tap c
  | longPress i timeout => exact touch fun h => h.stays_longPress c timeout
  | inputText i text interval => exact touch fun h => h.stays_inputText c text interval
  | clearText i => exact touch fun h => h.stays_clearText c
  | tapText text index => exact (Screen.stays_tapText c text index).silent
  | waitForExists sel timeout => exact (Screen.stays_waitForExists c sel timeout).silent
  | waitUntilGone sel timeout => exact (Screen.stays_waitUntilGone c sel timeout).silent
  | waitForWindowUpdate package timeout =>
      exact (Screen.stays_waitForWindowUpdate c package timeout).silent

end Actions

namespace Screen

variable {σ : Type}

/-- A new screen has the first snapshot with the version that it was given, and nothing was sent but
what the start sends. -/
theorem screen_of_start {c : Channel σ} {strict : Bool} {version : Nat} {device : σ}
    {source : Option Text} {s : Screen σ}
    (h : (start c strict version device source).1.result = .ok s) :
    s.version = version ∧ s.nextVersion = version + 1 ∧
      s.sent = (start c strict version device source).2 := by
  cases source with
  | some t =>
      obtain ⟨next, hnext, heq⟩ := Report.result_bind_eq_ok_iff.mp h
      cases heq
      exact ⟨Snapshot.version_of_build hnext, rfl, rfl⟩
  | none =>
      obtain ⟨t, -, h⟩ := Report.result_bind_eq_ok_iff.mp h
      obtain ⟨next, hnext, heq⟩ := Report.result_bind_eq_ok_iff.mp h
      cases heq
      exact ⟨Snapshot.version_of_build hnext, rfl, rfl⟩

/-- The first version of a new screen is below the next one. -/
theorem version_lt_of_start {c : Channel σ} {strict : Bool} {version : Nat} {device : σ}
    {source : Option Text} {s : Screen σ}
    (h : (start c strict version device source).1.result = .ok s) : s.version < s.nextVersion := by
  obtain ⟨hversion, hnext, -⟩ := screen_of_start h
  omega

/-! ### Loads and updates -/

/-- A load that succeeds makes the new snapshot the current one. -/
theorem load_of_ok {source : Option Text} {s : Screen σ} {next : Snapshot}
    (h : (Snapshot.build s.nextVersion source).result = .ok next) :
    (load source s).1.result = .ok next ∧
      (load source s).2 = { s with current := next, nextVersion := s.nextVersion + 1 } := by
  unfold load
  dsimp only
  rw [h]
  exact ⟨rfl, rfl⟩

/-- A load that fails leaves everything as it was. -/
theorem load_of_error {source : Option Text} {s : Screen σ} {e : Fault}
    (h : (Snapshot.build s.nextVersion source).result = .error e) :
    (load source s).1.result = .error e ∧ (load source s).2 = s := by
  unfold load
  dsimp only
  rw [h]
  exact ⟨rfl, rfl⟩

/-- The screen after a dump was asked for. -/
def dumped (c : Channel σ) (s : Screen σ) : Screen σ :=
  { s with device := (c.dump s.device).2, sent := s.sent ++ [.dump] }

/-- An update is a load of what the device dumps. -/
theorem update_of_ok {c : Channel σ} {s : Screen σ} {source : Option Text}
    (h : (c.dump s.device).1 = .ok source) : update c s = load source (s.dumped c) := by
  unfold update
  dsimp only
  rw [h]
  rfl

theorem update_of_error {c : Channel σ} {s : Screen σ} {e : Fault}
    (h : (c.dump s.device).1 = .error e) :
    (update c s).1.result = .error e ∧ (update c s).2 = s.dumped c := by
  unfold update
  dsimp only
  rw [h]
  exact ⟨rfl, rfl⟩

theorem change_load (source : Option Text) (s : Screen σ) : s.Change (load source s).2 := by
  cases hbuild : (Snapshot.build s.nextVersion source).result with
  | error e =>
      rw [(load_of_error hbuild).2]
      exact .stay rfl rfl
  | ok next =>
      rw [(load_of_ok hbuild).2]
      exact .move (Snapshot.version_of_build hbuild) rfl

theorem change_update (c : Channel σ) (s : Screen σ) : s.Change (update c s).2 := by
  cases hdump : (c.dump s.device).1 with
  | error e =>
      rw [(update_of_error hdump).2]
      exact .stay rfl rfl
  | ok source =>
      rw [update_of_ok hdump]
      -- sending the dump touches nothing that a load looks at
      cases change_load source (s.dumped c) with
      | stay hcurrent hnext => exact .stay hcurrent hnext
      | elsewhere hcurrent hnext => exact .elsewhere hcurrent hnext
      | move hcurrent hnext => exact .move hcurrent hnext

/-- A snapshot of another screen uses a version and changes nothing else. -/
theorem elsewhere_of_ok {source : Option Text} {s : Screen σ} {n : Snapshot}
    (h : (Snapshot.build s.nextVersion source).result = .ok n) :
    (elsewhere source s).2 = { s with nextVersion := s.nextVersion + 1 } := by
  unfold elsewhere
  dsimp only
  rw [h]

theorem elsewhere_of_error {source : Option Text} {s : Screen σ} {e : Fault}
    (h : (Snapshot.build s.nextVersion source).result = .error e) :
    (elsewhere source s).2 = s := by
  unfold elsewhere
  dsimp only
  rw [h]

theorem change_elsewhere (source : Option Text) (s : Screen σ) :
    s.Change (elsewhere source s).2 := by
  cases hbuild : (Snapshot.build s.nextVersion source).result with
  | error e =>
      rw [elsewhere_of_error hbuild]
      exact .stay rfl rfl
  | ok n =>
      rw [elsewhere_of_ok hbuild]
      exact .elsewhere rfl rfl

end Screen

namespace Session

variable {σ : Type}

/-- **Every step keeps the current snapshot, or replaces it by one with the next version.** -/
theorem change_step (c : Channel σ) (k : Command) (s : Session σ) :
    s.screen.Change (s.step c k).2.screen := by
  show s.screen.Change (k.task c s.handles s.screen).2
  cases hk : k.builds with
  | false => exact Task.change_of_stays (k.stays_task c hk s.handles) _
  | true =>
      have silent : ∀ {α : Type} {t : Task σ α}, s.screen.Change (t s.screen).2 →
          s.screen.Change (t.silent s.screen).2 := by
        intro α t h
        rw [Task.silent_snd]
        exact h
      cases k with
      | load source => exact silent (Screen.change_load source _)
      | update => exact silent (Screen.change_update c _)
      | elsewhere source => exact silent (Screen.change_elsewhere source _)
      | _ => cases hk

/-! ## What commands produce -/

/-- How a handle can come about: found on the screen, made of a node, or made from another
handle. -/
inductive Yields (s : Session σ) (h : Handle) : Prop where
  | element {q : Query} (found : (s.screen.getElement q).result = .ok h)
  | elements {q : Query} {hs : List Handle} (found : (s.screen.getElements q).result = .ok hs)
      (mem : h ∈ hs)
  | node {a : Address} {n : Node} (found : s.screen.current.nodeAt a = .ok n) (eq : h = ⟨n, none⟩)
  | children {p : Handle} {q : Query} {hs : List Handle} (parent : p ∈ s.handles)
      (found : (p.children s.screen q).result = .ok hs) (mem : h ∈ hs)
  | refresh {p : Handle} (old : p ∈ s.handles) (found : (p.refresh s.screen).result = .ok h)

theorem mem_produced {r : Report (List Handle)} {h : Handle} :
    h ∈ produced r ↔ ∃ hs, r.result = .ok hs ∧ h ∈ hs := by
  unfold produced
  cases r.result with
  | error e =>
      constructor
      · intro hmem
        cases hmem
      · rintro ⟨hs, he, -⟩
        cases he
  | ok hs =>
      constructor
      · intro hmem
        exact ⟨hs, rfl, hmem⟩
      · rintro ⟨hs', he, hmem⟩
        cases he
        exact hmem

theorem mem_produced_withHandle {hs : List Handle} {i : Nat}
    {f : Handle → Task σ (List Handle)} {s : Screen σ} {h : Handle}
    (hmem : h ∈ produced (Task.withHandle hs i f s).1) :
    ∃ p ∈ hs, Task.withHandle hs i f s = f p s ∧ h ∈ produced (f p s).1 := by
  unfold Task.withHandle at hmem ⊢
  cases hp : hs[i]? with
  | none =>
      rw [hp] at hmem
      cases hmem
  | some p =>
      rw [hp] at hmem
      exact ⟨p, List.mem_of_getElem? hp, rfl, hmem⟩

/-- The one handle of an outcome that gives one handle. -/
theorem exists_of_mem_single {α : Type} {r : Report α} {f : α → Handle} {hs : List Handle}
    {h : Handle} (hhs : (r >>= fun a => pure [f a]).result = .ok hs) (hmem : h ∈ hs) :
    ∃ a, r.result = .ok a ∧ h = f a := by
  obtain ⟨a, ha, hhs⟩ := Report.result_bind_eq_ok_iff.mp hhs
  cases hhs
  exact ⟨a, ha, List.mem_singleton.mp hmem⟩

/-- **What a command produces is found on the screen as it is, and leaves the screen alone.** -/
theorem yields_of_mem_produced {c : Channel σ} {k : Command} {s : Session σ} {h : Handle}
    (hmem : h ∈ produced (k.task c s.handles s.screen).1) :
    s.Yields h ∧ (k.task c s.handles s.screen).2 = s.screen := by
  have silent : ∀ {α : Type} {t : Task σ α} {P : Prop},
      h ∈ produced (t.silent s.screen).1 → P := by
    intro α t P hmem
    rw [Task.produced_silent] at hmem
    cases hmem
  have touch : ∀ {α : Type} {i : Nat} {t : Handle → Task σ α} {P : Prop},
      h ∈ produced (Task.withHandle s.handles i (fun h => (t h).silent) s.screen).1 → P := by
    intro α i t P hmem
    obtain ⟨p, -, -, hmem⟩ := mem_produced_withHandle hmem
    exact silent hmem
  cases k with
  | element w =>
      obtain ⟨hs, hhs, hmem⟩ := mem_produced.mp hmem
      obtain ⟨q, -, hq⟩ := Report.result_bind_eq_ok_iff.mp hhs
      obtain ⟨k, hk, rfl⟩ := exists_of_mem_single hq hmem
      exact ⟨.element hk, rfl⟩
  | elements w =>
      obtain ⟨hs, hhs, hmem⟩ := mem_produced.mp hmem
      obtain ⟨q, -, hq⟩ := Report.result_bind_eq_ok_iff.mp hhs
      exact ⟨.elements hq hmem, rfl⟩
  | node a =>
      obtain ⟨hs, hhs, hmem⟩ := mem_produced.mp hmem
      obtain ⟨n, hn, heq⟩ := exists_of_mem_single hhs hmem
      exact ⟨.node hn heq, rfl⟩
  | children i w =>
      obtain ⟨p, hp, htask, hmem⟩ := mem_produced_withHandle hmem
      obtain ⟨hs, hhs, hmem⟩ := mem_produced.mp hmem
      obtain ⟨q, -, hq⟩ := Report.result_bind_eq_ok_iff.mp hhs
      exact ⟨.children hp hq hmem, congrArg Prod.snd htask⟩
  | refresh i =>
      obtain ⟨p, hp, htask, hmem⟩ := mem_produced_withHandle hmem
      obtain ⟨hs, hhs, hmem⟩ := mem_produced.mp hmem
      obtain ⟨k, hk, rfl⟩ := exists_of_mem_single hhs hmem
      exact ⟨.refresh hp hk, congrArg Prod.snd htask⟩
  | load source => exact silent hmem
  | update => exact silent hmem
  | elsewhere source => exact silent hmem
  | tap i => exact touch hmem
  | longPress i timeout => exact touch hmem
  | inputText i text interval => exact touch hmem
  | clearText i => exact touch hmem
  | tapText text index => exact silent hmem
  | waitForExists sel timeout => exact silent hmem
  | waitUntilGone sel timeout => exact silent hmem
  | waitForWindowUpdate package timeout => exact silent hmem

/-- **The handles after a step**: those before it, and what the command found. -/
theorem mem_handles_step {c : Channel σ} {k : Command} {s : Session σ} {h : Handle}
    (hmem : h ∈ (s.step c k).2.handles) :
    h ∈ s.handles ∨ s.Yields h ∧ (s.step c k).2.screen = s.screen := by
  rcases List.mem_append.mp hmem with hold | hnew
  · exact .inl hold
  · exact .inr (yields_of_mem_produced hnew)

end Session

end UiTree
