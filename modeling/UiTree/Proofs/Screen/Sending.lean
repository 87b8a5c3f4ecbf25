import UiTree.Proofs.Screen.Run
import UiTree.Proofs.Screen.Script

/-!
# UiTree.Proofs.Screen.Sending -- what reaches the device, over whole runs

Only the commands that are there for it reach the device. Where one of them touches the screen there
is a node of the snapshot that is current then; no turn that touches it replaces that snapshot.

* **One turn.** `exists_sent_turn`: the actions that a turn adds to the record, and where they are.
* **Main statement.** `Session.sent_of_run`: the same for every action on record after a run, and
  what commands on stale, invisible and other handles send.
-/

namespace UiTree

/-- Can the turn send anything? Questions cannot. -/
def Turn.reaches : Turn → Bool
  | command k => k.reaches
  | _ => false

namespace Session

variable {σ : Type} {c : Channel σ} {s : Session σ} {t : Turn}

theorem follows_of_not_reaches {k : Command} (hk : k.reaches = false) :
    (k.task c s.handles).Follows s.screen [] := by
  have asked : ∀ {i : Nat} {f : Handle → Task σ (List Handle)},
      (∀ h, (f h).Follows s.screen []) →
      (Task.withHandle s.handles i f).Follows s.screen [] :=
    fun hf => Task.withHandle_of_forall (P := fun u => u.Follows s.screen [])
      (Task.follows_look _) fun h _ => hf h
  cases k with
  | load source => exact Task.Follows.silent (Task.follows_nil_iff.mpr (Screen.sent_load source))
  | elsewhere source =>
      exact Task.Follows.silent (Task.follows_nil_iff.mpr (Screen.sent_elsewhere source))
  | element w => exact Task.follows_look _
  | elements w => exact Task.follows_look _
  | node a => exact Task.follows_look _
  | children i w => exact asked fun h => Task.follows_look _
  | refresh i => exact asked fun h => Task.follows_look _
  | _ => cases hk

/-- **Lookups, questions and loads send nothing.** -/
theorem sent_turn (ht : t.reaches = false) : (turn c t s).2.screen.sent = s.screen.sent := by
  by_cases hk : ∃ k, t = .command k
  · obtain ⟨k, rfl⟩ := hk
    exact Task.follows_nil_iff.mp (follows_of_not_reaches ht)
  · rw [turn_of_question s (not_exists.mp hk)]

/-- A tap of a node by its text is one of a node of the current snapshot, or none. -/
theorem isLocated_tapText (screen : Screen σ) (text : Datum) (index : Int) :
    (Screen.tapText c text index).IsLocated screen := by
  cases hsel : Screen.showing text with
  | error e => exact Task.isLocated_of_nil (Task.follows_of_look_error hsel)
  | ok sel =>
      refine Task.IsLocated.of_look hsel ?_
      cases hfound : (screen.getElements (.selector sel)).result with
      | error e => exact Task.isLocated_of_nil (Task.follows_of_look_error hfound)
      | ok hs =>
          refine Task.IsLocated.of_look hfound ?_
          split
          · exact Task.isLocated_of_nil (Task.follows_look _)
          · split
            · next h hh =>
              have hsnapshot : h.node.snapshot = screen.current :=
                (Handle.foundIn_of_getElements hfound (Screen.mem_of_atIndex hh)).snapshot
              exact Handle.acts_tap.isLocated (fun _ => hsnapshot) fun p a ha q =>
                Command.point?_of_mem_script (k := .tap 0) ha
            · exact Task.isLocated_of_nil (Task.follows_look _)

/-- An update sends one request for a dump. -/
theorem sent_turn_update :
    (turn c (.command .update) s).2.screen.sent = s.screen.sent ++ [.dump] := by
  rw [(turn_silent rfl).2]
  exact Screen.sent_update

/-- **Wherever a command touches the screen, there is a node of the current snapshot.** -/
theorem isLocated_task (hs : s.Coherent) (k : Command) :
    (k.task c s.handles).IsLocated s.screen := by
  have wait : ∀ a : Action, (Task.silent (do return (← Screen.send c a).isTruthy)).Follows
      s.screen [a] := fun a =>
    Task.Follows.silent ((Task.follows_send a).bind fun _ _ => Task.follows_look _)
  have aimed : ∀ {i : Nat}, k.aim? = some i → (k.task c s.handles).IsLocated s.screen := by
    intro i hk
    obtain ⟨u, htask, hu⟩ := Command.exists_acts c s.handles hk
    rw [htask]
    refine Task.withHandle_of_forall (P := fun u => u.IsLocated s.screen)
      (Task.isLocated_of_nil (Task.follows_look _)) ?_
    intro h hmem
    exact ((hu h s.screen).isLocated (hs.fresh h hmem) fun p a ha q =>
      Command.point?_of_mem_script ha).silent
  cases hreach : k.reaches with
  | false => exact Task.isLocated_of_nil (follows_of_not_reaches hreach)
  | true =>
      cases k with
      | update =>
          exact Task.isLocated_of_single rfl
            (Task.Follows.silent (Task.follows_of_sent Screen.sent_update))
      | tap i => exact aimed rfl
      | longPress i timeout => exact aimed rfl
      | inputText i text interval => exact aimed rfl
      | clearText i => exact aimed rfl
      | tapText text index => exact (isLocated_tapText s.screen text index).silent
      | waitForExists sel timeout => exact Task.isLocated_of_single rfl (wait _)
      | waitUntilGone sel timeout => exact Task.isLocated_of_single rfl (wait _)
      | waitForWindowUpdate package timeout => exact Task.isLocated_of_single rfl (wait _)
      | _ => cases hreach

/-- **One turn**: the actions that it sends are located in the current snapshot, and when one of
them touches the screen this snapshot stays the current one. -/
theorem exists_sent_turn (hs : s.Coherent) (t : Turn) :
    ∃ as, (turn c t s).2.screen.sent = s.screen.sent ++ as ∧
      ∀ a ∈ as, ∀ p, a.point? = some p →
        (turn c t s).2.screen.current = s.screen.current ∧
          ∃ n : Node, n.snapshot = s.screen.current ∧ n.IsTouchedAt p := by
  cases hreach : t.reaches with
  | false => exact ⟨[], by rw [sent_turn hreach, List.append_nil], List.forall_mem_nil _⟩
  | true =>
      cases t with
      | command k =>
          cases hown : (Turn.command k).renews with
          | false =>
              obtain ⟨script, ⟨as, has, hsent, -⟩, hlocated⟩ := isLocated_task (c := c) hs k
              refine ⟨as, hsent, ?_⟩
              intro a ha p hp
              exact ⟨current_turn (.inl hown), hlocated a (has.subset ha) p hp⟩
          | true =>
              -- of the two, only an update sends something, and that is a dump
              cases k with
              | load source => cases hreach
              | update =>
                  refine ⟨[.dump], sent_turn_update, ?_⟩
                  intro a ha p hp
                  obtain rfl := List.mem_singleton.mp ha
                  cases hp
              | _ => cases hown
      | _ => cases hreach

/-! ## Whole runs -/

/-- What was sent stays recorded. -/
theorem sent_prefix_run (hs : Reachable c s) (ts : List Turn) :
    s.screen.sent <+: (run c ts s).screen.sent := by
  induction ts generalizing s with
  | nil => exact List.prefix_refl _
  | cons t ts ih =>
      obtain ⟨as, has, -⟩ := exists_sent_turn (c := c) (coherent_of_reachable hs) t
      refine List.IsPrefix.trans ?_ (ih (reachable_turn hs t))
      rw [has]
      exact List.prefix_append _ _

/-- Every action that a run sends is sent by one of its turns. -/
theorem exists_turn_of_sent (hs : Reachable c s) {ts : List Turn} {i : Nat} {a : Action}
    (hnew : s.screen.sent.length ≤ i) (hi : (run c ts s).screen.sent[i]? = some a) :
    ∃ before t after, ts = before ++ t :: after ∧
      (run c before s).screen.sent.length ≤ i ∧
      (turn c t (run c before s)).2.screen.sent[i]? = some a := by
  induction ts generalizing s with
  | nil =>
      rw [run, List.getElem?_eq_none hnew] at hi
      cases hi
  | cons t ts ih =>
      have hnext := reachable_turn hs t
      rcases Nat.lt_or_ge i (turn c t s).2.screen.sent.length with hlt | hge
      · -- the first turn sent it, and it stays where it is in the record
        refine ⟨[], t, ts, rfl, hnew, ?_⟩
        obtain ⟨rest, hrest⟩ := sent_prefix_run hnext ts
        rw [run, ← hrest, List.getElem?_append_left hlt] at hi
        exact hi
      · obtain ⟨before, u, after, rfl, hlen, hsent⟩ := ih hnext hge hi
        exact ⟨t :: before, u, after, rfl, hlen, hsent⟩

/-! ## Commands on handles -/

/-- The turn of a command on a handle that is there. -/
theorem exists_acts_turn {k : Command} {i : Nat} {h : Handle} (hk : k.aim? = some i)
    (hi : s.handles[i]? = some h) :
    ∃ u : Task σ Datum, (Turn.command k).task c s.handles s.screen = u.silent s.screen ∧
      h.Acts c s.screen u k.script := by
  obtain ⟨u, htask, hu⟩ := Command.exists_acts c s.handles hk
  rw [Task.withHandle, hi] at htask
  exact ⟨u h, congrFun htask s.screen, hu h s.screen⟩

/-- A handle that cannot be touched is refused, and nothing happens. -/
theorem turn_of_target_error {k : Command} {i : Nat} {h : Handle} (hk : k.aim? = some i)
    (hi : s.handles[i]? = some h) {e : Fault} (he : h.target s.screen = .error e) :
    (turn c (.command k) s).1.result = .error e ∧ (turn c (.command k) s).2 = s := by
  obtain ⟨u, hturn, hu⟩ := exists_acts_turn (c := c) hk hi
  obtain ⟨hresult, hsession⟩ := turn_silent hturn
  obtain ⟨hfail, hsame⟩ := hu.refused e he
  rw [hfail] at hresult
  rw [hsame] at hsession
  exact ⟨hresult, hsession⟩

/-- A handle that can be touched: the script is begun, and done when the command succeeds. -/
theorem turn_of_target_ok {k : Command} {i : Nat} {h : Handle} (hk : k.aim? = some i)
    (hi : s.handles[i]? = some h) {p : Int × Int} (hp : h.target s.screen = .ok p) :
    (∃ as, as <+: k.script p ∧ (turn c (.command k) s).2.screen.sent = s.screen.sent ++ as ∧
      ((∃ hs, (turn c (.command k) s).1.result = .ok hs) → as = k.script p)) ∧
      (c.Answers → (h.noteTap p).result = .ok () →
        ∃ hs, (turn c (.command k) s).1.result = .ok hs) := by
  obtain ⟨u, hturn, hu⟩ := exists_acts_turn (c := c) hk hi
  constructor
  · obtain ⟨as, has, hsent, hall⟩ := (hu.follows p hp).silent
    rw [← hturn] at hsent hall
    refine ⟨as, has, hsent, ?_⟩
    rintro ⟨hs, hdone⟩
    exact hall hs hdone
  · intro hanswers hnote
    obtain ⟨v, hv⟩ := hu.done p hp hnote hanswers
    have hresult := (turn_silent hturn).1
    rw [hv] at hresult
    exact ⟨[], hresult⟩

/-- **What reaches the device, over whole runs.** Let any turns be taken on a new screen, and let
`s` be what they lead to.

Whatever touched the device was sent by a turn that kept the snapshot that was current then, at the
middle of a node of that snapshot. A command on a stale handle fails as stale, and one on a node
without a readable rectangle fails for that; in both cases nothing is sent and nothing changes.
Otherwise what is sent is the script of the command up to a failure, all of it when the command
succeeds, as it does when the device answers. Nothing else sends anything but updates, which ask for
one dump, and waits. -/
theorem sent_of_run {strict : Bool} {version : Nat} {device : σ} {source : Option Text}
    {first : Screen σ} (hstart : (Screen.start c strict version device source).1.result = .ok first)
    (ts : List Turn) (hrun : run c ts ⟨first, []⟩ = s) :
    first.sent = (if source.isSome then [] else [.dump]) ∧
      (∀ i a p, s.screen.sent[i]? = some a → a.point? = some p →
        ∃ before t after, ts = before ++ t :: after ∧
          (run c before ⟨first, []⟩).screen.sent.length ≤ i ∧
          (turn c t (run c before ⟨first, []⟩)).2.screen.sent[i]? = some a ∧
          (turn c t (run c before ⟨first, []⟩)).2.screen.current =
            (run c before ⟨first, []⟩).screen.current ∧
          ∃ n : Node, n.snapshot = (run c before ⟨first, []⟩).screen.current ∧ n.IsTouchedAt p) ∧
      (∀ k i h, k.aim? = some i → s.handles[i]? = some h →
        (h.isStale s.screen = true →
          (turn c (.command k) s).1.result = .error (.stale h.version s.screen.version) ∧
            (turn c (.command k) s).2 = s) ∧
        (h.isStale s.screen = false → (∀ p, ¬ h.node.IsTouchedAt p) →
          ∃ e, (e = .noBounds h.node.describe ∨ ∃ d, e = .longNumber d) ∧
            (turn c (.command k) s).1.result = .error e ∧ (turn c (.command k) s).2 = s) ∧
        (h.isStale s.screen = false → ∀ p, h.node.IsTouchedAt p →
          (∃ as, as <+: k.script p ∧
            (turn c (.command k) s).2.screen.sent = s.screen.sent ++ as ∧
            ((∃ hs, (turn c (.command k) s).1.result = .ok hs) → as = k.script p)) ∧
          (c.Answers → (h.noteTap p).result = .ok () →
            ∃ hs, (turn c (.command k) s).1.result = .ok hs))) ∧
      (∀ t, t.reaches = false → (turn c t s).2.screen.sent = s.screen.sent) ∧
      (turn c (.command .update) s).2.screen.sent = s.screen.sent ++ [.dump] := by
  subst hrun
  have hnew : Reachable c ⟨first, []⟩ := .start hstart
  have hfirst : first.sent = (if source.isSome then [] else [.dump]) := by
    rw [(Screen.screen_of_start hstart).2.2]
    cases source <;> rfl
  refine ⟨hfirst, ?_, ?_, fun t => sent_turn, sent_turn_update⟩
  · intro i a p hi hp
    have hlen : first.sent.length ≤ i := by
      refine Nat.le_of_not_lt fun hlt => ?_
      -- what the start sends touches nothing
      obtain ⟨rest, hrest⟩ := sent_prefix_run hnew ts
      rw [← hrest, List.getElem?_append_left hlt] at hi
      have hmem : a ∈ first.sent := List.mem_of_getElem? hi
      rw [hfirst] at hmem
      split at hmem
      · cases hmem
      · obtain rfl := List.mem_singleton.mp hmem
        cases hp
    obtain ⟨before, t, after, hts, hbefore, hsent⟩ := exists_turn_of_sent hnew hlen hi
    have hs := coherent_of_reachable (reachable_run hnew before)
    obtain ⟨as, has, hlocated⟩ := exists_sent_turn (c := c) hs t
    have hmem : a ∈ as := by
      rw [has, List.getElem?_append_right hbefore] at hsent
      exact List.mem_of_getElem? hsent
    obtain ⟨hcurrent, hnode⟩ := hlocated a hmem p hp
    exact ⟨before, t, after, hts, hbefore, hsent, hcurrent, hnode⟩
  · intro k i h hk hi
    refine ⟨?_, ?_, ?_⟩
    · intro hstale
      exact turn_of_target_error hk hi (Handle.target_of_stale hstale)
    · intro hfresh hp
      obtain ⟨e, he, hwhy⟩ := Handle.target_of_not_isTouchedAt hfresh hp
      exact ⟨e, hwhy, turn_of_target_error hk hi he⟩
    · intro hfresh p hp
      exact turn_of_target_ok hk hi (Handle.target_of_isTouchedAt hfresh hp)

/-- A dump of one node, ten wide and twenty-one high. -/
def boxedDump : Text := "<h bounds=\"[0,0][10,21]\"/>".toList

/-- The dump makes a snapshot, and its node is touched in the middle. -/
theorem exists_boxed : ∃ s : Snapshot, (Snapshot.build 1 (some boxedDump)).result = .ok s ∧
    s.root.IsTouchedAt (5, 10) := by
  obtain ⟨s, hs, hcheck⟩ := Snapshot.exists_of_any_toOption
    (r := (Snapshot.build 1 (some boxedDump)).result)
    (f := fun s => decide (s.root.center?.toOption = some (some (5, 10)))) (by decide +kernel)
  refine ⟨s, hs, Node.center?_eq_some_iff.mp ?_⟩
  cases hcenter : s.root.center? with
  | error k =>
      rw [hcenter] at hcheck
      cases of_decide_eq_true hcheck
  | ok o =>
      rw [hcenter] at hcheck
      exact congrArg Except.ok (Option.some.inj (of_decide_eq_true hcheck))

/-- The node is found and typed into, which taps its middle first. After an update a tap through the
same handle fails, and nothing is sent. -/
theorem sent_of_run_boxed :
    ∃ (first : Screen Unit) (s₁ s₂ : Session Unit),
      (Screen.start (still boxedDump) true 1 () (some boxedDump)).1.result = .ok first ∧
        run (still boxedDump) [.command (.node []), .command (.inputText 0 .null .null)]
          ⟨first, []⟩ = s₁ ∧
        s₁.screen.sent = [.tap 5 10, .inputText .null .null] ∧
        (turn (still boxedDump) (.command .update) s₁).2 = s₂ ∧
        s₂.screen.sent = [.tap 5 10, .inputText .null .null, .dump] ∧
        (turn (still boxedDump) (.command (.tap 0)) s₂).1.result = .error (.stale 1 2) ∧
        (turn (still boxedDump) (.command (.tap 0)) s₂).2 = s₂ := by
  obtain ⟨first, hbuild, htouched⟩ := exists_boxed
  obtain ⟨next, hnext, -⟩ := Snapshot.exists_of_any_toOption
    (r := (Snapshot.build 2 (some boxedDump)).result) (f := fun _ => true) (by decide +kernel)
  obtain ⟨screen, hscreen⟩ : ∃ screen : Screen Unit, screen = ⟨true, first, 2, (), []⟩ := ⟨_, rfl⟩
  obtain ⟨h, hh⟩ : ∃ h : Handle, h = ⟨first.root, none⟩ := ⟨_, rfl⟩
  have hstart : (Screen.start (still boxedDump) true 1 () (some boxedDump)).1.result =
      .ok screen := by
    rw [hscreen]
    exact start_still hbuild
  have hlook : run (still boxedDump) [.command (.node [])] ⟨screen, []⟩ = ⟨screen, [h]⟩ := by
    have hroot : (Report.of (screen.current.nodeAt [])).result = .ok first.root := by
      rw [hscreen]
      exact Snapshot.nodeAt_root first
    show (step (still boxedDump) (.node []) ⟨screen, []⟩).2 = _
    rw [step_of_look rfl (Report.result_bind_of_ok hroot), hh]
    rfl
  have hfresh : h.isStale screen = false := by
    rw [Handle.isStale_eq_false_iff, hscreen, hh]
    rfl
  -- the node is typed into
  have hanswers : (still boxedDump).Answers := fun _ _ => ⟨.null, rfl⟩
  obtain ⟨-, -, hcommands, -, -⟩ := sent_of_run hstart _ hlook
  obtain ⟨-, -, htype⟩ := hcommands (.inputText 0 .null .null) 0 h rfl rfl
  obtain ⟨⟨as, -, hsent, hall⟩, hdone⟩ := htype hfresh (5, 10) (by rw [hh]; exact htouched)
  obtain rfl := hall (hdone hanswers rfl)
  obtain ⟨s₁, hs₁⟩ : ∃ s₁, (turn (still boxedDump) (.command (.inputText 0 .null .null))
    ⟨screen, [h]⟩).2 = s₁ := ⟨_, rfl⟩
  have hrun₁ : run (still boxedDump) [.command (.node []), .command (.inputText 0 .null .null)]
      ⟨screen, []⟩ = s₁ := by
    rw [← hs₁, ← hlook]
    exact run_concat _ [.command (.node [])] _ _
  have hsent₁ : s₁.screen.sent = [.tap 5 10, .inputText .null .null] := by
    rw [← hs₁, hsent, hscreen]
    rfl
  -- the update
  obtain ⟨-, -, -, -, hdump⟩ := sent_of_run hstart _ hrun₁
  obtain ⟨s₂, hs₂⟩ : ∃ s₂, (turn (still boxedDump) (.command .update) s₁).2 = s₂ := ⟨_, rfl⟩
  have hrun₂ : run (still boxedDump)
      [.command (.node []), .command (.inputText 0 .null .null), .command .update]
      ⟨screen, []⟩ = s₂ := by
    rw [← hs₂, ← hrun₁]
    exact run_concat _ [.command (.node []), .command (.inputText 0 .null .null)] _ _
  have hversion : s₂.screen.version = 2 := by
    have hcount : s₁.screen.nextVersion = 2 := by
      rw [← hs₁]
      exact (Command.stays_task (still boxedDump) (k := .inputText 0 .null .null) rfl [h]
        screen).2.trans (by rw [hscreen])
    rw [← hs₂, turn_update_still (by rw [hcount]; exact hnext)]
    exact Snapshot.version_of_build hnext
  -- the tap after it
  have hold : h.version = 1 := by
    rw [Handle.version, hh]
    exact Snapshot.version_of_build hbuild
  have hstale : h.isStale s₂.screen = true := by
    rw [Handle.isStale, hversion, hold]
    rfl
  have hhandle : s₂.handles[0]? = some h := by
    rw [← hs₂, handles_turn, ← hs₁, handles_turn]
    rfl
  obtain ⟨-, -, hcommands, -, -⟩ := sent_of_run hstart _ hrun₂
  obtain ⟨hrefused, -, -⟩ := hcommands (.tap 0) 0 h rfl hhandle
  obtain ⟨hfail, hidle⟩ := hrefused hstale
  rw [hold, hversion] at hfail
  rw [hs₂, hsent₁] at hdump
  exact ⟨screen, s₁, s₂, hstart, hrun₁, hsent₁, hs₂, hdump, hfail, hidle⟩

end Session

end UiTree
