import UiTree.Proofs.Screen.Coherence

/-!
# UiTree.Proofs.Screen.Script -- what tasks mean to send

Everything that is sent is recorded on the screen, in order. What a task means to send is its
**script**: when it succeeds it has sent all of it, and when it fails it has sent the actions before
the failure.

* **Scripts.** `Task.Follows` says that a task keeps to a script. The script of two tasks in a row
  is that of the one, then that of the other (`Follows.bind`).
* **Places.** `Task.IsLocated`: wherever the task touches the screen, there is a node of the current
  snapshot.
* **Handles.** `Handle.Acts` says what it means to act through a handle, and `Command.exists_acts`
  that the commands on handles do so. `target_eq_ok_iff` says where a handle is touched.
-/

namespace UiTree

/-! ## Where a node is touched -/

/-- The node is touched in the middle of the rectangle that its attribute writes. -/
def Node.IsTouchedAt (n : Node) (p : Int × Int) : Prop :=
  ∃ t b, n.get? "bounds".toList = some t ∧ Bounds.read? t = .ok (some b) ∧
    p = (b.x + b.w.fdiv 2, b.y + b.h.fdiv 2)

/-- Wherever the action touches the screen, there is a node of the snapshot. -/
def Action.IsLocatedIn (a : Action) (s : Snapshot) : Prop :=
  ∀ p, a.point? = some p → ∃ n : Node, n.snapshot = s ∧ n.IsTouchedAt p

namespace Node

variable {n : Node} {p : Int × Int}

theorem center?_of_isTouchedAt (h : n.IsTouchedAt p) : n.center? = .ok (some p) := by
  obtain ⟨t, b, ht, hread, rfl⟩ := h
  unfold center? bounds?
  rw [ht]
  dsimp only
  rw [hread]
  rfl

/-- The middle of a node is where it is touched; there is none when its rectangle cannot be read,
and a failure when that has too many digits. -/
theorem center?_cases (n : Node) :
    (∃ p, n.IsTouchedAt p ∧ n.center? = .ok (some p)) ∨
      n.center? = .ok none ∨ ∃ k, n.center? = .error (.longNumber k) := by
  unfold center? bounds?
  cases hget : n.get? "bounds".toList with
  | none => exact .inr (.inl rfl)
  | some t =>
      dsimp only
      cases hread : Bounds.read? t with
      | error k => exact .inr (.inr ⟨k, rfl⟩)
      | ok o =>
          cases o with
          | none => exact .inr (.inl rfl)
          | some b => exact .inl ⟨_, ⟨t, b, hget, hread, rfl⟩, rfl⟩

theorem center?_eq_some_iff : n.center? = .ok (some p) ↔ n.IsTouchedAt p := by
  refine ⟨fun h => ?_, center?_of_isTouchedAt⟩
  rcases n.center?_cases with ⟨q, hq, hcenter⟩ | hcenter | ⟨k, hcenter⟩
  · cases h.symm.trans hcenter
    exact hq
  · cases h.symm.trans hcenter
  · cases h.symm.trans hcenter

end Node

namespace Handle

variable {σ : Type} {s : Screen σ} {h : Handle} {p : Int × Int}

theorem fresh_of_stale (hstale : h.isStale s = true) :
    h.fresh s = .error (.stale h.version s.version) := by
  rw [fresh, if_pos hstale]

/-- Nothing is touched through a stale handle. -/
theorem target_of_stale (hstale : h.isStale s = true) :
    h.target s = .error (.stale h.version s.version) := by
  rw [target, fresh_of_stale hstale]
  rfl

/-- A fresh handle is touched where its node is. -/
theorem target_of_isTouchedAt (hfresh : h.isStale s = false) (hp : h.node.IsTouchedAt p) :
    h.target s = .ok p := by
  rw [target, fresh_eq_ok_iff.mpr ⟨hfresh, rfl⟩]
  show (h.node.center? >>= _) = _
  rw [Node.center?_of_isTouchedAt hp]
  rfl

/-- A fresh handle whose node is touched nowhere is refused. -/
theorem target_of_not_isTouchedAt (hfresh : h.isStale s = false)
    (hp : ∀ p, ¬ h.node.IsTouchedAt p) :
    ∃ e, h.target s = .error e ∧ (e = .noBounds h.node.describe ∨ ∃ k, e = .longNumber k) := by
  rw [target, fresh_eq_ok_iff.mpr ⟨hfresh, rfl⟩]
  show ∃ e, (h.node.center? >>= _) = _ ∧ _
  rcases h.node.center?_cases with ⟨p, htouched, -⟩ | hnone | ⟨k, hlong⟩
  · exact absurd htouched (hp p)
  · rw [hnone]
    exact ⟨_, rfl, .inl rfl⟩
  · rw [hlong]
    exact ⟨_, rfl, .inr ⟨k, rfl⟩⟩

/-- What is touched is a fresh handle, where its node is. -/
theorem target_eq_ok_iff : h.target s = .ok p ↔ h.isStale s = false ∧ h.node.IsTouchedAt p := by
  constructor
  · intro htarget
    cases hstale : h.isStale s with
    | true =>
        rw [target_of_stale hstale] at htarget
        cases htarget
    | false =>
        by_cases hall : ∀ q, ¬ h.node.IsTouchedAt q
        · obtain ⟨e, he, -⟩ := target_of_not_isTouchedAt hstale hall
          rw [he] at htarget
          cases htarget
        · obtain ⟨q, hq⟩ := Classical.not_forall_not.mp hall
          rw [target_of_isTouchedAt hstale hq] at htarget
          cases htarget
          exact ⟨rfl, hq⟩
  · rintro ⟨hfresh, hp⟩
    exact target_of_isTouchedAt hfresh hp

end Handle

/-! ## Scripts -/

namespace Task

variable {σ α β : Type} {t : Task σ α} {f : α → Task σ β} {s : Screen σ} {c : Channel σ}

theorem bind_of_ok {a : α} (h : (t s).1.result = .ok a) :
    ((t >>= f) s).1.result = (f a (t s).2).1.result ∧ ((t >>= f) s).2 = (f a (t s).2).2 := by
  show (Task.bind t f s).1.result = _ ∧ (Task.bind t f s).2 = _
  unfold Task.bind
  dsimp only
  rw [h]
  exact ⟨rfl, rfl⟩

theorem bind_of_error {e : Fault} (h : (t s).1.result = .error e) :
    ((t >>= f) s).1.result = .error e ∧ ((t >>= f) s).2 = (t s).2 := by
  show (Task.bind t f s).1.result = _ ∧ (Task.bind t f s).2 = _
  unfold Task.bind
  dsimp only
  rw [h]
  exact ⟨rfl, rfl⟩

/-- What the task sends are the first actions of the script, and all of them if it succeeds. -/
def Follows (t : Task σ α) (s : Screen σ) (script : List Action) : Prop :=
  ∃ as, as <+: script ∧ (t s).2.sent = s.sent ++ as ∧
    ∀ a, (t s).1.result = .ok a → as = script

/-- A task that sends the same whether it succeeds or not. -/
theorem follows_of_sent {as : List Action} (h : (t s).2.sent = s.sent ++ as) : t.Follows s as :=
  ⟨as, List.prefix_refl as, h, fun _ _ => rfl⟩

/-- A task with nothing in its script sends nothing. -/
theorem follows_nil_iff : t.Follows s [] ↔ (t s).2.sent = s.sent := by
  constructor
  · rintro ⟨as, has, hsent, -⟩
    rw [List.prefix_nil.mp has, List.append_nil] at hsent
    exact hsent
  · intro hsent
    exact follows_of_sent (by rw [hsent, List.append_nil])

theorem follows_look (f : Screen σ → Report α) : (look f).Follows s [] := follows_nil_iff.mpr rfl

theorem follows_send (a : Action) : (Screen.send c a).Follows s [a] := follows_of_sent rfl

/-- One task after another: the second script is begun when the first one is done. -/
theorem Follows.bind {first second : List Action} (ht : t.Follows s first)
    (hf : ∀ a, (t s).1.result = .ok a → (f a).Follows (t s).2 second) :
    (t >>= f).Follows s (first ++ second) := by
  obtain ⟨as, has, hsent, hall⟩ := ht
  cases hresult : (t s).1.result with
  | error e =>
      obtain ⟨hfail, hscreen⟩ := bind_of_error (f := f) hresult
      refine ⟨as, has.trans (List.prefix_append _ _), by rw [hscreen, hsent], ?_⟩
      intro b hb
      rw [hfail] at hb
      cases hb
  | ok a =>
      obtain ⟨hnext, hscreen⟩ := bind_of_ok (f := f) hresult
      obtain ⟨bs, hbs, hsent', hall'⟩ := hf a hresult
      obtain rfl := hall a hresult
      refine ⟨as ++ bs, List.prefix_append_right_inj as |>.mpr hbs, ?_, ?_⟩
      · rw [hscreen, hsent', hsent, List.append_assoc]
      · intro b hb
        rw [hnext] at hb
        rw [hall' b hb]

/-- A task that looks first and goes on with what it found. -/
theorem Follows.of_look {g : Screen σ → Report α} {a : α} {script : List Action}
    (hg : (g s).result = .ok a) (hf : (f a).Follows s script) :
    (look g >>= f).Follows s script := by
  refine (follows_look g).bind ?_
  intro b hb
  cases hg.symm.trans hb
  exact hf

/-- A task that looks first and does not find what it needs. -/
theorem follows_of_look_error {g : Screen σ → Report α} {e : Fault} (hg : (g s).result = .error e) :
    (look g >>= f).Follows s [] :=
  follows_nil_iff.mpr (congrArg Screen.sent (bind_of_error (t := look g) hg).2)

theorem Follows.silent {script : List Action} (ht : t.Follows s script) :
    (silent t).Follows s script := by
  obtain ⟨as, has, hsent, hall⟩ := ht
  refine ⟨as, has, by rw [silent_snd, hsent], ?_⟩
  intro ks hks
  rw [result_silent] at hks
  cases hresult : (t s).1.result with
  | error e =>
      rw [hresult] at hks
      cases hks
  | ok a => exact hall a hresult

/-- Wherever the task touches the screen, there is a node of the current snapshot. -/
def IsLocated (t : Task σ α) (s : Screen σ) : Prop :=
  ∃ script, t.Follows s script ∧ ∀ a ∈ script, a.IsLocatedIn s.current

theorem isLocated_of_nil (h : t.Follows s []) : t.IsLocated s := ⟨[], h, List.forall_mem_nil _⟩

/-- An action that does not touch the screen is never out of place. -/
theorem isLocated_of_single {a : Action} (ha : a.point? = none) (h : t.Follows s [a]) :
    t.IsLocated s := by
  refine ⟨[a], h, ?_⟩
  intro b hb p hp
  obtain rfl := List.mem_singleton.mp hb
  rw [ha] at hp
  cases hp

theorem IsLocated.of_look {g : Screen σ → Report α} {a : α} (hg : (g s).result = .ok a)
    (hf : (f a).IsLocated s) : (look g >>= f).IsLocated s := by
  obtain ⟨script, hscript, hlocated⟩ := hf
  exact ⟨script, Follows.of_look hg hscript, hlocated⟩

theorem IsLocated.silent (ht : t.IsLocated s) : (silent t).IsLocated s := by
  obtain ⟨script, hscript, hlocated⟩ := ht
  exact ⟨script, hscript.silent, hlocated⟩

end Task

/-- The device answers whatever it is asked to do. -/
def Channel.Answers {σ : Type} (c : Channel σ) : Prop :=
  ∀ a device, ∃ v, (c.perform a device).1 = .ok v

/-! ## Acting through a handle -/

namespace Handle

variable {σ : Type} {c : Channel σ} {s : Screen σ} {h : Handle} {u : Task σ Datum}

/-- A task that acts on the node of a handle: without a place to touch it fails and does nothing,
with one it keeps to its script. It succeeds when the device answers and the tap can be noted. -/
structure Acts (c : Channel σ) (h : Handle) (s : Screen σ) (u : Task σ Datum)
    (script : Int × Int → List Action) : Prop where
  refused : ∀ e, h.target s = .error e → (u s).1.result = .error e ∧ (u s).2 = s
  follows : ∀ p, h.target s = .ok p → u.Follows s (script p)
  done : ∀ p, h.target s = .ok p → (h.noteTap p).result = .ok () → c.Answers →
    ∃ v, (u s).1.result = .ok v

theorem acts_tap : h.Acts c s (h.tap c) fun p => [.tap p.1 p.2] := by
  refine ⟨?_, ?_, ?_⟩
  · intro e he
    exact Task.bind_of_error (t := Task.look fun s => Report.of (h.target s)) he
  · intro p hp
    have hnoted : (Task.look (fun _ => h.noteTap p) >>= fun _ =>
        Screen.send c (.tap p.1 p.2)).Follows s [.tap p.1 p.2] :=
      (Task.follows_look _).bind fun _ _ => Task.follows_send _
    exact Task.Follows.of_look (g := fun s => Report.of (h.target s)) hp hnoted
  · intro p hp hnote hanswers
    obtain ⟨v, hv⟩ := hanswers (.tap p.1 p.2) s.device
    refine ⟨v, ?_⟩
    rw [tap, (Task.bind_of_ok (t := Task.look fun s => Report.of (h.target s)) hp).1,
      (Task.bind_of_ok (t := Task.look fun _ => h.noteTap p) hnote).1]
    exact hv

theorem acts_longPress (timeout : Datum) :
    h.Acts c s (h.longPress c timeout) fun p => [.longPress p.1 p.2 timeout] := by
  refine ⟨?_, ?_, ?_⟩
  · intro e he
    exact Task.bind_of_error (t := Task.look fun s => Report.of (h.target s)) he
  · intro p hp
    exact Task.Follows.of_look (g := fun s => Report.of (h.target s)) hp (Task.follows_send _)
  · intro p hp hnote hanswers
    obtain ⟨v, hv⟩ := hanswers (.longPress p.1 p.2 timeout) s.device
    refine ⟨v, ?_⟩
    rw [longPress, (Task.bind_of_ok (t := Task.look fun s => Report.of (h.target s)) hp).1]
    exact hv

/-- Another action after a task is sent when the task succeeded, and only then. -/
theorem Acts.bind_send {script : Int × Int → List Action} (hu : h.Acts c s u script) (a : Action) :
    h.Acts c s (u >>= fun _ => Screen.send c a) fun p => script p ++ [a] := by
  refine ⟨?_, ?_, ?_⟩
  · intro e he
    obtain ⟨hfail, hsame⟩ := hu.refused e he
    rw [(Task.bind_of_error hfail).1, (Task.bind_of_error hfail).2]
    exact ⟨rfl, hsame⟩
  · intro p hp
    exact (hu.follows p hp).bind fun _ _ => Task.follows_send a
  · intro p hp hnote hanswers
    obtain ⟨v, hv⟩ := hu.done p hp hnote hanswers
    rw [(Task.bind_of_ok hv).1]
    exact hanswers a _

/-- Acting through a handle touches its node only, whether there is a place for it or not. -/
theorem Acts.isLocated {script : Int × Int → List Action} (hu : h.Acts c s u script)
    (hcurrent : h.isStale s = false → h.node.snapshot = s.current)
    (hscript : ∀ p, ∀ a ∈ script p, ∀ q, a.point? = some q → q = p) : u.IsLocated s := by
  cases htarget : h.target s with
  | error e =>
      have hsent : (u s).2.sent = s.sent := congrArg Screen.sent (hu.refused e htarget).2
      exact Task.isLocated_of_nil (Task.follows_nil_iff.mpr hsent)
  | ok p =>
      obtain ⟨hfresh, hp⟩ := target_eq_ok_iff.mp htarget
      refine ⟨script p, hu.follows p htarget, ?_⟩
      intro a ha q hq
      obtain rfl := hscript p a ha q hq
      exact ⟨h.node, hcurrent hfresh, hp⟩

end Handle

namespace Command

variable {σ : Type}

/-- The position of the handle that a command acts on. -/
def aim? : Command → Option Nat
  | tap i => some i
  | longPress i _ => some i
  | inputText i _ _ => some i
  | clearText i => some i
  | _ => none

/-- What a command on a handle sends when it succeeds, for the point where the handle is touched. -/
def script (p : Int × Int) : Command → List Action
  | tap _ => [.tap p.1 p.2]
  | longPress _ timeout => [.longPress p.1 p.2 timeout]
  | inputText _ text interval => [.tap p.1 p.2, .inputText text interval]
  | clearText _ => [.tap p.1 p.2, .clearField]
  | _ => []

/-- Can the command send anything? -/
def reaches : Command → Bool
  | update => true
  | tap _ => true
  | longPress _ _ => true
  | inputText _ _ _ => true
  | clearText _ => true
  | tapText _ _ => true
  | waitForExists _ _ => true
  | waitUntilGone _ _ => true
  | waitForWindowUpdate _ _ => true
  | _ => false

/-- A command on a handle acts on it, with its script, if the handle is there. -/
theorem exists_acts (c : Channel σ) (hs : List Handle) {k : Command} {i : Nat}
    (hk : k.aim? = some i) :
    ∃ u : Handle → Task σ Datum, k.task c hs = Task.withHandle hs i (fun h => (u h).silent) ∧
      ∀ (h : Handle) (s : Screen σ), h.Acts c s (u h) k.script := by
  cases k with
  | tap j =>
      cases hk
      exact ⟨_, rfl, fun h s => Handle.acts_tap⟩
  | longPress j timeout =>
      cases hk
      exact ⟨_, rfl, fun h s => Handle.acts_longPress timeout⟩
  | inputText j text interval =>
      cases hk
      exact ⟨_, rfl, fun h s => Handle.acts_tap.bind_send _⟩
  | clearText j =>
      cases hk
      exact ⟨_, rfl, fun h s => Handle.acts_tap.bind_send _⟩
  | _ => cases hk

/-- Only the place of the handle is touched. -/
theorem point?_of_mem_script {k : Command} {p q : Int × Int} {a : Action} (ha : a ∈ k.script p)
    (hq : a.point? = some q) : q = p := by
  cases k with
  | tap i =>
      obtain rfl := List.mem_singleton.mp ha
      cases hq
      rfl
  | longPress i timeout =>
      obtain rfl := List.mem_singleton.mp ha
      cases hq
      rfl
  | inputText i text interval =>
      rcases List.mem_cons.mp ha with rfl | ha
      · cases hq
        rfl
      · obtain rfl := List.mem_singleton.mp ha
        cases hq
  | clearText i =>
      rcases List.mem_cons.mp ha with rfl | ha
      · cases hq
        rfl
      · obtain rfl := List.mem_singleton.mp ha
        cases hq
  | _ => cases ha

end Command

namespace Screen

variable {σ : Type} {c : Channel σ} {s : Screen σ}

theorem sent_load (source : Option Text) : (load source s).2.sent = s.sent := by
  cases hbuild : (Snapshot.build s.nextVersion source).result with
  | error e => rw [(load_of_error hbuild).2]
  | ok n => rw [(load_of_ok hbuild).2]

theorem sent_elsewhere (source : Option Text) : (elsewhere source s).2.sent = s.sent := by
  cases hbuild : (Snapshot.build s.nextVersion source).result with
  | error e => rw [elsewhere_of_error hbuild]
  | ok n => rw [elsewhere_of_ok hbuild]

/-- An update asks for one dump, whether it succeeds or not. -/
theorem sent_update : (update c s).2.sent = s.sent ++ [.dump] := by
  cases hdump : (c.dump s.device).1 with
  | error e =>
      rw [(update_of_error hdump).2]
      rfl
  | ok source =>
      rw [update_of_ok hdump, sent_load]
      rfl

/-- An element at an index is one of the list. -/
theorem mem_of_atIndex {α : Type} {xs : List α} {i : Int} {x : α} (h : atIndex xs i = some x) :
    x ∈ xs := by
  unfold atIndex at h
  exact List.mem_of_getElem? (Option.ite_none_left_eq_some.mp h).2

end Screen

end UiTree
