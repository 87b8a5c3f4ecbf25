import UiTree.Event

/-!
# UiTree.Report -- results together with what happened on the way

A `Report` is the outcome of an operation, a value or a fault, with the events of the operation in
order. Events that precede a failure are kept.

* **Sequencing.** `bind` runs the second operation only after a success, and appends its events.
* **Main statements.** `result_bind` and `events_bind` say what sequencing does to the two parts;
  `result_bind_eq_ok_iff` takes a success apart.
-/

namespace UiTree

/-- A value or a fault, and the events that led to it. -/
structure Report (α : Type) where
  events : List Event
  result : Except Fault α

namespace Report

variable {α β : Type}

/-- A value without events. -/
def ok (a : α) : Report α := ⟨[], .ok a⟩

/-- A fault without events. -/
def fail (e : Fault) : Report α := ⟨[], .error e⟩

/-- An outcome without events. -/
def of (r : Except Fault α) : Report α := ⟨[], r⟩

/-- One event. -/
def tell (e : Event) : Report Unit := ⟨[e], .ok ()⟩

/-- One operation after another. -/
def bind (r : Report α) (f : α → Report β) : Report β :=
  match r.result with
  | .ok a => ⟨r.events ++ (f a).events, (f a).result⟩
  | .error e => ⟨r.events, .error e⟩

instance : Monad Report where
  pure := ok
  bind := bind

@[simp] theorem result_pure (a : α) : (pure a : Report α).result = .ok a := rfl

@[simp] theorem events_pure (a : α) : (pure a : Report α).events = [] := rfl

@[simp] theorem result_of (r : Except Fault α) : (of r).result = r := rfl

@[simp] theorem events_of (r : Except Fault α) : (of r).events = [] := rfl

theorem result_bind (r : Report α) (f : α → Report β) :
    (r >>= f).result = r.result >>= fun a => (f a).result := by
  show (bind r f).result = _
  unfold bind
  cases r.result <;> rfl

theorem events_bind (r : Report α) (f : α → Report β) :
    (r >>= f).events =
      r.events ++ (match r.result with | .ok a => (f a).events | .error _ => []) := by
  show (bind r f).events = _
  unfold bind
  cases r.result <;> simp

theorem result_bind_of_ok {r : Report α} {f : α → Report β} {a : α} (h : r.result = .ok a) :
    (r >>= f).result = (f a).result := by
  rw [result_bind, h]
  rfl

theorem result_bind_of_error {r : Report α} {f : α → Report β} {e : Fault}
    (h : r.result = .error e) : (r >>= f).result = .error e := by
  rw [result_bind, h]
  rfl

theorem result_bind_eq_ok_iff {r : Report α} {f : α → Report β} {b : β} :
    (r >>= f).result = .ok b ↔ ∃ a, r.result = .ok a ∧ (f a).result = .ok b := by
  rw [result_bind]
  cases h : r.result with
  | error e =>
    constructor
    · intro he
      cases he
    · rintro ⟨a, ha, -⟩
      cases ha
  | ok a =>
    constructor
    · intro ha
      exact ⟨a, rfl, ha⟩
    · rintro ⟨a', ha, hb⟩
      cases ha
      exact hb

end Report

end UiTree
