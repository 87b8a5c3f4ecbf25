import UiTree.Selector.Basic

/-!
# UiTree.Device -- what a device is asked to do

Everything that reaches a device is an `Action`, and a `Channel` carries it there. How the channel
works is left open: it has a state of its own, may answer anything, and may fail.

* **Arguments.** Times, texts to type and package names are passed on as they come; only the device
  gives them a meaning.
-/

namespace UiTree

/-- A request to a device. -/
inductive Action where
  | dump
  | tap (x y : Int)
  | longPress (x y : Int) (timeout : Datum)
  | inputText (text interval : Datum)
  | clearField
  | waitForExists (selector : Selector) (timeout : Datum)
  | waitUntilGone (selector : Selector) (timeout : Datum)
  | waitForWindowUpdate (package timeout : Datum)

namespace Action

/-- The name by which a device knows an action. -/
def name : Action → Text
  | .dump => "get_ui_xml".toList
  | .tap .. => "tap".toList
  | .longPress .. => "long_press".toList
  | .inputText .. => "input_text".toList
  | .clearField => "clear_field".toList
  | .waitForExists .. => "wait_for_exists".toList
  | .waitUntilGone .. => "wait_until_gone".toList
  | .waitForWindowUpdate .. => "wait_for_window_update".toList

/-- Does the action touch the screen at a point? -/
def point? : Action → Option (Int × Int)
  | .tap x y => some (x, y)
  | .longPress x y _ => some (x, y)
  | _ => none

end Action

/-- The way to a device whose state is `σ`: how it dumps its hierarchy, and how it does the rest. -/
structure Channel (σ : Type) where
  dump : σ → Except Fault (Option Text) × σ
  perform : Action → σ → Except Fault Datum × σ

end UiTree
