import UiTree.Selector.Basic

/-!
# UiTree.Event -- what is written to the log

Operations report what they did as `Event`s. An event is a fact of the domain; the level it is
logged at, the channel it is logged on and its wording are functions of it.

* **Levels.** Finished work is information, its steps are for debugging, an ignored group of a
  selector is a warning, and a failed request is an error.
-/

namespace UiTree

/-- How important a log record is. -/
inductive Level where
  | debug
  | info
  | warning
  | error
  deriving DecidableEq, Repr

namespace Level

/-- The name of a level. -/
def name : Level → Text
  | .debug => "DEBUG".toList
  | .info => "INFO".toList
  | .warning => "WARNING".toList
  | .error => "ERROR".toList

end Level

/-- Something worth recording. -/
inductive Event where
  | selectorRead (text : Text) (count : Nat)
  | groupIgnored (group : Text)
  | compiled (selector : Selector) (path : Text)
  | indexed (version count : Nat)
  | noNodes (path kind : Text)
  | pathMatched (path : Text) (count : Nat)
  | nativelyMatched (selector : Selector) (count : Nat)
  | moved (before after : Nat)
  | tapped (x y : Int) (node : Text)
  | stored (version : Nat) (serial : Text) (count : Nat)
  | answered (serial : Text) (version count : Nat)
  | indexingFailed (serial : Text) (why : Fault)
  | compilingFailed (text : Text) (why : Fault)
  | queryFailed (serial : Text) (why : Fault)
  | childQueryFailed (serial : Text) (why : Fault)

namespace Event

/-- The level that an event is logged at. -/
def level : Event → Level
  | .selectorRead .. | .compiled .. | .noNodes .. | .pathMatched .. | .nativelyMatched .. => .debug
  | .indexed .. | .moved .. | .tapped .. | .stored .. | .answered .. => .info
  | .groupIgnored .. => .warning
  | .indexingFailed .. | .compilingFailed .. | .queryFailed .. | .childQueryFailed .. => .error

/-- The channel that an event is logged on. -/
def channel : Event → Text
  | .selectorRead .. | .groupIgnored .. => "ui_query.selector_parser".toList
  | .compiled .. => "ui_query.xpath_compiler".toList
  | .indexed .. | .noNodes .. => "ui_query.snapshot".toList
  | .pathMatched .. | .nativelyMatched .. => "ui_query.query".toList
  | .moved .. | .tapped .. => "ui_query.screen".toList
  | .stored .. | .answered .. | .indexingFailed .. | .compilingFailed .. | .queryFailed ..
  | .childQueryFailed .. => "ui_query.api".toList

/-- The wording of an event. -/
def message : Event → Text
  | .selectorRead t n =>
    "Parsed selector ".toList ++ Text.quoted t ++ " into ".toList ++ Text.ofNat n
      ++ " predicate(s)".toList
  | .groupIgnored g => "Ignoring unknown selector attribute in ".toList ++ Text.quoted g
  | .compiled s path => "Compiled ".toList ++ s.describe ++ " -> ".toList ++ path
  | .indexed v n =>
    "Indexed snapshot v".toList ++ Text.ofNat v ++ ": ".toList ++ Text.ofNat n ++ " nodes".toList
  | .noNodes path kind =>
    "XPath ".toList ++ Text.quoted path ++ " returned a ".toList ++ kind
      ++ ", not a node-set".toList
  | .pathMatched path n =>
    "XPath ".toList ++ Text.quoted path ++ " matched ".toList ++ Text.ofNat n ++ " node(s)".toList
  | .nativelyMatched s n =>
    "Native match ".toList ++ s.describe ++ " matched ".toList ++ Text.ofNat n
      ++ " node(s)".toList
  | .moved a b =>
    "Screen moved from snapshot v".toList ++ Text.ofNat a ++ " to v".toList ++ Text.ofNat b
  | .tapped x y node =>
    "Tap at (".toList ++ Text.ofInt x ++ ", ".toList ++ Text.ofInt y ++ ") on ".toList ++ node
  | .stored v serial n =>
    "[store] Snapshot v".toList ++ Text.ofNat v ++ " stored for ".toList ++ serial ++ " (".toList
      ++ Text.ofNat n ++ " nodes)".toList
  | .answered serial v n =>
    "Query on ".toList ++ serial ++ " (v".toList ++ Text.ofNat v ++ ") found ".toList
      ++ Text.ofNat n ++ " match(es)".toList
  | .indexingFailed serial why =>
    "Error indexing snapshot for ".toList ++ serial ++ ": ".toList ++ why.message
  | .compilingFailed t why =>
    "Error compiling selector ".toList ++ Text.quoted t ++ ": ".toList ++ why.message
  | .queryFailed serial why => "Error in query for ".toList ++ serial ++ ": ".toList ++ why.message
  | .childQueryFailed serial why =>
    "Error in child query for ".toList ++ serial ++ ": ".toList ++ why.message

end Event

end UiTree
