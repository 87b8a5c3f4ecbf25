import UiTree.Event
import UiTree.Schema
import UiTree.Text.Uppercase

/-!
# UiTree.Settings -- how the query service is set up

Every setting has a default, may be set by a variable of the environment, and may be set once more
by an override, which wins. What is set is checked, whichever way it comes.

* **Log thresholds.** The name of a level is looked up without regard to case among all names that
  are known to the log; an unknown name counts as `INFO`.
-/

namespace UiTree

/-- The set-up of the service. -/
structure Settings where
  strictKeys : Bool
  logLevel : Level
  host : Text
  port : { i : Int // 1 ≤ i ∧ i ≤ 65535 }

namespace Settings

/-- The port when none is set. -/
def defaultPort : { i : Int // 1 ≤ i ∧ i ≤ 65535 } := ⟨8000, by decide⟩

/-- The log levels that can be set. -/
def levels : List (Text × Level) :=
  [Level.debug, .info, .warning, .error].map fun l => (l.name, l)

/-- A log level by its name, in any case. -/
def level : Check Level
  | .text t => (Check.oneOf levels (.text (Text.upper t))).mapError fun es =>
      es.map fun e => { e with found := .text t }
  | d => Check.oneOf levels d

/-- The settings in a record. -/
def ofDatum : Check Settings := fun d =>
  let c : Checked (Bool → Level → Text → { i : Int // 1 ≤ i ∧ i ≤ 65535 } → Settings) :=
    .ok Settings.mk
  let c := c.also (Check.optional "strict_keys".toList true Check.truth d)
  let c := c.also (Check.optional "log_level".toList .info level d)
  let c := c.also (Check.optional "host".toList "127.0.0.1".toList Check.text d)
  c.also (Check.optional "port".toList defaultPort (Check.integerWithin 1 65535) d)

/-- The names of the settings. -/
def names : List Text :=
  ["strict_keys".toList, "log_level".toList, "host".toList, "port".toList]

/-- What the names of variables begin with. -/
def variableStart : Text := "UI_QUERY_".toList

/-- The value of one setting: the override unless it is null, else the variable. -/
def chosen (env overrides : Datum) (name : Text) : Option Datum :=
  match overrides.field? name with
  -- an override that is null leaves the variable in force
  | some .null | none => env.field? (variableStart ++ name.map Char.toUpper)
  | some d => some d

/-- The settings from an environment and overrides. -/
def load (env overrides : Datum) : Checked Settings :=
  ofDatum (.record (names.filterMap fun n => (chosen env overrides n).map fun d => (n, d)))

end Settings

/-- What a log is set to: a numeric threshold, or a text where a name does not stand for a level. -/
inductive Threshold where
  | number (n : Nat)
  | pattern (t : Text)
  deriving DecidableEq, Repr

namespace Threshold

/-- The names that a log knows. -/
def known : List (Text × Threshold) :=
  [("CRITICAL".toList, .number 50), ("FATAL".toList, .number 50), ("ERROR".toList, .number 40),
   ("WARNING".toList, .number 30), ("WARN".toList, .number 30), ("INFO".toList, .number 20),
   ("DEBUG".toList, .number 10), ("NOTSET".toList, .number 0),
   ("BASIC_FORMAT".toList, .pattern "%(levelname)s:%(name)s:%(message)s".toList)]

/-- The threshold of a name; that of `INFO` when the name is not known. -/
def ofName (t : Text) : Threshold :=
  ((known.find? fun k => k.1 == Text.upper t).map Prod.snd).getD (.number 20)

end Threshold

/-- The form of a line of the log. -/
def logFormat : Text := "%(asctime)s - %(name)s - %(levelname)s - %(message)s".toList

end UiTree
