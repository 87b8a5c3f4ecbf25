import UiTree.Settings

/-!
# UiTree.CommandLine -- starting the query service from a command line

The words of a command line are first told apart, all of them, and then read from left to right. A
word is an option, a value, or neither.

* **Options.** An option may be shortened as long as only one begins so, and may carry its value
  after an equals sign; the one-letter options carry it directly. After a word of two dashes
  everything is a value. A negative number is a value, and so is anything with a space in it.
* **Order of faults.** An ambiguous word is refused before anything is read. Values are checked as
  they are read, and words that nothing takes are refused at the end.
* **Overrides.** What the command line gives wins over the environment.
-/

namespace UiTree.CommandLine

/-- The options. -/
inductive Flag where
  | help
  | port
  | host
  | logLevel
  | lenientKeys
  deriving DecidableEq, Repr

namespace Flag

/-- The spellings of the options. -/
def spellings : List (Text × Flag) :=
  [("-h".toList, .help), ("--help".toList, .help), ("--port".toList, .port), ("-p".toList, .port),
   ("--host".toList, .host), ("--log-level".toList, .logLevel),
   ("--lenient-keys".toList, .lenientKeys)]

/-- The option of a spelling. -/
def ofSpelling? (t : Text) : Option Flag := spellings.lookup t

/-- Does the option take a value? -/
def takesValue : Flag → Bool
  | .help | .lenientKeys => false
  | .port | .host | .logLevel => true

/-- The name of the option in messages: its spellings with slashes between them. -/
def title (f : Flag) : Text :=
  Text.join ['/'] ((spellings.filter fun s => s.2 = f).map Prod.fst)

end Flag

/-- Why a command line is refused. -/
inductive Misuse where
  | ambiguous (word : Text) (spellings : List Text)
  | noValue (f : Flag)
  | ignoredValue (f : Flag) (value : Text)
  | badInteger (f : Flag) (value : Text)
  | badChoice (f : Flag) (value : Text) (choices : List Text)
  | unrecognized (words : List Text)
  deriving DecidableEq, Repr

namespace Misuse

/-- A message about an option. -/
def about (f : Flag) (t : Text) : Text := "argument ".toList ++ f.title ++ ':' :: ' ' :: t

/-- The message of a misuse. -/
def message : Misuse → Text
  | .ambiguous word spellings =>
    "ambiguous option: ".toList ++ word ++ " could match ".toList ++ Text.join [',', ' '] spellings
  | .noValue f => about f "expected one argument".toList
  | .ignoredValue f value => about f ("ignored explicit argument ".toList ++ Text.quoted value)
  | .badInteger f value => about f ("invalid int value: ".toList ++ Text.quoted value)
  | .badChoice f value choices =>
    about f ("invalid choice: ".toList ++ Text.quoted value ++ " (choose from ".toList
      ++ Text.join [',', ' '] (choices.map Text.quoted) ++ [')'])
  | .unrecognized words => "unrecognized arguments: ".toList ++ Text.join [' '] words

end Misuse

/-! ## Telling words apart -/

/-- A text that is attached to the spelling of an option: after an equals sign, or directly. -/
structure Attached where
  joined : Bool
  text : Text
  deriving DecidableEq, Repr

/-- How a word is understood. -/
inductive Role where
  | value
  | flag (f : Flag) (spelling : Text) (attached : Option Attached)
  | unknown
  deriving DecidableEq, Repr

/-- Is the word a negative number? One line feed may follow it. -/
def isNegativeNumber (word : Text) : Bool :=
  match word with
  | '-' :: body =>
    let body := if body.getLast? = some '\n' then body.dropLast else body
    let (whole, rest) := Text.spanDigits body
    match rest with
    | [] => !whole.isEmpty
    | '.' :: fraction => !fraction.isEmpty && fraction.all Text.isDigit
    | _ => false
  | _ => false

/-- The text before the first equals sign, and the text after it when there is one. -/
def cutValue (word : Text) : Text × Option Attached :=
  match Text.cutAt ['='] word with
  | some (before, after) => (before, some ⟨true, after⟩)
  | none => (word, none)

/-- The options that a word may stand for, with spelling and attached value. -/
def candidates (word : Text) : List (Flag × Text × Option Attached) :=
  if Text.isStart ['-', '-'] word then
    let (start, attached) := cutValue word
    (Flag.spellings.filter fun s => Text.isStart start s.1).map fun s => (s.2, s.1, attached)
  else
    (Flag.spellings.filter fun s => s.1 == word.take 2).map fun s =>
      (s.2, s.1, some ⟨false, word.drop 2⟩)

/-- The option that a word spells out, with an attached value after an equals sign. -/
def spelledOut? (word : Text) : Option Role :=
  match Flag.ofSpelling? word, cutValue word with
  | some f, _ => some (.flag f word none)
  | none, (spelling, some v) => (Flag.ofSpelling? spelling).map fun f => .flag f spelling (some v)
  | none, (_, none) => none

/-- How one word is understood. -/
def role (word : Text) : Except Misuse Role :=
  -- an empty word and a single dash are values
  if word.head? ≠ some '-' ∨ word = ['-'] then .ok .value
  else
    match spelledOut? word, candidates word with
    | some r, _ => .ok r
    | none, [(f, spelling, attached)] => .ok (.flag f spelling attached)
    | none, [] =>
      if isNegativeNumber word || word.contains ' ' then .ok .value else .ok .unknown
    | none, several => .error (.ambiguous word (several.map fun c => c.2.1))

/-- The words of a command line with their roles; after two dashes all words are values. The flag
of a word says whether an option can take it as its value. -/
def roles : List Text → Except Misuse (List (Text × Role × Bool))
  | [] => .ok []
  | word :: words =>
    if word = ['-', '-'] then
      .ok ((word, .value, false) :: words.map fun w => (w, .value, true))
    else do
      let r ← role word
      let rest ← roles words
      return (word, r, r == .value) :: rest

/-! ## Reading the words -/

/-- What a command line asks for. -/
structure Options where
  port : Option Int
  host : Option Text
  logLevel : Option Text
  lenientKeys : Bool
  deriving DecidableEq, Repr

/-- Why reading stops: help is asked for, or the command line is refused. -/
inductive Stop where
  | help
  | misuse (m : Misuse)

/-- The integer of a text: blanks around it, a sign, and digits with single underscores. -/
def integer? (t : Text) : Option Int :=
  let (negative, body) := match Text.trimBoth Text.isWhite t with
    | '-' :: r => (true, r)
    | '+' :: r => (false, r)
    | r => (false, r)
  let parts := Text.pieces '_' body
  let digits := parts.flatten
  if parts.all (fun p => !p.isEmpty && p.all Text.isDigit) && digits.length ≤ 4300 then
    let n : Int := Text.number digits
    some (if negative then -n else n)
  else none

/-- The names of the log levels that can be chosen. -/
def levelNames : List Text := Settings.levels.map Prod.fst

/-- The options after an option with its value. -/
def Options.set (o : Options) (f : Flag) (value : Text) : Except Stop Options :=
  match f with
  | .port =>
    match integer? value with
    | some i => .ok { o with port := some i }
    | none => .error (.misuse (.badInteger f value))
  | .host => .ok { o with host := some value }
  | .logLevel =>
    let name := Text.upper value
    if levelNames.contains name then .ok { o with logLevel := some name }
    else .error (.misuse (.badChoice f name levelNames))
  | .help | .lenientKeys => .ok o

/-- The options after an option without a value. -/
def Options.raise (o : Options) : Flag → Except Stop Options
  | .help => .error .help
  | .lenientKeys => .ok { o with lenientKeys := true }
  | .port | .host | .logLevel => .ok o

/-- How a word of options ends: with an option and what is attached to it, or with letters that are
no option. -/
inductive Tail where
  | option (f : Flag) (value : Option Text)
  | stray (letters : Text)
  deriving DecidableEq, Repr

/-- The options in a word of one-letter options, those before the last first. What is attached to an
option without a value is read as more letters, unless an equals sign or a dash forbids that. -/
def expandLetters (f : Flag) (joined : Bool) (t : Text) : Except Misuse (List Flag × Tail) :=
  if f.takesValue then .ok ([], .option f (some t))
  else
    match t with
    | [] => .error (.ignoredValue f [])
    | c :: rest =>
      if joined || c == '-' then .error (.ignoredValue f (c :: rest))
      else
        match Flag.ofSpelling? ['-', c], rest with
        | none, _ => .ok ([f], .stray ('-' :: c :: rest))
        | some g, [] => .ok ([f], .option g none)
        | some g, '=' :: value => (expandLetters g true value).map fun (fs, e) => (f :: fs, e)
        | some g, more => (expandLetters g false more).map fun (fs, e) => (f :: fs, e)

/-- The options in one word. -/
def expand (f : Flag) (spelling : Text) :
    Option Attached → Except Misuse (List Flag × Tail)
  | none => .ok ([], .option f none)
  | some ⟨joined, t⟩ =>
    if Text.isStart ['-', '-'] spelling && !f.takesValue then .error (.ignoredValue f t)
    else expandLetters f joined t

/-- Reads words, and gives the options with the words that nothing takes. -/
def readWords (o : Options) : List (Text × Role × Bool) → Except Stop (Options × List Text)
  | [] => .ok (o, [])
  | (_, .flag f spelling attached, _) :: rest =>
    match expand f spelling attached with
    | .error m => .error (.misuse m)
    | .ok (before, .stray letters) => do
      let o ← before.foldlM Options.raise o
      let (o, extra) ← readWords o rest
      return (o, letters :: extra)
    | .ok (before, .option last value) =>
      if last.takesValue then
        -- the value stands in the same word, or it is the next word
        match value, rest with
        | some v, rest => do
          let o ← before.foldlM Options.raise o
          readWords (← o.set last v) rest
        | none, (v, _, true) :: rest => do
          let o ← before.foldlM Options.raise o
          readWords (← o.set last v) rest
        | none, _ => .error (.misuse (.noValue last))
      else do
        let o ← before.foldlM Options.raise o
        readWords (← o.raise last) rest
  | (word, _, _) :: rest => do
    let (o, extra) ← readWords o rest
    return (o, word :: extra)

/-- The options of a command line. -/
def read (words : List Text) : Except Stop Options :=
  match roles words with
  | .error m => .error (.misuse m)
  | .ok rs => do
    match ← readWords ⟨none, none, none, false⟩ rs with
    | (o, []) => return o
    | (_, extra) => .error (.misuse (.unrecognized extra))

/-! ## What is printed -/

/-- Lines, each with a line feed at its end. -/
def lines (ls : List Text) : Text := ls.flatMap fun l => l ++ ['\n']

/-- How the program is called. -/
def usage : Text :=
  lines ["usage: android-ui-query [-h] [--port PORT] [--host HOST]".toList,
    "                        [--log-level \x7bDEBUG,INFO,WARNING,ERROR\x7d]".toList,
    "                        [--lenient-keys]".toList]

/-- How the program is called, and what its options do. -/
def help : Text :=
  usage ++ lines [[],
    "Android UI Query - selector and XPath lookups over UI hierarchy dumps".toList, [],
    "options:".toList,
    "  -h, --help            show this help message and exit".toList,
    "  --port PORT, -p PORT  Port to run the server (default: 8000 or".toList,
    "                        UI_QUERY_PORT)".toList,
    "  --host HOST           Host to bind (default: 127.0.0.1 or UI_QUERY_HOST)".toList,
    "  --log-level \x7bDEBUG,INFO,WARNING,ERROR\x7d".toList,
    "                        Logging level (default: INFO or UI_QUERY_LOG_LEVEL)".toList,
    "  --lenient-keys        Drop unknown selector attributes instead of rejecting".toList,
    "                        the selector".toList]

/-- The message for a misuse. -/
def refusal (m : Misuse) : Text :=
  usage ++ lines ["android-ui-query: error: ".toList ++ m.message]

/-- What is printed when the service starts. -/
def announcement (s : Settings) : Text :=
  let address := "http://".toList ++ s.host ++ ':' :: Text.ofInt s.port
  let rule := List.replicate 40 '='
  lines [[], "Android UI Query".toList, rule, "Server:   ".toList ++ address,
    "API Docs: ".toList ++ address ++ "/docs".toList,
    "Selector keys: ".toList ++ (if s.strictKeys then "strict".toList else "lenient".toList), rule]

/-! ## The whole start -/

/-- The overrides that the options make. -/
def Options.overrides (o : Options) : Datum :=
  .record [("host".toList, o.host.elim .null .text), ("port".toList, o.port.elim .null .int),
    ("log_level".toList, o.logLevel.elim .null .text),
    ("strict_keys".toList, if o.lenientKeys then .bool false else .null)]

/-- How a start ends. -/
inductive Outcome where
  | helped
  | misused (m : Misuse)
  | invalid (complaints : List Complaint)
  | started (settings : Settings)

/-- The outcome of a command line in an environment. -/
def start (words : List Text) (env : Datum) : Outcome :=
  match read words with
  | .error .help => .helped
  | .error (.misuse m) => .misused m
  | .ok o =>
    match Settings.load env o.overrides with
    | .ok s => .started s
    | .error complaints => .invalid complaints

end UiTree.CommandLine
