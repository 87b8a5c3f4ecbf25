import UiTree.Xml.Char

/-!
# UiTree.Xml.Notice -- what is noted while a document is read

Most defects end the reading of a document. A few are only noted: warnings, defects of names and
namespaces, and references to entities that are not declared. Whether a document with such notices
is taken is decided by **the last of them**: a warning clears what went before it. A document whose
defects are undeclared entities alone is taken as well.

* **Rule.** `accepts` is that decision.
* **Comments and instructions** are read here, because both prologs and contents hold them.
-/

namespace UiTree.Xml

/-- A defect that does not end the reading. -/
inductive Notice where
  | warning
  | fault
  | undeclared
  deriving DecidableEq, Repr

/-- Is a document with these notices, in the order in which they arose, taken? -/
def accepts (notices : List Notice) : Bool :=
  match notices.getLast? with
  | none => true
  | some .warning => true
  | some _ => !notices.contains .fault

/-- A comment after its opening mark: its content, and what follows its closing mark. Two hyphens
may stand only at its end. -/
def readComment (t : Text) : Option (Text × Text) :=
  match Text.cutAt ['-', '-'] t with
  | some (body, '>' :: rest) => if body.all isXmlChar then some (body, rest) else none
  | _ => none

/-- An instruction after its opening mark: its target, its content, and what follows. -/
def readInstruction (t : Text) : Option (Text × Text × Text) := do
  let (target, t) ← readName t
  if target = "xml".toList then none
  else
    match Text.cutStart ['?', '>'] t with
    | some rest => some (target, [], rest)
    | none => do
      let t ← needSpace t
      let (body, rest) ← Text.cutAt ['?', '>'] t
      if body.all isXmlChar then some (target, body, rest) else none

/-- The targets with the reserved start that are in use. -/
def reservedTargets : List Text := ["xml-stylesheet".toList, "xml-model".toList]

/-- What is noted about the target of an instruction: a reserved start, or a colon. -/
def targetNotices (target : Text) : List Notice :=
  let reserved := (target.take 3).map Char.toLower == "xml".toList
  let colon := if target.contains ':' then [Notice.fault] else []
  if reserved && target.length == 3 then [.fault]
  else if reserved && reservedTargets.contains target then []
  else if reserved then .warning :: colon
  else colon

end UiTree.Xml
