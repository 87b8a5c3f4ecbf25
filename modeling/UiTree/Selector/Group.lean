import UiTree.Fault

/-!
# UiTree.Selector.Group -- the bracket groups of a selector text

A selector text is a row of **groups**: an opening bracket, a body in which brackets are balanced,
and a closing bracket. Bodies may hold brackets of their own, so a group ends where the nesting
depth returns to zero.

* **The reader.** `scan` yields the groups from the left, and the fault that stopped it, if one did:
  characters outside of brackets, or a group that is never closed.
* **The rule.** `Balanced` says on its own which bodies are possible: no start of the body has more
  closing than opening brackets, and the whole has as many of either kind.
* **Main statement.** `append_of_cutBody`: what is cut off and what is left make up the text.
-/

namespace UiTree

/-- How a bracket changes the nesting depth. -/
def bracketStep : Char → Int
  | '[' => 1
  | ']' => -1
  | _ => 0

/-- The nesting depth at the end of a text. -/
def depth : Text → Int
  | [] => 0
  | c :: t => bracketStep c + depth t

/-- A text whose brackets are balanced. -/
def Balanced (t : Text) : Prop := (∀ s, s <+: t → 0 ≤ depth s) ∧ depth t = 0

/-- The text up to the bracket that closes the current group, and what follows that bracket; `d` is
the number of groups opened inside. -/
def cutBody : Nat → Text → Option (Text × Text)
  | _, [] => none
  | d, c :: t =>
    if c = '[' then (cutBody (d + 1) t).map fun (body, rest) => (c :: body, rest)
    else if c = ']' then
      match d with
      | 0 => some ([], t)
      | d + 1 => (cutBody d t).map fun (body, rest) => (c :: body, rest)
    else (cutBody d t).map fun (body, rest) => (c :: body, rest)

theorem append_of_cutBody {d : Nat} {t body rest : Text} (h : cutBody d t = some (body, rest)) :
    t = body ++ ']' :: rest := by
  induction t generalizing d body rest with
  | nil => simp [cutBody] at h
  | cons c t ih =>
    simp only [cutBody] at h
    split at h
    · obtain ⟨⟨b, r⟩, hb, he⟩ := Option.map_eq_some_iff.1 h
      cases he
      simp [ih hb]
    · split at h
      · next hc =>
        subst hc
        split at h
        · cases h
          rfl
        · obtain ⟨⟨b, r⟩, hb, he⟩ := Option.map_eq_some_iff.1 h
          cases he
          simp [ih hb]
      · obtain ⟨⟨b, r⟩, hb, he⟩ := Option.map_eq_some_iff.1 h
        cases he
        simp [ih hb]

theorem length_of_cutBody {d : Nat} {t body rest : Text} (h : cutBody d t = some (body, rest)) :
    rest.length < t.length := by
  rw [append_of_cutBody h]
  simp
  omega

/-- One bracket group, given by its body. -/
structure Group where
  body : Text
  deriving DecidableEq, Repr

namespace Group

/-- The group with its brackets. -/
def text (g : Group) : Text := '[' :: g.body ++ [']']

end Group

/-- The groups of a text that could be read, and the fault that stopped the reading, if one did. -/
structure Scan where
  groups : List Group
  fault : Option Fault

/-- Reads the groups of a text from the left. -/
def scan (t : Text) : Scan :=
  match t with
  | [] => ⟨[], none⟩
  | '[' :: rest =>
    match _h : cutBody 0 rest with
    | some (body, after) =>
      let more := scan after
      ⟨⟨body⟩ :: more.groups, more.fault⟩
    | none => ⟨[], some (.malformed .unbalanced (some ('[' :: rest)))⟩
  | c :: rest =>
    ⟨[], some (.malformed .strayText (some ((c :: rest).takeWhile fun d => d != '[')))⟩
termination_by t.length
decreasing_by
  have := length_of_cutBody _h
  simp
  omega

end UiTree
