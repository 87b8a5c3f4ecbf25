import Mathlib.Data.List.TakeWhile
import UiTree.Proofs.Lookup
import UiTree.Proofs.Query.PathRoute
import UiTree.Proofs.Query.Unforgeable

/-!
# UiTree.Proofs.Query.Resubmitted -- path text handed back as a query

The path text of a selector can be handed back as a hand-written path expression. Nothing is known
about it then but the text, and yet nothing is lost: its first step says whether it starts at the
document, and the scope says where it starts otherwise.

* **Classification.** `isRelativePath_path`: path text is relative exactly when it was compiled for
  the descendants of a node, whatever the values in it look like.
* **Outcomes.** `SameButNamed`: the same outcome, except that an absence tells the query as it was
  asked.
* **Main statements.** `ofPath_path`: what is known about the text as a hand-written path expression
  is what the compilation knew. `findAll_text`, `findOne_text` and `findChildren_text`: the text
  finds what the selector finds.
-/

namespace UiTree

/-- A text that begins with a character that is no blank is not all blank. -/
theorem Text.isEmpty_trim_cons {c : Char} (hc : Text.isBlank c = false) (t : Text) :
    (Text.trim (c :: t)).isEmpty = false := by
  have hstart : (c :: t).dropWhile Text.isBlank = c :: t :=
    List.dropWhile_cons_of_neg (by simp [hc])
  have hkept : (c :: t).reverse.dropWhile Text.isBlank ≠ [] := by
    intro hnil
    have hblank := List.dropWhile_eq_nil_iff.mp hnil c (by simp)
    rw [hc] at hblank
    cases hblank
  rw [Text.trim, Text.trimBoth, hstart]
  simpa using hkept

namespace Selector

variable {sel : Selector} {scope : Scope} {q : PathQuery}

/-- What a compilation knows: the path text, the kind of the scope and its context. -/
theorem eq_of_compile (h : (sel.compile scope).result = .ok q) :
    sel.predicates ≠ [] ∧ sel.pathText scope = .ok q.path ∧
      q = ⟨q.path, scope.isDocument, scope.context⟩ := by
  have hne : sel.predicates ≠ [] := by
    intro hempty
    rw [compile, isEmpty, hempty] at h
    cases h
  have ht := pathText_of_compile h
  rw [Snapshot.result_compile hne ht] at h
  exact ⟨hne, ht, (Except.ok.inj h).symm⟩

/-- **The first step tells the scope**: the axis stands at the start of the text, or behind the
parenthesis that a position needs. -/
theorem isRelativePath_path (h : (sel.compile scope).result = .ok q) :
    isRelativePath q.path = !scope.isDocument := by
  obtain ⟨-, ht, -⟩ := eq_of_compile h
  rw [eq_positioned_of_pathText ht, bodyText, axisText]
  cases sel.matchIndex with
  | none => cases scope.isDocument <;> rfl
  | some k => cases scope.isDocument <;> rfl

theorem isEmpty_trim_path (h : (sel.compile scope).result = .ok q) :
    (Text.trim q.path).isEmpty = false := by
  obtain ⟨-, ht, -⟩ := eq_of_compile h
  rw [eq_positioned_of_pathText ht, bodyText, axisText]
  cases sel.matchIndex with
  | none => cases scope.isDocument <;> exact Text.isEmpty_trim_cons (by decide) _
  | some k => exact Text.isEmpty_trim_cons (by decide) _

/-- **Nothing is lost in the text**: handed back in the same scope, it is known to be what it was
compiled as. -/
theorem ofPath_path (h : (sel.compile scope).result = .ok q) :
    PathQuery.ofPath q.path scope.context = q := by
  obtain ⟨-, -, hq⟩ := eq_of_compile h
  rw [PathQuery.ofPath, isRelativePath_path h, Bool.not_not, ← hq]

/-- Compiled for the descendants of one node, a selector has the same text below any other node. -/
theorem compile_descendantsOf {a : Address}
    (h : (sel.compile (Scope.descendantsOf a)).result = .ok q) (b : Address) :
    (sel.compile (Scope.descendantsOf b)).result = .ok ⟨q.path, false, some b⟩ := by
  obtain ⟨hne, ht, -⟩ := eq_of_compile h
  have htext : sel.pathText (Scope.descendantsOf b) = .ok q.path := ht
  rw [Snapshot.result_compile hne htext]
  rfl

end Selector

/-! ## Outcomes -/

/-- The same outcome, except that an absence names the query as it was asked. -/
inductive SameButNamed {α : Type} : Except Fault α → Except Fault α → Prop where
  | same (o : Except Fault α) : SameButNamed o o
  | missing (query query' : Text) (what : Missing) :
    SameButNamed (.error (.notFound query what)) (.error (.notFound query' what))

/-- **One operation after another.** -/
theorem SameButNamed.bind {α β : Type} {r r' : Report α} {f g : α → Report β}
    (h : SameButNamed r.result r'.result)
    (hfg : ∀ a, r.result = .ok a → SameButNamed (f a).result (g a).result) :
    SameButNamed (r >>= f).result (r' >>= g).result := by
  rw [Report.result_bind, Report.result_bind]
  generalize r.result = o at h hfg
  generalize r'.result = o' at h
  cases h with
  | same o =>
      cases o with
      | error e => exact .same _
      | ok a => exact hfg a rfl
  | missing query query' what => exact .missing query query' what

namespace Snapshot

variable {s : Snapshot} {sel : Selector} {scope : Scope} {q : PathQuery}

/-- **The text of a selector finds what the selector finds**, and fails as it fails. -/
theorem findAll_text (h : (sel.compile scope).result = .ok q) :
    (s.findAll .path (.path q.path) scope).result =
      (s.findAll .path (.selector sel) scope).result := by
  have hcompile : (compileQuery scope (.path q.path)).result =
      (compileQuery scope (.selector sel)).result := by
    rw [compileQuery, compileQuery, h, Selector.isEmpty_trim_path h]
    exact congrArg Except.ok (Selector.ofPath_path h)
  simp only [findAll, run, runPath, Report.result_bind, hcompile]

theorem findOne_text (h : (sel.compile scope).result = .ok q) :
    SameButNamed (s.findOne .path (.path q.path) scope).result
      (s.findOne .path (.selector sel) scope).result := by
  rw [findOne, findOne, Report.result_bind, Report.result_bind, findAll_text h]
  cases (s.findAll .path (.selector sel) scope).result with
  | error e => exact .same _
  | ok ns =>
      cases ns with
      | nil => exact .missing _ _ _
      | cons n ns => exact .same _

theorem findChildren_text {a : Address}
    (h : (sel.compile (Scope.descendantsOf a)).result = .ok q) {parent : Node}
    (hparent : parent.snapshot.version = s.version) :
    SameButNamed (s.findChildren .path (.path q.path) parent).result
      (s.findChildren .path (.selector sel) parent).result := by
  have hbelow := Selector.compile_descendantsOf h parent.path.address
  rw [findChildren_eq hparent (by simp), findChildren_eq hparent (by simp), Report.result_bind,
    Report.result_bind, findAll_text hbelow]
  cases (s.findAll .path (.selector sel) (Scope.descendantsOf parent.path.address)).result with
  | error e => exact .same _
  | ok ns =>
      cases ns with
      | nil => exact .missing _ _ _
      | cons n ns => exact .same _

end Snapshot

end UiTree
