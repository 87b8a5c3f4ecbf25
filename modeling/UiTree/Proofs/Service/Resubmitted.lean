import UiTree.Proofs.Query.Resubmitted
import UiTree.Proofs.Service.History

/-!
# UiTree.Proofs.Service.Resubmitted -- asking with the path expression that was answered

A client can let the service compile a selector, keep the path expression that it is told, and ask
with that instead of the selector, at any later time and of any snapshot. The responses are the
same, except that a failure is told in terms of what was asked.

* **Requests.** `Compiles`: a request for a compilation that is accepted, with the path expression
  in the response. `Asks` and `AsksBelow`: requests for a query, and for one below a node.
* **Responses.** `Response.SameShown`: the same status and the same fields, but for the detail of a
  failure.
* **Main statement.** `compiled_as_query`, for queries of snapshots and for requests.
-/

namespace UiTree

namespace Response

/-- The value of a field of the record in a response. -/
def field? (r : Response) (name : Text) : Option Datum :=
  match r.content with
  | .json d => d.field? name
  | .text _ => none

/-- Values of fields cannot be compared, but their texts can. -/
theorem field?_eq_some_text {r : Response} {name t : Text}
    (h : ((r.field? name).bind fun d => match d with | .text u => some u | _ => none) = some t) :
    r.field? name = some (.text t) := by
  obtain ⟨d, hd, htext⟩ := Option.bind_eq_some_iff.mp h
  cases d <;> simp at htext
  rw [hd, htext]

theorem field?_forOrigin (origin : Option Text) (r : Response) (name : Text) :
    (r.forOrigin origin).field? name = r.field? name := by
  rw [field?, content_forOrigin, field?]

/-- Responses with the same status and the same fields, but for the detail of a failure. -/
structure SameShown (a b : Response) : Prop where
  status : a.status = b.status
  field? : ∀ name, name ≠ "detail".toList → a.field? name = b.field? name

theorem SameShown.refl (r : Response) : SameShown r r := ⟨rfl, fun _ _ => rfl⟩

theorem SameShown.forOrigin {a b : Response} (h : SameShown a b) (origin origin' : Option Text) :
    SameShown (a.forOrigin origin) (b.forOrigin origin') := by
  refine ⟨?_, ?_⟩
  · rw [status_forOrigin, status_forOrigin]
    exact h.status
  · intro name hname
    rw [field?_forOrigin, field?_forOrigin]
    exact h.field? name hname

end Response

/-- A request for a query of a snapshot. -/
structure Request.Asks (r : Request) (q : Question) : Prop where
  endpoint : r.endpoint? = some .query
  body : Body.read Check.question r.contentType r.body = .ok q

/-- A request for a query below a node. -/
structure Request.AsksBelow (r : Request) (q : ChildQuestion) : Prop where
  endpoint : r.endpoint? = some .children
  body : Body.read Check.childQuestion r.contentType r.body = .ok q

namespace Service

variable {s : Service} {r : Request}

/-! ## Responses to outcomes -/

/-- The response to an outcome. -/
def reply : Except Fault Response → Response
  | .ok response => response
  | .error why => refusal why

theorem answer_eq_reply (event : Fault → Event) (o : Report Response) :
    (answer event o).2 = reply o.result := by
  cases h : o.result with
  | ok response => exact answer_of_ok h
  | error why => exact answer_of_error h

/-- What an absence is called for shows in the detail alone. -/
theorem sameShown_reply {o o' : Except Fault Response} (h : SameButNamed o o') :
    (reply o).SameShown (reply o') := by
  cases h with
  | same o => exact .refl _
  | missing query query' what =>
      refine ⟨rfl, ?_⟩
      intro name hname
      have hdetail : ∀ d : Datum, (Response.detail 404 d).field? name = none := by
        intro d
        show Datum.lookup name [("detail".toList, d)] = none
        exact if_neg hname.symm
      exact (hdetail _).trans (hdetail _).symm

theorem response_of_asks {q : Question} (h : r.Asks q) (s : Service) :
    s.response r = (reply (s.query q).result).forOrigin r.origin := by
  rw [(handle_of_endpoint h.endpoint s).2, perform, withBody, h.body]
  exact congrArg (Response.forOrigin r.origin) (answer_eq_reply _ _)

theorem response_of_asksBelow {q : ChildQuestion} (h : r.AsksBelow q) (s : Service) :
    s.response r = (reply (s.children q).result).forOrigin r.origin := by
  rw [(handle_of_endpoint h.endpoint s).2, perform, withBody, h.body]
  exact congrArg (Response.forOrigin r.origin) (answer_eq_reply _ _)

/-! ## Compilations -/

theorem response_of_compilation {c : Compilation} (endpoint : r.endpoint? = some .compile)
    (body : Body.read Check.compilation r.contentType r.body = .ok c) (s : Service) :
    s.response r = (reply (s.compile c).result).forOrigin r.origin := by
  rw [(handle_of_endpoint endpoint s).2, perform, withBody, body]
  exact congrArg (Response.forOrigin r.origin) (answer_eq_reply _ _)

/-- A request for a compilation that is accepted, and the path expression in the response. -/
structure Compiles (s : Service) (r : Request) (c : Compilation) (path : Text) : Prop where
  endpoint : r.endpoint? = some .compile
  body : Body.read Check.compilation r.contentType r.body = .ok c
  status : (s.response r).status = 200
  told : (s.response r).field? "xpath".toList = some (.text path)

/-- The selector of a request, with the match index of the request. -/
def selectorOf (s : Service) (t : Text) (matchIndex : Option Int) : Report Selector := do
  let sel ← Selector.read s.settings.strictKeys t
  Report.of (sel.pick (matchIndex.elim .null .int))

/-- What is accepted is a selector that was compiled, and the response is its path text. -/
theorem Compiles.exists_compile {c : Compilation} {path : Text} (h : s.Compiles r c path) :
    ∃ sel q, (s.selectorOf c.selector c.matchIndex).result = .ok sel ∧
      (sel.compile (if c.relative then Scope.descendantsOf [] else Scope.document)).result = .ok q ∧
      q.path = path := by
  have hresponse := response_of_compilation h.endpoint h.body s
  have hstatus := h.status
  have htold := h.told
  rw [hresponse, Response.status_forOrigin] at hstatus
  rw [hresponse, Response.field?_forOrigin] at htold
  cases hcompile : (s.compile c).result with
  | error why =>
      rw [hcompile] at hstatus
      exact absurd hstatus (status_refusal_ne why)
  | ok response =>
      rw [hcompile] at htold
      obtain ⟨read, hread, hrest⟩ := Report.result_bind_eq_ok_iff.mp hcompile
      obtain ⟨sel, hpick, hrest⟩ := Report.result_bind_eq_ok_iff.mp hrest
      obtain ⟨q, hq, hsuccess⟩ := Report.result_bind_eq_ok_iff.mp hrest
      cases hsuccess
      refine ⟨sel, q, Report.result_bind_eq_ok_iff.mpr ⟨read, hread, hpick⟩, hq, ?_⟩
      cases htold
      rfl

theorem selectorOf_congr {t : Service} (h : t.settings = s.settings) (text : Text)
    (matchIndex : Option Int) : t.selectorOf text matchIndex = s.selectorOf text matchIndex := by
  rw [selectorOf, selectorOf, h]

/-- The settings are the same ever after. -/
theorem settings_run (s : Service) (rs : List Request) : (s.run rs).settings = s.settings := by
  induction rs generalizing s with
  | nil => rfl
  | cons r rs ih => exact (ih (s.next r)).trans (s.settings_next r)

/-! ## Queries -/

theorem queryOf_selector {t : Text} {matchIndex : Option Int} {sel : Selector}
    (h : (s.selectorOf t matchIndex).result = .ok sel) (route : Route) :
    (s.queryOf (some t) none route matchIndex).result = .ok (.selector sel) := by
  obtain ⟨read, hread, hpick⟩ := Report.result_bind_eq_ok_iff.mp h
  rw [queryOf, Report.result_bind_of_ok hread, Report.result_bind_of_ok hpick]
  rfl

theorem queryOf_path (path : Text) :
    (s.queryOf none (some path) .path none).result = .ok (.path path) := rfl

theorem findSome_text {sel : Selector} {q : PathQuery}
    (h : (sel.compile Scope.document).result = .ok q) (n : Snapshot) (amount : Amount) :
    SameButNamed (findSome n amount .path (.path q.path)).result
      (findSome n amount .path (.selector sel)).result := by
  cases amount with
  | all =>
      rw [findSome, findSome, Snapshot.findAll_text h]
      exact .same _
  | one => exact (Snapshot.findOne_text h).bind fun _ _ => .same _

/-- A query with the path text of a selector is answered as the query with the selector. -/
theorem query_text {sel : Selector} {q : PathQuery} {t : Text} {matchIndex : Option Int}
    (hsel : (s.selectorOf t matchIndex).result = .ok sel)
    (h : (sel.compile Scope.document).result = .ok q) (serial : Text) (amount : Amount) :
    SameButNamed (s.query ⟨serial, none, some q.path, none, amount, .path⟩).result
      (s.query ⟨serial, some t, none, matchIndex, amount, .path⟩).result := by
  rw [query, query]
  refine SameButNamed.bind (.same _) ?_
  intro n _
  rw [Report.result_bind_of_ok (queryOf_path q.path),
    Report.result_bind_of_ok (queryOf_selector hsel .path)]
  exact (findSome_text h n amount).bind fun _ _ => .same _

theorem children_text {sel : Selector} {q : PathQuery} {t : Text}
    (hsel : (s.selectorOf t none).result = .ok sel)
    (h : (sel.compile (Scope.descendantsOf [])).result = .ok q) (serial : Text) (a : Address) :
    SameButNamed (s.children ⟨serial, a, none, some q.path, .path⟩).result
      (s.children ⟨serial, a, some t, none, .path⟩).result := by
  rw [children, children]
  refine SameButNamed.bind (.same _) ?_
  intro n _
  refine SameButNamed.bind (.same _) ?_
  intro parent hparent
  have hversion := congrArg Snapshot.version (Snapshot.snapshot_of_nodeAt hparent)
  rw [Report.result_bind_of_ok (queryOf_path q.path),
    Report.result_bind_of_ok (queryOf_selector hsel .path)]
  exact (Snapshot.findChildren_text h hversion).bind fun _ _ => .same _

/-- **Path text can be asked with.** Handed back in its scope it is known to be what it was compiled
as, and finds in every snapshot what the selector finds. So a service that has told the path
expression of a selector answers a later query with it as it answers the one with the selector and
the index; and when it was compiled for descendants, this holds below every node. -/
theorem compiled_as_query :
    (∀ (sel : Selector) (scope : Scope) (q : PathQuery), (sel.compile scope).result = .ok q →
        PathQuery.ofPath q.path scope.context = q ∧
          ∀ n : Snapshot, (n.findAll .path (.path q.path) scope).result =
            (n.findAll .path (.selector sel) scope).result) ∧
      (∀ (s : Service) (r : Request) (c : Compilation) (path : Text), s.Compiles r c path →
        c.relative = false →
          ∀ (later : List Request) (serial : Text) (amount : Amount) (byText bySelector : Request),
            byText.Asks ⟨serial, none, some path, none, amount, .path⟩ →
            bySelector.Asks ⟨serial, some c.selector, none, c.matchIndex, amount, .path⟩ →
              ((s.run later).response byText).SameShown ((s.run later).response bySelector)) ∧
      ∀ (s : Service) (r : Request) (c : Compilation) (path : Text), s.Compiles r c path →
        c.relative = true → c.matchIndex = none →
          ∀ (later : List Request) (serial : Text) (a : Address) (byText bySelector : Request),
            byText.AsksBelow ⟨serial, a, none, some path, .path⟩ →
            bySelector.AsksBelow ⟨serial, a, some c.selector, none, .path⟩ →
              ((s.run later).response byText).SameShown ((s.run later).response bySelector) := by
  refine ⟨?_, ?_, ?_⟩
  · intro sel scope q h
    exact ⟨Selector.ofPath_path h, fun n => Snapshot.findAll_text h⟩
  · intro s r c path hcompiles hrelative later serial amount byText bySelector htext hselector
    obtain ⟨sel, q, hsel, hq, rfl⟩ := hcompiles.exists_compile
    rw [hrelative] at hq
    rw [← selectorOf_congr (settings_run s later)] at hsel
    rw [response_of_asks htext, response_of_asks hselector]
    exact (sameShown_reply (query_text hsel hq serial amount)).forOrigin _ _
  · intro s r c path hcompiles hrelative hindex later serial a byText bySelector htext hselector
    obtain ⟨sel, q, hsel, hq, rfl⟩ := hcompiles.exists_compile
    rw [hrelative] at hq
    rw [hindex, ← selectorOf_congr (settings_run s later)] at hsel
    rw [response_of_asksBelow htext, response_of_asksBelow hselector]
    exact (sameShown_reply (children_text hsel hq serial a)).forOrigin _ _

/-! ## A query to look at -/

/-- The selector of the first node that shows a word with a quote in it. -/
def quotedCompilation : Compilation := ⟨"[text~=it's]".toList, some 0, false⟩

/-- The path expression of that selector. -/
def quotedPath : Text :=
  "(//*[contains(concat(' ', @text, ' '), concat(' it', \"'\", 's '))])[1]".toList

/-- A request for the compilation. -/
def compileQuoted : Request :=
  plainRequest "POST" "/api/compile" "\x7b\"selector\":\"[text~=it's]\",\"match_index\":0\x7d"

/-- A request for the query with the selector and its index. -/
def askQuoted : Request :=
  plainRequest "POST" "/api/query"
    "\x7b\"serial\":\"a\",\"selector\":\"[text~=it's]\",\"match_index\":0\x7d"

/-- A request for the query with the path expression. -/
def askQuotedPath : Request :=
  plainRequest "POST" "/api/query" ("\x7b\"serial\":\"a\",\"xpath\":" ++
    "\"(//*[contains(concat(' ', @text, ' '), concat(' it', \\\"'\\\", 's '))])[1]\"\x7d")

/-- A request that stores a dump in which the second node shows the word. -/
def storeQuoted : Request :=
  plainRequest "PUT" "/api/snapshots/a"
    "\x7b\"xml\":\"<h><n text='a'/><n text=\\\"it's\\\"/></h>\"\x7d"

/-- A dump in which the second node shows the word is stored after the compilation. Then both
queries are answered alike. -/
theorem compiled_as_query_quoted :
    (start plainSettings).Compiles compileQuoted quotedCompilation quotedPath ∧
      askQuotedPath.Asks ⟨['a'], none, some quotedPath, none, .all, .path⟩ ∧
      askQuoted.Asks ⟨['a'], some "[text~=it's]".toList, none, some 0, .all, .path⟩ ∧
      (((start plainSettings).run [storeQuoted]).find? ['a']).isSome = true ∧
      (((start plainSettings).run [storeQuoted]).response askQuotedPath).SameShown
        (((start plainSettings).run [storeQuoted]).response askQuoted) := by
  have hcompiles : (start plainSettings).Compiles compileQuoted quotedCompilation quotedPath :=
    ⟨by decide +kernel, eq_ok_of_toOption (by decide +kernel), by decide +kernel,
      Response.field?_eq_some_text (by decide +kernel)⟩
  have htext : askQuotedPath.Asks ⟨['a'], none, some quotedPath, none, .all, .path⟩ :=
    ⟨by decide +kernel, eq_ok_of_toOption (by decide +kernel)⟩
  have hselector : askQuoted.Asks
      ⟨['a'], some quotedCompilation.selector, none, quotedCompilation.matchIndex, .all, .path⟩ :=
    ⟨by decide +kernel, eq_ok_of_toOption (by decide +kernel)⟩
  refine ⟨hcompiles, htext, hselector, by decide +kernel, ?_⟩
  exact compiled_as_query.2.1 (start plainSettings) compileQuoted quotedCompilation quotedPath
    hcompiles rfl [storeQuoted] ['a'] .all askQuotedPath askQuoted htext hselector

end Service

end UiTree
