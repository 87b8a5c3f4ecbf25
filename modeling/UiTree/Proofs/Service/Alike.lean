import Mathlib.Data.List.Forall2
import UiTree.Proofs.Query.Version
import UiTree.Proofs.Service.Run

/-!
# UiTree.Proofs.Service.Alike -- answers up to versions

Two services that store the same text for a serial, maybe with different versions, answer every
request for that serial alike: the answers differ in the version, in the identifier that is made of
it, and where a message quotes it, and in nothing else. What they store for the serial stays the same
in this sense, and requests for other serials have no part in it.

* **Relations.** `Response.Alike` is the relation between answers and `SameFor` the one between
  services.
* **Main statements.** `response_alike` and `SameFor.next`: what one request does to two such
  services. `exchanges_alike`: leaving out requests for other serials changes no answer.
-/

namespace UiTree

/-! ## Alike answers -/

/-- Fields of two records that are the same up to a version. -/
inductive FieldAlike (v w : Nat) : Text × Datum → Text × Datum → Prop where
  | same (e : Text × Datum) : FieldAlike v w e e
  | version : FieldAlike v w ("version".toList, .int v) ("version".toList, .int w)
  | identifier :
    FieldAlike v w ("snapshot_id".toList, .text (Text.hex 32 v))
      ("snapshot_id".toList, .text (Text.hex 32 w))
  | message (front back : Text) :
    FieldAlike v w ("detail".toList, .text (front ++ 'v' :: Text.ofNat v ++ back))
      ("detail".toList, .text (front ++ 'v' :: Text.ofNat w ++ back))

/-- Contents that are the same up to a version in their fields. -/
inductive ContentAlike (v w : Nat) : Content → Content → Prop where
  | same (c : Content) : ContentAlike v w c c
  | record {fs gs : List (Text × Datum)} (fields : List.Forall₂ (FieldAlike v w) fs gs) :
    ContentAlike v w (.json (.record fs)) (.json (.record gs))

namespace Response

/-- Responses that are the same up to two given versions. -/
structure AlikeAt (v w : Nat) (a b : Response) : Prop where
  status : a.status = b.status
  headers : a.headers = b.headers
  raised : a.raised = b.raised
  content : ContentAlike v w a.content b.content

/-- **Responses that are the same up to versions.** -/
def Alike (a b : Response) : Prop := ∃ v w, AlikeAt v w a b

variable {v w : Nat} {a b : Response}

theorem AlikeAt.refl (r : Response) : AlikeAt v w r r := ⟨rfl, rfl, rfl, .same _⟩

theorem Alike.refl (r : Response) : Alike r r := ⟨0, 0, .refl r⟩

theorem AlikeAt.forOrigin (h : AlikeAt v w a b) (origin : Option Text) :
    AlikeAt v w (a.forOrigin origin) (b.forOrigin origin) := by
  unfold Response.forOrigin
  rw [← h.raised]
  split
  · split
    · exact ⟨h.status, congrArg (· ++ _) h.headers, rfl, h.content⟩
    · exact h
  · exact h

end Response

/-! ## Alike outcomes -/

/-- Faults that are told alike: the same fault, or two absences whose messages differ in a version
only. -/
inductive FaultAlike (v w : Nat) : Fault → Fault → Prop where
  | same (e : Fault) : FaultAlike v w e e
  | notFound {query : Text} {what what' : Missing} (front back : Text)
    (message : Fault.missingMessage query what = front ++ 'v' :: Text.ofNat v ++ back)
    (message' : Fault.missingMessage query what' = front ++ 'v' :: Text.ofNat w ++ back) :
    FaultAlike v w (.notFound query what) (.notFound query what')

/-- Outcomes with related values, or with faults that are told alike. -/
inductive OutcomeAlike (v w : Nat) {α β : Type} (R : α → β → Prop) :
    Except Fault α → Except Fault β → Prop where
  | ok {a : α} {b : β} (h : R a b) : OutcomeAlike v w R (.ok a) (.ok b)
  | error {e e' : Fault} (h : FaultAlike v w e e') : OutcomeAlike v w R (.error e) (.error e')

namespace OutcomeAlike

variable {v w : Nat} {α β γ δ : Type} {R : α → β → Prop} {Q : γ → δ → Prop}

/-- What is the same for both versions. -/
theorem same {S : α → α → Prop} (hS : ∀ a, S a a) (o : Except Fault α) : OutcomeAlike v w S o o := by
  cases o with
  | error e => exact .error (.same e)
  | ok a => exact .ok (hS a)

/-- What is made of one value in two ways. -/
theorem of_map (o : Except Fault γ) (f : γ → α) (g : γ → β) :
    OutcomeAlike v w (fun a b => ∃ c, a = f c ∧ b = g c) (o.map f) (o.map g) := by
  cases o with
  | error e => exact .error (.same e)
  | ok c => exact .ok ⟨c, rfl, rfl⟩

/-- **One operation after another.** -/
theorem bind {r : Report α} {r' : Report β} {f : α → Report γ} {g : β → Report δ}
    (h : OutcomeAlike v w R r.result r'.result)
    (hfg : ∀ a b, R a b → OutcomeAlike v w Q (f a).result (g b).result) :
    OutcomeAlike v w Q (r >>= f).result (r' >>= g).result := by
  rw [Report.result_bind, Report.result_bind]
  generalize r.result = o at h
  generalize r'.result = o' at h
  cases h with
  | ok hab => exact hfg _ _ hab
  | error he => exact .error he

end OutcomeAlike

namespace Service

variable {v w : Nat}

theorem refusal_alike {e e' : Fault} (h : FaultAlike v w e e') :
    Response.AlikeAt v w (refusal e) (refusal e') := by
  cases h with
  | same => exact .refl _
  | @notFound query what what' front back hm hm' =>
      have told : ∀ what : Missing, refusal (.notFound query what) =
          Response.detail 404 (.text (Fault.missingMessage query what)) := fun _ => rfl
      rw [told, told, hm, hm']
      exact ⟨rfl, rfl, rfl, .record (.cons (.message front back) .nil)⟩

/-- Outcomes that are alike are answered alike. -/
theorem answer_alike {event event' : Fault → Event} {r r' : Report Response}
    (h : OutcomeAlike v w (Response.AlikeAt v w) r.result r'.result) :
    Response.AlikeAt v w (answer event r).2 (answer event' r').2 := by
  generalize ho : r.result = o at h
  generalize ho' : r'.result = o' at h
  cases h with
  | ok h =>
      rw [answer_of_ok ho, answer_of_ok ho']
      exact h
  | error h =>
      rw [answer_of_error ho, answer_of_error ho']
      exact refusal_alike h

theorem success_alike {fs gs : List (Text × Datum)} (h : List.Forall₂ (FieldAlike v w) fs gs) :
    Response.AlikeAt v w (success fs) (success gs) :=
  ⟨rfl, rfl, rfl, .record (.cons (.same _) h)⟩

/-! ## Found nodes -/

/-- A found node with another version. -/
def Found.withVersion (f : Found) (v : Nat) : Found := ⟨f.node.withVersion v, f.bounds⟩

theorem ofNode_withVersion (n : Node) (v : Nat) :
    Found.ofNode (n.withVersion v) = (Found.ofNode n).map fun f => f.withVersion v := by
  have hbounds : (n.withVersion v).bounds? = n.bounds? := rfl
  rw [Found.ofNode, Found.ofNode, hbounds]
  cases n.bounds? <;> rfl

/-- Two ways to go through a list that go together at every element go together. -/
theorem mapM_map_of_comm {ε α α' β β' : Type} {f : α → Except ε β} {f' : α' → Except ε β'}
    {g : α → α'} {g' : β → β'} (h : ∀ a, f' (g a) = (f a).map g') (l : List α) :
    (l.map g).mapM f' = (l.mapM f).map (List.map g') := by
  induction l with
  | nil => rfl
  | cons a l ih =>
      rw [List.map_cons, List.mapM_cons, List.mapM_cons, h, ih]
      cases f a with
      | error e => rfl
      | ok b => cases l.mapM f <;> rfl

theorem mapM_ofNode_alike (ns : List Node) :
    OutcomeAlike v w
      (fun fs fs' => ∃ gs : List Found, fs = gs.map (fun f => f.withVersion v) ∧
        fs' = gs.map fun f => f.withVersion w)
      ((ns.map fun n => n.withVersion v).mapM Found.ofNode)
      ((ns.map fun n => n.withVersion w).mapM Found.ofNode) := by
  rw [mapM_map_of_comm (fun n => ofNode_withVersion n v),
    mapM_map_of_comm (fun n => ofNode_withVersion n w)]
  exact .of_map _ _ _

/-- What is shown of a node is not its version. -/
theorem foundFields_withVersion (fs : List Found) (v : Nat) :
    foundFields (fs.map fun f => f.withVersion v) = foundFields fs := by
  rw [foundFields, foundFields, List.mapM_map, List.length_map]
  rfl

theorem findSome_withVersion (n : Snapshot) (v : Nat) (amount : Amount) (route : Route)
    (q : Query) :
    (findSome (n.withVersion v) amount route q).result =
      (findSome n amount route q).result.map (List.map fun m => m.withVersion v) := by
  cases amount with
  | all => exact Snapshot.findAll_withVersion n v route q Scope.document
  | one =>
      rw [findSome, findSome, Report.result_bind, Report.result_bind,
        Snapshot.findOne_withVersion]
      cases (n.findOne route q Scope.document).result <;> rfl

/-! ## Alike services -/

/-- The same text at two versions, or nothing twice. -/
inductive SameStored : Option Snapshot → Option Snapshot → Prop where
  | none : SameStored none none
  | some (n : Snapshot) (v w : Nat) : SameStored (some (n.withVersion v)) (some (n.withVersion w))

/-- **Services that are the same for a serial**, up to versions. -/
structure SameFor (serial : Text) (s t : Service) : Prop where
  settings : s.settings = t.settings
  stored : SameStored (s.find? serial) (t.find? serial)

variable {s t : Service} {serial : Text}

theorem SameFor.current (h : SameFor serial s t) :
    ∃ v w, OutcomeAlike v w
      (fun a b => ∃ n : Snapshot, a = n.withVersion v ∧ b = n.withVersion w)
      (s.current serial).result (t.current serial).result := by
  have hstored := h.stored
  rw [Service.current, Service.current]
  generalize s.find? serial = a at hstored
  generalize t.find? serial = b at hstored
  cases hstored with
  | none => exact ⟨0, 0, .error (.same _)⟩
  | some n v w => exact ⟨v, w, .ok ⟨n, rfl, rfl⟩⟩

theorem SameFor.isSome_eq (h : SameFor serial s t) :
    (s.find? serial).isSome = (t.find? serial).isSome := by
  have hstored := h.stored
  generalize s.find? serial = a at hstored
  generalize t.find? serial = b at hstored
  cases hstored with
  | none => rfl
  | some n v w => rfl

theorem queryOf_congr (h : s.settings = t.settings) (selector path : Option Text) (route : Route)
    (matchIndex : Option Int) :
    s.queryOf selector path route matchIndex = t.queryOf selector path route matchIndex := by
  unfold queryOf
  rw [h]

theorem compile_congr (h : s.settings = t.settings) (c : Compilation) :
    s.compile c = t.compile c := by
  rw [compile, compile, h]

/-! ### Operations -/

theorem source_alike (h : SameFor serial s t) :
    ∃ v w, OutcomeAlike v w (Response.AlikeAt v w) (s.source serial).result
      (t.source serial).result := by
  obtain ⟨v, w, hcurrent⟩ := h.current
  refine ⟨v, w, hcurrent.bind ?_⟩
  rintro _ _ ⟨n, rfl, rfl⟩
  exact .same Response.AlikeAt.refl _

theorem query_alike {q : Question} (h : SameFor q.serial s t) :
    ∃ v w, OutcomeAlike v w (Response.AlikeAt v w) (s.query q).result (t.query q).result := by
  obtain ⟨v, w, hcurrent⟩ := h.current
  refine ⟨v, w, hcurrent.bind ?_⟩
  rintro _ _ ⟨n, rfl, rfl⟩
  rw [queryOf_congr h.settings]
  refine OutcomeAlike.bind (.same (S := Eq) (fun _ => rfl) _) ?_
  rintro asked _ rfl
  have hnodes := OutcomeAlike.of_map (v := v) (w := w) (findSome n q.amount q.route asked).result
    (List.map fun m => m.withVersion v) (List.map fun m => m.withVersion w)
  rw [← findSome_withVersion, ← findSome_withVersion] at hnodes
  refine hnodes.bind ?_
  rintro _ _ ⟨ns, rfl, rfl⟩
  refine OutcomeAlike.bind (R := Eq) (.ok rfl) ?_
  rintro _ _ -
  refine OutcomeAlike.bind (mapM_ofNode_alike ns) ?_
  rintro _ _ ⟨fs, rfl, rfl⟩
  rw [foundFields_withVersion, foundFields_withVersion]
  refine OutcomeAlike.bind (.same (S := Eq) (fun _ => rfl) _) ?_
  rintro fields _ rfl
  exact .ok (success_alike (.cons .version (List.forall₂_same.mpr fun e _ => .same e)))

/-- The node at an address is the same, and where there is none the message names the snapshot. -/
theorem nodeAt_alike (n : Snapshot) (v w : Nat) (a : Address) :
    OutcomeAlike v w
      (fun m m' => ∃ p : Node, p.snapshot = n ∧ m = p.withVersion v ∧ m' = p.withVersion w)
      ((n.withVersion v).nodeAt a) ((n.withVersion w).nodeAt a) := by
  obtain ⟨front, back, message⟩ : ∃ front back, ∀ u, Fault.missingMessage a.text (.node u) =
      front ++ 'v' :: Text.ofNat u ++ back := by
    refine ⟨"No node at path ".toList ++ a.text ++ " in snapshot ".toList, [], ?_⟩
    intro u
    have hsplit : " in snapshot v".toList = " in snapshot ".toList ++ ['v'] := by decide
    unfold Fault.missingMessage
    rw [hsplit]
    simp only [List.append_assoc, List.cons_append, List.nil_append, List.append_nil]
  rcases n.nodeAt_withVersion v w a with ⟨p, hp, hv, hw⟩ | ⟨hv, hw⟩
  · rw [hv, hw]
    exact .ok ⟨p, hp, rfl, rfl⟩
  · rw [hv, hw]
    exact .error (.notFound front back (message v) (message w))

/-- The nodes below a node are the same, and where there are none the message names the node. -/
theorem findChildren_alike (n : Snapshot) (v w : Nat) (route : Route) (q : Query) {parent : Node}
    (hparent : parent.snapshot = n) :
    OutcomeAlike v w
      (fun ms ms' => ∃ ps : List Node, ms = ps.map (fun p => p.withVersion v) ∧
        ms' = ps.map fun p => p.withVersion w)
      ((n.withVersion v).findChildren route q (parent.withVersion v)).result
      ((n.withVersion w).findChildren route q (parent.withVersion w)).result := by
  obtain ⟨front, back, message⟩ : ∃ front back, ∀ u,
      Fault.missingMessage q.text (.childOf (parent.withVersion u).describe) =
        front ++ 'v' :: Text.ofNat u ++ back := by
    refine ⟨"No child of ".toList ++ "MatchedNode(".toList, ", path=".toList
      ++ parent.path.address.text ++ ',' :: ' ' :: parent.label ++ [')']
      ++ " matches query: ".toList ++ q.text, ?_⟩
    intro u
    have hsplit : "MatchedNode(v".toList = "MatchedNode(".toList ++ ['v'] := by decide
    unfold Fault.missingMessage
    rw [Node.describe_withVersion, hsplit]
    simp only [List.append_assoc, List.cons_append, List.nil_append]
  rcases n.findChildren_withVersion v w route q parent hparent with ⟨o, hv, hw⟩ | ⟨hv, hw⟩
  · rw [hv, hw]
    exact .of_map o _ _
  · rw [hv, hw]
    exact .error (.notFound front back (message v) (message w))

theorem children_alike {q : ChildQuestion} (h : SameFor q.serial s t) :
    ∃ v w, OutcomeAlike v w (Response.AlikeAt v w) (s.children q).result
      (t.children q).result := by
  obtain ⟨v, w, hcurrent⟩ := h.current
  refine ⟨v, w, hcurrent.bind ?_⟩
  rintro _ _ ⟨n, rfl, rfl⟩
  refine OutcomeAlike.bind (nodeAt_alike n v w q.parent) ?_
  rintro _ _ ⟨p, hp, rfl, rfl⟩
  rw [queryOf_congr h.settings]
  refine OutcomeAlike.bind (.same (S := Eq) (fun _ => rfl) _) ?_
  rintro asked _ rfl
  refine OutcomeAlike.bind (findChildren_alike n v w q.route asked hp) ?_
  rintro _ _ ⟨ns, rfl, rfl⟩
  have habove := OutcomeAlike.of_map (v := v) (w := w) (Found.ofNode p)
    (fun f => f.withVersion v) (fun f => f.withVersion w)
  rw [← ofNode_withVersion, ← ofNode_withVersion] at habove
  refine OutcomeAlike.bind habove ?_
  rintro _ _ ⟨above, rfl, rfl⟩
  refine OutcomeAlike.bind (mapM_ofNode_alike ns) ?_
  rintro _ _ ⟨fs, rfl, rfl⟩
  -- what is shown of the parent is not its version, either
  refine OutcomeAlike.bind (.same (S := Eq) (fun _ => rfl) above.datum) ?_
  rintro shown _ rfl
  rw [foundFields_withVersion, foundFields_withVersion]
  refine OutcomeAlike.bind (.same (S := Eq) (fun _ => rfl) _) ?_
  rintro fields _ rfl
  exact .ok (success_alike (.cons .version (List.forall₂_same.mpr fun e _ => .same e)))

theorem upload_alike (serial : Text) (u : Upload) (s t : Service) :
    ∃ v w, Response.AlikeAt v w (s.upload serial u).2.2 (t.upload serial u).2.2 := by
  refine ⟨s.nextVersion, t.nextVersion, answer_alike ?_⟩
  have hbuilt := OutcomeAlike.of_map (v := s.nextVersion) (w := t.nextVersion)
    (Snapshot.build 0 (some u.xml)).result (fun n => n.withVersion s.nextVersion)
    (fun n => n.withVersion t.nextVersion)
  rw [← Snapshot.result_build_withVersion, ← Snapshot.result_build_withVersion] at hbuilt
  refine hbuilt.bind ?_
  rintro _ _ ⟨n, rfl, rfl⟩
  exact .ok (success_alike (.cons .identifier (.cons .version (.cons (.same _) .nil))))

/-! ## One request -/

variable {r : Request}

/-- A body that is refused is refused alike, and otherwise the operation decides. -/
theorem withBody_alike {α : Type} {c : Check α} {f g : α → Service × List Event × Response}
    (h : ∀ a, Body.read c r.contentType r.body = .ok a →
      ∃ v w, Response.AlikeAt v w (f a).2.2 (g a).2.2) :
    ∃ v w, Response.AlikeAt v w (s.withBody c r f).2.2 (t.withBody c r g).2.2 := by
  rw [withBody, withBody]
  cases hread : Body.read c r.contentType r.body with
  | error why => exact ⟨0, 0, .refl _⟩
  | ok a => exact h a hread

/-- **Services that are the same for a serial answer a request alike**, unless it is for another
serial. -/
theorem response_alike (h : SameFor serial s t) (hserial : r.isAbout serial = true) :
    (s.response r).Alike (t.response r) := by
  rw [Request.isAbout, Request.serial?] at hserial
  cases he : r.endpoint? with
  | none =>
      rw [(handle_of_no_endpoint he).2 t]
      exact .refl _
  | some e =>
      rw [he] at hserial
      rw [(handle_of_endpoint he s).2, (handle_of_endpoint he t).2]
      suffices halike : ∃ v w, Response.AlikeAt v w (s.perform r e).2.2 (t.perform r e).2.2 by
        obtain ⟨v, w, halike⟩ := halike
        exact ⟨v, w, halike.forOrigin r.origin⟩
      cases e with
      | about => exact ⟨0, 0, .refl _⟩
      | upload other => exact withBody_alike fun u _ => upload_alike other u s t
      | source other =>
          obtain rfl : other = serial := eq_of_beq hserial
          obtain ⟨v, w, hsource⟩ := source_alike h
          exact ⟨v, w, answer_alike hsource⟩
      | remove other =>
          obtain rfl : other = serial := eq_of_beq hserial
          rw [perform, perform, h.isSome_eq]
          split
          · exact ⟨0, 0, .refl _⟩
          · exact ⟨0, 0, .refl _⟩
      | compile =>
          refine withBody_alike fun c _ => ⟨0, 0, ?_⟩
          rw [compile_congr h.settings]
          exact .refl _
      | query =>
          refine withBody_alike fun q hread => ?_
          simp only [hread, Except.toOption, Option.map_some, Option.all_some] at hserial
          obtain rfl : q.serial = serial := eq_of_beq hserial
          obtain ⟨v, w, hquery⟩ := query_alike h
          exact ⟨v, w, answer_alike hquery⟩
      | children =>
          refine withBody_alike fun q hread => ?_
          simp only [hread, Except.toOption, Option.map_some, Option.all_some] at hserial
          obtain rfl : q.serial = serial := eq_of_beq hserial
          obtain ⟨v, w, hchildren⟩ := children_alike h
          exact ⟨v, w, answer_alike hchildren⟩

/-- A request that is not for a serial can be left out. -/
theorem SameFor.skip (h : SameFor serial s t) (hr : r.serial? ≠ some serial) :
    SameFor serial (s.next r) t := by
  refine ⟨(s.settings_next r).trans h.settings, ?_⟩
  rw [find?_next_of_unaltered]
  · exact h.stored
  · rintro ⟨he | he, -⟩
    · exact hr (by rw [Request.serial?, he])
    · exact hr (by rw [Request.serial?, he])

theorem SameFor.upload (h : SameFor serial s t) (u : Upload) :
    SameStored ((s.upload serial u).1.find? serial) ((t.upload serial u).1.find? serial) := by
  have hbuilt : ∀ v, (Snapshot.build v (some u.xml)).result =
      (Snapshot.build 0 (some u.xml)).result.map fun n => n.withVersion v :=
    fun v => Snapshot.result_build_withVersion v 0 (some u.xml)
  cases hbuild : (Snapshot.build 0 (some u.xml)).result with
  | error why =>
      have hfailed : ∀ v, (Snapshot.build v (some u.xml)).result = .error why := by
        intro v
        rw [hbuilt, hbuild]
        rfl
      rw [(upload_of_error serial (hfailed _)).1, (upload_of_error serial (hfailed _)).1]
      exact h.stored
  | ok n =>
      have hdone : ∀ v, (Snapshot.build v (some u.xml)).result = .ok (n.withVersion v) := by
        intro v
        rw [hbuilt, hbuild]
        rfl
      rw [(upload_of_ok serial (hdone _)).1, (upload_of_ok serial (hdone _)).1, find?_store,
        find?_store, if_pos rfl, if_pos rfl]
      exact .some n _ _

/-- **Services that are the same for a serial stay so**, whatever they are both asked. -/
theorem SameFor.next (h : SameFor serial s t) (r : Request) :
    SameFor serial (s.next r) (t.next r) := by
  have hsettings : (s.next r).settings = (t.next r).settings := by
    rw [settings_next, settings_next]
    exact h.settings
  refine ⟨hsettings, ?_⟩
  have unaltered : (∀ u : Service, ¬ u.Alters r serial) →
      SameStored ((s.next r).find? serial) ((t.next r).find? serial) := by
    intro hno
    rw [find?_next_of_unaltered (hno s), find?_next_of_unaltered (hno t)]
    exact h.stored
  by_cases hput : r.endpoint? = some (.upload serial)
  · rw [(handle_of_endpoint hput s).1, (handle_of_endpoint hput t).1, perform, perform, withBody,
      withBody]
    cases Body.read Check.upload r.contentType r.body with
    | error why => exact h.stored
    | ok u => exact h.upload u
  · by_cases hdelete : r.endpoint? = some (.remove serial)
    · rw [(handle_of_endpoint hdelete s).1, (handle_of_endpoint hdelete t).1, perform, perform,
        h.isSome_eq]
      split
      · rw [find?_remove, find?_remove, if_pos rfl, if_pos rfl]
        exact .none
      · exact h.stored
    · apply unaltered
      rintro u ⟨he | he, -⟩
      · exact hput he
      · exact hdelete he

/-! ## Many requests -/

/-- **Leaving out requests for other serials changes no answer**, up to versions. -/
theorem exchanges_alike (h : SameFor serial s t) (keep : Request → Bool)
    (hkeep : ∀ r : Request, r.serial? = some serial → keep r = true) (rs : List Request) :
    List.Forall₂ (fun e e' => e.1 = e'.1 ∧ e.2.Alike e'.2)
      ((s.exchanges rs).filter fun e => keep e.1 && e.1.isAbout serial)
      ((t.exchanges (rs.filter keep)).filter fun e => e.1.isAbout serial) := by
  induction rs generalizing s t with
  | nil => exact .nil
  | cons r rs ih =>
      by_cases hk : keep r = true
      · rw [List.filter_cons_of_pos hk, exchanges, exchanges, List.filter_cons, List.filter_cons]
        dsimp only
        rw [hk, Bool.true_and]
        split
        · next habout => exact .cons ⟨rfl, response_alike h habout⟩ (ih (h.next r))
        · exact ih (h.next r)
      · -- a request that is left out is not for the serial
        have hne : r.serial? ≠ some serial := fun hr => hk (hkeep r hr)
        rw [List.filter_cons_of_neg hk, exchanges, List.filter_cons_of_neg (by simp [hk])]
        exact ih (h.skip hne)

end Service

end UiTree
