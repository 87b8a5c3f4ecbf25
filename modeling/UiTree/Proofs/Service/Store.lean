import UiTree.Proofs.Snapshot
import UiTree.Proofs.Text.Cut
import UiTree.Service.Basic

/-!
# UiTree.Proofs.Service.Store -- what one request does to the store

Only two kinds of requests change what is stored: a PUT whose dump could be indexed and a DELETE of
a snapshot that was there, both of which are answered with status 200. All others leave the whole
service as it is, whatever they are answered.

* **Serials.** `Request.serial?` is the serial that a request is for.
* **Main statements.** `step_next` says once what a request can do to the service. `status_of_absent`:
  without a snapshot everything about a serial is answered with 404. `source_of_present` and
  `remove_of_present`: with one, its text can be had, and it can be deleted.
-/

namespace UiTree

namespace Request

/-- The endpoint that a request asks for, when its path and its method lead to one. -/
def endpoint? (r : Request) : Option Endpoint :=
  match Destination.ofRequest r.method (Text.percentDecode r.path) with
  | .endpoint e => some e
  | _ => none

/-- The serial that a request is for: the one in its path, or the one in a body that fits. -/
def serial? (r : Request) : Option Text :=
  match r.endpoint? with
  | some (.upload serial) => some serial
  | some (.source serial) => some serial
  | some (.remove serial) => some serial
  | some .query =>
    (Body.read Check.question r.contentType r.body).toOption.map Question.serial
  | some .children =>
    (Body.read Check.childQuestion r.contentType r.body).toOption.map ChildQuestion.serial
  | _ => none

/-- Is the request for this serial, or for none at all? -/
def isAbout (serial : Text) (r : Request) : Bool := r.serial?.all (· == serial)

end Request

namespace Response

theorem status_forOrigin (origin : Option Text) (r : Response) :
    (r.forOrigin origin).status = r.status := by
  unfold forOrigin
  split
  · split <;> rfl
  · rfl

theorem content_forOrigin (origin : Option Text) (r : Response) :
    (r.forOrigin origin).content = r.content := by
  unfold forOrigin
  split
  · split <;> rfl
  · rfl

end Response

namespace Service

variable {s : Service} {r : Request}

/-- The service after a request. -/
def next (s : Service) (r : Request) : Service := (s.handle r).1

/-- The response to a request. -/
def response (s : Service) (r : Request) : Response := (s.handle r).2.2

theorem handle_of_endpoint {e : Endpoint} (h : r.endpoint? = some e) (s : Service) :
    s.next r = (s.perform r e).1 ∧ s.response r = (s.perform r e).2.2.forOrigin r.origin := by
  rw [Request.endpoint?] at h
  rw [next, response, handle]
  cases hd : Destination.ofRequest r.method (Text.percentDecode r.path) with
  | endpoint d =>
      rw [hd] at h
      cases h
      exact ⟨rfl, rfl⟩
  | _ =>
      rw [hd] at h
      cases h

/-- A request that leads to no endpoint is answered without looking at the service. -/
theorem handle_of_no_endpoint (h : r.endpoint? = none) :
    s.next r = s ∧ ∀ t : Service, s.response r = t.response r := by
  rw [Request.endpoint?] at h
  simp only [next, response, handle]
  cases hd : Destination.ofRequest r.method (Text.percentDecode r.path) with
  | endpoint d =>
      rw [hd] at h
      cases h
  | _ => exact ⟨rfl, fun _ => rfl⟩

theorem status_of_endpoint {e : Endpoint} (h : r.endpoint? = some e) (s : Service) :
    (s.response r).status = (s.perform r e).2.2.status := by
  rw [(handle_of_endpoint h s).2, Response.status_forOrigin]

theorem content_of_endpoint {e : Endpoint} (h : r.endpoint? = some e) (s : Service) :
    (s.response r).content = (s.perform r e).2.2.content := by
  rw [(handle_of_endpoint h s).2, Response.content_forOrigin]

/-! ## Status -/

/-- The response to a fault. -/
def refusal (why : Fault) : Response :=
  match status? why with
  | some status => Response.detail status (.text why.message)
  | none => Response.crash why

theorem answer_of_ok {event : Fault → Event} {o : Report Response} {response : Response}
    (h : o.result = .ok response) : (answer event o).2 = response := by
  rw [answer, h]

theorem answer_of_error {event : Fault → Event} {o : Report Response} {why : Fault}
    (h : o.result = .error why) : (answer event o).2 = refusal why := by
  rw [answer, refusal, h]
  dsimp only
  cases status? why <;> rfl

theorem status_refusal (why : Fault) : (refusal why).status = (status? why).getD 500 := by
  rw [refusal]
  cases status? why <;> rfl

/-- A failure is never told as a success. -/
theorem status_refusal_ne (why : Fault) : (refusal why).status ≠ 200 := by
  rw [status_refusal]
  cases why <;> simp [status?]

theorem status_refuseBody_ne (why : BodyFault) : (refuseBody why).status ≠ 200 := by
  cases why with
  | unreadable => simp [refuseBody, Response.detail, Response.json]
  | invalid complaints =>
      rw [refuseBody]
      split <;> simp [Response.detail, Response.json, Response.crash]

/-! ## Successful changes -/

/-- **A successful change** of what is stored for a serial: a PUT or a DELETE that is answered with
status 200. -/
def Alters (s : Service) (r : Request) (serial : Text) : Prop :=
  (r.endpoint? = some (.upload serial) ∨ r.endpoint? = some (.remove serial)) ∧
    (s.response r).status = 200

/-- **A successful PUT** of a dump, and the snapshot that was built of it. -/
structure Puts (s : Service) (r : Request) (serial xml : Text) (n : Snapshot) : Prop where
  endpoint : r.endpoint? = some (.upload serial)
  status : (s.response r).status = 200
  body : Body.read Check.upload r.contentType r.body = .ok ⟨xml⟩
  built : (Snapshot.build s.nextVersion (some xml)).result = .ok n

theorem Puts.alters {serial xml : Text} {n : Snapshot} (h : s.Puts r serial xml n) :
    s.Alters r serial := ⟨Or.inl h.endpoint, h.status⟩

/-- What an upload that can be indexed does. -/
theorem upload_of_ok (serial : Text) {u : Upload} {n : Snapshot}
    (h : (Snapshot.build s.nextVersion (some u.xml)).result = .ok n) :
    (s.upload serial u).1 = s.store serial n ∧
      (s.upload serial u).2.2 = success [("snapshot_id".toList, .text n.identifier),
        ("version".toList, .int n.version), ("total_nodes".toList, .int n.size)] := by
  rw [upload]
  exact ⟨by simp only [h], answer_of_ok (Report.result_bind_of_ok h)⟩

/-- What an upload that cannot be indexed does. -/
theorem upload_of_error (serial : Text) {u : Upload} {why : Fault}
    (h : (Snapshot.build s.nextVersion (some u.xml)).result = .error why) :
    (s.upload serial u).1 = s ∧ (s.upload serial u).2.2 = refusal why := by
  rw [upload]
  exact ⟨by simp only [h], answer_of_error (Report.result_bind_of_error h)⟩

/-- **What a request does to the service**, in three cases. -/
inductive Step (s : Service) (r : Request) : Prop where
  | put {serial xml : Text} {n : Snapshot} (puts : s.Puts r serial xml n)
      (stored : s.next r = s.store serial n)
      (answered : (s.response r).content =
        (success [("snapshot_id".toList, .text n.identifier), ("version".toList, .int n.version),
          ("total_nodes".toList, .int n.size)]).content)
  | delete {serial : Text} (endpoint : r.endpoint? = some (.remove serial))
      (status : (s.response r).status = 200) (removed : s.next r = s.remove serial)
  | keep (unaltered : ∀ serial, ¬ s.Alters r serial) (kept : s.next r = s)

theorem step_of_upload {serial : Text} (he : r.endpoint? = some (.upload serial)) (s : Service) :
    Step s r := by
  obtain ⟨hnext, -⟩ := handle_of_endpoint he s
  have hstatus := status_of_endpoint he s
  have hcontent := content_of_endpoint he s
  -- as long as it is not told as a success, the store has to be the same
  have hkeep : s.next r = s → (s.response r).status ≠ 200 → Step s r := by
    intro hsame hfailed
    exact .keep (fun _ h => hfailed h.2) hsame
  simp only [perform, withBody] at hnext hstatus hcontent
  cases hbody : Body.read Check.upload r.contentType r.body with
  | error why =>
      rw [hbody] at hnext hstatus
      apply hkeep hnext
      rw [hstatus]
      exact status_refuseBody_ne why
  | ok u =>
      rw [hbody] at hnext hstatus hcontent
      dsimp only at hnext hstatus hcontent
      cases hbuild : (Snapshot.build s.nextVersion (some u.xml)).result with
      | error why =>
          obtain ⟨hsame, hfailed⟩ := upload_of_error serial hbuild
          apply hkeep (hnext.trans hsame)
          rw [hstatus, hfailed]
          exact status_refusal_ne why
      | ok n =>
          obtain ⟨hstored, hanswered⟩ := upload_of_ok serial hbuild
          rw [hanswered] at hstatus hcontent
          exact .put ⟨he, hstatus, hbody, hbuild⟩ (hnext.trans hstored) hcontent

theorem step_of_remove {serial : Text} (he : r.endpoint? = some (.remove serial)) (s : Service) :
    Step s r := by
  obtain ⟨hnext, -⟩ := handle_of_endpoint he s
  have hstatus := status_of_endpoint he s
  rw [perform] at hnext hstatus
  by_cases hsome : (s.find? serial).isSome = true
  · rw [if_pos hsome] at hnext hstatus
    exact .delete he hstatus hnext
  · rw [if_neg hsome] at hnext hstatus
    refine .keep ?_ hnext
    rintro other ⟨-, hok⟩
    rw [hstatus] at hok
    cases hok

theorem step_next (s : Service) (r : Request) : Step s r := by
  -- requests of any other kind neither alter anything nor are they told to
  have hkeep : (∀ serial, r.endpoint? ≠ some (.upload serial)) →
      (∀ serial, r.endpoint? ≠ some (.remove serial)) → s.next r = s → Step s r := by
    intro hupload hremove hsame
    refine .keep ?_ hsame
    rintro serial ⟨he | he, -⟩
    · exact hupload serial he
    · exact hremove serial he
  have hbody : ∀ {α : Type} (c : Check α) (f : α → List Event × Response),
      (s.withBody c r fun a => (s, f a)).1 = s := by
    intro α c f
    rw [withBody]
    split <;> rfl
  cases he : r.endpoint? with
  | none => exact hkeep (by simp [he]) (by simp [he]) (handle_of_no_endpoint he).1
  | some e =>
      have hnext := (handle_of_endpoint he s).1
      cases e with
      | upload serial => exact step_of_upload he s
      | remove serial => exact step_of_remove he s
      | about => exact hkeep (by simp [he]) (by simp [he]) hnext
      | source serial => exact hkeep (by simp [he]) (by simp [he]) hnext
      | compile => exact hkeep (by simp [he]) (by simp [he]) (hnext.trans (hbody _ _))
      | query => exact hkeep (by simp [he]) (by simp [he]) (hnext.trans (hbody _ _))
      | children => exact hkeep (by simp [he]) (by simp [he]) (hnext.trans (hbody _ _))

/-- **A request that is not a successful PUT or DELETE changes nothing.** -/
theorem next_of_unaltered (h : ∀ serial, ¬ s.Alters r serial) : s.next r = s := by
  cases step_next s r with
  | put puts _ _ => exact absurd puts.alters (h _)
  | delete endpoint status _ => exact absurd ⟨Or.inr endpoint, status⟩ (h _)
  | keep _ kept => exact kept

theorem settings_next (s : Service) (r : Request) : (s.next r).settings = s.settings := by
  cases step_next s r with
  | put _ stored _ => rw [stored]; rfl
  | delete _ _ removed => rw [removed]; rfl
  | keep _ kept => rw [kept]

/-- Versions are never taken back. -/
theorem nextVersion_le_next (s : Service) (r : Request) :
    s.nextVersion ≤ (s.next r).nextVersion := by
  cases step_next s r with
  | @put _ _ n puts stored _ =>
      have hversion := Snapshot.version_of_build puts.built
      rw [stored]
      show s.nextVersion ≤ n.version + 1
      omega
  | delete _ _ removed =>
      rw [removed]
      exact Nat.le_refl _
  | keep _ kept => exact Nat.le_of_eq (congrArg nextVersion kept.symm)

/-! ### Afterwards -/

/-- What a successful PUT stores, and what it is told. -/
theorem Puts.outcome {serial xml : Text} {n : Snapshot} (h : s.Puts r serial xml n) :
    s.next r = s.store serial n ∧ (s.response r).content =
      (success [("snapshot_id".toList, .text n.identifier), ("version".toList, .int n.version),
        ("total_nodes".toList, .int n.size)]).content := by
  cases step_next s r with
  | put puts stored answered =>
      obtain ⟨hsame, -, hbody, hbuilt⟩ := puts
      rw [h.endpoint] at hsame
      cases hsame
      rw [h.body] at hbody
      cases hbody
      rw [h.built] at hbuilt
      cases hbuilt
      exact ⟨stored, answered⟩
  | delete endpoint _ _ =>
      rw [h.endpoint] at endpoint
      cases endpoint
  | keep unaltered _ => exact absurd h.alters (unaltered serial)

theorem find?_next_of_puts {serial xml : Text} {n : Snapshot} (h : s.Puts r serial xml n) :
    (s.next r).find? serial = some n := by
  rw [h.outcome.1, find?_store, if_pos rfl]

theorem find?_next_of_unaltered {serial : Text} (h : ¬ s.Alters r serial) :
    (s.next r).find? serial = s.find? serial := by
  cases step_next s r with
  | @put other _ _ puts stored _ =>
      have hne : serial ≠ other := by
        rintro rfl
        exact h puts.alters
      rw [stored, find?_store, if_neg hne]
  | @delete other endpoint status removed =>
      have hne : serial ≠ other := by
        rintro rfl
        exact h ⟨Or.inr endpoint, status⟩
      rw [removed, find?_remove, if_neg hne]
  | keep _ kept => rw [kept]

/-- After a successful change there is a snapshot only if the change was a PUT. -/
theorem exists_puts_of_alters {serial : Text} {n : Snapshot} (h : s.Alters r serial)
    (hn : (s.next r).find? serial = some n) : ∃ xml, s.Puts r serial xml n := by
  cases step_next s r with
  | @put other xml m puts stored _ =>
      rcases h.1 with he | he
      · rw [puts.endpoint] at he
        cases he
        rw [stored, find?_store, if_pos rfl] at hn
        cases hn
        exact ⟨xml, puts⟩
      · rw [puts.endpoint] at he
        cases he
  | delete endpoint _ removed =>
      rcases h.1 with he | he
      · rw [endpoint] at he
        cases he
      · rw [endpoint] at he
        cases he
        rw [removed, find?_remove, if_pos rfl] at hn
        cases hn
  | keep unaltered _ => exact absurd h (unaltered serial)

/-! ## Answers -/

/-- Any operation on a snapshot that is not there is answered with 404. -/
theorem status_of_current_absent {serial : Text} (h : s.find? serial = none)
    {event : Fault → Event} {f : Snapshot → Report Response} :
    (answer event (s.current serial >>= f)).2.status = 404 := by
  have hcurrent : (s.current serial).result = .error (.noSnapshot serial) := by
    rw [current, h]
    rfl
  rw [answer_of_error (Report.result_bind_of_error hcurrent)]
  rfl

theorem eq_ok_of_toOption {ε α : Type} {o : Except ε α} {a : α} (h : o.toOption = some a) :
    o = .ok a := by
  cases o with
  | error e => cases h
  | ok b =>
      cases h
      rfl

/-- **Without a snapshot**, every request for a serial but a PUT is answered with 404. -/
theorem status_of_absent {serial : Text} (h : s.find? serial = none)
    (hserial : r.serial? = some serial) (hput : r.endpoint? ≠ some (.upload serial)) :
    (s.response r).status = 404 := by
  rw [Request.serial?] at hserial
  cases he : r.endpoint? with
  | none =>
      rw [he] at hserial
      cases hserial
  | some e =>
      rw [status_of_endpoint he]
      rw [he] at hserial hput
      cases e with
      | about => cases hserial
      | compile => cases hserial
      | upload other =>
          cases hserial
          exact absurd rfl hput
      | source other =>
          cases hserial
          exact status_of_current_absent h
      | remove other =>
          cases hserial
          rw [perform, h]
          rfl
      | query =>
          obtain ⟨q, hq, rfl⟩ := Option.map_eq_some_iff.mp hserial
          rw [perform, withBody, eq_ok_of_toOption hq]
          exact status_of_current_absent h
      | children =>
          obtain ⟨q, hq, rfl⟩ := Option.map_eq_some_iff.mp hserial
          rw [perform, withBody, eq_ok_of_toOption hq]
          exact status_of_current_absent h

theorem unfitRun?_eq_none {t : Text} (h : (t.all fun c => c.toNat < 0x100) = true) :
    unfitRun? t = none := by
  have hcut := Text.cutWhile_run (List.all_eq_true.mp h) (Text.stops_nil _)
  rw [List.append_nil] at hcut
  rw [unfitRun?, hcut]
  rfl

/-- **With a snapshot**, its text can be had under a serial of Latin-1. -/
theorem source_of_present {serial : Text} {n : Snapshot} (h : s.find? serial = some n)
    (he : r.endpoint? = some (.source serial)) (hlatin : ∀ c ∈ serial, c.toNat < 0x100) :
    (s.response r).status = 200 ∧ (s.response r).content = .text n.source := by
  have hfits : unfitRun? ("attachment; filename=\"hierarchy-".toList ++ serial
      ++ ".xml\"".toList) = none := by
    have hserial : (serial.all fun c => c.toNat < 0x100) = true := by
      rw [List.all_eq_true]
      exact fun c hc => decide_eq_true (hlatin c hc)
    apply unfitRun?_eq_none
    rw [List.all_append, List.all_append, hserial]
    decide
  have hcurrent : (s.current serial).result = .ok n := by
    rw [current, h]
    rfl
  have hsource : (s.source serial).result = .ok ⟨200,
      [Response.contentType "application/xml", ("content-disposition".toList,
        "attachment; filename=\"hierarchy-".toList ++ serial ++ ".xml\"".toList)],
      .text n.source, none⟩ := by
    rw [source, Report.result_bind_of_ok hcurrent]
    dsimp only
    rw [hfits]
    rfl
  rw [status_of_endpoint he, content_of_endpoint he, perform, answer_of_ok hsource]
  exact ⟨rfl, rfl⟩

/-- **With a snapshot**, it can be deleted. -/
theorem remove_of_present {serial : Text} {n : Snapshot} (h : s.find? serial = some n)
    (he : r.endpoint? = some (.remove serial)) : (s.response r).status = 200 := by
  rw [status_of_endpoint he, perform, h]
  rfl

end Service

end UiTree
