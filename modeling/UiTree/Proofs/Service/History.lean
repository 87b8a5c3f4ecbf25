import UiTree.Proofs.Service.Alike

/-!
# UiTree.Proofs.Service.History -- the service as a store of snapshots

Whatever is asked of a service, and in whatever order, it keeps one snapshot for every serial: that
of the last write. Requests that fail change nothing, and the serials have nothing to do with each
other but for the versions, which they share.

* **The contract.** `IsStore` lists what this means for a list of requests and a serial.
* **Main statement.** `isStore_run`: a service that starts with nothing keeps the contract after
  every list of requests.
-/

namespace UiTree

namespace Service

/-- **The contract of the store** for one serial, after a service has answered some requests. -/
structure IsStore (settings : Settings) (rs : List Request) (serial : Text) : Prop where
  /-- The snapshot of the serial is the one that was built by the last write. -/
  lastWrite : ∀ n, ((start settings).run rs).find? serial = some n ↔
    ∃ xml, (start settings).LastPut rs serial xml n
  /-- Without a last write, all that can be asked about the serial is answered with 404. -/
  absent : (¬ ∃ xml n, (start settings).LastPut rs serial xml n) →
    ∀ r : Request, r.serial? = some serial → r.endpoint? ≠ some (.upload serial) →
      (((start settings).run rs).response r).status = 404
  /-- After a last write its text can be had, when the serial fits into a header. -/
  source : ∀ xml n, (start settings).LastPut rs serial xml n →
    ∀ r : Request, r.endpoint? = some (.source serial) → (∀ c ∈ serial, c.toNat < 0x100) →
      (((start settings).run rs).response r).status = 200 ∧
        (((start settings).run rs).response r).content = .text xml
  /-- After a last write the snapshot can be deleted. -/
  remove : ∀ xml n, (start settings).LastPut rs serial xml n →
    ∀ r : Request, r.endpoint? = some (.remove serial) →
      (((start settings).run rs).response r).status = 200
  /-- A request that is no successful PUT or DELETE, for any serial, changes nothing at all. -/
  unchanged : ∀ r : Request, (∀ other, ¬ ((start settings).run rs).Alters r other) →
    ((start settings).run rs).next r = (start settings).run rs
  /-- A successful PUT is told a greater version than any successful PUT before, whatever the serials
  are. -/
  versions : ∀ before r inner r' after first second, rs = before ++ r :: inner ++ r' :: after →
    r.endpoint? = some (.upload first) → r'.endpoint? = some (.upload second) →
    (((start settings).run before).response r).status = 200 →
    (((start settings).run (before ++ r :: inner)).response r').status = 200 →
      ∃ v w, told? (((start settings).run before).response r) = some v ∧
        told? (((start settings).run (before ++ r :: inner)).response r') = some w ∧ v < w
  /-- Leaving out any requests that are not for the serial changes no answer to the others, up to
  versions. -/
  separate : ∀ keep : Request → Bool,
    (∀ r : Request, r.serial? = some serial → keep r = true) →
      List.Forall₂ (fun e e' => e.1 = e'.1 ∧ e.2.Alike e'.2)
        (((start settings).exchanges rs).filter fun e => keep e.1 && e.1.isAbout serial)
        (((start settings).exchanges (rs.filter keep)).filter fun e => e.1.isAbout serial)

/-- **The service is a store of snapshots.** It starts with nothing, and keeps the contract after
every list of requests and for every serial. -/
theorem isStore_run (settings : Settings) (rs : List Request) (serial : Text) :
    IsStore settings rs serial := by
  have hlast : ∀ n, ((start settings).run rs).find? serial = some n ↔
      ∃ xml, (start settings).LastPut rs serial xml n := fun n => find?_run_iff rfl rs
  refine ⟨hlast, ?_, ?_, ?_, fun r => next_of_unaltered, ?_, ?_⟩
  · intro hnone r hserial hput
    apply status_of_absent _ hserial hput
    rw [Option.eq_none_iff_forall_ne_some]
    intro n hn
    obtain ⟨xml, hxml⟩ := (hlast n).mp hn
    exact hnone ⟨xml, n, hxml⟩
  · intro xml n hput r he hlatin
    rw [← source_of_lastPut hput]
    exact source_of_present ((hlast n).mpr ⟨xml, hput⟩) he hlatin
  · intro xml n hput r he
    exact remove_of_present ((hlast n).mpr ⟨xml, hput⟩) he
  · intro before r inner r' after first second _ he he' hstatus hstatus'
    exact told_lt_of_puts he hstatus he' hstatus'
  · intro keep hkeep
    have hsame : SameFor serial (start settings) (start settings) := ⟨rfl, .none⟩
    exact exchanges_alike hsame keep hkeep rs

/-! ## A history to look at -/

/-- The settings when nothing is set. -/
def plainSettings : Settings := ⟨true, .info, "127.0.0.1".toList, Settings.defaultPort⟩

/-- A request without headers that matter. -/
def plainRequest (method path body : String) : Request :=
  ⟨method.toList, "test".toList, path.toList, "application/json".toList, none, body.toList⟩

/-- Two dumps are stored, for different serials, and a third one is refused. -/
def mixedHistory : List Request :=
  [plainRequest "PUT" "/api/snapshots/a" "\x7b\"xml\":\"<h/>\"\x7d",
   plainRequest "PUT" "/api/snapshots/b" "\x7b\"xml\":\"<g/>\"\x7d",
   plainRequest "PUT" "/api/snapshots/a" "\x7b\"xml\":\"<h>\"\x7d"]

/-- The first serial still has its first dump, which can be had as it was. -/
theorem isStore_run_mixed :
    (((start plainSettings).exchanges mixedHistory).map fun e => e.2.status) = [200, 200, 400] ∧
      ∃ n, ((start plainSettings).run mixedHistory).find? ['a'] = some n ∧ n.version = 1 ∧
        ∃ xml, (start plainSettings).LastPut mixedHistory ['a'] xml n ∧
          (((start plainSettings).run mixedHistory).response
            (plainRequest "GET" "/api/snapshots/a/xml" "")).content = .text xml := by
  have hstatus : (((start plainSettings).exchanges mixedHistory).map fun e => e.2.status) =
      [200, 200, 400] := by
    decide +kernel
  have hfound : (((start plainSettings).run mixedHistory).find? ['a']).any
      (fun n => n.version == 1) = true := by
    decide +kernel
  have hget : (plainRequest "GET" "/api/snapshots/a/xml" "").endpoint? =
      some (.source ['a']) := by
    decide +kernel
  rw [Option.any_eq_true] at hfound
  have hlatin : ∀ c ∈ ['a'], c.toNat < 0x100 := by
    intro c hc
    obtain rfl := List.mem_singleton.mp hc
    decide
  obtain ⟨n, hn, hversion⟩ := hfound
  have hstore := isStore_run plainSettings mixedHistory ['a']
  obtain ⟨xml, hput⟩ := (hstore.lastWrite n).mp hn
  refine ⟨hstatus, n, hn, eq_of_beq hversion, xml, hput, ?_⟩
  exact (hstore.source xml n hput _ hget hlatin).2

end Service

end UiTree
