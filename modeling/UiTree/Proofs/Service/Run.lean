import UiTree.Proofs.Service.Store

/-!
# UiTree.Proofs.Service.Run -- what is stored after many requests

A service that has answered a list of requests has, for every serial, the snapshot of the last
successful PUT, as long as no later request altered what is stored for that serial. Versions grow
from one successful PUT to the next, whichever serials they are for.

* **Last write.** `LastPut` singles out one request in a list: a successful PUT for a serial, after
  which there is no successful PUT or DELETE for it.
* **Main statements.** `find?_run_iff`: the snapshot of a serial is that of its last write.
  `told_lt_of_puts`: later PUTs get greater versions.
-/

namespace UiTree

namespace Service

/-- The service after some requests, one after the other. -/
def run (s : Service) : List Request → Service
  | [] => s
  | r :: rs => (s.next r).run rs

/-- Some requests with the responses to them. -/
def exchanges (s : Service) : List Request → List (Request × Response)
  | [] => []
  | r :: rs => (r, s.response r) :: (s.next r).exchanges rs

variable {s : Service} {serial : Text} {n : Snapshot}

theorem run_append (s : Service) (rs rs' : List Request) :
    s.run (rs ++ rs') = (s.run rs).run rs' := by
  induction rs generalizing s with
  | nil => rfl
  | cons r rs ih => exact ih _

theorem run_concat (s : Service) (rs : List Request) (r : Request) :
    s.run (rs ++ [r]) = (s.run rs).next r := s.run_append rs [r]

/-! ## The last write -/

/-- **The last write for a serial**: a successful PUT of a dump, without a later successful PUT or
DELETE for the serial. -/
def LastPut (s : Service) (rs : List Request) (serial xml : Text) (n : Snapshot) : Prop :=
  ∃ before r after, rs = before ++ r :: after ∧ (s.run before).Puts r serial xml n ∧
    ∀ inner r' rest, after = inner ++ r' :: rest →
      ¬ (s.run (before ++ r :: inner)).Alters r' serial

theorem not_lastPut_nil {xml : Text} : ¬ s.LastPut [] serial xml n := by
  rintro ⟨before, r, after, h, -⟩
  simp at h

/-- A member of a list with one more element at its end is that element, or a member before. -/
theorem concat_eq_append_cons {α : Type} {l before after : List α} {a b : α}
    (h : l ++ [a] = before ++ b :: after) :
    (before = l ∧ b = a ∧ after = []) ∨ ∃ rest, after = rest ++ [a] ∧ l = before ++ b :: rest := by
  rcases List.eq_nil_or_concat after with rfl | ⟨rest, c, rfl⟩
  · obtain ⟨hbefore, hlast⟩ := List.append_inj' h rfl
    exact Or.inl ⟨hbefore.symm, (List.singleton_inj.mp hlast).symm, rfl⟩
  · rw [List.concat_eq_append, ← List.cons_append, ← List.append_assoc] at h
    obtain ⟨hbefore, hlast⟩ := List.append_inj' h rfl
    refine Or.inr ⟨rest, ?_, hbefore⟩
    rw [List.concat_eq_append, hlast]

/-- One more request is the last write itself, or leaves the last write what it is. -/
theorem lastPut_concat {rs : List Request} {r : Request} {xml : Text} :
    s.LastPut (rs ++ [r]) serial xml n ↔ (s.run rs).Puts r serial xml n ∨
      s.LastPut rs serial xml n ∧ ¬ (s.run rs).Alters r serial := by
  constructor
  · rintro ⟨before, p, after, hsplit, hput, hlater⟩
    rcases concat_eq_append_cons hsplit with ⟨rfl, rfl, rfl⟩ | ⟨after, rfl, rfl⟩
    · exact Or.inl hput
    · refine Or.inr ⟨⟨before, p, after, rfl, hput, ?_⟩, hlater after r [] rfl⟩
      rintro inner r' rest rfl
      apply hlater inner r' (rest ++ [r])
      rw [List.append_assoc]
      rfl
  · rintro (hput | ⟨⟨before, p, after, rfl, hput, hlater⟩, hr⟩)
    · exact ⟨rs, r, [], rfl, hput, fun inner r' rest h => by simp at h⟩
    · refine ⟨before, p, after ++ [r], by rw [List.append_assoc]; rfl, hput, ?_⟩
      intro inner r' rest hsplit
      rcases concat_eq_append_cons hsplit with ⟨rfl, rfl, rfl⟩ | ⟨rest, rfl, rfl⟩
      · exact hr
      · exact hlater inner r' rest rfl

/-- **What is stored is what was written last.** -/
theorem find?_run_iff (hs : s.find? serial = none) (rs : List Request) :
    (s.run rs).find? serial = some n ↔ ∃ xml, s.LastPut rs serial xml n := by
  -- the induction takes the last request off, which is the one that was seen last
  rw [← List.reverse_reverse rs]
  induction rs.reverse with
  | nil =>
      constructor
      · intro h
        rw [List.reverse_nil, run, hs] at h
        cases h
      · rintro ⟨xml, h⟩
        exact absurd h not_lastPut_nil
  | cons r rs ih =>
      rw [List.reverse_cons, run_concat]
      simp only [lastPut_concat]
      by_cases haltered : (s.run rs.reverse).Alters r serial
      · constructor
        · intro h
          obtain ⟨xml, hput⟩ := exists_puts_of_alters haltered h
          exact ⟨xml, Or.inl hput⟩
        · rintro ⟨xml, hput | ⟨-, hr⟩⟩
          · exact find?_next_of_puts hput
          · exact absurd haltered hr
      · rw [find?_next_of_unaltered haltered, ih]
        constructor
        · rintro ⟨xml, h⟩
          exact ⟨xml, Or.inr ⟨h, haltered⟩⟩
        · rintro ⟨xml, hput | ⟨h, -⟩⟩
          · exact absurd hput.alters haltered
          · exact ⟨xml, h⟩

/-- What is stored has the text that was written. -/
theorem source_of_lastPut {rs : List Request} {xml : Text} (h : s.LastPut rs serial xml n) :
    n.source = xml := by
  obtain ⟨before, r, after, -, hput, -⟩ := h
  exact Snapshot.source_of_build hput.built

/-! ## Versions -/

theorem nextVersion_le_run (s : Service) (rs : List Request) :
    s.nextVersion ≤ (s.run rs).nextVersion := by
  induction rs generalizing s with
  | nil => exact Nat.le_refl _
  | cons r rs ih => exact Nat.le_trans (s.nextVersion_le_next r) (ih _)

/-- The version that a response tells. -/
def told? (r : Response) : Option Int :=
  match r.content with
  | .json d =>
    match d.field? "version".toList with
    | some (.int v) => some v
    | _ => none
  | .text _ => none

/-- A successful PUT is told the next version, which is not the next one any more. -/
theorem told_of_puts {r : Request} {xml : Text} (h : s.Puts r serial xml n) :
    told? (s.response r) = some (s.nextVersion : Int) ∧
      (s.next r).nextVersion = s.nextVersion + 1 := by
  have hversion := Snapshot.version_of_build h.built
  obtain ⟨hstored, hanswered⟩ := h.outcome
  constructor
  · rw [told?, hanswered, ← hversion]
    rfl
  · rw [hstored, ← hversion]
    rfl

/-- A successful PUT has a dump and a snapshot of it. -/
theorem exists_puts_of_status {r : Request} (he : r.endpoint? = some (.upload serial))
    (hstatus : (s.response r).status = 200) : ∃ xml n, s.Puts r serial xml n := by
  cases step_next s r with
  | put puts _ _ =>
      have hsame := puts.endpoint
      rw [he] at hsame
      cases hsame
      exact ⟨_, _, puts⟩
  | delete endpoint _ _ =>
      rw [he] at endpoint
      cases endpoint
  | keep unaltered _ => exact absurd ⟨Or.inl he, hstatus⟩ (unaltered serial)

/-- **A later successful PUT is told a greater version**, whatever the serials are. -/
theorem told_lt_of_puts {other : Text} {before inner : List Request} {r r' : Request}
    (he : r.endpoint? = some (.upload serial))
    (hstatus : ((s.run before).response r).status = 200)
    (he' : r'.endpoint? = some (.upload other))
    (hstatus' : ((s.run (before ++ r :: inner)).response r').status = 200) :
    ∃ v w, told? ((s.run before).response r) = some v ∧
      told? ((s.run (before ++ r :: inner)).response r') = some w ∧ v < w := by
  obtain ⟨xml, n, hput⟩ := exists_puts_of_status he hstatus
  obtain ⟨xml', n', hput'⟩ := exists_puts_of_status he' hstatus'
  obtain ⟨htold, hnext⟩ := told_of_puts hput
  refine ⟨_, _, htold, (told_of_puts hput').1, ?_⟩
  have hle := nextVersion_le_run ((s.run before).next r) inner
  have hrun : s.run (before ++ r :: inner) = ((s.run before).next r).run inner := by
    rw [run_append, run]
  rw [← hrun] at hle
  omega

end Service

end UiTree
