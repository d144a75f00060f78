import TagIndex.Proofs.Batch
import TagIndex.Proofs.Session

/-!
# Clearing

A clearing has no transaction of its own. It empties one table after the other, and where a statement is refused it
stops, with the tables before it emptied.
-/

namespace TagIndex

namespace Work

variable {ρ : Refusals} {n k : Nat} {db : Database} {e : Fault} {fs : List (Database → Database)}

theorem changes_unrefused (hfree : ∀ j < fs.length, ρ .writes (n + j) = none) :
    changes fs ρ n db = ⟨.ok (), n + fs.length, changed fs db⟩ := by
  induction fs generalizing n db with
  | nil => rfl
  | cons f fs ih =>
      have hrest : ∀ j < fs.length, ρ .writes (n + 1 + j) = none := by
        intro j hj
        rw [Nat.add_right_comm]
        exact hfree (j + 1) (Nat.succ_lt_succ hj)
      have hfirst : ρ .writes n = none := hfree 0 (Nat.succ_pos _)
      unfold changes
      rw [bind_ok (change_of_none hfirst), ih hrest, List.length_cons, Nat.add_right_comm]
      rfl

/-- Changes stop at the first that is refused, and those before it stay. -/
theorem changes_refused (hk : k < fs.length) (hfree : ∀ j < k, ρ .writes (n + j) = none)
    (hr : ρ .writes (n + k) = some e) :
    changes fs ρ n db = ⟨.error e, n + k + 1, changed (fs.take k) db⟩ := by
  induction fs generalizing n db k with
  | nil => cases hk
  | cons f fs ih =>
      unfold changes
      cases k with
      | zero =>
          have hfirst : ρ .writes n = some e := hr
          rw [bind_error (change_of_some hfirst)]
          rfl
      | succ k =>
          have hrest : ∀ j < k, ρ .writes (n + 1 + j) = none := by
            intro j hj
            rw [Nat.add_right_comm]
            exact hfree (j + 1) (Nat.succ_lt_succ hj)
          have hfirst : ρ .writes n = none := hfree 0 (Nat.succ_pos _)
          have hlast : ρ .writes (n + 1 + k) = some e := by rwa [Nat.add_right_comm]
          rw [bind_ok (change_of_none hfirst), ih (Nat.lt_of_succ_lt_succ hk) hrest hlast, Nat.add_right_comm n 1 k]
          rfl

end Work

namespace Store

open Work Batch

variable {s : Store} {c : Connection} {e : Fault} {k : Nat}

theorem clear_of_connection (hc : s.connection = some c) (ht : c.transaction = .none) :
    s.clear.1 = (s.outcome c (changes emptyings)).result.mapError .ofMutation ∧
      s.clear.2.database = (s.outcome c (changes emptyings)).db := by
  rw [← clear_eq]
  have hclear : s.clear = ((s.mutate false Batch.clear).1, (s.mutate false Batch.clear).2.clearCache) := rfl
  rw [hclear, mutate_false hc]
  refine ⟨?_, perform_database hc orderly_clear (losesTransaction_of_idle ht _)⟩
  rw [← perform_result]

/-- A clearing of which no statement is refused empties all tables. One that fails has emptied those before the
statement that is refused, and left the others. -/
theorem clear_stops (hc : s.connection = some c) (ht : c.transaction = .none) :
    ((∀ j < emptyings.length, s.refusals c .writes (s.disk.statements + j) = none) →
      s.clear.1 = .ok () ∧ s.clear.2.database = changed emptyings s.database) ∧
    ∀ k < emptyings.length, ∀ e, (∀ j < k, s.refusals c .writes (s.disk.statements + j) = none) →
      s.refusals c .writes (s.disk.statements + k) = some e →
      s.clear.1 = .error (.ofMutation e) ∧ s.clear.2.database = changed (emptyings.take k) s.database := by
  obtain ⟨hresult, hdb⟩ := clear_of_connection hc ht
  rw [hresult, hdb, outcome, ← database_eq hc]
  refine ⟨fun hfree => ?_, fun k hk e hfree hr => ?_⟩
  · rw [changes_unrefused hfree]
    exact ⟨rfl, rfl⟩
  · rw [changes_refused hk hfree hr]
    exact ⟨rfl, rfl⟩

/-- Where the second statement is refused, a tag is left that the projection does not know any more. -/
theorem clear_stops_at_tags :
    let tag : Tag := { name := "f", file := "a.c", kind := "function", path := "f", scope := globalScope }
    let stored := ((Store.openPath {} "tags.db").2.storeTags [tag] 0 true).2
    let trouble (n : Nat) := if n = stored.disk.statements + 1 then some Fault.locked else none
    let s := { stored with disk := { stored.disk with trouble } }
    s.isOpen ∧ s.connection.all Connection.isIdle ∧ s.clear.1 = .error (.mutation .locked) ∧
      s.clear.2.database = changed (emptyings.take 1) s.database ∧
      s.database.globals ≠ [] ∧ s.clear.2.database.globals = [] ∧ s.clear.2.database.tags = [⟨1, tag⟩] := by
  intro tag stored trouble s
  have hopen : s.isOpen := by decide +kernel
  have hidle : s.connection.all Connection.isIdle := by decide +kernel
  have htables : s.database.globals ≠ [] ∧ s.clear.2.database.globals = [] ∧
      s.clear.2.database.tags = [⟨1, tag⟩] := by decide +kernel
  have hall : s.connection.all fun c => s.refusals c .writes s.disk.statements = none ∧
      s.refusals c .writes (s.disk.statements + 1) = some .locked := by decide +kernel
  clear_value s
  obtain ⟨c, hc⟩ := Option.isSome_iff_exists.mp hopen
  obtain ⟨hfirst, hsecond⟩ := of_decide_eq_true ((Option.all_eq_true _ _).mp hall c hc)
  have hfree : ∀ j < 1, s.refusals c .writes (s.disk.statements + j) = none := by
    intro j hj
    obtain rfl : j = 0 := Nat.lt_one_iff.mp hj
    exact hfirst
  obtain ⟨herror, hleft⟩ := (clear_stops hc (isIdle_iff.mp ((Option.all_eq_true _ _).mp hidle c hc))).2 1 (by decide)
    .locked hfree hsecond
  exact ⟨hopen, hidle, herror, hleft, htables⟩

end Store
end TagIndex
