import TagIndex.Database.Schema
import TagIndex.Proofs.Tables
import TagIndex.Proofs.Work

/-!
# The schema

Its statements leave all rows and counters alone, whichever of them fail. An index that is made keeps apart what it
should, and if none of them fails, both indexes are there that a replacement needs.
-/

namespace TagIndex

open Database Work

variable {I : Database → Prop} {ρ : Refusals} {n : Nat} {db : Database}

/-! ## Statements that are tried -/

namespace Work

theorem Keeps.tried {α : Type} {w : Work α} (h : Keeps I w) : Keeps I w.tried := fun _ _ _ hi => h.db hi

theorem tried_change_of_none {f : Database → Database} (h : ρ .writes n = none) :
    (change f).tried ρ n db = ⟨.ok (), n + 1, f db⟩ := by
  rw [Work.tried, change_of_none h]

theorem tried_change_next (f : Database → Database) (ρ : Refusals) (n : Nat) (db : Database) :
    ((change f).tried ρ n db).next = n + 1 := statement_next ρ n db

end Work

namespace Schema

theorem tryAll_sameTables {fs : List (Database → Database)} (h : ∀ f ∈ fs, ∀ db : Database, db.SameTables (f db))
    (db : Database) : Keeps db.SameTables (tryAll fs) := by
  induction fs with
  | nil => exact Keeps.pure
  | cons f fs ih =>
      obtain ⟨hf, hfs⟩ := List.forall_mem_cons.mp h
      exact Keeps.bind (.tried (.change fun d hd => hd.trans (hf d))) fun _ => ih hfs

/-- Each statement is tried, whatever became of those before it. -/
theorem tryAll_next (fs : List (Database → Database)) (ρ : Refusals) (n : Nat) (db : Database) :
    (tryAll fs ρ n db).next = n + fs.length := by
  induction fs generalizing n db with
  | nil => rfl
  | cons f fs ih =>
      show (tryAll fs ρ ((change f).tried ρ n db).next _).next = _
      rw [ih, tried_change_next, List.length_cons]
      omega

theorem tryAll_unrefused {fs : List (Database → Database)} {n : Nat}
    (h : ∀ m, n ≤ m → m < n + fs.length → ρ .writes m = none) (db : Database) :
    tryAll fs ρ n db = ⟨.ok (), n + fs.length, changed fs db⟩ := by
  induction fs generalizing n db with
  | nil => rfl
  | cons f fs ih =>
      rw [List.length_cons] at h
      have hfirst : ρ .writes n = none := h n (Nat.le_refl n) (by omega)
      have hrest : ∀ m, n + 1 ≤ m → m < n + 1 + fs.length → ρ .writes m = none :=
        fun m hle hlt => h m (by omega) (by omega)
      rw [tryAll, bind_ok (tried_change_of_none hfirst), ih hrest, List.length_cons, Nat.add_right_comm, Nat.add_assoc]
      rfl

/-! ## Its statements -/

theorem sameTables_indexFiles (db : Database) : db.SameTables (indexFiles db) := by
  refine ⟨rfl, fun h => ⟨fun hu => ?_, h.macros⟩⟩
  rcases Bool.or_eq_true_iff.mp hu with hu | hd
  · exact h.files hu
  · exact of_decide_eq_true hd

theorem sameTables_indexMacros (db : Database) : db.SameTables (indexMacros db) := by
  refine ⟨rfl, fun h => ⟨h.files, fun hu => ?_⟩⟩
  rcases Bool.or_eq_true_iff.mp hu with hu | hd
  · exact h.macros hu
  · exact of_decide_eq_true hd

theorem sameTables_statements : ∀ f ∈ statements, ∀ db : Database, db.SameTables (f db) := by
  intro f hf
  have hcases : f = id ∨ f = indexFiles ∨ f = indexMacros := by
    simp only [statements, List.mem_append, List.mem_replicate, List.mem_cons, List.not_mem_nil] at hf
    tauto
  rcases hcases with rfl | rfl | rfl
  · exact .refl
  · exact sameTables_indexFiles
  · exact sameTables_indexMacros

theorem keeps_recordVersion (db : Database) : Keeps db.SameTables recordVersion :=
  .bind (.change fun d hd => hd.trans (sameTables_versions d _ _)) fun _ =>
    .change fun d hd => hd.trans (sameTables_versions d _ _)

theorem changed_statements (db : Database) : changed statements db = indexMacros (indexFiles db) := by
  rw [statements]
  rfl

/-- Whichever statements fail, the rows and counters stay as they are. -/
theorem ensure_sameTables (ρ : Refusals) (n : Nat) (db : Database) : db.SameTables (ensure ρ n db).db := by
  have hkeeps : Keeps db.SameTables ensure :=
    (tryAll_sameTables sameTables_statements db).bind fun _ => (keeps_recordVersion db).tried
  exact hkeeps.db (SameTables.refl db)

theorem ensure_forward (ρ : Refusals) (n : Nat) (db : Database) : n ≤ (ensure ρ n db).next := by
  have hrecord : recordVersion.Orderly := .bind .change fun _ => .change
  cases htried : tryAll statements ρ n db with
  | mk r n' db' =>
      have hnext : n' = n + statements.length := by rw [← tryAll_next statements ρ n db, htried]
      have hforward := hrecord.forward ρ n' db'
      cases r with
      | ok _ =>
          rw [ensure, bind_ok htried]
          exact Nat.le_trans (hnext ▸ Nat.le_add_right _ _) hforward
      | error _ =>
          rw [ensure, bind_error htried]
          exact hnext ▸ Nat.le_add_right _ _

/-- What the statements of the schema make of a database if none of them fails. -/
def settled (db : Database) : Database := { indexMacros (indexFiles db) with versions := [currentVersion] }

theorem ensure_unrefused (h : ∀ m, ρ .writes m = none) (n : Nat) (db : Database) :
    ensure ρ n db = ⟨.ok (), n + statements.length + 2, settled db⟩ := by
  have hrecord : ∀ n db, recordVersion ρ n db = ⟨.ok (), n + 2, { db with versions := [currentVersion] }⟩ := by
    intro n db
    rw [recordVersion, bind_ok (change_of_none (h n)), change_of_none (h _)]
  rw [ensure, bind_ok (tryAll_unrefused (fun m _ _ => h m) db), Work.tried, hrecord, changed_statements]
  rfl

/-- If its statements meet no trouble, an index is there in the end, unless two entries stand against it. -/
theorem ensure_indexes (h : ∀ m, n ≤ m → m < n + statements.length → ρ .writes m = none) (db : Database) :
    ((db.files.map (·.file)).Nodup → (ensure ρ n db).db.filesUnique) ∧
      ((db.macros.map (·.name)).Nodup → (ensure ρ n db).db.macrosUnique) := by
  have hkeeps : Keeps (fun d => ((db.files.map (·.file)).Nodup → d.filesUnique) ∧
      ((db.macros.map (·.name)).Nodup → d.macrosUnique)) recordVersion :=
    .bind (.change fun _ => id) fun _ => .change fun _ => id
  rw [ensure, bind_ok (tryAll_unrefused h db), changed_statements]
  refine hkeeps.tried.db ⟨fun hf => ?_, fun hm => ?_⟩
  · exact Bool.or_eq_true_iff.mpr (.inr (decide_eq_true hf))
  · exact Bool.or_eq_true_iff.mpr (.inr (decide_eq_true hm))

end Schema
end TagIndex
