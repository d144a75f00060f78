import TagIndex.Proofs.AnsweredRows
import TagIndex.Proofs.Projection

/-!
# Files that are deleted

Of a file that is deleted nothing is left, in no table and in no answer, and all else stays as it was.
-/

namespace TagIndex

open Relation

namespace Database

variable {db : Database} {file : String} {r : Row}

@[simp] theorem without_files (db : Database) (file : String) :
    (db.without file).files = db.files.filter (·.file ≠ file) := rfl

/-- The entries of the projection that are about a row. -/
def globalsOf (db : Database) (r : Row) : List GlobalName := db.globals.filter (·.tagId = r.id)

theorem globalsOf_without_self (hr : r ∈ db.rowsOf file) : (db.without file).globalsOf r = [] := by
  rw [globalsOf, without_globals, List.filter_filter, List.filter_eq_nil_iff]
  intro g _ hg
  simp only [Bool.and_eq_true, decide_eq_true_eq, List.all_eq_true] at hg
  exact hg.2 r hr hg.1.symm

/-- Ids tell the rows of a file from all others. -/
theorem Sound.globalsOf_without (hs : db.Sound) (hr : r ∈ db.tags) (hf : r.tag.file ≠ file) :
    (db.without file).globalsOf r = db.globalsOf r := by
  rw [globalsOf, globalsOf, without_globals, List.filter_filter]
  refine List.filter_congr fun g _ => ?_
  by_cases hid : g.tagId = r.id
  · have hkept : (db.rowsOf file).all (·.id ≠ g.tagId) := by
      refine List.all_eq_true.mpr fun o ho => decide_eq_true fun he => hf ?_
      obtain ⟨hmem, hfile⟩ := List.mem_filter.mp ho
      rw [← hs.eq_of_id hmem hr (he.trans hid)]
      exact of_decide_eq_true hfile
    rw [hkept, Bool.and_true]
  · simp [hid]

end Database

namespace Store

variable {s : Store} {file : String} {auto : Bool} {n : Nat}

theorem deleteByFile_meets (h : (s.deleteByFile file auto).1 = .ok n) :
    n = (s.database.rowsOf file).length ∧ (s.deleteByFile file auto).2.database = s.database.without file :=
  mutate_meets (Batch.orderly_removeFile file) (Batch.removeFile_meets s.database file) rfl h

end Store
end TagIndex
