import TagIndex.Proofs.Projection
import TagIndex.Proofs.Runs

/-!
# What is true of every reachable store

All tables are sound, whatever fails. The projection of the global scope is right as long as no call
without a transaction of its own fails part-way.
-/

namespace TagIndex

open Work PlaceState

/-! ## Soundness -/

namespace Batch

variable {db : Database}

theorem unbroken_true : Unbroken fun _ => True where
  without _ _ _ _ := trivial
  put _ _ _ _ _ _ _ := trivial
  putFileEntry _ _ _ _ := trivial

theorem sound_of_no_tags (h : db.tags = []) : db.Sound := by
  refine ⟨?_, ?_, ?_, ?_⟩ <;> simp [h]

theorem aboutTags_sound : AboutTags Database.Sound := fun _ _ ht _ hl hs => hs.congr ht hl

theorem kept_sound : Kept Database.Sound where
  aboutTags := aboutTags_sound
  store _ now := Meets.each fun _ hs =>
    (store_meets unbroken_true hs trivial now).imp (fun _ => id) (fun _ _ h => h.2.1) fun _ => id
  removeFile file := lasting_sound.removeFile file
  clear := aboutTags_sound.keeps_clear (fun _ hs => hs.congr rfl rfl) fun _ _ => sound_of_no_tags rfl

/-! ## The projection -/

theorem restored_projected : Restored fun db => db.Sound ∧ db.Projected where
  aboutTags _ _ ht hg hl h := ⟨h.1.congr ht hl, h.2.congr ht hg⟩
  store _ now := Meets.each fun _ h =>
    (store_meets unbroken_projected h.1 h.2 now).imp (fun _ => id) (fun _ _ h => h.2) fun _ _ => trivial
  removeFile file := Meets.each fun db h =>
    (removeFile_meets db file).imp (fun _ => id)
      (fun _ d hd => by rw [hd.2]; exact ⟨h.1.without file, h.2.without h.1 file⟩) fun _ => id
  clear := Meets.each fun db _ => (clear_meets db).imp (fun _ => id)
    (by rintro _ _ rfl; exact ⟨sound_of_no_tags rfl, Database.projected_of_no_rows rfl rfl⟩) fun _ => id

end Batch

/-! ## Reachable stores -/

namespace Store

variable {s : Store}

theorem Reachable.sound (h : s.Reachable) (p : Place) : All Database.Sound (s.stateAt p) :=
  h.all_of_kept Batch.kept_sound Database.sound_empty p

theorem Reachable.sound_tables (h : s.Reachable) (p : Place) : (s.disk.tables p).Sound := (h.sound p).1

theorem Reachable.sound_database (h : s.Reachable) : s.database.Sound :=
  All.database Database.sound_empty h.sound

theorem Unscathed.reachable (h : s.Unscathed) : s.Reachable := h.imp fun _ _ _ => trivial

theorem Unscathed.projected (h : s.Unscathed) (p : Place) :
    All (fun db => db.Sound ∧ db.Projected) (s.stateAt p) :=
  h.all (fun _ _ => Batch.restored_projected.aboutTags.sameTables)
    ⟨Database.sound_empty, Database.projected_empty⟩
    (fun _ _ hf => Step.respects_of_restored Batch.restored_projected hf) p

theorem Unscathed.projected_tables (h : s.Unscathed) (p : Place) :
    (s.disk.tables p).Sound ∧ (s.disk.tables p).Projected := (h.projected p).1

theorem Unscathed.projected_database (h : s.Unscathed) : s.database.Projected :=
  (PlaceState.All.database ⟨Database.sound_empty, Database.projected_empty⟩ h.projected).2

/-- Every row of the global scope has exactly one entry in the projection, with its name and its id, and
there is no other entry: in what the session sees, and in every database on the disk. -/
theorem global_projection (h : s.Unscathed) :
    s.database.Projected ∧ ∀ p db, s.disk.database? p = some db → db.Projected := by
  refine ⟨(All.database ⟨Database.sound_empty, Database.projected_empty⟩ h.projected).2, ?_⟩
  intro p db hdb
  have hp := (h.projected p).1.2
  rwa [show (s.stateAt p).stored = db by simp [stateAt, Disk.tables, hdb]] at hp

/-- A row that moves out of the global scope under its key leaves the projection, and the others of its
file stay. -/
theorem global_projection_of_moved_row :
    let file : List Tag :=
      [{ name := "f", file := "a.c", kind := "function", path := "p", scope := globalScope },
       { name := "v", file := "a.c", kind := "variable", path := "v", scope := globalScope }]
    let moved : List Tag :=
      [{ name := "g", file := "a.c", kind := "function", path := "p", scope := "ns" },
       { name := "v", file := "a.c", kind := "variable", path := "v", scope := globalScope }]
    let opened := Step.act {} (.openPath "a.db")
    let s := Step.act (Step.act opened (.storeTags file 0 true)) (.storeTags moved 0 true)
    s.database.globals = [⟨"v", 2⟩] ∧ s.database.Projected := by
  intro file moved opened s
  have h₀ : Unscathed {} := .new ⟨rfl, rfl, rfl⟩ fun _ => .refl _
  have h₁ : Unscathed opened := .next (.openPath "a.db") h₀ trivial id
  have h₂ : Unscathed (Step.act opened (.storeTags file 0 true)) :=
    .next (.storeTags file 0 true) h₁ trivial id
  have h₃ : s.Unscathed := .next (.storeTags moved 0 true) h₂ trivial id
  exact ⟨by decide +kernel, (global_projection h₃).1⟩

end Store
end TagIndex
