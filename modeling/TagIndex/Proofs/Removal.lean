import TagIndex.Proofs.Put

/-!
# Removing files

A batch first removes the rows of every file that it names, and remembers their ids by key.
-/

namespace TagIndex

open Work

namespace Database

/-- The database without a file's tags, their global names and the file's entry. -/
def without (db : Database) (file : String) : Database :=
  ((db.dropGlobalsOf file).dropTagsOf file).dropFileEntry file

@[simp] theorem without_tags (db : Database) (file : String) :
    (db.without file).tags = db.tags.filter (·.tag.file ≠ file) := rfl

@[simp] theorem without_globals (db : Database) (file : String) :
    (db.without file).globals = db.globals.filter fun g => (db.rowsOf file).all (·.id ≠ g.tagId) :=
  globals_dropGlobalsOf db file

@[simp] theorem without_lastTagId (db : Database) (file : String) :
    (db.without file).lastTagId = db.lastTagId := rfl

theorem Sound.without {db : Database} (hs : db.Sound) (file : String) : (db.without file).Sound :=
  (hs.filter _).congr rfl rfl

end Database

namespace Batch

variable {db : Database} {tags : List Tag} {m : Memory} {k : Tag.Key}

/-- The files that a batch names, if they have names at all. -/
def Names (tags : List Tag) (file : String) : Prop := file ≠ "" ∧ ∃ t ∈ tags, t.file = file

theorem mem_insertDistinct {s u : String} {l : List String} :
    u ∈ insertDistinct s l ↔ u = s ∨ u ∈ l := by
  induction l with
  | nil => simp [insertDistinct]
  | cons v l ih =>
      simp only [insertDistinct]
      split
      · simp
      · split
        · rename_i he
          simp [he]
        · simp only [List.mem_cons, ih]
          exact or_left_comm

theorem mem_files {file : String} : file ∈ files tags ↔ Names tags file := by
  have h : ∀ l : List String, file ∈ l.foldr insertDistinct [] ↔ file ∈ l := by
    intro l
    induction l with
    | nil => rfl
    | cons s l ih => rw [List.foldr_cons, mem_insertDistinct, ih, List.mem_cons]
  rw [files, h, List.mem_filter, List.mem_map, Names, and_comm]
  simp only [ne_eq, decide_eq_true_eq]

theorem removeFile_meets (db : Database) (file : String) :
    Meets (· = db) (removeFile file)
      (fun n db' => n = (db.rowsOf file).length ∧ db' = db.without file) fun _ => True := by
  refine Meets.bind (Q := fun _ d => d = db.dropGlobalsOf file)
    (.change (by rintro _ rfl; rfl) fun _ _ => trivial) fun _ => ?_
  refine Meets.bind
    (Q := fun n d => n = (db.rowsOf file).length ∧ d = (db.dropGlobalsOf file).dropTagsOf file)
    (.statement ?_ fun _ _ => trivial) fun n => ?_
  · rintro _ n d rfl h
    cases h
    exact ⟨rfl, rfl⟩
  refine Meets.bind (Q := fun _ d => n = (db.rowsOf file).length ∧ d = db.without file)
    (.change ?_ fun _ _ => trivial) fun _ => .pure fun _ => id
  rintro _ ⟨rfl, rfl⟩
  exact ⟨rfl, rfl⟩

/-- The memory holds the ids of the rows of the given files, by their keys. -/
def Recalls (m : Memory) (db : Database) (files : List String) : Prop :=
  ∀ k id, (k, id) ∈ m ↔ ∃ r ∈ db.tags, r.tag.file ∈ files ∧ r.tag.key = k ∧ r.id = id

theorem mem_keysOf {file : String} {id : Nat} :
    (k, id) ∈ db.keysOf file ↔ ∃ r ∈ db.tags, r.tag.file = file ∧ r.tag.key = k ∧ r.id = id := by
  simp [Database.keysOf, Database.rowsOf, and_assoc]

theorem Recalls.cons {file : String} {files : List String}
    (h : Recalls m (db.without file) files) : Recalls (db.keysOf file ++ m) db (file :: files) := by
  intro k id
  rw [List.mem_append, mem_keysOf, h]
  constructor
  · rintro (⟨r, hr, hf, hk⟩ | ⟨r, hr, hf, hk⟩)
    · exact ⟨r, hr, by simp [hf], hk⟩
    · exact ⟨r, List.mem_of_mem_filter hr, List.mem_cons_of_mem _ hf, hk⟩
  · rintro ⟨r, hr, hf, hk⟩
    by_cases he : r.tag.file = file
    · exact .inl ⟨r, hr, he, hk⟩
    · refine .inr ⟨r, ?_, (List.mem_cons.mp hf).resolve_left he, hk⟩
      simp [hr, he]

/-- A file that is removed twice has no rows the second time. -/
theorem length_filter_mem_cons (db : Database) (file : String) (files : List String) :
    (db.tags.filter (·.tag.file ∈ file :: files)).length =
      (db.rowsOf file).length + ((db.without file).tags.filter (·.tag.file ∈ files)).length := by
  rw [Database.rowsOf, Database.without_tags]
  induction db.tags with
  | nil => rfl
  | cons r rows ih =>
      by_cases hf : r.tag.file = file
      · simp [hf] at ih ⊢
        omega
      · by_cases hm : r.tag.file ∈ files <;> simp [hf, hm] at ih ⊢ <;> omega

theorem removeFiles_meets (db : Database) (files : List String) :
    Meets (· = db) (removeFiles files)
      (fun r db' => (Recalls r.1 db files ∧ r.2 = (db.tags.filter (·.tag.file ∈ files)).length) ∧
        db' = files.foldl Database.without db) fun _ => True := by
  induction files generalizing db with
  | nil => exact .pure (by rintro _ rfl; exact ⟨⟨by simp [Recalls], by simp⟩, rfl⟩)
  | cons file files ih =>
      refine Meets.bind (Q := fun known d => known = db.keysOf file ∧ d = db)
        (.ask (by rintro _ rfl; exact ⟨rfl, rfl⟩) fun _ _ => trivial) fun known => ?_
      refine Meets.bind (removeFile_meets db file).frame fun n => ?_
      refine Meets.bind (Q := fun r d => (known = db.keysOf file ∧ n = (db.rowsOf file).length) ∧
        (Recalls r.1 (db.without file) files ∧
          r.2 = ((db.without file).tags.filter (·.tag.file ∈ files)).length) ∧
        d = files.foldl Database.without (db.without file)) ?_ fun r => .pure ?_
      · exact (ih (db.without file)).frame.imp (fun d h => ⟨⟨h.1, h.2.1⟩, h.2.2⟩) (fun _ _ => id) fun _ => id
      · rintro d ⟨⟨rfl, rfl⟩, ⟨hr, hn⟩, rfl⟩
        refine ⟨⟨hr.cons, ?_⟩, rfl⟩
        rw [length_filter_mem_cons, hn]

theorem lasting_sound : Lasting Database.Sound where
  dropGlobalsOf _ _ hs := hs.congr rfl rfl
  dropTagsOf _ _ hs := hs.filter _
  dropFileEntry _ _ hs := hs.congr rfl rfl

theorem foldl_without_tags (db : Database) (files : List String) :
    (files.foldl Database.without db).tags = db.tags.filter (·.tag.file ∉ files) := by
  induction files generalizing db with
  | nil => simp
  | cons file files ih =>
      rw [List.foldl_cons, ih, Database.without_tags, List.filter_filter]
      refine List.filter_congr fun r _ => ?_
      simp [Bool.and_comm]

theorem foldl_without_lastTagId (db : Database) (files : List String) :
    (files.foldl Database.without db).lastTagId = db.lastTagId :=
  Database.foldl_frame Database.lastTagId Database.without Database.without_lastTagId files db

/-- Clearing that succeeds leaves only the counters, the indexes and the versions. -/
theorem clear_meets (db : Database) :
    Meets (· = db) clear (fun _ d => d = { db with
      tags := []
      globalTable := db.globalTable.emptied
      files := []
      macroTable := db.macroTable.emptied
      simpleMacroTable := db.simpleMacroTable.emptied }) fun _ => True :=
  clear_eq ▸ changes_meets emptyings db

end Batch
end TagIndex
