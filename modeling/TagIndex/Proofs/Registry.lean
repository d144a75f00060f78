import TagIndex.Proofs.Answers
import TagIndex.Proofs.Connecting
import TagIndex.Proofs.Invariants

/-!
# Entries of files and macros

A batch removes the entries of the files that it names and notes each of them again at its end. So every
file with a row has one entry, as long as no entry is deleted alone and no call fails part-way.
-/

namespace TagIndex

open Work

namespace Database

variable {db db' : Database} {file : String} {now : Int}

/-! ## What is noted -/

def Notes (db : Database) (file : String) : Prop := ∃ e ∈ db.files, e.file = file

theorem Indexed.putFileEntry (h : db.Indexed) (file : String) (now : Int) : (db.putFileEntry file now).Indexed where
  files hu := by
    rw [Database.putFileEntry, if_pos (show db.filesUnique from hu)]
    exact nodup_replace (h.files hu) fun _ _ => of_decide_eq_true
  macros := h.macros

theorem Indexed.setFileTime (h : db.Indexed) (file : String) (time : Int) : (db.setFileTime file time).Indexed where
  files hu := by
    have hfile : ∀ e : FileEntry, (if e.file = file then { e with lastRetagged := time } else e).file = e.file := by
      intro e
      split <;> rfl
    rw [Database.setFileTime, List.map_map]
    simpa only [Function.comp_def, hfile] using h.files hu
  macros := h.macros

theorem Indexed.putMacro (h : db.Indexed) (m : Macro) : (db.putMacro m).Indexed where
  files := h.files
  macros hu := by
    rw [macros_putMacro, if_pos (show db.macrosUnique from hu)]
    exact nodup_replace (h.macros hu) fun _ _ => of_decide_eq_true

theorem Indexed.without (h : db.Indexed) (file : String) : (db.without file).Indexed where
  files hu := (h.files hu).sublist (List.filter_sublist.map _)
  macros := h.macros

/-- Every file with a row has an entry, and the indexes keep apart what they should. -/
structure Registered (db : Database) : Prop extends Indexed db where
  noted : ∀ r ∈ db.tags, db.Notes r.tag.file

theorem registered_empty : Registered {} where
  toIndexed := indexed_empty
  noted := nofun

theorem Registered.sameTables (h : db.Registered) (hs : db.SameTables db') : db'.Registered := by
  refine ⟨hs.indexed h.toIndexed, ?_⟩
  have hnoted := h.noted
  unfold Notes at hnoted ⊢
  rwa [hs.tags, hs.files]

theorem notes_putFileEntry {f : String} :
    (db.putFileEntry f now).Notes file ↔ file = f ∨ db.Notes file := by
  simp only [Notes, putFileEntry, dropFileEntry, List.mem_append, List.mem_singleton]
  constructor
  · rintro ⟨e, he | rfl, rfl⟩
    · refine .inr ⟨e, ?_, rfl⟩
      split at he
      · exact List.mem_of_mem_filter he
      · exact he
    · exact .inl rfl
  · rintro (rfl | ⟨e, he, rfl⟩)
    · exact ⟨_, .inr rfl, rfl⟩
    · by_cases hf : e.file = f
      · exact ⟨_, .inr rfl, hf.symm⟩
      · refine ⟨e, .inl ?_, rfl⟩
        split
        · exact List.mem_filter.mpr ⟨he, decide_eq_true hf⟩
        · exact he

theorem Registered.putFileEntry (h : db.Registered) (file : String) (now : Int) :
    (db.putFileEntry file now).Registered where
  toIndexed := h.toIndexed.putFileEntry file now
  noted r hr := notes_putFileEntry.mpr (.inr (h.noted r hr))

theorem Registered.setFileTime (h : db.Registered) (file : String) (time : Int) :
    (db.setFileTime file time).Registered where
  toIndexed := h.toIndexed.setFileTime file time
  noted r hr := by
    obtain ⟨e, he, hf⟩ := h.noted r hr
    refine ⟨_, List.mem_map_of_mem he, Eq.trans ?_ hf⟩
    split <;> rfl

theorem Registered.putMacro (h : db.Registered) (m : Macro) : (db.putMacro m).Registered where
  toIndexed := h.toIndexed.putMacro m
  noted := h.noted

theorem Registered.without (h : db.Registered) (file : String) : (db.without file).Registered where
  toIndexed := h.toIndexed.without file
  noted r hr := by
    obtain ⟨hr, hf⟩ := List.mem_filter.mp hr
    obtain ⟨e, he, hef⟩ := h.noted r hr
    exact ⟨e, List.mem_filter.mpr ⟨he, by rwa [hef]⟩, hef⟩

end Database

/-! ## Batches -/

namespace Batch

variable {db d : Database} {tags : List Tag} {file : String} {now : Int}

open Database

theorem registered_foldl_without (h : db.Registered) (files : List String) :
    (files.foldl Database.without db).Registered := by
  induction files generalizing db with
  | nil => exact h
  | cons file files ih => exact ih (h.without file)

/-- Putting tags is a matter of the tags, their counter and their projection. -/
theorem put_frame (db : Database) (t : Tag) (reuse : Option Nat) : ∃ tags lastTagId globalTable,
    db.put t reuse = { db with tags, lastTagId, globalTable } := by
  unfold put noteGlobal
  split <;> split <;> exact ⟨_, _, _, rfl⟩

theorem putAll_frame (db : Database) (tags : List Tag) (d : Database) : ∃ rows lastTagId globalTable,
    putAll db tags d = { d with tags := rows, lastTagId, globalTable } := by
  induction tags generalizing d with
  | nil => exact ⟨_, _, _, rfl⟩
  | cons t tags ih =>
      obtain ⟨_, _, _, hput⟩ := put_frame d t (db.idOf? t.key)
      obtain ⟨rows, lastTagId, globalTable, hall⟩ := ih (d.put t (db.idOf? t.key))
      refine ⟨rows, lastTagId, globalTable, Eq.trans hall ?_⟩
      rw [hput]

theorem notes_foldl_putFileEntry (files : List String) (now : Int) (d : Database) :
    (files.foldl (·.putFileEntry · now) d).Notes file ↔ file ∈ files ∨ d.Notes file := by
  induction files generalizing d with
  | nil => simp
  | cons f files ih =>
      refine (ih (d.putFileEntry f now)).trans ?_
      rw [notes_putFileEntry, List.mem_cons, or_assoc, or_left_comm]

theorem indexed_foldl_putFileEntry (h : d.Indexed) (files : List String) (now : Int) :
    (files.foldl (·.putFileEntry · now) d).Indexed := by
  induction files generalizing d with
  | nil => exact h
  | cons f files ih => exact ih (h.putFileEntry f now)

theorem registered_stored (h : db.Registered) {held : Nat → Prop}
    (hr : Replaced tags held db (stored tags now db)) : (stored tags now db).Registered := by
  have hremoved := registered_foldl_without h (files tags)
  obtain ⟨rows, lastTagId, globalTable, hput⟩ :=
    putAll_frame db (accepted tags) ((files tags).foldl Database.without db)
  have hindexed : (putAll db (accepted tags) ((files tags).foldl Database.without db)).Indexed := by
    rw [hput]
    exact ⟨hremoved.files, hremoved.macros⟩
  refine ⟨indexed_foldl_putFileEntry hindexed (files tags) now, fun r hrow => ?_⟩
  refine (notes_foldl_putFileEntry _ _ _).mpr ?_
  by_cases hnames : Names tags r.tag.file
  · exact .inl (mem_files.mpr hnames)
  · -- A row of another file was there before, with its entry.
    right
    have hold : r ∈ db.rowsOf r.tag.file := hr.others _ hnames ▸ mem_rowsOf.mpr ⟨hrow, rfl⟩
    have hkept : r ∈ ((files tags).foldl Database.without db).tags := by
      rw [foldl_without_tags]
      exact List.mem_filter.mpr ⟨(mem_rowsOf.mp hold).1, by simpa [mem_files] using hnames⟩
    rw [hput]
    exact hremoved.noted r hkept

theorem restores_registered_store (tags : List Tag) (now : Int) :
    Restores (fun db => db.Sound ∧ db.Registered) (store tags now) :=
  .each fun db h => (store_exact unbroken_true h.1 trivial now).imp (fun _ => id)
    (by rintro _ _ ⟨⟨_, rfl⟩, hr, hs, _⟩; exact ⟨hs, registered_stored h.2 hr⟩) fun _ _ => trivial

theorem restores_registered_removeFile (file : String) :
    Restores (fun db => db.Sound ∧ db.Registered) (removeFile file) :=
  .each fun db h => (removeFile_meets db file).imp (fun _ => id)
    (by rintro _ _ ⟨_, rfl⟩; exact ⟨h.1.without file, h.2.without file⟩) fun _ => id

theorem restores_registered_clear : Restores (fun db => db.Sound ∧ db.Registered) clear :=
  .each fun db _ => (clear_meets db).imp (fun _ => id)
    (by rintro _ _ rfl; exact ⟨sound_of_no_tags rfl, ⟨fun _ => .nil, fun _ => .nil⟩, nofun⟩) fun _ => id

theorem keeps_registered_putFileEntry (file : String) (time : Int) :
    Keeps (fun db => db.Sound ∧ db.Registered) (Work.change (·.putFileEntry file time)) :=
  .change fun _ h => ⟨h.1.congr rfl rfl, h.2.putFileEntry file time⟩

theorem keeps_registered_setFileTime (file : String) (time : Int) :
    Keeps (fun db => db.Sound ∧ db.Registered) (Work.change (·.setFileTime file time)) :=
  .change fun _ h => ⟨h.1.congr rfl rfl, h.2.setFileTime file time⟩

theorem keeps_registered_storeMacros (ms : List Macro) :
    Keeps (fun db => db.Sound ∧ db.Registered) (storeMacros ms) :=
  keeps_storeMacros (fun _ m h => ⟨h.1.congr rfl rfl, h.2.putMacro m⟩) ms

theorem keeps_registered_storeSimpleMacros (file : String) (names : List String) :
    Keeps (fun db => db.Sound ∧ db.Registered) (storeSimpleMacros file names) :=
  keeps_storeSimpleMacros (fun _ _ h => ⟨h.1.congr rfl rfl, ⟨h.2.files, h.2.macros⟩, h.2.noted⟩)
    (fun _ _ _ h => ⟨h.1.congr rfl rfl, ⟨h.2.files, h.2.macros⟩, h.2.noted⟩) file names

end Batch

/-! ## Runs -/

open Store Batch

theorem Step.respects_registered {s : Store} {step : Step} (hentry : ∀ file, step ≠ .deleteFileEntry file)
    (hf : ¬ step.FailsPartWay s) :
    step.Respects (fun db db' => db.Sound ∧ db.Registered → db'.Sound ∧ db'.Registered) s := by
  cases step with
  | storeTags tags now auto =>
      refine respects_of_restores (restores_registered_store tags now) (orderly_store tags now) ?_
      rintro rfl
      exact hf
  | deleteByFile file auto =>
      refine respects_of_restores (restores_registered_removeFile file) (orderly_removeFile file) ?_
      rintro rfl
      exact hf
  | clear => exact respects_of_restores restores_registered_clear orderly_clear fun _ => hf
  | insertFileEntry file time => exact respects_of_keeps (keeps_registered_putFileEntry file time)
  | updateFileEntry file time => exact respects_of_keeps (keeps_registered_setFileTime file time)
  | deleteFileEntry file => exact absurd rfl (hentry file)
  | storeMacros macros => exact respects_of_keeps (keeps_registered_storeMacros macros)
  | storeSimpleMacros file names => exact respects_of_keeps (keeps_registered_storeSimpleMacros file names)
  | _ => trivial

namespace Store

variable {s : Store}

/-- The stores that steps lead to of which none deletes a file's entry alone and none fails part-way. -/
abbrev Careful : Store → Prop :=
  After fun s step => (∀ file, step ≠ .deleteFileEntry file) ∧ ¬ step.FailsPartWay s

theorem Careful.registered (h : s.Careful) (p : Place) :
    PlaceState.All (fun db => db.Sound ∧ db.Registered) (s.stateAt p) :=
  h.all (fun _ _ he h => ⟨h.1.congr he.tags he.lastTagId, h.2.sameTables he⟩)
    ⟨Database.sound_empty, Database.registered_empty⟩ (fun _ _ hp => Step.respects_registered hp.1 hp.2) p

/-- In what the session sees, and in every database on the disk, no two rows have one key, every row is of a
file and of a kind that is kept, and every file with a row has an entry. No two entries are of one file and no two
macros of one name where there is an index that tells them. Opening a file for writing makes these indexes, unless a
statement of the schema meets trouble or two entries are alike already. -/
theorem tables_registered (h : s.Careful) :
    (∀ db, db = s.database ∨ (∃ p, s.disk.database? p = some db) →
      (db.tags.map (·.tag.key)).Nodup ∧
      (∀ r ∈ db.tags, r.tag.file ≠ "" ∧ r.tag.kind ∉ ["", Kind.unknown, Kind.localVariable]) ∧
      (∀ r ∈ db.tags, ∃ e ∈ db.files, e.file = r.tag.file) ∧
      (db.filesUnique → (db.files.map (·.file)).Nodup) ∧ (db.macrosUnique → (db.macros.map (·.name)).Nodup)) ∧
    ∀ path handle d, s.disk.connect path = .ok (handle, d) → handle.readOnly = false →
      (∀ n, s.disk.statements ≤ n → n < s.disk.statements + Schema.statements.length → s.disk.trouble n = none) →
      (((s.disk.tables handle.place).files.map (·.file)).Nodup → (d.tables handle.place).filesUnique) ∧
        (((s.disk.tables handle.place).macros.map (·.name)).Nodup → (d.tables handle.place).macrosUnique) := by
  refine ⟨fun db hdb => ?_, fun path handle d hc => Disk.connect_indexes hc⟩
  obtain ⟨hs, ⟨files, macros⟩, noted⟩ : db.Sound ∧ db.Registered := by
    rcases hdb with rfl | ⟨p, hp⟩
    · exact PlaceState.All.database ⟨Database.sound_empty, Database.registered_empty⟩ h.registered
    · have hall := (h.registered p).1
      rwa [show (s.stateAt p).stored = db by simp [stateAt, Disk.tables, hp]] at hall
  refine ⟨hs.distinct, fun r hr => ?_, noted, files, macros⟩
  have hacc := hs.accepted r hr
  simp only [Tag.isAccepted, Tag.isLocalVariable, Tag.isOk] at hacc
  simp_all

/-- A file whose tags are all skipped has an entry, too. An entry that is written again and a macro that is
defined twice stay single. -/
theorem tables_registered_once :
    let tag (file kind name : String) : Tag := { name, file, kind, path := name }
    let batch := [tag "a.c" "function" "f", tag "b.c" "local" "i", tag "a.c" "function" "f"]
    let stored := Step.act (Step.act {} (.openPath "tags.db")) (.storeTags batch 1 true)
    let m : Macro := { name := "M" }
    let s := Step.act (Step.act stored (.insertFileEntry "a.c" 2)) (.storeMacros [m, { m with file := "b.c" }])
    s.database.tags = [⟨1, tag "a.c" "function" "f"⟩] ∧
    s.database.files = [⟨2, "b.c", 1⟩, ⟨3, "a.c", 2⟩] ∧ s.database.macros = [{ m with file := "b.c" }] ∧
    (∀ r ∈ s.database.tags, ∃ e ∈ s.database.files, e.file = r.tag.file) ∧
    s.database.filesUnique ∧ (s.database.files.map (·.file)).Nodup ∧
    s.database.macrosUnique ∧ (s.database.macros.map (·.name)).Nodup := by
  intro tag batch stored m s
  have hopened : Careful (Step.act {} (.openPath "tags.db")) :=
    .next (.openPath "tags.db") (.new ⟨rfl, rfl, rfl⟩ fun _ => .refl _) trivial ⟨nofun, id⟩
  have hstored : stored.Careful := .next (.storeTags batch 1 true) hopened trivial ⟨nofun, id⟩
  have hs : s.Careful :=
    .next (.storeMacros [m, { m with file := "b.c" }])
      (.next (.insertFileEntry "a.c" 2) hstored trivial ⟨nofun, id⟩) trivial ⟨nofun, id⟩
  obtain ⟨_, _, hnoted, hfiles, hmacros⟩ := (tables_registered hs).1 _ (.inl rfl)
  have hu : s.database.filesUnique ∧ s.database.macrosUnique := by decide +kernel
  exact ⟨by decide +kernel, by decide +kernel, by decide +kernel, hnoted, hu.1, hfiles hu.1, hu.2, hmacros hu.2⟩

/-- The statement that makes the index of files is refused when a file is opened, and from then on an entry that is
written again is listed twice. -/
theorem file_listed_twice :
    let failing : Disk := { trouble := fun n => if n = 10 then some .locked else none }
    let opened := Step.act (Step.act {} (.outside failing)) (.openPath "tags.db")
    let s := Step.act (Step.act opened (.insertFileEntry "a.c" 1)) (.insertFileEntry "a.c" 2)
    s.Careful ∧ s.database.filesUnique = false ∧ s.database.files = [⟨1, "a.c", 1⟩, ⟨2, "a.c", 2⟩] := by
  intro failing opened s
  have hfailing : Careful (Step.act {} (.outside failing)) :=
    .next (.outside failing) (.new ⟨rfl, rfl, rfl⟩ fun _ => .refl _) (fun _ => .refl _) ⟨nofun, id⟩
  have hopened : opened.Careful := .next (.openPath "tags.db") hfailing trivial ⟨nofun, id⟩
  have hs : s.Careful := .next (.insertFileEntry "a.c" 2)
    (.next (.insertFileEntry "a.c" 1) hopened trivial ⟨nofun, id⟩) trivial ⟨nofun, id⟩
  exact ⟨hs, by decide +kernel, by decide +kernel⟩

end Store
end TagIndex
