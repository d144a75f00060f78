import TagIndex.Database.Batch
import TagIndex.Proofs.Tables
import TagIndex.Proofs.Work

/-!
# What a batch does

Batches are candid, and whatever each statement keeps a batch keeps.
-/

namespace TagIndex.Batch

open Work

variable {I : Database → Prop} {db db' : Database} {tags : List Tag} {file : String} {t : Tag}

/-! ## Changes in a row -/

/-- The tables in the order in which they are emptied. -/
def emptyings : List (Database → Database) :=
  [fun db => { db with globalTable := db.globalTable.emptied }, ({ · with tags := [] }), ({ · with files := [] }),
    fun db => { db with macroTable := db.macroTable.emptied },
    fun db => { db with simpleMacroTable := db.simpleMacroTable.emptied }]

theorem clear_eq : clear = changes emptyings := by
  have hlast := changes_singleton fun db => { db with simpleMacroTable := db.simpleMacroTable.emptied }
  show clear = change _ >>= fun _ => change _ >>= fun _ => change _ >>= fun _ => change _ >>= fun _ => changes _
  rw [hlast]
  rfl

theorem putFileEntries_eq (now : Int) (files : List String) :
    putFileEntries now files = changes (files.map fun file db => db.putFileEntry file now) := by
  induction files with
  | nil => rfl
  | cons file files ih => rw [putFileEntries, ih]; rfl

theorem putMacros_eq (ms : List Macro) : putMacros ms = changes (ms.map fun m db => db.putMacro m) := by
  induction ms with
  | nil => rfl
  | cons m ms ih => rw [putMacros, ih]; rfl

theorem putSimpleMacros_eq (file : String) (names : List String) :
    putSimpleMacros file names = changes (names.map fun name db => db.addSimpleMacro file name) := by
  induction names with
  | nil => rfl
  | cons name names ih => rw [putSimpleMacros, ih]; rfl

/-! ## Candid batches -/

theorem candid_removeFile (file : String) : (removeFile file).Candid :=
  .bind .change fun _ => .bind (.writes fun _ _ he => by cases he) fun _ => .bind .change fun _ => .pure

theorem candid_removeFiles (files : List String) : (removeFiles files).Candid := by
  induction files with
  | nil => exact .pure
  | cons file files ih =>
      exact .bind .ask fun _ => .bind (candid_removeFile file) fun _ => .bind ih fun _ => .pure

/-- A tag can be rejected, but that is no damage. -/
theorem candid_putTag (t : Tag) (reuse : Option Nat) : (putTag t reuse).Candid := by
  have hnote : ∀ id, Candid (if t.isGlobal then Work.change (·.addGlobal t.name id) else pure ()) := by
    intro id
    split
    · exact .change
    · exact .pure
  refine .bind .ask fun found => ?_
  cases found with
  | some id => exact .bind .change fun _ => .bind .change fun _ => hnote id
  | none =>
      refine .bind (.writes fun db e he => ?_) hnote
      unfold Database.addTag at he
      split at he <;> cases he
      rfl

theorem candid_putTags (tags : List Tag) (m : Memory) : (putTags tags m).Candid := by
  induction tags generalizing m with
  | nil => exact .pure
  | cons t tags ih =>
      unfold putTags
      split
      · exact .bind (candid_putTag t _) fun _ => .bind (ih _) fun _ => .pure
      · exact .bind (ih _) fun _ => .pure

theorem candid_putFileEntries (now : Int) (files : List String) : (putFileEntries now files).Candid :=
  putFileEntries_eq now files ▸ candid_changes _

theorem candid_store (tags : List Tag) (now : Int) : (store tags now).Candid :=
  .bind (candid_removeFiles _) fun _ => .bind (candid_putTags _ _) fun _ =>
    .bind (candid_putFileEntries _ _) fun _ => .pure

theorem candid_clear : clear.Candid := clear_eq ▸ candid_changes _

theorem candid_storeMacros (ms : List Macro) : (storeMacros ms).Candid :=
  .bind (putMacros_eq ms ▸ candid_changes _) fun _ => .pure

theorem candid_storeSimpleMacros (file : String) (names : List String) : (storeSimpleMacros file names).Candid :=
  .bind .change fun _ => .bind (putSimpleMacros_eq file names ▸ candid_changes _) fun _ => .pure

theorem orderly_removeFile (file : String) : (removeFile file).Orderly := (candid_removeFile file).toOrderly

theorem orderly_store (tags : List Tag) (now : Int) : (store tags now).Orderly := (candid_store tags now).toOrderly

theorem orderly_clear : clear.Orderly := candid_clear.toOrderly

theorem orderly_storeMacros (ms : List Macro) : (storeMacros ms).Orderly := (candid_storeMacros ms).toOrderly

theorem orderly_storeSimpleMacros (file : String) (names : List String) : (storeSimpleMacros file names).Orderly :=
  (candid_storeSimpleMacros file names).toOrderly

/-! ## What statements keep, batches keep -/

theorem keeps_putFileEntries (h : ∀ db file now, I db → I (db.putFileEntry file now)) (now : Int)
    (files : List String) : Keeps I (putFileEntries now files) := by
  rw [putFileEntries_eq]
  exact keeps_changes (List.forall_mem_map.mpr fun file _ db => h db file now)

theorem keeps_storeMacros (h : ∀ db m, I db → I (db.putMacro m)) (ms : List Macro) :
    Keeps I (storeMacros ms) := by
  rw [storeMacros, putMacros_eq]
  exact Keeps.bind (keeps_changes (List.forall_mem_map.mpr fun m _ db => h db m)) fun _ => Keeps.pure

theorem keeps_storeSimpleMacros (hdrop : ∀ db file, I db → I (db.dropSimpleMacros file))
    (hadd : ∀ db file name, I db → I (db.addSimpleMacro file name)) (file : String) (names : List String) :
    Keeps I (storeSimpleMacros file names) := by
  rw [storeSimpleMacros, putSimpleMacros_eq]
  refine Keeps.bind (.change fun db => hdrop db file) fun _ => Keeps.bind ?_ fun _ => Keeps.pure
  exact keeps_changes (List.forall_mem_map.mpr fun name _ db => hadd db file name)

/-- A fact about the tags, their projection and their counter. -/
def AboutTags (I : Database → Prop) : Prop :=
  ∀ db db' : Database, db'.tags = db.tags → db'.globals = db.globals →
    db'.lastTagId = db.lastTagId → I db → I db'

namespace AboutTags

theorem sameTables (h : AboutTags I) (hs : db.SameTables db') : I db → I db' :=
  h db db' hs.tags hs.globals hs.lastTagId

theorem keeps_change (h : AboutTags I) {f : Database → Database} (ht : ∀ db, (f db).tags = db.tags)
    (hg : ∀ db, (f db).globals = db.globals) (hl : ∀ db, (f db).lastTagId = db.lastTagId) :
    Keeps I (Work.change f) :=
  Keeps.change fun db => h db (f db) (ht db) (hg db) (hl db)

theorem keeps_storeMacros (h : AboutTags I) (ms : List Macro) : Keeps I (storeMacros ms) :=
  Batch.keeps_storeMacros (fun db m => h db (db.putMacro m) rfl rfl rfl) ms

theorem keeps_storeSimpleMacros (h : AboutTags I) (file : String) (names : List String) :
    Keeps I (storeSimpleMacros file names) :=
  Batch.keeps_storeSimpleMacros (fun db f => h db (db.dropSimpleMacros f) rfl rfl rfl)
    (fun db f name => h db (db.addSimpleMacro f name) rfl rfl rfl) file names

/-- Clearing keeps what emptying the projection and emptying the tags keep. -/
theorem keeps_clear (h : AboutTags I)
    (hglobals : ∀ db : Database, I db → I { db with globalTable := db.globalTable.emptied })
    (htags : ∀ db : Database, I db → I { db with tags := [] }) : Keeps I clear := by
  rw [clear_eq]
  refine keeps_changes ?_
  simp only [emptyings, List.forall_mem_cons]
  exact ⟨hglobals, htags, fun db => h db _ rfl rfl rfl, fun db => h db _ rfl rfl rfl, fun db => h db _ rfl rfl rfl,
    List.forall_mem_nil _⟩

end AboutTags

/-- A fact that no removal can change. -/
structure Lasting (I : Database → Prop) : Prop where
  dropGlobalsOf : ∀ db file, I db → I (db.dropGlobalsOf file)
  dropTagsOf : ∀ db file, I db → I (db.dropTagsOf file)
  dropFileEntry : ∀ db file, I db → I (db.dropFileEntry file)

/-- A fact that no statement of a batch of tags can change. -/
structure Stable (I : Database → Prop) : Prop extends Lasting I where
  overwriteTag : ∀ db id t, I db → I (db.overwriteTag id t)
  addTag : ∀ db t id? id db', I db → db.addTag t id? = .ok (id, db') → I db'
  dropGlobal : ∀ db id, I db → I (db.dropGlobal id)
  addGlobal : ∀ db name id, I db → I (db.addGlobal name id)
  putFileEntry : ∀ db file now, I db → I (db.putFileEntry file now)

namespace Lasting

theorem removeFile (h : Lasting I) (file : String) : Keeps I (removeFile file) := by
  refine Keeps.bind (.change fun db => h.dropGlobalsOf db file) fun _ => ?_
  refine Keeps.bind (Meets.statement ?_ fun _ => id) fun _ => ?_
  · intro db n db' hi he
    cases he
    exact h.dropTagsOf db file hi
  · exact Keeps.bind (.change fun db => h.dropFileEntry db file) fun _ => Keeps.pure

theorem removeFiles (h : Lasting I) (files : List String) : Keeps I (removeFiles files) := by
  induction files with
  | nil => exact Keeps.pure
  | cons file files ih =>
      exact Keeps.bind Keeps.ask fun _ => Keeps.bind (h.removeFile file) fun _ =>
        Keeps.bind ih fun _ => Keeps.pure

end Lasting

namespace Stable

theorem noteGlobal (h : Stable I) (t : Tag) (id : Nat) :
    Keeps I (if t.isGlobal then Work.change (·.addGlobal t.name id) else pure ()) := by
  split
  · exact Keeps.change fun db => h.addGlobal db t.name id
  · exact Keeps.pure

theorem putTag (h : Stable I) (t : Tag) (reuse : Option Nat) : Keeps I (putTag t reuse) := by
  refine Keeps.bind Keeps.ask fun found => ?_
  cases found with
  | some id =>
      exact Keeps.bind (.change fun db => h.overwriteTag db id t) fun _ =>
        Keeps.bind (.change fun db => h.dropGlobal db id) fun _ => h.noteGlobal t id
  | none =>
      refine Keeps.bind (Meets.statement (fun db id db' hi he => ?_) fun _ => id) fun id =>
        h.noteGlobal t id
      exact h.addTag db t reuse id db' hi he

theorem putTags (h : Stable I) (tags : List Tag) (m : Memory) : Keeps I (putTags tags m) := by
  induction tags generalizing m with
  | nil => exact Keeps.pure
  | cons t tags ih =>
      unfold Batch.putTags
      split
      · exact Keeps.bind (h.putTag t _) fun _ => Keeps.bind (ih _) fun _ => Keeps.pure
      · exact Keeps.bind (ih _) fun _ => Keeps.pure

theorem store (h : Stable I) (tags : List Tag) (now : Int) : Keeps I (store tags now) :=
  Keeps.bind (h.toLasting.removeFiles _) fun _ => Keeps.bind (h.putTags _ _) fun _ =>
    Keeps.bind (keeps_putFileEntries h.putFileEntry now _) fun _ => Keeps.pure

end Stable

end TagIndex.Batch
