import TagIndex.Proofs.Answers
import TagIndex.Proofs.Composition
import TagIndex.Proofs.Connecting
import TagIndex.Proofs.Items

/-!
# Storing what was read

The tags of a file, as they are read, are a batch that makes the same rows again, each under its own id.
-/

namespace TagIndex

open Work

/-! ## Settled rows -/

theorem Tag.settled_settled (t : Tag) : t.settled.settled = t.settled :=
  congrArg (fun inherits => { t with inherits }) (Text.itemsOf_joined t.inheritsText)

/-- Every row is as it is read back. -/
def Database.Settled (db : Database) : Prop := ∀ r ∈ db.tags, r.tag.settled = r.tag

namespace Batch

theorem stable_settled : Stable Database.Settled where
  dropGlobalsOf _ _ := id
  dropTagsOf _ _ h r hr := h r (List.mem_of_mem_filter hr)
  dropFileEntry _ _ := id
  overwriteTag db id t h r hr := by
    obtain ⟨o, ho, rfl⟩ := List.mem_map.mp hr
    split
    · exact t.settled_settled
    · exact h o ho
  addTag db t id? id db' h ha := by
    obtain ⟨_, rfl⟩ := Database.addTag_ok ha
    intro r hr
    rcases Row.mem_insert.mp hr with rfl | hr
    · exact t.settled_settled
    · exact h r hr
  dropGlobal _ _ := id
  addGlobal _ _ _ := id
  putFileEntry _ _ _ := id

theorem aboutTags_settled : AboutTags Database.Settled := fun _ _ ht _ _ h r hr => h r (ht ▸ hr)

theorem kept_settled : Kept Database.Settled where
  aboutTags := aboutTags_settled
  store tags now := stable_settled.store tags now
  removeFile file := stable_settled.toLasting.removeFile file
  clear := aboutTags_settled.keeps_clear (fun _ => id) fun _ _ => nofun

end Batch

namespace Store

theorem Reachable.settled_database {s : Store} (h : s.Reachable) : s.database.Settled :=
  have h0 : Database.Settled {} := nofun
  PlaceState.All.database h0 (h.all_of_kept Batch.kept_settled h0)

end Store

/-! ## Putting rows back -/

/-- Where the projection is right, it can be told in two parts: by a file's rows and by the others. -/
theorem Database.Projected.mem_iff_of_file {db : Database} (h : db.Projected) (hs : db.Sound) (file : String)
    (g : GlobalName) :
    (g ∈ db.globals ∧ ∀ r ∈ db.rowsOf file, r.id ≠ g.tagId) ∨
      (∃ r ∈ db.rowsOf file, r.tag.isGlobal ∧ g = ⟨r.tag.name, r.id⟩) ↔ g ∈ db.globals := by
  constructor
  · rintro (⟨hg, _⟩ | ⟨r, hr, hg⟩)
    · exact hg
    · exact (h.exact g).mpr ⟨r, List.mem_of_mem_filter hr, hg⟩
  · intro hg
    obtain ⟨o, ho, hglobal, rfl⟩ := (h.exact g).mp hg
    by_cases hf : o.tag.file = file
    · exact .inr ⟨o, Batch.mem_rowsOf.mpr ⟨ho, hf⟩, hglobal, rfl⟩
    · refine .inl ⟨hg, fun r hr he => hf ?_⟩
      obtain ⟨hr, hrf⟩ := Batch.mem_rowsOf.mp hr
      rw [← hs.eq_of_id hr ho he, hrf]

namespace Batch

open Database

variable {db d : Database} {rows : List Row} {file : String} {r : Row}

/-- A row that was taken away is put back under its id. -/
theorem put_row (hs : db.Sound) (hset : db.Settled) (hr : r ∈ db.tags) (hd : d.Sound)
    (hpart : ∀ o ∈ d.tags, o ∈ db.tags ∧ o ≠ r) :
    (d.put r.tag (db.idOf? r.tag.key)).Sound ∧
    (∀ o, o ∈ (d.put r.tag (db.idOf? r.tag.key)).tags ↔ o = r ∨ o ∈ d.tags) ∧
    (d.put r.tag (db.idOf? r.tag.key)).globals =
      d.globals ++ if r.tag.isGlobal then [⟨r.tag.name, r.id⟩] else [] := by
  have hnew : ∀ o ∈ d.tags, o.tag.key ≠ r.tag.key := fun o ho hk =>
    (hpart o ho).2 (hs.eq_of_key (hpart o ho).1 hr hk)
  have hfree : ∀ id, some r.id = some id → d.Free id := by
    rintro _ ⟨⟩ o ho he
    exact (hpart o ho).2 (hs.eq_of_id (hpart o ho).1 hr he)
  have hnone : d.idOf? r.tag.key = none := idOf?_eq_none.mpr hnew
  have hid : d.putId r.tag (some r.id) = r.id := by simp [putId, hnone]
  rw [hs.idOf?_key hr]
  refine ⟨hd.put (hs.accepted r hr) hfree, fun o => ?_, ?_⟩
  · rw [mem_put hd, hid, hset r hr]
    exact or_congr_right (and_iff_left_of_imp (hnew o))
  · rw [put_globals, hnone, hid]
    rfl

/-- Rows that are put back one after the other join those that were never taken away. -/
theorem putAll_rows (hs : db.Sound) (hset : db.Settled) (hrows : ∀ r ∈ rows, r ∈ db.tags) (hn : rows.Nodup)
    (hd : d.Sound) (hpart : ∀ o ∈ d.tags, o ∈ db.tags ∧ o ∉ rows) :
    let d' := putAll db (rows.map (·.tag)) d
    d'.Sound ∧ (∀ o, o ∈ d'.tags ↔ o ∈ rows ∨ o ∈ d.tags) ∧
      ∀ g, g ∈ d'.globals ↔ g ∈ d.globals ∨ ∃ r ∈ rows, r.tag.isGlobal ∧ g = ⟨r.tag.name, r.id⟩ := by
  -- What is there already is a part of the old tables that has none of the rows still to be put.
  induction rows generalizing d with
  | nil => simpa [putAll] using hd
  | cons r rows ih =>
      obtain ⟨hr, hn⟩ := List.nodup_cons.mp hn
      obtain ⟨hput, hmem, hglobals⟩ := put_row hs hset (hrows r List.mem_cons_self) hd fun o ho =>
        ⟨(hpart o ho).1, fun he => (hpart o ho).2 (he ▸ List.mem_cons_self)⟩
      have hpart' : ∀ o ∈ (d.put r.tag (db.idOf? r.tag.key)).tags, o ∈ db.tags ∧ o ∉ rows := by
        intro o ho
        rcases (hmem o).mp ho with rfl | ho
        · exact ⟨hrows o List.mem_cons_self, hr⟩
        · exact ⟨(hpart o ho).1, fun hm => (hpart o ho).2 (List.mem_cons_of_mem _ hm)⟩
      obtain ⟨hsound, hmem', hglobals'⟩ := ih (fun o ho => hrows o (List.mem_cons_of_mem _ ho)) hn hput hpart'
      refine ⟨hsound, fun o => (hmem' o).trans ?_, fun g => (hglobals' g).trans ?_⟩
      · rw [hmem, List.mem_cons]
        exact or_left_comm.trans or_assoc.symm
      · rw [hglobals, List.mem_append]
        by_cases hg : r.tag.isGlobal <;> simp [hg, or_assoc]

theorem files_of_rows (hs : db.Sound) (hp : rows.Perm (db.rowsOf file)) (hne : rows ≠ []) :
    files (rows.map (·.tag)) = [file] := by
  have hfile : ∀ r ∈ rows, r ∈ db.tags ∧ r.tag.file = file := fun r hr => mem_rowsOf.mp (hp.subset hr)
  refine List.perm_singleton.mp ((List.perm_ext_iff_of_nodup (nodup_files _) (List.nodup_singleton _)).mpr ?_)
  intro f
  simp only [mem_files, Names, List.mem_map, List.mem_singleton]
  constructor
  · rintro ⟨_, _, ⟨r, hr, rfl⟩, rfl⟩
    exact (hfile r hr).2
  · rintro rfl
    obtain ⟨r, hr⟩ := List.exists_mem_of_ne_nil rows hne
    obtain ⟨hm, hf⟩ := hfile r hr
    exact ⟨hf ▸ Tag.isAccepted_file_ne (hs.accepted r hm), r.tag, ⟨r, hr, rfl⟩, hf⟩

theorem isAccepted_of_rows (hs : db.Sound) (hp : rows.Perm (db.rowsOf file)) :
    ∀ t ∈ rows.map (·.tag), t.isAccepted := by
  intro t ht
  obtain ⟨r, hr, rfl⟩ := List.mem_map.mp ht
  exact hs.accepted r (mem_rowsOf.mp (hp.subset hr)).1

/-- What a batch of all tags of a file makes of the tables: the same rows, each of the file told once more. -/
theorem stored_rows (hs : db.Sound) (hset : db.Settled) (hp : rows.Perm (db.rowsOf file)) (hne : rows ≠ [])
    (now : Int) :
    let d := stored (rows.map (·.tag)) now db
    d.tags = db.tags ∧ ∀ g, g ∈ d.globals ↔
      (g ∈ db.globals ∧ ∀ r ∈ db.rowsOf file, r.id ≠ g.tagId) ∨
        ∃ r ∈ db.rowsOf file, r.tag.isGlobal ∧ g = ⟨r.tag.name, r.id⟩ := by
  intro d
  have hmem : ∀ {r}, r ∈ rows ↔ r ∈ db.tags ∧ r.tag.file = file := hp.mem_iff.trans mem_rowsOf
  have hn : rows.Nodup := hp.nodup_iff.mpr (hs.nodup.filter _)
  have hpart : ∀ o ∈ (db.without file).tags, o ∈ db.tags ∧ o ∉ rows := by
    intro o ho
    obtain ⟨ho, hf⟩ := List.mem_filter.mp ho
    exact ⟨ho, fun hr => of_decide_eq_true hf (hmem.mp hr).2⟩
  obtain ⟨hsound, htags, hglobals⟩ :=
    putAll_rows hs hset (fun r hr => (hmem.mp hr).1) hn (hs.without file) hpart
  have haccepted : accepted (rows.map (·.tag)) = rows.map (·.tag) :=
    List.filter_eq_self.mpr (isAccepted_of_rows hs hp)
  have hd : d = (putAll db (rows.map (·.tag)) (db.without file)).putFileEntry file now := by
    simp only [d, stored, haccepted, files_of_rows hs hp hne, List.foldl_cons, List.foldl_nil]
  rw [hd]
  refine ⟨hsound.ascending.eq_of_mem_iff hs.ascending fun o => (htags o).trans ?_,
    fun g => (hglobals g).trans ?_⟩
  · rw [hmem, without_tags, List.mem_filter, decide_eq_true_eq]
    by_cases hf : o.tag.file = file <;> simp [hf]
  · rw [mem_without_globals]
    simp only [hmem, mem_rowsOf, and_imp]

theorem report_rows (hs : db.Sound) (hp : rows.Perm (db.rowsOf file)) (hne : rows ≠ []) :
    report (rows.map (·.tag)) db = ⟨1, (db.rowsOf file).length, (db.rowsOf file).length, 0⟩ := by
  have haccepted := isAccepted_of_rows hs hp
  have hskipped : (rows.map (·.tag)).filter (!·.isAccepted) = [] :=
    List.filter_eq_nil_iff.mpr fun t ht => by simp [haccepted t ht]
  have hremoved : (db.tags.filter (·.tag.file ∈ [file])) = db.rowsOf file := by
    simp only [rowsOf, List.mem_singleton]
  rw [report, files_of_rows hs hp hne, hremoved, hskipped, accepted, List.filter_eq_self.mpr haccepted,
    List.length_map, hp.length_eq]
  rfl

end Batch

/-! ## Storing -/

namespace Store

open Database Query

variable {s : Store} {file : String} {now : Int} {auto : Bool} {stats : StoreStats}

/-- A file's rows that fit the limit are all read, if the file does not refuse. -/
theorem tagsByFile_answered (hs : s.Reachable) (hf : s.Fresh) (hmax : s.options.searchLimit ≤ maxLimit)
    (hl : (s.database.rowsOf file).length ≤ s.options.searchLimit) :
    s.Answered (· = (s.database.rowsOf file).mergeSort (Sorting.ascending .line).le)
      ((tagsByFile file).run s).1 := by
  have hrun := run_byFile hs.sound_database file hmax
  rw [List.take_of_length_le (by rwa [List.length_mergeSort])] at hrun
  rw [tagsByFile, Lookup.run_limited]
  exact hf.isCurrent.fetch_answered (isTooLarge_of_text .file file _ _) hrun

/-- If the rows of a file are read and stored again, the table is as it was, and each row of the file is told
in the projection as it should be. If the file refuses to be read, nothing is stored. -/
theorem storing_read_tags (hs : s.Reachable) (hf : s.Fresh) (hmax : s.options.searchLimit ≤ maxLimit)
    (hne : s.database.rowsOf file ≠ []) (hl : (s.database.rowsOf file).length ≤ s.options.searchLimit) :
    let n := (s.database.rowsOf file).length
    let rows := ((tagsByFile file).run s).1
    let asked := ((tagsByFile file).run s).2
    let t := (asked.storeTags (rows.map (·.tag)) now auto).2
    (asked.storeTags (rows.map (·.tag)) now auto).1 = .ok stats →
    (rows ≠ [] → t.database.tags = s.database.tags ∧ stats = ⟨1, n, n, 0⟩ ∧
      (∀ g, g ∈ t.database.globals ↔
        (g ∈ s.database.globals ∧ ∀ r ∈ s.database.rowsOf file, r.id ≠ g.tagId) ∨
          ∃ r ∈ s.database.rowsOf file, r.tag.isGlobal ∧ g = ⟨r.tag.name, r.id⟩) ∧
      (s.Unscathed → ∀ g, g ∈ t.database.globals ↔ g ∈ s.database.globals)) ∧
    (rows = [] → ¬ s.Readable ∧ t = asked ∧ stats = {}) := by
  have hasked : ((tagsByFile file).run s).2.Reachable := .next (.ask (.tagsByFile file)) hs trivial trivial
  have hsees : ((tagsByFile file).run s).1 = [] ∨ ((tagsByFile file).run s).2.database = s.database := by
    rw [tagsByFile, Lookup.run_limited]
    exact s.fetchKinds_sees _ []
  have hanswer := tagsByFile_answered hs hf hmax hl
  generalize (tagsByFile file).run s = answer at *
  obtain ⟨rows, asked⟩ := answer
  dsimp only at hasked hsees hanswer ⊢
  intro h
  refine ⟨fun hrows => ?_, ?_⟩
  · have hp : rows.Perm (s.database.rowsOf file) := by
      rcases hanswer with he | ⟨_, he⟩
      · rw [he]
        exact List.mergeSort_perm _ _
      · exact absurd he hrows
    obtain ⟨hstats, hstored, _⟩ := storeTags_stored hasked h
    rw [hsees.resolve_left hrows] at hstats hstored
    obtain ⟨htags, hglobals⟩ := Batch.stored_rows hs.sound_database hs.settled_database hp hrows now
    rw [← hstored] at htags hglobals
    refine ⟨htags, hstats.trans (Batch.report_rows hs.sound_database hp hrows), hglobals, fun hu g => ?_⟩
    exact (hglobals g).trans (hu.projected_database.mem_iff_of_file hs.sound_database file g)
  · rintro rfl
    cases h
    exact ⟨fun hr => hne (List.perm_nil.mp (hanswer.of_readable hr ▸ (List.mergeSort_perm _ _).symm)), rfl, rfl⟩

/-- Rows that are read in the order of their lines are stored under their own ids again, with their untidy list
of bases as it was read. -/
theorem storing_read_tags_two_lines :
    let tag (file name scope : String) (line : Int) (inherits : List String) : Tag :=
      { name, file, line, kind := "class", path := name, scope, inherits }
    let batch := [tag "a.h" "C" globalScope 7 [" B ", "", "D,E"], tag "b.h" "B" globalScope 1 [],
      tag "a.h" "C::F" "C" 2 []]
    let s := Step.act (Step.act (Step.act {} (.setSearchLimit 2)) (.openPath "tags.db"))
      (.storeTags batch 0 true)
    let asked := ((tagsByFile "a.h").run s).2
    let rows := ((tagsByFile "a.h").run s).1
    let t := (asked.storeTags (rows.map (·.tag)) 1 true).2
    rows.map (fun r => (r.id, r.tag.inherits)) = [(3, []), (1, ["B", "D", "E"])] ∧
    (asked.storeTags (rows.map (·.tag)) 1 true).1 = .ok ⟨1, 2, 2, 0⟩ ∧
    t.database.tags = s.database.tags ∧
    (∀ g, g ∈ t.database.globals ↔ g ∈ s.database.globals) := by
  intro tag batch s asked rows t
  have hu : s.Unscathed :=
    .next (.storeTags batch 0 true) (.next (.openPath "tags.db") (.next (.setSearchLimit 2)
      (.new ⟨rfl, rfl, rfl⟩ fun _ => .refl _) trivial id) trivial id) trivial id
  have hf : s.Fresh := .empty (by decide +kernel)
  have hlimit : s.options.searchLimit = 2 := by decide +kernel
  have hmax : s.options.searchLimit ≤ maxLimit := by rw [hlimit]; decide
  let c := tag "a.h" "C" globalScope 7 ["B", "D", "E"]
  let f := tag "a.h" "C::F" "C" 2 []
  have hfile : s.database.rowsOf "a.h" = [⟨1, c⟩, ⟨3, f⟩] := by decide +kernel
  have hl : (s.database.rowsOf "a.h").length ≤ s.options.searchLimit := by rw [hlimit, hfile]; decide
  have hsorted : [⟨1, c⟩, ⟨3, f⟩].mergeSort (Sorting.ascending .line).le = [⟨3, f⟩, ⟨1, c⟩] := by
    simp [List.mergeSort, List.merge, Sorting.le, Sorting.ascending, Sorting.compareColumn, c, f, tag]
    rfl
  have hrows : rows = [⟨3, f⟩, ⟨1, c⟩] := by
    rw [show rows = _ from (tagsByFile_answered hu.reachable hf hmax hl).of_readable (by decide +kernel), hfile,
      hsorted]
  have hok : (asked.storeTags (rows.map (·.tag)) 1 true).1 = .ok ⟨1, 2, 2, 0⟩ := by
    rw [hrows]
    decide +kernel
  have hne : s.database.rowsOf "a.h" ≠ [] := by rw [hfile]; exact List.cons_ne_nil _ _
  have hread : rows ≠ [] := by rw [hrows]; exact List.cons_ne_nil _ _
  obtain ⟨htags, _, _, hglobals⟩ := (storing_read_tags hu.reachable hf hmax hne hl hok).1 hread
  exact ⟨by rw [hrows]; rfl, hok, htags, hglobals hu⟩

/-- A file that another process holds is read as if it had no rows, and storing none of them tells so. A clear
that fails part-way leaves rows out of the projection, and storing them tells them again. -/
theorem storing_read_tags_changes :
    let x : Tag := { name := "x", file := "f.c", kind := "function", path := "x", scope := globalScope }
    let stored := Step.act (Step.act {} (.openPath "tags.db")) (.storeTags [x] 0 true)
    let s := Step.act stored (.outside (stored.disk.lock "tags.db"))
    let rows := ((tagsByFile "f.c").run s).1
    let again := (((tagsByFile "f.c").run s).2.storeTags (rows.map (·.tag)) 1 true).1
    let failing : Disk := { stored.disk with trouble := fun n => if n = stored.disk.statements + 1 then some .diskError else none }
    let s' := Step.act (Step.act stored (.outside failing)) .clear
    let rows' := ((tagsByFile "f.c").run s').1
    let t' := (((tagsByFile "f.c").run s').2.storeTags (rows'.map (·.tag)) 1 true).2
    (s.Reachable ∧ s.Idle ∧ s.options.searchLimit = 250 ∧ s.database.rowsOf "f.c" = [⟨1, x⟩] ∧
      rows = [] ∧ again = .ok {}) ∧
    s'.Reachable ∧ s'.Idle ∧ s'.options.searchLimit = 250 ∧ s'.database.rowsOf "f.c" = [⟨1, x⟩] ∧
      rows' = [⟨1, x⟩] ∧ s'.database.globals = [] ∧ t'.database.globals = [⟨"x", 1⟩] := by
  intro x stored s rows again failing s' rows' t'
  have hstored : stored.Reachable :=
    .next (.storeTags [x] 0 true) (.next (.openPath "tags.db") (.new ⟨rfl, rfl, rfl⟩ fun _ => .refl _)
      trivial trivial) trivial trivial
  have hs : s.Reachable :=
    .next (.outside (stored.disk.lock "tags.db")) hstored (Disk.leaves_lock _ _) trivial
  have hleaves : ∀ (d : Disk) trouble, d.Leaves { d with trouble } := fun _ _ _ => .refl _
  have hs' : s'.Reachable :=
    .next .clear (.next (.outside failing) hstored (hleaves _ _) trivial) trivial trivial
  have hfile : s'.database.rowsOf "f.c" = [⟨1, x⟩] := by decide +kernel
  have hlimit : s'.options.searchLimit = 250 := by decide +kernel
  have hanswer := tagsByFile_answered hs' (.empty (by decide +kernel)) (by rw [hlimit]; decide)
    (by rw [hlimit, hfile]; decide)
  have hrows : rows' = [⟨1, x⟩] := by
    rw [show rows' = _ from hanswer.of_readable (by decide +kernel), hfile, List.mergeSort_singleton]
  refine ⟨⟨hs, idle_of_all (by decide +kernel), by decide +kernel, by decide +kernel, by decide +kernel,
    by decide +kernel⟩, hs', idle_of_all (by decide +kernel), hlimit, hfile, hrows, by decide +kernel, ?_⟩
  simp only [t', hrows]
  decide +kernel

end Store
end TagIndex
