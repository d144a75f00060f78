import TagIndex.Proofs.Composition
import TagIndex.Proofs.Registry

/-!
# Storing a batch again

A batch that is stored a second time finds its keys with their ids and with its own last tags, so it makes
the same rows again. Entries of the projection without a row could outlive a batch, but there are none.
-/

namespace TagIndex

open Work

/-! ## Entries have rows -/

namespace Database

variable {d : Database} {t : Tag} {reuse : Option Nat} {id i : Nat}

theorem Grounded.congr {d' : Database} (h : d.Grounded) (ht : d'.tags = d.tags) (hg : d'.globals = d.globals) :
    d'.Grounded := by
  unfold Grounded Holds at *
  rwa [ht, hg]

theorem Holds.overwriteTag (h : d.Holds i) : (d.overwriteTag id t).Holds i := by
  obtain ⟨r, hr, rfl⟩ := h
  refine ⟨_, List.mem_map_of_mem hr, ?_⟩
  by_cases he : r.id = id <;> simp [he]

/-- Of a key that is put only the put tag is told, and of any other what was told before. -/
theorem Grounded.told_put (hg : d.Grounded) (hd : d.Sound) (hf : ∀ id, reuse = some id → d.Free id)
    {r : Row} (hr : r ∈ (d.put t reuse).tags) (name : String) :
    ⟨name, r.id⟩ ∈ (d.put t reuse).globals ↔
      if r.tag.key = t.key then r.tag.isGlobal ∧ name = r.tag.name else ⟨name, r.id⟩ ∈ d.globals := by
  rw [hg.mem_put_globals hd hf]
  rcases (mem_put hd).mp hr with rfl | ⟨hr, hk⟩
  · have hglobal : t.settled.isGlobal = t.isGlobal := rfl
    have hname : t.settled.name = t.name := rfl
    simp [hglobal, hname]
  · have hid : r.id ≠ d.putId t reuse := fun he => hk ((id_eq_putId_iff hd hf hr).mp he)
    simp [hk, hid]

theorem Grounded.put (hg : d.Grounded) (hd : d.Sound) (hf : ∀ id, reuse = some id → d.Free id) :
    (d.put t reuse).Grounded := by
  intro g hm
  rcases (hg.mem_put_globals hd hf).mp hm with ⟨hm, hne⟩ | ⟨_, rfl⟩
  · obtain ⟨r, hr, he⟩ := hg g hm
    refine ⟨r, (mem_put hd).mpr (.inr ⟨hr, fun hk => hne ?_⟩), he⟩
    rw [← he, (id_eq_putId_iff hd hf hr).mpr hk]
  · exact ⟨_, (mem_put hd).mpr (.inl rfl), rfl⟩

end Database

namespace Batch

open Database

/-- Between the first two statements the rows of the file are still there, but no entry is of them. -/
theorem keeps_grounded_removeFile (file : String) : Keeps Grounded (removeFile file) := by
  refine Meets.bind (Q := fun _ db => db.Grounded ∧ ∀ g ∈ db.globals, ∀ r ∈ db.rowsOf file, r.id ≠ g.tagId)
    (.change (fun db h => ?_) fun _ => id) fun _ => ?_
  · have hmem : ∀ g ∈ (db.dropGlobalsOf file).globals, g ∈ db.globals ∧ (db.rowsOf file).all (·.id ≠ g.tagId) := by
      intro g hg
      rwa [globals_dropGlobalsOf, List.mem_filter] at hg
    refine ⟨fun g hg => h g (hmem g hg).1, fun g hg r hr => ?_⟩
    have hall := (hmem g hg).2
    simpa using List.all_eq_true.mp hall r hr
  refine Meets.bind (Q := fun _ db => db.Grounded) (.statement ?_ fun _ => And.left) fun _ =>
    Keeps.bind (.change fun _ => id) fun _ => .pure
  · rintro db n _ ⟨h, hno⟩ ⟨⟩ g hg
    obtain ⟨r, hr, he⟩ := h g hg
    have hf : r.tag.file ≠ file := fun hf => hno g hg r (mem_rowsOf.mpr ⟨hr, hf⟩) he
    exact ⟨r, List.mem_filter.mpr ⟨hr, decide_eq_true hf⟩, he⟩

theorem keeps_grounded_removeFiles (files : List String) : Keeps Grounded (removeFiles files) := by
  induction files with
  | nil => exact .pure
  | cons file files ih =>
      exact Keeps.bind .ask fun _ => Keeps.bind (keeps_grounded_removeFile file) fun _ =>
        Keeps.bind ih fun _ => .pure

theorem keeps_grounded_putTag (t : Tag) (reuse : Option Nat) : Keeps Grounded (putTag t reuse) := by
  have hnote : ∀ id, Meets (fun db => db.Holds id ∧ db.Grounded)
      (if t.isGlobal then Work.change (·.addGlobal t.name id) else pure ()) (fun _ => Grounded) Grounded := by
    intro id
    split
    · refine .change (fun db h g hg => ?_) fun _ => And.right
      rw [globals_addGlobal] at hg
      rcases List.mem_append.mp hg with hg | hg
      · exact h.2 g hg
      · rw [List.mem_singleton.mp hg]
        exact h.1
    · exact .pure fun _ => And.right
  refine Meets.bind (Q := fun found db => (∀ id, found = some id → db.Holds id) ∧ db.Grounded)
    (.ask (fun db h => ⟨fun id hid => ?_, h⟩) fun _ => id) fun found => ?_
  · obtain ⟨r, hr, _, he⟩ := exists_of_idOf? hid
    exact ⟨r, hr, he⟩
  cases found with
  | some id =>
      refine Meets.bind (Q := fun _ db => db.Holds id ∧ db.Grounded)
        (.change (fun db h => ?_) fun _ => And.right) fun _ => ?_
      · exact ⟨(h.1 id rfl).overwriteTag, fun g hg => (h.2 g hg).overwriteTag⟩
      refine Meets.bind (Q := fun _ db => db.Holds id ∧ db.Grounded)
        (.change (fun db h => ?_) fun _ => And.right) fun _ => hnote id
      refine ⟨h.1, fun g hg => h.2 g ?_⟩
      rw [globals_dropGlobal] at hg
      exact List.mem_of_mem_filter hg
  | none =>
      refine Meets.bind (Q := fun id db => db.Holds id ∧ db.Grounded)
        (.statement (fun db id db' h ha => ?_) fun _ => And.right) hnote
      obtain ⟨_, rfl⟩ := addTag_ok ha
      refine ⟨⟨_, Row.mem_insert.mpr (.inl rfl), rfl⟩, fun g hg => ?_⟩
      obtain ⟨r, hr, he⟩ := h.2 g hg
      exact ⟨r, Row.mem_insert.mpr (.inr hr), he⟩

theorem keeps_grounded_putTags (tags : List Tag) (m : Memory) : Keeps Grounded (putTags tags m) := by
  induction tags generalizing m with
  | nil => exact .pure
  | cons t tags ih =>
      unfold putTags
      split
      · exact Keeps.bind (keeps_grounded_putTag t _) fun _ => Keeps.bind (ih _) fun _ => .pure
      · exact Keeps.bind (ih _) fun _ => .pure

theorem keeps_grounded_store (tags : List Tag) (now : Int) : Keeps Grounded (store tags now) :=
  Keeps.bind (keeps_grounded_removeFiles _) fun _ => Keeps.bind (keeps_grounded_putTags _ _) fun _ =>
    Keeps.bind (keeps_putFileEntries (fun _ _ _ => id) now _) fun _ => .pure

theorem keeps_grounded_clear : Keeps Grounded clear := by
  refine Meets.bind (Q := fun _ db => db.globals = []) (.change (fun _ _ => rfl) fun _ => id) fun _ => ?_
  have hempty : ∀ db : Database, db.globals = [] → db.Grounded := fun db h => by simp [Grounded, h]
  refine Meets.imp ?_ (fun _ => id) (fun _ => hempty) hempty
  exact Keeps.bind (.change fun _ => id) fun _ => Keeps.bind (.change fun _ => id) fun _ =>
    Keeps.bind (.change fun _ => id) fun _ => .change fun _ => id

theorem kept_grounded : Kept Grounded where
  aboutTags _ _ ht hg _ h := h.congr ht hg
  store := keeps_grounded_store
  removeFile := keeps_grounded_removeFile
  clear := keeps_grounded_clear

end Batch

theorem Store.Reachable.grounded_database {s : Store} (h : s.Reachable) : s.database.Grounded :=
  PlaceState.All.database (I := Database.Grounded) nofun (h.all_of_kept Batch.kept_grounded nofun)

/-! ## The projection after a batch -/

namespace Batch

open Database

variable {db d d' : Database} {tags done rest : List Tag} {m : Memory} {t : Tag} {reuse : Option Nat}

/-- Entries have rows; a row of a named file is told as it should be, and any other row as before. -/
structure Retold (tags : List Tag) (db d : Database) : Prop where
  grounded : d.Grounded
  named : ∀ r ∈ d.tags, Names tags r.tag.file →
    ∀ name, ⟨name, r.id⟩ ∈ d.globals ↔ r.tag.isGlobal ∧ name = r.tag.name
  others : ∀ r ∈ d.tags, ¬ Names tags r.tag.file →
    ∀ name, ⟨name, r.id⟩ ∈ d.globals ↔ ⟨name, r.id⟩ ∈ db.globals

theorem Retold.start (hs : db.Sound) (hg : db.Grounded) (tags : List Tag) :
    Retold tags db ((files tags).foldl Database.without db) := by
  have hmem : ∀ {r : Row}, r ∈ ((files tags).foldl Database.without db).tags ↔
      r ∈ db.tags ∧ ¬ Names tags r.tag.file := by
    intro r
    rw [foldl_without_tags, List.mem_filter, decide_eq_true_eq, mem_files]
  have hglobals : ∀ {g : GlobalName}, g ∈ ((files tags).foldl Database.without db).globals ↔
      g ∈ db.globals ∧ ∀ r ∈ db.tags, Names tags r.tag.file → r.id ≠ g.tagId := by
    intro g
    rw [globals, foldl_without_globalTable, Ledger.values_keep]
    simp only [globals, List.mem_filter, List.all_eq_true, decide_eq_true_eq, mem_files, and_imp]
  refine ⟨fun g hm => ?_, fun r hr hn => absurd hn (hmem.mp hr).2, fun r hr hn name => ?_⟩
  · obtain ⟨hm, hno⟩ := hglobals.mp hm
    obtain ⟨r, hr, he⟩ := hg g hm
    exact ⟨r, hmem.mpr ⟨hr, fun hn => hno r hr hn he⟩, he⟩
  · refine hglobals.trans (and_iff_left fun o ho hon he => hn ?_)
    rwa [← hs.eq_of_id ho (hmem.mp hr).1 he]

theorem Retold.put (h : Retold tags db d) (hd : d.Sound) (hn : Names tags t.file)
    (hf : ∀ id, reuse = some id → d.Free id) : Retold tags db (d.put t reuse) where
  grounded := h.grounded.put hd hf
  named r hr hrn name := by
    rw [h.grounded.told_put hd hf hr]
    split
    · rfl
    · rename_i hk
      rcases (mem_put hd).mp hr with rfl | ⟨hr, _⟩
      · exact absurd rfl hk
      · exact h.named r hr hrn name
  others r hr hrn name := by
    have hk : r.tag.key ≠ t.key := fun hk => hrn (Tag.file_eq_of_key_eq hk ▸ hn)
    rw [h.grounded.told_put hd hf hr, if_neg hk]
    rcases (mem_put hd).mp hr with rfl | ⟨hr, _⟩
    · exact absurd rfl hk
    · exact h.others r hr hrn name

/-- The loop over the tags keeps it. -/
theorem Progress.retold (h : Progress db tags done m d) (hs : db.Sound) (htags : tags = done ++ rest)
    (hd : d.Sound) (hr : Retold tags db d) : Retold tags db (putAll db (accepted rest) d) := by
  induction rest generalizing done m d with
  | nil => exact hr
  | cons t rest ih =>
      have hnext : tags = (done ++ [t]) ++ rest := by rw [htags, List.append_assoc]; rfl
      by_cases ht : t.isAccepted
      · have hn : Names tags t.file := ⟨Tag.isAccepted_file_ne ht, t, by simp [htags], rfl⟩
        have hfree : ∀ id, m.id? t.key = some id → d.Free id :=
          fun id hid => h.free hs hd (Memory.mem_of_id? hid)
        have hrest := ih (h.put hs hd ht htags) hnext (hd.put ht hfree) (hr.put hd hn hfree)
        rw [h.put_id? hs ht hn rfl] at hrest
        simpa [accepted, ht, putAll] using hrest
      · rw [show accepted (t :: rest) = accepted rest by simp [accepted, ht]]
        exact ih (h.skip hd ht) hnext hd hr

theorem retold_stored (hs : db.Sound) (hg : db.Grounded) (tags : List Tag) (now : Int) :
    Retold tags db (stored tags now db) := by
  obtain ⟨m, hm⟩ := exists_recalls db (files tags)
  have hsound := (unbroken_true.foldl_without hs trivial (files tags)).1
  obtain ⟨grounded, named, others⟩ :=
    (Progress.start hs hm).retold hs (List.nil_append tags).symm hsound (.start hs hg tags)
  obtain ⟨htags, htable, _⟩ := index_eq_iff.mp (index_foldl_putFileEntry (files tags) now
    (putAll db (accepted tags) ((files tags).foldl Database.without db)))
  have hglobals := congrArg Ledger.values htable
  change globals _ = globals _ at hglobals
  rw [← htags, ← hglobals] at named others
  exact ⟨grounded.congr htags hglobals, named, others⟩

/-! ## What the second time finds -/

variable {held held' : Nat → Prop}

theorem Retold.mem_globals (h : Retold tags db d) (h' : Retold tags d d') (ht : d'.tags = d.tags)
    (g : GlobalName) : g ∈ d'.globals ↔ g ∈ d.globals := by
  have hrow : ∀ r ∈ d.tags, ∀ name, ⟨name, r.id⟩ ∈ d'.globals ↔ ⟨name, r.id⟩ ∈ d.globals := by
    intro r hr name
    by_cases hn : Names tags r.tag.file
    · rw [h'.named r (ht ▸ hr) hn, h.named r hr hn]
    · exact h'.others r (ht ▸ hr) hn name
  constructor
  · intro hg
    obtain ⟨r, hr, he⟩ := h'.grounded g hg
    have hback := (hrow r (ht ▸ hr) g.name).mp
    rw [he] at hback
    exact hback hg
  · intro hg
    obtain ⟨r, hr, he⟩ := h.grounded g hg
    have hforth := (hrow r hr g.name).mpr
    rw [he] at hforth
    exact hforth hg

/-- A row that a batch left is left by the batch the next time, too. -/
theorem Replaced.mem_of_mem (h : Replaced tags held db d) (h' : Replaced tags held' d d') {r : Row}
    (hr : r ∈ d.tags) : r ∈ d'.tags := by
  have hrow : r ∈ d.rowsOf r.tag.file := mem_rowsOf.mpr ⟨hr, rfl⟩
  by_cases hn : Names tags r.tag.file
  · obtain ⟨r', hr', hk⟩ := (h'.keys _ hn r.tag.key).mpr ((h.keys _ hn r.tag.key).mp ⟨r, hrow, rfl⟩)
    obtain ⟨t, ht, he⟩ := h.fields _ hn r hrow
    obtain ⟨t', ht', he'⟩ := h'.fields _ hn r' hr'
    rw [hk, ht] at ht'
    cases ht'
    have hid : r' = r := congrArg₂ Row.mk (h'.oldIds _ hn r' hr' r hrow hk.symm) (he'.trans he.symm)
    exact hid ▸ (mem_rowsOf.mp hr').1
  · rw [← h'.others _ hn] at hrow
    exact (mem_rowsOf.mp hrow).1

theorem Replaced.tags_again (h : Replaced tags held db d) (h' : Replaced tags held' d d') (hd : d.Sound)
    (hd' : d'.Sound) : d'.tags = d.tags := by
  refine hd'.ascending.eq_of_mem_iff hd.ascending fun r => ⟨fun hr => ?_, h.mem_of_mem h'⟩
  have hrow : r ∈ d'.rowsOf r.tag.file := mem_rowsOf.mpr ⟨hr, rfl⟩
  by_cases hn : Names tags r.tag.file
  · obtain ⟨o, ho, hk⟩ := (h.keys _ hn r.tag.key).mpr ((h'.keys _ hn r.tag.key).mp ⟨r, hrow, rfl⟩)
    have ho := (mem_rowsOf.mp ho).1
    rwa [← hd'.eq_of_key (h.mem_of_mem h' ho) hr hk]
  · rw [h'.others _ hn] at hrow
    exact (mem_rowsOf.mp hrow).1

theorem putAll_lastTagId_of_known (h : ∀ t ∈ tags, ∃ id, db.idOf? t.key = some id ∧ id ≤ d.lastTagId) :
    (putAll db tags d).lastTagId = d.lastTagId := by
  induction tags generalizing d with
  | nil => rfl
  | cons t tags ih =>
      obtain ⟨id, hid, hle⟩ := h t List.mem_cons_self
      have hput : (d.put t (db.idOf? t.key)).lastTagId = d.lastTagId := by
        unfold Database.put putId
        cases hk : d.idOf? t.key with
        | some o => simp [dropGlobal, overwriteTag]
        | none => simpa [hid] using hle
      exact (ih fun u hu => hput ▸ h u (List.mem_cons_of_mem _ hu)).trans hput

theorem Replaced.lastTagId_again (h : Replaced tags held db d) (hd : d.Sound) (now : Int) :
    (stored tags now d).lastTagId = d.lastTagId := by
  have hindex := index_foldl_putFileEntry (files tags) now
    (putAll d (accepted tags) ((files tags).foldl Database.without d))
  have hcounter := foldl_without_lastTagId d (files tags)
  have hknown : ∀ t ∈ accepted tags, ∃ id, d.idOf? t.key = some id ∧
      id ≤ ((files tags).foldl Database.without d).lastTagId := by
    intro t ht
    obtain ⟨ht, hacc⟩ := List.mem_filter.mp ht
    have hn : Names tags t.file := ⟨Tag.isAccepted_file_ne hacc, t, ht, rfl⟩
    obtain ⟨r, hr, hk⟩ := (h.keys t.file hn t.key).mpr ⟨t, ht, hacc, rfl, rfl⟩
    have hr := (mem_rowsOf.mp hr).1
    exact ⟨r.id, hk ▸ hd.idOf?_key hr, hcounter ▸ hd.bounded r hr⟩
  exact (index_eq_iff.mp hindex).2.2.trans ((putAll_lastTagId_of_known hknown).trans hcounter)

theorem notes_stored (tags : List Tag) (now : Int) (db : Database) (file : String) :
    (stored tags now db).Notes file ↔ Names tags file ∨ db.Notes file := by
  have hremoved : ∀ (files : List String) (db : Database), (files.foldl Database.without db).Notes file ↔
      file ∉ files ∧ db.Notes file := by
    intro files
    induction files with
    | nil => simp
    | cons f files ih =>
        intro db
        rw [List.foldl_cons, ih]
        have hwithout : (db.without f).Notes file ↔ file ≠ f ∧ db.Notes file := by
          simp only [Notes, without, dropFileEntry, List.mem_filter, decide_eq_true_eq]
          constructor
          · rintro ⟨e, ⟨he, hne⟩, rfl⟩
            exact ⟨hne, e, he, rfl⟩
          · rintro ⟨hne, e, he, rfl⟩
            exact ⟨e, ⟨he, hne⟩, rfl⟩
        rw [hwithout, List.mem_cons, not_or, ← and_assoc, and_comm (a := file ∉ files)]
  obtain ⟨rows, lastTagId, globalTable, hput⟩ :=
    putAll_frame db (accepted tags) ((files tags).foldl Database.without db)
  have hsame : (putAll db (accepted tags) ((files tags).foldl Database.without db)).Notes file ↔
      ((files tags).foldl Database.without db).Notes file := by
    rw [hput]
    rfl
  rw [stored, notes_foldl_putFileEntry, hsame, hremoved, mem_files]
  by_cases hn : Names tags file <;> simp [hn]

end Batch

/-! ## Storing -/

namespace Store

open Batch

variable {s : Store} {tags : List Tag} {now now' : Int} {auto auto' : Bool} {stats stats' : StoreStats}

/-- A batch that is stored a second time leaves the rows, their ids and counter, the projection and the files
with an entry as the first time left them, and counts as many tags put and skipped. -/
theorem storing_again (hs : s.Reachable) (h : (s.storeTags tags now auto).1 = .ok stats)
    (h' : ((s.storeTags tags now auto).2.storeTags tags now' auto').1 = .ok stats') :
    let once := (s.storeTags tags now auto).2.database
    let twice := ((s.storeTags tags now auto).2.storeTags tags now' auto').2.database
    twice.tags = once.tags ∧ twice.lastTagId = once.lastTagId ∧
    (∀ g, g ∈ twice.globals ↔ g ∈ once.globals) ∧
    (∀ file, (∃ e ∈ twice.files, e.file = file) ↔ ∃ e ∈ once.files, e.file = file) ∧
    stats'.tagsInserted = stats.tagsInserted ∧ stats'.tagsSkipped = stats.tagsSkipped := by
  intro once twice
  have hs' : (s.storeTags tags now auto).2.Reachable := .next (.storeTags tags now auto) hs trivial trivial
  obtain ⟨hstats, (hstored : once = stored tags now s.database), hreplaced⟩ := storeTags_stored hs h
  obtain ⟨hstats', (hstored' : twice = stored tags now' once), hreplaced'⟩ := storeTags_stored hs' h'
  have honce : once.Sound := hs'.sound_database
  have htwice : twice.Sound :=
    Reachable.sound_database (.next (.storeTags tags now' auto') hs' trivial trivial)
  have htags : twice.tags = once.tags := hreplaced.tags_again hreplaced' honce htwice
  have hretold : Retold tags s.database once :=
    hstored ▸ retold_stored hs.sound_database hs.grounded_database tags now
  have hretold' : Retold tags once twice := hstored' ▸ retold_stored honce hs'.grounded_database tags now'
  refine ⟨htags, ?_, hretold.mem_globals hretold' htags, fun file => ?_, ?_, ?_⟩
  · rw [hstored']
    exact hreplaced.lastTagId_again honce now'
  · show twice.Notes file ↔ once.Notes file
    rw [hstored', notes_stored, hstored, notes_stored, ← or_assoc, or_self]
  · rw [hstats, hstats']
    rfl
  · rw [hstats, hstats']
    rfl

/-- Keys repeat, files interleave and one tag is skipped. The first time gives an old key its id back and the
others new ones; a key that comes twice has its last tag. -/
theorem storing_again_two_files :
    let tag (file path name : String) : Tag :=
      { name, file, path, kind := "function", scope := globalScope }
    let batch := [tag "a.c" "r" "first", tag "b.c" "p" "other", tag "a.c" "p" "old",
      { tag "b.c" "s" "local" with kind := "local" }, { tag "a.c" "r" "last" with scope := "ns" }]
    let s := Step.act (Step.act {} (.openPath "tags.db")) (.storeTags [tag "a.c" "o" "f", tag "a.c" "p" "g"] 0 true)
    let once := (s.storeTags batch 1 true).2
    let twice := (once.storeTags batch 2 true).2
    once.database.tags.map (fun r => (r.id, r.tag.name)) = [(2, "old"), (3, "last"), (4, "other")] ∧
    once.database.globals = [⟨"other", 4⟩, ⟨"old", 2⟩] ∧
    (s.storeTags batch 1 true).1 = .ok ⟨2, 2, 4, 1⟩ ∧ (once.storeTags batch 2 true).1 = .ok ⟨2, 3, 4, 1⟩ ∧
    twice.database.tags = once.database.tags ∧
    ∀ g, g ∈ twice.database.globals ↔ g ∈ once.database.globals := by
  intro tag batch s once twice
  have hs : s.Reachable :=
    .next _ (.next _ (.new ⟨rfl, rfl, rfl⟩ fun _ => .refl _) trivial trivial) trivial trivial
  have h : (s.storeTags batch 1 true).1 = .ok ⟨2, 2, 4, 1⟩ := by decide +kernel
  have h' : (once.storeTags batch 2 true).1 = .ok ⟨2, 3, 4, 1⟩ := by decide +kernel
  obtain ⟨htags, _, hglobals, _⟩ := storing_again hs h h'
  exact ⟨by decide +kernel, by decide +kernel, h, h', htags, hglobals⟩

end Store
end TagIndex
