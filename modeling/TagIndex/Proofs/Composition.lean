import Mathlib.Data.String.Basic
import TagIndex.Proofs.Ids

/-!
# Batches that compose

What a batch does to its files does not meet what another one does to others. So a batch for all of them
does what the two do one after the other, and their order is told by new ids alone.
-/

namespace TagIndex

open Work

/-! ## The rows and their projection -/

namespace Database

variable {db db' d : Database} {t : Tag} {reuse : Option Nat} {file : String} {files files' : List String}

/-- The database without all that batches of tags do not look at. -/
def index (db : Database) : Database where
  tags := db.tags
  globalTable := db.globalTable
  lastTagId := db.lastTagId

theorem index_eq_iff : db.index = db'.index ↔
    db.tags = db'.tags ∧ db.globalTable = db'.globalTable ∧ db.lastTagId = db'.lastTagId := by
  simp only [index, mk.injEq, and_true]
  exact ⟨fun ⟨ht, hl, hg⟩ => ⟨ht, hg, hl⟩, fun ⟨ht, hg, hl⟩ => ⟨ht, hl, hg⟩⟩

theorem index_put (db : Database) (t : Tag) (reuse : Option Nat) :
    (db.put t reuse).index = db.index.put t reuse := by
  have hnote : ∀ (d : Database) id, (d.noteGlobal t id).index = d.index.noteGlobal t id := by
    intro d id
    unfold noteGlobal
    split <;> rfl
  unfold put
  rw [show db.index.idOf? t.key = db.idOf? t.key from rfl]
  split <;> exact hnote _ _

theorem index_foldl_without (db : Database) (files : List String) :
    (files.foldl Database.without db).index = files.foldl Database.without db.index := by
  induction files generalizing db with
  | nil => rfl
  | cons file files ih => exact ih _

theorem index_foldl_putFileEntry (files : List String) (now : Int) (db : Database) :
    (files.foldl (·.putFileEntry · now) db).index = db.index :=
  foldl_frame Database.index (·.putFileEntry · now) (fun _ _ => rfl) files db

theorem foldl_without_globalTable (db : Database) (files : List String) :
    (files.foldl Database.without db).globalTable = db.globalTable.keep fun g =>
      (db.tags.filter (·.tag.file ∈ files)).all (·.id ≠ g.tagId) := by
  induction files generalizing db with
  | nil => simp [Ledger.keep]
  | cons file files ih =>
      have hkept : (db.without file).globalTable =
          db.globalTable.keep fun g => (db.rowsOf file).all (·.id ≠ g.tagId) := rfl
      rw [List.foldl_cons, ih, hkept, Ledger.keep_keep]
      refine congrArg _ (funext fun g => ?_)
      rw [Bool.eq_iff_iff]
      simp only [without_tags, rowsOf, Bool.and_eq_true, List.all_eq_true, List.mem_filter, decide_eq_true_eq,
        List.mem_cons, and_imp]
      constructor
      · rintro ⟨hrest, hfile⟩ r hr (hf | hf)
        · exact hfile r hr hf
        · by_cases he : r.tag.file = file
          · exact hfile r hr he
          · exact hrest r hr he hf
      · exact fun h => ⟨fun r hr _ hf => h r hr (.inr hf), fun r hr hf => h r hr (.inl hf)⟩

theorem index_foldl_without_congr (h : ∀ file, file ∈ files ↔ file ∈ files') (db : Database) :
    (files.foldl Database.without db).index = (files'.foldl Database.without db).index := by
  refine index_eq_iff.mpr ⟨?_, ?_, ?_⟩
  · simp only [Batch.foldl_without_tags, h]
  · simp only [foldl_without_globalTable, h]
  · simp only [Batch.foldl_without_lastTagId]

/-- A row is found by its key among those of its file. -/
theorem idOf?_filter {k : Tag.Key} {p : Row → Bool} (h : ∀ r : Row, r.tag.key = k → p r) :
    ((db.tags.filter p).find? (·.tag.key = k)).map (·.id) = db.idOf? k := by
  rw [idOf?, List.find?_filter]
  refine congrArg (Option.map _) (congrArg (List.find? · _) (funext fun r => ?_))
  simpa only [decide_eq_decide, decide_eq_true_eq] using and_iff_right_of_imp (h r)

theorem idOf?_congr {k : Tag.Key} (h : db'.rowsOf k.file = db.rowsOf k.file) : db'.idOf? k = db.idOf? k := by
  have hfile : ∀ r : Row, r.tag.key = k → decide (r.tag.file = k.file) :=
    fun r hk => decide_eq_true (congrArg Tag.Key.file hk)
  rw [← idOf?_filter hfile, ← idOf?_filter hfile]
  exact congrArg (fun rows => (List.find? _ rows).map _) h

theorem idOf?_foldl_without {k : Tag.Key} (h : k.file ∉ files) :
    (files.foldl Database.without db).idOf? k = db.idOf? k := by
  rw [idOf?, Batch.foldl_without_tags]
  exact idOf?_filter fun r hk => decide_eq_true fun hf => h (hk ▸ hf)

/-- Putting a tag and removing other files can be done in either order. -/
theorem index_foldl_without_put (hs : d.Sound) (ht : t.isAccepted) (hf : t.file ∉ files)
    (hfree : ∀ id, reuse = some id → d.Free id) :
    (files.foldl Database.without (d.put t reuse)).index =
      ((files.foldl Database.without d).put t reuse).index := by
  have hid : (files.foldl Database.without d).idOf? t.key = d.idOf? t.key := idOf?_foldl_without hf
  have hput : (files.foldl Database.without d).putId t reuse = d.putId t reuse := by
    rw [putId, putId, hid, Batch.foldl_without_lastTagId]
  have hremoved : (files.foldl Database.without d).Sound :=
    (Batch.unbroken_true.foldl_without hs trivial files).1
  have hfree' : ∀ id, reuse = some id → (files.foldl Database.without d).Free id := by
    intro id hr r hm
    rw [Batch.foldl_without_tags] at hm
    exact hfree id hr r (List.mem_of_mem_filter hm)
  -- The row that is put is of another file than those that go, and so is one that it replaces.
  have hrows : (d.put t reuse).tags.filter (·.tag.file ∈ files) = d.tags.filter (·.tag.file ∈ files) := by
    refine ((hs.put ht hfree).ascending.filter _).eq_of_mem_iff (hs.ascending.filter _) fun r => ?_
    simp only [List.mem_filter, decide_eq_true_eq, mem_put hs]
    refine and_congr_left fun hr => ⟨?_, fun hm => .inr ⟨hm, fun hk => hf (Tag.file_eq_of_key_eq hk ▸ hr)⟩⟩
    rintro (rfl | ⟨hm, _⟩)
    · exact absurd hr hf
    · exact hm
  refine index_eq_iff.mpr ⟨?tags, ?globalTable, ?counter⟩
  case tags =>
    rw [Batch.foldl_without_tags]
    refine ((hs.put ht hfree).ascending.filter _).eq_of_mem_iff (hremoved.put ht hfree').ascending fun r => ?_
    simp only [mem_put hremoved, hput, Batch.foldl_without_tags, List.mem_filter, mem_put hs,
      decide_eq_true_eq]
    constructor
    · rintro ⟨rfl | ⟨hr, hk⟩, hn⟩
      · exact .inl rfl
      · exact .inr ⟨⟨hr, hn⟩, hk⟩
    · rintro (rfl | ⟨⟨hr, hn⟩, hk⟩)
      · exact ⟨.inl rfl, hf⟩
      · exact ⟨.inr ⟨hr, hk⟩, hn⟩
  case globalTable =>
    have hnew : (d.tags.filter (·.tag.file ∈ files)).all (·.id ≠ d.putId t reuse) := by
      simp only [List.all_eq_true, List.mem_filter, decide_eq_true_eq]
      rintro r ⟨hr, hm⟩
      exact fun he => hf (Tag.file_eq_of_key_eq ((id_eq_putId_iff hs hfree hr).mp he) ▸ hm)
    have hcomm : ∀ l : Ledger GlobalName, (l.keep (·.tagId ≠ d.putId t reuse)).keep
          (fun g => (d.tags.filter (·.tag.file ∈ files)).all (·.id ≠ g.tagId)) =
        (l.keep fun g => (d.tags.filter (·.tag.file ∈ files)).all (·.id ≠ g.tagId)).keep
          (·.tagId ≠ d.putId t reuse) := by
      intro l
      rw [Ledger.keep_keep, Ledger.keep_keep]
      exact congrArg _ (funext fun g => Bool.and_comm _ _)
    rw [foldl_without_globalTable, put_globalTable, put_globalTable, hid, hput, foldl_without_globalTable, hrows]
    have hadd : ∀ l : Ledger GlobalName, (l.add ⟨t.name, d.putId t reuse⟩).keep
          (fun g => (d.tags.filter (·.tag.file ∈ files)).all (·.id ≠ g.tagId)) =
        (l.keep fun g => (d.tags.filter (·.tag.file ∈ files)).all (·.id ≠ g.tagId)).add ⟨t.name, d.putId t reuse⟩ :=
      Ledger.keep_add (a := GlobalName.mk t.name (d.putId t reuse)) hnew
    dsimp only
    -- A put drops an entry if the key had a row, and adds one if the tag is global; both pass the removal.
    split <;> split
    · rw [hadd, hcomm]
    · exact hadd _
    · exact hcomm _
    · rfl
  case counter =>
    rw [Batch.foldl_without_lastTagId, put_lastTagId hs, put_lastTagId hremoved, hput,
      Batch.foldl_without_lastTagId]

end Database

/-! ## Batches for other files -/

namespace Batch

open Database

variable {db d : Database} {tags done rest b₁ b₂ : List Tag} {m : Memory} {fs : List String}

theorem index_putAll (db : Database) (tags : List Tag) (d : Database) :
    (putAll db tags d).index = putAll db tags d.index := by
  induction tags generalizing d with
  | nil => rfl
  | cons t tags ih => exact (ih _).trans (congrArg _ (index_put d t _))

/-- Removing files that a batch does not name can be done before its tags are put. -/
theorem Progress.index_foldl_without (hs : db.Sound) (htags : tags = done ++ rest)
    (h : Progress db tags done m d) (hd : d.Sound) (hfs : ∀ f ∈ fs, ¬ Names tags f) :
    (fs.foldl Database.without (putAll db (accepted rest) d)).index =
      (putAll db (accepted rest) (fs.foldl Database.without d)).index := by
  induction rest generalizing done m d with
  | nil => rfl
  | cons t rest ih =>
      have hnext : tags = (done ++ [t]) ++ rest := by rw [htags, List.append_assoc]; rfl
      by_cases ht : t.isAccepted
      · have hn : Names tags t.file := ⟨Tag.isAccepted_file_ne ht, t, by simp [htags], rfl⟩
        have hfree : ∀ id, m.id? t.key = some id → d.Free id :=
          fun id hid => h.free hs hd (Memory.mem_of_id? hid)
        have hrest := ih hnext (h.put hs hd ht htags) (hd.put ht hfree)
        have ht' : t.file ∉ fs := fun hf => hfs _ hf hn
        have hcons : ∀ d, putAll db (accepted (t :: rest)) d =
            putAll db (accepted rest) (d.put t (db.idOf? t.key)) := by
          intro d
          simp [accepted, ht, putAll]
        rw [hcons, hcons, ← h.put_id? hs ht hn rfl, hrest, index_putAll,
          index_foldl_without_put hd ht ht' hfree, ← index_putAll,
          h.put_id? hs ht hn (idOf?_foldl_without ht')]
      · rw [show accepted (t :: rest) = accepted rest by simp [accepted, ht]]
        exact ih hnext (h.skip hd ht) hd

theorem putAll_append (db : Database) (tags tags' : List Tag) (d : Database) :
    putAll db (tags ++ tags') d = putAll db tags' (putAll db tags d) := List.foldl_append

theorem putAll_congr {db' : Database} (h : ∀ t ∈ tags, db'.idOf? t.key = db.idOf? t.key) (d : Database) :
    putAll db' tags d = putAll db tags d := by
  induction tags generalizing d with
  | nil => rfl
  | cons t tags ih =>
      have hrest := ih (fun u hu => h u (List.mem_cons_of_mem _ hu)) (d.put t (db.idOf? t.key))
      rw [putAll, List.foldl_cons, h t List.mem_cons_self]
      exact hrest

theorem accepted_append (b₁ b₂ : List Tag) : accepted (b₁ ++ b₂) = accepted b₁ ++ accepted b₂ :=
  List.filter_append ..

theorem names_append {file : String} : Names (b₁ ++ b₂) file ↔ Names b₁ file ∨ Names b₂ file := by
  simp only [Names, List.mem_append, or_and_right, exists_or, and_or_left]

theorem mem_files_append {file : String} :
    file ∈ files (b₁ ++ b₂) ↔ file ∈ files b₁ ++ files b₂ := by
  rw [List.mem_append, mem_files, mem_files, mem_files, names_append]

theorem exists_recalls (db : Database) (files : List String) : ∃ m, Recalls m db files :=
  ⟨(db.tags.filter (·.tag.file ∈ files)).map fun r => (r.tag.key, r.id), by simp [Recalls, and_assoc]⟩

theorem index_stored (tags : List Tag) (now : Int) (db : Database) :
    (stored tags now db).index = putAll db (accepted tags) ((files tags).foldl Database.without db).index := by
  rw [stored, index_foldl_putFileEntry, index_putAll]

/-- Two batches for different files do what one batch does for all of them. -/
theorem index_stored_append (hs : db.Sound) (hdis : ∀ file, Names b₁ file → ¬ Names b₂ file)
    {now₁ now₂ : Int} (now : Int) {held : Nat → Prop} (hr : Replaced b₁ held db (stored b₁ now₁ db)) :
    (stored b₂ now₂ (stored b₁ now₁ db)).index = (stored (b₁ ++ b₂) now db).index := by
  let removed := (files b₁).foldl Database.without db
  have hids : ∀ t ∈ accepted b₂, (stored b₁ now₁ db).idOf? t.key = db.idOf? t.key := by
    intro t ht
    obtain ⟨ht, hacc⟩ := List.mem_filter.mp ht
    exact idOf?_congr (hr.others t.file fun hn => hdis _ hn ⟨Tag.isAccepted_file_ne hacc, t, ht, rfl⟩)
  have hfiles : ∀ f ∈ files b₂, ¬ Names b₁ f := fun f hf hn => hdis f hn (mem_files.mp hf)
  obtain ⟨m, hm⟩ := exists_recalls db (files b₁)
  have hsound : removed.Sound := (unbroken_true.foldl_without hs trivial _).1
  have hcommute := (Progress.start hs hm).index_foldl_without hs (List.nil_append b₁).symm hsound hfiles
  calc (stored b₂ now₂ (stored b₁ now₁ db)).index
      = putAll db (accepted b₂) ((files b₂).foldl Database.without (stored b₁ now₁ db)).index := by
        rw [index_stored, putAll_congr hids]
    _ = putAll db (accepted b₂)
          ((files b₂).foldl Database.without (putAll db (accepted b₁) removed)).index := by
        rw [Database.index_foldl_without, index_stored, ← index_putAll, ← Database.index_foldl_without]
    _ = putAll db (accepted (b₁ ++ b₂)) ((files b₂).foldl Database.without removed).index := by
        rw [hcommute, index_putAll, accepted_append, putAll_append]
    _ = (stored (b₁ ++ b₂) now db).index := by
        rw [index_stored, index_foldl_without_congr (fun _ => mem_files_append) db, List.foldl_append]

/-! ## What is reported -/

theorem insertDistinct_ascending {s : String} {l : List String} (h : l.Pairwise (· < ·)) :
    (insertDistinct s l).Pairwise (· < ·) := by
  induction l with
  | nil => exact .cons nofun .nil
  | cons u l ih =>
      obtain ⟨hu, hl⟩ := List.pairwise_cons.mp h
      unfold insertDistinct
      split
      · rename_i hlt
        refine .cons (fun v hv => ?_) h
        rcases List.mem_cons.mp hv with rfl | hv
        · exact hlt
        · exact lt_trans hlt (hu v hv)
      · rename_i hge
        split
        · exact h
        · rename_i hne
          refine .cons (fun v hv => ?_) (ih hl)
          rcases mem_insertDistinct.mp hv with rfl | hv
          · exact lt_of_le_of_ne (not_lt.mp hge) (Ne.symm hne)
          · exact hu v hv

theorem nodup_files (tags : List Tag) : (files tags).Nodup := by
  have hascending : ∀ l : List String, (l.foldr insertDistinct []).Pairwise (· < ·) := by
    intro l
    induction l with
    | nil => exact .nil
    | cons s l ih => exact insertDistinct_ascending ih
  exact (hascending _).imp ne_of_lt

/-- The rows of two groups of files are counted together. -/
theorem length_filter_append {l : List Row} {fs fs' : List String} (h : ∀ f ∈ fs, f ∉ fs') :
    (l.filter (·.tag.file ∈ fs ++ fs')).length =
      (l.filter (·.tag.file ∈ fs)).length + (l.filter (·.tag.file ∈ fs')).length := by
  rw [← List.countP_eq_length_filter, List.countP_eq_countP_filter_add _ _ (·.tag.file ∈ fs),
    List.countP_filter, List.countP_filter, List.countP_eq_length_filter, List.countP_eq_length_filter]
  congr 2 <;> refine List.filter_congr fun r _ => ?_ <;> rw [Bool.eq_iff_iff]
  · simpa using Or.inl
  · simp only [List.mem_append, Bool.and_eq_true, decide_eq_true_eq, Bool.not_eq_true', decide_eq_false_iff_not]
    exact ⟨fun hr => hr.1.resolve_left hr.2, fun hr => ⟨.inr hr, fun hf => h _ hf hr⟩⟩

theorem report_append (hs : db.Sound) (hdis : ∀ file, Names b₁ file → ¬ Names b₂ file)
    {held : Nat → Prop} (hr : Replaced b₁ held db d) (hd : d.Sound) :
    report (b₁ ++ b₂) db = (report b₁ db).add (report b₂ d) := by
  have hfiles : ∀ f ∈ files b₁, f ∉ files b₂ :=
    fun f hf hf' => hdis f (mem_files.mp hf) (mem_files.mp hf')
  have hperm : (files (b₁ ++ b₂)).Perm (files b₁ ++ files b₂) := by
    refine (List.perm_ext_iff_of_nodup (nodup_files _) ?_).mpr fun _ => mem_files_append
    refine List.nodup_append.mpr ⟨nodup_files _, nodup_files _, fun f hf f' hf' => ?_⟩
    rintro rfl
    exact hfiles f hf hf'
  have hrows : d.tags.filter (·.tag.file ∈ files b₂) = db.tags.filter (·.tag.file ∈ files b₂) := by
    refine (hd.ascending.filter _).eq_of_mem_iff (hs.ascending.filter _) fun r => ?_
    simp only [List.mem_filter, decide_eq_true_eq]
    refine and_congr_left fun hf => ?_
    have hsame := hr.others r.tag.file fun hn => hdis _ hn (mem_files.mp hf)
    rw [← and_iff_left (a := r ∈ d.tags) (rfl : r.tag.file = r.tag.file), ← mem_rowsOf, hsame, mem_rowsOf,
      and_iff_left rfl]
  have hremoved : (report (b₁ ++ b₂) db).tagsRemoved =
      (report b₁ db).tagsRemoved + (report b₂ d).tagsRemoved := by
    simp only [report, mem_files_append, hrows]
    exact length_filter_append hfiles
  rw [StoreStats.add, ← hremoved]
  simp only [report, hperm.length_eq, accepted_append, List.length_append, List.filter_append]

/-! ## The other order -/

/-- Every row of the first tables has a counterpart in the second: the same tag, under the same id if its
key is not new. -/
def AlikeButNew (db d d' : Database) : Prop :=
  ∀ r ∈ d.tags, ∃ r' ∈ d'.tags, r'.tag = r.tag ∧ (¬ NewKey db r.tag.key → r'.id = r.id)

variable {db' d' d₁ d₂ d₁₂ d₂₁ : Database} {held held' h₁ h₂ : Nat → Prop} {file : String}

/-- What a batch makes of a file is told by what the file held, up to new ids. -/
theorem Replaced.exists_alike (h : Replaced tags held db d) (h' : Replaced tags held' db' d')
    (hn : Names tags file) (hsame : db'.rowsOf file = db.rowsOf file) {r : Row} (hr : r ∈ d.rowsOf file) :
    ∃ r' ∈ d'.rowsOf file, r'.tag = r.tag ∧ ∀ o ∈ db.rowsOf file, o.tag.key = r.tag.key → r'.id = r.id := by
  obtain ⟨r', hr', hk⟩ := (h'.keys file hn r.tag.key).mpr ((h.keys file hn r.tag.key).mp ⟨r, hr, rfl⟩)
  obtain ⟨t, ht, he⟩ := h.fields file hn r hr
  obtain ⟨t', ht', he'⟩ := h'.fields file hn r' hr'
  rw [hk, ht] at ht'
  cases ht'
  refine ⟨r', hr', he'.trans he.symm, fun o ho hok => ?_⟩
  rw [h.oldIds file hn r hr o ho hok, h'.oldIds file hn r' hr' o (hsame ▸ ho) (hok.trans hk.symm)]

theorem alikeButNew_swapped (hdis : ∀ file, Names b₁ file → ¬ Names b₂ file)
    (h₁ : Replaced b₁ h₁ db d₁) (h₁₂ : Replaced b₂ h₂ d₁ d₁₂) (h₂ : Replaced b₂ held db d₂)
    (h₂₁ : Replaced b₁ held' d₂ d₂₁) : AlikeButNew db d₁₂ d₂₁ := by
  intro r hr
  have hfile : r ∈ d₁₂.rowsOf r.tag.file := mem_rowsOf.mpr ⟨hr, rfl⟩
  suffices h : ∃ r' ∈ d₂₁.rowsOf r.tag.file, r'.tag = r.tag ∧
      ∀ o ∈ db.rowsOf r.tag.file, o.tag.key = r.tag.key → r'.id = r.id by
    obtain ⟨r', hr', ht, hids⟩ := h
    refine ⟨r', (mem_rowsOf.mp hr').1, ht, fun hold => ?_⟩
    simp only [NewKey, not_forall, not_not] at hold
    obtain ⟨o, ho, hk⟩ := hold
    exact hids o (mem_rowsOf.mpr ⟨ho, Tag.file_eq_of_key_eq hk⟩) hk
  by_cases hn₁ : Names b₁ r.tag.file
  · have hn₂ := hdis _ hn₁
    rw [h₁₂.others _ hn₂] at hfile
    exact h₁.exists_alike h₂₁ hn₁ (h₂.others _ hn₂) hfile
  · rw [h₂₁.others _ hn₁]
    have hsame := h₁.others _ hn₁
    by_cases hn₂ : Names b₂ r.tag.file
    · obtain ⟨r', hr', ht, hids⟩ := h₁₂.exists_alike h₂ hn₂ hsame.symm hfile
      exact ⟨r', hr', ht, hsame ▸ hids⟩
    · rw [h₁₂.others _ hn₂, hsame] at hfile
      rw [h₂.others _ hn₂]
      exact ⟨r, hfile, rfl, fun _ _ _ => rfl⟩

theorem AlikeButNew.perm (h : AlikeButNew db d d') (h' : AlikeButNew db d' d) (hd : d.Sound)
    (hd' : d'.Sound) : (d.tags.map (·.tag)).Perm (d'.tags.map (·.tag)) := by
  have hnodup : ∀ {d : Database}, d.Sound → (d.tags.map (·.tag)).Nodup := by
    intro d hd
    have hkeys : (d.tags.map (·.tag)).map Tag.key = d.tags.map (·.tag.key) := by rw [List.map_map]; rfl
    exact .of_map Tag.key (hkeys ▸ hd.distinct)
  have hsub : ∀ {d d' : Database}, AlikeButNew db d d' → ∀ t ∈ d.tags.map (·.tag), t ∈ d'.tags.map (·.tag) := by
    rintro d d' h t ht
    obtain ⟨r, hr, rfl⟩ := List.mem_map.mp ht
    obtain ⟨r', hr', ht, _⟩ := h r hr
    exact ht ▸ List.mem_map_of_mem hr'
  exact (List.perm_ext_iff_of_nodup (hnodup hd) (hnodup hd')).mpr fun t => ⟨hsub h t, hsub h' t⟩

end Batch

/-! ## Storing -/

namespace Store

open Batch Database

variable {s : Store} {b₁ b₂ : List Tag} {now₁ now₂ : Int} {auto₁ auto₂ : Bool} {stats₁ stats₂ : StoreStats}

/-- Storing two batches for different files leaves the tags, their counter and their projection as storing
them as one batch does, and reports together what that reports. In the other order the rows are the same up
to the ids of new keys. -/
theorem disjoint_batches_compose (hs : s.Reachable) (hdis : ∀ file, Names b₁ file → ¬ Names b₂ file)
    (h₁ : (s.storeTags b₁ now₁ auto₁).1 = .ok stats₁)
    (h₂ : ((s.storeTags b₁ now₁ auto₁).2.storeTags b₂ now₂ auto₂).1 = .ok stats₂) :
    let t := ((s.storeTags b₁ now₁ auto₁).2.storeTags b₂ now₂ auto₂).2.database
    (∀ now auto stats, (s.storeTags (b₁ ++ b₂) now auto).1 = .ok stats →
      let u := (s.storeTags (b₁ ++ b₂) now auto).2.database
      u.tags = t.tags ∧ u.lastTagId = t.lastTagId ∧ u.globals = t.globals ∧ stats = stats₁.add stats₂) ∧
    (∀ now auto now' auto' stats stats', (s.storeTags b₂ now auto).1 = .ok stats →
      ((s.storeTags b₂ now auto).2.storeTags b₁ now' auto').1 = .ok stats' →
      let u := ((s.storeTags b₂ now auto).2.storeTags b₁ now' auto').2.database
      (t.tags.map (·.tag)).Perm (u.tags.map (·.tag)) ∧
        AlikeButNew s.database t u ∧ AlikeButNew s.database u t) := by
  intro t
  have hs₁ : (s.storeTags b₁ now₁ auto₁).2.Reachable := .next (.storeTags b₁ now₁ auto₁) hs trivial trivial
  have hst : Reachable ((s.storeTags b₁ now₁ auto₁).2.storeTags b₂ now₂ auto₂).2 :=
    .next (.storeTags b₂ now₂ auto₂) hs₁ trivial trivial
  obtain ⟨hstats₁, hstored₁, hr₁⟩ := storeTags_stored hs h₁
  obtain ⟨hstats₂, hstored₂, hr₁₂⟩ := storeTags_stored hs₁ h₂
  refine ⟨fun now auto stats h => ?_, fun now auto now' auto' stats stats' h h' => ?_⟩
  · obtain ⟨hstats, hstored, _⟩ := storeTags_stored hs h
    have hindex : (s.storeTags (b₁ ++ b₂) now auto).2.database.index = t.index := by
      rw [hstored, show t = _ from hstored₂, hstored₁]
      exact (index_stored_append hs.sound_database hdis now (hstored₁ ▸ hr₁)).symm
    obtain ⟨htags, hglobals, hcounter⟩ := index_eq_iff.mp hindex
    refine ⟨htags, hcounter, congrArg Ledger.values hglobals, ?_⟩
    rw [hstats, hstats₁, hstats₂]
    exact report_append hs.sound_database hdis hr₁ hs₁.sound_database
  · have hs₂ : (s.storeTags b₂ now auto).2.Reachable := .next (.storeTags b₂ now auto) hs trivial trivial
    have hsu : Reachable ((s.storeTags b₂ now auto).2.storeTags b₁ now' auto').2 :=
      .next (.storeTags b₁ now' auto') hs₂ trivial trivial
    have hr₂ := storeTags_replaced hs h
    have hr₂₁ := storeTags_replaced hs₂ h'
    have htu := alikeButNew_swapped hdis hr₁ hr₁₂ hr₂ hr₂₁
    have hut := alikeButNew_swapped (fun f h h' => hdis f h' h) hr₂ hr₂₁ hr₁ hr₁₂
    exact ⟨htu.perm hut hst.sound_database hsu.sound_database, htu, hut⟩

/-- New keys of the second batch come after those of the first, whichever is stored first; what was there
keeps its id. -/
theorem disjoint_batches_compose_two_files :
    let tag (file path name : String) : Tag :=
      { name, file, path, kind := "function", scope := globalScope }
    let b₁ := [tag "a.c" "p" "renamed", { tag "a.c" "x" "i" with kind := "local" }, tag "a.c" "q" "new"]
    let b₂ := [tag "b.c" "p" "other"]
    let s := Step.act (Step.act {} (.openPath "tags.db")) (.storeTags [tag "a.c" "p" "f"] 0 true)
    let s₁ := (s.storeTags b₁ 1 true).2
    let s₂ := (s.storeTags b₂ 1 true).2
    let t := (s₁.storeTags b₂ 1 true).2.database
    let u := (s₂.storeTags b₁ 1 true).2.database
    t.tags.map (fun r => (r.id, r.tag.name)) = [(1, "renamed"), (2, "new"), (3, "other")] ∧
    u.tags.map (fun r => (r.id, r.tag.name)) = [(1, "renamed"), (2, "other"), (3, "new")] ∧
    (s.storeTags (b₁ ++ b₂) 1 true).2.database.tags = t.tags ∧
    (t.tags.map (·.tag)).Perm (u.tags.map (·.tag)) := by
  intro tag b₁ b₂ s s₁ s₂ t u
  have hs : s.Reachable :=
    .next _ (.next _ (.new ⟨rfl, rfl, rfl⟩ fun _ => .refl _) trivial trivial) trivial trivial
  have hdis : ∀ file, Names b₁ file → ¬ Names b₂ file := by
    intro file h₁ h₂
    rw [← mem_files] at h₁ h₂
    rw [show Batch.files b₁ = ["a.c"] by decide +kernel, List.mem_singleton] at h₁
    rw [show Batch.files b₂ = ["b.c"] by decide +kernel, List.mem_singleton, h₁] at h₂
    exact absurd h₂ (by decide)
  have h₁ : (s.storeTags b₁ 1 true).1 = .ok ⟨1, 1, 2, 1⟩ := by decide +kernel
  have h₁₂ : (s₁.storeTags b₂ 1 true).1 = .ok ⟨1, 0, 1, 0⟩ := by decide +kernel
  have h₂ : (s.storeTags b₂ 1 true).1 = .ok ⟨1, 0, 1, 0⟩ := by decide +kernel
  have h₂₁ : (s₂.storeTags b₁ 1 true).1 = .ok ⟨1, 1, 2, 1⟩ := by decide +kernel
  have h : (s.storeTags (b₁ ++ b₂) 1 true).1 = .ok ⟨2, 1, 3, 1⟩ := by decide +kernel
  obtain ⟨hone, hswapped⟩ := disjoint_batches_compose hs hdis h₁ h₁₂
  exact ⟨by decide +kernel, by decide +kernel, (hone 1 true _ h).1, (hswapped 1 true 1 true _ _ h₂ h₂₁).1⟩

end Store
end TagIndex
