import Mathlib.Data.Finset.Card
import Mathlib.Data.Finset.Dedup
import TagIndex.Proofs.Composition

/-!
# What a batch reports

The report of a batch accounts for each of its tags and for each row: what the batch's files owned goes, and one row
comes for each key of an accepted tag.
-/

namespace TagIndex

namespace Batch

variable {db d : Database} {tags : List Tag} {held : Nat → Prop}

/-! ## The report -/

theorem report_inserted_add_skipped (tags : List Tag) (db : Database) :
    (report tags db).tagsInserted + (report tags db).tagsSkipped = tags.length := by
  rw [List.length_eq_length_filter_add (l := tags) (·.isAccepted)]
  rfl

theorem length_files (tags : List Tag) : (files tags).length = ((tags.map (·.file)).toFinset.erase "").card := by
  rw [← List.toFinset_card_of_nodup (nodup_files tags)]
  congr 1
  ext file
  simp [mem_files, Names]

/-- No row is without a file, so every file of a batch that owns rows is named by it. -/
theorem report_removed (hs : db.Sound) (tags : List Tag) :
    (report tags db).tagsRemoved = (db.tags.filter fun r => r.tag.file ∈ tags.map (·.file)).length := by
  refine congrArg List.length (List.filter_congr fun r hr => decide_eq_decide.mpr ?_)
  rw [mem_files, Names, List.mem_map]
  exact and_iff_right (Tag.isAccepted_file_ne (hs.accepted r hr))

/-! ## The rows -/

theorem Replaced.filter_others (h : Replaced tags held db d) (hs : db.Sound) (hd : d.Sound) :
    d.tags.filter (·.tag.file ∉ files tags) = db.tags.filter (·.tag.file ∉ files tags) := by
  refine (hd.ascending.filter _).eq_of_mem_iff (hs.ascending.filter _) fun r => ?_
  rw [List.mem_filter, List.mem_filter]
  refine and_congr_left fun hf => ?_
  have hn : ¬ Names tags r.tag.file := by simpa [mem_files] using hf
  have hrows : r ∈ d.rowsOf r.tag.file ↔ r ∈ db.rowsOf r.tag.file := by rw [h.others _ hn]
  simpa [mem_rowsOf] using hrows

/-- The files of a batch own one row for each key of an accepted tag. -/
theorem Replaced.length_named (h : Replaced tags held db d) (hd : d.Sound) :
    (d.tags.filter (·.tag.file ∈ files tags)).length = ((accepted tags).map Tag.key).toFinset.card := by
  have hdistinct : ((d.tags.filter (·.tag.file ∈ files tags)).map (·.tag.key)).Nodup :=
    hd.distinct.sublist (List.filter_sublist.map _)
  rw [← List.length_map (·.tag.key), ← List.toFinset_card_of_nodup hdistinct]
  congr 1
  ext k
  simp only [List.mem_toFinset, List.mem_map, List.mem_filter, decide_eq_true_eq, accepted, mem_files]
  constructor
  · rintro ⟨r, ⟨hr, hn⟩, rfl⟩
    obtain ⟨t, ht, ha, _, hk⟩ := (h.keys _ hn _).mp ⟨r, mem_rowsOf.mpr ⟨hr, rfl⟩, rfl⟩
    exact ⟨t, ⟨ht, ha⟩, hk⟩
  · rintro ⟨t, ⟨ht, ha⟩, rfl⟩
    have hn : Names tags t.file := ⟨Tag.isAccepted_file_ne ha, t, ht, rfl⟩
    obtain ⟨r, hr, hk⟩ := (h.keys _ hn _).mpr ⟨t, ht, ha, rfl, rfl⟩
    exact ⟨r, ⟨(mem_rowsOf.mp hr).1, Tag.file_eq_of_key_eq hk ▸ hn⟩, hk⟩

theorem Replaced.length_tags (h : Replaced tags held db d) (hs : db.Sound) (hd : d.Sound) :
    d.tags.length + (report tags db).tagsRemoved =
      db.tags.length + ((accepted tags).map Tag.key).toFinset.card := by
  have hsplit (l : List Row) : l.length =
      (l.filter (·.tag.file ∈ files tags)).length + (l.filter (·.tag.file ∉ files tags)).length := by
    rw [List.length_eq_length_filter_add (l := l) (·.tag.file ∈ files tags)]
    simp
  have hbefore := hsplit db.tags
  have hafter := hsplit d.tags
  rw [h.filter_others hs hd, h.length_named hd] at hafter
  show d.tags.length + (db.tags.filter (·.tag.file ∈ files tags)).length = _
  omega

end Batch

/-! ## Storing -/

namespace Store

variable {s : Store} {tags : List Tag} {now : Int} {auto : Bool} {stats : StoreStats}

/-- The report of a batch that is stored: each tag is put or skipped, the rows that its files owned are removed, the
files are those that any of its tags names, and of the rows that come there is one for each key of an accepted tag. -/
theorem report_accounts_for_all (hs : s.Reachable) (h : (s.storeTags tags now auto).1 = .ok stats) :
    let before := s.database.tags
    let after := (s.storeTags tags now auto).2.database.tags
    stats.tagsInserted + stats.tagsSkipped = tags.length ∧
    stats.tagsRemoved = (before.filter fun r => r.tag.file ∈ tags.map (·.file)).length ∧
    stats.filesReplaced = ((tags.map (·.file)).toFinset.erase "").card ∧
    stats.tagsRemoved ≤ before.length ∧
    after.length = before.length - stats.tagsRemoved + ((tags.filter (·.isAccepted)).map Tag.key).toFinset.card := by
  intro before after
  have ht : (s.storeTags tags now auto).2.Reachable := .next (.storeTags tags now auto) hs trivial trivial
  obtain ⟨rfl, _, hreplaced⟩ := storeTags_stored hs h
  have hremoved : (Batch.report tags s.database).tagsRemoved ≤ before.length := List.length_filter_le _ _
  have hrows : after.length + (Batch.report tags s.database).tagsRemoved =
      before.length + ((Batch.accepted tags).map Tag.key).toFinset.card :=
    hreplaced.length_tags hs.sound_database ht.sound_database
  refine ⟨Batch.report_inserted_add_skipped _ _, Batch.report_removed hs.sound_database _, Batch.length_files _,
    hremoved, ?_⟩
  rw [← Nat.sub_add_comm hremoved, ← Batch.accepted, ← hrows, Nat.add_sub_cancel]

/-- Of five tags one is a local variable, which names a file all the same, and one has no file. Two have one key, so
that of the three that are put two stay. -/
theorem report_accounts_for_all_repeated_key :
    let tag (name file kind : String) (line : Int) : Tag := { name, file, kind, line, path := name }
    let s := Step.act (Step.act {} (.openPath "tags.db"))
      (.storeTags [tag "f" "a.c" "function" 1, tag "g" "a.c" "function" 2, tag "h" "b.c" "function" 1] 0 true)
    let batch := [tag "f" "a.c" "function" 5, tag "i" "c.c" "local" 1, tag "f" "a.c" "function" 7,
      tag "j" "" "function" 1, tag "k" "a.c" "function" 9]
    (s.storeTags batch 1 false).1 = .ok ⟨2, 2, 3, 2⟩ ∧ s.database.tags.length = 3 ∧
    ((batch.filter (·.isAccepted)).map Tag.key).toFinset.card = 2 ∧
    (s.storeTags batch 1 false).2.database.tags.length = 3 - 2 + 2 := by
  intro tag s batch
  have hs : s.Reachable := reachable_stored _ _
  have hok : (s.storeTags batch 1 false).1 = .ok ⟨2, 2, 3, 2⟩ := by decide +kernel
  have hbefore : s.database.tags.length = 3 := by decide +kernel
  have hkeys : ((batch.filter (·.isAccepted)).map Tag.key).toFinset.card = 2 := by decide +kernel
  obtain ⟨_, _, _, _, hafter⟩ := report_accounts_for_all hs hok
  exact ⟨hok, hbefore, hkeys, by rw [hafter, hbefore, hkeys]⟩

end Store
end TagIndex
