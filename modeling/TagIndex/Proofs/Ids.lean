import TagIndex.Proofs.Invariants

/-!
# Ids that were ever held

An id was held if a row had it: on the disk, in a transaction that was committed, or in the one that is
still open. What a rollback took back does not count. The counter of a table is never below such an id,
so a new id comes after all of them.
-/

namespace TagIndex

open Work PlaceState

namespace Batch

variable {n : Nat}

theorem stable_counter (n : Nat) : Stable fun db => n ≤ db.lastTagId where
  dropGlobalsOf _ _ := id
  dropTagsOf _ _ := id
  dropFileEntry _ _ := id
  overwriteTag _ _ _ := id
  addTag db t id? id db' h ha := by
    obtain ⟨_, rfl⟩ := Database.addTag_ok ha
    exact Nat.le_trans h (Nat.le_max_left _ _)
  dropGlobal _ _ := id
  addGlobal _ _ _ := id
  putFileEntry _ _ _ := id

theorem aboutTags_counter (n : Nat) : AboutTags fun db => n ≤ db.lastTagId :=
  fun _ _ _ _ hl h => Nat.le_trans h (Nat.le_of_eq hl.symm)

theorem kept_counter (n : Nat) : Kept fun db => n ≤ db.lastTagId where
  aboutTags := aboutTags_counter n
  store tags now := (stable_counter n).store tags now
  removeFile file := (stable_counter n).toLasting.removeFile file
  clear := (aboutTags_counter n).keeps_clear (fun _ => id) fun _ => id

end Batch

namespace Store

variable {s s' : Store} {p : Place} {i : Nat} {c : Connection}

/-! ## What was held -/

/-- In a transaction that is still open a row had the id. -/
inductive HeldInTransaction (p : Place) : Store → Nat → Prop where
  | now {s : Store} {db : Database} {r : Row} (hs : s.Reachable)
    (ht : (s.stateAt p).transaction = .working db) (hr : r ∈ db.tags) : HeldInTransaction p s r.id
  | later {s s' : Store} {i : Nat} {db : Database} (h : HeldInTransaction p s i) (hn : Next s s')
    (ht : (s'.stateAt p).transaction = .working db) : HeldInTransaction p s' i

/-- On the disk a row had the id, at least since a commit. A scratch place that is opened anew has held
nothing. -/
inductive HeldOnDisk (p : Place) : Store → Nat → Prop where
  | now {s : Store} {r : Row} (hs : s.Reachable) (hr : r ∈ (s.disk.tables p).tags) :
    HeldOnDisk p s r.id
  | committed {s s' : Store} {i : Nat} (h : HeldInTransaction p s i) (hc : s.commit = (.ok (), s')) :
    HeldOnDisk p s' i
  | later {s s' : Store} {i : Nat} (h : HeldOnDisk p s i) (hn : Next s s')
    (hp : p = .scratch → ¬ (s'.disk.tables p).IsBlank) : HeldOnDisk p s' i

/-- The tags table of the place ever held the id, and no rollback took it back. -/
def EverHeld (s : Store) (p : Place) (i : Nat) : Prop := HeldOnDisk p s i ∨ HeldInTransaction p s i

/-! ## The counter -/

theorem counter_turn (n : Nat) (hn : Next s s') (p : Place) :
    Turn (fun db db' => n ≤ db.lastTagId → n ≤ db'.lastTagId) p (s.stateAt p) (s'.stateAt p) := by
  obtain ⟨step, ha, rfl⟩ := hn
  exact step.turn ha (Step.respects_of_kept (Batch.kept_counter n) s step) p

theorem counter_sameTables {n : Nat} (db db' : Database) (h : db.SameTables db') :
    n ≤ db.lastTagId → n ≤ db'.lastTagId :=
  (Batch.kept_counter n).aboutTags.sameTables h

theorem counter_all {n : Nat} (hn : Next s s') (h : All (n ≤ ·.lastTagId) (s.stateAt p)) :
    All (n ≤ ·.lastTagId) (s'.stateAt p) ∨ p = .scratch ∧ All Database.IsBlank (s'.stateAt p) :=
  h.turn (fun _ _ => id) counter_sameTables (counter_turn n hn p)

/-- A transaction continues the counter of the disk. -/
theorem Reachable.counter_le (h : s.Reachable) (p : Place) :
    All ((s.disk.tables p).lastTagId ≤ ·.lastTagId) (s.stateAt p) :=
  h.all_of_stored (Batch.kept_counter _) (Nat.le_refl _)

theorem HeldInTransaction.le_counter (h : HeldInTransaction p s i) :
    ∃ db, (s.stateAt p).transaction = .working db ∧ i ≤ db.lastTagId := by
  induction h with
  | now hs ht hr => exact ⟨_, ht, ((hs.sound p).2 _ ht).bounded _ hr⟩
  | @later s s' i db _ hn ht ih =>
      obtain ⟨db', hdb, hi⟩ := ih
      refine ((counter_turn i hn p).working (I := (i ≤ ·.lastTagId)) (fun _ _ => id) counter_sameTables
        hdb hi).resolve_left fun hnone => ?_
      rw [hnone] at ht
      cases ht

theorem exists_connection {db : Database} (h : (s.stateAt p).transaction = .working db) :
    ∃ c, s.connection = some c ∧ c.place = p ∧ c.transaction = .working db := by
  cases hc : s.connection with
  | none =>
      rw [stateAt_of_none hc] at h
      cases h
  | some c =>
      by_cases hp : c.place = p
      · subst hp
        rw [stateAt_self hc] at h
        exact ⟨c, rfl, rfl, h⟩
      · rw [stateAt_of_ne hc hp] at h
        cases h

/-- A commit that succeeds puts what the transaction worked on onto the disk. -/
theorem stateAt_commit {db : Database} (h : (s.stateAt p).transaction = .working db)
    (hc : s.commit = (.ok (), s')) : s'.stateAt p = ⟨db, .none⟩ := by
  obtain ⟨c, hs, rfl, ht⟩ := exists_connection h
  simp only [commit, hs] at hc
  rcases s.commitOn_working ht with ⟨n, he⟩ | ⟨e, n, _, he⟩ | ⟨n, he⟩ <;> rw [he] at hc
  · cases hc
  · cases hc
  · cases hc
    rw [stateAt_written, stateAt_withTransaction hs, if_pos rfl, if_pos rfl]

theorem HeldOnDisk.le_counter (h : HeldOnDisk p s i) : All (i ≤ ·.lastTagId) (s.stateAt p) := by
  induction h with
  | @now s r hs hr =>
      have hb : r.id ≤ (s.disk.tables p).lastTagId := (hs.sound_tables p).bounded r hr
      have hc := hs.counter_le p
      exact ⟨hb, fun db hdb => Nat.le_trans hb (hc.2 db hdb)⟩
  | committed h hc =>
      obtain ⟨db, hdb, hi⟩ := h.le_counter
      rw [stateAt_commit hdb hc]
      exact ⟨hi, nofun⟩
  | later _ hn hp ih =>
      exact (counter_all hn ih).resolve_right fun ⟨hps, hb⟩ => hp hps hb.1

/-- No id that was ever held lies above the counter that the session sees. -/
theorem EverHeld.le_counter (hc : s.connection = some c) (h : s.EverHeld c.place i) :
    i ≤ s.database.lastTagId := by
  rw [← seen_stateAt hc]
  rcases h with h | h
  · exact h.le_counter.seen
  · obtain ⟨db, hdb, hi⟩ := h.le_counter
    simpa only [PlaceState.seen, hdb] using hi

/-! ## Storing tags -/

theorem storeTags_ok {tags : List Tag} {now : Int} {auto : Bool} {stats : StoreStats}
    (hne : tags.isEmpty = false) (h : (s.storeTags tags now auto).1 = .ok stats) :
    (s.mutate auto (Batch.store tags now)).1 = .ok stats ∧
      (s.storeTags tags now auto).2 = (s.mutate auto (Batch.store tags now)).2.clearCache := by
  unfold storeTags at h ⊢
  simp only [hne, Bool.false_eq_true, if_false] at h ⊢
  split at h
  · rename_i hr
    rw [hr] at h
    cases h
  · exact ⟨h, rfl⟩

/-- What a batch that is stored reports, and what it makes of the tables. -/
theorem storeTags_stored (hs : s.Reachable) {tags : List Tag} {now : Int} {auto : Bool} {stats : StoreStats}
    (h : (s.storeTags tags now auto).1 = .ok stats) :
    stats = Batch.report tags s.database ∧
      (s.storeTags tags now auto).2.database = Batch.stored tags now s.database ∧
      Batch.Replaced tags (· ≤ s.database.lastTagId) s.database (s.storeTags tags now auto).2.database := by
  cases hne : tags.isEmpty with
  | true =>
      obtain rfl := List.isEmpty_iff.mp hne
      cases h
      refine ⟨?_, rfl, Batch.replaced_nil _ _⟩
      simp [Batch.report, Batch.files, Batch.accepted]
  | false =>
      obtain ⟨hok, hst⟩ := storeTags_ok hne h
      rw [hst]
      obtain ⟨⟨hstats, hstored⟩, hreplaced, _⟩ := mutate_meets (Batch.orderly_store tags now)
        (Batch.store_exact Batch.unbroken_true hs.sound_database trivial now) rfl hok
      exact ⟨hstats, hstored, hreplaced⟩

theorem storeTags_replaced (hs : s.Reachable) {tags : List Tag} {now : Int} {auto : Bool}
    {stats : StoreStats} (h : (s.storeTags tags now auto).1 = .ok stats) :
    Batch.Replaced tags (· ≤ s.database.lastTagId) s.database (s.storeTags tags now auto).2.database :=
  (storeTags_stored hs h).2.2

/-- A batch that is stored replaces what its files held, in whatever state the open store was. -/
theorem storeTags_replaces (hs : s.Reachable) (hc : s.connection = some c) {tags : List Tag}
    {now : Int} {auto : Bool} {stats : StoreStats} (h : (s.storeTags tags now auto).1 = .ok stats) :
    Batch.Replaced tags (s.EverHeld c.place) s.database (s.storeTags tags now auto).2.database := by
  cases hne : tags.isEmpty with
  | true =>
      obtain rfl := List.isEmpty_iff.mp hne
      exact Batch.replaced_nil _ _
  | false =>
      obtain ⟨hok, hst⟩ := storeTags_ok hne h
      obtain ⟨c', hc', hres, hd, _⟩ := mutate_ok (Batch.orderly_store tags now) hok
      obtain rfl : c = c' := Option.some.inj (hc.symm.trans hc')
      have hsound : s.database.Sound := by
        rw [← seen_stateAt hc]
        exact (hs.sound c.place).seen
      have hmeets := (Batch.store_meets Batch.unbroken_true hsound trivial now).ok
        (database_eq hc).symm hres
      rw [hst]
      show Batch.Replaced tags _ _ (s.mutate auto (Batch.store tags now)).2.database
      rw [hd]
      exact hmeets.1.imp fun i hi => hi.le_counter hc

/-- Files interleave, keys repeat, one tag is skipped, one row keeps its id and one goes. -/
theorem storeTags_replaces_two_files :
    let tag (file path name : String) : Tag :=
      { name, file, path, kind := "function", scope := globalScope }
    let first := [tag "a.c" "p" "f", tag "a.c" "q" "g", tag "c.c" "p" "h"]
    let second := [tag "a.c" "r" "new", tag "b.c" "p" "other", tag "a.c" "p" "old",
      { tag "b.c" "s" "local" with kind := "local" }, tag "a.c" "r" "last"]
    let opened := Step.act {} (.openPath "a.db")
    let s := Step.act opened (.storeTags first 0 true)
    let s' := (s.storeTags second 0 false).2
    s'.database.tags.map (fun r => (r.id, r.tag.file, r.tag.name)) =
        [(1, "a.c", "old"), (3, "c.c", "h"), (4, "a.c", "last"), (5, "b.c", "other")] ∧
      ∃ c, s.connection = some c ∧
        Batch.Replaced second (s.EverHeld c.place) s.database s'.database := by
  intro tag first second opened s s'
  have h₀ : Reachable {} := .new ⟨rfl, rfl, rfl⟩ fun _ => .refl _
  have h₁ : Reachable opened := .next (.openPath "a.db") h₀ trivial trivial
  have h₂ : s.Reachable := .next (.storeTags first 0 true) h₁ trivial trivial
  have hopen : s.connection.isSome := by decide +kernel
  obtain ⟨c, hc⟩ := Option.isSome_iff_exists.mp hopen
  have hok : (s.storeTags second 0 false).1 = .ok ⟨2, 2, 4, 1⟩ := by decide +kernel
  exact ⟨by decide +kernel, c, hc, storeTags_replaces h₂ hc hok⟩

end Store
end TagIndex
