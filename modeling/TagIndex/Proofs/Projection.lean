import TagIndex.Proofs.Replacement

/-!
# The projection of the global scope

Every row of the global scope has one entry in the projection, under its name and its id, and there are
no other entries.
-/

namespace TagIndex

open Work

variable {db db' : Database} {t : Tag} {reuse : Option Nat}

namespace Database

/-- The projection tells the rows of the global scope, each once. -/
structure Projected (db : Database) : Prop where
  exact : ∀ g, g ∈ db.globals ↔ ∃ r ∈ db.tags, r.tag.isGlobal ∧ g = ⟨r.tag.name, r.id⟩
  once : (db.globals.map (·.tagId)).Nodup

theorem projected_of_no_rows (ht : db.tags = []) (hg : db.globals = []) : db.Projected where
  exact g := by simp [ht, hg]
  once := by simp [hg]

theorem projected_empty : Projected {} := projected_of_no_rows rfl rfl

theorem Projected.congr (h : db.Projected) (ht : db'.tags = db.tags)
    (hg : db'.globals = db.globals) : db'.Projected := by
  obtain ⟨exact, once⟩ := h
  rw [← ht, ← hg] at exact
  exact ⟨exact, hg ▸ once⟩

/-- Some row has the id. -/
def Holds (db : Database) (id : Nat) : Prop := ∃ r ∈ db.tags, r.id = id

/-- Every entry of the projection has the id of a row. -/
def Grounded (db : Database) : Prop := ∀ g ∈ db.globals, db.Holds g.tagId

theorem Projected.grounded (hp : db.Projected) : db.Grounded := by
  intro g hg
  obtain ⟨r, hr, _, rfl⟩ := (hp.exact g).mp hg
  exact ⟨r, hr, rfl⟩

theorem mem_without_globals {g : GlobalName} {file : String} :
    g ∈ (db.without file).globals ↔
      g ∈ db.globals ∧ ∀ r ∈ db.tags, r.tag.file = file → r.id ≠ g.tagId := by
  simp only [without_globals, rowsOf, List.mem_filter, List.all_eq_true, decide_eq_true_eq, and_imp]

theorem Projected.without (hs : db.Sound) (hp : db.Projected) (file : String) :
    (db.without file).Projected where
  exact g := by
    rw [mem_without_globals, hp.exact]
    simp only [without_tags, List.mem_filter, decide_eq_true_eq]
    constructor
    · rintro ⟨⟨r, hr, hg, rfl⟩, hno⟩
      exact ⟨r, ⟨hr, fun hf => hno r hr hf rfl⟩, hg, rfl⟩
    · rintro ⟨r, ⟨hr, hf⟩, hg, rfl⟩
      refine ⟨⟨r, hr, hg, rfl⟩, fun s hm hsf he => hf ?_⟩
      rwa [← hs.eq_of_id hm hr he]
  once := by
    rw [without_globals]
    exact hp.once.sublist (List.filter_sublist.map _)

/-- Of a put tag's id, only the put tag is told. -/
theorem Grounded.put_globals (hg : db.Grounded) (hs : db.Sound)
    (hf : ∀ id, reuse = some id → db.Free id) :
    (db.put t reuse).globals = db.globals.filter (·.tagId ≠ db.putId t reuse) ++
      if t.isGlobal then [⟨t.name, db.putId t reuse⟩] else [] := by
  rw [Database.put_globals]
  cases hk : db.idOf? t.key with
  | some id => rfl
  | none =>
      have hfree := put_free hs hf (idOf?_eq_none.mp hk)
      have hall : db.globals.filter (·.tagId ≠ db.putId t reuse) = db.globals := by
        refine List.filter_eq_self.mpr fun g hm => decide_eq_true fun he => ?_
        obtain ⟨r, hr, hid⟩ := hg g hm
        exact hfree r hr (hid.trans he)
      rw [hall]
      rfl

theorem Grounded.mem_put_globals (hg : db.Grounded) (hs : db.Sound)
    (hf : ∀ id, reuse = some id → db.Free id) {g : GlobalName} :
    g ∈ (db.put t reuse).globals ↔ g ∈ db.globals ∧ g.tagId ≠ db.putId t reuse ∨
      t.isGlobal ∧ g = ⟨t.name, db.putId t reuse⟩ := by
  rw [hg.put_globals hs hf]
  by_cases ht : t.isGlobal <;> simp [ht]

theorem Projected.put (hs : db.Sound) (hp : db.Projected)
    (hf : ∀ id, reuse = some id → db.Free id) : (db.put t reuse).Projected where
  exact g := by
    rw [hp.grounded.mem_put_globals hs hf, hp.exact]
    simp only [mem_put hs]
    constructor
    · rintro (⟨⟨r, hr, hg, rfl⟩, hne⟩ | ⟨hg, rfl⟩)
      · exact ⟨r, .inr ⟨hr, fun hk => hne ((id_eq_putId_iff hs hf hr).mpr hk)⟩, hg, rfl⟩
      · exact ⟨_, .inl rfl, hg, rfl⟩
    · rintro ⟨r, rfl | ⟨hr, hk⟩, hg, rfl⟩
      · exact .inr ⟨hg, rfl⟩
      · exact .inl ⟨⟨r, hr, hg, rfl⟩, fun he => hk ((id_eq_putId_iff hs hf hr).mp he)⟩
  once := by
    rw [hp.grounded.put_globals hs hf]
    split
    · exact nodup_replace hp.once fun _ _ => of_decide_eq_true
    · rw [List.append_nil]
      exact hp.once.sublist (List.filter_sublist.map _)

end Database

namespace Batch

theorem unbroken_projected : Unbroken Database.Projected where
  without _ file hs hp := hp.without hs file
  put _ _ _ hs _ hf hp := hp.put hs hf
  putFileEntry _ _ _ hp := hp.congr rfl rfl

end Batch
end TagIndex
