import TagIndex.Proofs.Runs

/-!
# What becomes of kept answers

A step other than a question keeps all answers or none. A session keeps answers only while it is open and uses its
cache, and no answer with a row of an anonymous scope is ever kept.
-/

namespace TagIndex

open Lookup Relation

/-! ## Rows that are kept -/

namespace Cache

variable {c c' c'' : Cache}

/-- All kept answers stay, or none. -/
def Remains (c c' : Cache) : Prop := c' = c ∨ c'.entries = []

theorem Remains.refl (c : Cache) : c.Remains c := .inl rfl

theorem Remains.trans (h : c.Remains c') (h' : c'.Remains c'') : c.Remains c'' := by
  rcases h' with rfl | h'
  · exact h
  · exact .inr h'

/-- No kept answer has a row of an anonymous scope. -/
def IsNamed (c : Cache) : Prop := ∀ e ∈ c.entries, ∀ r ∈ e.2, r.tag.isAnonymousScope = false

theorem isNamed_of_empty (h : c.entries = []) : c.IsNamed := by simp [IsNamed, h]

theorem IsNamed.remains (h : c.IsNamed) (hr : c.Remains c') : c'.IsNamed := by
  rcases hr with rfl | he
  · exact h
  · exact isNamed_of_empty he

theorem IsNamed.keep (h : c.IsNamed) (key : String) (rows : List Row) : (c.keep key rows).IsNamed := by
  intro e he
  simp only [Cache.keep] at he
  split at he
  · exact h e (List.mem_of_mem_filter he)
  · rename_i hnone
    rcases List.mem_cons.mp he with rfl | he
    · simpa using hnone
    · exact h e (List.mem_of_mem_filter he)

end Cache

namespace Store

variable {α : Type} {s s' t : Store} {c : Connection} {db : Database} {w : Work α} {auto : Bool}

/-! ## Steps but questions -/

theorem connect_same {path : String} (h : s.connect path = .ok s') :
    s'.cache = s.cache ∧ s'.options = s.options := by
  unfold connect at h
  split at h <;> cases h
  exact ⟨rfl, rfl⟩

theorem reopen_remains (s : Store) :
    s.cache.Remains s.reopen.2.cache ∧ s.reopen.2.options = s.options := by
  unfold reopen
  split
  · exact ⟨.refl _, rfl⟩
  · dsimp only
    split
    · rename_i h
      exact ⟨.inr (by rw [(connect_same h).1]), (connect_same h).2⟩
    · exact ⟨.inr rfl, rfl⟩

/-- When its file is opened again, a session forgets all that it kept. -/
theorem reopen_empty {path : String} (hp : s.path = some path) : s.reopen.2.cache.entries = [] := by
  unfold reopen
  simp only [hp]
  split
  · rename_i h
    rw [(connect_same h).1]
  · rfl

theorem heal_remains (s : Store) (f : Fault) :
    s.cache.Remains (s.heal f).cache ∧ (s.heal f).options = s.options := by
  unfold heal
  split
  · exact s.reopen_remains
  · exact ⟨.refl _, rfl⟩

theorem openPath_remains (s : Store) (path : String) : s.cache.Remains (s.openPath path).2.cache := by
  unfold openPath
  split
  · exact .refl _
  · dsimp only
    have hclosed : s.cache.Remains (if s.isOpen then s.close else s).cache := by
      split
      · exact .inr rfl
      · exact .refl _
    -- Of the session before, only what it keeps matters to the connections that follow.
    generalize (if s.isOpen then s.close else s) = t at *
    split
    · rename_i h
      rwa [(connect_same h).1]
    · split
      · rename_i p _
        cases hp : t.connect p with
        | ok u => exact (connect_same hp).1 ▸ hclosed
        | error e => exact hclosed
      · exact hclosed

theorem commit_cache (s : Store) : s.commit.2.cache = s.cache := by
  unfold commit
  split
  · rfl
  · rename_i c hc
    cases ht : c.transaction with
    | none => simp only [commitOn, ht]
    | begun => simp only [commitOn, ht]
    | working db =>
        rcases s.commitOn_working ht with ⟨n, h⟩ | ⟨e, n, _, h⟩ | ⟨n, h⟩ <;> simp only [h] <;> rfl

theorem mutate_cache (s : Store) (auto : Bool) (hw : w.Orderly) : (s.mutate auto w).2.cache = s.cache := by
  cases hc : s.connection with
  | none => simp only [mutate, hc]
  | some c =>
      obtain ⟨_, hm⟩ := mutate_moves hc auto hw
      exact hm.cache

theorem storeTags_remains (s : Store) (tags : List Tag) (now : Int) (auto : Bool) :
    s.cache.Remains (s.storeTags tags now auto).2.cache := by
  unfold storeTags
  split
  · exact .refl _
  · have hcleared : s.cache.Remains (s.mutate auto (Batch.store tags now)).2.clearCache.cache := .inr rfl
    dsimp only
    split
    · exact hcleared.trans (reopen_remains _).1
    · exact hcleared

/-- A batch of any tags forgets the kept answers. -/
theorem storeTags_empty {tags : List Tag} (hne : tags ≠ []) (now : Int) (auto : Bool) :
    (s.storeTags tags now auto).2.cache.entries = [] := by
  unfold storeTags
  rw [if_neg (by simpa using hne)]
  dsimp only
  split
  · exact (reopen_remains (s.mutate auto (Batch.store tags now)).2.clearCache).1.elim (fun h => by rw [h]; rfl) id
  · rfl

theorem askDatabase_remains (s : Store) (f : Database → Except Fault α) :
    s.cache.Remains ((askDatabase f).run s).2.cache ∧ ((askDatabase f).run s).2.options = s.options := by
  rcases s.askDatabase_cases f with ⟨a, c, _, _, _, _, hm⟩ | ⟨_, hs | ⟨c, t, e, _, hm, hs⟩⟩
  · exact ⟨.inl hm.cache, hm.options⟩
  · rw [hs]
    exact ⟨.refl _, rfl⟩
  · rw [hs, ← hm.cache, ← hm.options]
    exact t.heal_remains e

end Store

/-- Only questions add to the kept answers. -/
theorem Step.act_remains (s : Store) {step : Step} (h : ∀ question, step ≠ ask question) :
    s.cache.Remains (step.act s).cache := by
  cases step with
  | openPath path => exact s.openPath_remains path
  | close => exact .inr rfl
  | reopen => exact s.reopen_remains.1
  | setBusyTimeout ms => exact .refl _
  | setSearchLimit limit => exact .refl _
  | setCaseSensitive on => exact .refl _
  | setUseCache on =>
      cases on with
      | true => exact .refl _
      | false => exact .inr rfl
  | clearCache => exact .inr rfl
  | begin =>
      show s.cache.Remains s.begin.2.cache
      unfold Store.begin
      split
      · exact .refl _
      · split <;> exact .refl _
  | commit => exact .inl s.commit_cache
  | rollback =>
      show s.cache.Remains s.rollback.2.cache
      unfold Store.rollback
      split
      · exact .refl _
      · split <;> exact .inr rfl
  | storeTags tags now auto => exact s.storeTags_remains tags now auto
  | deleteByFile file auto => exact .inr rfl
  | clear => exact .inr rfl
  | insertFileEntry file time => exact .inl (s.mutate_cache false .change)
  | updateFileEntry file time => exact .inl (s.mutate_cache false .change)
  | deleteFileEntry file => exact .inl (s.mutate_cache false .change)
  | storeMacros macros => exact .inl (s.mutate_cache true (Batch.orderly_storeMacros macros))
  | storeSimpleMacros file names =>
      exact .inl (s.mutate_cache true (Batch.orderly_storeSimpleMacros file names))
  | ask question => exact absurd rfl (h question)
  | outside disk => exact .refl _
  | restart options => exact .inr rfl

/-- Where nothing is kept, only questions change that. -/
theorem Step.act_empty {s : Store} {step : Step} (he : s.cache.entries = []) (h : ∀ question, step ≠ ask question) :
    (step.act s).cache.entries = [] :=
  (act_remains s h).elim (fun hsame => by rw [hsame, he]) id

namespace Store

variable {α : Type} {s t : Store} {c : Connection} {db : Database}

/-! ## Sessions that use their cache -/

/-- The session is open, and its cache is switched on. -/
def UsesCache (s : Store) : Prop := s.isOpen ∧ s.options.useCache

/-- The session keeps answers only while it uses its cache, and none with a row of an anonymous scope. -/
structure KeepsInUse (s : Store) : Prop where
  used : s.cache.entries = [] ∨ s.UsesCache
  named : s.cache.IsNamed

theorem keepsInUse_of_empty (h : s.cache.entries = []) : s.KeepsInUse := ⟨.inl h, Cache.isNamed_of_empty h⟩

theorem UsesCache.moves (hs : s.UsesCache) (hc : s.connection = some c) (hm : Moves s c db t) : t.UsesCache :=
  ⟨hm.isOpen hc, hm.options ▸ hs.2⟩

theorem UsesCache.withTransaction (hs : s.UsesCache) (c : Connection) (transaction : Transaction) :
    (s.withTransaction c transaction).UsesCache := ⟨rfl, hs.2⟩

theorem UsesCache.mutate (hs : s.UsesCache) {w : Work α} (hw : w.Orderly) (auto : Bool) :
    (s.mutate auto w).2.UsesCache := by
  obtain ⟨c, hc⟩ := Option.isSome_iff_exists.mp hs.1
  obtain ⟨_, hm⟩ := mutate_moves hc auto hw
  exact hs.moves hc hm

theorem UsesCache.openPath (hs : s.UsesCache) (path : String) :
    (s.openPath path).2.cache.entries = [] ∨ (s.openPath path).2.UsesCache := by
  unfold Store.openPath
  split
  · exact .inr hs
  · left
    rw [if_pos hs.1]
    dsimp only
    split
    · rename_i t ht
      rw [(connect_same ht).1]
      rfl
    · split
      · rename_i p _
        cases hp : s.close.connect p with
        | ok t =>
            show t.cache.entries = []
            rw [(connect_same hp).1]
            rfl
        | error e => rfl
      · rfl

theorem UsesCache.reopen (hs : s.UsesCache) : s.reopen.2.cache.entries = [] ∨ s.reopen.2.UsesCache := by
  cases hp : s.path with
  | none =>
      right
      have hsame : s.reopen.2 = s := by simp only [Store.reopen, hp]
      rwa [hsame]
  | some path => exact .inl (reopen_empty hp)

theorem UsesCache.commit (hs : s.UsesCache) : s.commit.2.UsesCache := by
  obtain ⟨c, hc⟩ := Option.isSome_iff_exists.mp hs.1
  simp only [Store.commit, hc]
  cases ht : c.transaction with
  | none =>
      simp only [commitOn, ht]
      exact hs
  | begun =>
      simp only [commitOn, ht]
      exact hs.withTransaction c .none
  | working db =>
      rcases s.commitOn_working ht with ⟨n, h⟩ | ⟨e, n, _, h⟩ | ⟨n, h⟩ <;> simp only [h]
      · exact hs
      · exact hs.withTransaction c .none
      · exact hs.withTransaction c .none

theorem UsesCache.storeTags (hs : s.UsesCache) (tags : List Tag) (now : Int) (auto : Bool) :
    (s.storeTags tags now auto).2.cache.entries = [] ∨ (s.storeTags tags now auto).2.UsesCache := by
  unfold Store.storeTags
  split
  · exact .inr hs
  · left
    dsimp only
    split
    · rcases (reopen_remains (s.mutate auto (Batch.store tags now)).2.clearCache).1 with hsame | he
      · rw [hsame]
        rfl
      · exact he
    · rfl

/-- All steps but questions forget the kept answers or go on using the cache. -/
theorem UsesCache.act (hs : s.UsesCache) {step : Step} (h : ∀ question, step ≠ .ask question) :
    (step.act s).cache.entries = [] ∨ (step.act s).UsesCache := by
  cases step with
  | openPath path => exact hs.openPath path
  | close => exact .inl rfl
  | reopen => exact hs.reopen
  | setBusyTimeout ms => exact .inr hs
  | setSearchLimit limit => exact .inr hs
  | setCaseSensitive on => exact .inr hs
  | setUseCache on =>
      cases on with
      | true => exact .inr ⟨hs.1, rfl⟩
      | false => exact .inl rfl
  | clearCache => exact .inl rfl
  | begin =>
      obtain ⟨c, hc⟩ := Option.isSome_iff_exists.mp hs.1
      right
      show s.begin.2.UsesCache
      simp only [Store.begin, hc]
      split
      · exact hs.withTransaction c .begun
      · exact hs
  | commit => exact .inr hs.commit
  | rollback =>
      obtain ⟨c, hc⟩ := Option.isSome_iff_exists.mp hs.1
      left
      show s.rollback.2.cache.entries = []
      simp only [Store.rollback, hc]
      split <;> rfl
  | storeTags tags now auto => exact hs.storeTags tags now auto
  | deleteByFile file auto => exact .inl rfl
  | clear => exact .inl rfl
  | insertFileEntry file time => exact .inr (hs.mutate .change false)
  | updateFileEntry file time => exact .inr (hs.mutate .change false)
  | deleteFileEntry file => exact .inr (hs.mutate .change false)
  | storeMacros macros => exact .inr (hs.mutate (Batch.orderly_storeMacros macros) true)
  | storeSimpleMacros file names => exact .inr (hs.mutate (Batch.orderly_storeSimpleMacros file names) true)
  | ask question => exact absurd rfl (h question)
  | outside disk => exact .inr hs
  | restart options => exact .inl rfl

/-! ## Questions -/

namespace KeepsInUse

theorem moves (h : s.KeepsInUse) (hc : s.connection = some c) (hm : Moves s c db t) : t.KeepsInUse where
  used := by
    rw [hm.cache]
    exact h.used.imp_right fun hs => hs.moves hc hm
  named := hm.cache ▸ h.named

theorem heal (h : s.KeepsInUse) (e : Fault) : (s.heal e).KeepsInUse where
  used := by
    unfold Store.heal
    split
    · rcases h.used with he | hs
      · exact .inl (s.reopen_remains.1.elim (fun hsame => by rw [hsame, he]) id)
      · exact hs.reopen
    · exact h.used
  named := h.named.remains (s.heal_remains e).1

theorem askDatabase (h : s.KeepsInUse) (f : Database → Except Fault α) : ((Store.askDatabase f).run s).2.KeepsInUse := by
  rcases s.askDatabase_cases f with ⟨a, c, hc, _, _, _, hm⟩ | ⟨_, hs | ⟨c, t, e, hc, hm, hs⟩⟩
  · exact h.moves hc hm
  · rwa [hs]
  · rw [hs]
    exact (h.moves hc hm).heal e

/-- An answer is kept only if the database gave it, to a session that uses its cache. -/
theorem fetchKinds (h : s.KeepsInUse) (q : Query) (kinds : List String) :
    ((Store.fetchKinds q kinds).run s).2.KeepsInUse := by
  rw [fetchKinds_run]
  split
  · exact h
  split
  · exact h
  have hasked := h.askDatabase q.run
  rcases hrun : (Store.askDatabase q.run).run s with ⟨_ | rows, t⟩ <;> rw [hrun] at hasked
  · exact hasked
  dsimp only
  split
  · rename_i huse
    rcases s.askDatabase_cases q.run with ⟨_, c, hc, _, _, _, hm⟩ | ⟨hnone, _⟩
    · rw [hrun] at hm
      have hopen : t.UsesCache := ⟨hm.isOpen hc, hm.options ▸ huse⟩
      exact ⟨.inr hopen, hasked.named.keep _ _⟩
    · rw [hrun] at hnone
      cases hnone
  · exact hasked

theorem act (h : s.KeepsInUse) (step : Step) : (step.act s).KeepsInUse := by
  by_cases hask : ∃ question, step = .ask question
  · obtain ⟨question, rfl⟩ := hask
    exact ask_keeps (A := fun _ => True) trivial (fun q kinds _ _ ht => ht.fetchKinds q kinds)
      (fun hc hm ht => ht.moves hc hm) (fun e ht => ht.heal e) question.filtersBy_true h
  · have hother : ∀ question, step ≠ .ask question := fun question he => hask ⟨question, he⟩
    have hremains := Step.act_remains s hother
    refine ⟨?_, h.named.remains hremains⟩
    rcases h.used with he | hs
    · exact .inl (hremains.elim (fun hsame => by rw [hsame, he]) id)
    · exact hs.act hother

end KeepsInUse

/-- The session of every run keeps answers only while it uses its cache. -/
theorem After.keepsInUse {P : Store → Step → Prop} (h : s.After P) : s.KeepsInUse := by
  induction h with
  | new h _ => exact keepsInUse_of_empty h.cache
  | next step _ _ _ ih => exact ih.act step

theorem KeepsInUse.closed (h : s.KeepsInUse) (hc : s.connection = none) : s.cache.entries = [] := by
  refine h.used.resolve_right fun hs => ?_
  have := hs.1
  simp [isOpen, hc] at this

end Store
end TagIndex
