import TagIndex.Proofs.Asking
import TagIndex.Proofs.Batch

/-!
# Runs

A run is any order of calls on a store, of new sessions on its disk, and of what other processes do
short of writing tables. What every batch keeps, every run keeps.
-/

namespace TagIndex

open Work Relation PlaceState

/-! ## Steps -/

inductive Step where
  | openPath (path : String)
  | close
  | reopen
  | setBusyTimeout (ms : Nat)
  | setSearchLimit (limit : Nat)
  | setCaseSensitive (on : Bool)
  | setUseCache (on : Bool)
  | clearCache
  | begin
  | commit
  | rollback
  | storeTags (tags : List Tag) (now : Int) (autoCommit : Bool)
  | deleteByFile (file : String) (autoCommit : Bool)
  | clear
  | insertFileEntry (file : String) (time : Int)
  | updateFileEntry (file : String) (time : Int)
  | deleteFileEntry (file : String)
  | storeMacros (macros : List Macro)
  | storeSimpleMacros (file : String) (names : List String)
  | ask (question : Question)
  /-- Other processes change the disk. -/
  | outside (disk : Disk)
  /-- The session ends, and a new one begins. -/
  | restart (options : Options)

namespace Step

def act (s : Store) : Step → Store
  | openPath path => (s.openPath path).2
  | close => s.close
  | reopen => s.reopen.2
  | setBusyTimeout ms => s.setBusyTimeout ms
  | setSearchLimit limit => s.setSearchLimit limit
  | setCaseSensitive on => s.setCaseSensitive on
  | setUseCache on => s.setUseCache on
  | clearCache => s.clearCache
  | begin => s.begin.2
  | commit => s.commit.2
  | rollback => s.rollback.2
  | storeTags tags now autoCommit => (s.storeTags tags now autoCommit).2
  | deleteByFile file autoCommit => (s.deleteByFile file autoCommit).2
  | clear => s.clear.2
  | insertFileEntry file time => (s.insertFileEntry file time).2
  | updateFileEntry file time => (s.updateFileEntry file time).2
  | deleteFileEntry file => (s.deleteFileEntry file).2
  | storeMacros macros => (s.storeMacros macros).2
  | storeSimpleMacros file names => (s.storeSimpleMacros file names).2
  | ask question => question.ask s
  | outside disk => { s with disk }
  | restart options => { disk := s.disk, options }

/-- Other processes write no tables. -/
def Allowed (s : Store) : Step → Prop
  | outside disk => s.disk.Leaves disk
  | _ => True

/-- If the step is a question that filters rows by kinds, these satisfy `A`. -/
def FiltersBy (A : List String → Prop) : Step → Prop
  | ask question => question.FiltersBy A
  | _ => True

theorem filtersBy_true (step : Step) : step.FiltersBy fun _ => True := by
  cases step with
  | ask question => exact question.filtersBy_true
  | _ => trivial

end Step

/-! ## Calls that write -/

namespace Store

variable {α : Type} {R : Database → Database → Prop} {s : Store} {w : Work α} {auto : Bool}

/-- Work takes what the session sees to tables as `R` says, unless all of it is taken back. -/
def Respects (R : Database → Database → Prop) (s : Store) (auto : Bool) (w : Work α) : Prop :=
  ∀ c, s.connection = some c → losesTransaction c (s.outcome c w).result = false →
    (auto = true → ∃ a, (s.outcome c w).result = .ok a) → R s.database (s.outcome c w).db

theorem mutate_turn (hw : w.Orderly) (hR : s.Respects R auto w) (p : Place) :
    Turn R p (s.stateAt p) ((s.mutate auto w).2.stateAt p) := by
  rcases s.mutate_cases auto hw with ⟨e, n, h⟩ | ⟨c, _, n, _, _, _, _, h⟩ | ⟨c, hc, ⟨hl, _⟩, hm, _, _, hok⟩
  · rw [h]
    exact .refl _
  · rw [h]
    exact .reads (s.takenBack_reads c n p)
  · exact hm.turn hc (hR c hc hl hok) p

theorem storeTags_turn {tags : List Tag} {now : Int}
    (hR : s.Respects R auto (Batch.store tags now)) (p : Place) :
    Turn R p (s.stateAt p) ((s.storeTags tags now auto).2.stateAt p) := by
  unfold storeTags
  split
  · exact .refl _
  · have h := mutate_turn (Batch.orderly_store tags now) hR p
    dsimp only
    split
    · exact h.trans_reads ((s.mutate auto (Batch.store tags now)).2.clearCache.reopen_reads p)
    · exact h

end Store

namespace Step

variable {R : Database → Database → Prop} {s : Store} {step : Step}

/-- The work that a step does, if any, respects `R`. -/
def Respects (R : Database → Database → Prop) (s : Store) : Step → Prop
  | storeTags tags now auto => s.Respects R auto (Batch.store tags now)
  | deleteByFile file auto => s.Respects R auto (Batch.removeFile file)
  | clear => s.Respects R false Batch.clear
  | insertFileEntry file time => s.Respects R false (Work.change (·.putFileEntry file time))
  | updateFileEntry file time => s.Respects R false (Work.change (·.setFileTime file time))
  | deleteFileEntry file => s.Respects R false (Work.change (·.dropFileEntry file))
  | storeMacros macros => s.Respects R true (Batch.storeMacros macros)
  | storeSimpleMacros file names => s.Respects R true (Batch.storeSimpleMacros file names)
  | _ => True

theorem turn (ha : step.Allowed s) (hR : step.Respects R s) (p : Place) :
    Turn R p (s.stateAt p) ((step.act s).stateAt p) := by
  have hquiet : ∀ s' : Store, s'.connection = s.connection → s'.disk = s.disk →
      Turn R p (s.stateAt p) (s'.stateAt p) := fun s' hc hd =>
    .reads (Store.reads_of_leaves hc (hd ▸ .refl _) p)
  cases step with
  | openPath path => exact .reads (s.openPath_reads path p)
  | close => exact .reads (s.close_reads p)
  | reopen => exact .reads (s.reopen_reads p)
  | setBusyTimeout ms => exact hquiet _ rfl rfl
  | setSearchLimit limit => exact hquiet _ rfl rfl
  | setCaseSensitive on => exact hquiet _ rfl rfl
  | setUseCache on => exact hquiet _ rfl rfl
  | clearCache => exact hquiet _ rfl rfl
  | begin => exact s.begin_turn p
  | commit => exact s.commit_turn p
  | rollback => exact .reads (s.rollback_reads p)
  | storeTags tags now auto => exact Store.storeTags_turn hR p
  | deleteByFile file auto => exact Store.mutate_turn (Batch.orderly_removeFile file) hR p
  | clear => exact Store.mutate_turn Batch.orderly_clear hR p
  | insertFileEntry file time => exact Store.mutate_turn .change hR p
  | updateFileEntry file time => exact Store.mutate_turn .change hR p
  | deleteFileEntry file => exact Store.mutate_turn .change hR p
  | storeMacros macros => exact Store.mutate_turn (Batch.orderly_storeMacros macros) hR p
  | storeSimpleMacros file names =>
      exact Store.mutate_turn (Batch.orderly_storeSimpleMacros file names) hR p
  | ask question => exact .reads (s.ask_reads question p)
  | outside disk =>
      have hr : Store.Reads s { s with disk } := Store.reads_of_leaves rfl ha
      exact .reads (hr p)
  | restart options =>
      have hi : Store.Idle { disk := s.disk, options } := Store.idle_of_none rfl
      exact .reads (hi.reads (Disk.Leaves.refl s.disk).opens p)

end Step

/-! ## Facts that steps keep -/

/-- A fact that no work can change, even if it fails. -/
structure Kept (I : Database → Prop) : Prop where
  aboutTags : Batch.AboutTags I
  store : ∀ tags now, Keeps I (Batch.store tags now)
  removeFile : ∀ file, Keeps I (Batch.removeFile file)
  clear : Keeps I Batch.clear

/-- A fact that no work can change unless it fails. -/
structure Restored (I : Database → Prop) : Prop where
  aboutTags : Batch.AboutTags I
  store : ∀ tags now, Restores I (Batch.store tags now)
  removeFile : ∀ file, Restores I (Batch.removeFile file)
  clear : Restores I Batch.clear

/-- Work without a transaction of its own fails, and something of it stays. -/
def Store.FailsPartWay {α : Type} (s : Store) (w : Work α) : Prop :=
  (∃ e, (s.mutate false w).1 = .error e) ∧ (s.mutate false w).2.database ≠ s.database

namespace Store

variable {α : Type} {I : Database → Prop} {s : Store} {auto : Bool} {w : Work α}

theorem respects_of_keeps (h : Keeps I w) : s.Respects (fun db db' => I db → I db') auto w := by
  intro c hc _ _ hi
  rw [database_eq hc] at hi
  exact h.db hi

theorem respects_of_restores (h : Restores I w) (hw : w.Orderly)
    (hf : auto = false → ¬ s.FailsPartWay w) : s.Respects (fun db db' => I db → I db') auto w := by
  intro c hc hl hok hi
  cases hr : (s.outcome c w).result with
  | ok a =>
      rw [database_eq hc] at hi
      exact h.ok hi hr
  | error e =>
      cases auto with
      | true =>
          obtain ⟨a, ha⟩ := hok rfl
          rw [hr] at ha
          cases ha
      | false =>
          have hsame : (s.mutate false w).2.database = s.database := by
            by_contra hne
            refine hf rfl ⟨⟨StoreError.ofMutation e, ?_⟩, hne⟩
            rw [mutate_false hc, perform_result, hr]
            rfl
          rw [mutate_false hc, perform_database hc hw hl] at hsame
          rwa [hsame]

end Store

namespace Step

variable {I : Database → Prop} {s : Store} {step : Step} {p : Place}

/-- A call without a transaction of its own fails, and something of its work stays. -/
def FailsPartWay (s : Store) : Step → Prop
  | storeTags tags now false => s.FailsPartWay (Batch.store tags now)
  | deleteByFile file false => s.FailsPartWay (Batch.removeFile file)
  | clear => s.FailsPartWay Batch.clear
  | _ => False

theorem respects_of_aboutTags (hI : Batch.AboutTags I)
    (hstore : ∀ tags now auto, step = storeTags tags now auto →
      s.Respects (fun db db' => I db → I db') auto (Batch.store tags now))
    (hremove : ∀ file auto, step = deleteByFile file auto →
      s.Respects (fun db db' => I db → I db') auto (Batch.removeFile file))
    (hclear : step = clear → s.Respects (fun db db' => I db → I db') false Batch.clear) :
    step.Respects (fun db db' => I db → I db') s := by
  have hchange : ∀ f : Database → Database, (∀ db, (f db).tags = db.tags) →
      (∀ db, (f db).globals = db.globals) → (∀ db, (f db).lastTagId = db.lastTagId) →
      s.Respects (fun db db' => I db → I db') false (Work.change f) :=
    fun f ht hg hl => Store.respects_of_keeps (hI.keeps_change ht hg hl)
  cases step with
  | storeTags tags now auto => exact hstore tags now auto rfl
  | deleteByFile file auto => exact hremove file auto rfl
  | clear => exact hclear rfl
  | insertFileEntry file time => exact hchange _ (fun _ => rfl) (fun _ => rfl) fun _ => rfl
  | updateFileEntry file time => exact hchange _ (fun _ => rfl) (fun _ => rfl) fun _ => rfl
  | deleteFileEntry file => exact hchange _ (fun _ => rfl) (fun _ => rfl) fun _ => rfl
  | storeMacros macros => exact Store.respects_of_keeps (hI.keeps_storeMacros macros)
  | storeSimpleMacros file names => exact Store.respects_of_keeps (hI.keeps_storeSimpleMacros file names)
  | _ => trivial

theorem respects_of_kept (h : Kept I) (s : Store) (step : Step) :
    step.Respects (fun db db' => I db → I db') s :=
  respects_of_aboutTags h.aboutTags (fun tags now _ _ => Store.respects_of_keeps (h.store tags now))
    (fun file _ _ => Store.respects_of_keeps (h.removeFile file))
    fun _ => Store.respects_of_keeps h.clear

theorem respects_of_restored (h : Restored I) (hf : ¬ step.FailsPartWay s) :
    step.Respects (fun db db' => I db → I db') s := by
  refine respects_of_aboutTags h.aboutTags ?_ ?_ ?_
  · rintro tags now auto rfl
    refine Store.respects_of_restores (h.store tags now) (Batch.orderly_store tags now) ?_
    rintro rfl
    exact hf
  · rintro file auto rfl
    refine Store.respects_of_restores (h.removeFile file) (Batch.orderly_removeFile file) ?_
    rintro rfl
    exact hf
  · rintro rfl
    exact Store.respects_of_restores h.clear Batch.orderly_clear fun _ => hf

/-- What the work of a step keeps stays true of all tables, as long as no scratch place is opened
anew. -/
theorem keeps (hI : ∀ db db', Database.SameTables db db' → I db → I db')
    (hR : step.Respects (fun db db' => I db → I db') s) (ha : step.Allowed s) (h : All I (s.stateAt p)) :
    All I ((step.act s).stateAt p) ∨
      p = .scratch ∧ All Database.IsBlank ((step.act s).stateAt p) :=
  h.turn (fun _ _ => id) hI (step.turn ha hR p)

/-- If it is true of blank tables, it is true of those as well. -/
theorem keeps_all (hI : ∀ db db', Database.SameTables db db' → I db → I db') (h0 : I {})
    (hR : step.Respects (fun db db' => I db → I db') s) (ha : step.Allowed s)
    (h : All I (s.stateAt p)) : All I ((step.act s).stateAt p) :=
  .or_blank hI h0 (keeps hI hR ha h)

end Step

/-! ## Runs -/

/-- One store comes after the other by a step. -/
def Next (s s' : Store) : Prop := ∃ step : Step, step.Allowed s ∧ step.act s = s'

/-- A session that has not begun. -/
structure Store.IsNew (s : Store) : Prop where
  connection : s.connection = none
  path : s.path = none
  cache : s.cache.entries = []

/-- The stores that steps with `P` make from a disk without any tables. -/
inductive Store.After (P : Store → Step → Prop) : Store → Prop where
  | new {s : Store} (h : s.IsNew) (hd : ∀ p, (s.disk.tables p).IsBlank) : After P s
  | next {s : Store} (step : Step) (h : After P s) (ha : step.Allowed s) (hp : P s step) :
    After P (step.act s)

/-- The stores that any steps lead to. -/
abbrev Store.Reachable : Store → Prop := Store.After fun _ _ => True

theorem Store.reachable_stored (path : String) (tags : List Tag) :
    (Step.act (Step.act {} (.openPath path)) (.storeTags tags 0 true)).Reachable :=
  .next _ (.next _ (.new ⟨rfl, rfl, rfl⟩ fun _ => .refl _) trivial trivial) trivial trivial

/-- The stores that steps lead to of which none fails part-way. -/
abbrev Store.Unscathed : Store → Prop := Store.After fun s step => ¬ step.FailsPartWay s

/-- What is true of blank tables and kept by the work of every step is true of all tables. -/
theorem Store.After.all {P : Store → Step → Prop} {I : Database → Prop}
    (hI : ∀ db db', Database.SameTables db db' → I db → I db') (h0 : I {})
    (hR : ∀ s step, P s step → step.Respects (fun db db' => I db → I db') s)
    {s : Store} (h : s.After P) (p : Place) : All I (s.stateAt p) := by
  induction h with
  | new h hd =>
      rw [Store.stateAt_of_none h.connection]
      exact ⟨hI _ _ (hd p) h0, nofun⟩
  | next step _ ha hp ih => exact Step.keeps_all hI h0 (hR _ _ hp) ha ih

theorem Store.Reachable.all_of_kept {I : Database → Prop} (hI : Kept I) (h0 : I {}) {s : Store}
    (h : s.Reachable) (p : Place) : All I (s.stateAt p) :=
  h.all (fun _ _ => hI.aboutTags.sameTables) h0 (fun s step _ => Step.respects_of_kept hI s step) p

theorem Store.After.imp {P P' : Store → Step → Prop} {s : Store} (h : s.After P)
    (hp : ∀ s step, P s step → P' s step) : s.After P' := by
  induction h with
  | new h hd => exact .new h hd
  | next step _ ha hs ih => exact .next step ih ha (hp _ _ hs)

theorem Store.Reachable.run {s t : Store} (h : s.Reachable) (hr : ReflTransGen Next s t) : t.Reachable := by
  induction hr with
  | refl => exact h
  | tail _ hn ih =>
      obtain ⟨step, ha, rfl⟩ := hn
      exact .next step ih ha trivial

/-- A transaction keeps of the tables on the disk whatever its work keeps. -/
theorem Store.Reachable.all_of_stored {I : Database → Prop} (hI : Kept I) {s : Store} {p : Place}
    (h : s.Reachable) (hs : I (s.disk.tables p)) : All I (s.stateAt p) := by
  refine ⟨hs, ?_⟩
  induction h with
  | new h _ =>
      rw [Store.stateAt_of_none h.connection]
      nofun
  | @next s step _ ha _ ih =>
      intro db hdb
      have hR := Step.respects_of_kept hI s step
      have hstored : (s.disk.tables p).SameTables ((step.act s).disk.tables p) := by
        refine (step.turn ha hR p).stored.resolve_left fun hnone => ?_
        rw [hnone] at hdb
        cases hdb
      have hbefore : I (s.disk.tables p) :=
        hI.aboutTags _ _ hstored.tags.symm hstored.globals.symm hstored.lastTagId.symm hs
      rcases Step.keeps (fun _ _ => hI.aboutTags.sameTables) hR ha ⟨hbefore, ih hbefore⟩ with
        hall | ⟨_, hstored, hworking⟩
      · exact hall.2 db hdb
      · have hblank := hworking db hdb
        exact hI.aboutTags _ _ (hblank.tags.trans hstored.tags.symm)
          (hblank.globals.trans hstored.globals.symm) (hblank.lastTagId.trans hstored.lastTagId.symm) hs

/-- What all work keeps stays true of a file. -/
theorem Kept.run {I : Database → Prop} (hI : Kept I) {s t : Store} {p : Place}
    (hr : ReflTransGen Next s t) (hp : p ≠ .scratch) (h : All I (s.stateAt p)) : All I (t.stateAt p) := by
  induction hr with
  | refl => exact h
  | @tail s _ _ hn ih =>
      obtain ⟨step, ha, rfl⟩ := hn
      have hR := Step.respects_of_kept hI s step
      exact (Step.keeps (fun _ _ => hI.aboutTags.sameTables) hR ha ih).resolve_right fun hb => hp hb.1

theorem PlaceState.All.database {I : Database → Prop} {s : Store} (h0 : I {})
    (h : ∀ p, All I (s.stateAt p)) : I s.database := by
  cases hc : s.connection with
  | none =>
      simp only [Store.database, hc]
      exact h0
  | some c =>
      rw [← Store.seen_stateAt hc]
      exact (h c.place).seen

end TagIndex
