import TagIndex.Proofs.Queries
import TagIndex.Proofs.Remaining

/-!
# Kept answers are current

A kept answer is that of its query on what the session sees. A step either leaves the tags that the
session sees, and their projection, as they are, or forgets all kept answers. The one exception is a fault that takes
an open transaction back: the answers that were kept in it are still given.
-/

namespace TagIndex

open Work Relation

/-! ## Queries look at the tags and at the projection -/

namespace Query

variable {db db' : Database} {q : Query}

theorem meetsTooLong_row_congr (hg : db'.globals = db.globals) (r : Row) (cs : List Condition) :
    Condition.meetsTooLong db' r cs = Condition.meetsTooLong db r cs := by
  induction cs with
  | nil => rfl
  | cons c cs ih => cases c <;> simp only [Condition.meetsTooLong, Condition.holds, ih, hg]

theorem accepts_congr (hg : db'.globals = db.globals) : q.accepts db' = q.accepts db := by
  have hholds : ∀ r c, Condition.holds db' r c = Condition.holds db r c := by
    intro r c
    cases c <;> simp only [Condition.holds, hg]
  funext r
  simp only [accepts, hholds]

theorem run_congr (ht : db'.tags = db.tags) (hg : db'.globals = db.globals) :
    q.run db' = q.run db := by
  have hglobal : ∀ c : Condition, c.meetsTooLongGlobal db' = c.meetsTooLongGlobal db := by
    intro c
    cases c <;> simp only [Condition.meetsTooLongGlobal, hg]
  have hlong : q.meetsTooLong db' = q.meetsTooLong db := by
    simp only [meetsTooLong, hglobal, ht, meetsTooLong_row_congr hg]
  simp only [run, answers, visited, accepts_congr hg, hlong, ht]

end Query

/-! ## Kept answers -/

theorem Cache.mem_of_find? {c : Cache} {key : String} {rows : List Row}
    (h : c.find? key = some rows) : (key, rows) ∈ c.entries := by
  obtain ⟨e, he, rfl⟩ := Option.map_eq_some_iff.mp h
  have hk : e.1 = key := by simpa using List.find?_some he
  exact hk ▸ List.mem_of_find?_eq_some he

theorem Cache.mem_of_keep {c : Cache} {key : String} {rows : List Row} {e : String × List Row}
    (h : e ∈ (c.keep key rows).entries) : e = (key, rows) ∨ e ∈ c.entries := by
  simp only [keep] at h
  split at h
  · exact .inr (List.mem_of_mem_filter h)
  · exact (List.mem_cons.mp h).imp_right List.mem_of_mem_filter

/-- The rows that are kept under a key are the answer that a query and a filter with that key have on a
database. -/
def Cache.Current (db : Database) (e : String × List Row) : Prop :=
  ∃ (q : Query) (kinds : List String) (rows : List Row),
    q.key kinds = e.1 ∧ q.run db = .ok rows ∧ e.2 = Store.keepKinds kinds rows

/-- The same of a filter by kinds that satisfy `A`. -/
def Cache.CurrentBy (A : List String → Prop) (db : Database) (e : String × List Row) : Prop :=
  ∃ (q : Query) (kinds : List String) (rows : List Row),
    A kinds ∧ q.key kinds = e.1 ∧ q.run db = .ok rows ∧ e.2 = Store.keepKinds kinds rows

theorem Cache.CurrentBy.congr {A : List String → Prop} {db db' : Database} {e : String × List Row}
    (h : Cache.CurrentBy A db e) (ht : db'.tags = db.tags) (hg : db'.globals = db.globals) :
    Cache.CurrentBy A db' e := by
  obtain ⟨q, kinds, rows, ha, hk, hr, he⟩ := h
  exact ⟨q, kinds, rows, ha, hk, (Query.run_congr ht hg).trans hr, he⟩

namespace Store

open Lookup

variable {α : Type} {s s' t : Store} {c : Connection} {db : Database} {w : Work α}
  {A : List String → Prop}

theorem keepKinds_sublist (kinds : List String) (rows : List Row) : (keepKinds kinds rows).Sublist rows := by
  unfold keepKinds
  split
  · exact List.Sublist.refl _
  · exact List.filter_sublist

/-- Every kept answer is current and filtered as `A` says, and none is kept without a connection. -/
structure IsCurrentBy (A : List String → Prop) (s : Store) : Prop where
  closed : s.connection = none → s.cache.entries = []
  current : ∀ e ∈ s.cache.entries, Cache.CurrentBy A s.database e

/-- What other processes do short of writing tables, the session does not see. -/
theorem outside_sameTables {disk : Disk} (hd : s.disk.Leaves disk) :
    s.database.SameTables (Store.database { s with disk }) := by
  simp only [Store.database]
  cases s.connection with
  | none => exact .refl _
  | some c =>
      simp only [view]
      cases c.transaction with
      | none => exact hd c.place
      | begun => exact hd c.place
      | working db => exact .refl db

namespace IsCurrentBy

theorem of_empty (h : s.cache.entries = []) : s.IsCurrentBy A where
  closed _ := h
  current := by simp [h]

theorem of_same (h : s.IsCurrentBy A) (hcache : s'.cache = s.cache)
    (hopen : s'.connection = none → s.connection = none) (ht : s'.database.tags = s.database.tags)
    (hg : s'.database.globals = s.database.globals) : s'.IsCurrentBy A where
  closed hc := by rw [hcache]; exact h.closed (hopen hc)
  current e he := (h.current e (hcache ▸ he)).congr ht hg

theorem moves (h : s.IsCurrentBy A) (hc : s.connection = some c) (hm : Moves s c db s') (hs : StaysOpen s s')
    (ht : db.tags = s.database.tags) (hg : db.globals = s.database.globals) : s'.IsCurrentBy A := by
  have hopen : s'.connection = none → s.connection = none := by
    intro hn
    have := hm.isOpen hc
    simp [Store.isOpen, hn] at this
  rcases hm.database hc hs with hd | hd
  · exact h.of_same hm.cache hopen (by rw [hd]) (by rw [hd])
  · exact h.of_same hm.cache hopen (by rw [hd, ht]) (by rw [hd, hg])

/-! ## Opening -/

theorem connect {path : String} (he : s.cache.entries = []) (h : s.connect path = .ok s') :
    s'.cache.entries = [] := by
  unfold Store.connect at h
  split at h <;> cases h
  exact he

theorem openPath (h : s.IsCurrentBy A) (path : String) : (s.openPath path).2.IsCurrentBy A := by
  unfold Store.openPath
  split
  · exact h
  · dsimp only
    have hclosed : (if s.isOpen then s.close else s).cache.entries = [] := by
      split
      · rfl
      · rename_i hn
        exact h.closed (by simpa [isOpen] using hn)
    generalize (if s.isOpen then s.close else s) = t at *
    split
    · exact of_empty (connect hclosed ‹_›)
    · refine of_empty ?_
      split
      · rename_i p _
        cases hp : t.connect p with
        | ok u => exact connect hclosed hp
        | error e => exact hclosed
      · exact hclosed

theorem reopen (h : s.IsCurrentBy A) : s.reopen.2.IsCurrentBy A := by
  unfold Store.reopen
  split
  · exact h
  · dsimp only
    split
    · exact of_empty (connect rfl ‹_›)
    · exact of_empty rfl

theorem heal (h : s.IsCurrentBy A) (f : Fault) : (s.heal f).IsCurrentBy A := by
  unfold Store.heal
  split
  · exact h.reopen
  · exact h

/-! ## Transactions -/

theorem begin (h : s.IsCurrentBy A) : s.begin.2.IsCurrentBy A := by
  unfold Store.begin
  split
  · exact h
  · rename_i c hc
    cases ht : c.transaction with
    | none =>
        have hd : (s.withTransaction c .begun).database = s.database := by
          rw [database_eq hc, view_of_none ht]
          rfl
        exact h.of_same rfl (by simp) (congrArg _ hd) (congrArg _ hd)
    | begun => exact h
    | working db => exact h

/-- A commit that takes the transaction back leaves its answers behind. -/
theorem commit (h : s.IsCurrentBy A) (hs : StaysOpen s s.commit.2 ∨ s.commit.1 = .ok ()) : s.commit.2.IsCurrentBy A := by
  unfold Store.commit at hs ⊢
  split at hs
  · exact h
  · rename_i c hc
    cases ht : c.transaction with
    | none =>
        simp only [commitOn, ht]
        exact h
    | begun =>
        simp only [commitOn, ht]
        have hd : (s.withTransaction c .none).database = s.database := by
          rw [database_eq hc, view, ht]
          rfl
        exact h.of_same rfl (by simp) (congrArg _ hd) (congrArg _ hd)
    | working db =>
        rcases s.commitOn_working ht with ⟨n, hcm⟩ | ⟨e, n, _, hcm⟩ | ⟨n, hcm⟩ <;> simp only [hcm] at hs ⊢
        · exact h.of_same rfl id rfl rfl
        · -- The transaction is gone, and the commit has not succeeded.
          rcases hs with hs | hok
          · have hnone := hs (idle_withTransaction _ c) c hc
            rw [hnone] at ht
            cases ht
          · cases hok
        · have hd : ((s.withTransaction c .none).written n c db).database = s.database := by
            rw [database_eq hc, view, ht]
            exact written_database (s := s.withTransaction c .none) rfl rfl n
          exact h.of_same rfl (by simp) (congrArg _ hd) (congrArg _ hd)

theorem rollback (h : s.IsCurrentBy A) : s.rollback.2.IsCurrentBy A := by
  unfold Store.rollback
  split
  · exact h
  · split <;> exact of_empty rfl

/-! ## Writing -/

theorem mutate (h : s.IsCurrentBy A) {auto : Bool} (hw : w.Orderly) (hs : StaysOpen s (s.mutate auto w).2)
    (hk : ∀ db₀ : Database, Keeps (fun db => db.tags = db₀.tags ∧ db.globals = db₀.globals) w) :
    (s.mutate auto w).2.IsCurrentBy A := by
  rcases s.mutate_cases auto hw with ⟨e, n, hm⟩ | ⟨c, _, n, hc, hne, _, _, hm⟩ | ⟨c, hc, _, hm, _⟩
  · rw [hm]
    exact h.of_same rfl id rfl rfl
  · rw [hm] at hs
    exact absurd (hs (idle_withTransaction _ c) c hc) hne
  · have hdb := (hk (s.view c)).db (n := s.disk.statements) (ρ := s.refusals c) ⟨rfl, rfl⟩
    rw [← database_eq hc] at hdb
    exact h.moves hc hm hs (by rw [outcome, ← database_eq hc, hdb.1])
      (by rw [outcome, ← database_eq hc, hdb.2])

/-- A batch forgets the kept answers, whatever becomes of it. -/
theorem storeTags (h : s.IsCurrentBy A) (tags : List Tag) (now : Int) (auto : Bool) :
    (s.storeTags tags now auto).2.IsCurrentBy A := by
  unfold Store.storeTags
  split
  · exact h
  · have he : (s.mutate auto (Batch.store tags now)).2.clearCache.IsCurrentBy A := of_empty rfl
    dsimp only
    split
    · exact he.reopen
    · exact he

theorem keep (h : s.IsCurrentBy A) (hopen : s.connection ≠ none) {q : Query} {rows : List Row}
    (hr : q.run s.database = .ok rows) {kinds : List String} (hk : A kinds) :
    IsCurrentBy A { s with cache := s.cache.keep (q.key kinds) (keepKinds kinds rows) } where
  closed hn := absurd hn hopen
  current e he := by
    rcases Cache.mem_of_keep he with rfl | he
    · exact ⟨q, kinds, rows, hk, rfl, hr, rfl⟩
    · exact h.current e he

end IsCurrentBy

/-! ## Asking -/

/-- No transaction has begun since `s`, and while the one of `s` is open the kept answers are current. -/
structure StaysCurrent (A : List String → Prop) (s t : Store) : Prop where
  idle : s.Idle → t.Idle
  current : StaysOpen s t → t.IsCurrentBy A

theorem idle_reopen (hi : s.Idle) : s.reopen.2.Idle := by
  unfold reopen
  split
  · exact hi
  · dsimp only
    split
    · exact idle_of_connect ‹_›
    · exact idle_of_none rfl

theorem idle_heal (hi : s.Idle) (e : Fault) : (s.heal e).Idle := by
  unfold heal
  split
  · exact idle_reopen hi
  · exact hi

namespace StaysCurrent

variable {u : Store}

theorem refl (h : s.IsCurrentBy A) : StaysCurrent A s s := ⟨id, fun _ => h⟩

theorem moves (h : StaysCurrent A s t) (hc : t.connection = some c) (hm : Moves t c t.database u) :
    StaysCurrent A s u where
  idle hi := hm.idle hc (h.idle hi)
  current hs := (h.current fun ht => hs (hm.idle hc ht)).moves hc hm (fun hu => h.idle (hs hu)) rfl rfl

theorem heal (h : StaysCurrent A s t) (e : Fault) : StaysCurrent A s (t.heal e) where
  idle hi := idle_heal (h.idle hi) e
  current hs := (h.current fun ht => hs (idle_heal ht e)).heal e

theorem askDatabase (h : StaysCurrent A s t) (f : Database → Except Fault α) :
    StaysCurrent A s ((Store.askDatabase f).run t).2 := by
  rcases t.askDatabase_cases f with ⟨a, c, hc, _, _, _, hm⟩ | ⟨_, hs | ⟨c, u, e, hc, hm, hs⟩⟩
  · exact h.moves hc hm
  · rwa [hs]
  · rw [hs]
    exact (h.moves hc hm).heal e

theorem fetchKinds (h : StaysCurrent A s t) (q : Query) {kinds : List String} (hk : A kinds) :
    StaysCurrent A s ((Store.fetchKinds q kinds).run t).2 := by
  have hasked := h.askDatabase q.run
  rcases t.fetchKinds_cases q kinds with hs | hs | ⟨rows, hrows, hs⟩ <;> rw [hs]
  · exact h
  · exact hasked
  · refine ⟨hasked.idle, fun hs => ?_⟩
    rcases t.askDatabase_cases q.run with ⟨a, c, hc, hr, hsome, hopen, hm⟩ | ⟨hnone, _⟩
    · obtain rfl : a = rows := Option.some.inj (hsome.symm.trans hrows)
      refine (hasked.current hs).keep ?_ ?_ hk
      · intro hn
        have := hm.isOpen hc
        simp [Store.isOpen, hn] at this
      · rcases hm.database hc hopen with hd | hd <;> rw [hd] <;> exact hr
    · rw [hnone] at hrows
      cases hrows

theorem ask (h : s.IsCurrentBy A) (hA : A []) {question : Question} (hq : question.FiltersBy A) :
    StaysCurrent A s (question.ask s) :=
  ask_keeps hA (fun q _ hk _ ht => ht.fetchKinds q hk) (fun hc hm ht => ht.moves hc hm)
    (fun e ht => ht.heal e) hq (refl h)

end StaysCurrent

theorem IsCurrentBy.fetchKinds (h : s.IsCurrentBy A) (q : Query) {kinds : List String} (hk : A kinds)
    (hs : StaysOpen s ((Store.fetchKinds q kinds).run s).2) : ((Store.fetchKinds q kinds).run s).2.IsCurrentBy A :=
  ((StaysCurrent.refl h).fetchKinds q hk).current hs

end Store

/-! ## Steps -/

/-- The step takes back the transaction that the session is in, and leaves it with answers that it has kept. -/
def Step.LeavesStale (s : Store) (step : Step) : Prop :=
  ¬ Store.StaysOpen s (step.act s) ∧ (step.act s).cache.entries ≠ [] ∧ ¬ (step = .commit ∧ s.commit.1 = .ok ())

namespace Store

variable {s : Store} {A : List String → Prop}

namespace IsCurrentBy

theorem outside (h : s.IsCurrentBy A) {disk : Disk} (hd : s.disk.Leaves disk) :
    IsCurrentBy A { s with disk } := by
  rcases Option.eq_none_or_eq_some s.connection with hc | ⟨c, hc⟩
  · exact of_empty (h.closed hc)
  · have hsame := outside_sameTables hd
    exact h.of_same rfl id hsame.tags hsame.globals

theorem act (h : s.IsCurrentBy A) (hA : A []) {step : Step} (ha : step.Allowed s)
    (hq : step.FiltersBy A) (hl : ¬ step.LeavesStale s) : (step.act s).IsCurrentBy A := by
  by_cases he : (step.act s).cache.entries = []
  · exact of_empty he
  have hs : StaysOpen s (step.act s) ∨ step = .commit ∧ s.commit.1 = .ok () := by
    by_contra hno
    exact hl ⟨fun hs => hno (.inl hs), he, fun hok => hno (.inr hok)⟩
  have hsame : ∀ db₀ : Database,
      Batch.AboutTags fun db => db.tags = db₀.tags ∧ db.globals = db₀.globals :=
    fun db₀ db db' ht hg _ hdb => ⟨ht.trans hdb.1, hg.trans hdb.2⟩
  have hchange : ∀ f : Database → Database, (∀ db, (f db).tags = db.tags) →
      (∀ db, (f db).globals = db.globals) → (∀ db, (f db).lastTagId = db.lastTagId) →
      StaysOpen s (s.mutate false (Work.change f)).2 → (s.mutate false (Work.change f)).2.IsCurrentBy A :=
    fun f ht hg hl hs => h.mutate .change hs fun db₀ => (hsame db₀).keeps_change ht hg hl
  cases step with
  | openPath path => exact h.openPath path
  | close => exact of_empty rfl
  | reopen => exact h.reopen
  | setBusyTimeout ms => exact h.of_same rfl id rfl rfl
  | setSearchLimit limit => exact h.of_same rfl id rfl rfl
  | setCaseSensitive on => exact h.of_same rfl id rfl rfl
  | setUseCache on =>
      cases on with
      | true => exact h.of_same rfl id rfl rfl
      | false => exact of_empty rfl
  | clearCache => exact of_empty rfl
  | begin => exact h.begin
  | commit => exact h.commit (hs.imp_right And.right)
  | rollback => exact h.rollback
  | storeTags tags now auto => exact h.storeTags tags now auto
  | deleteByFile file auto => exact of_empty rfl
  | clear => exact of_empty rfl
  | insertFileEntry file time => exact hchange _ (fun _ => rfl) (fun _ => rfl) (fun _ => rfl) (hs.resolve_right nofun)
  | updateFileEntry file time => exact hchange _ (fun _ => rfl) (fun _ => rfl) (fun _ => rfl) (hs.resolve_right nofun)
  | deleteFileEntry file => exact hchange _ (fun _ => rfl) (fun _ => rfl) (fun _ => rfl) (hs.resolve_right nofun)
  | storeMacros macros =>
      exact h.mutate (Batch.orderly_storeMacros macros) (hs.resolve_right nofun) fun db₀ =>
        (hsame db₀).keeps_storeMacros macros
  | storeSimpleMacros file names =>
      exact h.mutate (Batch.orderly_storeSimpleMacros file names) (hs.resolve_right nofun) fun db₀ =>
        (hsame db₀).keeps_storeSimpleMacros file names
  | ask question => exact (StaysCurrent.ask h hA hq).current (hs.resolve_right nofun)
  | outside disk => exact h.outside ha
  | restart options => exact of_empty rfl

end IsCurrentBy

/-- Every kept answer is current, whatever it was filtered by. -/
abbrev IsCurrent (s : Store) : Prop := s.IsCurrentBy fun _ => True

theorem IsCurrent.current (h : s.IsCurrent) (e : String × List Row) (he : e ∈ s.cache.entries) :
    Cache.Current s.database e := by
  obtain ⟨q, kinds, rows, _, hkept⟩ := IsCurrentBy.current h e he
  exact ⟨q, kinds, rows, hkept⟩

/-! ## Runs -/

/-- Since it last kept no answers, the session has filtered rows by kinds as `A` says, and no step has left it with
answers of a transaction that was taken back. -/
inductive FreshBy (A : List String → Prop) : Store → Prop where
  | empty {s : Store} (h : s.cache.entries = []) : FreshBy A s
  | next {s : Store} (step : Step) (h : FreshBy A s) (ha : step.Allowed s) (hq : step.FiltersBy A)
    (hl : ¬ step.LeavesStale s) : FreshBy A (step.act s)

/-- Since it last kept no answers, no step has left the session with answers of a transaction that was taken back. -/
abbrev Fresh : Store → Prop := FreshBy fun _ => True

theorem FreshBy.isCurrentBy (h : s.FreshBy A) (hA : A []) : s.IsCurrentBy A := by
  induction h with
  | empty he => exact .of_empty he
  | next step _ ha hq hl ih => exact ih.act hA ha hq hl

theorem Fresh.isCurrent (h : s.Fresh) : s.IsCurrent := h.isCurrentBy trivial

theorem FreshBy.fresh (h : s.FreshBy A) : s.Fresh := by
  induction h with
  | empty he => exact .empty he
  | next step _ ha _ hl ih => exact .next step ih ha step.filtersBy_true hl

/-- Outside of transactions nothing can be taken back. -/
theorem Idle.not_leavesStale (hi : s.Idle) (step : Step) : ¬ step.LeavesStale s := fun h => h.1 fun _ => hi

/-- Whatever a session does, and whatever of it fails, every answer that it keeps is that of a query and
a filter with its key on what the session sees now, unless a fault has taken back the transaction in which it was
kept. -/
theorem kept_answers_current (h : s.Fresh) {e : String × List Row} (he : e ∈ s.cache.entries) :
    Cache.Current s.database e := h.isCurrent.current e he

/-- The answer to a question that was asked in an open transaction has the transaction's own rows. -/
theorem kept_answer_current_in_transaction :
    let tag : Tag := { name := "f", file := "a.c", kind := "function", path := "f" }
    let opened := Step.act {} (.openPath "a.db")
    let stored := Step.act (Step.act opened .begin) (.storeTags [tag] 0 false)
    let asked := Step.act stored (.ask (.tagsByName "f" false))
    let e := ((Query.byName (.is "f") 250).key [], [⟨1, tag⟩])
    e ∈ asked.cache.entries ∧ Cache.Current asked.database e := by
  intro tag opened stored asked e
  have he : e ∈ asked.cache.entries := by decide +kernel
  have hopen : ¬ asked.Idle := fun hi => by
    have hall : asked.connection.all Connection.isIdle = true :=
      (Option.all_eq_true _ _).mpr fun c hc => isIdle_iff.mpr (hi c hc)
    exact absurd hall (by decide +kernel)
  have hasked : asked.Fresh := .next (.ask (.tagsByName "f" false)) (.empty (by decide +kernel)) trivial trivial
    fun hl => hl.1 fun hi => absurd hi hopen
  exact ⟨he, kept_answers_current hasked he⟩

/-- A commit that meets an error of the disk takes the transaction back, but not the answer with its row. -/
theorem kept_answer_outlives_transaction :
    let tag : Tag := { name := "f", file := "a.c", kind := "function", path := "f" }
    let opened := Step.act {} (.openPath "a.db")
    let stored := Step.act (Step.act opened .begin) (.storeTags [tag] 0 false)
    let asked := Step.act stored (.ask (.tagsByName "f" false))
    let trouble (n : Nat) := if n = asked.disk.statements then some Fault.diskError else none
    let failing := Step.act asked (.outside { asked.disk with trouble })
    let after := Step.act failing .commit
    let e := ((Query.byName (.is "f") 250).key [], [⟨1, tag⟩])
    failing.commit.1 = .error (.corruption .diskError) ∧ after.database.tags = [] ∧
      ((tagsByName "f" false).run after).1 = [⟨1, tag⟩] ∧
      e ∈ after.cache.entries ∧ ¬ Cache.Current after.database e := by
  intro tag opened stored asked trouble failing after e
  have hnone : after.database.tags = [] := by decide +kernel
  refine ⟨by decide +kernel, hnone, by decide +kernel, by decide +kernel, ?_⟩
  rintro ⟨q, kinds, rows, -, hrun, hrows⟩
  have hrow : (⟨1, tag⟩ : Row) ∈ keepKinds kinds rows := hrows ▸ List.mem_singleton_self _
  have htags := (Query.mem_of_run hrun ((keepKinds_sublist kinds rows).subset hrow)).1
  rw [hnone] at htags
  cases htags

end Store
end TagIndex
