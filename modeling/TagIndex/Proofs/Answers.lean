import TagIndex.Proofs.Currency
import TagIndex.Proofs.Invariants
import TagIndex.Proofs.Queries
import TagIndex.Proofs.SharedKeys

/-!
# What lookups answer

A lookup of rows, whether its answer was kept or not, answers what its query answers now, or nothing if
the file refuses. Only filters by a kind with an `@` can be taken for one another.
-/

namespace TagIndex

open Lookup

/-! ## Runs -/

namespace Store

variable {s : Store}

/-- The stores that steps lead to that, since they last kept no answers, have not filtered rows by a kind with an `@`,
and have not been left with answers of a transaction that was taken back. -/
structure PlainlyAsked (s : Store) : Prop where
  reachable : s.Reachable
  recent : s.FreshBy Query.PlainKinds

theorem PlainlyAsked.of_empty (h : s.Reachable) (he : s.cache.entries = []) : s.PlainlyAsked := ⟨h, .empty he⟩

theorem PlainlyAsked.fresh (h : s.PlainlyAsked) : s.Fresh := h.recent.fresh

theorem PlainlyAsked.isCurrentBy (h : s.PlainlyAsked) : s.IsCurrentBy Query.PlainKinds := h.recent.isCurrentBy nofun

end Store

/-! ## What a query finds -/

namespace Store

variable {A : List String → Prop} {s : Store} {q : Query} {kinds : List String} {rows : List Row} {db : Database}

/-- The rows of a query with one of the given kinds; none if it is too large or fails. -/
def found (q : Query) (kinds : List String) (db : Database) : List Row :=
  if q.isTooLarge then [] else ((q.run db).toOption.map (keepKinds kinds)).getD []

theorem mem_keepKinds {r : Row} {rows : List Row} :
    r ∈ keepKinds kinds rows ↔ r ∈ rows ∧ (kinds = [] ∨ r.tag.kind ∈ kinds) := by
  cases kinds <;> simp [keepKinds]

theorem run_of_mem_found {r : Row} (h : r ∈ found q kinds db) :
    ∃ rows, q.run db = .ok rows ∧ r ∈ rows ∧ (kinds = [] ∨ r.tag.kind ∈ kinds) := by
  unfold found at h
  split at h
  · cases h
  · cases hrun : q.run db with
    | error e => simp [hrun, Except.toOption] at h
    | ok rows => exact ⟨rows, rfl, mem_keepKinds.mp (by simpa [hrun, Except.toOption] using h)⟩

theorem mem_found {r : Row} (h : r ∈ found q kinds db) : r ∈ db.tags ∧ q.accepts db r := by
  obtain ⟨rows, hrun, hr, _⟩ := run_of_mem_found h
  exact Query.mem_of_run hrun hr

theorem kind_of_mem_found {r : Row} (h : r ∈ found q kinds db) : kinds = [] ∨ r.tag.kind ∈ kinds := by
  obtain ⟨_, _, _, hkind⟩ := run_of_mem_found h
  exact hkind

theorem nodup_ids_found (h : (db.tags.map (·.id)).Nodup) (q : Query) (kinds : List String) :
    ((found q kinds db).map (·.id)).Nodup := by
  have hanswers : ((q.answers db).map (·.id)).Nodup :=
    ((q.answers_perm db).map _).nodup_iff.mpr (h.sublist (List.filter_sublist.map _))
  unfold found
  split
  · exact .nil
  · cases hrun : q.run db with
    | error e => exact .nil
    | ok rows =>
        refine hanswers.sublist (((keepKinds_sublist kinds rows).trans ?_).map _)
        rw [Query.eq_take_of_run hrun]
        exact List.take_sublist _ _

theorem nodup_found (hs : db.Sound) (q : Query) (kinds : List String) : (found q kinds db).Nodup :=
  (nodup_ids_found hs.nodup_ids q kinds).of_map _

theorem found_of_run {rows : List Row} (hq : q.isTooLarge = false) (h : q.run db = .ok rows) :
    found q kinds db = keepKinds kinds rows := by
  simp [found, hq, h, Except.toOption]

theorem found_of_limit (h : Query.maxLimit < q.limit) : found q kinds db = [] := by
  simp [found, Query.run, h, Except.toOption]

theorem found_of_isTooLong {c : Condition} (hc : c ∈ q.conditions) (hl : c.isTooLong) :
    found q kinds db = [] := by
  unfold found
  split
  · rfl
  · cases hrun : q.run db with
    | error e => rfl
    | ok rows =>
        rw [Query.eq_nil_of_isTooLong hc hl hrun]
        simp [Except.toOption, keepKinds]

/-- Filters as `A` says are told apart by the text that they add to a key. -/
def Told (A : List String → Prop) (kinds : List String) : Prop :=
  ∀ kinds', A kinds' → Query.kindsText kinds' = Query.kindsText kinds → kinds' = kinds

/-! ## Answers of one query -/

/-- The session is open on a file that does not refuse its next question. -/
def Readable (s : Store) : Prop :=
  ∃ c, s.connection = some c ∧ s.refusals c .reads s.disk.statements = none

theorem readable_iff : s.Readable ↔
    s.connection.any fun c => (s.refusals c .reads s.disk.statements).isNone := by
  simp only [Readable, Option.any_eq_true, Option.isNone_iff_eq_none]

instance : Decidable s.Readable := decidable_of_iff _ readable_iff.symm

/-- The answer is as `P` says, or else there is none because the file refuses. -/
def Answered (s : Store) (P : List Row → Prop) (rows : List Row) : Prop :=
  P rows ∨ ¬ s.Readable ∧ rows = []

theorem Answered.imp {P P' : List Row → Prop} (h : s.Answered P rows) (hp : P rows → P' rows) :
    s.Answered P' rows :=
  h.imp_left hp

theorem Answered.of_readable {P : List Row → Prop} (h : s.Answered P rows) (hr : s.Readable) : P rows :=
  h.resolve_right fun hn => hn.1 hr

/-- Every kept answer is that of a query, and of a filter as `A` says, on tables of which `D` is true. -/
def KeepsFrom (A : List String → Prop) (D : Database → Prop) (s : Store) : Prop :=
  ∀ e ∈ s.cache.entries, ∃ db, D db ∧ Cache.CurrentBy A db e

theorem IsCurrentBy.keepsFrom (h : s.IsCurrentBy A) : s.KeepsFrom A (· = s.database) :=
  fun e he => ⟨s.database, rfl, h.current e he⟩

theorem KeepsFrom.of_empty {D : Database → Prop} (h : s.cache.entries = []) : s.KeepsFrom A D := by
  simp [KeepsFrom, h]

theorem KeepsFrom.imp {D D' : Database → Prop} (h : s.KeepsFrom A D) (hD : ∀ db, D db → D' db) : s.KeepsFrom A D' :=
  fun e he => (h e he).imp fun db hdb => hdb.imp_left (hD db)

section KeepsFrom

variable {t : Store} {D : Database → Prop} (h : s.KeepsFrom A D)

include h

theorem KeepsFrom.remains (hr : s.cache.Remains t.cache) : t.KeepsFrom A D := by
  rcases hr with hsame | hnone
  · intro e he
    exact h e (hsame ▸ he)
  · exact .of_empty hnone

theorem KeepsFrom.askDatabase {α : Type} (f : Database → Except Fault α) : ((Store.askDatabase f).run s).2.KeepsFrom A D :=
  h.remains (s.askDatabase_remains f).1

theorem KeepsFrom.fetchKinds (hd : D s.database) (hk : A kinds) (q : Query) :
    ((Store.fetchKinds q kinds).run s).2.KeepsFrom A D := by
  have hasked := h.askDatabase q.run
  rcases s.fetchKinds_cases q kinds with hs | hs | ⟨rows, hrows, hs⟩ <;> rw [hs]
  · exact h
  · exact hasked
  · intro e he
    rcases Cache.mem_of_keep he with rfl | he
    · rcases s.askDatabase_cases q.run with ⟨_, _, _, hrun, hsome, _⟩ | ⟨hnone, _⟩
      · obtain rfl := Option.some.inj (hsome.symm.trans hrows)
        exact ⟨s.database, hd, q, kinds, _, hk, rfl, hrun, rfl⟩
      · rw [hnone] at hrows
        cases hrows
    · exact hasked e he

/-- A kept answer is that of its query to a filter with the same text. -/
theorem KeepsFrom.of_find? (hk : s.cache.find? (q.key kinds) = some rows) :
    ∃ db found kinds', D db ∧ q.run db = .ok found ∧ A kinds' ∧
      Query.kindsText kinds' = Query.kindsText kinds ∧ rows = keepKinds kinds' found := by
  obtain ⟨db, hd, q', kinds', found, ha, hkey, hrun, hrows⟩ := h _ (Cache.mem_of_find? hk)
  obtain ⟨rfl, htext⟩ := Query.key_eq_iff.mp hkey
  exact ⟨db, found, kinds', hd, hrun, ha, htext, hrows⟩

/-- What was kept under the key of a lookup was filtered as the key tells. -/
theorem KeepsFrom.fetchKinds_filtered (q : Query) (kinds : List String) :
    (∃ db kinds', D db ∧ A kinds' ∧ Query.kindsText kinds' = Query.kindsText kinds ∧
      ((Store.fetchKinds q kinds).run s).1 = found q kinds' db) ∨
    s.Answered (· = found q kinds s.database) ((Store.fetchKinds q kinds).run s).1 := by
  rw [fetchKinds_answer]
  by_cases hlarge : q.isTooLarge
  · exact .inr (.inl (by rw [found, if_pos hlarge, if_pos hlarge]))
  have hfound : ∀ {db kinds rows}, q.run db = .ok rows → keepKinds kinds rows = found q kinds db :=
    fun hrun => (found_of_run (Bool.eq_false_iff.mpr hlarge) hrun).symm
  rw [if_neg hlarge]
  cases hkept : (if s.options.useCache then s.cache.find? (q.key kinds) else none) with
  | some kept =>
      obtain ⟨db, all, kinds', hd, hrun, ha, htext, rfl⟩ := h.of_find? (Option.ite_none_right_eq_some.mp hkept).2
      exact .inl ⟨db, kinds', hd, ha, htext, hfound hrun⟩
  | none =>
      right
      rw [Option.none_or]
      by_cases hr : s.Readable
      · obtain ⟨c, hc, hno⟩ := hr
        rw [askDatabase_answer hc hno, found, if_neg hlarge]
        exact .inl rfl
      · rcases s.askDatabase_cases q.run with ⟨all, _, _, hrun, hsome, _⟩ | ⟨hnone, _⟩
        · rw [hsome]
          exact .inl (hfound hrun)
        · rw [hnone]
          exact .inr ⟨hr, rfl⟩

/-- Rows that are answered were found in tables from which answers are kept, or are found in what the session sees. -/
theorem KeepsFrom.fetchKinds_found (ht : Told A kinds) (q : Query) : ((Store.fetchKinds q kinds).run s).1 = [] ∨
    (∃ db, D db ∧ ((Store.fetchKinds q kinds).run s).1 = found q kinds db) ∨
    ((Store.fetchKinds q kinds).run s).1 = found q kinds s.database ∧
      ((Store.fetchKinds q kinds).run s).2.database = s.database := by
  rcases h.fetchKinds_filtered q kinds with ⟨db, kinds', hd, ha, htext, hfound⟩ | hfound | ⟨_, hnone⟩
  · exact .inr (.inl ⟨db, hd, ht kinds' ha htext ▸ hfound⟩)
  · exact (s.fetchKinds_sees q kinds).imp_right fun hsame => .inr ⟨hfound, hsame⟩
  · exact .inl hnone

/-- Whatever filters there were, the rows are of such tables, and the query accepts them there. -/
theorem KeepsFrom.mem_fetchKinds (hd : D s.database) {r : Row} (hr : r ∈ ((Store.fetchKinds q kinds).run s).1) :
    ∃ db, D db ∧ r ∈ db.tags ∧ q.accepts db r := by
  rcases h.fetchKinds_filtered q kinds with ⟨db, kinds', hdb, _, _, hfound⟩ | hfound | ⟨_, hnone⟩
  · exact ⟨db, hdb, mem_found (hfound ▸ hr)⟩
  · exact ⟨s.database, hd, mem_found (hfound ▸ hr)⟩
  · rw [hnone] at hr
    cases hr

end KeepsFrom

/-- All tables that the session may come to see before anything is written, and those of which it has kept answers, are
as `I` says. -/
structure DrawsFrom (A : List String → Prop) (I : Database → Prop) (s : Store) : Prop where
  kept : s.KeepsFrom A I
  tables : ∀ p, PlaceState.All I (s.stateAt p)

section DrawsFrom

variable {t : Store} {I : Database → Prop} (hI : ∀ db db', db.SameTables db' → I db → I db') (h0 : I {})

include h0

theorem DrawsFrom.database (h : s.DrawsFrom A I) : I s.database := PlaceState.All.database h0 h.tables

include hI

theorem DrawsFrom.reads (h : s.DrawsFrom A I) (hk : t.KeepsFrom A I) (hr : Reads s t) : t.DrawsFrom A I where
  kept := hk
  tables p := .or_blank hI h0 ((h.tables p).reads hI (hr p))

theorem DrawsFrom.moves {c : Connection} (h : s.DrawsFrom A I) (hc : s.connection = some c) (hm : Moves s c s.database t) :
    t.DrawsFrom A I :=
  h.reads hI h0 (h.kept.remains (.inl hm.cache)) (hm.reads hc (.refl _))

theorem DrawsFrom.askDatabase {α : Type} (h : s.DrawsFrom A I) (f : Database → Except Fault α) :
    ((Store.askDatabase f).run s).2.DrawsFrom A I :=
  h.reads hI h0 (h.kept.askDatabase f) (s.askDatabase_reads f)

theorem DrawsFrom.fetchKinds (h : s.DrawsFrom A I) (hk : A kinds) (q : Query) :
    ((Store.fetchKinds q kinds).run s).2.DrawsFrom A I :=
  h.reads hI h0 (h.kept.fetchKinds (h.database h0) hk q) (s.fetchKinds_reads q kinds)

theorem DrawsFrom.ask (h : s.DrawsFrom A I) (hA : A []) {question : Question} (hq : question.FiltersBy A) :
    (question.ask s).DrawsFrom A I :=
  ask_keeps hA (fun q _ hk _ ht => ht.fetchKinds hI h0 hk q) (fun hc hm ht => ht.moves hI h0 hc hm)
    (fun {u} e ht => ht.reads hI h0 (ht.kept.remains (u.heal_remains e).1) (heal_reads u e)) hq h

end DrawsFrom

/-- What is true of the tables all along a run is true also of those of which the session has kept answers, whether they
were taken back or not. -/
theorem After.drawsFrom {P : Store → Step → Prop} {I : Database → Prop}
    (hI : ∀ db db', db.SameTables db' → I db → I db') (h0 : I {})
    (hall : ∀ {s : Store}, s.After P → ∀ p, PlaceState.All I (s.stateAt p)) (h : s.After P) :
    s.DrawsFrom (fun _ => True) I := by
  refine ⟨?_, hall h⟩
  induction h with
  | new h _ => exact .of_empty h.cache
  | @next s step hs ha _ ih =>
      by_cases hask : ∃ question, step = .ask question
      · obtain ⟨question, rfl⟩ := hask
        exact (DrawsFrom.ask hI h0 ⟨ih, hall hs⟩ trivial question.filtersBy_true).kept
      · exact ih.remains (Step.act_remains s fun question he => hask ⟨question, he⟩)

theorem Reachable.drawsFrom {I : Database → Prop} (hI : Kept I) (h0 : I {}) (h : s.Reachable) :
    s.DrawsFrom (fun _ => True) I :=
  After.drawsFrom (fun _ _ => hI.aboutTags.sameTables) h0 (fun hs => Reachable.all_of_kept hI h0 hs) h

theorem Reachable.keepsFrom_sound (h : s.Reachable) : s.KeepsFrom (fun _ => True) Database.Sound :=
  (h.drawsFrom Batch.kept_sound Database.sound_empty).kept

theorem IsCurrentBy.fetchKinds_filtered (h : s.IsCurrentBy A) (q : Query) (kinds : List String) :
    ∃ kinds', (kinds' = kinds ∨ A kinds' ∧ Query.kindsText kinds' = Query.kindsText kinds) ∧
      s.Answered (· = found q kinds' s.database) ((Store.fetchKinds q kinds).run s).1 := by
  rcases h.keepsFrom.fetchKinds_filtered q kinds with ⟨_, kinds', rfl, ha, htext, hfound⟩ | hanswer
  · exact ⟨kinds', .inr ⟨ha, htext⟩, .inl hfound⟩
  · exact ⟨kinds, .inl rfl, hanswer⟩

/-- A lookup of rows answers what its query finds, or nothing if the file refuses. -/
theorem IsCurrentBy.fetchKinds_answers (h : s.IsCurrentBy A) (ht : Told A kinds) (q : Query) :
    s.Answered (· = found q kinds s.database) ((Store.fetchKinds q kinds).run s).1 := by
  obtain ⟨kinds', rfl | ⟨ha, htext⟩, hanswer⟩ := h.fetchKinds_filtered q kinds
  · exact hanswer
  · rwa [ht kinds' ha htext] at hanswer

theorem IsCurrentBy.fetchKinds_found (h : s.IsCurrentBy A) (ht : Told A kinds) (q : Query) :
    ((Store.fetchKinds q kinds).run s).1 = found q kinds s.database ∨ ((Store.fetchKinds q kinds).run s).1 = [] :=
  (h.fetchKinds_answers ht q).imp_right And.right

/-- Whatever filters there were, the rows are of the table, and the query accepts them. -/
theorem IsCurrentBy.mem_fetchKinds (h : s.IsCurrentBy A) {r : Row} (hr : r ∈ ((Store.fetchKinds q kinds).run s).1) :
    r ∈ s.database.tags ∧ q.accepts s.database r := by
  obtain ⟨_, rfl, hfound⟩ := h.keepsFrom.mem_fetchKinds rfl hr
  exact hfound

theorem IsCurrentBy.fetchKinds_answered (h : s.IsCurrentBy A) (hq : q.isTooLarge = false) (ht : Told A kinds)
    (hrun : q.run s.database = .ok rows) :
    s.Answered (· = keepKinds kinds rows) ((Store.fetchKinds q kinds).run s).1 :=
  (h.fetchKinds_answers ht q).imp fun hfound => hfound.trans (found_of_run hq hrun)

/-- Without a filter the answer is that of the query. -/
theorem IsCurrentBy.fetch_answered (h : s.IsCurrentBy A) (hq : q.isTooLarge = false)
    (hrun : q.run s.database = .ok rows) : s.Answered (· = rows) ((Store.fetch q).run s).1 :=
  h.fetchKinds_answered hq (fun _ _ htext => Query.kindsText_eq_empty htext) hrun

/-- A query for one row finds the first one. -/
theorem IsCurrentBy.head?_answered (h : s.IsCurrentBy A) (hq : q.isTooLarge = false)
    (hrun : q.run s.database = .ok (rows.take 1)) : ((Store.fetch q).run s).1.head? = rows.head? ∨
      ¬ s.Readable ∧ ((Store.fetch q).run s).1.head? = none := by
  rcases h.fetch_answered hq hrun with hrows | ⟨hr, hnone⟩
  · left
    rw [hrows]
    cases rows <;> rfl
  · right
    rw [hnone]
    exact ⟨hr, rfl⟩

theorem PlainlyAsked.fetchKinds_answered (h : s.PlainlyAsked) (hq : q.isTooLarge = false)
    (hk : Query.PlainKinds kinds) (hrun : q.run s.database = .ok rows) :
    s.Answered (· = keepKinds kinds rows) ((Store.fetchKinds q kinds).run s).1 :=
  h.isCurrentBy.fetchKinds_answered hq (fun _ hk' => Query.kindsText_injective hk' hk) hrun

end Store
end TagIndex
