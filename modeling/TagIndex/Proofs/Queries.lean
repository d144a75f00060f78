import TagIndex.Proofs.Tables
import TagIndex.Store.Lookup

/-!
# What queries answer

A query without overlong patterns answers the first of its rows. Where the rows are visited by id and no
order is asked for, or that of ids, these are the accepted rows as they stand in the table.
-/

namespace TagIndex

variable {db : Database}

/-! ## Patterns -/

/-- Whether a condition compares something with an overlong pattern. -/
def Condition.isTooLong : Condition → Bool
  | column _ t | globalNamed t => t.isTooLong
  | onLine _ | atOrBefore _ => false

theorem Condition.meetsTooLong_of_holds {r : Row} {test : Test} {column : TextColumn} {cs : List Condition}
    (hc : .column column test ∈ cs) (hl : test.isTooLong) (hr : ∀ c ∈ cs, c.holds db r) :
    Condition.meetsTooLong db r cs := by
  induction cs with
  | nil => cases hc
  | cons c cs ih =>
      have hholds := hr c List.mem_cons_self
      rcases List.mem_cons.mp hc with rfl | hc
      · simp [meetsTooLong, hl]
      · have hrest := ih hc fun c hm => hr c (List.mem_cons_of_mem _ hm)
        cases c <;> simp_all [meetsTooLong, holds]

/-! ## Visits -/

namespace Walk

theorem transCmp (w : Walk) : Std.TransCmp fun a b => w.compare a b := by
  cases w with
  | byId => exact inferInstanceAs (Std.TransCmp (compareOn fun r : Row => r.id))
  | byKind =>
      exact inferInstanceAs (Std.TransCmp (compareLex (compareOn fun r : Row => r.tag.kind)
        (compareOn fun r => r.id)))
  | byKey =>
      exact inferInstanceAs (Std.TransCmp (compareLex (compareOn fun r : Row => r.tag.kind)
        (compareLex (compareOn fun r => r.tag.path) (compareLex (compareOn fun r => r.tag.signature)
          (compareLex (compareOn fun r => r.tag.typeref) (compareLex (compareOn fun r => r.tag.templateDefinition)
            (compareOn fun r => r.id)))))))
  | byPath =>
      exact inferInstanceAs (Std.TransCmp (compareLex (compareOn fun r : Row => r.tag.path)
        (compareOn fun r => r.id)))
  | byScope =>
      exact inferInstanceAs (Std.TransCmp (compareLex (compareOn fun r : Row => r.tag.scope)
        (compareOn fun r => r.id)))
  | byName =>
      exact inferInstanceAs (Std.TransCmp (compareLex (compareOn fun r : Row => r.tag.name)
        (compareOn fun r => r.id)))

/-- Every visit tells rows apart by their ids in the end. -/
theorem id_eq {w : Walk} {a b : Row} (hab : (w.compare a b).isLE) (hba : (w.compare b a).isLE) : a.id = b.id := by
  have hcmp := w.transCmp
  have heq : w.compare a b = .eq := @Std.OrientedCmp.isLE_antisymm _ (fun a b => w.compare a b) _ a b hab hba
  cases w <;> simp_all [Walk.compare, Ordering.then_eq_eq]

theorem pairwise_mergeSort (w : Walk) (rows : List Row) :
    (rows.mergeSort fun a b => (w.compare a b).isLE).Pairwise fun a b => (w.compare a b).isLE := by
  have hcmp := w.transCmp
  refine List.pairwise_mergeSort (fun a b c => @Std.TransCmp.isLE_trans _ (fun a b => w.compare a b) hcmp a b c) ?_ _
  intro a b
  have hswap : w.compare a b = (w.compare b a).swap := @Std.OrientedCmp.eq_swap _ (fun a b => w.compare a b) _ a b
  rw [hswap]
  cases w.compare b a <;> rfl

end Walk

namespace Query

variable {q : Query} {rows : List Row} {limit : Nat} {r : Row}

theorem meetsTooLong_eq_false (h : ∀ c ∈ q.conditions, c.isTooLong = false) :
    q.meetsTooLong db = false := by
  have hrow : ∀ (r : Row) (cs : List Condition), (∀ c ∈ cs, c.isTooLong = false) →
      Condition.meetsTooLong db r cs = false := by
    intro r cs hcs
    induction cs with
    | nil => rfl
    | cons c cs ih =>
        have hc := hcs c List.mem_cons_self
        have hrest := ih fun c' hm => hcs c' (List.mem_cons_of_mem _ hm)
        cases c <;> simp_all [Condition.meetsTooLong, Condition.isTooLong]
  have hglobal : ∀ c ∈ q.conditions, c.meetsTooLongGlobal db = false := by
    intro c hm
    have hc := h c hm
    cases c <;> simp_all [Condition.meetsTooLongGlobal, Condition.isTooLong]
  simp only [meetsTooLong, Bool.or_eq_false_iff, List.any_eq_false, Bool.not_eq_true]
  exact ⟨hglobal, fun r _ => hrow r q.conditions h⟩

/-! ## The limit -/

theorem run_of_not_tooLong (hl : q.limit ≤ maxLimit) (h : q.meetsTooLong db = false) :
    q.run db = .ok ((q.answers db).take q.limit) := by
  unfold run
  rw [if_neg (Nat.not_lt.mpr hl), h]
  split
  · rename_i h0
    rw [h0, List.take_zero]
  · rfl

theorem run_eq (hl : q.limit ≤ maxLimit) (h : ∀ c ∈ q.conditions, c.isTooLong = false) :
    q.run db = .ok ((q.answers db).take q.limit) :=
  run_of_not_tooLong hl (meetsTooLong_eq_false h)

theorem eq_take_of_run (h : q.run db = .ok rows) : rows = (q.answers db).take q.limit := by
  unfold run at h
  split at h
  · cases h
  split at h
  · rename_i h0
    cases h
    rw [h0, List.take_zero]
  split at h
  · cases h
  · cases h
    rfl

theorem length_le_of_run (h : q.run db = .ok rows) : rows.length ≤ q.limit := by
  rw [eq_take_of_run h]
  exact List.length_take_le _ _

theorem visited_perm (q : Query) (db : Database) : (q.visited db).Perm (db.tags.filter (q.accepts db)) := by
  unfold visited
  dsimp only
  split
  · exact (List.reverse_perm _).trans (List.mergeSort_perm _ _)
  · exact List.mergeSort_perm _ _

theorem answers_perm (q : Query) (db : Database) : (q.answers db).Perm (db.tags.filter (q.accepts db)) := by
  unfold answers
  split
  · exact (List.mergeSort_perm _ _).trans (q.visited_perm db)
  · exact q.visited_perm db

theorem mem_answers : r ∈ q.answers db ↔ r ∈ db.tags ∧ q.accepts db r := by
  rw [(q.answers_perm db).mem_iff, List.mem_filter]

theorem mem_of_run (h : q.run db = .ok rows) (hr : r ∈ rows) : r ∈ db.tags ∧ q.accepts db r := by
  rw [eq_take_of_run h] at hr
  exact mem_answers.mp (List.mem_of_mem_take hr)

/-- A query that would compare a row of its answer with an overlong pattern fails. -/
theorem eq_nil_of_isTooLong {c : Condition} (hc : c ∈ q.conditions) (hl : c.isTooLong)
    (hrun : q.run db = .ok rows) : rows = [] := by
  by_contra hne
  obtain ⟨r, hr⟩ := List.exists_mem_of_ne_nil rows hne
  obtain ⟨hmem, haccepts⟩ := mem_of_run hrun hr
  have hholds : ∀ c ∈ q.conditions, c.holds db r := List.all_eq_true.mp haccepts
  have hlong : q.meetsTooLong db := by
    rw [meetsTooLong, Bool.or_eq_true]
    cases c with
    | column column t =>
        exact .inr (List.any_eq_true.mpr ⟨r, hmem, Condition.meetsTooLong_of_holds hc hl hholds⟩)
    | globalNamed t =>
        obtain ⟨g, hg, _⟩ := List.any_eq_true.mp (hholds _ hc)
        refine .inl (List.any_eq_true.mpr ⟨_, hc, ?_⟩)
        have hl : t.isTooLong = true := hl
        simpa [Condition.meetsTooLongGlobal, hl] using List.ne_nil_of_mem hg
    | onLine n => cases hl
    | atOrBefore n => cases hl
  unfold run at hrun
  split at hrun
  · cases hrun
  split at hrun
  · cases hrun
    cases hr
  · cases hrun

/-! ## The order of a visit -/

theorem visited_eq (hb : q.isBackward = false) : q.visited db =
    (db.tags.filter (q.accepts db)).mergeSort fun a b => (q.walk.compare a b).isLE := by
  rw [visited, hb]
  rfl

theorem pairwise_visited (hb : q.isBackward = false) :
    (q.visited db).Pairwise fun a b => (q.walk.compare a b).isLE := by
  rw [visited_eq hb]
  exact q.walk.pairwise_mergeSort _

theorem visited_byId (hs : db.Sound) (hw : q.walk = .byId) (hb : q.isBackward = false) :
    q.visited db = db.tags.filter (q.accepts db) := by
  have hsorted : (db.tags.filter (q.accepts db)).Pairwise fun a b => (q.walk.compare a b).isLE := by
    refine (hs.ascending.filter _).imp fun {a b} hab => ?_
    rw [hw]
    exact Nat.isLE_compare.mpr (Nat.le_of_lt hab)
  rw [visited_eq hb, List.mergeSort_of_pairwise hsorted]

theorem answers_of_unsorted (hs : db.Sound) (hw : q.walk = .byId) (hsort : q.sorting = none) :
    q.answers db = db.tags.filter (q.accepts db) := by
  have hb : q.isBackward = false := by simp [isBackward, hsort]
  rw [answers, hsort]
  exact visited_byId hs hw hb

theorem answers_of_ascending_id (hs : db.Sound) (hw : q.walk = .byId)
    (hsort : q.sorting = some (.ascending .id)) : q.answers db = db.tags.filter (q.accepts db) := by
  have hb : q.isBackward = false := by simp [isBackward, hsort, Sorting.ascending]
  have hsorted : (db.tags.filter (q.accepts db)).Pairwise
      fun a b => (Sorting.ascending .id).le a b := by
    refine (hs.ascending.filter _).imp fun {a b} hab => ?_
    exact Nat.isLE_compare.mpr (Nat.le_of_lt hab)
  rw [answers, hsort]
  show (q.visited db).mergeSort (Sorting.ascending .id).le = _
  rw [visited_byId hs hw hb, List.mergeSort_of_pairwise hsorted]

/-! ## Queries for exact texts -/

/-- The queries by path, by name and by file alone. -/
theorem run_of_text (hs : db.Sound) (c : TextColumn) (text : String) (hl : limit ≤ maxLimit) :
    run { conditions := [.column c (.is text)], limit := limit } db =
      .ok ((db.tags.filter fun r => c.of r.tag = text).take limit) := by
  have haccepts : accepts { conditions := [.column c (.is text)], limit := limit } db =
      fun r => decide (c.of r.tag = text) := by
    funext r
    simp [accepts, Condition.holds, Test.holds]
  rw [run_eq hl (by simp [Condition.isTooLong, Test.isTooLong]),
    answers_of_unsorted hs (by cases c <;> rfl) rfl, haccepts]

theorem isTooLarge_of_text (c : TextColumn) (text : String) (sorting : Option Sorting) (limit : Nat) :
    isTooLarge { conditions := [.column c (.is text)], sorting, limit := limit } = false := by
  simp [isTooLarge, Condition.valueCount, Test.valueCount, maxConditions, maxValues]

/-- The queries for an exact text that order what they find by a column. -/
theorem run_of_text_by (hs : db.Sound) (c : TextColumn) (text : String) (column : SortColumn)
    (hl : limit ≤ maxLimit) :
    run ⟨[.column c (.is text)], some (.ascending column), limit⟩ db = .ok
      (((db.tags.filter fun r => c.of r.tag = text).mergeSort (Sorting.ascending column).le).take limit) := by
  have haccepts : accepts ⟨[.column c (.is text)], some (.ascending column), limit⟩ db =
      fun r => decide (c.of r.tag = text) := by
    funext r
    simp [accepts, Condition.holds, Test.holds]
  rw [run_eq hl (by simp [Condition.isTooLong, Test.isTooLong]), ← haccepts,
    ← visited_byId hs (by cases c <;> rfl) (by cases column <;> rfl)]
  rfl

theorem run_byScope (hs : db.Sound) (scope : String) (hl : limit ≤ maxLimit) :
    (byScope scope limit).run db =
      .ok (((db.tags.filter (·.tag.scope = scope)).mergeSort (Sorting.ascending .name).le).take limit) :=
  run_of_text_by hs .scope scope .name hl

theorem run_byFile (hs : db.Sound) (file : String) (hl : limit ≤ maxLimit) :
    (byFile file limit).run db =
      .ok (((db.rowsOf file).mergeSort (Sorting.ascending .line).le).take limit) :=
  run_of_text_by hs .file file .line hl

theorem run_byPathAndKind (hs : db.Sound) (path : String) {kinds : List String} (hk : kinds ≠ [])
    (hl : limit ≤ maxLimit) : (byPathAndKind path kinds limit).run db =
      .ok (((db.tags.filter (·.tag.path = path)).filter fun r => kinds.contains r.tag.kind).take limit) := by
  obtain ⟨k, kinds, rfl⟩ := List.exists_cons_of_ne_nil hk
  have haccepts : (byPathAndKind path (k :: kinds) limit).accepts db =
      fun r => (k :: kinds).contains r.tag.kind && decide (r.tag.path = path) := by
    funext r
    simp [accepts, byPathAndKind, Condition.holds, Test.holds, TextColumn.of, Bool.and_comm]
  rw [run_eq hl (by simp [byPathAndKind, Condition.isTooLong, Test.isTooLong]),
    answers_of_ascending_id hs rfl rfl, List.filter_filter, haccepts]
  rfl

theorem isTooLarge_byPathAndKind (path : String) {kinds : List String} (hk : kinds.length < maxValues)
    (limit : Nat) : (byPathAndKind path kinds limit).isTooLarge = false := by
  unfold maxValues at hk
  cases kinds with
  | nil => exact isTooLarge_of_text .path path _ limit
  | cons k kinds =>
      rw [List.length_cons] at hk
      simp [isTooLarge, byPathAndKind, Condition.valueCount, Test.valueCount, maxConditions, maxValues]
      omega

theorem run_byKindAndScope (hs : db.Sound) (kind scope : String) (hl : limit ≤ maxLimit) :
    (byKindAndScope kind scope limit).run db =
      .ok ((db.tags.filter fun r => r.tag.kind = kind ∧ r.tag.scope = scope).take limit) := by
  have haccepts : (byKindAndScope kind scope limit).accepts db =
      fun r => decide (r.tag.kind = kind ∧ r.tag.scope = scope) := by
    funext r
    simp [accepts, byKindAndScope, Condition.holds, Test.holds, TextColumn.of]
  rw [run_eq hl (by simp [byKindAndScope, Condition.isTooLong, Test.isTooLong]),
    answers_of_ascending_id hs rfl rfl, haccepts]
  rfl

theorem isTooLarge_byKindAndScope (kind scope : String) (limit : Nat) :
    (byKindAndScope kind scope limit).isTooLarge = false := by
  simp [isTooLarge, byKindAndScope, Condition.valueCount, Test.valueCount, maxConditions, maxValues]

end Query
end TagIndex
