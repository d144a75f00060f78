import TagIndex.Proofs.Asked
import TagIndex.Proofs.Gathering
import TagIndex.Proofs.LargerLimits
import TagIndex.Proofs.ScopeOrder

/-!
# Limits that cut nothing

With a limit of at least the number of tags a query finds every row that it accepts, as long as the limit is a
number to the database. The lookups in several scopes share one limit, which suffices because no row is in two
scopes.
-/

namespace TagIndex

open Lookup Store Query

variable {db : Database} {q q' : Query} {kinds : List String} {r : Row} {limit : Nat}

/-! ## Queries -/

namespace Query

/-- The database takes the query: it is not too large, and it compares nothing with an overlong pattern. -/
structure Taken (db : Database) (q : Query) : Prop where
  small : q.isTooLarge = false
  short : q.meetsTooLong db = false

theorem Taken.congr (h : q.Taken db) (hc : q'.conditions = q.conditions) : q'.Taken db where
  small := by
    rw [← h.small, isTooLarge, isTooLarge, hc]
  short := by
    rw [← h.short, meetsTooLong, meetsTooLong, hc]

theorem length_answers (q : Query) (db : Database) : (q.answers db).length = db.tags.countP (q.accepts db) := by
  rw [List.countP_eq_length_filter, (q.answers_perm db).length_eq]

end Query

namespace Store

/-- A limit for as many rows as the query accepts cuts none of them. -/
theorem mem_found_iff (h : q.Taken db) (hall : db.tags.countP (q.accepts db) ≤ q.limit) (hmax : q.limit ≤ maxLimit) :
    r ∈ found q kinds db ↔ r ∈ db.tags ∧ q.accepts db r ∧ (kinds = [] ∨ r.tag.kind ∈ kinds) := by
  rw [found_of_run h.small (run_of_not_tooLong hmax h.short), mem_keepKinds,
    List.take_of_length_le (Nat.le_trans (Nat.le_of_eq (length_answers q db)) hall), mem_answers, and_assoc]

theorem length_found_le (q : Query) (kinds : List String) (db : Database) :
    (found q kinds db).length ≤ db.tags.countP (q.accepts db) := by
  unfold found
  split
  · exact Nat.zero_le _
  · cases hrun : q.run db with
    | error e => exact Nat.zero_le _
    | ok rows =>
        refine Nat.le_trans (length_keepKinds_le kinds rows) ?_
        rw [eq_take_of_run hrun, ← length_answers]
        exact List.length_take_le' _ _

/-! ## Rows without repetition -/

theorem mem_of_mem_distinctRows {rows : List Row} (h : r ∈ distinctRows rows) : r ∈ rows := by
  have hfold : ∀ kept : List Row, r ∈ (rows.foldl (fun kept r => if kept.any (·.id = r.id) then kept
      else kept ++ [r]) kept) → r ∈ kept ∨ r ∈ rows := by
    clear h
    induction rows with
    | nil => exact fun _ => .inl
    | cons o rows ih =>
        intro kept h
        rw [List.foldl_cons] at h
        have h := ih _ h
        split at h
        · exact h.imp_right (List.mem_cons_of_mem _)
        · simpa [or_assoc] using h
  exact (hfold [] h).resolve_left List.not_mem_nil

theorem mem_byLine (hs : db.Sound) {rows : List Row} (hrows : ∀ r ∈ rows, r ∈ db.tags) :
    r ∈ sortByLine (distinctRows rows) ↔ r ∈ rows := by
  rw [sortByLine, List.mem_mergeSort]
  refine ⟨fun h => mem_of_mem_distinctRows h, fun h => ?_⟩
  have hid : r.id ∈ (distinctRows rows).map (·.id) := by
    rw [← List.count_pos_iff, count_distinctRows, if_pos (List.mem_map_of_mem h)]
    exact Nat.one_pos
  obtain ⟨o, ho, he⟩ := List.mem_map.mp hid
  rwa [← hs.eq_of_id (hrows o (mem_of_mem_distinctRows ho)) (hrows r h) he]

/-! ## Names in several scopes -/

variable {scopes : List String} {test : Test}

theorem mem_namedScopes {scope : String} : scope ∈ namedScopes scopes ↔ scope ∈ scopes ∧ scope ≠ globalScope := by
  simp [namedScopes]

theorem length_flatMap_le {global nested : List Row} (h : scopes.Nodup) :
    (scopes.flatMap (rowsOf global nested)).length ≤ global.length + nested.length := by
  by_cases hm : globalScope ∈ scopes
  · obtain ⟨front, back, hsplit⟩ := flatMap_rowsOf_split h hm
    have hlength := (hsplit global nested).2
    rw [(hsplit global nested).1, List.length_append, List.length_append]
    omega
  · rw [flatMap_rowsOf hm]
    exact Nat.le_trans (length_flatMap_rowsOf_le h nested) (Nat.le_add_left _ _)

theorem mem_flatMap_rowsOf {global nested : List Row} (h : ∀ r ∈ nested, r.tag.scope ∈ namedScopes scopes) :
    r ∈ scopes.eraseDups.flatMap (rowsOf global nested) ↔ globalScope ∈ scopes ∧ r ∈ global ∨ r ∈ nested := by
  simp only [List.mem_flatMap, List.mem_eraseDups, rowsOf]
  constructor
  · rintro ⟨scope, hm, hr⟩
    split at hr
    · exact .inl ⟨‹scope = globalScope› ▸ hm, hr⟩
    · exact .inr (List.mem_of_mem_filter hr)
  · rintro (⟨hm, hr⟩ | hr)
    · exact ⟨globalScope, hm, by rwa [if_pos rfl]⟩
    · obtain ⟨hm, hne⟩ := mem_namedScopes.mp (h r hr)
      refine ⟨r.tag.scope, hm, ?_⟩
      rw [if_neg hne]
      exact List.mem_filter.mpr ⟨hr, decide_eq_true rfl⟩

/-- No row is both in the global scope and in a named one, so what the first query finds leaves enough of the
limit to the second one. -/
theorem mem_joinedNames (hs : db.Sound) (hp : globalScope ∈ scopes → db.Projected)
    (hg : globalScope ∈ scopes → (byScopeAndName globalScope test limit).Taken db)
    (hn : namedScopes scopes ≠ [] → (byScopesAndName (namedScopes scopes) test limit).Taken db)
    (hall : db.tags.length ≤ limit) (hmax : limit ≤ maxLimit) : r ∈ joinedNames scopes test limit db ↔
      r ∈ db.tags ∧ (globalScope ∈ scopes ∧ (byScopeAndName globalScope test limit).accepts db r ∨
        (byScopesAndName (namedScopes scopes) test limit).accepts db r) := by
  rcases Nat.eq_zero_or_pos limit with rfl | hl
  · have hnone : joinedNames scopes test 0 db = [] :=
      List.eq_nil_of_length_eq_zero (Nat.le_zero.mp (length_mergeScopes_le _ _ _ _ (Nat.le_refl 0)))
    have hempty : db.tags = [] := List.eq_nil_of_length_eq_zero (Nat.le_zero.mp hall)
    simp [hnone, hempty]
  -- The two queries want rows of different scopes, so what both want is at most all rows, and the limit cuts neither.
  have hsplit : db.tags.length = (db.tags.countP fun r => r.tag.scope = globalScope) +
      db.tags.countP fun r => r.tag.scope ≠ globalScope := by
    simpa using db.tags.length_eq_countP_add_countP fun r => decide (r.tag.scope = globalScope)
  have hfew : (globalFound scopes test limit db).length ≤ db.tags.countP fun r => r.tag.scope = globalScope := by
    unfold globalFound
    split
    · rename_i hm
      refine Nat.le_trans (length_found_le _ _ _) (List.countP_mono_left fun r hr ha => ?_)
      have hglobal := (accepts_byScopeAndName (fun _ => ⟨hs, hp (List.contains_iff_mem.mp hm)⟩) hr).mp ha
      exact decide_eq_true hglobal.1
    · exact Nat.zero_le _
  have hrest : ∀ limit, db.tags.countP ((byScopesAndName (namedScopes scopes) test limit).accepts db) ≤
      db.tags.countP fun r => r.tag.scope ≠ globalScope := by
    refine fun limit => List.countP_mono_left fun r _ ha => decide_eq_true ?_
    exact (mem_namedScopes.mp (byScopesAndName_accepts.mp ha).1).2
  have hmemg : globalScope ∈ scopes → (r ∈ globalFound scopes test limit db ↔
      r ∈ db.tags ∧ (byScopeAndName globalScope test limit).accepts db r) := by
    intro hm
    rw [globalFound, if_pos (List.contains_iff_mem.mpr hm),
      mem_found_iff (hg hm) (Nat.le_trans List.countP_le_length hall) hmax]
    simp
  have hmemn : r ∈ nestedFound scopes test limit db ↔
      r ∈ db.tags ∧ (byScopesAndName (namedScopes scopes) test limit).accepts db r := by
    by_cases hnone : namedScopes scopes = []
    · rw [nestedFound_of_isEmpty (by simp [hnone]), byScopesAndName_accepts, hnone]
      simp
    · have hleft := hrest (remaining limit (globalFound scopes test limit db).length)
      have htaken : (byScopesAndName (namedScopes scopes) test
          (remaining limit (globalFound scopes test limit db).length)).Taken db := (hn hnone).congr rfl
      rw [nestedFound, mem_found_iff htaken (Nat.le_trans hleft ?_) (remaining_le hmax _)]
      · simp [byScopesAndName_accepts]
      · show _ ≤ max _ 1
        omega
  have hscopes : ∀ r ∈ nestedFound scopes test limit db, r.tag.scope ∈ namedScopes scopes :=
    fun r hr => (byScopesAndName_accepts.mp (mem_found hr).2).1
  have hfit : (scopes.eraseDups.flatMap (rowsOf (globalFound scopes test limit db)
      (nestedFound scopes test limit db))).length ≤ limit := by
    have hnested : (nestedFound scopes test limit db).length ≤ _ := Nat.le_trans (length_found_le _ _ _) (hrest _)
    refine Nat.le_trans (length_flatMap_le (nodup_eraseDups scopes)) ?_
    omega
  rw [joinedNames_eq hl, List.take_of_length_le hfit, mem_flatMap_rowsOf hscopes, hmemn]
  by_cases hm : globalScope ∈ scopes
  · rw [hmemg hm]
    simp only [hm, true_and]
    exact and_or_left.symm
  · simp [hm]

/-! ## Kinds in several scopes -/

theorem countP_scopes_le {scope : String} {done : List String} (h : scope ∉ done) (rows : List Row) :
    (rows.countP fun r => r.tag.scope = scope) + (rows.countP fun r => r.tag.scope ∈ done) ≤
      rows.countP fun r => r.tag.scope ∈ scope :: done := by
  induction rows with
  | nil => exact Nat.le_refl 0
  | cons r rows ih =>
      simp only [List.countP_cons, List.mem_cons, decide_eq_true_eq] at ih ⊢
      by_cases hr : r.tag.scope = scope
      · simp only [hr, h, if_true, if_false, true_or]
        omega
      · simp only [hr, if_false, false_or]
        omega

/-- The rows gathered so far are at most those of the scopes so far, so there is as much left of the limit as
there are rows in the others. -/
theorem mem_gathered_iff (ht : ∀ scope ∈ scopes, (byScope scope limit).Taken db) (hall : db.tags.length ≤ limit)
    (hmax : limit ≤ maxLimit) (hd : scopes.Nodup) {done : List String} (hdone : ∀ scope ∈ scopes, scope ∉ done)
    {tags : List Row} (htags : tags.length ≤ db.tags.countP fun r => r.tag.scope ∈ done) :
    r ∈ gathered limit kinds db scopes tags ↔
      r ∈ tags ∨ r ∈ db.tags ∧ r.tag.scope ∈ scopes ∧ (kinds = [] ∨ r.tag.kind ∈ kinds) := by
  induction scopes generalizing tags done with
  | nil => simp [gathered]
  | cons scope scopes ih =>
      obtain ⟨hnot, hrest⟩ := List.nodup_cons.mp hd
      let left := remaining limit tags.length
      have haccepts : (byScope scope left).accepts db = fun r => decide (r.tag.scope = scope) := by
        funext r
        simp [accepts, byScope, Condition.holds, Test.holds, TextColumn.of]
      have hcount := countP_scopes_le (hdone scope List.mem_cons_self) db.tags
      have hbound : (db.tags.countP fun r => r.tag.scope ∈ scope :: done) ≤ db.tags.length := List.countP_le_length
      have htaken : (byScope scope left).Taken db := (ht scope List.mem_cons_self).congr rfl
      have hleft : db.tags.countP ((byScope scope left).accepts db) ≤ left := by
        rw [haccepts]
        show _ ≤ max _ 1
        omega
      have hfound : r ∈ found (byScope scope left) kinds db ↔
          r ∈ db.tags ∧ r.tag.scope = scope ∧ (kinds = [] ∨ r.tag.kind ∈ kinds) := by
        rw [mem_found_iff htaken hleft (remaining_le hmax _), haccepts, decide_eq_true_eq]
      have hlength : (found (byScope scope left) kinds db).length ≤ db.tags.countP fun r => r.tag.scope = scope :=
        haccepts ▸ length_found_le _ _ _
      have hfar : (tags ++ found (byScope scope left) kinds db).length ≤
          db.tags.countP fun r => r.tag.scope ∈ scope :: done := by
        rw [List.length_append]
        omega
      have hothers : ∀ other ∈ scopes, other ∉ scope :: done := by
        intro other hm hdone'
        rcases List.mem_cons.mp hdone' with rfl | hdone'
        · exact hnot hm
        · exact hdone other (List.mem_cons_of_mem _ hm) hdone'
      rw [gathered]
      split
      · -- All rows there are stand in the scopes so far.
        rename_i hend
        change limit ≤ (tags ++ found (byScope scope left) kinds db).length at hend
        have hwhole : ∀ r ∈ db.tags, r.tag.scope ∈ scope :: done := by
          have hlen : (db.tags.countP fun r => r.tag.scope ∈ scope :: done) = db.tags.length := by omega
          exact fun r hr => of_decide_eq_true (List.countP_eq_length.mp hlen r hr)
        have hnone : r ∈ db.tags → r.tag.scope ∉ scopes := fun hr hm => hothers _ hm (hwhole r hr)
        rw [List.mem_append, hfound, List.mem_cons]
        exact or_congr_right (and_congr_right fun hr => and_congr_left fun _ => (or_iff_left (hnone hr)).symm)
      · rw [ih (fun scope hm => ht scope (List.mem_cons_of_mem _ hm)) hrest hothers hfar, List.mem_append, hfound,
          List.mem_cons, or_assoc, ← and_or_left, ← or_and_right]

theorem gathered_of_large_limit (h : maxLimit < limit) : gathered limit kinds db scopes [] = [] :=
  List.eq_nil_iff_forall_not_mem.mpr fun _ hr => Nat.not_le.mpr h (le_maxLimit_of_mem_gathered hr)

/-! ## Lookups -/

variable {A : List String → Prop} {o : Options} {s : Store}

theorem serves_fileScopedTags (hA : A []) (hn : Told A []) (hk : A kinds) (ht : Told A kinds) {file : String}
    (hf : file ≠ "") (name : String) : Meets (Serves A o db) (fileScopedTags file name kinds)
      (· = sortByLine (distinctRows (found (anonymousOfFile file name o.searchLimit) kinds db ++
        found (membersOfFile file name o.searchLimit) [] db))) := by
  rw [fileScopedTags, if_neg hf]
  refine serves_searchLimit.bind fun limit hlimit => (serves_fetchKinds hk ht _).bind fun anonymous ha => ?_
  refine serves_searchLimit.bind fun limit' hlimit' => (serves_fetchKinds hA hn _).bind fun members hm => .pure ?_
  rw [ha, hm, hlimit, hlimit']

theorem rowsAsked_eq (h : s.Serves A o db) {asked : List Asked} (hk : ∀ a ∈ asked, A a.2 ∧ Told A a.2) :
    s.rowsAsked asked = asked.flatMap fun a => found a.1 a.2 db :=
  List.flatMap_congr fun a ha => (serves_fetchKinds (hk a ha).1 (hk a ha).2 a.1 s h).2

end Store

namespace Question

variable {question : Question} {A A' : List String → Prop} {o : Options} {s : Store}

theorem FiltersBy.imp (h : question.FiltersBy A) (hA : ∀ kinds, A kinds → A' kinds) : question.FiltersBy A' := by
  cases question with
  | fileScopedTags | tagsByScopesAndKind | tagsByKindAndPath => exact hA _ h
  | _ => trivial

/-- The rows that a lookup looks for: one of its queries accepts them, with a kind that is asked for, and they
have the parent that is asked for. -/
def Wants (question : Question) (o : Options) (db : Database) (r : Row) : Prop :=
  (∃ a ∈ question.queries o.caseSensitive o.searchLimit, a.1.accepts db r ∧ (a.2 = [] ∨ r.tag.kind ∈ a.2)) ∧
    ∀ parent ∈ question.parent?, r.tag.parent = parent

/-- What lookups in several scopes rely on: that no scope is listed twice where kinds are looked for, and where
names are, that the projection of the global scope is right. -/
def WellScoped (db : Database) : Question → Prop
  | tagsByScopesAndKind scopes _ => scopes.Nodup
  | tagsByScopesAndName scopes _ _ => globalScope ∈ scopes → db.Projected
  | _ => True

theorem mem_narrow {rows : List Row} :
    r ∈ question.narrow rows ↔ r ∈ rows ∧ ∀ parent ∈ question.parent?, r.tag.parent = parent := by
  unfold narrow
  cases question.parent? with
  | none => simp
  | some parent => simp

/-- A lookup that asks nothing answers nothing. -/
theorem tags_of_no_queries (h : question.queries s.options.caseSensitive s.options.searchLimit = []) :
    (question.tags.run s).1 = [] := by
  by_cases hone : question.AsksOnce
  · have hgives : (question.tags.run s).1 = _ := gives_of_asksOnce hone s
    rw [hgives, h, rowsAsked, List.flatMap_nil, narrow]
    split <;> rfl
  cases question with
  | fileScopedTags file name kinds =>
      have hf : file = "" := by simpa [queries] using h
      rw [tags, Store.fileScopedTags, if_pos hf]
      rfl
  | tagsByScopesAndName scopes name isPartial =>
      have hnone : scopes.isEmpty ∨ name = "" := by
        by_cases hname : name = ""
        · exact .inr hname
        · simp only [queries, hname, if_false, List.append_eq_nil_iff, ite_eq_right_iff, List.isEmpty_iff] at h
          refine .inl (List.isEmpty_iff.mpr (List.eq_nil_iff_forall_not_mem.mpr fun scope hm => ?_))
          by_cases hg : scope = globalScope
          · cases h.1 (hg ▸ hm)
          · have hnamed : scope ∈ namedScopes scopes := mem_namedScopes.mpr ⟨hm, hg⟩
            by_cases hn : namedScopes scopes = []
            · exact List.not_mem_nil (hn ▸ hnamed)
            · simp [hn] at h
      rw [tags, Store.tagsByScopesAndName, if_pos hnone]
      rfl
  | tagsByScopesAndKind scopes kinds =>
      have hnone : kinds.isEmpty ∨ scopes.isEmpty := by
        by_cases hk : kinds = []
        · simp [hk]
        · simpa [queries, hk] using h
      rw [tags, Store.tagsByScopesAndKind, if_pos hnone]
      rfl
  | _ => exact absurd trivial hone

section Serving

variable (hs : s.Serves A o db) (hA : A []) (hn : Told A []) (hk : question.FiltersBy fun kinds => A kinds ∧ Told A kinds)

include hs hA hn hk

theorem tags_of_asksOnce (h : question.AsksOnce) : (question.tags.run s).1 =
    question.narrow ((question.queries o.caseSensitive o.searchLimit).flatMap fun a => found a.1 a.2 db) := by
  have hgives : (question.tags.run s).1 = _ := gives_of_asksOnce h s
  rw [hgives, hs.options, rowsAsked_eq hs fun a ha => (queries_spec ⟨hA, hn⟩ hk ha).2]

/-- A limit that is a number to the database and suffices for all tags cuts none of the wanted rows. -/
theorem mem_tags_iff (hsound : db.Sound) (hscoped : question.WellScoped db)
    (htaken : ∀ a ∈ question.queries o.caseSensitive o.searchLimit, a.1.Taken db)
    (hall : db.tags.length ≤ question.limitOf o.searchLimit) (hmax : question.limitOf o.searchLimit ≤ maxLimit) :
    r ∈ (question.tags.run s).1 ↔ r ∈ db.tags ∧ question.Wants o db r := by
  have hfound : ∀ a ∈ question.queries o.caseSensitive o.searchLimit, r ∈ found a.1 a.2 db ↔
      r ∈ db.tags ∧ a.1.accepts db r ∧ (a.2 = [] ∨ r.tag.kind ∈ a.2) := by
    intro a ha
    have hlimit := (queries_spec ⟨hA, hn⟩ hk ha).1
    exact mem_found_iff (htaken a ha) (hlimit ▸ Nat.le_trans List.countP_le_length hall) (hlimit ▸ hmax)
  by_cases hone : question.AsksOnce
  · have hrows : (r ∈ (question.queries o.caseSensitive o.searchLimit).flatMap fun a => found a.1 a.2 db) ↔
        r ∈ db.tags ∧ ∃ a ∈ question.queries o.caseSensitive o.searchLimit,
          a.1.accepts db r ∧ (a.2 = [] ∨ r.tag.kind ∈ a.2) := by
      rw [List.mem_flatMap]
      constructor
      · rintro ⟨a, ha, hr⟩
        exact ⟨((hfound a ha).mp hr).1, a, ha, ((hfound a ha).mp hr).2⟩
      · rintro ⟨hr, a, ha, hwants⟩
        exact ⟨a, ha, (hfound a ha).mpr ⟨hr, hwants⟩⟩
    rw [tags_of_asksOnce hs hA hn hk hone, mem_narrow, hrows, and_assoc]
    rfl
  by_cases hasks : question.queries o.caseSensitive o.searchLimit = []
  · rw [tags_of_no_queries (hs.options ▸ hasks)]
    simp [Wants, hasks]
  cases question with
  | fileScopedTags file name kinds =>
      have hf : file ≠ "" := fun hf => hasks (by simp [queries, hf])
      have hrows : ∀ r ∈ found (anonymousOfFile file name o.searchLimit) kinds db ++
          found (membersOfFile file name o.searchLimit) [] db, r ∈ db.tags :=
        fun r hr => (List.mem_append.mp hr).elim (fun hr => (mem_found hr).1) fun hr => (mem_found hr).1
      simp only [queries, if_neg hf, List.forall_mem_cons] at hfound
      rw [tags, (serves_fileScopedTags hA hn hk.1 hk.2 hf name s hs).2, mem_byLine hsound hrows, List.mem_append,
        hfound.1, hfound.2.1, ← and_or_left]
      simp [Wants, queries, hf, parent?]
  | tagsByScopesAndName scopes name isPartial =>
      have hname : name ≠ "" := fun hname => hasks (by simp [queries, hname])
      simp only [queries, if_neg hname, List.forall_mem_append] at htaken
      have hglobal : globalScope ∈ scopes → _ := fun hm => htaken.1 _ (by rw [if_pos hm]; exact List.mem_singleton_self _)
      have hnamed : namedScopes scopes ≠ [] → _ :=
        fun hne => htaken.2 _ (by rw [if_neg (by simpa using hne)]; exact List.mem_singleton_self _)
      rw [tags, (serves_tagsByScopesAndName hA hn scopes hname isPartial s hs).2,
        mem_joinedNames hsound hscoped hglobal hnamed hall hmax]
      refine and_congr_right fun _ => ?_
      by_cases hm : globalScope ∈ scopes <;> by_cases hnone : namedScopes scopes = [] <;>
        simp [Wants, queries, parent?, byScopesAndName_accepts, hname, hm, hnone]
  | tagsByScopesAndKind scopes kinds =>
      have hne : kinds ≠ [] := fun hne => hasks (by simp [queries, hne])
      have htaken' : ∀ scope ∈ scopes, (byScope scope o.searchLimit).Taken db := by
        simpa [queries, hne] using htaken
      rw [tags, (serves_tagsByScopesAndKind hk.1 hk.2 hne scopes s hs).2,
        mem_gathered_iff htaken' hall hmax hscoped (fun _ _ => List.not_mem_nil) (Nat.zero_le _)]
      simp [Wants, queries, parent?, accepts, byScope, Condition.holds, Test.holds, TextColumn.of, hne]
  | _ => exact absurd trivial hone

/-- A limit that is no number to the database finds nothing at all. -/
theorem tags_of_large_limit (hlarge : maxLimit < question.limitOf o.searchLimit) : (question.tags.run s).1 = [] := by
  have hfound : ∀ a ∈ question.queries o.caseSensitive o.searchLimit, found a.1 a.2 db = [] :=
    fun a ha => found_of_limit ((queries_spec ⟨hA, hn⟩ hk ha).1 ▸ hlarge)
  by_cases hone : question.AsksOnce
  · rw [tags_of_asksOnce hs hA hn hk hone, List.flatMap_eq_nil_iff.mpr hfound, narrow]
    split <;> rfl
  by_cases hasks : question.queries o.caseSensitive o.searchLimit = []
  · exact tags_of_no_queries (hs.options ▸ hasks)
  cases question with
  | fileScopedTags file name kinds =>
      have hf : file ≠ "" := fun hf => hasks (by simp [queries, hf])
      simp only [queries, if_neg hf, List.forall_mem_cons] at hfound
      rw [tags, (serves_fileScopedTags hA hn hk.1 hk.2 hf name s hs).2, hfound.1, hfound.2.1]
      exact List.mergeSort_nil
  | tagsByScopesAndName scopes name isPartial =>
      have hname : name ≠ "" := fun hname => hasks (by simp [queries, hname])
      rw [tags, (serves_tagsByScopesAndName hA hn scopes hname isPartial s hs).2]
      have hl : 1 ≤ o.searchLimit := Nat.lt_of_le_of_lt (Nat.zero_le _) hlarge
      exact List.eq_nil_iff_forall_not_mem.mpr fun r hr =>
        Nat.not_le.mpr hlarge (usable_of_mem_joinedNames hl hr).2
  | tagsByScopesAndKind scopes kinds =>
      have hne : kinds ≠ [] := fun hne => hasks (by simp [queries, hne])
      rw [tags, (serves_tagsByScopesAndKind hk.1 hk.2 hne scopes s hs).2]
      exact gathered_of_large_limit hlarge
  | _ => exact absurd trivial hone

end Serving

end Question

namespace Store

variable {s : Store}

/-- A search limit for all tags cuts none of the rows that a lookup wants, as long as it is a number to the
database; a larger one leaves nothing of them. -/
theorem large_limit_cuts_nothing (h : s.Reachable) (hf : s.Fresh) (hs : s.Steady) {question : Question}
    (hkinds : question.FiltersBy fun kinds => kinds = [] ∨ s.PlainlyAsked ∧ PlainKinds kinds)
    (hscoped : question.WellScoped s.database)
    (htaken : ∀ a ∈ question.queries s.options.caseSensitive s.options.searchLimit, a.1.Taken s.database)
    (hall : s.database.tags.length ≤ s.options.searchLimit)
    (hmost : ∀ most ∈ question.most?, s.database.tags.length ≤ most) :
    let limit := question.limitOf s.options.searchLimit
    let answer := (question.tags.run s).1
    (limit ≤ maxLimit → ∀ r, r ∈ answer ↔ r ∈ s.database.tags ∧ question.Wants s.options s.database r) ∧
      (maxLimit < limit → answer = []) := by
  have hn : ∀ A : List String → Prop, Told A [] := fun _ _ _ htext => kindsText_eq_empty htext
  have hlimit : s.database.tags.length ≤ question.limitOf s.options.searchLimit := by
    unfold Question.limitOf
    split
    · exact Nat.le_min.mpr ⟨hmost _ ‹_›, hall⟩
    · exact hall
  obtain ⟨A, hserves, hA, hk⟩ : ∃ A, s.Serves A s.options s.database ∧ A [] ∧
      question.FiltersBy fun kinds => A kinds ∧ Told A kinds := by
    by_cases hplain : s.PlainlyAsked
    · refine ⟨PlainKinds, ⟨hs, hplain.isCurrentBy, rfl, rfl⟩, nofun, hkinds.imp ?_⟩
      rintro kinds (rfl | ⟨_, hk⟩)
      · exact ⟨nofun, hn _⟩
      · exact ⟨hk, fun _ hk' htext => kindsText_injective hk' hk htext⟩
    · refine ⟨fun _ => True, ⟨hs, hf.isCurrent, rfl, rfl⟩, trivial, hkinds.imp ?_⟩
      rintro kinds (rfl | ⟨hk, _⟩)
      · exact ⟨trivial, hn _⟩
      · exact absurd hk hplain
  exact ⟨fun hmax _ => Question.mem_tags_iff hserves hA (hn A) hk h.sound_database hscoped htaken hlimit hmax,
    Question.tags_of_large_limit hserves hA (hn A) hk⟩

/-- With a limit of two both tags are found, with one of 2^63 none of them. -/
theorem large_limit_cuts_nothing_two :
    let tag (name scope : String) : Tag := { name, file := "f.c", kind := "k", path := name, scope }
    let s (limit : Nat) := Step.act (Step.act (Step.act {} (.setSearchLimit limit)) (.openPath "tags.db"))
      (.storeTags [tag "x" "a", tag "y" "b"] 0 true)
    let question := Question.tagsByScopesAndKind ["b", "a"] ["k"]
    let answer (limit : Nat) := (question.tags.run (s limit)).1
    ⟨1, tag "x" "a"⟩ ∈ answer 2 ∧ ⟨2, tag "y" "b"⟩ ∈ answer 2 ∧ answer (maxLimit + 1) = [] := by
  intro tag s question answer
  have hrun : ∀ limit, (s limit).Unscathed ∧ (s limit).PlainlyAsked ∧ (s limit).disk.Calm :=
    fun limit => stored_once limit _
  have hsteady : ∀ limit ∈ [2, maxLimit + 1], (s limit).Steady := by
    simp only [List.forall_mem_cons]
    exact ⟨steady_of_any (hrun _).2.2 (by decide +kernel), steady_of_any (hrun _).2.2 (by decide +kernel),
      List.forall_mem_nil _⟩
  have hlimit : ∀ limit ∈ [2, maxLimit + 1], 2 ≤ limit ∧ (s limit).options.searchLimit = limit := by decide +kernel
  have htags : ∀ limit ∈ [2, maxLimit + 1], (s limit).database.tags = [⟨1, tag "x" "a"⟩, ⟨2, tag "y" "b"⟩] := by
    decide +kernel
  have hplain : PlainKinds ["k"] := by unfold PlainKinds; decide +kernel
  have htaken : ∀ db scope limit, (byScope scope limit).Taken db := fun db scope limit =>
    ⟨isTooLarge_of_text .scope scope _ limit,
      meetsTooLong_eq_false (by simp [byScope, Condition.isTooLong, Test.isTooLong])⟩
  have hresult : ∀ limit ∈ [2, maxLimit + 1],
      (limit ≤ maxLimit → ∀ r, r ∈ answer limit ↔ r ∈ [⟨1, tag "x" "a"⟩, ⟨2, tag "y" "b"⟩] ∧
        question.Wants (s limit).options (s limit).database r) ∧ (maxLimit < limit → answer limit = []) := by
    intro limit hm
    obtain ⟨hl, ho⟩ := hlimit limit hm
    have hall : (s limit).database.tags.length ≤ (s limit).options.searchLimit := by
      rw [htags limit hm, ho]
      exact hl
    have hanswer := large_limit_cuts_nothing (hrun limit).1.reachable (hrun limit).2.1.fresh (hsteady limit hm)
      (show question.FiltersBy _ from .inr ⟨(hrun limit).2.1, hplain⟩) (by simp [Question.WellScoped, question])
      (by simp [Question.queries, question, htaken]) hall (by simp [Question.most?, question])
    have hof : question.limitOf (s limit).options.searchLimit = limit := ho
    rwa [hof, htags limit hm] at hanswer
  have hwants : ∀ r ∈ [⟨1, tag "x" "a"⟩, ⟨2, tag "y" "b"⟩], question.Wants (s 2).options (s 2).database r := by
    simp [Question.Wants, Question.queries, Question.parent?, question, accepts, byScope, Condition.holds, Test.holds,
      TextColumn.of, tag]
  have hboth := (hresult 2 (by simp)).1 (by decide)
  exact ⟨(hboth _).mpr ⟨.head _, hwants _ (.head _)⟩, (hboth _).mpr ⟨.tail _ (.head _), hwants _ (.tail _ (.head _))⟩,
    (hresult _ (by simp)).2 (Nat.lt_succ_self _)⟩

end Store
end TagIndex
